import Mathlib.Data.List.Forall2
import Mathlib.Data.Option.Defs
import Mathlib.Tactic.Lemma
import ScriptLang.Eval.Operator

/-!
# Related values

Two values are related if they have the same form, with related functions in the same places.  What a program can
see of a value does not depend on the code of functions: related values have the same type, text and truth, and
no operator tells them apart.

* `Table.Alike` — tables with the same names and related entries;
* `properties_push`, `properties_modify` — the tables of the properties of objects;
* `Value.Related` — values with related functions, and `Faithful`, what is asked of related functions;
* `Class.Related.findMethod?`, … — what is found in related things is related;
* `Value.Related.text`, `Value.Related.binary`, … — what does not tell related values apart.
-/

namespace ScriptLang

/-! ### Tables -/

/-- The same names in the same order, with related entries. -/
def Table.Alike {α : Type} (R : α → α → Prop) (t t' : Table α) : Prop :=
  List.Forall₂ (fun p p' => p.1 = p'.1 ∧ R p.2 p'.2) t t'

section Tables

variable {α β γ δ : Type} {R : α → α → Prop} {t t' : Table α} {key : String}

lemma Table.Alike.get? (h : t.Alike R t') (key : String) : Option.Rel R (t.get? key) (t'.get? key) := by
  induction h with
  | nil => exact .none
  | @cons p p' t t' hp _ ih =>
    obtain ⟨k, v⟩ := p
    obtain ⟨k', v'⟩ := p'
    obtain ⟨rfl, hv⟩ := hp
    simp only [Table.get?]
    split
    · exact .some hv
    · exact ih

lemma rel_iff {S : α → β → Prop} {o : Option α} {o' : Option β} :
    Option.Rel S o o' ↔ (o = none ∧ o' = none) ∨ ∃ a b, o = some a ∧ o' = some b ∧ S a b := by
  constructor
  · intro h
    cases h with
    | none => exact .inl ⟨rfl, rfl⟩
    | some h => exact .inr ⟨_, _, rfl, rfl, h⟩
  · rintro (⟨rfl, rfl⟩ | ⟨a, b, rfl, rfl, h⟩)
    · exact .none
    · exact .some h

lemma isSome_eq_of_rel {S : α → β → Prop} {o : Option α} {o' : Option β} (h : Option.Rel S o o') :
    o.isSome = o'.isSome := by
  cases h <;> rfl

lemma Table.Alike.has (h : t.Alike R t') : t.has key = t'.has key := isSome_eq_of_rel (h.get? key)

lemma Table.Alike.put {v v' : α} (h : t.Alike R t') (hv : R v v') :
    (t.put key v).Alike R (t'.put key v') := by
  induction h with
  | nil => exact .cons ⟨rfl, hv⟩ .nil
  | @cons p p' t t' hp ht ih =>
    obtain ⟨k, w⟩ := p
    obtain ⟨k', w'⟩ := p'
    obtain ⟨rfl, hw⟩ := hp
    simp only [Table.put]
    split
    · exact .cons ⟨rfl, hv⟩ ht
    · exact .cons ⟨rfl, hw⟩ ih

lemma Table.Alike.names (h : t.Alike R t') : t.names = t'.names := by
  induction h with
  | nil => rfl
  | cons hp _ ih => exact congrArg₂ List.cons hp.1 ih

lemma Table.Alike.mono {S : α → α → Prop} (h : t.Alike R t') (hRS : ∀ a b, R a b → S a b) :
    t.Alike S t' := List.Forall₂.imp (fun _ _ hp => ⟨hp.1, hRS _ _ hp.2⟩) h

lemma ofEntries_alike {es es' : List (String × α)}
    (h : List.Forall₂ (fun p p' => p.1 = p'.1 ∧ R p.2 p'.2) es es') :
    (Table.ofEntries es).Alike R (Table.ofEntries es') := by
  have fold : ∀ {es es' : List (String × α)}, List.Forall₂ (fun p p' => p.1 = p'.1 ∧ R p.2 p'.2) es es' →
      ∀ {t t' : Table α}, t.Alike R t' → Table.Alike R
        (es.foldl (fun t p => t.put p.1 p.2) t) (es'.foldl (fun t p => t.put p.1 p.2) t') := by
    intro es es' h
    induction h with
    | nil => exact fun ht => ht
    | @cons p p' es es' hp _ ih =>
      obtain ⟨k, v⟩ := p
      obtain ⟨k', v'⟩ := p'
      obtain ⟨rfl, hv⟩ := hp
      exact fun ht => ih (ht.put hv)
  rw [Table.ofEntries_eq_foldl, Table.ofEntries_eq_foldl]
  exact fold h .nil

/-- The first things found in related lists are related. -/
lemma findSome?_rel {P : α → β → Prop} {S : γ → δ → Prop} {f : α → Option γ} {g : β → Option δ}
    {l : List α} {l' : List β} (h : List.Forall₂ P l l') (hfg : ∀ a b, P a b → Option.Rel S (f a) (g b)) :
    Option.Rel S (l.findSome? f) (l'.findSome? g) := by
  induction h with
  | nil => exact .none
  | @cons a b l l' hab _ ih =>
    rw [List.findSome?_cons, List.findSome?_cons]
    obtain ⟨hf, hg⟩ | ⟨c, d, hf, hg, hcd⟩ := rel_iff.1 (hfg a b hab)
    · rw [hf, hg]
      exact ih
    · rw [hf, hg]
      exact .some hcd

end Tables

/-! ### Properties of objects -/

section Properties

variable {R : Value → Value → Prop} {objects objects' : Array (Table Value)} {v v' : Value}

lemma getD_push_nil (objects : Array (Table Value)) (id : ObjectId) :
    (objects.push []).getD id [] = objects.getD id [] := by
  simp only [Array.getD_eq_getD_getElem?, Array.getElem?_push]
  split
  · next h =>
    rw [h, Array.getElem?_eq_none (Nat.le_refl _)]
    rfl
  · rfl

variable (h : ∀ id, (objects.getD id []).Alike R (objects'.getD id []))

include h

/-- A new object has no properties. -/
lemma properties_push (id : ObjectId) : ((objects.push []).getD id []).Alike R ((objects'.push []).getD id []) := by
  rw [getD_push_nil, getD_push_nil]
  exact h id

/-- A property is set on both sides, of the same object. -/
lemma properties_modify (hsize : objects.size = objects'.size) (hv : R v v') (o : ObjectId) (key : String)
    (id : ObjectId) :
    ((objects.modify o fun t => t.put key v).getD id []).Alike R
      ((objects'.modify o fun t => t.put key v').getD id []) := by
  have hid := h id
  simp only [Array.getD_eq_getD_getElem?, Array.getElem?_modify] at hid ⊢
  by_cases hi : o = id
  · subst hi
    rw [if_pos rfl, if_pos rfl]
    by_cases hlt : o < objects.size
    · rw [Array.getElem?_eq_getElem hlt, Array.getElem?_eq_getElem (hsize ▸ hlt)] at hid ⊢
      exact hid.put hv
    · rw [Array.getElem?_eq_none (Nat.le_of_not_lt hlt), Array.getElem?_eq_none (hsize ▸ Nat.le_of_not_lt hlt)]
      exact .nil
  · rw [if_neg hi, if_neg hi]
    exact hid

end Properties

/-! ### Values -/

section Values

variable (F M : Closure → Closure → Prop)

/-- Related functions have the same identity, the same name and the same number of parameters. -/
class Faithful : Prop where
  stamp : ∀ {f f'}, F f f' → f'.stamp = f.stamp
  name : ∀ {f f'}, F f f' → f'.name = f.name
  arity : ∀ {f f'}, F f f' → f'.arity = f.arity

/-- The same class declaration with related static methods and related methods. -/
structure ClassBody.Related (b b' : ClassBody) : Prop where
  stamp : b'.stamp = b.stamp
  name : b'.name = b.name
  methods : b.methods.Alike M b'.methods
  statics : b.statics.Alike F b'.statics

/-- The same class with related functions. -/
structure Class.Related (c c' : Class) : Prop where
  own : c.own.Related F M c'.own
  ancestors : List.Forall₂ (ClassBody.Related F M) c.ancestors c'.ancestors

/-- The same instance of related classes. -/
structure Object.Related (o o' : Object) : Prop where
  id : o'.id = o.id
  cls : o.cls.Related F M o'.cls

/-- **The same value with related functions**: by the first relation, or by the second one if they are methods of
a class. -/
inductive Value.Related : Value → Value → Prop
  | null : Related .null .null
  | bool {b} : Related (.bool b) (.bool b)
  | number {x} : Related (.number x) (.number x)
  | string {s} : Related (.string s) (.string s)
  | closure {f f'} : F f f' → Related (.closure f) (.closure f')
  | ofClass {c c'} : c.Related F M c' → Related (.ofClass c) (.ofClass c')
  | object {o o'} : o.Related F M o' → Related (.object o) (.object o')

end Values

variable {F M F' M' : Closure → Closure → Prop} {b b' : ClassBody} {c c' : Class} {o o' : Object}
  {v v' u u' : Value}

/-! ### Other relations -/

section Imp

variable (hF : ∀ f f', F f f' → F' f f') (hM : ∀ f f', M f f' → M' f f')

include hF hM

lemma ClassBody.Related.imp (h : b.Related F M b') : b.Related F' M' b' :=
  ⟨h.stamp, h.name, h.methods.mono hM, h.statics.mono hF⟩

lemma Class.Related.imp (h : c.Related F M c') : c.Related F' M' c' :=
  ⟨h.own.imp hF hM, List.Forall₂.imp (fun _ _ hb => hb.imp hF hM) h.ancestors⟩

lemma Object.Related.imp (h : o.Related F M o') : o.Related F' M' o' := ⟨h.id, h.cls.imp hF hM⟩

lemma Value.Related.imp (h : v.Related F M v') : v.Related F' M' v' := by
  cases h with
  | null => exact .null
  | bool => exact .bool
  | number => exact .number
  | string => exact .string
  | closure h => exact .closure (hF _ _ h)
  | ofClass h => exact .ofClass (h.imp hF hM)
  | object h => exact .object (h.imp hF hM)

end Imp

/-! ### Values related to themselves -/

/-- What is related to anything is related to itself. -/
lemma forall₂_self {α : Type} {R S : α → α → Prop} {l l' : List α} (h : List.Forall₂ R l l')
    (hRS : ∀ a b, R a b → S a a) : List.Forall₂ S l l := by
  induction h with
  | nil => exact .nil
  | cons hab _ ih => exact .cons (hRS _ _ hab) ih

lemma Table.Alike.self {α : Type} {R S : α → α → Prop} {t t' : Table α} (h : t.Alike R t')
    (hRS : ∀ a b, R a b → S a a) : t.Alike S t := forall₂_self h fun _ _ he => ⟨rfl, hRS _ _ he.2⟩

section Self

variable (hF : ∀ f f', F f f' → F' f f) (hM : ∀ f f', M f f' → M' f f)

include hF hM

lemma ClassBody.Related.self (h : b.Related F M b') : b.Related F' M' b :=
  ⟨rfl, rfl, h.methods.self hM, h.statics.self hF⟩

lemma Class.Related.self (h : c.Related F M c') : c.Related F' M' c :=
  ⟨h.own.self hF hM, forall₂_self h.ancestors fun _ _ hb => hb.self hF hM⟩

lemma Value.Related.self (h : v.Related F M v') : v.Related F' M' v := by
  cases h with
  | null => exact .null
  | bool => exact .bool
  | number => exact .number
  | string => exact .string
  | closure h => exact .closure (hF _ _ h)
  | ofClass h => exact .ofClass (h.self hF hM)
  | object h => exact .object ⟨rfl, h.cls.self hF hM⟩

end Self

/-! ### Classes -/

lemma Class.Related.superclass? (h : c.Related F M c') :
    Option.Rel (Class.Related F M) c.superclass? c'.superclass? := by
  obtain ⟨own, ancestors⟩ := c
  obtain ⟨own', ancestors'⟩ := c'
  obtain ⟨-, ha⟩ := h
  cases ha with
  | nil => exact .none
  | cons hp hps => exact .some ⟨hp, hps⟩

lemma extending_related {p p' : Option Class} (hp : Option.Rel (Class.Related F M) p p')
    (hb : b.Related F M b') : (Class.extending p b).Related F M (Class.extending p' b') := by
  cases hp with
  | none => exact ⟨hb, .nil⟩
  | some hc => exact ⟨hb, .cons hc.own hc.ancestors⟩

lemma lineageFrom_related {bs bs' : List ClassBody} (h : List.Forall₂ (ClassBody.Related F M) bs bs') :
    ∀ {b b' : ClassBody}, b.Related F M b' →
      List.Forall₂ (Class.Related F M) (Class.lineageFrom b bs) (Class.lineageFrom b' bs') := by
  induction h with
  | nil => exact fun hb => .cons ⟨hb, .nil⟩ .nil
  | cons hp hps ih => exact fun hb => .cons ⟨hb, .cons hp hps⟩ (ih hp)

lemma Class.Related.lineage (h : c.Related F M c') : List.Forall₂ (Class.Related F M) c.lineage c'.lineage :=
  lineageFrom_related h.ancestors h.own

lemma Class.Related.findMethod? (h : c.Related F M c') (key : String) :
    Option.Rel (fun p p' => p.1.Related F M p'.1 ∧ M p.2 p'.2) (c.findMethod? key) (c'.findMethod? key) := by
  refine findSome?_rel h.lineage fun d d' hd => ?_
  obtain ⟨hf, hg⟩ | ⟨f, g, hf, hg, hfg⟩ := rel_iff.1 (hd.own.methods.get? key)
  · rw [hf, hg]
    exact .none
  · rw [hf, hg]
    exact .some ⟨hd, hfg⟩

lemma Class.Related.findStatic? (h : c.Related F M c') (key : String) :
    Option.Rel F (c.findStatic? key) (c'.findStatic? key) :=
  findSome?_rel h.lineage fun _ _ hd => hd.own.statics.get? key

lemma Class.Related.arity [Faithful M] (h : c.Related F M c') : c'.arity = c.arity := by
  unfold Class.arity
  obtain ⟨hf, hg⟩ | ⟨p, p', hf, hg, hp⟩ := rel_iff.1 (h.findMethod? Class.constructorName)
  · rw [hf, hg]
  · rw [hf, hg]
    exact Faithful.arity hp.2

/-! ### What values say of themselves -/

lemma Value.Related.type (h : v.Related F M v') : v'.type = v.type := by
  cases h <;> rfl

lemma Value.Related.isTruthy (h : v.Related F M v') : v'.isTruthy = v.isTruthy := by
  cases h <;> rfl

lemma Value.Related.decidedBy (op : LogicalOp) (h : v.Related F M v') : op.decidedBy v' = op.decidedBy v := by
  cases op with
  | coalesce => cases h <;> rfl
  | or => exact h.isTruthy
  | and => exact congrArg (!·) h.isTruthy

section Faithful

variable [Faithful F]

lemma Value.Related.text (h : v.Related F M v') : v'.text = v.text := by
  cases h with
  | closure hf => simp only [Value.text, Faithful.name hf]
  | ofClass hc => simp only [Value.text, hc.own.name]
  | object ho => simp only [Value.text, ho.cls.own.name]
  | _ => rfl

lemma Value.Related.equals (h : v.Related F M v') (h' : u.Related F M u') : v'.equals u' = v.equals u := by
  cases h with
  | closure hf =>
    cases h' with
    | closure hg => simp only [Value.equals, Faithful.stamp hf, Faithful.stamp hg]
    | _ => rfl
  | ofClass hc =>
    cases h' with
    | ofClass hd => simp only [Value.equals, hc.own.stamp, hd.own.stamp]
    | _ => rfl
  | object ho =>
    cases h' with
    | object hp => simp only [Value.equals, ho.id, hp.id]
    | _ => rfl
  | _ => cases h' <;> rfl

end Faithful

/-! ### Operators -/

lemma apply_truthy (v : Value) : UnaryOp.truthy.apply v = .ok (.bool v.isTruthy) := by
  cases v <;> rfl

lemma apply_equal (v w : Value) : BinaryOp.equal.apply v w = .ok (.bool (v.equals w)) := by
  cases v <;> cases w <;> rfl

lemma apply_notEqual (v w : Value) : BinaryOp.notEqual.apply v w = .ok (.bool !(v.equals w)) := by
  cases v <;> cases w <;> rfl

/-- An operator does not tell its operand from a related one. -/
lemma Value.Related.unary (op : UnaryOp) (h : v.Related F M v') : op.apply v' = op.apply v := by
  cases op with
  | truthy => rw [apply_truthy, apply_truthy, h.isTruthy]
  | negate | not => cases h <;> rfl

/-- An operator does not tell its operands from related ones. -/
lemma Value.Related.binary [Faithful F] (op : BinaryOp) (h : v.Related F M v') (h' : u.Related F M u') :
    op.apply v' u' = op.apply v u := by
  cases op with
  | equal => rw [apply_equal, apply_equal, h.equals h']
  | notEqual => rw [apply_notEqual, apply_notEqual, h.equals h']
  | plus =>
    -- a string can be joined with anything, and what is joined is the text of the other operand
    have ht := h.text
    have ht' := h'.text
    cases h <;> cases h' <;> simp_all only [BinaryOp.apply, Value.type]
  | _ => cases h <;> cases h' <;> rfl

lemma literal_related (l : Literal) : l.value.Related F M l.value := by
  cases l with
  | null => exact .null
  | bool => exact .bool
  | number => exact .number
  | string => exact .string

/-- What an operator makes of its operand is no function, class or instance. -/
lemma unary_related {op : UnaryOp} (h : op.apply v = .ok u) : u.Related F M u := by
  cases op with
  | truthy =>
    rw [apply_truthy] at h
    cases h
    exact .bool
  | negate | not =>
    cases v <;> cases h
    constructor

/-- What an operator makes of its operands is no function, class or instance. -/
lemma binary_related {op : BinaryOp} {r : Value} (h : op.apply v u = .ok r) : r.Related F M r := by
  cases op with
  | equal =>
    rw [apply_equal] at h
    cases h
    exact .bool
  | notEqual =>
    rw [apply_notEqual] at h
    cases h
    exact .bool
  | plus => cases v <;> cases u <;> cases h <;> constructor
  | _ =>
    cases v <;> cases u <;> cases h
    constructor

end ScriptLang
