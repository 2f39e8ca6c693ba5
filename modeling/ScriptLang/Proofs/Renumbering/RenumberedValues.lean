import ScriptLang.Proofs.Store.Related
import ScriptLang.Proofs.Tree.OtherLines

/-!
# Renumbered values

The same value with other numbers of the uses of names in the code of its functions.  To renumber functions is a
case of relating them, so all that holds of related values holds of renumbered ones.

* `Value.renumber`, `Class.renumber`, … — values with other numbers;
* `Value.related_iff`, `Class.related_iff` — related by renumbering is renumbered;
* `Class.findMethod?_renumber`, `Value.text_renumber`, `apply_renumber`, … — what values say of themselves.
-/

namespace ScriptLang

/-! ### Entries of tables -/

/-- The table with every entry replaced. -/
def Table.mapEntries {α : Type} (φ : α → α) (t : Table α) : Table α := t.map (Prod.map id φ)

section Tables

variable {α β : Type} {φ : α → α} {t t' : Table α} {key : String} {a : α}

lemma option_rel_iff {φ : α → β} {o : Option α} {o' : Option β} :
    Option.Rel (fun a b => φ a = b) o o' ↔ o.map φ = o' := by
  constructor
  · rintro (h | _)
    · exact congrArg some h
    · rfl
  · rintro rfl
    cases o with
    | none => exact .none
    | some a => exact .some rfl

lemma forall₂_map_iff {φ : α → β} {l : List α} {l' : List β} :
    List.Forall₂ (fun a b => φ a = b) l l' ↔ l.map φ = l' := by
  rw [← List.forall₂_map_left_iff (R := Eq), List.forall₂_eq_eq_eq]

lemma Table.alike_iff : t.Alike (fun a b => φ a = b) t' ↔ t.mapEntries φ = t' := by
  unfold Table.Alike Table.mapEntries
  rw [← forall₂_map_iff]
  simp only [Prod.ext_iff, Prod.map, id]

lemma Table.alike_mapEntries (φ : α → α) (t : Table α) : t.Alike (fun a b => φ a = b) (t.mapEntries φ) :=
  Table.alike_iff.2 rfl

@[simp] lemma Table.get?_mapEntries : (t.mapEntries φ).get? key = (t.get? key).map φ :=
  (option_rel_iff.1 ((t.alike_mapEntries φ).get? key)).symm

@[simp] lemma Table.has_mapEntries : (t.mapEntries φ).has key = t.has key := (t.alike_mapEntries φ).has.symm

@[simp] lemma Table.names_mapEntries : (t.mapEntries φ).names = t.names := (t.alike_mapEntries φ).names.symm

lemma Table.put_mapEntries : (t.mapEntries φ).put key (φ a) = (t.put key a).mapEntries φ :=
  (Table.alike_iff.1 ((t.alike_mapEntries φ).put rfl)).symm

lemma ofEntries_map (es : List (String × α)) :
    Table.ofEntries (es.map (Prod.map id φ)) = (Table.ofEntries es).mapEntries φ :=
  (Table.alike_iff.1 (ofEntries_alike (Table.alike_mapEntries φ es))).symm

end Tables

/-! ### Values -/

section Definitions

variable (g : OccurrenceId → OccurrenceId)

/-- The same function with other numbers. -/
def Closure.renumber (f : Closure) : Closure := { f with decl := FunctionDecl.relabel id g f.decl }

/-- The same class declaration with other numbers. -/
def ClassBody.renumber (b : ClassBody) : ClassBody :=
  { b with methods := b.methods.mapEntries (Closure.renumber g), statics := b.statics.mapEntries (Closure.renumber g) }

/-- The same class with other numbers. -/
def Class.renumber (c : Class) : Class := ⟨c.own.renumber g, c.ancestors.map (ClassBody.renumber g)⟩

/-- The same instance with other numbers. -/
def Object.renumber (o : Object) : Object := { o with cls := o.cls.renumber g }

/-- The same value with other numbers. -/
def Value.renumber : Value → Value
  | .closure f => .closure (f.renumber g)
  | .ofClass c => .ofClass (c.renumber g)
  | .object o => .object (o.renumber g)
  | v => v

/-- The second function is the first one with other numbers. -/
def Renumbered (f f' : Closure) : Prop := f.renumber g = f'

end Definitions

variable {g : OccurrenceId → OccurrenceId} {f f' : Closure} {b b' : ClassBody} {c c' : Class} {o o' : Object}
  {v v' u : Value} {key : String}

/-! ### Related by renumbering -/

lemma FunctionDecl.arity_relabel (d : FunctionDecl (Stmt OccurrenceId)) :
    (FunctionDecl.relabel id g d).arity = d.arity := by
  cases d
  exact List.length_map _

@[simp] lemma Closure.name_renumber : (f.renumber g).name = f.name :=
  congrArg Ident.text (FunctionDecl.relabel_name id g f.decl)

@[simp] lemma Closure.arity_renumber : (f.renumber g).arity = f.arity := FunctionDecl.arity_relabel f.decl

instance : Faithful (Renumbered g) where
  stamp h := h ▸ rfl
  name h := h ▸ Closure.name_renumber
  arity h := h ▸ Closure.arity_renumber

lemma ClassBody.related_iff : b.Related (Renumbered g) (Renumbered g) b' ↔ b.renumber g = b' := by
  constructor
  · intro h
    obtain ⟨stamp, name, methods, statics⟩ := b
    obtain ⟨stamp', name', methods', statics'⟩ := b'
    obtain ⟨rfl, rfl, hm, hs⟩ := h
    exact congrArg₂ (ClassBody.mk _ _) (Table.alike_iff.1 hm) (Table.alike_iff.1 hs)
  · rintro rfl
    exact ⟨rfl, rfl, Table.alike_mapEntries _ _, Table.alike_mapEntries _ _⟩

lemma Class.related_iff : c.Related (Renumbered g) (Renumbered g) c' ↔ c.renumber g = c' := by
  constructor
  · intro h
    have ha := h.ancestors.imp fun _ _ hb => ClassBody.related_iff.1 hb
    exact congrArg₂ Class.mk (ClassBody.related_iff.1 h.own) (forall₂_map_iff.1 ha)
  · rintro rfl
    have ha : List.Forall₂ (fun b b' => b.renumber g = b') c.ancestors (c.renumber g).ancestors :=
      forall₂_map_iff.2 rfl
    exact ⟨ClassBody.related_iff.2 rfl, ha.imp fun _ _ hb => ClassBody.related_iff.2 hb⟩

lemma Value.related_iff : v.Related (Renumbered g) (Renumbered g) v' ↔ v.renumber g = v' := by
  constructor
  · intro h
    cases h with
    | closure hf => exact congrArg Value.closure hf
    | ofClass hc => exact congrArg Value.ofClass (Class.related_iff.1 hc)
    | @object o o' ho =>
      obtain ⟨id, cls⟩ := o
      obtain ⟨id', cls'⟩ := o'
      obtain ⟨rfl, hc⟩ := ho
      exact congrArg (fun cls => Value.object ⟨_, cls⟩) (Class.related_iff.1 hc)
    | _ => rfl
  · rintro rfl
    cases v with
    | null => exact .null
    | bool => exact .bool
    | number => exact .number
    | string => exact .string
    | closure f => exact .closure rfl
    | ofClass c => exact .ofClass (Class.related_iff.2 rfl)
    | object o => exact .object ⟨rfl, Class.related_iff.2 rfl⟩

lemma Class.related_renumber (g : OccurrenceId → OccurrenceId) (c : Class) :
    c.Related (Renumbered g) (Renumbered g) (c.renumber g) := Class.related_iff.2 rfl

lemma Value.related_renumber (g : OccurrenceId → OccurrenceId) (v : Value) :
    v.Related (Renumbered g) (Renumbered g) (v.renumber g) := Value.related_iff.2 rfl

/-! ### Classes -/

lemma Class.superclass?_renumber : (c.renumber g).superclass? = c.superclass?.map (Class.renumber g) := by
  obtain ⟨own, _ | ⟨parent, ancestors⟩⟩ := c <;> rfl

lemma extending_renumber (parent : Option Class) :
    Class.extending (parent.map (Class.renumber g)) (b.renumber g) = (Class.extending parent b).renumber g := by
  cases parent <;> rfl

lemma Class.lineage_renumber : (c.renumber g).lineage = c.lineage.map (Class.renumber g) := by
  have h := (c.related_renumber g).lineage.imp fun _ _ hd => Class.related_iff.1 hd
  exact (forall₂_map_iff.1 h).symm

lemma Class.findMethod?_renumber : (c.renumber g).findMethod? key =
    (c.findMethod? key).map (Prod.map (Class.renumber g) (Closure.renumber g)) := by
  obtain ⟨hn, hn'⟩ | ⟨p, p', hs, hs', hp, hf⟩ := rel_iff.1 ((c.related_renumber g).findMethod? key)
  · rw [hn, hn']
    rfl
  · have heq : Prod.map (Class.renumber g) (Closure.renumber g) p = p' := Prod.ext (Class.related_iff.1 hp) hf
    rw [hs, hs', Option.map_some, heq]

lemma Class.findStatic?_renumber :
    (c.renumber g).findStatic? key = (c.findStatic? key).map (Closure.renumber g) :=
  (option_rel_iff.1 ((c.related_renumber g).findStatic? key)).symm

@[simp] lemma Class.arity_renumber : (c.renumber g).arity = c.arity := (c.related_renumber g).arity

/-! ### What values say of themselves -/

@[simp] lemma Value.text_renumber : (v.renumber g).text = v.text := (v.related_renumber g).text

@[simp] lemma Value.isTruthy_renumber : (v.renumber g).isTruthy = v.isTruthy := (v.related_renumber g).isTruthy

@[simp] lemma decidedBy_renumber (op : LogicalOp) : op.decidedBy (v.renumber g) = op.decidedBy v :=
  (v.related_renumber g).decidedBy op

lemma Literal.value_renumber (l : Literal) : l.value.renumber g = l.value :=
  Value.related_iff.1 (literal_related l)

/-- What an operator makes of a renumbered operand is the same, and it has no numbers. -/
lemma UnaryOp.apply_renumber (op : UnaryOp) :
    op.apply (v.renumber g) = (op.apply v).map (Value.renumber g) := by
  rw [(v.related_renumber g).unary op]
  cases h : op.apply v with
  | error e => rfl
  | ok u => exact congrArg Except.ok (Value.related_iff.1 (unary_related h)).symm

/-- What an operator makes of renumbered operands is the same, and it has no numbers. -/
lemma BinaryOp.apply_renumber (op : BinaryOp) :
    op.apply (v.renumber g) (u.renumber g) = (op.apply v u).map (Value.renumber g) := by
  rw [(v.related_renumber g).binary op (u.related_renumber g)]
  cases h : op.apply v u with
  | error e => rfl
  | ok w => exact congrArg Except.ok (Value.related_iff.1 (binary_related h)).symm

end ScriptLang
