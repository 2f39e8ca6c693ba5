import ScriptLang.Proofs.Addressing.FrameChains
import ScriptLang.Proofs.Store.Related
import ScriptLang.Proofs.Tree.OtherLines

/-!
# Machines that differ in lines

Two machines are alike if they hold the same values in the same places, up to the lines of the code in them,
and agree on the distances of all uses of names below a number; the code in them uses no others.

* `Closure.Alike`, `Class.Alike`, `Value.Alike` — values that are the same up to lines;
* `Frames.Alike`, `Machine.Alike` — the same for frames and for machines;
* `Class.alike_eq`, `Value.alike_eq` — values alike are related values;
* `Class.Alike.findMethod?`, … — what is found in things alike is alike.
-/

namespace ScriptLang

variable {n n' : OccurrenceId}

/-! ### Values -/

/-- All uses of names have numbers below the given one. -/
def Below (n : OccurrenceId) (os : List (Occurrence OccurrenceId)) : Prop := ∀ o ∈ os, o.id < n

/-- The same function on other lines, with uses of names below the given number. -/
structure FunctionDecl.Alike (n : OccurrenceId) (d d' : FunctionDecl (Stmt OccurrenceId)) : Prop where
  lines : ∃ f, d' = FunctionDecl.relabel f id d
  below : Below n (FunctionDecl.occurrences d)

/-- The same function value up to lines. -/
structure Closure.Alike (n : OccurrenceId) (f f' : Closure) : Prop where
  stamp : f.stamp = f'.stamp
  decl : f.decl.Alike n f'.decl
  frame : f.frame = f'.frame

/-- The same class declaration up to lines. -/
structure ClassBody.Alike (n : OccurrenceId) (b b' : ClassBody) : Prop where
  stamp : b.stamp = b'.stamp
  name : b.name = b'.name
  methods : b.methods.Alike (Closure.Alike n) b'.methods
  statics : b.statics.Alike (Closure.Alike n) b'.statics

/-- The same class up to lines. -/
structure Class.Alike (n : OccurrenceId) (c c' : Class) : Prop where
  own : c.own.Alike n c'.own
  ancestors : List.Forall₂ (ClassBody.Alike n) c.ancestors c'.ancestors

/-- The same instance up to lines. -/
structure Object.Alike (n : OccurrenceId) (o o' : Object) : Prop where
  id : o.id = o'.id
  cls : o.cls.Alike n o'.cls

/-- The same value up to lines. -/
inductive Value.Alike (n : OccurrenceId) : Value → Value → Prop
  | null : Alike n .null .null
  | bool {b} : Alike n (.bool b) (.bool b)
  | number {x} : Alike n (.number x) (.number x)
  | string {s} : Alike n (.string s) (.string s)
  | closure {f f'} : f.Alike n f' → Alike n (.closure f) (.closure f')
  | ofClass {c c'} : c.Alike n c' → Alike n (.ofClass c) (.ofClass c')
  | object {o o'} : o.Alike n o' → Alike n (.object o) (.object o')

lemma Below.mono {os : List (Occurrence OccurrenceId)} (h : Below n os) (hn : n ≤ n') : Below n' os :=
  fun o ho => Nat.lt_of_lt_of_le (h o ho) hn

lemma below_append {os os' : List (Occurrence OccurrenceId)} :
    Below n (os ++ os') ↔ Below n os ∧ Below n os' := List.forall_mem_append

lemma Closure.Alike.mono {f f' : Closure} (h : f.Alike n f') (hn : n ≤ n') : f.Alike n' f' :=
  ⟨h.stamp, ⟨h.decl.lines, h.decl.below.mono hn⟩, h.frame⟩

/-! ### Related values -/

lemma ClassBody.alike_eq : ClassBody.Alike n = ClassBody.Related (Closure.Alike n) (Closure.Alike n) := by
  funext b b'
  exact propext ⟨fun h => ⟨h.stamp.symm, h.name.symm, h.methods, h.statics⟩,
    fun h => ⟨h.stamp.symm, h.name.symm, h.methods, h.statics⟩⟩

lemma Class.alike_eq : Class.Alike n = Class.Related (Closure.Alike n) (Closure.Alike n) := by
  funext c c'
  refine propext ⟨fun h => ⟨ClassBody.alike_eq ▸ h.own, ClassBody.alike_eq ▸ h.ancestors⟩, fun h => ⟨?_, ?_⟩⟩
  · exact ClassBody.alike_eq ▸ h.own
  · exact ClassBody.alike_eq ▸ h.ancestors

lemma Value.alike_eq : Value.Alike n = Value.Related (Closure.Alike n) (Closure.Alike n) := by
  funext v v'
  refine propext ⟨fun h => ?_, fun h => ?_⟩
  · cases h with
    | null => exact .null
    | bool => exact .bool
    | number => exact .number
    | string => exact .string
    | closure h => exact .closure h
    | ofClass h => exact .ofClass (Class.alike_eq ▸ h)
    | object h => exact .object ⟨h.id.symm, Class.alike_eq ▸ h.cls⟩
  · cases h with
    | null => exact .null
    | bool => exact .bool
    | number => exact .number
    | string => exact .string
    | closure h => exact .closure h
    | ofClass h => exact .ofClass (Class.alike_eq ▸ h)
    | object h => exact .object ⟨h.id.symm, Class.alike_eq ▸ h.cls⟩

lemma Value.Alike.mono {v v' : Value} (h : v.Alike n v') (hn : n ≤ n') : v.Alike n' v' := by
  rw [Value.alike_eq] at h ⊢
  exact h.imp (fun _ _ hf => hf.mono hn) fun _ _ hf => hf.mono hn

/-! ### What functions and classes say of themselves -/

variable {f f' : Closure} {c c' : Class} {v v' w w' : Value}

lemma FunctionDecl.Alike.name {d d' : FunctionDecl (Stmt OccurrenceId)} (h : d.Alike n d') :
    d.name.text = d'.name.text := by
  obtain ⟨g, rfl⟩ := h.lines
  cases d
  rfl

lemma FunctionDecl.Alike.arity {d d' : FunctionDecl (Stmt OccurrenceId)} (h : d.Alike n d') :
    d.arity = d'.arity := by
  obtain ⟨g, rfl⟩ := h.lines
  cases d
  exact (List.length_map _).symm

instance : Faithful (Closure.Alike n) where
  stamp h := h.stamp.symm
  name h := h.decl.name.symm
  arity h := h.decl.arity.symm

lemma Class.Alike.superclass? (h : c.Alike n c') : Option.Rel (Class.Alike n) c.superclass? c'.superclass? := by
  rw [Class.alike_eq] at h ⊢
  exact h.superclass?

lemma extending_alike {o o' : Option Class} {b b' : ClassBody} (ho : Option.Rel (Class.Alike n) o o')
    (hb : b.Alike n b') : (Class.extending o b).Alike n (Class.extending o' b') := by
  rw [Class.alike_eq] at ho ⊢
  exact extending_related ho (ClassBody.alike_eq ▸ hb)

lemma Class.Alike.lineage (h : c.Alike n c') : List.Forall₂ (Class.Alike n) c.lineage c'.lineage := by
  rw [Class.alike_eq] at h ⊢
  exact h.lineage

lemma Class.Alike.findMethod? (h : c.Alike n c') (key : String) :
    Option.Rel (fun p p' => p.1.Alike n p'.1 ∧ p.2.Alike n p'.2) (c.findMethod? key) (c'.findMethod? key) := by
  rw [Class.alike_eq] at h ⊢
  exact h.findMethod? key

lemma Class.Alike.findStatic? (h : c.Alike n c') (key : String) :
    Option.Rel (Closure.Alike n) (c.findStatic? key) (c'.findStatic? key) := by
  rw [Class.alike_eq] at h
  exact h.findStatic? key

lemma Class.Alike.arity (h : c.Alike n c') : c.arity = c'.arity := by
  rw [Class.alike_eq] at h
  exact h.arity.symm

/-! ### What values say of themselves -/

lemma Value.Alike.related (h : v.Alike n v') : v.Related (Closure.Alike n) (Closure.Alike n) v' :=
  Value.alike_eq ▸ h

lemma Value.Alike.text (h : v.Alike n v') : v.text = v'.text := h.related.text.symm

lemma Value.Alike.isTruthy (h : v.Alike n v') : v.isTruthy = v'.isTruthy := h.related.isTruthy.symm

lemma Value.Alike.decidedBy (op : LogicalOp) (h : v.Alike n v') : op.decidedBy v = op.decidedBy v' :=
  (h.related.decidedBy op).symm

/-- Two results that are related, or two failures. -/
inductive Agree {ε ε' α β : Type} (R : α → β → Prop) : Except ε α → Except ε' β → Prop
  | ok {a b} : R a b → Agree R (.ok a) (.ok b)
  | error {e e'} : Agree R (.error e) (.error e')

lemma agree_self {ε : Type} {r : Except ε Value} (h : ∀ v, r = .ok v → v.Alike n v) :
    Agree (Value.Alike n) r r := by
  cases r with
  | ok v => exact .ok (h v rfl)
  | error e => exact .error

lemma Value.Alike.unary (op : UnaryOp) (h : v.Alike n v') : Agree (Value.Alike n) (op.apply v) (op.apply v') := by
  rw [h.related.unary op]
  exact agree_self fun u hu => Value.alike_eq ▸ unary_related hu

lemma Value.Alike.binary (op : BinaryOp) (h : v.Alike n v') (h' : w.Alike n w') :
    Agree (Value.Alike n) (op.apply v w) (op.apply v' w') := by
  rw [h.related.binary op h'.related]
  exact agree_self fun u hu => Value.alike_eq ▸ binary_related hu

end ScriptLang
