import ScriptLang.Proofs.Frames.GlobalNames
import ScriptLang.Proofs.Store.Related

/-!
# The code that a machine is made of

A property of declared functions holds of all code in a machine if it holds of every function that a frame or an
object has, and of every method of the classes there.  Nothing that a program finds or computes has other code.

* `Value.MadeOf`, `Machine.MadeOf` — the property for values and for machines;
* `Class.MadeOf.extending`, `findMethod?_madeOf`, … — classes put together and searched;
* `Machine.MadeOf.change`, `Machine.MadeOf.add`, `Machine.MadeOf.setProperty` — what keeps the property.
-/

namespace ScriptLang

open Frames Eval

variable {P P' : FunctionDecl (Stmt OccurrenceId) → Prop} {c d : Class} {f : Closure} {v w : Value} {fs fs' : Frames}
  {m : Machine} {key : String}

/-! ### Values -/

/-- All methods and static methods of a class declaration have the property. -/
structure ClassBody.MadeOf (P : FunctionDecl (Stmt OccurrenceId) → Prop) (b : ClassBody) : Prop where
  methods : ∀ name f, b.methods.get? name = some f → P f.decl
  statics : ∀ name f, b.statics.get? name = some f → P f.decl

/-- A class and all classes that it descends from have the property. -/
def Class.MadeOf (P : FunctionDecl (Stmt OccurrenceId) → Prop) (c : Class) : Prop :=
  ∀ d ∈ c.lineage, d.own.MadeOf P

/-- All code that a value carries has the property. -/
def Value.MadeOf (P : FunctionDecl (Stmt OccurrenceId) → Prop) : Value → Prop
  | .closure f => P f.decl
  | .ofClass c => c.MadeOf P
  | .object o => o.cls.MadeOf P
  | _ => True

/-- All code that a machine holds has the property; and there is a global frame. -/
structure Machine.MadeOf (P : FunctionDecl (Stmt OccurrenceId) → Prop) (m : Machine) : Prop where
  size : 0 < m.frames.size
  frames : ∀ i name v, (m.frames.frame i).Holds name v → v.MadeOf P
  objects : ∀ id name v, (m.objects.getD id []).get? name = some v → v.MadeOf P

lemma Class.MadeOf.imp (h : c.MadeOf P) (hP : ∀ d, P d → P' d) : c.MadeOf P' := fun d hd =>
  ⟨fun name f hf => hP _ ((h d hd).methods name f hf), fun name f hf => hP _ ((h d hd).statics name f hf)⟩

lemma Value.MadeOf.imp (h : v.MadeOf P) (hP : ∀ d, P d → P' d) : v.MadeOf P' := by
  cases v with
  | closure f => exact hP _ h
  | ofClass c => exact Class.MadeOf.imp h hP
  | object o => exact Class.MadeOf.imp h hP
  | _ => trivial

lemma Machine.MadeOf.imp (h : m.MadeOf P) (hP : ∀ d, P d → P' d) : m.MadeOf P' :=
  ⟨h.size, fun i name v hv => (h.frames i name v hv).imp hP, fun id name v hv => (h.objects id name v hv).imp hP⟩

lemma initial_madeOf (limit : Option Nat) : (Machine.initial limit).MadeOf P := by
  refine ⟨Nat.one_pos, fun i name v h => ?_, fun id name v h => ?_⟩
  · rw [frame_initial] at h
    rcases h with h | h <;> cases h
  · cases h

/-! ### Classes -/

lemma Class.MadeOf.of_mem (h : c.MadeOf P) (hd : d ∈ c.lineage) : d.MadeOf P :=
  fun e he => h e (lineage_of_mem hd e he)

lemma Class.MadeOf.superclass (h : c.MadeOf P) (hd : c.superclass? = some d) : d.MadeOf P := by
  refine h.of_mem ?_
  rw [lineage_superclass hd]
  exact List.mem_cons_of_mem _ (mem_lineage_self d)

lemma Class.MadeOf.extending {parent : Option Class} {body : ClassBody} (hp : ∀ p ∈ parent, p.MadeOf P)
    (hb : body.MadeOf P) : (Class.extending parent body).MadeOf P := by
  cases parent with
  | none =>
    intro d hd
    obtain rfl := List.mem_singleton.1 hd
    exact hb
  | some p =>
    intro d hd
    rcases List.mem_cons.1 hd with rfl | hd
    · exact hb
    · exact hp p rfl d hd

lemma findMethod?_madeOf (h : c.MadeOf P) (hf : c.findMethod? key = some (d, f)) : d.MadeOf P ∧ P f.decl := by
  obtain ⟨e, he, hget⟩ := List.exists_of_findSome?_eq_some hf
  obtain ⟨g, hg, hpair⟩ := Option.map_eq_some_iff.1 hget
  cases hpair
  exact ⟨h.of_mem he, (h _ he).methods key f hg⟩

lemma findStatic?_madeOf (h : c.MadeOf P) (hf : c.findStatic? key = some f) : P f.decl := by
  obtain ⟨e, he, hget⟩ := List.exists_of_findSome?_eq_some hf
  exact (h e he).statics key f hget

/-! ### Values computed -/

lemma Value.IsPrimitive.madeOf (h : v.IsPrimitive) : v.MadeOf P := by
  cases v with
  | closure | ofClass | object => exact h.elim
  | _ => trivial

/-! ### Frames -/

/-- A value is put into a frame. -/
lemma Machine.MadeOf.change (h : m.MadeOf P) {i : FrameId} (hput : PutAt i v m.frames fs') (hv : v.MadeOf P) :
    Machine.MadeOf P { m with frames := fs' } := by
  refine ⟨Nat.lt_of_lt_of_le h.size hput.grows.size, fun j name w hw => ?_, h.objects⟩
  rcases hput.holds hw with hw | rfl
  · exact h.frames j name w hw
  · exact hv

/-- A frame is added. -/
lemma Machine.MadeOf.add (h : m.MadeOf P) {frame : Frame} (hframe : ∀ name v, frame.Holds name v → v.MadeOf P) :
    Machine.MadeOf P { m with frames := m.frames.add frame } := by
  refine ⟨Nat.lt_of_lt_of_le h.size (grows_add frame).size, fun i name v hv => ?_, h.objects⟩
  change (Frames.frame (m.frames.add frame) i).Holds name v at hv
  rw [frame_add] at hv
  split at hv
  · exact hframe name v hv
  · exact h.frames i name v hv

lemma empty_madeOf {parent : Option FrameId} (name : String) (v : Value) (h : (Frame.empty parent).Holds name v) :
    v.MadeOf P := by
  rcases h with h | h <;> cases h

lemma receiverFrame_madeOf {o : Object} (hc : c.MadeOf P) (ho : o.cls.MadeOf P) (name : String) (v : Value)
    (h : (receiverFrame f c o).Holds name v) : v.MadeOf P := by
  rcases receiverFrame_holds h with rfl | ⟨d, hd, rfl⟩
  · exact ho
  · exact hc.superclass hd

/-! ### Objects -/

/-- An object is made. -/
lemma Machine.MadeOf.push (h : m.MadeOf P) : Machine.MadeOf P { m with objects := m.objects.push [] } := by
  refine ⟨h.size, h.frames, fun id name v hv => ?_⟩
  rw [getD_push_nil] at hv
  exact h.objects id name v hv

/-- A property of an object is set. -/
lemma Machine.MadeOf.setProperty (h : m.MadeOf P) (hv : v.MadeOf P) (o : ObjectId) :
    Machine.MadeOf P { m with objects := m.objects.modify o fun t => t.put key v } := by
  refine ⟨h.size, h.frames, fun id name w hw => ?_⟩
  rcases get?_modify_put hw with hw | rfl
  · exact h.objects id name w hw
  · exact hv

end ScriptLang
