import ScriptLang.Eval.Run
import ScriptLang.Proofs.Observing.Traced
import ScriptLang.Proofs.Frames.Operations
import ScriptLang.Proofs.Renumbering.RenumberedFrames

/-!
# Steps with other numbers

A step of running looks at the number of a use of a name only to find its distance in the table.  So with other
numbers in the code and in the machine, and a table that has the distances under these numbers, the step does the
same thing: its outcome is the renumbered outcome of what it does otherwise, with the same error if it fails.

* `Renumbering` — other numbers and a table for them;
* `Machine.renumber` — a machine with other numbers;
* `Commutes` — a computation with other numbers does what it does otherwise, renumbered;
* `Commutes.bind`, `Commutes.inFrame`, `Commutes.mapM` — how computations are put together;
* `lookUp_commutes`, `define_commutes`, … — the single steps of running.
-/

namespace ScriptLang

open Eval

/-- Other numbers, and a table that has under them the distances of another table. -/
structure Renumbering where
  number : OccurrenceId → OccurrenceId
  old : Locals
  new : Locals
  agrees : ∀ k : OccurrenceId, new[number k]? = old[k]?

/-- The same machine with other numbers, and with the table for them. -/
def Machine.renumber (ρ : Renumbering) (m : Machine) : Machine :=
  { m with frames := m.frames.renumber ρ.number,
           objects := m.objects.map (Table.mapEntries (Value.renumber ρ.number)),
           locals := ρ.new }

/-- The outcome of a computation, with its table unchanged, and the renumbered outcome. -/
structure EndsRenumbered {α β : Type} (ρ : Renumbering) (φ : α → β) (r : EStateM.Result Stop Machine α)
    (r' : EStateM.Result Stop Machine β) : Prop where
  locals : (endState r).locals = ρ.old
  result : r' = mapResult φ (Machine.renumber ρ) r

/-- **To run the second computation in the renumbered machine is to renumber what the first one does.** -/
def Commutes {α β : Type} (ρ : Renumbering) (φ : α → β) (x : Eval α) (y : Eval β) : Prop :=
  ∀ m : Machine, m.locals = ρ.old → EndsRenumbered ρ φ (x m) (y (m.renumber ρ))

variable {α β γ δ : Type} {ρ : Renumbering} {φ : α → β} {ψ : γ → δ} {x : Eval α} {y : Eval β} {m : Machine}

/-! ### Computations put together -/

lemma Commutes.pure {a : α} {b : β} (h : b = φ a) : Commutes ρ φ (pure a) (pure b) :=
  fun _ hm => ⟨hm, h ▸ rfl⟩

lemma Commutes.throw {s : Stop} : Commutes ρ φ (throw s) (throw s) := fun _ hm => ⟨hm, rfl⟩

lemma Commutes.bind {f : α → Eval γ} {f' : β → Eval δ} (h : Commutes ρ φ x y)
    (hf : ∀ a, Commutes ρ ψ (f a) (f' (φ a))) : Commutes ρ ψ (x >>= f) (y >>= f') := by
  intro m hm
  obtain ⟨hl, hr⟩ := h m hm
  rcases hx : x m with ⟨a, m1⟩ | ⟨e, m1⟩
  · rw [hx] at hl hr
    rw [Traced.bind_ok hx, Traced.bind_ok hr]
    exact hf a m1 hl
  · rw [hx] at hl hr
    rw [Traced.bind_error hx, Traced.bind_error hr]
    exact ⟨hl, rfl⟩

/-- A step that depends on the machine. -/
lemma Commutes.get_bind {f : Machine → Eval α} {f' : Machine → Eval β}
    (h : ∀ m : Machine, m.locals = ρ.old → EndsRenumbered ρ φ (f m m) (f' (m.renumber ρ) (m.renumber ρ))) :
    Commutes ρ φ (get >>= f) (get >>= f') := h

lemma Commutes.inFrame {i : FrameId} (h : Commutes ρ φ x y) : Commutes ρ φ (inFrame i x) (inFrame i y) := by
  intro m hm
  have hl := (h { m with current := i } hm).locals
  have hr : y { m.renumber ρ with current := i } = _ := (h { m with current := i } hm).result
  unfold Eval.inFrame
  simp only [hr]
  rcases hx : x { m with current := i } with ⟨a, m1⟩ | ⟨e, m1⟩
  · rw [hx] at hl
    exact ⟨hl, rfl⟩
  · rw [hx] at hl
    exact ⟨hl, rfl⟩

lemma Commutes.mapM {ψ : γ → δ} {f : γ → Eval α} {f' : δ → Eval β} (h : ∀ c, Commutes ρ φ (f c) (f' (ψ c))) :
    ∀ l : List γ, Commutes ρ (List.map φ) (l.mapM f) ((l.map ψ).mapM f')
  | [] => by
    rw [List.map_nil, List.mapM_nil, List.mapM_nil]
    exact .pure rfl
  | c :: l => by
    rw [List.map_cons, List.mapM_cons, List.mapM_cons]
    exact (h c).bind fun a => (Commutes.mapM h l).bind fun as => .pure rfl

/-! ### Errors -/

variable {line : Nat} {v : Value} {key : String}

lemma fail_commutes {e : RuntimeError} : Commutes ρ φ (fail e) (fail e) := .throw

lemma ofFrames_commutes {r : Except FrameError α} :
    Commutes ρ φ (ofFrames line r) (ofFrames line (r.map φ)) := by
  cases r with
  | ok a => exact .pure rfl
  | error e => exact .throw

lemma ofTypes_commutes {r : Except Mismatch α} : Commutes ρ φ (ofTypes line r) (ofTypes line (r.map φ)) := by
  cases r with
  | ok a => exact .pure rfl
  | error e => exact .throw

/-! ### Frames -/

lemma change_renumbered {op op' : Frames.Change Unit} (hm : m.locals = ρ.old)
    (h : op' (m.frames.renumber ρ.number) = mapResult id (Frames.renumber ρ.number) (op m.frames)) :
    EndsRenumbered ρ id (change line op m) (change line op' (m.renumber ρ)) := by
  unfold Eval.change
  simp only
  rw [show (m.renumber ρ).frames = m.frames.renumber ρ.number from rfl, h]
  cases op m.frames with
  | ok a fs => exact ⟨hm, rfl⟩
  | error e fs => exact ⟨hm, rfl⟩

lemma newFrame_commutes (frame : Frame) :
    Commutes ρ id (newFrame frame) (newFrame (frame.renumber ρ.number)) := by
  intro m hm
  refine ⟨hm, congrArg₂ EStateM.Result.ok Frames.size_renumber ?_⟩
  exact congrArg (fun frames => Machine.mk frames _ _ _ _ _) (Frames.add_renumber frame)

lemma define_commutes {name : Ident} {constant : Bool} :
    Commutes ρ id (define name v constant) (define name (v.renumber ρ.number) constant) :=
  .get_bind fun _ hm => change_renumbered hm Frames.define_renumber

lemma lookUpAs_commutes (use : Occurrence OccurrenceId) (key : String) :
    Commutes ρ (Value.renumber ρ.number) (lookUpAs use key) (lookUpAs (use.relabel id ρ.number) key) := by
  refine .get_bind fun m hm => ?_
  have hentry : (m.renumber ρ).locals[(use.relabel id ρ.number).id]? = m.locals[use.id]? :=
    (ρ.agrees use.id).trans (congrArg (·[use.id]?) hm).symm
  rw [hentry]
  cases m.locals[use.id]? with
  | none =>
    change EndsRenumbered ρ _ _ (ofFrames use.line ((m.frames.renumber ρ.number).get globalFrame key) _)
    rw [Frames.get_renumber]
    exact ofFrames_commutes m hm
  | some hops =>
    change EndsRenumbered ρ _ _ (ofFrames use.line ((m.frames.renumber ρ.number).getAt m.current hops key) _)
    rw [Frames.getAt_renumber]
    exact ofFrames_commutes m hm

lemma lookUp_commutes (use : Occurrence OccurrenceId) :
    Commutes ρ (Value.renumber ρ.number) (lookUp use) (lookUp (use.relabel id ρ.number)) :=
  lookUpAs_commutes use use.text

lemma assign_commutes (use : Occurrence OccurrenceId) :
    Commutes ρ id (assign use v) (assign (use.relabel id ρ.number) (v.renumber ρ.number)) := by
  refine .get_bind fun m hm => ?_
  have hentry : (m.renumber ρ).locals[(use.relabel id ρ.number).id]? = m.locals[use.id]? :=
    (ρ.agrees use.id).trans (congrArg (·[use.id]?) hm).symm
  rw [hentry]
  cases m.locals[use.id]? with
  | none => exact change_renumbered hm Frames.assign_renumber
  | some hops => exact change_renumbered hm Frames.assignAt_renumber

/-! ### Functions, classes and objects -/

variable {c : Class} {o : Object} {f : Closure} {name : Ident}

lemma newStamp_commutes : Commutes ρ id newStamp newStamp := fun _ hm => ⟨hm, rfl⟩

lemma newClosure_commutes (d : FunctionDecl (Stmt OccurrenceId)) :
    Commutes ρ (Closure.renumber ρ.number) (newClosure d) (newClosure (FunctionDecl.relabel id ρ.number d)) :=
  newStamp_commutes.bind fun _ => .get_bind fun _ hm => ⟨hm, rfl⟩

lemma FunctionDecl.relabelList_eq_map (f : Nat → Nat) (g : OccurrenceId → OccurrenceId)
    (ds : List (FunctionDecl (Stmt OccurrenceId))) :
    FunctionDecl.relabelList f g ds = ds.map (FunctionDecl.relabel f g) := by
  induction ds with
  | nil => rfl
  | cons d ds ih => rw [FunctionDecl.relabelList, ih, List.map_cons]

lemma newClosures_commutes (ds : List (FunctionDecl (Stmt OccurrenceId))) :
    Commutes ρ (Table.mapEntries (Closure.renumber ρ.number)) (newClosures ds)
      (newClosures (FunctionDecl.relabelList id ρ.number ds)) := by
  have hone : ∀ d : FunctionDecl (Stmt OccurrenceId),
      Commutes ρ (Prod.map id (Closure.renumber ρ.number)) (do return (d.name.text, ← newClosure d))
        (do return ((FunctionDecl.relabel id ρ.number d).name.text,
          ← newClosure (FunctionDecl.relabel id ρ.number d))) := fun d =>
    (newClosure_commutes d).bind fun f => .pure (by rw [FunctionDecl.relabel_name]; rfl)
  rw [FunctionDecl.relabelList_eq_map]
  exact (Commutes.mapM hone ds).bind fun es => .pure (ofEntries_map es)

lemma newObject_commutes (c : Class) :
    Commutes ρ (Object.renumber ρ.number) (newObject c) (newObject (c.renumber ρ.number)) := by
  intro m hm
  have hpush : (m.objects.map (Table.mapEntries (Value.renumber ρ.number))).push [] =
      (m.objects.push []).map (Table.mapEntries (Value.renumber ρ.number)) := by
    rw [Array.map_push]
    rfl
  refine ⟨hm, congrArg₂ EStateM.Result.ok ?_ ?_⟩
  · exact congrArg (fun id => Object.mk id _) Array.size_map
  · exact congrArg (fun objects => Machine.mk _ objects _ _ _ _) hpush

lemma properties_renumber (g : OccurrenceId → OccurrenceId) (objects : Array (Table Value)) (id : ObjectId) :
    (objects.map (Table.mapEntries (Value.renumber g))).getD id [] =
      (objects.getD id []).mapEntries (Value.renumber g) := by
  rw [Array.getD_eq_getD_getElem?, Array.getD_eq_getD_getElem?, Array.getElem?_map]
  cases objects[id]? <;> rfl

lemma setProperty_commutes :
    Commutes ρ id (setProperty o name v) (setProperty (o.renumber ρ.number) name (v.renumber ρ.number)) := by
  intro m hm
  refine ⟨hm, congrArg (fun objects => EStateM.Result.ok () (Machine.mk _ objects _ _ _ _)) ?_⟩
  refine Array.ext_getElem? fun i => ?_
  simp only [Machine.renumber, Object.renumber, Array.getElem?_map, Array.getElem?_modify]
  split
  · rw [Option.map_map, Option.map_map]
    exact congrArg (fun φ => Option.map φ _) (funext fun t => Table.put_mapEntries)
  · rfl

lemma receiverFrame_renumber (g : OccurrenceId → OccurrenceId) :
    receiverFrame (f.renumber g) (c.renumber g) (o.renumber g) = (receiverFrame f c o).renumber g := by
  unfold receiverFrame
  rw [Class.superclass?_renumber]
  cases c.superclass? <;> rfl

lemma bindMethod_commutes : Commutes ρ (Closure.renumber ρ.number) (bindMethod f c o)
    (bindMethod (f.renumber ρ.number) (c.renumber ρ.number) (o.renumber ρ.number)) := by
  unfold Eval.bindMethod
  rw [receiverFrame_renumber]
  exact (newFrame_commutes _).bind fun i => newStamp_commutes.bind fun s => .pure rfl

lemma method_commutes : Commutes ρ (Value.renumber ρ.number) (method o c name)
    (method (o.renumber ρ.number) (c.renumber ρ.number) name) := by
  unfold Eval.method
  rw [Class.findMethod?_renumber]
  cases c.findMethod? name.text with
  | none => exact fail_commutes
  | some p => exact bindMethod_commutes.bind fun f => .pure rfl

/-- The error of a property of another value tells the text of the value. -/
lemma invalidAccess_commutes (v : Value) : Commutes ρ φ (fail (.invalidPropertyAccess key v.text line))
    (fail (.invalidPropertyAccess key (v.renumber ρ.number).text line)) := by
  rw [Value.text_renumber]
  exact fail_commutes

lemma property_commutes : Commutes ρ (Value.renumber ρ.number) (property v name)
    (property (v.renumber ρ.number) name) := by
  cases v with
  | object o =>
    refine .get_bind fun m hm => ?_
    have hget : ((m.renumber ρ).objects.getD (o.renumber ρ.number).id []).get? name.text =
        ((m.objects.getD o.id []).get? name.text).map (Value.renumber ρ.number) :=
      (congrArg (Table.get? · name.text) (properties_renumber ρ.number m.objects o.id)).trans
        (Table.get?_mapEntries ..)
    simp only [hget]
    cases (m.objects.getD o.id []).get? name.text with
    | none => exact method_commutes m hm
    | some value => exact ⟨hm, rfl⟩
  | ofClass c =>
    unfold Eval.property
    simp only [Value.renumber, Class.findStatic?_renumber]
    cases c.findStatic? name.text with
    | none => exact fail_commutes
    | some f => exact .pure rfl
  | closure f => exact invalidAccess_commutes (.closure f)
  | _ => exact fail_commutes

lemma superProperty_commutes (use : Occurrence OccurrenceId) :
    Commutes ρ (Value.renumber ρ.number) (superProperty use name)
      (superProperty (use.relabel id ρ.number) name) := by
  refine (lookUp_commutes use).bind fun v => ?_
  cases v with
  | ofClass c =>
    refine (lookUpAs_commutes use "this").bind fun w => ?_
    cases w with
    | object o => exact method_commutes
    | closure f => exact invalidAccess_commutes (.closure f)
    | ofClass d => exact invalidAccess_commutes (.ofClass d)
    | _ => exact fail_commutes
  | closure f => exact invalidAccess_commutes (.closure f)
  | object o => exact invalidAccess_commutes (.object o)
  | _ => exact fail_commutes

/-! ### Output -/

lemma printLine_commutes {text : String} : Commutes ρ id (printLine text) (printLine text) := by
  intro m hm
  unfold Eval.printLine
  simp only [Machine.renumber]
  split
  · exact ⟨hm, if_pos ‹_›⟩
  · exact ⟨hm, if_neg ‹_›⟩

end ScriptLang
