import ScriptLang.Proofs.Addressing.FrameChains
import ScriptLang.Proofs.Renumbering.RenumberedValues

/-!
# Renumbered frames

Frames with other numbers in the code of their functions have the same names, stand in the same chains and hold the
renumbered values.  Each operation on frames gives the renumbered result of what it gives otherwise.

* `Frame.renumber`, `Frames.renumber` — frames with other numbers;
* `mapResult` — an outcome with its value and its state replaced;
* `Frames.get_renumber`, `Frames.define_renumber`, … — operations on renumbered frames.
-/

namespace ScriptLang

/-- The same frame with other numbers. -/
def Frame.renumber (g : OccurrenceId → OccurrenceId) (f : Frame) : Frame :=
  { f with mutables := f.mutables.mapEntries (Value.renumber g),
           constants := f.constants.mapEntries (Value.renumber g) }

/-- The same frames with other numbers. -/
def Frames.renumber (g : OccurrenceId → OccurrenceId) (fs : Frames) : Frames := Array.map (Frame.renumber g) fs

/-- The outcome with its value and its state replaced. -/
def mapResult {ε σ α β : Type} (φ : α → β) (ψ : σ → σ) : EStateM.Result ε σ α → EStateM.Result ε σ β
  | .ok a s => .ok (φ a) (ψ s)
  | .error e s => .error e (ψ s)

variable {g : OccurrenceId → OccurrenceId} {key : String} {i : FrameId} {hops : Nat} {v : Value}
  {constant : Bool}

/-! ### One frame -/

namespace Frame

variable {f : Frame}

@[simp] lemma binds_renumber : (f.renumber g).binds key = f.binds key := by
  simp [Frame.binds, renumber]

lemma get?_renumber : (f.renumber g).get? key = (f.get? key).map (Value.renumber g) := by
  simp [Frame.get?, renumber, Option.map_or]

lemma define_renumber :
    (f.renumber g).define key (v.renumber g) constant = (f.define key v constant).map (renumber g) := by
  unfold Frame.define
  rw [binds_renumber]
  split
  · rfl
  · split
    · exact congrArg (fun t => Except.ok (Frame.mk _ t _)) Table.put_mapEntries
    · exact congrArg (fun t => Except.ok (Frame.mk t _ _)) Table.put_mapEntries

lemma assign_renumber : (f.renumber g).assign key (v.renumber g) = (f.assign key v).map (renumber g) := by
  have hconstants : (f.renumber g).constants.has key = f.constants.has key := Table.has_mapEntries
  have hmutables : (f.renumber g).mutables.has key = f.mutables.has key := Table.has_mapEntries
  unfold Frame.assign
  rw [hconstants, hmutables]
  split
  · rfl
  · split
    · exact congrArg (fun t => Except.ok (Frame.mk t _ _)) Table.put_mapEntries
    · rfl

end Frame

/-! ### All frames -/

namespace Frames

variable {fs : Frames}

@[simp] lemma size_renumber : (fs.renumber g).size = fs.size := Array.size_map

@[simp] lemma frame_renumber : (fs.renumber g).frame i = (fs.frame i).renumber g := by
  unfold Frames.frame renumber
  rw [Array.getElem?_map]
  cases fs[i]? <;> rfl

@[simp] lemma parent?_renumber : (fs.renumber g).parent? i = fs.parent? i := by
  rw [Frames.parent?, Frames.parent?, frame_renumber]
  rfl

@[simp] lemma chain_renumber : (fs.renumber g).chain i = fs.chain i := chain_congr (fun _ => parent?_renumber) i

@[simp] lemma ancestor_renumber : (fs.renumber g).ancestor hops i = fs.ancestor hops i :=
  ancestor_congr (fun _ => parent?_renumber) hops i

@[simp] lemma holder?_renumber : (fs.renumber g).holder? i key = fs.holder? i key := by
  simp [Frames.holder?]

lemma get_renumber : (fs.renumber g).get i key = (fs.get i key).map (Value.renumber g) := by
  have hfound : ((fs.renumber g).chain i).findSome? (fun j => ((fs.renumber g).frame j).get? key) =
      ((fs.chain i).findSome? fun j => (fs.frame j).get? key).map (Value.renumber g) := by
    simp only [chain_renumber, frame_renumber, Frame.get?_renumber, List.map_findSome?]
    rfl
  rw [Frames.get, Frames.get, hfound]
  cases (fs.chain i).findSome? fun j => (fs.frame j).get? key <;> rfl

lemma getAt_renumber : (fs.renumber g).getAt i hops key = (fs.getAt i hops key).map (Value.renumber g) := by
  rw [Frames.getAt, Frames.getAt, ancestor_renumber, frame_renumber, Frame.get?_renumber]
  cases (fs.frame (fs.ancestor hops i)).get? key <;> rfl

lemma add_renumber (frame : Frame) : (fs.renumber g).add (frame.renumber g) = (fs.add frame).renumber g :=
  Array.map_push.symm

/-! ### Changes -/

lemma update_renumber {op op' : Frame → Except FrameError Frame}
    (h : op' ((fs.frame i).renumber g) = (op (fs.frame i)).map (Frame.renumber g)) :
    update i op' (fs.renumber g) = mapResult id (renumber g) (update i op fs) := by
  unfold Frames.update
  rw [frame_renumber, h]
  cases op (fs.frame i) with
  | error e => rfl
  | ok frame => exact congrArg (EStateM.Result.ok ()) Array.map_setIfInBounds.symm

lemma define_renumber : define i key (v.renumber g) constant (fs.renumber g) =
    mapResult id (renumber g) (define i key v constant fs) :=
  update_renumber Frame.define_renumber

lemma assign_renumber : assign i key (v.renumber g) (fs.renumber g) =
    mapResult id (renumber g) (assign i key v fs) := by
  unfold Frames.assign
  rw [holder?_renumber]
  split
  · rfl
  · exact update_renumber Frame.assign_renumber

lemma assignAt_renumber : assignAt i hops key (v.renumber g) (fs.renumber g) =
    mapResult id (renumber g) (assignAt i hops key v fs) := by
  unfold Frames.assignAt
  rw [ancestor_renumber]
  exact update_renumber Frame.assign_renumber

end Frames

end ScriptLang
