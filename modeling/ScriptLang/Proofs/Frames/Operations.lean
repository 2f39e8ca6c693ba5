import ScriptLang.Proofs.Addressing.FrameChains

/-!
# Operations on frames

A name in one of the two tables of a frame is a slot.  An operation fills at most one slot or puts another value
into one, and never empties one.

* `FrameOp`, `FrameOp.perform` — the operations;
* `perform_error`, `perform_write` — what an operation does when it fails and when it succeeds;
* `Evolves` — frames that come from others by operations, each on a frame that is there;
* `Evolves.disjoint`, `Evolves.keeps` — what stays on the way.
-/

namespace ScriptLang

open Frames

/-! ### Slots -/

/-- A place for a value: a name of a frame, in one of its two tables. -/
structure Slot where
  frame : FrameId
  constant : Bool
  name : String
deriving DecidableEq

/-- What a frame has under a name in one of its tables. -/
def Frame.entry (f : Frame) (constant : Bool) (name : String) : Option Value :=
  (if constant then f.constants else f.mutables).get? name

/-- The value in a slot, if there is one. -/
def Frames.at (fs : Frames) (slot : Slot) : Option Value :=
  (fs.frame slot.frame).entry slot.constant slot.name

/-- No frame has a name in both of its tables. -/
def Frames.Disjoint (fs : Frames) : Prop :=
  ∀ i name, fs.at ⟨i, false, name⟩ = none ∨ fs.at ⟨i, true, name⟩ = none

/-- A value was put into one slot, and everything else is as it was. -/
structure Writes (slot : Slot) (v : Value) (fs fs' : Frames) : Prop where
  size : fs'.size = fs.size
  parent : ∀ i, (fs'.frame i).parent = (fs.frame i).parent
  written : fs'.at slot = some v
  others : ∀ other, other ≠ slot → fs'.at other = fs.at other

/-- No slot was emptied, and what is constant has kept its value. -/
structure KeepsSlots (fs fs' : Frames) : Prop where
  filled : ∀ slot, (fs.at slot).isSome → (fs'.at slot).isSome
  constant : ∀ i name v, fs.at ⟨i, true, name⟩ = some v → fs'.at ⟨i, true, name⟩ = some v

/-! ### Operations -/

/-- An operation on frames. -/
inductive FrameOp where
  | new (parent : Option FrameId)
  | define (i : FrameId) (name : String) (value : Value) (constant : Bool)
  | get (i : FrameId) (name : String)
  | assign (i : FrameId) (name : String) (value : Value)
  | getAt (i : FrameId) (hops : Nat) (name : String)
  | assignAt (i : FrameId) (hops : Nat) (name : String) (value : Value)

namespace FrameOp

/-- An operation that reads a value; the frames stay as they are. -/
def reading (read : Frames → Except FrameError Value) : Change (Option Value) := fun fs =>
  match read fs with
  | .ok v => .ok (some v) fs
  | .error e => .error e fs

/-- An operation that changes frames and reads nothing. -/
def writing (change : Change Unit) : Change (Option Value) := fun fs =>
  match change fs with
  | .ok _ fs' => .ok none fs'
  | .error e fs' => .error e fs'

/-- Performs an operation. -/
def perform : FrameOp → Change (Option Value)
  | new parent => fun fs => .ok none (fs.add (.empty parent))
  | define i name value constant => writing (Frames.define i name value constant)
  | get i name => reading fun fs => fs.get i name
  | assign i name value => writing (Frames.assign i name value)
  | getAt i hops name => reading fun fs => fs.getAt i hops name
  | assignAt i hops name value => writing (Frames.assignAt i hops name value)

/-- The frame from which an operation starts; a new frame needs none. -/
def start? : FrameOp → Option FrameId
  | new _ => none
  | define i .. | get i _ | assign i .. | getAt i .. | assignAt i .. => some i

/-- The operation starts from a frame that is there. -/
def OnExisting (op : FrameOp) (fs : Frames) : Prop :=
  ∀ i ∈ op.start?, i < fs.size

/-- The slot that an operation writes if it succeeds, and the value that it writes there. -/
def target? (fs : Frames) : FrameOp → Option (Slot × Value)
  | define i name value constant => some (⟨i, constant, name⟩, value)
  | assign i name value => (fs.holder? i name).map fun j => (⟨j, false, name⟩, value)
  | assignAt i hops name value => some (⟨fs.ancestor hops i, false, name⟩, value)
  | _ => none

/-- Whether an operation is one of those that write. -/
def isWrite : FrameOp → Bool
  | define .. | assign .. | assignAt .. => true
  | _ => false

end FrameOp

/-- The state in which a computation ends, whether it succeeds or fails. -/
def endState {ε σ α : Type} : EStateM.Result ε σ α → σ
  | .ok _ s | .error _ s => s

/-- The frames after an operation. -/
def FrameOp.after (op : FrameOp) (fs : Frames) : Frames :=
  endState (op.perform fs)

/-- Operations one after another, each on a frame that is there.  One that fails does not stop those behind
it. -/
inductive Performs : Frames → List FrameOp → Frames → Prop
  | nil {fs} : Performs fs [] fs
  | cons {fs fs' op ops} : FrameOp.OnExisting op fs → Performs (op.after fs) ops fs' → Performs fs (op :: ops) fs'

/-- The frames come from others by operations. -/
def Evolves (fs fs' : Frames) : Prop := ∃ ops, Performs fs ops fs'

variable {fs fs' fs'' : Frames} {f f' : Frame} {i j : FrameId} {name other : String} {v : Value} {op : FrameOp}
  {ops ops' : List FrameOp} {constant : Bool} {slot : Slot}

/-! ### Changes of one frame -/

lemma binds_eq_false (h : f.binds name = false) (constant : Bool) : f.entry constant name = none := by
  obtain ⟨hm, hc⟩ := Bool.or_eq_false_iff.1 h
  cases constant with
  | false => exact Option.isSome_eq_false_iff.1 hm |> Option.isNone_iff_eq_none.1
  | true => exact Option.isSome_eq_false_iff.1 hc |> Option.isNone_iff_eq_none.1

/-- A frame with one entry put into one of its tables. -/
structure Frame.PutEntry (constant : Bool) (name : String) (v : Value) (f f' : Frame) : Prop where
  parent : f'.parent = f.parent
  entry : ∀ c other, f'.entry c other = if c = constant ∧ name = other then some v else f.entry c other

lemma putEntry_mutable : Frame.PutEntry false name v f { f with mutables := f.mutables.put name v } := by
  refine ⟨rfl, fun c other => ?_⟩
  cases c <;> simp [Frame.entry, Table.get?_put]

lemma putEntry_constant : Frame.PutEntry true name v f { f with constants := f.constants.put name v } := by
  refine ⟨rfl, fun c other => ?_⟩
  cases c <;> simp [Frame.entry, Table.get?_put]

lemma frame_define (h : f.define name v constant = .ok f') :
    f.binds name = false ∧ f.PutEntry constant name v f' := by
  unfold Frame.define at h
  split at h
  · cases h
  · next hb =>
    refine ⟨Bool.eq_false_iff.2 hb, ?_⟩
    split at h
    · next hc =>
      cases h
      rw [hc]
      exact putEntry_constant
    · next hc =>
      cases h
      rw [Bool.eq_false_iff.2 hc]
      exact putEntry_mutable

lemma frame_assign (h : f.assign name v = .ok f') :
    (f.entry true name = none ∧ (f.entry false name).isSome) ∧ f.PutEntry false name v f' := by
  unfold Frame.assign at h
  split at h
  · cases h
  · next hc =>
    split at h
    · next hm =>
      cases h
      exact ⟨⟨Option.not_isSome_iff_eq_none.1 hc, hm⟩, putEntry_mutable⟩
    · cases h

lemma writes_update (hi : i < fs.size) (h : Frame.PutEntry constant name v (fs.frame i) f') :
    Writes ⟨i, constant, name⟩ v fs (fs.setIfInBounds i f') := by
  refine ⟨Array.size_setIfInBounds, fun j => ?_, ?_, fun other hne => ?_⟩
  · rw [frame_set]
    split
    · next hij => rw [← hij.1, h.parent]
    · rfl
  · rw [Frames.at, frame_set, if_pos ⟨rfl, hi⟩, h.entry, if_pos ⟨rfl, rfl⟩]
  · obtain ⟨j, c, text⟩ := other
    simp only [Frames.at, frame_set]
    split
    · next hij =>
      obtain rfl := hij.1
      rw [h.entry, if_neg]
      rintro ⟨rfl, rfl⟩
      exact hne rfl
    · rfl

/-! ### One operation -/

lemma ancestor_le (fs : Frames) : ∀ (hops : Nat) (i : FrameId), fs.ancestor hops i ≤ i
  | 0, i => Nat.le_refl i
  | hops + 1, i => by
    rw [Frames.ancestor]
    split
    · exact Nat.le_refl i
    · next p hp => exact Nat.le_trans (ancestor_le fs hops p) (Nat.le_of_lt (parent?_lt hp))

lemma le_of_mem_chain (fs : Frames) (i : FrameId) : ∀ j ∈ fs.chain i, j ≤ i := by
  induction i using Nat.strongRecOn with
  | ind i ih =>
    intro j hj
    rw [Frames.chain] at hj
    split at hj
    · exact Nat.le_of_eq (List.mem_singleton.1 hj)
    · next p hp =>
      rcases List.mem_cons.1 hj with rfl | hj
      · exact Nat.le_refl j
      · exact Nat.le_trans (ih p (parent?_lt hp) j hj) (Nat.le_of_lt (parent?_lt hp))

lemma holder?_le (h : fs.holder? i name = some j) : j ≤ i :=
  le_of_mem_chain fs i j (List.mem_of_find?_eq_some h)

lemma reading_end (read : Frames → Except FrameError Value) (fs : Frames) :
    endState (FrameOp.reading read fs) = fs := by
  unfold FrameOp.reading
  cases read fs <;> rfl

lemma writing_ok {change : Change Unit} {r : Option Value}
    (h : FrameOp.writing change fs = .ok r fs') : change fs = .ok () fs' := by
  unfold FrameOp.writing at h
  split at h
  · next hc =>
    cases h
    exact hc
  · cases h

lemma writing_error {change : Change Unit} {e : FrameError}
    (h : FrameOp.writing change fs = .error e fs') : change fs = .error e fs' := by
  unfold FrameOp.writing at h
  split at h
  · cases h
  · next hc =>
    cases h
    exact hc

/-- **An operation that fails leaves the frames as they are.** -/
theorem perform_error {e : FrameError} (h : op.perform fs = .error e fs') : fs' = fs := by
  cases op with
  | new parent => cases h
  | get i name | getAt i hops name =>
    refine (congrArg endState h).symm.trans ?_
    rw [FrameOp.perform, reading_end]
  | define i name v constant | assignAt i hops name v => exact update_error (writing_error h)
  | assign i name v => exact assign_error (writing_error h)

/-- What is written was free in both tables before, or it was a variable and no constant. -/
def Writable (fs : Frames) (slot : Slot) : Prop :=
  (∀ c, fs.at ⟨slot.frame, c, slot.name⟩ = none) ∨
    (slot.constant = false ∧ (fs.at slot).isSome ∧ fs.at ⟨slot.frame, true, slot.name⟩ = none)

/-- A write that succeeds has a target: there is a slot into which the value may go, and it goes there and
nowhere else. -/
lemma perform_write {r : Option Value} (hon : op.OnExisting fs) (hop : op.isWrite)
    (h : op.perform fs = .ok r fs') :
    ∃ slot v, op.target? fs = some (slot, v) ∧ Writable fs slot ∧ Writes slot v fs fs' := by
  cases op with
  | new parent | get i name | getAt i hops name => cases hop
  | define i name v constant =>
    obtain ⟨f', hf, rfl⟩ := update_ok (writing_ok h)
    obtain ⟨hfree, hput⟩ := frame_define hf
    exact ⟨_, v, rfl, .inl fun c => binds_eq_false hfree c, writes_update (hon i rfl) hput⟩
  | assign i name v =>
    have hassign := writing_ok h
    unfold Frames.assign at hassign
    split at hassign
    · cases hassign
    · next j hj =>
      obtain ⟨f', hf, rfl⟩ := update_ok hassign
      obtain ⟨⟨hconst, hvar⟩, hput⟩ := frame_assign hf
      refine ⟨⟨j, false, name⟩, v, ?_, .inr ⟨rfl, hvar, hconst⟩,
        writes_update (Nat.lt_of_le_of_lt (holder?_le hj) (hon i rfl)) hput⟩
      rw [FrameOp.target?, hj]
      rfl
  | assignAt i hops name v =>
    obtain ⟨f', hf, rfl⟩ := update_ok (writing_ok h)
    obtain ⟨⟨hconst, hvar⟩, hput⟩ := frame_assign hf
    exact ⟨_, v, rfl, .inr ⟨rfl, hvar, hconst⟩,
      writes_update (Nat.lt_of_le_of_lt (ancestor_le fs hops i) (hon i rfl)) hput⟩

/-- **All that an operation can do**: nothing, add a frame without names, or write to one slot. -/
lemma after_cases (hon : op.OnExisting fs) : op.after fs = fs ∨
    (∃ parent, op = .new parent ∧ op.after fs = fs.add (.empty parent)) ∨
      ∃ slot v, op.target? fs = some (slot, v) ∧ Writable fs slot ∧ Writes slot v fs (op.after fs) := by
  unfold FrameOp.after
  cases op with
  | new parent => exact .inr (.inl ⟨parent, rfl, rfl⟩)
  | get i name | getAt i hops name =>
    rw [FrameOp.perform, reading_end]
    exact .inl rfl
  | define i name v constant | assign i name v | assignAt i hops name v =>
    rcases h : FrameOp.perform _ fs with ⟨r, fs'⟩ | ⟨e, fs'⟩
    · exact .inr (.inr (perform_write hon rfl h))
    · exact .inl (perform_error h)

/-! ### What operations keep -/

lemma at_empty (slot : Slot) : Frames.at #[] slot = none := by
  obtain ⟨i, c, name⟩ := slot
  cases c <;> rfl

lemma at_add (slot : Slot) {parent : Option FrameId} : (fs.add (.empty parent)).at slot = fs.at slot := by
  unfold Frames.at
  rw [frame_add]
  split
  · next h =>
    rw [frame_of_size_le (Nat.le_of_eq h.symm)]
    obtain ⟨i, c, name⟩ := slot
    cases c <;> rfl
  · rfl

lemma KeepsSlots.refl : KeepsSlots fs fs := ⟨fun _ h => h, fun _ _ _ h => h⟩

lemma KeepsSlots.trans (h : KeepsSlots fs fs') (h' : KeepsSlots fs' fs'') : KeepsSlots fs fs'' :=
  ⟨fun slot hs => h'.filled slot (h.filled slot hs),
    fun i name v hv => h'.constant i name v (h.constant i name v hv)⟩

lemma Writes.keepsSlots (h : Writes slot v fs fs') (hw : Writable fs slot) : KeepsSlots fs fs' := by
  constructor
  · intro other hother
    by_cases heq : other = slot
    · rw [heq, h.written]
      rfl
    · rw [h.others other heq]
      exact hother
  · intro i name w hconst
    rw [h.others _ ?_, hconst]
    rintro rfl
    rcases hw with hfree | ⟨hvar, -⟩
    · rw [hfree true] at hconst
      cases hconst
    · cases hvar

lemma Writes.disjoint (h : Writes slot v fs fs') (hw : Writable fs slot) (hd : fs.Disjoint) : fs'.Disjoint := by
  intro i name
  -- Only in the frame and under the name of the slot can something have changed.
  by_cases hplace : i = slot.frame ∧ name = slot.name
  · obtain ⟨rfl, rfl⟩ := hplace
    have hother : fs.at ⟨slot.frame, !slot.constant, slot.name⟩ = none := by
      rcases hw with hfree | ⟨hvar, -, hconst⟩
      · exact hfree _
      · rw [hvar]
        exact hconst
    have hne : (⟨slot.frame, !slot.constant, slot.name⟩ : Slot) ≠ slot := fun heq =>
      by simpa using congrArg Slot.constant heq
    rw [← h.others _ hne] at hother
    cases hc : slot.constant <;> rw [hc] at hother
    · exact .inr hother
    · exact .inl hother
  · have hne : ∀ c, (⟨i, c, name⟩ : Slot) ≠ slot := by
      rintro c rfl
      exact hplace ⟨rfl, rfl⟩
    rw [h.others _ (hne false), h.others _ (hne true)]
    exact hd i name

lemma after_keeps (hon : op.OnExisting fs) (hd : fs.Disjoint) :
    KeepsSlots fs (op.after fs) ∧ (op.after fs).Disjoint := by
  rcases after_cases hon with h | ⟨parent, -, h⟩ | ⟨slot, v, -, hw, h⟩
  · rw [h]
    exact ⟨.refl, hd⟩
  · rw [h]
    refine ⟨⟨fun slot hs => ?_, fun i name v hv => ?_⟩, fun i name => ?_⟩
    · rwa [at_add]
    · rwa [at_add]
    · rw [at_add, at_add]
      exact hd i name
  · exact ⟨h.keepsSlots hw, h.disjoint hw hd⟩

/-! ### Sequences of operations -/

lemma Performs.append (h : Performs fs ops fs') (h' : Performs fs' ops' fs'') :
    Performs fs (ops ++ ops') fs'' := by
  induction h with
  | nil => exact h'
  | cons hon _ ih => exact .cons hon (ih h')

lemma Performs.one (hon : op.OnExisting fs) : Performs fs [op] (op.after fs) := .cons hon .nil

/-- **Operations keep what is bound**: none empties a slot or changes a constant, and no name comes into both
tables of a frame. -/
theorem Performs.keeps (h : Performs fs ops fs') (hd : fs.Disjoint) : KeepsSlots fs fs' ∧ fs'.Disjoint := by
  induction h with
  | nil => exact ⟨.refl, hd⟩
  | cons hon _ ih =>
    obtain ⟨hkeeps, hdisjoint⟩ := after_keeps hon hd
    obtain ⟨hkeeps', hdisjoint'⟩ := ih hdisjoint
    exact ⟨hkeeps.trans hkeeps', hdisjoint'⟩

lemma Evolves.trans (h : Evolves fs fs') (h' : Evolves fs' fs'') : Evolves fs fs'' := by
  obtain ⟨ops, hops⟩ := h
  obtain ⟨ops', hops'⟩ := h'
  exact ⟨ops ++ ops', hops.append hops'⟩

/-- Frames that come from nothing have no name in both tables. -/
lemma Evolves.disjoint (h : Evolves #[] fs) : fs.Disjoint := by
  obtain ⟨ops, hops⟩ := h
  exact (hops.keeps fun i name => .inl (at_empty _)).2

lemma Evolves.keeps (h : Evolves fs fs') (hd : fs.Disjoint) : KeepsSlots fs fs' := by
  obtain ⟨ops, hops⟩ := h
  exact (hops.keeps hd).1

end ScriptLang
