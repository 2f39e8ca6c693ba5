import ScriptLang.Proofs.Splitting.Alike

/-!
# Frames that differ in lines

Frames alike bind the same names, stand in the same chains and hold values alike.  The operations on frames
succeed on both or fail on both, and leave frames alike.

* `Frame.Alike`, `Frames.Alike`, `Machine.Alike` — one frame, all frames, a whole machine;
* `Frames.Alike.get`, `Frames.Alike.getAt` — values found;
* `FramesAgree`, `define_agree`, `assign_agree`, `assignAt_agree` — changes of frames.
-/

namespace ScriptLang

variable {n n' : OccurrenceId} {key : String} {i : FrameId} {v v' : Value}

/-- The same frame up to the lines of the code in it. -/
structure Frame.Alike (n : OccurrenceId) (f f' : Frame) : Prop where
  mutables : f.mutables.Alike (Value.Alike n) f'.mutables
  constants : f.constants.Alike (Value.Alike n) f'.constants
  parent : f.parent = f'.parent

/-- The same frames up to the lines of the code in them. -/
structure Frames.Alike (n : OccurrenceId) (fs fs' : Frames) : Prop where
  size : fs.size = fs'.size
  frame : ∀ i, (fs.frame i).Alike n (fs'.frame i)

/-- The same machine up to the lines of the code in it, with the same distances of the uses of names below
the given number. -/
structure Machine.Alike (n : OccurrenceId) (m m' : Machine) : Prop where
  frames : m.frames.Alike n m'.frames
  objects : m.objects.size = m'.objects.size
  properties : ∀ id, (m.objects.getD id []).Alike (Value.Alike n) (m'.objects.getD id [])
  nextStamp : m.nextStamp = m'.nextStamp
  current : m.current = m'.current
  sink : m.sink = m'.sink
  locals : ∀ k < n, m.locals[k]? = m'.locals[k]?

/-! ### One frame -/

section OneFrame

variable {f f' : Frame}

lemma empty_alike (parent : Option FrameId) : (Frame.empty parent).Alike n (Frame.empty parent) :=
  ⟨.nil, .nil, rfl⟩

lemma Frame.Alike.mono (h : f.Alike n f') (hn : n ≤ n') : f.Alike n' f' :=
  ⟨h.mutables.mono fun _ _ hv => hv.mono hn, h.constants.mono fun _ _ hv => hv.mono hn, h.parent⟩

lemma Frame.Alike.binds (h : f.Alike n f') : f.binds key = f'.binds key := by
  rw [Frame.binds, Frame.binds, h.mutables.has, h.constants.has]

lemma Frame.Alike.get? (h : f.Alike n f') (key : String) :
    Option.Rel (Value.Alike n) (f.get? key) (f'.get? key) := by
  unfold Frame.get?
  obtain ⟨hm, hm'⟩ | ⟨v, v', hm, hm', hv⟩ := rel_iff.1 (h.mutables.get? key)
  · rw [hm, hm']
    exact h.constants.get? key
  · rw [hm, hm']
    exact .some hv

lemma Frame.Alike.define {constant : Bool} (h : f.Alike n f') (hv : v.Alike n v') :
    Agree (Frame.Alike n) (f.define key v constant) (f'.define key v' constant) := by
  unfold Frame.define
  rw [h.binds]
  split
  · exact .error
  · split
    · exact .ok ⟨h.mutables, h.constants.put hv, h.parent⟩
    · exact .ok ⟨h.mutables.put hv, h.constants, h.parent⟩

lemma Frame.Alike.assign (h : f.Alike n f') (hv : v.Alike n v') :
    Agree (Frame.Alike n) (f.assign key v) (f'.assign key v') := by
  unfold Frame.assign
  rw [h.constants.has, h.mutables.has]
  split
  · exact .error
  · split
    · exact .ok ⟨h.mutables.put hv, h.constants, h.parent⟩
    · exact .error

end OneFrame

/-! ### All frames -/

section AllFrames

variable {fs fs' : Frames}

lemma Frames.Alike.parent? (h : fs.Alike n fs') : fs.parent? i = fs'.parent? i := by
  rw [Frames.parent?, Frames.parent?, (h.frame i).parent]

lemma Frames.Alike.chain (h : fs.Alike n fs') (i : FrameId) : fs.chain i = fs'.chain i :=
  chain_congr (fun _ => h.parent?) i

lemma Frames.Alike.ancestor (h : fs.Alike n fs') (hops : Nat) (i : FrameId) :
    fs.ancestor hops i = fs'.ancestor hops i := ancestor_congr (fun _ => h.parent?) hops i

lemma Frames.Alike.holder? (h : fs.Alike n fs') : fs.holder? i key = fs'.holder? i key := by
  rw [Frames.holder?, Frames.holder?, h.chain i]
  exact congrArg (List.find? · _) (funext fun j => (h.frame j).binds)

lemma Frames.Alike.getAt (h : fs.Alike n fs') (hops : Nat) :
    Agree (Value.Alike n) (fs.getAt i hops key) (fs'.getAt i hops key) := by
  rw [Frames.getAt, Frames.getAt, h.ancestor hops i]
  obtain ⟨hv, hv'⟩ | ⟨v, v', hv, hv', halike⟩ := rel_iff.1 ((h.frame (fs'.ancestor hops i)).get? key)
  · rw [hv, hv']
    exact .error
  · rw [hv, hv']
    exact .ok halike

lemma Frames.Alike.get (h : fs.Alike n fs') : Agree (Value.Alike n) (fs.get i key) (fs'.get i key) := by
  have hfound : Option.Rel (Value.Alike n) ((fs.chain i).findSome? fun j => (fs.frame j).get? key)
      ((fs'.chain i).findSome? fun j => (fs'.frame j).get? key) := by
    rw [h.chain i]
    refine findSome?_rel (P := Eq) (List.forall₂_eq_eq_eq ▸ rfl) ?_
    rintro j _ rfl
    exact (h.frame j).get? key
  rw [Frames.get, Frames.get]
  obtain ⟨hv, hv'⟩ | ⟨v, v', hv, hv', halike⟩ := rel_iff.1 hfound
  · rw [hv, hv']
    exact .error
  · rw [hv, hv']
    exact .ok halike

lemma Frames.Alike.add {f f' : Frame} (h : fs.Alike n fs') (hf : f.Alike n f') :
    (fs.add f).Alike n (fs'.add f') := by
  refine ⟨by rw [size_add, size_add, h.size], fun i => ?_⟩
  rw [frame_add, frame_add, h.size]
  split
  · exact hf
  · exact h.frame i

/-- The outcomes of two changes of frames: both succeed or both fail, with frames alike. -/
inductive FramesAgree (n : OccurrenceId) :
    EStateM.Result FrameError Frames Unit → EStateM.Result FrameError Frames Unit → Prop
  | ok {fs fs' : Frames} : fs.Alike n fs' → FramesAgree n (.ok () fs) (.ok () fs')
  | error {e e'} {fs fs' : Frames} : fs.Alike n fs' → FramesAgree n (.error e fs) (.error e' fs')

lemma update_agree {g g' : Frame → Except FrameError Frame} (h : fs.Alike n fs')
    (hg : Agree (Frame.Alike n) (g (fs.frame i)) (g' (fs'.frame i))) :
    FramesAgree n (Frames.update i g fs) (Frames.update i g' fs') := by
  unfold Frames.update
  cases hf : g (fs.frame i) with
  | error e =>
    cases hf' : g' (fs'.frame i) with
    | error e' => exact .error h
    | ok f' =>
      rw [hf, hf'] at hg
      cases hg
  | ok f =>
    cases hf' : g' (fs'.frame i) with
    | error e' =>
      rw [hf, hf'] at hg
      cases hg
    | ok f' =>
      rw [hf, hf'] at hg
      cases hg with
      | ok hff =>
        refine .ok ⟨?_, fun j => ?_⟩
        · rw [Array.size_setIfInBounds, Array.size_setIfInBounds, h.size]
        · rw [frame_set, frame_set, h.size]
          split
          · exact hff
          · exact h.frame j

lemma define_agree {constant : Bool} (h : fs.Alike n fs') (hv : v.Alike n v') :
    FramesAgree n (Frames.define i key v constant fs) (Frames.define i key v' constant fs') :=
  update_agree h ((h.frame i).define hv)

lemma assign_agree (h : fs.Alike n fs') (hv : v.Alike n v') :
    FramesAgree n (Frames.assign i key v fs) (Frames.assign i key v' fs') := by
  unfold Frames.assign
  rw [h.holder?]
  split
  · exact .error h
  · exact update_agree h ((h.frame _).assign hv)

lemma assignAt_agree {hops : Nat} (h : fs.Alike n fs') (hv : v.Alike n v') :
    FramesAgree n (Frames.assignAt i hops key v fs) (Frames.assignAt i hops key v' fs') := by
  unfold Frames.assignAt
  rw [h.ancestor]
  exact update_agree h ((h.frame _).assign hv)

end AllFrames

/-! ### Machines -/

section Machines

variable {m m' : Machine}

lemma initial_alike (limit : Option Nat) : (Machine.initial limit).Alike n (Machine.initial limit) := by
  refine ⟨⟨rfl, fun i => ?_⟩, rfl, fun _ => .nil, rfl, rfl, rfl, fun _ _ => rfl⟩
  rw [frame_initial]
  exact empty_alike none

/-- Machines alike stay so with tables that agree, also below a larger number. -/
lemma Machine.Alike.install {L L' : Locals} (h : m.Alike n m') (hn : n ≤ n')
    (hL : ∀ k < n', L[k]? = L'[k]?) : Machine.Alike n' { m with locals := L } { m' with locals := L' } :=
  ⟨⟨h.frames.size, fun i => (h.frames.frame i).mono hn⟩, h.objects,
    fun id => (h.properties id).mono fun _ _ hv => hv.mono hn, h.nextStamp, h.current, h.sink, hL⟩

end Machines

end ScriptLang
