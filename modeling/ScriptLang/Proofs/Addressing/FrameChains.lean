import Mathlib.Tactic.ByContra
import Mathlib.Tactic.Tauto
import ScriptLang.Proofs.Addressing.ScopeEffects
import ScriptLang.Eval.Machine

/-!
# Frames and scopes

The frames from one frame out to the global one, side by side with the scopes around a place.

* `Grows` — frames were added and names bound, and nothing else has changed;
* `Fits` — one frame for each scope, in the same order, with all the names that the scope defines, and the
  global frame behind them;
* `Fits.grows` — a fit is kept when frames grow;
* `Fits.chain_length`, `Fits.chain_frame` — what a fit says of the chain of frames.
-/

namespace ScriptLang

open Frames

variable {fs fs' fs'' : Frames} {i j p : FrameId} {name : String} {scopes : List Scope}

/-! ### Growing -/

/-- Frames were added and names bound; the frames there were keep their surroundings. -/
structure Grows (fs fs' : Frames) : Prop where
  size : fs.size ≤ fs'.size
  parent : ∀ i < fs.size, (fs'.frame i).parent = (fs.frame i).parent
  binds : ∀ i name, (fs.frame i).binds name = true → (fs'.frame i).binds name = true

lemma Grows.refl : Grows fs fs := ⟨Nat.le_refl _, fun _ _ => rfl, fun _ _ h => h⟩

lemma Grows.trans (h : Grows fs fs') (h' : Grows fs' fs'') : Grows fs fs'' :=
  ⟨Nat.le_trans h.size h'.size,
    fun i hi => (h'.parent i (Nat.lt_of_lt_of_le hi h.size)).trans (h.parent i hi),
    fun i name hb => h'.binds i name (h.binds i name hb)⟩

lemma frame_of_size_le (h : fs.size ≤ i) : fs.frame i = .empty none := by
  rw [Frames.frame, Array.getElem?_eq_none h]
  rfl

lemma lt_size_of_binds (h : (fs.frame i).binds name = true) : i < fs.size := by
  by_contra hi
  rw [frame_of_size_le (Nat.le_of_not_lt hi)] at h
  cases h

lemma get?_of_binds {f : Frame} {name : String} (h : f.binds name = true) : ∃ v, f.get? name = some v := by
  unfold Frame.binds Table.has at h
  unfold Frame.get?
  cases hm : f.mutables.get? name with
  | some v => exact ⟨v, rfl⟩
  | none =>
    rw [hm] at h
    exact Option.isSome_iff_exists.1 h

/-- At the start no frame has a name. -/
lemma frame_initial (limit : Option Nat) (i : FrameId) :
    (Machine.initial limit).frames.frame i = .empty none := by
  rcases i with _ | i
  · rfl
  · exact frame_of_size_le (Nat.succ_le_succ (Nat.zero_le i))

lemma lt_size_of_parent? (h : fs.parent? i = some p) : i < fs.size := by
  by_contra hi
  rw [Frames.parent?, frame_of_size_le (Nat.le_of_not_lt hi)] at h
  cases h

lemma Grows.parent? (h : Grows fs fs') (hp : fs.parent? i = some p) : fs'.parent? i = some p := by
  rw [Frames.parent?, h.parent i (lt_size_of_parent? hp)]
  exact hp

/-! ### Fitting -/

/-- From a frame outwards stand frames for the given scopes, each with the names that its scope defines, and
behind them the global frame. -/
def Fits (fs : Frames) : List Scope → FrameId → Prop
  | [], i => i = globalFrame
  | scope :: outer, i =>
    (∀ name, scope.get? name = some .defined → (fs.frame i).binds name = true) ∧
      ∃ p, fs.parent? i = some p ∧ Fits fs outer p

lemma Fits.grows (hg : Grows fs fs') : ∀ {scopes : List Scope} {i : FrameId}, Fits fs scopes i →
    Fits fs' scopes i
  | [], _, h => h
  | _ :: _, _, ⟨hb, p, hp, ho⟩ =>
    ⟨fun name hname => hg.binds _ name (hb name hname), p, hg.parent? hp, ho.grows hg⟩

lemma Fits.lt_size (h0 : 0 < fs.size) (h : Fits fs scopes i) : i < fs.size := by
  cases scopes with
  | nil =>
    obtain rfl : i = globalFrame := h
    exact h0
  | cons scope outer =>
    obtain ⟨-, p, hp, -⟩ := h
    exact lt_size_of_parent? hp

/-- Names that the innermost scope defines besides have to be bound by the first frame. -/
lemma Fits.enter {b : Binding} (h : Fits fs scopes i) (hb : b = .defined → (fs.frame i).binds name = true) :
    Fits fs (enter name b scopes) i := by
  cases scopes with
  | nil => exact h
  | cons scope outer =>
    obtain ⟨hs, ho⟩ := h
    refine ⟨fun other hother => ?_, ho⟩
    rw [Table.get?_put] at hother
    split at hother
    · next hn =>
      cases hother
      exact hn ▸ hb rfl
    · exact hs other hother

/-- A name that is only declared need not be bound. -/
lemma Fits.declared (h : Fits fs scopes i) : Fits fs (ScriptLang.enter name .declared scopes) i :=
  h.enter fun hb => by cases hb

lemma Fits.introduce (h : Fits fs scopes i) (hb : (fs.frame i).binds name = true) :
    Fits fs (introduce name scopes) i :=
  h.declared.enter fun _ => hb

/-! ### Chains -/

lemma chain_of_parent? (h : fs.parent? i = some p) : fs.chain i = i :: fs.chain p := by
  rw [Frames.chain]
  split
  · next hn =>
    rw [h] at hn
    cases hn
  · next q hq =>
    rw [h] at hq
    cases hq
    rfl

lemma chain_of_parent?_none (h : fs.parent? i = none) : fs.chain i = [i] := by
  rw [Frames.chain]
  split
  · rfl
  · next q hq =>
    rw [h] at hq
    cases hq

section Congr

variable (h : ∀ i, fs.parent? i = fs'.parent? i)

include h

/-- Frames in the same places have the same chains. -/
lemma chain_congr (i : FrameId) : fs.chain i = fs'.chain i := by
  induction i using Nat.strongRecOn with
  | ind i ih =>
    rcases hp : fs.parent? i with _ | p
    · rw [chain_of_parent?_none hp, chain_of_parent?_none ((h i).symm.trans hp)]
    · rw [chain_of_parent? hp, chain_of_parent? ((h i).symm.trans hp), ih p (Frames.parent?_lt hp)]

lemma ancestor_congr (hops : Nat) (i : FrameId) : fs.ancestor hops i = fs'.ancestor hops i := by
  induction hops generalizing i with
  | zero => rfl
  | succ hops ih =>
    rw [Frames.ancestor, Frames.ancestor, h i]
    split
    · rfl
    · exact ih _

end Congr

lemma chain_globalFrame : fs.chain globalFrame = [globalFrame] := by
  rw [Frames.chain]
  split
  · rfl
  · next q hq => exact absurd (parent?_lt hq) (Nat.not_lt_zero q)

lemma Fits.chain_length : ∀ {scopes : List Scope} {i : FrameId}, Fits fs scopes i →
    (fs.chain i).length = scopes.length + 1
  | [], i, h => by
    obtain rfl : i = globalFrame := h
    rw [chain_globalFrame]
    rfl
  | scope :: outer, i, ⟨_, p, hp, ho⟩ => by
    rw [chain_of_parent? hp, List.length_cons, ho.chain_length, List.length_cons]

lemma Fits.chain_last : ∀ {scopes : List Scope} {i : FrameId}, Fits fs scopes i →
    (fs.chain i).getLast? = some globalFrame
  | [], i, h => by
    obtain rfl : i = globalFrame := h
    rw [chain_globalFrame]
    rfl
  | scope :: outer, i, ⟨_, p, hp, ho⟩ => by
    have hlen := ho.chain_length
    rw [chain_of_parent? hp]
    rcases hc : fs.chain p with _ | ⟨q, qs⟩
    · rw [hc] at hlen
      cases hlen
    · rw [List.getLast?_cons_cons, ← hc]
      exact ho.chain_last

/-- The frame a number of steps out is the one at that place in the chain, and it binds the names that the
scope at that place defines. -/
lemma Fits.chain_frame : ∀ {scopes : List Scope} {i : FrameId} {d : Nat} {scope : Scope},
    Fits fs scopes i → scopes[d]? = some scope →
      (fs.chain i)[d]? = some (fs.ancestor d i) ∧
        ∀ name, scope.get? name = some .defined → (fs.frame (fs.ancestor d i)).binds name = true
  | [], _, _, _, _, hs => by cases hs
  | _ :: _, i, 0, scope, ⟨hb, p, hp, _⟩, hs => by
    cases hs
    rw [chain_of_parent? hp]
    exact ⟨rfl, hb⟩
  | _ :: outer, i, d + 1, scope, ⟨_, p, hp, ho⟩, hs => by
    rw [chain_of_parent? hp, Frames.ancestor, hp, List.getElem?_cons_succ]
    exact ho.chain_frame hs

/-! ### Changing frames -/

lemma frame_add (frame : Frame) (i : FrameId) :
    (fs.add frame).frame i = if i = fs.size then frame else fs.frame i := by
  unfold Frames.frame Frames.add
  rw [Array.getElem?_push]
  split <;> rfl

lemma size_add (frame : Frame) : (fs.add frame).size = fs.size + 1 := Array.size_push ..

lemma grows_add (frame : Frame) : Grows fs (fs.add frame) := by
  refine ⟨by rw [size_add]; exact Nat.le_succ _, fun i hi => ?_, fun i name hb => ?_⟩
  · rw [frame_add, if_neg (Nat.ne_of_lt hi)]
  · rw [frame_add]
    split
    · next hi =>
      rw [frame_of_size_le (Nat.le_of_eq hi.symm)] at hb
      cases hb
    · exact hb

lemma parent?_add {frame : Frame} (hp : frame.parent = some p) (h : p < fs.size) :
    (fs.add frame).parent? fs.size = some p := by
  rw [Frames.parent?, frame_add, if_pos rfl, hp]
  simp [Option.filter, h]

lemma frame_set (frame : Frame) (i j : FrameId) :
    Frames.frame (fs.setIfInBounds i frame) j = if i = j ∧ i < fs.size then frame else fs.frame j := by
  unfold Frames.frame
  rw [Array.getElem?_setIfInBounds]
  by_cases h : i = j
  · subst h
    by_cases hi : i < fs.size
    · simp [hi]
    · simp [hi]
  · simp [h]

/-- The frame has the value under the name. -/
def Frame.Holds (f : Frame) (name : String) (v : Value) : Prop :=
  f.mutables.get? name = some v ∨ f.constants.get? name = some v

/-- The change of a frame that puts a value into it and loses no name. -/
structure Frame.Puts (f f' : Frame) (v : Value) : Prop where
  parent : f'.parent = f.parent
  binds : ∀ name, f.binds name = true → f'.binds name = true
  holds : ∀ name w, f'.Holds name w → f.Holds name w ∨ w = v

lemma holds_put {t : Table Value} {v w : Value} {other : String}
    (h : (t.put name v).get? other = some w) : t.get? other = some w ∨ w = v := by
  rw [Table.get?_put] at h
  split at h
  · cases h
    exact .inr rfl
  · exact .inl h

lemma define_puts {f f' : Frame} {v : Value} {constant : Bool}
    (h : f.define name v constant = .ok f') : f.Puts f' v ∧ f'.binds name = true := by
  unfold Frame.define at h
  split at h
  · cases h
  · split at h
    · cases h
      refine ⟨⟨rfl, fun other hb => ?_, ?_⟩, by simp [Frame.binds, Table.has_put]⟩
      · simp only [Frame.binds, Table.has_put, Bool.or_eq_true] at hb ⊢
        tauto
      · rintro other w (hw | hw)
        · exact .inl (.inl hw)
        · exact (holds_put hw).imp_left .inr
    · cases h
      refine ⟨⟨rfl, fun other hb => ?_, ?_⟩, by simp [Frame.binds, Table.has_put]⟩
      · simp only [Frame.binds, Table.has_put, Bool.or_eq_true] at hb ⊢
        tauto
      · rintro other w (hw | hw)
        · exact (holds_put hw).imp_left .inl
        · exact .inl (.inr hw)

lemma assign_puts {f f' : Frame} {v : Value} (h : f.assign name v = .ok f') : f.Puts f' v := by
  unfold Frame.assign at h
  split at h
  · cases h
  · split at h
    · cases h
      refine ⟨rfl, fun other hb => ?_, ?_⟩
      · simp only [Frame.binds, Table.has_put, Bool.or_eq_true] at hb ⊢
        tauto
      · rintro other w (hw | hw)
        · exact (holds_put hw).imp_left .inl
        · exact .inl (.inr hw)
    · cases h

/-- The frames differ in one frame at most, into which a value was put. -/
def PutAt (i : FrameId) (v : Value) (fs fs' : Frames) : Prop :=
  ∃ f', (fs.frame i).Puts f' v ∧ fs' = fs.setIfInBounds i f'

lemma PutAt.grows {v : Value} (h : PutAt i v fs fs') : Grows fs fs' := by
  obtain ⟨f', hf, rfl⟩ := h
  refine ⟨Nat.le_of_eq Array.size_setIfInBounds.symm, fun j hj => ?_, fun j name hb => ?_⟩
  · rw [frame_set]
    split
    · next hij => rw [← hij.1, hf.parent]
    · rfl
  · rw [frame_set]
    split
    · next hij =>
      rw [← hij.1] at hb
      exact hf.binds name hb
    · exact hb

lemma PutAt.holds {v w : Value} (h : PutAt i v fs fs') (hw : (fs'.frame j).Holds name w) :
    (fs.frame j).Holds name w ∨ w = v := by
  obtain ⟨f', hf, rfl⟩ := h
  rw [frame_set] at hw
  split at hw
  · next hij => exact hij.1 ▸ hf.holds name w hw
  · exact .inl hw

lemma update_ok {f : Frame → Except FrameError Frame} (h : Frames.update i f fs = .ok () fs') :
    ∃ f', f (fs.frame i) = .ok f' ∧ fs' = fs.setIfInBounds i f' := by
  unfold Frames.update at h
  split at h
  · cases h
  · next f' hf =>
    cases h
    exact ⟨f', hf, rfl⟩

lemma update_error {f : Frame → Except FrameError Frame} {e : FrameError}
    (h : Frames.update i f fs = .error e fs') : fs' = fs := by
  unfold Frames.update at h
  split at h <;> cases h
  rfl

lemma update_of_ok {f : Frame → Except FrameError Frame} {f' : Frame} (h : f (fs.frame i) = .ok f') :
    Frames.update i f fs = .ok () (fs.setIfInBounds i f') := by
  unfold Frames.update
  simp only [h]

lemma update_of_error {f : Frame → Except FrameError Frame} {e : FrameError} (h : f (fs.frame i) = .error e) :
    Frames.update i f fs = .error e fs := by
  unfold Frames.update
  simp only [h]

lemma define_putAt {v : Value} {constant : Bool} (h : Frames.define i name v constant fs = .ok () fs') :
    PutAt i v fs fs' ∧ (i < fs.size → (fs'.frame i).binds name = true) := by
  obtain ⟨f', hf, rfl⟩ := update_ok h
  obtain ⟨hp, hb⟩ := define_puts hf
  refine ⟨⟨f', hp, rfl⟩, fun hi => ?_⟩
  rw [frame_set, if_pos ⟨rfl, hi⟩]
  exact hb

lemma assign_putAt {v : Value} (h : Frames.assign i name v fs = .ok () fs') :
    ∃ j, PutAt j v fs fs' := by
  unfold Frames.assign at h
  split at h
  · cases h
  · next j hj =>
    obtain ⟨f', hf, rfl⟩ := update_ok h
    exact ⟨j, f', assign_puts hf, rfl⟩

lemma assign_error {v : Value} {e : FrameError} (h : Frames.assign i name v fs = .error e fs') :
    fs' = fs := by
  unfold Frames.assign at h
  split at h
  · cases h
    rfl
  · exact update_error h

lemma assignAt_putAt {v : Value} {hops : Nat} (h : Frames.assignAt i hops name v fs = .ok () fs') :
    ∃ j, PutAt j v fs fs' := by
  obtain ⟨f', hf, rfl⟩ := update_ok h
  exact ⟨_, f', assign_puts hf, rfl⟩

end ScriptLang
