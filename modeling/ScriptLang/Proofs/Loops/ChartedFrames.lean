import Mathlib.Data.List.GetD
import ScriptLang.Eval.Error
import ScriptLang.Proofs.Addressing.FrameChains
import ScriptLang.Proofs.Loops.Layers
import ScriptLang.Proofs.Store.Related

/-!
# Frames in the tree and in the source

A program run as its tree says makes more frames than the program run as it is written.  The chart says of every
frame of the first run which frame of the second one stands for it, and which layers it has around it.  Values are
the same in both runs but for the frames that functions remember.

* `Chart`, `Chart.image`, `Chart.layers` — charts;
* `Closure.ChartedAt`, `Value.Charted` — the same values, with functions that fit their frames;
* `Frames.Charted` — the same frames;
* `Frames.Charted.ancestor` — the frame at the distance in the tree has the frame at the distance in the source as
  its image;
* `Frames.Charted.addOwn`, `Frames.Charted.define`, … — operations on both sides.
-/

namespace ScriptLang

/-! ### Charts -/

/-- Where a frame stands: the frame that stands for it in the other run, and the layers from it outwards. -/
structure Spot where
  image : FrameId
  layers : Layers

/-- Where all frames stand, in the order in which they were made. -/
abbrev Chart := List Spot

namespace Chart

variable {w w' : Chart} {i : FrameId} {q : Spot}

/-- Where a frame stands. -/
def spot (w : Chart) (i : FrameId) : Spot := w.getD i ⟨globalFrame, []⟩

/-- The frame that stands for a frame in the other run. -/
def image (w : Chart) (i : FrameId) : FrameId := (w.spot i).image

/-- The layers from a frame outwards. -/
def layers (w : Chart) (i : FrameId) : Layers := (w.spot i).layers

lemma spot_of_extended (h : w <+: w') (hi : i < w.length) : w'.spot i = w.spot i := by
  obtain ⟨l, rfl⟩ := h
  exact List.getD_append w l _ i hi

lemma image_of_extended (h : w <+: w') (hi : i < w.length) : w'.image i = w.image i :=
  congrArg Spot.image (spot_of_extended h hi)

lemma layers_of_extended (h : w <+: w') (hi : i < w.length) : w'.layers i = w.layers i :=
  congrArg Spot.layers (spot_of_extended h hi)

lemma spot_last : spot (w ++ [q]) w.length = q := by
  rw [spot, List.getD_append_right _ _ _ _ (Nat.le_refl _), Nat.sub_self]
  rfl

lemma lt_push (h : i < (w ++ [q]).length) : i < w.length ∨ i = w.length := by
  rw [List.length_append] at h
  exact Nat.lt_succ_iff_lt_or_eq.1 h

end Chart

/-! ### Values -/

section Values

variable (T : Distances) (w : Chart)

/-- The same function value, whose code fits the layers of its frame or more layers. -/
structure Closure.ChartedAt (further : Layers → Layers) (f f' : Closure) : Prop where
  stamp : f'.stamp = f.stamp
  decl : f'.decl = f.decl
  frame : f'.frame = w.image f.frame
  placed : f.frame < w.length
  fits : FunctionDecl.FitsIn T (further (w.layers f.frame)) f.decl

/-- The same function. -/
abbrev Closure.Charted := Closure.ChartedAt T w id

/-- The same method of a class.  Between it and the frame of the class stands the frame of an instance. -/
abbrev Closure.ChartedMethod := Closure.ChartedAt T w (List.cons false)

/-- The same class declaration. -/
abbrev ClassBody.Charted := ClassBody.Related (Closure.Charted T w) (Closure.ChartedMethod T w)

/-- The same class. -/
abbrev Class.Charted := Class.Related (Closure.Charted T w) (Closure.ChartedMethod T w)

/-- The same instance. -/
abbrev Object.Charted := Object.Related (Closure.Charted T w) (Closure.ChartedMethod T w)

/-- **The same value**, but for the frames that functions remember. -/
abbrev Value.Charted := Value.Related (Closure.Charted T w) (Closure.ChartedMethod T w)

instance (further : Layers → Layers) : Faithful (Closure.ChartedAt T w further) where
  stamp h := h.stamp
  name h := congrArg (fun d => d.name.text) h.decl
  arity h := congrArg FunctionDecl.arity h.decl

end Values

variable {T T' : Distances} {w w' : Chart} {further : Layers → Layers} {f f' : Closure} {c c' : Class}
  {o o' : Object} {v v' : Value}

lemma Closure.ChartedAt.mono (h : f.ChartedAt T w further f') (hw : w <+: w') : f.ChartedAt T w' further f' := by
  refine ⟨h.stamp, h.decl, ?_, Nat.lt_of_lt_of_le h.placed hw.length_le, ?_⟩
  · rw [Chart.image_of_extended hw h.placed]
    exact h.frame
  · rw [Chart.layers_of_extended hw h.placed]
    exact h.fits

lemma Class.Charted.mono (h : c.Charted T w c') (hw : w <+: w') : c.Charted T w' c' :=
  h.imp (fun _ _ hf => hf.mono hw) fun _ _ hf => hf.mono hw

lemma Object.Charted.mono (h : o.Charted T w o') (hw : w <+: w') : o.Charted T w' o' :=
  h.imp (fun _ _ hf => hf.mono hw) fun _ _ hf => hf.mono hw

lemma Value.Charted.mono (h : v.Charted T w v') (hw : w <+: w') : v.Charted T w' v' :=
  h.imp (fun _ _ hf => hf.mono hw) fun _ _ hf => hf.mono hw

lemma Closure.ChartedAt.extends (h : f.ChartedAt T w further f') (hT : T.Extends T') :
    f.ChartedAt T' w further f' :=
  ⟨h.stamp, h.decl, h.frame, h.placed, FunctionDecl.FitsIn.extends hT _ h.fits⟩

/-- Values stay the same when more uses have distances. -/
lemma Value.Charted.extends (h : v.Charted T w v') (hT : T.Extends T') : v.Charted T' w v' :=
  h.imp (fun _ _ hf => hf.extends hT) fun _ _ hf => hf.extends hT

/-! ### One frame -/

/-- Two results that are related, or the same failure. -/
inductive BothWays {ε α β : Type} (R : α → β → Prop) : Except ε α → Except ε β → Prop
  | ok {a b} : R a b → BothWays R (.ok a) (.ok b)
  | error {e : ε} : BothWays R (.error e) (.error e)

/-- The same names with the same values. -/
structure Frame.Charted (T : Distances) (w : Chart) (f f' : Frame) : Prop where
  mutables : f.mutables.Alike (Value.Charted T w) f'.mutables
  constants : f.constants.Alike (Value.Charted T w) f'.constants

section Frame

variable {f f' : Frame} {key : String} {constant : Bool} {parent parent' : Option FrameId}

lemma empty_charted : (Frame.empty parent).Charted T w (Frame.empty parent') := ⟨.nil, .nil⟩

lemma Frame.Charted.mono (h : f.Charted T w f') (hw : w <+: w') : f.Charted T w' f' :=
  ⟨Table.Alike.mono h.mutables fun _ _ hv => hv.mono hw, Table.Alike.mono h.constants fun _ _ hv => hv.mono hw⟩

lemma Frame.Charted.extends (h : f.Charted T w f') (hT : T.Extends T') : f.Charted T' w f' :=
  ⟨Table.Alike.mono h.mutables fun _ _ hv => hv.extends hT, Table.Alike.mono h.constants fun _ _ hv => hv.extends hT⟩

lemma Frame.Charted.binds (h : f.Charted T w f') : f'.binds key = f.binds key := by
  rw [Frame.binds, Frame.binds, h.mutables.has, h.constants.has]

lemma Frame.Charted.get? (h : f.Charted T w f') (key : String) :
    Option.Rel (Value.Charted T w) (f.get? key) (f'.get? key) := by
  unfold Frame.get?
  obtain ⟨hm, hm'⟩ | ⟨v, v', hm, hm', hv⟩ := rel_iff.1 (h.mutables.get? key)
  · rw [hm, hm']
    exact h.constants.get? key
  · rw [hm, hm']
    exact .some hv

lemma Frame.Charted.define (h : f.Charted T w f') (hv : v.Charted T w v') :
    BothWays (Frame.Charted T w) (f.define key v constant) (f'.define key v' constant) := by
  unfold Frame.define
  rw [h.binds]
  split
  · exact .error
  · split
    · exact .ok ⟨h.mutables, h.constants.put hv⟩
    · exact .ok ⟨h.mutables.put hv, h.constants⟩

lemma Frame.Charted.assign (h : f.Charted T w f') (hv : v.Charted T w v') :
    BothWays (Frame.Charted T w) (f.assign key v) (f'.assign key v') := by
  unfold Frame.assign
  rw [h.mutables.has, h.constants.has]
  split
  · exact .error
  · split
    · exact .ok ⟨h.mutables.put hv, h.constants⟩
    · exact .error

/-- A frame that says of a name what the other one says. -/
lemma Frame.Charted.found (h : f.Charted T w f') (key : String) :
    BothWays (Value.Charted T w)
      (match f.get? key with | some value => .ok value | none => .error (FrameError.undefined key))
      (match f'.get? key with | some value => .ok value | none => .error (FrameError.undefined key)) := by
  obtain ⟨hv, hv'⟩ | ⟨v, v', hv, hv', hrel⟩ := rel_iff.1 (h.get? key)
  · rw [hv, hv']
    exact .error
  · rw [hv, hv']
    exact .ok hrel

end Frame

/-! ### All frames -/

/-- How a frame stands in both runs: it is an outermost one; or it has a counterpart of its own, inside of the
counterpart of the frame around it; or it stands for a block that has no frame in the source. -/
inductive Chart.Around (w : Chart) (fs fs' : Frames) (i : FrameId) : Prop
  | outermost : fs.parent? i = none → w.layers i = [] → Around w fs fs' i
  | own {p : FrameId} : fs.parent? i = some p → w.layers i = false :: w.layers p →
      fs'.parent? (w.image i) = some (w.image p) → Around w fs fs' i
  | round {p : FrameId} : fs.parent? i = some p → w.layers i = true :: w.layers p → w.image i = w.image p →
      Around w fs fs' i

/-- **The same frames**, but for those of the blocks around a body and an increment. -/
structure Frames.Charted (T : Distances) (w : Chart) (fs fs' : Frames) : Prop where
  size : fs.size = w.length
  positive : globalFrame < w.length
  global : w.image globalFrame = globalFrame
  image_lt : ∀ i < w.length, w.image i < fs'.size
  own : ∀ i < w.length, (w.layers i).Own → (fs.frame i).Charted T w (fs'.frame (w.image i))
  around : ∀ i < w.length, w.Around fs fs' i
  order : ∀ i j, i < j → j < w.length → (w.layers j).Own → w.image i < w.image j

variable {fs fs' : Frames} {i p : FrameId} {key : String}

lemma Chart.Around.congr {gs gs' : Frames} (h : w.Around fs fs' i) (hw : w <+: w') (hi : i < w.length)
    (hp : gs.parent? i = fs.parent? i) (hp' : gs'.parent? (w.image i) = fs'.parent? (w.image i)) :
    w'.Around gs gs' i := by
  -- The frame around a frame is an older one, so the larger chart has it in the same spot.
  have hold : ∀ p, fs.parent? i = some p → p < w.length := fun p h => Nat.lt_trans (Frames.parent?_lt h) hi
  cases h with
  | outermost h hl => exact .outermost (hp.trans h) ((layers_of_extended hw hi).trans hl)
  | @own p h hl hq =>
    refine .own (hp.trans h) ?_ ?_
    · rw [layers_of_extended hw hi, layers_of_extended hw (hold p h), hl]
    · rw [image_of_extended hw hi, image_of_extended hw (hold p h), hp', hq]
  | @round p h hl hq =>
    refine .round (hp.trans h) ?_ ?_
    · rw [layers_of_extended hw hi, layers_of_extended hw (hold p h), hl]
    · rw [image_of_extended hw hi, image_of_extended hw (hold p h), hq]

/-- The outcomes of two changes of frames: both succeed, or both fail with the same error. -/
inductive ChangesCharted (T : Distances) (w : Chart) :
    EStateM.Result FrameError Frames Unit → EStateM.Result FrameError Frames Unit → Prop
  | ok {fs fs' : Frames} : fs.Charted T w fs' → ChangesCharted T w (.ok () fs) (.ok () fs')
  | error {e : FrameError} {fs fs' : Frames} : fs.Charted T w fs' → ChangesCharted T w (.error e fs) (.error e fs')

namespace Frames.Charted

/-! ### Where a name is looked for -/

/-- **Both distances lead to the same frame.** -/
lemma ancestor (h : fs.Charted T w fs') (d : Nat) : ∀ i < w.length, (w.layers i)[d]? = some false →
    fs.ancestor d i < w.length ∧ (w.layers (fs.ancestor d i)).Own ∧
      fs'.ancestor ((w.layers i).passed d) (w.image i) = w.image (fs.ancestor d i) := by
  induction d with
  | zero =>
    intro i hi hd
    refine ⟨hi, fun htrue => ?_, rfl⟩
    have hhead : (w.layers i).head? = some false := by rw [List.head?_eq_getElem?, hd]
    have hsame : some true = some false := htrue.symm.trans hhead
    cases hsame
  | succ d ih =>
    intro i hi hd
    cases h.around i hi with
    | outermost _ hl =>
      rw [hl] at hd
      cases hd
    | @own p hp hl hp' =>
      rw [hl, List.getElem?_cons_succ] at hd
      have hlt : p < w.length := Nat.lt_trans (Frames.parent?_lt hp) hi
      obtain ⟨hlast, hown, himage⟩ := ih p hlt hd
      rw [hl, Layers.passed_own]
      simp only [Frames.ancestor, hp, hp']
      exact ⟨hlast, hown, himage⟩
    | @round p hp hl himage' =>
      rw [hl, List.getElem?_cons_succ] at hd
      have hlt : p < w.length := Nat.lt_trans (Frames.parent?_lt hp) hi
      obtain ⟨hlast, hown, himage⟩ := ih p hlt hd
      rw [hl, Layers.passed_round, himage']
      simp only [Frames.ancestor, hp]
      exact ⟨hlast, hown, himage⟩

lemma layers_global (h : fs.Charted T w fs') : w.layers globalFrame = [] := by
  cases h.around globalFrame h.positive with
  | outermost _ hl => exact hl
  | own hp | round hp => exact absurd (Frames.parent?_lt hp) (Nat.not_lt_zero _)

lemma own_global (h : fs.Charted T w fs') : (w.layers globalFrame).Own := by
  rw [h.layers_global]
  exact Layers.own_nil

/-- Frames with counterparts of their own have different ones. -/
lemma image_inj (h : fs.Charted T w fs') {j : FrameId} (hi : i < w.length) (hj : j < w.length)
    (hio : (w.layers i).Own) (hjo : (w.layers j).Own) (hij : w.image i = w.image j) : i = j := by
  rcases Nat.lt_trichotomy i j with hlt | heq | hlt
  · exact absurd hij (Nat.ne_of_lt (h.order i j hlt hj hjo))
  · exact heq
  · exact absurd hij.symm (Nat.ne_of_lt (h.order j i hlt hi hio))

/-! ### New frames -/

lemma image_last {q : Spot} : Chart.image (w ++ [q]) w.length = q.image := congrArg Spot.image Chart.spot_last

lemma layers_last {q : Spot} : Chart.layers (w ++ [q]) w.length = q.layers := congrArg Spot.layers Chart.spot_last

lemma image_push {q : Spot} (hi : i < w.length) : Chart.image (w ++ [q]) i = w.image i :=
  Chart.image_of_extended (List.prefix_append w [q]) hi

lemma layers_push {q : Spot} (hi : i < w.length) : Chart.layers (w ++ [q]) i = w.layers i :=
  Chart.layers_of_extended (List.prefix_append w [q]) hi

variable {frame frame' : Frame}

lemma parent?_add_old (hi : i < fs.size) : (fs.add frame).parent? i = fs.parent? i := by
  rw [Frames.parent?, frame_add, if_neg (Nat.ne_of_lt hi)]
  rfl

/-- A frame is made on both sides. -/
lemma addOwn (h : fs.Charted T w fs') (hf : frame.Charted T w frame') (hp : p < w.length)
    (hparent : frame.parent = some p) (hparent' : frame'.parent = some (w.image p)) :
    Frames.Charted T (w ++ [⟨fs'.size, false :: w.layers p⟩]) (fs.add frame) (fs'.add frame') := by
  have hw : w <+: w ++ [⟨fs'.size, false :: w.layers p⟩] := List.prefix_append w _
  have hsize : (fs.add frame).size = w.length + 1 := by rw [size_add, h.size]
  refine ⟨?_, ?_, ?_, fun i hi => ?_, fun i hi ho => ?_, fun i hi => ?_, fun i j hij hj ho => ?_⟩
  · rw [hsize, List.length_append]
    rfl
  · exact Nat.lt_of_lt_of_le h.positive hw.length_le
  · rw [image_push h.positive]
    exact h.global
  · rw [size_add]
    rcases Chart.lt_push hi with hi | rfl
    · rw [image_push hi]
      exact Nat.lt_succ_of_lt (h.image_lt i hi)
    · rw [image_last]
      exact Nat.lt_succ_self _
  · rcases Chart.lt_push hi with hi | rfl
    · rw [layers_push hi] at ho
      rw [image_push hi, frame_add, frame_add, if_neg (h.size ▸ Nat.ne_of_lt hi),
        if_neg (Nat.ne_of_lt (h.image_lt i hi))]
      exact (h.own i hi ho).mono hw
    · rw [image_last, frame_add, frame_add, if_pos h.size.symm, if_pos rfl]
      exact hf.mono hw
  · rcases Chart.lt_push hi with hi | rfl
    · exact (h.around i hi).congr hw hi (parent?_add_old (h.size ▸ hi)) (parent?_add_old (h.image_lt i hi))
    · refine .own (h.size ▸ parent?_add hparent (h.size ▸ hp)) ?_ ?_
      · rw [layers_last, layers_push hp]
      · rw [image_last, image_push hp]
        exact parent?_add hparent' (h.image_lt p hp)
  · rcases Chart.lt_push hj with hj | rfl
    · rw [layers_push hj] at ho
      rw [image_push hj, image_push (Nat.lt_trans hij hj)]
      exact h.order i j hij hj ho
    · rw [image_last, image_push hij]
      exact h.image_lt i hij

/-- A frame is made for a block that has none in the source. -/
lemma addRound (h : fs.Charted T w fs') (hp : p < w.length) (hparent : frame.parent = some p) :
    Frames.Charted T (w ++ [⟨w.image p, true :: w.layers p⟩]) (fs.add frame) fs' := by
  have hw : w <+: w ++ [⟨w.image p, true :: w.layers p⟩] := List.prefix_append w _
  have hsize : (fs.add frame).size = w.length + 1 := by rw [size_add, h.size]
  refine ⟨?_, ?_, ?_, fun i hi => ?_, fun i hi ho => ?_, fun i hi => ?_, fun i j hij hj ho => ?_⟩
  · rw [hsize, List.length_append]
    rfl
  · exact Nat.lt_of_lt_of_le h.positive hw.length_le
  · rw [image_push h.positive]
    exact h.global
  · rcases Chart.lt_push hi with hi | rfl
    · rw [image_push hi]
      exact h.image_lt i hi
    · rw [image_last]
      exact h.image_lt p hp
  · rcases Chart.lt_push hi with hi | rfl
    · rw [layers_push hi] at ho
      rw [image_push hi, frame_add, if_neg (h.size ▸ Nat.ne_of_lt hi)]
      exact (h.own i hi ho).mono hw
    · rw [layers_last] at ho
      exact absurd ho Layers.not_own_true
  · rcases Chart.lt_push hi with hi | rfl
    · exact (h.around i hi).congr hw hi (parent?_add_old (h.size ▸ hi)) rfl
    · refine .round (h.size ▸ parent?_add hparent (h.size ▸ hp)) ?_ ?_
      · rw [layers_last, layers_push hp]
      · rw [image_last, image_push hp]
  · rcases Chart.lt_push hj with hj | rfl
    · rw [layers_push hj] at ho
      rw [image_push hj, image_push (Nat.lt_trans hij hj)]
      exact h.order i j hij hj ho
    · rw [layers_last] at ho
      exact absurd ho Layers.not_own_true

/-! ### Changes -/

lemma parent?_set {frame : Frame} (hparent : frame.parent = (fs.frame i).parent) (j : FrameId) :
    Frames.parent? (fs.setIfInBounds i frame) j = fs.parent? j := by
  rw [Frames.parent?, Frames.parent?, frame_set]
  split
  · next hij => rw [hparent, hij.1]
  · rfl

/-- A frame with a counterpart of its own is changed on both sides. -/
lemma set (h : fs.Charted T w fs') (hi : i < w.length) (ho : (w.layers i).Own) (hf : frame.Charted T w frame')
    (hparent : frame.parent = (fs.frame i).parent) (hparent' : frame'.parent = (fs'.frame (w.image i)).parent) :
    Frames.Charted T w (fs.setIfInBounds i frame) (fs'.setIfInBounds (w.image i) frame') := by
  refine ⟨?_, h.positive, h.global, fun j hj => ?_, fun j hj hjo => ?_, fun j hj => ?_, h.order⟩
  · rw [Array.size_setIfInBounds, h.size]
  · rw [Array.size_setIfInBounds]
    exact h.image_lt j hj
  · rw [frame_set, frame_set]
    by_cases hij : i = j
    · subst hij
      rw [if_pos ⟨rfl, h.size ▸ hi⟩, if_pos ⟨rfl, h.image_lt i hi⟩]
      exact hf
    · rw [if_neg fun hc => hij hc.1, if_neg fun hc => hij (h.image_inj hi hj ho hjo hc.1)]
      exact h.own j hj hjo
  · exact (h.around j hj).congr (List.prefix_refl w) hj (parent?_set hparent j) (parent?_set hparent' (w.image j))

lemma update {g g' : Frame → Except FrameError Frame} (h : fs.Charted T w fs') (hi : i < w.length)
    (ho : (w.layers i).Own)
    (hg : BothWays (Frame.Charted T w) (g (fs.frame i)) (g' (fs'.frame (w.image i))))
    (hparent : ∀ f, g (fs.frame i) = .ok f → f.parent = (fs.frame i).parent)
    (hparent' : ∀ f, g' (fs'.frame (w.image i)) = .ok f → f.parent = (fs'.frame (w.image i)).parent) :
    ChangesCharted T w (Frames.update i g fs) (Frames.update (w.image i) g' fs') := by
  unfold Frames.update
  revert hparent hparent' hg
  generalize g (fs.frame i) = r
  generalize g' (fs'.frame (w.image i)) = r'
  rintro (hf | _) hparent hparent'
  · exact .ok (h.set hi ho hf (hparent _ rfl) (hparent' _ rfl))
  · exact .error h

lemma define (h : fs.Charted T w fs') (hi : i < w.length) (ho : (w.layers i).Own) (hv : v.Charted T w v')
    (constant : Bool) :
    ChangesCharted T w (Frames.define i key v constant fs) (Frames.define (w.image i) key v' constant fs') :=
  h.update hi ho ((h.own i hi ho).define hv) (fun _ hf => (define_puts hf).1.parent)
    fun _ hf => (define_puts hf).1.parent

lemma assignIn (h : fs.Charted T w fs') (hi : i < w.length) (ho : (w.layers i).Own) (hv : v.Charted T w v') :
    ChangesCharted T w (Frames.update i (fun f => f.assign key v) fs)
      (Frames.update (w.image i) (fun f => f.assign key v') fs') :=
  h.update hi ho ((h.own i hi ho).assign hv) (fun _ hf => (assign_puts hf).parent)
    fun _ hf => (assign_puts hf).parent

lemma assignAt (h : fs.Charted T w fs') {d : Nat} (hi : i < w.length) (hd : (w.layers i)[d]? = some false)
    (hv : v.Charted T w v') :
    ChangesCharted T w (Frames.assignAt i d key v fs)
      (Frames.assignAt (w.image i) ((w.layers i).passed d) key v' fs') := by
  obtain ⟨hlast, ho, himage⟩ := h.ancestor d i hi hd
  unfold Frames.assignAt
  rw [himage]
  exact h.assignIn hlast ho hv

lemma getAt (h : fs.Charted T w fs') {d : Nat} (hi : i < w.length) (hd : (w.layers i)[d]? = some false) :
    BothWays (Value.Charted T w) (fs.getAt i d key) (fs'.getAt (w.image i) ((w.layers i).passed d) key) := by
  obtain ⟨hlast, ho, himage⟩ := h.ancestor d i hi hd
  unfold Frames.getAt
  rw [himage]
  exact (h.own _ hlast ho).found key

lemma globals (h : fs.Charted T w fs') : (fs.frame globalFrame).Charted T w (fs'.frame globalFrame) := by
  have hglobal := h.own globalFrame h.positive h.own_global
  rwa [h.global] at hglobal

lemma get (h : fs.Charted T w fs') :
    BothWays (Value.Charted T w) (fs.get globalFrame key) (fs'.get globalFrame key) := by
  rw [Frames.get, Frames.get, chain_globalFrame, chain_globalFrame, List.findSome?_singleton,
    List.findSome?_singleton]
  exact h.globals.found key

lemma assign (h : fs.Charted T w fs') (hv : v.Charted T w v') :
    ChangesCharted T w (Frames.assign globalFrame key v fs) (Frames.assign globalFrame key v' fs') := by
  have hassign : ChangesCharted T w (Frames.update globalFrame (fun f => f.assign key v) fs)
      (Frames.update (w.image globalFrame) (fun f => f.assign key v') fs') := h.assignIn h.positive h.own_global hv
  rw [h.global] at hassign
  unfold Frames.assign Frames.holder?
  rw [chain_globalFrame, chain_globalFrame, List.find?_singleton, List.find?_singleton, h.globals.binds]
  cases (fs.frame globalFrame).binds key with
  | false => exact .error h
  | true => exact hassign

/-- Frames stay the same when more uses have distances. -/
lemma withMore (h : fs.Charted T w fs') (hT : T.Extends T') : fs.Charted T' w fs' :=
  ⟨h.size, h.positive, h.global, h.image_lt, fun i hi ho => (h.own i hi ho).extends hT, h.around, h.order⟩

end Frames.Charted

end ScriptLang
