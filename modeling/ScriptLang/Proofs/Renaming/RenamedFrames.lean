import ScriptLang.Eval.Error
import ScriptLang.Proofs.Addressing.FrameChains
import ScriptLang.Proofs.Renaming.RenamedValues
import ScriptLang.Proofs.Renaming.Tables

/-!
# Frames of a renamed program

The frames of both programs stand in the same chains, and each has the same names but for the renamed one in the
one frame of its scope.  The operations on frames, with what is written for a name in place of the name, succeed
on both sides or fail on both with the same error but for the name in it.

* `FrameError.nameless`, `RuntimeError.nameless` — errors without the name that they tell;
* `Frame.Aligned`, `Frames.Aligned` — frames that are the same up to the renaming;
* `Frames.Aligned.text_ancestor` — the frame that a use of a name means has the name that is written for it;
* `Frames.Aligned.getAt`, `Frames.Aligned.define`, … — operations on both sides.
-/

namespace ScriptLang

/-! ### Errors without names -/

/-- A frame error without the name that it tells. -/
def FrameError.nameless : FrameError → FrameError
  | alreadyDeclared _ => alreadyDeclared ""
  | undefined _ => undefined ""
  | assignmentToConstant _ => assignmentToConstant ""

/-- A runtime error without the name of the variable that it tells. -/
def RuntimeError.nameless : RuntimeError → RuntimeError
  | undefinedVariable _ line => undefinedVariable "" line
  | assignmentToConstant _ line => assignmentToConstant "" line
  | identifierAlreadyDeclared _ line => identifierAlreadyDeclared "" line
  | e => e

lemma nameless_atLine (e : FrameError) (line : Nat) : (e.atLine line).nameless = e.nameless.atLine line := by
  cases e <;> rfl

/-- Two results that are related, or two failures that are the same but for a name. -/
inductive AgreeNameless {α : Type} (R : α → α → Prop) : Except FrameError α → Except FrameError α → Prop
  | ok {a b} : R a b → AgreeNameless R (.ok a) (.ok b)
  | error {e e' : FrameError} : e'.nameless = e.nameless → AgreeNameless R (.error e) (.error e')

/-! ### One frame -/

/-- The same frame but for names. -/
structure Frame.Aligned (ρ : Renaming) (w : Layout) (d : Distance) (f f' : Frame) : Prop where
  mutables : f.mutables.Rekeyed ρ d (Value.Aligned ρ w) f'.mutables
  constants : f.constants.Rekeyed ρ d (Value.Aligned ρ w) f'.constants
  parent : f'.parent = f.parent

variable {ρ : Renaming} {w w' : Layout} {d : Distance} {f f' : Frame} {v v' : Value} {key : String}
  {constant : Bool}

lemma empty_aligned (parent : Option FrameId) : (Frame.empty parent).Aligned ρ w d (Frame.empty parent) :=
  ⟨.nil, .nil, rfl⟩

lemma Frame.Aligned.mono (h : f.Aligned ρ w d f') (hw : w <+: w') : f.Aligned ρ w' d f' :=
  ⟨h.mutables.imp fun _ _ hv => hv.mono hw, h.constants.imp fun _ _ hv => hv.mono hw, h.parent⟩

lemma Frame.Aligned.binds (h : f.Aligned ρ w d f') (hkey : ρ.Admits d key) :
    f'.binds (ρ.text d 0 key) = f.binds key := by
  rw [Frame.binds, Frame.binds, h.mutables.has hkey, h.constants.has hkey]

lemma Frame.Aligned.get? (h : f.Aligned ρ w d f') (hkey : ρ.Admits d key) :
    Option.Rel (Value.Aligned ρ w) (f.get? key) (f'.get? (ρ.text d 0 key)) := by
  unfold Frame.get?
  obtain ⟨hm, hm'⟩ | ⟨v, v', hm, hm', hv⟩ := rel_iff.1 (h.mutables.get? hkey)
  · rw [hm, hm']
    exact h.constants.get? hkey
  · rw [hm, hm']
    exact .some hv

lemma Frame.Aligned.define (h : f.Aligned ρ w d f') (hkey : ρ.Admits d key) (hv : v.Aligned ρ w v') :
    AgreeNameless (Frame.Aligned ρ w d) (f.define key v constant) (f'.define (ρ.text d 0 key) v' constant) := by
  unfold Frame.define
  rw [h.binds hkey]
  split
  · exact .error rfl
  · split
    · exact .ok ⟨h.mutables, h.constants.put hkey hv, h.parent⟩
    · exact .ok ⟨h.mutables.put hkey hv, h.constants, h.parent⟩

lemma Frame.Aligned.assign (h : f.Aligned ρ w d f') (hkey : ρ.Admits d key) (hv : v.Aligned ρ w v') :
    AgreeNameless (Frame.Aligned ρ w d) (f.assign key v) (f'.assign (ρ.text d 0 key) v') := by
  unfold Frame.assign
  rw [h.constants.has hkey, h.mutables.has hkey]
  split
  · exact .error rfl
  · split
    · exact .ok ⟨h.mutables.put hkey hv, h.constants, h.parent⟩
    · exact .error rfl

/-! ### All frames -/

/-- How far inside of the scope a frame stands comes from where the frame around it stands. -/
def Layout.Around (w : Layout) (i : FrameId) : Option FrameId → Prop
  | none => w.place i = none
  | some p => Distance.Enters (w.place p) (w.place i)

lemma Layout.Around.push {i : FrameId} {parent : Option FrameId} (h : w.Around i parent) (hi : i ≠ w.length)
    (hparent : ∀ p ∈ parent, p < w.length) : Layout.Around (w ++ [d]) i parent := by
  have hsame : Layout.place (w ++ [d]) i = w.place i := by rw [Layout.place_push, if_neg hi]
  cases parent with
  | none => exact hsame.trans h
  | some p =>
    change Distance.Enters _ _
    rw [hsame, Layout.place_of_prefix (List.prefix_append w [d]) (hparent p rfl)]
    exact h

/-- **The same frames but for names.** -/
structure Frames.Aligned (ρ : Renaming) (w : Layout) (fs fs' : Frames) : Prop where
  size : fs.size = w.length
  size' : fs'.size = w.length
  frame : ∀ i, (fs.frame i).Aligned ρ w (w.place i) (fs'.frame i)
  around : ∀ i, w.Around i (fs.parent? i)

/-- The outcomes of two changes of frames: both succeed, or both fail with the same error but for a name. -/
inductive ChangesAligned (ρ : Renaming) (w : Layout) :
    EStateM.Result FrameError Frames Unit → EStateM.Result FrameError Frames Unit → Prop
  | ok {fs fs' : Frames} : fs.Aligned ρ w fs' → ChangesAligned ρ w (.ok () fs) (.ok () fs')
  | error {e e' : FrameError} {fs fs' : Frames} : e'.nameless = e.nameless → fs.Aligned ρ w fs' →
    ChangesAligned ρ w (.error e fs) (.error e' fs')

variable {fs fs' : Frames} {i : FrameId}

lemma Distance.Enters.admits {d' : Distance} (h : Distance.Enters d d') (hkey : ρ.Admits d' key) :
    ρ.Admits d key := by
  cases h with
  | chosen => exact ρ.admits_none
  | further =>
    cases d with
    | none => exact ρ.admits_none
    | some k => exact fun _ => hkey nofun

namespace Frames.Aligned

/-! ### Where a name is looked for -/

lemma parent? (h : fs.Aligned ρ w fs') (i : FrameId) : fs'.parent? i = fs.parent? i := by
  rw [Frames.parent?, Frames.parent?, (h.frame i).parent]

lemma ancestor (h : fs.Aligned ρ w fs') (hops : Nat) (i : FrameId) : fs'.ancestor hops i = fs.ancestor hops i :=
  ancestor_congr h.parent? hops i

lemma admits_ancestor (h : fs.Aligned ρ w fs') (hops : Nat) :
    ∀ i, ρ.Admits (w.place i) key → ρ.Admits (w.place (fs.ancestor hops i)) key := by
  induction hops with
  | zero => exact fun _ hkey => hkey
  | succ hops ih =>
    intro i hkey
    have haround := h.around i
    rw [Frames.ancestor]
    split
    · exact hkey
    · next p hp =>
      rw [hp] at haround
      exact ih p (Distance.Enters.admits haround hkey)

/-- **The frame some steps out has the name that is written for it**: that is the new name if and only if the
frame is the one of the scope. -/
lemma text_ancestor (h : fs.Aligned ρ w fs') (hops : Nat) (key : String) :
    ∀ i, ρ.text (w.place (fs.ancestor hops i)) 0 key = ρ.text (w.place i) hops key := by
  induction hops with
  | zero => exact fun _ => rfl
  | succ hops ih =>
    intro i
    have haround := h.around i
    rw [Frames.ancestor]
    split
    · next hp =>
      rw [hp] at haround
      rw [show w.place i = none from haround, ρ.text_none, ρ.text_none]
    · next p hp =>
      rw [hp] at haround
      rw [ih p]
      change Distance.Enters _ _ at haround
      generalize w.place p = dp at haround
      generalize w.place i = di at haround
      cases haround with
      | further => exact ρ.text_inner_succ.symm
      | chosen => exact ρ.text_none.trans (if_neg (by simp)).symm

lemma place_globalFrame (h : fs.Aligned ρ w fs') : w.place globalFrame = none := by
  have haround := h.around globalFrame
  rcases hp : fs.parent? globalFrame with _ | p
  · rw [hp] at haround
    exact haround
  · exact absurd (parent?_lt hp) (Nat.not_lt_zero p)

/-! ### Operations -/

lemma getAt (h : fs.Aligned ρ w fs') (hops : Nat) (hkey : ρ.Admits (w.place i) key) :
    AgreeNameless (Value.Aligned ρ w) (fs.getAt i hops key) (fs'.getAt i hops (ρ.text (w.place i) hops key)) := by
  have hfound := (h.frame (fs.ancestor hops i)).get? (h.admits_ancestor hops i hkey)
  rw [h.text_ancestor] at hfound
  rw [Frames.getAt, Frames.getAt, h.ancestor]
  obtain ⟨hv, hv'⟩ | ⟨v, v', hv, hv', haligned⟩ := rel_iff.1 hfound
  · rw [hv, hv']
    exact .error rfl
  · rw [hv, hv']
    exact .ok haligned

lemma global? (h : fs.Aligned ρ w fs') (key : String) :
    Option.Rel (Value.Aligned ρ w) ((fs.frame globalFrame).get? key) ((fs'.frame globalFrame).get? key) := by
  have hglobal := h.frame globalFrame
  have hadmits : ρ.Admits none key := ρ.admits_none
  rw [h.place_globalFrame] at hglobal
  have hfound := hglobal.get? hadmits
  rwa [ρ.text_none] at hfound

lemma get (h : fs.Aligned ρ w fs') :
    AgreeNameless (Value.Aligned ρ w) (fs.get globalFrame key) (fs'.get globalFrame key) := by
  rw [Frames.get, Frames.get, chain_globalFrame, chain_globalFrame, List.findSome?_singleton,
    List.findSome?_singleton]
  obtain ⟨hv, hv'⟩ | ⟨v, v', hv, hv', haligned⟩ := rel_iff.1 (h.global? key)
  · rw [hv, hv']
    exact .error rfl
  · rw [hv, hv']
    exact .ok haligned

lemma add {frame frame' : Frame} {p : FrameId} (h : fs.Aligned ρ w fs') (hf : frame.Aligned ρ w d frame')
    (hparent : frame.parent = some p) (hp : p < w.length) (hd : Distance.Enters (w.place p) d) :
    (fs.add frame).Aligned ρ (w ++ [d]) (fs'.add frame') := by
  have hw : w <+: w ++ [d] := List.prefix_append w [d]
  have hlength : (w ++ [d]).length = w.length + 1 := List.length_append
  refine ⟨by rw [size_add, h.size, hlength], by rw [size_add, h.size', hlength], fun i => ?_, fun i => ?_⟩
  · rw [frame_add, frame_add, h.size, h.size', Layout.place_push]
    split
    · exact hf.mono hw
    · exact (h.frame i).mono hw
  · by_cases hi : i = w.length
    · rw [hi, ← h.size, parent?_add hparent (h.size ▸ hp), h.size]
      change Distance.Enters _ _
      rw [Layout.place_of_prefix hw hp, Layout.place_push, if_pos rfl]
      exact hd
    · have hold : (fs.add frame).parent? i = fs.parent? i := by
        rw [Frames.parent?, frame_add, if_neg (h.size ▸ hi)]
        rfl
      rw [hold]
      refine (h.around i).push hi fun q hq => ?_
      rw [← h.size]
      exact Nat.lt_trans (parent?_lt hq) (lt_size_of_parent? hq)

lemma set {frame frame' : Frame} (h : fs.Aligned ρ w fs') (hf : frame.Aligned ρ w (w.place i) frame')
    (hparent : frame.parent = (fs.frame i).parent) :
    Frames.Aligned ρ w (fs.setIfInBounds i frame) (fs'.setIfInBounds i frame') := by
  refine ⟨by rw [Array.size_setIfInBounds, h.size], by rw [Array.size_setIfInBounds, h.size'], fun j => ?_,
    fun j => ?_⟩
  · rw [frame_set, frame_set, h.size, h.size']
    split
    · next hij => exact hij.1 ▸ hf
    · exact h.frame j
  · have hold : Frames.parent? (fs.setIfInBounds i frame) j = fs.parent? j := by
      rw [Frames.parent?, Frames.parent?, frame_set]
      split
      · next hij => rw [hparent, hij.1]
      · rfl
    rw [hold]
    exact h.around j

lemma update {g g' : Frame → Except FrameError Frame} (h : fs.Aligned ρ w fs')
    (hg : AgreeNameless (Frame.Aligned ρ w (w.place i)) (g (fs.frame i)) (g' (fs'.frame i)))
    (hparent : ∀ f, g (fs.frame i) = .ok f → f.parent = (fs.frame i).parent) :
    ChangesAligned ρ w (Frames.update i g fs) (Frames.update i g' fs') := by
  unfold Frames.update
  revert hparent hg
  generalize g (fs.frame i) = r
  generalize g' (fs'.frame i) = r'
  rintro (hf | he) hparent
  · exact .ok (h.set hf (hparent _ rfl))
  · exact .error he h

lemma define (h : fs.Aligned ρ w fs') (hkey : ρ.Admits (w.place i) key) (hv : v.Aligned ρ w v') :
    ChangesAligned ρ w (Frames.define i key v constant fs)
      (Frames.define i (ρ.text (w.place i) 0 key) v' constant fs') :=
  h.update ((h.frame i).define hkey hv) fun _ hf => (define_puts hf).1.parent

lemma assignAt (h : fs.Aligned ρ w fs') (hops : Nat) (hkey : ρ.Admits (w.place i) key) (hv : v.Aligned ρ w v') :
    ChangesAligned ρ w (Frames.assignAt i hops key v fs)
      (Frames.assignAt i hops (ρ.text (w.place i) hops key) v' fs') := by
  unfold Frames.assignAt
  rw [h.ancestor, ← h.text_ancestor]
  exact h.update ((h.frame _).assign (h.admits_ancestor hops i hkey) hv) fun _ hf => (assign_puts hf).parent

lemma assign (h : fs.Aligned ρ w fs') (hv : v.Aligned ρ w v') :
    ChangesAligned ρ w (Frames.assign globalFrame key v fs) (Frames.assign globalFrame key v' fs') := by
  have hglobal := h.frame globalFrame
  rw [h.place_globalFrame] at hglobal
  have hadmits : ρ.Admits none key := ρ.admits_none
  have hbinds := hglobal.binds hadmits
  have hassign := hglobal.assign hadmits hv
  rw [ρ.text_none] at hbinds hassign
  unfold Frames.assign Frames.holder?
  rw [chain_globalFrame, chain_globalFrame, List.find?_singleton, List.find?_singleton, hbinds]
  cases (fs.frame globalFrame).binds key with
  | false => exact .error rfl h
  | true => exact h.update (h.place_globalFrame.symm ▸ hassign) fun _ hf => (assign_puts hf).parent

end Frames.Aligned

/-! ### Where nothing is renamed -/

variable {ρ' : Renaming}

lemma Table.Rekeyed.away {t t' : Table Value} (h : t.Rekeyed ρ d (Value.Aligned ρ w) t') :
    t.Rekeyed ρ' none (Value.Aligned ρ' (.away w.length)) t :=
  forall₂_self h fun _ _ he => ⟨ρ'.admits_none, ρ'.text_none.symm, he.2.2.away⟩

/-- Away from the scope, frames are aligned with themselves. -/
lemma Frames.Aligned.away (h : fs.Aligned ρ w fs') : fs.Aligned ρ' (.away w.length) fs := by
  have hsize : fs.size = (Layout.away w.length).length := h.size.trans (Layout.length_away _).symm
  refine ⟨hsize, hsize, fun i => ?_, fun i => ?_⟩
  · rw [Layout.place_away]
    exact ⟨(h.frame i).mutables.away, (h.frame i).constants.away, rfl⟩
  · cases fs.parent? i with
    | none => exact Layout.place_away ..
    | some p =>
      change Distance.Enters _ _
      rw [Layout.place_away, Layout.place_away]
      exact .further

end ScriptLang
