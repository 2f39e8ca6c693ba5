import ScriptLang.Eval.Run
import ScriptLang.Proofs.Observing.Traced
import ScriptLang.Proofs.Loops.ChartedFrames

/-!
# Steps in the tree and in the source

Two computations run side by side if from charted machines both succeed, with related results, or both stop for the
same reason, and leave charted machines, in a larger chart.  Which frame is current is the same before and after.

* `Machine.Charted` — the same machine, but for the frames that only the tree has;
* `EndsCharted`, `SideBySide` — the relation between outcomes and between computations;
* `SideBySide.bind`, `SideBySide.inFrame`, `SideBySide.inRound` — how computations are put together;
* `lookUp_sideBySide`, `define_sideBySide`, … — the single steps of running.
-/

namespace ScriptLang

open Eval

/-! ### Outcomes -/

/-- **The same machine**, but for the frames of the blocks around a body and an increment. -/
structure Machine.Charted (T : Distances) (w : Chart) (m m' : Machine) : Prop where
  frames : m.frames.Charted T w m'.frames
  objects : m'.objects.size = m.objects.size
  properties : ∀ id, (m.objects.getD id []).Alike (Value.Charted T w) (m'.objects.getD id [])
  nextStamp : m'.nextStamp = m.nextStamp
  current : m'.current = w.image m.current
  placed : m.current < w.length
  sink : m'.sink = m.sink
  tree : m.locals = T.tree
  source : m'.locals = T.source

/-- Charted machines in a larger chart, with the frame current that was it in another machine. -/
structure Reaches (T : Distances) (w w' : Chart) (m m1 m1' : Machine) : Prop where
  chart : w <+: w'
  charted : m1.Charted T w' m1'
  current : m1.current = m.current

/-- The outcomes of two computations: both have succeeded, with related results, or both have stopped for the same
reason. -/
inductive EndsCharted {α β : Type} (T : Distances) (w : Chart) (R : Chart → α → β → Prop) (m : Machine) :
    EStateM.Result Stop Machine α → EStateM.Result Stop Machine β → Prop
  | ok {a b w' m1 m1'} : R w' a b → Reaches T w w' m m1 m1' → EndsCharted T w R m (.ok a m1) (.ok b m1')
  | error {e w' m1 m1'} : Reaches T w w' m m1 m1' → EndsCharted T w R m (.error e m1) (.error e m1')

/-- **From charted machines, with the given layers around the current frame, the two computations have charted
outcomes.** -/
def SideBySide {α β : Type} (T : Distances) (w : Chart) (l : Layers) (R : Chart → α → β → Prop) (x : Eval α)
    (y : Eval β) : Prop :=
  ∀ (w' : Chart) m m', w <+: w' → m.Charted T w' m' → w'.layers m.current = l → EndsCharted T w' R m (x m) (y m')

variable {α β γ δ : Type} {T : Distances} {w w' w'' : Chart} {l l' : Layers} {m m' m1 m1' m2 m2' : Machine}
  {R : Chart → α → β → Prop} {S : Chart → γ → δ → Prop}

lemma Reaches.refl (h : m.Charted T w m') : Reaches T w w m m m' := ⟨List.prefix_refl w, h, rfl⟩

lemma Reaches.trans (h : Reaches T w w' m m1 m1') (h' : Reaches T w' w'' m1 m2 m2') : Reaches T w w'' m m2 m2' :=
  ⟨h.chart.trans h'.chart, h'.charted, h'.current.trans h.current⟩

/-- The layers around the current frame stay. -/
lemma Reaches.layers (h : Reaches T w w' m m1 m1') (hm : m.Charted T w m') :
    w'.layers m1.current = w.layers m.current := by
  rw [h.current, Chart.layers_of_extended h.chart hm.placed]

lemma EndsCharted.inv {r : EStateM.Result Stop Machine α} {r' : EStateM.Result Stop Machine β}
    (h : EndsCharted T w R m r r') :
    (∃ a b w' m1 m1', r = .ok a m1 ∧ r' = .ok b m1' ∧ R w' a b ∧ Reaches T w w' m m1 m1') ∨
      ∃ e w' m1 m1', r = .error e m1 ∧ r' = .error e m1' ∧ Reaches T w w' m m1 m1' := by
  cases h with
  | ok hab ha => exact .inl ⟨_, _, _, _, _, rfl, rfl, hab, ha⟩
  | error ha => exact .inr ⟨_, _, _, _, rfl, rfl, ha⟩

/-! ### Computations put together -/

variable {x : Eval α} {y : Eval β} {f : α → Eval γ} {g : β → Eval δ} {a : α} {b : β}

lemma SideBySide.mono (h : SideBySide T w l R x y) (hw : w <+: w') : SideBySide T w' l R x y :=
  fun w1 m m' hw1 hm hl => h w1 m m' (hw.trans hw1) hm hl

lemma SideBySide.pure (h : ∀ w', w <+: w' → R w' a b) : SideBySide T w l R (pure a) (pure b) :=
  fun w' _ _ hw hm _ => .ok (h w' hw) (.refl hm)

lemma SideBySide.throw {s : Stop} : SideBySide T w l R (throw s) (throw s) := fun _ _ _ _ hm _ => .error (.refl hm)

lemma SideBySide.bind (h : SideBySide T w l R x y)
    (hf : ∀ w' a b, w <+: w' → R w' a b → SideBySide T w' l S (f a) (g b)) :
    SideBySide T w l S (x >>= f) (y >>= g) := by
  intro w1 m m' hw hm hl
  obtain ⟨a, b, w2, m1, m1', hx, hy, hab, ha⟩ | ⟨e, w2, m1, m1', hx, hy, ha⟩ := (h w1 m m' hw hm hl).inv
  · rw [Traced.bind_ok hx, Traced.bind_ok hy]
    have hlayers : w2.layers m1.current = l := (ha.layers hm).trans hl
    have hrest := hf w2 a b (hw.trans ha.chart) hab w2 m1 m1' (List.prefix_refl w2) ha.charted hlayers
    obtain ⟨c, d, w3, m2, m2', hc, hd, hcd, ha'⟩ | ⟨e, w3, m2, m2', hc, hd, ha'⟩ := hrest.inv
    · rw [hc, hd]
      exact .ok hcd (ha.trans ha')
    · rw [hc, hd]
      exact .error (ha.trans ha')
  · rw [Traced.bind_error hx, Traced.bind_error hy]
    exact .error ha

/-- A step that depends on the machine. -/
lemma SideBySide.get_bind {f : Machine → Eval α} {g : Machine → Eval β}
    (h : ∀ (w' : Chart) m m', w <+: w' → m.Charted T w' m' → w'.layers m.current = l →
      EndsCharted T w' R m (f m m) (g m' m')) :
    SideBySide T w l R (get >>= f) (get >>= g) := h

/-- Computations over a list, one after another. -/
lemma mapM_sideBySide {f : γ → Eval α} {g : γ → Eval β} {cs : List γ}
    (hR : ∀ {w w' a b}, w <+: w' → R w a b → R w' a b) (hfg : ∀ c ∈ cs, ∀ w, SideBySide T w l R (f c) (g c)) :
    SideBySide T w l (fun w' => List.Forall₂ (R w')) (cs.mapM f) (cs.mapM g) := by
  induction cs generalizing w with
  | nil =>
    rw [List.mapM_nil, List.mapM_nil]
    exact .pure fun _ _ => .nil
  | cons c cs ih =>
    rw [List.mapM_cons, List.mapM_cons]
    have hrest : ∀ w, SideBySide T w l (fun w' => List.Forall₂ (R w')) (cs.mapM f) (cs.mapM g) := fun w =>
      ih fun d hd => hfg d (List.mem_cons_of_mem c hd)
    exact (hfg c List.mem_cons_self w).bind fun w1 _ _ _ hab => (hrest w1).bind fun _ _ _ hw' habs =>
      .pure fun _ hw'' => .cons (hR (hw'.trans hw'') hab) (habs.imp fun _ _ => hR hw'')

/-! ### Frames that are current for a while -/

lemma Machine.Charted.withCurrent {i : FrameId} (hm : m.Charted T w m') (hi : i < w.length) :
    Machine.Charted T w { m with current := i } { m' with current := w.image i } :=
  ⟨hm.frames, hm.objects, hm.properties, hm.nextStamp, rfl, hi, hm.sink, hm.tree, hm.source⟩

lemma Machine.Charted.withFrames {fs fs' : Frames} (hm : m.Charted T w m') (hw : w <+: w')
    (h : fs.Charted T w' fs') : Machine.Charted T w' { m with frames := fs } { m' with frames := fs' } := by
  refine ⟨h, hm.objects, fun id => ?_, hm.nextStamp, ?_, ?_, hm.sink, hm.tree, hm.source⟩
  · exact (hm.properties id).mono fun _ _ hv => hv.mono hw
  · exact hm.current.trans (Chart.image_of_extended hw hm.placed).symm
  · exact Nat.lt_of_lt_of_le hm.placed hw.length_le

/-- More uses have distances. -/
lemma Machine.Charted.install {T' : Distances} (hm : m.Charted T w m') (hT : T.Extends T') :
    Machine.Charted T' w { m with locals := T'.tree } { m' with locals := T'.source } :=
  ⟨hm.frames.withMore hT, hm.objects, fun id => (hm.properties id).mono fun _ _ hv => hv.extends hT, hm.nextStamp,
    hm.current, hm.placed, hm.sink, rfl, rfl⟩

/-- The frame is current on both sides. -/
lemma SideBySide.inFrame {i : FrameId} (h : SideBySide T w l' R x y) (hi : i < w.length) (hl' : w.layers i = l') :
    SideBySide T w l R (inFrame i x) (inFrame (w.image i) y) := by
  intro w1 m m' hw hm _
  have hi1 : i < w1.length := Nat.lt_of_lt_of_le hi hw.length_le
  have hinside := hm.withCurrent hi1
  rw [Chart.image_of_extended hw hi] at hinside
  have back : ∀ {w2 m1 m1'}, Reaches T w1 w2 { m with current := i } m1 m1' →
      Reaches T w1 w2 m { m1 with current := m.current } { m1' with current := m'.current } := by
    intro w2 m1 m1' ha
    rw [hm.current, ← Chart.image_of_extended ha.chart hm.placed]
    exact ⟨ha.chart, ha.charted.withCurrent (Nat.lt_of_lt_of_le hm.placed ha.chart.length_le), rfl⟩
  unfold Eval.inFrame
  simp only
  obtain ⟨a, b, w2, m1, m1', hx, hy, hab, ha⟩ | ⟨e, w2, m1, m1', hx, hy, ha⟩ :=
    (h w1 _ _ hw hinside ((Chart.layers_of_extended hw hi).trans hl')).inv
  · rw [hx, hy]
    exact .ok hab (back ha)
  · rw [hx, hy]
    exact .error (back ha)

/-- **A block around a body and an increment**: its frame is current in the tree, and that of the loop goes on to be
current in the source. -/
lemma SideBySide.inRound (h : SideBySide T w (true :: l) R x y) :
    SideBySide T w l R (do
      let frame ← newFrame (.empty (some (← get).current))
      Eval.inFrame frame x) y := by
  intro w1 m m' hw hm hl
  let q : Spot := ⟨w1.image m.current, true :: w1.layers m.current⟩
  let m0 : Machine := { m with frames := m.frames.add (.empty (some m.current)) }
  have hw1 : w1 <+: w1 ++ [q] := List.prefix_append w1 [q]
  have hlast : w1.length < (w1 ++ [q]).length := by
    rw [List.length_append]
    exact Nat.lt_succ_self _
  have hframes : Frames.Charted T (w1 ++ [q]) m0.frames m'.frames := hm.frames.addRound hm.placed rfl
  have hm0 : Machine.Charted T (w1 ++ [q]) m0 m' := hm.withFrames hw1 hframes
  -- The new frame and the current one have the same frame standing for them.
  have hsame : m'.current = Chart.image (w1 ++ [q]) w1.length := by
    rw [hm.current, Frames.Charted.image_last]
  have hinside : Machine.Charted T (w1 ++ [q]) { m0 with current := w1.length } m' := by
    have hcurrent := hm0.withCurrent hlast
    rwa [← hsame] at hcurrent
  have hlayers : Chart.layers (w1 ++ [q]) w1.length = true :: l := by
    rw [Frames.Charted.layers_last]
    exact congrArg (List.cons true) hl
  have back : ∀ {w2 m1 m1'}, Reaches T (w1 ++ [q]) w2 { m0 with current := w1.length } m1 m1' →
      Reaches T w1 w2 m { m1 with current := m.current } m1' := by
    intro w2 m1 m1' ha
    have hcurrent : m1'.current = w2.image m.current := by
      rw [ha.charted.current, ha.current, Chart.image_of_extended ha.chart hlast, ← hsame, hm.current,
        Chart.image_of_extended (hw1.trans ha.chart) hm.placed]
    have hplaced := Nat.lt_of_lt_of_le hm.placed (hw1.trans ha.chart).length_le
    have hback := ha.charted.withCurrent hplaced
    rw [← hcurrent] at hback
    exact ⟨hw1.trans ha.chart, hback, rfl⟩
  show EndsCharted T w1 R m (Eval.inFrame m.frames.size x m0) (y m')
  rw [hm.frames.size]
  unfold Eval.inFrame
  simp only
  obtain ⟨a, b, w2, m1, m1', hx, hy, hab, ha⟩ | ⟨e, w2, m1, m1', hx, hy, ha⟩ :=
    (h _ _ _ (hw.trans hw1) hinside hlayers).inv
  · rw [hx, hy]
    exact .ok hab (back ha)
  · rw [hx, hy]
    exact .error (back ha)

/-! ### Errors -/

variable {line : Nat} {v v' : Value} {key : String}

lemma fail_sideBySide {e : RuntimeError} : SideBySide T w l R (fail e) (fail e) := .throw

lemma ofFrames_sideBySide {r r' : Except FrameError Value} (h : BothWays (Value.Charted T w) r r') :
    SideBySide T w l (Value.Charted T) (ofFrames line r) (ofFrames line r') := by
  cases h with
  | ok h => exact .pure fun _ hw => h.mono hw
  | error => exact fail_sideBySide

lemma ofTypes_sideBySide {r : Except Mismatch Value} (h : ∀ v, r = .ok v → ∀ w, v.Charted T w v) :
    SideBySide T w l (Value.Charted T) (ofTypes line r) (ofTypes line r) := by
  cases r with
  | ok v => exact .pure fun _ _ => h v rfl _
  | error e => exact fail_sideBySide

/-! ### Frames -/

lemma change_ends_charted {op op' : Frames.Change Unit} (hm : m.Charted T w m')
    (h : ChangesCharted T w (op m.frames) (op' m'.frames)) :
    EndsCharted T w (fun _ => Eq) m (change line op m) (change line op' m') := by
  unfold Eval.change
  simp only
  revert h
  generalize op m.frames = r
  generalize op' m'.frames = r'
  rintro (h | h)
  · exact .ok rfl ⟨List.prefix_refl w, hm.withFrames (List.prefix_refl w) h, rfl⟩
  · exact .error ⟨List.prefix_refl w, hm.withFrames (List.prefix_refl w) h, rfl⟩

/-- A new frame on both sides, around which stand the layers of the frame around it. -/
def NewOwn (l : Layers) (w : Chart) (i i' : FrameId) : Prop :=
  i' = w.image i ∧ i < w.length ∧ w.layers i = false :: l

lemma newFrame_sideBySide {frame frame' : Frame} {p : FrameId} (h : frame.Charted T w frame')
    (hp : p < w.length) (hparent : frame.parent = some p) (hparent' : frame'.parent = some (w.image p)) :
    SideBySide T w l (NewOwn (w.layers p)) (newFrame frame) (newFrame frame') := by
  intro w1 m m' hw hm _
  have hp1 : p < w1.length := Nat.lt_of_lt_of_le hp hw.length_le
  rw [← Chart.image_of_extended hw hp] at hparent'
  have hadd := hm.frames.addOwn (h.mono hw) hp1 hparent hparent'
  have hw' := List.prefix_append w1 [(⟨m'.frames.size, false :: w1.layers p⟩ : Spot)]
  refine .ok ⟨?_, ?_, ?_⟩ ⟨hw', hm.withFrames hw' hadd, rfl⟩
  · rw [hm.frames.size, Frames.Charted.image_last]
  · rw [hm.frames.size, List.length_append]
    exact Nat.lt_succ_self _
  · rw [hm.frames.size, Frames.Charted.layers_last, Chart.layers_of_extended hw hp]

/-- A frame of its own, in which a body runs on both sides. -/
lemma SideBySide.inOwn (h : ∀ w', w <+: w' → SideBySide T w' (false :: l) R x y) :
    SideBySide T w l R (do
      let frame ← newFrame (.empty (some (← get).current))
      Eval.inFrame frame x) (do
      let frame ← newFrame (.empty (some (← get).current))
      Eval.inFrame frame y) := by
  refine .get_bind fun w1 m m' hw hm hl => ?_
  have hnew : SideBySide T w1 l (NewOwn (w1.layers m.current)) (newFrame (.empty (some m.current)))
      (newFrame (.empty (some m'.current))) :=
    newFrame_sideBySide empty_charted hm.placed rfl (congrArg some hm.current)
  refine (hnew.bind fun w2 i i' hw2 hi => ?_) w1 m m' (List.prefix_refl w1) hm hl
  obtain ⟨rfl, hlt, hlayers⟩ := hi
  exact (h w2 (hw.trans hw2)).inFrame hlt (hlayers.trans (congrArg _ hl))

lemma define_sideBySide (name : Ident) (constant : Bool) (hl : l.Own) (hv : v.Charted T w v') :
    SideBySide T w l (fun _ => Eq) (define name v constant) (define name v' constant) := by
  refine .get_bind fun w1 m m' hw hm hlayers => change_ends_charted hm ?_
  rw [hm.current]
  exact hm.frames.define hm.placed (hlayers ▸ hl) (hv.mono hw) constant

/-- **A use of a name finds the same variable on both sides.** -/
lemma lookUpAs_sideBySide {use : Occurrence OccurrenceId} (huse : T.Agree l use.id) :
    SideBySide T w l (Value.Charted T) (lookUpAs use key) (lookUpAs use key) := by
  refine .get_bind fun w1 m m' _ hm hl => ?_
  subst hl
  refine ofFrames_sideBySide ?_ w1 m m' (List.prefix_refl w1) hm rfl
  rw [hm.source, hm.tree, hm.current]
  rcases hk : T.tree[use.id]? with _ | d
  · rw [huse.unknown hk]
    exact hm.frames.get
  · obtain ⟨hd, hsource⟩ := huse.known d hk
    rw [hsource]
    exact hm.frames.getAt hm.placed hd

lemma lookUp_sideBySide {use : Occurrence OccurrenceId} (huse : T.Agree l use.id) :
    SideBySide T w l (Value.Charted T) (lookUp use) (lookUp use) := lookUpAs_sideBySide huse

lemma assign_sideBySide {use : Occurrence OccurrenceId} (huse : T.Agree l use.id) (hv : v.Charted T w v') :
    SideBySide T w l (fun _ => Eq) (assign use v) (assign use v') := by
  refine .get_bind fun w1 m m' hw hm hl => ?_
  subst hl
  simp only [hm.source, hm.tree, hm.current]
  rcases hk : T.tree[use.id]? with _ | d
  · rw [huse.unknown hk]
    exact change_ends_charted hm (hm.frames.assign (hv.mono hw))
  · obtain ⟨hd, hsource⟩ := huse.known d hk
    rw [hsource]
    exact change_ends_charted hm (hm.frames.assignAt hm.placed hd (hv.mono hw))

/-! ### Functions -/

variable {decl : FunctionDecl (Stmt OccurrenceId)} {decls : List (FunctionDecl (Stmt OccurrenceId))} {h h' : Closure}
  {c c' : Class} {o o' : Object} {name : Ident} {further : Layers → Layers}

lemma newStamp_sideBySide : SideBySide T w l (fun _ => Eq) newStamp newStamp := by
  intro w1 m m' _ hm _
  exact .ok hm.nextStamp.symm ⟨List.prefix_refl w1, ⟨hm.frames, hm.objects, hm.properties,
    congrArg (· + 1) hm.nextStamp, hm.current, hm.placed, hm.sink, hm.tree, hm.source⟩, rfl⟩

lemma newClosure_sideBySide (further : Layers → Layers) (hdecl : FunctionDecl.FitsIn T (further l) decl) :
    SideBySide T w l (fun w' => Closure.ChartedAt T w' further) (newClosure decl) (newClosure decl) :=
  newStamp_sideBySide.bind fun _ _ _ _ hs => .get_bind fun _ _ _ _ hm hl =>
    .ok ⟨hs.symm, rfl, hm.current, hm.placed, hl.symm ▸ hdecl⟩ (.refl hm)

lemma newClosures_sideBySide (further : Layers → Layers) (hdecls : FunctionDecl.FitListIn T (further l) decls) :
    SideBySide T w l (fun w' => Table.Alike (Closure.ChartedAt T w' further)) (newClosures decls)
      (newClosures decls) := by
  refine (mapM_sideBySide
    (R := fun w' (p p' : String × Closure) => p.1 = p'.1 ∧ p.2.ChartedAt T w' further p'.2)
    (fun hw hp => ⟨hp.1, hp.2.mono hw⟩) fun decl hmem w => ?_).bind
      fun _ _ _ _ hes => .pure fun _ hw => Table.Alike.mono (ofEntries_alike hes) fun _ _ hf => hf.mono hw
  exact (newClosure_sideBySide further (hdecls.mem hmem)).bind fun _ _ _ _ hf =>
    .pure fun _ hw => ⟨rfl, hf.mono hw⟩

/-! ### Methods -/

lemma receiverFrame_charted (hc : c.Charted T w c') (ho : o.Charted T w o') :
    (receiverFrame h c o).Charted T w (receiverFrame h' c' o') := by
  refine ⟨.cons ⟨rfl, .object ho⟩ ?_, .nil⟩
  obtain ⟨hs, hs'⟩ | ⟨p, p', hs, hs', hp⟩ := rel_iff.1 hc.superclass?
  · rw [hs, hs']
    exact .nil
  · rw [hs, hs']
    exact .cons ⟨rfl, .ofClass hp⟩ .nil

lemma bindMethod_sideBySide (hf : h.ChartedMethod T w h') (hc : c.Charted T w c') (ho : o.Charted T w o') :
    SideBySide T w l (Closure.Charted T) (bindMethod h c o) (bindMethod h' c' o') := by
  refine (newFrame_sideBySide (receiverFrame_charted hc ho) hf.placed rfl (congrArg some hf.frame)).bind
    fun w1 i i' _ hi => ?_
  obtain ⟨rfl, hlt, hlayers⟩ := hi
  refine newStamp_sideBySide.bind fun w2 _ _ hw2 hs => .pure fun w3 hw3 => ⟨hs.symm, hf.decl, ?_, ?_, ?_⟩
  · exact (Chart.image_of_extended (hw2.trans hw3) hlt).symm
  · exact Nat.lt_of_lt_of_le hlt (hw2.trans hw3).length_le
  · show FunctionDecl.FitsIn T (Chart.layers w3 i) h.decl
    rw [Chart.layers_of_extended (hw2.trans hw3) hlt, hlayers]
    exact hf.fits

lemma method_sideBySide (ho : o.Charted T w o') (hc : c.Charted T w c') :
    SideBySide T w l (Value.Charted T) (method o c name) (method o' c' name) := by
  unfold Eval.method
  obtain ⟨hm, hm'⟩ | ⟨p, p', hm, hm', hp⟩ := rel_iff.1 (hc.findMethod? name.text)
  · rw [hm, hm', (Value.Related.object ho).text]
    exact fail_sideBySide
  · rw [hm, hm']
    exact (bindMethod_sideBySide hp.2 hp.1 ho).bind fun _ _ _ _ hg => .pure fun _ hw => .closure (hg.mono hw)

/-! ### Objects and properties -/

lemma newObject_sideBySide (hc : c.Charted T w c') :
    SideBySide T w l (Object.Charted T) (newObject c) (newObject c') := by
  intro w1 m m' hw hm _
  refine .ok ⟨hm.objects, hc.mono hw⟩ ⟨List.prefix_refl w1, ⟨hm.frames, ?_, properties_push hm.properties,
    hm.nextStamp, hm.current, hm.placed, hm.sink, hm.tree, hm.source⟩, rfl⟩
  simp only [Array.size_push, hm.objects]

lemma setProperty_sideBySide (ho : o'.id = o.id) (hv : v.Charted T w v') :
    SideBySide T w l (fun _ => Eq) (setProperty o name v) (setProperty o' name v') := by
  intro w1 m m' hw hm _
  refine .ok rfl ⟨List.prefix_refl w1, ⟨hm.frames, ?_, ?_, hm.nextStamp, hm.current, hm.placed, hm.sink,
    hm.tree, hm.source⟩, rfl⟩
  · simp only [Array.size_modify, hm.objects]
  · simp only [ho]
    exact properties_modify hm.properties hm.objects.symm (hv.mono hw) o.id name.text

lemma property_sideBySide (hv : v.Charted T w v') :
    SideBySide T w l (Value.Charted T) (property v name) (property v' name) := by
  have htext := hv.text
  cases hv with
  | @object o o' ho =>
    refine .get_bind fun w1 m m' hw hm hl => ?_
    have hget := (hm.properties o.id).get? name.text
    simp only [ho.id]
    obtain ⟨hp, hp'⟩ | ⟨u, u', hp, hp', hu⟩ := rel_iff.1 hget
    · rw [hp, hp']
      exact method_sideBySide ho ho.cls w1 m m' hw hm hl
    · rw [hp, hp']
      exact .ok hu (.refl hm)
  | ofClass hc =>
    unfold Eval.property
    simp only [htext]
    obtain ⟨hs, hs'⟩ | ⟨f, f', hs, hs', hf⟩ := rel_iff.1 (hc.findStatic? name.text)
    · rw [hs, hs']
      exact fail_sideBySide
    · rw [hs, hs']
      exact .pure fun _ hw => .closure (hf.mono hw)
  | _ =>
    unfold Eval.property
    simp only [htext]
    exact fail_sideBySide

lemma superProperty_sideBySide {keyword : Occurrence OccurrenceId} (huse : T.Agree l keyword.id) :
    SideBySide T w l (Value.Charted T) (superProperty keyword name) (superProperty keyword name) := by
  refine (lookUp_sideBySide huse).bind fun w1 v v' _ hv => ?_
  have htext := hv.text
  cases hv with
  | ofClass hc =>
    refine (lookUpAs_sideBySide huse).bind fun w2 u u' hw hu => ?_
    have htext' := hu.text
    cases hu with
    | object ho => exact method_sideBySide ho (Class.Charted.mono hc hw)
    | _ =>
      simp only [htext']
      exact fail_sideBySide
  | _ =>
    simp only [htext]
    exact fail_sideBySide

/-! ### Output -/

lemma printLine_sideBySide (text : String) :
    SideBySide T w l (fun _ => Eq) (printLine text) (printLine text) := by
  intro w1 m m' _ hm _
  unfold Eval.printLine
  simp only [hm.sink]
  have ha : ∀ sink, Reaches T w1 w1 m { m with sink } { m' with sink } := fun sink =>
    ⟨List.prefix_refl w1, ⟨hm.frames, hm.objects, hm.properties, hm.nextStamp, hm.current, hm.placed, rfl, hm.tree,
      hm.source⟩, rfl⟩
  split
  · exact .error (ha _)
  · exact .ok rfl (ha _)

end ScriptLang
