import ScriptLang.Eval.Run
import ScriptLang.Proofs.Observing.Traced
import ScriptLang.Proofs.Renaming.RenamedFrames

/-!
# Steps of a renamed program

Two computations run in parallel if from aligned machines both succeed, with related results, or both stop for
the same reason but for a name, and leave aligned machines, in a layout with more frames.  Which frame is current
is the same before and after.

* `Machine.Aligned` — machines that are the same up to the renaming;
* `EndsAligned`, `Parallel` — the relation between outcomes and between computations;
* `Parallel.bind`, `Parallel.inFrame`, `mapM_parallel` — how computations are put together;
* `lookUp_parallel`, `define_parallel`, … — the single steps of running.
-/

namespace ScriptLang

open Eval

/-! ### Outcomes -/

/-- Why a run stopped, without the name that an error tells. -/
def Stop.nameless : Stop → Stop
  | .error e => .error e.nameless
  | .outOfFuel => .outOfFuel

/-- **The same machine but for names.**  The table is that of the renaming. -/
structure Machine.Aligned (ρ : Renaming) (w : Layout) (m m' : Machine) : Prop where
  frames : m.frames.Aligned ρ w m'.frames
  objects : m'.objects.size = m.objects.size
  properties : ∀ id, (m.objects.getD id []).Alike (Value.Aligned ρ w) (m'.objects.getD id [])
  nextStamp : m'.nextStamp = m.nextStamp
  current : m'.current = m.current
  placed : m.current < w.length
  sink : m'.sink = m.sink
  locals : m.locals = ρ.locals
  locals' : m'.locals = ρ.locals

/-- Aligned machines in a larger layout, with the frame current that was it in another machine. -/
structure Advanced (ρ : Renaming) (w w' : Layout) (m m1 m1' : Machine) : Prop where
  layout : w <+: w'
  aligned : m1.Aligned ρ w' m1'
  current : m1.current = m.current

/-- The outcomes of two computations: both have succeeded, with related results, or both have stopped for the same
reason but for a name. -/
inductive EndsAligned {α β : Type} (ρ : Renaming) (w : Layout) (R : Layout → α → β → Prop) (m : Machine) :
    EStateM.Result Stop Machine α → EStateM.Result Stop Machine β → Prop
  | ok {a b w' m1 m1'} : R w' a b → Advanced ρ w w' m m1 m1' → EndsAligned ρ w R m (.ok a m1) (.ok b m1')
  | error {e e' w' m1 m1'} : e'.nameless = e.nameless → Advanced ρ w w' m m1 m1' →
    EndsAligned ρ w R m (.error e m1) (.error e' m1')

/-- From aligned machines, with a current frame at the given distance, the two computations have aligned
outcomes. -/
def Parallel {α β : Type} (ρ : Renaming) (w : Layout) (d : Distance) (R : Layout → α → β → Prop) (x : Eval α)
    (y : Eval β) : Prop :=
  ∀ (w' : Layout) m m', w <+: w' → m.Aligned ρ w' m' → w'.place m.current = d → EndsAligned ρ w' R m (x m) (y m')

variable {α β γ δ : Type} {ρ : Renaming} {w w' w'' : Layout} {d d' : Distance} {m m' m1 m1' m2 m2' : Machine}
  {R : Layout → α → β → Prop} {S : Layout → γ → δ → Prop}

lemma Advanced.refl (h : m.Aligned ρ w m') : Advanced ρ w w m m m' := ⟨List.prefix_refl w, h, rfl⟩

lemma Advanced.trans (h : Advanced ρ w w' m m1 m1') (h' : Advanced ρ w' w'' m1 m2 m2') :
    Advanced ρ w w'' m m2 m2' :=
  ⟨h.layout.trans h'.layout, h'.aligned, h'.current.trans h.current⟩

/-- The current frame stays at its distance. -/
lemma Advanced.place (h : Advanced ρ w w' m m1 m1') (hm : m.Aligned ρ w m') :
    w'.place m1.current = w.place m.current := by
  rw [h.current, Layout.place_of_prefix h.layout hm.placed]

lemma EndsAligned.inv {r : EStateM.Result Stop Machine α} {r' : EStateM.Result Stop Machine β}
    (h : EndsAligned ρ w R m r r') :
    (∃ a b w' m1 m1', r = .ok a m1 ∧ r' = .ok b m1' ∧ R w' a b ∧ Advanced ρ w w' m m1 m1') ∨
      ∃ e e' w' m1 m1', r = .error e m1 ∧ r' = .error e' m1' ∧ e'.nameless = e.nameless ∧
        Advanced ρ w w' m m1 m1' := by
  cases h with
  | ok hab ha => exact .inl ⟨_, _, _, _, _, rfl, rfl, hab, ha⟩
  | error he ha => exact .inr ⟨_, _, _, _, _, rfl, rfl, he, ha⟩

/-! ### Computations put together -/

variable {x : Eval α} {y : Eval β} {f : α → Eval γ} {g : β → Eval δ} {a : α} {b : β}

lemma Parallel.mono (h : Parallel ρ w d R x y) (hw : w <+: w') : Parallel ρ w' d R x y :=
  fun w1 m m' hw1 hm hd => h w1 m m' (hw.trans hw1) hm hd

lemma Parallel.pure (h : ∀ w', w <+: w' → R w' a b) : Parallel ρ w d R (pure a) (pure b) :=
  fun w' _ _ hw hm _ => .ok (h w' hw) (.refl hm)

lemma Parallel.throw {s s' : Stop} (h : s'.nameless = s.nameless) : Parallel ρ w d R (throw s) (throw s') :=
  fun _ _ _ _ hm _ => .error h (.refl hm)

lemma Parallel.bind (h : Parallel ρ w d R x y)
    (hf : ∀ w' a b, w <+: w' → R w' a b → Parallel ρ w' d S (f a) (g b)) :
    Parallel ρ w d S (x >>= f) (y >>= g) := by
  intro w1 m m' hw hm hd
  obtain ⟨a, b, w2, m1, m1', hx, hy, hab, ha⟩ | ⟨e, e', w2, m1, m1', hx, hy, he, ha⟩ := (h w1 m m' hw hm hd).inv
  · rw [Traced.bind_ok hx, Traced.bind_ok hy]
    obtain ⟨c, d, w3, m2, m2', hc, hd, hcd, ha'⟩ | ⟨e, e', w3, m2, m2', hc, hd, he, ha'⟩ :=
      (hf w2 a b (hw.trans ha.layout) hab w2 m1 m1' (List.prefix_refl w2) ha.aligned
        ((ha.place hm).trans hd)).inv
    · rw [hc, hd]
      exact .ok hcd (ha.trans ha')
    · rw [hc, hd]
      exact .error he (ha.trans ha')
  · rw [Traced.bind_error hx, Traced.bind_error hy]
    exact .error he ha

/-- A step that depends on the machine. -/
lemma Parallel.get_bind {f : Machine → Eval α} {g : Machine → Eval β}
    (h : ∀ (w' : Layout) m m', w <+: w' → m.Aligned ρ w' m' → w'.place m.current = d →
      EndsAligned ρ w' R m (f m m) (g m' m')) :
    Parallel ρ w d R (get >>= f) (get >>= g) := h

lemma Machine.Aligned.withCurrent {i : FrameId} (hm : m.Aligned ρ w m') (hi : i < w.length) :
    Machine.Aligned ρ w { m with current := i } { m' with current := i } :=
  ⟨hm.frames, hm.objects, hm.properties, hm.nextStamp, rfl, hi, hm.sink, hm.locals, hm.locals'⟩

lemma Parallel.inFrame {i : FrameId} (h : Parallel ρ w d' R x y) (hi : i < w.length) (hd' : w.place i = d') :
    Parallel ρ w d R (inFrame i x) (inFrame i y) := by
  intro w1 m m' hw hm _
  have hi1 : i < w1.length := Nat.lt_of_lt_of_le hi hw.length_le
  have back : ∀ {w2 m1 m1'}, Advanced ρ w1 w2 { m with current := i } m1 m1' →
      Advanced ρ w1 w2 m { m1 with current := m.current } { m1' with current := m'.current } := by
    intro w2 m1 m1' ha
    rw [hm.current]
    exact ⟨ha.layout, ha.aligned.withCurrent (Nat.lt_of_lt_of_le hm.placed ha.layout.length_le), rfl⟩
  unfold Eval.inFrame
  simp only
  obtain ⟨a, b, w2, m1, m1', hx, hy, hab, ha⟩ | ⟨e, e', w2, m1, m1', hx, hy, he, ha⟩ :=
    (h w1 _ _ hw (hm.withCurrent hi1) ((Layout.place_of_prefix hw hi).trans hd')).inv
  · rw [hx, hy]
    exact .ok hab (back ha)
  · rw [hx, hy]
    exact .error he (back ha)

/-- Computations over related lists, one after another. -/
lemma mapM_parallel {P : γ → δ → Prop} {f : γ → Eval α} {g : δ → Eval β} {l : List γ} {l' : List δ}
    (hR : ∀ {w w' a b}, w <+: w' → R w a b → R w' a b) (h : List.Forall₂ P l l')
    (hfg : ∀ c d', P c d' → Parallel ρ w d R (f c) (g d')) :
    Parallel ρ w d (fun w' => List.Forall₂ (R w')) (l.mapM f) (l'.mapM g) := by
  induction h with
  | nil =>
    rw [List.mapM_nil, List.mapM_nil]
    exact .pure fun _ _ => .nil
  | @cons c d' l l' hcd _ ih =>
    rw [List.mapM_cons, List.mapM_cons]
    exact (hfg c d' hcd).bind fun _ _ _ hw hab => (ih.mono hw).bind fun _ _ _ hw' habs =>
      .pure fun _ hw'' => .cons (hR (hw'.trans hw'') hab) (habs.imp fun _ _ => hR hw'')

/-! ### Errors -/

variable {line : Nat} {v v' : Value} {key : String}

lemma fail_parallel {e e' : RuntimeError} (h : e'.nameless = e.nameless) :
    Parallel ρ w d R (fail e) (fail e') := .throw (congrArg Stop.error h)

lemma ofFrames_parallel {r r' : Except FrameError Value} (h : AgreeNameless (Value.Aligned ρ w) r r') :
    Parallel ρ w d (Value.Aligned ρ) (ofFrames line r) (ofFrames line r') := by
  cases h with
  | ok h => exact .pure fun _ hw => h.mono hw
  | error h => exact fail_parallel (by rw [nameless_atLine, nameless_atLine, h])

/-- Operators fail on both sides with the same error. -/
lemma ofTypes_parallel {r : Except Mismatch Value} (h : ∀ v, r = .ok v → ∀ w, v.Aligned ρ w v) :
    Parallel ρ w d (Value.Aligned ρ) (ofTypes line r) (ofTypes line r) := by
  cases r with
  | ok v => exact .pure fun _ _ => h v rfl _
  | error e => exact fail_parallel rfl

/-! ### Frames -/

lemma Machine.Aligned.withFrames {fs fs' : Frames} (hm : m.Aligned ρ w m') (hw : w <+: w')
    (h : fs.Aligned ρ w' fs') : Machine.Aligned ρ w' { m with frames := fs } { m' with frames := fs' } :=
  ⟨h, hm.objects, fun id => (hm.properties id).mono fun _ _ hv => hv.mono hw, hm.nextStamp, hm.current,
    Nat.lt_of_lt_of_le hm.placed hw.length_le, hm.sink, hm.locals, hm.locals'⟩

lemma change_ends {op op' : Frames.Change Unit} (hm : m.Aligned ρ w m')
    (h : ChangesAligned ρ w (op m.frames) (op' m'.frames)) :
    EndsAligned ρ w (fun _ => Eq) m (change line op m) (change line op' m') := by
  unfold Eval.change
  simp only
  revert h
  generalize op m.frames = r
  generalize op' m'.frames = r'
  rintro (h | ⟨he, h⟩)
  · exact .ok rfl ⟨List.prefix_refl w, hm.withFrames (List.prefix_refl w) h, rfl⟩
  · refine .error (congrArg Stop.error ?_) ⟨List.prefix_refl w, hm.withFrames (List.prefix_refl w) h, rfl⟩
    rw [nameless_atLine, nameless_atLine, he]

/-- A new frame is at the given distance. -/
lemma newFrame_parallel {frame frame' : Frame} {p : FrameId} (h : frame.Aligned ρ w d' frame')
    (hparent : frame.parent = some p) (hp : p < w.length) (hd' : Distance.Enters (w.place p) d') :
    Parallel ρ w d (fun w' i i' => i' = i ∧ i < w'.length ∧ w'.place i = d') (newFrame frame)
      (newFrame frame') := by
  intro w1 m m' hw hm hd
  have hp1 : p < w1.length := Nat.lt_of_lt_of_le hp hw.length_le
  have hadd := hm.frames.add (h.mono hw) hparent hp1 ((Layout.place_of_prefix hw hp).symm ▸ hd')
  have hw' : w1 <+: w1 ++ [d'] := List.prefix_append w1 [d']
  refine .ok ⟨hm.frames.size'.trans hm.frames.size.symm, ?_, ?_⟩ ⟨hw', hm.withFrames hw' hadd, rfl⟩
  · rw [hm.frames.size, List.length_append]
    exact Nat.lt_succ_self _
  · rw [hm.frames.size, Layout.place_push, if_pos rfl]

lemma define_parallel {name : Ident} (constant : Bool) (hname : ρ.Admits d name.text)
    (hv : v.Aligned ρ w v') :
    Parallel ρ w d (fun _ => Eq) (define name v constant) (define (ρ.declared d name) v' constant) := by
  refine .get_bind fun w1 m m' hw hm hd => change_ends hm ?_
  subst hd
  rw [hm.current]
  exact hm.frames.define hname (hv.mono hw)

/-- What is written for a name means the frame that the name means. -/
lemma lookUpAs_parallel {use : Occurrence OccurrenceId} (hkey : ρ.Admits d key) :
    Parallel ρ w d (Value.Aligned ρ) (lookUpAs use key) (lookUpAs use (ρ.written d ρ.locals[use.id]? key)) := by
  refine .get_bind fun w1 m m' _ hm hd => ?_
  subst hd
  refine ofFrames_parallel ?_ w1 m m' (List.prefix_refl w1) hm rfl
  rw [hm.locals', hm.locals, hm.current]
  cases ρ.locals[use.id]? with
  | none => exact hm.frames.get
  | some hops => exact hm.frames.getAt hops hkey

lemma lookUp_parallel {use : Occurrence OccurrenceId} (huse : ρ.Admits d use.text) :
    Parallel ρ w d (Value.Aligned ρ) (lookUp use) (lookUp (ρ.used d use)) := lookUpAs_parallel huse

/-- A reserved word is looked up under the same name on both sides. -/
lemma lookUpAs_reserved (hρ : ρ.Plain) {use : Occurrence OccurrenceId}
    (hkey : d ≠ none → key = "this" ∨ key = "super") :
    Parallel ρ w d (Value.Aligned ρ) (lookUpAs use key) (lookUpAs use key) := by
  have hadmits : ρ.Admits d key := fun hd => by
    rcases hkey hd with rfl | rfl
    · exact hρ.new_this.symm
    · exact hρ.new_super.symm
  have hlookUp : Parallel ρ w d (Value.Aligned ρ) (lookUpAs use key)
      (lookUpAs use (ρ.written d ρ.locals[use.id]? key)) := lookUpAs_parallel hadmits
  have hwritten : ρ.written d ρ.locals[use.id]? key = key := by
    cases d with
    | none => exact ρ.written_none
    | some k =>
      rcases hkey nofun with rfl | rfl
      · exact ρ.written_of_ne hρ.old_this.symm
      · exact ρ.written_of_ne hρ.old_super.symm
  rwa [hwritten] at hlookUp

lemma assign_parallel {use : Occurrence OccurrenceId} (huse : ρ.Admits d use.text) (hv : v.Aligned ρ w v') :
    Parallel ρ w d (fun _ => Eq) (assign use v) (assign (ρ.used d use) v') := by
  refine .get_bind fun w1 m m' hw hm hd => ?_
  subst hd
  simp only [Renaming.used, hm.locals', hm.locals, hm.current]
  cases ρ.locals[use.id]? with
  | none => exact change_ends hm (hm.frames.assign (hv.mono hw))
  | some hops => exact change_ends hm (hm.frames.assignAt hops huse (hv.mono hw))

/-! ### Functions -/

variable {decl decl' : FunctionDecl (Stmt OccurrenceId)} {h h' : Closure} {c c' : Class} {o o' : Object}
  {name : Ident}

lemma newStamp_parallel : Parallel ρ w d (fun _ => Eq) newStamp newStamp := by
  intro w1 m m' _ hm _
  exact .ok hm.nextStamp.symm ⟨List.prefix_refl w1, ⟨hm.frames, hm.objects, hm.properties,
    congrArg (· + 1) hm.nextStamp, hm.current, hm.placed, hm.sink, hm.locals, hm.locals'⟩, rfl⟩

lemma newClosure_parallel (enter : Distance → Distance) (hdecl : FunctionDecl.Aligned ρ (enter d) decl decl') :
    Parallel ρ w d (fun w' => Closure.AlignedAt ρ w' enter) (newClosure decl) (newClosure decl') :=
  newStamp_parallel.bind fun _ _ _ _ hs => .get_bind fun _ _ _ _ hm hd =>
    .ok ⟨hs.symm, hm.current, hm.placed, hd.symm ▸ hdecl⟩ (.refl hm)

lemma forall₂_of_alignedList {decls decls' : List (FunctionDecl (Stmt OccurrenceId))}
    (h : FunctionDecl.AlignedList ρ d decls decls') : List.Forall₂ (FunctionDecl.Aligned ρ d) decls decls' := by
  induction decls generalizing decls' with
  | nil =>
    cases h
    exact .nil
  | cons decl decls ih =>
    cases h with
    | cons hdecl hdecls => exact .cons hdecl (ih hdecls)

lemma newClosures_parallel (enter : Distance → Distance)
    {decls decls' : List (FunctionDecl (Stmt OccurrenceId))}
    (hdecls : FunctionDecl.AlignedList ρ (enter d) decls decls') :
    Parallel ρ w d (fun w' => Table.Alike (Closure.AlignedAt ρ w' enter)) (newClosures decls)
      (newClosures decls') := by
  refine (mapM_parallel
    (R := fun w' (p p' : String × Closure) => p.1 = p'.1 ∧ p.2.AlignedAt ρ w' enter p'.2)
    (fun hw hp => ⟨hp.1, hp.2.mono hw⟩) (forall₂_of_alignedList hdecls) fun decl decl' hdecl => ?_).bind
      fun _ _ _ _ hes => .pure fun _ hw => (ofEntries_alike hes).mono fun _ _ hf => hf.mono hw
  exact (newClosure_parallel enter hdecl).bind fun _ _ _ _ hf =>
    .pure fun _ hw => ⟨congrArg Ident.text hdecl.name.symm, hf.mono hw⟩

/-! ### Methods

A method that is bound stands in a frame of its own, which holds the instance, and so one scope further in.
-/

lemma receiverFrame_aligned (hρ : ρ.Plain) (hf : h.AlignedMethod ρ w h') (hc : c.Aligned ρ w c')
    (ho : o.Aligned ρ w o') :
    (receiverFrame h c o).Aligned ρ w d.inner (receiverFrame h' c' o') := by
  refine ⟨.cons ⟨fun _ => hρ.new_this.symm, ρ.text_inner_zero.symm, .object ho⟩ ?_, .nil, congrArg some hf.frame⟩
  obtain ⟨hs, hs'⟩ | ⟨p, p', hs, hs', hp⟩ := rel_iff.1 hc.superclass?
  · rw [hs, hs']
    exact .nil
  · rw [hs, hs']
    exact .cons ⟨fun _ => hρ.new_super.symm, ρ.text_inner_zero.symm, .ofClass hp⟩ .nil

lemma bindMethod_parallel (hρ : ρ.Plain) (hf : h.AlignedMethod ρ w h') (hc : c.Aligned ρ w c')
    (ho : o.Aligned ρ w o') :
    Parallel ρ w d (Closure.Aligned ρ) (bindMethod h c o) (bindMethod h' c' o') := by
  refine (newFrame_parallel (receiverFrame_aligned hρ hf hc ho) rfl hf.placed .further).bind
    fun w1 _ i _ hi => ?_
  obtain ⟨rfl, hlt, hplace⟩ := hi
  refine newStamp_parallel.bind fun w2 _ _ hw2 hs => .pure fun w3 hw3 => ⟨hs.symm, rfl, ?_, ?_⟩
  · exact Nat.lt_of_lt_of_le hlt (hw2.trans hw3).length_le
  · show FunctionDecl.Aligned ρ (Layout.place w3 i) h.decl h'.decl
    rw [Layout.place_of_prefix (hw2.trans hw3) hlt, hplace]
    exact hf.decl

lemma method_parallel (hρ : ρ.Plain) (ho : o.Aligned ρ w o') (hc : c.Aligned ρ w c') :
    Parallel ρ w d (Value.Aligned ρ) (method o c name) (method o' c' name) := by
  unfold Eval.method
  obtain ⟨hm, hm'⟩ | ⟨p, p', hm, hm', hp⟩ := rel_iff.1 (hc.findMethod? name.text)
  · rw [hm, hm', (Value.Related.object ho).text]
    exact fail_parallel rfl
  · rw [hm, hm']
    exact (bindMethod_parallel hρ hp.2 hp.1 ho).bind fun _ _ _ _ hg => .pure fun _ hw => .closure (hg.mono hw)

/-! ### Objects and properties -/

lemma newObject_parallel (hc : c.Aligned ρ w c') :
    Parallel ρ w d (Object.Aligned ρ) (newObject c) (newObject c') := by
  intro w1 m m' hw hm _
  refine .ok ⟨hm.objects, hc.mono hw⟩ ⟨List.prefix_refl w1, ⟨hm.frames, ?_, properties_push hm.properties,
    hm.nextStamp, hm.current, hm.placed, hm.sink, hm.locals, hm.locals'⟩, rfl⟩
  simp only [Array.size_push, hm.objects]

lemma setProperty_parallel (ho : o'.id = o.id) (hv : v.Aligned ρ w v') :
    Parallel ρ w d (fun _ => Eq) (setProperty o name v) (setProperty o' name v') := by
  intro w1 m m' hw hm _
  refine .ok rfl ⟨List.prefix_refl w1, ⟨hm.frames, ?_, ?_, hm.nextStamp, hm.current, hm.placed, hm.sink,
    hm.locals, hm.locals'⟩, rfl⟩
  · simp only [Array.size_modify, hm.objects]
  · simp only [ho]
    exact properties_modify hm.properties hm.objects.symm (hv.mono hw) o.id name.text

lemma property_parallel (hρ : ρ.Plain) (hv : v.Aligned ρ w v') :
    Parallel ρ w d (Value.Aligned ρ) (property v name) (property v' name) := by
  have htext := hv.text
  cases hv with
  | @object o o' ho =>
    refine .get_bind fun w1 m m' hw hm hd => ?_
    have hget := (hm.properties o.id).get? name.text
    simp only [ho.id]
    obtain ⟨hp, hp'⟩ | ⟨u, u', hp, hp', hu⟩ := rel_iff.1 hget
    · rw [hp, hp']
      exact method_parallel hρ ho ho.cls w1 m m' hw hm hd
    · rw [hp, hp']
      exact .ok hu (.refl hm)
  | ofClass hc =>
    unfold Eval.property
    simp only [htext]
    obtain ⟨hs, hs'⟩ | ⟨f, f', hs, hs', hf⟩ := rel_iff.1 (hc.findStatic? name.text)
    · rw [hs, hs']
      exact fail_parallel rfl
    · rw [hs, hs']
      exact .pure fun _ hw => .closure (hf.mono hw)
  | _ =>
    unfold Eval.property
    simp only [htext]
    exact fail_parallel rfl

lemma superProperty_parallel (hρ : ρ.Plain) {keyword : Occurrence OccurrenceId}
    (hkeyword : d ≠ none → keyword.text = "super") :
    Parallel ρ w d (Value.Aligned ρ) (superProperty keyword name) (superProperty keyword name) := by
  refine (lookUpAs_reserved hρ fun hd => .inr (hkeyword hd)).bind fun w1 v v' _ hv => ?_
  have htext := hv.text
  cases hv with
  | ofClass hc =>
    refine (lookUpAs_reserved hρ fun _ => .inl rfl).bind fun w2 u u' hw hu => ?_
    have htext' := hu.text
    cases hu with
    | object ho => exact method_parallel hρ ho (Class.Aligned.mono hc hw)
    | _ =>
      simp only [htext']
      exact fail_parallel rfl
  | _ =>
    simp only [htext]
    exact fail_parallel rfl

/-! ### Output -/

lemma printLine_parallel (text : String) :
    Parallel ρ w d (fun _ => Eq) (printLine text) (printLine text) := by
  intro w1 m m' _ hm _
  unfold Eval.printLine
  simp only [hm.sink]
  have ha : ∀ sink, Advanced ρ w1 w1 m { m with sink } { m' with sink } := fun sink =>
    ⟨List.prefix_refl w1, ⟨hm.frames, hm.objects, hm.properties, hm.nextStamp, hm.current, hm.placed, rfl, hm.locals,
      hm.locals'⟩, rfl⟩
  split
  · exact .error rfl (ha _)
  · exact .ok rfl (ha _)

end ScriptLang
