import ScriptLang.Proofs.Loops.ChartedSteps

/-!
# Runs in the tree and in the source

Code that fits its place, run as its tree says and as it is written, runs side by side: the frame of the block around
a body and an increment holds no name, and every use of a name means the same without it.

* `Flow.Charted` — the same effect on the statements behind;
* `EvaluatesSame`, `ExecutesSame`, `InvokesSame` — the statement for expressions, statements and calls;
* `runs_sideBySide` — the induction on the fuel that proves all three;
* `runProgram_sideBySide` — whole programs.
-/

namespace ScriptLang

open Eval

/-- The same effect on the statements behind. -/
inductive Flow.Charted (T : Distances) (w : Chart) : Flow → Flow → Prop
  | normal : Charted T w .normal .normal
  | returned {v v' : Value} : v.Charted T w v' → Charted T w (.returned v) (.returned v')

/-- With this fuel, expressions are evaluated side by side. -/
def EvaluatesSame (T : Distances) (fuel : Nat) : Prop :=
  ∀ w l e, Expr.FitsIn T l e → SideBySide T w l (Value.Charted T) (evaluate fuel e) (Source.evaluate fuel e)

/-- With this fuel, statements are executed side by side. -/
def ExecutesSame (T : Distances) (fuel : Nat) : Prop :=
  ∀ w l s, Stmt.FitsIn T l s → SideBySide T w l (Flow.Charted T) (execute fuel s) (Source.execute fuel s)

/-- With this fuel, calls of the same function run side by side, wherever they stand. -/
def InvokesSame (T : Distances) (fuel : Nat) : Prop :=
  ∀ w l f f' vs vs', Closure.Charted T w f f' → List.Forall₂ (Value.Charted T w) vs vs' →
    SideBySide T w l (Value.Charted T) (invoke fuel f vs) (Source.invoke fuel f' vs')

variable {T : Distances} {w w' : Chart} {l l' : Layers} {fuel line : Nat} {vs vs' : List Value}

lemma charted_values_mono (h : List.Forall₂ (Value.Charted T w) vs vs') (hw : w <+: w') :
    List.Forall₂ (Value.Charted T w') vs vs' := h.imp fun _ _ hv => hv.mono hw

/-! ### Parts of runs -/

lemma sequence_sideBySide (hx : ExecutesSame T fuel) : ∀ {w : Chart} {ss : List (Stmt OccurrenceId)},
    Stmt.FitListIn T l ss →
      SideBySide T w l (Flow.Charted T) (sequence (execute fuel) ss) (sequence (Source.execute fuel) ss)
  | _, [], _ => .pure fun _ _ => .normal
  | w, s :: ss, ⟨hs, hss⟩ => by
    refine (hx w l s hs).bind fun w1 flow flow' _ hflow => ?_
    cases hflow with
    | normal => exact sequence_sideBySide hx hss
    | returned hv => exact .pure fun _ hw => .returned (hv.mono hw)

lemma repeatWhile_sideBySide {test test' : Eval Value} {body body' : Eval Flow}
    (ht : SideBySide T w l (Value.Charted T) test test') (hb : SideBySide T w l (Flow.Charted T) body body') :
    ∀ fuel, SideBySide T w l (Flow.Charted T) (repeatWhile test body fuel) (repeatWhile test' body' fuel)
  | 0 => .throw
  | fuel + 1 => by
    refine ht.bind fun w1 v v' hw hv => ?_
    rw [hv.isTruthy]
    split
    · refine (hb.mono hw).bind fun w2 flow flow' hw' hflow => ?_
      cases hflow with
      | normal => exact (repeatWhile_sideBySide ht hb fuel).mono (hw.trans hw')
      | returned hu => exact .pure fun _ hw'' => .returned (hu.mono hw'')
    · exact .pure fun _ _ => .normal

section Parameters

variable {i : FrameId} {v v' : Value}

/-- A parameter is bound in the frame of the call, whatever the frame of the caller is. -/
lemma bindParam_sideBySide (hi : i < w.length) (ho : (w.layers i).Own) (hv : v.Charted T w v') (p : Ident) :
    SideBySide T w l (fun _ => Eq) (change p.line (Frames.define i p.text v false))
      (change p.line (Frames.define (w.image i) p.text v' false)) := by
  intro w1 m m' hw hm _
  have hi1 : i < w1.length := Nat.lt_of_lt_of_le hi hw.length_le
  have ho1 : Layers.Own (Chart.layers w1 i) := by rwa [Chart.layers_of_extended hw hi]
  rw [← Chart.image_of_extended hw hi]
  exact change_ends_charted hm (hm.frames.define hi1 ho1 (hv.mono hw) false)

lemma bindParams_sideBySide : ∀ {w : Chart} (params : List Ident) {vs vs' : List Value}, i < w.length →
    (w.layers i).Own → List.Forall₂ (Value.Charted T w) vs vs' →
      SideBySide T w l (fun _ => Eq) (bindParams i params vs) (bindParams (w.image i) params vs')
  | _, [], _, _, _, _, _ => .pure fun _ _ => rfl
  | _, _ :: _, _, _, _, _, .nil => .pure fun _ _ => rfl
  | w, p :: ps, _, _, hi, ho, .cons hv hvs => by
    refine (bindParam_sideBySide hi ho hv p).bind fun w1 _ _ hw _ => ?_
    have ho1 : Layers.Own (Chart.layers w1 i) := by rwa [Chart.layers_of_extended hw hi]
    rw [← Chart.image_of_extended hw hi]
    exact bindParams_sideBySide ps (Nat.lt_of_lt_of_le hi hw.length_le) ho1 (charted_values_mono hvs hw)

end Parameters

lemma checkArity_sideBySide (text : String) (expected got : Nat) :
    SideBySide T w l (fun _ => Eq) (checkArity text expected got line) (checkArity text expected got line) := by
  unfold checkArity
  split
  · exact .pure fun _ _ => rfl
  · exact fail_sideBySide

/-! ### Calls -/

section Calls

variable (hi : InvokesSame T fuel) {o o' : Object} {c c' : Class} {v v' : Value}

include hi

lemma constructOwn_sideBySide (hvs : List.Forall₂ (Value.Charted T w) vs vs') (ho : o.Charted T w o')
    (hc : c.Charted T w c') :
    SideBySide T w l (fun _ => Eq) (constructOwn (invoke fuel) o vs line c)
      (constructOwn (Source.invoke fuel) o' vs' line c') := by
  unfold constructOwn
  obtain ⟨hm, hm'⟩ | ⟨h, h', hm, hm', hh⟩ := rel_iff.1 (hc.own.methods.get? Class.constructorName)
  · rw [hm, hm']
    exact .pure fun _ _ => rfl
  · rw [hm, hm']
    simp only [hc.own.name, Faithful.arity hh, ← hvs.length_eq]
    refine (checkArity_sideBySide _ _ _).bind fun w1 _ _ hw _ => ?_
    refine (bindMethod_sideBySide (hh.mono hw) (hc.mono hw) (ho.mono hw)).bind fun w2 g g' hw' hg => ?_
    exact (hi w2 l g g' vs vs' hg (charted_values_mono hvs (hw.trans hw'))).bind fun _ _ _ _ _ => .pure fun _ _ => rfl

lemma construct_sideBySide {cs cs' : List Class} (hcs : List.Forall₂ (Class.Charted T w) cs cs') :
    ∀ {w' : Chart}, w <+: w' → List.Forall₂ (Value.Charted T w') vs vs' → o.Charted T w' o' →
      SideBySide T w' l (fun _ => Eq) (construct (invoke fuel) o vs line cs)
        (construct (Source.invoke fuel) o' vs' line cs') := by
  induction hcs with
  | nil => exact fun _ _ _ => .pure fun _ _ => rfl
  | cons hc _ ih =>
    intro w' hw hvs ho
    refine (constructOwn_sideBySide hi hvs ho (hc.mono hw)).bind fun w1 _ _ hw' _ => ?_
    exact ih (hw.trans hw') (charted_values_mono hvs hw') (ho.mono hw')

lemma apply_sideBySide (hvs : List.Forall₂ (Value.Charted T w) vs vs') (hv : v.Charted T w v') :
    SideBySide T w l (Value.Charted T) (apply (invoke fuel) v vs line) (apply (Source.invoke fuel) v' vs' line) := by
  have htext := hv.text
  unfold apply
  cases hv with
  | closure hf =>
    simp only [Faithful.name hf, Faithful.arity hf, ← hvs.length_eq]
    exact (checkArity_sideBySide _ _ _).bind fun w1 _ _ hw _ =>
      hi w1 l _ _ vs vs' (hf.mono hw) (charted_values_mono hvs hw)
  | ofClass hc =>
    simp only [hc.own.name, hc.arity, ← hvs.length_eq]
    refine (checkArity_sideBySide _ _ _).bind fun w1 _ _ hw _ => ?_
    refine (newObject_sideBySide (Class.Charted.mono hc hw)).bind fun w2 o o' hw' ho => ?_
    have hvs2 := charted_values_mono hvs (hw.trans hw')
    refine (construct_sideBySide hi (List.rel_reverse hc.lineage) (hw.trans hw') hvs2 ho).bind fun w3 _ _ hw'' _ => ?_
    exact .pure fun _ hw3 => .object (ho.mono (hw''.trans hw3))
  | _ =>
    simp only [htext]
    exact fail_sideBySide

end Calls

/-! ### Classes -/

lemma charted_parent_mono {c c' : Option Class} (h : Option.Rel (Class.Charted T w) c c') (hw : w <+: w') :
    Option.Rel (Class.Charted T w') c c' := by
  cases h with
  | none => exact .none
  | some h => exact .some (h.mono hw)

lemma superclass_sideBySide {name : Ident} {parent : Option (Occurrence OccurrenceId)}
    (hparent : T.AgreeAll l parent.toList) :
    SideBySide T w l (fun w' => Option.Rel (Class.Charted T w')) (superclass name parent)
      (superclass name parent) := by
  cases parent with
  | none => exact .pure fun _ _ => .none
  | some use =>
    refine (lookUp_sideBySide (hparent use (List.mem_singleton_self use))).bind fun w1 v v' _ hv => ?_
    cases hv with
    | ofClass hc => exact .pure fun _ hw => .some (Class.Charted.mono hc hw)
    | _ => exact fail_sideBySide

lemma declareClass_sideBySide {name : Ident} {parent : Option (Occurrence OccurrenceId)}
    {methods statics : List (FunctionDecl (Stmt OccurrenceId))} (hl : l.Own)
    (hparent : T.AgreeAll l parent.toList) (hm : FunctionDecl.FitListIn T (false :: l) methods)
    (hs : FunctionDecl.FitListIn T l statics) :
    SideBySide T w l (fun _ => Eq) (declareClass name parent methods statics)
      (declareClass name parent methods statics) := by
  refine (superclass_sideBySide hparent).bind fun w1 c c' hw1 hc => ?_
  refine (define_sideBySide (w := w1) name false hl .null).bind fun w2 _ _ hw2 _ => ?_
  refine newStamp_sideBySide.bind fun w3 _ _ hw3 hstamp => ?_
  refine (newClosures_sideBySide (List.cons false) hm).bind fun w4 ms ms' hw4 hms => ?_
  refine (newClosures_sideBySide id hs).bind fun w5 ss ss' hw5 hss => ?_
  refine .get_bind fun w6 m m' hw6 hmm hlayers => change_ends_charted hmm ?_
  have hbody : ClassBody.Charted T w6 ⟨_, name.text, ms, ss⟩ ⟨_, name.text, ms', ss'⟩ :=
    ⟨hstamp.symm, rfl, Table.Alike.mono hms fun _ _ hf => hf.mono (hw5.trans hw6),
      Table.Alike.mono hss fun _ _ hf => hf.mono hw6⟩
  have hparent6 := charted_parent_mono hc (hw2.trans (hw3.trans (hw4.trans (hw5.trans hw6))))
  have hvalue := extending_related hparent6 hbody
  rw [hmm.current]
  exact hmm.frames.assignIn hmm.placed (hlayers ▸ hl) (.ofClass hvalue)

/-! ### The induction -/

lemma evaluatesSame_succ (he : EvaluatesSame T fuel) (hi : InvokesSame T fuel) : EvaluatesSame T (fuel + 1) := by
  intro w l e h
  rw [evaluate.eq_def, Source.evaluate.eq_def]
  cases e with
  | literal value => exact .pure fun _ _ => literal_related _
  | name kind use => exact lookUp_sideBySide (Distances.agreeAll_singleton.1 h)
  | assign target value =>
    obtain ⟨hvalue, htarget⟩ := Distances.agreeAll_append.1 h
    refine (he w l value hvalue).bind fun w1 v v' _ hv => ?_
    refine (assign_sideBySide (Distances.agreeAll_singleton.1 htarget) hv).bind fun w2 _ _ hw _ => ?_
    exact .pure fun _ hw' => hv.mono (hw.trans hw')
  | unary op line operand =>
    refine (he w l operand h).bind fun _ v v' _ hv => ?_
    rw [hv.unary op]
    exact ofTypes_sideBySide fun _ hok _ => unary_related hok
  | binary op line left right =>
    obtain ⟨hleft, hright⟩ := Distances.agreeAll_append.1 h
    refine (he w l left hleft).bind fun w1 v v' _ hv => (he w1 l right hright).bind fun w2 u u' hw hu => ?_
    rw [(hv.mono hw).binary op hu]
    exact ofTypes_sideBySide fun _ hok _ => binary_related hok
  | logical op line left right =>
    obtain ⟨hleft, hright⟩ := Distances.agreeAll_append.1 h
    refine (he w l left hleft).bind fun w1 v v' _ hv => ?_
    rw [hv.decidedBy op]
    split
    · exact .pure fun _ hw => hv.mono hw
    · exact he w1 l right hright
  | group inner => exact he w l inner h
  | call line callee args =>
    obtain ⟨hcallee, hargs⟩ := Distances.agreeAll_append.1 h
    refine (he w l callee hcallee).bind fun w1 v v' _ hv => ?_
    refine (mapM_sideBySide (fun hw h => h.mono hw) fun arg hmem w => he w l arg (Expr.FitListIn.mem hargs hmem)).bind
      fun w2 us us' hw hus => ?_
    exact apply_sideBySide hi hus (hv.mono hw)
  | get object property => exact (he w l object h).bind fun _ _ _ _ hv => property_sideBySide hv
  | superGet keyword property => exact superProperty_sideBySide (Distances.agreeAll_singleton.1 h)
  | set object property value =>
    obtain ⟨hobject, hvalue⟩ := Distances.agreeAll_append.1 h
    refine (he w l object hobject).bind fun w1 v v' _ hv => ?_
    have htext := hv.text
    cases hv with
    | object ho =>
      refine (he w1 l value hvalue).bind fun w2 u u' _ hu => ?_
      refine (setProperty_sideBySide ho.id hu).bind fun w3 _ _ hw _ => ?_
      exact .pure fun _ hw' => hu.mono (hw.trans hw')
    | _ =>
      simp only [htext]
      exact fail_sideBySide

/-- **A block runs side by side with the block as it is written**: with a frame on both sides, or, around a body and
an increment, with a frame in the tree alone. -/
lemma block_sideBySide (hx : ExecutesSame T fuel) {body : List (Stmt OccurrenceId)}
    (h : Stmt.FitListIn T (Stmt.isRound body :: l) body) :
    SideBySide T w l (Flow.Charted T) (execute (fuel + 1) (.block body)) (Source.execute (fuel + 1) (.block body)) := by
  rw [execute, Source.execute]
  cases hround : Stmt.isRound body with
  | true =>
    rw [hround] at h
    exact (sequence_sideBySide hx h).inRound
  | false =>
    rw [hround] at h
    exact .inOwn fun _ _ => sequence_sideBySide hx h

lemma executesSame_succ (he : EvaluatesSame T fuel) (hx : ExecutesSame T fuel) : ExecutesSame T (fuel + 1) := by
  intro w l s h
  cases s with
  | block body => exact block_sideBySide hx h
  | expr e =>
    rw [execute, Source.execute]
    exact (he w l e h).bind fun _ _ _ _ _ => .pure fun _ _ => .normal
  | print e =>
    rw [execute, Source.execute]
    refine (he w l e h).bind fun w1 v v' _ hv => ?_
    rw [hv.text]
    exact (printLine_sideBySide _).bind fun _ _ _ _ _ => .pure fun _ _ => .normal
  | letVar name value =>
    obtain ⟨hl, h⟩ := h
    cases value with
    | none =>
      rw [execute, Source.execute]
      exact (define_sideBySide name _ hl .null).bind fun _ _ _ _ _ => .pure fun _ _ => .normal
    | some value =>
      rw [execute, Source.execute]
      refine (he w l value h).bind fun w1 v v' _ hv => ?_
      exact (define_sideBySide name _ hl hv).bind fun _ _ _ _ _ => .pure fun _ _ => .normal
  | constVar name value =>
    obtain ⟨hl, h⟩ := h
    rw [execute, Source.execute]
    refine (he w l value h).bind fun w1 v v' _ hv => ?_
    exact (define_sideBySide name _ hl hv).bind fun _ _ _ _ _ => .pure fun _ _ => .normal
  | ifThen c yes =>
    rw [execute, Source.execute]
    refine (he w l c h.1).bind fun w1 v v' _ hv => ?_
    rw [hv.isTruthy]
    split
    · exact hx w1 l yes h.2
    · exact .pure fun _ _ => .normal
  | ifElse c yes no =>
    rw [execute, Source.execute]
    refine (he w l c h.1).bind fun w1 v v' _ hv => ?_
    rw [hv.isTruthy]
    split
    · exact hx w1 l yes h.2.1
    · exact hx w1 l no h.2.2
  | «while» c body =>
    rw [execute, Source.execute]
    exact repeatWhile_sideBySide (he w l c h.1) (hx w l body h.2) fuel
  | function decl =>
    obtain ⟨hl, hdecl⟩ := h
    rw [execute, Source.execute]
    refine (newClosure_sideBySide id hdecl).bind fun w1 f f' _ hf => ?_
    exact (define_sideBySide decl.name false hl (.closure hf)).bind fun _ _ _ _ _ => .pure fun _ _ => .normal
  | «return» line value =>
    cases value with
    | none =>
      rw [execute, Source.execute]
      exact .pure fun _ _ => .returned .null
    | some value =>
      rw [execute, Source.execute]
      exact (he w l value h).bind fun _ _ _ _ hv => .pure fun _ hw => .returned (hv.mono hw)
  | classDecl name parent methods statics =>
    obtain ⟨hl, hparent, hm, hs⟩ := h
    rw [execute, Source.execute]
    exact (declareClass_sideBySide hl hparent hm hs).bind fun _ _ _ _ _ => .pure fun _ _ => .normal

lemma invokesSame_succ (hx : ExecutesSame T fuel) : InvokesSame T (fuel + 1) := by
  intro w l f f' vs vs' hf hvs
  rw [invoke, Source.invoke, hf.decl]
  refine (newFrame_sideBySide empty_charted hf.placed rfl (congrArg some hf.frame)).bind fun w1 i i' hw1 hi => ?_
  obtain ⟨rfl, hlt, hlayers⟩ := hi
  have ho : Layers.Own (Chart.layers w1 i) := hlayers ▸ Layers.own_false
  refine (bindParams_sideBySide f.decl.params hlt ho (charted_values_mono hvs hw1)).bind fun w2 _ _ hw2 _ => ?_
  have hlt2 := Nat.lt_of_lt_of_le hlt hw2.length_le
  have hlayers2 : Chart.layers w2 i = false :: w.layers f.frame := (Chart.layers_of_extended hw2 hlt).trans hlayers
  have hbody : SideBySide T w2 (false :: w.layers f.frame) (Flow.Charted T) (sequence (execute fuel) f.decl.body)
      (sequence (Source.execute fuel) f.decl.body) := sequence_sideBySide hx hf.fits.body
  rw [← Chart.image_of_extended hw2 hlt]
  refine (hbody.inFrame hlt2 hlayers2).bind fun w3 flow flow' _ hflow => ?_
  cases hflow with
  | normal => exact .pure fun _ _ => .null
  | returned hv => exact .pure fun _ hw => hv.mono hw

/-- **Code runs side by side with the code as it is written**, with any fuel, in expressions, statements and calls. -/
theorem runs_sideBySide (T : Distances) (fuel : Nat) :
    EvaluatesSame T fuel ∧ ExecutesSame T fuel ∧ InvokesSame T fuel := by
  induction fuel with
  | zero =>
    refine ⟨fun w l e _ => ?_, fun w l s _ => ?_, fun w l f f' vs vs' _ _ => ?_⟩
    · rw [evaluate, Source.evaluate]
      exact .throw
    · rw [execute, Source.execute]
      exact .throw
    · rw [invoke, Source.invoke]
      exact .throw
  | succ fuel ih =>
    obtain ⟨he, hx, hi⟩ := ih
    exact ⟨evaluatesSame_succ he hi, executesSame_succ he hx, invokesSame_succ hx⟩

/-! ### Programs -/

/-- **A program that fits ends in the same way as it does as it is written**, and leaves charted machines. -/
theorem runProgram_sideBySide (fuel : Nat) : ∀ {w : Chart} {program : Program OccurrenceId} {m m' : Machine},
    Stmt.FitListIn T [] program → m.Charted T w m' → w.layers m.current = [] →
      (Source.runProgram fuel program m').1 = (runProgram fuel program m).1 ∧
        ∃ w', Reaches T w w' m (runProgram fuel program m).2 (Source.runProgram fuel program m').2
  | w, [], m, m', _, hm, _ => ⟨rfl, w, .refl hm⟩
  | w, s :: ss, m, m', ⟨hs, hss⟩, hm, hl => by
    rw [runProgram, Source.runProgram]
    obtain ⟨flow, flow', w1, m1, m1', hx, hx', -, ha⟩ | ⟨e, w1, m1, m1', hx, hx', ha⟩ :=
      ((runs_sideBySide T fuel).2.1 w [] s hs w m m' (List.prefix_refl w) hm hl).inv
    · rw [hx, hx']
      obtain ⟨hresult, w2, ha'⟩ := runProgram_sideBySide fuel hss ha.charted ((ha.layers hm).trans hl)
      exact ⟨hresult, w2, ha.trans ha'⟩
    · rw [hx, hx']
      cases e with
      | error e => exact ⟨rfl, w1, ha⟩
      | outOfFuel => exact ⟨rfl, w1, ha⟩

end ScriptLang
