import ScriptLang.Proofs.Renaming.RenamedSteps

/-!
# Running renamed code

Aligned code, run with the same fuel in aligned machines, runs in parallel: a use of the renamed name finds the
same variable, and no other use finds it.

* `Flow.Aligned` — the same effect on the statements behind, but for names;
* `EvaluatesParallel`, `ExecutesParallel`, `InvokesParallel` — the statement for expressions, statements and calls;
* `runs_parallel` — the induction on the fuel that proves all three;
* `runProgram_parallel` — whole programs.
-/

namespace ScriptLang

open Eval

/-- The same effect on the statements behind, but for names. -/
inductive Flow.Aligned (ρ : Renaming) (w : Layout) : Flow → Flow → Prop
  | normal : Aligned ρ w .normal .normal
  | returned {v v' : Value} : v.Aligned ρ w v' → Aligned ρ w (.returned v) (.returned v')

/-- With this fuel, aligned expressions are evaluated in parallel. -/
def EvaluatesParallel (ρ : Renaming) (fuel : Nat) : Prop :=
  ∀ w d e e', Expr.Aligned ρ d e e' → Parallel ρ w d (Value.Aligned ρ) (evaluate fuel e) (evaluate fuel e')

/-- With this fuel, aligned statements are executed in parallel. -/
def ExecutesParallel (ρ : Renaming) (fuel : Nat) : Prop :=
  ∀ w d s s', Stmt.Aligned ρ d s s' → Parallel ρ w d (Flow.Aligned ρ) (execute fuel s) (execute fuel s')

/-- With this fuel, calls of aligned functions run in parallel, wherever they stand. -/
def InvokesParallel (ρ : Renaming) (fuel : Nat) : Prop :=
  ∀ w d f f' vs vs', Closure.Aligned ρ w f f' → List.Forall₂ (Value.Aligned ρ w) vs vs' →
    Parallel ρ w d (Value.Aligned ρ) (invoke fuel f vs) (invoke fuel f' vs')

variable {ρ : Renaming} {w w' : Layout} {d d' : Distance} {fuel line : Nat} {vs vs' : List Value}

lemma mono_values (h : List.Forall₂ (Value.Aligned ρ w) vs vs') (hw : w <+: w') :
    List.Forall₂ (Value.Aligned ρ w') vs vs' := h.imp fun _ _ hv => hv.mono hw

/-! ### Parts of runs -/

lemma sequence_parallel (hx : ExecutesParallel ρ fuel) : ∀ {w : Layout} {ss ss' : List (Stmt OccurrenceId)},
    Stmt.AlignedList ρ d ss ss' →
      Parallel ρ w d (Flow.Aligned ρ) (sequence (execute fuel) ss) (sequence (execute fuel) ss')
  | _, [], _, .nil => .pure fun _ _ => .normal
  | w, s :: ss, _ :: _, .cons hs hss => by
    refine (hx w d s _ hs).bind fun w1 flow flow' _ hflow => ?_
    cases hflow with
    | normal => exact sequence_parallel hx hss
    | returned hv => exact .pure fun _ hw => .returned (hv.mono hw)

lemma repeatWhile_parallel {test test' : Eval Value} {body body' : Eval Flow}
    (ht : Parallel ρ w d (Value.Aligned ρ) test test') (hb : Parallel ρ w d (Flow.Aligned ρ) body body') :
    ∀ fuel, Parallel ρ w d (Flow.Aligned ρ) (repeatWhile test body fuel) (repeatWhile test' body' fuel)
  | 0 => .throw rfl
  | fuel + 1 => by
    refine ht.bind fun w1 v v' hw hv => ?_
    rw [hv.isTruthy]
    split
    · refine (hb.mono hw).bind fun w2 flow flow' hw' hflow => ?_
      cases hflow with
      | normal => exact (repeatWhile_parallel ht hb fuel).mono (hw.trans hw')
      | returned hu => exact .pure fun _ hw'' => .returned (hu.mono hw'')
    · exact .pure fun _ _ => .normal

section Parameters

variable {i : FrameId} {v v' : Value} {p : Ident}

/-- A parameter is bound in the frame of the call, whatever the frame of the caller is. -/
lemma bindParam_parallel (hi : i < w.length) (hd' : w.place i = d') (hp : ρ.Admits d' p.text)
    (hv : v.Aligned ρ w v') :
    Parallel ρ w d (fun _ => Eq) (change p.line (Frames.define i p.text v false))
      (change p.line (Frames.define i (ρ.declared d' p).text v' false)) := by
  intro w1 m m' hw hm _
  refine change_ends hm ?_
  rw [← hd', ← Layout.place_of_prefix hw hi] at hp ⊢
  exact hm.frames.define hp (hv.mono hw)

lemma bindParams_parallel : ∀ {w : Layout} (params : List Ident) {vs vs' : List Value},
    i < w.length → w.place i = d' → (∀ p ∈ params, ρ.Admits d' p.text) → List.Forall₂ (Value.Aligned ρ w) vs vs' →
      Parallel ρ w d (fun _ => Eq) (bindParams i params vs) (bindParams i (params.map (ρ.declared d')) vs')
  | _, [], _, _, _, _, _, _ => .pure fun _ _ => rfl
  | _, _ :: _, _, _, _, _, _, .nil => .pure fun _ _ => rfl
  | _, p :: ps, _, _, hi, hd', hps, .cons hv hvs =>
    (bindParam_parallel hi hd' (hps p List.mem_cons_self) hv).bind fun _ _ _ hw _ =>
      bindParams_parallel ps (Nat.lt_of_lt_of_le hi hw.length_le) ((Layout.place_of_prefix hw hi).trans hd')
        (fun q hq => hps q (List.mem_cons_of_mem p hq)) (mono_values hvs hw)

end Parameters

lemma checkArity_parallel (text : String) (expected got : Nat) :
    Parallel ρ w d (fun _ => Eq) (checkArity text expected got line) (checkArity text expected got line) := by
  unfold checkArity
  split
  · exact .pure fun _ _ => rfl
  · exact fail_parallel rfl

/-! ### Calls -/

section Calls

variable (hρ : ρ.Plain) (hi : InvokesParallel ρ fuel) {o o' : Object} {c c' : Class} {v v' : Value}

include hρ hi

lemma constructOwn_parallel (hvs : List.Forall₂ (Value.Aligned ρ w) vs vs') (ho : o.Aligned ρ w o')
    (hc : c.Aligned ρ w c') :
    Parallel ρ w d (fun _ => Eq) (constructOwn (invoke fuel) o vs line c)
      (constructOwn (invoke fuel) o' vs' line c') := by
  unfold constructOwn
  obtain ⟨hm, hm'⟩ | ⟨h, h', hm, hm', hh⟩ := rel_iff.1 (hc.own.methods.get? Class.constructorName)
  · rw [hm, hm']
    exact .pure fun _ _ => rfl
  · rw [hm, hm']
    simp only [hc.own.name, Faithful.arity hh, ← hvs.length_eq]
    exact (checkArity_parallel _ _ _).bind fun w1 _ _ hw _ =>
      (bindMethod_parallel hρ (hh.mono hw) (hc.mono hw) (ho.mono hw)).bind fun w2 g g' hw' hg =>
        (hi w2 d g g' vs vs' hg (mono_values hvs (hw.trans hw'))).bind fun _ _ _ _ _ => .pure fun _ _ => rfl

lemma construct_parallel {cs cs' : List Class} (hcs : List.Forall₂ (Class.Aligned ρ w) cs cs') :
    ∀ {w' : Layout}, w <+: w' → List.Forall₂ (Value.Aligned ρ w') vs vs' → o.Aligned ρ w' o' →
      Parallel ρ w' d (fun _ => Eq) (construct (invoke fuel) o vs line cs)
        (construct (invoke fuel) o' vs' line cs') := by
  induction hcs with
  | nil => exact fun _ _ _ => .pure fun _ _ => rfl
  | cons hc _ ih =>
    exact fun hw hvs ho => (constructOwn_parallel hρ hi hvs ho (hc.mono hw)).bind fun _ _ _ hw' _ =>
      ih (hw.trans hw') (mono_values hvs hw') (ho.mono hw')

lemma apply_parallel (hvs : List.Forall₂ (Value.Aligned ρ w) vs vs') (hv : v.Aligned ρ w v') :
    Parallel ρ w d (Value.Aligned ρ) (apply (invoke fuel) v vs line) (apply (invoke fuel) v' vs' line) := by
  have htext := hv.text
  unfold apply
  cases hv with
  | closure hf =>
    simp only [Faithful.name hf, Faithful.arity hf, ← hvs.length_eq]
    exact (checkArity_parallel _ _ _).bind fun w1 _ _ hw _ =>
      hi w1 d _ _ vs vs' (hf.mono hw) (mono_values hvs hw)
  | ofClass hc =>
    simp only [hc.own.name, hc.arity, ← hvs.length_eq]
    exact (checkArity_parallel _ _ _).bind fun w1 _ _ hw _ =>
      (newObject_parallel (Class.Aligned.mono hc hw)).bind fun w2 o o' hw' ho =>
        (construct_parallel hρ hi (List.rel_reverse hc.lineage) (hw.trans hw')
          (mono_values hvs (hw.trans hw')) ho).bind fun _ _ _ hw'' _ =>
            .pure fun _ hw3 => .object (ho.mono (hw''.trans hw3))
  | _ =>
    simp only [htext]
    exact fail_parallel rfl

end Calls

/-! ### Classes -/

lemma mono_parent {c c' : Option Class} (h : Option.Rel (Class.Aligned ρ w) c c') (hw : w <+: w') :
    Option.Rel (Class.Aligned ρ w') c c' := by
  cases h with
  | none => exact .none
  | some h => exact .some (h.mono hw)

lemma superclass_parallel {name : Ident} {parent parent' : Option (Occurrence OccurrenceId)}
    (hparent : AlignedParent ρ d parent parent') :
    Parallel ρ w d (fun w' => Option.Rel (Class.Aligned ρ w')) (superclass name parent)
      (superclass name parent') := by
  obtain ⟨hadmits, rfl⟩ := hparent
  cases parent with
  | none => exact .pure fun _ _ => .none
  | some use =>
    refine (lookUp_parallel (hadmits use rfl)).bind fun w1 v v' _ hv => ?_
    have htype := hv.type
    cases hv with
    | ofClass hc => exact .pure fun _ hw => .some (Class.Aligned.mono hc hw)
    | _ => exact fail_parallel rfl

lemma declareClass_parallel {name : Ident} {parent parent' : Option (Occurrence OccurrenceId)}
    {methods methods' statics statics' : List (FunctionDecl (Stmt OccurrenceId))} (hname : ρ.Admits d name.text)
    (hsame : ρ.declared d name = name) (hparent : AlignedParent ρ d parent parent')
    (hm : FunctionDecl.AlignedList ρ d.inner methods methods') (hs : FunctionDecl.AlignedList ρ d statics statics') :
    Parallel ρ w d (fun _ => Eq) (declareClass name parent methods statics)
      (declareClass name parent' methods' statics') := by
  refine (superclass_parallel hparent).bind fun w1 c c' hw1 hc => ?_
  have hdefine := define_parallel (w := w1) false hname .null
  rw [hsame] at hdefine
  refine hdefine.bind fun w2 _ _ hw2 _ => newStamp_parallel.bind fun w3 _ _ hw3 hstamp => ?_
  refine (newClosures_parallel Distance.inner hm).bind fun w4 ms ms' hw4 hms => ?_
  refine (newClosures_parallel id hs).bind fun w5 ss ss' hw5 hss => ?_
  refine .get_bind fun w6 m m' hw6 hmm hd => change_ends hmm ?_
  have hbody : ClassBody.Aligned ρ w6 ⟨_, name.text, ms, ss⟩ ⟨_, name.text, ms', ss'⟩ :=
    ⟨hstamp.symm, rfl, hms.mono fun _ _ hf => hf.mono (hw5.trans hw6), hss.mono fun _ _ hf => hf.mono hw6⟩
  have hvalue := extending_related (mono_parent hc (hw2.trans (hw3.trans (hw4.trans (hw5.trans hw6))))) hbody
  have hassign := hmm.frames.assignAt (i := m.current) 0 (hd.symm ▸ hname) (.ofClass hvalue)
  rw [hd, show ρ.text d 0 name.text = name.text from congrArg Ident.text hsame] at hassign
  rw [hmm.current]
  exact hassign

/-! ### The induction -/

lemma evaluatesParallel_succ (hρ : ρ.Plain) (he : EvaluatesParallel ρ fuel) (hi : InvokesParallel ρ fuel) :
    EvaluatesParallel ρ (fuel + 1) := by
  intro w d e e' h
  rw [evaluate.eq_def, evaluate.eq_def]
  cases h with
  | literal => exact .pure fun _ _ => literal_related _
  | name huse => exact lookUp_parallel huse
  | @reserved kind use hkind hspells =>
    refine lookUpAs_reserved hρ fun hd => ?_
    have huse := hspells hd
    cases kind with
    | identifier => exact absurd rfl hkind
    | this => exact .inl huse
    | super => exact .inr huse
  | assign htarget h =>
    exact (he w d _ _ h).bind fun _ _ _ _ hv => (assign_parallel htarget hv).bind fun _ _ _ hw _ =>
      .pure fun _ hw' => hv.mono (hw.trans hw')
  | @unary op line e e' h =>
    refine (he w d e e' h).bind fun _ v v' _ hv => ?_
    rw [hv.unary op]
    exact ofTypes_parallel fun _ hok _ => unary_related hok
  | @binary op line e e' g g' h h' =>
    refine (he w d e e' h).bind fun w1 v v' _ hv => (he w1 d g g' h').bind fun w2 u u' hw hu => ?_
    rw [(hv.mono hw).binary op hu]
    exact ofTypes_parallel fun _ hok _ => binary_related hok
  | @logical op line e e' g g' h h' =>
    refine (he w d e e' h).bind fun w1 v v' _ hv => ?_
    rw [hv.decidedBy op]
    split
    · exact .pure fun _ hw => hv.mono hw
    · exact he w1 d g g' h'
  | group h => exact he w d _ _ h
  | call h hargs =>
    exact (he w d _ _ h).bind fun w1 _ _ _ hv =>
      (mapM_parallel (fun hw h => h.mono hw) hargs fun e e' => he w1 d e e').bind fun _ _ _ hw hvs =>
        apply_parallel hρ hi hvs (hv.mono hw)
  | get h => exact (he w d _ _ h).bind fun _ _ _ _ hv => property_parallel hρ hv
  | superGet hkeyword => exact superProperty_parallel hρ hkeyword
  | @set e e' property g g' h h' =>
    refine (he w d e e' h).bind fun w1 v v' _ hv => ?_
    have htext := hv.text
    cases hv with
    | object ho =>
      exact (he w1 d g g' h').bind fun _ _ _ _ hu => (setProperty_parallel ho.id hu).bind fun _ _ _ hw _ =>
        .pure fun _ hw' => hu.mono (hw.trans hw')
    | _ =>
      simp only [htext]
      exact fail_parallel rfl

lemma executesParallel_succ (he : EvaluatesParallel ρ fuel) (hx : ExecutesParallel ρ fuel) :
    ExecutesParallel ρ (fuel + 1) := by
  intro w d s s' h
  rw [execute.eq_def, execute.eq_def]
  cases h with
  | expr h => exact (he w d _ _ h).bind fun _ _ _ _ _ => .pure fun _ _ => .normal
  | print h =>
    refine (he w d _ _ h).bind fun w1 v v' _ hv => ?_
    rw [hv.text]
    exact (printLine_parallel _).bind fun _ _ _ _ _ => .pure fun _ _ => .normal
  | letVar hname h =>
    cases h with
    | none => exact (define_parallel _ hname .null).bind fun _ _ _ _ _ => .pure fun _ _ => .normal
    | some h =>
      exact (he w d _ _ h).bind fun _ _ _ _ hv => (define_parallel _ hname hv).bind fun _ _ _ _ _ =>
        .pure fun _ _ => .normal
  | constVar hname h =>
    exact (he w d _ _ h).bind fun _ _ _ _ hv => (define_parallel _ hname hv).bind fun _ _ _ _ _ =>
      .pure fun _ _ => .normal
  | @block _ d' body body' hd' hbody =>
    refine .get_bind fun w1 m m' _ hm hd => ?_
    have hempty : (Frame.empty (some m.current)).Aligned ρ w1 d' (Frame.empty (some m.current)) := empty_aligned _
    rw [hm.current]
    refine ((newFrame_parallel hempty rfl hm.placed (hd.symm ▸ hd')).bind fun w2 _ i _ hi => ?_) w1 m m'
      (List.prefix_refl w1) hm hd
    obtain ⟨rfl, hlt, hplace⟩ := hi
    exact (sequence_parallel hx hbody).inFrame hlt hplace
  | ifThen hc hs =>
    refine (he w d _ _ hc).bind fun w1 v v' _ hv => ?_
    rw [hv.isTruthy]
    split
    · exact hx w1 d _ _ hs
    · exact .pure fun _ _ => .normal
  | ifElse hc hs ht =>
    refine (he w d _ _ hc).bind fun w1 v v' _ hv => ?_
    rw [hv.isTruthy]
    split
    · exact hx w1 d _ _ hs
    · exact hx w1 d _ _ ht
  | «while» hc hs => exact repeatWhile_parallel (he w d _ _ hc) (hx w d _ _ hs) fuel
  | function hname hsame hdecl =>
    refine (newClosure_parallel id hdecl).bind fun w1 h h' _ hh => ?_
    have hdefine := define_parallel false hname (.closure hh)
    rw [hsame] at hdefine
    rw [hdecl.name]
    exact hdefine.bind fun _ _ _ _ _ => .pure fun _ _ => .normal
  | «return» h =>
    cases h with
    | none => exact .pure fun _ _ => .returned .null
    | some h => exact (he w d _ _ h).bind fun _ _ _ _ hv => .pure fun _ hw => .returned (hv.mono hw)
  | classDecl hname hsame hparent hm hs =>
    exact (declareClass_parallel hname hsame hparent hm hs).bind fun _ _ _ _ _ => .pure fun _ _ => .normal

lemma invokesParallel_succ (hx : ExecutesParallel ρ fuel) : InvokesParallel ρ (fuel + 1) := by
  rintro w d ⟨stamp, decl, frame⟩ ⟨stamp', decl', frame'⟩ vs vs' hh hvs
  obtain rfl : frame' = frame := hh.frame
  have hdecl : FunctionDecl.Aligned ρ (w.place frame') decl decl' := hh.decl
  rw [invoke, invoke]
  cases hdecl with
  | @mk _ d' name params body body' hd' hparams hbody =>
    refine (newFrame_parallel (empty_aligned (some frame')) rfl hh.placed hd').bind fun w1 i _ hw1 hi => ?_
    obtain ⟨rfl, hlt, hplace⟩ := hi
    refine (bindParams_parallel params hlt hplace hparams (mono_values hvs hw1)).bind fun w2 _ _ hw2 _ => ?_
    have hlt2 := Nat.lt_of_lt_of_le hlt hw2.length_le
    refine ((sequence_parallel hx hbody).inFrame hlt2 ((Layout.place_of_prefix hw2 hlt).trans hplace)).bind
      fun w3 flow flow' _ hflow => ?_
    cases hflow with
    | normal => exact .pure fun _ _ => .null
    | returned hv => exact .pure fun _ hw => hv.mono hw

/-- **Running does not depend on a local name**, with any fuel, in expressions, statements and calls. -/
theorem runs_parallel (hρ : ρ.Plain) (fuel : Nat) :
    EvaluatesParallel ρ fuel ∧ ExecutesParallel ρ fuel ∧ InvokesParallel ρ fuel := by
  induction fuel with
  | zero =>
    refine ⟨fun w d e e' _ => ?_, fun w d s s' _ => ?_, fun w d f f' vs vs' _ _ => ?_⟩
    · rw [evaluate, evaluate]
      exact .throw rfl
    · rw [execute, execute]
      exact .throw rfl
    · rw [invoke, invoke]
      exact .throw rfl
  | succ fuel ih =>
    obtain ⟨he, hx, hi⟩ := ih
    exact ⟨evaluatesParallel_succ hρ he hi, executesParallel_succ he hx, invokesParallel_succ hx⟩

/-! ### Programs -/

/-- Two ends of runs of programs: both are complete, or out of fuel, or failed for the same reason but for a name. -/
inductive RunResult.Matches : RunResult → RunResult → Prop
  | completed : Matches .completed .completed
  | failed {failure failure' : Failure} : failure'.error.nameless = failure.error.nameless →
    Matches (.failed failure) (.failed failure')
  | outOfFuel : Matches .outOfFuel .outOfFuel

/-- **Runs of aligned programs end in the same way**, and leave aligned machines. -/
theorem runProgram_parallel (hρ : ρ.Plain) (fuel : Nat) : ∀ {w : Layout} {program program' : Program OccurrenceId}
    {m m' : Machine}, Stmt.AlignedList ρ none program program' → m.Aligned ρ w m' → w.place m.current = none →
      RunResult.Matches (runProgram fuel program m).1 (runProgram fuel program' m').1 ∧
        ∃ w', Advanced ρ w w' m (runProgram fuel program m).2 (runProgram fuel program' m').2
  | w, [], _, m, m', .nil, hm, _ => ⟨.completed, w, .refl hm⟩
  | w, s :: ss, s' :: ss', m, m', .cons hs hss, hm, hd => by
    rw [runProgram, runProgram]
    obtain ⟨flow, flow', w1, m1, m1', hx, hx', -, ha⟩ | ⟨e, e', w1, m1, m1', hx, hx', he, ha⟩ :=
      ((runs_parallel hρ fuel).2.1 w none s s' hs w m m' (List.prefix_refl w) hm hd).inv
    · rw [hx, hx']
      obtain ⟨hresult, w2, ha'⟩ := runProgram_parallel hρ fuel hss ha.aligned ((ha.place hm).trans hd)
      exact ⟨hresult, w2, ha.trans ha'⟩
    · rw [hx, hx']
      cases e with
      | error e =>
        cases e' with
        | error e' =>
          injection he with he
          exact ⟨.failed he, w1, ha⟩
        | outOfFuel => cases he
      | outOfFuel =>
        cases e' with
        | error e' => cases he
        | outOfFuel => exact ⟨.outOfFuel, w1, ha⟩

end ScriptLang
