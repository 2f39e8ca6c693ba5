import ScriptLang.Proofs.Splitting.Simulation
import ScriptLang.Tree.Occurrences

/-!
# Running code on other lines

The same code on other lines, run with the same fuel in machines alike, has results alike and leaves machines
alike: running looks at no line but to tell of an error.

* `Flow.Alike` — the same effect on the statements behind, up to lines;
* `EvaluatesAlike`, `ExecutesAlike`, `InvokesAlike` — the statement for expressions, statements and calls;
* `runs_alike` — the induction on the fuel that proves all three;
* `runProgram_alike`, `runProgram_append` — whole programs, on other lines and one behind the other.
-/

namespace ScriptLang

open Eval

variable {n : OccurrenceId} {fuel line line' : Nat} {m m' : Machine} {v v' : Value} {vs vs' : List Value}
  {h h' : Closure} {o o' : Object} {c c' : Class} {f : Nat → Nat}

/-- The same effect on the statements behind, up to lines. -/
inductive Flow.Alike (n : OccurrenceId) : Flow → Flow → Prop
  | normal : Alike n .normal .normal
  | returned {w w' : Value} : w.Alike n w' → Alike n (.returned w) (.returned w')

/-- With this fuel, expressions on other lines have the same values. -/
def EvaluatesAlike (n : OccurrenceId) (fuel : Nat) : Prop :=
  ∀ (f : Nat → Nat) (e : Expr OccurrenceId), Below n e.occurrences →
    Simulates n (Value.Alike n) (evaluate fuel e) (evaluate fuel (e.relabel f id))

/-- With this fuel, statements on other lines do the same. -/
def ExecutesAlike (n : OccurrenceId) (fuel : Nat) : Prop :=
  ∀ (f : Nat → Nat) (s : Stmt OccurrenceId), Below n s.occurrences →
    Simulates n (Flow.Alike n) (execute fuel s) (execute fuel (s.relabel f id))

/-- With this fuel, calls of functions that are the same up to lines give the same values. -/
def InvokesAlike (n : OccurrenceId) (fuel : Nat) : Prop :=
  ∀ (h h' : Closure) (vs vs' : List Value), h.Alike n h' → List.Forall₂ (Value.Alike n) vs vs' →
    Simulates n (Value.Alike n) (invoke fuel h vs) (invoke fuel h' vs')

/-! ### Parts of runs -/

lemma sequence_simulates (hx : ExecutesAlike n fuel) : ∀ ss : List (Stmt OccurrenceId),
    Below n (Stmt.occurrencesList ss) →
      Simulates n (Flow.Alike n) (sequence (execute fuel) ss) (sequence (execute fuel) (Stmt.relabelList f id ss))
  | [], _ => .pure .normal
  | s :: ss, hb => by
    obtain ⟨hs, hss⟩ := below_append.1 hb
    refine (hx f s hs).bind fun flow flow' hflow => ?_
    cases hflow with
    | normal => exact sequence_simulates hx ss hss
    | returned hv => exact .pure (.returned hv)

lemma repeatWhile_simulates {test test' : Eval Value} {body body' : Eval Flow}
    (ht : Simulates n (Value.Alike n) test test') (hb : Simulates n (Flow.Alike n) body body') :
    ∀ fuel, Simulates n (Flow.Alike n) (repeatWhile test body fuel) (repeatWhile test' body' fuel)
  | 0 => .throw
  | fuel + 1 => by
    refine ht.bind fun v v' hv => ?_
    rw [hv.isTruthy]
    split
    · refine hb.bind fun flow flow' hflow => ?_
      cases hflow with
      | normal => exact repeatWhile_simulates ht hb fuel
      | returned hw => exact .pure (.returned hw)
    · exact .pure .normal

lemma bindParams_simulates {i : FrameId} : ∀ (ps : List Ident) {vs vs' : List Value},
    List.Forall₂ (Value.Alike n) vs vs' →
      Simulates n Eq (bindParams i ps vs) (bindParams i (ps.map (Ident.relabel f)) vs')
  | [], _, _, _ => .pure rfl
  | _ :: _, _, _, .nil => .pure rfl
  | _ :: ps, _, _, .cons hv hvs =>
    (change_simulates fun _ _ hfs => define_agree hfs hv).bind fun _ _ _ => bindParams_simulates ps hvs

lemma checkArity_simulates {text text' : String} {expected expected' got got' : Nat}
    (he : expected = expected') (hg : got = got') :
    Simulates n Eq (checkArity text expected got line) (checkArity text' expected' got' line') := by
  subst he hg
  unfold checkArity
  split
  · exact .pure rfl
  · exact fail_simulates

section Calls

variable (hi : InvokesAlike n fuel) (hvs : List.Forall₂ (Value.Alike n) vs vs')

include hi hvs

lemma constructOwn_simulates (ho : o.Alike n o') (hc : c.Alike n c') :
    Simulates n Eq (constructOwn (invoke fuel) o vs line c) (constructOwn (invoke fuel) o' vs' line' c') := by
  unfold constructOwn
  obtain ⟨hm, hm'⟩ | ⟨h, h', hm, hm', hh⟩ := rel_iff.1 (hc.own.methods.get? Class.constructorName)
  · rw [hm, hm']
    exact .pure rfl
  · rw [hm, hm']
    exact (checkArity_simulates hh.decl.arity hvs.length_eq).bind fun _ _ _ =>
      (bindMethod_simulates hh hc ho).bind fun g g' hg =>
        (hi g g' vs vs' hg hvs).bind fun _ _ _ => .pure rfl

lemma construct_simulates (ho : o.Alike n o') {cs cs' : List Class}
    (hcs : List.Forall₂ (Class.Alike n) cs cs') :
    Simulates n Eq (construct (invoke fuel) o vs line cs) (construct (invoke fuel) o' vs' line' cs') := by
  induction hcs with
  | nil => exact .pure rfl
  | cons hc _ ih => exact (constructOwn_simulates hi hvs ho hc).bind fun _ _ _ => ih

lemma apply_simulates (hv : v.Alike n v') :
    Simulates n (Value.Alike n) (apply (invoke fuel) v vs line) (apply (invoke fuel) v' vs' line') := by
  cases hv with
  | closure hf =>
    exact (checkArity_simulates hf.decl.arity hvs.length_eq).bind fun _ _ _ => hi _ _ vs vs' hf hvs
  | ofClass hc =>
    exact (checkArity_simulates hc.arity hvs.length_eq).bind fun _ _ _ =>
      (newObject_simulates hc).bind fun o o' ho =>
        (construct_simulates hi hvs ho (List.rel_reverse hc.lineage)).bind fun _ _ _ => .pure (.object ho)
  | _ => exact fail_simulates

end Calls

lemma relabelList_alike : ∀ {ds : List (FunctionDecl (Stmt OccurrenceId))},
    Below n (FunctionDecl.occurrencesList ds) →
      List.Forall₂ (FunctionDecl.Alike n) ds (FunctionDecl.relabelList f id ds)
  | [], _ => .nil
  | _ :: _, hb => .cons ⟨⟨f, rfl⟩, (below_append.1 hb).1⟩ (relabelList_alike (below_append.1 hb).2)

lemma declareClass_simulates {name : Ident} {parent : Option (Occurrence OccurrenceId)}
    {methods statics : List (FunctionDecl (Stmt OccurrenceId))} (hp : Below n parent.toList)
    (hm : Below n (FunctionDecl.occurrencesList methods)) (hs : Below n (FunctionDecl.occurrencesList statics)) :
    Simulates n Eq (declareClass name parent methods statics)
      (declareClass (name.relabel f) (parent.map fun use => use.relabel f id)
        (FunctionDecl.relabelList f id methods) (FunctionDecl.relabelList f id statics)) := by
  have hparent : Simulates n (Option.Rel (Class.Alike n)) (superclass name parent)
      (superclass (name.relabel f) (parent.map fun use => use.relabel f id)) := by
    cases parent with
    | none => exact .pure .none
    | some use =>
      refine (lookUp_simulates ⟨f, rfl⟩ (hp use (List.mem_singleton.2 rfl))).bind fun v v' hv => ?_
      cases hv with
      | ofClass hc => exact .pure (.some hc)
      | _ => exact fail_simulates
  refine hparent.bind fun c c' hc => ?_
  refine (define_simulates f .null).bind fun _ _ _ => newStamp_simulates.bind fun _ _ hstamp => ?_
  refine (newClosures_simulates (relabelList_alike hm)).bind fun ms ms' hms => ?_
  refine (newClosures_simulates (relabelList_alike hs)).bind fun ss ss' hss => ?_
  refine .get_bind fun m m' hmm => change_endAlike hmm ?_
  rw [hmm.current]
  exact assignAt_agree hmm.frames (.ofClass (extending_alike hc ⟨hstamp, rfl, hms, hss⟩))

/-! ### The induction -/

lemma evaluateAll_simulates (he : EvaluatesAlike n fuel) : ∀ es : List (Expr OccurrenceId),
    Below n (Expr.occurrencesList es) → Simulates n (List.Forall₂ (Value.Alike n)) (es.mapM (evaluate fuel))
      ((Expr.relabelList f id es).mapM (evaluate fuel))
  | [], _ => by
    rw [Expr.relabelList, List.mapM_nil]
    exact .pure .nil
  | e :: es, hb => by
    obtain ⟨hbe, hbes⟩ := below_append.1 hb
    rw [Expr.relabelList, List.mapM_cons, List.mapM_cons]
    exact (he f e hbe).bind fun _ _ hv => (evaluateAll_simulates he es hbes).bind fun _ _ hvs =>
      .pure (.cons hv hvs)

lemma evaluatesAlike_succ (he : EvaluatesAlike n fuel) (hi : InvokesAlike n fuel) :
    EvaluatesAlike n (fuel + 1) := by
  intro f e hb
  rw [evaluate.eq_def, evaluate.eq_def]
  cases e with
  | literal l => exact .pure (Value.alike_eq ▸ literal_related l)
  | name kind use => exact lookUp_simulates ⟨f, rfl⟩ (hb use (List.mem_singleton.2 rfl))
  | assign target e =>
    obtain ⟨hbe, hbt⟩ := below_append.1 hb
    exact (he f e hbe).bind fun _ _ hv =>
      (assign_simulates ⟨f, rfl⟩ (hbt target (List.mem_singleton.2 rfl)) hv).bind fun _ _ _ => .pure hv
  | unary op line e => exact (he f e hb).bind fun _ _ hv => ofTypes_simulates (hv.unary op)
  | binary op line e e' =>
    obtain ⟨hbe, hbe'⟩ := below_append.1 hb
    exact (he f e hbe).bind fun _ _ hv => (he f e' hbe').bind fun _ _ hw => ofTypes_simulates (hv.binary op hw)
  | logical op line e e' =>
    obtain ⟨hbe, hbe'⟩ := below_append.1 hb
    refine (he f e hbe).bind fun v v' hv => ?_
    rw [hv.decidedBy op]
    split
    · exact .pure hv
    · exact he f e' hbe'
  | group e => exact he f e hb
  | call line e es =>
    obtain ⟨hbe, hbes⟩ := below_append.1 hb
    exact (he f e hbe).bind fun _ _ hv => (evaluateAll_simulates he es hbes).bind fun _ _ hvs =>
      apply_simulates hi hvs hv
  | get e name => exact (he f e hb).bind fun _ _ hv => property_simulates hv rfl
  | superGet keyword name =>
    exact superProperty_simulates ⟨f, rfl⟩ (hb keyword (List.mem_singleton.2 rfl)) rfl
  | set e name e' =>
    obtain ⟨hbe, hbe'⟩ := below_append.1 hb
    refine (he f e hbe).bind fun v v' hv => ?_
    cases hv with
    | object ho =>
      exact (he f e' hbe').bind fun _ _ hw => (setProperty_simulates ho.id rfl hw).bind fun _ _ _ => .pure hw
    | _ => exact fail_simulates

lemma executesAlike_succ (he : EvaluatesAlike n fuel) (hx : ExecutesAlike n fuel) :
    ExecutesAlike n (fuel + 1) := by
  intro f s hb
  rw [execute.eq_def, execute.eq_def]
  cases s with
  | expr e => exact (he f e hb).bind fun _ _ _ => .pure .normal
  | print e =>
    refine (he f e hb).bind fun v v' hv => ?_
    rw [hv.text]
    exact printLine_simulates.bind fun _ _ _ => .pure .normal
  | letVar name e =>
    cases e with
    | none => exact (define_simulates f .null).bind fun _ _ _ => .pure .normal
    | some e => exact (he f e hb).bind fun _ _ hv => (define_simulates f hv).bind fun _ _ _ => .pure .normal
  | constVar name e =>
    exact (he f e hb).bind fun _ _ hv => (define_simulates f hv).bind fun _ _ _ => .pure .normal
  | block body =>
    refine .get_bind fun m m' hm => ?_
    rw [hm.current]
    exact ((newFrame_simulates (empty_alike _)).bind fun i i' hi => hi ▸
      (sequence_simulates hx body hb).inFrame) m m' hm
  | ifThen e s =>
    obtain ⟨hbe, hbs⟩ := below_append.1 hb
    refine (he f e hbe).bind fun v v' hv => ?_
    rw [hv.isTruthy]
    split
    · exact hx f s hbs
    · exact .pure .normal
  | ifElse e s s' =>
    obtain ⟨hb, hbs'⟩ := below_append.1 hb
    obtain ⟨hbe, hbs⟩ := below_append.1 hb
    refine (he f e hbe).bind fun v v' hv => ?_
    rw [hv.isTruthy]
    split
    · exact hx f s hbs
    · exact hx f s' hbs'
  | «while» e s =>
    obtain ⟨hbe, hbs⟩ := below_append.1 hb
    exact repeatWhile_simulates (he f e hbe) (hx f s hbs) fuel
  | function d =>
    obtain ⟨name, ps, body⟩ := d
    exact (newClosure_simulates ⟨⟨f, rfl⟩, hb⟩).bind fun _ _ hh =>
      (define_simulates f (.closure hh)).bind fun _ _ _ => .pure .normal
  | «return» line e =>
    cases e with
    | none => exact .pure (.returned .null)
    | some e => exact (he f e hb).bind fun _ _ hv => .pure (.returned hv)
  | classDecl name parent methods statics =>
    obtain ⟨hb, hbs⟩ := below_append.1 hb
    obtain ⟨hbp, hbm⟩ := below_append.1 hb
    exact (declareClass_simulates hbp hbm hbs).bind fun _ _ _ => .pure .normal

lemma invokesAlike_succ (hx : ExecutesAlike n fuel) : InvokesAlike n (fuel + 1) := by
  rintro ⟨stamp, d, frame⟩ ⟨stamp', d', frame'⟩ vs vs' hh hvs
  obtain ⟨f, hd⟩ := hh.decl.lines
  obtain rfl : d' = _ := hd
  obtain rfl : frame = frame' := hh.frame
  have hb := hh.decl.below
  obtain ⟨name, ps, body⟩ := d
  rw [invoke, invoke]
  refine (newFrame_simulates (empty_alike _)).bind fun i i' hi => ?_
  subst hi
  refine (bindParams_simulates ps hvs).bind fun _ _ _ => ?_
  refine (sequence_simulates hx body hb).inFrame.bind fun flow flow' hflow => ?_
  cases hflow with
  | normal => exact .pure .null
  | returned hv => exact .pure hv

/-- **Running looks at no line**, with any fuel, in expressions, statements and calls. -/
theorem runs_alike (n : OccurrenceId) (fuel : Nat) :
    EvaluatesAlike n fuel ∧ ExecutesAlike n fuel ∧ InvokesAlike n fuel := by
  induction fuel with
  | zero =>
    refine ⟨fun f e _ => ?_, fun f s _ => ?_, fun h h' vs vs' _ _ => ?_⟩
    · rw [evaluate, evaluate]
      exact .throw
    · rw [execute, execute]
      exact .throw
    · rw [invoke, invoke]
      exact .throw
  | succ fuel ih =>
    obtain ⟨he, hx, hi⟩ := ih
    exact ⟨evaluatesAlike_succ he hi, executesAlike_succ he hx, invokesAlike_succ hx⟩

/-! ### Programs -/

/-- **Runs of a program on other lines are alike**: both reach the end, or neither does. -/
theorem runProgram_alike (fuel : Nat) (f : Nat → Nat) : ∀ {program : Program OccurrenceId} {m m' : Machine},
    Below n (Stmt.occurrencesList program) → m.Alike n m' →
      Together n m m' (runProgram fuel program m).2
          (runProgram fuel (Stmt.relabelList f id program) m').2 ∧
        ((runProgram fuel program m).1 = .completed →
          (runProgram fuel (Stmt.relabelList f id program) m').1 = .completed ∧
            Wrote m (runProgram fuel program m).2)
  | [], m, _, _, hm => ⟨.refl hm, fun _ => ⟨rfl, .of_sink rfl⟩⟩
  | s :: ss, m, m', hb, hm => by
    obtain ⟨hs, hss⟩ := below_append.1 hb
    rw [Stmt.relabelList, runProgram, runProgram]
    obtain ⟨flow, flow', m1, m1', hx, hx', -, ht, hw⟩ | ⟨e, e', m1, m1', hx, hx', ht⟩ :=
      ((runs_alike n fuel).2.1 f s hs m m' hm).inv
    · rw [hx, hx']
      obtain ⟨ht', hrest⟩ := runProgram_alike fuel f hss ht.alike
      exact ⟨ht.trans ht', fun h => ⟨(hrest h).1, hw.trans (hrest h).2⟩⟩
    · rw [hx, hx']
      cases e <;> cases e' <;> exact ⟨ht, fun h => nomatch h⟩

/-- Behind statements that run to their end, the others run. -/
lemma runProgram_append {program : Program OccurrenceId} (program' : Program OccurrenceId)
    (h : (runProgram fuel program m).1 = .completed) :
    runProgram fuel (program ++ program') m = runProgram fuel program' (runProgram fuel program m).2 := by
  induction program generalizing m with
  | nil => rfl
  | cons s ss ih =>
    rw [List.cons_append, runProgram, runProgram]
    rw [runProgram] at h
    rcases hx : execute fuel s m with ⟨flow, m1⟩ | ⟨e | _, m1⟩
    · rw [hx] at h
      exact ih h
    · rw [hx] at h
      cases h
    · rw [hx] at h
      cases h

end ScriptLang
