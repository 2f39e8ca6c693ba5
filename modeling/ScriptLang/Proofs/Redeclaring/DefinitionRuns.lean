import ScriptLang.Proofs.Redeclaring.DefinitionSteps

/-!
# Runs whose definitions are foreseen

Every definition that a run tries has a known site, and its frame has the names in front of it.  Frames are made
anew for every block, every round of a loop and every call, and a frame gets the names of its scope in their order:
so scopes and frames have the same names at every declaration.

* `EvaluatesForeseen`, `ExecutesForeseen`, `InvokesForeseen` — the statement for expressions, statements and calls;
* `runs_foreseen` — the induction on the fuel that proves all three;
* `runProgram_foreseen` — whole programs.
-/

namespace ScriptLang

open Eval
open Observer (definitions)

variable {S : List Site} {m m' : Machine} {front : Front} {fuel line : Nat} {v : Value}

/-- A value that is returned is made of known code. -/
def Flow.MadeOf (P : FunctionDecl (Stmt OccurrenceId) → Prop) (flow : Flow) : Prop :=
  ∀ v, flow = .returned v → v.MadeOf P

lemma normal_madeOf {P : FunctionDecl (Stmt OccurrenceId) → Prop} : Flow.MadeOf P .normal := by
  rintro v ⟨⟩

lemma returned_madeOf {P : FunctionDecl (Stmt OccurrenceId) → Prop} (hv : v.MadeOf P) :
    Flow.MadeOf P (.returned v) := by
  rintro w ⟨⟩
  exact hv

/-- With this fuel, the definitions of expressions are foreseen. -/
def EvaluatesForeseen (S : List Site) (fuel : Nat) : Prop :=
  ∀ (e : Expr OccurrenceId) (m : Machine), m.MadeOf (Sited S) →
    Foresees S (evaluateD fuel e) m fun v _ => v.MadeOf (Sited S)

/-- With this fuel, the definitions of statements are foreseen, where the current frame has the names in front. -/
def ExecutesForeseen (S : List Site) (fuel : Nat) : Prop :=
  ∀ (front : Front) (s : Stmt OccurrenceId) (m : Machine), s.Regular → s.sites front ⊆ S → m.MadeOf (Sited S) →
    Stands front m.frames m.current → Foresees S (executeD fuel front s) m fun flow _ => flow.MadeOf (Sited S)

/-- With this fuel, the definitions of calls are foreseen. -/
def InvokesForeseen (S : List Site) (fuel : Nat) : Prop :=
  ∀ (f : Closure) (args : List Value) (m : Machine), Sited S f.decl → (∀ v ∈ args, v.MadeOf (Sited S)) →
    args.length = f.arity → m.MadeOf (Sited S) → Foresees S (invokeD fuel f args) m fun v _ => v.MadeOf (Sited S)

/-! ### Where statements stand -/

lemma stands_of_evaluateD {e : Expr OccurrenceId} (hrun : (evaluateD fuel e).run m = .ok v m')
    (hm : Stands front m.frames m.current) : Stands front m'.frames m'.current := by
  rw [(definitions.erased fuel).1 e] at hrun
  have h := evaluate_undisturbed hm.1 fuel e
  rw [hrun] at h
  exact h.stands hm

lemma stands_of_superclass {name : Ident} {parent : Option (Occurrence OccurrenceId)} {c : Option Class}
    (hrun : superclass name parent m = .ok c m') (hm : Stands front m.frames m.current) :
    Stands front m'.frames m'.current := by
  have h : Undisturbed m (endState (superclass name parent m)) := superclass_undisturbed hm.1 parent
  rw [hrun] at h
  exact h.stands hm

lemma stands_of_executeD {s : Stmt OccurrenceId} {flow : Flow} (hs : s.Regular)
    (hrun : (executeD fuel front s).run m = .ok flow m') (hm : Stands front m.frames m.current) :
    Stands (front.after s.scopeNames) m'.frames m'.current := by
  rw [Observer.execute_run] at hrun
  have h := execute_stands fuel hs hm
  rw [hrun] at h
  exact h

lemma sited_of_mem : ∀ {ds : List (FunctionDecl (Stmt OccurrenceId))}, FunctionDecl.RegularList ds →
    FunctionDecl.sitesList ds ⊆ S → ∀ d ∈ ds, Sited S d
  | [], _, _ => List.forall_mem_nil _
  | _ :: _, ⟨hd, hds⟩, hsites => by
    obtain ⟨hsite, hsites⟩ := List.append_subset.1 hsites
    exact List.forall_mem_cons.2 ⟨⟨hd, hsite⟩, sited_of_mem hds hsites⟩

/-! ### Parts of runs -/

/-- A declaration that ends with the definition of its name. -/
lemma declares_foresees {name : Ident} {constant : Bool} (hsites : front.sites name ⊆ S) (hm : m.MadeOf (Sited S))
    (hstands : Stands front m.frames m.current) (hv : v.MadeOf (Sited S)) :
    Foresees S (do definitions.define front name v constant; return Flow.normal) m fun flow _ => flow.MadeOf (Sited S) :=
  (define_foresees hm hstands hsites hv).bind fun _ _ _ hm1 _ => .pure hm1 normal_madeOf

lemma sequence_foresees (hx : ExecutesForeseen S fuel) : ∀ (ss : List (Stmt OccurrenceId)) {front : Front}
    {m : Machine}, Stmt.RegularList ss → Stmt.sitesList front ss ⊆ S → m.MadeOf (Sited S) →
      Stands front m.frames m.current →
      Foresees S (definitions.sequence (definitions.execute fuel) front ss) m fun flow _ => flow.MadeOf (Sited S)
  | [], front, m, _, _, hm, _ => .pure hm normal_madeOf
  | s :: ss, front, m, ⟨hs, hss⟩, hsites, hm, hstands => by
    obtain ⟨hsite, hsites⟩ := List.append_subset.1 hsites
    rw [Observer.sequence]
    refine (hx front s m hs hsite hm hstands).bind fun flow m' hrun hm' hflow => ?_
    cases flow with
    | normal => exact sequence_foresees hx ss hss hsites hm' (stands_of_executeD hs hrun hstands)
    | returned v => exact .pure hm' hflow

/-- The statements of a body, in a frame that has the names in front of them. -/
lemma body_foresees (hx : ExecutesForeseen S fuel) {i : FrameId} {ss : List (Stmt OccurrenceId)}
    (hs : Stmt.RegularList ss) (hsites : Stmt.sitesList front ss ⊆ S) (hm : m.MadeOf (Sited S))
    (hstands : Stands front m.frames i) :
    Foresees S (inFrameT i (definitions.sequence (definitions.execute fuel) front ss)) m
      fun flow _ => flow.MadeOf (Sited S) :=
  .inFrame (sequence_foresees hx ss hs hsites ⟨hm.size, hm.frames, hm.objects⟩ hstands)

/-- Every round of a loop begins where the first one began. -/
lemma repeatWhile_foresees {test : Defining Value} {body : Defining Flow}
    (htest : ∀ m : Machine, m.MadeOf (Sited S) → Stands front m.frames m.current →
      Foresees S test m fun _ m' => Stands front m'.frames m'.current)
    (hbody : ∀ m : Machine, m.MadeOf (Sited S) → Stands front m.frames m.current →
      Foresees S body m fun flow m' => flow.MadeOf (Sited S) ∧ Stands front m'.frames m'.current)
    (n : Nat) (hm : m.MadeOf (Sited S)) (hstands : Stands front m.frames m.current) :
    Foresees S (repeatWhileT test body n) m fun flow _ => flow.MadeOf (Sited S) := by
  induction n generalizing m with
  | zero => exact .outOfFuel hm
  | succ n ih =>
    rw [repeatWhileT]
    refine (htest m hm hstands).bind fun v m1 _ hm1 hstands1 => ?_
    split
    · refine (hbody m1 hm1 hstands1).bind fun flow m2 _ hm2 hflow => ?_
      cases flow with
      | normal => exact ih hm2 hflow.2
      | returned v => exact .pure hm2 hflow.1
    · exact .pure hm1 normal_madeOf

section Calls

variable {o : Object} {args : List Value} (hi : InvokesForeseen S fuel) (hargs : ∀ v ∈ args, v.MadeOf (Sited S))

include hi hargs

lemma constructOwn_foresees {c : Class} (hm : m.MadeOf (Sited S)) (hc : c.MadeOf (Sited S))
    (ho : o.cls.MadeOf (Sited S)) :
    Foresees S (definitions.constructOwn (invokeD fuel) o args line c) m fun _ _ => True := by
  unfold Observer.constructOwn
  split
  · exact .pure hm trivial
  · next f hf =>
    have hdecl : Sited S f.decl := (hc c (mem_lineage_self c)).methods _ f hf
    refine (checkArity_foresees hm).bind fun _ m1 _ hm1 harity => ?_
    refine (bindMethod_foresees hm1 hc ho).bind fun g m2 _ hm2 hg => ?_
    refine (hi g args m2 (hg.symm ▸ hdecl) hargs ?_ hm2).bind fun _ m3 _ hm3 _ => .pure hm3 trivial
    rw [harity, Closure.arity, Closure.arity, hg]

lemma construct_foresees {cs : List Class} (hm : m.MadeOf (Sited S)) (hcs : ∀ c ∈ cs, c.MadeOf (Sited S))
    (ho : o.cls.MadeOf (Sited S)) :
    Foresees S (definitions.construct (invokeD fuel) o args line cs) m fun _ _ => True := by
  induction cs generalizing m with
  | nil => exact .pure hm trivial
  | cons c cs ih =>
    obtain ⟨hc, hcs⟩ := List.forall_mem_cons.1 hcs
    rw [Observer.construct]
    exact (constructOwn_foresees hi hargs hm hc ho).bind fun _ m1 _ hm1 _ => ih hm1 hcs

lemma apply_foresees {callee : Value} (hm : m.MadeOf (Sited S)) (hcallee : callee.MadeOf (Sited S)) :
    Foresees S (definitions.apply (invokeD fuel) callee args line) m fun v _ => v.MadeOf (Sited S) := by
  unfold Observer.apply
  cases callee with
  | closure f =>
    refine (checkArity_foresees hm).bind fun _ m1 _ hm1 harity => ?_
    exact (hi f args m1 hcallee hargs harity hm1).bind fun v m2 _ hm2 hv => .pure hm2 hv
  | ofClass c =>
    refine (checkArity_foresees hm).bind fun _ m1 _ hm1 _ => ?_
    refine (newObject_foresees hm1).bind fun o m2 _ hm2 ho => ?_
    have ho : o.cls.MadeOf (Sited S) := ho.symm ▸ hcallee
    refine (construct_foresees hi hargs hm2 (fun d hd => ?_) ho).bind fun _ m3 _ hm3 _ => .pure hm3 ho
    exact Class.MadeOf.of_mem hcallee (List.mem_reverse.1 hd)
  | _ => exact .fail hm nofun

end Calls

/-! ### The induction -/

lemma evaluatesForeseen_succ (he : EvaluatesForeseen S fuel) (hi : InvokesForeseen S fuel) :
    EvaluatesForeseen S (fuel + 1) := by
  intro e m hm
  rw [evaluateD, Observer.evaluate.eq_def]
  cases e with
  | literal value => exact .pure hm (literal_primitive value).madeOf
  | name kind use => exact lookUpAs_foresees hm
  | assign target value =>
    refine (he value m hm).bind fun v m1 _ hm1 hv => ?_
    exact (assign_foresees hm1 hv).bind fun _ m2 _ hm2 _ => .pure hm2 hv
  | unary op line operand =>
    exact (he operand m hm).bind fun v m1 _ hm1 _ => ofTypes_foresees hm1 fun w hw => (unary_primitive hw).madeOf
  | binary op line left right =>
    refine (he left m hm).bind fun v m1 _ hm1 _ => ?_
    exact (he right m1 hm1).bind fun w m2 _ hm2 _ => ofTypes_foresees hm2 fun u hu => (binary_primitive hu).madeOf
  | logical op line left right =>
    refine (he left m hm).bind fun v m1 _ hm1 hv => ?_
    split
    · exact .pure hm1 hv
    · exact he right m1 hm1
  | group inner => exact he inner m hm
  | call line callee args =>
    refine (he callee m hm).bind fun f m1 _ hm1 hf => ?_
    refine (Foresees.mapM hm1 fun e _ m' hm' => he e m' hm').bind fun vs m2 _ hm2 hvs => ?_
    exact apply_foresees hi hvs hm2 hf
  | get object name => exact (he object m hm).bind fun v m1 _ hm1 hv => property_foresees hm1 hv
  | superGet keyword name => exact superProperty_foresees hm
  | set object name value =>
    refine (he object m hm).bind fun v m1 _ hm1 _ => ?_
    cases v with
    | object o =>
      refine (he value m1 hm1).bind fun w m2 _ hm2 hw => ?_
      exact (setProperty_foresees hm2 hw).bind fun _ m3 _ hm3 _ => .pure hm3 hw
    | _ => exact .fail hm1 (by simp)

lemma executesForeseen_succ (he : EvaluatesForeseen S fuel) (hx : ExecutesForeseen S fuel) :
    ExecutesForeseen S (fuel + 1) := by
  intro front s m hs hsites hm hstands
  rw [executeD, Observer.execute.eq_def]
  cases s with
  | expr e => exact (he e m hm).bind fun v m1 _ hm1 _ => .pure hm1 normal_madeOf
  | print e =>
    refine (he e m hm).bind fun v m1 _ hm1 _ => ?_
    exact (printLine_foresees hm1).bind fun _ m2 _ hm2 _ => .pure hm2 normal_madeOf
  | letVar name value =>
    cases value with
    | none => exact declares_foresees hsites hm hstands trivial
    | some value =>
      refine (he value m hm).bind fun v m1 hrun hm1 hv => ?_
      exact declares_foresees hsites hm1 (stands_of_evaluateD hrun hstands) hv
  | constVar name value =>
    refine (he value m hm).bind fun v m1 hrun hm1 hv => ?_
    exact declares_foresees hsites hm1 (stands_of_evaluateD hrun hstands) hv
  | block body =>
    refine Foresees.bind (Q := fun n m1 => n = m ∧ m1 = m) (.step rfl hm ⟨rfl, rfl⟩) ?_
    rintro n m1 - - ⟨rfl, rfl⟩
    refine (newFrame_foresees hm empty_madeOf).bind fun i m2 _ hm2 hi => ?_
    obtain ⟨rfl, hframes⟩ := hi
    exact body_foresees hx hs hsites hm2 (hframes ▸ stands_add hm.size _)
  | ifThen c yes =>
    obtain ⟨-, -, hyes⟩ := hs
    refine (he c m hm).bind fun v m1 hrun hm1 _ => ?_
    split
    · exact hx front yes m1 hyes hsites hm1 (stands_of_evaluateD hrun hstands)
    · exact .pure hm1 normal_madeOf
  | ifElse c yes no =>
    obtain ⟨-, ⟨hbranch, hyes⟩, -, hno⟩ := hs
    obtain ⟨hsites, hsites'⟩ := List.append_subset.1 hsites
    refine (he c m hm).bind fun v m1 hrun hm1 _ => ?_
    have hstands1 := stands_of_evaluateD hrun hstands
    split
    · exact hx front yes m1 hyes hsites hm1 hstands1
    · refine hx (front.after yes.scopeNames) no m1 hno hsites' hm1 ?_
      rw [(hyes.declares_nothing hbranch).2, Front.after_nil]
      exact hstands1
  | «while» c body =>
    obtain ⟨-, hbranch, hbody⟩ := hs
    refine repeatWhile_foresees (fun m hm hstands => ?_) (fun m hm hstands => ?_) fuel hm hstands
    · exact (he c m hm).mono fun v m1 hrun _ => stands_of_evaluateD hrun hstands
    · refine (hx front body m hbody hsites hm hstands).mono fun flow m1 hrun hflow => ⟨hflow, ?_⟩
      have hafter := stands_of_executeD hbody hrun hstands
      rwa [(hbody.declares_nothing hbranch).2, Front.after_nil] at hafter
  | function decl =>
    obtain ⟨hsite, hsites⟩ := List.append_subset.1 hsites
    refine (newClosure_foresees hm).bind fun f m1 hrun hm1 hf => ?_
    cases hrun
    exact declares_foresees hsite hm1 hstands ⟨hs, hsites⟩
  | «return» line value =>
    cases value with
    | none => exact .pure hm (returned_madeOf trivial)
    | some value => exact (he value m hm).bind fun v m1 _ hm1 hv => .pure hm1 (returned_madeOf hv)
  | classDecl name parent methods statics =>
    obtain ⟨-, hmethods, hstatics⟩ := hs
    obtain ⟨hsite, hsites⟩ := List.append_subset.1 hsites
    obtain ⟨hsites, hsites'⟩ := List.append_subset.1 hsites
    refine Foresees.bind (Q := fun _ _ => True) ?_ fun _ m3 _ hm3 _ => .pure hm3 normal_madeOf
    unfold Observer.declareClass
    refine (superclass_foresees hm).bind fun c m1 hrun hm1 hc => ?_
    rw [definitions.superclass_run] at hrun
    have hstands1 := stands_of_superclass hrun hstands
    refine (define_foresees (v := .null) hm1 hstands1 hsite trivial).bind fun _ m2 _ hm2 _ => ?_
    exact finishClass_foresees hm2 hc (sited_of_mem hmethods hsites) (sited_of_mem hstatics hsites')

lemma invokesForeseen_succ (hx : ExecutesForeseen S fuel) : InvokesForeseen S (fuel + 1) := by
  rintro ⟨stamp, ⟨name, ps, body⟩, frame⟩ args m ⟨⟨-, -, hbody⟩, hsites⟩ hargs hlength hm
  obtain ⟨hparams, hsites⟩ := List.append_subset.1 hsites
  rw [invokeD, Observer.invoke]
  refine (newFrame_foresees hm empty_madeOf).bind fun i m1 _ hm1 hi => ?_
  obtain ⟨rfl, hframes⟩ := hi
  have hstands : Stands (some []) m1.frames m.frames.size := hframes ▸ stands_add hm.size _
  refine (bindParams_foresees hlength.symm hargs hparams hm1 hstands).bind fun _ m2 _ hm2 hstands2 => ?_
  refine (body_foresees hx hbody hsites hm2 hstands2).bind fun flow m3 _ hm3 hflow => ?_
  cases flow with
  | normal => exact .pure hm3 trivial
  | returned v => exact .pure hm3 (hflow v rfl)

/-- **The definitions of everything that runs are foreseen**, with any fuel. -/
theorem runs_foreseen (S : List Site) (fuel : Nat) :
    EvaluatesForeseen S fuel ∧ ExecutesForeseen S fuel ∧ InvokesForeseen S fuel := by
  induction fuel with
  | zero =>
    refine ⟨fun e m hm => ?_, fun front s m _ _ hm _ => ?_, fun f args m _ _ _ hm => ?_⟩
    · rw [evaluateD, Observer.evaluate]
      exact .outOfFuel hm
    · rw [executeD, Observer.execute]
      exact .outOfFuel hm
    · rw [invokeD, Observer.invoke]
      exact .outOfFuel hm
  | succ fuel ih =>
    obtain ⟨he, hx, hi⟩ := ih
    exact ⟨evaluatesForeseen_succ he hi, executesForeseen_succ he hx, invokesForeseen_succ hx⟩

/-! ### Programs -/

/-- **The definitions of a run of a program are foreseen**, and if the run fails with a name declared already, it is
one of them that fails. -/
theorem runProgram_foreseen (fuel : Nat) : ∀ {program : Program OccurrenceId} {m : Machine},
    Stmt.RegularList program → Stmt.sitesList none program ⊆ S → m.MadeOf (Sited S) →
    Stands none m.frames m.current →
      (∀ p ∈ runDefinitions fuel program m, p.1.Foreseen S p.2) ∧ (runProgram fuel program m).2.MadeOf (Sited S) ∧
        ∀ e s, (runProgram fuel program m).1 = .failed ⟨e, s⟩ → ∀ name, Stop.Redeclares name (.error e) →
          ∃ p ∈ runDefinitions fuel program m, p.1.name = name ∧ p.1.Fails p.2
  | [], m, _, _, hm, _ => ⟨List.forall_mem_nil _, hm, fun _ _ h => nomatch h⟩
  | s :: ss, m, ⟨hs, hss⟩, hsites, hm, hstands => by
    obtain ⟨hsite, hsites⟩ := List.append_subset.1 hsites
    have hfirst := (runs_foreseen S fuel).2.1 none s m hs hsite hm hstands
    rw [runDefinitions, Observer.moments, runProgram, ← Observer.definitions.execute_run fuel none s]
    rcases hrun : (executeD fuel none s).run m with ⟨flow, m1⟩ | ⟨stop, m1⟩
    · obtain ⟨hrest, hmade, hfails⟩ := runProgram_foreseen fuel hss hsites (hfirst.ok flow m1 hrun).1
        (stands_of_executeD hs hrun hstands)
      refine ⟨List.forall_mem_append.2 ⟨hfirst.marks, hrest⟩, hmade, fun e t he name hname => ?_⟩
      obtain ⟨p, hp, hpname⟩ := hfails e t he name hname
      exact ⟨p, List.mem_append_right _ hp, hpname⟩
    · obtain ⟨hm1, hfails⟩ := hfirst.error stop m1 hrun
      refine ⟨List.forall_mem_append.2 ⟨hfirst.marks, List.forall_mem_nil _⟩, ?_, ?_⟩
      · cases stop <;> exact hm1
      · intro e t he name hname
        cases stop with
        | outOfFuel => cases he
        | error e' =>
          cases he
          obtain ⟨p, hp, hpname⟩ := hfails name hname
          exact ⟨p, List.mem_append_left _ hp, hpname⟩

end ScriptLang
