import ScriptLang.Proofs.Renumbering.RenumberedSteps

/-!
# Running with other numbers

Code with other numbers, run with the same fuel in the renumbered machine, does what the code does otherwise: the
outcome is the same but for the numbers.

* `Flow.renumber`, `RunResult.renumber` — ends of statements and of programs, with other numbers;
* `EvaluatesRenumbered`, `ExecutesRenumbered`, `InvokesRenumbered` — the statement for expressions, statements
  and calls;
* `runs_renumbered` — the induction on the fuel that proves all three;
* `runProgram_renumber` — whole programs.
-/

namespace ScriptLang

open Eval

/-- The same effect on the statements behind, with other numbers. -/
def Flow.renumber (g : OccurrenceId → OccurrenceId) : Flow → Flow
  | .normal => .normal
  | .returned v => .returned (v.renumber g)

/-- With this fuel, expressions with other numbers are evaluated as they are otherwise. -/
def EvaluatesRenumbered (ρ : Renumbering) (fuel : Nat) : Prop :=
  ∀ e, Commutes ρ (Value.renumber ρ.number) (evaluate fuel e) (evaluate fuel (e.relabel id ρ.number))

/-- With this fuel, statements with other numbers are executed as they are otherwise. -/
def ExecutesRenumbered (ρ : Renumbering) (fuel : Nat) : Prop :=
  ∀ s, Commutes ρ (Flow.renumber ρ.number) (execute fuel s) (execute fuel (s.relabel id ρ.number))

/-- With this fuel, calls of functions with other numbers run as they do otherwise. -/
def InvokesRenumbered (ρ : Renumbering) (fuel : Nat) : Prop :=
  ∀ f vs, Commutes ρ (Value.renumber ρ.number) (invoke fuel f vs)
    (invoke fuel (f.renumber ρ.number) (vs.map (Value.renumber ρ.number)))

variable {ρ : Renumbering} {fuel line : Nat} {vs : List Value} {c : Class} {o : Object} {v : Value}

/-! ### Parts of runs -/

lemma sequence_commutes (hx : ExecutesRenumbered ρ fuel) (ss : List (Stmt OccurrenceId)) :
    Commutes ρ (Flow.renumber ρ.number) (sequence (execute fuel) ss)
      (sequence (execute fuel) (Stmt.relabelList id ρ.number ss)) := by
  induction ss with
  | nil => exact .pure rfl
  | cons s ss ih =>
    refine (hx s).bind fun flow => ?_
    cases flow with
    | normal => exact ih
    | returned v => exact .pure rfl

lemma repeatWhile_commutes {test test' : Eval Value} {body body' : Eval Flow}
    (ht : Commutes ρ (Value.renumber ρ.number) test test')
    (hb : Commutes ρ (Flow.renumber ρ.number) body body') :
    ∀ fuel, Commutes ρ (Flow.renumber ρ.number) (repeatWhile test body fuel) (repeatWhile test' body' fuel)
  | 0 => .throw
  | fuel + 1 => by
    refine ht.bind fun v => ?_
    rw [Value.isTruthy_renumber]
    split
    · refine hb.bind fun flow => ?_
      cases flow with
      | normal => exact repeatWhile_commutes ht hb fuel
      | returned w => exact .pure rfl
    · exact .pure rfl

lemma bindParams_commutes {i : FrameId} : ∀ (ps : List Ident) (vs : List Value),
    Commutes ρ id (bindParams i ps vs) (bindParams i ps (vs.map (Value.renumber ρ.number)))
  | [], [] | [], _ :: _ | _ :: _, [] => .pure rfl
  | _ :: ps, _ :: vs =>
    Commutes.bind (fun _ hm => change_renumbered hm Frames.define_renumber) fun _ => bindParams_commutes ps vs

lemma checkArity_commutes {name : String} {expected got : Nat} :
    Commutes ρ id (checkArity name expected got line) (checkArity name expected got line) := by
  unfold checkArity
  split
  · exact .pure rfl
  · exact fail_commutes

section Calls

variable (hi : InvokesRenumbered ρ fuel)

include hi

lemma constructOwn_commutes : Commutes ρ id (constructOwn (invoke fuel) o vs line c)
    (constructOwn (invoke fuel) (o.renumber ρ.number) (vs.map (Value.renumber ρ.number)) line
      (c.renumber ρ.number)) := by
  have hown : (c.renumber ρ.number).own.methods.get? Class.constructorName =
      (c.own.methods.get? Class.constructorName).map (Closure.renumber ρ.number) := Table.get?_mapEntries
  unfold constructOwn
  rw [hown]
  cases c.own.methods.get? Class.constructorName with
  | none => exact .pure rfl
  | some f =>
    simp only [Option.map_some, Closure.arity_renumber, List.length_map]
    exact checkArity_commutes.bind fun _ => bindMethod_commutes.bind fun f' =>
      (hi f' vs).bind fun _ => .pure rfl

lemma construct_commutes : ∀ cs : List Class, Commutes ρ id (construct (invoke fuel) o vs line cs)
    (construct (invoke fuel) (o.renumber ρ.number) (vs.map (Value.renumber ρ.number)) line
      (cs.map (Class.renumber ρ.number)))
  | [] => .pure rfl
  | _ :: cs => (constructOwn_commutes hi).bind fun _ => construct_commutes cs

lemma instantiate_commutes : Commutes ρ (Value.renumber ρ.number) (instantiate (invoke fuel) c vs line)
    (instantiate (invoke fuel) (c.renumber ρ.number) (vs.map (Value.renumber ρ.number)) line) := by
  unfold instantiate
  rw [Class.lineage_renumber, ← List.map_reverse]
  exact (newObject_commutes c).bind fun o => (construct_commutes hi _).bind fun _ => .pure rfl

lemma apply_commutes : Commutes ρ (Value.renumber ρ.number) (apply (invoke fuel) v vs line)
    (apply (invoke fuel) (v.renumber ρ.number) (vs.map (Value.renumber ρ.number)) line) := by
  unfold Eval.apply
  cases v with
  | closure f =>
    simp only [Value.renumber, Closure.name_renumber, Closure.arity_renumber, List.length_map]
    exact checkArity_commutes.bind fun _ => hi f vs
  | ofClass c =>
    simp only [Value.renumber, Class.arity_renumber, List.length_map]
    exact checkArity_commutes.bind fun _ => instantiate_commutes hi
  | object o =>
    have htext : (Value.object (o.renumber ρ.number)).text = (Value.object o).text :=
      Value.text_renumber (v := .object o)
    simp only [Value.renumber, htext]
    exact fail_commutes
  | _ => exact fail_commutes

end Calls

lemma superclass_commutes (name : Ident) (parent : Option (Occurrence OccurrenceId)) :
    Commutes ρ (Option.map (Class.renumber ρ.number)) (superclass name parent)
      (superclass name (parent.map fun use => use.relabel id ρ.number)) := by
  cases parent with
  | none => exact .pure rfl
  | some use =>
    refine (lookUp_commutes use).bind fun v => ?_
    cases v with
    | ofClass c => exact .pure rfl
    | _ => exact fail_commutes

lemma declareClass_commutes (name : Ident) (parent : Option (Occurrence OccurrenceId))
    (methods statics : List (FunctionDecl (Stmt OccurrenceId))) :
    Commutes ρ id (declareClass name parent methods statics)
      (declareClass name (parent.map fun use => use.relabel id ρ.number)
        (FunctionDecl.relabelList id ρ.number methods) (FunctionDecl.relabelList id ρ.number statics)) := by
  refine (superclass_commutes name parent).bind fun c => ?_
  refine (define_commutes (v := .null)).bind fun _ => newStamp_commutes.bind fun stamp => ?_
  refine (newClosures_commutes methods).bind fun ms => (newClosures_commutes statics).bind fun ss => ?_
  refine .get_bind fun m hm => change_renumbered hm ?_
  let body : ClassBody := ⟨stamp, name.text, ms, ss⟩
  have hclass : Class.extending (c.map (Class.renumber ρ.number)) (body.renumber ρ.number) = _ :=
    extending_renumber c
  exact (congrArg (fun c => Frames.assignAt m.current 0 name.text (.ofClass c) _) hclass).trans
    (Frames.assignAt_renumber (v := .ofClass (.extending c body)))

/-! ### The induction -/

lemma evaluateAll_commutes (he : EvaluatesRenumbered ρ fuel) (es : List (Expr OccurrenceId)) :
    Commutes ρ (List.map (Value.renumber ρ.number)) (es.mapM (evaluate fuel))
      ((Expr.relabelList id ρ.number es).mapM (evaluate fuel)) := by
  induction es with
  | nil =>
    rw [Expr.relabelList, List.mapM_nil]
    exact .pure rfl
  | cons e es ih =>
    rw [Expr.relabelList, List.mapM_cons, List.mapM_cons]
    exact (he e).bind fun v => ih.bind fun vs => .pure rfl

lemma evaluates_succ (he : EvaluatesRenumbered ρ fuel) (hi : InvokesRenumbered ρ fuel) :
    EvaluatesRenumbered ρ (fuel + 1) := by
  intro e
  rw [evaluate.eq_def, evaluate.eq_def]
  cases e with
  | literal l => exact .pure l.value_renumber.symm
  | name kind use => exact lookUp_commutes use
  | assign target e => exact (he e).bind fun v => (assign_commutes target).bind fun _ => .pure rfl
  | unary op line e =>
    refine (he e).bind fun v => ?_
    rw [UnaryOp.apply_renumber]
    exact ofTypes_commutes
  | binary op line e e' =>
    refine (he e).bind fun v => (he e').bind fun w => ?_
    rw [BinaryOp.apply_renumber]
    exact ofTypes_commutes
  | logical op line e e' =>
    refine (he e).bind fun v => ?_
    rw [decidedBy_renumber]
    split
    · exact .pure rfl
    · exact he e'
  | group e => exact he e
  | call line e es =>
    exact (he e).bind fun v => (evaluateAll_commutes he es).bind fun vs => apply_commutes hi
  | get e name => exact (he e).bind fun v => property_commutes
  | superGet keyword name => exact superProperty_commutes keyword
  | set e name e' =>
    refine (he e).bind fun v => ?_
    cases v with
    | object o => exact (he e').bind fun w => setProperty_commutes.bind fun _ => .pure rfl
    | closure f => exact invalidAccess_commutes (.closure f)
    | ofClass c => exact invalidAccess_commutes (.ofClass c)
    | _ => exact fail_commutes

lemma executes_succ (he : EvaluatesRenumbered ρ fuel) (hx : ExecutesRenumbered ρ fuel) :
    ExecutesRenumbered ρ (fuel + 1) := by
  intro s
  rw [execute.eq_def, execute.eq_def]
  cases s with
  | expr e => exact (he e).bind fun _ => .pure rfl
  | print e =>
    refine (he e).bind fun v => ?_
    rw [Value.text_renumber]
    exact printLine_commutes.bind fun _ => .pure rfl
  | letVar name e =>
    cases e with
    | none => exact (define_commutes (v := .null)).bind fun _ => .pure rfl
    | some e => exact (he e).bind fun v => define_commutes.bind fun _ => .pure rfl
  | constVar name e => exact (he e).bind fun v => define_commutes.bind fun _ => .pure rfl
  | block body =>
    exact .get_bind fun m hm =>
      ((newFrame_commutes (.empty (some m.current))).bind fun i => (sequence_commutes hx body).inFrame) m hm
  | ifThen e s =>
    refine (he e).bind fun v => ?_
    rw [Value.isTruthy_renumber]
    split
    · exact hx s
    · exact .pure rfl
  | ifElse e s s' =>
    refine (he e).bind fun v => ?_
    rw [Value.isTruthy_renumber]
    split
    · exact hx s
    · exact hx s'
  | «while» e s => exact repeatWhile_commutes (he e) (hx s) fuel
  | function d =>
    simp only [Stmt.relabel, FunctionDecl.relabel_name]
    exact (newClosure_commutes d).bind fun f => (define_commutes (v := .closure f)).bind fun _ => .pure rfl
  | «return» line e =>
    cases e with
    | none => exact .pure rfl
    | some e => exact (he e).bind fun v => .pure rfl
  | classDecl name parent methods statics =>
    exact (declareClass_commutes name parent methods statics).bind fun _ => .pure rfl

lemma invokes_succ (hx : ExecutesRenumbered ρ fuel) : InvokesRenumbered ρ (fuel + 1) := by
  rintro ⟨stamp, ⟨name, ps, body⟩, frame⟩ vs
  have hps : ps.map (Ident.relabel id) = ps := List.map_id ps
  rw [invoke, invoke]
  simp only [Closure.renumber, FunctionDecl.relabel, hps]
  refine (newFrame_commutes (.empty (some frame))).bind fun i => (bindParams_commutes ps vs).bind fun _ => ?_
  refine (sequence_commutes hx body).inFrame.bind fun flow => ?_
  cases flow with
  | normal => exact .pure rfl
  | returned v => exact .pure rfl

/-- **Running does not depend on the numbers**, with any fuel, in expressions, statements and calls. -/
theorem runs_renumbered (ρ : Renumbering) (fuel : Nat) :
    EvaluatesRenumbered ρ fuel ∧ ExecutesRenumbered ρ fuel ∧ InvokesRenumbered ρ fuel := by
  induction fuel with
  | zero =>
    refine ⟨fun e => ?_, fun s => ?_, fun f vs => ?_⟩
    · rw [evaluate, evaluate]
      exact .throw
    · rw [execute, execute]
      exact .throw
    · rw [invoke, invoke]
      exact .throw
  | succ fuel ih =>
    obtain ⟨he, hx, hi⟩ := ih
    exact ⟨evaluates_succ he hi, executes_succ he hx, invokes_succ hx⟩

/-! ### Programs -/

/-- The same end of a run, with other numbers in the statement that fails. -/
def RunResult.renumber (g : OccurrenceId → OccurrenceId) : RunResult → RunResult
  | .completed => .completed
  | .failed f => .failed { f with statement := f.statement.relabel id g }
  | .outOfFuel => .outOfFuel

/-- **A program with other numbers runs as it does otherwise**: to the same end, and to the same machine but for
the numbers. -/
theorem runProgram_renumber (ρ : Renumbering) (fuel : Nat) : ∀ (program : Program OccurrenceId) {m : Machine},
    m.locals = ρ.old → (runProgram fuel program m).2.locals = ρ.old ∧
      runProgram fuel (Stmt.relabelList id ρ.number program) (m.renumber ρ) =
        ((runProgram fuel program m).1.renumber ρ.number, (runProgram fuel program m).2.renumber ρ)
  | [], m, hm => ⟨hm, rfl⟩
  | s :: ss, m, hm => by
    obtain ⟨hl, hr⟩ := (runs_renumbered ρ fuel).2.1 s m hm
    rw [Stmt.relabelList, runProgram, runProgram, hr]
    rcases hx : execute fuel s m with ⟨flow, m1⟩ | ⟨e | _, m1⟩
    · rw [hx] at hl
      exact runProgram_renumber ρ fuel ss hl
    · rw [hx] at hl
      exact ⟨hl, rfl⟩
    · rw [hx] at hl
      exact ⟨hl, rfl⟩

end ScriptLang
