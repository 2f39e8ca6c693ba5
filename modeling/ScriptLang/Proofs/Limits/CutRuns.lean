import ScriptLang.Proofs.Limits.Cut

/-!
# Cutting runs off

Expressions, statements and calls are cut off at the first line that does not fit, however deep in them it is
printed: nothing on the way keeps the error from being passed on, and nothing is printed behind it.

* `sequence_truncates`, `repeatWhileT_truncates`, `apply_truncates` — the parts of runs;
* `runs_truncate` — the induction on the fuel.
-/

namespace ScriptLang

open Eval
open Observer (lines)

variable {n fuel line : Nat} {m : Machine}

/-! ### Parts of runs -/

lemma sequence_truncates {run : Unit → Stmt OccurrenceId → Printing Flow} (h : ∀ s, Truncates n (run () s))
    (ss : List (Stmt OccurrenceId)) : Truncates n (lines.sequence run () ss) := by
  induction ss with
  | nil => exact .pure
  | cons s ss ih =>
    refine (h s).bind fun flow => ?_
    cases flow with
    | normal => exact ih
    | returned v => exact .pure

lemma repeatWhileT_truncates {test : Printing Value} {body : Printing Flow} (ht : Truncates n test)
    (hb : Truncates n body) : ∀ fuel, Truncates n (repeatWhileT test body fuel)
  | 0 => .throw
  | fuel + 1 => by
    rw [repeatWhileT]
    refine ht.bind fun v => ?_
    split
    · refine hb.bind fun flow => ?_
      cases flow with
      | normal => exact repeatWhileT_truncates ht hb fuel
      | returned w => exact .pure
    · exact .pure

section Calls

variable {call : Closure → List Value → Printing Value} (h : ∀ f args, Truncates n (call f args))

include h

lemma constructOwn_truncates (o : Object) (args : List Value) (c : Class) :
    Truncates n (lines.constructOwn call o args line c) := by
  unfold Observer.constructOwn
  split
  · exact .pure
  · exact .behind (checkArity_silent _ _ _) fun _ => .behind (bindMethod_silent _ _ _) fun _ =>
      (h _ _).bind fun _ => .pure

lemma construct_truncates (o : Object) (args : List Value) :
    ∀ cs : List Class, Truncates n (lines.construct call o args line cs)
  | [] => .pure
  | c :: cs => (constructOwn_truncates h o args c).bind fun _ => construct_truncates o args cs

lemma apply_truncates (callee : Value) (args : List Value) : Truncates n (lines.apply call callee args line) := by
  cases callee with
  | closure f => exact .behind (checkArity_silent _ _ _) fun _ => (h f args).bind fun _ => .pure
  | ofClass c =>
    exact .behind (checkArity_silent _ _ _) fun _ => .behind (newObject_silent c) fun o =>
      (construct_truncates h o args _).bind fun _ => .pure
  | _ => exact .throw

end Calls

lemma property_truncates (v : Value) (name : Ident) : Truncates n (lines.property v name) := by
  rw [lines.property_unmarked rfl]
  exact .lift (property_silent v)

lemma superProperty_truncates (keyword : Occurrence OccurrenceId) (name : Ident) :
    Truncates n (lines.superProperty keyword name) := by
  rw [lines.superProperty_unmarked rfl]
  exact .lift (superProperty_silent keyword)

lemma declareClass_truncates (name : Ident) (parent : Option (Occurrence OccurrenceId))
    (methods statics : List (FunctionDecl (Stmt OccurrenceId))) :
    Truncates n (lines.declareClass () name parent methods statics) := by
  unfold Observer.declareClass
  rw [lines.superclass_unmarked rfl, lines.define_unmarked rfl]
  exact .behind (superclass_silent parent) fun c => .behind (define_silent false) fun _ =>
    .lift (finishClass_silent c methods statics)

/-! ### The induction -/

/-- With so much fuel, expressions, statements and calls are cut off. -/
structure RunsTruncate (n fuel : Nat) : Prop where
  evaluate : ∀ e, Truncates n (evaluateP fuel e)
  execute : ∀ s, Truncates n (executeP fuel s)
  invoke : ∀ f args, Truncates n (invokeP fuel f args)

lemma evaluateP_truncates (h : RunsTruncate n fuel) (e : Expr OccurrenceId) :
    Truncates n (evaluateP (fuel + 1) e) := by
  rw [evaluateP, Observer.evaluate.eq_def]
  cases e with
  | literal l => exact .pure
  | name kind use => exact .lift (lookUpAs_silent _ _)
  | assign target e => exact (h.evaluate e).bind fun v => .behind (assign_silent target) fun _ => .pure
  | unary op line e => exact (h.evaluate e).bind fun _ => .lift (ofTypes_silent _)
  | binary op line e e' =>
    exact (h.evaluate e).bind fun _ => (h.evaluate e').bind fun _ => .lift (ofTypes_silent _)
  | logical op line e e' =>
    refine (h.evaluate e).bind fun v => ?_
    split
    · exact .pure
    · exact h.evaluate e'
  | group e => exact h.evaluate e
  | call line e es =>
    exact (h.evaluate e).bind fun v => (Truncates.mapM h.evaluate es).bind fun vs => apply_truncates h.invoke v vs
  | get e name => exact (h.evaluate e).bind fun v => property_truncates v name
  | superGet keyword name => exact superProperty_truncates keyword name
  | set e name e' =>
    refine (h.evaluate e).bind fun v => ?_
    cases v with
    | object o => exact (h.evaluate e').bind fun w => .behind (setProperty_silent o) fun _ => .pure
    | _ => exact .throw

lemma executeP_truncates (h : RunsTruncate n fuel) (s : Stmt OccurrenceId) : Truncates n (executeP (fuel + 1) s) := by
  rw [executeP, Observer.execute.eq_def]
  cases s with
  | expr e => exact (h.evaluate e).bind fun _ => .pure
  | print e => exact (h.evaluate e).bind fun v => (Truncates.print v.text).bind fun _ => .pure
  | letVar name e =>
    cases e with
    | none => exact .behind (define_silent false) fun _ => .pure
    | some e => exact (h.evaluate e).bind fun v => .behind (define_silent false) fun _ => .pure
  | constVar name e => exact (h.evaluate e).bind fun v => .behind (define_silent true) fun _ => .pure
  | block body =>
    exact .get_bind (fun m => .behind (newFrame_silent _) fun i =>
      (sequence_truncates h.execute body).inFrame i) fun _ => rfl
  | ifThen e s =>
    refine (h.evaluate e).bind fun v => ?_
    split
    · exact h.execute s
    · exact .pure
  | ifElse e s s' =>
    refine (h.evaluate e).bind fun v => ?_
    split
    · exact h.execute s
    · exact h.execute s'
  | «while» e s => exact repeatWhileT_truncates (h.evaluate e) (h.execute s) fuel
  | function d => exact .behind (newClosure_silent d) fun f => .behind (define_silent false) fun _ => .pure
  | «return» line e =>
    cases e with
    | none => exact .pure
    | some e => exact (h.evaluate e).bind fun _ => .pure
  | classDecl name parent methods statics =>
    exact (declareClass_truncates name parent methods statics).bind fun _ => .pure

lemma invokeP_truncates (h : RunsTruncate n fuel) (f : Closure) (args : List Value) :
    Truncates n (invokeP (fuel + 1) f args) := by
  rw [invokeP, Observer.invoke]
  refine .behind (newFrame_silent _) fun i => ?_
  rw [lines.bindParams_unmarked rfl]
  refine .behind (bindParams_silent i _ _) fun _ => ?_
  refine ((sequence_truncates h.execute f.decl.body).inFrame i).bind fun flow => ?_
  cases flow with
  | normal => exact .pure
  | returned v => exact .pure

/-- **Everything that runs is cut off** at the first line that does not fit. -/
theorem runs_truncate (n fuel : Nat) : RunsTruncate n fuel := by
  induction fuel with
  | zero =>
    refine ⟨fun e => ?_, fun s => ?_, fun f args => ?_⟩
    · rw [evaluateP, Observer.evaluate]
      exact .throw
    · rw [executeP, Observer.execute]
      exact .throw
    · rw [invokeP, Observer.invoke]
      exact .throw
  | succ fuel ih => exact ⟨evaluateP_truncates ih, executeP_truncates ih, invokeP_truncates ih⟩

end ScriptLang
