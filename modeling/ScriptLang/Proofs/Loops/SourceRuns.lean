import Mathlib.Tactic.Lemma
import ScriptLang.Proofs.Frames.Evolution

/-!
# Running loops as they are written

The tree of a `for` loop has a block around the body and the increment.  As it is written, the loop has no such
block: the body and the increment stand in the same scope as the test.  Here programs are run as they are written,
on the same trees: a block of the form that the increment asks for, around a statement that declares nothing, has
no frame of its own.

* `Stmt.isRound` — the blocks that have no frame;
* `Source.evaluate`, `Source.execute`, `Source.invoke`, `Source.runProgram` — running programs as they are written;
* `Runner`, `Runner.tree`, `Runner.source` — both ways of running;
* `Runner.forLoop` — a `for` loop, step by step;
* `Runner.execute_forLoop` — executing the tree of a `for` loop is that loop.
-/

namespace ScriptLang

/-- The block that an increment puts around the body of a loop: a statement that declares nothing, and an
expression behind it. -/
def Stmt.isRound {ι : Type} : List (Stmt ι) → Bool
  | [body, .expr _] => !body.declaresHere
  | _ => false

namespace Source

open Eval

mutual

/-- Evaluates an expression. -/
def evaluate : Nat → Expr OccurrenceId → Eval Value
  | 0, _ => throw .outOfFuel
  | fuel + 1, e =>
    match e with
    | .literal value => return value.value
    | .name _ use => lookUp use
    | .assign target value => do
      let v ← evaluate fuel value
      assign target v
      return v
    | .unary op line operand => do
      let v ← evaluate fuel operand
      ofTypes line (op.apply v)
    | .binary op line left right => do
      let v ← evaluate fuel left
      let w ← evaluate fuel right
      ofTypes line (op.apply v w)
    | .logical op _ left right => do
      let v ← evaluate fuel left
      if op.decidedBy v then return v else evaluate fuel right
    | .group inner => evaluate fuel inner
    | .call line callee args => do
      let f ← evaluate fuel callee
      let vs ← args.mapM (evaluate fuel)
      apply (invoke fuel) f vs line
    | .get object name => do
      let v ← evaluate fuel object
      property v name
    | .superGet keyword name => superProperty keyword name
    | .set object name value => do
      match ← evaluate fuel object with
      | .object o =>
        let v ← evaluate fuel value
        setProperty o name v
        return v
      | v => fail (.invalidPropertyAccess name.text v.text name.line)

/-- Executes a statement.  Body and increment of a loop run in the frame of the loop. -/
def execute : Nat → Stmt OccurrenceId → Eval Flow
  | 0, _ => throw .outOfFuel
  | fuel + 1, s =>
    match s with
    | .expr e => do
      let _ ← evaluate fuel e
      return .normal
    | .print e => do
      let v ← evaluate fuel e
      printLine v.text
      return .normal
    | .letVar name none => do
      define name .null false
      return .normal
    | .letVar name (some value) => do
      let v ← evaluate fuel value
      define name v false
      return .normal
    | .constVar name value => do
      let v ← evaluate fuel value
      define name v true
      return .normal
    | .block body =>
      if Stmt.isRound body then sequence (execute fuel) body
      else do
        let frame ← newFrame (.empty (some (← get).current))
        inFrame frame (sequence (execute fuel) body)
    | .ifThen condition thenBranch => do
      if (← evaluate fuel condition).isTruthy then execute fuel thenBranch else return .normal
    | .ifElse condition thenBranch elseBranch => do
      if (← evaluate fuel condition).isTruthy then execute fuel thenBranch
      else execute fuel elseBranch
    | .while condition body => repeatWhile (evaluate fuel condition) (execute fuel body) fuel
    | .function decl => do
      let f ← newClosure decl
      define decl.name (.closure f) false
      return .normal
    | .return _ none => return .returned .null
    | .return _ (some value) => do
      let v ← evaluate fuel value
      return .returned v
    | .classDecl name parent methods statics => do
      declareClass name parent methods statics
      return .normal

/-- Calls a function with as many arguments as it takes. -/
def invoke : Nat → Closure → List Value → Eval Value
  | 0, _, _ => throw .outOfFuel
  | fuel + 1, f, args => do
    let frame ← newFrame (.empty (some f.frame))
    bindParams frame f.decl.params args
    match ← inFrame frame (sequence (execute fuel) f.decl.body) with
    | .normal => return .null
    | .returned value => return value

end

/-- Runs the statements of a program at the global level, up to the first that fails. -/
def runProgram (fuel : Nat) : Program OccurrenceId → Machine → RunResult × Machine
  | [], m => (.completed, m)
  | s :: ss, m =>
    match execute fuel s m with
    | .ok _ m => runProgram fuel ss m
    | .error (.error e) m => (.failed ⟨e, s⟩, m)
    | .error .outOfFuel m => (.outOfFuel, m)

end Source

/-! ### A `for` loop, step by step -/

/-- A way of running programs: how expressions are evaluated and statements executed, and what surrounds a body with
an increment behind it. -/
structure Runner where
  evaluate : Nat → Expr OccurrenceId → Eval Value
  execute : Nat → Stmt OccurrenceId → Eval Flow
  surround : Eval Flow → Eval Flow

namespace Runner

open Eval

/-- Something in a new frame inside of the current one. -/
def inNewFrame (x : Eval Flow) : Eval Flow := do
  let frame ← newFrame (.empty (some (← get).current))
  inFrame frame x

/-- Running a program as its tree says: around a body and an increment is a frame. -/
def tree : Runner := ⟨Eval.evaluate, Eval.execute, inNewFrame⟩

/-- Running a program as it is written: around a body and an increment is nothing. -/
def source : Runner := ⟨Source.evaluate, Source.execute, id⟩

/-- One level further in, with less fuel. -/
def deeper {α : Type} (run : Nat → Eval α) : Nat → Eval α
  | 0 => throw .outOfFuel
  | fuel + 1 => run fuel

variable (R : Runner)

/-- **One round of a loop**: the body and, if it has ended normally, the increment.  A body that returns is not
followed by the increment. -/
def round (increment : Option (Expr OccurrenceId)) (body : Stmt OccurrenceId) : Nat → Eval Flow :=
  match increment with
  | none => fun fuel => R.execute fuel body
  | some e => deeper fun fuel => R.surround do
    match ← R.execute fuel body with
    | .normal =>
      let _ ← deeper (R.evaluate · e) fuel
      return .normal
    | .returned value => return .returned value

/-- The rounds of a loop, as long as the condition is met; a missing condition is true. -/
def rounds (condition increment : Option (Expr OccurrenceId)) (body : Stmt OccurrenceId) : Nat → Eval Flow :=
  deeper fun fuel => repeatWhile (R.evaluate fuel (condition.getD (.literal (.bool true))))
    (R.round increment body fuel) fuel

/-- **A `for` loop.**  With an initializer there is a fresh frame, in which the initializer runs once and then the
rounds; without one the rounds run in the current frame. -/
def forLoop (initializer : Option (Stmt OccurrenceId)) (condition increment : Option (Expr OccurrenceId))
    (body : Stmt OccurrenceId) : Nat → Eval Flow :=
  match initializer with
  | none => R.rounds condition increment body
  | some s => deeper fun fuel => inNewFrame do
    match ← R.execute fuel s with
    | .normal => R.rounds condition increment body fuel
    | .returned value => return .returned value

/-! ### The tree of a `for` loop -/

/-- How a runner executes the statements that a `for` loop is made of. -/
structure Lawful : Prop where
  exhausted : ∀ s, R.execute 0 s = throw .outOfFuel
  expr : ∀ fuel e, R.execute (fuel + 1) (.expr e) = do
    let _ ← R.evaluate fuel e
    return .normal
  loop : ∀ fuel c s, R.execute (fuel + 1) (.while c s) = repeatWhile (R.evaluate fuel c) (R.execute fuel s) fuel
  block : ∀ fuel i c s, R.execute (fuel + 1) (.block [i, .while c s]) =
    inNewFrame (sequence (R.execute fuel) [i, .while c s])
  round : ∀ fuel s e, s.declaresHere = false → R.execute (fuel + 1) (.block [s, .expr e]) =
    R.surround (sequence (R.execute fuel) [s, .expr e])

lemma tree_lawful : tree.Lawful where
  exhausted _ := rfl
  expr _ _ := rfl
  loop _ _ _ := rfl
  block _ _ _ _ := rfl
  round _ _ _ _ := rfl

lemma source_lawful : source.Lawful where
  exhausted _ := rfl
  expr _ _ := rfl
  loop _ _ _ := rfl
  block fuel i c s := by
    show Source.execute (fuel + 1) (.block [i, .while c s]) = _
    rw [Source.execute]
    rfl
  round fuel s e hs := by
    have hround : Stmt.isRound [s, .expr e] = true := by
      rw [Stmt.isRound, hs]
      rfl
    show Source.execute (fuel + 1) (.block [s, .expr e]) = _
    rw [Source.execute, if_pos hround]
    rfl

section Tree

variable {R} {s : Stmt OccurrenceId} (hR : R.Lawful) (hs : s.declaresHere = false)

include hR hs

/-- The block around a body and an increment is a round. -/
lemma execute_round (e : Expr OccurrenceId) (fuel : Nat) :
    R.execute fuel (.block [s, .expr e]) = R.round (some e) s fuel := by
  cases fuel with
  | zero => exact hR.exhausted _
  | succ fuel =>
    rw [hR.round fuel s e hs, round, deeper]
    refine congrArg R.surround (bind_congr fun flow => ?_)
    cases flow with
    | returned v => rfl
    | normal =>
      cases fuel with
      | zero =>
        simp only [Eval.sequence, hR.exhausted]
        rfl
      | succ fuel => simp only [Eval.sequence, hR.expr, deeper, bind_assoc, pure_bind]

lemma execute_rounds (condition increment : Option (Expr OccurrenceId)) (fuel : Nat) :
    R.execute fuel (.forLoop none condition increment s) = R.rounds condition increment s fuel := by
  cases fuel with
  | zero => exact hR.exhausted _
  | succ fuel =>
    unfold Stmt.forLoop
    rw [rounds, deeper, hR.loop]
    cases increment with
    | none => rfl
    | some e =>
      simp only
      rw [execute_round hR hs]

/-- **Executing the tree of a `for` loop is that loop.** -/
theorem execute_forLoop (initializer : Option (Stmt OccurrenceId)) (condition increment : Option (Expr OccurrenceId))
    (fuel : Nat) :
    R.execute fuel (.forLoop initializer condition increment s) = R.forLoop initializer condition increment s fuel := by
  cases initializer with
  | none => exact execute_rounds hR hs condition increment fuel
  | some i =>
    cases fuel with
    | zero => exact hR.exhausted _
    | succ fuel =>
      have hloop := execute_rounds hR hs condition increment fuel
      unfold Stmt.forLoop at hloop ⊢
      rw [forLoop, deeper, hR.block]
      refine congrArg inNewFrame (bind_congr fun flow => ?_)
      cases flow with
      | returned v => rfl
      | normal =>
        simp only at hloop ⊢
        rw [Eval.sequence, hloop]
        conv_rhs => rw [← bind_pure (R.rounds condition increment s fuel)]
        refine bind_congr fun flow => ?_
        cases flow <;> rfl

end Tree

end Runner

end ScriptLang
