import ScriptLang.Eval.Machine

/-!
# Running programs

Expressions are evaluated and statements executed with fuel, which bounds how deeply they are nested at
run time and how often a loop is repeated.  A block and a call have a frame of their own; it is current while
they run and no longer.
-/

namespace ScriptLang

namespace Eval

/-- Executes statements one after another, up to the first that returns. -/
def sequence (run : Stmt OccurrenceId → Eval Flow) : List (Stmt OccurrenceId) → Eval Flow
  | [] => return .normal
  | s :: ss => do
    match ← run s with
    | .normal => sequence run ss
    | .returned value => return .returned value

/-- Repeats a body as long as a test holds and the body does not return. -/
def repeatWhile (test : Eval Value) (body : Eval Flow) : Nat → Eval Flow
  | 0 => throw .outOfFuel
  | fuel + 1 => do
    if (← test).isTruthy then
      match ← body with
      | .normal => repeatWhile test body fuel
      | .returned value => return .returned value
    else return .normal

/-- Binds parameters to arguments in a frame. -/
def bindParams (frame : FrameId) : List Ident → List Value → Eval Unit
  | p :: ps, v :: vs => do
    change p.line (Frames.define frame p.text v false)
    bindParams frame ps vs
  | _, _ => pure ()

/-- Fails unless a callee gets as many arguments as it takes. -/
def checkArity (name : String) (expected got line : Nat) : Eval Unit :=
  if got = expected then pure () else fail (.invalidNumberOfArguments name expected got line)

/-- Runs the constructor that a class itself declares, if it does, on an instance. -/
def constructOwn (invoke : Closure → List Value → Eval Value) (o : Object) (args : List Value)
    (line : Nat) (c : Class) : Eval Unit :=
  match c.own.methods.get? Class.constructorName with
  | none => pure ()
  | some f => do
    checkArity (c.own.name ++ "." ++ Class.constructorName) f.arity args.length line
    let bound ← bindMethod f c o
    let _ ← invoke bound args

/-- Runs the constructors of several classes on an instance, each with all arguments. -/
def construct (invoke : Closure → List Value → Eval Value) (o : Object) (args : List Value) (line : Nat) :
    List Class → Eval Unit
  | [] => pure ()
  | c :: cs => do
    constructOwn invoke o args line c
    construct invoke o args line cs

/-- Makes an instance of a class: the constructors of all classes it descends from run on it, the
outermost class first. -/
def instantiate (invoke : Closure → List Value → Eval Value) (c : Class) (args : List Value) (line : Nat) :
    Eval Value := do
  let o ← newObject c
  construct invoke o args line c.lineage.reverse
  return .object o

/-- Calls a value. -/
def apply (invoke : Closure → List Value → Eval Value) (callee : Value) (args : List Value) (line : Nat) :
    Eval Value := do
  match callee with
  | .closure f =>
    checkArity f.name f.arity args.length line
    invoke f args
  | .ofClass c =>
    checkArity c.own.name c.arity args.length line
    instantiate invoke c args line
  | v => fail (.objectNotCallable v.text line)

/-- The class that the class `name` is declared to extend, if it extends one. -/
def superclass (name : Ident) : Option (Occurrence OccurrenceId) → Eval (Option Class)
  | none => return none
  | some use => do
    match ← lookUp use with
    | .ofClass c => return some c
    | v => fail (.typeMismatch (.superclass name.text v.type) name.line)

/-- Declares a class.  Its name is taken before anything is made under it. -/
def declareClass (name : Ident) (parent : Option (Occurrence OccurrenceId))
    (methods statics : List (FunctionDecl (Stmt OccurrenceId))) : Eval Unit := do
  let parent ← superclass name parent
  define name .null false
  let body : ClassBody := ⟨← newStamp, name.text, ← newClosures methods, ← newClosures statics⟩
  change name.line
    (Frames.assignAt (← get).current 0 name.text (.ofClass (.extending parent body)))

mutual

/-- Evaluates an expression. -/
def evaluate : Nat → Expr OccurrenceId → Eval Value
  | 0, _ => throw .outOfFuel
  | fuel + 1, e =>
    match e with
    | .literal value => return value.value
    | .name _ use => lookUp use
    | .assign target value => do
      let v ← evaluate fuel value
      assign target v
      return v
    | .unary op line operand => do
      let v ← evaluate fuel operand
      ofTypes line (op.apply v)
    | .binary op line left right => do
      let v ← evaluate fuel left
      let w ← evaluate fuel right
      ofTypes line (op.apply v w)
    | .logical op _ left right => do
      let v ← evaluate fuel left
      if op.decidedBy v then return v else evaluate fuel right
    | .group inner => evaluate fuel inner
    | .call line callee args => do
      let f ← evaluate fuel callee
      let vs ← args.mapM (evaluate fuel)
      apply (invoke fuel) f vs line
    | .get object name => do
      let v ← evaluate fuel object
      property v name
    | .superGet keyword name => superProperty keyword name
    | .set object name value => do
      match ← evaluate fuel object with
      | .object o =>
        let v ← evaluate fuel value
        setProperty o name v
        return v
      | v => fail (.invalidPropertyAccess name.text v.text name.line)

/-- Executes a statement. -/
def execute : Nat → Stmt OccurrenceId → Eval Flow
  | 0, _ => throw .outOfFuel
  | fuel + 1, s =>
    match s with
    | .expr e => do
      let _ ← evaluate fuel e
      return .normal
    | .print e => do
      let v ← evaluate fuel e
      printLine v.text
      return .normal
    | .letVar name none => do
      define name .null false
      return .normal
    | .letVar name (some value) => do
      let v ← evaluate fuel value
      define name v false
      return .normal
    | .constVar name value => do
      let v ← evaluate fuel value
      define name v true
      return .normal
    | .block body => do
      let frame ← newFrame (.empty (some (← get).current))
      inFrame frame (sequence (execute fuel) body)
    | .ifThen condition thenBranch => do
      if (← evaluate fuel condition).isTruthy then execute fuel thenBranch else return .normal
    | .ifElse condition thenBranch elseBranch => do
      if (← evaluate fuel condition).isTruthy then execute fuel thenBranch
      else execute fuel elseBranch
    | .while condition body => repeatWhile (evaluate fuel condition) (execute fuel body) fuel
    | .function decl => do
      let f ← newClosure decl
      define decl.name (.closure f) false
      return .normal
    | .return _ none => return .returned .null
    | .return _ (some value) => do
      let v ← evaluate fuel value
      return .returned v
    | .classDecl name parent methods statics => do
      declareClass name parent methods statics
      return .normal

/-- Calls a function with as many arguments as it takes.  A body that does not return gives null. -/
def invoke : Nat → Closure → List Value → Eval Value
  | 0, _, _ => throw .outOfFuel
  | fuel + 1, f, args => do
    let frame ← newFrame (.empty (some f.frame))
    bindParams frame f.decl.params args
    match ← inFrame frame (sequence (execute fuel) f.decl.body) with
    | .normal => return .null
    | .returned value => return value

end

end Eval

/-- How a run of a program ends. -/
inductive RunResult where
  | completed
  | failed (failure : Failure)
  | outOfFuel

/-- Runs the statements of a program at the global level, up to the first that fails.  What a statement
returns has no effect here. -/
def runProgram (fuel : Nat) : Program OccurrenceId → Machine → RunResult × Machine
  | [], m => (.completed, m)
  | s :: ss, m =>
    match Eval.execute fuel s m with
    | .ok _ m => runProgram fuel ss m
    | .error (.error e) m => (.failed ⟨e, s⟩, m)
    | .error .outOfFuel m => (.outOfFuel, m)

end ScriptLang
