import ScriptLang.Store.Frame
import ScriptLang.Tree.Printer

/-!
# Errors of running programs

What stops a program while it runs, and how it is told.
-/

namespace ScriptLang

/-- A value of the wrong type for what is done with it. -/
inductive Mismatch where
  | operand (op : UnaryOp) (found : ValueType)
  | operands (op : BinaryOp) (left right : ValueType)
  | superclass (name : String) (found : ValueType)
deriving DecidableEq, Repr

/-- The wording of a mismatch. -/
def Mismatch.message : Mismatch → String
  | operand op found => s!"cannot apply {op.text} to {found.name}"
  | operands op left right => s!"cannot apply {op.text} to {left.name} and {right.name}"
  | superclass name found => s!"superclass of <{name}> must be a class, found {found.name}"

/-- What stops a running program. -/
inductive RuntimeError where
  | sinkFull
  | undefinedVariable (name : String) (line : Nat)
  | assignmentToConstant (name : String) (line : Nat)
  | identifierAlreadyDeclared (name : String) (line : Nat)
  | invalidNumberOfArguments (name : String) (expected got line : Nat)
  | objectNotCallable (object : String) (line : Nat)
  | invalidPropertyAccess (name object : String) (line : Nat)
  | typeMismatch (mismatch : Mismatch) (line : Nat)
deriving DecidableEq, Repr

/-- The wording of a runtime error. -/
def RuntimeError.message : RuntimeError → String
  | sinkFull => "IO error: sink full"
  | undefinedVariable name line => s!"Undefined variable <{name}> at line {line}"
  | assignmentToConstant name line => s!"Assignment to constant variable <{name}> at line {line}"
  | identifierAlreadyDeclared name line =>
    s!"Identifier <{name}> has already been declared at line {line}"
  | invalidNumberOfArguments name expected got line =>
    s!"<{name}> expected {expected} arguments, got {got} at line {line}"
  | objectNotCallable object line => s!"Object {object} is not callable at line {line}"
  | invalidPropertyAccess name object line =>
    s!"Invalid access of property <{name}> on {object} at line {line}"
  | typeMismatch mismatch line => s!"Type mismatch: {mismatch.message} at line {line}"

/-- The error of a program whose use of a name on the given line a frame refuses. -/
def FrameError.atLine (line : Nat) : FrameError → RuntimeError
  | alreadyDeclared name => .identifierAlreadyDeclared name line
  | undefined name => .undefinedVariable name line
  | assignmentToConstant name => .assignmentToConstant name line

/-- A runtime error and the top-level statement that it stopped. -/
structure Failure where
  error : RuntimeError
  statement : Stmt OccurrenceId

/-- The wording of a failure. -/
def Failure.message (f : Failure) : String :=
  "Runtime error: " ++ f.error.message ++ "\n    while executing: " ++ f.statement.text

end ScriptLang
