import ScriptLang.Proofs.Observing.Observer
import ScriptLang.Proofs.Redeclaring.Sites

/-!
# The definitions of a run

Running with a mark at every point where a declaration defines its name in a frame, set just before that is tried:
the mark of a declaration holds what its scope has in front of it, so it tells the site of the declaration.

* `Definition`, `Definition.perform` — the mark, and the step that it stands for;
* `Observer.definitions` — the observer that sets these marks;
* `runDefinitions` — all definitions of a run of a program, with the machines in which they are tried.
-/

namespace ScriptLang

/-- A declaration that is about to define its name in a frame. -/
structure Definition where
  front : Front
  name : Ident
  frame : FrameId
  value : Value
  constant : Bool

namespace Definition

/-- Binds the name in the frame. -/
def perform (d : Definition) : Eval Unit :=
  Eval.change d.name.line (Frames.define d.frame d.name.text d.value d.constant)

/-- In this machine the name cannot be defined: it has been declared already. -/
def Fails (d : Definition) (m : Machine) : Prop :=
  d.perform m = .error (.error (.identifierAlreadyDeclared d.name.text d.name.line)) m

end Definition

/-- Marks every definition; what is known of a scope are the names in front. -/
def Observer.definitions : Observer Front Definition where
  inside := some
  behind front s := front.after s.scopeNames
  defines front name frame value constant := some ⟨front, name, frame, value, constant⟩

namespace Eval

/-- Running with a mark at every definition. -/
abbrev Defining := Traced Stop Machine Definition

/-- Evaluates an expression, with a mark at every definition. -/
abbrev evaluateD (fuel : Nat) (e : Expr OccurrenceId) : Defining Value := Observer.definitions.evaluate fuel e

/-- Executes a statement behind the declarations in front of it, with a mark at every definition. -/
abbrev executeD (fuel : Nat) (front : Front) (s : Stmt OccurrenceId) : Defining Flow :=
  Observer.definitions.execute fuel front s

/-- Calls a function, with a mark at every definition. -/
abbrev invokeD (fuel : Nat) (f : Closure) (args : List Value) : Defining Value :=
  Observer.definitions.invoke fuel f args

end Eval

/-- The definitions of a run of the statements of a program at the global level, up to the first statement that
fails. -/
abbrev runDefinitions (fuel : Nat) (p : Program OccurrenceId) (m : Machine) : List (Definition × Machine) :=
  Observer.definitions.moments fuel none p m

end ScriptLang
