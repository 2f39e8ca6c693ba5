import ScriptLang.Proofs.Observing.Observer

/-!
# The lines that are printed

Running with a mark at each line that is printed, set when it is about to be written: the moment of a line holds
the machine as it is then.

* `Observer.lines` — the observer that marks them;
* `runPrints` — all lines that a program prints.
-/

namespace ScriptLang

/-- Marks each line that is printed. -/
def Observer.lines : Observer Unit String where
  inside _ := ()
  behind _ _ := ()
  prints := some

namespace Eval

/-- Running with a mark at each line that is printed. -/
abbrev Printing := Traced Stop Machine String

/-- Evaluates an expression, with a mark at each line that is printed. -/
abbrev evaluateP (fuel : Nat) (e : Expr OccurrenceId) : Printing Value := Observer.lines.evaluate fuel e

/-- Executes a statement, with a mark at each line that is printed. -/
abbrev executeP (fuel : Nat) (s : Stmt OccurrenceId) : Printing Flow := Observer.lines.execute fuel () s

/-- Calls a function, with a mark at each line that is printed. -/
abbrev invokeP (fuel : Nat) (f : Closure) (args : List Value) : Printing Value := Observer.lines.invoke fuel f args

end Eval

/-- The lines that the statements of a program print, up to the first statement that fails. -/
abbrev runPrints (fuel : Nat) (p : Program OccurrenceId) (m : Machine) : List (String × Machine) :=
  Observer.lines.moments fuel () p m

end ScriptLang
