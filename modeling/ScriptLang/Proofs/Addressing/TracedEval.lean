import ScriptLang.Proofs.Observing.Observer

/-!
# The moments of running

Running with a mark at every expression, set when its evaluation begins: the moment of an expression holds
the machine as it is then.  The class that another class extends is read like a variable and is marked like
one.

* `Observer.expressions` — the observer that marks expressions;
* `runMoments` — all moments of a run of a program.
-/

namespace ScriptLang

/-- Marks every expression. -/
def Observer.expressions : Observer Unit (Expr OccurrenceId) where
  inside _ := ()
  behind _ _ := ()
  evaluates := some

namespace Eval

/-- Running with a mark at every expression. -/
abbrev Marked := Traced Stop Machine (Expr OccurrenceId)

/-- Evaluates an expression, with a mark at every expression. -/
abbrev evaluateT (fuel : Nat) (e : Expr OccurrenceId) : Marked Value := Observer.expressions.evaluate fuel e

/-- Executes a statement, with a mark at every expression. -/
abbrev executeT (fuel : Nat) (s : Stmt OccurrenceId) : Marked Flow := Observer.expressions.execute fuel () s

/-- Calls a function, with a mark at every expression. -/
abbrev invokeT (fuel : Nat) (f : Closure) (args : List Value) : Marked Value :=
  Observer.expressions.invoke fuel f args

end Eval

/-- The moments of a run of the statements of a program, up to the first that fails. -/
abbrev runMoments (fuel : Nat) (p : Program OccurrenceId) (m : Machine) : List (Expr OccurrenceId × Machine) :=
  Observer.expressions.moments fuel () p m

end ScriptLang
