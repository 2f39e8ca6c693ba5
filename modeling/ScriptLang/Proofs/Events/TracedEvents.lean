import ScriptLang.Proofs.Observing.Observer

/-!
# The events of running

Running with a mark at everything that tells of the control flow and of bound methods: where a statement or an
expression begins, where a call and the run of a constructor begin and end, where a value is returned, and where a
method is bound to an instance.

* `Event` — the marks;
* `Observer.events` — the observer that sets them;
* `runEvents` — all events of a run of a program.
-/

namespace ScriptLang

/-- What happens in a run. -/
inductive Event where
  /-- A statement begins. -/
  | executes (s : Stmt OccurrenceId)
  /-- An expression begins; so does the name of the class that another one extends. -/
  | evaluates (e : Expr OccurrenceId)
  /-- The method `f` that the class `owner` declares is bound to an instance. -/
  | binds (f : Closure) (owner : Class) (o : Object)
  /-- A function is called. -/
  | calls (f : Closure)
  /-- The innermost call ends, and this is its value. -/
  | gives (v : Value)
  /-- A bound constructor is run. -/
  | constructs (f : Closure)
  /-- The innermost run of a constructor ends, and its value is not used. -/
  | discards (v : Value)
  /-- A return statement returns a value. -/
  | returns (v : Value)

/-- Marks every event. -/
def Observer.events : Observer Unit Event where
  inside _ := ()
  behind _ _ := ()
  executes s := some (.executes s)
  evaluates e := some (.evaluates e)
  binds f owner o := some (.binds f owner o)
  calls f := some (.calls f)
  gives v := some (.gives v)
  constructs f := some (.constructs f)
  discards v := some (.discards v)
  returns v := some (.returns v)

namespace Eval

/-- Running with a mark at every event. -/
abbrev Recording := Traced Stop Machine Event

/-- Evaluates an expression, with a mark at every event. -/
abbrev evaluateE (fuel : Nat) (e : Expr OccurrenceId) : Recording Value := Observer.events.evaluate fuel e

/-- Executes a statement, with a mark at every event. -/
abbrev executeE (fuel : Nat) (s : Stmt OccurrenceId) : Recording Flow := Observer.events.execute fuel () s

/-- Calls a function, with a mark at every event. -/
abbrev invokeE (fuel : Nat) (f : Closure) (args : List Value) : Recording Value :=
  Observer.events.invoke fuel f args

end Eval

/-- What has happened so far, each event with the machine as it was. -/
abbrev History := List (Event × Machine)

/-- The events of a run of the statements of a program, up to the first that fails, each with the machine as it is
then. -/
abbrev runEvents (fuel : Nat) (p : Program OccurrenceId) (m : Machine) : List (Event × Machine) :=
  Observer.events.moments fuel () p m

end ScriptLang
