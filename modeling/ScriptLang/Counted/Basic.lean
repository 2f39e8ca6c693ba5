import ScriptLang.Grammar.Outcome
import ScriptLang.Tree.Numbering

/-!
# Rules with a counter

The uses of names may get their numbers while they are read: whenever a rule of the grammar makes a use of a
name, it takes the next free number.  A number that was taken is not given back, whether the use becomes part
of a tree or not.
-/

namespace ScriptLang

/-- Rules that take numbers from a counter.  Besides the outcome there is the next free number, also if the
rule fails. -/
def Counted (α : Type) : Type := OccurrenceId → Outcome α × OccurrenceId

namespace Counted

variable {α : Type}

instance : Monad Counted where
  pure a := fun n => (pure a, n)
  bind x f := fun n =>
    match (x n).1.result with
    | .error d => (⟨.error d, (x n).1.reported⟩, (x n).2)
    | .ok a =>
      let (y, m) := f a (x n).2
      (⟨y.result, (x n).1.reported ++ y.reported⟩, m)

/-- What does not look at the counter takes no number. -/
instance : MonadLift Outcome Counted where
  monadLift x := fun n => (x, n)

/-- To take numbers neither fails nor reports anything. -/
instance : MonadLift Numbered Counted where
  monadLift x := fun n => (pure (x n).1, (x n).2)

/-- The same, with the outcome as the value. -/
def run (x : Counted α) : Numbered (Outcome α) := x

/-- Never fails: a failure becomes the value. -/
def attempt (x : Counted α) : Counted (Except Diagnostic α) := fun n => ((x n).1.attempt, (x n).2)

end Counted

end ScriptLang
