import ScriptLang.Counted.Program
import ScriptLang.Session

/-!
# Sessions and numbers

A session may number the uses of names in a tree that was read, or take the numbers while it is read.  It does the
same with the numbered program then.
-/

namespace ScriptLang

/-- A way to read programs with numbers from the counter. -/
abbrev Reader := List Token → Numbered (Except (List Diagnostic) (Program OccurrenceId))

/-- Reads a program and numbers its tree then. -/
def Program.readThenNumber : Reader := fun ts =>
  match Program.parse ts with
  | .error ds => return .error ds
  | .ok tree => return .ok (← tree.number)

namespace Session

/-- Resolves a program, installs its distances and runs it. -/
def launch (fuel : Nat) (install : Bool) (program : Program OccurrenceId) (s : Session) : Answer × Session :=
  let (resolution, resolver) := s.resolver.resolve program
  let s := { s with resolver }
  match resolution with
  | .error rejection => (.rejected rejection, s)
  | .ok r =>
    let machine := if install then s.machine.install r.locals else s.machine
    let (result, machine) := runProgram fuel program machine
    (.ran r.warnings result, { s with machine })

/-- Takes a program that is read and numbered in the given way. -/
def submitBy (read : Reader) (fuel : Nat) (install : Bool) (tokens : List Token) (s : Session) :
    Answer × Session :=
  let (result, nextId) := read tokens s.nextId
  let s := { s with nextId }
  match result with
  | .error ds => (.unreadable ds, s)
  | .ok program => s.launch fuel install program

theorem submit_eq_submitBy (fuel : Nat) (install : Bool) (tokens : List Token) (s : Session) :
    s.submit fuel install tokens = s.submitBy Program.readThenNumber fuel install tokens := by
  unfold submit submitBy Program.readThenNumber
  cases Program.parse tokens <;> rfl

end Session

end ScriptLang
