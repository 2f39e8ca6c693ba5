import ScriptLang.Token.Scan
import ScriptLang.Grammar.Program
import ScriptLang.Scope.Resolve
import ScriptLang.Eval.Run

/-!
# Sessions

A session takes one program after another.  Each is read, resolved and run; what one leaves behind, the
next finds.
-/

namespace ScriptLang

/-- What a session remembers between programs. -/
structure Session where
  nextId : OccurrenceId
  resolver : Resolver
  machine : Machine

namespace Session

/-- A session before its first program, with a limit on its output or without one. -/
def initial (limit : Option Nat) : Session :=
  ⟨0, .empty, .initial limit⟩

/-- What becomes of a program: it is not read, it is not fit to run, or it has been run. -/
inductive Answer where
  | unreadable (diagnostics : List Diagnostic)
  | rejected (rejection : Rejection)
  | ran (warnings : List ScopeWarning) (result : RunResult)

/-- Takes a program.  If its distances are not installed, all its names are global. -/
def submit (fuel : Nat) (install : Bool) (tokens : List Token) (s : Session) : Answer × Session :=
  match Program.parse tokens with
  | .error ds => (.unreadable ds, s)
  | .ok tree =>
    let (program, nextId) := tree.number s.nextId
    let (resolution, resolver) := s.resolver.resolve program
    let s := { s with nextId, resolver }
    match resolution with
    | .error rejection => (.rejected rejection, s)
    | .ok r =>
      let machine := if install then s.machine.install r.locals else s.machine
      let (result, machine) := runProgram fuel program machine
      (.ran r.warnings result, { s with machine })

end Session

end ScriptLang
