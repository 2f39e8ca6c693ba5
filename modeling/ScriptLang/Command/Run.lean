import ScriptLang.Session
import ScriptLang.Command.Transcript

/-!
# Running a script

A script is scanned, read, resolved and run.  Everything that is wrong with it goes to the second stream.
Errors of scanning keep nothing from running; they make the command fail in the end.
-/

namespace ScriptLang

/-- Why a script has not run to its end, or was not in order although it has. -/
inductive Complaint where
  | unreadable (diagnostics : List Diagnostic)
  | rejected (errors : List ScopeError)
  | stopped
  | outOfFuel
  | unscannable (errors : Nat)

/-- The wording of a complaint. -/
def Complaint.message : Complaint → String
  | unreadable ds => Diagnostic.report ds
  | rejected errors => ScopeError.report errors
  | stopped => "Execution stopped by a runtime error"
  | outOfFuel => "Execution stopped after too many steps"
  | unscannable errors => s!"Found {errors} errors during tokenizing"

namespace Command

/-- The fuel of programs that are run from the command line. -/
def fuel : Nat := 1000000000000

/-- The line that tells a warning. -/
def warningLine (w : ScopeWarning) : String :=
  "Warning: " ++ w.message

/-- The lines that tell how a run has ended, unless it is complete. -/
def resultLines : RunResult → List String
  | .failed failure => [failure.message]
  | .completed | .outOfFuel => []

/-- The lines that tell what has become of a program while it was taken. -/
def answerLines : Session.Answer → List String
  | .unreadable _ | .rejected _ => []
  | .ran warnings result => warnings.map warningLine ++ resultLines result

/-- The complaint about a program with some errors of scanning. -/
def complaint? (scanErrors : List ScanError) : Session.Answer → Option Complaint
  | .unreadable ds => some (.unreadable ds)
  | .rejected r => some (.rejected r.errors)
  | .ran _ (.failed _) => some .stopped
  | .ran _ .outOfFuel => some .outOfFuel
  | .ran _ .completed => if scanErrors.isEmpty then none else some (.unscannable scanErrors.length)

/-- Takes a script into a session: what is written meanwhile, and the complaint about it, if any. -/
def interpret (source : String) (s : Session) : (Output × Option Complaint) × Session :=
  let scan := Scan.ofString source
  let before := s.machine.sink.written.size
  let (answer, s) := s.submit fuel true scan.tokens
  let output := Output.out (s.machine.sink.textFrom before) ++
    .complain (scan.errors.map ScanError.message ++ answerLines answer)
  ((output, complaint? scan.errors answer), s)

/-- Runs the script of a file. -/
def runFile (file : String) (source : Except SourceError String) : Transcript :=
  match source with
  | .error e => { Output.complain [s!"Could not read {file}: {e.message}"] with exit := 1 }
  | .ok source =>
    match (interpret source (.initial none)).1 with
    | (output, none) => { output with exit := 0 }
    | (output, some complaint) => { output ++ .complain [complaint.message] with exit := 1 }

end Command

end ScriptLang
