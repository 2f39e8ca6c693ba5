import ScriptLang.Command.Run

/-!
# The interactive loop

Lines are collected until no brace is open any more; then they are a submission to the session.  A
submission that fails is told of and the loop goes on.
-/

namespace ScriptLang.Command

/-- The state of the loop: the session, and the lines that wait for a closing brace. -/
structure Repl where
  session : Session
  pending : String

namespace Repl

/-- The loop before its first line. -/
def initial : Repl :=
  ⟨.initial none, ""⟩

/-- What the loop says first. -/
def banner : String :=
  "Welcome to the toy REPL!\nEOF to exit. (Ctrl+D on *nix, Ctrl+Z on Windows)\n"

/-- What the loop says before each line. -/
def prompt (r : Repl) : String :=
  if r.pending.isEmpty then "> " else ". "

/-- Whether lines are a submission: at least as many braces are closed as are opened. -/
def isComplete (lines : String) : Bool :=
  (Scan.ofString lines).braceDepth ≤ 0

/-- Submits lines to the session. -/
def submit (lines : String) (s : Session) : Output × Session :=
  let ((output, complaint), s) := interpret lines s
  match complaint with
  | none => (output, s)
  | some c => (output ++ .complain ["Error: " ++ c.message], s)

/-- Takes one more line, with the line break at its end. -/
def feed (line : String) (r : Repl) : Output × Repl :=
  let lines := r.pending ++ line
  if isComplete lines then
    let (output, session) := submit lines r.session
    (output, ⟨session, ""⟩)
  else (.empty, { r with pending := lines })

/-- Takes lines until they end, or until one is no text.  The prompt stands before each line and before
the end. -/
def run (r : Repl) : List (Except SourceError String) → Transcript
  | [] => { Output.out r.prompt with exit := 0 }
  | .error e :: _ => { Output.out r.prompt ++ .complain ["Error: " ++ e.message] with exit := 1 }
  | .ok line :: lines =>
    let (output, next) := r.feed line
    let rest := run next lines
    { Output.out r.prompt ++ output ++ rest.toOutput with exit := rest.exit }

/-- The lines of some bytes, each with the line break at its end; the last one may have none. -/
def splitLines (bytes : List UInt8) : List (List UInt8) :=
  bytes.foldr
    (fun b lines =>
      match lines with
      | line :: rest => if b = 10 then [b] :: line :: rest else (b :: line) :: rest
      | [] => [[b]])
    []

/-- The whole loop on an input that is known beforehand. -/
def transcript (input : ByteArray) : Transcript :=
  let lines := (splitLines input.toList).map fun line => decodeSource ⟨line.toArray⟩
  let rest := initial.run lines
  { Output.out banner ++ rest.toOutput with exit := rest.exit }

end Repl

end ScriptLang.Command
