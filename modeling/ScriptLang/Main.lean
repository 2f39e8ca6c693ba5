import ScriptLang.Command.TokenList
import ScriptLang.Command.Repl

/-!
# The command line

`run FILE` runs a script, `tokens FILE` lists its tokens, `repl` or nothing starts the interactive loop.
-/

namespace ScriptLang.Command

/-- Reads the text of a file. -/
def readSource (file : String) : IO (Except SourceError String) := do
  try
    return decodeSource (← IO.FS.readBinFile file)
  catch e =>
    match e with
    | .noFileOrDirectory .. => return .error .notFound
    | e => return .error (.other (toString e))

/-- Writes to both streams. -/
def write (output : Output) : IO Unit := do
  IO.print output.stdout
  IO.eprint output.stderr
  (← IO.getStdout).flush

/-- Writes what a command has to say and gives its exit code. -/
def finish (t : Transcript) : IO UInt32 := do
  write t.toOutput
  return t.exit.toUInt32

/-- The interactive loop on the standard input. -/
partial def replLoop (input : IO.FS.Stream) (r : Repl) : IO UInt32 := do
  write (.out r.prompt)
  let line ← input.getLine
  if line.isEmpty then return 0
  let (output, r) := r.feed line
  write output
  replLoop input r

/-- Starts the interactive loop. -/
def replMain : IO UInt32 := do
  write (.out Repl.banner)
  try
    replLoop (← IO.getStdin) .initial
  catch e =>
    write (.complain [s!"Error: {e}"])
    return 1

end ScriptLang.Command

open ScriptLang.Command

/-- The command line. -/
def main (args : List String) : IO UInt32 := do
  match args with
  | [] | ["repl"] => replMain
  | ["run", file] => finish (runFile file (← readSource file))
  | ["tokens", file] => finish (listTokens (← readSource file))
  | _ => finish { ScriptLang.Output.complain ["usage: run FILE | tokens FILE | repl"] with exit := 2 }
