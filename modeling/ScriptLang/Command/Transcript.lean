/-!
# Transcripts

What a command writes to its two output streams, and the code it exits with.
-/

namespace ScriptLang

/-- What a command has written. -/
structure Output where
  stdout : String
  stderr : String
deriving DecidableEq, Repr

namespace Output

/-- Nothing written. -/
def empty : Output :=
  ⟨"", ""⟩

/-- One output behind another, on both streams. -/
def append (a b : Output) : Output :=
  ⟨a.stdout ++ b.stdout, a.stderr ++ b.stderr⟩

instance : Append Output := ⟨append⟩

/-- Text on the first stream. -/
def out (text : String) : Output :=
  ⟨text, ""⟩

/-- Lines on the second stream. -/
def complain (lines : List String) : Output :=
  ⟨"", String.join (lines.map (· ++ "\n"))⟩

end Output

/-- The output of a finished command and its exit code. -/
structure Transcript extends Output where
  exit : Nat
deriving DecidableEq, Repr

/-- Why the text of a script cannot be had. -/
inductive SourceError where
  | notFound
  | invalidUtf8
  | other (reason : String)
deriving DecidableEq, Repr

/-- The wording of a source error. -/
def SourceError.message : SourceError → String
  | notFound => "No such file or directory (os error 2)"
  | invalidUtf8 => "stream did not contain valid UTF-8"
  | other reason => reason

/-- The text that some bytes stand for. -/
def decodeSource (bytes : ByteArray) : Except SourceError String :=
  match String.fromUTF8? bytes with
  | some s => .ok s
  | none => .error .invalidUtf8

end ScriptLang
