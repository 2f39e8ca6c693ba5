import ScriptLang.Command.Run

/-!
# Listing tokens

One token a row: its line, unless the row above has the same, then what it is and how it is written.
-/

namespace ScriptLang.Command

/-- A text with blanks in front of it, up to a width. -/
def padLeft (width : Nat) (s : String) : String :=
  "".pushn ' ' (width - s.length) ++ s

/-- A text with blanks behind it, up to a width. -/
def padRight (width : Nat) (s : String) : String :=
  s.pushn ' ' (width - s.length)

/-- The row of a token below a row with the given line. -/
def tokenRow (lineAbove : Nat) (t : Token) : String :=
  let margin := if t.line = lineAbove then "   | " else padLeft 4 (toString t.line) ++ " "
  margin ++ padRight 16 t.kind.name ++ " " ++ t.lexeme ++ "\n"

/-- The rows of tokens below a row with the given line. -/
def tokenRows (lineAbove : Nat) : List Token → String
  | [] => ""
  | t :: ts => tokenRow lineAbove t ++ tokenRows t.line ts

/-- Lists the tokens of a script. -/
def listTokens (source : Except SourceError String) : Transcript :=
  match source with
  | .error e => { Output.complain [s!"IO error: {e.message}"] with exit := 1 }
  | .ok source =>
    let scan := Scan.ofString source
    let rows := Output.out (tokenRows 0 scan.tokens)
    let errors := scan.errors.map ScanError.message
    if scan.isOk then { rows with exit := 0 }
    else
      { rows ++ .complain (errors ++ [(Complaint.unscannable errors.length).message]) with exit := 1 }

end ScriptLang.Command
