import ScriptLang.Token.Piece

/-!
# Scanning

The tokens of a source text and what is wrong with it, each with the line on which its piece starts.
Scanning never stops early: after an error it goes on behind the piece at fault.
-/

namespace ScriptLang

/-- What can be wrong with the characters of a source text. -/
inductive ScanError where
  | unexpectedCharacter (char : Char) (line : Nat)
  | unterminatedString (line : Nat)
  | unterminatedComment (line : Nat)
deriving DecidableEq, Repr

/-- The wording of a scan error. -/
def ScanError.message : ScanError → String
  | unexpectedCharacter char line => s!"Unexpected character <{char}> on line <{line}>"
  | unterminatedString line => s!"Unterminated string on line {line}"
  | unterminatedComment line => s!"Unterminated block comment starting at line {line}"

/-- The result of scanning: the tokens, the last of which marks the end, and the errors. -/
structure Scan where
  tokens : List Token
  errors : List ScanError
deriving Repr

namespace Scan

/-- The tokens and errors of the pieces of a text whose first piece starts on the given line. -/
def ofPieces (line : Nat) : List Piece → Scan
  | [] => ⟨[⟨.eof, "", line⟩], []⟩
  | piece :: pieces =>
    let rest := ofPieces (line + piece.chars.count '\n') pieces
    match piece with
    | .blank _ | .comment _ => rest
    | .token kind text => { rest with tokens := ⟨kind, String.ofList text, line⟩ :: rest.tokens }
    | .stray char => { rest with errors := .unexpectedCharacter char line :: rest.errors }
    | .openString _ => { rest with errors := .unterminatedString line :: rest.errors }
    | .openComment _ => { rest with errors := .unterminatedComment line :: rest.errors }

/-- The tokens and errors of a source text. -/
def ofChars (source : List Char) : Scan :=
  ofPieces 1 (Piece.split source)

/-- The tokens and errors of a source text. -/
def ofString (source : String) : Scan :=
  ofChars source.toList

/-- Whether the text had no errors. -/
def isOk (scan : Scan) : Bool :=
  scan.errors.isEmpty

/-- How much a token opens: one for an opening brace, minus one for a closing brace. -/
def depthOf (token : Token) : Int :=
  match token.kind with
  | .symbol .leftBrace => 1
  | .symbol .rightBrace => -1
  | _ => 0

/-- The number of opening braces less the number of closing braces. -/
def netDepth : List Token → Int
  | [] => 0
  | t :: ts => depthOf t + netDepth ts

/-- How many of the braces that a text opens it leaves open. -/
def braceDepth (scan : Scan) : Int :=
  netDepth scan.tokens

end Scan

end ScriptLang
