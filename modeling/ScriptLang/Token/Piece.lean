import ScriptLang.Text.Blank
import ScriptLang.Token.Recognizer
import ScriptLang.Token.Literal

/-!
# Pieces of a source text

A source text is cut into pieces: runs of blanks, comments, tokens, characters that start no token, and a
string or comment that is never closed.  The pieces in their order are the text.
-/

namespace ScriptLang

/-- A piece of a source text. -/
inductive Piece where
  | blank (text : List Char)
  | comment (text : List Char)
  | token (kind : Kind) (text : List Char)
  | stray (char : Char)
  | openString (text : List Char)
  | openComment (text : List Char)
deriving Repr

namespace Piece

/-- The characters of a piece. -/
def chars : Piece → List Char
  | blank text | comment text | token _ text | openString text | openComment text => text
  | stray char => [char]

/-- How many characters a block comment takes up to and including its first `*/`, in the text after the
characters that open it. -/
def commentEnd : List Char → Option Nat
  | [] => none
  | '*' :: '/' :: _ => some 2
  | _ :: cs => (commentEnd cs).map (· + 1)

/-- The piece that starts at a quote, in front of the text `cs`. -/
def ofQuote (cs : List Char) : Piece :=
  match StringLiteral.closingQuote cs with
  | some n =>
    .token (.string (String.ofList (StringLiteral.decode (cs.take n)))) ('"' :: cs.take (n + 1))
  | none => .openString ('"' :: cs)

/-- The piece that starts at the opening of a block comment, in front of the text `cs`. -/
def ofBlockComment (cs : List Char) : Piece :=
  match commentEnd cs with
  | some n => .comment ('/' :: '*' :: cs.take n)
  | none => .openComment ('/' :: '*' :: cs)

/-- The token at the start of a text, or the stray character `c` in its place. -/
def ofRecognizers (c : Char) (cs : List Char) : Piece :=
  match Recognizer.longest Recognizer.all (c :: cs) with
  | some m => .token m.kind ((c :: cs).take m.length)
  | none => .stray c

/-- The first piece of a text that starts with the character `c`. -/
def first (c : Char) (cs : List Char) : Piece :=
  if Text.isBlank c then .blank (c :: cs.takeWhile Text.isBlank)
  else
    match c, cs with
    | '/', '/' :: cs => .comment ('/' :: '/' :: cs.takeWhile (· != '\n'))
    | '/', '*' :: cs => ofBlockComment cs
    | '"', cs => ofQuote cs
    | c, cs => ofRecognizers c cs

/-- The pieces of a text. -/
def split : List Char → List Piece
  | [] => []
  | c :: cs =>
    let piece := first c cs
    piece :: split (cs.drop (piece.chars.length - 1))
termination_by cs => cs.length
decreasing_by simp only [List.length_drop, List.length_cons]; omega

end Piece

end ScriptLang
