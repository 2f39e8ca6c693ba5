import ScriptLang.Token.Basic
import ScriptLang.Number.Reading

/-!
# Recognizers

A recognizer looks at the text that lies ahead and says which token starts there and how many characters
it takes.  Of all recognizers that find a token the one that takes most decides; the first of equals wins.
-/

namespace ScriptLang

/-- A token found at the start of a text: its kind and its number of characters. -/
structure Match where
  kind : Kind
  length : Nat
deriving Repr

/-- A rule that finds tokens of one sort. -/
abbrev Recognizer := List Char → Option Match

namespace Recognizer

/-- Finds one symbol by its spelling. -/
def symbol (s : Symbol) : Recognizer := fun cs =>
  if s.spelling.toList.isPrefixOf cs then some ⟨.symbol s, s.spelling.length⟩ else none

/-- The characters of words: the ASCII letters and the underscore, but no digits. -/
def isWordChar (c : Char) : Bool :=
  c.isAlpha || c == '_'

/-- The kind of a word: a keyword if the word is reserved. -/
def wordKind (word : List Char) : Kind :=
  match Keyword.ofSpelling? word with
  | some k => .keyword k
  | none => .identifier

/-- Finds the longest run of word characters. -/
def word : Recognizer := fun cs =>
  match cs.takeWhile isWordChar with
  | [] => none
  | w => some ⟨wordKind w, w.length⟩

/-- The digits after a point at the start of the text. -/
def fractionDigits : List Char → List Char
  | '.' :: cs => cs.takeWhile Char.isDigit
  | _ => []

/-- Finds a run of digits, with a point and a second run if both follow. -/
def number : Recognizer := fun cs =>
  match cs.takeWhile Char.isDigit with
  | [] => none
  | whole =>
    match fractionDigits (cs.drop whole.length) with
    | [] => some ⟨.number (Number.read whole []), whole.length⟩
    | fraction => some ⟨.number (Number.read whole fraction), whole.length + 1 + fraction.length⟩

/-- All recognizers: one for each symbol, one for words and one for numbers.  Strings are not among them,
since a quote that is never closed is not a token. -/
def all : List Recognizer :=
  Symbol.all.map symbol ++ [word, number]

/-- The longest match that any of the recognizers finds, the first of several equally long ones. -/
def longest : List Recognizer → Recognizer
  | [], _ => none
  | r :: rs, cs =>
    match r cs, longest rs cs with
    | none, later => later
    | some m, none => some m
    | some m, some later => if m.length < later.length then some later else some m

example : (all.length, Symbol.all.length) = (24, 22) := by decide

end Recognizer

end ScriptLang
