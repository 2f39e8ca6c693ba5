/-!
# String literals

Inside a string a backslash and the character after it stand together, so an escaped quote does not end
the string.  Four pairs stand for one character; every other pair stands for itself.
-/

namespace ScriptLang.StringLiteral

/-- The index of the quote that closes a string, in the text after its opening quote. -/
def closingQuote : List Char → Option Nat
  | [] => none
  | '"' :: _ => some 0
  | '\\' :: _ :: cs => (closingQuote cs).map (· + 2)
  | _ :: cs => (closingQuote cs).map (· + 1)

/-- What a backslash followed by the given character stands for. -/
def escape : Char → List Char
  | 'n' => ['\n']
  | 't' => ['\t']
  | '"' => ['"']
  | '\\' => ['\\']
  | c => ['\\', c]

/-- The text that the body of a string literal stands for. -/
def decode : List Char → List Char
  | '\\' :: c :: cs => escape c ++ decode cs
  | c :: cs => c :: decode cs
  | [] => []

/-- A body that stands for the given text: quotes and backslashes are escaped. -/
def encode : List Char → List Char
  | [] => []
  | c :: cs => if c = '"' ∨ c = '\\' then '\\' :: c :: encode cs else c :: encode cs

theorem decode_encode (cs : List Char) : decode (encode cs) = cs := by
  induction cs with
  | nil => rfl
  | cons c cs ih =>
    by_cases h : c = '"' ∨ c = '\\'
    · rcases h with rfl | rfl <;> simp [encode, decode, escape, ih]
    · obtain ⟨hq, hb⟩ := not_or.1 h
      simp [encode, decode, hq, hb, ih]

end ScriptLang.StringLiteral
