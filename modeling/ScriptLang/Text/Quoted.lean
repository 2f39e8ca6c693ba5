import ScriptLang.Text.Printable

/-!
# Quoted text

A text in double quotes that shows each of its characters: quotes and backslashes are escaped, line breaks
and tabs have short escapes, and what cannot be printed is given by its code point.
-/

namespace ScriptLang.Text

/-- How quoted text shows a character. -/
def quoteChar (c : Char) : List Char :=
  match c with
  | '"' => ['\\', '"']
  | '\\' => ['\\', '\\']
  | '\n' => ['\\', 'n']
  | '\r' => ['\\', 'r']
  | '\t' => ['\\', 't']
  | '\x00' => ['\\', '0']
  | c =>
    if isPrintable c then [c]
    else ['\\', 'u', '\x7b'] ++ Nat.toDigits 16 c.toNat ++ ['\x7d']

/-- A text in quotes. -/
def quote (s : String) : String :=
  String.ofList ('"' :: s.toList.flatMap quoteChar ++ ['"'])

example : quote "a\"b" = "\"a\\\"b\"" := by decide +kernel
example : quote "\x01" = "\"\\u\x7b1\x7d\"" := by decide +kernel

end ScriptLang.Text
