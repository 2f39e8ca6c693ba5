/-!
# Text as bytes

Output is counted in bytes, so it may be cut inside a character.  What is left of a cut character reads as
one replacement character.
-/

namespace ScriptLang.Text

/-- The text of some bytes of which the last few may be part of a character only: at most `cut` bytes are
given up at the end, for one replacement character. -/
def decodeCut (bytes : ByteArray) : Nat → String
  | 0 => (String.fromUTF8? bytes).getD ""
  | cut + 1 =>
    match String.fromUTF8? bytes with
    | some s => s
    | none => decodeCut (bytes.extract 0 (bytes.size - 1)) cut

/-- The text of bytes that were cut off at an arbitrary place. -/
def ofBytes (bytes : ByteArray) : String :=
  match String.fromUTF8? bytes with
  | some s => s
  | none => decodeCut bytes 3 ++ "\uFFFD"

end ScriptLang.Text
