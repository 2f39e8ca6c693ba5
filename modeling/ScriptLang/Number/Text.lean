import ScriptLang.Number.Binary
import ScriptLang.Number.Shortest

/-!
# The text of a number

Numbers are written with the fewest digits that read back, always in positional notation.  Whole
numbers have no point, a negative zero keeps its sign.
-/

namespace ScriptLang.Number

/-- The digits of a fraction without the zeros at its end. -/
def dropTrailingZeros (ds : List Char) : List Char :=
  (ds.reverse.dropWhile (· == '0')).reverse

/-- A decimal in positional notation. -/
def Decimal.positional (d : Decimal) : List Char :=
  let ds := Nat.toDigits 10 d.digits
  let places := (-d.exponent).toNat
  if places = 0 then ds ++ List.replicate d.exponent.toNat '0'
  else
    let padded := List.replicate (places + 1 - ds.length) '0' ++ ds
    let whole := padded.take (padded.length - places)
    match dropTrailingZeros (padded.drop (padded.length - places)) with
    | [] => whole
    | fraction => whole ++ '.' :: fraction

/-- The text of a number that has been taken apart. -/
def Binary.text : Binary → String
  | .nan => "NaN"
  | .infinite negative => if negative then "-inf" else "inf"
  | .finite negative m q =>
    let digits := if m = 0 then ['0'] else (shortest m q).positional
    String.ofList (if negative then '-' :: digits else digits)

/-- The text of a number. -/
def text (x : Float) : String :=
  (Binary.ofFloat x).text

example : (⟨12345, -2⟩ : Decimal).positional = "123.45".toList := by decide
example : (⟨10, -3⟩ : Decimal).positional = "0.01".toList := by decide
example : (⟨5, 3⟩ : Decimal).positional = "5000".toList := by decide

end ScriptLang.Number
