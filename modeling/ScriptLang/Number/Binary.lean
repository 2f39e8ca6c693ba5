/-!
# Double-precision numbers, taken apart

A finite double is `± mantissa * 2 ^ exponent` with a natural mantissa below `2 ^ 53`.  Everything
that has to be exact about numbers (their text, their remainders) is computed on this form.
-/

namespace ScriptLang.Number

/-- A power of two. -/
def pow2 (n : Nat) : Nat := Nat.pow 2 n

/-- A power of ten. -/
def pow10 (n : Nat) : Nat := Nat.pow 10 n

/-- What a double stands for. -/
inductive Binary where
  | nan
  | infinite (negative : Bool)
  | finite (negative : Bool) (mantissa : Nat) (exponent : Int)
deriving DecidableEq, Repr

/-- The number whose sixty-four bits are `bits`: a sign bit, eleven exponent bits, fifty-two
fraction bits.  The largest exponent field marks infinities and NaNs, the smallest the numbers
without a leading one. -/
def Binary.ofBits (bits : Nat) : Binary :=
  let negative := bits / pow2 63 % 2 == 1
  let field : Nat := bits / pow2 52 % pow2 11
  let fraction : Nat := bits % pow2 52
  if field = pow2 11 - 1 then
    if fraction = 0 then .infinite negative else .nan
  else if field = 0 then
    .finite negative fraction (-1074)
  else
    .finite negative (pow2 52 + fraction) ((field : Int) - 1075)

/-- The number that a `Float` holds. -/
def Binary.ofFloat (x : Float) : Binary :=
  .ofBits x.toBits.toNat

example : Binary.ofBits 0x3FF0000000000000 = .finite false (pow2 52) (-52) := by decide
example : Binary.ofBits 0x8000000000000001 = .finite true 1 (-1074) := by decide
example : Binary.ofBits 0xFFF0000000000000 = .infinite true := by decide

end ScriptLang.Number
