import ScriptLang.Number.Binary

/-!
# Exact remainders

The remainder of `x` by `y` is `x - n * y` for the quotient `n` rounded toward zero.  It has the sign of
`x`, and no rounding is needed: over the smaller of the two exponents it is the remainder of two
natural numbers.
-/

namespace ScriptLang.Number

/-- The remainder of two finite magnitudes, as a mantissa over the smaller exponent. -/
def remainderParts (m : Nat) (p : Int) (n : Nat) (q : Int) : Nat × Int :=
  let e := min p q
  ((m * pow2 (p - e).toNat) % (n * pow2 (q - e).toNat), e)

/-- The remainder of two numbers: not a number if `x` is infinite or `y` is zero, `x` itself if `y` is
infinite. -/
def remainder (x y : Float) : Float :=
  match Binary.ofFloat x, Binary.ofFloat y with
  | .finite .., .infinite _ => x
  | .finite negative m p, .finite _ n q =>
    if n = 0 then 0.0 / 0.0
    else
      let (r, e) := remainderParts m p n q
      let magnitude := (Float.ofNat r).scaleB e
      if negative then -magnitude else magnitude
  | _, _ => 0.0 / 0.0

/-- 7.5 leaves 1.5 when divided by 2. -/
example : remainderParts 15 (-1) 1 1 = (3, -1) := by decide

end ScriptLang.Number
