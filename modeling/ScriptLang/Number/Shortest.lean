import ScriptLang.Number.Binary

/-!
# The shortest decimal that reads back

Of all decimals that round to a given double, the ones with the fewest digits are looked for on the
grids of one, two, … seventeen digits.  On each grid only the two neighbours of the number matter:
if any point of the grid rounds to the number, so does one of them.
-/

namespace ScriptLang.Number

/-- The decimal `digits * 10 ^ exponent`. -/
structure Decimal where
  digits : Nat
  exponent : Int
deriving DecidableEq, Repr

namespace Shortest

/-- `mantissa * 2 ^ exponent`, compared with decimals `n * 10 ^ k` in natural numbers:
`unit` is what one step of the grid counts and `quarter` a quarter of `2 ^ exponent`, both brought to
one denominator. -/
structure Scale where
  unit : Nat
  quarter : Nat

/-- The common scale of the binary grid `2 ^ q / 4` and the decimal grid `10 ^ k`. -/
def scale (q k : Int) : Scale where
  unit := 4 * pow10 k.toNat * pow2 (-q).toNat
  quarter := pow2 q.toNat * pow10 (-k).toNat

/-- How many quarters below the number its interval starts: the next smaller double is nearer when
the mantissa is the least of its exponent. -/
def below (m : Nat) (q : Int) : Nat :=
  if m = pow2 52 ∧ q ≠ -1074 then 1 else 2

/-- Whether `n * 10 ^ k` rounds to `m * 2 ^ q`.  The ends of the interval belong to the double with an
even mantissa. -/
def roundsTo (m : Nat) (q k : Int) (n : Nat) : Bool :=
  let s := scale q k
  let lo := (4 * m - below m q) * s.quarter
  let hi := (4 * m + 2) * s.quarter
  let x := n * s.unit
  if m % 2 = 0 then lo ≤ x && x ≤ hi else lo < x && x < hi

/-- The neighbour of `m * 2 ^ q` on the grid `10 ^ k` that rounds to it, if one does: the nearer of two,
the larger one if both are equally near. -/
def onGrid (m : Nat) (q k : Int) : Option Nat :=
  let s := scale q k
  let v := 4 * m * s.quarter
  let n := v / s.unit
  match roundsTo m q k n, roundsTo m q k (n + 1) with
  | true, true => if (n + 1) * s.unit - v ≤ v - n * s.unit then some (n + 1) else some n
  | true, false => some n
  | false, true => some (n + 1)
  | false, false => none

/-- The number of decimal digits of a natural number, none for zero. -/
def digitCount (n : Nat) : Nat :=
  if n = 0 then 0 else (Nat.toDigits 10 n).length

/-- The exponent `e` with `10 ^ e ≤ m * 2 ^ q < 10 ^ (e + 1)`, for a positive mantissa. -/
def magnitude (m : Nat) (q : Int) : Int :=
  let num := m * pow2 q.toNat
  let den := pow2 (-q).toNat
  if den ≤ num then (digitCount (num / den) : Int) - 1
  else -(digitCount ((den - 1) / num) : Int)

/-- The first hit on the grids `10 ^ k`, `10 ^ (k - 1)`, …, at most `grids` of them. -/
def search (m : Nat) (q : Int) : Nat → Int → Decimal
  | 0, k => ⟨4 * m * (scale q k).quarter / (scale q k).unit, k⟩
  | grids + 1, k =>
    match onGrid m q k with
    | some n => ⟨n, k⟩
    | none => search m q grids (k - 1)

end Shortest

/-- The decimal with the fewest digits that rounds to `m * 2 ^ q`, for a positive mantissa; of several
the nearest.  Seventeen digits always suffice. -/
def shortest (m : Nat) (q : Int) : Decimal :=
  Shortest.search m q 17 (Shortest.magnitude m q)

example : shortest 1 (-1074) = ⟨5, -324⟩ := by decide +kernel
example : shortest (pow2 52) (-52) = ⟨1, 0⟩ := by decide +kernel

end ScriptLang.Number
