/-!
# Reading decimal digits

A number in a script is a run of digits, possibly followed by a point and another run.  It denotes the
double nearest to that decimal.
-/

namespace ScriptLang.Number

/-- The natural number that a run of digits denotes. -/
def ofDigits (ds : List Char) : Nat :=
  ds.foldl (fun n d => 10 * n + (d.toNat - '0'.toNat)) 0

/-- The number with the digits `whole` before and `fraction` after the point. -/
def read (whole fraction : List Char) : Float :=
  Float.ofScientific (ofDigits (whole ++ fraction)) true fraction.length

end ScriptLang.Number
