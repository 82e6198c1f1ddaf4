import Hearth.Number.Shortest
import Hearth.Number.Text

/-!
# Hearth.Number.Remainder

The remainder of a division of binary numbers, which is exact: both numbers are whole multiples of
one power of two, and so is the remainder.
-/

namespace Hearth.Number

/-- A finite number without its sign as `mantissa · 2 ^ exponent`. -/
def takeApart (x : Float) : Nat × Int :=
  let p := Parts.ofBits (magnitudeBits x)
  (p.mantissa, p.exponent)

/-- The remainder of `|x|` and `|m|`. -/
def absRemainder (x m : Float) : Float :=
  let (a, ea) := takeApart x
  let (b, eb) := takeApart m
  let e := min ea eb
  let r := (a * Nat.pow 2 (ea - e).toNat) % (b * Nat.pow 2 (eb - e).toNat)
  (Float.ofNat r).scaleB e

/-- The remainder that lies between zero and `m`, for a positive finite `m`. A remainder just below
zero is raised by `m`, and may be rounded to `m` then. -/
def modulo (x m : Float) : Float :=
  if x.isFinite then
    let r := absRemainder x m
    if isNegative x && r > 0.0 then -r + m else r
  else 0.0 / 0.0

def degreesToRadians (x : Float) : Float :=
  x * (3.14159265358979323846264338327950288 / 180.0)

def radiansToDegrees (x : Float) : Float :=
  x * (180.0 / 3.14159265358979323846264338327950288)

end Hearth.Number
