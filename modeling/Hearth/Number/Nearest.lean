import Hearth.Number.Remainder

/-!
# Hearth.Number.Nearest

The whole number nearest to a binary number, in exact arithmetic.
-/

namespace Hearth.Number

/-- The whole number nearest to a quotient; a half goes up. -/
def roundHalfUp (numerator denominator : Nat) : Nat :=
  (2 * numerator + denominator) / (2 * denominator)

/-- The whole number nearest to a finite number without its sign; a half goes up. What is not finite
counts as zero. -/
def nearestWhole (x : Float) : Nat :=
  if x.isFinite then
    let (mantissa, exponent) := takeApart x
    -- Only one of the two powers is not one.
    roundHalfUp (mantissa * Nat.pow 2 exponent.toNat) (Nat.pow 2 (-exponent).toNat)
  else 0

end Hearth.Number
