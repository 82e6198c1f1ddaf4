import Hearth.Number.Remainder
import Hearth.Time.Duration

/-!
# Hearth.Time.Seconds

Lengths of time given as a binary number of seconds, to the nearest nanosecond.
-/

namespace Hearth

/-- The whole number nearest to a quotient; a half goes to the even neighbour. -/
def roundHalfEven (numerator denominator : Nat) : Nat :=
  let quotient := numerator / denominator
  let rest := numerator % denominator
  if 2 * rest < denominator then quotient
  else if denominator < 2 * rest then quotient + 1
  else quotient + quotient % 2

/-- A number of seconds that is not negative and fits into 64 bits. -/
def Duration.ofSeconds? (seconds : Float) : Option Duration :=
  if seconds ≥ 0.0 && seconds < 18446744073709551616.0 then
    let (mantissa, exponent) := Number.takeApart seconds
    some ⟨roundHalfEven (mantissa * 1000000000 * Nat.pow 2 exponent.toNat)
      (Nat.pow 2 (-exponent).toNat)⟩
  else none

end Hearth
