/-!
# Hearth.Number.Shortest

The fewest decimal digits that read back as a given binary number, and of those the nearest to it.

A positive finite number is `mantissa · 2 ^ exponent`. The reals that round to it form an interval,
closed when the mantissa is even. For one digit, two, and so on, the two neighbours of the number on
the decimal grid with so many digits are tested against the interval in exact arithmetic; the first
grid with a hit gives the digits. Seventeen digits always suffice. A number right in the middle
between two neighbours that both read back goes where a `Tie` says.
-/

namespace Hearth.Number

/-- Which of two equally near neighbours is taken. -/
inductive Tie
  | upward
  | toEven
deriving DecidableEq, Repr

/-- A positive finite number taken apart. `tight` marks the first mantissa of a binade, whose lower
neighbour is only half as far away as the upper one. -/
structure Parts where
  mantissa : Nat
  exponent : Int
  tight : Bool
deriving Repr, DecidableEq

/-- The parts of a positive finite number of 64 bits, from its bits without the sign. The lowest 52
bits are the mantissa without its leading bit. -/
def Parts.ofBits (bits : Nat) : Parts :=
  let field : Nat := bits / 4503599627370496
  let fraction : Nat := bits % 4503599627370496
  if field = 0 then ⟨fraction, -1074, false⟩
  else ⟨4503599627370496 + fraction, (field : Int) - 1075, fraction = 0 && 1 < field⟩

/-- Decimal digits as one number, and the place of the last of them: `digits · 10 ^ place`. -/
structure Places where
  digits : Nat
  place : Int
deriving Repr, DecidableEq

/-- A fraction of natural numbers, kept unreduced. -/
structure Fraction where
  numerator : Nat
  denominator : Nat
deriving Repr, DecidableEq

namespace Fraction

def scale (f : Fraction) (base : Nat) (power : Int) : Fraction :=
  if power < 0 then ⟨f.numerator, f.denominator * base.pow (-power).toNat⟩
  else ⟨f.numerator * base.pow power.toNat, f.denominator⟩

def lt (f g : Fraction) : Bool :=
  f.numerator * g.denominator < g.numerator * f.denominator

def le (f g : Fraction) : Bool :=
  f.numerator * g.denominator ≤ g.numerator * f.denominator

def floor (f : Fraction) : Nat :=
  f.numerator / f.denominator

end Fraction

namespace Parts

/-- The number itself, and the ends of the interval of reals that round to it. -/
def value (p : Parts) : Fraction :=
  (Fraction.mk p.mantissa 1).scale 2 p.exponent

def lower (p : Parts) : Fraction :=
  if p.tight then (Fraction.mk (4 * p.mantissa - 1) 4).scale 2 p.exponent
  else (Fraction.mk (2 * p.mantissa - 1) 2).scale 2 p.exponent

def upper (p : Parts) : Fraction :=
  (Fraction.mk (2 * p.mantissa + 1) 2).scale 2 p.exponent

/-- Whether a real rounds to the number. -/
def covers (p : Parts) (f : Fraction) : Bool :=
  if p.mantissa % 2 = 0 then p.lower.le f && f.le p.upper
  else p.lower.lt f && f.lt p.upper

/-- The number of digits before the point of `value`, zero or negative below one tenth: the least
`k` with `value < 10 ^ k`, found from `guess` upwards within `steps`. -/
def magnitudeFrom (p : Parts) (guess : Int) : Nat → Int
  | 0 => guess
  | steps + 1 =>
    if p.value.lt ((Fraction.mk 1 1).scale 10 guess) then guess
    else p.magnitudeFrom (guess + 1) steps

def magnitude (p : Parts) : Int :=
  let binary := p.exponent + (p.mantissa.log2 : Int)
  p.magnitudeFrom (Int.fdiv (binary * 30103) 100000 - 1) 6

/-- The neighbour on the grid of `10 ^ place` that rounds to the number, the nearer one if both do.
-/
def hit? (p : Parts) (tie : Tie) (place : Int) : Option Places :=
  let scaled := p.value.scale 10 (-place)
  let below := scaled.floor
  let covered (digits : Nat) : Bool :=
    0 < digits && p.covers ((Fraction.mk digits 1).scale 10 place)
  let low := covered below
  let high := covered (below + 1)
  let middle : Fraction := ⟨2 * below + 1, 2⟩
  let takesBelow :=
    match tie with
    | .upward => scaled.lt middle
    | .toEven => if below % 2 = 0 then scaled.le middle else scaled.lt middle
  if low && (!high || takesBelow) then some ⟨below, place⟩
  else if high then some ⟨below + 1, place⟩
  else none

/-- Tries `count` digits, then one more, for at most `steps` grids. -/
def search (p : Parts) (tie : Tie) (magnitude : Int) (count : Nat) : Nat → Places
  | 0 => ⟨(p.value.scale 10 (17 - magnitude)).floor, magnitude - 17⟩
  | steps + 1 =>
    match p.hit? tie (magnitude - count) with
    | some places => places
    | none => p.search tie magnitude (count + 1) steps

end Parts

namespace Places

/-- Moves zeros at the end of the digits into the place. -/
def trim (places : Places) : Nat → Places
  | 0 => places
  | steps + 1 =>
    if places.digits ≠ 0 ∧ places.digits % 10 = 0
    then (Places.mk (places.digits / 10) (places.place + 1)).trim steps
    else places

end Places

/-- The shortest digits of a positive finite number, given by its bits without the sign. -/
def shortest (tie : Tie) (bits : Nat) : Places :=
  let p := Parts.ofBits bits
  (p.search tie p.magnitude 1 17).trim 20

end Hearth.Number
