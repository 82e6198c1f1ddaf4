import Hearth.Number.Digits

/-!
# Hearth.Number.Decimal

Reading a decimal number into a binary one. The value is the binary number nearest to the decimal
one; what is too large becomes infinite and what is too small becomes zero.

The written form is a sign, digits with at most one point and at least one digit, and an exponent,
of which only the digits are required; or `inf`, `infinity` or `nan` in any case, with a sign.
-/

namespace Hearth.Number

/-- A decimal number `significand · 10 ^ exponent`. -/
structure Decimal where
  significand : Nat
  exponent : Int
deriving Repr, DecidableEq

namespace Decimal

/-- The nearest binary number. A decimal exponent beyond 400 decides the value alone, once the
number of digits is counted in. -/
def toFloat (d : Decimal) : Float :=
  if d.significand = 0 then 0.0
  else
    let magnitude := d.exponent + (Nat.toDigits 10 d.significand).length
    if magnitude > 400 then 1.0 / 0.0
    else if magnitude < -400 then 0.0
    else if d.exponent < 0 then Float.ofScientific d.significand true (-d.exponent).toNat
    else Float.ofScientific d.significand false d.exponent.toNat

/-- The exponent after its letter: a sign and digits. -/
def readExponent? : List Char → Option Int
  | '-' :: cs => magnitude? cs |>.map fun n => -(n : Int)
  | '+' :: cs => magnitude? cs |>.map fun n => (n : Int)
  | cs => magnitude? cs |>.map fun n => (n : Int)
where
  magnitude? (cs : List Char) : Option Nat :=
    if cs ≠ [] ∧ cs.all isDigit then some (ofDigits cs) else none

/-- Digits, a point and more digits, and an exponent; nothing may follow. -/
def read? (cs : List Char) : Option Decimal := do
  let (whole, rest) := spanDigits cs
  let (fraction, rest) :=
    match rest with
    | '.' :: rest => spanDigits rest
    | rest => ([], rest)
  guard (whole ≠ [] ∨ fraction ≠ [])
  let exponent ←
    match rest with
    | [] => some 0
    | 'e' :: rest => readExponent? rest
    | 'E' :: rest => readExponent? rest
    | _ => none
  return ⟨ofDigits (whole ++ fraction), exponent - fraction.length⟩

end Decimal

/-- Reads an unsigned number or one of the names. -/
def readUnsigned? (cs : List Char) : Option Float :=
  match (cs.map Char.toLower) with
  | ['i', 'n', 'f'] => some (1.0 / 0.0)
  | ['i', 'n', 'f', 'i', 'n', 'i', 't', 'y'] => some (1.0 / 0.0)
  | ['n', 'a', 'n'] => some (0.0 / 0.0)
  | _ => (Decimal.read? cs).map Decimal.toFloat

def readFloat? (s : String) : Option Float :=
  match s.toList with
  | '-' :: cs => (readUnsigned? cs).map fun x => -x
  | '+' :: cs => readUnsigned? cs
  | cs => readUnsigned? cs

end Hearth.Number
