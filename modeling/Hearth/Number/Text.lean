import Hearth.Number.Shortest

/-!
# Hearth.Number.Text

Two ways to write a binary number with its shortest digits. In running text it is always positional
and a whole number has no point; in data it keeps a point, and very large and very small numbers
have an exponent. Where two shortest texts are equally near, running text takes the larger number
and data the one with an even last digit.
-/

namespace Hearth.Number

/-- Digits padded with zeros so that the last of them stands in the place of one, or with a point
where it belongs. `decimals` is what follows the point of a whole number. -/
def positional (places : Places) (decimals : String) : String :=
  let digits := Nat.repr places.digits
  if 0 ≤ places.place then
    digits ++ String.ofList (List.replicate places.place.toNat '0') ++ decimals
  else
    let fraction := (-places.place).toNat
    if fraction < digits.length then
      String.ofList (digits.toList.take (digits.length - fraction)) ++ "."
        ++ String.ofList (digits.toList.drop (digits.length - fraction))
    else
      "0." ++ String.ofList (List.replicate (fraction - digits.length) '0') ++ digits

/-- A sign and at least two digits. -/
def exponentText (exponent : Int) : String :=
  let digits := Nat.repr exponent.natAbs
  (if exponent < 0 then "-" else "+") ++ (if digits.length < 2 then "0" ++ digits else digits)

/-- One digit, a point and the others if there are any, and the exponent of ten. -/
def scientific (places : Places) : String :=
  let digits := Nat.repr places.digits
  let exponent := places.place + digits.length - 1
  let mantissa :=
    match digits.toList with
    | [] => ""
    | [d] => String.ofList [d]
    | d :: rest => String.ofList (d :: '.' :: rest)
  mantissa ++ "e" ++ exponentText exponent

/-- The bits of a number without the sign bit, which is the highest of the 64. -/
def magnitudeBits (x : Float) : Nat :=
  x.toBits.toNat % 9223372036854775808

def isNegative (x : Float) : Bool :=
  9223372036854775808 ≤ x.toBits.toNat

/-- Running text: positional, the sign kept on a zero, names for the values that are not finite. -/
def display (x : Float) : String :=
  if x.isNaN then "NaN"
  else
    let sign := if isNegative x then "-" else ""
    if x.isInf then sign ++ "inf"
    else if magnitudeBits x = 0 then sign ++ "0"
    else sign ++ positional (shortest .upward (magnitudeBits x)) ""

/-- Data: a finite number with a point or an exponent. The point moves at most sixteen places to
the left of the last digit and at most four zeros follow it. -/
def dataText (x : Float) : String :=
  let sign := if isNegative x then "-" else ""
  if magnitudeBits x = 0 then sign ++ "0.0"
  else
    let places := shortest .toEven (magnitudeBits x)
    let magnitude := places.place + (Nat.repr places.digits).length
    if -5 < magnitude ∧ magnitude ≤ 16 then sign ++ positional places ".0"
    else sign ++ scientific places

end Hearth.Number
