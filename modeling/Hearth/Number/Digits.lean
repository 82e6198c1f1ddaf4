/-!
# Hearth.Number.Digits

Runs of decimal digits: the number that a run denotes, and whole numbers with an upper limit.
-/

namespace Hearth.Number

def isDigit (c : Char) : Bool :=
  '0' ≤ c && c ≤ '9'

def digitValue (c : Char) : Nat :=
  c.toNat - '0'.toNat

/-- The number that a run of digits denotes, the most significant digit first. -/
def ofDigits (ds : List Char) : Nat :=
  ds.foldl (fun n c => 10 * n + digitValue c) 0

def spanDigits (cs : List Char) : List Char × List Char :=
  (cs.takeWhile isDigit, cs.dropWhile isDigit)

/-- A whole number: one digit or more, all of them decimal, of value at most `limit`. -/
def digitsUpTo? (limit : Nat) (cs : List Char) : Option Nat :=
  if cs ≠ [] ∧ cs.all isDigit ∧ ofDigits cs ≤ limit then some (ofDigits cs) else none

/-- A whole number that may carry a plus sign. -/
def wholeUpTo? (limit : Nat) : List Char → Option Nat
  | '+' :: cs => digitsUpTo? limit cs
  | cs => digitsUpTo? limit cs

def maxWord32 : Nat := 4294967295

def maxWord64 : Nat := 18446744073709551615

theorem digitsUpTo?_eq_some_iff {limit n : Nat} {cs : List Char} :
    digitsUpTo? limit cs = some n ↔
      cs ≠ [] ∧ cs.all isDigit ∧ n = ofDigits cs ∧ n ≤ limit := by
  unfold digitsUpTo?
  split
  · next accepted =>
    simp only [Option.some.injEq]
    constructor
    · rintro rfl
      exact ⟨accepted.1, accepted.2.1, rfl, accepted.2.2⟩
    · rintro ⟨_, _, rfl, _⟩
      rfl
  · next refused =>
    constructor
    · simp
    · rintro ⟨some_digit, all_digits, rfl, below⟩
      exact absurd ⟨some_digit, all_digits, below⟩ refused

end Hearth.Number
