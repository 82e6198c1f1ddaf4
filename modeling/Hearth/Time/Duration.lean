/-!
# Hearth.Time.Duration

Lengths of time, counted in nanoseconds. A length that would need more than 64 bits of whole seconds
stays at the longest one.
-/

namespace Hearth

structure Duration where
  nanos : Nat
deriving DecidableEq, Repr, Inhabited

namespace Duration

def zero : Duration := ⟨0⟩

def ofMillis (n : Nat) : Duration := ⟨n * 1000000⟩

def ofMicros (n : Nat) : Duration := ⟨n * 1000⟩

def ofSecs (n : Nat) : Duration := ⟨n * 1000000000⟩

/-- The longest length of time: the seconds fill 64 bits. -/
def longest : Duration := ⟨18446744073709551616 * 1000000000 - 1⟩

/-- Whole seconds, and the nanoseconds beyond them. -/
def secs (d : Duration) : Nat := d.nanos / 1000000000

def subsecNanos (d : Duration) : Nat := d.nanos % 1000000000

/-- Whole milliseconds; what is left of a millisecond is dropped. -/
def millis (d : Duration) : Nat := d.nanos / 1000000

/-- Whole milliseconds; a part of a millisecond counts as a whole one. -/
def millisUp (d : Duration) : Nat := (d.nanos + 999999) / 1000000

/-- The longest time that a clock can be said to have gained or lost: its milliseconds fill 63 bits. -/
def longestSpan : Duration := ⟨9223372036854775807 * 1000000⟩

/-- No wait takes more than these milliseconds, which are thirty years of 365 days. -/
def longestWait : Nat := 946080000000

/-- The whole milliseconds that a wait takes. -/
def waitMillis (d : Duration) : Nat := min d.millisUp longestWait

/-- A multiple, or the longest length of time if that is exceeded. -/
def times (d : Duration) (factor : Nat) : Duration :=
  if d.nanos * factor ≤ longest.nanos then ⟨d.nanos * factor⟩ else longest

/-- What is left of `d` after `e`, or nothing. -/
def minus (d e : Duration) : Duration := ⟨d.nanos - e.nanos⟩

def isZero (d : Duration) : Bool := d.nanos == 0

end Duration

end Hearth
