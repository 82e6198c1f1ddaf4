import Hearth.Number.Digits
import Hearth.Text.Blank
import Hearth.Time.Calendar

/-!
# Hearth.Time.Moment

Points in time. An `Instant` counts seconds since the beginning of 1970 in universal time; a
`LocalTime` is what a clock on the wall shows, counted in the same way from its own 1970. An instant
is written with the letter `Z` and as many fraction digits as it needs, in groups of three.

A leap second has no count of its own: its nanoseconds go on from those of the second before it. So
it comes after all of that second and before the next one, and falls into the same minute.
-/

namespace Hearth

/-- A time on the clock to the second. -/
structure TimeOfDay where
  second : Nat
  second_lt : second < 86400 := by omega
deriving DecidableEq, Repr

namespace TimeOfDay

def midnight : TimeOfDay := ⟨0, by decide⟩

instance : Inhabited TimeOfDay := ⟨midnight⟩

def hour (t : TimeOfDay) : Nat := t.second / 3600

def minute (t : TimeOfDay) : Nat := t.second / 60 % 60

def secondOfMinute (t : TimeOfDay) : Nat := t.second % 60

def minuteOfDay (t : TimeOfDay) : Nat := t.second / 60

/-- The start of a minute. -/
def ofHourMinute? (hour minute : Nat) : Option TimeOfDay :=
  if h : hour < 24 ∧ minute < 60 then some ⟨hour * 3600 + minute * 60, by omega⟩ else none

/-- A count of seconds; those beyond a day start again at midnight. -/
def ofSeconds (n : Nat) : TimeOfDay :=
  ⟨n % 86400, Nat.mod_lt _ (by decide)⟩

end TimeOfDay

structure Instant where
  /-- Whole seconds since the beginning of 1970. -/
  second : Int
  /-- Nanoseconds within the second; from 1000000000 on they lie in the leap second after it. -/
  nanos : Nat
  nanos_lt : nanos < 2000000000 := by omega
deriving DecidableEq, Repr

structure LocalTime where
  second : Int
  nanos : Nat
  nanos_lt : nanos < 2000000000 := by omega
deriving DecidableEq, Repr

namespace Instant

/-- A whole second has no nanoseconds. -/
theorem zero_nanos_lt : 0 < 2000000000 := by decide

instance : Inhabited Instant := ⟨⟨0, 0, zero_nanos_lt⟩⟩

/-- The order in time. -/
def before (s t : Instant) : Bool :=
  decide (s.second < t.second) || (s.second == t.second && decide (s.nanos < t.nanos))

def notAfter (s t : Instant) : Bool := !t.before s

def isInLeapSecond (t : Instant) : Bool := decide (1000000000 ≤ t.nanos)

/-- The instant that is so many nanoseconds after the beginning of 1970, leap seconds not counted. -/
def ofNanos (n : Int) : Instant :=
  ⟨n / 1000000000, (n % 1000000000).toNat, by omega⟩

/-- The instant that is `n` nanoseconds later, or earlier if `n` is negative. What begins in a leap
second counts the rest of it, or what has passed of it; what begins outside passes over leap
seconds. -/
def plusNanos (t : Instant) (n : Int) : Instant :=
  let start := t.second * 1000000000
  let sum := t.nanos + n
  if t.isInLeapSecond && decide (1000000000 ≤ sum) then
    if inside : sum < 2000000000 then ⟨t.second, sum.toNat, by omega⟩
    else ofNanos (start + sum - 1000000000)
  else ofNanos (start + sum)

def plusMillis (t : Instant) (n : Int) : Instant := t.plusNanos (n * 1000000)

/-- The second of its day in which an instant lies. -/
def secondOfDay (t : Instant) : Int := t.second % 86400

/-- The nanoseconds from `s` to `t`. A leap second in which one of them lies counts if it lies
between their times of day. -/
def since (t s : Instant) : Int :=
  let leap : Int :=
    if s.secondOfDay < t.secondOfDay && s.isInLeapSecond then 1
    else if t.secondOfDay < s.secondOfDay && t.isInLeapSecond then -1
    else 0
  (t.second - s.second + leap) * 1000000000 + (t.nanos - s.nanos)

def inCalendar (t : Instant) : Bool := (Date.mk (t.second / 86400)).inCalendar

theorem before_irrefl (t : Instant) : t.before t = false := by
  simp [before]

theorem before_trans {s t u : Instant} (early : s.before t = true) (late : t.before u = true) :
    s.before u = true := by
  simp only [before, Bool.or_eq_true, Bool.and_eq_true, decide_eq_true_eq, beq_iff_eq] at *
  omega

theorem before_of_not_before {s t u : Instant} (early : s.before t = true)
    (notEarlier : u.before t = false) : s.before u = true := by
  simp only [before, Bool.or_eq_true, Bool.and_eq_true, Bool.or_eq_false_iff, Bool.and_eq_false_iff,
    decide_eq_true_eq, decide_eq_false_iff_not, beq_iff_eq, beq_eq_false_iff_ne] at *
  omega

theorem eq_of_not_before {s t : Instant} (early : s.before t = false) (late : t.before s = false) :
    s = t := by
  cases s
  cases t
  simp only [before, Bool.or_eq_false_iff, Bool.and_eq_false_iff, decide_eq_false_iff_not,
    beq_eq_false_iff_ne, mk.injEq] at *
  omega

end Instant

namespace LocalTime

instance : Inhabited LocalTime := ⟨⟨0, 0, by decide⟩⟩

def date (t : LocalTime) : Date := ⟨t.second / 86400⟩

/-- The time on the clock; a part of a second, or a leap second, is dropped. -/
def timeOfDay (t : LocalTime) : TimeOfDay :=
  TimeOfDay.ofSeconds (t.second % 86400).toNat

def plusMinutes (t : LocalTime) (n : Int) : LocalTime := { t with second := t.second + n * 60 }

def inCalendar (t : LocalTime) : Bool := t.date.inCalendar

end LocalTime

/-- The moment at which a clock shows `time` on the date. -/
def Date.at (d : Date) (time : TimeOfDay) : LocalTime :=
  ⟨d.day * 86400 + time.second, 0, by decide⟩

theorem Date.date_at (d : Date) (time : TimeOfDay) : (d.at time).date = d := by
  have bound := time.second_lt
  cases d with
  | mk day =>
    simp only [Date.at, LocalTime.date, Date.mk.injEq]
    omega

theorem Date.timeOfDay_at (d : Date) (time : TimeOfDay) : (d.at time).timeOfDay = time := by
  have bound := time.second_lt
  cases time with
  | mk second second_lt =>
    simp only [Date.at, LocalTime.timeOfDay, TimeOfDay.ofSeconds, TimeOfDay.mk.injEq]
    omega

/-! ### Writing -/

/-- A number with zeros in front up to `width` digits. -/
def padded (width n : Nat) : String :=
  let digits := Nat.repr n
  String.ofList (List.replicate (width - digits.length) '0') ++ digits

namespace TimeOfDay

def hourMinuteText (t : TimeOfDay) : String :=
  padded 2 t.hour ++ ":" ++ padded 2 t.minute

def text (t : TimeOfDay) : String :=
  t.hourMinuteText ++ ":" ++ padded 2 t.secondOfMinute

end TimeOfDay

namespace CivilDate

/-- Years from 0 to 9999 have four digits and no sign; the others have a sign. -/
def text (c : CivilDate) : String :=
  let year :=
    if 0 ≤ c.year ∧ c.year ≤ 9999 then padded 4 c.year.toNat
    else if c.year < 0 then "-" ++ padded 4 c.year.natAbs
    else "+" ++ padded 4 c.year.toNat
  year ++ "-" ++ padded 2 c.month ++ "-" ++ padded 2 c.day

end CivilDate

/-- A part of a second: nothing, or three, six or nine digits after a point. -/
def fractionText (nanos : Nat) : String :=
  if nanos = 0 then ""
  else if nanos % 1000000 = 0 then "." ++ padded 3 (nanos / 1000000)
  else if nanos % 1000 = 0 then "." ++ padded 6 (nanos / 1000)
  else "." ++ padded 9 nanos

/-- Date and time with the letter `T` between them. A leap second is the second after the one that
it follows, within the same minute. -/
def LocalTime.text (t : LocalTime) : String :=
  let second := t.timeOfDay.secondOfMinute + t.nanos / 1000000000
  t.date.civil.text ++ "T" ++ t.timeOfDay.hourMinuteText ++ ":" ++ padded 2 second
    ++ fractionText (t.nanos % 1000000000)

def Instant.text (t : Instant) : String :=
  (LocalTime.mk t.second t.nanos t.nanos_lt).text ++ "Z"

/-! ### Reading -/

namespace Instant

open Hearth.Number Hearth.Text

/-- A number of at least one and at most `width` digits, after any blanks. -/
def readField? (width : Nat) (cs : List Char) : Option (Nat × List Char) :=
  let cs := cs.dropWhile isBlank
  let digits := (cs.take width).takeWhile isDigit
  if digits = [] then none else some (ofDigits digits, cs.drop digits.length)

/-- A year of four digits, or one with a sign and any number of digits. -/
def readYear? (cs : List Char) : Option (Int × List Char) :=
  match cs.dropWhile isBlank with
  | '-' :: rest => signed rest (-1)
  | '+' :: rest => signed rest 1
  | rest => (readField? 4 rest).map fun (n, rest) => ((n : Int), rest)
where
  signed (cs : List Char) (sign : Int) : Option (Int × List Char) :=
    let (digits, rest) := spanDigits cs
    if digits = [] then none else some (sign * ofDigits digits, rest)

/-- A mark, which blanks may precede. -/
def readMark? (mark : Char) (cs : List Char) : Option (List Char) :=
  match cs.dropWhile isBlank with
  | c :: rest => if c = mark then some rest else none
  | [] => none

/-- The first nine digits after a point; further digits are dropped. -/
def readNanos? : List Char → Option (Nat × List Char)
  | '.' :: cs =>
    let (digits, rest) := spanDigits cs
    if digits = [] then none
    else
      let kept := digits.take 9
      some (ofDigits kept * Nat.pow 10 (9 - kept.length), rest)
  | cs => some (0, cs)

/-- A distance to universal time in minutes: `Z`, the letters `UTC`, or a sign, two digits of hours
and two digits of minutes, with any colons and blanks between them. -/
def readOffset? (cs : List Char) : Option (Int × List Char) :=
  match cs with
  | 'Z' :: rest => some (0, rest)
  | 'z' :: rest => some (0, rest)
  | '+' :: rest => distance rest 1
  | '-' :: rest => distance rest (-1)
  | '−' :: rest => distance rest (-1)
  | a :: b :: c :: rest =>
    if a.toLower = 'u' ∧ b.toLower = 't' ∧ c.toLower = 'c' then some (0, rest) else none
  | _ => none
where
  distance (cs : List Char) (sign : Int) : Option (Int × List Char) :=
    match cs with
    | h1 :: h2 :: rest =>
      if isDigit h1 && isDigit h2 then
        match rest.dropWhile fun c => c = ':' || isBlank c with
        | m1 :: m2 :: rest =>
          if isDigit m1 && isDigit m2 && m1 ≤ '5' then
            let minutes : Int := 60 * ofDigits [h1, h2] + ofDigits [m1, m2]
            if minutes < 1440 then some (sign * minutes, rest) else none
          else none
        | _ => none
      else none
    | _ => none

/-- The instant within a minute that begins at `start`; the second 60 is a leap second. -/
def withinMinute? (start : Int) (second nanos : Nat) : Option Instant :=
  if small : nanos < 1000000000 then
    if second < 60 then some ⟨start + second, nanos, by omega⟩
    else if second = 60 then some ⟨start + 59, nanos + 1000000000, by omega⟩
    else none
  else none

/-- Reads a date, a `T` or a blank, a time of day and the distance to universal time. -/
def read? (s : String) : Option Instant := do
  let (year, cs) ← readYear? s.toList
  let cs ← readMark? '-' cs
  let (month, cs) ← readField? 2 cs
  let cs ← readMark? '-' cs
  let (day, cs) ← readField? 2 cs
  let cs ←
    match cs with
    | 'T' :: cs => some cs
    | 't' :: cs => some cs
    | ' ' :: cs => some cs
    | _ => none
  let (hour, cs) ← readField? 2 cs
  let cs ← readMark? ':' cs
  let (minute, cs) ← readField? 2 cs
  let cs ← readMark? ':' cs
  let (second, cs) ← readField? 2 cs
  let (nanos, cs) ← readNanos? cs
  let (offset, cs) ← readOffset? (cs.dropWhile isBlank)
  guard (cs.all isBlank)
  let date ← Date.ofCivil? ⟨year, month, day⟩
  let time ← TimeOfDay.ofHourMinute? hour minute
  let t ← withinMinute? ((date.at time).plusMinutes (-offset)).second second nanos
  guard t.inCalendar
  return t

end Instant

def Date.read? (s : String) : Option Date := do
  let (year, cs) ← Instant.readYear? s.toList
  let cs ← Instant.readMark? '-' cs
  let (month, cs) ← Instant.readField? 2 cs
  let cs ← Instant.readMark? '-' cs
  let (day, cs) ← Instant.readField? 2 cs
  guard (cs.all Text.isBlank)
  Date.ofCivil? ⟨year, month, day⟩

end Hearth
