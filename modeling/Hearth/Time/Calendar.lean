/-!
# Hearth.Time.Calendar

Days, and their dates in the proleptic Gregorian calendar. A date is the number of days since
1 January 1970, so the day after a date is one more and a week is seven more. The calendar knows the
years from -262143 to 262142.

`weekday_next` says that the days of the week follow one another.
-/

namespace Hearth

inductive Weekday
  | monday | tuesday | wednesday | thursday | friday | saturday | sunday
deriving DecidableEq, Repr, Inhabited

namespace Weekday

/-- The place in a week that begins on Monday. -/
def index : Weekday → Nat
  | monday => 0 | tuesday => 1 | wednesday => 2 | thursday => 3
  | friday => 4 | saturday => 5 | sunday => 6

def next : Weekday → Weekday
  | monday => tuesday | tuesday => wednesday | wednesday => thursday | thursday => friday
  | friday => saturday | saturday => sunday | sunday => monday

/-- The day with the given place in a week that begins on Monday. -/
def ofIndex (n : Nat) : Weekday :=
  match n % 7 with
  | 0 => monday | 1 => tuesday | 2 => wednesday | 3 => thursday
  | 4 => friday | 5 => saturday | _ => sunday

/-- The first three letters. -/
def abbreviation : Weekday → String
  | monday => "Mon" | tuesday => "Tue" | wednesday => "Wed" | thursday => "Thu"
  | friday => "Fri" | saturday => "Sat" | sunday => "Sun"

theorem ofIndex_index (w : Weekday) : ofIndex w.index = w := by
  cases w <;> rfl

theorem ofIndex_succ (n : Nat) : ofIndex (n + 1) = (ofIndex n).next := by
  have below : n % 7 < 7 := Nat.mod_lt _ (by decide)
  unfold ofIndex
  rw [Nat.add_mod]
  generalize n % 7 = r at below
  match r, below with
  | 0, _ | 1, _ | 2, _ | 3, _ | 4, _ | 5, _ | 6, _ => rfl

end Weekday

/-- A day, counted from 1 January 1970. -/
structure Date where
  day : Int
deriving DecidableEq, Repr, Inhabited

structure CivilDate where
  year : Int
  month : Nat
  day : Nat
deriving DecidableEq, Repr, Inhabited

def isLeapYear (year : Int) : Bool :=
  year % 4 == 0 && (year % 100 != 0 || year % 400 == 0)

def daysInMonth (year : Int) : Nat → Nat
  | 2 => if isLeapYear year then 29 else 28
  | 4 | 6 | 9 | 11 => 30
  | _ => 31

namespace Date

def plus (d : Date) (n : Int) : Date := ⟨d.day + n⟩

/-- 1 January 1970 was a Thursday. -/
def weekday (d : Date) : Weekday :=
  Weekday.ofIndex ((d.day + 3) % 7).toNat

/-- The years are counted from March, so that a leap day is the last day of its year, and in
periods of 400 years, which all have 146097 days. -/
def ofCivil (c : CivilDate) : Date :=
  let year := if c.month ≤ 2 then c.year - 1 else c.year
  let period := year / 400
  let yearOfPeriod := year % 400
  let monthFromMarch : Int := (c.month + 9) % 12
  let dayOfYear : Int := (153 * monthFromMarch + 2) / 5 + c.day - 1
  let dayOfPeriod := yearOfPeriod * 365 + yearOfPeriod / 4 - yearOfPeriod / 100 + dayOfYear
  ⟨period * 146097 + dayOfPeriod - 719468⟩

/-- The inverse of `ofCivil` on the dates of the calendar. -/
def civil (d : Date) : CivilDate :=
  let shifted := d.day + 719468
  let period := shifted / 146097
  let dayOfPeriod := shifted % 146097
  let yearOfPeriod :=
    (dayOfPeriod - dayOfPeriod / 1460 + dayOfPeriod / 36524 - dayOfPeriod / 146096) / 365
  let dayOfYear := dayOfPeriod - (365 * yearOfPeriod + yearOfPeriod / 4 - yearOfPeriod / 100)
  let monthFromMarch := (5 * dayOfYear + 2) / 153
  let day := dayOfYear - (153 * monthFromMarch + 2) / 5 + 1
  let month := if monthFromMarch < 10 then monthFromMarch + 3 else monthFromMarch - 9
  let year := yearOfPeriod + period * 400 + (if month ≤ 2 then 1 else 0)
  ⟨year, month.toNat, day.toNat⟩

/-- A date of the calendar whose year lies within the range of 262143 years about the year 0. -/
def ofCivil? (c : CivilDate) : Option Date :=
  if -262143 ≤ c.year ∧ c.year ≤ 262142 ∧ 1 ≤ c.month ∧ c.month ≤ 12 ∧ 1 ≤ c.day
      ∧ c.day ≤ daysInMonth c.year c.month
  then some (ofCivil c)
  else none

def first : Date := ⟨-96465292⟩

def last : Date := ⟨95026236⟩

def inCalendar (d : Date) : Bool :=
  decide (first.day ≤ d.day) && decide (d.day ≤ last.day)

example : ofCivil? ⟨-262143, 1, 1⟩ = some first := by decide

example : ofCivil? ⟨262142, 12, 31⟩ = some last := by decide

theorem weekday_next (d : Date) : (d.plus 1).weekday = d.weekday.next := by
  simp only [weekday, plus]
  rw [← Weekday.ofIndex_succ]
  unfold Weekday.ofIndex
  have same : ((d.day + 1 + 3) % 7).toNat % 7 = (((d.day + 3) % 7).toNat + 1) % 7 := by omega
  rw [same]

end Date

end Hearth
