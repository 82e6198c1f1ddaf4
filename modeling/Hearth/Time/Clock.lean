import Hearth.Fault
import Hearth.Time.Moment

/-!
# Hearth.Time.Clock

Times of day and days of the week as people write them, and wall clocks in time zones.

A zone has an offset from universal time, which may change at given instants. A local time has a
solution for every offset with which it falls into a stretch of the zone that has this offset: none
where the clock is put forward over it, two where it is put back over it.
-/

namespace Hearth

open Hearth.Number Hearth.Text

/-- Reads hours and minutes with a colon between them, after the blanks at the ends are dropped. -/
def TimeOfDay.read (s : String) : Except TriggerFault TimeOfDay :=
  match cut? ':' (trimChars s.toList) with
  | none => .error (.invalidTime s)
  | some (hours, minutes) =>
    match wholeUpTo? maxWord32 hours, wholeUpTo? maxWord32 minutes with
    | some hour, some minute =>
      match TimeOfDay.ofHourMinute? hour minute with
      | some time => .ok time
      | none => .error (.invalidTime s)
    | _, _ => .error (.invalidTime s)

/-- Reads the name of a day, in full or by its first three letters, in any case. -/
def Weekday.read (name : String) : Except TriggerFault Weekday :=
  match asciiLower (trim name) with
  | "monday" | "mon" => .ok .monday
  | "tuesday" | "tue" => .ok .tuesday
  | "wednesday" | "wed" => .ok .wednesday
  | "thursday" | "thu" => .ok .thursday
  | "friday" | "fri" => .ok .friday
  | "saturday" | "sat" => .ok .saturday
  | "sunday" | "sun" => .ok .sunday
  | _ => .error (.unknownDay name)

/-- Reads the names in order; the first unknown one is the fault. -/
def Weekday.readAll : List String → Except TriggerFault (List Weekday)
  | [] => .ok []
  | name :: rest => do
    let day ← Weekday.read name
    let days ← Weekday.readAll rest
    return day :: days

/-- Offsets from universal time in minutes: the first one, and the ones that begin at given
instants, in their order. -/
structure Zone where
  base : Int
  transitions : List (Instant × Int)
deriving Repr, Inhabited

namespace Zone

def universal : Zone := ⟨0, []⟩

def fixed (minutes : Int) : Zone := ⟨minutes, []⟩

def offsetAt (z : Zone) (t : Instant) : Int :=
  z.transitions.foldl (fun current (start, offset) => if start.notAfter t then offset else current)
    z.base

/-- Every offset that the zone ever has. -/
def offsets (z : Zone) : List Int :=
  z.base :: z.transitions.map Prod.snd

def toLocal (z : Zone) (t : Instant) : LocalTime :=
  ⟨t.second + z.offsetAt t * 60, t.nanos, t.nanos_lt⟩

/-- The instant at which a clock with the offset shows a local time. -/
def instantAt (offset : Int) (shown : LocalTime) : Instant :=
  ⟨shown.second - offset * 60, shown.nanos, shown.nanos_lt⟩

/-- The instants of the calendar at which the clock of the zone shows a local time. -/
def solutions (z : Zone) (shown : LocalTime) : List Instant :=
  ((z.offsets.filter fun offset => z.offsetAt (instantAt offset shown) == offset).map
    fun offset => instantAt offset shown).filter Instant.inCalendar

/-- The first instant at which the clock of the zone shows a local time. -/
def earliest? (z : Zone) (shown : LocalTime) : Option Instant :=
  (z.solutions shown).foldl (fun best t =>
    match best with
    | none => some t
    | some b => if t.before b then some t else some b) none

/-- The first instant at which the clock shows a local time; of a time that the clock skips, the
instant at which it shows one hour later. -/
def resolve? (z : Zone) (shown : LocalTime) : Option Instant :=
  (z.earliest? shown).orElse fun _ => z.earliest? (shown.plusMinutes 60)

/-- The offset at the beginning of a date in universal time. -/
def offsetOnDate (z : Zone) (d : Date) : Int :=
  z.offsetAt (instantAt 0 (d.at .midnight))

/-- The offset in the middle of a date in universal time. -/
def offsetAtNoon (z : Zone) (d : Date) : Int :=
  z.offsetAt (instantAt 0 (d.at (TimeOfDay.ofSeconds 43200)))

theorem mem_solutions {z : Zone} {shown : LocalTime} {t : Instant} :
    t ∈ z.solutions shown ↔
      ∃ offset ∈ z.offsets, z.offsetAt (instantAt offset shown) = offset ∧
        instantAt offset shown = t ∧ t.inCalendar = true := by
  simp only [solutions, List.mem_filter, List.mem_map, beq_iff_eq]
  constructor
  · rintro ⟨⟨offset, ⟨known, same⟩, shows⟩, dated⟩
    exact ⟨offset, known, same, shows, dated⟩
  · rintro ⟨offset, known, same, shows, dated⟩
    exact ⟨⟨offset, ⟨known, same⟩, shows⟩, dated⟩

theorem toLocal_of_mem_solutions {z : Zone} {shown : LocalTime} {t : Instant}
    (solution : t ∈ z.solutions shown) : z.toLocal t = shown := by
  obtain ⟨offset, _, same, rfl, _⟩ := mem_solutions.1 solution
  rw [toLocal, same]
  simp [instantAt]

end Zone

/-- A wall clock. Its reading is `base` as long as the engine has not run, and stays so or follows
the time for which the engine has run. -/
structure WallClock where
  base : Instant
  zone : Zone
  follows : Bool
deriving Repr, Inhabited

/-- The reading after the engine has run for so many milliseconds. -/
def WallClock.reading (c : WallClock) (elapsed : Nat) : Instant :=
  if c.follows then c.base.plusMillis elapsed else c.base

end Hearth
