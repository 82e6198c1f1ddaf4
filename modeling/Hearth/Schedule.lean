import Hearth.Automation

/-!
# Hearth.Schedule

When a trigger for a time of day or for the sun fires next: the first occurrence after now, looked
for on today's date and the seven dates after it.

The events of the sun enter as a function from dates to times of day, so that what is said about
occurrences holds whatever the sun does.

Dates beyond the calendar are passed over, but a local time that lies beyond it crashes the search: the
local time of now, that of an event of the sun with its offset, and that which takes the place of a local
time that the clock skips.
-/

namespace Hearth

/-- A trigger for a time, read. No days stand for every day. -/
inductive Schedule
  | clock (time : TimeOfDay) (days : List Weekday)
  | sun (event : SunEvent) (offset : Int) (days : List Weekday)
deriving DecidableEq, Repr

namespace Schedule

/-- The schedule of a trigger; other triggers than those for a time or the sun have none. -/
def ofTrigger : Trigger → Except TriggerFault (Option Schedule)
  | .time time days => do
    let time ← TimeOfDay.read time
    let days ← Weekday.readAll (days.getD [])
    return some (.clock time days)
  | .sun event offset days => do
    let days ← Weekday.readAll (days.getD [])
    return some (.sun event offset days)
  | _ => .ok none

def display : Schedule → String
  | .clock time _ => time.hourMinuteText
  | .sun event offset _ => event.text ++ Trigger.signedText offset ++ "m"

/-- How many dates are looked at: today and a full week. -/
def searchDays : Nat := 8

/-- Today and the dates after it that the calendar knows, as far as their days are allowed. -/
def candidateDates (today : Date) (days : List Weekday) : List Date :=
  ((List.range searchDays).map fun (n : Nat) => today.plus n).filter
    fun date => date.inCalendar && (days.isEmpty || days.contains date.weekday)

/-- The local times at which the clock may show `time` on an allowed day. -/
def clockCandidates (zone : Zone) (time : TimeOfDay) (days : List Weekday) (now : Instant) :
    List LocalTime :=
  (candidateDates (zone.toLocal now).date days).map fun date => date.at time

/-- The local times that are `offset` minutes after an event of the sun, where `event?` gives the
local time of the event on a date. Dates without the event are passed over. -/
def sunCandidates (event? : Date → Option TimeOfDay) (zone : Zone) (offset : Int)
    (days : List Weekday) (now : Instant) : List LocalTime :=
  (candidateDates (zone.toLocal now).date days).filterMap fun date =>
    (event? date).map fun time => (date.at time).plusMinutes offset

/-- How a search for an occurrence ends: with an instant or without one, or in a crash where it comes upon
a local time beyond the calendar. -/
inductive Sought
  | found (t : Instant)
  | nothing
  | crashed
deriving DecidableEq, Repr

/-- Whether a local time is beyond the calendar, or is skipped by the clock and the one an hour later,
which it leads on to, is beyond it. -/
def isBeyond (zone : Zone) (shown : LocalTime) : Bool :=
  !shown.inCalendar || ((zone.earliest? shown).isNone && !(shown.plusMinutes 60).inCalendar)

/-- The first of the candidates, in their order, that lies after now. -/
def firstAfter (zone : Zone) (now : Instant) : List LocalTime → Sought
  | [] => .nothing
  | shown :: rest =>
    if isBeyond zone shown then .crashed
    else
      match (zone.resolve? shown).filter now.before with
      | some t => .found t
      | none => firstAfter zone now rest

/-- A search begins at the local date of now, which must not be beyond the calendar either. -/
def search (zone : Zone) (now : Instant) (candidates : List LocalTime) : Sought :=
  if (zone.toLocal now).inCalendar then firstAfter zone now candidates else .crashed

/-- The next instant after `now` at which the clock of the zone shows `time` on an allowed day. -/
def nextTime (zone : Zone) (time : TimeOfDay) (days : List Weekday) (now : Instant) : Sought :=
  search zone now (clockCandidates zone time days now)

/-- The next instant after `now` that is `offset` minutes after an event of the sun. -/
def nextSun (event? : Date → Option TimeOfDay) (zone : Zone) (offset : Int) (days : List Weekday)
    (now : Instant) : Sought :=
  search zone now (sunCandidates event? zone offset days now)

/-- The local time of an event of the sun at a place, by the offset of the zone in the middle of the
date. -/
def sunTable (place : Coordinates) (zone : Zone) (event : SunEvent) (date : Date) :
    Option TimeOfDay :=
  (Solar.times place date (zone.offsetAtNoon date)).at? event

/-- What was sought, with the fault that there is no occurrence. -/
def orFault (s : Schedule) : Sought → Except SearchFault Instant
  | .found t => .ok t
  | .nothing => .error (.trigger (.noOccurrence s.display))
  | .crashed => .error .crash

/-- The first occurrence after now. A schedule of the sun needs a place. -/
def nextAfter (s : Schedule) (zone : Zone) (place : Option Coordinates) (now : Instant) :
    Except SearchFault Instant :=
  match s, place with
  | .clock time days, _ => s.orFault (nextTime zone time days now)
  | .sun _ _ _, none => .error (.trigger .missingLocation)
  | .sun event offset days, some place =>
    s.orFault (nextSun (sunTable place zone event) zone offset days now)

/-- So many occurrences, each the first one after the one before it, up to the first fault; nothing
if a search crashes. -/
def occurrences? (s : Schedule) (zone : Zone) (place : Option Coordinates) :
    Nat → Instant → Option (List (Except TriggerFault Instant))
  | 0, _ => some []
  | count + 1, now =>
    match s.nextAfter zone place now with
    | .error .crash => none
    | .error (.trigger fault) => some [.error fault]
    | .ok t => (s.occurrences? zone place count t).map (.ok t :: ·)

theorem orFault_eq_ok {s : Schedule} {sought : Sought} {t : Instant} :
    s.orFault sought = .ok t ↔ sought = .found t := by
  cases sought <;> simp [orFault]

theorem firstAfter_after {zone : Zone} {now t : Instant} {candidates : List LocalTime}
    (found : firstAfter zone now candidates = .found t) : now.before t = true := by
  induction candidates with
  | nil => cases found
  | cons shown rest ih =>
    unfold firstAfter at found
    split at found
    · cases found
    · split at found
      · next hit =>
        cases found
        exact (Option.filter_eq_some_iff.1 hit).2
      · exact ih found

theorem search_eq_found {zone : Zone} {now t : Instant} {candidates : List LocalTime} :
    search zone now candidates = .found t ↔
      (zone.toLocal now).inCalendar = true ∧ firstAfter zone now candidates = .found t := by
  unfold search
  split <;> simp [*]

/-- An occurrence always lies strictly after now. -/
theorem nextAfter_after {s : Schedule} {zone : Zone} {place : Option Coordinates} {now t : Instant}
    (found : s.nextAfter zone place now = .ok t) : now.before t = true := by
  cases s with
  | clock time days => exact firstAfter_after (search_eq_found.1 (orFault_eq_ok.1 found)).2
  | sun event offset days =>
    cases place with
    | none => simp [nextAfter] at found
    | some place => exact firstAfter_after (search_eq_found.1 (orFault_eq_ok.1 found)).2

end Schedule

end Hearth
