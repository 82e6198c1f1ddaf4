import Mathlib.Data.List.Induction
import Hearth.Proofs.Schedule.Clock
import Hearth.Scheduler.Basic

/-!
# Hearth.Proofs.Schedule.Daylight

The events of the sun are told in two places: as times on the local clock, when they are asked for, and
as the times from which triggers take their occurrences. Both tell them by one offset for the whole
date, but the former takes the offset at its midnight and the latter that at its noon, in universal
time. They differ on the dates on which the clock is put forward or back in between.

## Main definitions

* `Zone.morning`: the changes of the offset between the two.
* `Zone.Settled`: a date on whose morning the offset is not changed, or changed back.

## Main results

* `Zone.offsetAtNoon_eq_iff`: both offsets are the same exactly on these dates.
* `Schedule.solarTimesOf_agrees`: the times that are told on such a date are those from which a trigger
  takes its occurrence.
-/

namespace Hearth

namespace Zone

variable {z : Zone} {s t : Instant} {d : Date}

/-- The changes come one after the other. -/
def Ascending (z : Zone) : Prop :=
  z.transitions.Pairwise fun b c => b.1.before c.1 = true

/-- The changes after one instant and up to another. -/
def between (z : Zone) (s t : Instant) : List (Instant × Int) :=
  z.transitions.filter fun change => s.before change.1 && change.1.notAfter t

/-- The changes in the first half of a date, in universal time. -/
def morning (z : Zone) (d : Date) : List (Instant × Int) :=
  z.between (instantAt 0 (d.at .midnight)) (instantAt 0 (d.at (TimeOfDay.ofSeconds 43200)))

/-- The last change of the morning, if there is one, leads back to the offset of midnight. -/
def Settled (z : Zone) (d : Date) : Prop :=
  ∀ change ∈ (z.morning d).getLast?, change.2 = z.offsetOnDate d

theorem offsetAt_append (base : Int) (earlier : List (Instant × Int)) (change : Instant × Int)
    (t : Instant) :
    offsetAt ⟨base, earlier ++ [change]⟩ t =
      if change.1.notAfter t then change.2 else offsetAt ⟨base, earlier⟩ t := by
  simp [offsetAt]

/-- The offset stays as it was, or it is that of the last change in between. -/
theorem offsetAt_cases (order : s.rank ≤ t.rank) :
    z.offsetAt t = z.offsetAt s ∨
      ∃ change, (z.between s t).getLast? = some change ∧ z.offsetAt t = change.2 := by
  obtain ⟨base, transitions⟩ := z
  -- The last change that has begun decides, so the induction is from the end of the list.
  induction transitions using List.reverseRecOn with
  | nil => exact .inl rfl
  | append_singleton earlier change ih =>
    rw [offsetAt_append, offsetAt_append]
    by_cases begun : change.1.rank ≤ s.rank
    · -- It has begun at both instants, and hides all that came before it.
      have late := Int.le_trans begun order
      simp [Instant.notAfter_iff.2 begun, Instant.notAfter_iff.2 late]
    · by_cases late : change.1.rank ≤ t.rank
      · -- It began in between, and is the last one there.
        have ahead := Instant.before_iff.2 (Int.not_le.1 begun)
        have within := Instant.notAfter_iff.2 late
        refine .inr ⟨change, ?_, by rw [if_pos within]⟩
        simp [between, ahead, within]
      · -- It has not begun at either instant.
        have later := Instant.notAfter_eq_false_iff.2 (Int.not_le.1 late)
        have notBegun := Instant.notAfter_eq_false_iff.2 (Int.not_le.1 begun)
        have same : between ⟨base, earlier ++ [change]⟩ s t = between ⟨base, earlier⟩ s t := by
          simp [between, later]
        rw [same, later, notBegun]
        exact ih

/-- Where the changes are in order, the offset is that of the last one in between, if there is one. -/
theorem offsetAt_of_last {change : Instant × Int} (ascending : z.Ascending)
    (last : (z.between s t).getLast? = some change) : z.offsetAt t = change.2 := by
  obtain ⟨base, transitions⟩ := z
  induction transitions using List.reverseRecOn with
  | nil => cases last
  | append_singleton earlier final ih =>
    obtain ⟨ordered, -, before⟩ := List.pairwise_append.1 ascending
    rw [offsetAt_append]
    cases begun : final.1.notAfter t with
    | false =>
      have same : between ⟨base, earlier ++ [final]⟩ s t = between ⟨base, earlier⟩ s t := by
        simp [between, begun]
      rw [same] at last
      exact ih ordered last
    | true =>
      cases ahead : s.before final.1 with
      | true =>
        have same : final = change := by simpa [between, ahead, begun] using last
        rw [if_pos rfl, same]
      | false =>
        -- The final change began by the first instant, and so did those before it.
        have none : between ⟨base, earlier ++ [final]⟩ s t = [] := by
          simp only [between, List.filter_eq_nil_iff, Bool.and_eq_true, not_and]
          intro other member past
          have begunBefore : other.1.rank ≤ final.1.rank := by
            rcases List.mem_append.1 member with there | there
            · exact Int.le_of_lt (Instant.before_iff.1 (before other there final (by simp)))
            · exact Int.le_of_eq (congrArg (fun c => c.1.rank) (List.mem_singleton.1 there))
          have notAhead := Instant.before_eq_false_iff.1 ahead
          have isAhead := Instant.before_iff.1 past
          omega
        rw [none] at last
        cases last

/-! ### The two offsets of a date -/

theorem midnight_le_noon (d : Date) :
    (instantAt 0 (d.at .midnight)).rank ≤
      (instantAt 0 (d.at (TimeOfDay.ofSeconds 43200))).rank := by
  rw [rank_instantAt, rank_instantAt, Date.rank_at, Date.rank_at]
  simp only [TimeOfDay.midnight, TimeOfDay.ofSeconds]
  omega

/-- On a settled date the two offsets are the same. -/
theorem offsetAtNoon_of_settled (settled : z.Settled d) : z.offsetAtNoon d = z.offsetOnDate d := by
  rcases offsetAt_cases (z := z) (midnight_le_noon d) with same | ⟨change, last, same⟩
  · exact same
  · exact same.trans (settled change last)

theorem offsetAtNoon_eq_iff (ascending : z.Ascending) :
    z.offsetAtNoon d = z.offsetOnDate d ↔ z.Settled d := by
  constructor
  · intro same change last
    rw [← same, offsetAtNoon, offsetAt_of_last ascending last]
  · exact offsetAtNoon_of_settled

end Zone

namespace Schedule

theorem plusMinutes_zero (shown : LocalTime) : shown.plusMinutes 0 = shown := by
  apply LocalTime.eq_of_rank_eq
  rw [LocalTime.rank_plusMinutes]
  omega

/-- A trigger for the sun itself looks among the times of the event on the dates ahead. -/
theorem nextAfter_sun_zero (zone : Zone) (place : Coordinates) (event : SunEvent)
    (days : List Weekday) (now : Instant) :
    (Schedule.sun event 0 days).nextAfter zone (some place) now =
      (Schedule.sun event 0 days).orFault (search zone now
        ((candidateDates (zone.toLocal now).date days).filterMap fun d =>
          (sunTable place zone event d).map d.at)) := by
  simp only [nextAfter, nextSun, sunCandidates, plusMinutes_zero]

theorem solarTimesOf_at? {r : Scheduler.Reading} {place : Coordinates} {date : Option Date}
    {times : SolarTimes} (event : SunEvent)
    (settled : r.zone.Settled (date.getD (r.zone.toLocal r.now).date))
    (told : solarTimesOf r place date = some times) :
    times.at? event = sunTable place r.zone event (date.getD (r.zone.toLocal r.now).date) := by
  rw [sunTable, Zone.offsetAtNoon_of_settled settled]
  simp only [solarTimesOf, Option.map_eq_some_iff] at told
  obtain ⟨d, asked, rfl⟩ := told
  cases date with
  | some given => rw [← Option.some_inj.1 asked, Option.getD_some]
  | none =>
    obtain ⟨-, same⟩ := Option.ite_none_right_eq_some.1 asked
    cases same
    rfl

/-- Times are told unless they are those of today and today is beyond the calendar. -/
theorem solarTimesOf_eq_none {r : Scheduler.Reading} {place : Coordinates} {date : Option Date} :
    solarTimesOf r place date = none ↔
      date = none ∧ (r.zone.toLocal r.now).inCalendar = false := by
  cases date <;> simp [solarTimesOf]

/-- On a settled date the time that is told of an event is the one from which a trigger takes its
occurrence on that date. Where the changes of a zone are in order, the two take the same offset on no
other date. -/
theorem solarTimesOf_agrees (r : Scheduler.Reading) (place : Coordinates) (event : SunEvent) :
    (∀ (date : Option Date) (times : SolarTimes),
      r.zone.Settled (date.getD (r.zone.toLocal r.now).date) →
      solarTimesOf r place date = some times →
        times.at? event = sunTable place r.zone event (date.getD (r.zone.toLocal r.now).date)) ∧
    (∀ date : Option Date, solarTimesOf r place date = none ↔
      date = none ∧ (r.zone.toLocal r.now).inCalendar = false) ∧
    (∀ days, (Schedule.sun event 0 days).nextAfter r.zone (some place) r.now =
      (Schedule.sun event 0 days).orFault (search r.zone r.now
        ((candidateDates (r.zone.toLocal r.now).date days).filterMap fun d =>
          (sunTable place r.zone event d).map d.at))) ∧
    (r.zone.Ascending → ∀ d, r.zone.offsetAtNoon d = r.zone.offsetOnDate d ↔ r.zone.Settled d) :=
  ⟨fun _ _ => solarTimesOf_at? event, fun _ => solarTimesOf_eq_none,
    fun days => nextAfter_sun_zero r.zone place event days r.now,
    fun ascending _ => Zone.offsetAtNoon_eq_iff ascending⟩

/-- The beginning of 1970, by the clock of `summerZone`. -/
def winterReading : Scheduler.Reading := ⟨⟨0, 0, Instant.zero_nanos_lt⟩, summerZone, none⟩

def vienna : Coordinates := ⟨48.2, 16.4⟩

/-- The day before the clock is put forward is settled, and so is the day after it. -/
theorem solarTimesOf_agrees_springEve :
    summerZone.Ascending ∧ summerZone.Settled ⟨86⟩ ∧
    ((solarTimesOf winterReading vienna (some ⟨86⟩)).map fun times => times.at? .sunset) =
      some (sunTable vienna summerZone .sunset ⟨86⟩) ∧
    ((solarTimesOf winterReading vienna (some ⟨88⟩)).map fun times => times.at? .sunset) =
      some (sunTable vienna summerZone .sunset ⟨88⟩) := by
  have ascending : summerZone.Ascending := by
    unfold Zone.Ascending
    decide
  obtain ⟨told, -, -, exact⟩ := solarTimesOf_agrees winterReading vienna .sunset
  have eve : summerZone.Settled ⟨86⟩ := (exact ascending ⟨86⟩).1 (by decide)
  have after : summerZone.Settled ⟨88⟩ := (exact ascending ⟨88⟩).1 (by decide)
  exact ⟨ascending, eve, congrArg some (told (some ⟨86⟩) _ eve rfl),
    congrArg some (told (some ⟨88⟩) _ after rfl)⟩

/-- On 29 March 1970 the clock is put forward at one in the morning, in universal time. The sunset is
told by the offset of winter, and a trigger looks for it by that of summer. -/
theorem solarTimesOf_departs_spring :
    summerZone.offsetOnDate ⟨87⟩ ≠ summerZone.offsetAtNoon ⟨87⟩ ∧
    solarTimesOf winterReading vienna (some ⟨87⟩) = some (Solar.times vienna ⟨87⟩ 60) ∧
    sunTable vienna summerZone .sunset ⟨87⟩ = (Solar.times vienna ⟨87⟩ 120).at? .sunset :=
  ⟨by decide, rfl, rfl⟩

end Schedule

end Hearth
