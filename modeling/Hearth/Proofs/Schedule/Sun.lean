import Hearth.Proofs.Schedule.Search

/-!
# Hearth.Proofs.Schedule.Sun

The next occurrence of a schedule of the sun in a zone with a fixed offset, whatever the sun does.

## Main definitions

`Schedule.SunOccurrence`: an instant that is so many minutes after an event of the sun on an allowed
date.

## Main results

`Schedule.nextSun_first`: among the occurrences of today's date and later ones the first one after now
is found. An occurrence of an earlier date may be passed over: the search begins with today's date,
also where the minutes after the event lead past midnight.
-/

namespace Hearth

namespace Schedule

variable {event? : Date → Option TimeOfDay} {minutes offset : Int} {days : List Weekday}
  {now t : Instant}

/-- The instant `t` is `offset` minutes after an event of the sun on an allowed date of the calendar,
where the local time is `minutes` ahead of universal time. -/
def SunOccurrence (event? : Date → Option TimeOfDay) (minutes offset : Int) (days : List Weekday)
    (date : Date) (t : Instant) : Prop :=
  date.inCalendar = true ∧ Allows days date ∧
    ∃ time, event? date = some time ∧
      t = Zone.instantAt minutes ((date.at time).plusMinutes offset)

theorem offsetAt_fixed (minutes : Int) (t : Instant) : (Zone.fixed minutes).offsetAt t = minutes :=
  rfl

theorem toLocal_fixed_iff {shown : LocalTime} :
    (Zone.fixed minutes).toLocal t = shown ↔ t = Zone.instantAt minutes shown := by
  constructor
  · rintro rfl
    simp [Zone.instantAt, Zone.toLocal, offsetAt_fixed]
  · rintro rfl
    simp [Zone.instantAt, Zone.toLocal, offsetAt_fixed]

theorem SunOccurrence.rank_eq {date : Date} (occurs : SunOccurrence event? minutes offset days date t) :
    ∃ time, event? date = some time ∧
      t.rank = date.day * 172800000000000 + time.second * 2000000000
        + (offset - minutes) * 120000000000 := by
  obtain ⟨-, -, time, event, rfl⟩ := occurs
  refine ⟨time, event, ?_⟩
  rw [Zone.rank_instantAt, LocalTime.rank_plusMinutes, Date.rank_at]
  omega

/-- The occurrences of later dates are later. -/
theorem SunOccurrence.rank_lt {date later : Date} {u : Instant}
    (occurs : SunOccurrence event? minutes offset days date t)
    (follows : SunOccurrence event? minutes offset days later u) (order : date.day < later.day) :
    t.rank < u.rank := by
  obtain ⟨time, -, first⟩ := occurs.rank_eq
  obtain ⟨other, -, second⟩ := follows.rank_eq
  have bound := time.second_lt
  omega

/-- A date has one occurrence at most. -/
theorem SunOccurrence.unique {date : Date} {u : Instant}
    (occurs : SunOccurrence event? minutes offset days date t)
    (again : SunOccurrence event? minutes offset days date u) : t = u := by
  obtain ⟨-, -, time, event, rfl⟩ := occurs
  obtain ⟨-, -, other, same, rfl⟩ := again
  rw [event, Option.some.injEq] at same
  rw [same]

theorem SunOccurrence.day_lt {date later : Date} {u : Instant}
    (occurs : SunOccurrence event? minutes offset days date t)
    (follows : SunOccurrence event? minutes offset days later u) (order : t.rank < u.rank) :
    date.day < later.day := by
  rcases Int.lt_trichotomy date.day later.day with sooner | same | after
  · exact sooner
  · obtain rfl : date = later := by
      cases date
      cases later
      simpa using same
    rw [occurs.unique follows] at order
    omega
  · have reversed := follows.rank_lt occurs after
    omega

/-- A local time whose instant lies in the calendar is resolved into this instant. -/
theorem resolve?_fixed {shown : LocalTime}
    (dated : (Zone.instantAt minutes shown).inCalendar = true) :
    (Zone.fixed minutes).resolve? shown = some (Zone.instantAt minutes shown) := by
  rcases (Zone.fixed minutes).earliest?_spec shown with ⟨-, nowhere⟩ | ⟨first, found, shows, -, -⟩
  · exact absurd (toLocal_fixed_iff.2 rfl) (nowhere _ dated)
  · rw [Zone.resolve?, found, toLocal_fixed_iff.1 shows]
    rfl

/-- Once the first hour of the calendar is over, no local time is taken for one that the clock
skips. -/
theorem eq_of_resolve?_fixed {shown : LocalTime}
    (settled : (now.plusSeconds (-3600)).inCalendar = true)
    (found : (Zone.fixed minutes).resolve? shown = some t) (after : now.before t = true) :
    t = Zone.instantAt minutes shown := by
  rcases (Zone.fixed minutes).earliest?_spec shown with ⟨none, nowhere⟩ | ⟨first, some, shows, -, -⟩
  · rcases (Zone.fixed minutes).earliest?_spec (shown.plusMinutes 60) with
      ⟨nothing, -⟩ | ⟨first, some, shows, dated, -⟩
    · simp [Zone.resolve?, none, nothing] at found
    · obtain rfl : first = t := by simpa [Zone.resolve?, none, some] using found
      -- The instant an hour earlier lies between an hour before now and what was found.
      have later : first.rank = (Zone.instantAt minutes shown).rank + 60 * 120000000000 := by
        rw [toLocal_fixed_iff.1 shows, Zone.rank_instantAt, Zone.rank_instantAt,
          LocalTime.rank_plusMinutes]
        omega
      have past := Instant.before_iff.1 after
      have known : (Zone.instantAt minutes shown).inCalendar = true := by
        refine Instant.inCalendar_of_between settled dated ?_ (by omega)
        rw [Instant.rank_plusSeconds]
        omega
      exact absurd (toLocal_fixed_iff.2 rfl) (nowhere _ known)
  · obtain rfl : first = t := by simpa [Zone.resolve?, some] using found
    exact toLocal_fixed_iff.1 shows

/-- What is found is an occurrence of one of the dates that are looked at, and those before it that
are looked at have none after now. -/
theorem nextSun_found (settled : (now.plusSeconds (-3600)).inCalendar = true)
    (found : nextSun event? (.fixed minutes) offset days now = .found t) :
    now.before t = true ∧ ∃ date, SunOccurrence event? minutes offset days date t ∧
      ((Zone.fixed minutes).toLocal now).date.day ≤ date.day ∧
      ∀ earlier u, SunOccurrence event? minutes offset days earlier u →
        ((Zone.fixed minutes).toLocal now).date.day ≤ earlier.day → earlier.day < date.day →
        now.before u = false := by
  obtain ⟨hit, member, its, after, first⟩ := search_found found
  obtain ⟨low, high, known, allowed⟩ := mem_candidateDates.1 member
  obtain ⟨shown, candidate, resolved⟩ := Option.bind_eq_some_iff.1 its
  obtain ⟨time, event, rfl⟩ := Option.map_eq_some_iff.1 candidate
  have place := eq_of_resolve?_fixed settled resolved after
  have dated : t.inCalendar = true := Zone.inCalendar_of_resolve? resolved
  have occurs : SunOccurrence event? minutes offset days hit t :=
    ⟨known, allowed, time, event, place⟩
  refine ⟨after, hit, occurs, low, ?_⟩
  intro earlier u occurrence notPast sooner
  rw [← Bool.not_eq_true]
  intro ahead
  have past := Instant.before_iff.1 ahead
  have early := occurrence.rank_lt occurs sooner
  obtain ⟨inside, free, clock, its, rfl⟩ := occurrence
  -- The date has been looked at, and its occurrence lies between now and what was found, so the
  -- calendar knows it.
  have looked : earlier ∈ candidateDates ((Zone.fixed minutes).toLocal now).date days :=
    mem_candidateDates.2 ⟨notPast, by omega, inside, free⟩
  have reachable : (Zone.instantAt minutes ((earlier.at clock).plusMinutes offset)).inCalendar := by
    refine Instant.inCalendar_of_between settled dated ?_ (Int.le_of_lt early)
    rw [Instant.rank_plusSeconds]
    omega
  have missed := first earlier looked sooner _
    (Option.bind_eq_some_iff.2 ⟨_, Option.map_eq_some_iff.2 ⟨clock, its, rfl⟩,
      resolve?_fixed reachable⟩)
  rw [missed] at ahead
  cases ahead

/-- An occurrence that does not lie beyond its event belongs to the local date of now or a later one
if it lies after now. -/
theorem SunOccurrence.today_le {date : Date}
    (occurs : SunOccurrence event? minutes offset days date t) (notBeyond : offset ≤ 0)
    (ahead : now.before t = true) : ((Zone.fixed minutes).toLocal now).date.day ≤ date.day := by
  have later := Instant.before_iff.1 ahead
  obtain ⟨clock, -, place⟩ := occurs.rank_eq
  have bound := clock.second_lt
  rw [LocalTime.day_date, Zone.rank_toLocal, offsetAt_fixed]
  omega

/-- The next occurrence lies after now, and no occurrence of today's date or a later one lies between.
So it is the first one of all exactly if none of an earlier date is still ahead, which is so
whenever the minutes do not lead beyond the event. -/
theorem nextSun_first (settled : (now.plusSeconds (-3600)).inCalendar = true)
    (found : nextSun event? (.fixed minutes) offset days now = .found t) :
    now.before t = true ∧
    (∃ date, SunOccurrence event? minutes offset days date t) ∧
    (∀ date u, SunOccurrence event? minutes offset days date u →
      ((Zone.fixed minutes).toLocal now).date.day ≤ date.day →
      ¬ (now.before u = true ∧ u.before t = true)) ∧
    ((∀ date u, SunOccurrence event? minutes offset days date u →
        ¬ (now.before u = true ∧ u.before t = true)) ↔
      ∀ date u, SunOccurrence event? minutes offset days date u →
        date.day < ((Zone.fixed minutes).toLocal now).date.day → now.before u = false) ∧
    (offset ≤ 0 → ∀ date u, SunOccurrence event? minutes offset days date u →
      ¬ (now.before u = true ∧ u.before t = true)) := by
  obtain ⟨after, hit, occurs, low, first⟩ := nextSun_found settled found
  have fromToday : ∀ date u, SunOccurrence event? minutes offset days date u →
      ((Zone.fixed minutes).toLocal now).date.day ≤ date.day →
      ¬ (now.before u = true ∧ u.before t = true) := by
    rintro date u occurrence notPast ⟨ahead, between⟩
    have sooner := occurrence.day_lt occurs (Instant.before_iff.1 between)
    rw [first date u occurrence notPast sooner] at ahead
    cases ahead
  refine ⟨after, ⟨hit, occurs⟩, fromToday, ⟨?_, ?_⟩, ?_⟩
  · -- Every occurrence of an earlier date comes before the one found, so it must not be ahead.
    intro none date u occurrence past
    rw [← Bool.not_eq_true]
    intro ahead
    have between := Instant.before_iff.2 (occurrence.rank_lt occurs (by omega))
    exact none date u occurrence ⟨ahead, between⟩
  · intro none date u occurrence
    by_cases past : date.day < ((Zone.fixed minutes).toLocal now).date.day
    · simp [none date u occurrence past]
    · exact fromToday date u occurrence (Int.not_lt.1 past)
  · intro notBeyond date u occurrence bad
    exact fromToday date u occurrence (occurrence.today_le notBeyond bad.1) bad

/-- An hour ahead of universal time, the sun sets at seven in the evening, and the occurrence is half
an hour before that. -/
theorem nextSun_first_beforeDusk :
    nextSun (fun _ => some ⟨68400, by decide⟩) (.fixed 60) (-30) [] ⟨0, 0, by decide⟩ =
      .found ⟨63000, 0, by decide⟩ ∧
    ∀ date u, SunOccurrence (fun _ => some ⟨68400, by decide⟩) 60 (-30) [] date u →
      ¬ ((⟨0, 0, by decide⟩ : Instant).before u = true ∧
        u.before ⟨63000, 0, by decide⟩ = true) := by
  have settled : ((⟨0, 0, by decide⟩ : Instant).plusSeconds (-3600)).inCalendar = true := by decide
  have found : nextSun (fun _ => some ⟨68400, by decide⟩) (.fixed 60) (-30) [] ⟨0, 0, by decide⟩ =
      .found ⟨63000, 0, by decide⟩ := by decide +kernel
  obtain ⟨-, -, -, -, first⟩ := nextSun_first settled found
  exact ⟨found, first (by decide)⟩

/-- Half an hour after midnight, the occurrence two hours after the event at eleven in the evening
before is half an hour ahead. It is passed over for the one a day later. -/
theorem nextSun_passes_lastNight :
    nextSun (fun _ => some ⟨82800, by decide⟩) .universal 120 [] ⟨1800, 0, by decide⟩ =
      .found ⟨90000, 0, by decide⟩ ∧
    SunOccurrence (fun _ => some ⟨82800, by decide⟩) 0 120 [] ⟨-1⟩ ⟨3600, 0, by decide⟩ ∧
    (⟨1800, 0, by decide⟩ : Instant).before ⟨3600, 0, by decide⟩ = true ∧
    (⟨3600, 0, by decide⟩ : Instant).before ⟨90000, 0, by decide⟩ = true := by
  refine ⟨by decide +kernel, ⟨by decide, .inl rfl, ⟨82800, by decide⟩, rfl, ?_⟩, by decide, by decide⟩
  rfl

end Schedule

end Hearth
