import Hearth.Proofs.Schedule.Clock

/-!
# Hearth.Proofs.Schedule.Weekdays

Which day an occurrence falls on, and when the search gives up, in any zone whatever: its offsets may
change by any amount and as often as one likes.

The dates that are looked at have allowed days. The instant that is found for a date shows a local time
of that date, unless a time late in the evening is skipped.

## Main definitions

* `Schedule.Reads`: the instant of the calendar that a date has for a time of day.
* `Schedule.Ahead`: an allowed date among today's and the seven after it.

## Main result

`nextTime_weekday`: as long as the calendar has the local date of now, what is found lies ahead and falls
on an allowed day; nothing is found exactly when no date ahead has an instant after now; and something is
found when the local date never goes back and an allowed date of the coming week has the time.
-/

namespace Hearth

namespace Zone

variable {z : Zone} {shown : LocalTime} {t : Instant}

theorem earliest?_eq_none_iff :
    z.earliest? shown = none ↔ ∀ t, t.inCalendar = true → z.toLocal t ≠ shown := by
  rcases z.earliest?_spec shown with ⟨none, never⟩ | ⟨first, found, shows, known, -⟩
  · exact ⟨fun _ => never, fun _ => none⟩
  · exact ⟨fun none => by simp [found] at none, fun never => absurd shows (never first known)⟩

theorem earliest?_eq_some_iff :
    z.earliest? shown = some t ↔ t.inCalendar = true ∧ z.toLocal t = shown ∧
      ∀ u, u.inCalendar = true → z.toLocal u = shown → u.before t = false := by
  rcases z.earliest?_spec shown with ⟨none, never⟩ | ⟨first, found, shows, known, least⟩
  · constructor
    · intro some
      simp [none] at some
    · rintro ⟨known, shows, -⟩
      exact absurd shows (never t known)
  · have before : ∀ u, u.inCalendar = true → z.toLocal u = shown → u.before first = false :=
      fun u dated also => Instant.before_eq_false_iff.2 (least u dated also)
    constructor
    · intro some
      obtain rfl : first = t := Option.some.inj (found.symm.trans some)
      exact ⟨known, shows, before⟩
    · rintro ⟨dated, also, earliest⟩
      rw [found, Instant.eq_of_not_before (earliest first known shows) (before t dated also)]

end Zone

namespace Schedule

variable {z : Zone} {time : TimeOfDay} {days : List Weekday} {date : Date} {now t u : Instant}

/-- The first instant of the calendar at which the clock shows the time on the date. If it shows the
time at none, it is the first one at which it shows an hour later. -/
inductive Reads (z : Zone) (time : TimeOfDay) (date : Date) : Instant → Prop
  | shown {t : Instant} (known : t.inCalendar = true) (shows : z.toLocal t = date.at time)
      (first : ∀ u, u.inCalendar = true → z.toLocal u = date.at time → u.before t = false) :
      Reads z time date t
  | pushed {t : Instant} (never : ∀ u, u.inCalendar = true → z.toLocal u ≠ date.at time)
      (known : t.inCalendar = true) (shows : z.toLocal t = (date.at time).plusMinutes 60)
      (first : ∀ u, u.inCalendar = true → z.toLocal u = (date.at time).plusMinutes 60 →
        u.before t = false) : Reads z time date t

/-- An allowed date of the calendar, today or within the seven days after it. -/
structure Ahead (z : Zone) (days : List Weekday) (now : Instant) (date : Date) : Prop where
  notPast : (z.toLocal now).date.day ≤ date.day
  near : date.day ≤ (z.toLocal now).date.day + 7
  known : date.inCalendar = true
  allowed : date.weekday ∈ days

/-- The clock shows the time on the date at an instant of the calendar or, as long as this is not past
midnight, it shows an hour later. -/
def Has (z : Zone) (time : TimeOfDay) (date : Date) : Prop :=
  ∃ u, u.inCalendar = true ∧ (z.toLocal u = date.at time ∨
    time.second < 82800 ∧ z.toLocal u = (date.at time).plusMinutes 60)

/-! ### What is read -/

theorem resolve?_eq_some_iff : z.resolve? (date.at time) = some t ↔ Reads z time date t := by
  unfold Zone.resolve?
  cases shown : z.earliest? (date.at time) with
  | none =>
    -- The time is never shown, so all depends on the time an hour later.
    have never := Zone.earliest?_eq_none_iff.1 shown
    rw [Option.orElse_none, Zone.earliest?_eq_some_iff]
    constructor
    · rintro ⟨known, shows, first⟩
      exact .pushed never known shows first
    · rintro (⟨known, shows, -⟩ | ⟨-, known, shows, first⟩)
      · exact absurd shows (never t known)
      · exact ⟨known, shows, first⟩
  | some first =>
    rw [Option.orElse_some, ← shown, Zone.earliest?_eq_some_iff]
    have there := Zone.earliest?_eq_some_iff.1 shown
    constructor
    · rintro ⟨known, shows, first⟩
      exact .shown known shows first
    · rintro (⟨known, shows, first⟩ | ⟨never, -⟩)
      · exact ⟨known, shows, first⟩
      · exact absurd there.2.1 (never first there.1)

theorem date_plusHour (early : time.second < 82800) :
    ((date.at time).plusMinutes 60).date = date := by
  cases date
  simp only [LocalTime.date, LocalTime.plusMinutes, Date.at, Date.mk.injEq]
  omega

theorem timeOfDay_plusHour : ((date.at time).plusMinutes 60).timeOfDay ≠ time := by
  intro same
  have bound := time.second_lt
  have second := congrArg TimeOfDay.second same
  simp only [LocalTime.timeOfDay, LocalTime.plusMinutes, Date.at, TimeOfDay.ofSeconds] at second
  omega

/-- What is read without an hour's delay, or before eleven in the evening, is read on the date. -/
theorem Reads.date_eq (reads : Reads z time date t)
    (within : (z.toLocal t).timeOfDay = time ∨ time.second < 82800) : (z.toLocal t).date = date := by
  cases reads with
  | shown known shows first => rw [shows, Date.date_at]
  | pushed never known shows first =>
    rw [shows] at within ⊢
    exact date_plusHour (within.resolve_left timeOfDay_plusHour)

/-- What has the time can be read. -/
theorem Has.exists_reads (has : Has z time date) :
    ∃ t, Reads z time date t ∧ (z.toLocal t).date = date := by
  obtain ⟨u, known, shows⟩ := has
  cases shown : z.earliest? (date.at time) with
  | some t =>
    obtain ⟨dated, itself, first⟩ := Zone.earliest?_eq_some_iff.1 shown
    exact ⟨t, .shown dated itself first, by rw [itself, Date.date_at]⟩
  | none =>
    have never := Zone.earliest?_eq_none_iff.1 shown
    obtain ⟨early, later⟩ := shows.resolve_left (never u known)
    cases delayed : z.earliest? ((date.at time).plusMinutes 60) with
    | some t =>
      obtain ⟨dated, itself, first⟩ := Zone.earliest?_eq_some_iff.1 delayed
      exact ⟨t, .pushed never dated itself first, by rw [itself, date_plusHour early]⟩
    | none => exact absurd later (Zone.earliest?_eq_none_iff.1 delayed u known)

/-! ### The search -/

theorem mem_candidateDates_iff (nonempty : days ≠ []) :
    date ∈ candidateDates (z.toLocal now).date days ↔ Ahead z days now date := by
  rw [mem_candidateDates]
  constructor
  · rintro ⟨low, high, known, allowed⟩
    exact ⟨low, by omega, known, allowed.resolve_left nonempty⟩
  · rintro ⟨low, high, known, allowed⟩
    exact ⟨low, by omega, known, .inr allowed⟩

/-- Before eleven in the evening an hour's delay stays on the date, and so in the calendar. -/
theorem isBeyond_at_of_early (known : date.inCalendar = true) (early : time.second < 82800) :
    isBeyond z (date.at time) = false := by
  have shown : (date.at time).inCalendar = true := by
    rwa [LocalTime.inCalendar, Date.date_at]
  have pushed : ((date.at time).plusMinutes 60).inCalendar = true := by
    rwa [LocalTime.inCalendar, date_plusHour early]
  simp [isBeyond, shown, pushed]

/-- What leads out of the calendar is a late time on its last date. -/
theorem day_of_isBeyond (known : date.inCalendar = true) (beyond : isBeyond z (date.at time) = true) :
    z.earliest? (date.at time) = none ∧ 82800 ≤ time.second ∧ date.day = Date.last.day := by
  have late : 82800 ≤ time.second := by
    rcases Nat.lt_or_ge time.second 82800 with early | late
    · rw [isBeyond_at_of_early known early] at beyond
      cases beyond
    · exact late
  have bound := time.second_lt
  simp only [isBeyond, LocalTime.inCalendar, Date.date_at, known, Bool.not_true, Bool.false_or,
    Bool.and_eq_true, Option.isNone_iff_eq_none, Bool.not_eq_true'] at beyond
  obtain ⟨skipped, outside⟩ := beyond
  refine ⟨skipped, late, ?_⟩
  rw [← Bool.not_eq_true] at outside
  simp only [Date.inCalendar, Bool.and_eq_true, decide_eq_true_eq] at known outside
  simp only [LocalTime.date, LocalTime.plusMinutes, Date.at] at outside
  omega

/-- What has the time does not lead out of the calendar. -/
theorem Has.isBeyond_eq_false (has : Has z time date) (known : date.inCalendar = true) :
    isBeyond z (date.at time) = false := by
  rw [← Bool.not_eq_true]
  intro beyond
  obtain ⟨skipped, late, -⟩ := day_of_isBeyond known beyond
  obtain ⟨u, dated, shows⟩ := has
  rcases shows with shows | ⟨early, -⟩
  · exact Zone.earliest?_eq_none_iff.1 skipped u dated shows
  · omega

theorem nextTime_found (nonempty : days ≠ []) (found : nextTime z time days now = .found t) :
    now.before t = true ∧ ∃ date, Ahead z days now date ∧ Reads z time date t := by
  rw [nextTime_eq] at found
  obtain ⟨date, looked, its, after, -⟩ := search_found found
  exact ⟨after, date, (mem_candidateDates_iff nonempty).1 looked, resolve?_eq_some_iff.1 its⟩

/-- A date ahead that leads to an instant after now ends the search, unless an earlier date has led it
out of the calendar; but no date comes after the last one of the calendar. -/
theorem exists_nextTime (dated : (z.toLocal now).inCalendar = true) (nonempty : days ≠ [])
    (ahead : Ahead z days now date) (reads : Reads z time date t) (after : now.before t = true)
    (inside : isBeyond z (date.at time) = false) : ∃ u, nextTime z time days now = .found u := by
  rw [nextTime_eq]
  refine exists_search dated ((mem_candidateDates_iff nonempty).2 ahead)
    (resolve?_eq_some_iff.2 reads) after ?_
  rintro d among reached _ ⟨⟩
  rw [← Bool.not_eq_true]
  intro beyond
  obtain ⟨-, -, last⟩ := day_of_isBeyond (mem_candidateDates.1 among).2.2.1 beyond
  have known := ahead.known
  simp only [Date.inCalendar, Bool.and_eq_true, decide_eq_true_eq] at known
  obtain rfl : d = date := by
    cases d
    cases date
    simp only [Date.mk.injEq] at last reached known ⊢
    omega
  rw [inside] at beyond
  cases beyond

theorem nextTime_eq_nothing_iff (dated : (z.toLocal now).inCalendar = true) (nonempty : days ≠ [])
    (early : time.second < 82800) : nextTime z time days now = .nothing ↔
      ∀ date t, Ahead z days now date → Reads z time date t → now.before t = false := by
  constructor
  · intro none date t ahead reads
    -- The search would have stopped at this date, if not before it.
    rw [← Bool.not_eq_true]
    intro after
    obtain ⟨u, some⟩ := exists_nextTime dated nonempty ahead reads after
      (isBeyond_at_of_early ahead.known early)
    simp [none] at some
  · intro past
    have ends := ends_search days (fun date => some (date.at time)) dated
    rw [← nextTime_eq] at ends
    generalize nextTime z time days now = sought at ends
    cases ends with
    | nothing => rfl
    | found member its after _ =>
      rw [past _ _ ((mem_candidateDates_iff nonempty).1 member) (resolve?_eq_some_iff.1 its)] at after
      cases after
    | crashed member its beyond _ =>
      cases its
      rw [isBeyond_at_of_early (mem_candidateDates.1 member).2.2.1 early] at beyond
      cases beyond

/-- As long as the calendar has the local date of now: what is found lies ahead, and unless it is a late
time that the clock skips it falls on an allowed day. For a time before eleven in the evening nothing is
found exactly when no date ahead has an instant after now; and something is found when the local date
never goes back and an allowed date after today's has the time. -/
theorem nextTime_weekday (z : Zone) (time : TimeOfDay) (now : Instant)
    (dated : (z.toLocal now).inCalendar = true) (nonempty : days ≠ []) :
    (∀ t, nextTime z time days now = .found t → now.before t = true ∧
      ((z.toLocal t).timeOfDay = time ∨ time.second < 82800 →
        (z.toLocal t).date.weekday ∈ days)) ∧
    (time.second < 82800 → (nextTime z time days now = .nothing ↔
      ∀ date t, Ahead z days now date → Reads z time date t → now.before t = false)) ∧
    ((∀ s t : Instant, s.before t = true → (z.toLocal s).date.day ≤ (z.toLocal t).date.day) →
      ∀ date, Ahead z days now date → (z.toLocal now).date.day < date.day → Has z time date →
        ∃ t, nextTime z time days now = .found t) := by
  refine ⟨fun t found => ?_, nextTime_eq_nothing_iff dated nonempty,
    fun forward date ahead later has => ?_⟩
  · obtain ⟨after, date, ahead, reads⟩ := nextTime_found nonempty found
    refine ⟨after, fun within => ?_⟩
    -- The date was chosen by its day, and the instant shows that date.
    rw [reads.date_eq within]
    exact ahead.allowed
  · obtain ⟨t, reads, same⟩ := has.exists_reads
    have after : now.before t = true := by
      cases back : now.before t with
      | true => rfl
      | false =>
        -- What is shown on a later date does not come before now.
        cases before : t.before now with
        | true =>
          have order := forward t now before
          rw [same] at order
          omega
        | false =>
          rw [Instant.eq_of_not_before back before, same] at later
          omega
    exact exists_nextTime dated nonempty ahead reads after (has.isBeyond_eq_false ahead.known)

/-- On the Saturday before the clock is put forward, with Sundays allowed: half past two is skipped on
the Sunday, and half past three is found. -/
theorem nextTime_weekday_spring :
    ∃ t, nextTime summerZone ⟨9000, by decide⟩ [.sunday] ⟨7473600, 0, by decide⟩ = .found t ∧
      (⟨7473600, 0, by decide⟩ : Instant).before t = true ∧
      (summerZone.toLocal t).date.weekday ∈ [Weekday.sunday] := by
  obtain ⟨sound, -, complete⟩ := nextTime_weekday summerZone ⟨9000, by decide⟩
    ⟨7473600, 0, by decide⟩ (by decide) (List.cons_ne_nil Weekday.sunday [])
  have forward : ∀ s t : Instant, s.before t = true →
      (summerZone.toLocal s).date.day ≤ (summerZone.toLocal t).date.day :=
    fun s t order => summerZone_regular.date_mono (Int.le_of_lt (Instant.before_iff.1 order))
  have ahead : Ahead summerZone [.sunday] ⟨7473600, 0, by decide⟩ ⟨87⟩ :=
    ⟨by decide, by decide, by decide, by decide⟩
  obtain ⟨t, found⟩ := complete forward ⟨87⟩ ahead (by decide)
    ⟨⟨7522200, 0, by decide⟩, by decide, .inr ⟨by decide, by decide⟩⟩
  obtain ⟨after, allowed⟩ := sound t found
  exact ⟨t, found, after, allowed (.inr (by decide))⟩

/-- From ten hours behind universal time to fourteen hours ahead of it, at the end of Thursday
29 December 2011: there is no Friday. -/
def islandZone : Zone := ⟨-600, [(⟨1325239200, 0, Instant.zero_nanos_lt⟩, 840)]⟩

/-- On the Thursday, noon on a Friday is not found: of the dates that are looked at one only is a
Friday, and it is skipped. A week after it there is one. -/
theorem nextTime_misses_friday :
    nextTime islandZone ⟨43200, by decide⟩ [.friday] ⟨1325188800, 0, by decide⟩ = .nothing ∧
    (⟨1325188800, 0, by decide⟩ : Instant).before ⟨1325800800, 0, by decide⟩ = true ∧
    islandZone.toLocal ⟨1325800800, 0, by decide⟩ = Date.at ⟨15345⟩ ⟨43200, by decide⟩ ∧
    Date.weekday ⟨15345⟩ = .friday :=
  ⟨by decide +kernel, by decide, by decide, by decide⟩

end Schedule

end Hearth
