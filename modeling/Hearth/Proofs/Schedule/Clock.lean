import Hearth.Proofs.Schedule.Search
import Hearth.Proofs.Time.Readings

/-!
# Hearth.Proofs.Schedule.Clock

The next occurrence of a time of day, in a zone whose clock is put forward and back.

## Main definitions

`Zone.Dated`: a date that the calendar has, with all its instants.
`Schedule.ClockOccurrence`: the instant at which a date has a time of day.
`Schedule.IsNext`: the least of the occurrences after now.

## Main results

`Schedule.isBeyond_eq_false`: no time of a date leads out of the calendar if the calendar has the date.
`Schedule.nextTime_enumerates`: within the calendar the next occurrence is the least one after now, and
one call after another enumerates the occurrences.
-/

namespace Hearth

/-- The calendar has the date and every instant that falls on it. -/
structure Zone.Dated (z : Zone) (date : Date) : Prop where
  known : date.inCalendar = true
  instants : ∀ t, (z.toLocal t).date = date → t.inCalendar = true

/-- Where offsets are below a day, only the first and the last two dates of the calendar may lack
instants. -/
theorem Zone.dated_of_inner {z : Zone} {date : Date}
    (small : ∀ offset ∈ z.offsets, offset.natAbs < 1440) (low : Date.first.day + 2 ≤ date.day)
    (high : date.day + 2 ≤ Date.last.day) : z.Dated date := by
  refine ⟨?_, ?_⟩
  · simp only [Date.inCalendar, Bool.and_eq_true, decide_eq_true_eq]
    omega
  · rintro t rfl
    have bound := small _ (z.offsetAt_mem_offsets t)
    rw [LocalTime.day_date, rank_toLocal] at low high
    rw [Instant.inCalendar_iff]
    omega

theorem Weekday.exists_date (today : Date) (w : Weekday) :
    ∃ date : Date, today.day < date.day ∧ date.day ≤ today.day + 7 ∧ date.weekday = w := by
  have bound : w.index < 7 := by cases w <;> decide
  let ahead : Int := (w.index - (today.day + 4)) % 7
  refine ⟨⟨today.day + 1 + ahead⟩, ?_, ?_, ?_⟩
  · dsimp only [ahead]
    omega
  · dsimp only [ahead]
    omega
  · have place : ((today.day + 1 + ahead + 3) % 7).toNat = w.index := by
      dsimp only [ahead]
      omega
    rw [Date.weekday, place, Weekday.ofIndex_index]

namespace Schedule

variable {z : Zone} {time : TimeOfDay} {days : List Weekday} {date later : Date}
  {now t u : Instant}

/-! ### The occurrence of a date -/

/-- The first instant at which the clock shows the time on the date. If the clock skips the time, it is
the instant at which it shows one hour later. -/
inductive ClockOccurrence (z : Zone) (time : TimeOfDay) (date : Date) : Instant → Prop
  | shown {t : Instant} (shows : z.toLocal t = date.at time)
      (first : ∀ u, z.toLocal u = date.at time → u.before t = false) : ClockOccurrence z time date t
  | skipped {t : Instant} (never : ∀ u, z.toLocal u ≠ date.at time)
      (pushed : z.toLocal t = (date.at time).plusMinutes 60) : ClockOccurrence z time date t

theorem ClockOccurrence.date_eq (occurs : ClockOccurrence z time date t) (regular : z.Regular) :
    (z.toLocal t).date = date := by
  cases occurs with
  | shown shows first => rw [shows, Date.date_at]
  | skipped never pushed =>
    rcases regular.shown_or_skipped (date.at time) with ⟨u, shows⟩ | ⟨c, member, skips⟩
    · exact absurd shows (never u)
    · rw [pushed]
      exact (regular.shown_after_skip member skips).1

theorem ClockOccurrence.unique (occurs : ClockOccurrence z time date t)
    (again : ClockOccurrence z time date u) (regular : z.Regular) : t = u := by
  cases occurs with
  | shown shows first =>
    cases again with
    | shown shows' first' => exact Instant.eq_of_not_before (first' t shows) (first u shows')
    | skipped never pushed => exact absurd shows (never t)
  | skipped never pushed =>
    cases again with
    | shown shows' first' => exact absurd shows' (never u)
    | skipped never' pushed' =>
      rcases regular.shown_or_skipped (date.at time) with ⟨v, shows⟩ | ⟨c, member, skips⟩
      · exact absurd shows (never v)
      · obtain ⟨-, v, -, only⟩ := regular.shown_after_skip member skips
        rw [only t pushed, only u pushed']

/-- An earlier occurrence belongs to an earlier date. -/
theorem ClockOccurrence.day_lt_of_before (occurs : ClockOccurrence z time date t)
    (follows : ClockOccurrence z time later u) (regular : z.Regular) (order : t.before u = true) :
    date.day < later.day := by
  have mono := regular.date_mono (Int.le_of_lt (Instant.before_iff.1 order))
  rw [occurs.date_eq regular, follows.date_eq regular] at mono
  rcases Int.lt_or_eq_of_le mono with less | same
  · exact less
  · obtain rfl : date = later := by
      cases date
      cases later
      simpa using same
    rw [occurs.unique follows regular, Instant.before_irrefl] at order
    cases order

/-- What lies ahead belongs to the local date of now or a later one. -/
theorem ClockOccurrence.today_le (occurs : ClockOccurrence z time date t) (regular : z.Regular)
    (ahead : now.before t = true) : (z.toLocal now).date.day ≤ date.day := by
  have mono := regular.date_mono (Int.le_of_lt (Instant.before_iff.1 ahead))
  rwa [occurs.date_eq regular] at mono

/-! ### The occurrence is found -/

/-- Within the calendar, a time for which no instant is found is skipped by the clock. -/
theorem skipped_of_earliest?_eq_none (regular : z.Regular) (dated : z.Dated date)
    (none : z.earliest? (date.at time) = none) :
    (∀ u, z.toLocal u ≠ date.at time) ∧ ∃ c ∈ z.changes, c.Skips (date.at time) := by
  have never : ∀ u, z.toLocal u ≠ date.at time := by
    intro u shows
    rcases z.earliest?_spec (date.at time) with ⟨-, nowhere⟩ | ⟨first, some, -⟩
    · exact nowhere u (dated.instants u (by rw [shows, Date.date_at])) shows
    · simp [none] at some
  refine ⟨never, ?_⟩
  rcases regular.shown_or_skipped (date.at time) with ⟨u, shows⟩ | skips
  · exact absurd shows (never u)
  · exact skips

theorem exists_clockOccurrence (regular : z.Regular) (dated : z.Dated date) (time : TimeOfDay) :
    ∃ t, z.resolve? (date.at time) = some t ∧ ClockOccurrence z time date t := by
  rcases z.earliest?_spec (date.at time) with ⟨none, -⟩ | ⟨first, found, shows, -, least⟩
  · obtain ⟨never, c, member, skips⟩ := skipped_of_earliest?_eq_none regular dated none
    obtain ⟨sameDate, t, pushed, only⟩ := regular.shown_after_skip member skips
    have known : t.inCalendar = true := dated.instants t (by rw [pushed, sameDate])
    rcases z.earliest?_spec ((date.at time).plusMinutes 60) with
      ⟨-, nowhere⟩ | ⟨first, found, shows, -⟩
    · exact absurd pushed (nowhere t known)
    · exact ⟨first, by simp [Zone.resolve?, none, found], .skipped never shows⟩
  · refine ⟨first, by simp [Zone.resolve?, found], .shown shows ?_⟩
    intro u also
    have known : u.inCalendar = true := dated.instants u (by rw [also, Date.date_at])
    exact Instant.before_eq_false_iff.2 (least u known also)

theorem resolve?_eq (regular : z.Regular) (dated : z.Dated date)
    (occurs : ClockOccurrence z time date t) : z.resolve? (date.at time) = some t := by
  obtain ⟨u, found, also⟩ := exists_clockOccurrence regular dated time
  rw [found, also.unique occurs regular]

/-! ### The next occurrence -/

/-- The least of the occurrences after now on allowed dates. -/
structure IsNext (z : Zone) (time : TimeOfDay) (days : List Weekday) (now t : Instant) : Prop where
  after : now.before t = true
  occurs : ∃ date, Allows days date ∧ ClockOccurrence z time date t
  least : ∀ date u, Allows days date → ClockOccurrence z time date u → now.before u = true →
    u.before t = false

theorem nextTime_eq : nextTime z time days now =
    search z now ((candidateDates (z.toLocal now).date days).filterMap
      fun date => some (date.at time)) := by
  rw [nextTime, clockCandidates, ← List.filterMap_eq_map]
  rfl

/-- No time of a date leads out of the calendar if the calendar has the date. -/
theorem isBeyond_eq_false (regular : z.Regular) (dated : z.Dated date) (time : TimeOfDay) :
    isBeyond z (date.at time) = false := by
  have known : (date.at time).inCalendar = true := by
    rw [LocalTime.inCalendar, Date.date_at]
    exact dated.known
  unfold isBeyond
  cases found : z.earliest? (date.at time) with
  | some first => simp [known]
  | none =>
    obtain ⟨-, c, among, skips⟩ := skipped_of_earliest?_eq_none regular dated found
    have pushed : ((date.at time).plusMinutes 60).inCalendar = true := by
      rw [LocalTime.inCalendar, (regular.shown_after_skip among skips).1]
      exact dated.known
    simp [known, pushed]

/-- If an occurrence lies ahead among the dates that are looked at, and the calendar has the dates up
to it, the least one is found. -/
theorem nextTime_isNext (regular : z.Regular) (allowed : Allows days date)
    (occurs : ClockOccurrence z time date t) (ahead : now.before t = true)
    (near : date.day < (z.toLocal now).date.day + 8)
    (dated : ∀ d : Date, (z.toLocal now).date.day ≤ d.day → d.day ≤ date.day → z.Dated d) :
    ∃ first, nextTime z time days now = .found first ∧ IsNext z time days now first ∧
      (z.toLocal first).date.day ≤ date.day := by
  have notPast := occurs.today_le regular ahead
  have today : (z.toLocal now).inCalendar = true := (dated _ (Int.le_refl _) notPast).known
  have member : date ∈ candidateDates (z.toLocal now).date days :=
    mem_candidateDates.2 ⟨notPast, near, (dated date notPast (Int.le_refl _)).known, allowed⟩
  have its := resolve?_eq regular (dated date notPast (Int.le_refl _)) occurs
  rw [nextTime_eq]
  obtain ⟨first, found⟩ : ∃ first, search z now ((candidateDates (z.toLocal now).date
      days).filterMap fun date => some (date.at time)) = .found first := by
    refine exists_search today member its ahead ?_
    rintro d among reached _ ⟨⟩
    exact isBeyond_eq_false regular (dated d (mem_candidateDates.1 among).1 reached) time
  obtain ⟨hit, looked, resolved, after, missed⟩ := search_found found
  obtain ⟨low, -, -, free⟩ := mem_candidateDates.1 looked
  have notBehind : hit.day ≤ date.day := by
    rcases Int.lt_or_le date.day hit.day with behind | fine
    · have past := missed date member behind t its
      rw [ahead] at past
      cases past
    · exact fine
  obtain ⟨v, same, itself⟩ := exists_clockOccurrence regular (dated hit low notBehind) time
  obtain rfl : v = first := by simpa [same] using resolved
  refine ⟨v, found, ⟨after, ⟨hit, free, itself⟩, ?_⟩, by rwa [itself.date_eq regular]⟩
  intro other u allows occursThere aheadToo
  rw [← Bool.not_eq_true]
  intro sooner
  -- The date of an earlier occurrence would have been looked at first.
  have earlier := occursThere.day_lt_of_before itself regular sooner
  have notBefore := occursThere.today_le regular aheadToo
  have inside := dated other notBefore (by omega)
  have among : other ∈ candidateDates (z.toLocal now).date days :=
    mem_candidateDates.2 ⟨notBefore, by omega, inside.known, allows⟩
  have past := missed other among earlier u (resolve?_eq regular inside occursThere)
  rw [aheadToo] at past
  cases past

/-- A week has a date of every day, so there is always a next occurrence. -/
theorem exists_isNext (regular : z.Regular) (time : TimeOfDay) (days : List Weekday)
    (dated : ∀ d : Date, (z.toLocal now).date.day ≤ d.day → d.day ≤ (z.toLocal now).date.day + 7 →
      z.Dated d) :
    ∃ t, nextTime z time days now = .found t ∧ IsNext z time days now t ∧
      (z.toLocal t).date.day ≤ (z.toLocal now).date.day + 7 := by
  obtain ⟨date, low, high, allowed⟩ : ∃ date : Date, (z.toLocal now).date.day < date.day ∧
      date.day ≤ (z.toLocal now).date.day + 7 ∧ Allows days date := by
    cases days with
    | nil =>
      obtain ⟨date, low, high, -⟩ := Weekday.exists_date (z.toLocal now).date .monday
      exact ⟨date, low, high, .inl rfl⟩
    | cons w rest =>
      obtain ⟨date, low, high, same⟩ := Weekday.exists_date (z.toLocal now).date w
      exact ⟨date, low, high, .inr (same ▸ List.mem_cons_self)⟩
  obtain ⟨t, -, occurs⟩ := exists_clockOccurrence regular (dated date (by omega) high) time
  have ahead : now.before t = true := by
    cases back : now.before t with
    | true => rfl
    | false =>
      have mono := regular.date_mono (Instant.before_eq_false_iff.1 back)
      rw [occurs.date_eq regular] at mono
      omega
  obtain ⟨first, found, isNext, near⟩ := nextTime_isNext regular allowed occurs ahead (by omega)
    fun d from_ upTo => dated d from_ (by omega)
  exact ⟨first, found, isNext, by omega⟩

/-! ### One occurrence after another -/

/-- In a regular zone the next occurrence is the least one after now, as long as the calendar has the
dates that are looked at; and one call after another enumerates the occurrences, none twice and
none left out. -/
theorem nextTime_enumerates (regular : z.Regular) (time : TimeOfDay) (days : List Weekday)
    (now : Instant) :
    ((∀ d : Date, (z.toLocal now).date.day ≤ d.day → d.day ≤ (z.toLocal now).date.day + 7 →
        z.Dated d) →
      ∃ t, nextTime z time days now = .found t ∧ IsNext z time days now t ∧
        Allows days (z.toLocal t).date) ∧
    ∀ (place : Option Coordinates) (count : Nat),
      (∀ d : Date, (z.toLocal now).date.day ≤ d.day →
        d.day ≤ (z.toLocal now).date.day + 7 * count → z.Dated d) →
      ∃ ts : List Instant,
        (Schedule.clock time days).occurrences? z place count now = some (ts.map .ok) ∧
        ts.length = count ∧
        (now :: ts).Pairwise (fun s t => s.before t = true) ∧
        (∀ t ∈ ts, ∃ date, Allows days date ∧ ClockOccurrence z time date t) ∧
        ∀ date u, Allows days date → ClockOccurrence z time date u → now.before u = true →
          u ∈ ts ∨ ∀ t ∈ ts, t.before u = true := by
  constructor
  · intro dated
    obtain ⟨t, found, isNext, -⟩ := exists_isNext regular time days dated
    obtain ⟨date, allowed, occurs⟩ := isNext.occurs
    exact ⟨t, found, isNext, by rwa [occurs.date_eq regular]⟩
  · intro place count
    -- The induction is on the number of calls; the next one starts at most a week later.
    induction count generalizing now with
    | zero =>
      intro _
      exact ⟨[], rfl, rfl, by simp, by simp, fun _ _ _ _ _ => .inr (by simp)⟩
    | succ count ih =>
      intro dated
      have week : ∀ d : Date, (z.toLocal now).date.day ≤ d.day →
          d.day ≤ (z.toLocal now).date.day + 7 → z.Dated d :=
        fun d low high => dated d low (by omega)
      obtain ⟨t, found, isNext, near⟩ := exists_isNext regular time days week
      have notBack := regular.date_mono (Int.le_of_lt (Instant.before_iff.1 isNext.after))
      obtain ⟨ts, runs, length, ordered, occur, complete⟩ := ih t
        fun d low high => dated d (Int.le_trans notBack low) (by omega)
      refine ⟨t :: ts, ?_, by simp [length], ?_, ?_, ?_⟩
      · simp [occurrences?, nextAfter, orFault, found, runs]
      · refine List.pairwise_cons.2 ⟨?_, ordered⟩
        refine List.forall_mem_cons.2 ⟨isNext.after, ?_⟩
        intro u member
        exact Instant.before_trans isNext.after ((List.pairwise_cons.1 ordered).1 u member)
      · exact List.forall_mem_cons.2 ⟨isNext.occurs, occur⟩
      · intro date u allowed occurs ahead
        cases after : t.before u with
        | false =>
          have same : t = u :=
            Instant.eq_of_not_before after (isNext.least date u allowed occurs ahead)
          exact .inl (same ▸ List.mem_cons_self)
        | true =>
          rcases complete date u allowed occurs after with member | beyond
          · exact .inl (List.mem_cons_of_mem _ member)
          · exact .inr (List.forall_mem_cons.2 ⟨after, beyond⟩)

/-- One hour ahead of universal time, and two in the summer of 1970, from 29 March to 25 October. -/
def summerZone : Zone :=
  ⟨60, [(⟨7520400, 0, Instant.zero_nanos_lt⟩, 120), (⟨25664400, 0, Instant.zero_nanos_lt⟩, 60)]⟩

theorem summerZone_regular : summerZone.Regular := by
  have changes : summerZone.changes =
      [⟨⟨7520400, 0, by decide⟩, 60, 120⟩, ⟨⟨25664400, 0, by decide⟩, 120, 60⟩] := rfl
  refine ⟨?_, ?_, ?_, ?_⟩
  · rw [changes]
    decide
  · rw [changes]
    decide
  · rw [changes]
    refine List.forall_mem_cons.2 ⟨⟨⟨87⟩, ?_⟩, List.forall_mem_singleton.2 ⟨⟨297⟩, ?_⟩⟩
    all_goals
      intro shown either
      have day := shown.day_date
      simp only [Zone.Change.skips_iff, Zone.Change.repeats_iff, Instant.rank] at either
      cases same : shown.date
      simp only [same, Date.mk.injEq] at day ⊢
      omega
  · rw [changes]
    refine List.forall_mem_cons.2 ⟨?_, List.forall_mem_singleton.2 ?_⟩
    all_goals
      intro shown skips
      have bound := shown.nanos_lt
      simp only [Zone.Change.skips_iff, Instant.rank, LocalTime.rank] at skips
      simp only [LocalTime.timeOfDay, TimeOfDay.ofSeconds]
      omega

/-- On the day before the clock is put forward from two to three: half past two is skipped on the next
day, and shown again on the day after it. -/
theorem nextTime_enumerates_summerZone :
    nextTime summerZone ⟨9000, by decide⟩ [] ⟨7473600, 0, by decide⟩ =
      .found ⟨7522200, 0, by decide⟩ ∧
    IsNext summerZone ⟨9000, by decide⟩ [] ⟨7473600, 0, by decide⟩ ⟨7522200, 0, by decide⟩ ∧
    ∃ ts : List Instant, ts.length = 300 ∧
      ∀ date u, ClockOccurrence summerZone ⟨9000, by decide⟩ date u →
        (⟨7473600, 0, by decide⟩ : Instant).before u = true →
        u ∈ ts ∨ ∀ t ∈ ts, t.before u = true := by
  have small : ∀ offset ∈ summerZone.offsets, offset.natAbs < 1440 := by decide
  have today : (summerZone.toLocal ⟨7473600, 0, by decide⟩).date.day = 86 := by decide
  have dated (days : Int) (few : days ≤ 2100) (d : Date) (low : 86 ≤ d.day)
      (high : d.day ≤ 86 + days) : summerZone.Dated d :=
    Zone.dated_of_inner small (by simp only [Date.first]; omega) (by simp only [Date.last]; omega)
  obtain ⟨next, enumerates⟩ := nextTime_enumerates summerZone_regular ⟨9000, by decide⟩ []
    ⟨7473600, 0, by decide⟩
  rw [today] at next enumerates
  obtain ⟨t, found, isNext, -⟩ := next (dated 7 (by decide))
  obtain ⟨ts, -, length, -, -, complete⟩ := enumerates none 300 (dated 2100 (by decide))
  have first : nextTime summerZone ⟨9000, by decide⟩ [] ⟨7473600, 0, by decide⟩ =
      .found ⟨7522200, 0, by decide⟩ := by decide +kernel
  obtain rfl : t = ⟨7522200, 0, by decide⟩ := by simpa [first] using found.symm
  exact ⟨first, isNext, ts, length, fun date u occurs => complete date u (.inl rfl) occurs⟩

/-- On the last evening of the calendar nothing is found, although the day after it would have its
occurrence. -/
theorem nextTime_lastEvening :
    Zone.universal.Regular ∧
    nextTime .universal ⟨25200, by decide⟩ [] ⟨8210266873200, 0, by decide⟩ = .nothing ∧
    ClockOccurrence .universal ⟨25200, by decide⟩ (Date.last.plus 1)
      ⟨8210266902000, 0, by decide⟩ ∧
    (⟨8210266873200, 0, by decide⟩ : Instant).before ⟨8210266902000, 0, by decide⟩ = true := by
  refine ⟨⟨nofun, .nil, nofun, nofun⟩, by decide +kernel, .shown (by decide) ?_, by decide⟩
  intro u shows
  have same := congrArg LocalTime.rank shows
  rw [Zone.rank_toLocal] at same
  have offset : Zone.universal.offsetAt u = 0 := rfl
  rw [Instant.before_eq_false_iff]
  rw [offset, Date.rank_at] at same
  simp only [Instant.rank, Date.last, Date.plus] at same ⊢
  omega

end Schedule

end Hearth
