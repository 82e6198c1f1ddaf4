import Hearth.Time.Clock

/-!
# Hearth.Proofs.Time.Order

Instants and local times as places on one line, so that what is said about their order is linear
arithmetic.

## Main definitions

`Instant.rank` and `LocalTime.rank`: the place on the line. Every second has room for a leap second
there, so a rank is a whole number of half nanoseconds.

## Main results

`Instant.before_iff`: one instant comes before another if its rank is smaller.
`LocalTime.day_date`: the date of a local time is read off its rank.
-/

namespace Hearth

namespace Instant

/-- The place of an instant in time. -/
def rank (t : Instant) : Int := t.second * 2000000000 + t.nanos

/-- So many seconds later, or earlier if the number is negative. -/
def plusSeconds (t : Instant) (n : Int) : Instant := { t with second := t.second + n }

theorem rank_plusSeconds (t : Instant) (n : Int) :
    (t.plusSeconds n).rank = t.rank + n * 2000000000 := by
  simp only [rank, plusSeconds]
  omega

theorem before_iff {s t : Instant} : s.before t = true ↔ s.rank < t.rank := by
  have first := s.nanos_lt
  have second := t.nanos_lt
  simp only [before, rank, Bool.or_eq_true, Bool.and_eq_true, decide_eq_true_eq, beq_iff_eq]
  omega

theorem before_eq_false_iff {s t : Instant} : s.before t = false ↔ t.rank ≤ s.rank := by
  rw [← Bool.not_eq_true, before_iff, Int.not_lt]

theorem notAfter_iff {s t : Instant} : s.notAfter t = true ↔ s.rank ≤ t.rank := by
  rw [notAfter, Bool.not_eq_true', before_eq_false_iff]

theorem notAfter_eq_false_iff {s t : Instant} : s.notAfter t = false ↔ t.rank < s.rank := by
  rw [← Bool.not_eq_true, notAfter_iff, Int.not_le]

theorem eq_of_rank_eq {s t : Instant} (same : s.rank = t.rank) : s = t :=
  eq_of_not_before (before_eq_false_iff.2 (Int.le_of_eq same.symm))
    (before_eq_false_iff.2 (Int.le_of_eq same))

theorem inCalendar_iff {t : Instant} : t.inCalendar = true ↔
    Date.first.day ≤ t.rank / 172800000000000 ∧ t.rank / 172800000000000 ≤ Date.last.day := by
  have bound := t.nanos_lt
  have day : t.rank / 172800000000000 = t.second / 86400 := by
    simp only [rank]
    omega
  simp only [inCalendar, Date.inCalendar, Bool.and_eq_true, decide_eq_true_eq, day]

/-- The calendar has no gaps. -/
theorem inCalendar_of_between {s t u : Instant} (low : s.inCalendar = true)
    (high : u.inCalendar = true) (after : s.rank ≤ t.rank) (before : t.rank ≤ u.rank) :
    t.inCalendar = true := by
  rw [inCalendar_iff] at low high ⊢
  omega

end Instant

namespace LocalTime

/-- The place of a local time among the local times. -/
def rank (t : LocalTime) : Int := t.second * 2000000000 + t.nanos

theorem eq_of_rank_eq {s t : LocalTime} (same : s.rank = t.rank) : s = t := by
  have first := s.nanos_lt
  have second := t.nanos_lt
  cases s
  cases t
  simp only [rank, mk.injEq] at *
  omega

theorem rank_plusMinutes (t : LocalTime) (n : Int) :
    (t.plusMinutes n).rank = t.rank + n * 120000000000 := by
  simp only [rank, plusMinutes]
  omega

theorem day_date (t : LocalTime) : t.date.day = t.rank / 172800000000000 := by
  have bound := t.nanos_lt
  simp only [date, rank]
  omega

end LocalTime

theorem Date.rank_at (d : Date) (time : TimeOfDay) :
    (d.at time).rank = d.day * 172800000000000 + time.second * 2000000000 := by
  simp only [Date.at, LocalTime.rank]
  omega

namespace Zone

theorem rank_toLocal (z : Zone) (t : Instant) :
    (z.toLocal t).rank = t.rank + z.offsetAt t * 120000000000 := by
  simp only [toLocal, LocalTime.rank, Instant.rank]
  omega

theorem rank_instantAt (offset : Int) (shown : LocalTime) :
    (instantAt offset shown).rank = shown.rank - offset * 120000000000 := by
  simp only [instantAt, LocalTime.rank, Instant.rank]
  omega

/-! ### The first instant at which a local time is shown -/

theorem offsetAt_mem_offsets (z : Zone) (t : Instant) : z.offsetAt t ∈ z.offsets := by
  obtain ⟨base, transitions⟩ := z
  simp only [offsetAt, offsets]
  induction transitions generalizing base with
  | nil => exact List.mem_cons_self
  | cons change rest ih =>
    obtain ⟨start, new⟩ := change
    simp only [List.foldl_cons, List.map_cons]
    by_cases begun : start.notAfter t = true
    · simp only [begun, ↓reduceIte]
      exact List.mem_cons_of_mem _ (ih new)
    · simp only [begun, Bool.false_eq_true, ↓reduceIte]
      rcases List.mem_cons.1 (ih base) with same | later
      · rw [same]
        exact List.mem_cons_self
      · exact List.mem_cons_of_mem _ (List.mem_cons_of_mem _ later)

theorem mem_solutions_iff {z : Zone} {shown : LocalTime} {t : Instant} :
    t ∈ z.solutions shown ↔ z.toLocal t = shown ∧ t.inCalendar = true := by
  constructor
  · intro solution
    obtain ⟨_, _, _, _, dated⟩ := mem_solutions.1 solution
    exact ⟨toLocal_of_mem_solutions solution, dated⟩
  · rintro ⟨rfl, dated⟩
    have back : instantAt (z.offsetAt t) (z.toLocal t) = t := by
      simp [instantAt, toLocal]
    exact mem_solutions.2 ⟨z.offsetAt t, z.offsetAt_mem_offsets t, by rw [back], back, dated⟩

/-- The earlier one of an instant found so far and another one. -/
theorem foldl_earlier (instants : List Instant) (found : Instant) :
    ∃ first, instants.foldl (fun best t =>
        match best with
        | none => some t
        | some b => if t.before b then some t else some b) (some found) = some first ∧
      first ∈ found :: instants ∧ ∀ t ∈ found :: instants, first.rank ≤ t.rank := by
  induction instants generalizing found with
  | nil => exact ⟨found, rfl, List.mem_cons_self, by simp⟩
  | cons t rest ih =>
    rw [List.foldl_cons]
    cases earlier : t.before found with
    | true =>
      obtain ⟨first, answer, member, least⟩ := ih t
      refine ⟨first, by simpa [earlier] using answer, List.mem_cons_of_mem _ member, ?_⟩
      have below := Instant.before_iff.1 earlier
      have bound := least t List.mem_cons_self
      exact List.forall_mem_cons.2 ⟨by omega, least⟩
    | false =>
      obtain ⟨first, answer, member, least⟩ := ih found
      have above := Instant.before_eq_false_iff.1 earlier
      obtain ⟨bound, others⟩ := List.forall_mem_cons.1 least
      refine ⟨first, by simpa [earlier] using answer, ?_, ?_⟩
      · rcases List.mem_cons.1 member with same | later
        · exact same ▸ List.mem_cons_self
        · exact List.mem_cons_of_mem _ (List.mem_cons_of_mem _ later)
      · exact List.forall_mem_cons.2 ⟨bound, List.forall_mem_cons.2 ⟨by omega, others⟩⟩

/-- The first of the instants of the calendar at which a local time is shown is found if there is
one. -/
theorem earliest?_spec (z : Zone) (shown : LocalTime) :
    (z.earliest? shown = none ∧ ∀ t, t.inCalendar = true → z.toLocal t ≠ shown) ∨
    ∃ first, z.earliest? shown = some first ∧ z.toLocal first = shown ∧ first.inCalendar = true ∧
      ∀ t, t.inCalendar = true → z.toLocal t = shown → first.rank ≤ t.rank := by
  unfold earliest?
  cases solutions : z.solutions shown with
  | nil =>
    refine .inl ⟨rfl, ?_⟩
    intro t dated shows
    have member := mem_solutions_iff.2 ⟨shows, dated⟩
    rw [solutions] at member
    exact absurd member List.not_mem_nil
  | cons t rest =>
    obtain ⟨first, answer, member, least⟩ := foldl_earlier rest t
    rw [← solutions] at member least
    obtain ⟨shows, dated⟩ := mem_solutions_iff.1 member
    refine .inr ⟨first, answer, shows, dated, ?_⟩
    intro other otherDated otherShows
    exact least other (mem_solutions_iff.2 ⟨otherShows, otherDated⟩)

theorem inCalendar_of_earliest? {z : Zone} {shown : LocalTime} {t : Instant}
    (found : z.earliest? shown = some t) : t.inCalendar = true := by
  rcases z.earliest?_spec shown with ⟨none, -⟩ | ⟨first, some, -, dated, -⟩
  · simp [none] at found
  · rw [some, Option.some.injEq] at found
    exact found ▸ dated

theorem inCalendar_of_resolve? {z : Zone} {shown : LocalTime} {t : Instant}
    (found : z.resolve? shown = some t) : t.inCalendar = true := by
  cases here : z.earliest? shown with
  | some first =>
    obtain rfl : first = t := by simpa [resolve?, here] using found
    exact inCalendar_of_earliest? here
  | none =>
    have pushed : z.earliest? (shown.plusMinutes 60) = some t := by
      simpa [resolve?, here] using found
    exact inCalendar_of_earliest? pushed

end Zone

end Hearth
