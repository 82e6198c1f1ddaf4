import Hearth.Proofs.Time.Order
import Hearth.Schedule

/-!
# Hearth.Proofs.Schedule.Search

The search for the next occurrence goes through dates in their order and stops at the first one whose
occurrence lies after now, or whose local time is beyond the calendar.

## Main definitions

`Schedule.Allows`: a date whose day a schedule allows.
`Schedule.Ends`: the ways in which a search ends.

## Main results

`Schedule.mem_candidateDates`: the dates that are looked at.
`Schedule.ends_firstAfter`: a search ends in one of these ways.
`Schedule.search_found`: what is found belongs to one of these dates, and no earlier one of them
has an occurrence after now.
-/

namespace Hearth

namespace Schedule

/-- A date whose day is allowed. No days stand for every day. -/
def Allows (days : List Weekday) (date : Date) : Prop := days = [] ∨ date.weekday ∈ days

theorem mem_candidateDates {today date : Date} {days : List Weekday} :
    date ∈ candidateDates today days ↔
      today.day ≤ date.day ∧ date.day < today.day + 8 ∧ date.inCalendar = true ∧
        Allows days date := by
  simp only [candidateDates, searchDays, List.mem_filter, List.mem_map, List.mem_range,
    Bool.and_eq_true, Bool.or_eq_true, List.isEmpty_iff, List.contains_iff_mem, Allows]
  constructor
  · rintro ⟨⟨n, small, rfl⟩, known, allowed⟩
    simp only [Date.plus] at known allowed ⊢
    exact ⟨by omega, by omega, known, allowed⟩
  · rintro ⟨low, high, known, allowed⟩
    refine ⟨⟨(date.day - today.day).toNat, by omega, ?_⟩, known, allowed⟩
    cases date
    simp only [Date.plus, Date.mk.injEq] at low ⊢
    omega

theorem candidateDates_sorted (today : Date) (days : List Weekday) :
    (candidateDates today days).Pairwise fun d e => d.day < e.day := by
  refine List.Pairwise.filter _ (List.pairwise_map.2 ?_)
  refine List.pairwise_lt_range.imp ?_
  intro m n less
  simp only [Date.plus]
  omega

variable {zone : Zone} {now t : Instant} {days : List Weekday} {date : Date}
  {candidate? : Date → Option LocalTime} {dates : List Date} {sought : Sought}

/-! ### How a search ends -/

/-- The candidate of the date, if there is one, leads to no instant after now. -/
def Misses (zone : Zone) (now : Instant) (candidate? : Date → Option LocalTime) (date : Date) : Prop :=
  ∀ t, (candidate? date).bind zone.resolve? = some t → now.before t = false

/-- How a search among dates in order ends. It stops at a date that leads to an instant after now or out
of the calendar, and has missed at those before it. -/
inductive Ends (zone : Zone) (now : Instant) (candidate? : Date → Option LocalTime)
    (dates : List Date) : Sought → Prop
  | found {date : Date} {t : Instant} (member : date ∈ dates)
      (its : (candidate? date).bind zone.resolve? = some t) (after : now.before t = true)
      (first : ∀ earlier ∈ dates, earlier.day < date.day → Misses zone now candidate? earlier) :
      Ends zone now candidate? dates (.found t)
  | nothing (missed : ∀ date ∈ dates, Misses zone now candidate? date) :
      Ends zone now candidate? dates .nothing
  | crashed {date : Date} {shown : LocalTime} (member : date ∈ dates)
      (its : candidate? date = some shown) (beyond : isBeyond zone shown = true)
      (first : ∀ earlier ∈ dates, earlier.day < date.day → Misses zone now candidate? earlier) :
      Ends zone now candidate? dates .crashed

/-- A search that has missed at a date goes on with those after it. -/
theorem Ends.cons (missed : Misses zone now candidate? date)
    (ends : Ends zone now candidate? dates sought) : Ends zone now candidate? (date :: dates) sought := by
  cases ends with
  | found member its after first =>
    exact .found (List.mem_cons_of_mem _ member) its after
      (List.forall_mem_cons.2 ⟨fun _ => missed, first⟩)
  | nothing all => exact .nothing (List.forall_mem_cons.2 ⟨missed, all⟩)
  | crashed member its beyond first =>
    exact .crashed (List.mem_cons_of_mem _ member) its beyond
      (List.forall_mem_cons.2 ⟨fun _ => missed, first⟩)

theorem ends_firstAfter (sorted : dates.Pairwise fun d e => d.day < e.day) :
    Ends zone now candidate? dates (firstAfter zone now (dates.filterMap candidate?)) := by
  induction dates with
  | nil => exact .nothing (List.forall_mem_nil _)
  | cons date rest ih =>
    obtain ⟨behind, ordered⟩ := List.pairwise_cons.1 sorted
    -- No date of the list comes before the first one.
    have first : ∀ earlier ∈ date :: rest, earlier.day < date.day →
        Misses zone now candidate? earlier := by
      intro earlier member before
      rcases List.mem_cons.1 member with rfl | later
      · omega
      · have after := behind earlier later
        omega
    cases here : candidate? date with
    | none =>
      rw [List.filterMap_cons_none here]
      refine (ih ordered).cons fun t its => ?_
      rw [here] at its
      cases its
    | some shown =>
      rw [List.filterMap_cons_some here]
      unfold firstAfter
      split
      · next beyond => exact .crashed List.mem_cons_self here beyond first
      · split
        · next t hit =>
          obtain ⟨its, after⟩ := Option.filter_eq_some_iff.1 hit
          exact .found List.mem_cons_self (by rw [here, Option.bind_some, its]) after first
        · next miss =>
          refine (ih ordered).cons fun t its => ?_
          rw [here, Option.bind_some] at its
          simpa [its] using miss

variable (days candidate?) in
theorem ends_search (dated : (zone.toLocal now).inCalendar = true) :
    Ends zone now candidate? (candidateDates (zone.toLocal now).date days)
      (search zone now ((candidateDates (zone.toLocal now).date days).filterMap candidate?)) := by
  rw [search, if_pos dated]
  exact ends_firstAfter (candidateDates_sorted _ days)

/-- What is found belongs to a date that is looked at, and no earlier one of these dates has an
occurrence after now. -/
theorem search_found
    (found : search zone now
      ((candidateDates (zone.toLocal now).date days).filterMap candidate?) = .found t) :
    ∃ date ∈ candidateDates (zone.toLocal now).date days,
      (candidate? date).bind zone.resolve? = some t ∧ now.before t = true ∧
      ∀ earlier ∈ candidateDates (zone.toLocal now).date days, earlier.day < date.day →
        Misses zone now candidate? earlier := by
  have ends := ends_search days candidate? (search_eq_found.1 found).1
  rw [found] at ends
  cases ends with
  | found member its after first => exact ⟨_, member, its, after, first⟩

/-- If one of the dates has an occurrence after now, something is found, unless the search crashes at
this date or an earlier one. -/
theorem exists_search (dated : (zone.toLocal now).inCalendar = true)
    (member : date ∈ candidateDates (zone.toLocal now).date days)
    (its : (candidate? date).bind zone.resolve? = some t) (after : now.before t = true)
    (inside : ∀ d ∈ candidateDates (zone.toLocal now).date days, d.day ≤ date.day →
      ∀ shown, candidate? d = some shown → isBeyond zone shown = false) :
    ∃ u, search zone now
      ((candidateDates (zone.toLocal now).date days).filterMap candidate?) = .found u := by
  have ends := ends_search days candidate? dated
  have notMissed : ¬ Misses zone now candidate? date := by
    intro missed
    rw [missed t its] at after
    cases after
  generalize search zone now
    ((candidateDates (zone.toLocal now).date days).filterMap candidate?) = sought at ends
  cases ends with
  | found => exact ⟨_, rfl⟩
  | nothing missed => exact absurd (missed date member) notMissed
  | @crashed d shown among its beyond first =>
    rcases Int.lt_or_le date.day d.day with behind | reached
    · exact absurd (first date member behind) notMissed
    · rw [inside d among reached shown its] at beyond
      cases beyond

end Schedule

end Hearth
