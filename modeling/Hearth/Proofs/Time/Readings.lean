import Hearth.Proofs.Time.Order

/-!
# Hearth.Proofs.Time.Readings

What a clock shows in a zone whose offset changes seldom and by little.

## Main definitions

`Zone.changes`: the changes of the offset, each with the offset before and after it.
`Zone.Regular`: the changes are at most an hour each and at least two days apart, and what the clock
shows twice or skips lies within one date, the latter before eleven in the evening.

## Main results

`Zone.Regular.date_mono`: the local date never goes back.
`Zone.shown_or_skipped`: every local time is shown at some instant, or skipped by a change.
`Zone.Regular.shown_after_skip`: an hour after a local time that the clock skips is shown on the same
date, at one instant only.
-/

namespace Hearth

namespace Zone

/-- The clock is put from one offset to another. -/
structure Change where
  start : Instant
  old : Int
  new : Int
deriving Repr

namespace Change

/-- By the offset before the change the clock would show this time only after the change, and by the
offset after it only before the change. -/
def Skips (c : Change) (shown : LocalTime) : Prop :=
  c.start.notAfter (instantAt c.old shown) = true ∧ (instantAt c.new shown).before c.start = true

/-- The clock shows this time before the change, and again after it. -/
def Repeats (c : Change) (shown : LocalTime) : Prop :=
  (instantAt c.old shown).before c.start = true ∧ c.start.notAfter (instantAt c.new shown) = true

theorem skips_iff {c : Change} {shown : LocalTime} :
    c.Skips shown ↔ c.start.rank + c.old * 120000000000 ≤ shown.rank ∧
      shown.rank < c.start.rank + c.new * 120000000000 := by
  rw [Skips, Instant.notAfter_iff, Instant.before_iff, rank_instantAt, rank_instantAt]
  omega

theorem repeats_iff {c : Change} {shown : LocalTime} :
    c.Repeats shown ↔ c.start.rank + c.new * 120000000000 ≤ shown.rank ∧
      shown.rank < c.start.rank + c.old * 120000000000 := by
  rw [Repeats, Instant.notAfter_iff, Instant.before_iff, rank_instantAt, rank_instantAt]
  omega

end Change

def changesFrom (old : Int) : List (Instant × Int) → List Change
  | [] => []
  | (start, new) :: rest => ⟨start, old, new⟩ :: changesFrom new rest

/-- The changes of the offset, in their order. -/
def changes (z : Zone) : List Change := changesFrom z.base z.transitions

structure Regular (z : Zone) : Prop where
  /-- A change is by an hour at most. -/
  small : ∀ c ∈ z.changes, (c.new - c.old).natAbs ≤ 60
  /-- Changes are at least two days apart. -/
  apart : z.changes.Pairwise fun b c => (b.start.plusSeconds 172800).notAfter c.start = true
  /-- What a change repeats or skips lies within one date. -/
  undivided : ∀ c ∈ z.changes, ∃ date, ∀ shown, c.Skips shown ∨ c.Repeats shown →
    shown.date = date
  /-- What a change skips ends by eleven in the evening. -/
  early : ∀ c ∈ z.changes, ∀ shown, c.Skips shown → shown.timeOfDay.second < 82800

variable {z : Zone} {s t : Instant} {shown : LocalTime} {c : Change}

/-! ### One change after another -/

theorem Regular.tail {base : Int} {start : Instant} {new : Int} {rest : List (Instant × Int)}
    (regular : Regular ⟨base, (start, new) :: rest⟩) : Regular ⟨new, rest⟩ where
  small c member := regular.small c (List.mem_cons_of_mem _ member)
  apart := (List.pairwise_cons.1 regular.apart).2
  undivided c member := regular.undivided c (List.mem_cons_of_mem _ member)
  early c member := regular.early c (List.mem_cons_of_mem _ member)

theorem exists_change (old : Int) {transitions : List (Instant × Int)} {change : Instant × Int}
    (member : change ∈ transitions) : ∃ c ∈ changesFrom old transitions, c.start = change.1 := by
  induction transitions generalizing old with
  | nil => cases member
  | cons first rest ih =>
    rcases List.mem_cons.1 member with rfl | later
    · exact ⟨_, List.mem_cons_self, rfl⟩
    · obtain ⟨c, found, same⟩ := ih first.2 later
      exact ⟨c, List.mem_cons_of_mem _ found, same⟩

section

variable {base new : Int} {start : Instant} {rest : List (Instant × Int)}

/-- The changes after the first one are at least two days later. -/
theorem Regular.head_apart (regular : Regular ⟨base, (start, new) :: rest⟩)
    (member : c ∈ changes ⟨new, rest⟩) : start.rank + 345600000000000 ≤ c.start.rank := by
  have far := Instant.notAfter_iff.1 ((List.pairwise_cons.1 regular.apart).1 c member)
  rw [Instant.rank_plusSeconds] at far
  exact far

theorem offsetAt_eq_base {transitions : List (Instant × Int)}
    (early : ∀ change ∈ transitions, t.rank < change.1.rank) :
    offsetAt ⟨base, transitions⟩ t = base := by
  induction transitions with
  | nil => rfl
  | cons change rest ih =>
    obtain ⟨ahead, others⟩ := List.forall_mem_cons.1 early
    have notBegun : change.1.notAfter t = false := Instant.notAfter_eq_false_iff.2 ahead
    have same := ih others
    simp only [offsetAt, List.foldl_cons, notBegun, Bool.false_eq_true, ↓reduceIte] at same ⊢
    exact same

/-- Before the first change the offset is the one the zone begins with. -/
theorem Regular.offsetAt_early (regular : Regular ⟨base, (start, new) :: rest⟩)
    (early : t.rank < start.rank) : offsetAt ⟨base, (start, new) :: rest⟩ t = base := by
  refine offsetAt_eq_base (List.forall_mem_cons.2 ⟨early, ?_⟩)
  intro change member
  obtain ⟨c, found, same⟩ := exists_change new member
  have far := regular.head_apart found
  rw [← same]
  omega

/-- From the first change on it is that of a zone which begins with the new offset. -/
theorem offsetAt_late (begun : start.rank ≤ t.rank) :
    offsetAt ⟨base, (start, new) :: rest⟩ t = offsetAt ⟨new, rest⟩ t := by
  simp only [offsetAt, List.foldl_cons, Instant.notAfter_iff.2 begun, ↓reduceIte]

/-- A zone that begins with the new offset has this offset until two days after the change. -/
theorem Regular.offsetAt_tail (regular : Regular ⟨base, (start, new) :: rest⟩)
    (near : t.rank < start.rank + 345600000000000) : offsetAt ⟨new, rest⟩ t = new := by
  refine offsetAt_eq_base ?_
  intro change member
  obtain ⟨c, found, same⟩ := exists_change new member
  have far := regular.head_apart found
  rw [← same]
  omega

end

/-! ### The offset near a change -/

/-- The two days after a change have the new offset. -/
theorem Regular.offsetAt_after (regular : z.Regular) (member : c ∈ z.changes)
    (begun : c.start.rank ≤ t.rank) (near : t.rank < c.start.rank + 345600000000000) :
    z.offsetAt t = c.new := by
  obtain ⟨base, transitions⟩ := z
  induction transitions generalizing base with
  | nil => cases member
  | cons change rest ih =>
    obtain ⟨start, new⟩ := change
    rcases List.mem_cons.1 member with rfl | later
    · rw [offsetAt_late begun]
      exact regular.offsetAt_tail near
    · have far := regular.head_apart later
      rw [offsetAt_late (by omega)]
      exact ih new regular.tail later

/-- The two days before a change have the old offset. -/
theorem Regular.offsetAt_before (regular : z.Regular) (member : c ∈ z.changes)
    (notBegun : t.rank < c.start.rank) (near : c.start.rank ≤ t.rank + 345600000000000) :
    z.offsetAt t = c.old := by
  obtain ⟨base, transitions⟩ := z
  induction transitions generalizing base with
  | nil => cases member
  | cons change rest ih =>
    obtain ⟨start, new⟩ := change
    rcases List.mem_cons.1 member with rfl | later
    · exact regular.offsetAt_early notBegun
    · have far := regular.head_apart later
      rw [offsetAt_late (by omega)]
      exact ih new regular.tail later

/-! ### Dates -/

/-- What the clock would show at a change by either offset lies on one date, or in order. -/
theorem Regular.date_change (regular : z.Regular) (member : c ∈ z.changes)
    (before : s.rank < c.start.rank) :
    (s.rank + c.old * 120000000000) / 172800000000000 ≤
      (c.start.rank + c.new * 120000000000) / 172800000000000 := by
  obtain ⟨date, within⟩ := regular.undivided c member
  let entered : LocalTime := ⟨c.start.second + c.new * 60, c.start.nanos, c.start.nanos_lt⟩
  let left : LocalTime := ⟨s.second + c.old * 60, s.nanos, s.nanos_lt⟩
  have enteredRank : entered.rank = c.start.rank + c.new * 120000000000 := by
    simp only [entered, LocalTime.rank, Instant.rank]
    omega
  have leftRank : left.rank = s.rank + c.old * 120000000000 := by
    simp only [left, LocalTime.rank, Instant.rank]
    omega
  by_cases backward : entered.rank ≤ left.rank
  · -- Both are among the local times that are repeated.
    have first : entered.date = date := within entered (.inr (Change.repeats_iff.2 (by omega)))
    have second : left.date = date := within left (.inr (Change.repeats_iff.2 (by omega)))
    have same : left.date.day = entered.date.day := by rw [first, second]
    rw [LocalTime.day_date, LocalTime.day_date] at same
    omega
  · omega

/-- The local date never goes back. -/
theorem Regular.date_mono (regular : z.Regular) (order : s.rank ≤ t.rank) :
    (z.toLocal s).date.day ≤ (z.toLocal t).date.day := by
  simp only [LocalTime.day_date, rank_toLocal]
  obtain ⟨base, transitions⟩ := z
  induction transitions generalizing base s with
  | nil =>
    simp only [offsetAt, List.foldl_nil]
    omega
  | cons change rest ih =>
    obtain ⟨start, new⟩ := change
    by_cases first : start.rank ≤ s.rank
    · rw [offsetAt_late first, offsetAt_late (Int.le_trans first order)]
      exact ih order new regular.tail
    · have early : s.rank < start.rank := Int.not_le.1 first
      rw [regular.offsetAt_early early]
      by_cases second : start.rank ≤ t.rank
      · -- The change lies between: the date does not go back with it, and not after it.
        have across := regular.date_change List.mem_cons_self early
        have on := ih second new regular.tail
        have begins : start.rank < start.rank + 345600000000000 := by omega
        rw [regular.offsetAt_tail begins] at on
        rw [offsetAt_late second]
        exact Int.le_trans across on
      · rw [regular.offsetAt_early (Int.not_le.1 second)]
        omega

/-! ### What is shown -/

/-- Every local time is shown at some instant, or skipped by a change. -/
theorem Regular.shown_or_skipped (regular : z.Regular) (shown : LocalTime) :
    (∃ t, z.toLocal t = shown) ∨ ∃ c ∈ z.changes, c.Skips shown := by
  obtain ⟨base, transitions⟩ := z
  induction transitions generalizing base with
  | nil => exact .inl ⟨instantAt base shown, by simp [toLocal, instantAt, offsetAt]⟩
  | cons change rest ih =>
    obtain ⟨start, new⟩ := change
    by_cases early : (instantAt base shown).rank < start.rank
    · refine .inl ⟨instantAt base shown, ?_⟩
      rw [toLocal, regular.offsetAt_early early]
      simp [instantAt]
    · rcases ih new regular.tail with ⟨t, shows⟩ | ⟨c, member, skips⟩
      · by_cases late : start.rank ≤ t.rank
        · refine .inl ⟨t, ?_⟩
          rw [toLocal, offsetAt_late late]
          exact shows
        · -- By the new offset the time would be shown before the change, by the old one after it.
          refine .inr ⟨⟨start, base, new⟩, List.mem_cons_self, Change.skips_iff.2 ?_⟩
          have offset := regular.offsetAt_tail (t := t) (by omega)
          have rank := congrArg LocalTime.rank shows
          rw [rank_toLocal, offset] at rank
          rw [rank_instantAt] at early
          dsimp only
          omega
      · exact .inr ⟨c, List.mem_cons_of_mem _ member, skips⟩

/-- An hour after a local time that the clock skips is shown on the same date, at one instant only. -/
theorem Regular.shown_after_skip (regular : z.Regular) (member : c ∈ z.changes)
    {date : Date} {time : TimeOfDay} (skips : c.Skips (date.at time)) :
    ((date.at time).plusMinutes 60).date = date ∧
    ∃ t, z.toLocal t = (date.at time).plusMinutes 60 ∧
      ∀ u, z.toLocal u = (date.at time).plusMinutes 60 → u = t := by
  have evening : time.second < 82800 := by
    simpa only [Date.timeOfDay_at] using regular.early c member _ skips
  obtain ⟨low, high⟩ := Change.skips_iff.1 skips
  have small := regular.small c member
  have place : ((date.at time).plusMinutes 60).rank =
      date.day * 172800000000000 + time.second * 2000000000 + 7200000000000 := by
    rw [LocalTime.rank_plusMinutes, Date.rank_at]
    omega
  rw [Date.rank_at] at low high
  have day : ((date.at time).plusMinutes 60).date.day = date.day := by
    rw [LocalTime.day_date, place]
    omega
  -- By the new offset it is shown within an hour after the change.
  let t := instantAt c.new ((date.at time).plusMinutes 60)
  have rank : t.rank = ((date.at time).plusMinutes 60).rank - c.new * 120000000000 :=
    rank_instantAt _ _
  have new : z.offsetAt t = c.new := regular.offsetAt_after member (by omega) (by omega)
  refine ⟨?_, t, ?_, ?_⟩
  · cases date
    cases same : ((Date.at _ time).plusMinutes 60).date
    simp_all
  · apply LocalTime.eq_of_rank_eq
    rw [rank_toLocal, new, rank]
    omega
  · intro u shows
    have uRank := congrArg LocalTime.rank shows
    have uDay : (z.toLocal u).date.day = date.day := by rw [shows, day]
    rw [rank_toLocal] at uRank
    by_cases begun : c.start.rank ≤ u.rank
    · by_cases near : u.rank < c.start.rank + 345600000000000
      · rw [regular.offsetAt_after member begun near] at uRank
        exact Instant.eq_of_rank_eq (by omega)
      · -- A day after `t` it is the date after already.
        have next : z.offsetAt (t.plusSeconds 86400) = c.new := by
          refine regular.offsetAt_after member ?_ ?_ <;> rw [Instant.rank_plusSeconds] <;> omega
        have order : (t.plusSeconds 86400).rank ≤ u.rank := by
          rw [Instant.rank_plusSeconds]
          omega
        have later := regular.date_mono order
        rw [uDay, LocalTime.day_date, rank_toLocal, next, Instant.rank_plusSeconds] at later
        omega
    · by_cases near : c.start.rank ≤ u.rank + 345600000000000
      · rw [regular.offsetAt_before member (by omega) near] at uRank
        omega
      · -- A day before the change it is the date before still.
        have previous : z.offsetAt (c.start.plusSeconds (-86400)) = c.old := by
          refine regular.offsetAt_before member ?_ ?_ <;> rw [Instant.rank_plusSeconds] <;> omega
        have order : u.rank ≤ (c.start.plusSeconds (-86400)).rank := by
          rw [Instant.rank_plusSeconds]
          omega
        have earlier := regular.date_mono order
        rw [uDay, LocalTime.day_date, rank_toLocal, previous, Instant.rank_plusSeconds] at earlier
        omega

end Zone

end Hearth
