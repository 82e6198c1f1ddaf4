import Hearth.Proofs.Time.Order
import Hearth.Schedule

/-!
# Hearth.Proofs.Time.Waiting

Waiting for an instant by a wall clock that follows the time that passes.

## Main results

`Schedule.nanos_of_nextAfter`: occurrences lie at whole seconds.
`WallClock.before_of_waiting`: a wait for a whole second, measured by the wall clock, is not over before
the clock shows it, and until then the clock shows earlier instants.
-/

namespace Hearth

/-! ### Occurrences -/

namespace Zone

theorem nanos_of_earliest? {z : Zone} {shown : LocalTime} {t : Instant}
    (found : z.earliest? shown = some t) : t.nanos = shown.nanos := by
  rcases z.earliest?_spec shown with ⟨none, -⟩ | ⟨first, some, shows, -, -⟩
  · simp [none] at found
  · obtain rfl : first = t := by simpa [some] using found
    exact congrArg LocalTime.nanos shows

theorem nanos_of_resolve? {z : Zone} {shown : LocalTime} {t : Instant}
    (found : z.resolve? shown = some t) : t.nanos = shown.nanos := by
  cases here : z.earliest? shown with
  | some first =>
    obtain rfl : first = t := by simpa [resolve?, here] using found
    exact nanos_of_earliest? here
  | none =>
    have pushed : z.earliest? (shown.plusMinutes 60) = some t := by
      simpa [resolve?, here] using found
    have same := nanos_of_earliest? pushed
    exact same

end Zone

namespace Schedule

theorem nanos_of_firstAfter {zone : Zone} {now t : Instant} {candidates : List LocalTime}
    (whole : ∀ shown ∈ candidates, shown.nanos = 0)
    (found : firstAfter zone now candidates = .found t) : t.nanos = 0 := by
  induction candidates with
  | nil => cases found
  | cons shown rest ih =>
    obtain ⟨here, others⟩ := List.forall_mem_cons.1 whole
    unfold firstAfter at found
    split at found
    · cases found
    · split at found
      · next hit =>
        cases found
        rw [Zone.nanos_of_resolve? (Option.filter_eq_some_iff.1 hit).1, here]
      · exact ih others found

/-- Clocks and the sun are set in whole seconds. -/
theorem nanos_of_nextAfter {s : Schedule} {zone : Zone} {place : Option Coordinates} {now t : Instant}
    (found : s.nextAfter zone place now = .ok t) : t.nanos = 0 := by
  cases s with
  | clock time days =>
    refine nanos_of_firstAfter ?_ (search_eq_found.1 (orFault_eq_ok.1 found)).2
    intro shown member
    obtain ⟨date, -, rfl⟩ := List.mem_map.1 member
    rfl
  | sun event offset days =>
    cases place with
    | none => cases found
    | some place =>
      refine nanos_of_firstAfter ?_ (search_eq_found.1 (orFault_eq_ok.1 found)).2
      intro shown member
      obtain ⟨date, -, made⟩ := List.mem_filterMap.1 member
      obtain ⟨time, -, rfl⟩ := Option.map_eq_some_iff.1 made
      rfl

end Schedule

/-! ### Whole seconds and how far away they are -/

namespace Instant

variable {t : Instant}

theorem ofNanos_before_iff (whole : t.nanos = 0) {n : Int} :
    (ofNanos n).before t = true ↔ n < t.second * 1000000000 := by
  simp only [before_iff, rank, ofNanos, whole]
  omega

theorem since_of_not_isInLeapSecond (whole : t.nanos = 0) {s : Instant}
    (outside : s.isInLeapSecond = false) :
    t.since s = t.second * 1000000000 - (s.second * 1000000000 + s.nanos) := by
  have whole' : t.isInLeapSecond = false := by simp [isInLeapSecond, whole]
  simp only [since, outside, whole', whole, Bool.and_false, Bool.false_eq_true, ↓reduceIte]
  omega

/-- Outside of leap seconds, what is ahead is some time away. -/
theorem since_pos (whole : t.nanos = 0) {s : Instant} (outside : s.isInLeapSecond = false)
    (ahead : s.before t = true) : 0 < t.since s := by
  have nanos : ¬ 1000000000 ≤ s.nanos := of_decide_eq_false outside
  rw [before_iff, rank, rank, whole] at ahead
  rw [since_of_not_isInLeapSecond whole outside]
  omega

theorem isInLeapSecond_ofNanos (n : Int) : (ofNanos n).isInLeapSecond = false := by
  apply decide_eq_false
  simp only [ofNanos]
  omega

theorem since_ofNanos (whole : t.nanos = 0) (n : Int) :
    t.since (ofNanos n) = t.second * 1000000000 - n := by
  rw [since_of_not_isInLeapSecond whole (isInLeapSecond_ofNanos n)]
  simp only [ofNanos]
  omega

/-- What begins in a leap second goes through the rest of it. -/
theorem plusNanos_inside {s : Instant} (leap : s.isInLeapSecond = true) {n : Int} (forward : 0 ≤ n)
    (inside : s.nanos + n < 2000000000) :
    (s.plusNanos n).second = s.second ∧ (s.plusNanos n).nanos = s.nanos + n := by
  have begun : 1000000000 ≤ s.nanos := of_decide_eq_true leap
  have rest : (1000000000 : Int) ≤ s.nanos + n := by omega
  simp only [plusNanos, leap, rest, inside, decide_true, Bool.and_self, ↓reduceIte, ↓reduceDIte,
    true_and]
  exact Int.toNat_of_nonneg (by omega)

theorem plusNanos_beyond {s : Instant} (leap : s.isInLeapSecond = true) {n : Int}
    (beyond : 2000000000 ≤ s.nanos + n) :
    s.plusNanos n = ofNanos (s.second * 1000000000 + (s.nanos + n) - 1000000000) := by
  have rest : (1000000000 : Int) ≤ s.nanos + n := by omega
  simp only [plusNanos, leap, rest, Int.not_lt.2 beyond, decide_true, Bool.and_self, ↓reduceIte,
    ↓reduceDIte]

/-- From within a leap second, the distance may leave out the second itself, but nothing more. -/
theorem since_le (whole : t.nanos = 0) (s : Instant) :
    t.since s ≤ (t.second - s.second + 1) * 1000000000 - s.nanos := by
  have whole' : t.isInLeapSecond = false := by simp [isInLeapSecond, whole]
  simp only [since, whole', whole, Bool.and_false, Bool.false_eq_true, ↓reduceIte]
  split <;> omega

end Instant

/-! ### Waiting -/

theorem Duration.lt_nanos_of_lt_waitMillis {d : Duration} {n : Nat} (early : n < d.waitMillis) :
    n * 1000000 < d.nanos := by
  simp only [waitMillis, millisUp] at early
  omega

theorem Duration.waitMillis_pos {d : Duration} (some : 0 < d.nanos) : 0 < d.waitMillis := by
  simp only [waitMillis, millisUp, longestWait]
  omega

namespace WallClock

variable {c : WallClock}

theorem reading_eq (follows : c.follows = true) (n : Nat) :
    c.reading n = c.base.plusNanos (n * 1000000) := by
  simp [reading, follows, Instant.plusMillis]

/-- As long as a wait for a whole second goes on, the clock shows an earlier instant. -/
theorem before_of_waiting (follows : c.follows = true) {t : Instant} (whole : t.nanos = 0)
    {now n : Nat} (later : now ≤ n)
    (early : n < now + (Duration.mk (t.since (c.reading now)).toNat).waitMillis) :
    (c.reading n).before t = true := by
  -- Less time has passed than the clock showed to be left when the wait began.
  have passed : (n - now) * 1000000 < (t.since (c.reading now)).toNat := by
    have short : n - now < (Duration.mk (t.since (c.reading now)).toNat).waitMillis := by omega
    exact Duration.lt_nanos_of_lt_waitMillis short
  rw [reading_eq follows] at passed ⊢
  cases leap : c.base.isInLeapSecond with
  | false =>
    simp only [Instant.plusNanos, leap, Bool.false_and, Bool.false_eq_true, ↓reduceIte] at passed ⊢
    rw [Instant.since_ofNanos whole] at passed
    rw [Instant.ofNanos_before_iff whole]
    omega
  | true =>
    -- A clock that was set in a leap second shows it for up to a second more.
    have far := Instant.since_le whole (c.base.plusNanos (now * 1000000))
    have begun : 1000000000 ≤ c.base.nanos := of_decide_eq_true leap
    by_cases inside : c.base.nanos + (n : Int) * 1000000 < 2000000000
    · -- While the leap second goes on, only the seconds tell which of the two is earlier.
      obtain ⟨second, nanos⟩ := Instant.plusNanos_inside leap (by omega) inside
      obtain ⟨second', nanos'⟩ :=
        @Instant.plusNanos_inside c.base leap (now * 1000000) (by omega) (by omega)
      rw [Instant.before_iff, Instant.rank, Instant.rank, whole]
      omega
    · rw [Instant.plusNanos_beyond leap (by omega), Instant.ofNanos_before_iff whole]
      by_cases within : c.base.nanos + (now : Int) * 1000000 < 2000000000
      · obtain ⟨second', nanos'⟩ := Instant.plusNanos_inside leap (by omega) within
        omega
      · rw [Instant.plusNanos_beyond leap (by omega), Instant.since_ofNanos whole] at passed
        omega

end WallClock

end Hearth
