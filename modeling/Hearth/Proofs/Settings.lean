import Mathlib
import Hearth.Settings
import Hearth.Proofs.Number.Value

/-!
# Hearth.Proofs.Settings

What can be relied on once settings have been loaded, whatever the document and the environment say.

The place is checked by asking whether it is in range. The accuracy is checked the other way round, by
asking whether it is out of range, and what is no number is neither.

## Main definition

* `Workable`: what the parts of the engine need of their settings, but for the accuracy.

## Main result

`load_workable`: settings that are loaded are workable, and there are fixes that are accurate enough
for them, unless the accuracy that is asked for is no number.
-/

namespace Hearth.Settings

open Number
open Float.Model (UnpackedFloat)

variable {s : Settings} {e : Environment} {document : Option String}

/-- Nothing that is counted or waited for is zero, and a place, if there is one, lies on the globe. -/
structure Workable (s : Settings) : Prop where
  timeout : 0 < s.execution.timeout.nanos
  heartbeat : 0 < s.scheduler.heartbeat.nanos
  pollInterval : 0 < s.tracker.pollInterval.nanos
  history : 1 ≤ s.scheduler.historyCapacity
  place : ∀ p, s.scheduler.place = some p →
    ∃ lat lng, value? p.lat = some lat ∧ value? p.lng = some lng ∧
      -90 ≤ lat ∧ lat ≤ 90 ∧ -180 ≤ lng ∧ lng ≤ 180

/-! ### Checks -/

theorem nanos_pos {d : Duration} (some : d.isZero = false) : 0 < d.nanos := by
  simpa [Duration.isZero, Nat.pos_iff_ne_zero] using some

theorem checkCounts_eq_ok_iff :
    s.checkCounts = .ok () ↔
      s.execution.timeout.isZero = false ∧ s.heartbeat.isZero = false ∧ s.historyCapacity ≠ 0 := by
  unfold checkCounts
  split
  · simp [*]
  · split
    · simp [*]
    · split <;> simp [*]

theorem inRange_of_checkPlace (checked : s.checkPlace = .ok ()) {p : Coordinates}
    (given : s.place = some p) : p.inRange = true := by
  unfold checkPlace at checked
  unfold place at given
  split at checked
  · next noLatitude _ =>
    rw [noLatitude] at given
    cases given
  · -- Here the check asks whether the place is in range, so what is no number is refused.
    next lat lng latitude longitude =>
    rw [latitude, longitude] at given
    cases given
    split at checked
    · next inside => exact inside
    · cases checked
  · cases checked

theorem check_eq_ok_iff :
    s.check = .ok () ↔
      s.checkCounts = .ok () ∧ s.checkPlace = .ok () ∧ ¬ s.minAccuracy ≤ 0.0 ∧
        s.pollInterval.isZero = false := by
  unfold check
  cases s.checkCounts with
  | error fault => simp [bind, Except.bind]
  | ok =>
    cases s.checkPlace with
    | error fault => simp [bind, Except.bind]
    | ok =>
      simp only [bind, Except.bind]
      split
      · simp [*]
      · split <;> simp [*]

theorem check_of_return {t : Settings} (made : (do t.check; return t) = Except.ok s) :
    s.check = .ok () := by
  cases checked : t.check with
  | error fault =>
    rw [checked] at made
    cases made
  | ok =>
    rw [checked] at made
    cases made
    exact checked

theorem check_of_load (loaded : load document e = .ok s) : s.check = .ok () := by
  -- The environment has changed the settings before they are checked, and nothing changes them after.
  unfold load at loaded
  cases document with
  | none => exact check_of_return loaded
  | some text =>
    cases read : (Data.Toml.read? text).bind ofData? with
    | none =>
      simp only [read] at loaded
      cases loaded
    | some t =>
      simp only [read] at loaded
      exact check_of_return loaded

/-- A place that is in range has a latitude and a longitude, each within its limits. -/
theorem values_of_inRange {p : Coordinates} (inside : p.inRange = true) :
    ∃ lat lng, value? p.lat = some lat ∧ value? p.lng = some lng ∧
      -90 ≤ lat ∧ lat ≤ 90 ∧ -180 ≤ lng ∧ lng ≤ 180 := by
  simp only [Coordinates.inRange, Bool.and_eq_true, decide_eq_true_eq] at inside
  obtain ⟨⟨⟨south, north⟩, west⟩, east⟩ := inside
  have low : value? (-90.0) = some (-90) := by decide +kernel
  have high : value? 90.0 = some 90 := by decide +kernel
  have left : value? (-180.0) = some (-180) := by decide +kernel
  have right : value? 180.0 = some 180 := by decide +kernel
  obtain ⟨lat, latitude⟩ := exists_value_of_between low high south north
  obtain ⟨lng, longitude⟩ := exists_value_of_between left right west east
  exact ⟨lat, lng, latitude, longitude, (le_iff_value low latitude).1 south,
    (le_iff_value latitude high).1 north, (le_iff_value left longitude).1 west,
    (le_iff_value longitude right).1 east⟩

theorem workable_of_check (checked : s.check = .ok ()) : s.Workable := by
  obtain ⟨counts, place, -, poll⟩ := check_eq_ok_iff.1 checked
  obtain ⟨timeout, heartbeat, history⟩ := checkCounts_eq_ok_iff.1 counts
  exact
    { timeout := nanos_pos timeout
      heartbeat := nanos_pos heartbeat
      pollInterval := nanos_pos poll
      history := Nat.pos_of_ne_zero history
      place := fun p given => values_of_inRange (inRange_of_checkPlace place given) }

/-! ### The accuracy -/

/-- Below each positive number, infinity included, there is a positive finite one. -/
theorem exists_accuracy {x : Float} (positive : 0.0 < x) :
    ∃ y : Float, y.isFinite = true ∧ 0.0 < y ∧ y ≤ x := by
  by_cases finite : x.isFinite = true
  · obtain ⟨q, known⟩ := isFinite_iff_value.1 finite
    exact ⟨x, finite, positive, (le_iff_value known known).2 le_rfl⟩
  · -- Only infinity is left, and any finite number is below it.
    have one : (1.0 : Float).isFinite = true ∧ (0.0 : Float) < 1.0 := by decide +kernel
    refine ⟨1.0, one.1, one.2, ?_⟩
    rw [lt_iff] at positive
    rw [le_iff]
    cases unpacked : x.toModel.unpack with
    | infinity sign =>
      rw [unpacked] at positive
      cases sign with
      | negative => exact absurd positive (by decide +kernel)
      | positive => decide +kernel
    | notANumber =>
      rw [unpacked] at positive
      exact absurd positive (by decide +kernel)
    | _ => exact absurd (congrArg UnpackedFloat.isFinite unpacked) finite

theorem accepts_some (positive : 0.0 < s.tracker.minAccuracy) :
    ∃ fix : Location, 0.0 < fix.accuracy ∧ Tracker.accepts s.tracker fix = true := by
  obtain ⟨accuracy, finite, above, below⟩ := exists_accuracy positive
  refine ⟨⟨0.0, 0.0, accuracy, default⟩, above, ?_⟩
  simp [Tracker.accepts, finite, below]

theorem accepts_none (none : s.tracker.minAccuracy.isNaN = true) (fix : Location) :
    Tracker.accepts s.tracker fix = false := by
  simp [Tracker.accepts, not_le_of_isNaN none]

/-- Settings that were loaded are workable, and some fix is accurate enough for them. But an accuracy
that is no number is let through, and then no fix is. -/
theorem load_workable (loaded : load document e = .ok s) :
    s.Workable ∧
    (s.tracker.minAccuracy.isNaN = false →
      0.0 < s.tracker.minAccuracy ∧
        ∃ fix : Location, 0.0 < fix.accuracy ∧ Tracker.accepts s.tracker fix = true) ∧
    (s.tracker.minAccuracy.isNaN = true →
      ∀ fix : Location, Tracker.accepts s.tracker fix = false) := by
  have checked := check_of_load loaded
  obtain ⟨-, -, accuracy, -⟩ := check_eq_ok_iff.1 checked
  refine ⟨workable_of_check checked, fun number => ?_, accepts_none⟩
  -- What is not at most zero exceeds it only if it is a number.
  have positive : 0.0 < s.tracker.minAccuracy := lt_of_not_le number (by decide +kernel) accuracy
  exact ⟨positive, accepts_some positive⟩

/-- An environment that sets nothing. -/
def Environment.bare : Environment := .ofVariables fun _ => none

theorem exists_of_any {α ε : Type} {r : Except ε α} {p : α → Bool}
    (found : r.toOption.any p = true) : ∃ a, r = .ok a ∧ p a = true := by
  cases r with
  | error fault => cases found
  | ok a => exact ⟨a, rfl, found⟩

def farmhouse : String := "[scheduler]\nlatitude = 48.2\nlongitude = 16.4\n"

theorem load_workable_farmhouse :
    ∃ s, load (some farmhouse) .bare = .ok s ∧ s.Workable ∧ s.scheduler.place.isSome = true ∧
      ∃ fix : Location, 0.0 < fix.accuracy ∧ Tracker.accepts s.tracker fix = true := by
  have evaluated : (load (some farmhouse) .bare).toOption.any
      (fun s => s.scheduler.place.isSome && !s.tracker.minAccuracy.isNaN) = true := by
    decide +kernel
  obtain ⟨s, loaded, placed⟩ := exists_of_any evaluated
  simp only [Bool.and_eq_true, Bool.not_eq_true'] at placed
  obtain ⟨workable, accurate, -⟩ := load_workable loaded
  exact ⟨s, loaded, workable, placed.1, (accurate placed.2).2⟩

/-- The accuracy that this house asks for is no number. -/
def vagueHouse : String := "[geofence]\nmin_accuracy_m = nan\n"

theorem load_vagueHouse :
    ∃ s, load (some vagueHouse) .bare = .ok s ∧ ¬ 0.0 < s.tracker.minAccuracy ∧
      ∀ fix : Location, Tracker.accepts s.tracker fix = false := by
  have evaluated : (load (some vagueHouse) .bare).toOption.any
      (fun s => s.tracker.minAccuracy.isNaN && !decide (0.0 < s.tracker.minAccuracy)) = true := by
    decide +kernel
  obtain ⟨s, loaded, vague⟩ := exists_of_any evaluated
  simp only [Bool.and_eq_true, Bool.not_eq_true', decide_eq_false_iff_not] at vague
  exact ⟨s, loaded, vague.2, accepts_none vague.1⟩

end Hearth.Settings
