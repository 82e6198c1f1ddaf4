import Hearth.Geofence

/-!
# Hearth.Proofs.Number.Order

What comparing two numbers says when one of them may be no number at all. A value that is no number
compares with nothing, not even with itself, so a comparison that holds tells that both sides are
numbers.
-/

namespace Hearth

namespace Number

open Float.Model (UnpackedFloat)

theorem compare_self {a b : UnpackedFloat} (comparable : a.compare b ≠ none) :
    a.compare a = some .eq := by
  cases a with
  | notANumber => exact absurd rfl comparable
  | infinity sign => cases sign <;> rfl
  | zero sign => rfl
  | finite sign mantissa exponent positive =>
    have exponents : compare exponent exponent = .eq := Std.ReflCmp.compare_self
    have mantissas : compare mantissa mantissa = .eq := Std.ReflCmp.compare_self
    cases sign
    · show some ((compare exponent exponent).then (compare mantissa mantissa)).swap = some .eq
      rw [exponents, mantissas]
      rfl
    · show some ((compare exponent exponent).then (compare mantissa mantissa)) = some .eq
      rw [exponents, mantissas]
      rfl

theorem compare_swap (a b : UnpackedFloat) : a.compare b = (b.compare a).map Ordering.swap := by
  rcases a with s | _ | s | ⟨s, m, e, _⟩ <;> rcases b with u | _ | u | ⟨u, n, f, _⟩
  -- The signs decide all cases but those of two finite numbers on the same side of zero.
  all_goals try rfl
  all_goals cases s
  all_goals try rfl
  all_goals cases u
  all_goals try rfl
  all_goals
    have turned : ((compare f e).then (compare n m)).swap = (compare e f).then (compare m n) := by
      rw [Ordering.swap_then, ← Std.OrientedCmp.eq_swap, ← Std.OrientedCmp.eq_swap]
  · exact congrArg (fun o : Ordering => some o.swap) turned.symm
  · exact congrArg some turned.symm

theorem le_iff {x y : Float} : x ≤ y ↔ x.toModel.unpack.le y.toModel.unpack = true :=
  decide_eq_true_iff

theorem lt_iff {x y : Float} : x < y ↔ x.toModel.unpack.lt y.toModel.unpack = true :=
  decide_eq_true_iff

theorem beq_self_of_compare {x y : Float}
    (comparable : x.toModel.unpack.compare y.toModel.unpack ≠ none) : (x == x) = true := by
  have same : (x.toModel.unpack.compare x.toModel.unpack == some .eq) = true := by
    rw [compare_self comparable]
    rfl
  exact same

theorem beq_self_of_le {x y : Float} (below : x ≤ y) : (x == x) = true := by
  apply beq_self_of_compare (y := y)
  intro none
  rw [le_iff, UnpackedFloat.le, none] at below
  cases below

theorem beq_self_of_isFinite {x : Float} (finite : x.isFinite = true) : (x == x) = true := by
  apply beq_self_of_compare (y := x)
  have unpacked : x.toModel.unpack.isFinite = true := finite
  intro none
  cases value : x.toModel.unpack with
  | zero sign =>
    rw [value] at none
    cases none
  | finite sign mantissa exponent positive =>
    rw [value] at none
    cases sign <;> cases none
  | _ =>
    rw [value] at unpacked
    cases unpacked

/-- What exceeds a number is not at most that number. The converse fails where one side is no number. -/
theorem not_le_of_gt {x y : Float} (above : x > y) : ¬ x ≤ y := by
  have order : y.toModel.unpack.compare x.toModel.unpack = some .lt := by
    simpa [UnpackedFloat.lt] using lt_iff.1 above
  intro below
  rw [le_iff, UnpackedFloat.le, compare_swap, order] at below
  cases below

theorem exists_compare {a b : UnpackedFloat} (left : a.isNaN = false) (right : b.isNaN = false) :
    ∃ order, a.compare b = some order := by
  unfold UnpackedFloat.compare
  split
  case h_1 => cases left
  case h_2 => cases right
  all_goals exact ⟨_, rfl⟩

/-- Of two numbers, one that is not at most the other exceeds it. -/
theorem lt_of_not_le {x y : Float} (hx : x.isNaN = false) (hy : y.isNaN = false)
    (above : ¬ x ≤ y) : y < x := by
  obtain ⟨order, compared⟩ := exists_compare (a := x.toModel.unpack) (b := y.toModel.unpack) hx hy
  rw [le_iff, UnpackedFloat.le, compared] at above
  rw [lt_iff, UnpackedFloat.lt, compare_swap, compared]
  cases order with
  | gt => rfl
  | _ => exact absurd rfl above

/-- No number is at most what is no number. -/
theorem not_le_of_isNaN {x y : Float} (none : y.isNaN = true) : ¬ x ≤ y := by
  intro below
  have unpacked : y.toModel.unpack.isNaN = true := none
  rw [le_iff, UnpackedFloat.le] at below
  cases value : y.toModel.unpack with
  | notANumber =>
    rw [value] at below
    cases other : x.toModel.unpack <;> rw [other] at below <;> cases below
  | _ =>
    rw [value] at unpacked
    cases unpacked

end Number

namespace Coordinates

theorem same_self {c : Coordinates} (known : c.inRange = true) : c.same c = true := by
  simp only [inRange, Bool.and_eq_true, decide_eq_true_eq] at known
  obtain ⟨⟨⟨-, lat⟩, -⟩, lng⟩ := known
  rw [same, Number.beq_self_of_le lat, Number.beq_self_of_le lng]
  rfl

end Coordinates

end Hearth
