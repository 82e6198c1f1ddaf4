import Mathlib
import Hearth.Number.Nearest
import Hearth.Proofs.Number.Order

/-!
# Hearth.Proofs.Number.Value

The rational number that a finite binary number denotes, and what comparing and rounding say about it.

## Main definitions

* `value?`: the value of a binary number, if it is finite.
* `Numeral.value?`: the value of a written number, be it whole or not.

## Main results

* `le_iff_value`, `lt_iff_value`: comparing two finite numbers compares their values.
* `nearestWhole_eq_round`: a number that is not negative is rounded to the whole number nearest to its
  value.
* `value?_wholeToFloat`: a whole number below `2 ^ 53` is kept as it is, and a larger one stays beyond.
-/

namespace Hearth.Number

open Float.Model
open Float.Model.UnpackedFloat

def rational? : UnpackedFloat → Option ℚ
  | .zero _ => some 0
  | .finite sign mantissa exponent _ => some (sign.apply mantissa * 2 ^ exponent)
  | _ => none

/-- The rational number that a finite binary number denotes. -/
def value? (x : Float) : Option ℚ := rational? x.toModel.unpack

/-- A mantissa has at most 53 digits, and all of them unless the exponent is the least one. -/
structure Canonical (mantissa : Nat) (exponent : Int) : Prop where
  short : mantissa < 2 ^ 53
  least : -1074 ≤ exponent
  full : 2 ^ 52 ≤ mantissa ∨ exponent = -1074

variable {x y : Float} {p q : ℚ} {sign : Sign} {mantissa : Nat} {exponent : Int}

/-! ### Bits -/

/-- The lowest 52 bits. -/
def fraction (x : Float) : Nat := x.toBits.toNat % 4503599627370496

/-- The eleven bits above them, which hold the exponent. -/
def field (x : Float) : Nat := x.toBits.toNat / 4503599627370496 % 2048

theorem takeApart_eq (x : Float) :
    takeApart x =
      if field x = 0 then (fraction x, (-1074 : Int))
      else (4503599627370496 + fraction x, (field x : Int) - 1075) := by
  have low : magnitudeBits x % 4503599627370496 = fraction x := by
    simp only [magnitudeBits, fraction]
    omega
  have high : magnitudeBits x / 4503599627370496 = field x := by
    simp only [magnitudeBits, field]
    omega
  simp only [takeApart, Parts.ofBits, low, high]
  split
  · rfl
  · rfl

theorem unpackMantissa_toNat (x : Float) :
    (@unpackMantissa Format.binary64 x.toModel.toBits.toBitVec).toNat = fraction x := by
  simp [unpackMantissa, fraction, Float.toBits]

theorem unpackExponent_toNat (x : Float) :
    (@unpackExponent Format.binary64 x.toModel.toBits.toBitVec).toNat = field x := by
  simp [unpackExponent, field, Float.toBits, Nat.shiftRight_eq_div_pow]

theorem toNat_one_append (v : BitVec 52) : (1#1 ++ v).toNat = 4503599627370496 + v.toNat := by
  rw [BitVec.toNat_append, ← Nat.shiftLeft_add_eq_or_of_lt v.isLt]
  simp [Nat.shiftLeft_eq]

/-- Both ways to take a number apart agree. -/
theorem unpack_cases (x : Float) :
    (x.isFinite = false ∧ value? x = none) ∨
    (∃ sign, x.toModel.unpack = .zero sign ∧ (takeApart x).1 = 0) ∨
    ∃ sign mantissa exponent positive,
      x.toModel.unpack = .finite sign mantissa exponent positive ∧
      takeApart x = (mantissa, exponent) ∧ Canonical mantissa exponent := by
  have unfolded : x.toModel.unpack =
      UnpackedFloat.unpack Format.binary64 x.toModel.toBits.toBitVec := rfl
  have low := unpackMantissa_toNat x
  have high := unpackExponent_toNat x
  have short : fraction x < 4503599627370496 := Nat.mod_lt _ (by decide)
  unfold UnpackedFloat.unpack at unfolded
  dsimp only at unfolded
  split at unfolded
  · -- The largest exponent is kept for what is not finite.
    refine .inl ⟨?_, ?_⟩
    · show x.toModel.unpack.isFinite = false
      rw [unfolded]
      split <;> rfl
    · rw [value?, unfolded]
      split <;> rfl
  · split at unfolded
    · next least =>
      have small : field x = 0 := by rw [← high, least]; rfl
      have apart : takeApart x = (fraction x, -1074) := by rw [takeApart_eq, if_pos small]
      split at unfolded
      · next zero =>
        have none : fraction x = 0 := by rw [← low, zero]; rfl
        exact .inr (.inl ⟨_, unfolded, by rw [apart, none]⟩)
      · refine .inr (.inr ⟨_, _, _, _, unfolded, ?_, ?_⟩)
        · rw [apart, low, high, small]
          rfl
        · rw [low, high, small]
          exact ⟨by omega, by decide, .inr (by decide)⟩
    · next above =>
      have large : field x ≠ 0 := by
        intro small
        exact above (BitVec.eq_of_toNat_eq (by rw [high, small]; rfl))
      have apart : takeApart x = (4503599627370496 + fraction x, (field x : Int) - 1075) := by
        rw [takeApart_eq, if_neg large]
      refine .inr (.inr ⟨_, _, _, _, unfolded, ?_, ?_⟩)
      · rw [apart, toNat_one_append, low, high]
        rfl
      · rw [toNat_one_append, low, high]
        refine ⟨by omega, ?_, .inl (by omega)⟩
        show -1074 ≤ (field x : Int) - (1023 + 52)
        omega

theorem isFinite_iff_value : x.isFinite = true ↔ ∃ q, value? x = some q := by
  rcases unpack_cases x with ⟨infinite, none⟩ | ⟨sign, unpacked, -⟩ | ⟨s, m, e, _, unpacked, -⟩
  · simp [infinite, none]
  · have finite : x.isFinite = true := congrArg UnpackedFloat.isFinite unpacked
    simp [finite, value?, unpacked, rational?]
  · have finite : x.isFinite = true := congrArg UnpackedFloat.isFinite unpacked
    simp [finite, value?, unpacked, rational?]

/-! ### Comparing -/

theorem lt_of_exponent_lt {m n : Nat} {e f : Int} (left : Canonical m e) (right : Canonical n f)
    (less : e < f) : (m : ℚ) * 2 ^ e < n * 2 ^ f := by
  have short : (m : ℚ) < 2 ^ 53 := by exact_mod_cast left.short
  have long : (2 : ℚ) ^ 52 ≤ n := by
    have least := left.least
    exact_mod_cast right.full.resolve_right (by omega)
  calc (m : ℚ) * 2 ^ e < 2 ^ 53 * 2 ^ e := by gcongr
    _ = 2 ^ 52 * 2 ^ (e + 1) := by
      rw [zpow_add_one₀ (by norm_num)]
      ring
    _ ≤ n * 2 ^ f := by
      gcongr
      · norm_num
      · omega

/-- Numbers on the same side of zero are told apart by their exponents, and then by their mantissas. -/
theorem compare_parts {m n : Nat} {e f : Int} (left : Canonical m e) (right : Canonical n f) :
    (compare e f).then (compare m n) = compare ((m : ℚ) * 2 ^ e) (n * 2 ^ f) := by
  rcases lt_trichotomy e f with less | rfl | more
  · rw [compare_lt_iff_lt.2 less, compare_lt_iff_lt.2 (lt_of_exponent_lt left right less)]
    rfl
  · have positive : (0 : ℚ) < 2 ^ e := by positivity
    rw [compare_eq_iff_eq.2 rfl, Ordering.eq_then]
    rcases lt_trichotomy m n with less | rfl | more
    · rw [compare_lt_iff_lt.2 less, compare_lt_iff_lt.2]
      gcongr
    · rw [compare_eq_iff_eq.2 rfl, compare_eq_iff_eq.2 rfl]
    · rw [compare_gt_iff_gt.2 more, compare_gt_iff_gt.2]
      gcongr
  · rw [compare_gt_iff_gt.2 more, compare_gt_iff_gt.2 (lt_of_exponent_lt right left more)]
    rfl

/-- Below zero the order is turned around. -/
theorem compare_neg (a b : ℚ) : compare (-a) (-b) = (compare a b).swap := by
  rcases lt_trichotomy a b with less | rfl | more
  · rw [compare_lt_iff_lt.2 less, compare_gt_iff_gt.2 (neg_lt_neg less)]
    rfl
  · rw [compare_eq_iff_eq.2 rfl, compare_eq_iff_eq.2 rfl]
    rfl
  · rw [compare_gt_iff_gt.2 more, compare_lt_iff_lt.2 (neg_lt_neg more)]
    rfl

/-- The value of an unpacked number, by its side of zero. -/
inductive Denotes : UnpackedFloat → ℚ → Prop
  | zero (sign : Sign) : Denotes (.zero sign) 0
  | positive {mantissa : Nat} {exponent : Int} (canonical : Canonical mantissa exponent)
      (pos : 0 < mantissa) : Denotes (.finite .positive mantissa exponent pos) (mantissa * 2 ^ exponent)
  | negative {mantissa : Nat} {exponent : Int} (canonical : Canonical mantissa exponent)
      (pos : 0 < mantissa) :
      Denotes (.finite .negative mantissa exponent pos) (-(mantissa * 2 ^ exponent))

theorem denotes_of_value (known : value? x = some q) : Denotes x.toModel.unpack q := by
  rcases unpack_cases x with ⟨-, none⟩ | ⟨sign, unpacked, -⟩ | ⟨s, m, e, pos, unpacked, -, canonical⟩
  · rw [none] at known
    cases known
  · rw [value?, unpacked] at known
    cases known
    rw [unpacked]
    exact .zero sign
  · rw [value?, unpacked] at known
    cases known
    rw [unpacked]
    cases s with
    | positive => simpa [Sign.apply] using Denotes.positive canonical pos
    | negative => simpa [Sign.apply] using Denotes.negative canonical pos

theorem Denotes.compare_eq {a b : UnpackedFloat} (left : Denotes a p) (right : Denotes b q) :
    a.compare b = some (compare p q) := by
  have size {m : Nat} (e : Int) (pos : 0 < m) : (0 : ℚ) < m * 2 ^ e := by positivity
  cases left with
  | zero s =>
    cases right with
    | zero u => simp [UnpackedFloat.compare]
    | @positive n f _ above =>
      have ahead := size f above
      rw [compare_lt_iff_lt.2 ahead]
      rfl
    | @negative n f _ above =>
      have behind := neg_lt_zero.2 (size f above)
      rw [compare_gt_iff_gt.2 behind]
      rfl
  | @positive m e canonical pos =>
    have high := size e pos
    cases right with
    | zero u =>
      rw [compare_gt_iff_gt.2 high]
      rfl
    | positive other _ => exact congrArg some (compare_parts canonical other)
    | @negative n f _ above =>
      have behind := neg_lt_zero.2 (size f above)
      rw [compare_gt_iff_gt.2 (behind.trans high)]
      rfl
  | @negative m e canonical pos =>
    have low := neg_lt_zero.2 (size e pos)
    cases right with
    | zero u =>
      rw [compare_lt_iff_lt.2 low]
      rfl
    | @positive n f _ above =>
      rw [compare_lt_iff_lt.2 (low.trans (size f above))]
      rfl
    | @negative n f other _ =>
      show some ((compare e f).then (compare m n)).swap = _
      rw [compare_parts canonical other, compare_neg]

theorem le_iff_value (hx : value? x = some p) (hy : value? y = some q) : x ≤ y ↔ p ≤ q := by
  rw [le_iff, UnpackedFloat.le, (denotes_of_value hx).compare_eq (denotes_of_value hy),
    Option.any_some, ← compare_le_iff_le]
  cases compare p q <;> decide

theorem lt_iff_value (hx : value? x = some p) (hy : value? y = some q) : x < y ↔ p < q := by
  rw [lt_iff, UnpackedFloat.lt, (denotes_of_value hx).compare_eq (denotes_of_value hy),
    ← compare_lt_iff_lt]
  cases compare p q <;> decide

theorem Denotes.compare_infinity {a : UnpackedFloat} (finite : Denotes a q) :
    (infinity .positive).compare a = some .gt ∧ a.compare (infinity .negative) = some .gt := by
  cases finite <;> exact ⟨rfl, rfl⟩

/-- What lies between two finite numbers is finite. -/
theorem exists_value_of_between {a b : Float} (low : value? a = some p) (high : value? b = some q)
    (above : a ≤ x) (below : x ≤ b) : ∃ r, value? x = some r := by
  rw [le_iff, UnpackedFloat.le] at above below
  cases unpacked : x.toModel.unpack with
  | notANumber =>
    rw [unpacked] at below
    cases below
  | infinity sign =>
    -- Each infinity is beyond one of the ends.
    rw [unpacked] at above below
    cases sign with
    | negative =>
      rw [(denotes_of_value low).compare_infinity.2] at above
      cases above
    | positive =>
      rw [(denotes_of_value high).compare_infinity.1] at below
      cases below
  | _ => exact ⟨_, by rw [value?, unpacked, rational?]⟩

/-! ### Rounding -/

theorem roundHalfUp_eq_round (numerator : Nat) {denominator : Nat} (positive : 0 < denominator) :
    (roundHalfUp numerator denominator : ℤ) = round ((numerator : ℚ) / denominator) := by
  have positive : (0 : ℚ) < denominator := by exact_mod_cast positive
  have sum : (numerator : ℚ) / denominator + 1 / 2 =
      ((2 * numerator + denominator : ℕ) : ℚ) / ((2 * denominator : ℕ) : ℚ) := by
    push_cast
    field_simp
  rw [round_eq, sum, Rat.floor_natCast_div_natCast, roundHalfUp]
  push_cast
  rfl

/-- A power of two as a quotient of two of which one is one. -/
theorem two_zpow_eq (e : Int) : (2 : ℚ) ^ e = 2 ^ e.toNat / 2 ^ (-e).toNat := by
  rw [← zpow_natCast, ← zpow_natCast, ← zpow_sub₀ (by norm_num)]
  congr 1
  omega

/-- A number that is not negative is rounded to the whole number nearest to its value. -/
theorem nearestWhole_eq_round (known : value? x = some q) (nonneg : 0 ≤ q) :
    (nearestWhole x : ℤ) = round q := by
  have finite : x.isFinite = true := isFinite_iff_value.2 ⟨q, known⟩
  simp only [nearestWhole, finite, ↓reduceIte, Nat.pow_eq]
  rw [roundHalfUp_eq_round _ (Nat.two_pow_pos _)]
  congr 1
  rcases unpack_cases x with ⟨-, none⟩ | ⟨sign, unpacked, empty⟩ | ⟨s, m, e, pos, unpacked, apart, -⟩
  · rw [none] at known
    cases known
  · rw [value?, unpacked] at known
    cases known
    simp [empty]
  · rw [value?, unpacked] at known
    cases known
    have size : (0 : ℚ) < m * 2 ^ e := by positivity
    have side : s.apply m = (m : ℤ) := by
      cases s with
      | positive => rfl
      | negative =>
        simp only [Sign.apply, Int.cast_neg, Int.cast_natCast, neg_mul] at nonneg
        linarith
    rw [apart, side, two_zpow_eq]
    push_cast
    ring

/-! ### Whole numbers -/

theorem unpackSign_packComponents (sign : Sign) (e : BitVec 11) (m : BitVec 52) :
    Sign.ofBitVec (unpackSign (packComponents Format.binary64 sign e m)) = sign := by
  simp only [unpackSign, packComponents, BitVec.extractLsb]
  rw [BitVec.extractLsb'_append_eq_of_le (by decide),
    BitVec.extractLsb'_append_eq_of_le (by decide)]
  cases sign <;> rfl

/-- A number with all its digits and an exponent in the range of the format is kept as it is. -/
theorem unpack_pack (sign : Sign) (positive : 0 < mantissa) (full : 2 ^ 52 ≤ mantissa)
    (short : mantissa < 2 ^ 53) (low : -1074 ≤ exponent) (high : exponent ≤ 971) :
    (Float.Model.pack (.finite sign mantissa exponent positive)).unpack =
      .finite sign mantissa exponent positive := by
  show UnpackedFloat.unpack Format.binary64 (UnpackedFloat.pack Format.binary64 _) = _
  have digits : mantissa.log2 = 52 := by
    have least := (Nat.le_log2 (by omega)).2 full
    have most := (Nat.log2_lt (by omega)).2 short
    omega
  have bias : (exponent + (Format.binary64.exponentBias : ℕ)
      + (Format.binary64.mantissaBitsWithoutImplicit : ℕ)).toNat = (exponent + 1075).toNat := by
    show (exponent + 1023 + 52).toNat = _
    omega
  have biased : (BitVec.ofNat 11 (exponent + 1075).toNat).toNat = (exponent + 1075).toNat := by
    rw [BitVec.toNat_ofNat]
    omega
  have notLargest : BitVec.ofNat 11 (exponent + 1075).toNat ≠ -1#11 := by
    intro same
    rw [same] at biased
    have value : (-1#11 : BitVec 11).toNat = 2047 := rfl
    omega
  have notLeast : BitVec.ofNat 11 (exponent + 1075).toNat ≠ 0#11 := by
    intro same
    rw [same] at biased
    have value : (0#11 : BitVec 11).toNat = 0 := rfl
    omega
  have kept : (1#1 ++ BitVec.ofNat 52 mantissa).toNat = mantissa := by
    rw [toNat_one_append, BitVec.toNat_ofNat]
    omega
  simp only [UnpackedFloat.pack, digits, bias]
  rw [if_neg (by omega), if_pos (by rfl), UnpackedFloat.unpack]
  simp only [unpackMantissa_packComponents, unpackExponent_packComponents,
    unpackSign_packComponents, kept, biased]
  rw [if_neg notLargest, if_neg notLeast]
  congr 1
  show ((exponent + 1075).toNat : ℤ) - (1023 + 52) = exponent
  omega

theorem targetExponent_eq (total : Int) :
    Format.binary64.targetExponent total = max (total - 53) (-1074) := rfl

theorem mantissa_shiftRight (em : ExtendedMantissa) (n : Nat) :
    (em >>> n).mantissa = em.mantissa / 2 ^ n := by
  show (n.repeat ExtendedMantissa.shiftRightOne em).mantissa = _
  induction n with
  | zero => simp [Nat.repeat]
  | succ n ih =>
    rw [Nat.repeat, ExtendedMantissa.shiftRightOne, ih, Nat.div_div_eq_div_mul, Nat.pow_succ]

theorem roundedMantissa_near (em : ExtendedMantissa) :
    em.mantissa ≤ em.roundedMantissa ∧ em.roundedMantissa ≤ em.mantissa + 1 := by
  unfold ExtendedMantissa.roundedMantissa
  match em.accuracy with
  | .exact => simp [Accuracy.roundToNearestEven]
  | .inexact .lt => simp [Accuracy.roundToNearestEven]
  | .inexact .eq =>
    simp only [Accuracy.roundToNearestEven]
    omega
  | .inexact .gt => simp [Accuracy.roundToNearestEven]

/-- A mantissa that is short enough is not shifted. -/
theorem shift_short (short : mantissa < 2 ^ 53) (low : -1074 ≤ exponent) :
    shiftToTargetExponent Format.binary64 mantissa exponent .exact =
      (⟨mantissa, false, false⟩, exponent) := by
  have digits : mantissa.log2 ≤ 52 := by
    by_cases zero : mantissa = 0
    · simp [zero]
    · exact Nat.le_of_lt_succ ((Nat.log2_lt zero).2 short)
  have still : (max (totalExponent mantissa exponent - 53) (-1074) - exponent).toNat = 0 := by
    simp only [totalExponent]
    omega
  simp only [shiftToTargetExponent, shiftToExponent, targetExponent_eq, still]
  simp only [Nat.cast_zero, add_zero]
  rfl

/-- Rounding shifts twice, since being rounded up may fill one digit more. -/
theorem roundWithAccuracy_eq {em last : ExtendedMantissa} {e f : Int} {accuracy : Accuracy}
    (once : shiftToTargetExponent Format.binary64 mantissa exponent accuracy = (em, e))
    (twice : shiftToTargetExponent Format.binary64 em.roundedMantissa e .exact = (last, f))
    (positive : 0 < last.mantissa) :
    roundWithAccuracy Format.binary64 sign mantissa exponent accuracy =
      .finite sign last.mantissa f positive := by
  unfold roundWithAccuracy
  simp only [once, twice]
  exact dif_neg (Nat.ne_of_gt positive)

/-- A mantissa that is short enough is kept. -/
theorem roundWithAccuracy_short (sign : Sign) (positive : 0 < mantissa) (short : mantissa < 2 ^ 53)
    (low : -1074 ≤ exponent) :
    roundWithAccuracy Format.binary64 sign mantissa exponent .exact =
      .finite sign mantissa exponent positive :=
  roundWithAccuracy_eq (shift_short short low) (shift_short short low) positive

theorem log2_of_word {n : Nat} (long : 2 ^ 53 ≤ n) (word : n < 2 ^ 64) :
    ∃ k, n.log2 = 52 + k ∧ 1 ≤ k ∧ k ≤ 11 ∧ 2 ^ 52 ≤ n / 2 ^ k ∧ n / 2 ^ k < 2 ^ 53 := by
  have low : 53 ≤ n.log2 := (Nat.le_log2 (by omega)).2 long
  have high : n.log2 < 64 := (Nat.log2_lt (by omega)).2 word
  obtain ⟨k, digits⟩ : ∃ k, n.log2 = 52 + k := ⟨n.log2 - 52, by omega⟩
  have least : 2 ^ 52 * 2 ^ k ≤ n := by
    rw [← Nat.pow_add, ← digits]
    exact Nat.log2_self_le (by omega)
  have most : n < 2 ^ 53 * 2 ^ k := by
    rw [← Nat.pow_add, show 53 + k = n.log2 + 1 by omega]
    exact Nat.lt_log2_self
  exact ⟨k, digits, by omega, by omega, (Nat.le_div_iff_mul_le (Nat.two_pow_pos k)).2 least,
    (Nat.div_lt_iff_lt_mul (Nat.two_pow_pos k)).2 most⟩

/-- A number that has too many digits loses the last ones, and the rest may be raised by one. -/
theorem roundWithAccuracy_long (sign : Sign) {n : Nat} (long : 2 ^ 53 ≤ n) (word : n < 2 ^ 64) :
    ∃ m e pos, roundWithAccuracy Format.binary64 sign n 0 .exact = .finite sign m e pos ∧
      2 ^ 52 ≤ m ∧ m < 2 ^ 53 ∧ 1 ≤ e ∧ e ≤ 12 := by
  obtain ⟨k, digits, low, high, full, short⟩ := log2_of_word long word
  have once : shiftToTargetExponent Format.binary64 n 0 .exact =
      ((⟨n, false, false⟩ : ExtendedMantissa) >>> k, (k : Int)) := by
    have amount : (max ((n.log2 : Int) + 1 + 0 - 53) (-1074) - 0).toNat = k := by omega
    simp only [shiftToTargetExponent, shiftToExponent, targetExponent_eq, totalExponent, amount]
    simp only [zero_add]
    rfl
  have kept := mantissa_shiftRight ⟨n, false, false⟩ k
  obtain ⟨below, above⟩ := roundedMantissa_near ((⟨n, false, false⟩ : ExtendedMantissa) >>> k)
  rw [kept] at below above
  by_cases fits :
      ((⟨n, false, false⟩ : ExtendedMantissa) >>> k).roundedMantissa < 2 ^ 53
  · have positive := Nat.lt_of_lt_of_le (Nat.two_pow_pos 52) (full.trans below)
    exact ⟨_, k, positive, roundWithAccuracy_eq once (shift_short fits (by omega)) positive,
      full.trans below, fits, by omega, by omega⟩
  · -- Being raised has filled all digits, so one more is lost.
    have filled : ((⟨n, false, false⟩ : ExtendedMantissa) >>> k).roundedMantissa = 2 ^ 53 :=
      Nat.le_antisymm (above.trans short) (Nat.not_lt.1 fits)
    have twice : shiftToTargetExponent Format.binary64 (2 ^ 53) k .exact =
        (⟨2 ^ 52, false, false⟩, (k : Int) + 1) := by
      have amount : (max ((53 : Int) + 1 + k - 53) (-1074) - k).toNat = 1 := by omega
      simp only [shiftToTargetExponent, shiftToExponent, targetExponent_eq, totalExponent,
        Nat.log2_two_pow, Nat.cast_ofNat, amount]
      rfl
    rw [← filled] at twice
    exact ⟨2 ^ 52, k + 1, Nat.two_pow_pos 52, roundWithAccuracy_eq once twice (Nat.two_pow_pos 52),
      Nat.le_refl _, by decide, by omega, by omega⟩

theorem targetExponent_whole (n : Nat) :
    Format.binary64.targetExponent (totalExponent n 0) = (n.log2 : Int) - 52 := by
  simp only [targetExponent_eq, totalExponent]
  omega

/-- A number that has too few digits gets more, which leaves its value. -/
theorem round_short (sign : Sign) {n : Nat} (positive : 0 < n) (small : n < 2 ^ 53) :
    ∃ m k pos, UnpackedFloat.round Format.binary64 sign n 0 = .finite sign m (-(k : Nat)) pos ∧
      m = n * 2 ^ k ∧ 2 ^ 52 ≤ m ∧ m < 2 ^ 53 ∧ k ≤ 52 := by
  have short : n.log2 < 53 := (Nat.log2_lt (Nat.ne_of_gt positive)).2 small
  obtain ⟨k, digits⟩ : ∃ k, n.log2 + k = 52 := ⟨52 - n.log2, by omega⟩
  have amount : ((0 : Int) - (n.log2 - 52)).toNat = k := by omega
  have least : 2 ^ 52 ≤ n * 2 ^ k := by
    rw [← digits, Nat.pow_add]
    exact Nat.mul_le_mul_right _ (Nat.log2_self_le (Nat.ne_of_gt positive))
  have most : n * 2 ^ k < 2 ^ 53 := by
    rw [show 53 = (n.log2 + 1) + k by omega, Nat.pow_add]
    exact Nat.mul_lt_mul_of_pos_right Nat.lt_log2_self (Nat.two_pow_pos k)
  have above := Nat.mul_pos positive (Nat.two_pow_pos k)
  have rounded : UnpackedFloat.round Format.binary64 sign n 0 =
      .finite sign (n * 2 ^ k) (-(k : Int)) above := by
    unfold UnpackedFloat.round
    simp only [targetExponent_whole, decreaseExponent, amount, Nat.shiftLeft_eq]
    rw [zero_sub]
    exact roundWithAccuracy_short sign above most (by omega)
  exact ⟨_, k, above, rounded, rfl, least, most, by omega⟩

theorem round_long (sign : Sign) {n : Nat} (long : 2 ^ 53 ≤ n) (word : n < 2 ^ 64) :
    ∃ m e pos, UnpackedFloat.round Format.binary64 sign n 0 = .finite sign m e pos ∧
      2 ^ 52 ≤ m ∧ m < 2 ^ 53 ∧ 1 ≤ e ∧ e ≤ 12 := by
  have low : 53 ≤ n.log2 := (Nat.le_log2 (by omega)).2 long
  have amount : ((0 : Int) - (n.log2 - 52)).toNat = 0 := by omega
  unfold UnpackedFloat.round
  simp only [targetExponent_whole, decreaseExponent, amount, Nat.shiftLeft_zero, Nat.cast_zero,
    sub_zero]
  exact roundWithAccuracy_long sign long word

theorem round_whole (sign : Sign) {n : Nat} (positive : 0 < n) (word : n < 2 ^ 64) :
    ∃ m e pos, UnpackedFloat.round Format.binary64 sign n 0 = .finite sign m e pos ∧
      2 ^ 52 ≤ m ∧ m < 2 ^ 53 ∧ -52 ≤ e ∧ e ≤ 12 ∧
      (n < 2 ^ 53 → (m : ℚ) * 2 ^ e = n) ∧ (2 ^ 53 ≤ n → (2 : ℚ) ^ 53 ≤ m * 2 ^ e) := by
  by_cases small : n < 2 ^ 53
  · obtain ⟨m, k, pos, rounded, digits, full, short, few⟩ := round_short sign positive small
    refine ⟨m, _, pos, rounded, full, short, by omega, by omega, fun _ => ?_,
      fun long => absurd small (Nat.not_lt.2 long)⟩
    rw [digits, zpow_neg, zpow_natCast]
    push_cast
    field_simp
  · obtain ⟨m, e, pos, rounded, full, short, low, high⟩ := round_long sign (Nat.not_lt.1 small) word
    refine ⟨m, e, pos, rounded, full, short, by omega, high, fun short => absurd short small,
      fun _ => ?_⟩
    have full : (2 : ℚ) ^ 52 ≤ m := by exact_mod_cast full
    calc (2 : ℚ) ^ 53 = 2 ^ 52 * (2 : ℚ) ^ (1 : Int) := by norm_num
      _ ≤ (m : ℚ) * 2 ^ e := by
        gcongr
        norm_num

theorem unpack_toFloat {n : UInt64} (positive : 0 < n.toNat) :
    ∃ m e pos, n.toFloat.toModel.unpack = .finite .positive m e pos ∧
      (-n.toFloat).toModel.unpack = .finite .negative m e pos ∧
      (n.toNat < 2 ^ 53 → (m : ℚ) * 2 ^ e = n.toNat) ∧
      (2 ^ 53 ≤ n.toNat → (2 : ℚ) ^ 53 ≤ m * 2 ^ e) := by
  obtain ⟨m, e, pos, rounded, full, short, low, high, value⟩ :=
    round_whole .positive positive n.toNat_lt
  have kept (sign : Sign) : (Float.Model.pack (.finite sign m e pos)).unpack =
      .finite sign m e pos := unpack_pack sign pos full short (by omega) (by omega)
  have unpacked : n.toFloat.toModel.unpack = .finite .positive m e pos := by
    rw [← kept, ← rounded]
    show (Float.Model.pack (UnpackedFloat.normalize Format.binary64
      (n.toNat : Int) 0 .positive)).unpack = _
    rw [UnpackedFloat.normalize, Int.compare_eq_gt.2 (by omega)]
    rfl
  refine ⟨m, e, pos, unpacked, ?_, value⟩
  rw [← kept]
  show (Float.Model.pack n.toFloat.toModel.unpack.neg).unpack = _
  rw [unpacked]
  rfl

/-- The values of a whole number of at most 64 bits and of its negation. -/
theorem value?_toFloat (n : UInt64) :
    ∃ q, value? n.toFloat = some q ∧ value? (-n.toFloat) = some (-q) ∧
      (n.toNat < 2 ^ 53 → q = n.toNat) ∧ (2 ^ 53 ≤ n.toNat → 2 ^ 53 ≤ q) := by
  by_cases zero : n.toNat = 0
  · obtain rfl : n = 0 := UInt64.toNat_inj.1 zero
    exact ⟨0, rfl, rfl, fun _ => rfl, fun long => absurd long (by decide)⟩
  · obtain ⟨m, e, pos, unpacked, negated, value⟩ := unpack_toFloat (Nat.pos_of_ne_zero zero)
    refine ⟨m * 2 ^ e, ?_, ?_, value⟩
    · rw [value?, unpacked]
      simp [rational?, Sign.apply]
    · rw [value?, negated]
      simp [rational?, Sign.apply]

/-- A whole number below `2 ^ 53` is kept as it is, and a larger one stays beyond. -/
theorem value?_wholeToFloat {n : Int} (word : n.natAbs < 2 ^ 64) :
    ∃ q, value? (Numeral.wholeToFloat n) = some q ∧ (n.natAbs < 2 ^ 53 → q = n) ∧
      (2 ^ 53 ≤ n → 2 ^ 53 ≤ q) ∧ (n ≤ -2 ^ 53 → q ≤ -2 ^ 53) := by
  obtain ⟨q, value, negated, short, long⟩ := value?_toFloat (UInt64.ofNat n.natAbs)
  rw [UInt64.toNat_ofNat_of_lt' word] at short long
  unfold Numeral.wholeToFloat
  by_cases negative : n < 0
  · have side : (n.natAbs : ℚ) = -n := by
      rw [Nat.cast_natAbs, abs_of_neg negative, Int.cast_neg]
    refine ⟨-q, by rw [if_pos negative, negated], fun small => ?_, fun large => by omega,
      fun large => ?_⟩
    · rw [short small, side, neg_neg]
    · exact neg_le_neg (long (by omega))
  · have side : (n.natAbs : ℚ) = n := by
      rw [Nat.cast_natAbs, abs_of_nonneg (Int.not_lt.1 negative)]
    refine ⟨q, by rw [if_neg negative, value], fun small => ?_, fun large => long (by omega),
      fun large => by omega⟩
    rw [short small, side]

theorem isFinite_wholeToFloat (n : Int) : (Numeral.wholeToFloat n).isFinite = true := by
  obtain ⟨q, value, negated, -⟩ := value?_toFloat (UInt64.ofNat n.natAbs)
  unfold Numeral.wholeToFloat
  split
  · exact isFinite_iff_value.2 ⟨-q, negated⟩
  · exact isFinite_iff_value.2 ⟨q, value⟩

end Hearth.Number

namespace Hearth.Numeral

/-- A number as JSON data holds it: a whole one has 64 bits, with or without a sign, and any other is
finite. -/
def Held : Numeral → Prop
  | .whole n => -9223372036854775808 ≤ n ∧ n ≤ 18446744073709551615
  | .real x => x.isFinite = true

/-- The rational number that is written. -/
def value? : Numeral → Option ℚ
  | .whole n => some n
  | .real x => Number.value? x

theorem exists_value {n : Numeral} (held : n.Held) : ∃ q, n.value? = some q := by
  cases n with
  | whole n => exact ⟨n, rfl⟩
  | real x => exact Number.isFinite_iff_value.1 held

section

variable {n : Numeral} {x : Float} {q limit : ℚ}

/-- The binary number for a written one is the same, or both lie far from zero on the same side. -/
theorem value?_toFloat (held : n.Held) (written : n.value? = some q) :
    ∃ p, Number.value? n.toFloat = some p ∧
      (p = q ∨ 2 ^ 53 ≤ p ∧ 2 ^ 53 ≤ q ∨ p ≤ -2 ^ 53 ∧ q ≤ -2 ^ 53) := by
  cases n with
  | real x => exact ⟨q, written, .inl rfl⟩
  | whole n =>
    obtain rfl : (n : ℚ) = q := Option.some.inj written
    obtain ⟨low, high⟩ : -9223372036854775808 ≤ n ∧ n ≤ 18446744073709551615 := held
    obtain ⟨p, known, short, above, below⟩ := Number.value?_wholeToFloat (n := n) (by omega)
    refine ⟨p, known, ?_⟩
    by_cases small : n.natAbs < 2 ^ 53
    · exact .inl (short small)
    · by_cases negative : n < 0
      · have far : n ≤ -2 ^ 53 := by omega
        exact .inr (.inr ⟨below far, by exact_mod_cast far⟩)
      · have far : 2 ^ 53 ≤ n := by omega
        exact .inr (.inl ⟨above far, by exact_mod_cast far⟩)

/-- A limit below `2 ^ 53` separates the written numbers as it separates the binary ones. -/
theorem compare_toFloat (held : n.Held) (written : n.value? = some q) (near : |limit| < 2 ^ 53) :
    ∃ p, Number.value? n.toFloat = some p ∧ (p ≤ limit ↔ q ≤ limit) ∧ (limit ≤ p ↔ limit ≤ q) := by
  obtain ⟨p, value, close⟩ := value?_toFloat held written
  obtain ⟨low, high⟩ := abs_lt.1 near
  refine ⟨p, value, ?_⟩
  rcases close with rfl | ⟨above, far⟩ | ⟨below, far⟩
  · exact ⟨Iff.rfl, Iff.rfl⟩
  · have big : limit < p := high.trans_le above
    have large : limit < q := high.trans_le far
    simp [big.not_ge, large.not_ge, big.le, large.le]
  · have small : p < limit := below.trans_lt low
    have little : q < limit := far.trans_lt low
    simp [small.not_ge, little.not_ge, small.le, little.le]

theorem toFloat_le_iff (held : n.Held) (written : n.value? = some q)
    (known : Number.value? x = some limit) (near : |limit| < 2 ^ 53) :
    n.toFloat ≤ x ↔ q ≤ limit := by
  obtain ⟨p, value, same, -⟩ := compare_toFloat held written near
  rw [Number.le_iff_value value known, same]

theorem le_toFloat_iff (held : n.Held) (written : n.value? = some q)
    (known : Number.value? x = some limit) (near : |limit| < 2 ^ 53) :
    x ≤ n.toFloat ↔ limit ≤ q := by
  obtain ⟨p, value, -, same⟩ := compare_toFloat held written near
  rw [Number.le_iff_value known value, same]

theorem lt_toFloat_iff (held : n.Held) (written : n.value? = some q)
    (known : Number.value? x = some limit) (near : |limit| < 2 ^ 53) :
    x < n.toFloat ↔ limit < q := by
  obtain ⟨p, value, same, -⟩ := compare_toFloat held written near
  rw [Number.lt_iff_value known value, ← not_le, same, not_le]

theorem nearestWhole_toFloat (held : n.Held) (written : n.value? = some q) (nonneg : 0 ≤ q)
    (small : q < 2 ^ 53) : (Number.nearestWhole n.toFloat : ℤ) = round q := by
  obtain ⟨p, value, close⟩ := value?_toFloat held written
  obtain rfl : p = q := close.resolve_right (by rintro (⟨-, far⟩ | ⟨-, far⟩) <;> linarith)
  exact Number.nearestWhole_eq_round value nonneg

end

end Hearth.Numeral
