import Mathlib.Data.List.DropRight
import Mathlib.Data.Nat.Digits.Defs
import Hearth.Time.Clock

/-!
# Hearth.Proofs.Time.Written

Which texts are times of day. Hours and minutes may have any number of digits, so that one time is
written in many ways, and a plus sign may stand in front of each.

## Main definitions

* `Text.Trims`: what a text is without the blanks at its ends.
* `Number.DigitsOf`, `Number.SignedDigitsOf`: the number that digits stand for, without a sign and
  with one.
* `TimeOfDay.Writes`: hours and minutes with a colon between them.

## Main results

* `TimeOfDay.read_exact`: the texts that are read are those that write a time, and what is read is
  this time; every other text is given back with the fault.
* `TimeOfDay.read_hourMinuteText`: what is written for a time is read as the start of its minute.
-/

namespace Hearth

/-! ### Blanks at the ends -/

namespace Text

/-- `core` is what is left of a text when the blanks at both ends are gone. -/
structure Trims (cs core : List Char) : Prop where
  around : ∃ front back, cs = front ++ core ++ back ∧
    (∀ c ∈ front, isBlank c = true) ∧ ∀ c ∈ back, isBlank c = true
  first : ∀ c ∈ core.head?, isBlank c = false
  last : ∀ c ∈ core.getLast?, isBlank c = false

theorem trimChars_eq_rdropWhile (cs : List Char) :
    trimChars cs = (cs.dropWhile isBlank).rdropWhile isBlank := rfl

theorem trims_trimChars (cs : List Char) : Trims cs (trimChars cs) where
  around := by
    refine ⟨cs.takeWhile isBlank, (cs.dropWhile isBlank).rtakeWhile isBlank, ?_, ?_, ?_⟩
    · rw [trimChars_eq_rdropWhile, List.append_assoc, List.rdropWhile_append_rtakeWhile,
        List.takeWhile_append_dropWhile]
    · exact fun c member => List.mem_takeWhile_imp member
    · exact fun c member => List.mem_rtakeWhile_imp member
  first := by
    -- What the blanks at the end are dropped from begins with the same character.
    obtain ⟨back, split⟩ := List.rdropWhile_prefix isBlank (l := cs.dropWhile isBlank)
    intro c begins
    refine head?_dropWhile_isBlank cs c ?_
    rw [← split, ← trimChars_eq_rdropWhile, List.head?_append, Option.mem_def.1 begins]
    rfl
  last := trimChars_blank_free cs

theorem dropWhile_append_of_solid {blanks rest : List Char}
    (blank : ∀ c ∈ blanks, isBlank c = true) (solid : ∀ c ∈ rest.head?, isBlank c = false) :
    (blanks ++ rest).dropWhile isBlank = rest := by
  rw [List.dropWhile_append_of_pos blank]
  cases rest with
  | nil => rfl
  | cons c rest => simp [solid c rfl]

theorem Trims.eq_trimChars {cs core : List Char} (trims : Trims cs core) : trimChars cs = core := by
  obtain ⟨front, back, rfl, blankFront, blankBack⟩ := trims.around
  cases core with
  | nil =>
    -- A text of blanks only is gone when those in front are dropped.
    have all : ∀ c ∈ front ++ back, isBlank c = true :=
      List.forall_mem_append.2 ⟨blankFront, blankBack⟩
    rw [trimChars, List.append_nil, List.dropWhile_eq_nil_iff.2 all]
    rfl
  | cons c rest =>
    have front_gone : (front ++ (c :: rest) ++ back).dropWhile isBlank = c :: rest ++ back := by
      rw [List.append_assoc]
      exact dropWhile_append_of_solid blankFront fun d begins => trims.first d begins
    have back_gone : (back.reverse ++ (c :: rest).reverse).dropWhile isBlank =
        (c :: rest).reverse := by
      refine dropWhile_append_of_solid (by simpa using blankBack) ?_
      rw [List.head?_reverse]
      exact trims.last
    rw [trimChars, front_gone, List.reverse_append, back_gone, List.reverse_reverse]

theorem trims_iff {cs core : List Char} : Trims cs core ↔ trimChars cs = core := by
  constructor
  · exact Trims.eq_trimChars
  · rintro rfl
    exact trims_trimChars cs

end Text

/-! ### Digits -/

namespace Number

/-- One decimal digit or more, and the number that they stand for. -/
structure DigitsOf (cs : List Char) (n : Nat) : Prop where
  some_digit : cs ≠ []
  decimal : ∀ c ∈ cs, '0' ≤ c ∧ c ≤ '9'
  value : n = Nat.ofDigits 10 (cs.reverse.map digitValue)

/-- The same with a plus sign in front, or without. -/
inductive SignedDigitsOf : List Char → Nat → Prop
  | plain {cs : List Char} {n : Nat} (digits : DigitsOf cs n) : SignedDigitsOf cs n
  | plus {cs : List Char} {n : Nat} (digits : DigitsOf cs n) : SignedDigitsOf ('+' :: cs) n

variable {cs : List Char} {limit n : Nat}

theorem ofDigits_eq (cs : List Char) :
    ofDigits cs = Nat.ofDigits 10 (cs.reverse.map digitValue) := by
  rw [Nat.ofDigits_eq_foldr, List.map_reverse, List.foldr_reverse, List.foldl_map, ofDigits]
  simp only [Nat.cast_id, Nat.add_comm]

theorem digitsUpTo?_eq_some_iff_digitsOf :
    digitsUpTo? limit cs = some n ↔ DigitsOf cs n ∧ n ≤ limit := by
  rw [digitsUpTo?_eq_some_iff, ofDigits_eq]
  constructor
  · rintro ⟨some_digit, decimal, value, below⟩
    exact ⟨⟨some_digit, by simpa [isDigit] using decimal, value⟩, below⟩
  · rintro ⟨⟨some_digit, decimal, value⟩, below⟩
    exact ⟨some_digit, by simpa [isDigit] using decimal, value, below⟩

theorem DigitsOf.not_mem_of_gt {c : Char} (digits : DigitsOf cs n) (beyond : '9' < c) : c ∉ cs :=
  fun member => absurd (digits.decimal c member).2 (Char.not_le.2 beyond)

theorem not_digitsOf_plus : ¬ DigitsOf ('+' :: cs) n :=
  fun digits => absurd (digits.decimal '+' List.mem_cons_self).1 (by decide)

theorem signedDigitsOf_plus_iff : SignedDigitsOf ('+' :: cs) n ↔ DigitsOf cs n := by
  constructor
  · rintro (digits | digits)
    · exact absurd digits not_digitsOf_plus
    · exact digits
  · exact .plus

theorem signedDigitsOf_iff_of_ne_plus (unsigned : ∀ rest, cs ≠ '+' :: rest) :
    SignedDigitsOf cs n ↔ DigitsOf cs n := by
  constructor
  · rintro (digits | _)
    · exact digits
    · exact absurd rfl (unsigned _)
  · exact .plain

theorem wholeUpTo?_eq_some_iff :
    wholeUpTo? limit cs = some n ↔ SignedDigitsOf cs n ∧ n ≤ limit := by
  unfold wholeUpTo?
  split
  · rw [digitsUpTo?_eq_some_iff_digitsOf, signedDigitsOf_plus_iff]
  · next unsigned =>
    rw [digitsUpTo?_eq_some_iff_digitsOf,
      signedDigitsOf_iff_of_ne_plus fun rest written => unsigned rest written]

theorem SignedDigitsOf.colon_not_mem (digits : SignedDigitsOf cs n) : ':' ∉ cs := by
  cases digits with
  | plain digits => exact digits.not_mem_of_gt (by decide)
  | plus digits => simpa using digits.not_mem_of_gt (by decide)

theorem DigitsOf.isBlank_eq_false {c : Char} (digits : DigitsOf cs n) (member : c ∈ cs) :
    Text.isBlank c = false := by
  obtain ⟨low, high⟩ := digits.decimal c member
  have least : 48 ≤ c.toNat := low
  have most : c.toNat ≤ 57 := high
  simp only [Text.isBlank, Bool.or_eq_false_iff, Bool.and_eq_false_iff, decide_eq_false_iff_not,
    beq_eq_false_iff_ne]
  omega

/-- Zeros in front of a number are digits of it, too. -/
theorem digitsOf_padded (width n : Nat) : DigitsOf (padded width n).toList n := by
  have text : (padded width n).toList =
      List.replicate (width - (Nat.repr n).length) '0' ++ Nat.toDigits 10 n := by
    simp [padded]
  rw [text]
  refine ⟨by simp [Nat.toDigits_ne_nil], ?_, ?_⟩
  · intro c member
    rcases List.mem_append.1 member with zero | digit
    · rw [List.eq_of_mem_replicate zero]
      decide
    · have decimal := Nat.isDigit_of_mem_toDigits (by decide) (by decide) digit
      simp only [Char.isDigit, Bool.and_eq_true, decide_eq_true_eq] at decimal
      exact decimal
  · rw [← ofDigits_eq]
    change n = Nat.ofDigitChars 10 _ 0
    rw [Nat.ofDigitChars_append, Nat.ofDigitChars_replicate_zero, Nat.mul_zero,
      Nat.ofDigitChars_toDigits (by decide) (by decide)]

/-- Digits before and after a mark leave no blanks at the ends. -/
theorem DigitsOf.trims_self {before after : List Char} {m : Nat} (first : DigitsOf before n)
    (second : DigitsOf after m) (mark : Char) :
    Text.Trims (before ++ mark :: after) (before ++ mark :: after) where
  around := ⟨[], [], by simp, nofun, nofun⟩
  first := by
    rw [List.head?_append_of_ne_nil _ first.some_digit]
    exact fun c begins => first.isBlank_eq_false (List.mem_of_mem_head? begins)
  last := by
    rw [List.getLast?_append_of_ne_nil _ (List.cons_ne_nil _ _),
      List.getLast?_cons_of_ne_nil second.some_digit]
    exact fun c ends => second.isBlank_eq_false (List.mem_of_mem_getLast? ends)

end Number

/-! ### Times of day -/

namespace TimeOfDay

open Number Text

/-- But for the blanks at its ends, a text is the hours of a time, a colon and its minutes. The time
is at the start of its minute. `number` says which characters stand for which number. -/
def Writes (number : List Char → Nat → Prop) (s : String) (time : TimeOfDay) : Prop :=
  ∃ hours minutes h m, Trims s.toList (hours ++ ':' :: minutes) ∧ number hours h ∧ h ≤ 23 ∧
    number minutes m ∧ m ≤ 59 ∧ time.hour = h ∧ time.minute = m ∧ time.secondOfMinute = 0

variable {s : String} {time : TimeOfDay}

theorem ofHourMinute?_eq_some_iff {h m : Nat} :
    ofHourMinute? h m = some time ↔
      h ≤ 23 ∧ m ≤ 59 ∧ time.hour = h ∧ time.minute = m ∧ time.secondOfMinute = 0 := by
  obtain ⟨second, second_lt⟩ := time
  simp only [ofHourMinute?, hour, minute, secondOfMinute, Option.dite_none_right_eq_some,
    Option.some.injEq, mk.injEq]
  constructor
  · rintro ⟨inside, rfl⟩
    omega
  · intro shown
    exact ⟨by omega, by omega⟩

/-- A text is read as a time that it writes, or given back as it is, blanks included. -/
theorem read_cases (s : String) :
    (∃ time, read s = .ok time ∧ Writes SignedDigitsOf s time) ∨
      read s = .error (.invalidTime s) := by
  unfold read
  split
  · exact .inr rfl
  · next hours minutes found =>
    split
    · next h m hoursRead minutesRead =>
      split
      · next time shown =>
        refine .inl ⟨time, rfl, hours, minutes, h, m, ?_⟩
        have hourDigits := (wholeUpTo?_eq_some_iff.1 hoursRead).1
        have minuteDigits := (wholeUpTo?_eq_some_iff.1 minutesRead).1
        obtain ⟨hourSmall, minuteSmall, same⟩ := ofHourMinute?_eq_some_iff.1 shown
        have trims := trims_iff.2 (cut?_eq_some found).1
        exact ⟨trims, hourDigits, hourSmall, minuteDigits, minuteSmall, same⟩
      · exact .inr rfl
    · exact .inr rfl

theorem read_of_writes (writes : Writes SignedDigitsOf s time) : read s = .ok time := by
  obtain ⟨hours, minutes, h, m, trims, hourDigits, hourSmall, minuteDigits, minuteSmall, same⟩ :=
    writes
  -- The hours have no colon, so the text is cut behind them.
  have found : cut? ':' (trimChars s.toList) = some (hours, minutes) := by
    rw [trims_iff.1 trims]
    exact cut?_append hourDigits.colon_not_mem minutes
  -- The limit of the numbers that are read is far beyond the hours and minutes of a day.
  have hoursRead : wholeUpTo? maxWord32 hours = some h :=
    wholeUpTo?_eq_some_iff.2 ⟨hourDigits, by unfold maxWord32; omega⟩
  have minutesRead : wholeUpTo? maxWord32 minutes = some m :=
    wholeUpTo?_eq_some_iff.2 ⟨minuteDigits, by unfold maxWord32; omega⟩
  have shown : ofHourMinute? h m = some time :=
    ofHourMinute?_eq_some_iff.2 ⟨hourSmall, minuteSmall, same⟩
  simp only [read, found, hoursRead, minutesRead, shown]

theorem read_eq_ok_iff : read s = .ok time ↔ Writes SignedDigitsOf s time := by
  constructor
  · intro accepted
    rcases read_cases s with ⟨shown, given, writes⟩ | refused
    · rw [accepted] at given
      cases given
      exact writes
    · rw [accepted] at refused
      cases refused
  · exact read_of_writes

/-- What is written for a time is read as the start of its minute. -/
theorem read_hourMinuteText (time : TimeOfDay) :
    read time.hourMinuteText = .ok (ofSeconds (time.minuteOfDay * 60)) := by
  have bound := time.second_lt
  have hour := digitsOf_padded 2 time.hour
  have minute := digitsOf_padded 2 time.minute
  refine read_of_writes ⟨_, _, _, _, ?_, .plain hour, ?_, .plain minute, ?_, ?_⟩
  · have text : time.hourMinuteText.toList =
        (padded 2 time.hour).toList ++ ':' :: (padded 2 time.minute).toList := by
      simp [hourMinuteText]
    rw [text]
    exact hour.trims_self minute ':'
  all_goals
    simp only [TimeOfDay.hour, TimeOfDay.minute, secondOfMinute, ofSeconds, minuteOfDay]
    omega

/-- The texts that are read are those that write a time, and what is read is this time. Every other
text is given back with the fault. -/
theorem read_exact (s : String) :
    (∀ time, read s = .ok time ↔ Writes SignedDigitsOf s time) ∧
    ∀ fault, read s = .error fault ↔
      fault = .invalidTime s ∧ ¬ ∃ time, Writes SignedDigitsOf s time := by
  refine ⟨fun time => read_eq_ok_iff, fun fault => ?_⟩
  rcases read_cases s with ⟨time, accepted, writes⟩ | refused
  · rw [accepted]
    constructor
    · nofun
    · rintro ⟨-, unwritten⟩
      exact absurd ⟨time, writes⟩ unwritten
  · have unwritten : ¬ ∃ time, Writes SignedDigitsOf s time := by
      rintro ⟨time, writes⟩
      rw [read_of_writes writes] at refused
      cases refused
    rw [refused]
    constructor
    · rintro ⟨⟩
      exact ⟨rfl, unwritten⟩
    · rintro ⟨rfl, -⟩
      rfl

/-- A plus sign in front of the hours does no harm, though it is no digit. -/
theorem read_takes_plus :
    read "+7:05" = .ok ⟨25500, by decide⟩ ∧ ¬ ∃ time, Writes DigitsOf "+7:05" time := by
  refine ⟨by decide +kernel, ?_⟩
  rintro ⟨time, hours, minutes, h, m, trims, hourDigits, -⟩
  have text : "+7:05".toList = hours ++ ':' :: minutes := by
    rw [← trims_iff.1 trims]
    decide +kernel
  cases hours with
  | nil => exact hourDigits.some_digit rfl
  | cons c rest =>
    obtain ⟨rfl, -⟩ := List.cons.inj text
    exact not_digitsOf_plus hourDigits

end TimeOfDay

end Hearth
