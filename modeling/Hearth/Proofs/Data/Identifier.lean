import Mathlib.Algebra.Group.Nat.Defs
import Mathlib.Data.List.Induction
import Hearth.Id

/-!
# Hearth.Proofs.Data.Identifier

The text of an identifier can be read again. An identifier is a number of 32 hexadecimal digits; its
text is those digits in groups, and neither a brace nor the mark of a name stands in front of them.

## Main results

* `read?_text`: reading the text of an identifier gives the identifier.
* `inRange_of_read?`: what is read has at most 32 digits.
-/

namespace Hearth

namespace Uuid

open Data.Json (hexValue?)

/-- The identifier is a number of at most 32 hexadecimal digits. -/
def InRange (u : Uuid) : Prop :=
  u.value < 16 ^ 32

instance (u : Uuid) : Decidable u.InRange := Nat.decLt _ _

/-! ### Digits -/

theorem hexValue?_digitChar {n : Nat} (digit : n < 16) : hexValue? (Nat.digitChar n) = some n := by
  revert n
  decide

theorem lt_of_hexValue? {c : Char} {n : Nat} (digit : hexValue? c = some n) : n < 16 := by
  unfold hexValue? at digit
  have between (low high : Char) (inside : low ≤ c ∧ c ≤ high) : c.toNat ≤ high.toNat :=
    UInt32.le_iff_toNat_le.1 inside.2
  split at digit
  · next inside =>
    have below := between '0' '9' inside
    simp at digit below
    omega
  · split at digit
    · next inside =>
      have below := between 'a' 'f' inside
      simp at digit below
      omega
    · split at digit
      · next inside =>
        have below := between 'A' 'F' inside
        simp at digit below
        omega
      · cases digit

theorem length_hexText (value count : Nat) : (hexText value count).length = count := by
  induction count generalizing value with
  | zero => rfl
  | succ count ih => simp [hexText, ih]

theorem isSome_hexValue?_of_mem {value count : Nat} {c : Char} (member : c ∈ hexText value count) :
    (hexValue? c).isSome := by
  induction count generalizing value with
  | zero => cases member
  | succ count ih =>
    rcases List.mem_append.1 member with earlier | last
    · exact ih earlier
    · rw [List.mem_singleton.1 last, hexValue?_digitChar (Nat.mod_lt _ (by decide))]
      rfl

theorem ofHex?_append_singleton (ds : List Char) (c : Char) :
    ofHex? (ds ++ [c]) = (ofHex? ds).bind fun value =>
      (hexValue? c).map fun digit => value * 16 + digit := by
  simp [ofHex?, List.foldlM_append]

theorem ofHex?_hexText (value count : Nat) :
    ofHex? (hexText value count) = some (value % 16 ^ count) := by
  induction count generalizing value with
  | zero => simp [hexText, ofHex?, Nat.mod_one]
  | succ count ih =>
    rw [hexText, ofHex?_append_singleton, ih, hexValue?_digitChar (Nat.mod_lt _ (by decide))]
    have split : value % 16 ^ (count + 1) = value / 16 % 16 ^ count * 16 + value % 16 := by
      rw [Nat.pow_succ', Nat.mod_mul, Nat.add_comm, Nat.mul_comm]
    rw [split]
    rfl

theorem lt_of_ofHex? {cs : List Char} {n : Nat} (read : ofHex? cs = some n) :
    n < 16 ^ cs.length := by
  induction cs using List.reverseRecOn generalizing n with
  | nil =>
    obtain rfl : 0 = n := Option.some.inj read
    decide
  | append_singleton cs c ih =>
    rw [ofHex?_append_singleton] at read
    obtain ⟨value, front, shifted⟩ := Option.bind_eq_some_iff.1 read
    obtain ⟨digit, last, rfl⟩ := Option.map_eq_some_iff.1 shifted
    have small := ih front
    have below := lt_of_hexValue? last
    rw [List.length_append, List.length_singleton, Nat.pow_succ]
    omega

/-! ### Groups -/

theorem readGrouped?_groups {a b c d e : List Char} (first : a.length = 8) (second : b.length = 4)
    (third : c.length = 4) (fourth : d.length = 4) (fifth : e.length = 12) :
    readGrouped? (a ++ '-' :: b ++ '-' :: c ++ '-' :: d ++ '-' :: e) =
      readPlain? (a ++ b ++ c ++ d ++ e) := by
  simp [readGrouped?, first, second, third, fourth, fifth, List.drop_append,
    List.drop_of_length_le]

theorem readPlain?_hexText {value : Nat} (inRange : value < 16 ^ 32) :
    readPlain? (hexText value 32) = some ⟨value⟩ := by
  rw [readPlain?, if_pos (length_hexText value 32), ofHex?_hexText, Nat.mod_eq_of_lt inRange]
  rfl

/-- Where a digit comes first, the text is neither in braces nor behind a name. -/
theorem read?_of_digit {s : String} {c : Char} {rest : List Char} (chars : s.toList = c :: rest)
    (digit : (hexValue? c).isSome) :
    read? s =
      if (c :: rest).length = 32 then readPlain? (c :: rest) else readGrouped? (c :: rest) := by
  unfold read?
  rw [chars]
  split
  · next same =>
    obtain ⟨rfl, -⟩ := List.cons.inj same
    cases digit
  · next same =>
    obtain ⟨rfl, -⟩ := List.cons.inj same
    cases digit
  · rfl

theorem groups_append (ds : List Char) :
    ds.take 8 ++ (ds.drop 8).take 4 ++ (ds.drop 12).take 4 ++ (ds.drop 16).take 4 ++ ds.drop 20 =
      ds := by
  rw [← List.take_add, ← List.take_add, ← List.take_add, List.take_append_drop]

theorem read?_text {u : Uuid} (inRange : u.InRange) : read? u.text = some u := by
  have length := length_hexText u.value 32
  have digits := fun c => @isSome_hexValue?_of_mem u.value 32 c
  have plain : readPlain? (hexText u.value 32) = some u := readPlain?_hexText inRange
  have grouped : u.text.toList = (hexText u.value 32).take 8
      ++ '-' :: ((hexText u.value 32).drop 8).take 4 ++ '-' :: ((hexText u.value 32).drop 12).take 4
      ++ '-' :: ((hexText u.value 32).drop 16).take 4 ++ '-' :: (hexText u.value 32).drop 20 :=
    String.toList_ofList
  -- From here on nothing matters of the digits but how many they are and what they read as.
  generalize hexText u.value 32 = ds at length digits plain grouped
  have marked : u.text.toList.length ≠ 32 := by
    simp [grouped, length]
  have read := readGrouped?_groups (a := ds.take 8) (b := (ds.drop 8).take 4)
    (c := (ds.drop 12).take 4) (d := (ds.drop 16).take 4) (e := ds.drop 20) (by simp [length])
    (by simp [length]) (by simp [length]) (by simp [length]) (by simp [length])
  rw [groups_append, plain, ← grouped] at read
  obtain ⟨first, rest, rfl⟩ := List.exists_cons_of_length_pos (l := ds) (by omega)
  rw [read?_of_digit grouped (digits first List.mem_cons_self)]
  rw [grouped] at marked read
  rw [← read]
  exact if_neg marked

theorem inRange_of_readPlain? {cs : List Char} {u : Uuid} (read : readPlain? cs = some u) :
    u.InRange := by
  unfold readPlain? at read
  split at read
  · next length =>
    obtain ⟨value, digits, rfl⟩ := Option.map_eq_some_iff.1 read
    have below := lt_of_ofHex? digits
    rwa [length] at below
  · cases read

theorem inRange_of_readGrouped? {cs : List Char} {u : Uuid} (read : readGrouped? cs = some u) :
    u.InRange := by
  unfold readGrouped? at read
  split at read
  · exact inRange_of_readPlain? read
  · cases read

theorem inRange_of_read? {s : String} {u : Uuid} (read : read? s = some u) : u.InRange := by
  unfold read? at read
  -- In braces, behind a name, or bare, with marks or without.
  split at read
  · split at read
    · exact inRange_of_readGrouped? read
    · cases read
  · exact inRange_of_readGrouped? read
  · split at read
    · exact inRange_of_readPlain? read
    · exact inRange_of_readGrouped? read

end Uuid

namespace Id

variable {kind : IdKind}

theorem ofData?_toData {id : Id kind} (inRange : id.uuid.InRange) : ofData? id.toData = some id := by
  simp [ofData?, toData, text, Data.text?, Uuid.read?_text inRange]

theorem inRange_of_ofData? {id : Id kind} {d : Data} (read : ofData? d = some id) :
    id.uuid.InRange := by
  obtain ⟨s, -, rest⟩ := Option.bind_eq_some_iff.1 read
  obtain ⟨uuid, known, made⟩ := Option.bind_eq_some_iff.1 rest
  cases Option.some.inj made
  exact Uuid.inRange_of_read? known

end Id

end Hearth
