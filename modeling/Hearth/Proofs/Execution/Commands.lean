import Mathlib
import Hearth.Action
import Hearth.Proofs.Number.Value

/-!
# Hearth.Proofs.Execution.Commands

Which values the actions take, and what their commands make of them. Numbers are told apart by the
rational numbers that were written, not by the binary ones that they are read as.

A temperature is checked before it is rounded. One between zero and one half is positive, and the
command that it gives is for zero Kelvin.

## Main definitions

* `ActionKind.Takes`: the values that a kind of action takes.
* `Command.Renders`: what a command makes of the value of its action.

## Main result

`command_renders`: an action has a command exactly when its kind takes its value, the command renders
that value, and a value is missing exactly when one is needed and there is none.
-/

namespace Hearth

/-! ### Colours -/

/-- The digits of a colour as it is sent. -/
def hexDigits : List Char :=
  ['0', '1', '2', '3', '4', '5', '6', '7', '8', '9', 'a', 'b', 'c', 'd', 'e', 'f']

/-- A text is six hexadecimal digits but for the case of the letters and for a `#` in front. -/
def Spells (s : String) (digits : List Char) : Prop :=
  digits.length = 6 ∧ (∀ c ∈ digits, c ∈ hexDigits) ∧
    (s.toList.map Char.toLower = digits ∨ s.toList.map Char.toLower = '#' :: digits)

/-- What holds of all characters below 128 and of all others holds of each. -/
theorem forall_char {P : Char → Prop} (low : ∀ n : Fin 128, P (Char.ofNat n))
    (high : ∀ c : Char, 128 ≤ c.toNat → P c) (c : Char) : P c := by
  by_cases ascii : c.toNat < 128
  · simpa using low ⟨c.toNat, ascii⟩
  · exact high c (Nat.not_lt.1 ascii)

theorem not_le_of_beyond {c d : Char} (beyond : 128 ≤ c.toNat) (low : d.toNat < 128) : ¬ c ≤ d := by
  intro under
  have ordered : c.toNat ≤ d.toNat := under
  omega

theorem toLower_of_beyond {c : Char} (beyond : 128 ≤ c.toNat) : c.toLower = c :=
  dif_neg fun upper => not_le_of_beyond (d := 'Z') beyond (by decide) upper.2

theorem toLower_mem_hexDigits (c : Char) :
    c.toLower ∈ hexDigits ↔ (Data.Json.hexValue? c).isSome = true := by
  revert c
  apply forall_char
  · decide +kernel
  · intro c beyond
    -- All digits and all letters with another case come before this character.
    have below : ∀ d ∈ hexDigits, d.toNat < 128 := by simp [hexDigits]
    have outside : c ∉ hexDigits := fun digit => absurd (below c digit) (Nat.not_lt.2 beyond)
    simp [toLower_of_beyond beyond, outside, Data.Json.hexValue?, not_le_of_beyond beyond]

theorem toLower_eq_hash (c : Char) : c.toLower = '#' ↔ c = '#' := by
  revert c
  apply forall_char
  · decide +kernel
  · intro c beyond
    rw [toLower_of_beyond beyond]

theorem hash_not_mem_hexDigits : '#' ∉ hexDigits := by
  simp [hexDigits]

theorem spells_hash {s : String} {rest digits : List Char} (written : s.toList = '#' :: rest) :
    Spells s digits ↔
      digits.length = 6 ∧ (∀ c ∈ digits, c ∈ hexDigits) ∧ rest.map Char.toLower = digits := by
  simp only [Spells, written, List.map_cons, (toLower_eq_hash '#').2 rfl]
  constructor
  · rintro ⟨six, hex, rfl | same⟩
    -- The `#` is none of the digits, so it can only be the one in front.
    · exact absurd (hex '#' List.mem_cons_self) hash_not_mem_hexDigits
    · exact ⟨six, hex, List.cons_inj_right _ |>.1 same⟩
  · rintro ⟨six, hex, rfl⟩
    exact ⟨six, hex, .inr rfl⟩

theorem spells_plain {s : String} {digits : List Char} (plain : ∀ rest, s.toList ≠ '#' :: rest) :
    Spells s digits ↔
      digits.length = 6 ∧ (∀ c ∈ digits, c ∈ hexDigits) ∧ s.toList.map Char.toLower = digits := by
  constructor
  · rintro ⟨six, hex, same | same⟩
    · exact ⟨six, hex, same⟩
    · -- No other character becomes a `#` in lower case.
      obtain ⟨c, rest, written, hash, -⟩ := List.map_eq_cons_iff.1 same
      rw [(toLower_eq_hash c).1 hash] at written
      exact absurd written (plain rest)
  · rintro ⟨six, hex, same⟩
    exact ⟨six, hex, .inl same⟩

namespace Action

variable {value : Data} {a : Action} {c : Command}

/-- The check of what is left when a `#` in front is gone. -/
theorem check_eq_ok_iff {s hex : String} {bare : List Char} {fault : RecordFault}
    (spells : ∀ digits, Spells s digits ↔
      digits.length = 6 ∧ (∀ c ∈ digits, c ∈ hexDigits) ∧ bare.map Char.toLower = digits) :
    (if bare.length = 6 ∧ (bare.all fun c => (Data.Json.hexValue? c).isSome) = true then
        .ok (String.ofList ('#' :: bare.map Char.toLower))
      else .error fault : Except RecordFault String) = .ok hex ↔
      ∃ digits, Spells s digits ∧ hex = String.ofList ('#' :: digits) := by
  have valid : bare.length = 6 ∧ (bare.all fun c => (Data.Json.hexValue? c).isSome) = true ↔
      Spells s (bare.map Char.toLower) := by
    simp [spells, toLower_mem_hexDigits]
  by_cases good : Spells s (bare.map Char.toLower)
  · rw [if_pos (valid.2 good)]
    constructor
    · rintro ⟨⟩
      exact ⟨_, good, rfl⟩
    · rintro ⟨digits, spelled, rfl⟩
      rw [((spells digits).1 spelled).2.2]
  · -- A text spells no other digits than those that are left of it.
    rw [if_neg fun checked => good (valid.1 checked)]
    constructor
    · nofun
    · rintro ⟨digits, spelled, -⟩
      rw [← ((spells digits).1 spelled).2.2] at spelled
      exact absurd spelled good

theorem readColor_text_eq_ok_iff {s hex : String} :
    readColor (.text s) = .ok hex ↔
      ∃ digits, Spells s digits ∧ hex = String.ofList ('#' :: digits) := by
  simp only [readColor]
  split
  · next written => exact check_eq_ok_iff fun digits => spells_hash written
  · next plain => exact check_eq_ok_iff fun digits => spells_plain plain

theorem readColor_eq_ok_iff {hex : String} :
    readColor value = .ok hex ↔
      ∃ s digits, value = .text s ∧ Spells s digits ∧ hex = String.ofList ('#' :: digits) := by
  cases value with
  | text s => simp [readColor_text_eq_ok_iff]
  | _ => simp [readColor]

/-! ### Numbers -/

theorem nearestWhole_eq_iff {n : Numeral} {q : ℚ} {k : Nat} (held : n.Held)
    (written : n.value? = some q) (nonneg : 0 ≤ q) (small : q < 2 ^ 53) :
    Number.nearestWhole n.toFloat = k ↔ (k : ℤ) = round q := by
  rw [← Numeral.nearestWhole_toFloat held written nonneg small, Nat.cast_inj, eq_comm]

/-- Only numbers are read as a brightness, and the limits are those of what was written. -/
theorem readBrightness_eq_ok_iff {percent : Nat} (held : ∀ n, value = .number n → n.Held) :
    readBrightness value = .ok percent ↔
      ∃ n q, value = .number n ∧ n.value? = some q ∧ 0 ≤ q ∧ q ≤ 100 ∧ (percent : ℤ) = round q := by
  cases value with
  | number n =>
    have held := held n rfl
    obtain ⟨q, written⟩ := Numeral.exists_value held
    have low : 0.0 ≤ n.toFloat ↔ 0 ≤ q :=
      Numeral.le_toFloat_iff held written (by decide +kernel) (by norm_num)
    have high : n.toFloat ≤ 100.0 ↔ q ≤ 100 :=
      Numeral.toFloat_le_iff held written (by decide +kernel) (by norm_num)
    simp only [readBrightness, Data.float?, low, high]
    by_cases inside : 0 ≤ q ∧ q ≤ 100
    · have near := nearestWhole_eq_iff (k := percent) held written inside.1 (by linarith)
      simp [inside, written, near]
    · have outside : ¬ (0 ≤ q ∧ q ≤ 100 ∧ (percent : ℤ) = round q) :=
        fun ⟨least, most, _⟩ => inside ⟨least, most⟩
      simp [inside, outside, written]
  | _ => simp [readBrightness, Data.float?]

/-- Only numbers are read as a temperature. The check is made before the number is rounded. -/
theorem readKelvin_eq_ok_iff {kelvin : Nat} (held : ∀ n, value = .number n → n.Held) :
    readKelvin value = .ok kelvin ↔
      ∃ n q, value = .number n ∧ n.value? = some q ∧ 0 < q ∧ q ≤ 4294967295 ∧
        (kelvin : ℤ) = round q := by
  cases value with
  | number n =>
    have held := held n rfl
    obtain ⟨q, written⟩ := Numeral.exists_value held
    have low : n.toFloat ≤ 0.0 ↔ q ≤ 0 :=
      Numeral.toFloat_le_iff held written (by decide +kernel) (by norm_num)
    have high : 4294967295.0 < n.toFloat ↔ 4294967295 < q :=
      Numeral.lt_toFloat_iff held written (by decide +kernel) (by norm_num)
    -- What is refused is told by the comparisons the other way round.
    simp only [readKelvin, Data.float?, low, high]
    by_cases inside : 0 < q ∧ q ≤ 4294967295
    · have near := nearestWhole_eq_iff (k := kelvin) held written inside.1.le (by linarith)
      simp [inside, written, near, inside.1.not_ge, inside.2.not_gt]
    · have outside : ¬ (0 < q ∧ q ≤ 4294967295 ∧ (kelvin : ℤ) = round q) :=
        fun ⟨least, most, _⟩ => inside ⟨least, most⟩
      rw [not_and_or, not_lt, not_le] at inside
      simp [inside, outside, written]
  | _ => simp [readKelvin, Data.float?]

/-! ### Commands -/

theorem neededValue_cases (a : Action) :
    (a.value = none ∨ a.value = some .null) ∧
        a.neededValue = .error (.missingValue a.kind.text) ∨
      ∃ value, a.value = some value ∧ value ≠ .null ∧ a.neededValue = .ok value := by
  unfold neededValue
  split
  · next none => exact .inl ⟨.inl none, rfl⟩
  · next null => exact .inl ⟨.inr null, rfl⟩
  · next given other written =>
    exact .inr ⟨given, written, fun null => other null, rfl⟩

section

variable {α : Type} {read : Data → Except RecordFault α} {make : α → Command}

/-- A command comes from a value that is there and that can be read. -/
theorem needed_eq_ok_iff (null : ∀ x, read .null ≠ .ok x) :
    (do return make (← read (← a.neededValue))) = Except.ok c ↔
      ∃ value x, a.value = some value ∧ read value = .ok x ∧ make x = c := by
  rcases a.neededValue_cases with ⟨missing | missing, failed⟩ | ⟨value, given, -, needed⟩
  -- `null` counts as missing, and no reader takes it either.
  · simp [bind, Except.bind, failed, missing]
  · simp [bind, Except.bind, failed, missing, null]
  · simp only [bind, Except.bind, pure, Except.pure, needed, given]
    cases found : read value with
    | error fault => simp [found]
    | ok x => simp [found]

/-- Readers find values invalid, but never missing. -/
theorem needed_eq_missing_iff (invalid : ∀ value text, read value ≠ .error (.missingValue text))
    (text : String) :
    (do return make (← read (← a.neededValue))) = Except.error (RecordFault.missingValue text) ↔
      text = a.kind.text ∧ (a.value = none ∨ a.value = some .null) := by
  rcases a.neededValue_cases with ⟨missing, failed⟩ | ⟨value, given, other, needed⟩
  · simp [bind, Except.bind, failed, missing, eq_comm]
  · simp only [bind, Except.bind, pure, Except.pure, needed, given]
    cases found : read value with
    | error fault =>
      have wrong : fault ≠ .missingValue text := fun same => invalid value text (same ▸ found)
      simp [other, wrong]
    | ok x => simp [other]

end

theorem readBrightness_null (percent : Nat) : readBrightness .null ≠ .ok percent := by
  simp [readBrightness, Data.float?]

theorem readColor_null (hex : String) : readColor .null ≠ .ok hex := by
  simp [readColor]

theorem readKelvin_null (kelvin : Nat) : readKelvin .null ≠ .ok kelvin := by
  simp [readKelvin, Data.float?]

theorem readBrightness_ne_missing (value : Data) (text : String) :
    readBrightness value ≠ .error (.missingValue text) := by
  unfold readBrightness
  split
  · simp
  · split <;> simp

theorem readColor_ne_missing (value : Data) (text : String) :
    readColor value ≠ .error (.missingValue text) := by
  unfold readColor
  split
  · dsimp only
    split <;> split <;> simp
  · simp

theorem readKelvin_ne_missing (value : Data) (text : String) :
    readKelvin value ≠ .error (.missingValue text) := by
  unfold readKelvin
  split
  · simp
  · split <;> simp

end Action

/-- The values that a kind of action takes: a number from 0 to 100, a colour, a positive number of at
most 32 bits, or anything at all. -/
def ActionKind.Takes : ActionKind → Option Data → Prop
  | .setBrightness, value =>
    ∃ n q, value = some (.number n) ∧ n.value? = some q ∧ 0 ≤ q ∧ q ≤ 100
  | .setColor, value => ∃ s digits, value = some (.text s) ∧ Spells s digits
  | .setTemperature, value =>
    ∃ n q, value = some (.number n) ∧ n.value? = some q ∧ 0 < q ∧ q ≤ 4294967295
  | _, _ => True

/-- What a command makes of the value of its action. -/
def Command.Renders : Command → Option Data → Prop
  | .setBrightness percent, value =>
    percent ≤ 100 ∧
      ∃ n q, value = some (.number n) ∧ n.value? = some q ∧ 0 ≤ q ∧ q ≤ 100 ∧
        (percent : ℤ) = round q
  | .setColor hex, value =>
    ∃ s digits, value = some (.text s) ∧ Spells s digits ∧ hex = String.ofList ('#' :: digits)
  | .setTemperature kelvin, value =>
    kelvin ≤ 4294967295 ∧
      ∃ n q, value = some (.number n) ∧ n.value? = some q ∧ 0 < q ∧ q ≤ 4294967295 ∧
        (kelvin : ℤ) = round q ∧
        -- What is positive may have been rounded to zero.
        (0 < kelvin ↔ 1 / 2 ≤ q)
  | _, _ => True

theorem Command.takes_of_renders {c : Command} {value : Option Data} (rendered : c.Renders value) :
    c.kind.Takes value := by
  cases c with
  | setBrightness percent =>
    obtain ⟨-, n, q, given, written, low, high, -⟩ := rendered
    exact ⟨n, q, given, written, low, high⟩
  | setColor hex =>
    obtain ⟨s, digits, given, spelled, -⟩ := rendered
    exact ⟨s, digits, given, spelled⟩
  | setTemperature kelvin =>
    obtain ⟨-, n, q, given, written, low, high, -⟩ := rendered
    exact ⟨n, q, given, written, low, high⟩
  | _ => trivial

theorem round_le_of_le {q : ℚ} {limit : ℕ} (below : q ≤ limit) : round q ≤ limit := by
  have half : (round q : ℚ) ≤ q + 1 / 2 := round_le_add_half q
  have next : (round q : ℚ) < ((limit + 1 : ℤ) : ℚ) := by
    push_cast
    linarith
  exact Int.lt_add_one_iff.1 (by exact_mod_cast next)

theorem round_pos_iff {q : ℚ} : 0 < round q ↔ 1 / 2 ≤ q := by
  rw [round_eq, Int.floor_pos]
  constructor <;> intro _ <;> linarith

theorem exists_round {q : ℚ} (nonneg : 0 ≤ q) : ∃ k : ℕ, (k : ℤ) = round q := by
  have half : q - 1 / 2 < round q := sub_half_lt_round q
  have least : ((-1 : ℤ) : ℚ) < round q := by
    push_cast
    linarith
  exact ⟨_, Int.toNat_of_nonneg (Int.cast_lt.1 least)⟩

namespace Action

variable {a : Action} {c : Command}

/-- The check came before the rounding, so a command says both what the number was and what it was
rounded to. -/
theorem renders_of_command (held : ∀ n, a.value = some (.number n) → n.Held)
    (made : a.command = .ok c) : c.kind = a.kind ∧ c.Renders a.value := by
  unfold command at made
  cases kind : a.kind with
  | setBrightness =>
    rw [kind] at made
    obtain ⟨value, percent, given, read, rfl⟩ := (needed_eq_ok_iff readBrightness_null).1 made
    obtain ⟨n, q, rfl, written, low, high, near⟩ :=
      (readBrightness_eq_ok_iff fun n same => held n (by rw [given, same])).1 read
    have most : round q ≤ (100 : ℕ) := round_le_of_le (by exact_mod_cast high)
    exact ⟨rfl, by omega, n, q, given, written, low, high, near⟩
  | setColor =>
    rw [kind] at made
    obtain ⟨value, hex, given, read, rfl⟩ := (needed_eq_ok_iff readColor_null).1 made
    obtain ⟨s, digits, rfl, spelled⟩ := readColor_eq_ok_iff.1 read
    exact ⟨rfl, s, digits, given, spelled⟩
  | setTemperature =>
    rw [kind] at made
    obtain ⟨value, kelvin, given, read, rfl⟩ := (needed_eq_ok_iff readKelvin_null).1 made
    obtain ⟨n, q, rfl, written, low, high, near⟩ :=
      (readKelvin_eq_ok_iff fun n same => held n (by rw [given, same])).1 read
    have most : round q ≤ (4294967295 : ℕ) := round_le_of_le (by exact_mod_cast high)
    -- The lower bound is the one that rounding may break.
    have some : 0 < kelvin ↔ 1 / 2 ≤ q := by rw [← round_pos_iff, ← near, Int.natCast_pos]
    exact ⟨rfl, by omega, n, q, given, written, low, high, near, some⟩
  | _ =>
    rw [kind] at made
    cases made
    exact ⟨rfl, trivial⟩

theorem exists_command_of_takes (held : ∀ n, a.value = some (.number n) → n.Held)
    (takes : a.kind.Takes a.value) : ∃ c, a.command = .ok c := by
  unfold command
  cases kind : a.kind with
  | setBrightness =>
    rw [kind] at takes
    obtain ⟨n, q, given, written, low, high⟩ := takes
    obtain ⟨percent, near⟩ := exists_round low
    have read : readBrightness (.number n) = .ok percent :=
      (readBrightness_eq_ok_iff fun m same => held m (given.trans (congrArg some same))).2
        ⟨n, q, rfl, written, low, high, near⟩
    exact ⟨_, (needed_eq_ok_iff readBrightness_null).2 ⟨_, _, given, read, rfl⟩⟩
  | setColor =>
    rw [kind] at takes
    obtain ⟨s, digits, given, spelled⟩ := takes
    have read := readColor_text_eq_ok_iff.2 ⟨digits, spelled, rfl⟩
    exact ⟨_, (needed_eq_ok_iff readColor_null).2 ⟨_, _, given, read, rfl⟩⟩
  | setTemperature =>
    rw [kind] at takes
    obtain ⟨n, q, given, written, low, high⟩ := takes
    obtain ⟨kelvin, near⟩ := exists_round low.le
    have read : readKelvin (.number n) = .ok kelvin :=
      (readKelvin_eq_ok_iff fun m same => held m (given.trans (congrArg some same))).2
        ⟨n, q, rfl, written, low, high, near⟩
    exact ⟨_, (needed_eq_ok_iff readKelvin_null).2 ⟨_, _, given, read, rfl⟩⟩
  | _ => exact ⟨_, rfl⟩

theorem command_eq_missing_iff (a : Action) (text : String) :
    a.command = .error (.missingValue text) ↔
      text = a.kind.text ∧ a.kind.requiresValue = true ∧
        (a.value = none ∨ a.value = some .null) := by
  unfold command
  cases kind : a.kind with
  | setBrightness =>
    rw [needed_eq_missing_iff readBrightness_ne_missing, kind]
    simp [ActionKind.requiresValue]
  | setColor =>
    rw [needed_eq_missing_iff readColor_ne_missing, kind]
    simp [ActionKind.requiresValue]
  | setTemperature =>
    rw [needed_eq_missing_iff readKelvin_ne_missing, kind]
    simp [ActionKind.requiresValue]
  | _ => simp [ActionKind.requiresValue]

/-- A kind takes a value exactly when there is a command for it, which renders the value, and a value is
missing exactly when the kind needs one and there is none. A temperature below one half, though it is
positive, is rendered as zero Kelvin. -/
theorem command_renders (a : Action) (held : ∀ n, a.value = some (.number n) → n.Held) :
    (∀ c, a.command = .ok c → c.kind = a.kind ∧ c.Renders a.value) ∧
    ((∃ c, a.command = .ok c) ↔ a.kind.Takes a.value) ∧
    ∀ text, a.command = .error (.missingValue text) ↔
      text = a.kind.text ∧ a.kind.requiresValue = true ∧
        (a.value = none ∨ a.value = some .null) := by
  refine ⟨fun c => renders_of_command held, ⟨?_, exists_command_of_takes held⟩,
    command_eq_missing_iff a⟩
  rintro ⟨c, made⟩
  obtain ⟨kind, rendered⟩ := renders_of_command held made
  rw [← kind]
  exact Command.takes_of_renders rendered

/-- One quarter of a Kelvin. -/
def dimLamp : Action := ⟨⟨"lamp"⟩, .setTemperature, some (.number (.real 0.25))⟩

theorem dimLamp_takes : dimLamp.kind.Takes dimLamp.value :=
  ⟨.real 0.25, 1 / 4, rfl, by decide +kernel, by norm_num, by norm_num⟩

theorem command_renders_dimLamp :
    (∀ n, dimLamp.value = some (.number n) → n.Held) ∧
      ∃ c, dimLamp.command = .ok c ∧ c.kind = .setTemperature ∧ c.Renders dimLamp.value := by
  have held : ∀ n, dimLamp.value = some (.number n) → n.Held := by
    rintro n ⟨⟩
    exact (by decide +kernel : (0.25 : Float).isFinite = true)
  obtain ⟨renders, exact, -⟩ := command_renders dimLamp held
  obtain ⟨c, made⟩ := exact.2 dimLamp_takes
  exact ⟨held, c, made, renders c made⟩

/-- It is a positive number, and its command is for none. -/
theorem command_dimLamp :
    dimLamp.kind.Takes dimLamp.value ∧ dimLamp.command = .ok (.setTemperature 0) := by
  have evaluated : dimLamp.command.toOption = some (.setTemperature 0) := by decide +kernel
  cases answer : dimLamp.command with
  | error fault =>
    rw [answer] at evaluated
    cases evaluated
  | ok c =>
    rw [answer] at evaluated
    cases evaluated
    exact ⟨dimLamp_takes, rfl⟩

end Action

end Hearth
