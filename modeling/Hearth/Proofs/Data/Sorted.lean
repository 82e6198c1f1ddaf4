import Hearth.Data.Basic

/-!
# Hearth.Proofs.Data.Sorted

Data whose records are sorted by name, with one entry for a name, is what sorting leaves and what it
leaves as it is.

## Main results

* `sorted_normalize`: sorted data is sorted.
* `normalize_of_sorted`: sorting changes nothing where all is sorted already.
-/

namespace Hearth.Data

/-- The names of the entries increase. -/
def Increasing (entries : List (String × Data)) : Prop :=
  entries.Pairwise fun entry later => entry.1 < later.1

instance (entries : List (String × Data)) : Decidable (Increasing entries) :=
  inferInstanceAs (Decidable (List.Pairwise _ _))

/-- The entries of every record are sorted by name, and no name stands twice. -/
inductive Sorted : Data → Prop
  | null : Sorted .null
  | bool (b : Bool) : Sorted (.bool b)
  | number (n : Numeral) : Sorted (.number n)
  | text (s : String) : Sorted (.text s)
  | list {items : List Data} (all : ∀ item ∈ items, Sorted item) : Sorted (.list items)
  | record {entries : List (String × Data)} (increasing : Increasing entries)
      (all : ∀ entry ∈ entries, Sorted entry.2) : Sorted (.record entries)

/-! ### Putting in an entry -/

theorem mem_insertEntry {name : String} {value : Data} {entries : List (String × Data)}
    {entry : String × Data} (member : entry ∈ insertEntry name value entries) :
    entry = (name, value) ∨ entry ∈ entries := by
  induction entries with
  | nil => exact .inl (List.mem_singleton.1 member)
  | cons first rest ih =>
    unfold insertEntry at member
    split at member
    · exact (List.mem_cons.1 member).imp id (List.mem_cons_of_mem _)
    · split at member
      · exact List.mem_cons.1 member
      · rcases List.mem_cons.1 member with rfl | later
        · exact .inr List.mem_cons_self
        · exact (ih later).imp id (List.mem_cons_of_mem _)

theorem lookup_cons_eq (name other : String) (value : Data) (entries : List (String × Data)) :
    ((name, value) :: entries).lookup other =
      if other = name then some value else entries.lookup other := by
  rw [List.lookup_cons]
  by_cases same : other = name
  · simp [same]
  · simp [same, beq_false_of_ne same]

theorem lookup_insertEntry (name other : String) (value : Data) (entries : List (String × Data)) :
    (insertEntry name value entries).lookup other =
      if other = name then some value else entries.lookup other := by
  induction entries with
  | nil => exact lookup_cons_eq name other value []
  | cons first rest ih =>
    obtain ⟨front, kept⟩ := first
    unfold insertEntry
    split
    · next here =>
      subst here
      by_cases same : other = name <;> simp [lookup_cons_eq, same]
    · next apart =>
      split
      · exact lookup_cons_eq ..
      · -- The entry goes somewhere behind the first one, whose name is another.
        rw [lookup_cons_eq, lookup_cons_eq, ih]
        by_cases first : other = front
        · simp [first, Ne.symm apart]
        · simp [first]

theorem Increasing.insertEntry {entries : List (String × Data)} (increasing : Increasing entries)
    (name : String) (value : Data) : Increasing (insertEntry name value entries) := by
  induction entries with
  | nil => exact List.pairwise_singleton _ _
  | cons first rest ih =>
    obtain ⟨least, increasing⟩ := List.pairwise_cons.1 increasing
    unfold Data.insertEntry
    -- The entry replaces the first one, goes before it or goes somewhere behind it.
    split
    · next same => exact List.pairwise_cons.2 ⟨fun entry later => same ▸ least entry later, increasing⟩
    · next other =>
      split
      · next before =>
        refine List.pairwise_cons.2 ⟨?_, List.pairwise_cons.2 ⟨least, increasing⟩⟩
        intro entry later
        rcases List.mem_cons.1 later with rfl | later
        · exact before
        · exact String.lt_trans before (least entry later)
      · next behind =>
        refine List.pairwise_cons.2 ⟨?_, ih increasing⟩
        intro entry later
        rcases mem_insertEntry later with rfl | later
        · exact Std.lt_of_le_of_ne (String.not_lt.1 behind) (Ne.symm other)
        · exact least entry later

/-- An entry whose name is larger than all names goes to the end. -/
theorem insertEntry_of_larger {name : String} {entries : List (String × Data)}
    (larger : ∀ entry ∈ entries, entry.1 < name) (value : Data) :
    insertEntry name value entries = entries ++ [(name, value)] := by
  induction entries with
  | nil => rfl
  | cons first rest ih =>
    have before := larger first List.mem_cons_self
    have other : name ≠ first.1 := fun same => String.lt_irrefl _ (same ▸ before)
    unfold insertEntry
    rw [if_neg other, if_neg (String.lt_asymm before),
      ih fun entry later => larger entry (List.mem_cons_of_mem _ later)]
    rfl

/-! ### Sorting -/

/-- Entries that may be those of a sorted record. -/
structure SortedEntries (entries : List (String × Data)) : Prop where
  increasing : Increasing entries
  all : ∀ entry ∈ entries, Sorted entry.2

mutual

theorem sorted_normalize : ∀ d : Data, Sorted d.normalize
  | .null => .null
  | .bool b => .bool b
  | .number n => .number n
  | .text s => .text s
  | .list items => .list (sorted_normalizeItems items)
  | .record entries =>
    have sorted := sorted_normalizeEntries entries ⟨List.Pairwise.nil, nofun⟩
    .record sorted.increasing sorted.all

theorem sorted_normalizeItems : ∀ items : List Data, ∀ item ∈ normalizeItems items, Sorted item
  | [], _, member => nomatch member
  | first :: rest, item, member => by
    rcases List.mem_cons.1 member with rfl | later
    · exact sorted_normalize first
    · exact sorted_normalizeItems rest item later

theorem sorted_normalizeEntries : ∀ (entries : List (String × Data))
    {done : List (String × Data)}, SortedEntries done →
    SortedEntries (normalizeEntries entries done)
  | [], _, sorted => sorted
  | (name, value) :: rest, done, sorted => by
    refine sorted_normalizeEntries rest ⟨sorted.increasing.insertEntry name _, fun entry member => ?_⟩
    rcases mem_insertEntry member with rfl | earlier
    · exact sorted_normalize value
    · exact sorted.all entry earlier

end

theorem normalizeItems_eq_self {items : List Data} (same : ∀ item ∈ items, item.normalize = item) :
    normalizeItems items = items := by
  induction items with
  | nil => rfl
  | cons first rest ih =>
    unfold normalizeItems
    rw [same first List.mem_cons_self, ih fun item later => same item (List.mem_cons_of_mem _ later)]

theorem normalizeEntries_eq_append {entries done : List (String × Data)}
    (increasing : Increasing (done ++ entries))
    (same : ∀ entry ∈ entries, entry.2.normalize = entry.2) :
    normalizeEntries entries done = done ++ entries := by
  induction entries generalizing done with
  | nil => simp [normalizeEntries]
  | cons first rest ih =>
    -- All that was put in so far comes before what is put in now.
    have larger : ∀ entry ∈ done, entry.1 < first.1 := fun entry earlier =>
      (List.pairwise_append.1 increasing).2.2 entry earlier first List.mem_cons_self
    unfold normalizeEntries
    rw [same first List.mem_cons_self, insertEntry_of_larger larger,
      ih (by simpa using increasing) fun entry later => same entry (List.mem_cons_of_mem _ later)]
    simp

theorem normalize_of_sorted {d : Data} (sorted : Sorted d) : d.normalize = d := by
  induction sorted with
  | list all ih => exact congrArg list (normalizeItems_eq_self ih)
  | record increasing all ih => exact congrArg record (normalizeEntries_eq_append increasing ih)
  | _ => rfl

/-! ### No value -/

theorem normalize_ne_null {d : Data} (other : d ≠ .null) : d.normalize ≠ .null := by
  cases d with
  | null => exact absurd rfl other
  | _ => nofun

end Hearth.Data
