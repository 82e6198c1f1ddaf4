/-!
# Hearth.Table

Finite maps as lists of pairs in the order in which the keys came in. A key that is entered again
keeps its place.
-/

namespace Hearth

structure Table (κ ν : Type) where
  entries : List (κ × ν)
deriving Repr

namespace Table

variable {κ ν : Type}

def empty : Table κ ν := ⟨[]⟩

instance : Inhabited (Table κ ν) := ⟨empty⟩

def keys (t : Table κ ν) : List κ := t.entries.map Prod.fst

def values (t : Table κ ν) : List ν := t.entries.map Prod.snd

def size (t : Table κ ν) : Nat := t.entries.length

def filter (t : Table κ ν) (keep : κ → ν → Bool) : Table κ ν :=
  ⟨t.entries.filter fun (k, v) => keep k v⟩

theorem nodup_keys_filter {t : Table κ ν} (nodup : t.keys.Nodup) (keep : κ → ν → Bool) :
    (t.filter keep).keys.Nodup := by
  obtain ⟨entries⟩ := t
  exact (List.filter_sublist.map Prod.fst).nodup nodup

variable [DecidableEq κ]

def lookup (k : κ) : List (κ × ν) → Option ν
  | [] => none
  | (k', v) :: rest => if k = k' then some v else lookup k rest

/-- Replaces the value of a key, or puts the key at the end. -/
def insertInto (k : κ) (v : ν) : List (κ × ν) → List (κ × ν)
  | [] => [(k, v)]
  | (k', v') :: rest => if k = k' then (k, v) :: rest else (k', v') :: insertInto k v rest

def get? (t : Table κ ν) (k : κ) : Option ν := lookup k t.entries

def contains (t : Table κ ν) (k : κ) : Bool := (t.get? k).isSome

def insert (t : Table κ ν) (k : κ) (v : ν) : Table κ ν := ⟨insertInto k v t.entries⟩

def erase (t : Table κ ν) (k : κ) : Table κ ν := t.filter fun k' _ => k' ≠ k

/-- The table of a list of pairs; the last pair of a key wins. -/
def ofList (pairs : List (κ × ν)) : Table κ ν :=
  pairs.foldl (fun t (k, v) => t.insert k v) empty

/-! ### What the operations do to a look-up -/

theorem get?_empty (k : κ) : (empty : Table κ ν).get? k = none := rfl

theorem lookup_insertInto (k k' : κ) (v : ν) (entries : List (κ × ν)) :
    lookup k' (insertInto k v entries) = if k' = k then some v else lookup k' entries := by
  induction entries with
  | nil => simp [insertInto, lookup]
  | cons entry rest ih =>
    obtain ⟨k₀, v₀⟩ := entry
    unfold insertInto
    by_cases same : k = k₀
    · subst same
      by_cases other : k' = k <;> simp [lookup, other]
    · by_cases first : k' = k₀
      · subst first
        simp [lookup, same, Ne.symm same]
      · simp only [same, ↓reduceIte, lookup, first, ih]

theorem get?_insert (t : Table κ ν) (k k' : κ) (v : ν) :
    (t.insert k v).get? k' = if k' = k then some v else t.get? k' :=
  lookup_insertInto k k' v t.entries

theorem get?_insert_self (t : Table κ ν) (k : κ) (v : ν) : (t.insert k v).get? k = some v := by
  simp [get?_insert]

theorem get?_insert_ne (t : Table κ ν) {k k' : κ} (v : ν) (other : k' ≠ k) :
    (t.insert k v).get? k' = t.get? k' := by
  simp [get?_insert, other]

/-- A look-up does not depend on where an entry stands, as long as its key stands there once. -/
theorem get?_eq_some_iff {t : Table κ ν} (nodup : t.keys.Nodup) {k : κ} {v : ν} :
    t.get? k = some v ↔ (k, v) ∈ t.entries := by
  obtain ⟨entries⟩ := t
  simp only [get?, keys] at nodup ⊢
  induction entries with
  | nil => simp [lookup]
  | cons entry rest ih =>
    obtain ⟨k₀, v₀⟩ := entry
    rw [List.map_cons, List.nodup_cons] at nodup
    by_cases same : k = k₀
    · subst same
      have absent : (k, v) ∉ rest := fun present =>
        nodup.1 (List.mem_map.2 ⟨(k, v), present, rfl⟩)
      simp [lookup, absent, eq_comm]
    · simp [lookup, same, ih nodup.2]

theorem get?_eq_none_iff (t : Table κ ν) (k : κ) : t.get? k = none ↔ k ∉ t.keys := by
  obtain ⟨entries⟩ := t
  simp only [get?, keys]
  induction entries with
  | nil => simp [lookup]
  | cons entry rest ih =>
    obtain ⟨k₀, v₀⟩ := entry
    by_cases same : k = k₀
    · simp [lookup, same]
    · simp [lookup, same, ih]

theorem get?_filter_keys (t : Table κ ν) (keep : κ → Bool) (k : κ) :
    (t.filter fun k' _ => keep k').get? k = if keep k then t.get? k else none := by
  obtain ⟨entries⟩ := t
  simp only [filter, get?]
  induction entries with
  | nil => simp [lookup]
  | cons entry rest ih =>
    obtain ⟨k₀, v₀⟩ := entry
    by_cases same : k = k₀
    · subst same
      cases kept : keep k <;> simp [lookup, ih, kept]
    · cases kept : keep k₀ <;> simp [lookup, ih, kept, same]

theorem get?_erase (t : Table κ ν) (k k' : κ) :
    (t.erase k).get? k' = if k' = k then none else t.get? k' := by
  unfold erase
  rw [get?_filter_keys t (fun k' => k' ≠ k)]
  by_cases same : k' = k <;> simp [same]

theorem entries_eq_nil_iff (t : Table κ ν) : t.entries = [] ↔ ∀ k, t.get? k = none := by
  obtain ⟨entries⟩ := t
  cases entries with
  | nil => simp [get?, lookup]
  | cons entry rest =>
    obtain ⟨k₀, v₀⟩ := entry
    constructor
    · nofun
    · intro nothing
      have first := nothing k₀
      simp [get?, lookup] at first

theorem keys_insert (t : Table κ ν) (k : κ) (v : ν) :
    (t.insert k v).keys = if k ∈ t.keys then t.keys else t.keys ++ [k] := by
  obtain ⟨entries⟩ := t
  simp only [insert, keys]
  induction entries with
  | nil => simp [insertInto]
  | cons entry rest ih =>
    obtain ⟨k₀, v₀⟩ := entry
    unfold insertInto
    by_cases same : k = k₀
    · simp [same]
    · simp only [same, ↓reduceIte, List.map_cons, List.mem_cons, false_or]
      rw [ih]
      by_cases known : k ∈ List.map Prod.fst rest <;> simp [known]

theorem nodup_keys_insert {t : Table κ ν} (nodup : t.keys.Nodup) (k : κ) (v : ν) :
    (t.insert k v).keys.Nodup := by
  rw [keys_insert]
  split
  · exact nodup
  · next absent =>
    rw [List.nodup_append]
    refine ⟨nodup, by simp, ?_⟩
    intro a present b single same
    simp only [List.mem_singleton] at single
    subst same single
    exact absent present

end Table

end Hearth
