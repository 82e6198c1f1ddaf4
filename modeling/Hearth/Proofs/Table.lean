import Mathlib.Data.List.Nodup
import Hearth.Table

/-!
# Hearth.Proofs.Table

Tables whose entries change places, and tables of lists that are thinned out: an index from which all
entries of one owner are dropped.

## Main results

`Table.get?_of_perm`: a look-up does not see the order of the entries.
`Table.get?_ofList_map`: a look-up in a table that was filled with one value.
`Table.getD_get?_thin`: each list of a thinned table is filtered.
`Table.ne_nil_of_get?_thin`: no list of a thinned table is empty.
-/

namespace Hearth.Table

variable {κ ν : Type}

/-- Drops values from the lists of a table, and the keys that have no value left. -/
def thin (keep : ν → Bool) (t : Table κ (List ν)) : Table κ (List ν) :=
  ⟨(t.entries.map fun (k, vs) => (k, vs.filter keep)).filter fun (_, vs) => !vs.isEmpty⟩

theorem nodup_keys_thin {t : Table κ (List ν)} (nodup : t.keys.Nodup) (keep : ν → Bool) :
    (t.thin keep).keys.Nodup := by
  have kept := (List.filter_sublist (p := fun (_, vs) => !vs.isEmpty)
    (l := t.entries.map fun (k, vs) => (k, vs.filter keep))).map Prod.fst
  rw [List.map_map] at kept
  exact nodup.sublist kept

theorem nodup_keys_of_perm {t u : Table κ ν} (nodup : t.keys.Nodup)
    (same : u.entries.Perm t.entries) : u.keys.Nodup :=
  (same.map Prod.fst).nodup_iff.2 nodup

variable [DecidableEq κ]

theorem get?_of_perm {t u : Table κ ν} (nodup : t.keys.Nodup) (same : u.entries.Perm t.entries)
    (k : κ) : u.get? k = t.get? k := by
  refine Option.ext fun v => ?_
  rw [get?_eq_some_iff (nodup_keys_of_perm nodup same), get?_eq_some_iff nodup, same.mem_iff]

/-- Whatever a look-up finds stands in the table. -/
theorem mem_of_get? {t : Table κ ν} {k : κ} {v : ν} (found : t.get? k = some v) :
    (k, v) ∈ t.entries := by
  obtain ⟨entries⟩ := t
  induction entries with
  | nil => cases found
  | cons entry rest ih =>
    obtain ⟨first, other⟩ := entry
    simp only [get?, lookup] at found
    split at found
    · next here => simp [here, Option.some.inj found]
    · exact List.mem_cons_of_mem _ (ih found)

theorem isSome_get?_iff (t : Table κ ν) (k : κ) : (t.get? k).isSome = true ↔ k ∈ t.keys := by
  rw [← not_iff_not, ← get?_eq_none_iff]
  simp

theorem mem_keys_insert (t : Table κ ν) (k k' : κ) (v : ν) :
    k' ∈ (t.insert k v).keys ↔ k' = k ∨ k' ∈ t.keys := by
  rw [← isSome_get?_iff, ← isSome_get?_iff, get?_insert]
  split
  · next same => simp [same]
  · next other => simp [other]

theorem nodup_keys_ofList (pairs : List (κ × ν)) : (ofList pairs).keys.Nodup := by
  have kept (t : Table κ ν) (nodup : t.keys.Nodup) :
      (pairs.foldl (fun t pair => t.insert pair.1 pair.2) t).keys.Nodup := by
    induction pairs generalizing t with
    | nil => exact nodup
    | cons pair rest ih => exact ih _ (nodup_keys_insert nodup pair.1 pair.2)
  exact kept empty List.nodup_nil

/-- Where all keys have the same value, it does not matter which pair of a key wins. -/
theorem get?_ofList_map {ι : Type} (is : List ι) (key : ι → κ) (v : ν) (k : κ) :
    (ofList (is.map fun i => (key i, v))).get? k = if k ∈ is.map key then some v else none := by
  have added (t : Table κ ν) :
      ((is.map fun i => (key i, v)).foldl (fun t pair => t.insert pair.1 pair.2) t).get? k =
        if k ∈ is.map key then some v else t.get? k := by
    induction is generalizing t with
    | nil => rfl
    | cons i rest ih =>
      rw [List.map_cons, List.foldl_cons, ih, get?_insert]
      by_cases here : k = key i <;> simp [here]
  exact added empty

theorem mem_flatten_values_iff {t : Table κ (List ν)} (nodup : t.keys.Nodup) {v : ν} :
    v ∈ t.values.flatten ↔ ∃ k vs, t.get? k = some vs ∧ v ∈ vs := by
  simp only [values, List.mem_flatten, List.mem_map, Prod.exists, exists_eq_right,
    get?_eq_some_iff nodup]
  constructor
  · rintro ⟨vs, ⟨k, entry⟩, member⟩
    exact ⟨k, vs, entry, member⟩
  · rintro ⟨k, vs, entry, member⟩
    exact ⟨vs, ⟨k, entry⟩, member⟩

theorem ne_nil_of_get?_thin {t : Table κ (List ν)} {keep : ν → Bool} {k : κ} {vs : List ν}
    (found : (t.thin keep).get? k = some vs) : vs ≠ [] := by
  have kept := (List.mem_filter.1 (mem_of_get? found)).2
  simpa using kept

theorem getD_get?_thin {t : Table κ (List ν)} (nodup : t.keys.Nodup) (keep : ν → Bool) (k : κ) :
    ((t.thin keep).get? k).getD [] = ((t.get? k).getD []).filter keep := by
  obtain ⟨entries⟩ := t
  induction entries with
  | nil => rfl
  | cons entry rest ih =>
    obtain ⟨first, vs⟩ := entry
    have distinct := List.nodup_cons.1 nodup
    have ih := ih distinct.2
    have behind : Table.lookup first rest = none := (get?_eq_none_iff ⟨rest⟩ first).2 distinct.1
    simp only [thin, get?, List.map_cons, List.filter_cons, lookup] at ih ⊢
    by_cases here : k = first
    · subst here
      -- A key whose values all go is dropped itself, and does not stand further behind.
      rw [behind] at ih
      cases gone : (vs.filter keep).isEmpty with
      | true =>
        have nothing := List.isEmpty_iff.1 gone
        simp only [Bool.not_true, Bool.false_eq_true, ↓reduceIte, Option.getD_some, nothing]
        simpa using ih
      | false => simp [lookup]
    · cases gone : (vs.filter keep).isEmpty with
      | true => simpa [gone, here] using ih
      | false => simpa [gone, here, lookup] using ih

end Hearth.Table
