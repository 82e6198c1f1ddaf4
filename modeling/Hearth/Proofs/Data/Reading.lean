import Hearth.Data.Fields
import Hearth.Proofs.Data.Sorted
import Hearth.Proofs.Number.Value

/-!
# Hearth.Proofs.Data.Reading

What readers make of data: what a reader gives for data that has a JSON form, and what it gives for
data that a writer made.

## Main definitions

* `Data.IsJson`: data that has a JSON form.
* `Data.Yields`: whatever is read out of such data has a property. Readers of lists, of values that
  may be `null` and of fields are built from other readers, and so are the properties.
* `Data.Kept`: a free value as a record keeps it.
-/

namespace Hearth

namespace Data

/-- Data that has a JSON form: its numbers are finite. -/
inductive IsJson : Data → Prop
  | null : IsJson .null
  | bool (b : Bool) : IsJson (.bool b)
  | whole (n : Int) : IsJson (.number (.whole n))
  | real {x : Float} (finite : x.isFinite = true) : IsJson (.number (.real x))
  | text (s : String) : IsJson (.text s)
  | list {items : List Data} (all : ∀ item ∈ items, IsJson item) : IsJson (.list items)
  | record {entries : List (String × Data)} (all : ∀ entry ∈ entries, IsJson entry.2) :
      IsJson (.record entries)

/-- What is read out of data with a JSON form has the property. -/
def Yields {α : Type} (read : Data → Option α) (P : α → Prop) : Prop :=
  ∀ ⦃d : Data⦄ ⦃a : α⦄, d.IsJson → read d = some a → P a

/-- A free value is sorted and is not `null`, which stands for no value. -/
def Kept (value : Option Data) : Prop :=
  ∀ d ∈ value, Sorted d ∧ d ≠ .null

variable {α : Type} {read : Data → Option α} {toData : α → Data} {P : α → Prop}

@[simp] theorem text?_text (s : String) : text? (.text s) = some s := rfl

@[simp] theorem word?_text (s : String) : word? (.text s) = some s := rfl

@[simp] theorem looseWord?_text (s : String) : looseWord? (.text s) = some s := rfl

/-! ### Lists -/

theorem listOf?_map {items : List α} (each : ∀ a ∈ items, read (toData a) = some a) :
    listOf? read (.list (items.map toData)) = some items := by
  simp only [listOf?]
  induction items with
  | nil => rfl
  | cons a rest ih =>
    rw [List.map_cons, List.mapM_cons, each a List.mem_cons_self,
      ih fun b later => each b (List.mem_cons_of_mem _ later)]
    rfl

theorem Yields.listOf? (each : Yields read P) :
    Yields (listOf? read) fun items => ∀ a ∈ items, P a := by
  intro d items json given
  cases json with
  | list all =>
    rename_i written
    simp only [Data.listOf?] at given
    -- Items are read in order, and one that cannot be read spoils the list.
    induction written generalizing items with
    | nil =>
      cases given
      nofun
    | cons first rest ih =>
      rw [List.mapM_cons] at given
      obtain ⟨a, head, given⟩ := Option.bind_eq_some_iff.1 given
      obtain ⟨later, tail, given⟩ := Option.bind_eq_some_iff.1 given
      cases given
      intro b member
      rcases List.mem_cons.1 member with rfl | member
      · exact each (all first List.mem_cons_self) head
      · exact ih (fun item behind => all item (List.mem_cons_of_mem _ behind)) tail b member
  | _ => cases given

/-! ### Values that may be missing -/

theorem nullable?_ofOption {o : Option α} (other : ∀ a ∈ o, toData a ≠ .null)
    (each : ∀ a ∈ o, read (toData a) = some a) : nullable? read (ofOption toData o) = some o := by
  cases o with
  | none => rfl
  | some a =>
    have other := other a rfl
    have each := each a rfl
    unfold ofOption nullable?
    split
    · next same => exact absurd same other
    · rw [each]
      rfl

theorem of_nullable?_eq_some {d : Data} {a : α} (given : nullable? read d = some (some a)) :
    d ≠ .null ∧ read d = some a := by
  unfold nullable? at given
  split at given
  · cases given
  · next other =>
    obtain ⟨b, given, same⟩ := Option.map_eq_some_iff.1 given
    exact ⟨other, by rw [given, Option.some.inj same]⟩

theorem Yields.nullable? (each : Yields read P) :
    Yields (nullable? read) fun o => ∀ a ∈ o, P a := by
  intro d o json given a member
  rw [Option.mem_def.1 member] at given
  exact each json (of_nullable?_eq_some given).2

theorem Yields.float? : Yields float? fun x => x.isFinite = true := by
  intro d x json given
  cases json with
  | whole n =>
    cases given
    exact Number.isFinite_wholeToFloat n
  | real finite =>
    cases given
    exact finite
  | _ => cases given

theorem Yields.wholeIn? (low high : Int) :
    Yields (wholeIn? low high) fun n => low ≤ n ∧ n ≤ high := by
  intro d n json given
  unfold Data.wholeIn? at given
  split at given
  · split at given
    · next inside =>
      cases given
      exact inside
    · cases given
  · cases given

theorem wholeIn?_whole {low high n : Int} (inside : low ≤ n ∧ n ≤ high) :
    Data.wholeIn? low high (.whole n) = some n :=
  if_pos inside

/-! ### Free values -/

theorem kept_none : Kept none := fun d missing => absurd missing (Option.not_mem_none d)

theorem nullable?_kept {value : Option Data} (kept : Kept value) :
    nullable? (fun d => some d.normalize) (value.getD .null) = some value := by
  have other : ∀ d ∈ value, d ≠ .null := fun d member => (kept d member).2
  have same : ∀ d ∈ value, some d.normalize = some d := fun d member =>
    congrArg some (normalize_of_sorted (kept d member).1)
  cases value with
  | none => rfl
  | some d => exact nullable?_ofOption other same

theorem Yields.kept : Yields (Data.nullable? fun d => some d.normalize) Kept := by
  intro d value json given kept member
  rw [Option.mem_def.1 member] at given
  obtain ⟨other, given⟩ := of_nullable?_eq_some given
  cases given
  exact ⟨sorted_normalize d, normalize_ne_null other⟩

end Data

/-! ### Fields -/

namespace Fields

variable {α : Type} {read : Data → Option α} {P : α → Prop} {names : List String} {f : Fields}

/-- Declared names, each of them once, are all that a record was written with. -/
theorem read?_record {entries : List (String × Data)} (known : ∀ entry ∈ entries, entry.1 ∈ names)
    (once : (entries.map Prod.fst).Nodup) :
    Fields.read? names (.record entries) = some ⟨false, entries⟩ := by
  have distinct : distinct entries = true := by
    -- That names are declared has no part in this, and would be in the way of the induction.
    clear known
    induction entries with
    | nil => rfl
    | cons first rest ih =>
      obtain ⟨other, once⟩ := List.nodup_cons.1 once
      have alone : (rest.any fun entry => entry.1 == first.1) = false :=
        List.any_eq_false.2 fun entry later same =>
          other (List.mem_map.2 ⟨entry, later, eq_of_beq same⟩)
      simp [Fields.distinct, alone, ih once]
  have kept : (entries.filter fun entry => names.contains entry.1) = entries :=
    List.filter_eq_self.2 fun entry member => List.contains_iff_mem.2 (known entry member)
  simp only [Fields.read?, kept, distinct, if_true]

@[simp] theorem get?_cons (byPosition : Bool) (name other : String) (d : Data)
    (rest : List (String × Data)) :
    (⟨byPosition, (other, d) :: rest⟩ : Fields).get? name =
      if name = other then some d else (⟨byPosition, rest⟩ : Fields).get? name := by
  by_cases same : name = other
  · simp [Fields.get?, same]
  · simp only [Fields.get?, List.lookup_cons, beq_false_of_ne same, if_neg same]

@[simp] theorem get?_nil (byPosition : Bool) (name : String) :
    (⟨byPosition, []⟩ : Fields).get? name = none := rfl

/-- All values of the fields have a JSON form. -/
def IsJson (f : Fields) : Prop :=
  ∀ entry ∈ f.entries, entry.2.IsJson

theorem isJson_of_read? {d : Data} (json : d.IsJson) (given : Fields.read? names d = some f) :
    f.IsJson := by
  cases json with
  | record all =>
    simp only [Fields.read?] at given
    split at given
    · cases given
      exact fun entry member => all entry (List.mem_filter.1 member).1
    · cases given
  | list all =>
    simp only [Fields.read?] at given
    split at given
    · cases given
      exact fun entry member => all _ (List.of_mem_zip member).2
    · cases given
  | _ => cases given

theorem IsJson.get? (json : f.IsJson) {name : String} {d : Data} (given : f.get? name = some d) :
    d.IsJson := by
  obtain ⟨entry, member, rfl⟩ : ∃ entry ∈ f.entries, entry.2 = d := by
    unfold Fields.get? at given
    obtain ⟨before, after, split, -⟩ := List.lookup_eq_some_iff.1 given
    exact ⟨(name, d), by simp [split], rfl⟩
  exact json entry member

theorem IsJson.required (json : f.IsJson) (each : Data.Yields read P) {name : String} {a : α}
    (given : f.required name read = some a) : P a := by
  obtain ⟨d, known, given⟩ := Option.bind_eq_some_iff.1 given
  exact each (json.get? known) given

theorem IsJson.orElse (json : f.IsJson) (each : Data.Yields read P) {name : String} {default a : α}
    (fallback : P default) (given : f.orElse name default read = some a) : P a := by
  unfold Fields.orElse at given
  split at given
  · cases given
    exact fallback
  · next known => exact each (json.get? known) given

theorem IsJson.optional (json : f.IsJson) (each : Data.Yields read P) {name : String}
    {o : Option α} (given : f.optional name read = some o) : ∀ a ∈ o, P a :=
  json.orElse each.nullable? (fun a missing => absurd missing (Option.not_mem_none a)) given

end Fields

end Hearth
