import Hearth.Data.Basic

/-!
# Hearth.Data.Draft

Data as it is written, before it is known what of it counts. A number may be too large for any
reader, and a text may hold half a character: both are well written and have no meaning, which does
no harm where they are passed over.

An `Outline` says which entries of a record count. What an outline passes over may be without
meaning and may nest to any depth.
-/

namespace Hearth

inductive Draft
  /-- A value that is neither a list nor a record, if it has a meaning. -/
  | leaf (value : Option Data)
  | list (items : List Draft)
  /-- The names of entries are texts and may have no meaning either. -/
  | record (entries : List (Option String × Draft))

inductive Outline
  /-- Everything counts. -/
  | whole
  /-- A list of values with one outline. -/
  | each (item : Outline)
  /-- The named entries count; a list holds their values in this order. -/
  | named (entries : List (String × Outline))

namespace Outline

/-- A record of which the named entries count, some of them with an outline of their own and the
others as a whole. -/
def record (names : List String) (inner : List (String × Outline)) : Outline :=
  .named (names.map fun name => (name, (inner.lookup name).getD .whole))

def item : Outline → Nat → Outline
  | whole, _ => whole
  | each inner, _ => inner
  | named entries, position => (entries[position]?.map Prod.snd).getD whole

/-- The outline of an entry, or nothing if the entry is passed over. -/
def entry? : Outline → String → Option Outline
  | whole, _ => some whole
  | each _, _ => some whole
  | named entries, name => entries.lookup name

end Outline

namespace Draft

mutual

/-- The data that counts, if all of it has a meaning and its lists and records nest in at most so
many levels. The names of a record that counts must all have a meaning. -/
def data? (outline : Outline) (levels : Nat) : Draft → Option Data
  | .leaf value => value
  | .list items =>
    if levels = 0 then none
    else (dataOfItems? outline (levels - 1) 0 items).map Data.list
  | .record entries =>
    if levels = 0 then none
    else (dataOfEntries? outline (levels - 1) entries).map Data.record

def dataOfItems? (outline : Outline) (levels position : Nat) : List Draft → Option (List Data)
  | [] => some []
  | draft :: rest => do
    let value ← data? (outline.item position) levels draft
    let values ← dataOfItems? outline levels (position + 1) rest
    return value :: values

def dataOfEntries? (outline : Outline) (levels : Nat) :
    List (Option String × Draft) → Option (List (String × Data))
  | [] => some []
  | (none, _) :: _ => none
  | (some name, draft) :: rest =>
    match outline.entry? name with
    | none => dataOfEntries? outline levels rest
    | some inner => do
      let value ← data? inner levels draft
      let values ← dataOfEntries? outline levels rest
      return (name, value) :: values

end

end Draft

end Hearth
