import Hearth.Data.Basic

/-!
# Hearth.Data.Toml.Table

The tables of a TOML document while it is put together. A table comes into being in one of three
ways, and what may be added to it later depends on which it was: it has a header of its own, it is
implied by the header of a table within it, or it is named in a dotted key.
-/

namespace Hearth.Data.Toml

/-- How a table came into being. -/
inductive Origin
  | header | implied | dotted
deriving DecidableEq, Repr

inductive Item
  /-- A value is closed: nothing can be added to it. -/
  | value (d : Data)
  | table (origin : Origin) (entries : List (String × Item))
  /-- The rows of an array of tables. -/
  | rows (rows : List (List (String × Item)))
deriving Repr

abbrev Entries := List (String × Item)

/-- Replaces the item under a key, or puts the key at the end. -/
def put (key : String) (item : Item) : Entries → Entries
  | [] => [(key, item)]
  | (other, kept) :: rest =>
    if key = other then (key, item) :: rest else (other, kept) :: put key item rest

/-- Changes the table at the end of a path. Tables that are missing on the way are made with the
origin `fresh`; of an array of tables the last row is meant. A dotted key leads through no table
with a header. -/
def changeAt (fresh : Origin) (change : Origin → Entries → Option Entries) :
    List String → Origin → Entries → Option Entries
  | [], origin, entries => change origin entries
  | key :: path, _, entries =>
    match entries.lookup key with
    | none =>
      (changeAt fresh change path fresh []).map fun inner => put key (.table fresh inner) entries
    | some (.value _) => none
    | some (.rows rows) =>
      match rows.getLast? with
      | none => none
      | some row =>
        (changeAt fresh change path .header row).map fun inner =>
          put key (.rows (rows.dropLast ++ [inner])) entries
    | some (.table origin inner) =>
      if fresh = .dotted ∧ origin = .header then none
      else
        (changeAt fresh change path origin inner).map fun inner =>
          put key (.table origin inner) entries

structure Pair where
  path : List String
  key : String
  value : Data
deriving Repr

/-- Enters a pair into a table. A key is entered once, and dotted keys only add to tables that dotted
keys have made. -/
def addPair (entries : Entries) (p : Pair) : Option Entries :=
  let enter (origin : Origin) (entries : Entries) : Option Entries :=
    if (origin == .dotted) == p.path.isEmpty then none
    else if (entries.lookup p.key).isSome then none
    else some (entries ++ [(p.key, .value p.value)])
  changeAt .dotted enter p.path .header entries

def addPairs (entries : Entries) (pairs : List Pair) : Option Entries :=
  pairs.foldlM addPair entries

structure Section where
  path : List String
  key : String
  /-- The header adds a row to an array of tables. -/
  isRow : Bool
  pairs : List Pair
deriving Repr

/-- Enters a table with a header. Only a table that has been implied may be there before. -/
def addTable (pairs : List Pair) (key : String) (_ : Origin) (entries : Entries) :
    Option Entries :=
  match entries.lookup key with
  | none => (addPairs [] pairs).map fun inner => put key (.table .header inner) entries
  | some (.table .implied inner) =>
    (addPairs inner pairs).map fun inner => put key (.table .header inner) entries
  | some _ => none

/-- Enters a row of an array of tables. -/
def addRow (pairs : List Pair) (key : String) (_ : Origin) (entries : Entries) :
    Option Entries :=
  match entries.lookup key with
  | none => (addPairs [] pairs).map fun row => put key (.rows [row]) entries
  | some (.rows rows) => (addPairs [] pairs).map fun row => put key (.rows (rows ++ [row])) entries
  | some _ => none

def addSection (entries : Entries) (s : Section) : Option Entries :=
  changeAt .implied (if s.isRow then addRow s.pairs s.key else addTable s.pairs s.key) s.path
    .header entries

mutual

def Item.toData : Item → Data
  | .value d => d
  | .table _ entries => .record (entriesToData entries)
  | .rows rows => .list (rowsToData rows)

def entriesToData : List (String × Item) → List (String × Data)
  | [] => []
  | (key, item) :: rest => (key, item.toData) :: entriesToData rest

def rowsToData : List (List (String × Item)) → List Data
  | [] => []
  | row :: rest => .record (entriesToData row) :: rowsToData rest

end

end Hearth.Data.Toml
