import Hearth.Id

/-!
# Hearth.Rehearsal.Aliases

Short names in place of identifiers that were made up. The first of them is `$1`, the next one `$2`,
and so on. Made-up identifiers stand in the order of their names, and before the other ones in use.
-/

namespace Hearth

/-- Identifiers that were made up, as texts, in the order in which they were made. -/
structure Aliases where
  made : List String
deriving Repr, Inhabited

namespace Aliases

def empty : Aliases := ⟨[]⟩

def name (position : Nat) : String := "$" ++ toString (position + 1)

def entries (a : Aliases) : List (String × String) :=
  a.made.zipIdx.map fun (id, position) => (id, name position)

/-- A number of twelve hexadecimal digits that grows as the text of a number does. -/
def sortKey (n : Nat) : Nat :=
  let digits := (Nat.repr n).toList
  (digits.foldl (fun key c => key * 16 + (c.toNat - '0'.toNat + 1)) 0) * Nat.pow 16 (12 - digits.length)

/-- Identifiers that nobody has so far; the one after `count` others that are still to be named. -/
def freshAt (a : Aliases) (count : Nat) : Uuid :=
  ⟨0x00000000c95e4b8694f2000000000000 + sortKey (a.made.length + count + 1)⟩

def fresh (a : Aliases) : Uuid := a.freshAt 0

def add (a : Aliases) (id : String) : Aliases := ⟨a.made ++ [id]⟩

/-- A text with the names put in. -/
def abridge (a : Aliases) (s : String) : String :=
  a.entries.foldl (fun s (id, name) => s.replace id name) s

/-- The identifier that has a name; other texts stay as they are. -/
def expand (a : Aliases) (s : String) : String :=
  ((a.entries.find? fun entry => entry.2 == s).map Prod.fst).getD s

end Aliases

end Hearth
