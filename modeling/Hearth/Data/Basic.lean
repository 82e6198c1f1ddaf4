/-!
# Hearth.Data.Basic

Self-describing data: what a settings file, a snapshot or the value of an action may hold before it
is given a meaning. A record keeps its entries in the order in which they were written;
`Data.normalize` sorts them by name and lets the last entry of a name win.
-/

namespace Hearth

/-- A number keeps whether it was written as a whole number. -/
inductive Numeral
  | whole (n : Int)
  | real (x : Float)
deriving Repr, BEq, Inhabited

inductive Data
  | null
  | bool (b : Bool)
  | number (n : Numeral)
  | text (s : String)
  | list (items : List Data)
  | record (entries : List (String × Data))
deriving Repr, Inhabited

namespace Numeral

/-- The nearest binary number to a whole number of at most 64 bits. -/
def wholeToFloat (n : Int) : Float :=
  if n < 0 then -(UInt64.ofNat n.natAbs).toFloat else (UInt64.ofNat n.natAbs).toFloat

def toFloat : Numeral → Float
  | .whole n => wholeToFloat n
  | .real x => x

end Numeral

namespace Data

def whole (n : Int) : Data := .number (.whole n)

def nat (n : Nat) : Data := whole n

def real (x : Float) : Data := .number (.real x)

def ofOption {α : Type} (toData : α → Data) : Option α → Data
  | some a => toData a
  | none => .null

def ofText? : Option String → Data := ofOption .text

def ofList {α : Type} (toData : α → Data) (items : List α) : Data := .list (items.map toData)

/-- A number that may fail to be finite has no written form then and becomes `null`. -/
def finite (x : Float) : Data :=
  if x.isFinite then .real x else .null

/-- Puts an entry into a record sorted by name; an entry of the same name is replaced. -/
def insertEntry (name : String) (value : Data) : List (String × Data) → List (String × Data)
  | [] => [(name, value)]
  | (other, kept) :: rest =>
    if name = other then (name, value) :: rest
    else if name < other then (name, value) :: (other, kept) :: rest
    else (other, kept) :: insertEntry name value rest

mutual

/-- Sorts the entries of every record by name; the last entry of a name wins. -/
def normalize : Data → Data
  | .list items => .list (normalizeItems items)
  | .record entries => .record (normalizeEntries entries [])
  | .null => .null
  | .bool b => .bool b
  | .number n => .number n
  | .text s => .text s

def normalizeItems : List Data → List Data
  | [] => []
  | item :: rest => normalize item :: normalizeItems rest

def normalizeEntries : List (String × Data) → List (String × Data) → List (String × Data)
  | [], sorted => sorted
  | (name, value) :: rest, sorted => normalizeEntries rest (insertEntry name (normalize value) sorted)

end

mutual

/-- Replaces every text, but not the names of entries. -/
def mapTexts (f : String → String) : Data → Data
  | .text s => .text (f s)
  | .list items => .list (mapTextsOfItems f items)
  | .record entries => .record (mapTextsOfEntries f entries)
  | .null => .null
  | .bool b => .bool b
  | .number n => .number n

def mapTextsOfItems (f : String → String) : List Data → List Data
  | [] => []
  | item :: rest => mapTexts f item :: mapTextsOfItems f rest

def mapTextsOfEntries (f : String → String) : List (String × Data) → List (String × Data)
  | [] => []
  | (name, value) :: rest => (name, mapTexts f value) :: mapTextsOfEntries f rest

end

def isNull : Data → Bool
  | .null => true
  | _ => false

def bool? : Data → Option Bool
  | .bool b => some b
  | _ => none

def text? : Data → Option String
  | .text s => some s
  | _ => none

def float? : Data → Option Float
  | .number n => some n.toFloat
  | _ => none

def wholeIn? (low high : Int) : Data → Option Int
  | .number (.whole n) => if low ≤ n ∧ n ≤ high then some n else none
  | _ => none

def natUpTo? (limit : Nat) (d : Data) : Option Nat :=
  (d.wholeIn? 0 limit).map Int.toNat

def listOf? {α : Type} (read : Data → Option α) : Data → Option (List α)
  | .list items => items.mapM read
  | _ => none

/-- A value that may be `null`. -/
def nullable? {α : Type} (read : Data → Option α) : Data → Option (Option α)
  | .null => some none
  | d => (read d).map some

/-- A name out of a fixed set: the text itself, or a record whose only entry has that name and the
value `null`. -/
def word? : Data → Option String
  | .text s => some s
  | .record [(name, .null)] => some name
  | _ => none

/-- As `word?`, where the value of the only entry may also be a record without entries. -/
def looseWord? : Data → Option String
  | .record [(name, .record [])] => some name
  | d => d.word?

/-- A value that takes `default` where it is `null`. -/
def orElse? {α : Type} (default : α) (read : Data → Option α) : Data → Option α
  | .null => some default
  | d => read d

def get? (name : String) : Data → Option Data
  | .record entries => entries.lookup name
  | _ => none

/-- The entry of a name; where there is none it is `null`. -/
def entry (d : Data) (name : String) : Data := (get? name d).getD .null

/-- The text of an entry, which is empty if there is none. -/
def textAt (d : Data) (name : String) : String := (text? (d.entry name)).getD ""

def items : Data → List Data
  | .list items => items
  | _ => []

def isTrue (d : Data) : Bool := (bool? d).getD false

end Data

end Hearth
