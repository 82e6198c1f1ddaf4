import Hearth.Data.Basic

/-!
# Hearth.Data.Fields

The fields of a record with declared names. A record may be written with its names, in any order
and with further entries that are passed over, or as the bare list of its values in the declared
order. A declared name that stands twice makes the record unreadable.
-/

namespace Hearth

/-- What was written for the declared names. -/
structure Fields where
  byPosition : Bool
  entries : List (String × Data)

namespace Fields

def distinct : List (String × Data) → Bool
  | [] => true
  | (name, _) :: rest => !(rest.any fun entry => entry.1 == name) && distinct rest

def read? (names : List String) : Data → Option Fields
  | .record entries =>
    let known := entries.filter fun entry => names.contains entry.1
    if distinct known then some ⟨false, known⟩ else none
  | .list items =>
    if items.length ≤ names.length then some ⟨true, names.zip items⟩ else none
  | _ => none

variable {α : Type}

def get? (f : Fields) (name : String) : Option Data :=
  f.entries.lookup name

def required (f : Fields) (name : String) (read : Data → Option α) : Option α :=
  (f.get? name).bind read

/-- A field that takes `default` when it is left out, but may not be `null`. -/
def orElse (f : Fields) (name : String) (default : α) (read : Data → Option α) : Option α :=
  match f.get? name with
  | none => some default
  | some d => read d

/-- A field that may be left out or `null`. -/
def optional (f : Fields) (name : String) (read : Data → Option α) : Option (Option α) :=
  f.orElse name none (Data.nullable? read)

/-- A field that may be `null`, and may be left out where the others are given by name. -/
def named (f : Fields) (name : String) (read : Data → Option α) : Option (Option α) :=
  if f.byPosition then f.required name (Data.nullable? read) else f.optional name read

end Fields

end Hearth
