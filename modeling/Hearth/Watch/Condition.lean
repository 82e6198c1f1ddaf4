import Hearth.Device
import Hearth.Text.Quoted
import Hearth.Trigger

/-!
# Hearth.Watch.Condition

Whether the value of a device meets a condition, and why. A truth value is compared with a truth
value, or with whether the threshold is one; a number is compared with the threshold; a text must
be the given text. Anything else does not meet the condition.
-/

namespace Hearth

structure Evaluation where
  met : Bool
  /-- The reason in words. -/
  debug : String
deriving DecidableEq, Repr, Inhabited

namespace Evaluation

def toData (e : Evaluation) : Data := .record [("met", .bool e.met), ("debug", .text e.debug)]

def unmet (debug : String) : Evaluation := ⟨false, debug⟩

def boolText (b : Bool) : String := if b then "true" else "false"

/-- The truth value that a condition asks for. -/
def expectedBool? (threshold : Option Float) (value : Option Data) : Option Bool :=
  match value, threshold with
  | some (.bool expected), _ => some expected
  | _, some threshold => some (Comparison.equal.holds threshold 1.0)
  | _, none => none

def ofBool (actual : Bool) (threshold : Option Float) (value : Option Data) : Evaluation :=
  match expectedBool? threshold value with
  | some expected => ⟨actual == expected, boolText actual ++ " == " ++ boolText expected⟩
  | none => unmet ("boolean " ++ boolText actual ++ " without threshold")

def ofNumber (actual : Float) (comparison : Option Comparison) (threshold : Option Float) :
    Evaluation :=
  match comparison, threshold with
  | some op, some threshold =>
    let met := op.holds actual threshold
    ⟨met, Number.display actual ++ " " ++ op.symbol ++ " " ++ Number.display threshold ++ " is "
      ++ boolText met⟩
  | _, _ => unmet ("number " ++ Number.display actual ++ " without operator and threshold")

def ofText (actual : String) (value : Option Data) : Evaluation :=
  match value with
  | some (.text expected) =>
    ⟨actual == expected, Text.quoted actual ++ " == " ++ Text.quoted expected⟩
  | _ => unmet ("text " ++ Text.quoted actual ++ " without string value")

end Evaluation

/-- Holds a trigger against the value that a device reports. -/
def Trigger.evaluate (t : Trigger) (value : DeviceValue) : Evaluation :=
  match t with
  | .condition _ comparison threshold expected =>
    match value with
    | .bool actual => .ofBool actual threshold expected
    | .number actual => .ofNumber actual comparison threshold
    | .text actual => .ofText actual expected
  | t => .unmet (t.display ++ " is not a condition trigger")

end Hearth
