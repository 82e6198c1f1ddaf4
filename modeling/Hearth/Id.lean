import Hearth.Data.Basic
import Hearth.Data.Json

/-!
# Hearth.Id

Identifiers. Automations, flows, geofences and events are known by universally unique identifiers of
128 bits; devices and the nodes of a flow are known by the names that people gave them.
-/

namespace Hearth

structure Uuid where
  value : Nat
deriving DecidableEq, Repr, Inhabited, Ord

namespace Uuid

open Data.Json (hexValue?)

def nil : Uuid := ⟨0⟩

/-- The hexadecimal digits, `count` of them, the most significant first. -/
def hexText (value : Nat) : Nat → List Char
  | 0 => []
  | count + 1 => hexText (value / 16) count ++ [Nat.digitChar (value % 16)]

/-- Lower-case digits in groups of 8, 4, 4, 4 and 12. -/
def text (u : Uuid) : String :=
  let ds := hexText u.value 32
  String.ofList (ds.take 8 ++ '-' :: (ds.drop 8).take 4 ++ '-' :: (ds.drop 12).take 4
    ++ '-' :: (ds.drop 16).take 4 ++ '-' :: ds.drop 20)

def ofHex? (ds : List Char) : Option Nat :=
  ds.foldlM (fun value c => (hexValue? c).map fun digit => value * 16 + digit) 0

/-- 32 digits without any marks. -/
def readPlain? (cs : List Char) : Option Uuid :=
  if cs.length = 32 then (ofHex? cs).map Uuid.mk else none

/-- 36 characters: the digits in groups, with a hyphen between two groups. -/
def readGrouped? (cs : List Char) : Option Uuid :=
  if cs.length = 36 ∧ cs[8]? = some '-' ∧ cs[13]? = some '-' ∧ cs[18]? = some '-'
      ∧ cs[23]? = some '-'
  then readPlain? (cs.take 8 ++ (cs.drop 9).take 4 ++ (cs.drop 14).take 4 ++ (cs.drop 19).take 4
    ++ cs.drop 24)
  else none

/-- Plain or grouped digits; grouped digits may stand in braces or after `urn:uuid:`. -/
def read? (s : String) : Option Uuid :=
  match s.toList with
  | '\x7b' :: rest =>
    if rest.getLast? = some '\x7d' then readGrouped? rest.dropLast else none
  | 'u' :: 'r' :: 'n' :: ':' :: 'u' :: 'u' :: 'i' :: 'd' :: ':' :: rest => readGrouped? rest
  | cs => if cs.length = 32 then readPlain? cs else readGrouped? cs

end Uuid

/-- What a universally unique identifier belongs to. -/
inductive IdKind
  | automation | flow | geofence | event
deriving DecidableEq, Repr

/-- An identifier of one kind of record. -/
structure Id (kind : IdKind) where
  uuid : Uuid
deriving DecidableEq, Repr, Inhabited

abbrev AutomationId := Id .automation
abbrev FlowId := Id .flow
abbrev GeofenceId := Id .geofence
abbrev EventId := Id .event

namespace Id

variable {kind : IdKind}

def text (id : Id kind) : String := id.uuid.text

def toData (id : Id kind) : Data := .text id.text

def ofData? (d : Data) : Option (Id kind) := do
  let s ← d.text?
  let uuid ← Uuid.read? s
  return ⟨uuid⟩

end Id

/-- The name of a device. -/
structure DeviceId where
  name : String
deriving DecidableEq, Repr, Inhabited

/-- The name of a node of a flow. -/
structure NodeId where
  name : String
deriving DecidableEq, Repr, Inhabited

def DeviceId.ofData? (d : Data) : Option DeviceId := d.text?.map DeviceId.mk

def DeviceId.toData (id : DeviceId) : Data := .text id.name

def NodeId.ofData? (d : Data) : Option NodeId := d.text?.map NodeId.mk

def NodeId.toData (id : NodeId) : Data := .text id.name

end Hearth
