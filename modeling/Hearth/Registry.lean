import Hearth.Device
import Hearth.Table

/-!
# Hearth.Registry

The devices that the engine knows, each with the last value that it reported.
-/

namespace Hearth

structure Registry where
  devices : Table DeviceId Device
deriving Repr, Inhabited

namespace Registry

/-- The devices of a list; the last one of an identifier counts. -/
def ofList (devices : List Device) : Registry :=
  ⟨Table.ofList (devices.map fun d => (d.id, d))⟩

def get? (r : Registry) (id : DeviceId) : Option Device := r.devices.get? id

def toList (r : Registry) : List Device := r.devices.values

def size (r : Registry) : Nat := r.devices.size

/-- Enters a device in place of the one with its identifier, if there is one. -/
def upsert (r : Registry) (d : Device) : Registry := ⟨r.devices.insert d.id d⟩

def setValue (r : Registry) (now : Instant) (id : DeviceId) (value : DeviceValue) :
    Option Device × Registry :=
  match r.get? id with
  | none => (none, r)
  | some d =>
    let changed := { d with value, updatedAt := now }
    (some changed, ⟨r.devices.insert id changed⟩)

theorem get?_upsert (r : Registry) (d : Device) (id : DeviceId) :
    (r.upsert d).get? id = if id = d.id then some d else r.get? id :=
  Table.get?_insert _ _ _ _

end Registry

end Hearth
