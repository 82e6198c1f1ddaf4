import Hearth.Channel
import Hearth.Fault
import Hearth.Geo

/-!
# Hearth.Tracking.Positioning

Where position fixes come from: they are pushed from outside or replayed from a track. The newest fix
is the current position, and every fix goes out to those who watch.
-/

namespace Hearth

structure Positioning where
  permitted : Bool
  current : Option Location
  fixes : Channel Location
deriving Repr, Inhabited

namespace Positioning

/-- Those who watch may fall behind by this many fixes. -/
def channelCapacity : Nat := 32

def create (permitted : Bool) : Positioning :=
  { permitted, current := none, fixes := .ofCapacity channelCapacity }

def push (p : Positioning) (l : Location) : Positioning :=
  { p with current := some l, fixes := p.fixes.send l }

def currentPosition (p : Positioning) : Except Failure Location :=
  match p.current with
  | some l => .ok l
  | none => .error (.notFound "location fix" "current")

end Positioning

end Hearth
