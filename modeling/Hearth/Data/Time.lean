import Hearth.Data.Fields
import Hearth.Number.Digits
import Hearth.Time.Clock
import Hearth.Time.Duration

/-!
# Hearth.Data.Time

Times as data: an instant is its text, a duration its whole seconds and the nanoseconds beyond them,
and a zone the minutes by which its clock is ahead of universal time.
-/

namespace Hearth

def Instant.toData (t : Instant) : Data := .text t.text

def Instant.ofData? (d : Data) : Option Instant := d.text?.bind Instant.read?

namespace Duration

def toData (d : Duration) : Data :=
  .record [("secs", .whole d.secs), ("nanos", .whole d.subsecNanos)]

/-- Reads a duration with exactly the two fields. Nanoseconds from one second on are carried over to
the seconds, which must still fit into 64 bits. -/
def ofData? (d : Data) : Option Duration := do
  let extra :=
    match d with
    | .record entries => entries.any fun (name, _) => name != "secs" && name != "nanos"
    | _ => false
  guard !extra
  let f ← Fields.read? ["secs", "nanos"] d
  let secs ← f.required "secs" (Data.natUpTo? Number.maxWord64)
  let nanos ← f.required "nanos" (Data.natUpTo? Number.maxWord32)
  let total : Duration := ⟨secs * 1000000000 + nanos⟩
  if total.nanos ≤ longest.nanos then some total else none

def ofMillisData? (d : Data) : Option Duration :=
  (d.natUpTo? Number.maxWord64).map ofMillis

def ofSecsData? (d : Data) : Option Duration :=
  (d.natUpTo? Number.maxWord64).map ofSecs

end Duration

def Zone.readOffset? (d : Data) : Option Int := d.wholeIn? (-2147483648) 2147483647

def Zone.readTransition? : Data → Option (Instant × Int)
  | .list (start :: offset :: _) => do
    let start ← Instant.ofData? start
    let offset ← readOffset? offset
    return (start, offset)
  | _ => none

/-- Nothing, for universal time; a fixed offset; or an offset and the instants at which another one
begins. -/
def Zone.ofData? : Data → Option Zone
  | .null => some .universal
  | .number n => (readOffset? (.number n)).map .fixed
  | d => do
    let base ← readOffset? (d.entry "offset")
    let transitions ← (d.entry "transitions").listOf? readTransition?
    return { base, transitions }

def WallClock.ofData? (d : Data) : Option WallClock := do
  let base ← Instant.ofData? (d.entry "now")
  let zone ← Zone.ofData? (d.entry "zone")
  return { base, zone, follows := (d.entry "follow").isTrue }

end Hearth
