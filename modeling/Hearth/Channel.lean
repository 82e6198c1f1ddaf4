/-!
# Hearth.Channel

Broadcast channels. A channel keeps the newest items, as many as its capacity, and numbers all items
from the first one on. A receiver is the number of the item that it expects next; one that has
fallen behind is told first how many items it has lost.
-/

namespace Hearth

structure Channel (α : Type) where
  capacity : Nat
  /-- From the oldest to the newest. -/
  kept : List α
  /-- How many items have been sent so far. -/
  sent : Nat
deriving Repr, Inhabited

namespace Channel

variable {α : Type}

/-- The largest capacity that can be asked for: with it, the places of a channel can still be counted
in bytes. -/
def capacityLimit : Nat := 72057594037927936

/-- An empty channel whose capacity is the next power of two. -/
def create? (capacity : Nat) : Option (Channel α) :=
  if capacity = 0 ∨ capacityLimit < capacity then none
  else some ⟨capacity.nextPowerOfTwo, [], 0⟩

def ofCapacity (capacity : Nat) : Channel α := ⟨capacity, [], 0⟩

def send (c : Channel α) (item : α) : Channel α :=
  let kept := c.kept ++ [item]
  { c with kept := kept.drop (kept.length - c.capacity), sent := c.sent + 1 }

/-- The number of the oldest item kept. -/
def oldest (c : Channel α) : Nat := c.sent - c.kept.length

/-- A receiver that gets the items sent from now on. -/
def subscribe (c : Channel α) : Nat := c.sent

inductive Received (α : Type)
  | item (a : α)
  | lagged (missed : Nat)
  | empty
deriving Repr, Inhabited

def receive (c : Channel α) (receiver : Nat) : Received α × Nat :=
  if receiver < c.oldest then (.lagged (c.oldest - receiver), c.oldest)
  else
    match c.kept[receiver - c.oldest]? with
    | some a => (.item a, receiver + 1)
    | none => (.empty, receiver)

/-- All that is left for a receiver, whatever it has lost. -/
def drain (c : Channel α) (receiver : Nat) : List α :=
  c.kept.drop (receiver - c.oldest)

def hasItems (c : Channel α) (receiver : Nat) : Bool := receiver < c.sent

end Channel

end Hearth
