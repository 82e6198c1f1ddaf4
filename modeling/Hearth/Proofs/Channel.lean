import Hearth.Channel

/-!
# Hearth.Proofs.Channel

What a receiver gets out of a channel, told from all that has been sent.

## Main definitions

`Channel.Holds`: a channel into which some items have been sent, and no others.
`Channel.unlost`: what is left of some items when those of some numbers are lost.

## Main results

`Channel.Holds.send`: one more item is sent.
`Channel.Holds.receive_of_lt`, `Channel.Holds.receive_of_get`, `Channel.Holds.receive_of_le`: a receiver
has fallen behind, gets the item that it expects, or has got everything.
`Channel.Holds.drain_eq`: all that is left for a receiver.
`Channel.unlost_append_one`, `Channel.unlost_append_lost`: one more item comes, and the items that come next
are lost.
-/

namespace Hearth.Channel

variable {α : Type}

/-- A channel into which some items have been sent, the oldest first. It keeps the newest of them. -/
structure Holds (c : Channel α) (items : List α) : Prop where
  sent : c.sent = items.length
  kept : c.kept = items.drop (items.length - c.capacity)

variable {c : Channel α} {items : List α} {receiver : Nat}

theorem Holds.ofCapacity (capacity : Nat) : (Channel.ofCapacity capacity : Channel α).Holds [] where
  sent := rfl
  kept := List.drop_nil.symm

theorem Holds.send (holds : c.Holds items) (item : α) : (c.send item).Holds (items ++ [item]) where
  sent := by simp [Channel.send, holds.sent]
  kept := by
    have length : c.kept.length = items.length - (items.length - c.capacity) := by
      rw [holds.kept, List.length_drop]
    simp only [Channel.send, List.length_append, List.length_singleton, length]
    -- As long as there is room everything is kept; after that the oldest item makes room.
    by_cases full : items.length + 1 ≤ c.capacity
    · have all : items.length - c.capacity = 0 := by omega
      rw [holds.kept, all, List.drop_zero, Nat.sub_zero]
    · rw [holds.kept, ← List.drop_append_of_le_length (by omega), List.drop_drop]
      congr 1
      omega

theorem Holds.oldest_eq (holds : c.Holds items) : c.oldest = items.length - c.capacity := by
  rw [oldest, holds.sent, holds.kept, List.length_drop]
  omega

/-- A receiver that has fallen behind is told so, and goes on with the oldest item that is kept. -/
theorem Holds.receive_of_lt (holds : c.Holds items) (behind : receiver + c.capacity < items.length) :
    c.receive receiver =
      (.lagged (items.length - c.capacity - receiver), items.length - c.capacity) := by
  rw [receive, holds.oldest_eq, if_pos (by omega)]

theorem Holds.receive_of_get (holds : c.Holds items) (near : items.length ≤ receiver + c.capacity)
    {item : α} (next : items[receiver]? = some item) :
    c.receive receiver = (.item item, receiver + 1) := by
  have place : items.length - c.capacity + (receiver - (items.length - c.capacity)) = receiver := by
    omega
  rw [receive, holds.oldest_eq, if_neg (by omega), holds.kept, List.getElem?_drop, place, next]

theorem Holds.receive_of_le (holds : c.Holds items) (done : items.length ≤ receiver) :
    c.receive receiver = (.empty, receiver) := by
  rw [receive, holds.oldest_eq, if_neg (by omega), holds.kept, List.getElem?_drop,
    List.getElem?_eq_none (by omega)]

theorem Holds.drain_eq (holds : c.Holds items) (receiver : Nat) :
    c.drain receiver = items.drop (max receiver (items.length - c.capacity)) := by
  rw [drain, holds.oldest_eq, holds.kept, List.drop_drop]
  congr 1
  omega

theorem Holds.hasItems_iff (holds : c.Holds items) :
    c.hasItems receiver = false ↔ items.length ≤ receiver := by
  simp [hasItems, holds.sent]

/-- What is left of some items when those of some numbers are lost. -/
def unlost (lost : List Nat) (items : List α) : List α :=
  (items.zipIdx.filter fun e => !lost.contains e.2).map Prod.fst

theorem unlost_append_one {lost : List Nat} (new : items.length ∉ lost) (item : α) :
    unlost lost (items ++ [item]) = unlost lost items ++ [item] := by
  simp [unlost, List.zipIdx_append, new]

/-- When the items that come next are lost, what is left stays the same. -/
theorem unlost_append_lost (lost : List Nat) (items more : List α) :
    unlost (lost ++ List.range' items.length more.length) (items ++ more) = unlost lost items := by
  have before : (items.zipIdx.filter fun e =>
      !(lost ++ List.range' items.length more.length).contains e.2) =
        items.zipIdx.filter fun e => !lost.contains e.2 := by
    refine List.filter_congr fun e member => ?_
    have near := List.snd_lt_of_mem_zipIdx member
    have kept : e.2 ∉ List.range' items.length more.length := by
      rw [List.mem_range'_1]
      omega
    simp [kept]
  have behind : ((more.zipIdx items.length).filter fun e =>
      !(lost ++ List.range' items.length more.length).contains e.2) = [] := by
    refine List.filter_eq_nil_iff.2 fun e member => ?_
    have far := List.le_snd_of_mem_zipIdx member
    have near := List.snd_lt_add_of_mem_zipIdx member
    simp [List.mem_range'_1, far, near]
  simp only [unlost, List.zipIdx_append, List.filter_append, before, Nat.zero_add, behind,
    List.append_nil]

end Hearth.Channel
