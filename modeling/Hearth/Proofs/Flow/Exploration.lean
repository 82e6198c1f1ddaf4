import Hearth.Flow.Digraph
import Mathlib.Logic.Relation

/-!
# Hearth.Proofs.Flow.Exploration

The search in breadth finds exactly what can be reached.

## Main result

`reachable_iff`: a node is marked by the search if and only if a path leads to it from one of the
roots.

## Proof strategy

A search keeps the promise that whatever it has seen and left has all of its successors seen. A round
leaves one node and sees its successors, so the nodes to which a path leads from a seen one stay the
same. With an empty queue they are the seen nodes themselves.
-/

namespace Hearth.Digraph

/-- A path of edges. -/
abbrev Path (g : Digraph) : Nat → Nat → Prop := Relation.ReflTransGen g.HasEdge

theorem HasEdge.source_lt {g : Digraph} {source target : Nat} (edge : g.HasEdge source target) :
    source < g.size := by
  refine Nat.lt_of_not_le fun outside => ?_
  have none : g.targets[source]? = none := List.getElem?_eq_none outside
  simp [HasEdge, next, none] at edge

namespace Frontier

def Sees (f : Frontier) (node : Nat) : Prop := f.seen[node]? = some true

theorem Sees.lt {f : Frontier} {node : Nat} (sees : f.Sees node) : node < f.seen.length :=
  (List.getElem?_eq_some_iff.1 sees).1

theorem length_visit (f : Frontier) (node : Nat) : (f.visit node).seen.length = f.seen.length := by
  unfold visit
  split
  · exact List.length_set
  · rfl

theorem sees_visit {f : Frontier} {node i : Nat} :
    (f.visit node).Sees i ↔ f.Sees i ∨ (i = node ∧ i < f.seen.length) := by
  unfold visit Sees
  split
  · next unseen =>
    have inside := (List.getElem?_eq_some_iff.1 unseen).1
    by_cases same : i = node
    · subst same
      simp [inside]
    · simp [List.getElem?_set_ne (Ne.symm same), same]
  · next known =>
    -- A node that is not visited has been seen already, or is none of the graph.
    constructor
    · exact .inl
    · rintro (sees | ⟨rfl, inside⟩)
      · exact sees
      · rw [List.getElem?_eq_getElem inside] at known ⊢
        cases value : f.seen[i] with
        | true => rfl
        | false => exact absurd (congrArg some value) known

theorem mem_queue_visit {f : Frontier} {node i : Nat} :
    i ∈ (f.visit node).queue ↔ i ∈ f.queue ∨ (i = node ∧ (f.visit node).Sees i ∧ ¬ f.Sees i) := by
  rw [sees_visit]
  unfold visit Sees
  split
  · next unseen =>
    have inside := (List.getElem?_eq_some_iff.1 unseen).1
    rw [List.mem_append, List.mem_singleton]
    constructor
    · rintro (waiting | rfl)
      · exact .inl waiting
      · exact .inr ⟨rfl, .inr ⟨rfl, inside⟩, by simp [unseen]⟩
    · rintro (waiting | ⟨rfl, -, -⟩)
      · exact .inl waiting
      · exact .inr rfl
  · next known =>
    refine ⟨.inl, ?_⟩
    rintro (waiting | ⟨rfl, sees | ⟨-, inside⟩, unseen⟩)
    · exact waiting
    · exact absurd sees unseen
    · rw [List.getElem?_eq_getElem inside] at known unseen
      cases value : f.seen[i] with
      | true => exact absurd (congrArg some value) unseen
      | false => exact absurd (congrArg some value) known

theorem length_foldl_visit (f : Frontier) (nodes : List Nat) :
    (nodes.foldl visit f).seen.length = f.seen.length := by
  induction nodes generalizing f with
  | nil => rfl
  | cons node rest ih => rw [List.foldl_cons, ih, length_visit]

theorem sees_foldl_visit {f : Frontier} {nodes : List Nat} {i : Nat} :
    (nodes.foldl visit f).Sees i ↔ f.Sees i ∨ (i ∈ nodes ∧ i < f.seen.length) := by
  induction nodes generalizing f with
  | nil => simp
  | cons node rest ih =>
    rw [List.foldl_cons, ih, sees_visit, length_visit, List.mem_cons, or_and_right, or_assoc]

/-- Whatever a round sees for the first time has still to be left. -/
theorem mem_queue_foldl_visit {f : Frontier} {nodes : List Nat} {i : Nat} :
    i ∈ (nodes.foldl visit f).queue ↔
      i ∈ f.queue ∨ ((nodes.foldl visit f).Sees i ∧ ¬ f.Sees i) := by
  induction nodes generalizing f with
  | nil => simp
  | cons node rest ih =>
    rw [List.foldl_cons, ih, mem_queue_visit]
    have kept : f.Sees i → (f.visit node).Sees i := fun sees => sees_visit.2 (.inl sees)
    have onward : (f.visit node).Sees i → (rest.foldl visit (f.visit node)).Sees i :=
      fun sees => sees_foldl_visit.2 (.inl sees)
    have fresh : (f.visit node).Sees i → ¬ f.Sees i → i = node :=
      fun sees unseen => ((sees_visit.1 sees).resolve_left unseen).1
    constructor
    · rintro ((waiting | ⟨-, sees, unseen⟩) | ⟨sees, unseen⟩)
      · exact .inl waiting
      · exact .inr ⟨onward sees, unseen⟩
      · exact .inr ⟨sees, fun before => unseen (kept before)⟩
    · rintro (waiting | ⟨sees, unseen⟩)
      · exact .inl (.inl waiting)
      · by_cases already : (f.visit node).Sees i
        · exact .inl (.inr ⟨fresh already unseen, already, unseen⟩)
        · exact .inr ⟨sees, already⟩

/-- What has been seen and left leads to seen nodes only. -/
structure Promises (g : Digraph) (f : Frontier) : Prop where
  length : f.seen.length = g.size
  queue : ∀ i ∈ f.queue, f.Sees i
  left : ∀ i, f.Sees i → i ∉ f.queue → ∀ j, g.HasEdge i j → j < g.size → f.Sees j

/-- Leaves the first node of the queue. -/
theorem Promises.leave {g : Digraph} {seen : List Bool} {node : Nat} {rest : List Nat}
    (promises : Promises g ⟨seen, node :: rest⟩) :
    Promises g ((g.next node).foldl visit ⟨seen, rest⟩) := by
  -- Only the queue of the two frontiers differs, so they see the same nodes.
  have same (i : Nat) : (Frontier.mk seen (node :: rest)).Sees i ↔ (Frontier.mk seen rest).Sees i :=
    Iff.rfl
  constructor
  · rw [length_foldl_visit]
    exact promises.length
  · intro i waiting
    rcases mem_queue_foldl_visit.1 waiting with before | ⟨sees, -⟩
    · exact sees_foldl_visit.2 (.inl (promises.queue i (List.mem_cons_of_mem _ before)))
    · exact sees
  · intro i sees gone j edge inside
    rw [mem_queue_foldl_visit, not_or] at gone
    have earlier : (Frontier.mk seen (node :: rest)).Sees i :=
      Classical.not_not.1 fun unseen => gone.2 ⟨sees, unseen⟩
    rw [sees_foldl_visit]
    by_cases current : i = node
    · subst current
      exact .inr ⟨edge, promises.length ▸ inside⟩
    · refine .inl (promises.left i earlier ?_ j edge inside)
      exact fun waiting => (List.mem_cons.1 waiting).elim current gone.1

end Frontier

open Frontier

theorem explore_iff {g : Digraph} {f : Frontier} (promises : Promises g f) (i : Nat) :
    (g.explore f)[i]? = some true ↔ i < g.size ∧ ∃ j, f.Sees j ∧ g.Path j i := by
  fun_induction explore g f with
  | case1 f front =>
    constructor
    · exact fun sees => ⟨promises.length ▸ Sees.lt sees, i, sees, .refl⟩
    · rintro ⟨inside, j, sees, path⟩
      -- Nothing is left to be left, so each edge of the path leads to a seen node.
      induction path with
      | refl => exact sees
      | tail _ edge ih =>
        have before := ih edge.source_lt
        exact promises.left _ before (by simp [front]) _ edge inside
  | case2 f node rest front ih =>
    obtain ⟨seen, queue⟩ := f
    subst front
    rw [ih promises.leave]
    refine and_congr_right fun inside => ⟨?_, ?_⟩
    · rintro ⟨j, sees, path⟩
      rcases sees_foldl_visit.1 sees with earlier | ⟨edge, -⟩
      · exact ⟨j, earlier, path⟩
      · exact ⟨node, promises.queue node List.mem_cons_self, path.head edge⟩
    · rintro ⟨j, sees, path⟩
      exact ⟨j, sees_foldl_visit.2 (.inl sees), path⟩

theorem length_explore (g : Digraph) (f : Frontier) : (g.explore f).length = f.seen.length := by
  fun_induction explore g f with
  | case1 f front => rfl
  | case2 f node rest front ih => rw [ih, length_foldl_visit]

theorem length_reachable (g : Digraph) (roots : List Nat) :
    (g.reachable roots).length = g.size := by
  rw [reachable, length_explore, length_foldl_visit, List.length_replicate]

/-- The search marks exactly the nodes to which a path leads from one of the roots. -/
theorem reachable_iff (g : Digraph) (roots : List Nat) (i : Nat) :
    (g.reachable roots)[i]? = some true ↔ i < g.size ∧ ∃ root ∈ roots, g.Path root i := by
  have blank (j : Nat) : ¬ (Frontier.mk (List.replicate g.size false) []).Sees j := by
    simp [Sees, List.getElem?_replicate]
  have begun : Promises g (roots.foldl visit ⟨List.replicate g.size false, []⟩) := by
    constructor
    · rw [length_foldl_visit, List.length_replicate]
    · intro j waiting
      exact ((mem_queue_foldl_visit.1 waiting).resolve_left List.not_mem_nil).1
    · intro j sees gone
      exact absurd (mem_queue_foldl_visit.2 (.inr ⟨sees, blank j⟩)) gone
  have roots_seen (j : Nat) : (roots.foldl visit ⟨List.replicate g.size false, []⟩).Sees j ↔
      j ∈ roots ∧ j < g.size := by
    rw [sees_foldl_visit, List.length_replicate]
    exact or_iff_right (blank j)
  rw [reachable, explore_iff begun]
  refine and_congr_right fun inside => exists_congr fun j => ?_
  rw [roots_seen, and_assoc]
  refine and_congr_right fun _ => and_iff_right_of_imp fun path => ?_
  -- A root from which an edge leads is a node of the graph, and so is one that is the target itself.
  rcases path.cases_head with rfl | ⟨_, edge, _⟩
  · exact inside
  · exact edge.source_lt

end Hearth.Digraph
