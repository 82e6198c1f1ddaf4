/-!
# Hearth.Flow.Digraph

Directed graphs whose nodes are numbered from zero, searched in breadth for what can be reached and
in depth for cycles.

Both searches are loops over an explicit list of work. Each has a measure that every round
lowers: a node is marked at most once, and a marked node brings a bounded amount of work.
-/

namespace Hearth

/-- The targets of the edges of each node, in order; an edge may occur more than once. -/
structure Digraph where
  targets : List (List Nat)
deriving DecidableEq, Repr, Inhabited

namespace Digraph

def size (g : Digraph) : Nat := g.targets.length

def next (g : Digraph) (node : Nat) : List Nat := g.targets[node]?.getD []

def HasEdge (g : Digraph) (source target : Nat) : Prop := target ∈ g.next source

instance (g : Digraph) (source target : Nat) : Decidable (g.HasEdge source target) :=
  inferInstanceAs (Decidable (target ∈ g.next source))

/-! ### Reachability -/

/-- A search in breadth: which nodes have been seen, and which of them still have to be left. -/
structure Frontier where
  seen : List Bool
  queue : List Nat
deriving DecidableEq, Repr

namespace Frontier

/-- Sees a node; one that is new joins the queue. -/
def visit (f : Frontier) (node : Nat) : Frontier :=
  if f.seen[node]? = some false then ⟨f.seen.set node true, f.queue ++ [node]⟩ else f

/-- Twice the nodes not yet seen, and the length of the queue. -/
def work (f : Frontier) : Nat := 2 * f.seen.countP (!·) + f.queue.length

theorem work_visit_le (f : Frontier) (node : Nat) : (f.visit node).work ≤ f.work := by
  unfold visit
  split
  · next unseen =>
    obtain ⟨inside, value⟩ := List.getElem?_eq_some_iff.1 unseen
    have counted : 0 < f.seen.countP (!·) :=
      List.countP_pos_iff.2 ⟨false, value ▸ List.getElem_mem inside, rfl⟩
    simp only [work, List.countP_set inside, value, List.length_append, List.length_singleton]
    simp
    omega
  · exact Nat.le_refl _

theorem work_foldl_visit_le (f : Frontier) (nodes : List Nat) :
    (nodes.foldl visit f).work ≤ f.work := by
  induction nodes generalizing f with
  | nil => exact Nat.le_refl _
  | cons node rest ih => exact Nat.le_trans (ih _) (work_visit_le f node)

end Frontier

/-- Leaves the nodes of the queue one by one until none is left. -/
def explore (g : Digraph) (f : Frontier) : List Bool :=
  match _front : f.queue with
  | [] => f.seen
  | node :: rest => g.explore ((g.next node).foldl Frontier.visit ⟨f.seen, rest⟩)
termination_by f.work
decreasing_by
  have step := Frontier.work_foldl_visit_le ⟨f.seen, rest⟩ (g.next node)
  have shorter : (Frontier.mk f.seen rest).work < f.work := by simp [Frontier.work, _front]
  omega

/-- For each node, whether a path leads to it from one of the roots. -/
def reachable (g : Digraph) (roots : List Nat) : List Bool :=
  g.explore (roots.foldl Frontier.visit ⟨List.replicate g.size false, []⟩)

/-! ### Cycles -/

/-- Where a search in depth stands with a node. -/
inductive Mark
  | unvisited | open | closed
deriving DecidableEq, Repr

/-- A search in depth. The path holds the open nodes from the last to the first, each with the edges
that are still to be followed; the cycles found are listed from the last to the first. -/
structure Descent where
  marks : List Mark
  path : List (Nat × List Nat)
  cycles : List (List Nat)
deriving DecidableEq, Repr

namespace Descent

/-- Opens a node at the end of the path. -/
def enter (d : Descent) (node : Nat) (edges : List Nat) : Descent :=
  { d with marks := d.marks.set node .open, path := (node, edges) :: d.path }

/-- The part of the path from an open node on, closed by the node itself. -/
def cycleAt (path : List (Nat × List Nat)) (node : Nat) : List Nat :=
  node :: ((path.takeWhile fun frame => frame.1 != node).map Prod.fst).reverse ++ [node]

def unvisited (d : Descent) : Nat := d.marks.countP (· == .unvisited)

/-- The nodes of the path and the edges that are still to be followed from them. -/
def pending (d : Descent) : Nat := d.path.length + (d.path.flatMap Prod.snd).length

theorem unvisited_enter_lt {d : Descent} {node : Nat} {edges : List Nat}
    (fresh : d.marks[node]? = some .unvisited) : (d.enter node edges).unvisited < d.unvisited := by
  obtain ⟨inside, value⟩ := List.getElem?_eq_some_iff.1 fresh
  have counted : 0 < d.marks.countP (· == .unvisited) :=
    List.countP_pos_iff.2 ⟨.unvisited, value ▸ List.getElem_mem inside, rfl⟩
  have opened : (Mark.open == Mark.unvisited) = false := rfl
  have unseen : (Mark.unvisited == Mark.unvisited) = true := rfl
  simp only [unvisited, enter, List.countP_set inside, value, opened, unseen, Bool.false_eq_true,
    ↓reduceIte]
  omega

end Descent

/-- Follows the first edge of the last node of the path, until the path is used up. An edge to an
open node closes a cycle. -/
def descend (g : Digraph) (d : Descent) : Descent :=
  match _front : d.path with
  | [] => d
  | (node, []) :: rest =>
    g.descend { d with marks := d.marks.set node .closed, path := rest }
  | (node, target :: edges) :: rest =>
    let followed : Descent := { d with path := (node, edges) :: rest }
    match _fresh : d.marks[target]? with
    | some .unvisited => g.descend (followed.enter target (g.next target))
    | some .open =>
      g.descend { followed with cycles := Descent.cycleAt d.path target :: d.cycles }
    | _ => g.descend followed
termination_by (d.unvisited, d.pending)
decreasing_by
  -- Closing a node uncovers no other one, and the path gets shorter by it.
  · have fewer : (d.marks.set node .closed).countP (· == .unvisited) ≤ d.unvisited := by
      by_cases inside : node < d.marks.length
      · rw [List.countP_set inside]
        simp [Descent.unvisited]
      · rw [List.set_eq_of_length_le (by omega)]
        exact Nat.le_refl _
    have shorter : rest.length + (rest.flatMap Prod.snd).length < d.pending := by
      simp [Descent.pending, _front]
    rcases Nat.lt_or_eq_of_le fewer with less | same
    · exact Prod.Lex.left _ _ less
    · simp only [Descent.unvisited, Descent.pending] at *
      rw [same]
      exact Prod.Lex.right _ shorter
  -- Entering a node leaves fewer of them unvisited, however many edges it brings.
  · exact Prod.Lex.left _ _ (Descent.unvisited_enter_lt (d := followed) _fresh)
  -- In the other two cases nothing changes but the edge, which is used up.
  · apply Prod.Lex.right
    simp [Descent.pending, _front]
  · apply Prod.Lex.right
    simp [Descent.pending, _front]

/-- Starts at a node that no search has reached yet. -/
def descendFrom (g : Digraph) (d : Descent) (start : Nat) : Descent :=
  if d.marks[start]? = some .unvisited then g.descend (d.enter start (g.next start)) else d

/-- One closed path for each edge that leads back to a node on the path of the search, which starts
at the nodes in their order. -/
def cycles (g : Digraph) : List (List Nat) :=
  let start : Descent := ⟨List.replicate g.size .unvisited, [], []⟩
  ((List.range g.size).foldl g.descendFrom start).cycles.reverse

end Digraph

end Hearth
