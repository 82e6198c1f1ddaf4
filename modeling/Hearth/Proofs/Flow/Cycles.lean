import Hearth.Proofs.Flow.Exploration
import Mathlib.Data.List.Chain
import Mathlib.Data.List.Nodup

/-!
# Hearth.Proofs.Flow.Cycles

The search in depth finds a cycle exactly if there is one.

## Main definition

`ClosedPath`: a path of edges that ends where it begins and meets no other node twice.

## Main results

- `closedPath_of_mem_cycles`: whatever the search lists is a closed path.
- `cycles_ne_nil_iff`: the search lists something if and only if the graph has a cycle.

## Proof strategy

The path of a search holds the open nodes and no others, each with an edge to the next one. So an edge
to an open node closes a path, which begins at that node.

As long as no such edge has been met, the edges of a node lead to nodes that were closed before it. From
a closed node only closed ones can be reached then. A node is closed last of all that it leads to, so it
lies on no cycle. In the end every node is closed.
-/

namespace Hearth

open Relation

/-- A path of at least one edge that ends where it begins and meets no other node twice. -/
structure ClosedPath {α : Type} (edge : α → α → Prop) (path : List α) : Prop where
  long : 2 ≤ path.length
  closed : path.head? = path.getLast?
  once : path.dropLast.Nodup
  edges : path.IsChain edge

namespace ClosedPath

variable {α : Type} {edge : α → α → Prop} {path : List α}

/-- Going on from the end of a path to a node that it has passed closes the part in between. -/
theorem of_back {above below : List α} {node : α}
    (linked : (above ++ node :: below).IsChain fun later earlier => edge earlier later)
    (once : (above ++ node :: below).Nodup)
    (back : ∀ last ∈ (above ++ node :: below).head?, edge last node) :
    ClosedPath edge (node :: above.reverse ++ [node]) := by
  have part : above ++ [node] <+: above ++ node :: below := ⟨below, by simp⟩
  have backwards : node :: above.reverse = (above ++ [node]).reverse := by simp
  refine ⟨by simp, List.getLast?_concat.symm, ?_, ?_⟩
  · rw [List.dropLast_concat, backwards, List.nodup_reverse]
    exact once.sublist part.sublist
  · rw [backwards]
    have upwards : (above ++ [node]).IsChain fun later earlier => edge earlier later :=
      List.IsChain.prefix linked part
    refine (List.isChain_reverse.2 upwards).append (List.isChain_singleton node) ?_
    intro last atEnd first isNode
    cases isNode
    -- The path is listed from its last node to its first.
    refine back last ?_
    rw [List.getLast?_reverse] at atEnd
    cases above with
    | nil => exact atEnd
    | cons => exact atEnd

theorem transGen (closed : ClosedPath edge path) : ∃ node, TransGen edge node node := by
  obtain ⟨long, same, -, edges⟩ := closed
  match path, long with
  | a :: b :: rest, _ =>
    obtain ⟨first, later⟩ := List.isChain_cons_cons.1 edges
    have onward : ReflTransGen edge b ((b :: rest).getLast (List.cons_ne_nil b rest)) :=
      List.relationReflTransGen_of_exists_isChain (b :: rest) later (List.cons_ne_nil b rest)
    have back : (b :: rest).getLast (List.cons_ne_nil b rest) = a := by
      simpa [List.getLast?_eq_some_getLast] using same.symm
    exact ⟨a, TransGen.head' first (back ▸ onward)⟩

/-- A closed path goes on from each of its nodes. -/
theorem exists_edge (closed : ClosedPath edge path) {node : α} (member : node ∈ path) :
    ∃ next, edge node next := by
  obtain ⟨long, same, -, edges⟩ := closed
  obtain ⟨i, inside, rfl⟩ := List.getElem_of_mem member
  by_cases last : i + 1 < path.length
  · exact ⟨path[i + 1], edges.getElem i last⟩
  · -- The last node is the first one, from which there is an edge.
    have first : path[i] = path[0] := by
      rw [List.head?_eq_getElem?, List.getLast?_eq_getElem?] at same
      have end_i : path.length - 1 = i := by omega
      rw [end_i, List.getElem?_eq_getElem inside, List.getElem?_eq_getElem (by omega)] at same
      exact (Option.some.inj same).symm
    exact ⟨path[1], first ▸ edges.getElem 0 (by omega)⟩

/-- A path is closed if its nodes under other names make up a closed path. -/
theorem of_map {β : Type} {edge' : β → β → Prop} {name : α → β} (inj : Function.Injective name)
    (edges : ∀ a b, edge' (name a) (name b) → edge a b) (closed : ClosedPath edge' (path.map name)) :
    ClosedPath edge path where
  long := (List.length_map name).symm ▸ closed.long
  closed := Option.map_injective inj (by simpa using closed.closed)
  once := .of_map name (List.map_dropLast ▸ closed.once)
  edges := List.isChain_of_isChain_map name edges closed.edges

end ClosedPath

namespace Digraph

namespace Descent

def nodes (d : Descent) : List Nat := d.path.map Prod.fst

theorem closedPath_cycleAt {g : Digraph} {path : List (Nat × List Nat)} {target : Nat}
    (linked : (path.map Prod.fst).IsChain fun later earlier => g.HasEdge earlier later)
    (once : (path.map Prod.fst).Nodup) (passed : target ∈ path.map Prod.fst)
    (back : ∀ last ∈ (path.map Prod.fst).head?, g.HasEdge last target) :
    ClosedPath g.HasEdge (cycleAt path target) := by
  have cut : cycleAt path target =
      target :: ((path.map Prod.fst).takeWhile (· != target)).reverse ++ [target] := by
    rw [cycleAt, List.takeWhile_map]
    rfl
  rw [cut]
  obtain ⟨above, below, split, absent⟩ := List.eq_append_cons_of_mem passed
  rw [split] at linked once back ⊢
  have front : (above ++ target :: below).takeWhile (· != target) = above := by
    rw [List.takeWhile_append_of_pos fun node member => by
      simpa using ne_of_mem_of_not_mem member absent]
    simp
  rw [front]
  exact .of_back linked once back

/-! ### The path of a search -/

/-- The path holds the open nodes and is linked by edges, and what was found are closed paths. -/
structure Sound (g : Digraph) (d : Descent) : Prop where
  size : d.marks.length = g.size
  opened : ∀ i, d.marks[i]? = some .open ↔ i ∈ d.nodes
  once : d.nodes.Nodup
  linked : d.nodes.IsChain fun later earlier => g.HasEdge earlier later
  onward : ∀ frame ∈ d.path, ∀ target ∈ frame.2, g.HasEdge frame.1 target
  found : ∀ path ∈ d.cycles, ClosedPath g.HasEdge path

namespace Sound

variable {g : Digraph} {d : Descent} {marks : List Mark} {node target : Nat} {edges : List Nat}
  {rest : List (Nat × List Nat)} {cycles : List (List Nat)}

theorem close (sound : Sound g ⟨marks, (node, []) :: rest, cycles⟩) :
    Sound g ⟨marks.set node .closed, rest, cycles⟩ := by
  obtain ⟨fresh, once⟩ := List.nodup_cons.1 sound.once
  refine ⟨List.length_set.trans sound.size, fun i => ?_, once, sound.linked.tail, ?_, sound.found⟩
  · have before := sound.opened i
    by_cases same : i = node
    · subst same
      simp only [List.getElem?_set_self', Option.map_eq_map, nodes]
      constructor
      · intro opened
        cases marked : marks[i]? <;> simp [marked] at opened
      · exact fun member => absurd member fresh
    · rw [List.getElem?_set_ne (Ne.symm same), before]
      simp [nodes, same]
  · exact fun frame later => sound.onward frame (List.mem_cons_of_mem _ later)

/-- An edge that is followed leaves the list of those that are still to be followed. -/
theorem follow (sound : Sound g ⟨marks, (node, target :: edges) :: rest, cycles⟩) :
    Sound g ⟨marks, (node, edges) :: rest, cycles⟩ ∧ g.HasEdge node target := by
  obtain ⟨first, others⟩ := List.forall_mem_cons.1 sound.onward
  obtain ⟨edge, later⟩ := List.forall_mem_cons.1 first
  exact ⟨⟨sound.size, sound.opened, sound.once, sound.linked,
    List.forall_mem_cons.2 ⟨later, others⟩, sound.found⟩, edge⟩

theorem enter (sound : Sound g d) (fresh : d.marks[target]? = some .unvisited)
    (edge : ∀ last ∈ d.nodes.head?, g.HasEdge last target) :
    Sound g (d.enter target (g.next target)) := by
  have inside : target < d.marks.length := (List.getElem?_eq_some_iff.1 fresh).1
  have absent : target ∉ d.nodes := by
    rw [← sound.opened, fresh]
    nofun
  refine ⟨List.length_set.trans sound.size, fun i => ?_, List.nodup_cons.2 ⟨absent, sound.once⟩,
    sound.linked.cons edge, List.forall_mem_cons.2 ⟨fun _ => id, sound.onward⟩, sound.found⟩
  have before := sound.opened i
  by_cases same : i = target
  · subst same
    simp [Descent.enter, nodes, inside]
  · simp only [Descent.enter, List.getElem?_set_ne (Ne.symm same), before, nodes, List.map_cons,
      List.mem_cons, same, false_or]

/-- An edge to an open node closes a path. -/
theorem closeCycle (sound : Sound g ⟨marks, (node, target :: edges) :: rest, cycles⟩)
    (opened : marks[target]? = some .open) :
    Sound g ⟨marks, (node, edges) :: rest,
      cycleAt ((node, target :: edges) :: rest) target :: cycles⟩ := by
  obtain ⟨followed, edge⟩ := sound.follow
  refine ⟨followed.size, followed.opened, followed.once, followed.linked, followed.onward, ?_⟩
  refine List.forall_mem_cons.2 ⟨?_, sound.found⟩
  refine closedPath_cycleAt sound.linked sound.once ((sound.opened target).1 opened) ?_
  intro last isLast
  cases isLast
  exact edge

end Sound

/-! ### What a search without a find has left behind -/

/-- A node is left behind if it is closed. What is no node of the graph has no edges either. -/
def Behind (marks : List Mark) (i : Nat) : Prop := marks[i]? = some .closed ∨ marks[i]? = none

theorem behind_set_closed {marks : List Mark} {node : Nat} (opened : marks[node]? = some .open)
    (i : Nat) : Behind (marks.set node .closed) i ↔ Behind marks i ∨ i = node := by
  have inside : node < marks.length := (List.getElem?_eq_some_iff.1 opened).1
  unfold Behind
  by_cases same : i = node
  · subst same
    simp [inside]
  · simp [List.getElem?_set_ne (Ne.symm same), same]

theorem behind_set_open {marks : List Mark} {node : Nat} (fresh : marks[node]? = some .unvisited)
    (i : Nat) : Behind (marks.set node .open) i ↔ Behind marks i := by
  have inside : node < marks.length := (List.getElem?_eq_some_iff.1 fresh).1
  unfold Behind
  by_cases same : i = node
  · subst same
    rw [List.getElem?_set_self inside, fresh]
    simp
  · rw [List.getElem?_set_ne (Ne.symm same)]

/-- Each edge from the path is still to be followed, or leads to a node that was met: one left behind or
one that comes later on the path. -/
def Accounted (g : Digraph) (met : Nat → Prop) : List (Nat × List Nat) → Prop
  | [] => True
  | (node, edges) :: rest =>
    (∀ target, g.HasEdge node target → target ∈ edges ∨ met target) ∧
      Accounted g (fun i => met i ∨ i = node) rest

namespace Accounted

variable {g : Digraph} {met : Nat → Prop}

theorem mono {met' : Nat → Prop} {path : List (Nat × List Nat)} (accounted : Accounted g met path)
    (more : ∀ i, met i → met' i) : Accounted g met' path := by
  induction path generalizing met met' with
  | nil => trivial
  | cons frame rest ih =>
    obtain ⟨here, below⟩ := accounted
    refine ⟨fun target edge => (here target edge).imp_right (more target), ih below fun i => ?_⟩
    exact Or.imp_left (more i)

theorem follow {node target : Nat} {edges : List Nat} {rest : List (Nat × List Nat)}
    (accounted : Accounted g met ((node, target :: edges) :: rest)) :
    Accounted g (fun i => met i ∨ i = target) ((node, edges) :: rest) := by
  obtain ⟨here, below⟩ := accounted
  refine ⟨fun other edge => ?_, below.mono fun i => Or.imp_left .inl⟩
  rcases here other edge with waiting | seen
  · rcases List.mem_cons.1 waiting with rfl | later
    · exact .inr (.inr rfl)
    · exact .inl later
  · exact .inr (.inl seen)

end Accounted

/-- No node that was left behind lies on a cycle, and only such nodes can be reached from there. -/
structure Clear (g : Digraph) (d : Descent) : Prop where
  acyclic : ∀ i, d.marks[i]? = some .closed → ¬ TransGen g.HasEdge i i
  stays : ∀ i j, Behind d.marks i → g.HasEdge i j → Behind d.marks j
  accounted : Accounted g (Behind d.marks) d.path

namespace Clear

variable {g : Digraph} {d : Descent} {marks : List Mark} {node target : Nat} {edges : List Nat}
  {rest : List (Nat × List Nat)} {cycles : List (List Nat)}

theorem behind_of_path (clear : Clear g d) {i j : Nat} (behind : Behind d.marks i)
    (path : g.Path i j) : Behind d.marks j := by
  induction path with
  | refl => exact behind
  | tail _ edge ih => exact clear.stays _ _ ih edge

theorem close (clear : Clear g ⟨marks, (node, []) :: rest, cycles⟩)
    (opened : marks[node]? = some .open) : Clear g ⟨marks.set node .closed, rest, cycles⟩ := by
  obtain ⟨here, below⟩ := clear.accounted
  have done (target : Nat) (edge : g.HasEdge node target) : Behind marks target :=
    (here target edge).resolve_left List.not_mem_nil
  refine ⟨fun i closed cycle => ?_, fun i j behind edge => ?_, below.mono fun i => ?_⟩
  · by_cases same : i = node
    · -- A way back to the node would stay among the nodes left behind, but the node is still open.
      subst same
      obtain ⟨next, edge, back⟩ := TransGen.head'_iff.1 cycle
      rcases clear.behind_of_path (done next edge) back with closed | missing
      · exact nomatch opened.symm.trans closed
      · exact nomatch opened.symm.trans missing
    · rw [List.getElem?_set_ne (Ne.symm same)] at closed
      exact clear.acyclic i closed cycle
  · rw [behind_set_closed opened] at behind ⊢
    rcases behind with earlier | rfl
    · exact .inl (clear.stays i j earlier edge)
    · exact .inl (done j edge)
  · exact (behind_set_closed opened i).2

theorem pass (clear : Clear g ⟨marks, (node, target :: edges) :: rest, cycles⟩)
    (behind : Behind marks target) : Clear g ⟨marks, (node, edges) :: rest, cycles⟩ := by
  refine ⟨clear.acyclic, clear.stays, clear.accounted.follow.mono ?_⟩
  rintro i (earlier | rfl)
  · exact earlier
  · exact behind

theorem enter (acyclic : ∀ i, d.marks[i]? = some .closed → ¬ TransGen g.HasEdge i i)
    (stays : ∀ i j, Behind d.marks i → g.HasEdge i j → Behind d.marks j)
    (accounted : Accounted g (fun i => Behind d.marks i ∨ i = target) d.path)
    (fresh : d.marks[target]? = some .unvisited) : Clear g (d.enter target (g.next target)) := by
  refine ⟨fun i closed => acyclic i ?_, fun i j behind edge => ?_, fun j => .inl, ?_⟩
  · by_cases same : i = target
    · subst same
      have inside : i < d.marks.length := (List.getElem?_eq_some_iff.1 fresh).1
      simp [Descent.enter, inside] at closed
    · simpa [Descent.enter, List.getElem?_set_ne (Ne.symm same)] using closed
  · simp only [Descent.enter, behind_set_open fresh] at behind ⊢
    exact stays i j behind edge
  · exact accounted.mono fun i => Or.imp_left (behind_set_open fresh i).2

end Clear

/-! ### A whole search -/

/-- What each round of a search keeps. -/
structure Kept (g : Digraph) (d : Descent) : Prop where
  sound : Sound g d
  clear : d.cycles = [] → Clear g d

theorem Kept.enter {g : Digraph} {d : Descent} {start : Nat} (kept : Kept g d) (usedUp : d.path = [])
    (fresh : d.marks[start]? = some .unvisited) : Kept g (d.enter start (g.next start)) := by
  refine ⟨kept.sound.enter fresh (by simp [nodes, usedUp]), fun none => ?_⟩
  have clear := kept.clear none
  refine .enter clear.acyclic clear.stays ?_ fresh
  rw [usedUp]
  trivial

end Descent

open Descent

variable {g : Digraph}

theorem descend_kept {d : Descent} (kept : Kept g d) :
    Kept g (g.descend d) ∧ (g.descend d).path = [] := by
  fun_induction descend g d with
  | case1 d front => exact ⟨kept, front⟩
  | case2 d node rest front ih =>
    obtain ⟨marks, path, cycles⟩ := d
    subst front
    have opened : marks[node]? = some .open := (kept.sound.opened node).2 List.mem_cons_self
    exact ih ⟨kept.sound.close, fun none => (kept.clear none).close opened⟩
  | case3 d node target edges rest front followed fresh ih =>
    obtain ⟨marks, path, cycles⟩ := d
    subst front
    obtain ⟨sound, edge⟩ := kept.sound.follow
    refine ih ⟨sound.enter fresh ?_, fun none => ?_⟩
    · intro last isLast
      cases isLast
      exact edge
    · have clear := kept.clear none
      exact .enter clear.acyclic clear.stays clear.accounted.follow fresh
  | case4 d node target edges rest front followed opened ih =>
    obtain ⟨marks, path, cycles⟩ := d
    subst front
    exact ih ⟨kept.sound.closeCycle opened, nofun⟩
  | case5 d node target edges rest front followed visited elsewhere ih =>
    obtain ⟨marks, path, cycles⟩ := d
    subst front
    refine ih ⟨kept.sound.follow.1, fun none => (kept.clear none).pass ?_⟩
    cases marked : marks[target]? with
    | none => exact .inr marked
    | some mark =>
      cases mark with
      | unvisited => exact absurd marked visited
      | «open» => exact absurd marked elsewhere
      | closed => exact .inl marked

/-! ### All searches -/

theorem visited_set {marks : List Mark} (mark : Mark) (other : mark ≠ .unvisited) (j : Nat)
    {i : Nat} (visited : marks[i]? ≠ some .unvisited) : (marks.set j mark)[i]? ≠ some .unvisited := by
  rw [List.getElem?_set]
  split
  · split
    · exact fun same => other (Option.some.inj same)
    · nofun
  · exact visited

/-- A search leaves no node unvisited that was visited before. -/
theorem visited_descend (g : Digraph) (d : Descent) {i : Nat}
    (visited : d.marks[i]? ≠ some .unvisited) : (g.descend d).marks[i]? ≠ some .unvisited := by
  fun_induction descend g d with
  | case1 d front => exact visited
  | case2 d node rest front ih => exact ih (visited_set .closed (by decide) node visited)
  | case3 d node target edges rest front followed fresh ih =>
    exact ih (visited_set .open (by decide) target visited)
  | case4 d node target edges rest front followed opened ih => exact ih visited
  | case5 d node target edges rest front followed _ _ ih => exact ih visited

/-- Between two searches the path is used up. -/
structure Rests (g : Digraph) (d : Descent) : Prop where
  kept : Kept g d
  usedUp : d.path = []

theorem Rests.descendFrom {d : Descent} (rests : Rests g d) (start : Nat) :
    Rests g (g.descendFrom d start) ∧ ∀ i, i = start ∨ d.marks[i]? ≠ some .unvisited →
      (g.descendFrom d start).marks[i]? ≠ some .unvisited := by
  unfold Digraph.descendFrom
  split
  · next fresh =>
    obtain ⟨kept, usedUp⟩ := descend_kept (rests.kept.enter rests.usedUp fresh)
    refine ⟨⟨kept, usedUp⟩, fun i known => visited_descend g _ ?_⟩
    rcases known with rfl | visited
    · have inside : i < d.marks.length := (List.getElem?_eq_some_iff.1 fresh).1
      simp [Descent.enter, inside]
    · exact visited_set .open (by decide) start visited
  · next visited =>
    refine ⟨rests, ?_⟩
    rintro i (rfl | before)
    · exact visited
    · exact before

theorem Rests.foldl_descendFrom {d : Descent} (rests : Rests g d) (starts : List Nat) :
    Rests g (starts.foldl g.descendFrom d) ∧ ∀ i, i ∈ starts ∨ d.marks[i]? ≠ some .unvisited →
      (starts.foldl g.descendFrom d).marks[i]? ≠ some .unvisited := by
  induction starts generalizing d with
  | nil => exact ⟨rests, fun i known => known.resolve_left List.not_mem_nil⟩
  | cons start others ih =>
    obtain ⟨next, visited⟩ := rests.descendFrom start
    obtain ⟨last, reached⟩ := ih next
    refine ⟨last, fun i known => reached i ?_⟩
    rw [List.mem_cons, or_assoc] at known
    rcases known with isStart | later | before
    · exact .inr (visited i (.inl isStart))
    · exact .inl later
    · exact .inr (visited i (.inr before))

theorem rests_start (g : Digraph) : Rests g ⟨List.replicate g.size .unvisited, [], []⟩ := by
  have unmarked (i : Nat) (mark : Mark) (other : mark ≠ .unvisited) :
      (List.replicate g.size Mark.unvisited)[i]? ≠ some mark := by
    rw [List.getElem?_replicate]
    split
    · exact fun same => other (Option.some.inj same).symm
    · nofun
  refine ⟨⟨⟨List.length_replicate, ?_, List.nodup_nil, List.isChain_nil, nofun, nofun⟩, ?_⟩, rfl⟩
  · exact fun i => ⟨fun opened => absurd opened (unmarked i .open nofun), nofun⟩
  · refine fun _ => ⟨fun i closed => absurd closed (unmarked i .closed nofun), ?_, trivial⟩
    rintro i j (closed | outside) edge
    · exact absurd closed (unmarked i .closed nofun)
    · have inside := edge.source_lt
      simp at outside
      omega

/-- All searches together leave every node of the graph closed. -/
theorem exists_searched (g : Digraph) : ∃ d, Kept g d ∧ d.cycles.reverse = g.cycles ∧
    ∀ i < g.size, d.marks[i]? = some .closed := by
  obtain ⟨rests, visited⟩ := (rests_start g).foldl_descendFrom (List.range g.size)
  generalize final : (List.range g.size).foldl g.descendFrom
    ⟨List.replicate g.size .unvisited, [], []⟩ = d at rests visited
  have sound := rests.kept.sound
  refine ⟨d, rests.kept, final ▸ rfl, fun i inside => ?_⟩
  obtain ⟨mark, marked⟩ : ∃ mark, d.marks[i]? = some mark :=
    ⟨_, List.getElem?_eq_getElem (sound.size.symm ▸ inside)⟩
  cases mark with
  | unvisited => exact absurd marked (visited i (.inl (List.mem_range.2 inside)))
  | «open» =>
    have onPath := (sound.opened i).1 marked
    rw [nodes, rests.usedUp] at onPath
    exact absurd onPath List.not_mem_nil
  | closed => exact marked

/-- The cycles that the search lists are closed paths. -/
theorem closedPath_of_mem_cycles {path : List Nat} (listed : path ∈ g.cycles) :
    ClosedPath g.HasEdge path := by
  obtain ⟨d, kept, cycles, -⟩ := exists_searched g
  rw [← cycles, List.mem_reverse] at listed
  exact kept.sound.found path listed

/-- The search lists a cycle if and only if the graph has one. -/
theorem cycles_ne_nil_iff (g : Digraph) : g.cycles ≠ [] ↔ ∃ node, TransGen g.HasEdge node node := by
  constructor
  · intro found
    obtain ⟨path, listed⟩ := List.exists_mem_of_ne_nil _ found
    exact (closedPath_of_mem_cycles listed).transGen
  · rintro ⟨node, cycle⟩ none
    obtain ⟨d, kept, cycles, closed⟩ := exists_searched g
    rw [none, List.reverse_eq_nil_iff] at cycles
    obtain ⟨_, edge, _⟩ := TransGen.head'_iff.1 cycle
    exact (kept.clear cycles).acyclic node (closed node edge.source_lt) cycle

end Digraph

end Hearth
