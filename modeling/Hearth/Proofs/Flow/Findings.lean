import Mathlib
import Hearth.Flow.Report
import Hearth.Proofs.Flow.Cycles

/-!
# Hearth.Proofs.Flow.Findings

What the report about a flow says, in terms of its nodes and connections.

The checks number the nodes and search a graph of the numbers. Here the nodes are known by their places in
the flow, and an identifier that several nodes have stands for the first of them.

## Main definitions

- `Flow.Leads`: a connection leads from one node to another.
- `Flow.IsRoot`, `Flow.Reached`: where a run may begin, and where it may get from there.

## Main results

- `report_lists`: the errors, the warnings and when a flow is valid.
- `cycles_reported`: the search finds a cycle exactly if there is one, and the report warns of it.
-/

namespace Hearth.Flow

open Relation

/-- No earlier node has the identifier of this one, which thus stands for this one. -/
def IsFirst (f : Flow) (i : Fin f.nodes.length) : Prop := ∀ k < i, f.nodes[k].id ≠ f.nodes[i].id

/-- One of the connections of a node names another node. -/
def Leads (f : Flow) (i j : Fin f.nodes.length) : Prop :=
  f.nodes[j].id ∈ f.nodes[i].connections ∧ f.IsFirst j

/-- A trigger to which no connection leads. -/
def IsRoot (f : Flow) (i : Fin f.nodes.length) : Prop :=
  f.nodes[i].role = .trigger ∧ ∀ j, ¬ f.Leads j i

/-- A path of connections leads to the node from a root. -/
def Reached (f : Flow) (i : Fin f.nodes.length) : Prop :=
  ∃ root, f.IsRoot root ∧ ReflTransGen f.Leads root i

variable {f : Flow} {i j : Fin f.nodes.length}

/-! ### The graph of a flow -/

theorem position?_eq_some_iff {id : NodeId} {k : Nat} :
    f.position? id = some k ↔ ∃ j, f.nodes[j].id = id ∧ f.IsFirst j ∧ j.val = k := by
  rw [position?, List.findIdx?_eq_some_iff_getElem]
  constructor
  · rintro ⟨inside, found, first⟩
    have same : f.nodes[k].id = id := by simpa using found
    refine ⟨⟨k, inside⟩, same, fun l earlier again => ?_, rfl⟩
    exact first l.val earlier (by simpa using again.trans same)
  · rintro ⟨j, rfl, first, rfl⟩
    refine ⟨j.isLt, by simp, fun l earlier again => ?_⟩
    exact first ⟨l, by omega⟩ earlier (by simpa using again)

theorem mem_knownTargets_iff {n : FlowNode} {k : Nat} :
    k ∈ f.knownTargets n ↔ ∃ j, (f.nodes[j].id ∈ n.connections ∧ f.IsFirst j) ∧ j.val = k := by
  rw [knownTargets, List.mem_filterMap]
  constructor
  · rintro ⟨id, connected, known⟩
    obtain ⟨j, rfl, first, place⟩ := position?_eq_some_iff.1 known
    exact ⟨j, ⟨connected, first⟩, place⟩
  · rintro ⟨j, ⟨connected, first⟩, place⟩
    exact ⟨_, connected, position?_eq_some_iff.2 ⟨j, rfl, first, place⟩⟩

theorem hasEdge_iff {a b : Nat} :
    f.graph.HasEdge a b ↔ ∃ i j, f.Leads i j ∧ i.val = a ∧ j.val = b := by
  have edges : f.graph.next a = (f.nodes[a]?.map f.knownTargets).getD [] := by
    rw [graph, Digraph.next, List.getElem?_map]
  rw [Digraph.HasEdge, edges]
  constructor
  · intro edge
    have inside : a < f.nodes.length := by
      refine Nat.lt_of_not_le fun outside => ?_
      simp [List.getElem?_eq_none outside] at edge
    rw [List.getElem?_eq_getElem inside] at edge
    obtain ⟨j, leads, place⟩ := mem_knownTargets_iff.1 edge
    exact ⟨⟨a, inside⟩, j, leads, rfl, place⟩
  · rintro ⟨i, j, leads, rfl, place⟩
    rw [List.getElem?_eq_getElem i.isLt]
    exact mem_knownTargets_iff.2 ⟨j, leads, place⟩

theorem hasEdge_val : f.graph.HasEdge i j ↔ f.Leads i j := by
  rw [hasEdge_iff]
  constructor
  · rintro ⟨i', j', leads, same_i, same_j⟩
    rwa [← Fin.ext same_i, ← Fin.ext same_j]
  · exact fun leads => ⟨i, j, leads, rfl, rfl⟩

theorem path_val : f.graph.Path i j ↔ ReflTransGen f.Leads i j := by
  constructor
  · intro path
    generalize target : j.val = b at path
    induction path generalizing j with
    | refl => rw [Fin.ext target]
    | tail _ edge ih =>
      obtain ⟨k, j', leads, rfl, rfl⟩ := hasEdge_iff.1 edge
      rw [Fin.ext target]
      exact (ih rfl).tail leads
  · exact fun path => path.lift Fin.val fun _ _ => hasEdge_val.2

theorem exists_transGen_iff :
    (∃ node, TransGen f.graph.HasEdge node node) ↔ ∃ i, TransGen f.Leads i i := by
  constructor
  · rintro ⟨node, cycle⟩
    obtain ⟨next, edge, back⟩ := TransGen.head'_iff.1 cycle
    obtain ⟨i, j, leads, rfl, rfl⟩ := hasEdge_iff.1 edge
    exact ⟨i, TransGen.head' leads (path_val.1 back)⟩
  · rintro ⟨i, cycle⟩
    exact ⟨i, cycle.lift Fin.val fun _ _ => hasEdge_val.2⟩

/-! ### Roots and what is reached from them -/

theorem unled_iff : (f.graph.targets.any fun targets => targets.contains i.val) = false ↔
    ∀ j, ¬ f.Leads j i := by
  simp only [graph, List.any_eq_false, List.forall_mem_map, List.contains_iff_mem,
    mem_knownTargets_iff]
  constructor
  · exact fun unled j leads => unled f.nodes[j] (List.getElem_mem _) ⟨i, leads, rfl⟩
  · rintro unled n member ⟨i', leads, same⟩
    obtain ⟨j, inside, rfl⟩ := List.getElem_of_mem member
    cases Fin.ext same
    exact unled ⟨j, inside⟩ leads

theorem mem_rootPositions_iff {k : Nat} :
    k ∈ f.rootPositions ↔ ∃ i, f.IsRoot i ∧ i.val = k := by
  have asRoot (i : Fin f.nodes.length) : ((f.nodes[i.val]?.map FlowNode.role) == some .trigger
      && !(f.graph.targets.any fun targets => targets.contains i.val)) = true ↔ f.IsRoot i := by
    rw [List.getElem?_eq_getElem i.isLt, Bool.and_eq_true, Bool.not_eq_true', unled_iff]
    simp [IsRoot]
  rw [rootPositions, List.mem_filter, List.mem_range]
  constructor
  · rintro ⟨inside, root⟩
    exact ⟨⟨k, inside⟩, (asRoot ⟨k, inside⟩).1 root, rfl⟩
  · rintro ⟨i, root, rfl⟩
    exact ⟨i.isLt, (asRoot i).2 root⟩

theorem rootPositions_eq_nil_iff : f.rootPositions = [] ↔ ¬ ∃ i, f.IsRoot i := by
  simp only [List.eq_nil_iff_forall_not_mem, mem_rootPositions_iff]
  constructor
  · rintro none ⟨i, root⟩
    exact none i ⟨i, root, rfl⟩
  · rintro none k ⟨i, root, -⟩
    exact none ⟨i, root⟩

/-- The search marks exactly the nodes that are reached. -/
theorem reachable_iff_reached :
    (f.graph.reachable f.rootPositions)[i.val]? = some true ↔ f.Reached i := by
  have inside : i.val < f.graph.size := by simp [Digraph.size, graph]
  rw [Digraph.reachable_iff, and_iff_right inside]
  constructor
  · rintro ⟨k, position, path⟩
    obtain ⟨root, isRoot, rfl⟩ := mem_rootPositions_iff.1 position
    exact ⟨root, isRoot, path_val.1 path⟩
  · rintro ⟨root, isRoot, path⟩
    exact ⟨root, mem_rootPositions_iff.2 ⟨root, isRoot, rfl⟩, path_val.2 path⟩

/-! ### What is listed -/

section

variable {α : Type} (x : α) {xs : List α}

open Classical in
/-- The elements of a list at the places of which `keep` holds, in their order. -/
noncomputable def pick (xs : List α) (keep : Fin xs.length → Prop) : List α :=
  ((List.finRange xs.length).filter fun i => keep i).map fun i => xs[i]

theorem pick_congr {keep keep' : Fin xs.length → Prop} (same : ∀ i, keep i ↔ keep' i) :
    pick xs keep = pick xs keep' := by
  rw [funext fun i => propext (same i)]

open Classical in
theorem pick_cons (keep : Fin (x :: xs).length → Prop) :
    pick (x :: xs) keep =
      (if keep 0 then [x] else []) ++ pick xs fun i => keep i.succ := by
  have places : List.finRange (x :: xs).length = 0 :: (List.finRange xs.length).map Fin.succ :=
    List.finRange_succ
  rw [pick, pick, places, List.filter_cons, List.filter_map, Function.comp_def]
  by_cases first : keep 0 <;> simp [first]

theorem pick_eq_nil_iff {keep : Fin xs.length → Prop} : pick xs keep = [] ↔ ∀ i, ¬ keep i := by
  simp [pick, List.filter_eq_nil_iff]

end

theorem repeatedNodes_eq (earlier : List NodeId) (nodes : List FlowNode) :
    repeatedNodes earlier nodes =
      pick nodes fun i => nodes[i].id ∈ earlier ∨ nodes[i].id ∈ (nodes.take i).map FlowNode.id := by
  induction nodes generalizing earlier with
  | nil => rfl
  | cons n rest ih =>
    rw [pick_cons, repeatedNodes]
    simp only [List.contains_iff_mem, Fin.getElem_fin, Fin.val_zero, Fin.val_succ,
      List.getElem_cons_zero, List.getElem_cons_succ, List.take_zero, List.take_succ_cons,
      List.map_nil, List.map_cons, List.not_mem_nil, List.mem_cons, or_false]
    by_cases known : n.id ∈ earlier
    · rw [if_pos known, if_pos known, ih, List.singleton_append, pick_congr fun i => ?_]
      -- The first node has brought nothing new.
      have nothing : rest[i].id = n.id → rest[i].id ∈ earlier := fun same => same ▸ known
      constructor
      · exact Or.imp_right .inr
      · rintro (before | same | again)
        · exact .inl before
        · exact .inl (nothing same)
        · exact .inr again
    · rw [if_neg known, if_neg known, ih, List.nil_append, pick_congr fun i => ?_]
      simp only [List.mem_cons, or_assoc, or_left_comm]
      rfl

theorem unreached_eq (nodes : List FlowNode) (marks : List Bool)
    (same : marks.length = nodes.length) :
    ((nodes.zip marks).filter fun (_, reached) => !reached).map Prod.fst =
      pick nodes fun i => marks[i.val]? ≠ some true := by
  induction nodes generalizing marks with
  | nil => rfl
  | cons n rest ih =>
    match marks, same with
    | mark :: marks, same =>
      rw [pick_cons, List.zip_cons_cons, List.filter_cons]
      have shorter : marks.length = rest.length := Nat.succ.inj same
      cases mark with
      | true => simpa using ih marks shorter
      | false => simpa using ih marks shorter

theorem unreachedNodes_eq : f.unreachedNodes = pick f.nodes fun i => ¬ f.Reached i := by
  have size : (f.graph.reachable f.rootPositions).length = f.nodes.length := by
    simp [Digraph.length_reachable, Digraph.size, graph]
  simp only [unreachedNodes, unreached_eq f.nodes _ size, ne_eq, reachable_iff_reached]

theorem repeatedNodes_nil : repeatedNodes [] f.nodes = pick f.nodes fun i => ¬ f.IsFirst i := by
  rw [repeatedNodes_eq]
  refine pick_congr fun i => ?_
  simp only [List.not_mem_nil, false_or, IsFirst, not_forall, not_not]
  constructor
  · intro again
    obtain ⟨k, inside, same⟩ := List.getElem_of_mem again
    simp only [List.length_map, List.length_take, lt_inf_iff, List.getElem_map, List.getElem_take]
      at inside same
    exact ⟨⟨k, inside.2⟩, inside.1, same⟩
  · rintro ⟨k, earlier, same⟩
    rw [← same]
    exact List.mem_map_of_mem (List.mem_take_iff_getElem.2 ⟨k, by omega, rfl⟩)

theorem nodup_iff : (f.nodes.map FlowNode.id).Nodup ↔ ∀ i, f.IsFirst i := by
  rw [List.Nodup, List.pairwise_map, List.pairwise_iff_getElem]
  constructor
  · exact fun distinct i k earlier => distinct k i k.isLt i.isLt earlier
  · exact fun first k i inside inside' earlier => first ⟨i, inside'⟩ ⟨k, inside⟩ earlier

theorem unknownConnections_eq : f.unknownConnections = f.nodes.flatMap fun n =>
    (n.connections.filter fun id => id ∉ f.nodes.map FlowNode.id).map (.unknownConnection n.id) := by
  have unknown (id : NodeId) : (f.position? id).isNone = decide (id ∉ f.nodes.map FlowNode.id) := by
    rw [Bool.eq_iff_iff, Option.isNone_iff_eq_none, position?, List.findIdx?_eq_none_iff,
      decide_eq_true_iff]
    simp
  simp only [unknownConnections, unknown]

theorem report_of_nodes (filled : f.nodes ≠ []) :
    f.report.errors = (pick f.nodes fun i => ¬ f.IsFirst i).map (fun n => .duplicateNode n.id)
      ++ (open Classical in if ∃ i, f.IsRoot i then [] else [.noTriggerRoot]) ∧
    f.report.warnings =
      (f.nodes.flatMap fun n => (n.connections.filter fun id => id ∉ f.nodes.map FlowNode.id).map
        (.unknownConnection n.id))
      ++ (pick f.nodes fun i => ¬ f.Reached i).map (fun n => .disconnected n.id)
      ++ f.cyclePaths.map .cycle := by
  have nodes : ¬ f.nodes.isEmpty = true := by simpa using filled
  rw [report, if_neg nodes, repeatedNodes_nil, unknownConnections_eq, unreachedNodes_eq]
  refine ⟨?_, rfl⟩
  by_cases rooted : ∃ i, f.IsRoot i
  · have some : ¬ f.rootPositions.isEmpty = true := by
      rw [List.isEmpty_iff, rootPositions_eq_nil_iff]
      exact not_not_intro rooted
    simp only [if_pos rooted, if_neg some]
  · have none : f.rootPositions.isEmpty = true := by
      rw [List.isEmpty_iff, rootPositions_eq_nil_iff]
      exact rooted
    simp only [if_neg rooted, if_pos none]

theorem isValid_iff : f.report.isValid = true ↔
    f.nodes ≠ [] ∧ (f.nodes.map FlowNode.id).Nodup ∧ ∃ i, f.IsRoot i := by
  by_cases filled : f.nodes = []
  · simp [FlowReport.isValid, report, filled]
  · have distinct : (pick f.nodes fun i => ¬ f.IsFirst i) = [] ↔ (f.nodes.map FlowNode.id).Nodup := by
      simp only [pick_eq_nil_iff, not_not, nodup_iff]
    rw [FlowReport.isValid, List.isEmpty_iff, (report_of_nodes filled).1, List.append_eq_nil_iff,
      List.map_eq_nil_iff, distinct]
    by_cases rooted : ∃ i, f.IsRoot i
    · simp [filled, rooted]
    · simp [rooted]

/-- The report lists, in the order of the nodes, each node of which an earlier one has the identifier,
each connection that names no node, and each node that is not reached from any root; and it says so if
there is no root. A flow is valid if it has nodes, of distinct identifiers, and a root. -/
theorem report_lists (f : Flow) :
    (f.nodes ≠ [] →
      f.report.errors = (pick f.nodes fun i => ¬ f.IsFirst i).map (fun n => .duplicateNode n.id)
        ++ (open Classical in if ∃ i, f.IsRoot i then [] else [.noTriggerRoot]) ∧
      ∃ cycles : List (List NodeId), f.report.warnings =
        (f.nodes.flatMap fun n => (n.connections.filter fun id => id ∉ f.nodes.map FlowNode.id).map
          (.unknownConnection n.id))
        ++ (pick f.nodes fun i => ¬ f.Reached i).map (fun n => .disconnected n.id)
        ++ cycles.map .cycle) ∧
    (∀ i : Fin f.nodes.length,
      (f.graph.reachable f.rootPositions)[i]? = some true ↔ f.Reached i) ∧
    (f.report.isValid = true ↔
      f.nodes ≠ [] ∧ (f.nodes.map FlowNode.id).Nodup ∧ ∃ i, f.IsRoot i) := by
  refine ⟨fun filled => ?_, fun i => reachable_iff_reached, isValid_iff⟩
  obtain ⟨errors, warnings⟩ := report_of_nodes filled
  exact ⟨errors, f.cyclePaths, warnings⟩

/-- Two nodes of one identifier, a connection to no node, and a node that only the second of the two
leads to. -/
def jumbledFlow : Flow :=
  { id := ⟨.nil⟩, name := "jumbled", enabled := true
    nodes :=
      [⟨⟨"start"⟩, .trigger, "manual", [], [⟨"lamp"⟩, ⟨"gone"⟩]⟩,
        ⟨⟨"lamp"⟩, .delay, "wait", [], []⟩,
        ⟨⟨"lamp"⟩, .delay, "wait", [], [⟨"attic"⟩]⟩,
        ⟨⟨"attic"⟩, .delay, "wait", [], []⟩] }

theorem report_lists_jumbledFlow :
    jumbledFlow.nodes ≠ [] ∧
    (pick jumbledFlow.nodes fun i => ¬ jumbledFlow.IsFirst i).map (fun n => .duplicateNode n.id)
      ++ (open Classical in if ∃ i, jumbledFlow.IsRoot i then [] else [.noTriggerRoot]) =
      [FlowIssue.duplicateNode ⟨"lamp"⟩] ∧
    (∀ i : Fin 4, jumbledFlow.Reached i ↔ i < 2) ∧
    ¬ (jumbledFlow.nodes.map FlowNode.id).Nodup := by
  have filled : jumbledFlow.nodes ≠ [] := by decide
  have marks : jumbledFlow.graph.reachable jumbledFlow.rootPositions =
      [true, true, false, false] := by cbv
  obtain ⟨listed, reached, valid⟩ := report_lists jumbledFlow
  refine ⟨filled, (listed filled).1.symm.trans (by decide), fun i => ?_, fun distinct => ?_⟩
  · rw [← reached i, marks]
    revert i
    decide
  · revert distinct
    decide

/-! ### Cycles -/

theorem mem_cyclePaths_iff {path : List NodeId} : path ∈ f.cyclePaths ↔
    ∃ places : List (Fin f.nodes.length), places.map Fin.val ∈ f.graph.cycles ∧
      path = places.map fun i => f.nodes[i].id := by
  have named (places : List (Fin f.nodes.length)) :
      (places.map Fin.val).filterMap (fun i => f.nodes[i]?.map FlowNode.id) =
        places.map fun i => f.nodes[i].id := by
    simp [List.filterMap_map]
  rw [cyclePaths, List.mem_map]
  constructor
  · rintro ⟨numbers, listed, rfl⟩
    have inside (k : Nat) (member : k ∈ numbers) : k < f.nodes.length := by
      obtain ⟨_, edge⟩ := (Digraph.closedPath_of_mem_cycles listed).exists_edge member
      simpa [Digraph.size, graph] using edge.source_lt
    obtain ⟨places, rfl⟩ : ∃ places : List (Fin f.nodes.length), places.map Fin.val = numbers :=
      ⟨numbers.pmap Fin.mk inside, by simp [List.map_pmap]⟩
    exact ⟨places, listed, named places⟩
  · rintro ⟨places, listed, rfl⟩
    exact ⟨_, listed, named places⟩

theorem mem_cycle_warnings_iff {path : List NodeId} :
    .cycle path ∈ f.report.warnings ↔ path ∈ f.cyclePaths := by
  by_cases filled : f.nodes = []
  · have none : f.cyclePaths = [] := by
      simp [cyclePaths, graph, filled, Digraph.cycles, Digraph.size]
    simp [report, filled, none]
  · simp [(report_of_nodes filled).2]

/-- On any graph, each cycle that the search finds is a path of edges which ends where it begins and
repeats no other node, and it finds one exactly if the graph has a cycle. So the report warns of a cycle
exactly if connections of the flow make one, and it names the nodes along such a cycle. -/
theorem cycles_reported :
    (∀ g : Digraph, (∀ path ∈ g.cycles, ClosedPath g.HasEdge path) ∧
      (g.cycles ≠ [] ↔ ∃ node, TransGen g.HasEdge node node)) ∧
    ∀ f : Flow,
      (∀ path, .cycle path ∈ f.report.warnings → ∃ places, ClosedPath f.Leads places ∧
        path = places.map fun i => f.nodes[i].id) ∧
      ((∃ path, .cycle path ∈ f.report.warnings) ↔ ∃ i, TransGen f.Leads i i) := by
  refine ⟨fun g => ⟨fun path => Digraph.closedPath_of_mem_cycles, g.cycles_ne_nil_iff⟩,
    fun f => ⟨fun path warned => ?_, ?_⟩⟩
  · obtain ⟨places, listed, named⟩ := mem_cyclePaths_iff.1 (mem_cycle_warnings_iff.1 warned)
    refine ⟨places, (Digraph.closedPath_of_mem_cycles listed).of_map Fin.val_injective ?_, named⟩
    exact fun _ _ => hasEdge_val.1
  · rw [← exists_transGen_iff, ← f.graph.cycles_ne_nil_iff]
    constructor
    · rintro ⟨path, warned⟩
      obtain ⟨places, listed, -⟩ := mem_cyclePaths_iff.1 (mem_cycle_warnings_iff.1 warned)
      exact List.ne_nil_of_mem listed
    · intro found
      obtain ⟨numbers, listed⟩ := List.exists_mem_of_ne_nil _ found
      exact ⟨_, mem_cycle_warnings_iff.2 (List.mem_map_of_mem listed)⟩

/-- A node that leads to itself and lies on a larger cycle as well. -/
def carousel : Flow :=
  { id := ⟨.nil⟩, name := "carousel", enabled := true
    nodes :=
      [⟨⟨"start"⟩, .trigger, "manual", [], [⟨"horse"⟩]⟩,
        ⟨⟨"horse"⟩, .delay, "wait", [], [⟨"horse"⟩, ⟨"swan"⟩]⟩,
        ⟨⟨"swan"⟩, .delay, "wait", [], [⟨"horse"⟩]⟩] }

theorem cycles_reported_carousel :
    [1, 2, 1] ∈ carousel.graph.cycles ∧ ClosedPath carousel.graph.HasEdge [1, 2, 1] ∧
    .cycle [⟨"horse"⟩, ⟨"swan"⟩, ⟨"horse"⟩] ∈ carousel.report.warnings ∧
    (∃ places, ClosedPath carousel.Leads places ∧
      [⟨"horse"⟩, ⟨"swan"⟩, ⟨"horse"⟩] = places.map fun i => carousel.nodes[i].id) ∧
    ∃ i, TransGen carousel.Leads i i := by
  have cycles : carousel.graph.cycles = [[1, 1], [1, 2, 1]] := by cbv
  have warnings : carousel.report.warnings =
      [.cycle [⟨"horse"⟩, ⟨"horse"⟩], .cycle [⟨"horse"⟩, ⟨"swan"⟩, ⟨"horse"⟩]] := by cbv
  obtain ⟨searched, reported⟩ := cycles_reported
  obtain ⟨named, warned⟩ := reported carousel
  have listed : [1, 2, 1] ∈ carousel.graph.cycles := by simp [cycles]
  have larger : .cycle [⟨"horse"⟩, ⟨"swan"⟩, ⟨"horse"⟩] ∈ carousel.report.warnings := by
    simp [warnings]
  exact ⟨listed, (searched carousel.graph).1 _ listed, larger, named _ larger, warned.1 ⟨_, larger⟩⟩

end Hearth.Flow
