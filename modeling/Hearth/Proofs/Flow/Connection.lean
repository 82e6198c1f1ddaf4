import Mathlib
import Hearth.Proofs.Flow.Exploration
import Hearth.Proofs.Flow.Visits

/-!
# Hearth.Proofs.Flow.Connection

The report about a flow and a run of the flow agree on where a run can get.

The report numbers the nodes and looks for paths of edges between the numbers; a run knows nodes by
their identifiers and follows the connections. Where no identifier stands for two nodes, both speak of
the same graph.

## Main definition

`Flow.Connected`: a path of connections leads to a node from one of the roots.

## Main result

`run_connected`: of a flow without errors, the roots of a run are those of the report, and whatever a run
executes is connected to them, so that it is no node that the report calls disconnected.
-/

namespace Hearth

namespace Flow

/-- A connection leads from one identifier to another. -/
def Connects (f : Flow) (source target : NodeId) : Prop :=
  ∃ n ∈ f.nodes, n.id = source ∧ target ∈ n.connections

def Connected (f : Flow) (id : NodeId) : Prop :=
  ∃ root ∈ f.roots, Relation.ReflTransGen f.Connects root.id id

/-- The nodes of a flow to which a run can get. A path may also lead to an identifier of no node. -/
def Within (f : Flow) (id : NodeId) : Prop := (∃ n ∈ f.nodes, n.id = id) ∧ f.Connected id

/-! ### What a report without errors tells -/

theorem nodup_of_repeatedNodes {earlier : List NodeId} {nodes : List FlowNode}
    (none : repeatedNodes earlier nodes = []) :
    (nodes.map FlowNode.id).Nodup ∧ ∀ n ∈ nodes, n.id ∉ earlier := by
  induction nodes generalizing earlier with
  | nil => exact ⟨List.nodup_nil, nofun⟩
  | cons n rest ih =>
    unfold repeatedNodes at none
    split at none
    · cases none
    · next fresh =>
      obtain ⟨distinct, later⟩ := ih none
      have first : n.id ∉ rest.map FlowNode.id := by
        rintro again
        obtain ⟨m, member, same⟩ := List.mem_map.1 again
        exact later m member (same ▸ List.mem_cons_self)
      refine ⟨List.nodup_cons.2 ⟨first, distinct⟩, ?_⟩
      rw [List.forall_mem_cons]
      exact ⟨by simpa using fresh, fun m member => (later m member) ∘ List.mem_cons_of_mem _⟩

/-- What the checks of a flow without errors have found. -/
structure Checked (f : Flow) : Prop where
  distinct : (f.nodes.map FlowNode.id).Nodup
  rooted : f.rootPositions ≠ []
  warnings : f.report.warnings = f.unknownConnections
    ++ f.unreachedNodes.map (fun n => .disconnected n.id) ++ f.cyclePaths.map .cycle

theorem checked_of_isValid {f : Flow} (valid : f.report.isValid = true) : f.Checked := by
  unfold report FlowReport.isValid at valid
  split at valid
  · cases valid
  · next filled =>
    rw [List.isEmpty_iff, List.append_eq_nil_iff, List.map_eq_nil_iff] at valid
    refine ⟨(nodup_of_repeatedNodes valid.1).1, ?_, ?_⟩
    · intro unrooted
      simp [unrooted] at valid
    · simp only [report, filled]
      rfl

namespace Checked

variable {f : Flow} (checked : f.Checked) {i j : Nat} {n m : FlowNode}

include checked

theorem eq_of_id_eq (first : f.nodes[i]? = some n) (second : f.nodes[j]? = some m)
    (same : n.id = m.id) : i = j := by
  have inside : i < (f.nodes.map FlowNode.id).length := by
    rw [List.length_map]
    exact (List.getElem?_eq_some_iff.1 first).1
  refine (List.getElem?_inj inside checked.distinct).1 ?_
  rw [List.getElem?_map, List.getElem?_map, first, second]
  exact congrArg some same

theorem position?_iff {id : NodeId} :
    f.position? id = some i ↔ ∃ n, f.nodes[i]? = some n ∧ n.id = id := by
  rw [position?, List.findIdx?_eq_some_iff_getElem]
  constructor
  · rintro ⟨inside, found, -⟩
    exact ⟨f.nodes[i], List.getElem?_eq_getElem inside, by simpa using found⟩
  · rintro ⟨n, at_i, rfl⟩
    obtain ⟨inside, value⟩ := List.getElem?_eq_some_iff.1 at_i
    refine ⟨inside, by simp [value], fun j before found => ?_⟩
    -- An earlier node of the same identifier would be the node itself.
    have same : j = i := checked.eq_of_id_eq
      (List.getElem?_eq_getElem (Nat.lt_trans before inside)) at_i (by simpa using found)
    omega

theorem mem_knownTargets_iff (at_j : f.nodes[j]? = some m) :
    j ∈ f.knownTargets n ↔ m.id ∈ n.connections := by
  rw [knownTargets, List.mem_filterMap]
  constructor
  · rintro ⟨id, connected, known⟩
    obtain ⟨m', at_j', rfl⟩ := checked.position?_iff.1 known
    cases at_j.symm.trans at_j'
    exact connected
  · exact fun connected => ⟨m.id, connected, checked.position?_iff.2 ⟨m, at_j, rfl⟩⟩

/-- An edge of the graph is a connection between two nodes of the flow. -/
theorem hasEdge_iff : f.graph.HasEdge i j ↔
    ∃ n m, f.nodes[i]? = some n ∧ f.nodes[j]? = some m ∧ m.id ∈ n.connections := by
  have edges : f.graph.next i = (f.nodes[i]?.map f.knownTargets).getD [] := by
    rw [graph, Digraph.next, List.getElem?_map]
  rw [Digraph.HasEdge, edges]
  cases at_i : f.nodes[i]? with
  | none => simp
  | some n =>
    constructor
    · intro edge
      obtain ⟨id, connected, known⟩ := List.mem_filterMap.1 edge
      obtain ⟨m, at_j, rfl⟩ := checked.position?_iff.1 known
      exact ⟨n, m, rfl, at_j, connected⟩
    · rintro ⟨n', m, same, at_j, connected⟩
      cases same
      exact (checked.mem_knownTargets_iff at_j).2 connected

/-! ### Roots -/

/-- Counting the connections to the identifier of a node is looking for an edge to the node. -/
theorem incoming_eq_zero_iff (at_j : f.nodes[j]? = some m) :
    f.incoming m.id = 0 ↔ (f.graph.targets.any fun targets => targets.contains j) = false := by
  have unconnected : f.incoming m.id = 0 ↔ ∀ n ∈ f.nodes, m.id ∉ n.connections := by
    simp only [incoming, List.count_eq_zero, List.mem_flatMap, not_exists, not_and]
  rw [unconnected, List.any_eq_false]
  simp only [graph, List.forall_mem_map, List.contains_iff_mem, checked.mem_knownTargets_iff at_j]

theorem roots_eq : f.rootPositions.map (fun i => f.nodes[i]?) = f.roots.map some := by
  have numbered : f.nodes.map some = (List.range f.nodes.length).map fun i => f.nodes[i]? := by
    apply List.ext_getElem
    · simp
    · intro i inside _
      simp at inside ⊢
  let isRoot (n : FlowNode) : Bool := n.role == .trigger && f.incoming n.id == 0
  -- Filtering the nodes is filtering their numbers by what stands there.
  calc f.rootPositions.map (fun i => f.nodes[i]?)
      = ((List.range f.nodes.length).filter fun i => f.nodes[i]?.any isRoot).map
          (fun i => f.nodes[i]?) := by
        refine congrArg _ (List.filter_congr fun i inside => ?_)
        have at_i := List.getElem?_eq_getElem (List.mem_range.1 inside)
        have unled := checked.incoming_eq_zero_iff at_i
        simp only [at_i, Option.map_some, Option.any_some, isRoot]
        rw [Bool.eq_iff_iff]
        simp only [Bool.and_eq_true, beq_iff_eq, Option.some.injEq, Bool.not_eq_true', unled]
    _ = ((List.range f.nodes.length).map fun i => f.nodes[i]?).filter fun n? => n?.any isRoot := by
        rw [List.filter_map]
        rfl
    _ = f.roots.map some := by
        rw [← numbered, List.filter_map]
        rfl

theorem roots_ne_nil : f.roots ≠ [] := by
  intro none
  have unrooted := checked.roots_eq
  rw [none, List.map_nil, List.map_eq_nil_iff] at unrooted
  exact checked.rooted unrooted

theorem mem_roots_iff : n ∈ f.roots ↔ ∃ i ∈ f.rootPositions, f.nodes[i]? = some n := by
  have mapped : n ∈ f.roots ↔ some n ∈ f.roots.map some := by simp
  rw [mapped, ← checked.roots_eq, List.mem_map]

/-! ### Connected nodes -/

theorem connected_iff (at_i : f.nodes[i]? = some n) :
    f.Connected n.id ↔ ∃ root ∈ f.rootPositions, f.graph.Path root i := by
  constructor
  · rintro ⟨root, isRoot, path⟩
    obtain ⟨r, position, at_r⟩ := checked.mem_roots_iff.1 isRoot
    refine ⟨r, position, ?_⟩
    -- Along the path, a connection to a node of the flow is an edge to its number.
    generalize target : n.id = id at path
    induction path generalizing i n with
    | refl => rw [checked.eq_of_id_eq at_r at_i target.symm]
    | tail _ connects ih =>
      obtain ⟨m, member, same, connected⟩ := connects
      obtain ⟨k, at_k⟩ := List.mem_iff_getElem?.1 member
      exact (ih at_k same).tail (checked.hasEdge_iff.2 ⟨m, n, at_k, at_i, target ▸ connected⟩)
  · rintro ⟨r, position, path⟩
    induction path generalizing n with
    | refl => exact ⟨n, checked.mem_roots_iff.2 ⟨r, position, at_i⟩, .refl⟩
    | tail _ edge ih =>
      obtain ⟨m, n', at_k, at_j, connected⟩ := checked.hasEdge_iff.1 edge
      cases at_i.symm.trans at_j
      obtain ⟨root, isRoot, before⟩ := ih at_k
      exact ⟨root, isRoot, before.tail ⟨m, List.mem_of_getElem? at_k, rfl, connected⟩⟩

theorem mem_unreachedNodes_iff : n ∈ f.unreachedNodes ↔ n ∈ f.nodes ∧ ¬ f.Connected n.id := by
  have marked (i : Nat) (at_i : f.nodes[i]? = some n) :
      (f.graph.reachable f.rootPositions)[i]? = some true ↔ f.Connected n.id := by
    rw [Digraph.reachable_iff, checked.connected_iff at_i]
    refine and_iff_right ?_
    simpa [Digraph.size, graph] using (List.getElem?_eq_some_iff.1 at_i).1
  have complete (i : Nat) (inside : i < f.nodes.length) :
      ∃ mark, (f.graph.reachable f.rootPositions)[i]? = some mark := by
    refine ⟨_, List.getElem?_eq_getElem ?_⟩
    simpa [Digraph.length_reachable, Digraph.size, graph] using inside
  have zipped : n ∈ f.unreachedNodes ↔
      (n, false) ∈ f.nodes.zip (f.graph.reachable f.rootPositions) := by
    simp [unreachedNodes]
  rw [zipped]
  constructor
  · intro member
    obtain ⟨i, at_i⟩ := List.mem_iff_getElem?.1 member
    obtain ⟨at_n, mark⟩ := List.getElem?_zip_eq_some.1 at_i
    refine ⟨List.mem_of_getElem? at_n, fun connected => ?_⟩
    rw [(marked i at_n).2 connected] at mark
    cases mark
  · rintro ⟨member, unconnected⟩
    obtain ⟨i, at_i⟩ := List.mem_iff_getElem?.1 member
    obtain ⟨mark, marks⟩ := complete i (List.getElem?_eq_some_iff.1 at_i).1
    cases mark with
    | false => exact List.mem_of_getElem? (List.getElem?_zip_eq_some.2 ⟨at_i, marks⟩)
    | true => exact absurd ((marked i at_i).1 marks) unconnected

/-- The report calls exactly the nodes disconnected to which no path leads from a root. -/
theorem disconnected_iff {id : NodeId} : .disconnected id ∈ f.report.warnings ↔
    (∃ n ∈ f.nodes, n.id = id) ∧ ¬ f.Connected id := by
  have elsewhere : .disconnected id ∈ f.report.warnings ↔ ∃ n ∈ f.unreachedNodes, n.id = id := by
    simp [checked.warnings, unknownConnections]
  rw [elsewhere]
  constructor
  · rintro ⟨n, unreached, rfl⟩
    obtain ⟨member, unconnected⟩ := checked.mem_unreachedNodes_iff.1 unreached
    exact ⟨⟨n, member, rfl⟩, unconnected⟩
  · rintro ⟨⟨n, member, rfl⟩, unconnected⟩
    exact ⟨n, checked.mem_unreachedNodes_iff.2 ⟨member, unconnected⟩, rfl⟩

end Checked

end Flow

/-! ### What a run executes -/

namespace FlowHost

variable {σ : Type} {host : FlowHost σ} {probe : Probe} {f : Flow}

theorem within_root {root : FlowNode} (isRoot : root ∈ f.roots) : f.Within root.id :=
  ⟨⟨root, (List.mem_filter.1 isRoot).1, rfl⟩, root, isRoot, .refl⟩

/-- A connection from a node within reach to a node of the flow stays within reach. -/
theorem within_child {n child : FlowNode} {id : NodeId} (member : n ∈ f.nodes)
    (within : f.Within n.id) (connected : id ∈ n.connections) (known : f.node? id = some child) :
    f.Within child.id := by
  have same : child.id = id := by simpa using List.find?_some known
  obtain ⟨root, isRoot, path⟩ := within.2
  exact ⟨⟨child, List.mem_of_find?_eq_some known, rfl⟩, root, isRoot,
    path.tail ⟨n, member, rfl, same ▸ connected⟩⟩

/-- What is yet to be executed and what has been stay within reach. -/
theorem walk_within (start : Nat) : (host.walk probe start (.start f) (.start f)).Answers fun answer =>
    ∀ id ∈ answer.2.executed, f.Within id := by
  refine walk_answers (P := fun w log => (∀ entry ∈ w.stack, f.Within entry.1.id) ∧
    ∀ id ∈ log.executed, f.Within id) ?_ ?_ ?_ ?_ _ _ ⟨fun entry onStack => ?_, nofun⟩
  · rintro w log n depth rest front ⟨ahead, behind⟩ -
    exact ⟨fun entry later => ahead entry (front ▸ List.mem_cons_of_mem _ later), behind⟩
  · rintro w log n depth rest next after front ⟨ahead, behind⟩ - - gains
    have current : (n, depth) ∈ w.stack := front ▸ List.mem_cons_self
    refine ⟨fun entry onStack => ?_, fun id executed => ?_⟩
    · rcases List.mem_append.1 onStack with fresh | later
      · obtain ⟨child, found, rfl⟩ := List.mem_map.1 fresh
        obtain ⟨id, chosen, known⟩ := List.mem_filterMap.1 found
        exact within_child (w.known _ current) (ahead _ current) (gains.along id chosen) known
      · exact ahead entry (front ▸ List.mem_cons_of_mem _ later)
    · rw [gains.executed, List.mem_append, List.mem_singleton] at executed
      rcases executed with before | rfl
      · exact behind id before
      · exact ahead _ current
  · exact fun kept _ => kept.2
  · exact fun kept _ _ _ => kept.2
  · obtain ⟨root, isRoot, rfl⟩ := List.mem_map.1 onStack
    exact within_root isRoot

theorem run_within : (host.run probe f).Answers fun result =>
    ∀ id ∈ result.log.executed, f.Within id := by
  constructor
  intro others now s result t s' course
  obtain ⟨fault, -, ⟨-, within⟩ | ⟨untouched, -⟩⟩ := (run_answers fun _ => walk_within).answer course
  · exact within
  · rw [untouched]
    nofun

/-- A flow without errors has a root, and the report and a run begin at the same ones. Whatever the
surroundings do, each node that a run of it executes is a node of the flow to which a path of connections
leads from a root; the nodes that the report calls disconnected are exactly the others. -/
theorem run_connected {f : Flow} (valid : f.report.isValid = true) :
    f.roots ≠ [] ∧ f.rootPositions.map (fun i => f.nodes[i]?) = f.roots.map some ∧
    (∀ id, .disconnected id ∈ f.report.warnings ↔
      (∃ n ∈ f.nodes, n.id = id) ∧ ¬ f.Connected id) ∧
    ∀ {σ : Type} (host : FlowHost σ) (probe : Probe) (others : σ → σ → Prop) (now t : Nat)
      (s s' : σ) (result : FlowResult),
      (host.run probe f).Reaches others now s (.done result) t s' →
      ∀ id ∈ result.log.executed, (∃ n ∈ f.nodes, n.id = id) ∧ f.Connected id ∧
        .disconnected id ∉ f.report.warnings := by
  have checked := Flow.checked_of_isValid valid
  refine ⟨checked.roots_ne_nil, checked.roots_eq, fun _ => checked.disconnected_iff, ?_⟩
  intro σ host probe others now t s s' result course id executed
  obtain ⟨known, connected⟩ := run_within.answer course id executed
  exact ⟨known, connected, fun reported => (checked.disconnected_iff.1 reported).2 connected⟩

/-- A trigger that leads to a lamp and to no node, and a node to which nothing leads. -/
def atticFlow : Flow :=
  { id := ⟨.nil⟩, name := "attic", enabled := true
    nodes :=
      [⟨⟨"start"⟩, .trigger, "manual", [], [⟨"lamp"⟩, ⟨"gone"⟩]⟩,
        ⟨⟨"attic"⟩, .delay, "wait", [("delay", .nat 5)], [⟨"lamp"⟩]⟩,
        ⟨⟨"lamp"⟩, .action, "light", [("action", .text "on"), ("device_id", .text "lamp")], []⟩] }

theorem run_connected_atticFlow :
    atticFlow.report.isValid = true ∧
    (∃ n ∈ atticFlow.nodes, n.id = ⟨"attic"⟩) ∧ ¬ atticFlow.Connected ⟨"attic"⟩ ∧
    ∃ result, (emptyHost.run .none atticFlow).Reaches Eq 0 () (.done result) 0 () ∧
      result.log.executed = [⟨"start"⟩, ⟨"lamp"⟩] ∧
      ∀ id ∈ result.log.executed, atticFlow.Connected id := by
  have valid : atticFlow.report.isValid = true := by decide
  have reported : .disconnected ⟨"attic"⟩ ∈ atticFlow.report.warnings := by
    have warnings : atticFlow.report.warnings =
        [.unknownConnection ⟨"start"⟩ ⟨"gone"⟩, .disconnected ⟨"attic"⟩] := by cbv
    rw [warnings]
    decide
  have ran : ((emptyHost.run .none atticFlow).poll 0 ()).left.answer?.map
      (Except.map fun result => result.log.executed) = some (.ok [⟨"start"⟩, ⟨"lamp"⟩]) := by cbv
  obtain ⟨-, -, disconnected, connected⟩ := run_connected valid
  obtain ⟨known, unconnected⟩ := (disconnected _).1 reported
  refine ⟨valid, known, unconnected, ?_⟩
  cases ended : ((emptyHost.run .none atticFlow).poll 0 ()).left with
  | done result =>
    rw [ended] at ran
    have course : (emptyHost.run .none atticFlow).Reaches Eq 0 () (.done result) 0 () :=
      ended ▸ .first
    refine ⟨result, course, Except.ok.inj (Option.some.inj ran), fun id executed => ?_⟩
    exact (connected emptyHost .none Eq 0 0 () () result course id executed).2.1
  | crash cause =>
    rw [ended] at ran
    cases ran
  | _ =>
    rw [ended] at ran
    cases ran

end FlowHost

end Hearth
