import Mathlib.Data.List.Perm.Subperm
import Hearth.Proofs.Flow.Findings
import Hearth.Proofs.Flow.Visits
import Hearth.Proofs.Process.Halting

/-!
# Hearth.Proofs.Flow.Depth

How deep a run goes, and how large a flow has to be for a run of it to go too deep.

## Main definitions

- `Walk.tour`: a walk on which nodes are visited in some other way.
- `chain`: a flow of triggers, one after the other.

## Main results

- `run_bounded_depth`: no node is visited deeper than the limit, and a run is given up for its depth only
  after it has executed as many nodes as the limit allows for, of a flow that has more.
- `run_chain_ends`: this cannot be improved on. A chain is run to its end if it is not longer than the
  limit, and given up if it is.

## Proof strategy

The depths on the stack are not those of shortest paths, and an entry may wait there for long. But when
it was put there, it was one deeper than a node that had just run, and since then only more nodes have
run: no entry is deeper than the number of nodes that have run, by more than one. The nodes that have run
are distinct nodes of the flow, and the one that is too deep is another one.
-/

namespace Hearth

/-! ### Messages -/

/-- No other fault of a run reads like that of a path that is too long. -/
theorem FlowFault.message_ne_tooDeep {fault : FlowFault}
    (refused : fault = .disabled ∨ ∃ issues, fault = .invalid issues) (limit : Nat) :
    fault.message ≠ (FlowFault.tooDeep limit).message := by
  have starts : (FlowFault.tooDeep limit).message.toList.head? = some 'm' := by
    have reads : (FlowFault.tooDeep limit).message =
        "maximum depth of " ++ toString limit ++ " exceeded" := rfl
    rw [reads, String.toList_append, String.toList_append]
    rfl
  intro same
  rw [← same] at starts
  rcases refused with rfl | ⟨issues, rfl⟩
  · exact absurd starts (by decide)
  · have reads : (FlowFault.invalid issues).message =
        "flow failed validation: " ++ "; ".intercalate issues := rfl
    rw [reads, String.toList_append] at starts
    exact absurd starts (by simp)

/-! ### Walks on which nodes are visited in some other way -/

variable {σ : Type} {f : Flow}

/-- Goes on as a walk does, but nodes are visited as `visit` says. -/
def Walk.tour (visit : FlowNode → Nat → RunLog → Process σ (List NodeId × RunLog)) (w : Walk f)
    (log : RunLog) : Process σ (Option FlowFault × RunLog) :=
  match front : w.stack with
  | [] => pure (none, log)
  | (n, depth) :: _ =>
    if _seen : n.id ∈ w.visited then (w.skip front).tour visit log
    else if FlowHost.depthLimit < depth then pure (some (.tooDeep FlowHost.depthLimit), log)
    else do
      let (next, log) ← visit n depth log
      (w.enter front next).tour visit log
termination_by (w.unvisited.length, w.stack.length)
decreasing_by
  · have shorter : (w.skip front).stack.length < w.stack.length := by simp [front, Walk.skip]
    exact Prod.Lex.right _ shorter
  · exact Prod.Lex.left _ _ (Walk.length_unvisited_enter_lt front _seen next)

section

variable {visit : FlowNode → Nat → RunLog → Process σ (List NodeId × RunLog)} {w : Walk f} {log : RunLog}
  {n : FlowNode} {depth : Nat} {rest : List (FlowNode × Nat)}

theorem Walk.tour_of_nil (empty : w.stack = []) : w.tour visit log = pure (none, log) := by
  rw [tour]
  split
  · rfl
  · next front => cases empty.symm.trans front

theorem Walk.tour_of_cons (front : w.stack = (n, depth) :: rest) :
    w.tour visit log =
      if n.id ∈ w.visited then (w.skip front).tour visit log
      else if FlowHost.depthLimit < depth then pure (some (.tooDeep FlowHost.depthLimit), log)
      else visit n depth log >>= fun (next, log) => (w.enter front next).tour visit log := by
  rw [tour]
  split
  · next empty => cases empty.symm.trans front
  · next front' =>
    cases front'.symm.trans front
    simp only [dite_eq_ite]

end

namespace FlowHost

variable {host : FlowHost σ} {probe : Probe}

/-- A walk does not depend on how nodes would be visited deeper than the limit: none is. -/
theorem walk_eq_tour (start : Nat)
    {visit : FlowNode → Nat → RunLog → Process σ (List NodeId × RunLog)}
    (agrees : ∀ n depth log, depth ≤ depthLimit → visit n depth log = host.visit probe start n depth log)
    (w : Walk f) (log : RunLog) : host.walk probe start w log = w.tour visit log := by
  fun_induction FlowHost.walk host probe start w log with
  | case1 w log front => rw [Walk.tour_of_nil front]
  | case2 w log n depth rest front seen ih => rw [Walk.tour_of_cons front, if_pos seen, ih]
  | case3 w log n depth rest front fresh long =>
    rw [Walk.tour_of_cons front, if_neg fresh, if_pos long]
  | case4 w log n depth rest front fresh short ih =>
    rw [Walk.tour_of_cons front, if_neg fresh, if_neg short, agrees n depth log (Nat.le_of_not_lt short)]
    simp only [ih]

end FlowHost

/-! ### How deep a walk is -/

/-- What was taken down by a run that never went deeper than the limit. -/
structure RunLog.Shallow (log : RunLog) (stepwise : Bool) : Prop where
  once : log.executed.Nodup
  depths : ∀ entry ∈ log.trace, entry.depth ≤ FlowHost.depthLimit
  noted : stepwise = true → ∀ id ∈ log.executed, ∃ entry ∈ log.trace, entry.node = id

theorem RunLog.Shallow.gain {log after : RunLog} {n : FlowNode} {depth : Nat} {stepwise : Bool}
    {next : List NodeId} (shallow : log.Shallow stepwise) (short : depth ≤ FlowHost.depthLimit)
    (gains : log.Gains after n depth stepwise next) (once : after.executed.Nodup) :
    after.Shallow stepwise := by
  obtain ⟨entries, trace, ofNode, any⟩ := gains.trace
  refine ⟨once, fun entry noted => ?_, fun stepping id ran => ?_⟩
  · rcases List.mem_append.1 (trace ▸ noted) with earlier | new
    · exact shallow.depths entry earlier
    · exact (ofNode entry new).2 ▸ short
  · rw [trace]
    rcases List.mem_append.1 (gains.executed ▸ ran) with earlier | current
    · obtain ⟨entry, noted, same⟩ := shallow.noted stepping id earlier
      exact ⟨entry, List.mem_append_left _ noted, same⟩
    · obtain ⟨entry, new⟩ := List.exists_mem_of_ne_nil _ (any stepping)
      exact ⟨entry, List.mem_append_right _ new,
        (ofNode entry new).1.trans (List.mem_singleton.1 current).symm⟩

/-- No node that waits is deeper than the number of nodes that have run, by more than one. -/
structure Walk.Shallow (w : Walk f) (log : RunLog) (stepwise : Bool) : Prop where
  logged : w.Logged log
  shallow : log.Shallow stepwise
  inside : ∀ id ∈ w.visited, id ∈ f.nodes.map FlowNode.id
  near : ∀ entry ∈ w.stack, entry.2 ≤ w.visited.length + 1

namespace Walk.Shallow

variable {w : Walk f} {log after : RunLog} {n : FlowNode} {depth : Nat}
  {rest : List (FlowNode × Nat)} {next : List NodeId} {stepwise : Bool}

theorem start (f : Flow) (stepwise : Bool) : (Walk.start f).Shallow (.start f) stepwise where
  logged := ⟨rfl, List.nodup_nil⟩
  shallow := ⟨List.nodup_nil, nofun, fun _ => nofun⟩
  inside := nofun
  near entry onStack := by
    obtain ⟨root, -, rfl⟩ := List.mem_map.1 onStack
    exact Nat.le_refl 1

theorem skip (shallow : w.Shallow log stepwise) (front : w.stack = (n, depth) :: rest) :
    (w.skip front).Shallow log stepwise where
  logged := ⟨shallow.logged.executed, shallow.logged.once⟩
  shallow := shallow.shallow
  inside := shallow.inside
  near entry later := shallow.near entry (front ▸ List.mem_cons_of_mem _ later)

theorem enter (shallow : w.Shallow log stepwise) (front : w.stack = (n, depth) :: rest)
    (fresh : n.id ∉ w.visited) (short : depth ≤ FlowHost.depthLimit)
    (gains : log.Gains after n depth stepwise next) : (w.enter front next).Shallow after stepwise := by
  have member : n ∈ f.nodes := w.mem_of_front front
  have logged := shallow.logged.enter front fresh next gains.executed
  refine ⟨logged, shallow.shallow.gain short gains logged.nodup, ?_, fun entry onStack => ?_⟩
  · exact List.forall_mem_cons.2 ⟨List.mem_map_of_mem member, shallow.inside⟩
  · -- What is put on the stack is one deeper than the node that has just been added to the visited ones.
    have deep : depth ≤ w.visited.length + 1 := shallow.near (n, depth) (front ▸ List.mem_cons_self)
    rcases List.mem_append.1 onStack with child | later
    · obtain ⟨m, -, rfl⟩ := List.mem_map.1 child
      exact Nat.succ_le_succ deep
    · exact (shallow.near entry (front ▸ List.mem_cons_of_mem _ later)).trans (Nat.le_succ _)

/-- Where a walk would go deeper than the limit, it has run many nodes, and the next one is yet another. -/
theorem length_lt (shallow : w.Shallow log stepwise) (front : w.stack = (n, depth) :: rest)
    (fresh : n.id ∉ w.visited) (long : FlowHost.depthLimit < depth) :
    FlowHost.depthLimit ≤ log.executed.length ∧ log.executed.length < f.nodes.length := by
  have member : n ∈ f.nodes := w.mem_of_front front
  have deep : depth ≤ w.visited.length + 1 := shallow.near (n, depth) (front ▸ List.mem_cons_self)
  have distinct : (n.id :: w.visited).Nodup := List.nodup_cons.2 ⟨fresh, shallow.logged.once⟩
  have among : n.id :: w.visited ⊆ f.nodes.map FlowNode.id :=
    List.cons_subset.2 ⟨List.mem_map_of_mem member, shallow.inside⟩
  have few := (List.subperm_of_subset distinct among).length_le
  rw [List.length_cons, List.length_map] at few
  rw [shallow.logged.executed, List.length_reverse]
  omega

end Walk.Shallow

namespace FlowHost

variable {host : FlowHost σ} {probe : Probe}

/-- A walk stays within the limit, and it is given up only when it has run many nodes, but not all. -/
theorem walk_shallow (start : Nat) : (host.walk probe start (.start f) (.start f)).Answers
    fun (fault, log) => log.Shallow probe.stepwise ∧
      (fault ≠ none → depthLimit ≤ log.executed.length ∧ log.executed.length < f.nodes.length) := by
  refine walk_answers (P := fun w log => w.Shallow log probe.stepwise) ?_ ?_ ?_ ?_ _ _ (.start f _)
  · exact fun front shallow _ => shallow.skip front
  · exact fun front shallow fresh short gains => shallow.enter front fresh short gains
  · exact fun shallow _ => ⟨shallow.shallow, fun given => absurd rfl given⟩
  · exact fun shallow front fresh long => ⟨shallow.shallow, fun _ => shallow.length_lt front fresh long⟩

end FlowHost

/-! ### Chains -/

/-- An identifier for each number. -/
def chainId (i : Nat) : NodeId := ⟨String.ofList (List.replicate i 'a')⟩

theorem chainId_injective : Function.Injective chainId := by
  intro i j same
  have texts : List.replicate i 'a' = List.replicate j 'a' :=
    String.ofList_injective (NodeId.mk.inj same)
  simpa using congrArg List.length texts

/-- A trigger that leads to the next one. -/
def chainLink (i : Nat) : FlowNode := ⟨chainId i, .trigger, "manual", [], [chainId (i + 1)]⟩

/-- A flow of triggers, one after the other. The last one leads to no node. -/
def chain (length : Nat) : Flow :=
  { id := ⟨.nil⟩, name := "chain", enabled := true, nodes := (List.range length).map chainLink }

theorem mem_chain_iff {length : Nat} {n : FlowNode} :
    n ∈ (chain length).nodes ↔ ∃ i < length, chainLink i = n := by
  simp [chain]

theorem node?_chain (length i : Nat) :
    (chain length).node? (chainId i) = if i < length then some (chainLink i) else none := by
  split
  · next inside =>
    have found : ((chain length).node? (chainId i)).isSome = true := by
      rw [Flow.node?, List.find?_isSome]
      exact ⟨chainLink i, mem_chain_iff.2 ⟨i, inside, rfl⟩, by simp [chainLink]⟩
    obtain ⟨n, known⟩ := Option.isSome_iff_exists.1 found
    obtain ⟨j, -, rfl⟩ := mem_chain_iff.1 (List.mem_of_find?_eq_some known)
    have same : chainId j = chainId i := by simpa [chainLink] using List.find?_some known
    rw [known, chainId_injective same]
  · next outside =>
    refine List.find?_eq_none.2 fun n member named => ?_
    obtain ⟨j, inside, rfl⟩ := mem_chain_iff.1 member
    have same : chainId j = chainId i := by simpa [chainLink] using named
    exact outside (chainId_injective same ▸ inside)

theorem roots_chain {length : Nat} (filled : 0 < length) : (chain length).roots = [chainLink 0] := by
  obtain ⟨last, rfl⟩ := Nat.exists_eq_add_one_of_ne_zero (Nat.ne_of_gt filled)
  have led (i : Nat) (inside : i < last) : (chain (last + 1)).incoming (chainId (i + 1)) ≠ 0 := by
    rw [Flow.incoming, Ne, List.count_eq_zero, not_not, List.mem_flatMap]
    exact ⟨chainLink i, mem_chain_iff.2 ⟨i, by omega, rfl⟩, List.mem_singleton_self _⟩
  have unled : (chain (last + 1)).incoming (chainId 0) = 0 := by
    rw [Flow.incoming, List.count_eq_zero, List.mem_flatMap]
    rintro ⟨n, member, leads⟩
    obtain ⟨i, -, rfl⟩ := mem_chain_iff.1 member
    exact absurd (chainId_injective (List.mem_singleton.1 leads)) (by omega)
  have nodes : (chain (last + 1)).nodes =
      chainLink 0 :: (List.range last).map fun i => chainLink (i + 1) := by
    simp [chain, List.range_succ_eq_map]
  rw [Flow.roots, nodes, List.filter_cons_of_pos (by simp [chainLink, unled]), List.cons_inj_right,
    List.filter_eq_nil_iff, List.forall_mem_map]
  intro i inside
  simp [chainLink, led i (List.mem_range.1 inside)]

theorem isValid_chain {length : Nat} (filled : 0 < length) :
    (chain length).report.isValid = true := by
  have filled' : 0 < (chain length).nodes.length := by simpa [chain] using filled
  have link (i : Fin (chain length).nodes.length) : (chain length).nodes[i] = chainLink i :=
    (List.getElem_map chainLink).trans (congrArg chainLink (List.getElem_range _))
  refine Flow.isValid_iff.2 ⟨List.ne_nil_of_length_pos filled', ?_, ⟨0, filled'⟩, ?_, ?_⟩
  · rw [chain, List.map_map]
    exact List.nodup_range.map chainId_injective
  · rw [link]
    rfl
  · rintro j ⟨leads, -⟩
    rw [link, link] at leads
    exact absurd (chainId_injective (List.mem_singleton.1 leads)) (by simp)

/-- Before the round in which the walk through a chain comes to the link `i`, or to its end. -/
structure Walk.AtLink {length : Nat} (w : Walk (chain length)) (i : Nat) : Prop where
  inside : i ≤ length
  short : i ≤ FlowHost.depthLimit
  behind : ∀ id ∈ w.visited, ∃ j < i, chainId j = id
  ahead : w.stack = ((chain length).node? (chainId i)).toList.map fun n => (n, i + 1)

namespace Walk.AtLink

variable {length i depth : Nat} {w : Walk (chain length)} {n : FlowNode} {rest : List (FlowNode × Nat)}

theorem start (filled : 0 < length) : (Walk.start (chain length)).AtLink 0 where
  inside := Nat.zero_le _
  short := Nat.zero_le _
  behind := nofun
  ahead := by
    rw [node?_chain, if_pos filled]
    exact congrArg (List.map fun n => (n, 1)) (roots_chain filled)

theorem of_cons (atLink : w.AtLink i) (front : w.stack = (n, depth) :: rest) :
    i < length ∧ n = chainLink i ∧ depth = i + 1 ∧ rest = [] ∧ n.id ∉ w.visited := by
  have ahead := atLink.ahead
  rw [node?_chain, front] at ahead
  split at ahead
  · next inside =>
    obtain ⟨⟨rfl, rfl⟩, rfl⟩ : (n = chainLink i ∧ depth = i + 1) ∧ rest = [] := by simpa using ahead
    refine ⟨inside, rfl, rfl, rfl, fun seen => ?_⟩
    obtain ⟨j, earlier, same⟩ := atLink.behind _ seen
    exact Nat.ne_of_lt earlier (chainId_injective same)
  · cases ahead

theorem eq_of_nil (atLink : w.AtLink i) (empty : w.stack = []) : i = length := by
  have ahead := atLink.ahead
  rw [node?_chain, empty] at ahead
  split at ahead
  · cases ahead
  · next outside => exact Nat.le_antisymm atLink.inside (Nat.le_of_not_lt outside)

theorem enter (atLink : w.AtLink i) (front : w.stack = [(chainLink i, i + 1)]) (inside : i < length)
    (short : i + 1 ≤ FlowHost.depthLimit) : (w.enter front (chainLink i).connections).AtLink (i + 1) where
  inside := inside
  short := short
  behind := by
    refine List.forall_mem_cons.2 ⟨⟨i, Nat.lt_succ_self i, rfl⟩, fun id seen => ?_⟩
    obtain ⟨j, earlier, same⟩ := atLink.behind id seen
    exact ⟨j, Nat.lt_succ_of_lt earlier, same⟩
  ahead := by
    simp only [Walk.enter, chainLink, List.append_nil]
    rw [List.filterMap_cons]
    cases (chain length).node? (chainId (i + 1)) with
    | none => rfl
    | some n => rfl

end Walk.AtLink

namespace FlowHost

variable {host : FlowHost σ} {probe : Probe}

theorem visit_trigger_ends {n : FlowNode} (role : n.role = .trigger) (start depth : Nat) (log : RunLog) :
    (host.visit probe start n depth log).Ends fun answer => answer.1 = n.connections := by
  have executed (log : RunLog) : (host.execute n log).Ends fun answer => answer.1 = .ok none := by
    simp only [execute, role]
    exact .pure rfl
  have attempted : (host.attempt probe start n depth log).Ends fun answer => answer.1 = .ok none := by
    refine Process.Ends.now.bind fun began _ => (executed _).bind ?_
    rintro ⟨outcome, after⟩ passed
    exact Process.Ends.now.bind fun ended _ => .pure passed
  refine attempted.bind ?_
  rintro ⟨outcome, after⟩ passed
  cases passed
  exact .pure rfl

theorem walk_chain_ends {length : Nat} (filled : 0 < length) (start : Nat) (log : RunLog) :
    (host.walk probe start (.start (chain length)) log).Ends fun answer =>
      answer.1 = if length ≤ depthLimit then none else some (.tooDeep depthLimit) := by
  refine walk_ends (P := fun w _ => ∃ i, w.AtLink i) ?_ ?_ ?_ ?_ _ _ ⟨0, .start filled⟩
  · -- No link comes a second time, so none is skipped.
    rintro w log n depth rest front ⟨i, atLink⟩ seen
    exact absurd seen (atLink.of_cons front).2.2.2.2
  · rintro w log n depth rest front ⟨i, atLink⟩ fresh short
    obtain ⟨inside, rfl, rfl, rfl, -⟩ := atLink.of_cons front
    refine (visit_trigger_ends rfl start _ log).mono fun answer onward => ⟨i + 1, ?_⟩
    rw [onward]
    exact atLink.enter front inside short
  · rintro w log ⟨i, atLink⟩ empty
    exact (if_pos (atLink.eq_of_nil empty ▸ atLink.short)).symm
  · rintro w log n depth rest ⟨i, atLink⟩ front fresh long
    obtain ⟨inside, rfl, rfl, -⟩ := atLink.of_cons front
    exact (if_neg (by omega)).symm

/-- A chain is run to its end if it is not longer than the limit, and given up if it is. -/
theorem run_chain_ends {length : Nat} (filled : 0 < length) :
    (host.run probe (chain length)).Ends fun result => result.error =
      if length ≤ depthLimit then none else some (FlowFault.tooDeep depthLimit).message := by
  have traversed (start : Nat) : (host.traverse probe start (chain length)).Ends fun answer =>
      answer.1 = if length ≤ depthLimit then none else some (.tooDeep depthLimit) := by
    have enabled : (chain length).enabled = true := rfl
    simp only [traverse, enabled, isValid_chain filled, Bool.not_true, Bool.false_eq_true, ↓reduceIte]
    exact walk_chain_ends filled start _
  refine Process.Ends.now.bind fun start _ => (traversed start).bind ?_
  rintro ⟨fault, log⟩ given
  have published (result : FlowResult) :
      (Process.change (host.publish (notice (chain length) result))).Ends fun _ => True :=
    .step fun _ _ => trivial
  refine Process.Ends.now.bind fun ended _ => (published _).bind fun _ _ => .pure ?_
  dsimp only at given ⊢
  rw [given, apply_ite (Option.map FlowFault.message)]
  rfl

end FlowHost

/-! ### The limit -/

namespace FlowHost

/-- No walk visits a node deeper than the limit. What a run takes down tells so, and a run that tells each
step has told the depth of each node that it executed. A run that is given up for its depth has executed
as many nodes as the limit allows for, none of them twice; so no run is given up for its depth of a flow
that has no more nodes than that, whatever its connections and the surroundings are. -/
theorem run_bounded_depth (host : FlowHost σ) (probe : Probe) (f : Flow) :
    (∀ (start : Nat) (visit : FlowNode → Nat → RunLog → Process σ (List NodeId × RunLog)),
      (∀ n depth log, depth ≤ depthLimit →
        visit n depth log = host.visit probe start n depth log) →
      host.walk probe start (.start f) (.start f) = (Walk.start f).tour visit (.start f)) ∧
    ∀ (others : σ → σ → Prop) (now t : Nat) (s s' : σ) (result : FlowResult),
      (host.run probe f).Reaches others now s (.done result) t s' →
      result.log.Shallow probe.stepwise ∧
      (result.error = some (FlowFault.tooDeep depthLimit).message →
        depthLimit ≤ result.log.executed.length) ∧
      (f.nodes.length ≤ depthLimit →
        result.error ≠ some (FlowFault.tooDeep depthLimit).message) := by
  refine ⟨fun start _ agrees => walk_eq_tour start agrees _ _, ?_⟩
  intro others now t s s' result course
  obtain ⟨fault, error, outcome⟩ := (run_answers fun _ => walk_shallow).answer course
  rcases outcome with ⟨-, shallow, many⟩ | ⟨untouched, refused⟩
  · have givenUp (deep : result.error = some (FlowFault.tooDeep depthLimit).message) :
        depthLimit ≤ result.log.executed.length ∧ result.log.executed.length < f.nodes.length := by
      refine many fun without => ?_
      rw [error, without] at deep
      exact nomatch deep
    exact ⟨shallow, fun deep => (givenUp deep).1, fun few deep => by have := givenUp deep; omega⟩
  · -- A run that comes to no walk has an error of another kind.
    have other : result.error ≠ some (FlowFault.tooDeep depthLimit).message := by
      intro deep
      rcases refused with rfl | rfl
      · exact FlowFault.message_ne_tooDeep (.inl rfl) _ (Option.some.inj (error.symm.trans deep))
      · exact FlowFault.message_ne_tooDeep (.inr ⟨_, rfl⟩) _ (Option.some.inj (error.symm.trans deep))
    exact ⟨untouched ▸ (Walk.Shallow.start f _).shallow, fun deep => absurd deep other, fun _ => other⟩

theorem run_bounded_depth_chain :
    (∃ result t, (emptyHost.run ⟨[], true⟩ (chain 101)).Reaches Eq 0 () (.done result) t () ∧
      result.error = some (FlowFault.tooDeep depthLimit).message ∧
      depthLimit ≤ result.log.executed.length ∧ result.log.Shallow true) ∧
    (∃ result t, (emptyHost.run .none (chain 100)).Reaches Eq 0 () (.done result) t () ∧
      (chain 100).nodes.length ≤ depthLimit ∧
      result.error ≠ some (FlowFault.tooDeep depthLimit).message) ∧
    emptyHost.walk .none 0 (.start (chain 101)) (.start (chain 101)) =
      (Walk.start (chain 101)).tour (fun n depth log =>
        if depth ≤ depthLimit then emptyHost.visit .none 0 n depth log else .crash ⟨none⟩)
        (.start (chain 101)) := by
  have ended (probe : Probe) (length : Nat) (filled : 0 < length) :
      ∃ result t, (emptyHost.run probe (chain length)).Reaches Eq 0 () (.done result) t () ∧
        result.error =
          if length ≤ depthLimit then none else some (FlowFault.tooDeep depthLimit).message := by
    obtain ⟨result, t, s, course, error⟩ :=
      (run_chain_ends filled).exists_course Eq.refl 0 ()
    exact ⟨result, t, course, error⟩
  refine ⟨?_, ?_, ?_⟩
  · obtain ⟨result, t, course, error⟩ := ended ⟨[], true⟩ 101 (by decide)
    have deep := error.trans (if_neg (by decide))
    obtain ⟨shallow, many, -⟩ :=
      (run_bounded_depth emptyHost ⟨[], true⟩ (chain 101)).2 Eq 0 t () () result course
    exact ⟨result, t, course, deep, many deep, shallow⟩
  · obtain ⟨result, t, course, -⟩ := ended .none 100 (by decide)
    have few : (chain 100).nodes.length ≤ depthLimit := by simp [chain, depthLimit]
    obtain ⟨-, -, ends⟩ := (run_bounded_depth emptyHost .none (chain 100)).2 Eq 0 t () () result course
    exact ⟨result, t, course, few, ends few⟩
  · exact (run_bounded_depth emptyHost .none (chain 101)).1 0 _ fun _ _ _ short => if_pos short

end FlowHost

end Hearth
