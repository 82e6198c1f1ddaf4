import Hearth.Proofs.Data.Sorted
import Hearth.Proofs.Flow.Findings
import Hearth.Proofs.Flow.Visits

/-!
# Hearth.Proofs.Flow.Memory

What a run leaves in the variables.

## Main definitions

- `FlowNode.remembered`: what a node puts into the variables when it has run.
- `RunLog.writes`: all that a run has put into them, in order.

## Main results

- `FlowHost.run_tells`: what can be read there of the triggers and the actions that ran.
- `FlowHost.wakeFlow_hides_trigger`: a trigger may take the name by which the last trigger is kept.

## Proof strategy

The law is about the writes of a run, in the order of the nodes that ran: each visit adds those of its node
(`writes_visited`, `memory_visited`). Whatever is read by a name was put there by the last node that writes
by that name, and the names that a node writes by are few (`name_of_mem_remembered`).
-/

namespace Hearth

namespace Data

/-- The entries that are left when values are put in one after the other. -/
def written (writes : List (String × Data)) : List (String × Data) :=
  writes.foldl (fun kept (name, value) => insertEntry name value kept) []

theorem lookup_written (writes : List (String × Data)) (name : String) :
    (written writes).lookup name = writes.reverse.lookup name := by
  induction writes using List.reverseRecOn with
  | nil => rfl
  | append_singleton earlier last ih =>
    have grown : written (earlier ++ [last]) = insertEntry last.1 last.2 (written earlier) :=
      List.foldl_append
    rw [grown, lookup_insertEntry, List.reverse_append, ih]
    exact (lookup_cons_eq ..).symm

end Data

namespace FlowNode

/-- How the last trigger is told. -/
def triggerEntry (n : FlowNode) : Data :=
  .record [("node", n.id.toData), ("subtype", .text n.subtype)]

/-- How the last action is told. -/
def actionEntry (n : FlowNode) (a : Action) : Data :=
  .record [("action", .text a.kind.text), ("device_id", a.device.toData), ("node", n.id.toData)]

/-- What a node puts into the variables when it has run. -/
def remembered (n : FlowNode) (failed : Bool) : List (String × Data) :=
  match n.role with
  | .trigger => [("trigger", n.triggerEntry), (n.id.name, .record n.data)]
  | .action =>
    if failed then [] else (n.action.toOption.map fun a => ("last_action", n.actionEntry a)).toList
  | _ => []

theorem remembered_of_trigger {n : FlowNode} (role : n.role = .trigger) (failed : Bool) :
    n.remembered failed = [("trigger", n.triggerEntry), (n.id.name, .record n.data)] := by
  simp only [remembered, role]

theorem remembered_of_action {n : FlowNode} (role : n.role = .action) {a : Action}
    (action : n.action = .ok a) : n.remembered false = [("last_action", n.actionEntry a)] := by
  simp [remembered, role, action, Except.toOption]

theorem remembered_of_failed {n : FlowNode} (role : n.role ≠ .trigger) : n.remembered true = [] := by
  unfold remembered
  split
  · next is => exact absurd is role
  · rfl
  · rfl

/-- The names by which a node puts something into the variables. -/
theorem name_of_mem_remembered {n : FlowNode} {failed : Bool} {write : String × Data}
    (member : write ∈ n.remembered failed) :
    (n.role = .trigger ∧ (write.1 = "trigger" ∨ write.1 = n.id.name)) ∨
      (n.role = .action ∧ failed = false ∧ write.1 = "last_action") := by
  unfold remembered at member
  split at member
  · next role =>
    rcases List.mem_pair.1 member with rfl | rfl
    · exact .inl ⟨role, .inl rfl⟩
    · exact .inl ⟨role, .inr rfl⟩
  · next role =>
    cases failed with
    | true => exact absurd member List.not_mem_nil
    | false =>
      obtain ⟨a, -, rfl⟩ := Option.map_eq_some_iff.1 (Option.mem_toList.1 member)
      exact .inr ⟨role, rfl, rfl⟩
  · exact absurd member List.not_mem_nil

end FlowNode

theorem Flow.node?_of_mem {f : Flow} (distinct : (f.nodes.map FlowNode.id).Nodup) {n : FlowNode}
    (member : n ∈ f.nodes) : f.node? n.id = some n := by
  obtain ⟨m, found⟩ : ∃ m, f.node? n.id = some m :=
    Option.isSome_iff_exists.1 (List.find?_isSome.2 ⟨n, member, beq_self_eq_true _⟩)
  have same : m.id = n.id := by simpa using List.find?_some found
  rw [found, List.inj_on_of_nodup_map distinct (List.mem_of_find?_eq_some found) member same]

namespace RunLog

variable {f : Flow} {log after : RunLog} {probe : Probe} {n : FlowNode} {depth : Nat}
  {next : List NodeId}

/-- What one of the nodes that ran has put into the variables. -/
def writesOf (log : RunLog) (f : Flow) (id : NodeId) : List (String × Data) :=
  (f.node? id).elim [] fun n => n.remembered (log.failed.contains id)

/-- All that the nodes have put into the variables, in the order in which they ran. -/
def writes (log : RunLog) (f : Flow) : List (String × Data) := log.executed.flatMap (log.writesOf f)

/-- The variables hold what the nodes have put there, and an action that ran and did not fail was one. -/
structure Remembers (log : RunLog) (f : Flow) : Prop where
  failed : log.failed ⊆ log.executed
  memory : log.memory = Data.written (log.writes f)
  acted : ∀ n ∈ f.nodes, n.role = .action → n.id ∈ log.executed → n.id ∉ log.failed →
    ∃ a, n.action = .ok a

theorem writesOf_of_mem (log : RunLog) (distinct : (f.nodes.map FlowNode.id).Nodup)
    (member : n ∈ f.nodes) : log.writesOf f n.id = n.remembered (log.failed.contains n.id) := by
  rw [writesOf, Flow.node?_of_mem distinct member]
  rfl

theorem Gains.writes {stepwise : Bool} (gains : log.Gains after n depth stepwise next)
    (distinct : (f.nodes.map FlowNode.id).Nodup) (member : n ∈ f.nodes) (fresh : n.id ∉ log.executed) :
    after.writes f = log.writes f ++ n.remembered (after.failed.contains n.id) := by
  have earlier : ∀ id ∈ log.executed, after.writesOf f id = log.writesOf f id := by
    intro id ran
    have other : id ≠ n.id := fun same => fresh (same ▸ ran)
    have failed : after.failed.contains id = log.failed.contains id := by
      simp only [List.contains_eq_mem, gains.mem_failed_iff other]
    rw [writesOf, writesOf, failed]
  rw [RunLog.writes, gains.executed, List.flatMap_append, List.flatMap_singleton,
    after.writesOf_of_mem distinct member, RunLog.writes, List.flatMap_congr earlier]

theorem Visited.memory (visited : log.Visited probe n depth after next) (unfailed : n.id ∉ log.failed) :
    after.memory = (n.remembered (after.failed.contains n.id)).foldl
      (fun kept (name, value) => Data.insertEntry name value kept) log.memory := by
  have passed : log.failed.contains n.id = false := by simpa using unfailed
  cases visited with
  | failed role =>
    have failed : (log.failed ++ [n.id]).contains n.id = true := by simp
    show log.memory = (n.remembered ((log.failed ++ [n.id]).contains n.id)).foldl _ log.memory
    rw [failed, FlowNode.remembered_of_failed role]
    rfl
  | passed notes =>
    cases notes with
    | fired role =>
      show _ = (n.remembered (log.failed.contains n.id)).foldl _ log.memory
      rw [FlowNode.remembered_of_trigger role]
      rfl
    | acted role action =>
      show _ = (n.remembered (log.failed.contains n.id)).foldl _ log.memory
      rw [passed, FlowNode.remembered_of_action role action]
      rfl
    | decided role holds =>
      show log.memory = (n.remembered (log.failed.contains n.id)).foldl _ log.memory
      simp [FlowNode.remembered, role]
    | waited role =>
      show log.memory = (n.remembered (log.failed.contains n.id)).foldl _ log.memory
      simp [FlowNode.remembered, role]

theorem Visited.acted (visited : log.Visited probe n depth after next) (role : n.role = .action)
    (unfailed : n.id ∉ after.failed) : ∃ a, n.action = .ok a := by
  cases visited with
  | failed _ => exact absurd (List.mem_append_right _ (List.mem_singleton_self _)) unfailed
  | passed notes =>
    cases notes with
    | acted _ action => exact ⟨_, action⟩
    | fired other => cases other.symm.trans role
    | decided other holds => cases other.symm.trans role
    | waited other => cases other.symm.trans role

theorem Remembers.visit (remembers : log.Remembers f) (distinct : (f.nodes.map FlowNode.id).Nodup)
    (member : n ∈ f.nodes) (fresh : n.id ∉ log.executed)
    (visited : log.Visited probe n depth after next) : after.Remembers f where
  failed := visited.gains.failed_subset remembers.failed
  memory := by
    rw [visited.memory fun failed => fresh (remembers.failed failed), remembers.memory,
      visited.gains.writes distinct member fresh]
    exact List.foldl_append.symm
  acted m inside role ran unfailed := by
    by_cases here : m.id = n.id
    · obtain rfl := List.inj_on_of_nodup_map distinct inside member here
      exact visited.acted role unfailed
    · have formerly : m.id ∈ log.executed := (visited.gains.mem_executed_iff here).1 ran
      refine remembers.acted m inside role formerly fun failed => ?_
      exact unfailed ((visited.gains.mem_failed_iff here).2 failed)

/-! ### Reading the variables -/

/-- None of the nodes is a trigger. -/
def Unfired (f : Flow) (ids : List NodeId) : Prop := ∀ m ∈ f.nodes, m.role = .trigger → m.id ∉ ids

/-- None of the nodes is an action that did not fail. -/
def Unacted (log : RunLog) (f : Flow) (ids : List NodeId) : Prop :=
  ∀ m ∈ f.nodes, m.role = .action → m.id ∉ log.failed → m.id ∉ ids

variable {earlier later : List NodeId}

/-- What a node has put there by some name is found there if no later node has put anything there by that
name. -/
theorem Remembers.lookup_memory (remembers : log.Remembers f)
    (distinct : (f.nodes.map FlowNode.id).Nodup) (member : n ∈ f.nodes)
    (order : log.executed = earlier ++ n.id :: later) {name : String} {value : Data}
    (kept : ∀ m ∈ f.nodes, m.id ∈ later → ∀ write ∈ m.remembered (log.failed.contains m.id),
      write.1 ≠ name)
    (found : (n.remembered (log.failed.contains n.id)).reverse.lookup name = some value) :
    log.memory.lookup name = some value := by
  -- The variables are read from the last write backwards, past the nodes that ran later.
  have unwritten : (later.flatMap (log.writesOf f)).reverse.lookup name = none := by
    refine List.lookup_eq_none_iff.2 fun write written => ?_
    obtain ⟨id, behind, written⟩ := List.mem_flatMap.1 (List.mem_reverse.1 written)
    cases known : f.node? id with
    | none => simp [writesOf, known] at written
    | some m =>
      have same : m.id = id := by simpa using List.find?_some known
      subst same
      rw [writesOf, known] at written
      simpa using (kept m (List.mem_of_find?_eq_some known) behind write written).symm
  rw [remembers.memory, Data.lookup_written, writes, order, List.flatMap_append, List.flatMap_cons,
    List.reverse_append, List.reverse_append, List.lookup_append, List.lookup_append, unwritten,
    log.writesOf_of_mem distinct member, found]
  rfl

/-- What can be read of the nodes that ran. The names of nodes and the names by which the last trigger and
the last action are kept are names of the same variables, so a value may be replaced by a later one. -/
structure Tells (log : RunLog) (f : Flow) : Prop where
  /-- By each name there is what was last put there. -/
  last : ∀ name, log.memory.lookup name = (log.writes f).reverse.lookup name
  /-- The data of a trigger, unless its name is one of the two and is used again. -/
  data : ∀ n ∈ f.nodes, n.role = .trigger → ∀ earlier later,
    log.executed = earlier ++ n.id :: later → (n.id.name = "trigger" → Unfired f later) →
    (n.id.name = "last_action" → log.Unacted f later) →
    log.memory.lookup n.id.name = some (.record n.data)
  /-- The last trigger, unless its own data are kept by that name. -/
  trigger : ∀ n ∈ f.nodes, n.role = .trigger → ∀ earlier later,
    log.executed = earlier ++ n.id :: later → Unfired f later →
    log.memory.lookup "trigger" =
      some (if n.id.name = "trigger" then .record n.data else n.triggerEntry)
  /-- The last action that did not fail, unless a later trigger has that name. -/
  action : ∀ n ∈ f.nodes, n.role = .action → n.id ∉ log.failed → ∀ earlier later,
    log.executed = earlier ++ n.id :: later → log.Unacted f later →
    (∀ m ∈ f.nodes, m.role = .trigger → m.id.name = "last_action" → m.id ∉ later) →
    ∃ a, n.action = .ok a ∧ log.memory.lookup "last_action" = some (n.actionEntry a)

theorem Remembers.tells (remembers : log.Remembers f) (distinct : (f.nodes.map FlowNode.id).Nodup)
    (once : log.executed.Nodup) : log.Tells f where
  last name := by rw [remembers.memory, Data.lookup_written]
  data n member role earlier later order unfired unacted := by
    have passed : n.id ∉ later := by
      rw [order, List.nodup_append] at once
      exact (List.nodup_cons.1 once.2.1).1
    refine remembers.lookup_memory distinct member order ?_ ?_
    · intro m inside behind write written same
      obtain ⟨isTrigger, named | named⟩ | ⟨isAction, succeeded, named⟩ :=
        FlowNode.name_of_mem_remembered written
      · exact unfired (same.symm.trans named) m inside isTrigger behind
      · have same : m.id = n.id := congrArg NodeId.mk (named.symm.trans same)
        exact passed (same ▸ behind)
      · exact unacted (same.symm.trans named) m inside isAction (by simpa using succeeded) behind
    · rw [FlowNode.remembered_of_trigger role]
      exact (Data.lookup_cons_eq ..).trans (if_pos rfl)
  trigger n member role earlier later order unfired := by
    refine remembers.lookup_memory distinct member order ?_ ?_
    · intro m inside behind write written same
      obtain ⟨isTrigger, -⟩ | ⟨-, -, named⟩ := FlowNode.name_of_mem_remembered written
      · exact unfired m inside isTrigger behind
      · exact absurd (same.symm.trans named) (by decide)
    · -- The data are put there after the entry of the trigger.
      rw [FlowNode.remembered_of_trigger role]
      show List.lookup "trigger" [(n.id.name, .record n.data), ("trigger", n.triggerEntry)] = _
      rw [Data.lookup_cons_eq, Data.lookup_cons_eq, if_pos rfl]
      by_cases named : n.id.name = "trigger"
      · rw [if_pos named, if_pos named.symm]
      · rw [if_neg named, if_neg (Ne.symm named)]
  action n member role unfailed earlier later order unacted unnamed := by
    have ran : n.id ∈ log.executed := order ▸ List.mem_append_right _ List.mem_cons_self
    obtain ⟨a, action⟩ := remembers.acted n member role ran unfailed
    refine ⟨a, action, remembers.lookup_memory distinct member order ?_ ?_⟩
    · intro m inside behind write written same
      obtain ⟨isTrigger, named | named⟩ | ⟨isAction, succeeded, -⟩ :=
        FlowNode.name_of_mem_remembered written
      · exact absurd (same.symm.trans named) (by decide)
      · exact unnamed m inside isTrigger (named.symm.trans same) behind
      · exact unacted m inside isAction (by simpa using succeeded) behind
    · have passed : log.failed.contains n.id = false := by simpa using unfailed
      rw [passed, FlowNode.remembered_of_action role action]
      exact (Data.lookup_cons_eq ..).trans (if_pos rfl)

/-- Of a run in which no node has been executed there is nothing to tell. -/
theorem Tells.start (f : Flow) : (RunLog.start f).Tells f where
  last _ := rfl
  data _ _ _ earlier _ order := by simp [RunLog.start] at order
  trigger _ _ _ earlier _ order := by simp [RunLog.start] at order
  action _ _ _ _ earlier _ order := by simp [RunLog.start] at order

end RunLog

namespace FlowHost

variable {σ : Type} {host : FlowHost σ} {probe : Probe} {f : Flow}

theorem walk_tells (distinct : (f.nodes.map FlowNode.id).Nodup) (start : Nat) :
    (host.walk probe start (.start f) (.start f)).Answers fun answer => answer.2.Tells f := by
  refine walk_visits (P := fun w log => w.Logged log ∧ log.Remembers f) ?_ ?_ ?_ ?_ _ _
    ⟨⟨rfl, List.nodup_nil⟩, List.nil_subset _, rfl, fun _ _ _ ran => absurd ran List.not_mem_nil⟩
  · exact fun front ⟨logged, remembers⟩ _ => ⟨⟨logged.executed, logged.once⟩, remembers⟩
  · exact fun ⟨logged, remembers⟩ _ => remembers.tells distinct logged.nodup
  · exact fun ⟨logged, remembers⟩ _ _ _ => remembers.tells distinct logged.nodup
  · intro w log n depth rest next after front ⟨logged, remembers⟩ unseen short visited
    exact ⟨logged.enter front unseen next visited.gains.executed,
      remembers.visit distinct (w.mem_of_front front) (logged.not_mem_executed unseen) visited⟩

/-- The variables tell of each trigger that ran its data, and the last trigger and the last action that did
not fail. Of two values by one name the later one is told: of a trigger whose name is that of the last
trigger, the data are told and not the trigger. -/
theorem run_tells {others : σ → σ → Prop} {now t : Nat} {s s' : σ} {result : FlowResult}
    (course : (host.run probe f).Reaches others now s (.done result) t s') : result.log.Tells f :=
  (run_answers_log (Q := fun log => log.Tells f) (.start f) fun valid =>
    walk_tells (Flow.isValid_iff.1 valid).2.1).answer course

/-- A trigger by the name under which the last trigger is kept. -/
def wakeFlow : Flow :=
  { id := ⟨.nil⟩, name := "wake", enabled := true
    nodes := [⟨⟨"trigger"⟩, .trigger, "time", [("time", .text "07:00")], []⟩] }

theorem wakeFlow_told : ((emptyHost.run .none wakeFlow).poll 0 ()).left.answer?.map
    (Except.map fun result => (result.log.executed, result.log.memory)) =
      some (.ok ([⟨"trigger"⟩], [("trigger", .record [("time", .text "07:00")])])) := by
  cbv

theorem run_tells_wakeFlow : ∃ result,
    (emptyHost.run .none wakeFlow).Reaches Eq 0 () (.done result) 0 () ∧
      result.log.executed = [⟨"trigger"⟩] ∧ result.log.Tells wakeFlow := by
  obtain ⟨result, course, told⟩ := Process.Reaches.of_poll wakeFlow_told
  exact ⟨result, course, congrArg Prod.fst told, run_tells course⟩

/-- The flow may run and its only trigger is executed, but it is not told as the last trigger. -/
theorem wakeFlow_hides_trigger : wakeFlow.enabled = true ∧ wakeFlow.report.isValid = true ∧
    ∃ n ∈ wakeFlow.nodes, n.role = .trigger ∧ ∃ result,
      (emptyHost.run .none wakeFlow).Reaches Eq 0 () (.done result) 0 () ∧
      result.log.executed = [n.id] ∧ result.log.memory.lookup "trigger" ≠ some n.triggerEntry := by
  obtain ⟨result, course, told⟩ := Process.Reaches.of_poll wakeFlow_told
  obtain ⟨executed, memory⟩ := Prod.mk.inj told
  refine ⟨rfl, by decide, _, List.mem_singleton_self _, rfl, result, course, executed, ?_⟩
  rw [memory]
  simp [FlowNode.triggerEntry]

end FlowHost

end Hearth
