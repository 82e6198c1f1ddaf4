import Hearth.Automation
import Hearth.Flow.Basic
import Hearth.Proofs.Data.Identifier
import Hearth.Proofs.Data.Reading

/-!
# Hearth.Proofs.Data.RoundTrip

Automations and flows are written as data and read again. What is well formed comes back as it was;
what was read out of data with a JSON form is well formed, so that it comes back, too, however it was
written at first.

## Main result

`read_written_again`: both for automations and for flows.
-/

namespace Hearth

open Data (IsJson Kept Yields nullable?_ofOption nullable?_kept listOf?_map)

@[simp] theorem DeviceId.ofData?_toData (id : DeviceId) : ofData? id.toData = some id := rfl

@[simp] theorem NodeId.ofData?_toData (id : NodeId) : ofData? id.toData = some id := rfl

/-- The identifier of a record is there: as an entry of its name, or as the first item. -/
def Data.GivesId : Data → Prop
  | .record entries => ∃ value, ("id", value) ∈ entries
  | .list items => items ≠ []
  | _ => False

/-- Where the identifier is there, no fresh one is taken. -/
theorem inRange_of_orElse {kind : IdKind} {names : List String} {d : Data} {f : Fields}
    {fresh id : Id kind} (given : d.GivesId) (known : Fields.read? ("id" :: names) d = some f)
    (read : f.orElse "id" fresh Id.ofData? = some id) : id.uuid.InRange := by
  have there : ∃ value, ("id", value) ∈ f.entries := by
    cases d with
    | record entries =>
      obtain ⟨value, member⟩ := given
      simp only [Fields.read?] at known
      split at known
      · cases known
        exact ⟨value, List.mem_filter.2 ⟨member, by simp⟩⟩
      · cases known
    | list items =>
      obtain ⟨first, rest, rfl⟩ := List.exists_cons_of_ne_nil given
      simp only [Fields.read?] at known
      split at known
      · cases known
        exact ⟨first, List.mem_cons_self⟩
      · cases known
    | _ => exact given.elim
  cases found : f.get? "id" with
  | none =>
    obtain ⟨value, member⟩ := there
    exact absurd (List.lookup_eq_none_iff.1 found _ member) (by simp)
  | some value =>
    rw [Fields.orElse, found] at read
    exact Id.inRange_of_ofData? read

/-! ### Triggers -/

namespace Trigger

/-- An offset has 32 bits, a threshold is finite, an identifier has 32 digits, and a free value is as
it is kept. -/
def WellFormed : Trigger → Prop
  | sun _ offset _ => -2147483648 ≤ offset ∧ offset ≤ 2147483647
  | condition _ _ threshold value => (∀ x ∈ threshold, x.isFinite = true) ∧ Kept value
  | geofence fence _ => fence.uuid.InRange
  | _ => True

theorem nullable?_daysToData (days : Option (List String)) :
    Data.nullable? readDays? (daysToData days) = some days :=
  nullable?_ofOption (fun _ _ => nofun) fun _ _ => listOf?_map fun _ _ => rfl

theorem nullable?_device (device : Option DeviceId) :
    Data.nullable? DeviceId.ofData? (Data.ofOption DeviceId.toData device) = some device :=
  nullable?_ofOption (fun _ _ => nofun) fun id _ => DeviceId.ofData?_toData id

theorem nullable?_operator (comparison : Option Comparison) :
    Data.nullable? (fun d => d.looseWord?.bind Comparison.ofText?)
      (Data.ofOption (fun op => .text op.symbol) comparison) = some comparison :=
  nullable?_ofOption (fun _ _ => nofun) fun op _ => Comparison.ofText?_symbol op

theorem nullable?_threshold {threshold : Option Float} (finite : ∀ x ∈ threshold, x.isFinite = true) :
    Data.nullable? Data.float? (Data.ofOption .finite threshold) = some threshold := by
  have written : ∀ x ∈ threshold, Data.finite x = .real x := fun x member => if_pos (finite x member)
  refine nullable?_ofOption (fun x member => ?_) fun x member => ?_
  · rw [written x member]
    nofun
  · rw [written x member]
    rfl

theorem ofData?_toData {t : Trigger} (wellFormed : t.WellFormed) : ofData? t.toData = some t := by
  cases t with
  | time written days =>
    simp [toData, ofData?, readTag?, Fields.read?_record, Fields.required, Fields.optional,
      Fields.orElse, nullable?_daysToData]
  | sun event offset days =>
    simp [toData, ofData?, readTag?, Fields.read?_record, Fields.required, Fields.optional,
      Fields.orElse, nullable?_daysToData, SunEvent.ofText?_text, Data.wholeIn?_whole wellFormed]
  | condition device comparison threshold value =>
    simp [toData, ofData?, readTag?, Fields.read?_record, Fields.optional, Fields.orElse,
      nullable?_device, nullable?_operator, nullable?_threshold wellFormed.1,
      nullable?_kept wellFormed.2]
  | geofence fence crossing =>
    simp [toData, ofData?, readTag?, Fields.read?_record, Fields.required,
      Id.ofData?_toData wellFormed, Crossing.ofText?_text]
  | manual => rfl

theorem isJson_of_readTag? {d body : Data} {tag : String} (json : d.IsJson)
    (read : readTag? d = some (tag, body)) : body.IsJson := by
  unfold readTag? at read
  split at read
  · split at read
    · obtain ⟨_, _, same⟩ := Option.map_eq_some_iff.1 read
      cases same
      cases json with
      | record all => exact .record fun entry member => all entry (List.mem_filter.1 member).1
    · cases read
  · obtain ⟨_, _, same⟩ := Option.map_eq_some_iff.1 read
    cases same
    cases json with
    | list all => exact .list fun item member => all item (List.mem_cons_of_mem _ member)
  · cases read

theorem wellFormed_of_ofData? : Yields ofData? WellFormed := by
  intro d t json read
  obtain ⟨⟨tag, body⟩, tagged, read⟩ := Option.bind_eq_some_iff.1 read
  have json := isJson_of_readTag? json tagged
  dsimp only at read
  split at read
  · obtain ⟨f, -, read⟩ := Option.bind_eq_some_iff.1 read
    obtain ⟨written, -, read⟩ := Option.bind_eq_some_iff.1 read
    obtain ⟨days, -, made⟩ := Option.bind_eq_some_iff.1 read
    cases made
    trivial
  · obtain ⟨f, fields, read⟩ := Option.bind_eq_some_iff.1 read
    have json := Fields.isJson_of_read? json fields
    obtain ⟨event, -, read⟩ := Option.bind_eq_some_iff.1 read
    obtain ⟨offset, number, read⟩ := Option.bind_eq_some_iff.1 read
    obtain ⟨days, -, made⟩ := Option.bind_eq_some_iff.1 read
    cases made
    exact json.orElse (Yields.wholeIn? _ _) (by decide) number
  -- A condition has two names.
  iterate 2
    · obtain ⟨f, fields, read⟩ := Option.bind_eq_some_iff.1 read
      have json := Fields.isJson_of_read? json fields
      obtain ⟨device, -, read⟩ := Option.bind_eq_some_iff.1 read
      obtain ⟨comparison, -, read⟩ := Option.bind_eq_some_iff.1 read
      obtain ⟨threshold, number, read⟩ := Option.bind_eq_some_iff.1 read
      obtain ⟨value, free, made⟩ := Option.bind_eq_some_iff.1 read
      cases made
      exact ⟨json.optional Yields.float? number, json.orElse Yields.kept Data.kept_none free⟩
  · obtain ⟨f, -, read⟩ := Option.bind_eq_some_iff.1 read
    obtain ⟨fence, known, read⟩ := Option.bind_eq_some_iff.1 read
    obtain ⟨crossing, -, made⟩ := Option.bind_eq_some_iff.1 read
    obtain ⟨d, -, known⟩ := Option.bind_eq_some_iff.1 known
    cases made
    exact Id.inRange_of_ofData? known
  · split at read
    · cases read
    · cases read
      trivial
  · cases read

end Trigger

/-! ### Actions and automations -/

namespace Action

def WellFormed (a : Action) : Prop :=
  Kept a.value

theorem ofData?_toData {a : Action} (wellFormed : a.WellFormed) : ofData? a.toData = some a := by
  obtain ⟨device, kind, value⟩ := a
  have kept := nullable?_kept wellFormed
  cases value with
  | none =>
    simp [toData, ofData?, fieldNames, Fields.read?_record, Fields.required, Fields.optional,
      Fields.orElse, ActionKind.ofText?_text]
  | some value =>
    simp [toData, ofData?, fieldNames, Fields.read?_record, Fields.required, Fields.optional,
      Fields.orElse, ActionKind.ofText?_text] at kept ⊢
    simp [kept]

theorem wellFormed_of_ofData? : Yields ofData? WellFormed := by
  intro d a json read
  obtain ⟨f, fields, read⟩ := Option.bind_eq_some_iff.1 read
  obtain ⟨device, -, read⟩ := Option.bind_eq_some_iff.1 read
  obtain ⟨kind, -, read⟩ := Option.bind_eq_some_iff.1 read
  obtain ⟨value, free, made⟩ := Option.bind_eq_some_iff.1 read
  cases made
  exact (Fields.isJson_of_read? json fields).orElse Yields.kept Data.kept_none free

end Action

namespace Automation

structure WellFormed (a : Automation) : Prop where
  id : a.id.uuid.InRange
  triggers : ∀ t ∈ a.triggers, t.WellFormed
  actions : ∀ action ∈ a.actions, action.WellFormed

theorem ofData?_toData {a : Automation} (wellFormed : a.WellFormed) (fresh : AutomationId) :
    ofData? fresh a.toData = some a := by
  have id := Id.ofData?_toData wellFormed.id
  have triggers := listOf?_map fun t member => Trigger.ofData?_toData (wellFormed.triggers t member)
  have actions := listOf?_map fun t member => Action.ofData?_toData (wellFormed.actions t member)
  simp [toData, ofData?, fieldNames, Fields.read?_record, Fields.required, Fields.orElse, id,
    triggers, actions, Data.bool?]

theorem wellFormed_of_ofData? {d : Data} {a : Automation} {fresh : AutomationId} (json : d.IsJson)
    (given : d.GivesId) (read : ofData? fresh d = some a) : a.WellFormed := by
  obtain ⟨f, fields, read⟩ := Option.bind_eq_some_iff.1 read
  have json := Fields.isJson_of_read? json fields
  obtain ⟨id, known, read⟩ := Option.bind_eq_some_iff.1 read
  obtain ⟨name, -, read⟩ := Option.bind_eq_some_iff.1 read
  obtain ⟨enabled, -, read⟩ := Option.bind_eq_some_iff.1 read
  obtain ⟨triggers, triggersRead, read⟩ := Option.bind_eq_some_iff.1 read
  obtain ⟨actions, actionsRead, made⟩ := Option.bind_eq_some_iff.1 read
  cases made
  exact {
    id := inRange_of_orElse given fields known
    triggers := json.orElse Trigger.wellFormed_of_ofData?.listOf? (List.forall_mem_nil _) triggersRead
    actions := json.orElse Action.wellFormed_of_ofData?.listOf? (List.forall_mem_nil _) actionsRead }

end Automation

/-! ### Flows -/

namespace FlowNode

/-- The entries of a node are those of a sorted record. -/
def WellFormed (n : FlowNode) : Prop :=
  Data.Sorted (.record n.data)

theorem ofData?_toData {n : FlowNode} (wellFormed : n.WellFormed) : ofData? n.toData = some n := by
  have data : readEntries? (.record n.data) = some n.data := by
    simp [readEntries?, Data.normalize_of_sorted wellFormed]
  have connections := listOf?_map fun id (_ : id ∈ n.connections) => NodeId.ofData?_toData id
  simp [toData, ofData?, fieldNames, Fields.read?_record, Fields.required, Fields.orElse, data,
    connections, NodeRole.ofText?_text]

theorem wellFormed_of_ofData? : Yields ofData? WellFormed := by
  have entries : Yields readEntries? fun entries => Data.Sorted (.record entries) := by
    intro d entries json read
    have sorted := Data.sorted_normalize d
    unfold readEntries? at read
    split at read
    · next same =>
      cases read
      exact same ▸ sorted
    · cases read
  intro d n json read
  obtain ⟨f, fields, read⟩ := Option.bind_eq_some_iff.1 read
  obtain ⟨id, -, read⟩ := Option.bind_eq_some_iff.1 read
  obtain ⟨role, -, read⟩ := Option.bind_eq_some_iff.1 read
  obtain ⟨subtype, -, read⟩ := Option.bind_eq_some_iff.1 read
  obtain ⟨data, sorted, read⟩ := Option.bind_eq_some_iff.1 read
  obtain ⟨connections, -, made⟩ := Option.bind_eq_some_iff.1 read
  cases made
  exact (Fields.isJson_of_read? json fields).orElse entries (Data.sorted_normalize (.record [])) sorted

end FlowNode

namespace Flow

structure WellFormed (f : Flow) : Prop where
  id : f.id.uuid.InRange
  nodes : ∀ n ∈ f.nodes, n.WellFormed

theorem ofData?_toData {f : Flow} (wellFormed : f.WellFormed) (fresh : FlowId) :
    ofData? fresh f.toData = some f := by
  have id := Id.ofData?_toData wellFormed.id
  have nodes := listOf?_map fun n member => FlowNode.ofData?_toData (wellFormed.nodes n member)
  simp [toData, ofData?, fieldNames, Fields.read?_record, Fields.required, Fields.orElse, id, nodes,
    Data.bool?]

theorem wellFormed_of_ofData? {d : Data} {flow : Flow} {fresh : FlowId} (json : d.IsJson)
    (given : d.GivesId) (read : ofData? fresh d = some flow) : flow.WellFormed := by
  obtain ⟨f, fields, read⟩ := Option.bind_eq_some_iff.1 read
  have json := Fields.isJson_of_read? json fields
  obtain ⟨id, known, read⟩ := Option.bind_eq_some_iff.1 read
  obtain ⟨name, -, read⟩ := Option.bind_eq_some_iff.1 read
  obtain ⟨nodes, nodesRead, read⟩ := Option.bind_eq_some_iff.1 read
  obtain ⟨enabled, -, made⟩ := Option.bind_eq_some_iff.1 read
  cases made
  exact {
    id := inRange_of_orElse given fields known
    nodes := json.required FlowNode.wellFormed_of_ofData?.listOf? nodesRead }

end Flow

/-! ### Round trips -/

/-- What is well formed comes back as it was written. What was read out of data with a JSON form that
gives an identifier comes back, too, whichever of the ways to write it the data used. -/
theorem read_written_again :
    (∀ (a : Automation) (fresh : AutomationId), a.WellFormed →
      Automation.ofData? fresh a.toData = some a) ∧
    (∀ (f : Flow) (fresh : FlowId), f.WellFormed → Flow.ofData? fresh f.toData = some f) ∧
    (∀ (d : Data) (a : Automation) (fresh another : AutomationId), d.IsJson → d.GivesId →
      Automation.ofData? fresh d = some a → Automation.ofData? another a.toData = some a) ∧
    (∀ (d : Data) (f : Flow) (fresh another : FlowId), d.IsJson → d.GivesId →
      Flow.ofData? fresh d = some f → Flow.ofData? another f.toData = some f) := by
  refine ⟨fun a fresh wellFormed => Automation.ofData?_toData wellFormed fresh,
    fun f fresh wellFormed => Flow.ofData?_toData wellFormed fresh, ?_, ?_⟩
  · intro d a fresh another json given read
    exact Automation.ofData?_toData (Automation.wellFormed_of_ofData? json given read) another
  · intro d f fresh another json given read
    exact Flow.ofData?_toData (Flow.wellFormed_of_ofData? json given read) another

/-! ### A porch -/

/-- A trigger of each kind, an action with a value and one without. -/
def porch : Automation where
  id := ⟨⟨7⟩⟩
  name := "porch"
  enabled := true
  triggers := [.time "07:30" (some ["mon", "fri"]), .sun .sunset (-15) none,
    .condition (some ⟨"lux"⟩) (some .less) (some (Numeral.wholeToFloat 22))
      (some (.record [("a", .whole 1), ("b", .list [.null])])),
    .geofence ⟨⟨9⟩⟩ .leave, .manual]
  actions := [⟨⟨"lamp"⟩, .setBrightness, some (.whole 40)⟩, ⟨⟨"fan"⟩, .turnOff, none⟩]

theorem wellFormed_porch : porch.WellFormed where
  id := by decide
  triggers := by
    have value : Data.Sorted (.record [("a", .whole 1), ("b", .list [.null])]) := by
      refine .record (by decide) ?_
      simpa using ⟨.number _, .list (by simpa using .null)⟩
    simp [porch, Trigger.WellFormed, Kept, value, Number.isFinite_wholeToFloat, Uuid.InRange]
  actions := by
    simp [porch, Action.WellFormed, Kept, Data.whole, Data.Sorted.number]

/-- A condition under its other names; most fields are left out, and one has no meaning. -/
def porchWritten : Data :=
  .record [("name", .text "porch"), ("note", .bool false), ("id", Id.toData porch.id),
    ("triggers", .list [.record [("type", .text "device_state"), ("device_id", .text "lux"),
      ("operator", .text "lt"), ("threshold", .whole 22)]])]

def porchRead : Automation where
  id := porch.id
  name := "porch"
  enabled := true
  triggers := [.condition (some ⟨"lux"⟩) (some .less) (some (Numeral.wholeToFloat 22)) none]
  actions := []

theorem ofData?_porchWritten (fresh : AutomationId) :
    Automation.ofData? fresh porchWritten = some porchRead := by
  have id := Id.ofData?_toData wellFormed_porch.id
  simp [Automation.ofData?, Automation.fieldNames, porchWritten, Fields.read?, Fields.distinct,
    Fields.required, Fields.optional, Fields.orElse, id, Data.listOf?, Trigger.ofData?,
    Trigger.readTag?]
  rfl

def porchFlow : Flow where
  id := ⟨⟨8⟩⟩
  name := ""
  nodes := [⟨⟨"dusk"⟩, .trigger, "sun", [("event", .text "sunset"), ("offset", .whole 5)], [⟨"lamp"⟩]⟩]
  enabled := false

theorem wellFormed_porchFlow : porchFlow.WellFormed where
  id := by decide
  nodes := by
    have data : Data.Sorted (.record [("event", .text "sunset"), ("offset", .whole 5)]) := by
      refine .record (by decide) ?_
      simpa using ⟨.text _, .number _⟩
    simp [porchFlow, FlowNode.WellFormed, data]

theorem isJson_porchWritten : porchWritten.IsJson := by
  have condition : IsJson (.record [("type", .text "device_state"), ("device_id", .text "lux"),
      ("operator", .text "lt"), ("threshold", .whole 22)]) :=
    .record (by simpa using ⟨.text _, .text _, .text _, .whole _⟩)
  refine .record ?_
  simpa using ⟨.text _, .bool _, .text _, .list (by simpa using condition)⟩

/-- The bare list of the values of a flow, the last one left out. -/
def porchFlowWritten : Data :=
  .list [Id.toData porchFlow.id, .text "", .list []]

theorem isJson_porchFlowWritten : porchFlowWritten.IsJson :=
  .list (by simpa using ⟨.text _, .text _, .list (List.forall_mem_nil _)⟩)

theorem ofData?_porchFlowWritten (fresh : FlowId) :
    Flow.ofData? fresh porchFlowWritten = some ⟨porchFlow.id, "", [], true⟩ := by
  have id := Id.ofData?_toData wellFormed_porchFlow.id
  simp [Flow.ofData?, Flow.fieldNames, porchFlowWritten, Fields.read?, Fields.required,
    Fields.orElse, id, Data.listOf?]

theorem read_written_again_porch :
    Automation.ofData? ⟨.nil⟩ porch.toData = some porch ∧
    Flow.ofData? ⟨.nil⟩ porchFlow.toData = some porchFlow ∧
    Automation.ofData? ⟨.nil⟩ porchRead.toData = some porchRead ∧
    Flow.ofData? ⟨.nil⟩ (Flow.toData ⟨porchFlow.id, "", [], true⟩) =
      some ⟨porchFlow.id, "", [], true⟩ :=
  ⟨read_written_again.1 porch ⟨.nil⟩ wellFormed_porch,
    read_written_again.2.1 porchFlow ⟨.nil⟩ wellFormed_porchFlow,
    read_written_again.2.2.1 porchWritten porchRead ⟨.nil⟩ ⟨.nil⟩ isJson_porchWritten
      ⟨Id.toData porch.id, by simp⟩ (ofData?_porchWritten _),
    read_written_again.2.2.2 porchFlowWritten _ ⟨.nil⟩ ⟨.nil⟩ isJson_porchFlowWritten
      (List.cons_ne_nil _ _) (ofData?_porchFlowWritten _)⟩

end Hearth
