import DuraLLM.Lib.JsonAccess
import DuraLLM.Protocol.Ir

/-! # Snapshots of the agent state

`AgentState` is written as JSON, with each field under its own name, and read
back from there.  A field may hold any JSON value.
-/

namespace DuraLLM

/-- The defaults of the identifier and of the time are made up anew for each state, and
    have to be given here. -/
structure AgentState where
  agentId : JsonValue
  objective : JsonValue := .ofRaw (.str "")
  constraints : JsonValue := .ofRaw (.arr [])
  importantDecisions : JsonValue := .ofRaw (.arr [])
  toolDefinitions : List (NormalizedToolDefinition JsonValue) := []
  toolExecutionState : JsonValue := .ofRaw (.obj [])
  knownFiles : JsonValue := .ofRaw (.obj [])
  latestToolOutputs : JsonValue := .ofRaw (.obj [])
  unresolvedErrors : JsonValue := .ofRaw (.arr [])
  currentSubgoal : JsonValue := .ofRaw .null
  version : JsonValue := .ofRaw (.int 1)
  updatedAt : JsonValue

structure StateSnapshot where
  snapshotId : String
  agentId : JsonValue
  version : JsonValue
  payloadJson : String
  digest : String
  createdAt : Seconds

/-- The library functions and the clock of one call. -/
structure SnapshotCall where
  sha256 : String → String
  /-- `str` of a value. -/
  str : JsonValue → String
  now : Seconds

namespace StateSnapshot

def toolData (t : NormalizedToolDefinition JsonValue) : JsonRaw :=
  .obj [("name", .str t.name), ("description", .str t.description), ("parameters", t.parameters.raw)]

def data (state : AgentState) : List (String × JsonRaw) :=
  [("agent_id", state.agentId.raw),
    ("objective", state.objective.raw),
    ("constraints", state.constraints.raw),
    ("important_decisions", state.importantDecisions.raw),
    ("tool_definitions", .arr (state.toolDefinitions.map toolData)),
    ("tool_execution_state", state.toolExecutionState.raw),
    ("known_files", state.knownFiles.raw),
    ("latest_tool_outputs", state.latestToolOutputs.raw),
    ("unresolved_errors", state.unresolvedErrors.raw),
    ("current_subgoal", state.currentSubgoal.raw),
    ("version", state.version.raw),
    ("updated_at", state.updatedAt.raw)]

/-- `json.dumps(data, sort_keys=True, ensure_ascii=False)` -/
def payloadOf (state : AgentState) : String :=
  (JsonValue.ofRaw (.obj (data state))).dumps .verbatim

def fromAgentState (call : SnapshotCall) (state : AgentState) : StateSnapshot :=
  let rawJson := payloadOf state
  let digest := call.sha256 rawJson
  { snapshotId := "snap_" ++ call.str state.agentId ++ "_" ++ call.str state.version ++ "_" ++
      String.ofList (digest.toList.take 8)
    agentId := state.agentId
    version := state.version
    payloadJson := rawJson
    digest := digest
    createdAt := call.now }

/-- `for t in value`.  Objects give their keys and texts their characters. -/
def itemsOf : JsonRaw → Option (List JsonRaw)
  | .arr items => some items
  | .obj members => some (members.map fun m => .str m.1)
  | .str text => some (text.toList.map fun c => .str (String.ofList [c]))
  | .scalar _ => none

/-- `value[key]` -/
def subscript (v : JsonRaw) (key : String) : Option JsonRaw :=
  match v with
  | .obj members => members.lookup key
  | _ => none

/-- The fields of a tool definition take any value; this one has texts for the first two. -/
def toolOf (t : JsonRaw) : Option (NormalizedToolDefinition JsonValue) := do
  let name ← subscript t "name"
  let description ← t.get "description" (.str "")
  let parameters ← t.get "parameters" (.obj [])
  return { name := ← name.asStr, description := ← description.asStr, parameters := .ofRaw parameters }

/-- `restore_agent_state`; `now` is the time of the call. -/
def restoreAgentState (snapshot : StateSnapshot) (now : JsonValue) : Option AgentState := do
  let data := (← JsonValue.loads snapshot.payloadJson).raw
  let definitions ← itemsOf (← data.get "tool_definitions" (.arr []))
  let tools ← definitions.mapM toolOf
  return {
    agentId := .ofRaw (← subscript data "agent_id")
    objective := .ofRaw (← data.get "objective" (.str ""))
    constraints := .ofRaw (← data.get "constraints" (.arr []))
    importantDecisions := .ofRaw (← data.get "important_decisions" (.arr []))
    toolDefinitions := tools
    toolExecutionState := .ofRaw (← data.get "tool_execution_state" (.obj []))
    knownFiles := .ofRaw (← data.get "known_files" (.obj []))
    latestToolOutputs := .ofRaw (← data.get "latest_tool_outputs" (.obj []))
    unresolvedErrors := .ofRaw (← data.get "unresolved_errors" (.arr []))
    currentSubgoal := .ofRaw (← data.get "current_subgoal" .null)
    version := .ofRaw (← data.get "version" (.int 1))
    updatedAt := .ofRaw (← data.get "updated_at" now.raw) }

end StateSnapshot

def AgentState.createSnapshot (call : SnapshotCall) (state : AgentState) : StateSnapshot :=
  StateSnapshot.fromAgentState call state

/-! ## Reading back -/

/-- The tool definition as far as a snapshot has it. -/
def NormalizedToolDefinition.uncached (t : NormalizedToolDefinition JsonValue) :
    NormalizedToolDefinition JsonValue :=
  { t with cacheControl := none }

/-- The state as far as a snapshot has it. -/
def AgentState.uncached (state : AgentState) : AgentState :=
  { state with toolDefinitions := state.toolDefinitions.map (·.uncached) }

namespace StateSnapshot

theorem ofRaw_sorted (v : JsonValue) : JsonValue.ofRaw v.raw.sorted = v := by
  apply JsonValue.ext
  change v.raw.sorted.sorted = v.raw
  rw [v.canonical.sorted_eq, v.canonical.sorted_eq]

theorem sortedItems_map {α : Type} (f : α → JsonRaw) (items : List α) :
    JsonRaw.sortedItems (items.map f) = items.map fun item => (f item).sorted := by
  induction items with
  | nil => rfl
  | cons item items ih => rw [List.map_cons, JsonRaw.sortedItems, ih, List.map_cons]

theorem toolOf_toolData (t : NormalizedToolDefinition JsonValue) :
    toolOf (toolData t).sorted = some t.uncached := by
  have name := JsonRaw.lookup_sortedMembers "name"
    [("name", .str t.name), ("description", .str t.description), ("parameters", t.parameters.raw)]
  simp only [toolOf, toolData, JsonRaw.sorted, subscript, JsonRaw.get_sorted, name]
  simp [JsonRaw.field, JsonRaw.sorted, JsonRaw.asStr, ofRaw_sorted,
    NormalizedToolDefinition.uncached]

theorem tools_back (tools : List (NormalizedToolDefinition JsonValue)) :
    (tools.map fun t => (toolData t).sorted).mapM toolOf = some (tools.map (·.uncached)) := by
  induction tools with
  | nil => rfl
  | cons t tools ih =>
      rw [List.map_cons, List.mapM_cons, toolOf_toolData, ih]
      rfl

theorem field_absent {members : List (String × JsonRaw)} {key : String}
    (absent : key ∉ members.map Prod.fst) : JsonRaw.field key members = none := by
  induction members with
  | nil => rfl
  | cons first members ih =>
      rw [List.map_cons, List.mem_cons, not_or] at absent
      rw [JsonRaw.field, ih absent.2, if_neg absent.1, Option.none_or]

/-- Under distinct keys every member counts. -/
theorem field_eq {members : List (String × JsonRaw)} (distinct : (members.map Prod.fst).Nodup)
    {key : String} {v : JsonRaw} (member : (key, v) ∈ members) :
    JsonRaw.field key members = some v.sorted := by
  induction members with
  | nil => cases member
  | cons first members ih =>
      obtain ⟨name, w⟩ := first
      obtain ⟨fresh, distinct⟩ := List.nodup_cons.mp distinct
      rw [JsonRaw.field]
      cases List.mem_cons.mp member with
      | inl here =>
          cases here
          have absent := field_absent fresh
          rw [absent, if_pos rfl, Option.none_or]
      | inr later => rw [ih distinct later, Option.some_or]

/-- A snapshot gives back everything but the cache control of the tools. -/
theorem restore_fromAgentState (call : SnapshotCall) (state : AgentState) (now : JsonValue) :
    (fromAgentState call state).restoreAgentState now = some state.uncached := by
  have read : JsonValue.loads (fromAgentState call state).payloadJson =
      some (JsonValue.ofRaw (.obj (data state))) := JsonValue.loads_dumps .verbatim _
  have getField (key : String) (default : JsonRaw) :
      (JsonValue.ofRaw (.obj (data state))).raw.get key default =
        some ((JsonRaw.field key (data state)).getD default) := JsonRaw.get_sorted _ _ _
  have subscriptField (key : String) :
      subscript (JsonValue.ofRaw (.obj (data state))).raw key = JsonRaw.field key (data state) :=
    JsonRaw.lookup_sortedMembers _ _
  have distinct : ((data state).map Prod.fst).Nodup := by simp [data]
  have field {key : String} {v : JsonRaw} (member : (key, v) ∈ data state) :
      JsonRaw.field key (data state) = some v.sorted := field_eq distinct member
  have tools := tools_back state.toolDefinitions
  rw [← sortedItems_map] at tools
  have items : itemsOf (JsonRaw.arr (state.toolDefinitions.map toolData)).sorted =
      some (JsonRaw.sortedItems (state.toolDefinitions.map toolData)) := rfl
  have get (key : String) (v : JsonRaw) (member : (key, v) ∈ data state) (default : JsonRaw) :
      (JsonValue.ofRaw (.obj (data state))).raw.get key default = some v.sorted := by
    rw [getField, field member, Option.getD_some]
  have agentId : subscript (JsonValue.ofRaw (.obj (data state))).raw "agent_id" =
      some state.agentId.raw.sorted := (subscriptField _).trans (field (by simp [data]))
  have definitions := get "tool_definitions" (.arr (state.toolDefinitions.map toolData))
    (by simp [data]) (.arr [])
  have objective := get "objective" state.objective.raw (by simp [data]) (.str "")
  have constraints := get "constraints" state.constraints.raw (by simp [data]) (.arr [])
  have importantDecisions := get "important_decisions" state.importantDecisions.raw (by simp [data]) (.arr [])
  have toolExecutionState := get "tool_execution_state" state.toolExecutionState.raw (by simp [data]) (.obj [])
  have knownFiles := get "known_files" state.knownFiles.raw (by simp [data]) (.obj [])
  have latestToolOutputs := get "latest_tool_outputs" state.latestToolOutputs.raw (by simp [data]) (.obj [])
  have unresolvedErrors := get "unresolved_errors" state.unresolvedErrors.raw (by simp [data]) (.arr [])
  have currentSubgoal := get "current_subgoal" state.currentSubgoal.raw (by simp [data]) .null
  have version := get "version" state.version.raw (by simp [data]) (.int 1)
  have updatedAt := get "updated_at" state.updatedAt.raw (by simp [data]) now.raw
  rw [restoreAgentState, read]
  dsimp only [Option.bind_eq_bind, Option.bind_some]
  rw [definitions]
  dsimp only [Option.bind_some]
  rw [items, agentId]
  dsimp only [Option.bind_some]
  rw [tools, objective, constraints, importantDecisions, toolExecutionState, knownFiles,
    latestToolOutputs, unresolvedErrors, currentSubgoal, version, updatedAt]
  dsimp only [Option.bind_some]
  simp only [ofRaw_sorted]
  rfl

theorem payloadOf_uncached (state : AgentState) : payloadOf state.uncached = payloadOf state := by
  have tools : (state.toolDefinitions.map (·.uncached)).map toolData =
      state.toolDefinitions.map toolData := List.map_map
  have same : data state.uncached = data state := by
    rw [data, data, AgentState.uncached]
    simp only [tools]
  rw [payloadOf, payloadOf, same]

/-- Only the payload of a snapshot is read. -/
theorem restore_congr {snapshot other : StateSnapshot}
    (same : snapshot.payloadJson = other.payloadJson) (now : JsonValue) :
    snapshot.restoreAgentState now = other.restoreAgentState now := by
  rw [restoreAgentState, restoreAgentState, same]

/-- Two states have one payload when they agree but for the cache control of tools. -/
theorem payloadOf_eq_iff (state other : AgentState) :
    payloadOf state = payloadOf other ↔ state.uncached = other.uncached := by
  constructor
  · intro same
    let call : SnapshotCall := { sha256 := id, str := fun _ => "", now := 0 }
    have alike : (fromAgentState call state).restoreAgentState state.updatedAt =
        (fromAgentState call other).restoreAgentState state.updatedAt := restore_congr same _
    rw [restore_fromAgentState, restore_fromAgentState] at alike
    exact Option.some.inj alike
  · intro same
    rw [← payloadOf_uncached state, same, payloadOf_uncached]

end StateSnapshot

/-! ## What is lost -/

theorem AgentState.uncached_eq_iff (state : AgentState) :
    state.uncached = state ↔ ∀ t ∈ state.toolDefinitions, t.cacheControl = none := by
  have bare (t : NormalizedToolDefinition JsonValue) : t.uncached = t ↔ t.cacheControl = none := by
    constructor
    · intro same
      rw [← same]
      rfl
    · intro none
      cases t
      simpa [NormalizedToolDefinition.uncached] using none.symm
  constructor
  · intro same t member
    have tools := congrArg AgentState.toolDefinitions same
    have each := List.map_inj_left.mp (tools.trans (List.map_id _).symm) t member
    exact (bare t).mp each
  · intro plain
    have tools : state.toolDefinitions.map (·.uncached) = state.toolDefinitions := by
      refine (List.map_congr_left fun t member => ?_).trans (List.map_id _)
      exact (bare t).mpr (plain t member)
    rw [AgentState.uncached, tools]

/-- A state comes back from its snapshot exactly when none of its tools has a cache
    control, and two states have different payloads exactly when they differ in more
    than that. -/
theorem snapshot_lossless_iff (call otherCall : SnapshotCall) (state other : AgentState)
    (now : JsonValue) :
    ((state.createSnapshot call).restoreAgentState now = some state ↔
      ∀ t ∈ state.toolDefinitions, t.cacheControl = none) ∧
      ((state.createSnapshot call).payloadJson ≠ (other.createSnapshot otherCall).payloadJson ↔
        state.uncached ≠ other.uncached) := by
  constructor
  · rw [← AgentState.uncached_eq_iff, AgentState.createSnapshot,
      StateSnapshot.restore_fromAgentState, Option.some.injEq]
  · exact (StateSnapshot.payloadOf_eq_iff state other).not

/-- A tool whose definition the provider is to cache. -/
def cachedTool : NormalizedToolDefinition JsonValue where
  name := "search"
  parameters := .ofRaw (.obj [])
  cacheControl := some (.ofRaw (.obj [("type", .str "ephemeral")]))

def cachedState : AgentState where
  agentId := .ofRaw (.str "agent")
  updatedAt := .ofRaw (.int 0)
  toolDefinitions := [cachedTool]

/-- The cache control is gone after recovery. -/
theorem cache_control_lost :
    ¬∀ (call : SnapshotCall) (state : AgentState) (now : JsonValue),
      (state.createSnapshot call).restoreAgentState now = some state := by
  intro lossless
  let call : SnapshotCall := { sha256 := id, str := fun _ => "", now := 0 }
  have back := lossless call cachedState cachedState.updatedAt
  have kept := StateSnapshot.restore_fromAgentState call cachedState cachedState.updatedAt
  have same := Option.some.inj (kept.symm.trans back)
  have none := cachedState.uncached_eq_iff.mp same cachedTool List.mem_cons_self
  cases none

end DuraLLM
