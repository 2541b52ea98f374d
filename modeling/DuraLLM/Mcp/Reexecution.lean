import DuraLLM.Mcp.Replays

/-! # When a tool runs again

A handler that returned has had its effect.  Over the durable ledger it never
runs again for the same operation.  Over the in-process ledger the receipt is
what keeps it from running again, and not every return leaves one behind.
-/

namespace DuraLLM

/-- In a log with the latest invocation first, no invocation that returned is
    repeated. -/
def NoneRepeated (invocations : List (ToolOperation JsonValue × HandlerOutcome)) : Prop :=
  invocations.Pairwise fun later earlier =>
    later.1 = earlier.1 → ∃ message, earlier.2 = .raised message

/-! ## Durably -/

section Durably

variable {Payload : Type} {proxy : McpProxy} {sha256 : String → String} {world : ProxyWorld}
  {s : ProxyState (LedgerSystem JsonValue Payload)}

/-- Every invocation has a row, and there is one for each operation at most. -/
structure ProxyState.InvokedOnce (sha256 : String → String)
    (s : ProxyState (LedgerSystem JsonValue Payload)) : Prop where
  rows : ∀ invocation ∈ s.invocations,
    (s.ledger.db.operations.get (invocation.1.key sha256)).isSome
  once : s.invocations.Pairwise fun later earlier => later.1 ≠ earlier.1

theorem McpProxy.DurablyServed.invokedOnce {o : ToolOperation JsonValue}
    {served : McpResponse × ProxyState (LedgerSystem JsonValue Payload)}
    (ends : proxy.DurablyServed sha256 o s served) (before : s.InvokedOnce sha256) :
    served.2.InvokedOnce sha256 := by
  have rows : ∀ invocation ∈ s.invocations,
      (served.2.ledger.db.operations.get (invocation.1.key sha256)).isSome :=
    fun invocation logged => ends.follows.rows _ (before.rows invocation logged)
  obtain same | ⟨absent, present, outcome, log⟩ := ends.invoked
  · constructor
    · rw [same]
      exact rows
    · rw [same]
      exact before.once
  · constructor
    · rw [log]
      intro invocation logged
      rcases List.mem_cons.mp logged with rfl | logged
      · exact present
      · exact rows invocation logged
    · rw [log]
      refine List.pairwise_cons.mpr ⟨?_, before.once⟩
      rintro earlier logged rfl
      have row := before.rows earlier logged
      rw [absent] at row
      cases row

theorem McpProxy.invokedOnce_run (orderly : s.ledger.Orderly none) (before : s.InvokedOnce sha256)
    (requests : List McpRequest) :
    (proxy.run sha256 (durableBackend sha256) world s requests).InvokedOnce sha256 := by
  induction requests using List.reverseRecOn with
  | nil => exact before
  | append_singleton requests request ih =>
      rw [run_snoc]
      obtain ⟨_, same, _⟩ | ⟨o, _, served⟩ :=
        durably_serve (durably_run_orderly orderly requests) request
      · rw [same]
        exact ih
      · exact served.invokedOnce ih

end Durably

/-! ## In process -/

/-- Not a value that `json.dumps` raises on. -/
def HandlerOutcome.writable : HandlerOutcome → Bool
  | .returned (.unserializable _) => false
  | _ => true

theorem HandlerOutcome.output_of_writable {value : PyValue}
    (writable : (HandlerOutcome.returned value).writable) : ∃ output, value.output = .ok output := by
  cases value with
  | text s => exact ⟨s, rfl⟩
  | json v => exact ⟨_, rfl⟩
  | unserializable typeError => cases writable

/-- Nothing is evicted, and the receipt that is looked up has not expired. -/
def ProxyOp.Keeps (sha256 : String → String) (world : ProxyWorld) (op : ProxyOp)
    (s : ProxyState (ToolExecutionLedger JsonValue)) : Prop :=
  let reads := world.reads s.operations
  match op with
  | .ledger (.registerToolCall id o) =>
      let call := LedgerCall.register id o.logicalOperationId o.toolName o.arguments
      call.apply sha256 s.ledger reads = call.applyUnbounded sha256 s.ledger reads
  | .ledger (.markCommitted id receipt) =>
      let call := LedgerCall.committed id receipt
      call.apply sha256 s.ledger reads = call.applyUnbounded sha256 s.ledger reads
  | .ledger (.checkIdempotency o) =>
      ∀ entry ∈ s.ledger.receiptsByOpHash.get (o.slot sha256),
        s.ledger.outlived (reads.now - entry.2) = false
  | _ => True

instance ProxyOp.decidableKeeps (sha256 : String → String) (world : ProxyWorld) : (op : ProxyOp) →
    (s : ProxyState (ToolExecutionLedger JsonValue)) → Decidable (op.Keeps sha256 world s)
  | .ledger (.registerToolCall ..), _ | .ledger (.markCommitted ..), _ =>
      inferInstanceAs (Decidable (_ = _))
  | .ledger (.checkIdempotency _), _ => inferInstanceAs (Decidable (∀ entry ∈ _, _))
  | .ledger (.hasIndeterminateOperation _), _ | .ledger (.markReplayed ..), _
  | .ledger (.markValidated _), _ | .ledger (.markSubmitted _), _ | .ledger (.markFailed ..), _
  | .invoke _, _ | .timestamp, _ | .milliseconds, _ => inferInstanceAs (Decidable True)

/-- A handler that returns, returns a value that can be written. -/
def ProxyOp.Writes (world : ProxyWorld) (op : ProxyOp)
    (s : ProxyState (ToolExecutionLedger JsonValue)) : Bool :=
  match op with
  | .invoke _ => (world.outcome s.operations).writable
  | _ => true

/-- What keeps the receipt of every return on file. -/
def ProxyOp.Retains (sha256 : String → String) (world : ProxyWorld) (op : ProxyOp)
    (s : ProxyState (ToolExecutionLedger JsonValue)) : Prop :=
  op.OwnRecord sha256 s ∧ op.Keeps sha256 world s ∧ op.Writes world s

instance ProxyOp.decidableRetains (sha256 : String → String) (world : ProxyWorld) (op : ProxyOp)
    (s : ProxyState (ToolExecutionLedger JsonValue)) : Decidable (op.Retains sha256 world s) :=
  inferInstanceAs (Decidable (_ ∧ _ ∧ _))

namespace ProxyState

variable {sha256 : String → String} {world : ProxyWorld}
  {s : ProxyState (ToolExecutionLedger JsonValue)} {id : String} {o : ToolOperation JsonValue}

/-- Every return is on file, and none was repeated. -/
structure Recorded (sha256 : String → String)
    (s : ProxyState (ToolExecutionLedger JsonValue)) : Prop where
  filed : ∀ o value, (o, .returned value) ∈ s.invocations →
    (s.ledger.receiptsByOpHash.get (o.slot sha256)).isSome
  unrepeated : NoneRepeated s.invocations

/-- Step 5 loses no receipt and leaves its call on record. -/
theorem submitted_keeps
    (keeps : ProxyOp.Keeps sha256 world (.ledger (.registerToolCall id o)) s) :
    (∀ slot, (s.ledger.receiptsByOpHash.get slot).isSome →
      ((s.submitted sha256 world id o).receiptsByOpHash.get slot).isSome) ∧
    ∃ r, (s.submitted sha256 world id o).recordsByCallId.get id = some r := by
  rw [submitted_eq, show _ = _ from keeps]
  constructor
  · exact fun slot kept => LedgerCall.applyUnbounded_receipt kept
  · apply Option.isSome_iff_exists.mp
    simp only [LedgerCall.apply, ToolExecutionLedger.markSubmitted,
      ToolExecutionLedger.markValidated, ToolExecutionLedger.updateRecord, Dict.get_modify_self,
      Option.isSome_map]
    exact LedgerCall.applyUnbounded_registered id o.logicalOperationId o.toolName o.arguments

variable {t u v : ProxyState (ToolExecutionLedger JsonValue)}

/-- Nothing on file for the operation: it has not returned so far. -/
theorem Recorded.unreturned (recorded : s.Recorded sha256)
    (begun : McpProxy.Begun sha256 world (ProxyOp.Retains sha256 world) s id o u) :
    ∀ earlier ∈ s.invocations, o = earlier.1 → ∃ message, earlier.2 = .raised message := by
  rintro ⟨_, outcome⟩ logged rfl
  cases outcome with
  | raised message => exact ⟨message, rfl⟩
  | returned value =>
      obtain ⟨entry, kept⟩ := Option.isSome_iff_exists.mp (recorded.filed o value logged)
      have young : s.ledger.outlived ((world.reads (s.operations + 1)).now - entry.2) = false :=
        begun.checked.2.1 entry kept
      exact absurd (ToolExecutionLedger.check_of_receipt kept young) (begun.unanswered entry.1)

/-- The commit that follows a return puts its receipt on file and drops none. -/
theorem committed_keeps
    (begun : McpProxy.Begun sha256 world (ProxyOp.Retains sha256 world) s id o u)
    {receipt : JsonValue} (ledger : v.ledger = u.ledger)
    (keeps : ProxyOp.Keeps sha256 world (.ledger (.markCommitted id receipt)) v)
    (stored : t.ledger = u.ledger.markCommitted (world.reads v.operations) id receipt) :
    (t.ledger.receiptsByOpHash.get (o.slot sha256)).isSome ∧
      ∀ slot, (s.ledger.receiptsByOpHash.get slot).isSome →
        (t.ledger.receiptsByOpHash.get slot).isSome := by
  obtain ⟨kept, r, known⟩ := submitted_keeps begun.registered.2.1
  rw [← begun.ledger] at kept known
  have unbounded : t.ledger = (LedgerCall.committed id receipt).applyUnbounded sha256 u.ledger
      (world.reads v.operations) := by
    rw [stored, ← ledger]
    exact keeps
  rw [unbounded]
  constructor
  · rw [← begun.record (fun _ _ retains => retains.1) known]
    exact LedgerCall.applyUnbounded_committed _ _ _ known
  · exact fun slot before => LedgerCall.applyUnbounded_receipt (kept slot before)

end ProxyState

namespace McpProxy

variable {proxy : McpProxy} {sha256 : String → String} {world : ProxyWorld}
  {s t : ProxyState (ToolExecutionLedger JsonValue)}

theorem Fate.recorded {id : String} {o : ToolOperation JsonValue} {answer : McpResponse}
    (fate : proxy.Fate sha256 world (ProxyOp.Retains sha256 world) s id o answer t)
    (recorded : s.Recorded sha256) : t.Recorded sha256 := by
  cases fate with
  | refused _ ledger log =>
      constructor
      · rw [ledger, log]
        exact recorded.filed
      · rw [log]
        exact recorded.unrepeated
  | replayed _ _ ledger log =>
      constructor
      · rw [ledger, log]
        exact recorded.filed
      · rw [log]
        exact recorded.unrepeated
  | @failed u _ begun invoked without _ ledger log =>
      obtain ⟨kept, _⟩ := ProxyState.submitted_keeps begun.registered.2.1
      constructor
      · rw [ledger, log]
        intro o' value logged
        rcases List.mem_cons.mp logged with here | before
        · -- A value that came back could be written, and then the call did not fail.
          obtain ⟨rfl, returned⟩ := Prod.mk.inj here
          have writable : (world.outcome u.operations).writable := invoked.2.2
          rw [← returned] at writable
          obtain ⟨output, text⟩ := HandlerOutcome.output_of_writable writable
          exact absurd text (without value output returned.symm)
        · have still := kept _ (recorded.filed o' value before)
          rw [← begun.ledger] at still
          exact still
      · rw [log]
        exact List.pairwise_cons.mpr ⟨recorded.unreturned begun, recorded.unrepeated⟩
  | committed begun asked ledger _ _ _ _ stored log =>
      obtain ⟨filed, kept⟩ := ProxyState.committed_keeps begun ledger asked.2.1 stored
      constructor
      · rw [log]
        intro o' value logged
        rcases List.mem_cons.mp logged with here | before
        · obtain ⟨rfl, _⟩ := Prod.mk.inj here
          exact filed
        · exact kept _ (recorded.filed o' value before)
      · rw [log]
        exact List.pairwise_cons.mpr ⟨recorded.unreturned begun, recorded.unrepeated⟩
  | acknowledged begun _ asked ledger _ _ stored log =>
      obtain ⟨_, kept⟩ := ProxyState.committed_keeps begun ledger asked.2.1 stored
      constructor
      · rw [log]
        exact fun o' value before => kept _ (recorded.filed o' value before)
      · rw [log]
        exact recorded.unrepeated

theorem recorded_run (recorded : s.Recorded sha256) (requests : List McpRequest)
    (along : proxy.Along sha256 (inProcessBackend sha256) world (ProxyOp.Retains sha256 world) s
      requests) :
    (proxy.run sha256 (inProcessBackend sha256) world s requests).Recorded sha256 := by
  induction requests using List.reverseRecOn with
  | nil => exact recorded
  | append_singleton requests request ih =>
      obtain ⟨alongBefore, alongLast, -⟩ := Along.append [request] along
      have before := ih alongBefore
      rw [run_snoc]
      obtain ⟨_, unchanged, _⟩ | ⟨o, id, t, _, ledger, log, served, alongCall⟩ :=
        proxy.handleToolsCall_cases sha256 request (inProcessBackend sha256) world
          (proxy.run sha256 (inProcessBackend sha256) world s requests)
      · rw [unchanged]
        exact before
      · have fate := exec_callTool (alongCall _ alongLast)
        rw [← served] at fate
        apply fate.recorded
        constructor
        · rw [ledger, log]
          exact before.filed
        · rw [log]
          exact before.unrepeated

end McpProxy

/-- A tool that returned is not run again for the same operation: never over the
    durable ledger, and not over the in-process ledger as long as every step of
    the run retains the receipts. -/
theorem returns_unrepeated (Payload : Type) (proxy : McpProxy) (sha256 : String → String)
    (world : ProxyWorld) (requests : List McpRequest) :
    (∀ maxRecords ttlSeconds,
      proxy.Along sha256 (inProcessBackend sha256) world (ProxyOp.Retains sha256 world)
        (.start maxRecords ttlSeconds) requests →
      NoneRepeated (proxy.run sha256 (inProcessBackend sha256) world
        (.start maxRecords ttlSeconds) requests).invocations) ∧
    ∀ ownerId leaseTtlSeconds,
      NoneRepeated (proxy.run sha256 (durableBackend sha256) world
        (.startDurable Payload ownerId leaseTtlSeconds) requests).invocations := by
  constructor
  · intro maxRecords ttlSeconds along
    have start : (ProxyState.start maxRecords ttlSeconds).Recorded sha256 := ⟨nofun, .nil⟩
    exact (McpProxy.recorded_run start requests along).unrepeated
  · intro ownerId leaseTtlSeconds
    have start : (ProxyState.startDurable Payload ownerId leaseTtlSeconds).InvokedOnce sha256 :=
      ⟨nofun, .nil⟩
    have orderly := ProxyState.startDurable_orderly Payload ownerId leaseTtlSeconds
    exact (McpProxy.invokedOnce_run orderly start requests).once.imp
      fun apart same => absurd same apart

/-- A deployment that fails at first, is tried again and then asked for once
    more. -/
theorem returns_unrepeated_deploy :
    NoneRepeated (sampleProxy.run flagSha256 (inProcessBackend flagSha256)
        (sampleWorld fun n => if n < 8 then .raised "timeout" else .returned (.text "deployed"))
        (.start 10000 (some 3600)) [deployRequest true "call-1", deployRequest true "call-2",
          deployRequest true "call-3"]).invocations ∧
      NoneRepeated (sampleProxy.run flagSha256 (durableBackend flagSha256)
        (sampleWorld fun n => if n < 8 then .raised "timeout" else .returned (.text "deployed"))
        (.startDurable Unit "worker-1" 30) [deployRequest true "call-1",
          deployRequest true "call-2", deployRequest true "call-3"]).invocations := by
  obtain ⟨inProcess, durably⟩ := returns_unrepeated Unit sampleProxy flagSha256
    (sampleWorld fun n => if n < 8 then .raised "timeout" else .returned (.text "deployed"))
    [deployRequest true "call-1", deployRequest true "call-2", deployRequest true "call-3"]
  constructor
  · apply inProcess
    decide +kernel
  · exact durably "worker-1" 30

/-- A handler returns a value that is not JSON.  The tool has run, its call is
    marked failed, and the next request runs it again. -/
theorem unwritable_return_repeated :
    ¬NoneRepeated (sampleProxy.run flagSha256 (inProcessBackend flagSha256)
      (sampleWorld fun _ => .returned
        (.unserializable "Object of type datetime is not JSON serializable"))
      (.start 10000 (some 3600))
      [deployRequest true "call-1", deployRequest true "call-2"]).invocations := by
  have twice : (sampleProxy.run flagSha256 (inProcessBackend flagSha256)
      (sampleWorld fun _ => .returned
        (.unserializable "Object of type datetime is not JSON serializable"))
      (.start 10000 (some 3600))
      [deployRequest true "call-1", deployRequest true "call-2"]).invocations =
        [(deployOperation true, .returned
            (.unserializable "Object of type datetime is not JSON serializable")),
          (deployOperation true, .returned
            (.unserializable "Object of type datetime is not JSON serializable"))] := by
    decide +kernel
  rw [twice]
  simp [NoneRepeated]

end DuraLLM
