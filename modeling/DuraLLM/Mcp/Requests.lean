import DuraLLM.Agent.ReceiptKeys
import DuraLLM.Mcp.Proxy

/-! # Requests one after the other

A run of the proxy serves a list of `tools/call` requests, each to its end.
This module says once what a request can do to the in-process ledger and to the
log of invocations; the results about runs rest on that alone.
-/

namespace DuraLLM

namespace McpProxy

variable (proxy : McpProxy) (sha256 : String → String)

/-- The operation a request addresses, if it gets past the validation. -/
def target (request : McpRequest) : Option (ToolOperation JsonValue) :=
  match request.name.filter (· ≠ "") with
  | none => none
  | some toolName =>
      match proxy.validated toolName request.arguments with
      | .error _ => none
      | .ok arguments =>
          some ⟨request.operationId sha256 toolName arguments, toolName, arguments⟩

variable {Ledger : Type} (backend : LedgerBackend Ledger) (world : ProxyWorld)

def serve (s : ProxyState Ledger) (request : McpRequest) : McpResponse × ProxyState Ledger :=
  (proxy.handleToolsCall sha256 request).exec (ProxyState.handle backend world) s

def run (s : ProxyState Ledger) (requests : List McpRequest) : ProxyState Ledger :=
  requests.foldl (fun s request => (proxy.serve sha256 backend world s request).2) s

/-- Every operation of every request satisfies `P` in the state that performs
    it. -/
def Along (P : ProxyOp → ProxyState Ledger → Prop) (s : ProxyState Ledger) :
    List McpRequest → Prop
  | [] => True
  | request :: requests =>
      (proxy.handleToolsCall sha256 request).Along (ProxyState.handle backend world) P s ∧
        Along P (proxy.serve sha256 backend world s request).2 requests

instance decidableAlong {P : ProxyOp → ProxyState Ledger → Prop} [∀ op s, Decidable (P op s)]
    (s : ProxyState Ledger) :
    (requests : List McpRequest) → Decidable (proxy.Along sha256 backend world P s requests)
  | [] => inferInstanceAs (Decidable True)
  | request :: requests =>
      @instDecidableAnd _ _ inferInstance
        (decidableAlong (proxy.serve sha256 backend world s request).2 requests)

end McpProxy

namespace ProxyState

variable {Ledger : Type} {backend : LedgerBackend Ledger} {world : ProxyWorld}

@[simp] theorem exec_ask (op : ProxyOp) (s : ProxyState Ledger) :
    (McpProxy.ask op).exec (handle backend world) s = handle backend world op s := rfl

@[simp] theorem along_ask {P : ProxyOp → ProxyState Ledger → Prop} (op : ProxyOp)
    (s : ProxyState Ledger) :
    (McpProxy.ask op).Along (handle backend world) P s ↔ P op s := by
  simp [McpProxy.ask, Prog.call, Prog.Along]

end ProxyState

namespace McpProxy

/-- The call has run the operation to its end and committed this output. -/
structure Completes (proxy : McpProxy) (o : ToolOperation JsonValue) {Ledger : Type}
    (served : McpResponse × ProxyState Ledger) (output : String) (receipt : JsonValue) : Prop where
  response : served.1 = .committed output receipt
  about : ∃ timestamp, receipt = committedReceipt output timestamp
  executed : (∃ value : PyValue, value.output = .ok output ∧
      served.2.invocations.head? = some (o, .returned value)) ∨
    (proxy.handles o.toolName = false ∧ output = acknowledgedOutput o)

section Runs

variable {proxy : McpProxy} {sha256 : String → String} {Ledger : Type}
  {backend : LedgerBackend Ledger} {world : ProxyWorld} {s : ProxyState Ledger}

theorem run_snoc (requests : List McpRequest) (request : McpRequest) :
    proxy.run sha256 backend world s (requests ++ [request]) =
      (proxy.serve sha256 backend world (proxy.run sha256 backend world s requests) request).2 := by
  simp [run]

theorem Along.append {P : ProxyOp → ProxyState Ledger → Prop}
    {requests : List McpRequest} (rest : List McpRequest)
    (along : proxy.Along sha256 backend world P s (requests ++ rest)) :
    proxy.Along sha256 backend world P s requests ∧
      proxy.Along sha256 backend world P (proxy.run sha256 backend world s requests) rest := by
  induction requests generalizing s with
  | nil => exact ⟨trivial, along⟩
  | cons request requests ih =>
      obtain ⟨before, after⟩ := ih along.2
      exact ⟨⟨along.1, before⟩, after⟩

end Runs

end McpProxy

/-- A request is turned away, or its operation is called under some call id. -/
theorem McpProxy.handleToolsCall_cases (proxy : McpProxy) (sha256 : String → String)
    (request : McpRequest) {Ledger : Type} (backend : LedgerBackend Ledger) (world : ProxyWorld)
    (s : ProxyState Ledger) :
    (proxy.target sha256 request = none ∧ (proxy.serve sha256 backend world s request).2 = s ∧
      ∀ output isError receipt,
        (proxy.serve sha256 backend world s request).1 ≠ .replayed output isError receipt) ∨
    ∃ o id t, proxy.target sha256 request = some o ∧ t.ledger = s.ledger ∧
      t.invocations = s.invocations ∧
      proxy.serve sha256 backend world s request =
        (proxy.callTool id o).exec (ProxyState.handle backend world) t ∧
      ∀ P, (proxy.handleToolsCall sha256 request).Along (ProxyState.handle backend world) P s →
        (proxy.callTool id o).Along (ProxyState.handle backend world) P t := by
  unfold McpProxy.serve McpProxy.handleToolsCall McpProxy.target
  cases request.name.filter (· ≠ "") with
  | none => exact .inl ⟨rfl, rfl, (by simp)⟩
  | some toolName =>
      simp only
      cases proxy.validated toolName request.arguments with
      | error errorMessage => exact .inl ⟨rfl, rfl, (by simp)⟩
      | ok arguments =>
          simp only
          refine .inr ⟨⟨request.operationId sha256 toolName arguments, toolName, arguments⟩, ?_⟩
          split
          · exact ⟨_, s, rfl, rfl, rfl, rfl, fun _ along => along⟩
          · exact ⟨_, s, rfl, rfl, rfl, rfl, fun _ along => along⟩
          · exact ⟨_, (ProxyState.handle backend world .milliseconds s).2, rfl, rfl, rfl, rfl,
              fun _ along => along.2⟩

/-! ## In process -/

section InProcess

variable (sha256 : String → String) (world : ProxyWorld)

abbrev ProxyState.inProcess :
    Prog.Handler proxySignature (ProxyState (ToolExecutionLedger JsonValue)) :=
  handle (inProcessBackend sha256) world

/-- The state after some operations that change nothing else. -/
def ProxyState.later {Ledger : Type} (s : ProxyState Ledger) (count : Nat) : ProxyState Ledger :=
  { s with operations := s.operations + count }

/-- Step 5 on the in-process ledger, which never raises. -/
def ProxyState.submitted (s : ProxyState (ToolExecutionLedger JsonValue)) (id : String)
    (o : ToolOperation JsonValue) : ToolExecutionLedger JsonValue :=
  ((s.ledger.registerToolCall sha256 (world.reads s.operations) id o.logicalOperationId
    o.toolName o.arguments).2.markValidated (world.reads (s.operations + 1)) id).markSubmitted
      (world.reads (s.operations + 2)) id

/-- A first execution got as far as to its step 6. -/
structure McpProxy.Begun (P : ProxyOp → ProxyState (ToolExecutionLedger JsonValue) → Prop)
    (s : ProxyState (ToolExecutionLedger JsonValue)) (id : String) (o : ToolOperation JsonValue)
    (u : ProxyState (ToolExecutionLedger JsonValue)) : Prop where
  unanswered : ∀ receipt, s.ledger.checkIdempotency sha256 (world.reads (s.operations + 1)).now
    o.logicalOperationId o.toolName o.arguments ≠ (true, some receipt)
  checked : P (.ledger (.checkIdempotency o)) (s.later 1)
  registered : P (.ledger (.registerToolCall id o)) (s.later 2)
  ledger : u.ledger = (s.later 2).submitted sha256 world id o
  invocations : u.invocations = s.invocations

/-- What becomes of a tool call. `P` is what all its operations satisfy. -/
inductive McpProxy.Fate (proxy : McpProxy)
    (P : ProxyOp → ProxyState (ToolExecutionLedger JsonValue) → Prop)
    (s : ProxyState (ToolExecutionLedger JsonValue)) (id : String) (o : ToolOperation JsonValue)
    (answer : McpResponse) (t : ProxyState (ToolExecutionLedger JsonValue)) : Prop where
  | refused (response : answer = .indeterminate o.logicalOperationId o.toolName)
      (ledger : t.ledger = s.ledger) (invocations : t.invocations = s.invocations)
  | replayed {entry : JsonValue × Seconds}
      (kept : s.ledger.receiptsByOpHash.get (o.slot sha256) = some entry)
      (response : answer = .replayed (replayedOutput entry.1)
        ((entry.1.field "is_error").getD (.scalar (.bool false))) entry.1)
      (ledger : t.ledger = s.ledger.markReplayed (world.reads (s.operations + 2)) id entry.1)
      (invocations : t.invocations = s.invocations)
  | failed {u : ProxyState (ToolExecutionLedger JsonValue)} {message : String}
      (begun : McpProxy.Begun sha256 world P s id o u) (invoked : P (.invoke o) u)
      (without : ∀ value output, world.outcome u.operations = .returned value →
        value.output ≠ .ok output)
      (response : answer = .failed message)
      (ledger : t.ledger = u.ledger.markFailed (world.reads (u.operations + 1)) id message)
      (invocations : t.invocations = (o, world.outcome u.operations) :: s.invocations)
  | committed {u v : ProxyState (ToolExecutionLedger JsonValue)} {value : PyValue}
      {output : String} {receipt : JsonValue} (begun : McpProxy.Begun sha256 world P s id o u)
      (asked : P (.ledger (.markCommitted id receipt)) v) (ledger : v.ledger = u.ledger)
      (returned : world.outcome u.operations = .returned value) (text : value.output = .ok output)
      (response : answer = .committed output receipt)
      (about : ∃ timestamp, receipt = committedReceipt output timestamp)
      (stored : t.ledger = u.ledger.markCommitted (world.reads v.operations) id receipt)
      (invocations : t.invocations = (o, .returned value) :: s.invocations)
  | acknowledged {u v : ProxyState (ToolExecutionLedger JsonValue)} {receipt : JsonValue}
      (begun : McpProxy.Begun sha256 world P s id o u) (without : proxy.handles o.toolName = false)
      (asked : P (.ledger (.markCommitted id receipt)) v) (ledger : v.ledger = u.ledger)
      (response : answer = .committed (acknowledgedOutput o) receipt)
      (about : ∃ timestamp, receipt = committedReceipt (acknowledgedOutput o) timestamp)
      (stored : t.ledger = u.ledger.markCommitted (world.reads v.operations) id receipt)
      (invocations : t.invocations = s.invocations)

end InProcess

namespace McpProxy

variable {proxy : McpProxy} {sha256 : String → String} {world : ProxyWorld}
  {P : ProxyOp → ProxyState (ToolExecutionLedger JsonValue) → Prop}
  {s : ProxyState (ToolExecutionLedger JsonValue)} {id : String} {o : ToolOperation JsonValue}

theorem exec_runHandler {u : ProxyState (ToolExecutionLedger JsonValue)}
    (begun : Begun sha256 world P s id o u)
    (along : (runHandler id o).Along (ProxyState.inProcess sha256 world) P u) :
    proxy.Fate sha256 world P s id o
      ((runHandler id o).exec (ProxyState.inProcess sha256 world) u).1
      ((runHandler id o).exec (ProxyState.inProcess sha256 world) u).2 := by
  simp only [runHandler, Prog.along_bind, ProxyState.along_ask, ProxyState.exec_ask,
    Prog.exec_bind, ProxyState.handle] at along ⊢
  obtain ⟨invoked, along⟩ := along
  cases outcome : world.outcome u.operations with
  | raised message =>
      refine .failed begun invoked ?_ rfl rfl ?_
      · simp [outcome]
      · rw [← begun.invocations]
        simp [outcome]
        rfl
  | returned value =>
      simp only [outcome] at along ⊢
      cases text : value.output with
      | error typeError =>
          simp only [text] at along ⊢
          refine .failed begun invoked ?_ rfl rfl ?_
          · intro other output same
            cases outcome.symm.trans same
            simp [text]
          · rw [← begun.invocations, outcome]
            rfl
      | ok output =>
          simp only [text, commitOutput, commitReceipt, Prog.along_bind, ProxyState.along_ask,
            ProxyState.exec_ask] at along ⊢
          refine .committed begun along.2.1 rfl outcome text rfl ⟨_, rfl⟩ rfl ?_
          rw [← begun.invocations]
          rfl

theorem exec_acknowledge {u : ProxyState (ToolExecutionLedger JsonValue)}
    (begun : Begun sha256 world P s id o u) (without : proxy.handles o.toolName = false)
    (along : (acknowledge id o).Along (ProxyState.inProcess sha256 world) P u) :
    proxy.Fate sha256 world P s id o
      ((acknowledge id o).exec (ProxyState.inProcess sha256 world) u).1
      ((acknowledge id o).exec (ProxyState.inProcess sha256 world) u).2 := by
  simp only [acknowledge, Prog.along_bind, ProxyState.along_ask, ProxyState.exec_ask,
    Prog.exec_bind, ProxyState.handle] at along ⊢
  exact .acknowledged begun without along.2.1 rfl rfl ⟨_, rfl⟩ rfl begun.invocations

theorem exec_firstExecution :
    (proxy.firstExecution id o).exec (ProxyState.inProcess sha256 world) s =
      (if proxy.handles o.toolName then runHandler id o else acknowledge id o).exec
        (ProxyState.inProcess sha256 world)
        { s with ledger := s.submitted sha256 world id o, operations := s.operations + 3 } :=
  rfl

theorem along_firstExecution
    (along : (proxy.firstExecution id o).Along (ProxyState.inProcess sha256 world) P s) :
    P (.ledger (.registerToolCall id o)) s ∧
      (if proxy.handles o.toolName then runHandler id o else acknowledge id o).Along
        (ProxyState.inProcess sha256 world) P
        { s with ledger := s.submitted sha256 world id o, operations := s.operations + 3 } :=
  ⟨along.1, along.2.2.2⟩

/-- What a tool call does, case by case. -/
theorem exec_callTool
    (along : (proxy.callTool id o).Along (ProxyState.inProcess sha256 world) P s) :
    proxy.Fate sha256 world P s id o
      ((proxy.callTool id o).exec (ProxyState.inProcess sha256 world) s).1
      ((proxy.callTool id o).exec (ProxyState.inProcess sha256 world) s).2 := by
  simp only [callTool, Prog.along_bind, ProxyState.along_ask, ProxyState.exec_ask,
    Prog.exec_bind, ProxyState.handle, inProcessBackend] at along ⊢
  cases blocked : s.ledger.hasIndeterminateOperation sha256 o.logicalOperationId o.toolName
      o.arguments with
  | true => exact .refused rfl rfl rfl
  | false =>
      simp only [blocked, Prog.along_bind, ProxyState.along_ask, ProxyState.exec_ask,
        Prog.exec_bind, ProxyState.handle, inProcessBackend] at along ⊢
      obtain ⟨_, checked, along⟩ := along
      generalize verdict : s.ledger.checkIdempotency sha256 (world.reads (s.operations + 1)).now
        o.logicalOperationId o.toolName o.arguments = found at along ⊢
      unfold replayOrExecute at along ⊢
      split at along
      · next receipt =>
        obtain ⟨entry, kept, rfl⟩ := ToolExecutionLedger.receipt_of_check verdict
        exact .replayed kept rfl rfl rfl
      · next unanswered =>
        obtain ⟨registered, along⟩ := along_firstExecution along
        have begun : Begun sha256 world P s id o
            { s with
              ledger := (s.later 2).submitted sha256 world id o
              operations := s.operations + 5 } :=
          ⟨fun receipt same => unanswered receipt (verdict.symm.trans same), checked, registered,
            rfl, rfl⟩
        simp only [exec_firstExecution]
        cases handled : proxy.handles o.toolName with
        | true =>
            simp only [handled, if_true] at along ⊢
            exact exec_runHandler begun along
        | false =>
            simp only [handled, Bool.false_eq_true, if_false] at along ⊢
            exact exec_acknowledge begun handled along

end McpProxy

/-! ## Under its own record

A commit files the receipt under the record of its call id.  That is the
operation at hand unless the id was on record for another one.
-/

/-- A registration that finds a record finds one with the slot of its own
    operation. -/
def ProxyOp.OwnRecord (sha256 : String → String) :
    ProxyOp → ProxyState (ToolExecutionLedger JsonValue) → Prop
  | .ledger (.registerToolCall id o), s =>
      ∀ r ∈ s.ledger.recordsByCallId.get id, r.slot = o.slot sha256
  | _, _ => True

instance ProxyOp.decidableOwnRecord (sha256 : String → String) : (op : ProxyOp) →
    (s : ProxyState (ToolExecutionLedger JsonValue)) → Decidable (op.OwnRecord sha256 s)
  | .ledger (.registerToolCall _ _), _ => inferInstanceAs (Decidable (∀ r ∈ _, _))
  | .ledger (.hasIndeterminateOperation _), _ | .ledger (.checkIdempotency _), _
  | .ledger (.markReplayed ..), _ | .ledger (.markValidated _), _ | .ledger (.markSubmitted _), _
  | .ledger (.markCommitted ..), _ | .ledger (.markFailed ..), _ | .invoke _, _ | .timestamp, _
  | .milliseconds, _ => inferInstanceAs (Decidable True)

namespace ProxyState

variable {sha256 : String → String} {world : ProxyWorld}
  {s : ProxyState (ToolExecutionLedger JsonValue)} {id : String} {o : ToolOperation JsonValue}

theorem submitted_eq : s.submitted sha256 world id o =
    (LedgerCall.submitted id).apply sha256
      ((LedgerCall.validated id).apply sha256
        ((LedgerCall.register id o.logicalOperationId o.toolName o.arguments).apply sha256 s.ledger
          (world.reads s.operations))
        (world.reads (s.operations + 1)))
      (world.reads (s.operations + 2)) := rfl

theorem record_of_submitted (own : ProxyOp.OwnRecord sha256 (.ledger (.registerToolCall id o)) s)
    {r : ToolExecutionRecord JsonValue}
    (found : (s.submitted sha256 world id o).recordsByCallId.get id = some r) :
    r.slot = o.slot sha256 := by
  rw [submitted_eq] at found
  obtain ⟨validated, found, same⟩ | ⟨_, _, _, impossible, _⟩ := LedgerCall.record_of_apply found
  · obtain ⟨registered, found, same'⟩ | ⟨_, _, _, impossible, _⟩ := LedgerCall.record_of_apply found
    · rw [same.slot, same'.slot]
      obtain ⟨old, found, same⟩ | ⟨_, _, _, call, _, operation, tool, _, hash⟩ :=
        LedgerCall.record_of_apply found
      · rw [same.slot]
        exact own old found
      · cases call
        simp only [ToolExecutionRecord.slot, ToolOperation.slot, operation, tool, hash]
    · cases impossible
  · cases impossible

theorem receipt_of_submitted {slot : String} {entry : JsonValue × Seconds}
    (found : (s.submitted sha256 world id o).receiptsByOpHash.get slot = some entry) :
    s.ledger.receiptsByOpHash.get slot = some entry := by
  -- Marking a call validated or submitted leaves the receipts alone.
  obtain before | ⟨_, _, impossible, _⟩ := LedgerCall.receipt_of_apply
    (show ((LedgerCall.register id o.logicalOperationId o.toolName o.arguments).apply sha256
      s.ledger (world.reads s.operations)).receiptsByOpHash.get slot = some entry from found)
  · exact before
  · cases impossible

end ProxyState

namespace McpProxy.Begun

variable {sha256 : String → String} {world : ProxyWorld}
  {P : ProxyOp → ProxyState (ToolExecutionLedger JsonValue) → Prop}
  {s u : ProxyState (ToolExecutionLedger JsonValue)} {id : String} {o : ToolOperation JsonValue}

theorem receipt (begun : Begun sha256 world P s id o u) {slot : String}
    {entry : JsonValue × Seconds}
    (found : u.ledger.receiptsByOpHash.get slot = some entry) :
    s.ledger.receiptsByOpHash.get slot = some entry := by
  rw [begun.ledger] at found
  exact ProxyState.receipt_of_submitted (s := s.later 2) found

theorem record (begun : Begun sha256 world P s id o u)
    (own : ∀ op t, P op t → ProxyOp.OwnRecord sha256 op t) {r : ToolExecutionRecord JsonValue}
    (found : u.ledger.recordsByCallId.get id = some r) : r.slot = o.slot sha256 := by
  rw [begun.ledger] at found
  exact ProxyState.record_of_submitted (own _ _ begun.registered) found

end McpProxy.Begun

/-! ## A sample -/

/-- SHA-256 on the texts that the sample runs hash. -/
def flagSha256 (text : String) : String :=
  if text = OkObject.text .spaced false then
    "4608b778befdf9f31695903e10a56bdfcb4b175a32185e76cecbfc12c2055cf3"
  else sampleSha256 text

/-- One tool, whose schema accepts everything. -/
def sampleProxy : McpProxy where
  tools := Dict.empty.set "deploy" ⟨.ofRaw (.obj []), true⟩
  validator _ arguments _ := { status := .valid, validatedArguments := arguments }

/-- Clocks that stand still. -/
def sampleWorld (outcome : Nat → HandlerOutcome) : ProxyWorld where
  reads _ := ⟨0, 0, 0⟩
  outcome := outcome
  timestamp _ := .int 0
  milliseconds _ := "0"

def deployOperation (ok : Bool) : ToolOperation JsonValue :=
  ⟨"operation-1", "deploy", .ofRaw (.obj [("ok", .scalar (.bool ok))])⟩

/-- Deploy, with the flag `ok` set or not, under this tool call id. -/
def deployRequest (ok : Bool) (toolCallId : String) : McpRequest where
  name := some "deploy"
  arguments := (deployOperation ok).arguments
  metaFields := (Dict.empty.set "operation_id" "operation-1").set "tool_call_id" toolCallId

end DuraLLM
