import DuraLLM.Mcp.Durable

/-! # Where a replayed receipt comes from

A replay answers with a receipt on file.  This module follows every receipt in
the ledger back to the request that committed it.
-/

namespace DuraLLM

namespace McpProxy

variable (proxy : McpProxy) (sha256 : String → String) {Ledger : Type}
  (backend : LedgerBackend Ledger) (world : ProxyWorld) (s : ProxyState Ledger)

/-- One of the requests addressed an operation satisfying `Q` and committed this
    output for it. -/
def Committed (requests : List McpRequest) (output : String) (receipt : JsonValue)
    (Q : ToolOperation JsonValue → Prop) : Prop :=
  ∃ before request after o, requests = before ++ request :: after ∧
    proxy.target sha256 request = some o ∧ Q o ∧
    proxy.Completes o
      (proxy.serve sha256 backend world (proxy.run sha256 backend world s before) request)
      output receipt

/-- Every request that is answered with a replay gets the output of an earlier
    request for the same operation. -/
def ReplaysOwn (requests : List McpRequest) : Prop :=
  ∀ before request after output isError receipt, requests = before ++ request :: after →
    (proxy.serve sha256 backend world (proxy.run sha256 backend world s before) request).1 =
      .replayed output isError receipt →
    ∃ o, proxy.target sha256 request = some o ∧
      proxy.Committed sha256 backend world s before output receipt (· = o)

end McpProxy

section Runs

variable {proxy : McpProxy} {sha256 : String → String} {Ledger : Type}
  {backend : LedgerBackend Ledger} {world : ProxyWorld} {s : ProxyState Ledger}

theorem McpProxy.Committed.snoc {requests : List McpRequest} {output : String}
    {receipt : JsonValue} {Q : ToolOperation JsonValue → Prop}
    (committed : proxy.Committed sha256 backend world s requests output receipt Q)
    (request : McpRequest) :
    proxy.Committed sha256 backend world s (requests ++ [request]) output receipt Q := by
  obtain ⟨before, first, after, o, rfl, target, holds, completes⟩ := committed
  exact ⟨before, first, after ++ [request], o, by simp, target, holds, completes⟩

end Runs

/-- The output can be read off the receipt. -/
theorem replayedOutput_committedReceipt (output : String) (timestamp : JsonScalar) :
    replayedOutput (committedReceipt output timestamp) = output := by
  have found : (committedReceipt output timestamp).field "output" = some (.str output) := rfl
  rw [replayedOutput, found]

theorem McpProxy.Completes.output_eq {proxy : McpProxy} {o : ToolOperation JsonValue}
    {Ledger : Type} {served : McpResponse × ProxyState Ledger} {output : String}
    {receipt : JsonValue} (completes : proxy.Completes o served output receipt) :
    output = replayedOutput receipt := by
  obtain ⟨timestamp, rfl⟩ := completes.about
  exact (replayedOutput_committedReceipt output timestamp).symm

/-! ## In process -/

namespace McpProxy

variable {proxy : McpProxy} {sha256 : String → String} {world : ProxyWorld}
  {s : ProxyState (ToolExecutionLedger JsonValue)}

/-- A receipt after a tool call was on file before, or the call has committed
    it. -/
theorem Fate.receipt {id : String} {o : ToolOperation JsonValue} {answer : McpResponse}
    {t : ProxyState (ToolExecutionLedger JsonValue)}
    (fate : proxy.Fate sha256 world (ProxyOp.OwnRecord sha256) s id o answer t) {slot : String}
    {entry : JsonValue × Seconds} (found : t.ledger.receiptsByOpHash.get slot = some entry) :
    s.ledger.receiptsByOpHash.get slot = some entry ∨
      (slot = o.slot sha256 ∧ ∃ output, proxy.Completes o (answer, t) output entry.1) := by
  have filed : ∀ {u : ProxyState (ToolExecutionLedger JsonValue)} {reads : LedgerReads}
      {receipt : JsonValue}, Begun sha256 world (ProxyOp.OwnRecord sha256) s id o u →
      t.ledger = u.ledger.markCommitted reads id receipt →
      s.ledger.receiptsByOpHash.get slot = some entry ∨
        (slot = o.slot sha256 ∧ receipt = entry.1) := by
    intro u reads receipt begun stored
    rw [stored] at found
    obtain before | ⟨_, r, call, record, here⟩ := LedgerCall.receipt_of_apply
      (show ((LedgerCall.committed id receipt).apply sha256 u.ledger reads).receiptsByOpHash.get
        slot = some entry from found)
    · exact .inl (begun.receipt before)
    · cases call
      exact .inr ⟨here.trans (begun.record (fun _ _ own => own) record), rfl⟩
  cases fate with
  | refused _ ledger _ =>
      rw [ledger] at found
      exact .inl found
  | replayed _ _ ledger _ =>
      rw [ledger] at found
      exact .inl found
  | failed begun _ _ _ ledger _ =>
      rw [ledger] at found
      exact .inl (begun.receipt found)
  | committed begun _ _ _ text response about stored invocations =>
      obtain before | ⟨here, rfl⟩ := filed begun stored
      · exact .inl before
      · refine .inr ⟨here, _, response, about, .inl ⟨_, text, ?_⟩⟩
        simp [invocations]
  | acknowledged begun without _ _ response about stored _ =>
      obtain before | ⟨here, rfl⟩ := filed begun stored
      · exact .inl before
      · exact .inr ⟨here, _, response, about, .inr ⟨without, rfl⟩⟩

/-- Every receipt on file was committed by a request for an operation with that
    slot. -/
theorem receipt_committed (empty : s.ledger.receiptsByOpHash = .empty)
    (requests : List McpRequest)
    (along : proxy.Along sha256 (inProcessBackend sha256) world (ProxyOp.OwnRecord sha256) s
      requests)
    {slot : String} {entry : JsonValue × Seconds}
    (kept : (proxy.run sha256 (inProcessBackend sha256) world s
      requests).ledger.receiptsByOpHash.get slot = some entry) :
    proxy.Committed sha256 (inProcessBackend sha256) world s requests (replayedOutput entry.1)
      entry.1 (·.slot sha256 = slot) := by
  induction requests using List.reverseRecOn with
  | nil =>
      rw [show proxy.run sha256 (inProcessBackend sha256) world s [] = s from rfl, empty] at kept
      cases kept
  | append_singleton requests request ih =>
      obtain ⟨alongBefore, alongLast, -⟩ := Along.append [request] along
      rw [run_snoc] at kept
      obtain ⟨_, unchanged, _⟩ | ⟨o, id, t, target, ledger, _, served, alongCall⟩ :=
        proxy.handleToolsCall_cases sha256 request (inProcessBackend sha256) world
          (proxy.run sha256 (inProcessBackend sha256) world s requests)
      · rw [unchanged] at kept
        exact (ih alongBefore kept).snoc request
      · have fate := exec_callTool (alongCall _ alongLast)
        rw [← served] at fate
        obtain before | ⟨here, output, completes⟩ := fate.receipt kept
        · rw [ledger] at before
          exact (ih alongBefore before).snoc request
        · rw [← completes.output_eq]
          exact ⟨requests, request, [], o, rfl, target, here.symm, completes⟩

/-- The operations that the requests address. -/
def targets (proxy : McpProxy) (sha256 : String → String) (requests : List McpRequest) :
    List (ToolOperation JsonValue) :=
  requests.filterMap (proxy.target sha256)

end McpProxy

/-- No two operations of the run are filed under one key. -/
def KeysApart (key : ToolOperation JsonValue → String)
    (operations : List (ToolOperation JsonValue)) : Prop :=
  ∀ o ∈ operations, ∀ o' ∈ operations, key o = key o' → o = o'

instance (key : ToolOperation JsonValue → String) (operations : List (ToolOperation JsonValue)) :
    Decidable (KeysApart key operations) :=
  inferInstanceAs (Decidable (∀ o ∈ operations, ∀ o' ∈ operations, _ → _))

/-- What was committed under the key of an operation was committed for it. -/
theorem McpProxy.Committed.own {proxy : McpProxy} {sha256 : String → String} {Ledger : Type}
    {backend : LedgerBackend Ledger} {world : ProxyWorld} {s : ProxyState Ledger}
    {before after : List McpRequest} {request : McpRequest} {o : ToolOperation JsonValue}
    {key : ToolOperation JsonValue → String} {output : String} {receipt : JsonValue}
    (apart : KeysApart key (proxy.targets sha256 (before ++ request :: after)))
    (target : proxy.target sha256 request = some o)
    (committed : proxy.Committed sha256 backend world s before output receipt (key · = key o)) :
    proxy.Committed sha256 backend world s before output receipt (· = o) := by
  obtain ⟨earlier, first, between, o', rfl, target', same, completes⟩ := committed
  refine ⟨earlier, first, between, o', rfl, target', ?_, completes⟩
  apply apart o' _ o _ same
  · exact List.mem_filterMap.mpr ⟨first, by simp, target'⟩
  · exact List.mem_filterMap.mpr ⟨request, by simp, target⟩

/-- A new proxy over an empty in-process ledger. -/
def ProxyState.start (maxRecords : Nat) (ttlSeconds : Option Seconds) :
    ProxyState (ToolExecutionLedger JsonValue) where
  ledger := { maxRecords, ttlSeconds }

theorem McpProxy.replaysOwn_inProcess (proxy : McpProxy) (sha256 : String → String)
    (world : ProxyWorld) (maxRecords : Nat) (ttlSeconds : Option Seconds)
    (requests : List McpRequest)
    (apart : KeysApart (·.slot sha256) (proxy.targets sha256 requests))
    (own : proxy.Along sha256 (inProcessBackend sha256) world (ProxyOp.OwnRecord sha256)
      (.start maxRecords ttlSeconds) requests) :
    proxy.ReplaysOwn sha256 (inProcessBackend sha256) world (.start maxRecords ttlSeconds)
      requests := by
  intro before request after output isError receipt split replayed
  subst split
  obtain ⟨alongBefore, alongRest⟩ := McpProxy.Along.append _ own
  obtain ⟨_, _, never⟩ | ⟨o, id, t, target, ledger, _, served, alongCall⟩ :=
    proxy.handleToolsCall_cases sha256 request (inProcessBackend sha256) world
      (proxy.run sha256 (inProcessBackend sha256) world (.start maxRecords ttlSeconds) before)
  · exact absurd replayed (never output isError receipt)
  refine ⟨o, target, ?_⟩
  have fate := McpProxy.exec_callTool (alongCall _ alongRest.1)
  rw [← served, replayed] at fate
  cases fate with
  | replayed kept response _ _ =>
      cases response
      rw [ledger] at kept
      exact (McpProxy.receipt_committed rfl before alongBefore kept).own apart target
  | refused response _ _ => cases response
  | failed _ _ _ response _ _ => cases response
  | committed _ _ _ _ _ response _ _ _ => cases response
  | acknowledged _ _ _ _ response _ _ _ => cases response

/-! ## Durably -/

section Durably

variable {Payload : Type} {proxy : McpProxy} {sha256 : String → String} {world : ProxyWorld}
  {s : ProxyState (LedgerSystem JsonValue Payload)}

/-- Every receipt in the database was committed by a request for an operation
    with that key. -/
theorem McpProxy.durable_receipt_committed (orderly : s.ledger.Orderly none)
    (empty : s.ledger.db.operations = .empty) (requests : List McpRequest) {key : String}
    {row : OperationRow JsonValue} {text : JsonText JsonValue}
    (located : (proxy.run sha256 (durableBackend sha256) world s
      requests).ledger.db.operations.get key = some row)
    (written : row.executionReceiptJson = some text) :
    proxy.Committed sha256 (durableBackend sha256) world s requests (replayedOutput text.decode)
      text.decode (·.key sha256 = key) := by
  induction requests using List.reverseRecOn generalizing row with
  | nil =>
      rw [show proxy.run sha256 (durableBackend sha256) world s [] = s from rfl, empty] at located
      cases located
  | append_singleton requests request ih =>
      rw [run_snoc] at located
      obtain ⟨_, unchanged, _⟩ | ⟨o, target, served⟩ :=
        durably_serve (durably_run_orderly orderly requests) request
      · rw [unchanged] at located
        exact (ih located written).snoc request
      · obtain ⟨old, before, kept⟩ | ⟨receipt, rfl, rfl, output, completes⟩ :=
          served.follows.receipts key row text located written
        · exact (ih before kept).snoc request
        · rw [JsonText.decode_encode, ← completes.output_eq]
          exact ⟨requests, request, [], o, rfl, target, rfl, completes⟩

theorem McpProxy.replaysOwn_durably (proxy : McpProxy) (sha256 : String → String)
    (world : ProxyWorld) (ownerId : String) (leaseTtlSeconds : Seconds)
    (requests : List McpRequest)
    (apart : KeysApart (·.key sha256) (proxy.targets sha256 requests)) :
    proxy.ReplaysOwn sha256 (durableBackend sha256) world
      (.startDurable Payload ownerId leaseTtlSeconds) requests := by
  intro before request after output isError receipt split replayed
  subst split
  have fresh := ProxyState.startDurable_orderly Payload ownerId leaseTtlSeconds
  obtain ⟨_, _, never⟩ | ⟨o, target, served⟩ := durably_serve (durably_run_orderly fresh before)
    request
  · exact absurd replayed (never output isError receipt)
  obtain ⟨rfl, row, text, located, written, rfl⟩ := served.replayed _ _ _ replayed
  exact ⟨o, target,
    (McpProxy.durable_receipt_committed fresh rfl before located written).own apart target⟩

end Durably

/-- The text of a replay or of a commit. -/
def McpResponse.outputText : McpResponse → Option (Bool × String)
  | .replayed output _ _ => some (true, output)
  | .committed output _ => some (false, output)
  | _ => none

theorem McpResponse.replayed_of_text {response : McpResponse} {output : String}
    (text : response.outputText = some (true, output)) :
    ∃ isError receipt, response = .replayed output isError receipt := by
  cases response with
  | replayed output' isError receipt =>
      cases text
      exact ⟨isError, receipt, rfl⟩
  | _ => cases text

end DuraLLM
