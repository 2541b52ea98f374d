import DuraLLM.Agent.Idempotency

/-! # What a ledger call leaves behind

The inversion of the calls on the in-process ledger.  Eviction only drops
entries, so a record or a receipt that is there after a call was there before,
or is what the call has written.
-/

namespace DuraLLM

variable {Json : Type}

namespace ToolExecutionLedger

variable {ledger : ToolExecutionLedger Json} {now : Seconds}

theorem record_of_evict {id : String} {r : ToolExecutionRecord Json}
    (found : (ledger.evict now).recordsByCallId.get id = some r) :
    ledger.recordsByCallId.get id = some r :=
  Dict.get_of_dropOldWhile (Dict.get_of_keepNewest found)

theorem receipt_of_evict {slot : String} {entry : Json × Seconds}
    (found : (ledger.evict now).receiptsByOpHash.get slot = some entry) :
    ledger.receiptsByOpHash.get slot = some entry :=
  Dict.get_of_dropOldWhile (Dict.get_of_keepNewest found)

/-- What was stored last is evicted last. -/
theorem evictFrom_newest {V : Type} {stamp : V → Seconds} {store : Dict String V} {key : String}
    {v : V} (absent : store.get key = none) (young : ledger.outlived (now - stamp v) = false)
    (room : 0 < ledger.maxRecords) :
    (ledger.evictFrom now stamp (store.set key v)).get key = some v := by
  have split : (store.set key v).entries = store.entries ++ (key, v) :: [] :=
    Dict.set_entries_of_absent absent v
  obtain ⟨rest, dropped⟩ := Dict.dropOldWhile_split
    (p := fun v => ledger.outlived (now - stamp v)) split young
  obtain ⟨kept, newest⟩ := Dict.keepNewest_split dropped room
  exact Dict.get_of_split newest

/-- Updating a record neither adds one nor drops one. -/
theorem updateRecord_isSome (id other : String)
    (f : ToolExecutionRecord Json → ToolExecutionRecord Json) :
    ((ledger.updateRecord id f).recordsByCallId.get other).isSome =
      (ledger.recordsByCallId.get other).isSome := by
  simp only [updateRecord, Dict.get_modify]
  split
  · next here => rw [here, Option.isSome_map]
  · rfl

end ToolExecutionLedger

/-- A tool operation, as its callers name it. -/
structure ToolOperation (Json : Type) where
  logicalOperationId : String
  toolName : String
  arguments : Json
  deriving DecidableEq

/-- The key under which the receipt of an operation is kept. -/
def ToolOperation.slot [JsonCodec Json] (sha256 : String → String) (o : ToolOperation Json) :
    String :=
  ToolExecutionLedger.opKey o.logicalOperationId o.toolName
    (computeArgumentsHash sha256 o.arguments)

/-- The check answers from the slot of the operation. -/
theorem ToolExecutionLedger.receipt_of_check [JsonCodec Json] {sha256 : String → String}
    {ledger : ToolExecutionLedger Json} {now : Seconds} {o : ToolOperation Json} {receipt : Json}
    (answer : ledger.checkIdempotency sha256 now o.logicalOperationId o.toolName o.arguments =
      (true, some receipt)) :
    ∃ entry, ledger.receiptsByOpHash.get (o.slot sha256) = some entry ∧ entry.1 = receipt := by
  simp only [checkIdempotency] at answer
  split at answer
  · cases answer
  · next entry kept =>
    split at answer
    · cases answer
    · exact ⟨entry, kept, Option.some.inj (congrArg Prod.snd answer)⟩

theorem ToolExecutionLedger.check_of_receipt [JsonCodec Json] {sha256 : String → String}
    {ledger : ToolExecutionLedger Json} {now : Seconds} {o : ToolOperation Json}
    {entry : Json × Seconds} (kept : ledger.receiptsByOpHash.get (o.slot sha256) = some entry)
    (young : ledger.outlived (now - entry.2) = false) :
    ledger.checkIdempotency sha256 now o.logicalOperationId o.toolName o.arguments =
      (true, some entry.1) := by
  rw [ToolOperation.slot] at kept
  simp only [checkIdempotency, kept, young]
  rfl

/-- The key under which the receipt of a call on record is filed. -/
def ToolExecutionRecord.slot (r : ToolExecutionRecord Json) : String :=
  ToolExecutionLedger.opKey r.logicalOperationId r.toolName r.argumentsHash

/-- Two records of one call: only the lifecycle may differ. -/
structure ToolExecutionRecord.SameCall (r r' : ToolExecutionRecord Json) : Prop where
  operation : r'.logicalOperationId = r.logicalOperationId
  tool : r'.toolName = r.toolName
  hash : r'.argumentsHash = r.argumentsHash
  arguments : r'.arguments = r.arguments

namespace ToolExecutionRecord.SameCall

theorem refl (r : ToolExecutionRecord Json) : r.SameCall r := ⟨rfl, rfl, rfl, rfl⟩

theorem slot {r r' : ToolExecutionRecord Json} (same : r.SameCall r') : r'.slot = r.slot := by
  unfold ToolExecutionRecord.slot
  rw [same.operation, same.tool, same.hash]

end ToolExecutionRecord.SameCall

namespace LedgerCall

variable [JsonCodec Json] {sha256 : String → String} {ledger : ToolExecutionLedger Json}
  {reads : LedgerReads}

/-- A record after a call belongs to a call that was known before, or to the one
    being registered. -/
theorem record_of_apply {call : LedgerCall Json} {id : String} {r' : ToolExecutionRecord Json}
    (found : (call.apply sha256 ledger reads).recordsByCallId.get id = some r') :
    (∃ r, ledger.recordsByCallId.get id = some r ∧ r.SameCall r') ∨
      ∃ op tool arguments, call = .register id op tool arguments ∧
        ledger.recordsByCallId.get id = none ∧ r'.logicalOperationId = op ∧ r'.toolName = tool ∧
        r'.arguments = arguments ∧ r'.argumentsHash = computeArgumentsHash sha256 arguments := by
  have marked : ∀ {other : String} {f : ToolExecutionRecord Json → ToolExecutionRecord Json},
      (ledger.updateRecord other f).recordsByCallId.get id = some r' →
      (∀ r : ToolExecutionRecord Json, r.SameCall (f r)) →
      ∃ r, ledger.recordsByCallId.get id = some r ∧ r.SameCall r' := by
    intro other f found same
    simp only [ToolExecutionLedger.updateRecord, Dict.get_modify] at found
    split at found
    · next here =>
      subst here
      obtain ⟨r, before, rfl⟩ := Option.map_eq_some_iff.mp found
      exact ⟨r, before, same r⟩
    · exact ⟨r', found, .refl r'⟩
  cases call with
  | register other op tool arguments =>
      simp only [apply, ToolExecutionLedger.registerToolCall] at found
      cases known : ledger.recordsByCallId.get other with
      | some r =>
          simp only [known] at found
          exact .inl ⟨r', found, .refl r'⟩
      | none =>
          simp only [known] at found
          have inserted := ToolExecutionLedger.record_of_evict found
          simp only [Dict.get_set] at inserted
          split at inserted
          · next here =>
            subst here
            obtain rfl := Option.some.inj inserted
            exact .inr ⟨op, tool, arguments, rfl, known, rfl, rfl, rfl, rfl⟩
          · exact .inl ⟨r', inserted, .refl r'⟩
  | committed other receipt =>
      simp only [apply, ToolExecutionLedger.markCommitted] at found
      split at found
      · exact .inl ⟨r', found, .refl r'⟩
      · have updated : (ledger.updateRecord other fun r => { r with
            status := .committed, executionReceipt := some receipt, updatedAt := reads.wall
            }).recordsByCallId.get id = some r' := ToolExecutionLedger.record_of_evict found
        exact .inl (marked updated fun _ => ⟨rfl, rfl, rfl, rfl⟩)
  | validated other =>
      refine .inl (marked found fun r => ?_)
      split <;> exact ⟨rfl, rfl, rfl, rfl⟩
  | submitted other => exact .inl (marked found fun _ => ⟨rfl, rfl, rfl, rfl⟩)
  | replayed other receipt => exact .inl (marked found fun _ => ⟨rfl, rfl, rfl, rfl⟩)
  | indeterminate other reason => exact .inl (marked found fun _ => ⟨rfl, rfl, rfl, rfl⟩)
  | failed other message => exact .inl (marked found fun _ => ⟨rfl, rfl, rfl, rfl⟩)

/-- A receipt after a call was there before, or the call has committed it. -/
theorem receipt_of_apply {call : LedgerCall Json} {slot : String} {entry : Json × Seconds}
    (found : (call.apply sha256 ledger reads).receiptsByOpHash.get slot = some entry) :
    ledger.receiptsByOpHash.get slot = some entry ∨
      ∃ id r, call = .committed id entry.1 ∧ ledger.recordsByCallId.get id = some r ∧
        slot = ToolExecutionLedger.opKey r.logicalOperationId r.toolName r.argumentsHash := by
  cases call with
  | register id op tool arguments =>
      simp only [apply, ToolExecutionLedger.registerToolCall] at found
      split at found
      · exact .inl found
      · exact .inl (ToolExecutionLedger.receipt_of_evict found)
  | committed id receipt =>
      simp only [apply, ToolExecutionLedger.markCommitted] at found
      cases known : ledger.recordsByCallId.get id with
      | none =>
          simp only [known] at found
          exact .inl found
      | some r =>
          simp only [known] at found
          have stored := ToolExecutionLedger.receipt_of_evict found
          simp only [Dict.get_set] at stored
          split at stored
          · next here =>
            obtain rfl := Option.some.inj stored
            exact .inr ⟨id, r, rfl, known, here⟩
          · exact .inl stored
  | validated | submitted | replayed | indeterminate | failed => exact .inl found

/-! ## Without eviction -/

/-- The effect of a call on an in-process ledger that never evicts. -/
def applyUnbounded (sha256 : String → String) (ledger : ToolExecutionLedger Json)
    (reads : LedgerReads) : LedgerCall Json → ToolExecutionLedger Json
  | .register id op tool arguments =>
      match ledger.recordsByCallId.get id with
      | some _ => ledger
      | none => { ledger with
          recordsByCallId := ledger.recordsByCallId.set id
            { toolCallId := id, logicalOperationId := op, toolName := tool, arguments
              argumentsHash := computeArgumentsHash sha256 arguments
              createdAt := reads.now
              updatedAt := reads.now } }
  | .committed id receipt =>
      match ledger.recordsByCallId.get id with
      | none => ledger
      | some r => { ledger.updateRecord id fun r => { r with
            status := .committed, executionReceipt := some receipt, updatedAt := reads.wall } with
          receiptsByOpHash := ledger.receiptsByOpHash.set
            (ToolExecutionLedger.opKey r.logicalOperationId r.toolName r.argumentsHash)
            (receipt, reads.now) }
  | call => call.apply sha256 ledger reads

/-- A call is on record once it is registered. -/
theorem applyUnbounded_registered (id op tool : String) (arguments : Json) :
    (((register id op tool arguments).applyUnbounded sha256 ledger reads).recordsByCallId.get
      id).isSome := by
  simp only [applyUnbounded]
  split
  · next r known =>
    rw [known]
    rfl
  · simp

/-- A commit puts the receipt under the slot of its record. -/
theorem applyUnbounded_committed (sha256 : String → String) (reads : LedgerReads) {id : String}
    (receipt : Json) {r : ToolExecutionRecord Json}
    (known : ledger.recordsByCallId.get id = some r) :
    (((committed id receipt).applyUnbounded sha256 ledger reads).receiptsByOpHash.get
      r.slot).isSome := by
  simp only [applyUnbounded, known]
  rw [← ToolExecutionRecord.slot, Dict.get_set_self]
  rfl

/-- Registration adds a record. -/
theorem applyUnbounded_register_keeps {id op tool : String} {arguments : Json} {other : String}
    (known : (ledger.recordsByCallId.get other).isSome) :
    (((register id op tool arguments).applyUnbounded sha256 ledger reads).recordsByCallId.get
      other).isSome := by
  simp only [applyUnbounded]
  split
  · exact known
  · simp only [Dict.get_set]
    split
    · rfl
    · exact known

theorem applyUnbounded_register_receipts (id op tool : String) (arguments : Json) :
    ((register id op tool arguments).applyUnbounded sha256 ledger reads).receiptsByOpHash =
      ledger.receiptsByOpHash := by
  simp only [applyUnbounded]
  split <;> rfl

/-- A commit drops no record. -/
theorem applyUnbounded_committed_keeps {id : String} {receipt : Json} {other : String}
    (known : (ledger.recordsByCallId.get other).isSome) :
    (((committed id receipt).applyUnbounded sha256 ledger reads).recordsByCallId.get
      other).isSome := by
  simp only [applyUnbounded]
  split
  · exact known
  · exact (ToolExecutionLedger.updateRecord_isSome id other _).trans known

/-- A receipt that is there stays, if only under a newer one. -/
theorem applyUnbounded_receipt {call : LedgerCall Json} {slot : String}
    (kept : (ledger.receiptsByOpHash.get slot).isSome) :
    ((call.applyUnbounded sha256 ledger reads).receiptsByOpHash.get slot).isSome := by
  cases call with
  | committed id receipt =>
      simp only [applyUnbounded]
      split
      · exact kept
      · simp only [Dict.get_set]
        split
        · rfl
        · exact kept
  | register id op tool arguments =>
      simp only [applyUnbounded]
      split
      · exact kept
      · exact kept
  | validated | submitted | replayed | indeterminate | failed => exact kept

end LedgerCall

end DuraLLM
