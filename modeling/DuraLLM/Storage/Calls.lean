import DuraLLM.Storage.Submission

/-! # A durable ledger call as one step

Executed without interruption, a method of the durable ledger is one store
transaction and what it does to the instance's own memory.  These equations say
so method by method; nothing past this module unfolds a method again.
-/

namespace DuraLLM

namespace LedgerSystem

variable {Json Payload : Type} [JsonCodec Json] {sha256 : String → String}
  {s : LedgerSystem Json Payload} {i : Nat} {id : String}

theorem call_register {op tool : String} {arguments : Json} :
    s.call sha256 i (.registerToolCall id op tool arguments) =
      let kept := (s.instances i).base.registerToolCall sha256 s.reads id op tool arguments
      let known := s.updateBase i fun _ => kept.2
      match s.db.prepareOperation sha256 s.reads.now id op tool kept.1.argumentsHash
          kept.1.arguments with
      | .error e => (.raised (.store e), known)
      | .ok (operation, db) => (.record (kept.1.hydrate operation),
          { known with db }.updateBase i fun base => base.updateRecord id (·.hydrate operation)) := by
  simp only [call, DurableCall.program, SqliteLedger.registerToolCall, Prog.exec_bind,
    SqliteLedger.exec_ask, handle, StoreCall.perform, updateBase, updateInstance, storeReads]
  split <;> rename_i done <;> simp only [done] <;> rfl

/-- The record of a call, from memory or else from the database. -/
def lookUp (s : LedgerSystem Json Payload) (i : Nat) (id : String) :
    Option (ToolExecutionRecord Json) × LedgerSystem Json Payload :=
  match (s.instances i).base.recordsByCallId.get id with
  | some record => (some record, s)
  | none =>
      match s.db.operationForCall id with
      | none => (none, s)
      | some operation =>
          let record := ToolExecutionRecord.ofOperation id operation
          (some record, s.updateBase i fun base =>
            { base with recordsByCallId := base.recordsByCallId.set id record })

theorem exec_getRecord :
    (SqliteLedger.getRecord i id).exec (handle sha256) s = s.lookUp i id := by
  simp only [SqliteLedger.getRecord, Prog.exec_bind, SqliteLedger.exec_ask, handle,
    ToolExecutionLedger.getRecord, lookUp]
  split
  · next known =>
    simp only [known]
    rfl
  · next forgotten =>
    simp only [forgotten, Prog.exec_bind, SqliteLedger.exec_ask, handle, StoreCall.perform]
    split <;> rename_i stored <;> simp only [stored] <;> rfl

/-- Looking a record up touches neither the database nor the clocks. -/
theorem lookUp_same (s : LedgerSystem Json Payload) (i : Nat) (id : String) :
    (s.lookUp i id).2.db = s.db ∧ (s.lookUp i id).2.reads = s.reads := by
  unfold lookUp
  split
  · exact ⟨rfl, rfl⟩
  · split <;> exact ⟨rfl, rfl⟩

theorem call_validated :
    s.call sha256 i (.markValidated id) =
      match s.lookUp i id with
      | (none, t) => (.none, t)
      | (some record, t) =>
          if record.status = .proposed ∨ record.status = .validated then
            match s.db.markOperationValidated s.reads.now id with
            | .error e => (.raised (.store e), t)
            | .ok (_, db) => (.none,
                { t with db }.updateBase i fun base => base.markValidated s.reads id)
          else (.none, t) := by
  have same := lookUp_same s i id
  simp only [call, DurableCall.program, SqliteLedger.markValidated, Prog.exec_bind, exec_getRecord]
  generalize s.lookUp i id = looked at same
  obtain ⟨record, db, instances, reads⟩ := looked
  obtain ⟨rfl, rfl⟩ : db = s.db ∧ reads = s.reads := same
  cases record with
  | none => rfl
  | some record =>
      simp only
      split
      · simp only [Prog.exec_bind, SqliteLedger.exec_ask, handle, StoreCall.perform, storeReads]
        split <;> rename_i done <;> simp only [done] <;> rfl
      · rfl

theorem call_submitted :
    s.call sha256 i (.markSubmitted id) =
      match s.db.markOperationSubmitted s.reads.now id (s.instances i).ownerId
          (s.instances i).leaseTtlSeconds with
      | .error e => (.raised (.store e), s)
      | .ok (lease, db) => (.none, ({ s with db }.updateLeases i (·.set id lease)).updateBase i
          fun base => base.markSubmitted s.reads id) := by
  simp only [call, DurableCall.program, SqliteLedger.markSubmitted, Prog.exec_bind,
    SqliteLedger.exec_ask, handle, StoreCall.perform, storeReads]
  split <;> rename_i done <;> simp only [done] <;> rfl

theorem call_committed {receipt : Json} :
    s.call sha256 i (.markCommitted id receipt) =
      match (s.instances i).leases.get id with
      | none => (.raised (.runtime
          "A durable operation can commit only with its live submission lease"), s)
      | some lease =>
          match s.db.markOperationCommitted s.reads.now s.reads.later id (s.instances i).ownerId
              lease.fencingToken receipt with
          | .error e => (.raised (.store e), s)
          | .ok (_, db) => (.none, ({ s with db }.updateLeases i (·.erase id)).updateBase i
              fun base => base.markCommitted s.reads id receipt) := by
  simp only [call, DurableCall.program, SqliteLedger.markCommitted, Prog.exec_bind,
    SqliteLedger.exec_ask, handle]
  split
  · next missing =>
    simp only [missing]
    rfl
  · next lease cached =>
    simp only [cached, Prog.exec_bind, SqliteLedger.exec_ask, handle, StoreCall.perform, storeReads]
    split <;> rename_i done <;> simp only [done] <;> rfl

theorem call_indeterminate {reason : String} :
    s.call sha256 i (.markIndeterminate id reason) =
      match s.db.markOperationIndeterminate s.reads.now id reason with
      | .error e => (.raised (.store e), s)
      | .ok (_, db) => (.none, ({ s with db }.updateLeases i (·.erase id)).updateBase i
          fun base => base.markIndeterminate s.reads id reason) := by
  simp only [call, DurableCall.program, SqliteLedger.markIndeterminate, Prog.exec_bind,
    SqliteLedger.exec_ask, handle, StoreCall.perform, storeReads]
  split <;> rename_i done <;> simp only [done] <;> rfl

theorem call_failed {message : String} :
    s.call sha256 i (.markFailed id message) =
      match s.db.markOperationFailed s.reads.now id message with
      | .error e => (.raised (.store e), s)
      | .ok (_, db) => (.none,
          { s with db }.updateBase i fun base => base.markFailed s.reads id message) := by
  simp only [call, DurableCall.program, SqliteLedger.markFailed, Prog.exec_bind,
    SqliteLedger.exec_ask, handle, StoreCall.perform, storeReads]
  split <;> rename_i done <;> simp only [done] <;> rfl

theorem call_checkIdempotency {op tool : String} {arguments : Json} :
    s.call sha256 i (.checkIdempotency op tool arguments) =
      ((match s.db.operations.get
          (operationKey sha256 op tool (computeArgumentsHash sha256 arguments)) with
        | none => .receipt false none
        | some row =>
            if row.status = .committed ∧ row.executionReceiptJson.isSome then
              .receipt true (row.executionReceiptJson.map (·.decode))
            else .receipt false none), s) := by
  simp only [call, DurableCall.program, SqliteLedger.checkIdempotency, Prog.exec_bind,
    SqliteLedger.exec_ask, handle, StoreCall.perform, Database.operationForKey]
  cases s.db.operations.get (operationKey sha256 op tool (computeArgumentsHash sha256 arguments)) with
  | none => rfl
  | some row =>
      simp only [Option.map_some, operationFromRow, Option.isSome_map]
      split <;> rfl

theorem call_hasIndeterminate {op tool : String} {arguments : Json} :
    s.call sha256 i (.hasIndeterminateOperation op tool arguments) =
      (.flag ((s.db.operations.get
        (operationKey sha256 op tool (computeArgumentsHash sha256 arguments))).any
          (·.status.isUnknownOutcome)), s) := by
  simp only [call, DurableCall.program, SqliteLedger.hasIndeterminateOperation, Prog.exec_bind,
    SqliteLedger.exec_ask, handle, StoreCall.perform, Database.operationForKey]
  cases s.db.operations.get (operationKey sha256 op tool (computeArgumentsHash sha256 arguments)) <;>
    rfl

end LedgerSystem

end DuraLLM
