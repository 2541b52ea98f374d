import DuraLLM.Storage.Sequential
import DuraLLM.Storage.Stages

/-! # A ledger that serves one operation

Calls of one operation, under any call ids and in any order.  Every call id is
then bound to the one row, and a submission that succeeds finds this row
proposed or validated and leaves it advanced, for good.
-/

namespace DuraLLM

variable {Json Payload : Type} [JsonCodec Json] {sha256 : String → String}
  {o : ToolOperation Json}

/-- Nothing in the ledger is about another operation. -/
structure LedgerSystem.Sole (sha256 : String → String) (o : ToolOperation Json)
    (s : LedgerSystem Json Payload) : Prop where
  calls : ∀ id key, s.db.keyOf id = some key → key = o.key sha256
  records : ∀ id r, (s.instances 0).base.recordsByCallId.get id = some r →
    r.argumentsHash = o.hash sha256
  rows : ∀ row, s.db.operations.get (o.key sha256) = some row → row.argumentsHash = o.hash sha256

/-- The operation is past its submission. -/
def LedgerSystem.Past (s : LedgerSystem Json Payload) (key : String) : Prop :=
  ∃ row, s.db.operations.get key = some row ∧ row.Advanced

namespace LedgerSystem

variable {s : LedgerSystem Json Payload}

/-- No call takes that back. -/
theorem Past.call {key : String} (past : s.Past key) (i : Nat) (call : DurableCall Json) :
    (s.call sha256 i call).2.Past key := by
  have keeps : ∀ (op : Nat × LedgerOp Json Payload) (t : LedgerSystem Json Payload), True →
      t.Past key → (handle sha256 op t).2.Past key := by
    rintro ⟨j, op⟩ t _ ⟨row, located, advanced⟩
    cases op with
    | store call =>
        obtain ⟨row', located', change⟩ :=
          (call.outcome sha256 t.storeReads t.db).row_change located
        exact ⟨row', located', change.advanced advanced⟩
    | _ => exact ⟨row, located, advanced⟩
  exact Prog.exec_keeps (handle sha256) keeps (Prog.asks_true _) past

/-- A submission goes through once. -/
theorem Past.submitted {id : String} (calls : ∀ id key, s.db.keyOf id = some key → key = o.key sha256)
    {db : Database Json Payload} {lease : Lease}
    (done : s.db.markOperationSubmitted s.reads.now id (s.instances 0).ownerId
      (s.instances 0).leaseTtlSeconds = .ok (lease, db)) :
    ¬s.Past (o.key sha256) ∧ ∃ row, db.operations.get (o.key sha256) = some row ∧ row.Advanced := by
  obtain ⟨key, row, leased, mine, located, was, acquired, rfl⟩ :=
    Database.markOperationSubmitted_ok done
  obtain rfl := calls id key mine
  obtain ⟨_, _, _, rfl⟩ := Database.acquireLeaseLocked_some acquired
  constructor
  · rintro ⟨other, there, notProposed, notValidated⟩
    cases located.symm.trans there
    exact was.elim notProposed notValidated
  · exact ⟨_, (Database.updateOperation_get _ located _).trans (if_pos rfl), nofun, nofun⟩

namespace Sole

theorem updateBase (sole : s.Sole sha256 o)
    {f : ToolExecutionLedger Json → ToolExecutionLedger Json}
    (known : ∀ id r, (f (s.instances 0).base).recordsByCallId.get id = some r →
      r.argumentsHash = o.hash sha256) : (s.updateBase 0 f).Sole sha256 o where
  calls := sole.calls
  records := by
    intro id r found
    rw [updateBase_base] at found
    exact known id r found
  rows := sole.rows

theorem mark (sole : s.Sole sha256 o) (call : LedgerCall Json) (reads : LedgerReads)
    (marks : ∀ id op tool arguments, call ≠ .register id op tool arguments) :
    (s.updateBase 0 fun base => call.apply sha256 base reads).Sole sha256 o := by
  apply sole.updateBase
  intro id r found
  obtain ⟨old, before, same⟩ | ⟨_, _, _, registers, _⟩ := LedgerCall.record_of_apply found
  · rw [same.hash]
    exact sole.records id old before
  · exact absurd registers (marks _ _ _ _)

theorem updateLeases (sole : s.Sole sha256 o) (f : Dict String Lease → Dict String Lease) :
    (s.updateLeases 0 f).Sole sha256 o where
  calls := sole.calls
  records := by
    intro id r found
    rw [updateLeases_base] at found
    exact sole.records id r found
  rows := sole.rows

/-- A row changes, but not its arguments. -/
theorem update (sole : s.Sole sha256 o) (key : String) (f : OperationRow Json → OperationRow Json)
    (kept : ∀ row, (f row).argumentsHash = row.argumentsHash) :
    ({ s with db := s.db.updateOperation key f } : LedgerSystem Json Payload).Sole sha256 o where
  calls := sole.calls
  records := sole.records
  rows := by
    intro row located
    simp only [Database.updateOperation, Dict.get_modify] at located
    split at located
    · next here =>
      obtain ⟨old, there, rfl⟩ := Option.map_eq_some_iff.mp located
      rw [kept]
      exact sole.rows old (here ▸ there)
    · exact sole.rows row located

theorem withLeases (sole : s.Sole sha256 o) (leases : Dict String LeaseRow) :
    ({ s with db := { s.db with leases } } : LedgerSystem Json Payload).Sole sha256 o :=
  ⟨sole.calls, sole.records, sole.rows⟩

theorem lookUp (sole : s.Sole sha256 o) (id : String) : (s.lookUp 0 id).2.Sole sha256 o := by
  unfold LedgerSystem.lookUp
  split
  · exact sole
  · split
    · exact sole
    · next operation stored =>
      dsimp only
      apply sole.updateBase
      intro other r found
      simp only [Dict.get_set] at found
      split at found
      · cases found
        obtain ⟨key, row, mine, located, rfl⟩ := Database.operationForCall_some stored
        obtain rfl := sole.calls id key mine
        exact sole.rows row located
      · exact sole.records other r found

theorem register (sole : s.Sole sha256 o) (id : String) :
    (s.call sha256 0 (.registerToolCall id o.logicalOperationId o.toolName
      o.arguments)).2.Sole sha256 o := by
  rw [call_register]
  generalize registered : (s.instances 0).base.registerToolCall sha256 s.reads id
    o.logicalOperationId o.toolName o.arguments = kept
  have hash : kept.1.argumentsHash = o.hash sha256 := by
    rw [← registered, ToolExecutionLedger.registerToolCall]
    split
    · next r known => exact sole.records id r known
    · rfl
  have known : (s.updateBase 0 fun _ => kept.2).Sole sha256 o := by
    apply sole.updateBase
    intro other r found
    rw [← registered] at found
    obtain ⟨old, before, same⟩ | ⟨_, _, _, call, _, _, _, _, fresh⟩ := LedgerCall.record_of_apply
      (show ((LedgerCall.register id o.logicalOperationId o.toolName o.arguments).apply sha256
        (s.instances 0).base s.reads).recordsByCallId.get other = some r from found)
    · rw [same.hash]
      exact sole.records other old before
    · cases call
      exact fresh
  simp only
  split
  · exact known
  · next operation next done =>
    obtain ⟨row, call, _, _, rowHash, named, free, rfl⟩ := Database.prepareOperation_ok done
    rw [hash, show operationKey sha256 _ _ _ = o.key sha256 from rfl] at named
    have prepared : ({ s.updateBase 0 fun _ => kept.2 with db := { s.db with
        operations := s.db.operations.insertNew call.operationKey row
        operationCalls := s.db.operationCalls.insertNew id call } } :
          LedgerSystem Json Payload).Sole sha256 o := by
      refine ⟨?_, known.records, ?_⟩
      · intro other key bound
        rw [show _ = _ from Database.keyOf_prepared free other] at bound
        split at bound
        · cases bound
          exact named
        · exact sole.calls other key bound
      · intro found located
        rw [← named, Dict.get_insertNew_self] at located
        cases old : s.db.operations.get call.operationKey with
        | none =>
            rw [old] at located
            cases located
            exact rowHash.trans hash
        | some before =>
            rw [old] at located
            cases located
            exact sole.rows before (named ▸ old)
    refine updateBase prepared (f := fun base => base.updateRecord id (·.hydrate operation)) ?_
    intro other r found
    simp only [ToolExecutionLedger.updateRecord, Dict.get_modify] at found
    split at found
    · obtain ⟨old, before, rfl⟩ := Option.map_eq_some_iff.mp found
      exact known.records _ old before
    · exact known.records other r found

theorem validated (sole : s.Sole sha256 o) (id : String) :
    (s.call sha256 0 (.markValidated id)).2.Sole sha256 o := by
  rw [call_validated]
  have looked := sole.lookUp id
  have same := lookUp_same s 0 id
  generalize s.lookUp 0 id = found at looked same
  obtain ⟨record, t⟩ := found
  dsimp only at looked same
  cases record with
  | none => exact looked
  | some record =>
      simp only
      split
      · split
        · exact looked
        · next operation next done =>
          obtain ⟨key, row, _, _, rfl⟩ := Database.markOperationValidated_ok done
          rw [← same.1]
          split
          · have changed := looked.update key (fun row =>
              { row with status := .validated, updatedAt := s.reads.now }) fun _ => rfl
            exact changed.mark (.validated id) s.reads nofun
          · exact looked.mark (.validated id) s.reads nofun
      · exact looked

theorem submitted (sole : s.Sole sha256 o) (id : String) :
    (s.call sha256 0 (.markSubmitted id)).2.Sole sha256 o := by
  rw [call_submitted]
  split
  · exact sole
  · next done =>
    obtain ⟨key, row, leased, _, _, _, acquired, rfl⟩ := Database.markOperationSubmitted_ok done
    obtain ⟨_, _, _, rfl⟩ := Database.acquireLeaseLocked_some acquired
    have changed := sole.update key (fun row =>
      { row with status := .submitted, updatedAt := s.reads.now }) fun _ => rfl
    exact ((changed.withLeases _).updateLeases _).mark (.submitted id) s.reads nofun

theorem committed (sole : s.Sole sha256 o) (id : String) (receipt : Json) :
    (s.call sha256 0 (.markCommitted id receipt)).2.Sole sha256 o := by
  rw [call_committed]
  split
  · exact sole
  · split
    · exact sole
    · next operation next done =>
      obtain ⟨key, row, _, _, _, _, rfl⟩ := Database.markOperationCommitted_ok done
      have changed := sole.update key (fun row => { row with
        status := .committed
        executionReceiptJson := some (.encode receipt)
        errorMessage := none
        updatedAt := s.reads.later }) fun _ => rfl
      exact ((changed.withLeases _).updateLeases _).mark (.committed id receipt) s.reads nofun

theorem failed (sole : s.Sole sha256 o) (id message : String) :
    (s.call sha256 0 (.markFailed id message)).2.Sole sha256 o := by
  rw [call_failed]
  split
  · exact sole
  · next operation next done =>
    obtain ⟨key, row, _, _, rfl⟩ := Database.markOperationFailed_ok done
    split
    · have changed := sole.update key (fun row => { row with
        status := .failed, errorMessage := some message, updatedAt := s.reads.now }) fun _ => rfl
      exact changed.mark (.failed id message) s.reads nofun
    · exact sole.mark (.failed id message) s.reads nofun

end Sole

end LedgerSystem

end DuraLLM
