import DuraLLM.Agent.Receipts
import DuraLLM.Storage.Calls
import DuraLLM.Storage.Durability

/-! # One caller at a time

A durable ledger whose only caller registers, validates and submits a call
without anybody in between.  Outside of that stretch every operation in the
database has advanced past its proposal; inside it, one has not.  So a call id
that comes back, with the same arguments or others, never gets past the
submission.
-/

namespace DuraLLM

variable {Json Payload : Type} [JsonCodec Json] {sha256 : String → String}

/-- The invariant. `opened` is the operation that is being submitted, if any. -/
structure LedgerSystem.Orderly (s : LedgerSystem Json Payload) (opened : Option String) : Prop where
  recorded : ∀ id r, (s.instances 0).base.recordsByCallId.get id = some r → (s.db.keyOf id).isSome
  bound : ∀ id key, s.db.keyOf id = some key → (s.db.operations.get key).isSome
  advanced : ∀ key row, s.db.operations.get key = some row → opened ≠ some key → row.Advanced
  unleased : ∀ key, s.db.operations.get key = none ∨ opened = some key →
    s.db.leases.get (operationResource key) = none

/-- The database goes on, and the only new receipts are the `filed` ones. -/
structure Database.Follows (filed : String → Json → Prop) (db next : Database Json Payload) :
    Prop where
  rows : ∀ key, (db.operations.get key).isSome → (next.operations.get key).isSome
  calls : ∀ id key, db.keyOf id = some key → next.keyOf id = some key
  receipts : ∀ key row text, next.operations.get key = some row →
    row.executionReceiptJson = some text →
    (∃ old, db.operations.get key = some old ∧ old.executionReceiptJson = some text) ∨
      ∃ receipt, text = .encode receipt ∧ filed key receipt

namespace Database.Follows

variable {filed : String → Json → Prop} {db next last : Database Json Payload}

theorem refl (db : Database Json Payload) : Follows filed db db where
  rows := fun _ => id
  calls := fun _ _ => id
  receipts := fun _ row _ located written => .inl ⟨row, located, written⟩

theorem trans (first : Follows filed db next) (second : Follows filed next last) :
    Follows filed db last where
  rows := fun key present => second.rows key (first.rows key present)
  calls := fun id key bound => second.calls id key (first.calls id key bound)
  receipts := by
    intro key row text located written
    obtain ⟨middle, there, written⟩ | new := second.receipts key row text located written
    · exact first.receipts key middle text there written
    · exact .inr new

/-- One row changes. -/
theorem update {key : String} {f : OperationRow Json → OperationRow Json}
    (kept : ∀ row text, (f row).executionReceiptJson = some text →
      row.executionReceiptJson = some text ∨ ∃ receipt, text = .encode receipt ∧ filed key receipt) :
    Follows filed db (db.updateOperation key f) where
  rows := by
    intro other present
    simp only [updateOperation, Dict.get_modify]
    split
    · next here =>
      rw [here] at present
      simpa using present
    · exact present
  calls := fun _ _ => id
  receipts := by
    intro other row text located written
    simp only [updateOperation, Dict.get_modify] at located
    split at located
    · next here =>
      subst here
      obtain ⟨old, there, rfl⟩ := Option.map_eq_some_iff.mp located
      exact (kept old text written).imp_left fun same => ⟨old, there, same⟩
    · exact .inl ⟨row, located, written⟩

theorem imp {filed' : String → Json → Prop} (follows : Follows filed db next)
    (more : ∀ key receipt, filed key receipt → filed' key receipt) : Follows filed' db next where
  rows := follows.rows
  calls := follows.calls
  receipts := by
    intro key row text located written
    refine (follows.receipts key row text located written).imp_right ?_
    rintro ⟨receipt, same, new⟩
    exact ⟨receipt, same, more key receipt new⟩

/-- Leases are another table. -/
theorem leases (follows : Follows filed db next) (leases : Dict String LeaseRow) :
    Follows filed db { next with leases } :=
  ⟨follows.rows, follows.calls, follows.receipts⟩

end Database.Follows

namespace LedgerSystem

variable {s : LedgerSystem Json Payload} {opened : Option String}

@[simp] theorem updateBase_base (f : ToolExecutionLedger Json → ToolExecutionLedger Json) :
    ((s.updateBase 0 f).instances 0).base = f (s.instances 0).base := by
  simp [updateBase, updateInstance]

@[simp] theorem updateBase_db (f : ToolExecutionLedger Json → ToolExecutionLedger Json) :
    (s.updateBase 0 f).db = s.db := rfl

@[simp] theorem updateLeases_base (f : Dict String Lease → Dict String Lease) :
    ((s.updateLeases 0 f).instances 0).base = (s.instances 0).base := by
  simp [updateLeases, updateInstance]

@[simp] theorem updateLeases_db (f : Dict String Lease → Dict String Lease) :
    (s.updateLeases 0 f).db = s.db := rfl

namespace Orderly

theorem updateBase (orderly : s.Orderly opened)
    {f : ToolExecutionLedger Json → ToolExecutionLedger Json}
    (known : ∀ id r, (f (s.instances 0).base).recordsByCallId.get id = some r →
      (s.db.keyOf id).isSome) : (s.updateBase 0 f).Orderly opened where
  recorded := by
    intro id r found
    rw [updateBase_base] at found
    exact known id r found
  bound := orderly.bound
  advanced := orderly.advanced
  unleased := orderly.unleased

/-- Marking a call adds no record. -/
theorem mark (orderly : s.Orderly opened) (sha256 : String → String) (call : LedgerCall Json)
    (reads : LedgerReads) (marks : ∀ id op tool arguments, call ≠ .register id op tool arguments) :
    (s.updateBase 0 fun base => call.apply sha256 base reads).Orderly opened := by
  apply orderly.updateBase
  intro id r found
  obtain ⟨old, before, _⟩ | ⟨_, _, _, registers, _⟩ := LedgerCall.record_of_apply found
  · exact orderly.recorded id old before
  · exact absurd registers (marks _ _ _ _)

theorem updateLeases (orderly : s.Orderly opened) (f : Dict String Lease → Dict String Lease) :
    (s.updateLeases 0 f).Orderly opened where
  recorded := by
    intro id r found
    rw [updateLeases_base] at found
    exact orderly.recorded id r found
  bound := orderly.bound
  advanced := orderly.advanced
  unleased := orderly.unleased

/-- Another database with the same calls and the same rows, up to their
    contents. -/
theorem replaceDb (orderly : s.Orderly opened) {next : Database Json Payload}
    {opened' : Option String} (calls : next.operationCalls = s.db.operationCalls)
    (rows : ∀ key, (next.operations.get key).isSome = (s.db.operations.get key).isSome)
    (advanced : ∀ key row, next.operations.get key = some row → opened' ≠ some key → row.Advanced)
    (unleased : ∀ key, next.operations.get key = none ∨ opened' = some key →
      next.leases.get (operationResource key) = none) :
    ({ s with db := next } : LedgerSystem Json Payload).Orderly opened' where
  recorded := by
    intro id r found
    have known := orderly.recorded id r found
    simpa only [Database.keyOf, calls] using known
  bound := by
    intro id key bound
    rw [rows]
    apply orderly.bound id key
    simpa only [Database.keyOf, calls] using bound
  advanced := advanced
  unleased := unleased

/-- A row of an operation that has advanced changes and stays advanced. -/
theorem update (orderly : s.Orderly opened) (key : String)
    (f : OperationRow Json → OperationRow Json)
    (stays : ∀ row, s.db.operations.get key = some row → opened ≠ some key → (f row).Advanced) :
    ({ s with db := s.db.updateOperation key f } : LedgerSystem Json Payload).Orderly opened := by
  have row_of : ∀ other, (s.db.updateOperation key f).operations.get other =
      if other = key then (s.db.operations.get key).map f else s.db.operations.get other :=
    fun other => Dict.get_modify _ _ _ _
  have rows : ∀ other, ((s.db.updateOperation key f).operations.get other).isSome =
      (s.db.operations.get other).isSome := by
    intro other
    rw [row_of]
    split
    · next here => rw [here, Option.isSome_map]
    · rfl
  refine orderly.replaceDb rfl rows ?_ ?_
  · intro other row located closed
    rw [row_of] at located
    split at located
    · next here =>
      subst here
      obtain ⟨old, there, rfl⟩ := Option.map_eq_some_iff.mp located
      exact stays old there closed
    · exact orderly.advanced other row located closed
  · intro other absent
    refine orderly.unleased other (absent.imp_left fun none => ?_)
    have missing := rows other
    rw [none] at missing
    simpa using missing.symm

end Orderly

/-- In between registration and submission of the call `id`. -/
structure Opened (s : LedgerSystem Json Payload) (id key : String) : Prop where
  orderly : s.Orderly (some key)
  mine : s.db.keyOf id = some key
  row : ∃ row, s.db.operations.get key = some row ∧ ¬row.Advanced ∧
    row.executionReceiptJson = none

end LedgerSystem

theorem Database.prepareOperation_error {db : Database Json Payload} {now : Seconds}
    {id op tool hash : String} {arguments : Json} {e : StoreError}
    (failed : db.prepareOperation sha256 now id op tool hash arguments = .error e) :
    (db.keyOf id).isSome := by
  simp only [prepareOperation, Dict.get_insertNew_self] at failed
  split at failed
  · next taken =>
    cases bound : db.keyOf id with
    | none => simp [bound] at taken
    | some key => rfl
  · cases failed

/-- A proposal leaves the rows that are there alone. -/
theorem Database.Follows.prepared {filed : String → Json → Prop} {db : Database Json Payload}
    {id : String} {call : CallRow} {row : OperationRow Json}
    (receipt : row.executionReceiptJson = none) :
    Follows filed db { db with
      operations := db.operations.insertNew call.operationKey row
      operationCalls := db.operationCalls.insertNew id call } where
  rows := by
    intro key present
    obtain ⟨old, located⟩ := Option.isSome_iff_exists.mp present
    simp [Dict.get_insertNew_of_some located]
  calls := by
    intro other key bound
    obtain ⟨old, found, same⟩ := Option.map_eq_some_iff.mp bound
    simp only [keyOf, Dict.get_insertNew_of_some found, Option.map_some, same]
  receipts := by
    intro key found text located written
    by_cases here : key = call.operationKey
    · subst here
      simp only [Dict.get_insertNew_self, Option.some.injEq] at located
      cases old : db.operations.get call.operationKey with
      | none =>
          rw [old, Option.getD_none] at located
          rw [← located, receipt] at written
          cases written
      | some before =>
          rw [old, Option.getD_some] at located
          exact .inl ⟨before, rfl, located ▸ written⟩
    · rw [Dict.get_insertNew_ne _ _ here] at located
      exact .inl ⟨found, located, written⟩

/-- The proposal binds its own call id, and no other. -/
theorem Database.keyOf_prepared {db : Database Json Payload} {id : String} {call : CallRow}
    {operations : Dict String (OperationRow Json)}
    (free : db.keyOf id = none ∨ db.keyOf id = some call.operationKey) (other : String) :
    ({ db with operations, operationCalls := db.operationCalls.insertNew id call } :
        Database Json Payload).keyOf other =
      if other = id then some call.operationKey else db.keyOf other := by
  simp only [keyOf] at free ⊢
  split
  · next here =>
    subst here
    rw [Dict.get_insertNew_self]
    cases old : db.operationCalls.get other with
    | none => rfl
    | some before =>
        rw [old] at free
        simpa using free
  · next elsewhere => rw [Dict.get_insertNew_ne _ _ elsewhere]

namespace LedgerSystem

variable (sha256) (filed : String → Json → Prop) {s : LedgerSystem Json Payload} {id key : String}

/-- A known call id brings up an operation that has advanced. A new one may
    open the operation it names. -/
theorem Orderly.register (orderly : s.Orderly none) (id op tool : String) (arguments : Json) :
    Database.Follows filed s.db (s.call sha256 0 (.registerToolCall id op tool arguments)).2.db ∧
      ((s.call sha256 0 (.registerToolCall id op tool arguments)).2.Orderly none ∨
        (s.db.operations.get (operationKey sha256 op tool (computeArgumentsHash sha256 arguments)) =
            none ∧
          (∃ r, (s.call sha256 0 (.registerToolCall id op tool arguments)).1 = .record r) ∧
          (s.call sha256 0 (.registerToolCall id op tool arguments)).2.Opened id
            (operationKey sha256 op tool (computeArgumentsHash sha256 arguments)))) := by
  rw [call_register]
  generalize registered : (s.instances 0).base.registerToolCall sha256 s.reads id op tool arguments =
    kept
  have recorded : ∀ other r, kept.2.recordsByCallId.get other = some r →
      other = id ∨ (s.db.keyOf other).isSome := by
    intro other r found
    rw [← registered] at found
    obtain ⟨old, before, _⟩ | ⟨_, _, _, call, _⟩ := LedgerCall.record_of_apply
      (show ((LedgerCall.register id op tool arguments).apply sha256 (s.instances 0).base
        s.reads).recordsByCallId.get other = some r from found)
    · exact .inr (orderly.recorded other old before)
    · cases call
      exact .inl rfl
  simp only
  split
  · next e failed =>
    refine ⟨.refl _, .inl ?_⟩
    dsimp only
    apply orderly.updateBase
    intro other r found
    obtain rfl | known := recorded other r found
    · exact Database.prepareOperation_error failed
    · exact known
  · next operation next done =>
    obtain ⟨row, call, status, receipt, hash, named, free, rfl⟩ :=
      Database.prepareOperation_ok done
    have keyOf := @Database.keyOf_prepared _ _ _ s.db id call
      (s.db.operations.insertNew call.operationKey row) free
    have follows : Database.Follows filed s.db { s.db with
        operations := s.db.operations.insertNew call.operationKey row
        operationCalls := s.db.operationCalls.insertNew id call } := .prepared receipt
    generalize prepared : ({ s.db with
      operations := s.db.operations.insertNew call.operationKey row
      operationCalls := s.db.operationCalls.insertNew id call } : Database Json Payload) = next
      at keyOf follows ⊢
    refine ⟨follows, ?_⟩
    have known : ∀ other r, (kept.2.updateRecord id
        (·.hydrate operation)).recordsByCallId.get other = some r → (next.keyOf other).isSome := by
      intro other r found
      simp only [ToolExecutionLedger.updateRecord, Dict.get_modify] at found
      rw [keyOf]
      split
      · rfl
      · next elsewhere =>
        rw [if_neg elsewhere] at found
        exact (recorded other r found).resolve_left elsewhere
    have bound : ∀ other key, next.keyOf other = some key → (next.operations.get key).isSome := by
      intro other key bound
      rw [keyOf] at bound
      split at bound
      · cases bound
        simp [← prepared]
      · exact follows.rows key (orderly.bound other key bound)
    have rows : ∀ key, next.operations.get key =
        (s.db.operations.insertNew call.operationKey row).get key := by simp [← prepared]
    have leases : next.leases = s.db.leases := by simp [← prepared]
    have orderlyIf : ∀ opened,
        (∀ key row, next.operations.get key = some row → opened ≠ some key → row.Advanced) →
        (∀ key, next.operations.get key = none ∨ opened = some key →
          next.leases.get (operationResource key) = none) →
        (({ s.updateBase 0 fun _ => kept.2 with db := next } : LedgerSystem Json Payload).updateBase
          0 fun base => base.updateRecord id (·.hydrate operation)).Orderly opened := by
      intro opened advanced unleased
      refine ⟨?_, bound, advanced, unleased⟩
      intro other r found
      simp only [updateBase_base] at found
      exact known other r found
    cases present : s.db.operations.get call.operationKey with
    | some old =>
        have same : ∀ key, next.operations.get key = s.db.operations.get key := by
          intro key
          rw [rows]
          by_cases here : key = call.operationKey
          · subst here
            simp [present]
          · exact Dict.get_insertNew_ne _ _ here
        refine .inl (orderlyIf none ?_ ?_)
        · intro key row located
          exact orderly.advanced key row (same key ▸ located)
        · intro key absent
          rw [leases]
          exact orderly.unleased key (same key ▸ absent)
    | none =>
        -- The call id is new, or its operation would be there.
        have unknown : (s.instances 0).base.recordsByCallId.get id = none := by
          cases found : (s.instances 0).base.recordsByCallId.get id with
          | none => rfl
          | some r =>
              obtain ⟨key, mine⟩ := Option.isSome_iff_exists.mp (orderly.recorded id r found)
              have there := orderly.bound id key mine
              rw [mine] at free
              cases free.resolve_left (by simp)
              simp [present] at there
        have fresh : kept.1.argumentsHash = computeArgumentsHash sha256 arguments := by
          rw [← registered]
          simp only [ToolExecutionLedger.registerToolCall, unknown]
        rw [fresh] at named
        rw [← named]
        refine .inr ⟨present, ⟨_, rfl⟩, orderlyIf _ ?_ ?_, ?_, row, ?_, ?_, receipt⟩
        · intro key row located elsewhere
          rw [rows, Dict.get_insertNew_ne _ _ fun here => elsewhere (congrArg some here.symm)]
            at located
          exact orderly.advanced key row located (by simp)
        · intro key absent
          rw [leases]
          apply orderly.unleased key
          rcases absent with absent | ⟨⟨⟩⟩
          · by_cases here : key = call.operationKey
            · exact .inl (here ▸ present)
            · rw [rows, Dict.get_insertNew_ne _ _ here] at absent
              exact .inl absent
          · exact .inl present
        · exact (keyOf id).trans (if_pos rfl)
        · exact (rows _).trans (by simp [present])
        · intro advanced
          exact advanced.1 status

/-- Looking a record up may remember one that the database has. -/
theorem Orderly.lookUp {opened : Option String} (orderly : s.Orderly opened) (id : String) :
    (s.lookUp 0 id).2.Orderly opened ∧ (s.lookUp 0 id).2.db = s.db := by
  unfold LedgerSystem.lookUp
  split
  · exact ⟨orderly, rfl⟩
  · split
    · exact ⟨orderly, rfl⟩
    · next operation stored =>
      refine ⟨?_, rfl⟩
      dsimp only
      apply orderly.updateBase
      intro other r found
      simp only [Dict.get_set] at found
      split at found
      · next here =>
        obtain ⟨key, _, mine, _, _⟩ := Database.operationForCall_some stored
        rw [here, mine]
        rfl
      · exact orderly.recorded other r found

/-- The record in memory follows the database. -/
theorem Orderly.validated (orderly : s.Orderly none) (id : String) :
    Database.Follows filed s.db (s.call sha256 0 (.markValidated id)).2.db ∧
      (s.call sha256 0 (.markValidated id)).2.Orderly none := by
  rw [call_validated]
  obtain ⟨looked, same⟩ := orderly.lookUp id
  generalize s.lookUp 0 id = found at looked same
  obtain ⟨record, t⟩ := found
  dsimp only at looked same
  have unchanged : Database.Follows filed s.db t.db := by
    rw [same]
    exact .refl _
  cases record with
  | none => exact ⟨unchanged, looked⟩
  | some record =>
      simp only
      split
      · split
        · exact ⟨unchanged, looked⟩
        · next operation next done =>
          obtain ⟨key, row, _, located, rfl⟩ := Database.markOperationValidated_ok done
          rw [if_neg (orderly.advanced key row located (by simp)).1, ← same]
          exact ⟨.refl _, looked.mark sha256 (.validated id) s.reads (by simp)⟩
      · exact ⟨unchanged, looked⟩

theorem Opened.updateBase (opened : s.Opened id key)
    {f : ToolExecutionLedger Json → ToolExecutionLedger Json}
    (orderly : (s.updateBase 0 f).Orderly (some key)) : (s.updateBase 0 f).Opened id key :=
  ⟨orderly, opened.mine, opened.row⟩

theorem Opened.operationForCall (opened : s.Opened id key) :
    ∃ row, s.db.operations.get key = some row ∧ (row.status = .proposed ∨ row.status = .validated) ∧
      row.executionReceiptJson = none ∧
      s.db.operationForCall id = some (operationFromRow key row) := by
  obtain ⟨row, located, early, receipt⟩ := opened.row
  refine ⟨row, located, ?_, receipt, Database.operationForCall_of_row opened.mine located⟩
  by_contra late
  exact early (not_or.mp late)

theorem Opened.validated (opened : s.Opened id key) :
    Database.Follows filed s.db (s.call sha256 0 (.markValidated id)).2.db ∧
      (s.call sha256 0 (.markValidated id)).1 = .none ∧
      (s.call sha256 0 (.markValidated id)).2.Opened id key := by
  rw [call_validated]
  obtain ⟨looked, same⟩ := opened.orderly.lookUp id
  generalize s.lookUp 0 id = found at looked same
  obtain ⟨record, t⟩ := found
  dsimp only at looked same
  have unchanged : Database.Follows filed s.db t.db := by
    rw [same]
    exact .refl _
  have still : t.Opened id key := ⟨looked, same ▸ opened.mine, same ▸ opened.row⟩
  cases record with
  | none => exact ⟨unchanged, rfl, still⟩
  | some record =>
      simp only
      split
      · obtain ⟨row, located, was, receipt, found⟩ := opened.operationForCall
        split
        · next e failed =>
          rw [Database.markOperationValidated, found] at failed
          cases failed
        · next operation next done =>
          rw [Database.markOperationValidated, found] at done
          cases done
          dsimp only
          split
          · next proposed =>
            refine ⟨.update fun _ _ => .inl, rfl, ?_⟩
            rw [← same] at located ⊢
            have changed := looked.update key (fun row =>
              { row with status := .validated, updatedAt := s.reads.now })
              fun _ _ closed => absurd rfl closed
            refine ⟨changed.mark sha256 (.validated id) s.reads (by simp), still.mine, _,
              (Database.updateOperation_get _ located key).trans (if_pos rfl), ?_, receipt⟩
            exact fun advanced => advanced.2 rfl
          · rw [← same]
            exact ⟨.refl _, rfl, still.updateBase (looked.mark sha256 (.validated id) s.reads (by simp))⟩
      · exact ⟨unchanged, rfl, still⟩

theorem Orderly.submitted (orderly : s.Orderly none) (id : String) :
    ∃ e, s.call sha256 0 (.markSubmitted id) = (.raised e, s) := by
  rw [call_submitted]
  split
  · exact ⟨_, rfl⟩
  · next done =>
    obtain ⟨key, row, _, _, located, was, _⟩ := Database.markOperationSubmitted_ok done
    obtain ⟨notProposed, notValidated⟩ := orderly.advanced key row located (by simp)
    exact absurd was (not_or.mpr ⟨notProposed, notValidated⟩)

/-- With its operation submitted and leased, nothing is open any more. -/
theorem Orderly.close (orderly : s.Orderly (some key)) {row : OperationRow Json}
    (located : s.db.operations.get key = some row) (advanced : row.Advanced) (granted : LeaseRow) :
    ({ s with db := { s.db with
      leases := s.db.leases.set (operationResource key) granted } } :
        LedgerSystem Json Payload).Orderly none := by
  refine orderly.replaceDb rfl (fun _ => rfl) ?_ ?_
  · intro other found there _
    by_cases here : other = key
    · subst here
      cases located.symm.trans there
      exact advanced
    · exact orderly.advanced other found there fun same => here (Option.some.inj same).symm
  · intro other absent
    have apart : operationResource other ≠ operationResource key := by
      intro same
      rw [operationResource_injective same, located] at absent
      simp at absent
    exact (Dict.get_set_ne _ _ apart).trans (orderly.unleased other (absent.imp_right (by simp)))

/-- An operation that was just opened has no lease, so it can be submitted. -/
theorem Opened.submitted (opened : s.Opened id key) :
    Database.Follows filed s.db (s.call sha256 0 (.markSubmitted id)).2.db ∧
      (s.call sha256 0 (.markSubmitted id)).1 = .none ∧
      (s.call sha256 0 (.markSubmitted id)).2.Orderly none := by
  rw [call_submitted]
  obtain ⟨row, located, was, _, found⟩ := opened.operationForCall
  have free := opened.orderly.unleased key (.inr rfl)
  simp only [Database.markOperationSubmitted, found, operationFromRow, was, if_true,
    Database.acquireLeaseLocked, free, grantedToken, Option.map_some]
  have changed := opened.orderly.update key (fun row =>
    { row with status := .submitted, updatedAt := s.reads.now }) fun _ _ closed => absurd rfl closed
  have closed := changed.close ((Database.updateOperation_get _ located key).trans (if_pos rfl))
    ⟨(by simp), (by simp)⟩ (.granted (s.instances 0).ownerId 1 (s.instances 0).leaseTtlSeconds s.reads.now)
  have follows : Database.Follows filed s.db (s.db.updateOperation key fun row =>
      { row with status := .submitted, updatedAt := s.reads.now }) := .update fun _ _ => .inl
  refine ⟨?_, trivial, ?_⟩
  · exact follows.leases _
  · exact (closed.updateLeases _).mark sha256 (.submitted id) s.reads (by simp)

theorem Orderly.dropLeases {opened : Option String} (orderly : s.Orderly opened)
    (keep : String → LeaseRow → Bool) :
    ({ s with db := { s.db with leases := s.db.leases.filter keep } } :
      LedgerSystem Json Payload).Orderly opened where
  recorded := orderly.recorded
  bound := orderly.bound
  advanced := orderly.advanced
  unleased := by
    intro key absent
    rw [Dict.get_filter, orderly.unleased key absent]
    rfl

/-- A commit stores its receipt with the operation of its call, or fails. -/
theorem Orderly.committed (orderly : s.Orderly none) (id : String) (receipt : Json) :
    (s.call sha256 0 (.markCommitted id receipt)).2.Orderly none ∧
      ((∃ e, s.call sha256 0 (.markCommitted id receipt) = (.raised e, s)) ∨
        (s.call sha256 0 (.markCommitted id receipt)).1 = .none ∧
        ∃ key, s.db.keyOf id = some key ∧ Database.Follows (fun k r => k = key ∧ r = receipt) s.db
          (s.call sha256 0 (.markCommitted id receipt)).2.db) := by
  rw [call_committed]
  split
  · exact ⟨orderly, .inl ⟨_, rfl⟩⟩
  · next lease cached =>
    split
    · exact ⟨orderly, .inl ⟨_, rfl⟩⟩
    · next operation next done =>
      obtain ⟨key, row, mine, located, _, _, rfl⟩ := Database.markOperationCommitted_ok done
      refine ⟨?_, .inr ⟨rfl, key, mine, ?_⟩⟩
      · have changed := orderly.update key (fun row => { row with
          status := .committed
          executionReceiptJson := some (.encode receipt)
          errorMessage := none
          updatedAt := s.reads.later }) fun _ _ _ => ⟨(by simp), (by simp)⟩
        exact ((changed.dropLeases _).updateLeases _).mark sha256 (.committed id receipt) s.reads
          (by simp)
      · have follows : Database.Follows (fun k r => k = key ∧ r = receipt) s.db
            (s.db.updateOperation key fun row => { row with
              status := .committed
              executionReceiptJson := some (.encode receipt)
              errorMessage := none
              updatedAt := s.reads.later }) :=
          .update fun _ text written => .inr ⟨receipt, (Option.some.inj written).symm, rfl, rfl⟩
        exact follows.leases _

theorem Orderly.failed (orderly : s.Orderly none) (id message : String) :
    (s.call sha256 0 (.markFailed id message)).2.Orderly none ∧
      Database.Follows filed s.db (s.call sha256 0 (.markFailed id message)).2.db := by
  rw [call_failed]
  split
  · exact ⟨orderly, .refl _⟩
  · next operation next done =>
    obtain ⟨key, row, mine, located, rfl⟩ := Database.markOperationFailed_ok done
    split
    · have changed := orderly.update key (fun row => { row with
          status := .failed, errorMessage := some message, updatedAt := s.reads.now })
          fun _ _ _ => ⟨(by simp), (by simp)⟩
      exact ⟨changed.mark sha256 (.failed id message) s.reads (by simp), .update fun _ _ => .inl⟩
    · exact ⟨orderly.mark sha256 (.failed id message) s.reads (by simp), .refl _⟩

theorem Orderly.replayed (orderly : s.Orderly none) (id : String) (receipt : Json) :
    (s.call sha256 0 (.markReplayed id receipt)).2.Orderly none :=
  orderly.mark sha256 (.replayed id receipt) s.reads (by simp)

end LedgerSystem

end DuraLLM
