import DuraLLM.Storage.ToolLedger
import Mathlib.Tactic.Linarith

/-! # A submission in progress

Between `mark_submitted` and `mark_committed` the tool runs.  Meanwhile other
instances work on the same database.  `Held` is what the submitting instance
relies on: the operation is still submitted, and the lease row still shows the
owner and the token the instance has cached.

Start-up recovery takes both away, on purpose: it cannot tell a dead process
from one whose tool is still running.
-/

namespace DuraLLM

section Quiet

variable {Json Payload : Type}

/-- The operations that leave every submission alone. -/
def Quiet : (ledgerSignature Json Payload).Op → Prop
  | (_, .store (.prepareOperation ..)) | (_, .store (.operationForCall ..))
  | (_, .store (.operationForKey ..)) | (_, .store (.markOperationValidated ..))
  | (_, .store (.markOperationFailed ..)) => True
  | (_, .store _) | (_, .setLease ..) | (_, .popLease ..) => False
  | _ => True

theorem getRecord_asks (j : Nat) (other : String) :
    (SqliteLedger.getRecord j other : Prog (ledgerSignature Json Payload) _).Asks Quiet := by
  refine ⟨trivial, fun record => ?_⟩
  cases record with
  | some record => trivial
  | none =>
      refine ⟨trivial, fun operation => ?_⟩
      cases operation with
      | none => trivial
      | some operation => exact ⟨trivial, fun _ => trivial⟩

theorem validated_asks (j : Nat) (other : String) :
    (SqliteLedger.markValidated j other : Prog (ledgerSignature Json Payload) _).Asks Quiet := by
  refine (getRecord_asks j other).bind fun record => ?_
  cases record with
  | none => trivial
  | some record =>
      simp only
      split
      · refine ⟨trivial, fun validated => ?_⟩
        cases validated with
        | error e => trivial
        | ok operation => exact ⟨trivial, fun _ => trivial⟩
      · trivial

theorem register_asks (j : Nat) (other op tool : String) (arguments : Json) :
    (SqliteLedger.registerToolCall j other op tool arguments :
      Prog (ledgerSignature Json Payload) _).Asks Quiet := by
  refine ⟨trivial, fun record => ⟨trivial, fun prepared => ?_⟩⟩
  cases prepared with
  | error e => trivial
  | ok operation => exact ⟨trivial, fun _ => trivial⟩

theorem failed_asks (j : Nat) (other message : String) :
    (SqliteLedger.markFailed j other message :
      Prog (ledgerSignature Json Payload) _).Asks Quiet := by
  refine ⟨trivial, fun marked => ?_⟩
  cases marked with
  | error e => trivial
  | ok operation => exact ⟨trivial, fun _ => trivial⟩

end Quiet

variable {Json Payload : Type} [JsonCodec Json]

/-- Calls of any instance, one after the other, and the outside world. -/
inductive LedgerStep (Json : Type) where
  | call (i : Nat) (call : DurableCall Json)
  | world (event : LedgerWorld)

namespace LedgerSystem

def call (sha256 : String → String) (s : LedgerSystem Json Payload) (i : Nat)
    (call : DurableCall Json) : DurableAnswer Json × LedgerSystem Json Payload :=
  (call.program sha256 i).exec (handle sha256) s

def step (sha256 : String → String) (s : LedgerSystem Json Payload) :
    LedgerStep Json → LedgerSystem Json Payload
  | .call i call => (s.call sha256 i call).2
  | .world event => event.apply s

def run (sha256 : String → String) (s : LedgerSystem Json Payload)
    (steps : List (LedgerStep Json)) : LedgerSystem Json Payload :=
  steps.foldl (step sha256) s

/-- Nobody settles the operation of call `id` in the place of instance `i`, and
    the instance stays alive. -/
def Undisturbed (s : LedgerSystem Json Payload) (i : Nat) (id : String) : LedgerStep Json → Prop
  | .call _ (.markIndeterminate other _) | .call _ (.markCommitted other _) =>
      s.db.keyOf other ≠ s.db.keyOf id
  | .call _ _ => True
  | .world (.restart j _ _) => j ≠ i
  | .world (.clock _) => True

/-- The step starts an instance with recovery of in-flight operations. -/
def Recovers : LedgerStep Json → Prop
  | .call _ (.construct recoverInflight) => recoverInflight = true
  | _ => False

/-- Every step of the run satisfies `P` in the state it is taken from. -/
def Along (sha256 : String → String) (P : LedgerSystem Json Payload → LedgerStep Json → Prop)
    (s : LedgerSystem Json Payload) : List (LedgerStep Json) → Prop
  | [] => True
  | step :: steps => P s step ∧ Along sha256 P (s.step sha256 step) steps

/-- The submission of call `id`, bound to operation `key`, is held by instance
    `i` at least until `deadline`. -/
structure Held (i : Nat) (id key : String) (deadline : Seconds) (s : LedgerSystem Json Payload) :
    Prop where
  bound : s.db.keyOf id = some key
  submitted : ∃ row, s.db.operations.get key = some row ∧ row.status = .submitted
  lease : ∃ row cached, s.db.leases.get (operationResource key) = some row ∧
    (s.instances i).leases.get id = some cached ∧ row.ownerId = (s.instances i).ownerId ∧
    row.fencingToken = cached.fencingToken ∧ deadline ≤ row.expiresAt

end LedgerSystem

/-- A transaction that can neither settle operation `key` nor touch its lease. -/
def StoreCall.Spares (db : Database Json Payload) (key : String) : StoreCall Json Payload → Prop
  | .markOperationCommitted id _ _ _ | .markOperationIndeterminate id _ => db.keyOf id ≠ some key
  | .acquireLease .. | .releaseLease .. | .recoverInflightOperations .. => False
  | _ => True

/-- Of the calls that ask for a lease, only a submission asks for that of an
    operation, and not for a submitted one. -/
private theorem leaseRequest_ne {db : Database Json Payload} {key owner : String}
    {row : OperationRow Json} {call : StoreCall Json Payload}
    (located : db.operations.get key = some row) (submitted : row.status = .submitted)
    (spares : call.Spares db key) : call.leaseRequest db ≠ some (operationResource key, owner) := by
  cases call with
  | acquireLease resource owner ttl => exact spares.elim
  | markOperationSubmitted id owner ttl =>
      intro request
      obtain ⟨other, row', located', was, same⟩ := StoreCall.submission_request request
      obtain rfl := operationResource_injective same
      obtain rfl := Option.some.inj (located.symm.trans located')
      simp [submitted] at was
  | _ => nofun

namespace LedgerSystem.Held

variable {sha256 : String → String} {i : Nat} {id key : String} {deadline : Seconds}
  {s : LedgerSystem Json Payload}

variable (sha256) in
/-- The step lemma for a transaction. -/
theorem store (held : Held i id key deadline s) (j : Nat) (call : StoreCall Json Payload)
    (spares : call.Spares s.db key) :
    Held i id key deadline (handle sha256 (j, .store call) s).2 := by
  have outcome := call.outcome sha256 s.storeReads s.db
  obtain ⟨row, located, submitted⟩ := held.submitted
  obtain ⟨leaseRow, cached, leased, inMemory, owner, token, lasting⟩ := held.lease
  refine ⟨outcome.keyOf_stays held.bound, ?_, ⟨leaseRow, cached, ?_, inMemory, owner, token, lasting⟩⟩
  · obtain ⟨row', located', change⟩ := outcome.row_change located
    refine ⟨row', located', ?_⟩
    cases change with
    | kept => exact submitted
    | validated bound was | submitted bound was => simp [submitted] at was
    | committed bound was | indeterminate bound was => exact absurd bound spares
    | failed bound was => exact absurd submitted was.2
    | recovered was => exact spares.elim
  · have change := outcome.lease_change (operationResource key)
    change (call.after sha256 s.storeReads s.db).leases.get (operationResource key) = some leaseRow
    generalize call.grant (call.perform sha256 s.storeReads s.db).1 = granted at change
    generalize (call.after sha256 s.storeReads s.db).leases.get (operationResource key) = found
      at change ⊢
    cases change with
    | kept elsewhere => exact leased
    | granted request rule => exact absurd request (leaseRequest_ne located submitted spares)
    | dropped before drop =>
        cases drop with
        | released | recovered => exact spares.elim
        | committed bound same | indeterminate bound same =>
            obtain rfl := operationResource_injective same
            exact absurd bound spares

/-- What an instance does with its base class leaves the submission alone. -/
theorem memory (held : Held i id key deadline s) (j : Nat)
    (f : ToolExecutionLedger Json → ToolExecutionLedger Json) :
    Held i id key deadline (s.updateBase j f) := by
  obtain ⟨leaseRow, cached, leased, inMemory, owner, token, lasting⟩ := held.lease
  refine ⟨held.bound, held.submitted, leaseRow, cached, leased, ?_, ?_, token, lasting⟩
  · simp only [updateBase, updateInstance, Function.update_apply]
    split
    · next same => rw [← same]; exact inMemory
    · exact inMemory
  · simp only [updateBase, updateInstance, Function.update_apply]
    split
    · next same => rw [← same]; exact owner
    · exact owner

/-- Changing another entry of the lease cache does as well. -/
theorem leases (held : Held i id key deadline s) (j : Nat)
    {f : Dict String Lease → Dict String Lease}
    (same : j = i → (f (s.instances i).leases).get id = (s.instances i).leases.get id) :
    Held i id key deadline (s.updateLeases j f) := by
  obtain ⟨leaseRow, cached, leased, inMemory, owner, token, lasting⟩ := held.lease
  refine ⟨held.bound, held.submitted, leaseRow, cached, leased, ?_, ?_, token, lasting⟩
  · simp only [updateLeases, updateInstance, Function.update_apply]
    split
    · next at_i => subst at_i; rw [same rfl]; exact inMemory
    · exact inMemory
  · simp only [updateLeases, updateInstance, Function.update_apply]
    split
    · next at_i => subst at_i; exact owner
    · exact owner

theorem quiet (op : (ledgerSignature Json Payload).Op) (s : LedgerSystem Json Payload)
    (silent : Quiet op) (held : Held i id key deadline s) :
    Held i id key deadline (handle sha256 op s).2 := by
  obtain ⟨j, op⟩ := op
  cases op with
  | store call =>
      cases call with
      | prepareOperation | operationForCall | operationForKey | markOperationValidated
      | markOperationFailed => exact held.store sha256 j _ trivial
      | _ => exact silent.elim
  | register | mark | putRecord | hydrate =>
      simp only [handle]
      exact held.memory j _
  | getRecord | config | getLease => exact held
  | setLease | popLease => exact silent.elim

/-- The calls that only ask for quiet operations. -/
theorem quiet_call {call : DurableCall Json} {j : Nat}
    (asks : (call.program sha256 j : Prog (ledgerSignature Json Payload) _).Asks Quiet)
    (held : Held i id key deadline s) : Held i id key deadline (s.call sha256 j call).2 :=
  Prog.exec_keeps _ quiet asks held

theorem check_asks (j : Nat) (op tool : String) (arguments : Json) :
    (SqliteLedger.checkIdempotency sha256 j op tool arguments :
      Prog (ledgerSignature Json Payload) _).Asks Quiet := by
  refine ⟨trivial, fun found => ?_⟩
  cases found with
  | none => trivial
  | some operation =>
      simp only [Prog.bind]
      split <;> trivial

/-- A submission by anyone: the operation is no longer open for it, so neither
    is the cache entry of its call. -/
theorem submit_call (held : Held i id key deadline s) (j : Nat) (other : String) :
    Held i id key deadline (s.call sha256 j (.markSubmitted other)).2 := by
  have after := held.store sha256 j (.markOperationSubmitted other
    (s.instances j).ownerId (s.instances j).leaseTtlSeconds) trivial
  have fresh : ∀ lease db', s.db.markOperationSubmitted s.storeReads.now other
      (s.instances j).ownerId (s.instances j).leaseTtlSeconds = .ok (lease, db') → other ≠ id := by
    rintro lease db' done rfl
    obtain ⟨_, row, _, bound, located, was, _⟩ := Database.markOperationSubmitted_ok done
    obtain rfl := Option.some.inj (held.bound.symm.trans bound)
    obtain ⟨row', located', submitted⟩ := held.submitted
    obtain rfl := Option.some.inj (located.symm.trans located')
    simp [submitted] at was
  simp only [handle, StoreCall.perform] at after
  simp only [call, DurableCall.program, SqliteLedger.markSubmitted, Prog.exec_bind,
    SqliteLedger.exec_ask, handle, StoreCall.perform]
  cases done : s.db.markOperationSubmitted s.storeReads.now other (s.instances j).ownerId
      (s.instances j).leaseTtlSeconds with
  | error e =>
      rw [done] at after
      exact after
  | ok answer =>
      obtain ⟨lease, db'⟩ := answer
      rw [done] at after
      simp only [StoreCall.rollback, SqliteLedger.checked, Prog.exec_bind, SqliteLedger.exec_ask,
        Prog.exec_pure, handle]
      refine (after.leases j ?_).memory j _
      intro _
      exact Dict.get_set_ne _ _ (Ne.symm (fresh _ _ done))

variable (sha256) in
/-- The commit or the marking of another operation. -/
theorem settle_store (held : Held i id key deadline s) (j : Nat) {other : String}
    (call : StoreCall Json Payload) (spares : call.Spares s.db key)
    (apart : s.db.keyOf other ≠ some key) :
    Held i id key deadline
      ((handle sha256 (j, .store call) s).2.updateLeases j (·.erase other)) := by
  refine (held.store sha256 j call spares).leases j fun _ => Dict.get_erase_ne _ ?_
  rintro rfl
  exact apart held.bound

theorem indeterminate_call (held : Held i id key deadline s) (j : Nat) (other reason : String)
    (apart : s.db.keyOf other ≠ some key) :
    Held i id key deadline (s.call sha256 j (.markIndeterminate other reason)).2 := by
  have after := held.store sha256 j (.markOperationIndeterminate other reason) apart
  have popped := held.settle_store sha256 j (.markOperationIndeterminate other reason) apart apart
  simp only [handle, StoreCall.perform] at after popped
  simp only [call, DurableCall.program, SqliteLedger.markIndeterminate, Prog.exec_bind,
    SqliteLedger.exec_ask, handle, StoreCall.perform]
  cases done : s.db.markOperationIndeterminate s.storeReads.now other reason with
  | error e =>
      rw [done] at after
      exact after
  | ok answer =>
      obtain ⟨stored, db'⟩ := answer
      rw [done] at popped
      simp only [StoreCall.rollback, SqliteLedger.checked, Prog.exec_bind, SqliteLedger.exec_ask,
        Prog.exec_pure, handle]
      exact popped.memory j _

theorem commit_call (held : Held i id key deadline s) (j : Nat) (other : String) (receipt : Json)
    (apart : s.db.keyOf other ≠ some key) :
    Held i id key deadline (s.call sha256 j (.markCommitted other receipt)).2 := by
  simp only [call, DurableCall.program, SqliteLedger.markCommitted, Prog.exec_bind,
    SqliteLedger.exec_ask, handle]
  cases cached : (s.instances j).leases.get other with
  | none => exact held
  | some lease =>
      have after := held.store sha256 j (.markOperationCommitted other
        (s.instances j).ownerId lease.fencingToken receipt) apart
      have popped := held.settle_store sha256 j
        (.markOperationCommitted other (s.instances j).ownerId lease.fencingToken receipt)
        apart apart
      simp only [handle, StoreCall.perform] at after popped
      simp only [Prog.exec_bind, SqliteLedger.exec_ask, handle, StoreCall.perform]
      cases done : s.db.markOperationCommitted s.storeReads.now s.storeReads.later other
          (s.instances j).ownerId lease.fencingToken receipt with
      | error e =>
          rw [done] at after
          exact after
      | ok answer =>
          obtain ⟨stored, db'⟩ := answer
          rw [done] at popped
          simp only [StoreCall.rollback, SqliteLedger.checked, Prog.exec_bind,
            SqliteLedger.exec_ask, Prog.exec_pure, handle]
          exact popped.memory j _

/-- The step lemma. -/
theorem step (held : Held i id key deadline s) (step : LedgerStep Json)
    (undisturbed : s.Undisturbed i id step) (spared : ¬Recovers step) :
    Held i id key deadline (s.step sha256 step) := by
  cases step with
  | call j call =>
      cases call with
      | construct recoverInflight =>
          cases recoverInflight with
          | true => exact absurd rfl spared
          | false => exact held
      | registerToolCall other op tool arguments =>
          exact held.quiet_call ((register_asks j other op tool arguments).bind fun _ => trivial)
      | getRecord other => exact held.quiet_call ((getRecord_asks j other).bind fun _ => trivial)
      | markValidated other =>
          exact held.quiet_call ((validated_asks j other).bind fun _ => trivial)
      | markSubmitted other => exact held.submit_call j other
      | markCommitted other receipt =>
          exact held.commit_call j other receipt (held.bound ▸ undisturbed)
      | markIndeterminate other reason =>
          exact held.indeterminate_call j other reason (held.bound ▸ undisturbed)
      | markFailed other message =>
          exact held.quiet_call ((failed_asks j other message).bind fun _ => trivial)
      | markReplayed other receipt => exact held.quiet_call ⟨trivial, fun _ => trivial⟩
      | checkIdempotency op tool arguments =>
          exact held.quiet_call ((check_asks j op tool arguments).bind fun _ => trivial)
      | hasIndeterminateOperation op tool arguments =>
          exact held.quiet_call ⟨trivial, fun _ => trivial⟩
  | world event =>
      cases event with
      | clock reads => exact ⟨held.bound, held.submitted, held.lease⟩
      | restart j owner ttl =>
          refine ⟨held.bound, held.submitted, ?_⟩
          simpa only [LedgerSystem.step, LedgerWorld.apply, updateInstance,
            Function.update_of_ne (Ne.symm undisturbed)] using held.lease

theorem run (held : Held i id key deadline s) (steps : List (LedgerStep Json))
    (undisturbed : Along sha256 (fun s step => s.Undisturbed i id step ∧ ¬Recovers step) s steps) :
    Held i id key deadline (s.run sha256 steps) := by
  induction steps generalizing s with
  | nil => exact held
  | cons step steps ih => exact ih (held.step step undisturbed.1.1 undisturbed.1.2) undisturbed.2

/-- A submission that returns is held for the lifetime of its lease. -/
theorem of_submitted (submitted : (s.call sha256 i (.markSubmitted id)).1 = .none) :
    ∃ key, Held i id key (s.reads.now + (s.instances i).leaseTtlSeconds)
      (s.call sha256 i (.markSubmitted id)).2 := by
  simp only [call, DurableCall.program, SqliteLedger.markSubmitted, Prog.exec_bind,
    SqliteLedger.exec_ask, handle, StoreCall.perform] at submitted ⊢
  cases done : s.db.markOperationSubmitted s.storeReads.now id (s.instances i).ownerId
      (s.instances i).leaseTtlSeconds with
  | error e =>
      rw [done] at submitted
      cases submitted
  | ok answer =>
      obtain ⟨lease, db'⟩ := answer
      obtain ⟨key, row, leased, bound, located, was, acquired, rfl⟩ :=
        Database.markOperationSubmitted_ok done
      obtain ⟨token, rule, rfl, rfl⟩ := Database.acquireLeaseLocked_some acquired
      simp only [StoreCall.rollback, SqliteLedger.checked, Prog.exec_bind, SqliteLedger.exec_ask,
        Prog.exec_pure, handle]
      refine ⟨key, memory ?_ i _⟩
      refine ⟨bound, ?_, ?_⟩
      · simp [updateLeases, updateInstance, Database.updateOperation, located]
      · refine ⟨.granted (s.instances i).ownerId token (s.instances i).leaseTtlSeconds
            s.storeReads.now,
          .granted (operationResource key) (s.instances i).ownerId token
            (s.instances i).leaseTtlSeconds s.storeReads.now, Dict.get_set_self _ _ _, ?_, ?_, rfl, ?_⟩
        · simp [updateLeases, updateInstance]
        · simp [updateLeases, updateInstance, LeaseRow.granted]
        · simp only [LeaseRow.granted, storeReads]
          linarith [le_max_right (1 / 1000) (s.instances i).leaseTtlSeconds]

/-- The commit of a held submission returns, and the receipt is stored. -/
theorem commit (held : Held i id key deadline s) (inTime : s.reads.now < deadline)
    (receipt : Json) :
    (s.call sha256 i (.markCommitted id receipt)).1 = .none ∧
      ∃ row, (s.call sha256 i (.markCommitted id receipt)).2.db.operations.get key = some row ∧
        row.status = .committed ∧ row.executionReceiptJson = some (.encode receipt) := by
  obtain ⟨row, located, submitted⟩ := held.submitted
  obtain ⟨leaseRow, cached, leased, inMemory, owner, token, lasting⟩ := held.lease
  have live : s.db.assertLeaseLocked (operationResource key) (s.instances i).ownerId
      cached.fencingToken s.storeReads.now = .ok () := by
    have unexpired : ¬leaseRow.expiresAt ≤ s.storeReads.now := by
      simp only [storeReads]
      linarith
    simp [Database.assertLeaseLocked, leased, owner, token, unexpired]
  simp [call, DurableCall.program, SqliteLedger.markCommitted, Prog.exec_bind, handle, inMemory,
    StoreCall.perform, Database.markOperationCommitted,
    Database.operationForCall_of_row held.bound located, operationFromRow, live, submitted,
    StoreCall.rollback, SqliteLedger.checked, DurableCall.ofExcept, updateBase, updateLeases,
    updateInstance, Database.deleteLease, Database.updateOperation_get _ located]

end LedgerSystem.Held

/-- A submission that returned commits within the lifetime of its lease,
    whatever other calls are made on any instance, as long as nobody settles
    that operation meanwhile and no instance is started with recovery. -/
theorem submission_commits (sha256 : String → String) (s : LedgerSystem Json Payload) (i : Nat)
    (id : String) (receipt : Json) (steps : List (LedgerStep Json))
    (submitted : (s.call sha256 i (.markSubmitted id)).1 = .none)
    (undisturbed : LedgerSystem.Along sha256
      (fun t step => t.Undisturbed i id step ∧ ¬LedgerSystem.Recovers step)
      (s.call sha256 i (.markSubmitted id)).2 steps)
    (inTime : ((s.call sha256 i (.markSubmitted id)).2.run sha256 steps).reads.now <
      s.reads.now + (s.instances i).leaseTtlSeconds) :
    let t := (s.call sha256 i (.markSubmitted id)).2.run sha256 steps
    (t.call sha256 i (.markCommitted id receipt)).1 = .none ∧
      ∃ key row, t.db.keyOf id = some key ∧
        (t.call sha256 i (.markCommitted id receipt)).2.db.operations.get key = some row ∧
        row.status = .committed ∧ row.executionReceiptJson = some (.encode receipt) := by
  intro t
  obtain ⟨key, started⟩ := LedgerSystem.Held.of_submitted submitted
  have held : LedgerSystem.Held i id key _ t := started.run steps undisturbed
  obtain ⟨returned, row, located, committed, stored⟩ := held.commit inTime receipt
  exact ⟨returned, key, row, held.bound, located, committed, stored⟩

private def twoLedgers : LedgerSystem OkObject Unit where
  db := {}
  instances i := { ownerId := if i = 0 then "ledger-a" else "ledger-b" }
  reads := ⟨0, 0, 0⟩

/-- The first ledger has registered the call it is about to submit. -/
private def registered : LedgerSystem OkObject Unit :=
  (twoLedgers.call sampleSha256 0 (.registerToolCall "call-1" "operation-1" "deploy" ⟨true⟩)).2

private def otherLedgerWorks : List (LedgerStep OkObject) :=
  [.call 1 (.construct false),
    .call 1 (.registerToolCall "call-2" "operation-1" "deploy" ⟨true⟩),
    .call 1 (.markSubmitted "call-2"), .world (.clock ⟨29, 29, 29⟩)]

theorem submission_commits_beside_another :
    let t := (registered.call sampleSha256 0 (.markSubmitted "call-1")).2.run sampleSha256
      otherLedgerWorks
    (t.call sampleSha256 0 (.markCommitted "call-1" ⟨false⟩)).1 = .none ∧
      ∃ key row, t.db.keyOf "call-1" = some key ∧
        (t.call sampleSha256 0 (.markCommitted "call-1" ⟨false⟩)).2.db.operations.get key =
          some row ∧
        row.status = .committed ∧ row.executionReceiptJson = some (.encode ⟨false⟩) :=
  submission_commits sampleSha256 registered 0 "call-1" ⟨false⟩ otherLedgerWorks
    (by decide +kernel) ⟨⟨trivial, nofun⟩, ⟨trivial, nofun⟩, ⟨trivial, nofun⟩, ⟨trivial, nofun⟩, trivial⟩
    (by decide +kernel)

/-- A second ledger, started as usual, takes the submission away. -/
theorem recovery_takes_submission :
    ¬ ∀ (s : LedgerSystem OkObject Unit) (i : Nat) (id : String) (receipt : OkObject)
        (steps : List (LedgerStep OkObject)),
        (s.call sampleSha256 i (.markSubmitted id)).1 = .none →
        LedgerSystem.Along sampleSha256 (fun t step => t.Undisturbed i id step)
          (s.call sampleSha256 i (.markSubmitted id)).2 steps →
        ((s.call sampleSha256 i (.markSubmitted id)).2.run sampleSha256 steps).reads.now <
          s.reads.now + (s.instances i).leaseTtlSeconds →
        (((s.call sampleSha256 i (.markSubmitted id)).2.run sampleSha256 steps).call sampleSha256 i
          (.markCommitted id receipt)).1 = .none := by
  intro claim
  have committed := claim registered 0 "call-1" ⟨false⟩ [.call 1 (.construct true)]
    (by decide +kernel) ⟨trivial, trivial⟩ (by decide +kernel)
  exact absurd committed (by decide +kernel)

end DuraLLM
