import DuraLLM.Storage.ToolLedger

/-! # One submission, one receipt

Any number of ledger instances over one database, their calls interleaved
between any two of their operations, with clocks that move and processes that
die and start again.  An operation is submitted at most once, and a receipt
once committed answers every later check.

`Audited` adds to the system the log of successful submissions, by the call
that made them.  Nothing reads the log.
-/

namespace DuraLLM

variable {Json Payload : Type} [JsonCodec Json]

/-- The operation that a submission addresses. -/
def StoreCall.submits (db : Database Json Payload) : StoreCall Json Payload → Option String
  | .markOperationSubmitted id _ _ => db.keyOf id
  | _ => none

structure Audited (Json Payload : Type) [JsonCodec Json] where
  system : LedgerSystem Json Payload
  /-- The number of the submitting call and the operation key. -/
  submissions : List (Nat × String) := []

namespace Audited

def logged (s : Audited Json Payload) (index : Nat) (call : StoreCall Json Payload)
    (lease : Option Lease) : List (Nat × String) :=
  match lease, call.submits s.system.db with
  | some _, some key => (index, key) :: s.submissions
  | _, _ => s.submissions

def handle (sha256 : String → String) (index : Nat) :
    Prog.Handler (ledgerSignature Json Payload) (Audited Json Payload) :=
  fun op s =>
    let answer := LedgerSystem.handle sha256 op s.system
    (answer.1,
      { system := answer.2
        submissions :=
          match op.2 with
          | .store call =>
              s.logged index call
                (call.grant (call.perform sha256 s.system.storeReads s.system.db).1)
          | _ => s.submissions })

end Audited

/-- A call is labelled with the instance it is made on. -/
def ledgerMachine (sha256 : String → String) :
    Machine (ledgerSignature Json Payload) (Audited Json Payload) (Nat × DurableCall Json)
      LedgerWorld (DurableAnswer Json) where
  program label := label.2.program sha256 label.1
  admits _ _ := true
  handle := Audited.handle sha256
  outside event s := { s with system := event.apply s.system }
  kills
    | .clock _, _ => false
    | .restart i _ _, label => label.1 = i

/-! ## What every operation keeps -/

/-- An operation that is neither proposed nor validated any more. -/
def OperationRow.Advanced (row : OperationRow Json) : Prop :=
  row.status ≠ .proposed ∧ row.status ≠ .validated

theorem RowChange.advanced {reads : StoreReads} {db : Database Json Payload} {key : String}
    {row row' : OperationRow Json} {call : StoreCall Json Payload}
    (change : RowChange reads db key row call row') (advanced : row.Advanced) : row'.Advanced := by
  cases change with
  | kept => exact advanced
  | validated bound was => exact absurd was advanced.1
  | submitted | committed | indeterminate | failed | recovered =>
      simp [OperationRow.Advanced]

/-- A committed row is final. -/
theorem RowChange.committed_final {reads : StoreReads} {db : Database Json Payload} {key : String}
    {row row' : OperationRow Json} {call : StoreCall Json Payload}
    (change : RowChange reads db key row call row') (committed : row.status = .committed) :
    row' = row := by
  cases change with
  | kept => rfl
  | validated bound was | committed bound was | recovered was =>
      rw [committed] at was
      cases was
  | submitted bound was => simp [committed] at was
  | indeterminate bound was => exact absurd committed was
  | failed bound was => exact absurd committed was.1

theorem Outcome.submits_once {reads : StoreReads} {db next : Database Json Payload} {key : String}
    {call : StoreCall Json Payload} {lease : Lease}
    (outcome : Outcome reads db call (some lease) next) (submits : call.submits db = some key) :
    (∃ row, db.operations.get key = some row ∧ ¬row.Advanced) ∧
      ∃ row, next.operations.get key = some row ∧ row.Advanced := by
  cases outcome with
  | leaseGranted => cases submits
  | submitted bound located was rule =>
      obtain rfl := Option.some.inj (bound.symm.trans submits)
      refine ⟨⟨_, located, ?_⟩, ?_⟩
      · rintro ⟨notProposed, notValidated⟩
        exact was.elim notProposed notValidated
      · simp only [Database.updateOperation_get _ located, if_true, Option.some.injEq,
          exists_eq_left', OperationRow.Advanced]
        exact ⟨by decide, by decide⟩

namespace Audited

/-- No operation is logged twice, and what is logged has advanced. -/
structure Sound (s : Audited Json Payload) : Prop where
  distinct : (s.submissions.map Prod.snd).Nodup
  advanced : ∀ index key, (index, key) ∈ s.submissions →
    ∃ row, s.system.db.operations.get key = some row ∧ row.Advanced

/-- What no operation of any call takes back. -/
structure Grows (s t : Audited Json Payload) : Prop where
  log : s.submissions ⊆ t.submissions
  bound : ∀ id key, s.system.db.keyOf id = some key → t.system.db.keyOf id = some key
  final : ∀ key row, s.system.db.operations.get key = some row → row.status = .committed →
    t.system.db.operations.get key = some row

theorem Grows.refl (s : Audited Json Payload) : Grows s s :=
  ⟨fun _ => id, fun _ _ => id, fun _ _ located _ => located⟩

theorem Grows.trans {s t u : Audited Json Payload} (first : Grows s t) (second : Grows t u) :
    Grows s u where
  log := fun _ member => second.log (first.log member)
  bound := fun id key bound => second.bound id key (first.bound id key bound)
  final := fun key row located committed =>
    second.final key row (first.final key row located committed) committed

/-- A step that leaves database and log alone. -/
theorem Grows.of_same {s t : Audited Json Payload} (sound : s.Sound)
    (db : t.system.db = s.system.db) (log : t.submissions = s.submissions) :
    t.Sound ∧ Grows s t := by
  refine ⟨⟨log ▸ sound.distinct, ?_⟩, ⟨by rw [log]; exact fun _ => id, ?_, ?_⟩⟩
  · rw [log, db]
    exact sound.advanced
  · rw [db]
    exact fun _ _ => id
  · rw [db]
    exact fun _ _ located _ => located

variable {sha256 : String → String} {s : Audited Json Payload}

/-- The step lemma for a transaction. -/
theorem Sound.store (sound : s.Sound) (index i : Nat) (call : StoreCall Json Payload) :
    (handle sha256 index (i, .store call) s).2.Sound ∧
      Grows s (handle sha256 index (i, .store call) s).2 := by
  have outcome := call.outcome sha256 s.system.storeReads s.system.db
  simp only [handle, LedgerSystem.handle]
  simp only [StoreCall.after] at outcome
  generalize call.grant (call.perform sha256 s.system.storeReads s.system.db).1 = lease at outcome ⊢
  generalize (call.perform sha256 s.system.storeReads s.system.db).2 = next at outcome ⊢
  have stays : ∀ other key, (other, key) ∈ s.submissions →
      ∃ row, next.operations.get key = some row ∧ row.Advanced := by
    intro other key member
    obtain ⟨row, located, advanced⟩ := sound.advanced other key member
    obtain ⟨row', located', change⟩ := outcome.row_change located
    exact ⟨row', located', change.advanced advanced⟩
  have bound : ∀ id key, s.system.db.keyOf id = some key → next.keyOf id = some key :=
    fun id key => outcome.keyOf_stays
  have final : ∀ key row, s.system.db.operations.get key = some row → row.status = .committed →
      next.operations.get key = some row := by
    intro key row located committed
    obtain ⟨row', located', change⟩ := outcome.row_change located
    rw [located', change.committed_final committed]
  cases lease with
  | none => exact ⟨⟨sound.distinct, stays⟩, ⟨fun _ => id, bound, final⟩⟩
  | some lease =>
      cases submits : call.submits s.system.db with
      | none =>
          simp only [logged, submits]
          exact ⟨⟨sound.distinct, stays⟩, ⟨fun _ => id, bound, final⟩⟩
      | some key =>
          obtain ⟨⟨old, before, fresh⟩, new⟩ := outcome.submits_once submits
          simp only [logged, submits]
          refine ⟨⟨?_, ?_⟩, ⟨List.subset_cons_self _ _, bound, final⟩⟩
          · -- The key is not in the log yet: what is logged has advanced.
            simp only [List.map_cons, List.nodup_cons, List.mem_map, Prod.exists, not_exists]
            refine ⟨?_, sound.distinct⟩
            rintro other logged ⟨member, rfl⟩
            obtain ⟨row, located, advanced⟩ := sound.advanced other _ member
            obtain rfl := Option.some.inj (before.symm.trans located)
            exact fresh advanced
          · intro other logged member
            rcases List.mem_cons.mp member with same | older
            · obtain ⟨rfl, rfl⟩ := Prod.mk.inj same
              exact new
            · exact stays other logged older

/-- The step lemma for any operation. -/
theorem Sound.keeps (index : Nat) (op : (ledgerSignature Json Payload).Op)
    (s : Audited Json Payload) (sound : s.Sound) :
    (handle sha256 index op s).2.Sound ∧ Grows s (handle sha256 index op s).2 := by
  obtain ⟨i, op⟩ := op
  cases op with
  | store call => exact sound.store index i call
  | register | mark | getRecord | putRecord | hydrate | config | getLease | setLease | popLease =>
      exact Grows.of_same sound rfl rfl

/-- What a call that returned has established. -/
def Established (index : Nat) (label : Nat × DurableCall Json) (answer : DurableAnswer Json)
    (s : Audited Json Payload) : Prop :=
  match label.2, answer with
  | .markSubmitted id, .none =>
      ∃ key, s.system.db.keyOf id = some key ∧ (index, key) ∈ s.submissions
  | .markCommitted id receipt, .none =>
      ∃ key row, s.system.db.keyOf id = some key ∧ s.system.db.operations.get key = some row ∧
        row.status = .committed ∧ row.executionReceiptJson = some (.encode receipt)
  | _, _ => True

theorem Established.stable {index : Nat} {label : Nat × DurableCall Json}
    {answer : DurableAnswer Json} {s t : Audited Json Payload} (grows : Grows s t)
    (established : Established index label answer s) : Established index label answer t := by
  obtain ⟨i, call⟩ := label
  cases call with
  | markSubmitted id =>
      cases answer with
      | none =>
          obtain ⟨key, bound, member⟩ := established
          exact ⟨key, grows.bound _ key bound, grows.log member⟩
      | _ => trivial
  | markCommitted id receipt =>
      cases answer with
      | none =>
          obtain ⟨key, row, bound, located, committed, recorded⟩ := established
          exact ⟨key, row, grows.bound _ key bound, grows.final key row located committed,
            committed, recorded⟩
      | _ => trivial
  | _ => trivial

variable (sha256) in
theorem submitted_logged (index i : Nat) (id owner : String) (ttl : Seconds) (lease : Lease)
    (t : Audited Json Payload)
    (answered : (handle sha256 index (i, .store (.markOperationSubmitted id owner ttl)) t).1 =
      .ok lease) :
    Established index (i, .markSubmitted id) .none
      (handle sha256 index (i, .store (.markOperationSubmitted id owner ttl)) t).2 := by
  simp only [handle, LedgerSystem.handle, StoreCall.perform, StoreCall.rollback] at answered
  cases done : t.system.db.markOperationSubmitted t.system.storeReads.now id owner ttl with
  | error e =>
      rw [done] at answered
      cases answered
  | ok answer =>
      obtain ⟨key, row, leased, bound, _, _, acquired, next⟩ :=
        Database.markOperationSubmitted_ok done
      refine ⟨key, (StoreCall.outcome _ _ _ _).keyOf_stays bound, ?_⟩
      · simp [handle, StoreCall.perform, done, StoreCall.rollback, StoreCall.grant, logged,
          StoreCall.submits, bound, Except.toOption]

variable (sha256) in
theorem committed_recorded (index i : Nat) (id owner : String) (token : Nat) (receipt : Json)
    (stored : StoredOperation Json) (t : Audited Json Payload)
    (answered : (handle sha256 index
      (i, .store (.markOperationCommitted id owner token receipt)) t).1 = .ok stored) :
    Established index (i, .markCommitted id receipt) .none
      (handle sha256 index (i, .store (.markOperationCommitted id owner token receipt)) t).2 := by
  simp only [handle, LedgerSystem.handle, StoreCall.perform, StoreCall.rollback] at answered
  cases done : t.system.db.markOperationCommitted t.system.storeReads.now
      t.system.storeReads.later id owner token receipt with
  | error e =>
      rw [done] at answered
      cases answered
  | ok answer =>
      obtain ⟨key, row, bound, located, _, _, next⟩ := Database.markOperationCommitted_ok done
      refine ⟨key, { row with
        status := .committed
        executionReceiptJson := some (.encode receipt)
        errorMessage := none
        updatedAt := t.system.storeReads.later }, (StoreCall.outcome _ _ _ _).keyOf_stays bound, ?_,
        rfl, rfl⟩
      · simp [handle, LedgerSystem.handle, StoreCall.perform, done, StoreCall.rollback, next,
          Database.deleteLease, Database.updateOperation_get _ located]

theorem submit_safe (index i : Nat) (id : String) (s : Audited Json Payload) :
    Prog.Safe (handle sha256 index) Sound Grows (Established index (i, .markSubmitted id))
      ((DurableCall.markSubmitted id).program sha256 i) s := by
  refine Prog.safe_step (Sound.keeps index) fun configured _ _ => ?_
  refine Prog.safe_step (Sound.keeps index) fun t _ _ => ?_
  have logged := fun lease => submitted_logged sha256 index i id
    (configured.system.instances i).ownerId (configured.system.instances i).leaseTtlSeconds lease t
  generalize handle sha256 index (i, .store (.markOperationSubmitted id
    (configured.system.instances i).ownerId
    (configured.system.instances i).leaseTtlSeconds)) t = answer at logged
  obtain ⟨result, u⟩ := answer
  cases result with
  | error e => exact trivial
  | ok lease =>
      refine Prog.safe_step (Sound.keeps index) fun v first caching => ?_
      refine Prog.safe_step (Sound.keeps index) fun w second marking => ?_
      exact (logged lease rfl).stable (first.trans ((caching.keeps index _).2.trans
        (second.trans (marking.keeps index _).2)))

theorem commit_safe (index i : Nat) (id : String) (receipt : Json) (s : Audited Json Payload) :
    Prog.Safe (handle sha256 index) Sound Grows (Established index (i, .markCommitted id receipt))
      ((DurableCall.markCommitted id receipt).program sha256 i) s := by
  refine Prog.safe_step (Sound.keeps index) fun looked _ _ => ?_
  generalize handle sha256 index (i, .getLease id) looked = cached
  obtain ⟨lease, held⟩ := cached
  cases lease with
  | none => exact trivial
  | some lease =>
      refine Prog.safe_step (Sound.keeps index) fun configured _ _ => ?_
      refine Prog.safe_step (Sound.keeps index) fun t _ _ => ?_
      have recorded := fun stored => committed_recorded sha256 index i id
        (configured.system.instances i).ownerId lease.fencingToken receipt stored t
      generalize handle sha256 index (i, .store (.markOperationCommitted id
        (configured.system.instances i).ownerId lease.fencingToken receipt)) t = answer at recorded
      obtain ⟨result, u⟩ := answer
      cases result with
      | error e => exact trivial
      | ok stored =>
          refine Prog.safe_step (Sound.keeps index) fun v first popping => ?_
          refine Prog.safe_step (Sound.keeps index) fun w second marking => ?_
          exact (recorded stored rfl).stable (first.trans ((popping.keeps index _).2.trans
            (second.trans (marking.keeps index _).2)))

theorem call_safe (index : Nat) (label : Nat × DurableCall Json) (s : Audited Json Payload) :
    Prog.Safe (handle sha256 index) Sound Grows (Established index label)
      (label.2.program sha256 label.1) s := by
  obtain ⟨i, call⟩ := label
  cases call with
  | markSubmitted id => exact submit_safe index i id s
  | markCommitted id receipt => exact commit_safe index i id receipt s
  | _ => exact Prog.safe_always (Sound.keeps index) (fun _ _ => trivial) _ s

theorem rule : Pool.Rule
    (m := (ledgerMachine sha256 : Machine (ledgerSignature Json Payload) _ _ _ _)) Sound Grows
    Established where
  refl := Grows.refl
  trans := Grows.trans
  postStable := fun _ _ _ _ _ grows established => established.stable grows
  outside := by
    intro event s sound
    cases event with
    | clock reads => exact Grows.of_same sound rfl rfl
    | restart i ownerId ttl => exact Grows.of_same sound rfl rfl
  starts := fun pool label _ _ => call_safe pool.threads.length label pool.state

end Audited

/-- The call at this position of the pool has returned without raising. -/
def Returned (pool : Pool (ledgerSignature Json Payload) (Audited Json Payload)
    (Nat × DurableCall Json) (DurableAnswer Json)) (position : Nat) (call : DurableCall Json) :
    Prop :=
  ∃ thread, pool.threads[position]? = some thread ∧ thread.label.2 = call ∧
    thread.result = some .none

theorem Returned.established {sha256 : String → String}
    {pool : Pool (ledgerSignature Json Payload) (Audited Json Payload)
      (Nat × DurableCall Json) (DurableAnswer Json)} {position : Nat} {call : DurableCall Json}
    (safe : Pool.Safe (m := ledgerMachine sha256) Audited.Sound Audited.Grows
      Audited.Established pool)
    (returned : Returned pool position call) :
    ∃ i, Audited.Established position (i, call) .none pool.state := by
  obtain ⟨thread, located, rfl, result⟩ := returned
  exact ⟨thread.label.1, safe.result located result⟩

/-- A check that finds the committed row answers with its receipt. -/
theorem checkIdempotency_committed {sha256 : String → String} {s : Audited Json Payload}
    {op tool : String} {arguments receipt : Json} {row : OperationRow Json} (index i : Nat)
    (located : s.system.db.operations.get
      (operationKey sha256 op tool (computeArgumentsHash sha256 arguments)) = some row)
    (committed : row.status = .committed)
    (recorded : row.executionReceiptJson = some (.encode receipt)) :
    (((DurableCall.checkIdempotency op tool arguments).program sha256 i).exec
      (Audited.handle sha256 index) s).1 = .receipt true (some receipt) := by
  have answer : s.system.db.operationForKey sha256 op tool (computeArgumentsHash sha256 arguments) =
      some (operationFromRow (operationKey sha256 op tool
        (computeArgumentsHash sha256 arguments)) row) := by
    simp only [Database.operationForKey, located, Option.map_some]
  simp only [DurableCall.program, SqliteLedger.checkIdempotency, Prog.exec_bind,
    SqliteLedger.exec_ask, Audited.handle, LedgerSystem.handle, StoreCall.perform, answer]
  simp [operationFromRow, committed, recorded]

/-- From any system on and under any interleaving: two submissions that
    returned, of call ids bound to one operation, are one and the same call; and
    once a commit has returned, the operation stays committed with that receipt
    and every check of its triple, on any instance, answers with it. -/
theorem submitted_once_receipt_final (sha256 : String → String)
    (system : LedgerSystem Json Payload)
    (moves : List (Move (Nat × DurableCall Json) LedgerWorld)) :
    let pool := (Pool.mk ⟨system, []⟩ []).run (ledgerMachine sha256) moves
    (∀ first second id id' op tool hash,
      Returned pool first (.markSubmitted id) → Returned pool second (.markSubmitted id') →
      pool.state.system.db.keyOf id = some (operationKey sha256 op tool hash) →
      pool.state.system.db.keyOf id' = some (operationKey sha256 op tool hash) →
      first = second) ∧
    ∀ position id receipt, Returned pool position (.markCommitted id receipt) →
      ∃ key, pool.state.system.db.keyOf id = some key ∧ ∀ later,
        let after := pool.run (ledgerMachine sha256) later
        (∃ row, after.state.system.db.operations.get key = some row ∧
          row.status = .committed ∧ row.executionReceiptJson = some (.encode receipt)) ∧
        ∀ index i op tool arguments,
          operationKey sha256 op tool (computeArgumentsHash sha256 arguments) = key →
          (((DurableCall.checkIdempotency op tool arguments).program sha256 i).exec
            (Audited.handle sha256 index) after.state).1 = .receipt true (some receipt) := by
  intro pool
  have start : Pool.Safe
      (m := (ledgerMachine sha256 : Machine (ledgerSignature Json Payload) _ _ _ _))
      Audited.Sound Audited.Grows Audited.Established (Pool.mk ⟨system, []⟩ []) :=
    ⟨⟨List.nodup_nil, by simp⟩, by simp⟩
  have safe := (start.run Audited.rule moves).1
  refine ⟨?_, ?_⟩
  · intro first second id id' op tool hash submitted again bound bound'
    obtain ⟨_, key, named, logged⟩ := submitted.established safe
    obtain ⟨_, key', named', logged'⟩ := again.established safe
    obtain rfl := Option.some.inj (named.symm.trans bound)
    obtain rfl := Option.some.inj (named'.symm.trans bound')
    have same := List.inj_on_of_nodup_map safe.invariant.distinct logged logged' rfl
    exact congrArg Prod.fst same
  · intro position id receipt returned
    obtain ⟨i, established⟩ := returned.established safe
    obtain ⟨key, row, bound, located, committed, recorded⟩ := established
    refine ⟨key, bound, ?_⟩
    intro later after
    have grows : Audited.Grows pool.state after.state := (safe.run Audited.rule later).2
    have stays := grows.final key row located committed
    refine ⟨⟨row, stays, committed, recorded⟩, ?_⟩
    rintro index i op tool arguments rfl
    exact checkIdempotency_committed index i stays committed recorded

end DuraLLM
