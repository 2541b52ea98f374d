import DuraLLM.Storage.Sqlite

/-! # The transactions of the store

Every public method of the store as one operation with an answer, and what it
can do to the tables.  `RowChange` is the whole lifecycle of an operation row
and `LeaseChange` that of a lease row; every later argument about the store
goes through one of the two.
-/

namespace DuraLLM

inductive StoreCall (Json Payload : Type) where
  | loadSession (sessionId : String)
  | createSession (sessionId protocolVersion : String) (payload : Payload)
  | saveSession (sessionId protocolVersion : String) (payload : Payload) (expectedRevision : Nat)
  | acquireLease (resource ownerId : String) (ttlSeconds : Seconds)
  | releaseLease (resource ownerId : String) (fencingToken : Nat)
  | operationForCall (toolCallId : String)
  | operationForKey (logicalOperationId toolName argumentsHash : String)
  | prepareOperation (toolCallId logicalOperationId toolName argumentsHash : String)
      (arguments : Json)
  | markOperationValidated (toolCallId : String)
  | markOperationSubmitted (toolCallId ownerId : String) (leaseTtlSeconds : Seconds)
  | markOperationCommitted (toolCallId ownerId : String) (fencingToken : Nat) (receipt : Json)
  | markOperationIndeterminate (toolCallId reason : String)
  | markOperationFailed (toolCallId reason : String)
  | recoverInflightOperations (reason : String)

/-- The clock readings of one transaction. -/
structure StoreReads where
  now : Seconds
  later : Seconds

namespace StoreCall

variable {Json Payload : Type}

def Answer : StoreCall Json Payload → Type
  | .loadSession .. | .createSession .. | .saveSession .. => Option (StoredSession Payload)
  | .acquireLease .. => Option Lease
  | .releaseLease .. => Bool
  | .operationForCall .. | .operationForKey .. => Option (StoredOperation Json)
  | .prepareOperation .. | .markOperationValidated .. | .markOperationCommitted ..
  | .markOperationIndeterminate .. | .markOperationFailed .. =>
      Except StoreError (StoredOperation Json)
  | .markOperationSubmitted .. => Except StoreError Lease
  | .recoverInflightOperations .. => Nat

/-- A transaction that raises leaves the database as it was. -/
def rollback [JsonCodec Json] {α : Type} (db : Database Json Payload) :
    Except StoreError (α × Database Json Payload) → Except StoreError α × Database Json Payload
  | .ok (a, next) => (.ok a, next)
  | .error e => (.error e, db)

variable [JsonCodec Json] (sha256 : String → String)

def perform (reads : StoreReads) (db : Database Json Payload) :
    (call : StoreCall Json Payload) → call.Answer × Database Json Payload
  | .loadSession id => (db.loadSession id, db)
  | .createSession id version payload => db.createSession reads.now id version payload
  | .saveSession id version payload revision =>
      db.saveSession reads.now id version payload revision
  | .acquireLease resource owner ttl => db.acquireLease reads.now resource owner ttl
  | .releaseLease resource owner token => db.releaseLease resource owner token
  | .operationForCall id => (db.operationForCall id, db)
  | .operationForKey op tool hash => (db.operationForKey sha256 op tool hash, db)
  | .prepareOperation id op tool hash arguments =>
      rollback db (db.prepareOperation sha256 reads.now id op tool hash arguments)
  | .markOperationValidated id => rollback db (db.markOperationValidated reads.now id)
  | .markOperationSubmitted id owner ttl =>
      rollback db (db.markOperationSubmitted reads.now id owner ttl)
  | .markOperationCommitted id owner token receipt =>
      rollback db (db.markOperationCommitted reads.now reads.later id owner token receipt)
  | .markOperationIndeterminate id reason =>
      rollback db (db.markOperationIndeterminate reads.now id reason)
  | .markOperationFailed id reason => rollback db (db.markOperationFailed reads.now id reason)
  | .recoverInflightOperations reason => db.recoverInflightOperations reads.now reason

/-- The lease an answer hands to the caller. -/
def grant (call : StoreCall Json Payload) : call.Answer → Option Lease :=
  match call with
  | .acquireLease .. => id
  | .markOperationSubmitted .. => Except.toOption
  | .loadSession .. | .createSession .. | .saveSession .. | .releaseLease ..
  | .operationForCall .. | .operationForKey .. | .prepareOperation ..
  | .markOperationValidated .. | .markOperationCommitted .. | .markOperationIndeterminate ..
  | .markOperationFailed .. | .recoverInflightOperations .. => fun _ => none

/-- The database after a call. -/
def after (reads : StoreReads) (db : Database Json Payload) (call : StoreCall Json Payload) :
    Database Json Payload :=
  (call.perform sha256 reads db).2

end StoreCall

namespace Database

variable {Json Payload : Type} [JsonCodec Json] {db next : Database Json Payload}

/-- The compare-and-swap of a session, where the row is still the expected one. -/
theorem saveSession_fits {now : Seconds} {id version : String} {payload : Payload} {revision : Nat}
    {row : SessionRow Payload} (located : db.sessions.get id = some row)
    (fits : row.revision = revision) :
    db.saveSession now id version payload revision =
      (some { row.saved version payload now with sessionId := id },
        { db with sessions := db.sessions.set id (row.saved version payload now) }) := by
  simp only [saveSession, located, fits, if_true]

theorem saveSession_stale {now : Seconds} {id version : String} {payload : Payload} {revision : Nat}
    (stale : ∀ row, db.sessions.get id = some row → row.revision ≠ revision) :
    db.saveSession now id version payload revision = (none, db) := by
  simp only [saveSession]
  split
  · rfl
  · next row located => rw [if_neg (stale row located)]

theorem operationForCall_some {id : String} {op : StoredOperation Json}
    (found : db.operationForCall id = some op) :
    ∃ key row, db.keyOf id = some key ∧ db.operations.get key = some row ∧
      op = operationFromRow key row := by
  simp only [operationForCall, Option.bind_eq_bind, Option.bind_eq_some_iff, Option.pure_def,
    Option.some.injEq] at found
  obtain ⟨key, bound, row, located, same⟩ := found
  exact ⟨key, row, bound, located, same.symm⟩

theorem operationForCall_of_row {id key : String} {row : OperationRow Json}
    (bound : db.keyOf id = some key) (located : db.operations.get key = some row) :
    db.operationForCall id = some (operationFromRow key row) := by
  simp [operationForCall, bound, located]

@[simp] theorem updateOperation_leases (key : String) (f : OperationRow Json → OperationRow Json) :
    (db.updateOperation key f).leases = db.leases := rfl

theorem updateOperation_get {key : String} {row : OperationRow Json}
    (f : OperationRow Json → OperationRow Json) (located : db.operations.get key = some row)
    (other : String) :
    (db.updateOperation key f).operations.get other =
      if other = key then some (f row) else db.operations.get other := by
  simp only [updateOperation, Dict.get_modify, located, Option.map_some]

/-! ## What each method returns -/

theorem acquireLeaseLocked_some {resource owner : String} {ttl now : Seconds} {lease : Lease}
    (granted : db.acquireLeaseLocked resource owner ttl now = some (lease, next)) :
    ∃ token, grantedToken (db.leases.get resource) owner now = some token ∧
      lease = .granted resource owner token ttl now ∧
      next = { db with leases := db.leases.set resource (.granted owner token ttl now) } := by
  simp only [acquireLeaseLocked, Option.map_eq_some_iff, Prod.mk.injEq] at granted
  obtain ⟨token, rule, made, stored⟩ := granted
  exact ⟨token, rule, made.symm, stored.symm⟩

theorem assertLeaseLocked_ok {resource owner : String} {token : Nat} {now : Seconds}
    (live : db.assertLeaseLocked resource owner token now = .ok ()) :
    ∃ row, db.leases.get resource = some row ∧ row.ownerId = owner ∧ row.fencingToken = token ∧
      now < row.expiresAt := by
  unfold assertLeaseLocked at live
  split at live
  · cases live
  · next row found =>
    split at live
    · cases live
    · next fine =>
      simp only [ne_eq, Prod.mk.injEq, not_or, not_not, not_le] at fine
      exact ⟨row, found, fine.1.1, fine.1.2, fine.2⟩

theorem prepareOperation_ok {sha256 : String → String} {now : Seconds}
    {id op tool hash : String} {arguments : Json} {stored : StoredOperation Json}
    (done : db.prepareOperation sha256 now id op tool hash arguments = .ok (stored, next)) :
    ∃ (row : OperationRow Json) (call : CallRow), row.status = .proposed ∧
      row.executionReceiptJson = none ∧ row.argumentsHash = hash ∧
      call.operationKey = operationKey sha256 op tool hash ∧
      (db.keyOf id = none ∨ db.keyOf id = some call.operationKey) ∧
      next = { db with
        operations := db.operations.insertNew call.operationKey row
        operationCalls := db.operationCalls.insertNew id call } := by
  simp only [prepareOperation] at done
  split at done
  · cases done
  · next free =>
    split at done
    · cases done
    · cases done
      refine ⟨_, ⟨_, now⟩, rfl, rfl, rfl, rfl, ?_, rfl⟩
      cases bound : db.keyOf id with
      | none => exact .inl rfl
      | some key =>
          simp only [bound, Option.any_some, decide_eq_true_eq, ne_eq, not_not] at free
          exact .inr (congrArg some free)

theorem markOperationValidated_ok {now : Seconds} {id : String} {stored : StoredOperation Json}
    (done : db.markOperationValidated now id = .ok (stored, next)) :
    ∃ key row, db.keyOf id = some key ∧ db.operations.get key = some row ∧
      next = if row.status = .proposed then
          db.updateOperation key fun row => { row with status := .validated, updatedAt := now }
        else db := by
  unfold markOperationValidated at done
  split at done
  · cases done
  · next op found =>
    obtain ⟨key, row, bound, located, rfl⟩ := operationForCall_some found
    cases done
    exact ⟨key, row, bound, located, rfl⟩

theorem markOperationSubmitted_ok {now ttl : Seconds} {id owner : String} {lease : Lease}
    (done : db.markOperationSubmitted now id owner ttl = .ok (lease, next)) :
    ∃ key row leased, db.keyOf id = some key ∧ db.operations.get key = some row ∧
      (row.status = .proposed ∨ row.status = .validated) ∧
      db.acquireLeaseLocked (operationResource key) owner ttl now = some (lease, leased) ∧
      next = leased.updateOperation key fun row =>
        { row with status := .submitted, updatedAt := now } := by
  unfold markOperationSubmitted at done
  split at done
  · cases done
  · next op found =>
    obtain ⟨key, row, bound, located, rfl⟩ := operationForCall_some found
    split at done
    · next allowed =>
      split at done
      · cases done
      · next granted leased acquired =>
        cases done
        exact ⟨key, row, leased, bound, located, allowed, acquired, rfl⟩
    · cases done

theorem markOperationCommitted_ok {now later : Seconds} {id owner : String} {token : Nat}
    {receipt : Json} {stored : StoredOperation Json}
    (done : db.markOperationCommitted now later id owner token receipt = .ok (stored, next)) :
    ∃ key row, db.keyOf id = some key ∧ db.operations.get key = some row ∧
      row.status = .submitted ∧
      db.assertLeaseLocked (operationResource key) owner token now = .ok () ∧
      next = (db.updateOperation key fun row =>
        { row with
          status := .committed
          executionReceiptJson := some (.encode receipt)
          errorMessage := none
          updatedAt := later }).deleteLease (operationResource key) owner token := by
  unfold markOperationCommitted at done
  split at done
  · cases done
  · next op found =>
    obtain ⟨key, row, bound, located, rfl⟩ := operationForCall_some found
    simp only at done
    split at done
    · cases done
    · next live =>
      split at done
      · cases done
      · next submitted =>
        cases done
        exact ⟨key, row, bound, located, not_not.mp submitted, live, rfl⟩

theorem markOperationIndeterminate_ok {now : Seconds} {id reason : String}
    {stored : StoredOperation Json}
    (done : db.markOperationIndeterminate now id reason = .ok (stored, next)) :
    ∃ key row, db.keyOf id = some key ∧ db.operations.get key = some row ∧
      next = if row.status ≠ .committed then
          { db.updateOperation key fun row =>
              { row with
                status := .indeterminate, errorMessage := some reason, updatedAt := now } with
            leases := db.leases.erase (operationResource key) }
        else db := by
  unfold markOperationIndeterminate at done
  split at done
  · cases done
  · next op found =>
    obtain ⟨key, row, bound, located, rfl⟩ := operationForCall_some found
    cases done
    exact ⟨key, row, bound, located, rfl⟩

theorem markOperationFailed_ok {now : Seconds} {id reason : String} {stored : StoredOperation Json}
    (done : db.markOperationFailed now id reason = .ok (stored, next)) :
    ∃ key row, db.keyOf id = some key ∧ db.operations.get key = some row ∧
      next = if row.status ≠ .committed ∧ row.status ≠ .submitted then
          db.updateOperation key fun row =>
            { row with status := .failed, errorMessage := some reason, updatedAt := now }
        else db := by
  unfold markOperationFailed at done
  split at done
  · cases done
  · next op found =>
    obtain ⟨key, row, bound, located, rfl⟩ := operationForCall_some found
    cases done
    exact ⟨key, row, bound, located, rfl⟩

end Database

/-! ## What a transaction can do -/

section Outcomes

variable {Json Payload : Type} [JsonCodec Json]

/-- Every way a call can leave the database, with the guard that allows it and
    the lease it hands out. -/
inductive Outcome (reads : StoreReads) (db : Database Json Payload) :
    StoreCall Json Payload → Option Lease → Database Json Payload → Prop where
  | unchanged (call : StoreCall Json Payload) : Outcome reads db call none db
  | sessionCreated {id version : String} {payload : Payload} (fresh : db.sessions.get id = none) :
      Outcome reads db (.createSession id version payload) none
        { db with sessions := db.sessions.set id ⟨version, payload, 1, reads.now, reads.now⟩ }
  | sessionSaved {id version : String} {payload : Payload} {old : SessionRow Payload}
      (found : db.sessions.get id = some old) :
      Outcome reads db (.saveSession id version payload old.revision) none
        { db with sessions := db.sessions.set id (old.saved version payload reads.now) }
  | leaseGranted {resource owner : String} {ttl : Seconds} {token : Nat}
      (rule : grantedToken (db.leases.get resource) owner reads.now = some token) :
      Outcome reads db (.acquireLease resource owner ttl)
        (some (.granted resource owner token ttl reads.now))
        { db with leases := db.leases.set resource (.granted owner token ttl reads.now) }
  | leaseReleased {resource owner : String} {token : Nat} :
      Outcome reads db (.releaseLease resource owner token) none (db.deleteLease resource owner token)
  | prepared {id op tool hash : String} {arguments : Json} (row : OperationRow Json)
      (call : CallRow) (status : row.status = .proposed) (receipt : row.executionReceiptJson = none)
      (free : db.keyOf id = none ∨ db.keyOf id = some call.operationKey) :
      Outcome reads db (.prepareOperation id op tool hash arguments) none
        { db with
          operations := db.operations.insertNew call.operationKey row
          operationCalls := db.operationCalls.insertNew id call }
  | validated {id key : String} {row : OperationRow Json} (bound : db.keyOf id = some key)
      (located : db.operations.get key = some row) (was : row.status = .proposed) :
      Outcome reads db (.markOperationValidated id) none
        (db.updateOperation key fun row =>
          { row with status := .validated, updatedAt := reads.now })
  | submitted {id key owner : String} {ttl : Seconds} {token : Nat} {row : OperationRow Json}
      (bound : db.keyOf id = some key) (located : db.operations.get key = some row)
      (was : row.status = .proposed ∨ row.status = .validated)
      (rule : grantedToken (db.leases.get (operationResource key)) owner reads.now = some token) :
      Outcome reads db (.markOperationSubmitted id owner ttl)
        (some (.granted (operationResource key) owner token ttl reads.now))
        { db.updateOperation key fun row =>
            { row with status := .submitted, updatedAt := reads.now } with
          leases := db.leases.set (operationResource key) (.granted owner token ttl reads.now) }
  | committed {id key owner : String} {token : Nat} {receipt : Json} {row : OperationRow Json}
      (bound : db.keyOf id = some key) (located : db.operations.get key = some row)
      (was : row.status = .submitted)
      (live : db.assertLeaseLocked (operationResource key) owner token reads.now = .ok ()) :
      Outcome reads db (.markOperationCommitted id owner token receipt) none
        ((db.updateOperation key fun row =>
          { row with
            status := .committed
            executionReceiptJson := some (.encode receipt)
            errorMessage := none
            updatedAt := reads.later }).deleteLease (operationResource key) owner token)
  | indeterminate {id key reason : String} {row : OperationRow Json}
      (bound : db.keyOf id = some key) (located : db.operations.get key = some row)
      (was : row.status ≠ .committed) :
      Outcome reads db (.markOperationIndeterminate id reason) none
        { db.updateOperation key fun row =>
            { row with
              status := .indeterminate, errorMessage := some reason, updatedAt := reads.now } with
          leases := db.leases.erase (operationResource key) }
  | failed {id key reason : String} {row : OperationRow Json} (bound : db.keyOf id = some key)
      (located : db.operations.get key = some row)
      (was : row.status ≠ .committed ∧ row.status ≠ .submitted) :
      Outcome reads db (.markOperationFailed id reason) none
        (db.updateOperation key fun row =>
          { row with status := .failed, errorMessage := some reason, updatedAt := reads.now })
  | recovered {reason : String} :
      Outcome reads db (.recoverInflightOperations reason) none
        (db.recoverInflightOperations reads.now reason).2

variable {sha256 : String → String} {reads : StoreReads} {db : Database Json Payload}

variable (sha256 reads db) in
/-- The inversion of the whole store. -/
theorem StoreCall.outcome (call : StoreCall Json Payload) :
    Outcome reads db call (call.grant (call.perform sha256 reads db).1)
      (call.after sha256 reads db) := by
  cases call with
  | loadSession | operationForCall | operationForKey => exact .unchanged _
  | createSession id version payload =>
      simp only [grant, after, perform, Database.createSession]
      cases taken : db.sessions.get id with
      | some row => simpa only [Dict.contains, taken] using .unchanged _
      | none => simpa only [Dict.contains, taken] using .sessionCreated taken
  | saveSession id version payload revision =>
      simp only [grant, after, perform, Database.saveSession]
      cases found : db.sessions.get id with
      | none => exact .unchanged _
      | some old =>
          by_cases current : old.revision = revision
          · subst current
            simpa only [if_true] using .sessionSaved found
          · simpa only [current, if_false] using .unchanged _
  | acquireLease resource owner ttl =>
      simp only [grant, after, perform, Database.acquireLease]
      cases acquired : db.acquireLeaseLocked resource owner ttl reads.now with
      | none => exact .unchanged _
      | some granted =>
          obtain ⟨lease, next⟩ := granted
          obtain ⟨token, rule, rfl, rfl⟩ := Database.acquireLeaseLocked_some acquired
          exact .leaseGranted rule
  | releaseLease resource owner token => exact .leaseReleased
  | prepareOperation id op tool hash arguments =>
      simp only [grant, after, perform]
      cases done : db.prepareOperation sha256 reads.now id op tool hash arguments with
      | error e => exact .unchanged _
      | ok answer =>
          obtain ⟨row, call, status, receipt, _, _, free, next⟩ := Database.prepareOperation_ok done
          simpa only [rollback, next] using .prepared row call status receipt free
  | markOperationValidated id =>
      simp only [grant, after, perform]
      cases done : db.markOperationValidated reads.now id with
      | error e => exact .unchanged _
      | ok answer =>
          obtain ⟨key, row, bound, located, next⟩ := Database.markOperationValidated_ok done
          by_cases was : row.status = .proposed
          · simpa only [rollback, next, was, if_true] using .validated bound located was
          · simpa only [rollback, next, was, if_false] using .unchanged _
  | markOperationSubmitted id owner ttl =>
      simp only [grant, after, perform]
      cases done : db.markOperationSubmitted reads.now id owner ttl with
      | error e => exact .unchanged _
      | ok answer =>
          obtain ⟨lease, final⟩ := answer
          obtain ⟨key, row, leased, bound, located, was, acquired, next⟩ :=
            Database.markOperationSubmitted_ok done
          obtain ⟨token, rule, rfl, rfl⟩ := Database.acquireLeaseLocked_some acquired
          simpa only [rollback, next] using .submitted bound located was rule
  | markOperationCommitted id owner token receipt =>
      simp only [grant, after, perform]
      cases done : db.markOperationCommitted reads.now reads.later id owner token receipt with
      | error e => exact .unchanged _
      | ok answer =>
          obtain ⟨key, row, bound, located, was, live, next⟩ :=
            Database.markOperationCommitted_ok done
          simpa only [rollback, next] using .committed bound located was live
  | markOperationIndeterminate id reason =>
      simp only [grant, after, perform]
      cases done : db.markOperationIndeterminate reads.now id reason with
      | error e => exact .unchanged _
      | ok answer =>
          obtain ⟨key, row, bound, located, next⟩ := Database.markOperationIndeterminate_ok done
          by_cases was : row.status ≠ .committed
          · rw [if_pos was] at next
            simpa only [rollback, next] using .indeterminate bound located was
          · rw [if_neg was] at next
            simpa only [rollback, next] using .unchanged _
  | markOperationFailed id reason =>
      simp only [grant, after, perform]
      cases done : db.markOperationFailed reads.now id reason with
      | error e => exact .unchanged _
      | ok answer =>
          obtain ⟨key, row, bound, located, next⟩ := Database.markOperationFailed_ok done
          by_cases was : row.status ≠ .committed ∧ row.status ≠ .submitted
          · rw [if_pos was] at next
            simpa only [rollback, next] using .failed bound located was
          · rw [if_neg was] at next
            simpa only [rollback, next] using .unchanged _
  | recoverInflightOperations reason => exact .recovered

/-! ## What happens to one operation -/

/-- The changes of an operation row, each with the call that makes it and the
    guard under which it does. -/
inductive RowChange (reads : StoreReads) (db : Database Json Payload) (key : String)
    (row : OperationRow Json) : StoreCall Json Payload → OperationRow Json → Prop where
  | kept (call : StoreCall Json Payload) : RowChange reads db key row call row
  | validated {id : String} (bound : db.keyOf id = some key) (was : row.status = .proposed) :
      RowChange reads db key row (.markOperationValidated id)
        { row with status := .validated, updatedAt := reads.now }
  | submitted {id owner : String} {ttl : Seconds} (bound : db.keyOf id = some key)
      (was : row.status = .proposed ∨ row.status = .validated) :
      RowChange reads db key row (.markOperationSubmitted id owner ttl)
        { row with status := .submitted, updatedAt := reads.now }
  | committed {id owner : String} {token : Nat} {receipt : Json} (bound : db.keyOf id = some key)
      (was : row.status = .submitted) :
      RowChange reads db key row (.markOperationCommitted id owner token receipt)
        { row with
          status := .committed
          executionReceiptJson := some (.encode receipt)
          errorMessage := none
          updatedAt := reads.later }
  | indeterminate {id reason : String} (bound : db.keyOf id = some key)
      (was : row.status ≠ .committed) :
      RowChange reads db key row (.markOperationIndeterminate id reason)
        { row with status := .indeterminate, errorMessage := some reason, updatedAt := reads.now }
  | failed {id reason : String} (bound : db.keyOf id = some key)
      (was : row.status ≠ .committed ∧ row.status ≠ .submitted) :
      RowChange reads db key row (.markOperationFailed id reason)
        { row with status := .failed, errorMessage := some reason, updatedAt := reads.now }
  | recovered {reason : String} (was : row.status = .submitted) :
      RowChange reads db key row (.recoverInflightOperations reason)
        { row with status := .indeterminate, errorMessage := some reason, updatedAt := reads.now }

/-- A change of one row leaves every other row alone. -/
private theorem updated_row {changed key : String} {old row : OperationRow Json}
    {call : StoreCall Json Payload} {f : OperationRow Json → OperationRow Json}
    (found : db.operations.get changed = some old) (located : db.operations.get key = some row)
    (change : RowChange reads db changed old call (f old)) :
    ∃ row', (db.updateOperation changed f).operations.get key = some row' ∧
      RowChange reads db key row call row' := by
  rw [Database.updateOperation_get f found]
  by_cases same : key = changed
  · subst same
    obtain rfl := Option.some.inj (located.symm.trans found)
    exact ⟨f row, by simp, change⟩
  · exact ⟨row, by simp [same, located], .kept call⟩

/-- No transaction deletes an operation, and it changes a row only by
    `RowChange`. -/
theorem Outcome.row_change {call : StoreCall Json Payload} {granted : Option Lease}
    {next : Database Json Payload} (outcome : Outcome reads db call granted next) {key : String} {row : OperationRow Json}
    (located : db.operations.get key = some row) :
    ∃ row', next.operations.get key = some row' ∧ RowChange reads db key row call row' := by
  cases outcome with
  | unchanged | sessionCreated | sessionSaved | leaseGranted | leaseReleased =>
      exact ⟨row, located, .kept _⟩
  | prepared => exact ⟨row, Dict.get_insertNew_of_some located, .kept _⟩
  | validated bound found was => exact updated_row found located (.validated bound was)
  | submitted bound found was rule => exact updated_row found located (.submitted bound was)
  | committed bound found was live => exact updated_row found located (.committed bound was)
  | indeterminate bound found was => exact updated_row found located (.indeterminate bound was)
  | failed bound found was => exact updated_row found located (.failed bound was)
  | recovered =>
      simp only [Database.recoverInflightOperations, Database.dropIndeterminateLeases,
        Dict.get_mapValues, located, Option.map_some]
      split
      · next was => exact ⟨_, rfl, .recovered was⟩
      · exact ⟨row, rfl, .kept _⟩

/-- A call id never changes the operation it is bound to. -/
theorem Outcome.keyOf_stays {call : StoreCall Json Payload} {granted : Option Lease}
    {next : Database Json Payload} (outcome : Outcome reads db call granted next) {id key : String} (bound : db.keyOf id = some key) :
    next.keyOf id = some key := by
  cases outcome with
  | prepared row call status receipt free =>
      simp only [Database.keyOf, Option.map_eq_some_iff] at bound ⊢
      obtain ⟨call, found, same⟩ := bound
      exact ⟨call, Dict.get_insertNew_of_some found, same⟩
  | _ => exact bound

/-! ## What happens to one lease -/

/-- The resource and the owner a call asks a lease for. -/
def StoreCall.leaseRequest (db : Database Json Payload) :
    StoreCall Json Payload → Option (String × String)
  | .acquireLease resource owner _ => some (resource, owner)
  | .markOperationSubmitted id owner _ =>
      match db.operationForCall id with
      | none => none
      | some op =>
          if op.status = .proposed ∨ op.status = .validated then
            some (operationResource op.operationKey, owner)
          else none
  | .loadSession .. | .createSession .. | .saveSession .. | .releaseLease ..
  | .operationForCall .. | .operationForKey .. | .prepareOperation ..
  | .markOperationValidated .. | .markOperationCommitted .. | .markOperationIndeterminate ..
  | .markOperationFailed .. | .recoverInflightOperations .. => none

theorem StoreCall.submission_request {id owner resource holder : String} {ttl : Seconds}
    (request : (StoreCall.markOperationSubmitted id owner ttl).leaseRequest db =
      some (resource, holder)) :
    ∃ key row, db.operations.get key = some row ∧
      (row.status = .proposed ∨ row.status = .validated) ∧ operationResource key = resource := by
  simp only [leaseRequest] at request
  split at request
  · cases request
  · next op found =>
    obtain ⟨key, row, _, located, rfl⟩ := Database.operationForCall_some found
    split at request
    · next was =>
      simp only [Option.some.injEq, Prod.mk.injEq] at request
      exact ⟨key, row, located, was, request.1⟩
    · cases request

/-- The deletions of a lease row, each with the call that makes it. -/
inductive LeaseDrop (db : Database Json Payload) (resource : String) (row : LeaseRow) :
    StoreCall Json Payload → Prop where
  | released : LeaseDrop db resource row (.releaseLease resource row.ownerId row.fencingToken)
  | committed {id key : String} {receipt : Json} (bound : db.keyOf id = some key)
      (same : operationResource key = resource) :
      LeaseDrop db resource row
        (.markOperationCommitted id row.ownerId row.fencingToken receipt)
  | indeterminate {id key reason : String} (bound : db.keyOf id = some key)
      (same : operationResource key = resource) :
      LeaseDrop db resource row (.markOperationIndeterminate id reason)
  | recovered {key reason : String} {operation : OperationRow Json}
      (located : db.operations.get key = some operation)
      (unknown : operation.status = .submitted ∨ operation.status = .indeterminate)
      (same : operationResource key = resource) :
      LeaseDrop db resource row (.recoverInflightOperations reason)

/-- The changes of a lease row, with the lease handed out. -/
inductive LeaseChange (reads : StoreReads) (db : Database Json Payload) (resource : String) :
    StoreCall Json Payload → Option Lease → Option LeaseRow → Prop where
  | kept {call : StoreCall Json Payload} {lease : Option Lease}
      (elsewhere : ∀ granted ∈ lease, granted.resource ≠ resource) :
      LeaseChange reads db resource call lease (db.leases.get resource)
  | granted {call : StoreCall Json Payload} {owner : String} {token : Nat} {ttl : Seconds}
      (request : call.leaseRequest db = some (resource, owner))
      (rule : grantedToken (db.leases.get resource) owner reads.now = some token) :
      LeaseChange reads db resource call (some (.granted resource owner token ttl reads.now))
        (some (.granted owner token ttl reads.now))
  | dropped {call : StoreCall Json Payload} {row : LeaseRow}
      (held : db.leases.get resource = some row) (drop : LeaseDrop db resource row call) :
      LeaseChange reads db resource call none none

/-- Every deletion filters the table; what it filters out has to be a drop. -/
private theorem LeaseChange.filtered {resource : String} {call : StoreCall Json Payload}
    {keep : LeaseRow → Bool}
    (drop : ∀ row, keep row = false → LeaseDrop db resource row call) :
    LeaseChange reads db resource call none ((db.leases.get resource).filter keep) := by
  have same : LeaseChange reads db resource call none (db.leases.get resource) := .kept (by simp)
  cases held : db.leases.get resource with
  | none => simpa only [held, Option.filter_none] using same
  | some row =>
      cases verdict : keep row with
      | true => simpa only [held, Option.filter_some, verdict, if_true] using same
      | false =>
          simpa only [Option.filter_some, verdict] using .dropped held (drop row verdict)

/-- The operations whose leases recovery deletes. -/
private theorem recovered_indeterminate {reason resource : String}
    (hit : ((db.operations.mapValues fun _ row => if row.status = .submitted then
        { row with status := .indeterminate, errorMessage := some reason, updatedAt := reads.now }
        else row).entries.any fun e =>
          e.2.status = .indeterminate ∧ resource = operationResource e.1) = true) :
    ∃ key operation, db.operations.get key = some operation ∧
      (operation.status = .submitted ∨ operation.status = .indeterminate) ∧
      operationResource key = resource := by
  obtain ⟨⟨key, row⟩, member, found⟩ := List.any_eq_true.mp hit
  have located := Dict.mem_entries_iff.mp member
  simp only [decide_eq_true_eq, Dict.get_mapValues, Option.map_eq_some_iff] at found located
  obtain ⟨operation, there, became⟩ := located
  refine ⟨key, operation, there, ?_, found.2.symm⟩
  by_cases submitted : operation.status = .submitted
  · exact .inl submitted
  · rw [if_neg submitted] at became
    exact .inr (became ▸ found.1)

/-- A lease row changes only by `LeaseChange`. -/
theorem Outcome.lease_change {call : StoreCall Json Payload} {granted : Option Lease}
    {next : Database Json Payload} (outcome : Outcome reads db call granted next)
    (resource : String) :
    LeaseChange reads db resource call granted (next.leases.get resource) := by
  cases outcome with
  | unchanged | sessionCreated | sessionSaved | prepared | validated | failed =>
      exact .kept (by simp)
  | leaseGranted rule =>
      rename_i asked owner ttl token
      by_cases same : resource = asked
      · subst same
        rw [Dict.get_set_self]
        exact .granted rfl rule
      · rw [Dict.get_set_ne _ _ same]
        exact .kept (by simpa [Lease.granted] using Ne.symm same)
  | leaseReleased =>
      simp only [Database.deleteLease, Dict.get_filter]
      refine .filtered fun row verdict => ?_
      simp only [decide_eq_false_iff_not, not_not] at verdict
      obtain ⟨rfl, rfl, rfl⟩ := verdict
      exact .released
  | submitted bound located was rule =>
      rename_i id key owner ttl token row
      by_cases same : resource = operationResource key
      · subst same
        rw [Dict.get_set_self]
        refine .granted ?_ rule
        simp [StoreCall.leaseRequest, Database.operationForCall_of_row bound located,
          operationFromRow, was]
      · rw [Dict.get_set_ne _ _ same]
        exact .kept (by simpa [Lease.granted] using Ne.symm same)
  | committed bound located was live =>
      simp only [Database.deleteLease, Dict.get_filter, Database.updateOperation_leases]
      refine .filtered fun row verdict => ?_
      simp only [decide_eq_false_iff_not, not_not] at verdict
      obtain ⟨rfl, rfl, rfl⟩ := verdict
      exact .committed bound rfl
  | indeterminate bound located was =>
      simp only [Dict.erase, Dict.get_filter]
      refine .filtered fun row verdict => ?_
      simp only [ne_eq, decide_eq_false_iff_not, not_not] at verdict
      exact .indeterminate bound verdict.symm
  | recovered =>
      simp only [Database.recoverInflightOperations, Database.dropIndeterminateLeases,
        Dict.get_filter]
      refine .filtered fun row verdict => ?_
      rw [Bool.not_eq_eq_eq_not, Bool.not_false] at verdict
      obtain ⟨key, operation, located, unknown, same⟩ := recovered_indeterminate verdict
      exact .recovered located unknown same

end Outcomes

end DuraLLM
