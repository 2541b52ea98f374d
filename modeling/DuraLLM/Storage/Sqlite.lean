import DuraLLM.Agent.Idempotency
import DuraLLM.Lib.Prog

/-! # The SQLite persistence store

Four tables of the durable database and the methods of `SQLitePersistenceStore`
over them: continuation sessions, tool operations, the provider call ids bound
to an operation, and the fenced leases.  A table is a dictionary from its
primary key to the remaining columns.

A method is one transaction.  It either returns a value with the next database,
or raises, and then the transaction is rolled back.  `time.time()` is a
parameter: `now` for the reading a decision rests on, `later` for a second
reading that only stamps a row.

The triple of an operation determines its key, so the `UNIQUE` constraint on
the triple never fires before the primary key does.
-/

namespace DuraLLM

def ToolExecutionStatus.value : ToolExecutionStatus → String
  | .proposed => "proposed"
  | .validated => "validated"
  | .submitted => "submitted"
  | .committed => "committed"
  | .indeterminate => "indeterminate"
  | .ambiguous => "ambiguous"
  | .failed => "failed"
  | .replayed => "replayed"

/-- `LeaseUnavailableError` is the subclass of `DurableStoreError`. -/
inductive StoreError where
  | durable (message : String)
  | leaseUnavailable (message : String)
  deriving DecidableEq, Repr

structure Lease where
  resource : String
  ownerId : String
  fencingToken : Nat
  expiresAt : Seconds
  deriving DecidableEq

structure LeaseRow where
  ownerId : String
  fencingToken : Nat
  expiresAt : Seconds
  updatedAt : Seconds
  deriving DecidableEq

/-- The row of a lease granted at `now`, and the lease handed to its owner. -/
def LeaseRow.granted (ownerId : String) (fencingToken : Nat) (ttlSeconds now : Seconds) :
    LeaseRow where
  ownerId := ownerId
  fencingToken := fencingToken
  expiresAt := now + max (1 / 1000) ttlSeconds
  updatedAt := now

def Lease.granted (resource ownerId : String) (fencingToken : Nat) (ttlSeconds now : Seconds) :
    Lease where
  resource := resource
  ownerId := ownerId
  fencingToken := fencingToken
  expiresAt := now + max (1 / 1000) ttlSeconds

structure SessionRow (Payload : Type) where
  protocolVersion : String
  payload : Payload
  revision : Nat
  createdAt : Seconds
  updatedAt : Seconds
  deriving DecidableEq

/-- The row as `save_session` updates it. -/
def SessionRow.saved {Payload : Type} (row : SessionRow Payload) (protocolVersion : String)
    (payload : Payload) (now : Seconds) : SessionRow Payload :=
  { row with protocolVersion, payload, revision := row.revision + 1, updatedAt := now }

structure StoredSession (Payload : Type) extends SessionRow Payload where
  sessionId : String
  deriving DecidableEq

structure OperationRow (Json : Type) [JsonCodec Json] where
  logicalOperationId : String
  toolName : String
  argumentsHash : String
  argumentsJson : JsonText Json
  status : ToolExecutionStatus
  executionReceiptJson : Option (JsonText Json)
  errorMessage : Option String
  createdAt : Seconds
  updatedAt : Seconds

structure StoredOperation (Json : Type) where
  operationKey : String
  logicalOperationId : String
  toolName : String
  argumentsHash : String
  arguments : Json
  status : ToolExecutionStatus
  executionReceipt : Option Json
  errorMessage : Option String
  createdAt : Seconds
  updatedAt : Seconds

structure CallRow where
  operationKey : String
  createdAt : Seconds

/-- The payload column is kept decoded: it is a record of fixed shape that
    `json` writes and reads back. -/
structure Database (Json Payload : Type) [JsonCodec Json] where
  sessions : Dict String (SessionRow Payload) := .empty
  operations : Dict String (OperationRow Json) := .empty
  operationCalls : Dict String CallRow := .empty
  leases : Dict String LeaseRow := .empty

def operationKey (sha256 : String → String) (logicalOperationId toolName argumentsHash : String) :
    String :=
  sha256 (logicalOperationId ++ "\x1f" ++ toolName ++ "\x1f" ++ argumentsHash)

def operationResource (operationKey : String) : String := "operation:" ++ operationKey

theorem operationResource_injective {key other : String}
    (same : operationResource key = operationResource other) : key = other := by
  simpa [operationResource] using same

def operationFromRow {Json : Type} [JsonCodec Json] (key : String) (row : OperationRow Json) :
    StoredOperation Json where
  operationKey := key
  logicalOperationId := row.logicalOperationId
  toolName := row.toolName
  argumentsHash := row.argumentsHash
  arguments := row.argumentsJson.decode
  status := row.status
  executionReceipt := row.executionReceiptJson.map (·.decode)
  errorMessage := row.errorMessage
  createdAt := row.createdAt
  updatedAt := row.updatedAt

def operationRequiresManualResolution {Json : Type} (operation : StoredOperation Json) : Bool :=
  operation.status.isUnknownOutcome

def unknownToolCall (toolCallId : String) : StoreError :=
  .durable ("Unknown tool call: " ++ toolCallId)

/-- The token of the lease that `_acquire_lease_locked` grants, if it grants one:
    a free resource starts at 1, its owner renews under the same token, and
    another owner takes an expired lease over under the next. -/
def grantedToken (held : Option LeaseRow) (ownerId : String) (now : Seconds) : Option Nat :=
  match held with
  | none => some 1
  | some row =>
      if row.ownerId = ownerId then some row.fencingToken
      else if row.expiresAt ≤ now then some (row.fencingToken + 1)
      else none

namespace Database

variable {Json Payload : Type} [JsonCodec Json]

/-! ## Sessions -/

def loadSession (db : Database Json Payload) (sessionId : String) :
    Option (StoredSession Payload) :=
  (db.sessions.get sessionId).map fun row => { row with sessionId }

/-- `none` when the session id is already taken. -/
def createSession (db : Database Json Payload) (now : Seconds)
    (sessionId protocolVersion : String) (payload : Payload) :
    Option (StoredSession Payload) × Database Json Payload :=
  if db.sessions.contains sessionId then (none, db)
  else
    let row : SessionRow Payload :=
      { protocolVersion, payload, revision := 1, createdAt := now, updatedAt := now }
    (some { row with sessionId }, { db with sessions := db.sessions.set sessionId row })

/-- Compare-and-swap on the revision. -/
def saveSession (db : Database Json Payload) (now : Seconds)
    (sessionId protocolVersion : String) (payload : Payload) (expectedRevision : Nat) :
    Option (StoredSession Payload) × Database Json Payload :=
  match db.sessions.get sessionId with
  | none => (none, db)
  | some row =>
      if row.revision = expectedRevision then
        let saved := row.saved protocolVersion payload now
        (some { saved with sessionId }, { db with sessions := db.sessions.set sessionId saved })
      else (none, db)

/-! ## Leases -/

def acquireLeaseLocked (db : Database Json Payload) (resource ownerId : String)
    (ttlSeconds now : Seconds) : Option (Lease × Database Json Payload) :=
  (grantedToken (db.leases.get resource) ownerId now).map fun fencingToken =>
    (.granted resource ownerId fencingToken ttlSeconds now,
      { db with
        leases := db.leases.set resource (.granted ownerId fencingToken ttlSeconds now) })

def acquireLease (db : Database Json Payload) (now : Seconds) (resource ownerId : String)
    (ttlSeconds : Seconds) : Option Lease × Database Json Payload :=
  match db.acquireLeaseLocked resource ownerId ttlSeconds now with
  | none => (none, db)
  | some (lease, leased) => (some lease, leased)

/-- `DELETE … WHERE resource = ? AND owner_id = ? AND fencing_token = ?`. -/
def deleteLease (db : Database Json Payload) (resource ownerId : String) (fencingToken : Nat) :
    Database Json Payload :=
  { db with leases := db.leases.filter fun key row =>
      ¬(key = resource ∧ row.ownerId = ownerId ∧ row.fencingToken = fencingToken) }

def holdsLease (db : Database Json Payload) (resource ownerId : String) (fencingToken : Nat) :
    Bool :=
  (db.leases.get resource).any fun row =>
    row.ownerId = ownerId ∧ row.fencingToken = fencingToken

def releaseLease (db : Database Json Payload) (resource ownerId : String) (fencingToken : Nat) :
    Bool × Database Json Payload :=
  (db.holdsLease resource ownerId fencingToken, db.deleteLease resource ownerId fencingToken)

def assertLeaseLocked (db : Database Json Payload) (resource ownerId : String)
    (fencingToken : Nat) (now : Seconds) : Except StoreError Unit :=
  match db.leases.get resource with
  | none => .error (.leaseUnavailable ("No live lease for " ++ resource))
  | some row =>
      if (row.ownerId, row.fencingToken) ≠ (ownerId, fencingToken) ∨ row.expiresAt ≤ now then
        .error (.leaseUnavailable ("No live lease for " ++ resource))
      else .ok ()

/-! ## Operations -/

/-- The operation a provider call id is bound to. -/
def keyOf (db : Database Json Payload) (toolCallId : String) : Option String :=
  (db.operationCalls.get toolCallId).map (·.operationKey)

def operationForCall (db : Database Json Payload) (toolCallId : String) :
    Option (StoredOperation Json) := do
  let key ← db.keyOf toolCallId
  let row ← db.operations.get key
  return operationFromRow key row

def operationForKey (sha256 : String → String) (db : Database Json Payload)
    (logicalOperationId toolName argumentsHash : String) : Option (StoredOperation Json) :=
  let key := operationKey sha256 logicalOperationId toolName argumentsHash
  (db.operations.get key).map (operationFromRow key)

def updateOperation (db : Database Json Payload) (key : String)
    (f : OperationRow Json → OperationRow Json) : Database Json Payload :=
  { db with operations := db.operations.modify key f }

/-- The `SELECT` that ends the marking transactions. -/
def storedOperation (db : Database Json Payload) (op : StoredOperation Json) :
    StoredOperation Json :=
  ((db.operations.get op.operationKey).map (operationFromRow op.operationKey)).getD op

def prepareOperation (sha256 : String → String) (db : Database Json Payload) (now : Seconds)
    (toolCallId logicalOperationId toolName argumentsHash : String) (arguments : Json) :
    Except StoreError (StoredOperation Json × Database Json Payload) :=
  let key := operationKey sha256 logicalOperationId toolName argumentsHash
  let proposed : OperationRow Json :=
    { logicalOperationId, toolName, argumentsHash
      argumentsJson := .encode arguments
      status := .proposed
      executionReceiptJson := none
      errorMessage := none
      createdAt := now
      updatedAt := now }
  let operations := db.operations.insertNew key proposed
  if (db.keyOf toolCallId).any (· ≠ key) then
    .error (.durable ("Tool call id is already bound to another operation: " ++ toolCallId))
  else
    match operations.get key with
    | none => .error (.durable "Operation intent was not persisted")
    | some row =>
        let call : CallRow := { operationKey := key, createdAt := now }
        .ok (operationFromRow key row,
          { db with operations, operationCalls := db.operationCalls.insertNew toolCallId call })

def markOperationValidated (db : Database Json Payload) (now : Seconds) (toolCallId : String) :
    Except StoreError (StoredOperation Json × Database Json Payload) :=
  match db.operationForCall toolCallId with
  | none => .error (unknownToolCall toolCallId)
  | some op =>
      let marked := if op.status = .proposed then
          db.updateOperation op.operationKey fun row =>
            { row with status := .validated, updatedAt := now }
        else db
      .ok (marked.storedOperation op, marked)

def markOperationSubmitted (db : Database Json Payload) (now : Seconds)
    (toolCallId ownerId : String) (leaseTtlSeconds : Seconds) :
    Except StoreError (Lease × Database Json Payload) :=
  match db.operationForCall toolCallId with
  | none => .error (unknownToolCall toolCallId)
  | some op =>
      if op.status = .proposed ∨ op.status = .validated then
        match db.acquireLeaseLocked (operationResource op.operationKey) ownerId
            leaseTtlSeconds now with
        | none => .error (.leaseUnavailable
            ("Operation is owned by another live worker: " ++ op.operationKey))
        | some (lease, leased) =>
            .ok (lease, leased.updateOperation op.operationKey fun row =>
              { row with status := .submitted, updatedAt := now })
      else .error (.durable ("Operation cannot be submitted from state " ++ op.status.value))

def markOperationCommitted (db : Database Json Payload) (now later : Seconds)
    (toolCallId ownerId : String) (fencingToken : Nat) (receipt : Json) :
    Except StoreError (StoredOperation Json × Database Json Payload) :=
  match db.operationForCall toolCallId with
  | none => .error (unknownToolCall toolCallId)
  | some op =>
      let resource := operationResource op.operationKey
      match db.assertLeaseLocked resource ownerId fencingToken now with
      | .error e => .error e
      | .ok () =>
          if op.status ≠ .submitted then
            .error (.durable ("Operation cannot commit from state " ++ op.status.value))
          else
            let marked := (db.updateOperation op.operationKey fun row =>
              { row with
                status := .committed
                executionReceiptJson := some (.encode receipt)
                errorMessage := none
                updatedAt := later }).deleteLease resource ownerId fencingToken
            .ok (marked.storedOperation op, marked)

def markOperationIndeterminate (db : Database Json Payload) (now : Seconds)
    (toolCallId reason : String) :
    Except StoreError (StoredOperation Json × Database Json Payload) :=
  match db.operationForCall toolCallId with
  | none => .error (unknownToolCall toolCallId)
  | some op =>
      let marked := if op.status ≠ .committed then
          { db.updateOperation op.operationKey fun row =>
              { row with
                status := .indeterminate, errorMessage := some reason, updatedAt := now } with
            leases := db.leases.erase (operationResource op.operationKey) }
        else db
      .ok (marked.storedOperation op, marked)

def markOperationFailed (db : Database Json Payload) (now : Seconds)
    (toolCallId reason : String) :
    Except StoreError (StoredOperation Json × Database Json Payload) :=
  match db.operationForCall toolCallId with
  | none => .error (unknownToolCall toolCallId)
  | some op =>
      let marked := if op.status ≠ .committed ∧ op.status ≠ .submitted then
          db.updateOperation op.operationKey fun row =>
            { row with status := .failed, errorMessage := some reason, updatedAt := now }
        else db
      .ok (marked.storedOperation op, marked)

/-- `DELETE FROM durable_leases WHERE resource IN (…)`: the leases of every
    operation that is indeterminate by now. -/
def dropIndeterminateLeases (db : Database Json Payload) : Database Json Payload :=
  { db with leases := db.leases.filter fun resource _ =>
      !(db.operations.entries.any fun e =>
        e.2.status = .indeterminate ∧ resource = operationResource e.1) }

def recoverInflightOperations (db : Database Json Payload) (now : Seconds)
    (reason : String := "Gateway restarted before tool acknowledgement") :
    Nat × Database Json Payload :=
  let recovered : Database Json Payload := { db with
    operations := db.operations.mapValues fun _ row =>
      if row.status = .submitted then
        { row with status := .indeterminate, errorMessage := some reason, updatedAt := now }
      else row }
  ((db.operations.values.filter (·.status = .submitted)).length,
    recovered.dropIndeterminateLeases)

end Database

end DuraLLM
