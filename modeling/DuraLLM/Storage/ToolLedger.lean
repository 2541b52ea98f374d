import DuraLLM.Storage.Transactions
import Mathlib.Logic.Function.Basic

/-! # The durable tool ledger

`SQLiteToolExecutionLedger` extends the in-process ledger: each lifecycle call
is a store transaction followed by updates of the instance's own memory, the
cached lease and the record of the base class.  A method is a program over
those operations, so that calls of several instances can be interleaved
between any two of them.

An operation carries the number of the instance it belongs to.  All instances
share one database.
-/

namespace DuraLLM

/-- A ledger instance: its configuration and what it keeps in memory. -/
structure SqliteLedger (Json : Type) where
  ownerId : String
  leaseTtlSeconds : Seconds := 30
  base : ToolExecutionLedger Json := { maxRecords := 100000, ttlSeconds := none }
  leases : Dict String Lease := .empty

inductive LedgerOp (Json Payload : Type) where
  | store (call : StoreCall Json Payload)
  /-- `super().register_tool_call` -/
  | register (toolCallId logicalOperationId toolName : String) (arguments : Json)
  /-- `super().mark_…` -/
  | mark (call : LedgerCall Json)
  /-- `super().get_record` -/
  | getRecord (toolCallId : String)
  | putRecord (record : ToolExecutionRecord Json)
  | hydrate (toolCallId : String) (operation : StoredOperation Json)
  | config
  | getLease (toolCallId : String)
  | setLease (toolCallId : String) (lease : Lease)
  | popLease (toolCallId : String)

def LedgerOp.Answer {Json Payload : Type} : LedgerOp Json Payload → Type
  | .store call => call.Answer
  | .register .. => ToolExecutionRecord Json
  | .getRecord .. => Option (ToolExecutionRecord Json)
  | .config => String × Seconds
  | .getLease .. => Option Lease
  | .mark .. | .putRecord .. | .hydrate .. | .setLease .. | .popLease .. => Unit

abbrev ledgerSignature (Json Payload : Type) : Signature where
  Op := Nat × LedgerOp Json Payload
  Ans op := op.2.Answer

inductive LedgerError where
  | store (error : StoreError)
  | runtime (message : String)
  deriving DecidableEq, Repr

/-- `_hydrate`: the stored operation overrides what the record remembers. -/
def ToolExecutionRecord.hydrate {Json : Type} (record : ToolExecutionRecord Json)
    (operation : StoredOperation Json) : ToolExecutionRecord Json :=
  { record with
    status := operation.status
    executionReceipt := operation.executionReceipt
    errorMessage := operation.errorMessage
    updatedAt := operation.updatedAt }

def ToolExecutionRecord.ofOperation {Json : Type} (toolCallId : String)
    (operation : StoredOperation Json) : ToolExecutionRecord Json where
  toolCallId := toolCallId
  logicalOperationId := operation.logicalOperationId
  toolName := operation.toolName
  argumentsHash := operation.argumentsHash
  arguments := operation.arguments
  status := operation.status
  executionReceipt := operation.executionReceipt
  createdAt := operation.createdAt
  updatedAt := operation.updatedAt
  errorMessage := operation.errorMessage

namespace SqliteLedger

variable {Json Payload : Type}

def ask (i : Nat) (op : LedgerOp Json Payload) : Prog (ledgerSignature Json Payload) op.Answer :=
  Prog.call (S := ledgerSignature Json Payload) (i, op)

@[simp] theorem exec_ask {σ : Type} (handle : Prog.Handler (ledgerSignature Json Payload) σ)
    (i : Nat) (op : LedgerOp Json Payload) (s : σ) :
    (ask i op).exec handle s = handle (i, op) s := rfl

/-- Continue with the value of a store call, or let its exception through. -/
def checked {α β : Type} (answer : Except StoreError α)
    (next : α → Prog (ledgerSignature Json Payload) (Except LedgerError β)) :
    Prog (ledgerSignature Json Payload) (Except LedgerError β) :=
  match answer with
  | .error e => .ret (.error (.store e))
  | .ok a => next a

def registerToolCall (i : Nat) (toolCallId logicalOperationId toolName : String)
    (arguments : Json) :
    Prog (ledgerSignature Json Payload) (Except LedgerError (ToolExecutionRecord Json)) := do
  let record ← ask i (.register toolCallId logicalOperationId toolName arguments)
  let prepared ← ask i (.store (.prepareOperation toolCallId logicalOperationId toolName
    record.argumentsHash record.arguments))
  checked prepared fun operation => do
    let _ ← ask i (.hydrate toolCallId operation)
    return .ok (record.hydrate operation)

def getRecord (i : Nat) (toolCallId : String) :
    Prog (ledgerSignature Json Payload) (Option (ToolExecutionRecord Json)) := do
  match ← ask i (.getRecord toolCallId) with
  | some record => return some record
  | none =>
      match ← ask i (.store (.operationForCall toolCallId)) with
      | none => return none
      | some operation =>
          let record := ToolExecutionRecord.ofOperation toolCallId operation
          let _ ← ask i (.putRecord record)
          return some record

def markValidated (i : Nat) (toolCallId : String) :
    Prog (ledgerSignature Json Payload) (Except LedgerError Unit) := do
  match ← getRecord i toolCallId with
  | none => return .ok ()
  | some record =>
      if record.status = .proposed ∨ record.status = .validated then
        let validated ← ask i (.store (.markOperationValidated toolCallId))
        checked validated fun _ => do
          let _ ← ask i (.mark (.validated toolCallId))
          return .ok ()
      else return .ok ()

/-- The durable write and the lease come before the tool may run. -/
def markSubmitted (i : Nat) (toolCallId : String) :
    Prog (ledgerSignature Json Payload) (Except LedgerError Unit) := do
  let (ownerId, leaseTtlSeconds) ← ask i .config
  let submitted ← ask i (.store (.markOperationSubmitted toolCallId ownerId leaseTtlSeconds))
  checked submitted fun lease => do
    let _ ← ask i (.setLease toolCallId lease)
    let _ ← ask i (.mark (.submitted toolCallId))
    return .ok ()

def markCommitted (i : Nat) (toolCallId : String) (receipt : Json) :
    Prog (ledgerSignature Json Payload) (Except LedgerError Unit) := do
  match ← ask i (.getLease toolCallId) with
  | none =>
      return .error (.runtime "A durable operation can commit only with its live submission lease")
  | some lease =>
      let (ownerId, _) ← ask i .config
      let committed ← ask i (.store (.markOperationCommitted toolCallId ownerId
        lease.fencingToken receipt))
      checked committed fun _ => do
        let _ ← ask i (.popLease toolCallId)
        let _ ← ask i (.mark (.committed toolCallId receipt))
        return .ok ()

def markIndeterminate (i : Nat) (toolCallId reason : String) :
    Prog (ledgerSignature Json Payload) (Except LedgerError Unit) := do
  let marked ← ask i (.store (.markOperationIndeterminate toolCallId reason))
  checked marked fun _ => do
    let _ ← ask i (.popLease toolCallId)
    let _ ← ask i (.mark (.indeterminate toolCallId reason))
    return .ok ()

def markFailed (i : Nat) (toolCallId errorMessage : String) :
    Prog (ledgerSignature Json Payload) (Except LedgerError Unit) := do
  let marked ← ask i (.store (.markOperationFailed toolCallId errorMessage))
  checked marked fun _ => do
    let _ ← ask i (.mark (.failed toolCallId errorMessage))
    return .ok ()

/-- Inherited: a replay only annotates the record in memory. -/
def markReplayed (i : Nat) (toolCallId : String) (receipt : Json) :
    Prog (ledgerSignature Json Payload) (Except LedgerError Unit) := do
  let _ ← ask i (.mark (.replayed toolCallId receipt))
  return .ok ()

def checkIdempotency [JsonCodec Json] (sha256 : String → String) (i : Nat)
    (logicalOperationId toolName : String) (arguments : Json) :
    Prog (ledgerSignature Json Payload) (Bool × Option Json) := do
  let found ← ask i (.store (.operationForKey logicalOperationId toolName
    (computeArgumentsHash sha256 arguments)))
  match found with
  | none => return (false, none)
  | some operation =>
      if operation.status = .committed ∧ operation.executionReceipt.isSome then
        return (true, operation.executionReceipt)
      else return (false, none)

def hasIndeterminateOperation [JsonCodec Json] (sha256 : String → String) (i : Nat)
    (logicalOperationId toolName : String) (arguments : Json) :
    Prog (ledgerSignature Json Payload) Bool := do
  let found ← ask i (.store (.operationForKey logicalOperationId toolName
    (computeArgumentsHash sha256 arguments)))
  return found.any operationRequiresManualResolution

/-- `__init__`: a missing acknowledgement is never evidence that the side effect
    did not happen. -/
def construct (i : Nat) (recoverInflight : Bool) :
    Prog (ledgerSignature Json Payload) Unit := do
  if recoverInflight then
    let _ ← ask i (.store (.recoverInflightOperations
      "Gateway restarted before tool acknowledgement"))
    return ()
  else return ()

end SqliteLedger

/-- The calls on a ledger instance. -/
inductive DurableCall (Json : Type) where
  | construct (recoverInflight : Bool)
  | registerToolCall (toolCallId logicalOperationId toolName : String) (arguments : Json)
  | getRecord (toolCallId : String)
  | markValidated (toolCallId : String)
  | markSubmitted (toolCallId : String)
  | markCommitted (toolCallId : String) (receipt : Json)
  | markIndeterminate (toolCallId reason : String)
  | markFailed (toolCallId errorMessage : String)
  | markReplayed (toolCallId : String) (receipt : Json)
  | checkIdempotency (logicalOperationId toolName : String) (arguments : Json)
  | hasIndeterminateOperation (logicalOperationId toolName : String) (arguments : Json)

inductive DurableAnswer (Json : Type) where
  | none
  | raised (error : LedgerError)
  | record (record : ToolExecutionRecord Json)
  | maybeRecord (record : Option (ToolExecutionRecord Json))
  | receipt (known : Bool) (receipt : Option Json)
  | flag (value : Bool)
  deriving DecidableEq

namespace DurableCall

variable {Json Payload : Type} [JsonCodec Json]

def ofExcept {α : Type} (returned : α → DurableAnswer Json) :
    Except LedgerError α → DurableAnswer Json
  | .ok a => returned a
  | .error e => .raised e

def program (sha256 : String → String) (i : Nat) :
    DurableCall Json → Prog (ledgerSignature Json Payload) (DurableAnswer Json)
  | .construct recover => do
      let _ ← SqliteLedger.construct i recover
      return .none
  | .registerToolCall id op tool arguments => do
      return ofExcept .record (← SqliteLedger.registerToolCall i id op tool arguments)
  | .getRecord id => return .maybeRecord (← SqliteLedger.getRecord i id)
  | .markValidated id => return ofExcept (fun _ => .none) (← SqliteLedger.markValidated i id)
  | .markSubmitted id => return ofExcept (fun _ => .none) (← SqliteLedger.markSubmitted i id)
  | .markCommitted id receipt => do
      return ofExcept (fun _ => .none) (← SqliteLedger.markCommitted i id receipt)
  | .markIndeterminate id reason => do
      return ofExcept (fun _ => .none) (← SqliteLedger.markIndeterminate i id reason)
  | .markFailed id message => do
      return ofExcept (fun _ => .none) (← SqliteLedger.markFailed i id message)
  | .markReplayed id receipt => do
      return ofExcept (fun _ => .none) (← SqliteLedger.markReplayed i id receipt)
  | .checkIdempotency op tool arguments => do
      let answer ← SqliteLedger.checkIdempotency sha256 i op tool arguments
      return .receipt answer.1 answer.2
  | .hasIndeterminateOperation op tool arguments => do
      return .flag (← SqliteLedger.hasIndeterminateOperation sha256 i op tool arguments)

end DurableCall

/-! ## Instances over one database -/

/-- `reads` is what the clocks show at the moment. -/
structure LedgerSystem (Json Payload : Type) [JsonCodec Json] where
  db : Database Json Payload
  instances : Nat → SqliteLedger Json
  reads : LedgerReads

namespace LedgerSystem

variable {Json Payload : Type} [JsonCodec Json]

def storeReads (s : LedgerSystem Json Payload) : StoreReads := ⟨s.reads.now, s.reads.later⟩

def updateInstance (s : LedgerSystem Json Payload) (i : Nat)
    (f : SqliteLedger Json → SqliteLedger Json) : LedgerSystem Json Payload :=
  { s with instances := Function.update s.instances i (f (s.instances i)) }

def updateBase (s : LedgerSystem Json Payload) (i : Nat)
    (f : ToolExecutionLedger Json → ToolExecutionLedger Json) : LedgerSystem Json Payload :=
  s.updateInstance i fun ledger => { ledger with base := f ledger.base }

def updateLeases (s : LedgerSystem Json Payload) (i : Nat)
    (f : Dict String Lease → Dict String Lease) : LedgerSystem Json Payload :=
  s.updateInstance i fun ledger => { ledger with leases := f ledger.leases }

def handle (sha256 : String → String) : Prog.Handler (ledgerSignature Json Payload)
    (LedgerSystem Json Payload)
  | (_, .store call), s =>
      let answer := call.perform sha256 s.storeReads s.db
      (answer.1, { s with db := answer.2 })
  | (i, .register id op tool arguments), s =>
      ((s.instances i).base.registerToolCall sha256 s.reads id op tool arguments |>.1,
        s.updateBase i fun base => (base.registerToolCall sha256 s.reads id op tool arguments).2)
  | (i, .mark call), s => ((), s.updateBase i fun base => call.apply sha256 base s.reads)
  | (i, .getRecord id), s => ((s.instances i).base.getRecord id, s)
  | (i, .putRecord record), s =>
      ((), s.updateBase i fun base =>
        { base with recordsByCallId := base.recordsByCallId.set record.toolCallId record })
  | (i, .hydrate id operation), s =>
      ((), s.updateBase i fun base => base.updateRecord id (·.hydrate operation))
  | (i, .config), s => (((s.instances i).ownerId, (s.instances i).leaseTtlSeconds), s)
  | (i, .getLease id), s => ((s.instances i).leases.get id, s)
  | (i, .setLease id lease), s => ((), s.updateLeases i (·.set id lease))
  | (i, .popLease id), s => ((), s.updateLeases i (·.erase id))

end LedgerSystem

/-- What happens outside the calls: the clocks move, and a process dies and is
    started again with an empty memory and its own configuration. -/
inductive LedgerWorld where
  | clock (reads : LedgerReads)
  | restart (i : Nat) (ownerId : String) (leaseTtlSeconds : Seconds)

def LedgerWorld.apply {Json Payload : Type} [JsonCodec Json] (s : LedgerSystem Json Payload) :
    LedgerWorld → LedgerSystem Json Payload
  | .clock reads => { s with reads }
  | .restart i ownerId leaseTtlSeconds => s.updateInstance i fun _ => { ownerId, leaseTtlSeconds }

end DuraLLM
