import DuraLLM.Lib.Dict
import DuraLLM.Lib.Json
import DuraLLM.Models

/-! # The in-process tool ledger

`ToolExecutionLedger` keeps one record for each provider tool call and one
receipt for each committed operation, both in insertion-ordered dictionaries
that shed their oldest entries by age and by count.  The records carry the
lifecycle status; the receipts answer replays.

Times are exact rationals.  `now` and `later` are successive readings of the
ledger's own clock within one call, `wall` is `time.time()`.
-/

namespace DuraLLM

/-- `ambiguous` is the legacy spelling of `indeterminate`; `replayed` marks a
    re-proposed call that an existing receipt already satisfies. -/
inductive ToolExecutionStatus where
  | proposed
  | validated
  | submitted
  | committed
  | indeterminate
  | ambiguous
  | failed
  | replayed
  deriving DecidableEq, Repr

namespace ToolExecutionStatus

/-- The outcomes that must be reconciled by hand before anything is retried. -/
def isUnknownOutcome : ToolExecutionStatus → Bool
  | .submitted | .indeterminate | .ambiguous => true
  | _ => false

end ToolExecutionStatus

structure ToolExecutionRecord (Json : Type) where
  toolCallId : String
  logicalOperationId : String
  toolName : String
  argumentsHash : String
  arguments : Json
  status : ToolExecutionStatus := .proposed
  executionReceipt : Option Json := none
  createdAt : Seconds
  updatedAt : Seconds
  errorMessage : Option String := none
  deriving DecidableEq

/-- `ttlSeconds = none` is the infinite lifetime. -/
structure ToolExecutionLedger (Json : Type) where
  maxRecords : Nat := 10000
  ttlSeconds : Option Seconds := some 3600
  recordsByCallId : Dict String (ToolExecutionRecord Json) := .empty
  receiptsByOpHash : Dict String (Json × Seconds) := .empty
  deriving DecidableEq

/-- `sha256(json.dumps(arguments, sort_keys=True))`, in hexadecimal. -/
def computeArgumentsHash {Json : Type} [JsonCodec Json] (sha256 : String → String)
    (arguments : Json) : String :=
  sha256 (JsonCodec.dumps .spaced arguments)

/-- SHA-256 on the texts that the sample runs hash, and a fixed digest on all
    others. -/
def sampleSha256 (text : String) : String :=
  if text = OkObject.text .spaced true then
    "6bc0da1f42f96fc37b8bd7ed20ba57606d2a0da5cda2b135c7854fbdc985b8a3"
  else if text = "operation-1\x1fdeploy\x1f" ++
      "6bc0da1f42f96fc37b8bd7ed20ba57606d2a0da5cda2b135c7854fbdc985b8a3" then
    "98acacc94c5210425ed6d9c721b8be4b4242e3be54d6c0671e553b87afdf23f1"
  else "e3b0c44298fc1c149afbf4c8996fb92427ae41e4649b934ca495991b7852b855"

structure LedgerReads where
  now : Seconds
  later : Seconds
  wall : Seconds

namespace ToolExecutionLedger

variable {Json : Type}

def outlived (ledger : ToolExecutionLedger Json) (age : Seconds) : Bool :=
  match ledger.ttlSeconds with
  | none => false
  | some ttl => ttl < age

/-- One store of `_evict`: expired entries from the old end, then the oldest
    beyond `max_records`. -/
def evictFrom {V : Type} (ledger : ToolExecutionLedger Json) (now : Seconds)
    (stamp : V → Seconds) (store : Dict String V) : Dict String V :=
  (store.dropOldWhile fun v => ledger.outlived (now - stamp v)).keepNewest ledger.maxRecords

def evict (ledger : ToolExecutionLedger Json) (now : Seconds) : ToolExecutionLedger Json :=
  { ledger with
    recordsByCallId := ledger.evictFrom now (·.createdAt) ledger.recordsByCallId
    receiptsByOpHash := ledger.evictFrom now (·.2) ledger.receiptsByOpHash }

def opKey (logicalOpId toolName argumentsHash : String) : String :=
  logicalOpId ++ ":" ++ toolName ++ ":" ++ argumentsHash

def registerToolCall [JsonCodec Json] (sha256 : String → String)
    (ledger : ToolExecutionLedger Json) (reads : LedgerReads)
    (toolCallId logicalOperationId toolName : String) (arguments : Json) :
    ToolExecutionRecord Json × ToolExecutionLedger Json :=
  match ledger.recordsByCallId.get toolCallId with
  | some known => (known, ledger)
  | none =>
      let fresh : ToolExecutionRecord Json :=
        { toolCallId, logicalOperationId, toolName, arguments
          argumentsHash := computeArgumentsHash sha256 arguments
          createdAt := reads.now
          updatedAt := reads.now }
      (fresh, { ledger with
        recordsByCallId := ledger.recordsByCallId.set toolCallId fresh }.evict reads.later)

/-- The shape shared by the `mark_*` methods: change the record, when there is
    one. -/
def updateRecord (ledger : ToolExecutionLedger Json) (toolCallId : String)
    (f : ToolExecutionRecord Json → ToolExecutionRecord Json) : ToolExecutionLedger Json :=
  { ledger with recordsByCallId := ledger.recordsByCallId.modify toolCallId f }

def markValidated (ledger : ToolExecutionLedger Json) (reads : LedgerReads)
    (toolCallId : String) : ToolExecutionLedger Json :=
  ledger.updateRecord toolCallId fun r =>
    if r.status = .proposed then { r with status := .validated, updatedAt := reads.wall } else r

def markSubmitted (ledger : ToolExecutionLedger Json) (reads : LedgerReads)
    (toolCallId : String) : ToolExecutionLedger Json :=
  ledger.updateRecord toolCallId fun r =>
    { r with status := .submitted, updatedAt := reads.wall }

def markCommitted (ledger : ToolExecutionLedger Json) (reads : LedgerReads)
    (toolCallId : String) (receipt : Json) : ToolExecutionLedger Json :=
  match ledger.recordsByCallId.get toolCallId with
  | none => ledger
  | some r =>
      let marked := ledger.updateRecord toolCallId fun r =>
        { r with status := .committed, executionReceipt := some receipt, updatedAt := reads.wall }
      { marked with
        receiptsByOpHash := marked.receiptsByOpHash.set
          (opKey r.logicalOperationId r.toolName r.argumentsHash)
          (receipt, reads.now) }.evict reads.later

def markReplayed (ledger : ToolExecutionLedger Json) (reads : LedgerReads)
    (toolCallId : String) (receipt : Json) : ToolExecutionLedger Json :=
  ledger.updateRecord toolCallId fun r =>
    { r with status := .replayed, executionReceipt := some receipt, updatedAt := reads.now }

def markIndeterminate (ledger : ToolExecutionLedger Json) (reads : LedgerReads)
    (toolCallId reason : String) : ToolExecutionLedger Json :=
  ledger.updateRecord toolCallId fun r =>
    { r with status := .indeterminate, errorMessage := some reason, updatedAt := reads.wall }

def markAmbiguous (ledger : ToolExecutionLedger Json) (reads : LedgerReads)
    (toolCallId reason : String) : ToolExecutionLedger Json :=
  ledger.markIndeterminate reads toolCallId reason

def markFailed (ledger : ToolExecutionLedger Json) (reads : LedgerReads)
    (toolCallId errorMessage : String) : ToolExecutionLedger Json :=
  ledger.updateRecord toolCallId fun r =>
    { r with status := .failed, errorMessage := some errorMessage, updatedAt := reads.wall }

def checkIdempotency [JsonCodec Json] (sha256 : String → String)
    (ledger : ToolExecutionLedger Json) (now : Seconds)
    (logicalOperationId toolName : String) (arguments : Json) : Bool × Option Json :=
  let key := opKey logicalOperationId toolName (computeArgumentsHash sha256 arguments)
  match ledger.receiptsByOpHash.get key with
  | none => (false, none)
  | some entry =>
      if ledger.outlived (now - entry.2) then (false, none) else (true, some entry.1)

def hasIndeterminateOperation [JsonCodec Json] (sha256 : String → String)
    (ledger : ToolExecutionLedger Json) (logicalOperationId toolName : String)
    (arguments : Json) : Bool :=
  ledger.recordsByCallId.values.any fun r =>
    r.logicalOperationId = logicalOperationId ∧ r.toolName = toolName ∧
      r.argumentsHash = computeArgumentsHash sha256 arguments ∧ r.status.isUnknownOutcome

def getRecord (ledger : ToolExecutionLedger Json) (toolCallId : String) :
    Option (ToolExecutionRecord Json) :=
  ledger.recordsByCallId.get toolCallId

end ToolExecutionLedger

/-- The mutating calls of `ToolExecutionLedger`. `markAmbiguous` is
    `indeterminate`. -/
inductive LedgerCall (Json : Type) where
  | register (toolCallId logicalOperationId toolName : String) (arguments : Json)
  | validated (toolCallId : String)
  | submitted (toolCallId : String)
  | committed (toolCallId : String) (receipt : Json)
  | replayed (toolCallId : String) (receipt : Json)
  | indeterminate (toolCallId reason : String)
  | failed (toolCallId errorMessage : String)

def LedgerCall.apply {Json : Type} [JsonCodec Json] (sha256 : String → String)
    (ledger : ToolExecutionLedger Json) (reads : LedgerReads) :
    LedgerCall Json → ToolExecutionLedger Json
  | .register id op tool arguments => (ledger.registerToolCall sha256 reads id op tool arguments).2
  | .validated id => ledger.markValidated reads id
  | .submitted id => ledger.markSubmitted reads id
  | .committed id receipt => ledger.markCommitted reads id receipt
  | .replayed id receipt => ledger.markReplayed reads id receipt
  | .indeterminate id reason => ledger.markIndeterminate reads id reason
  | .failed id message => ledger.markFailed reads id message

end DuraLLM
