import DuraLLM.Execution.Recovery

/-! # The retry loop

`GatewayExecutor.execute`: admission, dispatch, the review of a response and
the report to the breaker, pass after pass.  `continue`, `return` and `raise`
out of a pass are its result.  `fuel` bounds the passes of the loop; a run that
ends before it is spent is a run of the source.
-/

namespace DuraLLM

/-- How a pass ends. With an exception go the attempts on the ledger, which
    nobody sees after it. -/
inductive PassResult (Json Decision : Type) where
  | next (s : LoopState Json)
  | returned (response : NormalizedResponse Json) (decision : Decision) (ledger : AttemptLedger)
  | raised (error : RaisedError) (attempts : List AttemptRecord)

inductive ExecuteResult (Json Decision : Type) where
  | returned (response : NormalizedResponse Json) (decision : Decision) (ledger : AttemptLedger)
  | raised (error : RaisedError) (attempts : List AttemptRecord)
  | outOfFuel

variable {Json Decision : Type}

open Execution (ofLocal)

/-! ## The review of a response -/

/-- Programs inside the `try` that reviews a response. -/
abbrev Reviewing (Json Decision α : Type) :=
  ExceptT RaisedError (Prog (executorSig Json Decision)) α

namespace Reviewing

def call (op : ReviewOp Json) : Reviewing Json Decision (op.Result) :=
  ExceptT.mk (Execution.review op)

def keep (note : Bookkeeping) : Reviewing Json Decision Unit :=
  ExceptT.lift (ofLocal (Local.keep note))

end Reviewing

inductive SanityFailure where
  | emptyResponse
  | responseSizeExhaustion (length limit : Nat)
  deriving DecidableEq

def SanityFailure.message : SanityFailure → String
  | .emptyResponse => "Model returned HTTP 200 with completely empty content and no tool calls"
  | .responseSizeExhaustion length limit =>
      "Response exceeded maximum character limit (" ++ toString length ++ " > " ++ toString limit ++
        ")"

def checkSanity (maxResponseChars : Nat) (response : NormalizedResponse Json) :
    Option SanityFailure :=
  let content := response.content.getD ""
  if !content.toList.any (!isSpace ·) && response.toolCalls.isEmpty then some .emptyResponse
  else if maxResponseChars < content.length then
    some (.responseSizeExhaustion content.length maxResponseChars)
  else none

/-- HTTP 200 is not semantic success. -/
def semanticFailure (reason : FailoverReason) (message : String) : FailureClassification :=
  { category := .semanticAgentFailure
    reason
    shouldFallback := true
    retryable := false
    poisonsHealth := false
    statusCode := some 200
    message }

def SanityFailure.classification (failure : SanityFailure) : FailureClassification :=
  semanticFailure
    (match failure with
      | .emptyResponse => .emptyCompletion
      | .responseSizeExhaustion _ _ => .outputCapExceeded)
    failure.message

def isEmptyObject [JsonCodec Json] (v : Json) : Bool :=
  JsonCodec.dumps .compact v == "\x7b\x7d"

section Review

variable [JsonCodec Json] (s : LoopState Json) (d : Dispatch Json Decision)

/-- Preserve the provider's id for the client; only mint one if absent. -/
def clientCallId (index : Nat) (tc : NormalizedToolCall Json) : String :=
  if tc.id = "" then
    "call_" ++ clip 8 s.request.requestId ++ "_" ++ toString s.attemptIdx ++ "_" ++ toString index
  else tc.id

/-- A committed receipt answers the call, an unknown outcome blocks it. -/
def replayOrBlock (tcId : String) (tc : NormalizedToolCall Json) :
    Reviewing Json Decision (NormalizedToolCall Json) := do
  let (hasReceipt, receipt) ←
    Reviewing.call (.checkIdempotency s.request.requestId tc.name tc.arguments)
  let metadata := { tc.metadata with ledgerCallId := some tcId }
  if hasReceipt then
    Reviewing.call (.markReplayed tcId receipt)
    return { tc with metadata := { metadata with replayed := true, executionReceipt := receipt } }
  else
    let unknown : Bool ←
      Reviewing.call (.hasIndeterminateOperation s.request.requestId tc.name tc.arguments)
    if unknown then
      -- A submitted side effect without a durable receipt is not a retry candidate.
      Reviewing.call (.markIndeterminate tcId "A prior submission has no durable acknowledgement")
      throw (.indeterminateToolOperation s.request.requestId tc.name)
    else return { tc with metadata }

/-- Malformed tool JSON is validated from its source text. -/
def validationInput (tc : NormalizedToolCall Json) : ToolArguments Json :=
  if tc.rawArguments ≠ "" ∧ isEmptyObject tc.arguments then .text tc.rawArguments
  else .object tc.arguments

/-- The call as an accepted report leaves it. -/
def validatedCall (tc : NormalizedToolCall Json) (report : ToolValidationReport Json) :
    NormalizedToolCall Json :=
  if report.normalizationsApplied = [] then { tc with arguments := report.validatedArguments }
  else
    { tc with
      arguments := report.validatedArguments
      rawArguments := JsonCodec.dumps .verbatim report.validatedArguments
      metadata := { tc.metadata with rawArgumentsBeforeNormalization := some tc.rawArguments } }

/-- `none` where the validator rejects the call. -/
def reviewToolCall (index : Nat) (tc : NormalizedToolCall Json) :
    Reviewing Json Decision (Option (NormalizedToolCall Json)) := do
  let tc := { tc with id := clientCallId s index tc }
  let tcId := s.request.requestId ++ ":att" ++ toString s.attemptIdx ++ ":" ++ tc.id
  Reviewing.call (.registerToolCall tcId s.request.requestId tc.name tc.arguments)
  let tc ← replayOrBlock s tcId tc
  let schema := (s.request.tools.find? fun t => t.name = tc.name).map (·.parameters)
  let report ← Reviewing.call
    (.validateToolCall tc.name (validationInput tc) schema (s.request.tools.map (·.name)))
  Reviewing.keep (.recordToolOutcome d.endpoint.id report.isExecutable)
  if report.isExecutable then
    Reviewing.call (.markValidated tcId)
    return some (validatedCall tc report)
  else
    Reviewing.call (.markFailed tcId report.errorMessage)
    return none

def reviewToolCalls :
    Nat → List (NormalizedToolCall Json) →
      Reviewing Json Decision (Option (List (NormalizedToolCall Json)))
  | _, [] => return some []
  | index, tc :: rest => do
      match ← reviewToolCall s d index tc with
      | none => return none
      | some checked =>
          let others ← reviewToolCalls (index + 1) rest
          return others.map (checked :: ·)

/-- The classification of a response that is turned down, or the response. -/
def reviewResponse (maxResponseChars : Nat) (result : ExecutionResult) :
    Reviewing Json Decision (Except FailureClassification (NormalizedResponse Json)) := do
  let response ← Reviewing.call (.normalizeResponse d.adapter d.endpoint result)
  match checkSanity maxResponseChars response with
  | some failure => return .error failure.classification
  | none =>
      match ← reviewToolCalls s d 0 response.toolCalls with
      | some toolCalls => return .ok { response with toolCalls }
      | none =>
          return .error (semanticFailure .malformedToolCall "Model generated invalid tool arguments")

end Review

/-! ## Reports -/

/-- What `settle` raises on a negative cost. -/
def negativeCost : RaisedError := .valueError "actual cost must be non-negative"

/-- What `classify_failure` makes of it under status 502. -/
def negativeCostFailure : FailureClassification where
  category := .infrastructure
  reason := .serverError
  shouldFallback := true
  retryable := true
  statusCode := some 502
  message := "actual cost must be non-negative"

def classifyFailure (source : FailureSource) (statusCode : Nat)
    (headers : List (String × String)) :
    Execution Json Decision (Except RaisedError FailureClassification) :=
  if source = .exception negativeCost ∧ statusCode = 502 then pure (.ok negativeCostFailure)
  else Execution.classify source statusCode headers

/-- The end of a raising local program, which records no attempt, as the end of
    a pass. -/
def PassResult.ofRaising (attempts : List AttemptRecord) :
    Except RaisedError (LoopState Json) → PassResult Json Decision
  | .ok s => .next s
  | .error e => .raised e attempts

section Pass

variable (call : ExecuteCall Json) (s : LoopState Json) (d : Dispatch Json Decision)

/-- The breaker hears of the failure, then the stores, then the loop goes on. -/
def reportFailure (result : ExecutionResult) (classified : FailureClassification)
    (recorded : Bool) : Execution Json Decision (PassResult Json Decision) := do
  Execution.recordFailure d.endpoint.resourceKey result.durationMs classified
  let s ← ofLocal (recordFailedAttempt call s d result classified recorded)
  return .ofRaising s.ledger.attempts (← ofLocal (recover call s d classified).run)

/-- A rate limit on a key with an alternative: rotate and retry locally. -/
def rotateKey (keyId : String) (result : ExecutionResult) (classified : FailureClassification) :
    Local Json Decision (LoopState Json) := do
  Local.keep (.recordKeyRateLimit keyId classified.retryAfterSeconds)
  Local.event (.keyRotatedOnRateLimit d.endpoint.id keyId classified.retryAfterSeconds)
  let record ← finish d.attempt false result.statusCode (some classified)
  let s ← recordAttempt s record
  settleReserved d.reservation
  finishDurableAttempt call.executor record .keyRotated429 (.text classified.message)
  return s

/-- The key that may be rotated away after a failure. -/
def rotatableKey (classified : FailureClassification) : Option String :=
  if classified.reason = .rateLimit then d.keyId.filter (· ≠ "") else none

def failAttempt (result : ExecutionResult) (classified : FailureClassification)
    (recorded : Bool) : Execution Json Decision (PassResult Json Decision) :=
  match rotatableKey d classified with
  | none => reportFailure call s d result classified recorded
  | some keyId => do
      if ← Execution.hasAlternativeKey d.endpoint call.keys keyId then
        return .next (← ofLocal (rotateKey call s d keyId result classified))
      else reportFailure call s d result classified recorded

/-- An exception in the `try` of the review, or a reply other than 200. -/
def failClassified (result : ExecutionResult) (source : FailureSource) (statusCode : Nat)
    (headers : List (String × String)) (recorded : Bool) :
    Execution Json Decision (PassResult Json Decision) := do
  match ← classifyFailure source statusCode headers with
  | .error e => return .raised e s.ledger.attempts
  | .ok classified => failAttempt call s d result classified recorded

/-- `except IndeterminateToolOperationError` -/
def blockAttempt : Local Json Decision (LoopState Json) := do
  let record ← finish d.attempt false 409 none
  settleReserved d.reservation
  let s ← recordAttempt s record
  finishDurableAttempt call.executor record .blockedIndeterminateOperation (.text "")
  return s

/-- The records of a success, with the state that carries its ledger. -/
def recordSuccess (result : ExecutionResult) :
    Local Json Decision (AttemptRecord × LoopState Json) := do
  Local.keep (.recordHealthSuccess d.endpoint.id result.durationMs)
  recordLaneOutcome d.endpoint none
  if call.executor.hasPoolManager then
    Local.keep (.recordRouteSuccess call.pool d.endpoint.id)
  if call.prefixHash ≠ "" then
    Local.keep (.recordWarmCache d.endpoint.id call.prefixHash)
  let record ← finish d.attempt true 200 none
  return (record, ← recordAttempt s record)

/-- The estimated cost of an accepted response. -/
def responseCost [JsonCodec Json] (response : NormalizedResponse Json) : ℚ :=
  (estimateTokens d.adaptedRequest / 1000000) * d.profile.inputPricePer1m +
    (estimateText (response.content.getD "") / 1000000) * d.profile.outputPricePer1m

/-- Success, unless the budget store refuses the cost: its exception falls into
    the handler of the review. -/
def acceptResponse [JsonCodec Json] (result : ExecutionResult)
    (response : NormalizedResponse Json) : Execution Json Decision (PassResult Json Decision) := do
  Execution.recordSuccess d.endpoint.resourceKey result.durationMs
  let (record, s) ← ofLocal (recordSuccess call s d result)
  let cost := responseCost d response
  let s := { s with ledger := s.ledger.addCost cost }
  let succeed : Execution Json Decision (PassResult Json Decision) := do
    ofLocal (finishDurableAttempt call.executor record .succeeded (.text ""))
    return .returned response d.decision s.ledger
  match d.reservation with
  | none => succeed
  | some reservation =>
      match ← Execution.settleCost reservation.reservationId cost with
      | .settled _ => succeed
      | .refused _ => failClassified call s d result (.exception negativeCost) 502 [] true

def handleResult [JsonCodec Json] (result : ExecutionResult) :
    Execution Json Decision (PassResult Json Decision) :=
  if result.statusCode = 200 then do
    match ← (reviewResponse s d call.executor.maxResponseChars result).run with
    | .ok (.ok response) => acceptResponse call s d result response
    | .ok (.error classified) => failAttempt call s d result classified false
    | .error e =>
        if e.isIndeterminate then
          let s ← ofLocal (blockAttempt call s d)
          return .raised e s.ledger.attempts
        else failClassified call s d result (.exception e) 502 [] false
  else
    failClassified call s d result (.body result.body) result.statusCode result.headers false

/-- The adapter may have sent bytes before it raised. -/
def recordTransportError (error : RaisedError) (record : AttemptRecord)
    (classified : FailureClassification) : Local Json Decision (LoopState Json) := do
  Local.keep (.recordHealthFailure
    { endpointId := d.endpoint.id
      latencyMs := record.latencyMs
      errorMessage := clip 160 classified.message
      cooldownSeconds := some 30 })
  Local.keep (.markGlobalCooldown call.pool d.endpoint.id 30)
  recordLaneOutcome d.endpoint (some classified)
  let s ← recordAttempt s record
  settleReserved d.reservation
  finishDurableAttempt call.executor record .transportError (.exception error)
  return s

def transportError (error : RaisedError) : Execution Json Decision (PassResult Json Decision) := do
  match ← classifyFailure (.exception error) 502 [] with
  | .error e => return .raised e s.ledger.attempts
  | .ok classified =>
      let record ← ofLocal (finish d.attempt false 502 (some classified))
      Execution.recordFailure d.endpoint.resourceKey record.latencyMs classified
      let s ← ofLocal (recordTransportError call s d error record classified)
      return .raised error s.ledger.attempts

/-- From the granted permit on. -/
def dispatch [JsonCodec Json] : Execution Json Decision (PassResult Json Decision) := do
  ofLocal (prepareDurableAttempt call.executor d.attempt)
  match ← ofLocal (Local.adapterExecute d.adapter d.prepared d.timeoutSeconds) with
  | .error error => transportError call s d error
  | .ok result => handleResult call s d result

/-- Breaker admission comes after all local checks, so that a rejected budget
    cannot consume a probe permit. -/
def admitAttempt [JsonCodec Json] : Execution Json Decision (PassResult Json Decision) := do
  match ← Execution.acquirePermission d.endpoint.resourceKey with
  | .ok () => dispatch call s d
  | .error _ =>
      ofLocal (d.reservation.forM fun r => Local.keep (.releaseReservation r))
      return .next (s.exclude d.endpoint)

end Pass

def runPass [JsonCodec Json] (call : ExecuteCall Json) (s : LoopState Json) :
    Execution Json Decision (PassResult Json Decision) := do
  match ← ofLocal (prepareAttempt call s).run with
  | .error e => return .raised e s.ledger.attempts
  | .ok (.skipped s) => return .next s
  | .ok (.ready s d) => admitAttempt call s d

/-- `not deadline.is_expired() and ledger.total_attempts < max_total_attempts` -/
def mayContinue (call : ExecuteCall Json) (s : LoopState Json) : Local Json Decision Bool := do
  if call.deadline.isExpired (← Local.monotonic) then return false
  else return s.ledger.totalAttempts < (← Local.policy).maxTotalAttempts

def giveUp (call : ExecuteCall Json) (s : LoopState Json) :
    Local Json Decision RaisedError := do
  Local.event (.requestExhausted s.request.requestId call.pool s.ledger.totalAttempts
    s.lastFailureReason none)
  return .noHealthyRoute ("All fallback attempts exhausted for pool '" ++ call.pool ++ "'") call.pool

def executeLoop [JsonCodec Json] (call : ExecuteCall Json) :
    Nat → LoopState Json → Execution Json Decision (ExecuteResult Json Decision)
  | 0, _ => return .outOfFuel
  | fuel + 1, s => do
      if ← ofLocal (mayContinue call s) then
        match ← runPass call s with
        | .next s => executeLoop call fuel s
        | .returned response decision ledger => return .returned response decision ledger
        | .raised e attempts => return .raised e attempts
      else return .raised (← ofLocal (giveUp call s)) s.ledger.attempts

/-- The arguments of `execute`. -/
structure ExecuteRequest (Json : Type) where
  request : NormalizedRequest Json
  pool : String := "general_agent"
  strategy : Option String := none
  deadlineMs : ℚ := 300000
  apiKeys : Dict String String := .empty
  requirements : RequirementVector := {}

def ExecuteRequest.call [JsonCodec Json] (executor : GatewayExecutor Json)
    (args : ExecuteRequest Json) (startTimeMonotonic : Seconds) : ExecuteCall Json :=
  let prefixHash := executor.computePrefixHash args.request
  { executor
    pool := args.pool
    strategy := args.strategy
    keys := args.apiKeys
    prefixHash
    requirements :=
      { args.requirements with
        requireTools := !args.request.tools.isEmpty || args.requirements.requireTools
        taskClass := if args.pool = "coding" then "coding" else "general"
        estimatedInputTokens := estimateTokens args.request
        expectedOutputTokens := args.request.maxOutputTokens.getD 0
        prefixHash := some prefixHash }
    deadline :=
      { totalTimeoutMs := executor.totalTimeoutMs.getD args.deadlineMs
        perAttemptTimeoutMs := executor.perAttemptTimeoutMs
        startTimeMonotonic } }

def execute [JsonCodec Json] (executor : GatewayExecutor Json) (args : ExecuteRequest Json)
    (fuel : Nat) : Execution Json Decision (ExecuteResult Json Decision) := do
  let start ← ofLocal Local.monotonic
  executeLoop (args.call executor start) fuel { request := args.request }

end DuraLLM
