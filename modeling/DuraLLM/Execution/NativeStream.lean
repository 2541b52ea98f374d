import DuraLLM.Execution.Executor

/-! # Native streams

`GatewayExecutor.open_native_stream` fails over until a provider has sent its
first bytes; from then on a `NativeStreamHandle` owns the attempt, and its
client decides when the iterator runs, is closed or is cancelled.  The client
is part of the surroundings: it is asked what it does next, and it is handed
control back after each of its actions.  The calls that are made while a permit
is held form a signature of their own, `nativeSig`.
-/

namespace DuraLLM

/-- A provider's byte stream, by the name the adapter gave it. -/
structure ByteStream where
  name : String
  deriving DecidableEq

structure ProviderStreamResult where
  statusCode : Nat
  headers : List (String × String) := []
  durationMs : ℚ := 0
  stream : Option ByteStream := none
  body : List UInt8 := []
  deriving DecidableEq

/-- What a provider stream raises. -/
inductive StreamError where
  | provider (phase message : String)
  | other (error : RaisedError)
  deriving DecidableEq

namespace StreamError

def raised : StreamError → RaisedError
  | .provider _ message => .other "ProviderStreamError" message
  | .other error => error

def phase : StreamError → String
  | .provider phase _ => phase
  | .other _ => "connection"

end StreamError

/-- `next(iterator)` on a provider's byte stream. -/
inductive ChunkAnswer where
  | chunk (bytes : List UInt8)
  | stopIteration
  | raised (error : StreamError)
  deriving DecidableEq

/-- How far the generator of `iter_bytes` has run, as its client sees it. -/
inductive IteratorPhase where
  | unstarted
  | suspended
  | finished
  deriving DecidableEq, Repr

inductive ClientAction where
  | next
  | close
  | cancel
  deriving DecidableEq, Repr

section Signature

variable (Json : Type)

inductive NativeOp where
  | compact (request : NormalizedRequest Json) (budget : ContextBudget)
  | getAdapter (provider protocol : String)
  | hasOpenStream (adapter : Adapter)
  | prepareRequest (adapter : Adapter) (endpoint : Endpoint) (request : NormalizedRequest Json)
      (apiKey : String)
  /-- The clock reading of `deadline.transport_timeouts`. -/
  | transportClock (deadline : Deadline)
  | openStream (adapter : Adapter) (prepared : PreparedRequest) (timeouts : TransportTimeouts)
  | iterBytes (stream : ByteStream)
  | nextChunk (stream : ByteStream)
  /-- Close a stream that sent no bytes. -/
  | discardStream (stream : ByteStream)
  /-- The handle closes its stream. -/
  | closeStream (stream : ByteStream)
  | cancelRequest (stream : ByteStream) (reason : String)
  /-- The client is in control; `yielded` is what `next` gave it. -/
  | handBack (yielded : Option (List UInt8)) (phase : IteratorPhase) (cancelled : Bool)
  | clientAction (phase : IteratorPhase)

def NativeOp.Answer : NativeOp Json → Type
  | .compact _ _ => Except RaisedError (NormalizedRequest Json × Bool)
  | .getAdapter _ _ => Except RaisedError Adapter
  | .hasOpenStream _ => Bool
  | .prepareRequest _ _ _ _ => Except RaisedError PreparedRequest
  | .transportClock _ => Seconds
  | .openStream _ _ _ => Except RaisedError ProviderStreamResult
  | .iterBytes _ | .discardStream _ | .closeStream _ => Except RaisedError Unit
  | .nextChunk _ => ChunkAnswer
  | .cancelRequest _ _ | .handBack _ _ _ => Unit
  | .clientAction _ => ClientAction

def nativeSig : Signature where
  Op := NativeOp Json
  Ans := NativeOp.Answer Json

end Signature

def streamSig (Json Decision : Type) : Signature :=
  (executorSig Json Decision).sum (nativeSig Json)

/-- Programs that open or serve a native stream. -/
abbrev Streaming (Json Decision α : Type) := Prog (streamSig Json Decision) α

/-- Streaming programs that may raise. -/
abbrev Opening (Json Decision α : Type) := ExceptT RaisedError (Prog (streamSig Json Decision)) α

variable {Json Decision : Type}

namespace Streaming

def ofExecution {α : Type} (p : Execution Json Decision α) : Streaming Json Decision α := p.inLeft

def ofLocal {α : Type} (p : Local Json Decision α) : Streaming Json Decision α :=
  ofExecution (Execution.ofLocal p)

def ask (op : NativeOp Json) : Streaming Json Decision (op.Answer Json) :=
  Prog.call (S := streamSig Json Decision) (.inr op)

end Streaming

namespace Opening

def ofLocal {α : Type} (p : Local Json Decision α) : Opening Json Decision α :=
  ExceptT.lift (Streaming.ofLocal p)

def ofRaising {α : Type} (p : Raising Json Decision α) : Opening Json Decision α :=
  ExceptT.mk (Streaming.ofLocal p.run)

def ask (op : NativeOp Json) : Opening Json Decision (op.Answer Json) :=
  ExceptT.lift (Streaming.ask op)

/-- A call that may raise. -/
def attempt {α : Type} (call : Streaming Json Decision (Except RaisedError α)) :
    Opening Json Decision α :=
  ExceptT.mk call

def classify (source : FailureSource) (statusCode : Nat) (headers : List (String × String)) :
    Opening Json Decision FailureClassification :=
  attempt (Streaming.ofExecution (Execution.classify source statusCode headers))

end Opening

/-! ## The handle -/

structure NativeStreamHandle (Decision : Type) where
  stream : ByteStream
  firstChunk : List UInt8
  endpoint : Endpoint
  decision : Decision
  attempt : AttemptRecord
  ledger : AttemptLedger
  finished : Bool := false
  phase : IteratorPhase := .unstarted
  cancelled : Bool := false

namespace NativeStreamHandle

variable (executor : GatewayExecutor Json) (h : NativeStreamHandle Decision)

/-- The records that success and failure share. -/
def settle (record : AttemptRecord) (failure : Option FailureClassification)
    (status : AttemptStatus) (detail : AttemptDetail) :
    Local Json Decision (NativeStreamHandle Decision) := do
  recordLaneOutcome h.endpoint failure
  emitAttempt record
  finishDurableAttempt executor record status detail
  return { h with attempt := record, ledger := h.ledger.recordAttempt record }

/-- `_finish_success` -/
def finishSuccess : Streaming Json Decision (NativeStreamHandle Decision) :=
  if h.finished then pure h
  else do
    let h := { h with finished := true }
    let record ← Streaming.ofLocal (finish h.attempt true 200 none)
    Streaming.ofExecution (Execution.recordSuccess h.endpoint.resourceKey record.latencyMs)
    Streaming.ofLocal do
      Local.keep (.recordHealthSuccess h.endpoint.id record.latencyMs)
      h.settle executor record none .streamSucceeded (.text "")

/-- The status of an interrupted stream: a timeout or a lost connection. -/
def interruptedStatus (error : StreamError) : Nat :=
  if error.phase ∈ ["idle", "total", "first_byte"] then 597 else 598

/-- `_finish_failure`; the classifier is handed the text of the error. Where the
    classifier raises, nothing of it happens but the flag. -/
def finishFailure (error : StreamError) : Streaming Json Decision (NativeStreamHandle Decision) :=
  if h.finished then pure h
  else do
    let h := { h with finished := true }
    let status := interruptedStatus error
    match ← Streaming.ofExecution (Execution.classify (.text (.exception error.raised)) status []) with
    | .error _ => return h
    | .ok classified =>
        let record ← Streaming.ofLocal (finish h.attempt false status (some classified))
        Streaming.ofExecution
          (Execution.recordFailure h.endpoint.resourceKey record.latencyMs classified)
        Streaming.ofLocal do
          Local.keep (.recordHealthFailure
            { endpointId := h.endpoint.id
              latencyMs := record.latencyMs
              errorMessage := clip 160 classified.message
              cooldownSeconds := some 30 })
          h.settle executor record (some classified) .streamInterrupted (.exception error.raised)

/-- The end of the generator: its `finally` closes the stream. -/
def finishIterator (ended : Streaming Json Decision (NativeStreamHandle Decision)) :
    Streaming Json Decision (NativeStreamHandle Decision) := do
  let h ← ended
  let _ ← Streaming.ask (.closeStream h.stream)
  return { h with phase := .finished }

/-- Run the generator from its suspension to its next `yield`, over empty
    chunks; `none` where the fuel does not suffice. -/
def resume : Nat → Streaming Json Decision (Option (Option (List UInt8) × NativeStreamHandle Decision))
  | 0 => return none
  | fuel + 1 => do
      match ← Streaming.ask (.nextChunk h.stream) with
      | .chunk [] => resume fuel
      | .chunk (byte :: bytes) => return some (some (byte :: bytes), h)
      | .stopIteration => return some (none, ← finishIterator (h.finishSuccess executor))
      | .raised error => return some (none, ← finishIterator (h.finishFailure executor error))

/-- What closing a suspended generator raises at its `yield`. -/
def generatorExit : StreamError := .other (.other "GeneratorExit" "")

/-- One action of the client. -/
def act (fuel : Nat) : ClientAction →
    Streaming Json Decision (Option (Option (List UInt8) × NativeStreamHandle Decision))
  | .next =>
      match h.phase with
      | .unstarted => return some (some h.firstChunk, { h with phase := .suspended })
      | .suspended => h.resume executor fuel
      | .finished => return some (none, h)
  | .close =>
      match h.phase with
      | .unstarted => return some (none, { h with phase := .finished })
      | .suspended => do
          return some (none, ← finishIterator (h.finishFailure executor generatorExit))
      | .finished => return some (none, h)
  | .cancel => do
      Streaming.ask (.cancelRequest h.stream "downstream client disconnected")
      let _ ← Streaming.ask (.closeStream h.stream)
      return some (none, { h with cancelled := true })

end NativeStreamHandle

/-- The client acts `steps` times; `fuel` bounds the empty chunks that one
    `next` skips. -/
def serve (executor : GatewayExecutor Json) (fuel : Nat) :
    Nat → Option (List UInt8) → NativeStreamHandle Decision → Streaming Json Decision Unit
  | 0, yielded, h => Streaming.ask (.handBack yielded h.phase h.cancelled)
  | steps + 1, yielded, h => do
      Streaming.ask (.handBack yielded h.phase h.cancelled)
      let action ← Streaming.ask (.clientAction h.phase)
      match ← h.act executor fuel action with
      | none => pure ()
      | some (yielded, h) => serve executor fuel steps yielded h

/-! ## Opening a stream -/

/-- What stays the same through one call of `open_native_stream`. `asEventStream`
    sets the streaming flag in the body of a request; it has no result on what
    is no JSON object. -/
structure StreamCall (Json : Type) where
  call : ExecuteCall Json
  clientProtocol : String
  asEventStream : List UInt8 → Option (List UInt8)

/-- How a pass of the loop ends. -/
inductive StreamPass (Json Decision : Type) where
  | next (s : LoopState Json)
  | opened (handle : NativeStreamHandle Decision)
  /-- `break` -/
  | exhausted

inductive StreamResult (Decision : Type) where
  | opened (handle : NativeStreamHandle Decision)
  | raised (error : RaisedError)
  | outOfFuel

/-- Exclude the endpoint and say why. -/
def LoopState.excludeFor (s : LoopState Json) (endpoint : Endpoint) (reason : FallbackReason) :
    LoopState Json :=
  { s.exclude endpoint with lastFailureReason := some reason }

/-- As in `execute`, but without candidates and rate limits the loop is left. -/
def rollOverStream (call : ExecuteCall Json) (s : LoopState Json) :
    Local Json Decision (StreamPass Json Decision) := do
  let rollover := s.ledger.attempts.foldl (Rollover.add s.excludedEndpoints) {}
  let remaining := call.deadline.remainingMs (← Local.monotonic) / 1000
  if rollover.endpoints ≠ [] ∧ s.rateLimitWaits < 3 ∧ 10 < remaining then
    let wait := rollover.waitSeconds remaining
    Local.event (.streamRateLimitRolloverWait call.pool rollover.endpoints wait (s.rateLimitWaits + 1))
    Local.keep (.sleep wait)
    rollover.endpoints.forM (reopenLanes call.pool)
    let (ledger, raised) := s.ledger.resetForRateLimitRetry (← Local.policy) rollover.endpoints
    raised.forM fun bound => Local.keep (.setMaxTotalAttempts bound)
    return .next { s with
      ledger
      excludedEndpoints := rollover.endpoints.foldl List.erase s.excludedEndpoints
      rateLimitWaits := s.rateLimitWaits + 1
      lastFailureReason := some .rateLimitRolloverRetry }
  else return .exhausted

/-- The output that fits into the window beside the request. -/
def streamBudget [JsonCodec Json] (profile : ModelProfile) (request : NormalizedRequest Json) :
    ContextBudget :=
  let maxSupportedOut := orNumber (some profile.maxOutputTokens) 4096
  let desiredOutput := min (orNumber request.maxOutputTokens maxSupportedOut) maxSupportedOut
  let estIn : Int := estimateTokens request
  { modelContextWindow := profile.contextWindow
    desiredOutputTokens :=
      if profile.contextWindow - 2048 - desiredOutput < estIn ∧ 1024 < desiredOutput then
        max 1024 (min desiredOutput (profile.contextWindow - 2048 - estIn))
      else desiredOutput
    safetyMarginTokens := 2048 }

/-- Assign to a header, in place where it is set already. -/
def setHeader (headers : List (String × String)) (name value : String) : List (String × String) :=
  if headers.any (·.1 = name) then headers.map fun h => if h.1 = name then (name, value) else h
  else headers ++ [(name, value)]

/-- `_streaming_prepared_request` -/
def streamingPreparedRequest (asEventStream : List UInt8 → Option (List UInt8))
    (prepared : PreparedRequest) : Except RaisedError PreparedRequest :=
  match asEventStream prepared.bodyBytes with
  | none =>
      .error (.other "ConfigurationError"
        "Provider request cannot be converted into a native stream")
  | some bodyBytes =>
      .ok { prepared with
        bodyBytes
        headers := setHeader prepared.headers "Accept" "text/event-stream" }

/-- `deadline.transport_timeouts(streaming=True)` -/
def transportTimeouts (deadline : Deadline) : Opening Json Decision TransportTimeouts := do
  let now ← Opening.ask (.transportClock deadline)
  if deadline.isExpired now then
    let _shown ← Opening.ofLocal Local.monotonic
    throw (.deadlineExceeded deadline.totalTimeoutMs
      (deadline.elapsedMs (← Opening.ofLocal Local.monotonic)))
  else return deadline.streamTimeouts (← Opening.ofLocal Local.monotonic)

/-- The first bytes of a stream, or the error in their place. -/
def firstBytes (stream : ByteStream) :
    Opening Json Decision (Except (Option StreamError) (List UInt8)) := do
  Opening.attempt (Streaming.ask (.iterBytes stream))
  match ← Opening.ask (.nextChunk stream) with
  | .chunk [] => return .error none
  | .chunk (byte :: bytes) => return .ok (byte :: bytes)
  | .stopIteration =>
      return .error (some (.provider "first_byte" "provider closed an empty stream"))
  | .raised error => return .error (some error)

/-- What the classifier is handed for a stream without first bytes. -/
def emptyStreamFailure : Option StreamError → FailureSource × Nat
  | none => (.text (.text "provider returned an empty stream"), 502)
  | some (.provider phase message) => (.exception (StreamError.provider phase message).raised, 597)
  | some (.other error) => (.exception error, 502)

section Pass

variable (call : ExecuteCall Json) (s : LoopState Json) (endpoint : Endpoint)

/-- Billing failures lock the quota out in the pool manager, and an account-wide
    one excludes every endpoint of the provider. -/
def recordStreamBilling (classified : FailureClassification) :
    Local Json Decision (LoopState Json) :=
  match quotaSeconds classified with
  | none => pure s
  | some quota => do
      let accountWide := isAccountWide endpoint classified
      let retrySec ←
        if quota ≠ 0 then pure quota
        else if accountWide then Local.secondsUntilUtcMidnight
        else pure 86400
      if call.executor.hasPoolManager then
        Local.keep (.markQuotaExhausted call.pool (routeId endpoint) retrySec)
        if accountWide then
          Local.keep (.markProviderQuotaExhausted call.pool endpoint.provider retrySec)
      if accountWide then
        let endpoints ← Local.endpointsForPool call.pool
        let ofProvider := endpoints.filter fun e => e.provider.toLower = endpoint.provider.toLower
        return ofProvider.foldl (fun s e => s.excludeOnce e.id) s
      else return s

/-- Everything a stream that failed to open leaves in the stores. -/
def recordStreamFailure (record : AttemptRecord) (classified : FailureClassification) :
    Local Json Decision (LoopState Json) := do
  Local.keep (.recordHealthFailure
    { endpointId := endpoint.id
      latencyMs := record.latencyMs
      errorMessage := clip 160 classified.message
      quotaExhaustedSeconds := quotaSeconds classified
      isPermanent := classified.isPermanent })
  let s ← recordStreamBilling call s endpoint classified
  let s ← recordPermanent call s endpoint classified
  recordLaneOutcome endpoint (some classified)
  emitAttempt record
  finishDurableAttempt call.executor record .streamOpenFailed (.text classified.message)
  return { s with
    ledger := s.ledger.recordAttempt record
    lastFailureReason := some (.failure classified.reason) }

/-- The route has failed over: cool it down and exclude it. -/
def leaveStreamRoute (classified : FailureClassification) : Local Json Decision (LoopState Json) := do
  match cooldownSeconds classified with
  | none => pure ()
  | some seconds =>
      Local.keep (.recordHealthFailure
        { endpointId := endpoint.id, latencyMs := 0, cooldownSeconds := some seconds })
      if call.executor.hasPoolManager then
        Local.keep (.markCooldown call.pool endpoint.id seconds)
  return { s.exclude endpoint with ledger := s.ledger.markFallback }

/-- Retry the route after a wait, or leave it. -/
def retryStream (classified : FailureClassification) : Local Json Decision (LoopState Json) := do
  let policy ← Local.policy
  if classified.retryable ∧ s.ledger.canAttemptEndpoint policy endpoint.id then
    let backoff ← computeBackoffSeconds policy.retry (s.ledger.attemptsOn endpoint.id)
      classified.retryAfterSeconds
    if backoff < call.deadline.remainingMs (← Local.monotonic) / 1000 then
      Local.keep (.sleep backoff)
      endpoint.resourceLane.forM fun lane => Local.keep (.setLaneAvailable lane)
      return s
    else leaveStreamRoute call s endpoint classified
  else leaveStreamRoute call s endpoint classified

/-- A stream that was not opened, or sent no bytes. -/
def failStream (attempt : AttemptRecord) (source : FailureSource) (statusCode : Nat)
    (headers : List (String × String)) : Opening Json Decision (StreamPass Json Decision) := do
  let classified ← Opening.classify source statusCode headers
  let record ← Opening.ofLocal (finish attempt false statusCode (some classified))
  ExceptT.lift (Streaming.ofExecution
    (Execution.recordFailure endpoint.resourceKey record.latencyMs classified))
  let s ← Opening.ofLocal (recordStreamFailure call s endpoint record classified)
  if !classified.shouldFallback then throw (.nonRecoverableFailure classified endpoint.id)
  else return .next (← Opening.ofLocal (retryStream call s endpoint classified))

/-- The reply to `open_stream`. -/
def handleStream (decision : Decision) (attempt : AttemptRecord) (result : ProviderStreamResult) :
    Opening Json Decision (StreamPass Json Decision) := do
  match result.stream.filter fun _ => result.statusCode = 200 with
  | none => failStream call s endpoint attempt (.body result.body) result.statusCode result.headers
  | some stream =>
      match ← firstBytes stream with
      | .ok firstChunk =>
          let _ttft ← Opening.ofLocal Local.monotonic
          if call.executor.hasPoolManager then
            Opening.ofLocal (Local.keep (.recordRouteSuccess call.pool endpoint.id))
          return .opened { stream, firstChunk, endpoint, decision, attempt, ledger := s.ledger }
      | .error error =>
          Opening.attempt (Streaming.ask (.discardStream stream))
          let (source, status) := emptyStreamFailure error
          failStream call s endpoint attempt source status result.headers

/-- From the prepared request on. -/
def openStream (decision : Decision) (adapter : Adapter) (prepared : PreparedRequest)
    (wasCompacted : Bool) : Opening Json Decision (StreamPass Json Decision) := do
  let attemptId ← Opening.ofLocal Local.newAttemptId
  let attempt : AttemptRecord :=
    { attemptId
      requestId := s.request.requestId
      endpointId := endpoint.id
      provider := endpoint.provider
      model := endpoint.model
      attemptIndex := s.attemptIdx
      fallbackIndex := s.ledger.fallbackCount
      compacted := wasCompacted
      startTimeMonotonic := ← Opening.ofLocal Local.monotonic }
  Opening.ofLocal (prepareDurableAttempt call.executor attempt)
  let timeouts ← transportTimeouts call.deadline
  let result ← Opening.attempt (Streaming.ask (.openStream adapter prepared timeouts))
  handleStream call s endpoint decision attempt result

end Pass

/-- From the granted permit on: compaction, adapter, key and request come after
    admission here. -/
def dispatchStream [JsonCodec Json] (stream : StreamCall Json) (s : LoopState Json)
    (endpoint : Endpoint) (decision : Decision) (profile : ModelProfile) :
    Opening Json Decision (StreamPass Json Decision) := do
  let budget := streamBudget profile s.request
  match ← Opening.ask (.compact s.request budget) with
  | .error (.contextOverflow _ _) => return .next (s.excludeFor endpoint .contextOverflow)
  | .error e => throw e
  | .ok (compacted, wasCompacted) =>
      let adapted := { compacted with maxOutputTokens := some budget.desiredOutputTokens }
      let adapter ← Opening.attempt
        (Streaming.ask (.getAdapter endpoint.provider endpoint.protocol))
      if !(← Opening.ask (.hasOpenStream adapter)) then
        return .next (s.excludeFor endpoint .adapterHasNoNativeStream)
      else
        let (keyVal, _) ← Opening.ofLocal (Local.getActiveKey endpoint stream.call.keys)
        let prepared ← Opening.attempt (Streaming.ask (.prepareRequest adapter endpoint adapted
          (keyVal.getD (unsplitKey stream.call.keys endpoint))))
        let prepared ← Opening.attempt
          (pure (streamingPreparedRequest stream.asEventStream prepared))
        openStream stream.call s endpoint decision adapter prepared wasCompacted

/-- Admission comes before every other check. -/
def admitStream [JsonCodec Json] (stream : StreamCall Json) (s : LoopState Json)
    (endpoint : Endpoint) (decision : Decision) (profile : ModelProfile) :
    Opening Json Decision (StreamPass Json Decision) := do
  match s.ledger.validateNextCandidate (← Opening.ofLocal Local.policy) endpoint.id with
  | .error _ => return .next (s.excludeFor endpoint .streamRouteRejected)
  | .ok () =>
      match ← ExceptT.lift (Streaming.ofExecution
          (Execution.acquirePermission endpoint.resourceKey)) with
      | .error _ => return .next (s.excludeFor endpoint .breakerAdmissionDenied)
      | .ok () => dispatchStream stream s endpoint decision profile

def streamPass [JsonCodec Json] (stream : StreamCall Json) (s : LoopState Json) :
    Opening Json Decision (StreamPass Json Decision) := do
  let s := { s with attemptIdx := s.attemptIdx + 1 }
  Opening.ofRaising stream.call.deadline.check
  let (candidate, decision) ← Opening.ofRaising (Raising.selectCandidate stream.call.requirements
    stream.call.pool stream.call.strategy s.request.requestId s.excludedEndpoints
    s.lastFailureReason)
  match candidate with
  | none => Opening.ofLocal (rollOverStream stream.call s)
  | some endpoint =>
      if endpoint.protocol ≠ stream.clientProtocol then
        return .next (s.excludeFor endpoint .streamProtocolMismatch)
      else
        let profile ← match endpoint.profile with
          | some profile => pure profile
          | none => Opening.ofLocal (Local.getProfile endpoint.provider endpoint.model)
        if !profile.supportsStreaming then
          return .next (s.excludeFor endpoint .streamingNotSupported)
        else admitStream stream s endpoint decision profile

def noStreamRoute (pool : String) : RaisedError :=
  .noHealthyRoute ("No native streaming route is available in pool '" ++ pool ++ "'") pool

def streamLoop [JsonCodec Json] (stream : StreamCall Json) :
    Nat → LoopState Json → Streaming Json Decision (StreamResult Decision)
  | 0, _ => return .outOfFuel
  | fuel + 1, s => do
      if ← Streaming.ofLocal (mayContinue stream.call s) then
        match ← (streamPass stream s).run with
        | .error e => return .raised e
        | .ok (.next s) => streamLoop stream fuel s
        | .ok (.opened handle) => return .opened handle
        | .ok .exhausted => return .raised (noStreamRoute stream.call.pool)
      else return .raised (noStreamRoute stream.call.pool)

/-- The arguments of `open_native_stream`. -/
structure StreamRequest (Json : Type) where
  request : NormalizedRequest Json
  pool : String := "general_agent"
  strategy : Option String := none
  apiKeys : Dict String String := .empty
  clientProtocol : String := "openai"
  deadlineMs : ℚ := 300000

def StreamRequest.call [JsonCodec Json] (executor : GatewayExecutor Json)
    (args : StreamRequest Json) (asEventStream : List UInt8 → Option (List UInt8))
    (startTimeMonotonic : Seconds) : StreamCall Json :=
  let prefixHash := executor.computePrefixHash args.request
  { call :=
      { executor
        pool := args.pool
        strategy := args.strategy
        keys := args.apiKeys
        prefixHash
        requirements :=
          { requireTools := false
            taskClass := if args.pool = "coding" then "coding" else "general"
            estimatedInputTokens := estimateTokens args.request
            expectedOutputTokens := orNumber args.request.maxOutputTokens 4096
            prefixHash := some prefixHash }
        deadline :=
          { totalTimeoutMs := executor.totalTimeoutMs.getD args.deadlineMs
            perAttemptTimeoutMs := executor.perAttemptTimeoutMs
            startTimeMonotonic } }
    clientProtocol := args.clientProtocol
    asEventStream }

/-- Turns with tools are not streamed. -/
def openNativeStream [JsonCodec Json] (executor : GatewayExecutor Json) (args : StreamRequest Json)
    (asEventStream : List UInt8 → Option (List UInt8)) (fuel : Nat) :
    Streaming Json Decision (StreamResult Decision) :=
  if !args.request.tools.isEmpty then
    return .raised (.other "ConfigurationError"
      "Native streaming is unavailable for tool-bearing turns; use atomic_buffered mode")
  else do
    let start ← Streaming.ofLocal Local.monotonic
    streamLoop (args.call executor asEventStream start) fuel { request := args.request }

/-- A stream from its opening to the last of `steps` actions of its client. -/
def streamSession [JsonCodec Json] (executor : GatewayExecutor Json) (args : StreamRequest Json)
    (asEventStream : List UInt8 → Option (List UInt8)) (fuel steps : Nat) :
    Streaming Json Decision Unit := do
  match ← openNativeStream executor args asEventStream fuel with
  | .opened handle => serve executor fuel steps none handle
  | .raised _ | .outOfFuel => return ()

end DuraLLM
