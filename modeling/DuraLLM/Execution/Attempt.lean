import DuraLLM.Execution.Effects

/-! # Preparing an attempt

The state of the retry loop of `GatewayExecutor.execute`, and one pass of it up
to breaker admission: selection, the wait for a rate limit to roll over, sizing,
the failover plan, the prepared request and the budget.  None of it touches a
permit.
-/

namespace DuraLLM

/-- `int(x)` -/
def truncate (x : ℚ) : Int := if 0 ≤ x then x.floor else x.ceil

/-- What `execute` reads of the executor. The times are those set in the
    environment. -/
structure GatewayExecutor (Json : Type) where
  hasPoolManager : Bool := false
  hasAttemptStore : Bool := false
  recordsQuotaLockouts : Bool := false
  maxResponseChars : Nat := 5000000
  perAttemptTimeoutMs : ℚ := 120000
  totalTimeoutMs : Option ℚ := none
  computePrefixHash : NormalizedRequest Json → String

/-- What stays the same through one call of `execute`. -/
structure ExecuteCall (Json : Type) where
  executor : GatewayExecutor Json
  pool : String
  strategy : Option String
  keys : Dict String String
  prefixHash : String
  requirements : RequirementVector
  deadline : Deadline

structure LoopState (Json : Type) where
  request : NormalizedRequest Json
  ledger : AttemptLedger := {}
  excludedEndpoints : List String := []
  attemptIdx : Nat := 0
  lastFailureReason : Option FallbackReason := none
  lastEndpoint : Option Endpoint := none
  fallbackMarked : Bool := false
  windowShrink : Dict String ℚ := .empty
  outputCapRetried : List String := []
  rateLimitWaits : Nat := 0

/-- An attempt ready to be dispatched. -/
structure Dispatch (Json Decision : Type) where
  endpoint : Endpoint
  decision : Decision
  profile : ModelProfile
  adaptedRequest : NormalizedRequest Json
  adapter : Adapter
  keyId : Option String
  prepared : PreparedRequest
  timeoutSeconds : ℚ
  attempt : AttemptRecord
  reservation : Option Reservation

variable {Json Decision : Type}

open Raising (ofLocal)

namespace LoopState

def exclude (s : LoopState Json) (endpoint : Endpoint) : LoopState Json :=
  { s with excludedEndpoints := s.excludedEndpoints ++ [endpoint.id] }

/-- Exclude an endpoint that may be excluded already. -/
def excludeOnce (s : LoopState Json) (endpointId : String) : LoopState Json :=
  if endpointId ∈ s.excludedEndpoints then s
  else { s with excludedEndpoints := s.excludedEndpoints ++ [endpointId] }

end LoopState

/-! ## Before admission -/

def Deadline.check (d : Deadline) : Raising Json Decision Unit := do
  if d.isExpired (← ofLocal Local.monotonic) then
    -- The text of the exception and its field read the clock once more each.
    let _shown ← ofLocal Local.monotonic
    throw (.deadlineExceeded d.totalTimeoutMs (d.elapsedMs (← ofLocal Local.monotonic)))

def FailoverReason.isRateLimit : FailoverReason → Bool
  | .rateLimit | .upstreamRateLimit => true
  | _ => false

/-- A rate limit that a short wait may lift. -/
def FailureClassification.isTemporaryRateLimit (failure : FailureClassification) : Bool :=
  failure.reason.isRateLimit && !failure.isPermanent &&
    (match failure.retryAfterSeconds with
      | none => true
      | some seconds => seconds < 300)

/-- The excluded endpoints that were only rate limited, and the delays they
    asked for. -/
structure Rollover where
  endpoints : List String := []
  delays : List Seconds := []

namespace Rollover

def add (excluded : List String) (r : Rollover) (attempt : AttemptRecord) : Rollover :=
  match attempt.failure with
  | none => r
  | some failure =>
      if attempt.endpointId ∈ excluded ∧ failure.isTemporaryRateLimit ∧
          attempt.endpointId ∉ r.endpoints then
        { endpoints := r.endpoints ++ [attempt.endpointId]
          delays := r.delays ++ (failure.retryAfterSeconds.filter (· ≠ 0)).toList }
      else r

def waitSeconds (r : Rollover) (remaining : Seconds) : Seconds :=
  max 2 (min (min (r.delays.min?.getD 8) 15) (remaining - 5))

end Rollover

def reopenLanes (pool endpointId : String) : Local Json Decision Unit := do
  (← Local.endpointsForPool pool).forM fun endpoint =>
    match endpoint.resourceLane with
    | some lane =>
        if endpoint.id = endpointId ∧ lane ≠ "" then Local.keep (.setLaneAvailable lane) else pure ()
    | none => pure ()

/-- No candidate is left: wait for the rate limits to roll over, or give up. -/
def rollOver (call : ExecuteCall Json) (s : LoopState Json) :
    Raising Json Decision (LoopState Json) := do
  let rollover := s.ledger.attempts.foldl (Rollover.add s.excludedEndpoints) {}
  let remaining := call.deadline.remainingMs (← ofLocal Local.monotonic) / 1000
  if rollover.endpoints ≠ [] ∧ s.rateLimitWaits < 3 ∧ 10 < remaining then
    let wait := rollover.waitSeconds remaining
    ofLocal do
      Local.event (.rateLimitRolloverWait call.pool rollover.endpoints wait (s.rateLimitWaits + 1))
      Local.keep (.sleep wait)
      rollover.endpoints.forM (reopenLanes call.pool)
    let (ledger, raised) := s.ledger.resetForRateLimitRetry (← ofLocal Local.policy) rollover.endpoints
    ofLocal (raised.forM fun bound => Local.keep (.setMaxTotalAttempts bound))
    return { s with
      ledger
      excludedEndpoints := rollover.endpoints.foldl List.erase s.excludedEndpoints
      rateLimitWaits := s.rateLimitWaits + 1
      lastFailureReason := some .rateLimitRolloverRetry }
  else
    ofLocal (Local.event (.requestExhausted s.request.requestId call.pool s.ledger.totalAttempts
      s.lastFailureReason (some (if s.excludedEndpoints ≠ [] then "no healthy candidate left"
        else "no candidate matches requirements"))))
    throw (.noHealthyRoute ("No healthy candidate available in pool '" ++ call.pool ++ "'") call.pool)

/-- The budget of one attempt under the assumed window. -/
def contextBudget [JsonCodec Json] (profile : ModelProfile) (shrink : ℚ)
    (request : NormalizedRequest Json) : ContextBudget :=
  let targetContext := truncate (profile.contextWindow * shrink)
  let maxSupportedOut := orNumber (some profile.maxOutputTokens) 4096
  let desiredOutput := min (orNumber request.maxOutputTokens maxSupportedOut) maxSupportedOut
  let safetyMargin :=
    if 8000 < targetContext then 2048 else min 512 (truncate (targetContext * (1 / 10)))
  let estIn : Int := estimateTokens request
  { modelContextWindow := targetContext
    desiredOutputTokens :=
      if targetContext - safetyMargin - desiredOutput < estIn ∧ 1024 < desiredOutput then
        max 1024 (min desiredOutput (targetContext - safetyMargin - estIn))
      else desiredOutput
    safetyMarginTokens := safetyMargin }

/-- The adapted request and whether it was compacted; `none` where the protected
    context does not fit. -/
def compactRequest (request : NormalizedRequest Json) (budget : ContextBudget) :
    Raising Json Decision (Option (NormalizedRequest Json × Bool)) :=
  ExceptT.mk do
    match ← Local.compact request budget with
    | .ok (adapted, wasCompacted) =>
        pure (.ok (some ({ adapted with maxOutputTokens := some budget.desiredOutputTokens },
          wasCompacted)))
    | .error (.contextOverflow _ _) => pure (.ok none)
    | .error e => pure (.error e)

/-- Switching endpoints counts as a hop and is announced. -/
def recordFailover [JsonCodec Json] (call : ExecuteCall Json) (s : LoopState Json)
    (endpoint : Endpoint) (adapted : NormalizedRequest Json) (wasCompacted : Bool) :
    Local Json Decision (LoopState Json) :=
  match s.lastEndpoint with
  | none => pure s
  | some last =>
      if last.id = endpoint.id then pure s
      else do
        let reason := s.lastFailureReason.getD .endpointFailover
        let remaining := call.deadline.remainingMs (← Local.monotonic)
        let planId ← Local.newPlanId
        let plan : FailoverPlan :=
          { planId
            requestId := s.request.requestId
            sourceEndpoint := last.id
            targetEndpoint := endpoint.id
            failoverReason := reason
            contextTokensBefore := estimateTokens s.request
            contextTokensAfter := estimateTokens adapted
            contextCompactionApplied := wasCompacted
            remainingDeadlineMs := remaining
            createdAtMonotonic := ← Local.monotonic }
        Local.event (.failoverTriggered s.request.requestId last.id endpoint.id reason)
        let timestamp ← Local.wallTime
        Local.keep (.notifyFailoverListeners s.request.requestId last.id endpoint.id reason timestamp)
        let ledger := if s.fallbackMarked then s.ledger else s.ledger.markFallback
        return { s with ledger := ledger.recordFailoverPlan plan, fallbackMarked := false }

inductive BudgetVerdict where
  | unlimited
  | denied
  | reserved (reservation : Reservation)

/-- Reserve the maximum expected cost of the turn before dispatch. -/
def reserveBudget (call : ExecuteCall Json) (request : NormalizedRequest Json)
    (profile : ModelProfile) (attemptId : String) : Raising Json Decision BudgetVerdict :=
  match call.requirements.budgetLimitUsd with
  | none => pure .unlimited
  | some limit => do
      let reservationId := request.requestId ++ ":" ++ attemptId
      let amount := call.requirements.estimatedCostUsd profile
      match ← ofLocal (Local.reserve reservationId
          (orText call.requirements.budgetScope request.requestId) amount limit) with
      | .refused _ => throw (.valueError "budget amounts must be non-negative")
      | .denied => return .denied
      | .reserved nonneg => return .reserved ⟨reservationId, amount, nonneg⟩

/-- `keys.get(endpoint.env_key, "") if endpoint.env_key else ""` -/
def unsplitKey (keys : Dict String String) (endpoint : Endpoint) : String :=
  match endpoint.envKey with
  | none => ""
  | some envKey => if envKey = "" then "" else (keys.get envKey).getD ""

inductive Preparation (Json Decision : Type) where
  /-- `continue` -/
  | skipped (s : LoopState Json)
  | ready (s : LoopState Json) (d : Dispatch Json Decision)

/-- The request for the chosen endpoint, up to the reservation of its budget. -/
def prepareDispatch (call : ExecuteCall Json) (s : LoopState Json) (endpoint : Endpoint)
    (decision : Decision) (profile : ModelProfile) (adapted : NormalizedRequest Json)
    (wasCompacted : Bool) : Raising Json Decision (Preparation Json Decision) := do
  let s := { s with lastEndpoint := some endpoint }
  let adapter ← Raising.getAdapter endpoint
  let (keyVal, keyId) ← ofLocal (Local.getActiveKey endpoint call.keys)
  let prepared ← Raising.prepareRequest adapter endpoint adapted
    (keyVal.getD (unsplitKey call.keys endpoint))
  call.deadline.check
  let timeoutSeconds := call.deadline.attemptTimeout (← ofLocal Local.monotonic) endpoint.provider
    call.requirements.estimatedInputTokens
  let attemptId ← ofLocal Local.newAttemptId
  let attempt : AttemptRecord :=
    { attemptId
      requestId := s.request.requestId
      endpointId := endpoint.id
      provider := endpoint.provider
      model := endpoint.model
      attemptIndex := s.attemptIdx
      fallbackIndex := s.ledger.fallbackCount
      compacted := wasCompacted
      startTimeMonotonic := ← ofLocal Local.monotonic }
  let ready (reservation : Option Reservation) : Preparation Json Decision :=
    .ready s { endpoint, decision, profile, adaptedRequest := adapted, adapter, keyId, prepared,
               timeoutSeconds, attempt, reservation }
  match ← reserveBudget call s.request profile attemptId with
  | .unlimited => return ready none
  | .reserved reservation => return ready (some reservation)
  | .denied =>
      return .skipped { s.exclude endpoint with lastFailureReason := some .budgetReservationDenied }

/-- One pass of the loop up to breaker admission. -/
def prepareAttempt [JsonCodec Json] (call : ExecuteCall Json) (s : LoopState Json) :
    Raising Json Decision (Preparation Json Decision) := do
  let s := { s with attemptIdx := s.attemptIdx + 1 }
  call.deadline.check
  let (candidate, decision) ← Raising.selectCandidate call.requirements call.pool call.strategy
    s.request.requestId s.excludedEndpoints s.lastFailureReason
  match candidate with
  | none => return .skipped (← rollOver call s)
  | some endpoint =>
      match s.ledger.validateNextCandidate (← ofLocal Local.policy) endpoint.id with
      | .error _ => return .skipped (s.exclude endpoint)
      | .ok () =>
          let profile ← match endpoint.profile with
            | some profile => pure profile
            | none => ofLocal (Local.getProfile endpoint.provider endpoint.model)
          let shrink := (s.windowShrink.get endpoint.id).getD 1
          match ← compactRequest s.request (contextBudget profile shrink s.request) with
          | none => return .skipped (s.exclude endpoint)
          | some (adapted, wasCompacted) =>
              -- The provider rejected the size and nothing is compactable.
              if shrink < 1 ∧ !wasCompacted then return .skipped (s.exclude endpoint)
              else
                let s ← ofLocal (recordFailover call s endpoint adapted wasCompacted)
                prepareDispatch call s endpoint decision profile adapted wasCompacted

end DuraLLM
