import DuraLLM.Lib.Dict
import DuraLLM.Protocol.Ir

/-! # Policies, the attempt ledger and deadlines

The bounds on one request: how often an endpoint is retried, how many hops a
request may fall back, how long it may take.  The ledger of a request counts
what has been spent.  The policy is shared with other requests, so the ledger
is handed the policy of the moment.
-/

namespace DuraLLM

structure RetryPolicy where
  maxAttemptsSameEndpoint : Nat := 2
  baseBackoffMs : ℚ := 200
  maxBackoffMs : ℚ := 3000
  jitter : Bool := true
  deriving DecidableEq

structure FallbackPolicy where
  maxFallbackHops : Nat := 8
  deriving DecidableEq

structure ExecutionPolicy where
  retry : RetryPolicy := {}
  fallback : FallbackPolicy := {}
  maxTotalAttempts : Nat := 12
  deriving DecidableEq

/-- The cap of the exponential backoff, before jitter. -/
def RetryPolicy.backoffCapMs (policy : RetryPolicy) (attemptIndex : Nat) : ℚ :=
  min policy.maxBackoffMs (policy.baseBackoffMs * 2 ^ (attemptIndex - 1))

structure FailoverPlan where
  planId : String
  requestId : String
  sourceEndpoint : String
  targetEndpoint : String
  failoverReason : FallbackReason
  contextTokensBefore : Nat
  contextTokensAfter : Nat
  contextCompactionApplied : Bool
  remainingDeadlineMs : ℚ
  createdAtMonotonic : Seconds
  deriving DecidableEq

structure AttemptLedger where
  attempts : List AttemptRecord := []
  endpointsAttempted : List String := []
  endpointCounts : Dict String Nat := .empty
  fallbackCount : Nat := 0
  accumulatedCostUsd : ℚ := 0
  failoverPlans : List FailoverPlan := []

/-- Why the ledger turns the next candidate down. -/
inductive LedgerRejection where
  | retryBudgetExhausted
  | fallbackBudgetExhausted
  | cycleDetected (endpointId : String)
  deriving DecidableEq

namespace AttemptLedger

def recordFailoverPlan (ledger : AttemptLedger) (plan : FailoverPlan) : AttemptLedger :=
  { ledger with failoverPlans := ledger.failoverPlans ++ [plan] }

def addCost (ledger : AttemptLedger) (costUsd : ℚ) : AttemptLedger :=
  { ledger with accumulatedCostUsd := ledger.accumulatedCostUsd + max 0 costUsd }

def totalAttempts (ledger : AttemptLedger) : Nat := ledger.attempts.length

def attemptsOn (ledger : AttemptLedger) (endpointId : String) : Nat :=
  (ledger.endpointCounts.get endpointId).getD 0

def recordAttempt (ledger : AttemptLedger) (record : AttemptRecord) : AttemptLedger :=
  { ledger with
    attempts := ledger.attempts ++ [record]
    endpointsAttempted := ledger.endpointsAttempted ++ [record.endpointId]
    endpointCounts :=
      ledger.endpointCounts.set record.endpointId (ledger.attemptsOn record.endpointId + 1) }

def canAttemptEndpoint (ledger : AttemptLedger) (policy : ExecutionPolicy) (endpointId : String) :
    Bool :=
  ledger.totalAttempts < policy.maxTotalAttempts &&
    ledger.attemptsOn endpointId < policy.retry.maxAttemptsSameEndpoint

def validateNextCandidate (ledger : AttemptLedger) (policy : ExecutionPolicy)
    (endpointId : String) : Except LedgerRejection Unit :=
  if policy.maxTotalAttempts ≤ ledger.totalAttempts then .error .retryBudgetExhausted
  else if policy.fallback.maxFallbackHops ≤ ledger.fallbackCount then
    .error .fallbackBudgetExhausted
  else
    -- A → B → A is prohibited.
    match ledger.endpointsAttempted.reverse with
    | previous :: earlier =>
        if endpointId ≠ previous ∧ endpointId ∈ earlier then .error (.cycleDetected endpointId)
        else .ok ()
    | [] => .ok ()

def markFallback (ledger : AttemptLedger) : AttemptLedger :=
  { ledger with fallbackCount := ledger.fallbackCount + 1 }

/-- The second component is the policy's new `max_total_attempts`, where the
    reset raises it. -/
def resetForRateLimitRetry (ledger : AttemptLedger) (policy : ExecutionPolicy)
    (endpointIds : List String) : AttemptLedger × Option Nat :=
  ({ ledger with
     endpointCounts := endpointIds.foldl (fun counts id => counts.set id 0) ledger.endpointCounts
     endpointsAttempted := ledger.endpointsAttempted.filter fun id => id ∉ endpointIds
     fallbackCount := 0 },
    if policy.maxTotalAttempts ≤ ledger.attempts.length then
      some (ledger.attempts.length + endpointIds.length * 2)
    else none)

/-- Record the last attempt once more. The ledger holds the record itself, so
    that what was changed in between shows in both entries. -/
def recordAgain (ledger : AttemptLedger) (record : AttemptRecord) : AttemptLedger :=
  { ledger with attempts := ledger.attempts.dropLast ++ [record] }.recordAttempt record

end AttemptLedger

/-- The configured times are those left by the environment variables. -/
structure Deadline where
  totalTimeoutMs : ℚ := 300000
  connectTimeoutMs : ℚ := 10000
  tlsTimeoutMs : ℚ := 10000
  ttftTimeoutMs : ℚ := 60000
  idleStreamTimeoutMs : ℚ := 35000
  perAttemptTimeoutMs : ℚ := 120000
  startTimeMonotonic : Seconds
  deriving DecidableEq

structure TransportTimeouts where
  connectTimeoutMs : ℚ
  tlsTimeoutMs : ℚ
  firstByteTimeoutMs : ℚ
  idleTimeoutMs : ℚ
  totalTimeoutMs : ℚ
  deriving DecidableEq

namespace Deadline

def elapsedMs (d : Deadline) (now : Seconds) : ℚ := max 0 ((now - d.startTimeMonotonic) * 1000)

def remainingMs (d : Deadline) (now : Seconds) : ℚ := max 0 (d.totalTimeoutMs - d.elapsedMs now)

def isExpired (d : Deadline) (now : Seconds) : Bool := d.remainingMs now ≤ 0

/-- The attempt timeout of a provider, before the remaining time bounds it. -/
def targetSeconds (d : Deadline) (provider : String) (estimatedInputTokens : Int) : ℚ :=
  let base := d.perAttemptTimeoutMs / 1000
  let p := provider.toLower
  let tier :=
    if p ∈ ["nvidia", "sambanova", "cerebras"] then min 90 (max base (if 45 ≤ base then 45 else base))
    else if p = "groq" then min 35 base
    else base
  if 30 ≤ base then
    if 16000 < estimatedInputTokens then min (tier + 25) 90
    else if 8000 < estimatedInputTokens then min (tier + 15) 75
    else tier
  else tier

def attemptTimeout (d : Deadline) (now : Seconds) (provider : String)
    (estimatedInputTokens : Int) : ℚ :=
  max (1 / 10) (min (d.targetSeconds provider estimatedInputTokens) (d.remainingMs now / 1000))

/-- The phase budgets of a stream, which may outlive the ceiling of an attempt. -/
def streamTimeouts (d : Deadline) (now : Seconds) : TransportTimeouts :=
  let total := max 1 (d.remainingMs now)
  { connectTimeoutMs := min d.connectTimeoutMs total
    tlsTimeoutMs := min d.tlsTimeoutMs total
    firstByteTimeoutMs := min d.ttftTimeoutMs total
    idleTimeoutMs := min d.idleStreamTimeoutMs total
    totalTimeoutMs := total }

end Deadline

end DuraLLM
