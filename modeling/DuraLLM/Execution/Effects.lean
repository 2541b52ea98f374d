import DuraLLM.Agent.Context
import DuraLLM.Breaker.CircuitBreaker
import DuraLLM.Execution.Policy
import DuraLLM.Lib.Transcript

/-! # What the executor asks of its surroundings

The executor talks to the clock, the router, the adapters, the stores and the
breakers.  Each call is an operation, and its answer type says what the callee
may do: an answer in `Except RaisedError` may be an exception, any other call
returns.  The operations that decide the fate of a breaker permit form a
signature of their own, `permitSig`; all others are local.

Sums of money, times and token counts are exact.
-/

namespace DuraLLM

/-- The exceptions the executor raises or tells apart, with what their handlers
    read; `other` is any further exception, by its type and its text. -/
inductive RaisedError where
  | indeterminateToolOperation (logicalOperationId toolName : String)
  | contextOverflow (requiredTokens availableBudget : Int)
  | noHealthyRoute (message pool : String)
  | nonRecoverableFailure (classification : FailureClassification) (endpointId : String)
  | deadlineExceeded (deadlineMs elapsedMs : ℚ)
  | valueError (message : String)
  | other (typeName message : String)
  deriving DecidableEq

def RaisedError.isIndeterminate : RaisedError → Bool
  | .indeterminateToolOperation _ _ => true
  | _ => false

/-- A reservation the budget store has accepted. -/
structure Reservation where
  reservationId : String
  amountUsd : ℚ
  nonneg : 0 ≤ amountUsd
  deriving DecidableEq

/-- The budget store refuses negative amounts. -/
inductive ReserveAnswer (amountUsd limitUsd : ℚ) where
  | refused (negative : amountUsd < 0 ∨ limitUsd < 0)
  | denied
  | reserved (nonneg : 0 ≤ amountUsd)

/-- As `ReserveAnswer`, for the settlement of a cost. -/
inductive SettleAnswer (costUsd : ℚ) where
  | refused (negative : costUsd < 0)
  | settled (nonneg : 0 ≤ costUsd)

inductive ExecutorEvent where
  | rateLimitRolloverWait (pool : String) (endpoints : List String) (waitSeconds : Seconds)
      (attempt : Nat)
  | streamRateLimitRolloverWait (pool : String) (endpoints : List String) (waitSeconds : Seconds)
      (attempt : Nat)
  | requestExhausted (requestId pool : String) (attempts : Nat) (lastReason : Option FallbackReason)
      (detail : Option String)
  | failoverTriggered (requestId sourceEndpoint targetEndpoint : String) (reason : FallbackReason)
  | upstreamAttemptSucceeded (record : AttemptRecord)
  | upstreamAttemptFailed (record : AttemptRecord)
  | keyRotatedOnRateLimit (endpoint oldKey : String) (retryAfter : Option Seconds)
  | requestFailedNonRecoverable (requestId pool endpointId : String) (reason : FailoverReason)
      (attempts : Nat)

inductive AttemptStatus where
  | transportError
  | succeeded
  | blockedIndeterminateOperation
  | keyRotated429
  | failed
  | streamSucceeded
  | streamInterrupted
  | streamOpenFailed
  deriving DecidableEq, Repr

/-- The detail a finished attempt is stored with: a text, or that of an
    exception. -/
inductive AttemptDetail where
  | text (message : String)
  | exception (error : RaisedError)
  deriving DecidableEq

/-- The arguments of `health_store.record_failure`. -/
structure HealthFailure where
  endpointId : String
  latencyMs : ℚ
  statusCode : Option Nat := none
  errorMessage : String := ""
  cooldownSeconds : Option Seconds := none
  quotaExhaustedSeconds : Option Seconds := none
  isPermanent : Bool := false

/-- The calls that only leave a record somewhere. -/
inductive Bookkeeping where
  | event (event : ExecutorEvent)
  | sleep (seconds : Seconds)
  | setMaxTotalAttempts (bound : Nat)
  | notifyFailoverListeners (requestId sourceEndpoint targetEndpoint : String)
      (reason : FallbackReason) (timestamp : Seconds)
  | setLaneAvailable (laneKey : String)
  | setLaneUnavailable (laneKey : String) (reason : FailoverReason) (retryAfterSeconds : Seconds)
  | releaseReservation (reservation : Reservation)
  | settleReserved (reservation : Reservation)
  | prepareAttempt (record : AttemptRecord)
  | finishAttempt (record : AttemptRecord) (status : AttemptStatus) (detail : AttemptDetail)
  | recordHealthSuccess (endpointId : String) (latencyMs : ℚ)
  | recordHealthFailure (failure : HealthFailure)
  | recordToolOutcome (endpointId : String) (success : Bool)
  | recordRouteSuccess (pool endpointId : String)
  | markCooldown (pool endpointId : String) (seconds : Seconds)
  /-- The process-wide pool manager, which the transport-error handler uses. -/
  | markGlobalCooldown (pool endpointId : String) (seconds : Seconds)
  | markQuotaExhausted (pool routeId : String) (seconds : Seconds)
  | markProviderQuotaExhausted (pool provider : String) (seconds : Seconds)
  | markDeprecated (pool model : String)
  | recordQuotaLockout (providerId pool routeId : String) (expiresAt : Seconds) (reason : String)
  | markDead (endpointId provider model reason : String)
  | recordWarmCache (endpointId prefixHash : String)
  | recordKeyRateLimit (keyId : String) (cooldownSeconds : Option Seconds)

/-- An adapter, by the name the registry knows it under. -/
structure Adapter where
  name : String
  deriving DecidableEq

section Local

variable (Json Decision : Type)

inductive LocalOp where
  | monotonic
  | wallTime
  | secondsUntilUtcMidnight
  | uniform (low high : ℚ)
  | newAttemptId
  | newPlanId
  | policy
  | selectCandidate (requirements : RequirementVector) (pool : String) (strategy : Option String)
      (requestId : String) (excludedEndpoints : List String)
      (fallbackReason : Option FallbackReason)
  | endpointsForPool (pool : String)
  | getProfile (provider model : String)
  | compact (request : NormalizedRequest Json) (budget : ContextBudget)
  | getAdapter (provider protocol : String)
  | getActiveKey (endpoint : Endpoint) (keys : Dict String String)
  | prepareRequest (adapter : Adapter) (endpoint : Endpoint) (request : NormalizedRequest Json)
      (apiKey : String)
  | reserve (reservationId scope : String) (amountUsd limitUsd : ℚ)
  | adapterExecute (adapter : Adapter) (prepared : PreparedRequest) (timeoutSeconds : ℚ)
  | parseOutputCap (message : String)
  | parseInputTpmLimit (message : String)
  | keep (note : Bookkeeping)

def LocalOp.Answer : LocalOp Json → Type
  | .monotonic | .wallTime | .secondsUntilUtcMidnight => Seconds
  | .uniform _ _ => ℚ
  | .newAttemptId | .newPlanId => String
  | .policy => ExecutionPolicy
  | .selectCandidate _ _ _ _ _ _ => Except RaisedError (Option Endpoint × Decision)
  | .endpointsForPool _ => List Endpoint
  | .getProfile _ _ => ModelProfile
  | .compact _ _ => Except RaisedError (NormalizedRequest Json × Bool)
  | .getAdapter _ _ => Except RaisedError Adapter
  | .getActiveKey _ _ => Option String × Option String
  | .prepareRequest _ _ _ _ => Except RaisedError PreparedRequest
  | .reserve _ _ amountUsd limitUsd => ReserveAnswer amountUsd limitUsd
  | .adapterExecute _ _ _ => Except RaisedError ExecutionResult
  | .parseOutputCap _ | .parseInputTpmLimit _ => Except RaisedError (Option Nat)
  | .keep _ => Unit

def localSig : Signature where
  Op := LocalOp Json
  Ans := LocalOp.Answer Json Decision

/-- Programs that touch no permit. -/
abbrev Local (α : Type) := Prog (localSig Json Decision) α

/-- Local programs that may raise. -/
abbrev Raising (α : Type) := ExceptT RaisedError (Prog (localSig Json Decision)) α

end Local

/-! ## The operations behind a permit -/

/-- What the tool validator is handed: the parsed arguments or their source. -/
inductive ToolArguments (Json : Type) where
  | object (arguments : Json)
  | text (raw : String)

inductive ToolCallResult where
  | valid
  | normalized
  | invalid
  | unsafeToRepair
  deriving DecidableEq, Repr

structure ToolValidationReport (Json : Type) where
  status : ToolCallResult
  validatedArguments : Json
  normalizationsApplied : List String := []
  errorMessage : Option String := none

/-- Only valid or safely normalized tool calls are safe to execute. -/
def ToolValidationReport.isExecutable {Json : Type} (report : ToolValidationReport Json) : Bool :=
  report.status = .valid ∨ report.status = .normalized

section Permits

variable (Json : Type)

/-- The calls inside the `try` that reviews a response. -/
inductive ReviewOp where
  | normalizeResponse (adapter : Adapter) (endpoint : Endpoint) (result : ExecutionResult)
  | registerToolCall (toolCallId logicalOperationId toolName : String) (arguments : Json)
  | checkIdempotency (logicalOperationId toolName : String) (arguments : Json)
  | markReplayed (toolCallId : String) (receipt : Option Json)
  | hasIndeterminateOperation (logicalOperationId toolName : String) (arguments : Json)
  | markIndeterminate (toolCallId reason : String)
  | validateToolCall (toolName : String) (arguments : ToolArguments Json) (schema : Option Json)
      (knownTools : List String)
  | markFailed (toolCallId : String) (errorMessage : Option String)
  | markValidated (toolCallId : String)

def ReviewOp.Result : ReviewOp Json → Type
  | .normalizeResponse _ _ _ => NormalizedResponse Json
  | .checkIdempotency _ _ _ => Bool × Option Json
  | .hasIndeterminateOperation _ _ _ => Bool
  | .validateToolCall _ _ _ _ => ToolValidationReport Json
  | .registerToolCall _ _ _ _ | .markReplayed _ _ | .markIndeterminate _ _ | .markFailed _ _
  | .markValidated _ => Unit

/-- What `classify_failure` is handed: an exception, the body of a reply, which
    the executor decodes as UTF-8, leaving out what does not decode, or a text. -/
inductive FailureSource where
  | exception (error : RaisedError)
  | body (bytes : List UInt8)
  | text (detail : AttemptDetail)
  deriving DecidableEq

inductive PermitOp where
  | acquirePermission (breakerKey : String)
  | recordSuccess (breakerKey : String) (durationMs : ℚ)
  | recordFailure (breakerKey : String) (durationMs : ℚ) (classification : FailureClassification)
  | review (op : ReviewOp Json)
  | classifyFailure (source : FailureSource) (statusCode : Nat) (headers : List (String × String))
  | settleCost (reservationId : String) (costUsd : ℚ)
  | hasAlternativeKey (endpoint : Endpoint) (keys : Dict String String) (keyId : String)

def PermitOp.Answer : PermitOp Json → Type
  | .acquirePermission _ => Except BreakerError Unit
  | .recordSuccess _ _ | .recordFailure _ _ _ => Unit
  | .review op => Except RaisedError (op.Result)
  | .classifyFailure _ _ _ => Except RaisedError FailureClassification
  | .settleCost _ costUsd => SettleAnswer costUsd
  | .hasAlternativeKey _ _ _ => Bool

def permitSig : Signature where
  Op := PermitOp Json
  Ans := PermitOp.Answer Json

end Permits

def executorSig (Json Decision : Type) : Signature := (localSig Json Decision).sum (permitSig Json)

/-- Programs of the executor. -/
abbrev Execution (Json Decision α : Type) := Prog (executorSig Json Decision) α

/-! ## The calls under their own names -/

section Calls

variable {Json Decision : Type}

namespace Local

def ask (op : LocalOp Json) : Local Json Decision (op.Answer Json Decision) :=
  Prog.call (S := localSig Json Decision) op

def monotonic : Local Json Decision Seconds := ask .monotonic

def wallTime : Local Json Decision Seconds := ask .wallTime

def secondsUntilUtcMidnight : Local Json Decision Seconds := ask .secondsUntilUtcMidnight

def uniform (low high : ℚ) : Local Json Decision ℚ := ask (.uniform low high)

def newAttemptId : Local Json Decision String := ask .newAttemptId

def newPlanId : Local Json Decision String := ask .newPlanId

def policy : Local Json Decision ExecutionPolicy := ask .policy

def endpointsForPool (pool : String) : Local Json Decision (List Endpoint) :=
  ask (.endpointsForPool pool)

def getProfile (provider model : String) : Local Json Decision ModelProfile :=
  ask (.getProfile provider model)

def compact (request : NormalizedRequest Json) (budget : ContextBudget) :
    Local Json Decision (Except RaisedError (NormalizedRequest Json × Bool)) :=
  ask (.compact request budget)

def getActiveKey (endpoint : Endpoint) (keys : Dict String String) :
    Local Json Decision (Option String × Option String) :=
  ask (.getActiveKey endpoint keys)

def reserve (reservationId scope : String) (amountUsd limitUsd : ℚ) :
    Local Json Decision (ReserveAnswer amountUsd limitUsd) :=
  ask (.reserve reservationId scope amountUsd limitUsd)

def adapterExecute (adapter : Adapter) (prepared : PreparedRequest) (timeoutSeconds : ℚ) :
    Local Json Decision (Except RaisedError ExecutionResult) :=
  ask (.adapterExecute adapter prepared timeoutSeconds)

def keep (note : Bookkeeping) : Local Json Decision Unit := ask (.keep note)

def event (e : ExecutorEvent) : Local Json Decision Unit := keep (.event e)

end Local

namespace Raising

def ofLocal {α : Type} (p : Local Json Decision α) : Raising Json Decision α := ExceptT.lift p

def selectCandidate (requirements : RequirementVector) (pool : String) (strategy : Option String)
    (requestId : String) (excludedEndpoints : List String)
    (fallbackReason : Option FallbackReason) : Raising Json Decision (Option Endpoint × Decision) :=
  ExceptT.mk (Local.ask (.selectCandidate requirements pool strategy requestId excludedEndpoints
    fallbackReason))

def getAdapter (endpoint : Endpoint) : Raising Json Decision Adapter :=
  ExceptT.mk (Local.ask (.getAdapter endpoint.provider endpoint.protocol))

def prepareRequest (adapter : Adapter) (endpoint : Endpoint) (request : NormalizedRequest Json)
    (apiKey : String) : Raising Json Decision PreparedRequest :=
  ExceptT.mk (Local.ask (.prepareRequest adapter endpoint request apiKey))

def parseOutputCap (message : String) : Raising Json Decision (Option Nat) :=
  ExceptT.mk (Local.ask (.parseOutputCap message))

def parseInputTpmLimit (message : String) : Raising Json Decision (Option Nat) :=
  ExceptT.mk (Local.ask (.parseInputTpmLimit message))

end Raising

namespace Execution

/-- A local program as a part of the executor. -/
def ofLocal {α : Type} (p : Local Json Decision α) : Execution Json Decision α := p.inLeft

def ask (op : PermitOp Json) : Execution Json Decision (op.Answer Json) :=
  Prog.call (S := executorSig Json Decision) (.inr op)

def acquirePermission (breakerKey : String) : Execution Json Decision (Except BreakerError Unit) :=
  ask (.acquirePermission breakerKey)

def recordSuccess (breakerKey : String) (durationMs : ℚ) : Execution Json Decision Unit :=
  ask (.recordSuccess breakerKey durationMs)

def recordFailure (breakerKey : String) (durationMs : ℚ)
    (classification : FailureClassification) : Execution Json Decision Unit :=
  ask (.recordFailure breakerKey durationMs classification)

def review (op : ReviewOp Json) : Execution Json Decision (Except RaisedError (op.Result)) :=
  ask (.review op)

def classify (source : FailureSource) (statusCode : Nat) (headers : List (String × String)) :
    Execution Json Decision (Except RaisedError FailureClassification) :=
  ask (.classifyFailure source statusCode headers)

def settleCost (reservationId : String) (costUsd : ℚ) :
    Execution Json Decision (SettleAnswer costUsd) :=
  ask (.settleCost reservationId costUsd)

def hasAlternativeKey (endpoint : Endpoint) (keys : Dict String String) (keyId : String) :
    Execution Json Decision Bool :=
  ask (.hasAlternativeKey endpoint keys keyId)

end Execution

end Calls

end DuraLLM
