import DuraLLM.Breaker.Metrics

/-! # The circuit breaker

`CircuitBreaker` and its transitions.  Every method holds the breaker's lock,
so a method is one step.  `BreakerWorld` is what the breaker reads from
outside: the readings of its clock one after the other, and what the cluster
store says about the state of the breaker elsewhere whenever it is asked.  An
error of the cluster store is caught and counts as silence.

The events are those handed to the listeners, the newest first.
-/

namespace DuraLLM

inductive CircuitBreakerState where
  | closed
  | open
  | halfOpen
  | forcedOpen
  | disabled
  | metricsOnly
  deriving DecidableEq, Repr

/-- The reason of a transition with the values its text shows. -/
inductive TransitionReason where
  | remoteTrip
  | waitElapsed (waitSeconds : Seconds)
  | probeTimeout
  | probesSucceeded (successes : Nat)
  | probeFailed (error : String)
  | failureRate (rate threshold : ℚ) (failed total : Nat)
  | slowCallRate (rate threshold : ℚ) (slow total : Nat)
  | forcedOpen
  | forcedClosed
  | disabled
  | reset
  deriving DecidableEq

structure StateTransitionEvent where
  breakerId : String
  fromState : CircuitBreakerState
  toState : CircuitBreakerState
  timestampMonotonic : Seconds
  reason : TransitionReason
  metricsSnapshot : MetricsSnapshot
  deriving DecidableEq

structure BreakerSnapshot where
  id : String
  state : CircuitBreakerState
  metrics : MetricsSnapshot
  remainingWaitSeconds : Seconds
  halfOpenInFlight : Nat
  halfOpenSuccesses : Nat
  deriving DecidableEq

inductive BreakerError where
  | forcedOpen (breakerId : String)
  | open (breakerId : String) (remainingWaitSeconds : Seconds)
  | probeAdmissionDenied (breakerId : String)
  deriving DecidableEq

structure CircuitBreakerConfig where
  failureRateThreshold : ℚ := 50
  slowCallRateThreshold : ℚ := 100
  slowCallDurationMs : ℚ := 120000
  minimumNumberOfCalls : Nat := 10
  slidingWindowType : SlidingWindowType := .countBased
  slidingWindowSize : Nat := 20
  waitDurationOpenMs : ℚ := 30000
  halfOpenMaxCalls : Nat := 2
  maxHalfOpenDurationMs : ℚ := 10000
  deriving DecidableEq

structure BreakerWorld where
  clock : Nat → Seconds
  remoteOpen : Nat → Bool := fun _ => false

/-- `reads` counts the readings of the clock. -/
structure CircuitBreaker where
  id : String
  config : CircuitBreakerConfig
  state : CircuitBreakerState := .closed
  openedAt : Seconds := 0
  halfOpenEnteredAt : Seconds := 0
  halfOpenInFlight : Nat := 0
  halfOpenSuccesses : Nat := 0
  metrics : SlidingWindowMetrics
  reads : Nat := 0
  emitted : List StateTransitionEvent := []
  deriving DecidableEq

def CircuitBreaker.new (id : String) (config : CircuitBreakerConfig) : CircuitBreaker where
  id := id
  config := config
  metrics :=
    { windowType := config.slidingWindowType
      windowSize := config.slidingWindowSize
      slowCallDurationMs := config.slowCallDurationMs }

namespace CircuitBreaker

variable (world : BreakerWorld)

/-- The next reading of the clock. -/
def now (b : CircuitBreaker) : Seconds := world.clock b.reads

def ticked (b : CircuitBreaker) : CircuitBreaker := { b with reads := b.reads + 1 }

def emitTransition (b : CircuitBreaker) (fromState : CircuitBreakerState)
    (reason : TransitionReason) : CircuitBreaker :=
  let now := b.now world
  let (metricsSnapshot, metrics) := b.metrics.snapshot now
  { b.ticked with
    metrics
    emitted :=
      { breakerId := b.id, fromState, toState := b.state, timestampMonotonic := now, reason,
        metricsSnapshot } :: b.emitted }

/-- The wait of an open breaker is over. -/
def WaitOver (b : CircuitBreaker) (now : Seconds) : Prop :=
  b.openedAt + b.config.waitDurationOpenMs / 1000 ≤ now

/-- The half-open time is over and no probe is in flight. -/
def ProbesTimedOut (b : CircuitBreaker) (now : Seconds) : Prop :=
  b.config.maxHalfOpenDurationMs / 1000 < now - b.halfOpenEnteredAt ∧ b.halfOpenInFlight = 0

instance (b : CircuitBreaker) (now : Seconds) : Decidable (b.WaitOver now) :=
  inferInstanceAs (Decidable (_ ≤ _))

instance (b : CircuitBreaker) (now : Seconds) : Decidable (b.ProbesTimedOut now) :=
  inferInstanceAs (Decidable (_ ∧ _))

def checkAndUpdateState (b : CircuitBreaker) : CircuitBreaker :=
  let now := b.now world
  match b.state with
  | .closed =>
      if world.remoteOpen b.reads then
        { b.ticked with state := .open, openedAt := now }.emitTransition world .closed .remoteTrip
      else b.ticked
  | .open =>
      if b.WaitOver now then
        { b.ticked with
          state := .halfOpen
          halfOpenEnteredAt := now
          halfOpenInFlight := 0
          halfOpenSuccesses := 0 }.emitTransition world .open
            (.waitElapsed (b.config.waitDurationOpenMs / 1000))
      else b.ticked
  | .halfOpen =>
      if b.ProbesTimedOut now then
        { b.ticked with state := .open, openedAt := now }.emitTransition world .halfOpen
          .probeTimeout
      else b.ticked
  | .forcedOpen | .disabled | .metricsOnly => b.ticked

/-- The `state` property. -/
def observe (b : CircuitBreaker) : CircuitBreakerState × CircuitBreaker :=
  ((b.checkAndUpdateState world).state, b.checkAndUpdateState world)

def remainingWait (b : CircuitBreaker) (now : Seconds) : Seconds :=
  max 0 (b.openedAt + b.config.waitDurationOpenMs / 1000 - now)

def snapshot (b : CircuitBreaker) : BreakerSnapshot × CircuitBreaker :=
  let b := b.checkAndUpdateState world
  let now := b.now world
  let (metricsSnapshot, metrics) := b.metrics.snapshot now
  ({ id := b.id
     state := b.state
     metrics := metricsSnapshot
     remainingWaitSeconds := if b.state = .open then b.remainingWait now else 0
     halfOpenInFlight := b.halfOpenInFlight
     halfOpenSuccesses := b.halfOpenSuccesses }, { b.ticked with metrics })

def acquirePermission (b : CircuitBreaker) : Except BreakerError Unit × CircuitBreaker :=
  let b := b.checkAndUpdateState world
  match b.state with
  | .forcedOpen => (.error (.forcedOpen b.id), b)
  | .disabled | .metricsOnly | .closed => (.ok (), b)
  | .open => (.error (.open b.id (b.remainingWait (b.now world))), b.ticked)
  | .halfOpen =>
      if b.config.halfOpenMaxCalls ≤ b.halfOpenInFlight then
        (.error (.probeAdmissionDenied b.id), b)
      else (.ok (), { b with halfOpenInFlight := b.halfOpenInFlight + 1 })

/-- The text of a trip, if one of the two thresholds is reached. -/
def tripReason (config : CircuitBreakerConfig) (snapshot : MetricsSnapshot) :
    Option TransitionReason :=
  if config.failureRateThreshold ≤ snapshot.failureRate then
    some (.failureRate snapshot.failureRate config.failureRateThreshold snapshot.failedCalls
      snapshot.totalCalls)
  else if config.slowCallRateThreshold ≤ snapshot.slowCallRate then
    some (.slowCallRate snapshot.slowCallRate config.slowCallRateThreshold snapshot.slowCalls
      snapshot.totalCalls)
  else none

def evaluateClosedThresholds (b : CircuitBreaker) (now : Seconds) : CircuitBreaker :=
  if b.state ≠ .closed then b
  else
    let (snapshot, metrics) := b.metrics.snapshot now
    let b := { b with metrics }
    if snapshot.totalCalls < b.config.minimumNumberOfCalls then b
    else
      match tripReason b.config snapshot with
      | none => b
      | some reason =>
          { b with state := .open, openedAt := now }.emitTransition world .closed reason

/-- Enough successful probes close the circuit. -/
def probeSucceeded (b : CircuitBreaker) : CircuitBreaker :=
  let b := { b with
    halfOpenInFlight := b.halfOpenInFlight - 1
    halfOpenSuccesses := b.halfOpenSuccesses + 1 }
  if b.config.halfOpenMaxCalls ≤ b.halfOpenSuccesses then
    let b := { b with
      state := .closed
      metrics := b.metrics.reset
      halfOpenInFlight := 0
      halfOpenSuccesses := 0 }
    -- The text shows the counter after its reset.
    b.emitTransition world .halfOpen (.probesSucceeded b.halfOpenSuccesses)
  else b

def recordSuccess (b : CircuitBreaker) (durationMs : ℚ) : CircuitBreaker :=
  let now := b.now world
  let b := b.ticked.checkAndUpdateState world
  if b.state = .halfOpen then b.probeSucceeded world
  else
    let b := { b with metrics := b.metrics.record true durationMs now true }
    if b.state = .closed then b.evaluateClosedThresholds world now else b

/-- A failed probe reopens the breaker at once, unless the failure does not
    count against the provider. -/
def probeFailed (b : CircuitBreaker) (now : Seconds) (poisons : Bool) (error : String) :
    CircuitBreaker :=
  let b := { b with halfOpenInFlight := b.halfOpenInFlight - 1 }
  if poisons then
    { b with
      state := .open
      openedAt := now
      halfOpenInFlight := 0
      halfOpenSuccesses := 0 }.emitTransition world .halfOpen (.probeFailed error)
  else b

/-- `failure_classification.poisons_health if failure_classification else True` -/
def poisons (classification : Option FailureClassification) : Bool :=
  (classification.map (·.poisonsHealth)).getD true

/-- What the text of a failed probe shows. -/
def errorText (error : Option String) (classification : Option FailureClassification) : String :=
  error.getD ((classification.map (·.message)).getD "error")

def recordFailure (b : CircuitBreaker) (durationMs : ℚ) (error : Option String)
    (classification : Option FailureClassification) : CircuitBreaker :=
  let now := b.now world
  let b := b.ticked.checkAndUpdateState world
  let poisons := poisons classification
  if b.state = .halfOpen then
    b.probeFailed world now poisons (errorText error classification)
  else
    let b := { b with metrics := b.metrics.record false durationMs now poisons }
    if b.state = .closed ∧ poisons then b.evaluateClosedThresholds world now else b

/-! ## Administration -/

def forceOpen (b : CircuitBreaker) : CircuitBreaker :=
  { b with state := .forcedOpen }.emitTransition world b.state .forcedOpen

def forceClosed (b : CircuitBreaker) : CircuitBreaker :=
  { b with state := .closed, metrics := b.metrics.reset }.emitTransition world b.state .forcedClosed

def disable (b : CircuitBreaker) : CircuitBreaker :=
  { b with state := .disabled }.emitTransition world b.state .disabled

def reset (b : CircuitBreaker) : CircuitBreaker :=
  let fresh := { b with
    state := .closed
    openedAt := 0
    halfOpenInFlight := 0
    halfOpenSuccesses := 0
    metrics := b.metrics.reset }
  if b.state = .closed then fresh else fresh.emitTransition world b.state .reset

end CircuitBreaker

end DuraLLM
