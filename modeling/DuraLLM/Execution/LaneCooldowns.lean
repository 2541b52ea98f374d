import DuraLLM.Execution.NativeStream
import DuraLLM.Routing.Resources

/-! # Cooldowns of a lane

A rate limit keeps the whole lane out of new traffic until its cooldown is
over.  The lane has one cell for that, which every request overwrites: with
another rate limit, with a success, and with the end of a private wait.  Here
all requests share the lanes, and their updates come in any order.
-/

namespace DuraLLM

/-! ## What the executor does to the lanes -/

def FailoverReason.value : FailoverReason → String
  | .rateLimit => "rate_limit"
  | .upstreamRateLimit => "upstream_rate_limit"
  | .billing => "billing"
  | .auth => "auth"
  | .modelNotFound => "model_not_found"
  | .overloaded => "overloaded"
  | .serverError => "server_error"
  | .timeout => "timeout"
  | .sslCertVerification => "ssl_cert_verification"
  | .payloadTooLarge => "payload_too_large"
  | .outputCapExceeded => "output_cap_exceeded"
  | .contextOverflow => "context_overflow"
  | .wafBlocked => "waf_blocked"
  | .connectionRefused => "connection_refused"
  | .schemaIncompatible => "schema_incompatible"
  | .malformedToolCall => "malformed_tool_call"
  | .emptyCompletion => "empty_completion"
  | .clientError => "client_error"
  | .unknown => "unknown"

namespace ResourceLaneStore

/-- What a note of the executor does to the store. -/
def keep (store : ResourceLaneStore) (now : Seconds) : Bookkeeping → ResourceLaneStore
  | .setLaneAvailable laneKey => store.setAvailable laneKey
  | .setLaneUnavailable laneKey reason seconds =>
      store.setUnavailable laneKey reason.value (some seconds) now
  | _ => store

/-- `_record_lane_outcome`, for the lane of the endpoint. -/
def recordOutcome (store : ResourceLaneStore) (laneKey : String)
    (failure : Option FailureClassification) (now : Seconds) : ResourceLaneStore :=
  if laneKey = "" then store
  else
    match failure with
    | none => store.setAvailable laneKey
    | some f =>
        if f.reason.isRateLimit then
          store.setUnavailable laneKey f.reason.value (some (orNumber f.retryAfterSeconds 60)) now
        else store

section Executor

variable {Json Decision : Type} (now : Seconds)
  (answer : (op : LocalOp Json) → op.Answer Json Decision)

/-- The executor over the lane store, with answers to everything else. -/
def handle : Prog.Handler (localSig Json Decision) ResourceLaneStore
  | .keep note, store => ((), store.keep now note)
  | op, store => (answer op, store)

theorem recordLaneOutcome_exec (endpoint : Endpoint) (failure : Option FailureClassification)
    (store : ResourceLaneStore) :
    ((recordLaneOutcome endpoint failure : Local Json Decision Unit).exec (handle now answer)
        store).2 =
      store.recordOutcome (endpoint.resourceLane.getD "") failure now := by
  unfold recordLaneOutcome recordOutcome
  cases endpoint.resourceLane with
  | none => rfl
  | some lane =>
      by_cases empty : lane = ""
      · simp [empty]
      · simp only [empty, if_false, Option.getD_some]
        cases failure with
        | none => rfl
        | some f =>
            by_cases limited : f.reason.isRateLimit = true
            · simp only [limited, if_true]
              rfl
            · simp only [limited]
              rfl

/-- Nothing is done to a lane but that it is opened for everybody. -/
def OpensOnly : LocalOp Json → Prop
  | .keep (.setLaneUnavailable _ _ _) => False
  | _ => True

theorem opensOnly_handle {start : ResourceLaneStore} (op : LocalOp Json)
    (store : ResourceLaneStore) (opens : OpensOnly op)
    (reopened : ∃ lanes : List String, store = lanes.foldl setAvailable start) :
    ∃ lanes : List String, (handle now answer op store).2 = lanes.foldl setAvailable start := by
  obtain ⟨lanes, rfl⟩ := reopened
  cases op with
  | keep note =>
      cases note with
      | setLaneAvailable lane => exact ⟨lanes ++ [lane], by simp [handle, keep]⟩
      | setLaneUnavailable _ _ _ => exact opens.elim
      | _ => exact ⟨lanes, rfl⟩
  | _ => exact ⟨lanes, rfl⟩

/-- A request that comes back from a wait opens lanes, whatever is in their cells. -/
theorem exec_opens {α : Type} {p : Local Json Decision α} (asks : p.Asks OpensOnly)
    (store : ResourceLaneStore) :
    ∃ lanes : List String, (p.exec (handle now answer) store).2 = lanes.foldl setAvailable store :=
  Prog.exec_keeps (handle now answer) (opensOnly_handle now answer) asks ⟨[], rfl⟩

end Executor

section Waits

variable {Json Decision : Type} (call : ExecuteCall Json) (s : LoopState Json)
  (classified : FailureClassification)

theorem reopenLanes_opens (pool endpointId : String) :
    (reopenLanes pool endpointId : Local Json Decision Unit).Asks OpensOnly := by
  refine Prog.Asks.bind ⟨trivial, fun _ => trivial⟩ fun endpoints => ?_
  induction endpoints with
  | nil => trivial
  | cons endpoint endpoints ih =>
      refine Prog.Asks.bind ?_ fun _ => ih
      beta_reduce
      cases endpoint.resourceLane with
      | none => trivial
      | some lane =>
          dsimp only
          by_cases own : endpoint.id = endpointId ∧ lane ≠ ""
          · rw [if_pos own]
            exact ⟨trivial, fun _ => trivial⟩
          · rw [if_neg own]
            trivial

theorem computeBackoffSeconds_opens (retry : RetryPolicy) (attemptIndex : Nat)
    (retryAfter : Option Seconds) :
    (computeBackoffSeconds retry attemptIndex retryAfter :
      Local Json Decision Seconds).Asks OpensOnly := by
  unfold computeBackoffSeconds
  cases retryAfter.filter (0 < ·) with
  | some seconds => trivial
  | none =>
      cases retry.jitter with
      | true => exact ⟨trivial, fun _ => trivial⟩
      | false => trivial

/-- Both loops leave an endpoint this way: cool it down, then go on. -/
theorem coolDown_opens (endpoint : Endpoint) (done : LoopState Json) :
    (do
      match cooldownSeconds classified with
      | none => pure ()
      | some seconds =>
          Local.keep (.recordHealthFailure
            { endpointId := endpoint.id, latencyMs := 0, cooldownSeconds := some seconds })
          if call.executor.hasPoolManager then
            Local.keep (.markCooldown call.pool endpoint.id seconds)
      return done : Local Json Decision (LoopState Json)).Asks OpensOnly := by
  cases cooldownSeconds classified with
  | none => trivial
  | some seconds =>
      refine ⟨trivial, fun _ => ?_⟩
      cases call.executor.hasPoolManager with
      | true => exact ⟨trivial, fun _ => trivial⟩
      | false => trivial

theorem stepFallback_opens (d : Dispatch Json Decision) :
    (stepFallback call s d classified).Asks OpensOnly :=
  coolDown_opens call classified d.endpoint _

theorem leaveStreamRoute_opens (endpoint : Endpoint) :
    (leaveStreamRoute call s endpoint classified : Local Json Decision (LoopState Json)).Asks
      OpensOnly :=
  coolDown_opens call classified endpoint _

theorem backOff_opens (d : Dispatch Json Decision) :
    (backOff call s d classified).Asks OpensOnly := by
  refine Prog.Asks.bind ⟨trivial, fun _ => trivial⟩ fun policy => ?_
  refine Prog.Asks.bind (computeBackoffSeconds_opens _ _ _) fun backoff => ?_
  refine Prog.Asks.bind ⟨trivial, fun _ => trivial⟩ fun time => ?_
  by_cases late : call.deadline.remainingMs time / 1000 ≤ backoff
  · rw [if_pos late]
    exact stepFallback_opens call s classified d
  · rw [if_neg late]
    refine ⟨trivial, fun _ => ?_⟩
    cases d.endpoint.resourceLane with
    | none => trivial
    | some lane =>
        by_cases empty : lane = ""
        · simp only [empty, if_true]
          trivial
        · simp only [empty, if_false]
          exact ⟨trivial, fun _ => trivial⟩

theorem retryStream_opens (endpoint : Endpoint) :
    (retryStream call s endpoint classified : Local Json Decision (LoopState Json)).Asks
      OpensOnly := by
  refine Prog.Asks.bind ⟨trivial, fun _ => trivial⟩ fun policy => ?_
  by_cases again : classified.retryable ∧ s.ledger.canAttemptEndpoint policy endpoint.id
  · rw [if_pos again]
    refine Prog.Asks.bind (computeBackoffSeconds_opens _ _ _) fun backoff => ?_
    refine Prog.Asks.bind ⟨trivial, fun _ => trivial⟩ fun time => ?_
    by_cases soon : backoff < call.deadline.remainingMs time / 1000
    · rw [if_pos soon]
      refine Prog.Asks.bind ⟨trivial, fun _ => trivial⟩ fun _ => ?_
      refine Prog.Asks.bind ?_ fun _ => trivial
      cases endpoint.resourceLane with
      | none => trivial
      | some lane => exact ⟨trivial, fun _ => trivial⟩
    · rw [if_neg soon]
      exact leaveStreamRoute_opens call s classified endpoint
  · rw [if_neg again]
    exact leaveStreamRoute_opens call s classified endpoint

end Waits

end ResourceLaneStore

/-! ## Runs -/

/-- An attempt that was sent over a lane. -/
structure LaneAttempt where
  /-- Empty for an endpoint without a lane. -/
  laneKey : String
  dispatchedAt : Seconds

/-- A rate limit that was recorded on a lane. -/
structure RateLimit where
  laneKey : String
  since : Seconds
  until_ : Seconds
  deriving DecidableEq

/-- The store, the time of day and the attempts under way. The rate limits are what the store
    should keep to; it does not read them. -/
structure LaneRun where
  store : ResourceLaneStore
  clock : Seconds
  inFlight : Dict Nat LaneAttempt := .empty
  limits : List RateLimit := []

inductive LaneStep where
  /-- Time passes. -/
  | wait (seconds : Seconds)
  /-- A request asks for the status of a lane. -/
  | ask (laneKey : String)
  | dispatch (attempt : Nat) (laneKey : String)
  | succeed (attempt : Nat)
  | fail (attempt : Nat) (failure : FailureClassification)
  /-- Instead of the lane, the key of the attempt is told of the rate limit. -/
  | rotateKey (attempt : Nat) (failure : FailureClassification)
  /-- A request comes back from a private wait, after a failure or for a rollover. -/
  | reopen (laneKey : String)

/-- The cooldown of a rate limit. -/
def cooldown (failure : FailureClassification) : Seconds :=
  max 0 (orNumber failure.retryAfterSeconds 60)

/-- An attempt that was rate limited on a lane. -/
def LaneAttempt.LimitedBy (a : LaneAttempt) (failure : FailureClassification) : Prop :=
  a.laneKey ≠ "" ∧ failure.reason.isRateLimit = true

instance (a : LaneAttempt) (failure : FailureClassification) : Decidable (a.LimitedBy failure) :=
  inferInstanceAs (Decidable (_ ∧ _))

namespace LaneRun

/-- The rate limits after another failure. -/
def noteFailure (s : LaneRun) (a : LaneAttempt) (failure : FailureClassification) :
    List RateLimit :=
  if a.LimitedBy failure then
    s.limits ++ [{ laneKey := a.laneKey, since := s.clock, until_ := s.clock + cooldown failure }]
  else s.limits

/-- The rate limits that a success leaves: it lifts those it was dispatched after. -/
def noteSuccess (s : LaneRun) (a : LaneAttempt) : List RateLimit :=
  s.limits.filter fun l => ¬(l.laneKey = a.laneKey ∧ l.since < a.dispatchedAt)

def step (s : LaneRun) : LaneStep → LaneRun
  | .wait seconds => { s with clock := s.clock + max 0 seconds }
  | .ask laneKey => { s with store := (s.store.status laneKey s.clock).2 }
  | .dispatch attempt laneKey =>
      { s with inFlight := s.inFlight.set attempt { laneKey, dispatchedAt := s.clock } }
  | .succeed attempt =>
      match s.inFlight.get attempt with
      | none => s
      | some a =>
          { s with
            store := s.store.recordOutcome a.laneKey none s.clock
            inFlight := s.inFlight.erase attempt
            limits := s.noteSuccess a }
  | .fail attempt failure =>
      match s.inFlight.get attempt with
      | none => s
      | some a =>
          { s with
            store := s.store.recordOutcome a.laneKey (some failure) s.clock
            inFlight := s.inFlight.erase attempt
            limits := s.noteFailure a failure }
  | .rotateKey attempt failure =>
      match s.inFlight.get attempt with
      | none => s
      | some a => { s with inFlight := s.inFlight.erase attempt, limits := s.noteFailure a failure }
  | .reopen laneKey => { s with store := s.store.setAvailable laneKey }

def run (s : LaneRun) (steps : List LaneStep) : LaneRun := steps.foldl step s

/-- Every lane is reported unavailable until its rate limits are over. -/
def Kept (s : LaneRun) : Prop :=
  ∀ limit ∈ s.limits, ∀ now, s.clock ≤ now → now < limit.until_ →
    (s.store.status limit.laneKey now).1.available = false

/-- A rate limit on the lane that is not over. -/
def InForce (s : LaneRun) (laneKey : String) (limit : RateLimit) : Prop :=
  limit ∈ s.limits ∧ limit.laneKey = laneKey ∧ s.clock < limit.until_

/-- What the step writes in the cell of a lane, or fails to write there, leaves the rate limits
    on it alone. -/
def Spares (s : LaneRun) : LaneStep → Prop
  | .fail attempt failure => ∀ a ∈ s.inFlight.get attempt, a.LimitedBy failure →
      ∀ limit, s.InForce a.laneKey limit → limit.until_ ≤ s.clock + cooldown failure
  | .succeed attempt => ∀ a ∈ s.inFlight.get attempt, a.laneKey ≠ "" →
      ∀ limit, s.InForce a.laneKey limit → limit.since < a.dispatchedAt
  | .reopen laneKey => ∀ limit, ¬s.InForce laneKey limit
  | .rotateKey attempt failure => ∀ a ∈ s.inFlight.get attempt, a.LimitedBy failure →
      0 < cooldown failure → s.store.ClosedUntil a.laneKey (s.clock + cooldown failure)
  | .wait _ | .ask _ | .dispatch _ _ => True

/-! ## One step -/

theorem cooldown_nonneg (failure : FailureClassification) : 0 ≤ cooldown failure := le_max_left _ _

theorem kept_iff {s : LaneRun} :
    s.Kept ↔ ∀ limit ∈ s.limits, s.clock < limit.until_ →
      s.store.ClosedUntil limit.laneKey limit.until_ := by
  constructor
  · intro kept limit mem within
    exact (ResourceLaneStore.closedUntil_iff within).mpr (kept limit mem)
  · intro closed limit mem now later within
    have early := lt_of_le_of_lt later within
    exact (ResourceLaneStore.closedUntil_iff early).mp (closed limit mem early) now later within

section Outcomes

variable {store : ResourceLaneStore} {laneKey : String} {a : LaneAttempt}
  {failure : FailureClassification}

/-- Only the cell of its lane is written after an attempt. -/
theorem closedUntil_recordOutcome_of_ne {other : String} (ne : laneKey ≠ other)
    (outcome : Option FailureClassification) (now time : Seconds) :
    (store.recordOutcome other outcome now).ClosedUntil laneKey time ↔
      store.ClosedUntil laneKey time := by
  unfold ResourceLaneStore.recordOutcome
  by_cases empty : other = ""
  · simp only [empty, if_true]
  · simp only [empty, if_false]
    cases outcome with
    | none => exact ResourceLaneStore.closedUntil_set_ne ne _ time
    | some f =>
        by_cases limited : f.reason.isRateLimit = true
        · simp only [limited, if_true]
          exact ResourceLaneStore.closedUntil_set_ne ne _ time
        · simp only [limited]
          rfl

theorem closedUntil_limited (limited : a.LimitedBy failure) (now time : Seconds) :
    (store.recordOutcome a.laneKey (some failure) now).ClosedUntil a.laneKey time ↔
      time ≤ now + cooldown failure := by
  simp only [ResourceLaneStore.recordOutcome, limited.1, if_false, limited.2, if_true]
  exact ResourceLaneStore.closedUntil_setUnavailable _ _ _ _

theorem recordOutcome_unlimited (unlimited : ¬a.LimitedBy failure) (now : Seconds) :
    store.recordOutcome a.laneKey (some failure) now = store := by
  unfold ResourceLaneStore.recordOutcome
  by_cases lane : a.laneKey = ""
  · simp only [lane, if_true]
  · simp only [lane, if_false]
    exact if_neg fun limited => unlimited ⟨lane, limited⟩

theorem not_closedUntil_succeeded (lane : laneKey ≠ "") (now time : Seconds) :
    ¬(store.recordOutcome laneKey none now).ClosedUntil laneKey time := by
  simp only [ResourceLaneStore.recordOutcome, lane, if_false]
  exact ResourceLaneStore.not_closedUntil_setAvailable time

end Outcomes

theorem mem_noteFailure {s : LaneRun} {a : LaneAttempt} {failure : FailureClassification}
    (limited : a.LimitedBy failure) {limit : RateLimit} :
    limit ∈ s.noteFailure a failure ↔ limit ∈ s.limits ∨
      limit = { laneKey := a.laneKey, since := s.clock, until_ := s.clock + cooldown failure } := by
  simp [noteFailure, limited]

theorem mem_noteSuccess {s : LaneRun} {a : LaneAttempt} {limit : RateLimit} :
    limit ∈ s.noteSuccess a ↔
      limit ∈ s.limits ∧ ¬(limit.laneKey = a.laneKey ∧ limit.since < a.dispatchedAt) := by
  simp only [noteSuccess, List.mem_filter, decide_eq_true_eq]

theorem kept_succeed {s : LaneRun} (kept : s.Kept) {attempt : Nat}
    (spares : s.Spares (.succeed attempt)) : (s.step (.succeed attempt)).Kept := by
  cases found : s.inFlight.get attempt with
  | none => simpa [step, found] using kept
  | some a =>
      rw [kept_iff] at kept ⊢
      simp only [step, found, mem_noteSuccess]
      rintro limit ⟨mem, unlifted⟩ within
      by_cases own : limit.laneKey = a.laneKey
      · by_cases lane : a.laneKey = ""
        · -- an attempt without a lane writes no cell
          rw [lane]
          exact kept limit mem within
        · have lifted := spares a found lane limit ⟨mem, own, within⟩
          exact absurd ⟨own, lifted⟩ unlifted
      · exact (closedUntil_recordOutcome_of_ne own _ _ _).mpr (kept limit mem within)

theorem kept_fail {s : LaneRun} (kept : s.Kept) {attempt : Nat} {failure : FailureClassification}
    (spares : s.Spares (.fail attempt failure)) : (s.step (.fail attempt failure)).Kept := by
  cases found : s.inFlight.get attempt with
  | none => simpa [step, found] using kept
  | some a =>
      rw [kept_iff] at kept ⊢
      simp only [step, found]
      by_cases limited : a.LimitedBy failure
      · simp only [mem_noteFailure limited]
        rintro limit (mem | rfl) within
        · by_cases own : limit.laneKey = a.laneKey
          · rw [own]
            exact (closedUntil_limited limited _ _).mpr
              (spares a found limited limit ⟨mem, own, within⟩)
          · exact (closedUntil_recordOutcome_of_ne own _ _ _).mpr (kept limit mem within)
        · exact (closedUntil_limited limited _ _).mpr (le_refl _)
      · rw [recordOutcome_unlimited limited, noteFailure, if_neg limited]
        exact kept

theorem kept_rotateKey {s : LaneRun} (kept : s.Kept) {attempt : Nat}
    {failure : FailureClassification} (spares : s.Spares (.rotateKey attempt failure)) :
    (s.step (.rotateKey attempt failure)).Kept := by
  cases found : s.inFlight.get attempt with
  | none => simpa [step, found] using kept
  | some a =>
      rw [kept_iff] at kept ⊢
      simp only [step, found]
      by_cases limited : a.LimitedBy failure
      · simp only [mem_noteFailure limited]
        rintro limit (mem | rfl) within
        · exact kept limit mem within
        · exact spares a found limited (lt_add_iff_pos_right s.clock |>.mp within)
      · rw [noteFailure, if_neg limited]
        exact kept

/-- A step that spares the rate limits in force keeps every rate limit. -/
theorem kept_step {s : LaneRun} (kept : s.Kept) {step : LaneStep} (spares : s.Spares step) :
    (s.step step).Kept := by
  cases step with
  | wait seconds =>
      intro limit mem now later within
      exact kept limit mem now (le_trans (le_add_of_nonneg_right (le_max_left _ _)) later) within
  | ask laneKey =>
      rw [kept_iff] at kept ⊢
      intro limit mem within
      exact (kept limit mem within).status within laneKey
  | dispatch attempt laneKey => exact kept
  | succeed attempt => exact kept_succeed kept spares
  | fail attempt failure => exact kept_fail kept spares
  | rotateKey attempt failure => exact kept_rotateKey kept spares
  | reopen laneKey =>
      rw [kept_iff] at kept ⊢
      intro limit mem within
      by_cases own : limit.laneKey = laneKey
      · exact absurd ⟨mem, own, within⟩ (spares limit)
      · exact (ResourceLaneStore.closedUntil_set_ne own _ _).mpr (kept limit mem within)

/-- A step that does not spare a rate limit in force shows. -/
theorem spares_of_kept {s : LaneRun} {step : LaneStep} (kept : (s.step step).Kept) :
    s.Spares step := by
  rw [kept_iff] at kept
  cases step with
  | wait _ | ask _ | dispatch _ _ => trivial
  | succeed attempt =>
      rintro a found lane limit ⟨mem, own, within⟩
      simp only [LaneRun.step, Option.mem_def.mp found, mem_noteSuccess] at kept
      by_contra early
      have closed := kept limit ⟨mem, fun lifted => early lifted.2⟩ within
      rw [own] at closed
      exact not_closedUntil_succeeded lane _ _ closed
  | fail attempt failure =>
      rintro a found limited limit ⟨mem, own, within⟩
      simp only [LaneRun.step, Option.mem_def.mp found, mem_noteFailure limited] at kept
      have closed := kept limit (.inl mem) within
      rw [own] at closed
      exact (closedUntil_limited limited _ _).mp closed
  | rotateKey attempt failure =>
      intro a found limited lasts
      simp only [LaneRun.step, Option.mem_def.mp found, mem_noteFailure limited] at kept
      exact kept _ (.inr rfl) (lt_add_of_pos_right s.clock lasts)
  | reopen laneKey =>
      rintro limit ⟨mem, own, within⟩
      have closed := kept limit mem within
      rw [own] at closed
      exact ResourceLaneStore.not_closedUntil_setAvailable _ closed

/-! ## Whole runs -/

theorem run_append (s : LaneRun) (before after : List LaneStep) :
    s.run (before ++ after) = (s.run before).run after := List.foldl_append

/-- A 429 that does not say when to come back. -/
def unboundedRateLimit : FailureClassification :=
  { category := .rateLimit, reason := .rateLimit, shouldFallback := true, retryable := true
    statusCode := some 429 }

end LaneRun

end DuraLLM
