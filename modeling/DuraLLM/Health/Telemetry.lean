import DuraLLM.Lib.Dict
import DuraLLM.Models

/-! # Health telemetry

The snapshot that `HealthTelemetryStore` keeps of each endpoint.  The counters
that only diagnostics read are left out.
-/

namespace DuraLLM

structure EndpointHealthSnapshot where
  endpointId : String
  provider : String
  model : String
  totalCalls : Nat := 0
  successfulCalls : Nat := 0
  /-- `none` until a latency has been observed. -/
  emaLatencyMs : Option ℚ := none
  semanticFailureCount : Nat := 0
  toolCallsAttempted : Nat := 0
  toolCallsSucceeded : Nat := 0
  quotaExhaustedUntil : Seconds := 0
  isDead : Bool := false
  deadReason : Option String := none
  deriving DecidableEq

namespace EndpointHealthSnapshot

variable (health : EndpointHealthSnapshot)

def isQuotaExhausted (now : Seconds) : Bool := now < health.quotaExhaustedUntil

def isColdStart : Bool := health.emaLatencyMs.isNone

def successRate : ℚ :=
  if health.totalCalls = 0 then 1 else health.successfulCalls / health.totalCalls

def toolSuccessRate : ℚ :=
  if health.toolCallsAttempted = 0 then 1
  else health.toolCallsSucceeded / health.toolCallsAttempted

def semanticSuccessRate : ℚ :=
  if health.successfulCalls = 0 then 1
  else max 0 (1 - health.semanticFailureCount / health.successfulCalls)

end EndpointHealthSnapshot

abbrev HealthTelemetryStore := Dict String EndpointHealthSnapshot

namespace HealthTelemetryStore

variable (store : HealthTelemetryStore)

/-- The snapshot of the endpoint, a cold one when there is none. -/
def snapshot (endpointId provider model : String) : EndpointHealthSnapshot :=
  (store.get endpointId).getD { endpointId, provider, model }

def getOrCreate (endpointId provider model : String) :
    EndpointHealthSnapshot × HealthTelemetryStore :=
  match store.get endpointId with
  | some found => (found, store)
  | none =>
      let fresh : EndpointHealthSnapshot := { endpointId, provider, model }
      (fresh, store.set endpointId fresh)

/-- Change the snapshot of the endpoint, a nameless one when there is none. -/
def update (endpointId : String) (f : EndpointHealthSnapshot → EndpointHealthSnapshot) :
    HealthTelemetryStore :=
  store.set endpointId (f (store.snapshot endpointId "" ""))

/-- `emaAlpha` is the store's share of a new latency. -/
def recordSuccess (emaAlpha : ℚ) (endpointId : String) (latencyMs : ℚ) : HealthTelemetryStore :=
  store.update endpointId fun snap =>
    { snap with
      totalCalls := snap.totalCalls + 1
      successfulCalls := snap.successfulCalls + 1
      emaLatencyMs := some (match snap.emaLatencyMs with
        | none => latencyMs
        | some ema => emaAlpha * latencyMs + (1 - emaAlpha) * ema) }

def recordFailure (endpointId : String) (errorMessage : String)
    (quotaExhaustedSeconds : Option Seconds) (isPermanent : Bool) (now : Seconds) :
    HealthTelemetryStore :=
  store.update endpointId fun snap =>
    { snap with
      totalCalls := snap.totalCalls + 1
      isDead := snap.isDead || isPermanent
      deadReason := if isPermanent then some errorMessage else snap.deadReason
      quotaExhaustedUntil := match quotaExhaustedSeconds.filter (0 < ·) with
        | none => snap.quotaExhaustedUntil
        | some seconds => now + seconds }

def recordToolOutcome (endpointId : String) (success : Bool) : HealthTelemetryStore :=
  store.update endpointId fun snap =>
    { snap with
      toolCallsAttempted := snap.toolCallsAttempted + 1
      toolCallsSucceeded := snap.toolCallsSucceeded + if success then 1 else 0 }

def markDead (endpointId provider model reason : String) : HealthTelemetryStore :=
  store.set endpointId
    { store.snapshot endpointId provider model with isDead := true, deadReason := some reason }

/-- When the daily quota of the endpoint is there again. -/
def quotaUntil (endpointId : String) : Seconds :=
  (store.snapshot endpointId "" "").quotaExhaustedUntil

variable {store}

/-- The names of a snapshot say nothing about its quota. -/
theorem snapshot_quota (endpointId provider model : String) :
    (store.snapshot endpointId provider model).quotaExhaustedUntil = store.quotaUntil endpointId := by
  unfold quotaUntil snapshot
  cases store.get endpointId <;> rfl

@[simp] theorem quotaUntil_empty (endpointId : String) :
    quotaUntil Dict.empty endpointId = 0 := rfl

theorem quotaUntil_set (endpointId : String) (snap : EndpointHealthSnapshot) (other : String) :
    quotaUntil (store.set endpointId snap) other =
      if other = endpointId then snap.quotaExhaustedUntil else store.quotaUntil other := by
  unfold quotaUntil snapshot
  by_cases same : other = endpointId
  · subst same
    simp
  · simp [Dict.get_set_ne _ _ same, same]

theorem quotaUntil_getOrCreate (endpointId provider model other : String) :
    quotaUntil (store.getOrCreate endpointId provider model).2 other = store.quotaUntil other := by
  unfold getOrCreate
  cases found : store.get endpointId with
  | some health => rfl
  | none =>
      rw [quotaUntil_set]
      by_cases same : other = endpointId
      · subst same
        simp [quotaUntil, snapshot, found]
      · simp [same]

theorem quotaUntil_recordSuccess (emaAlpha : ℚ) (endpointId : String) (latencyMs : ℚ)
    (other : String) :
    quotaUntil (store.recordSuccess emaAlpha endpointId latencyMs) other = store.quotaUntil other := by
  rw [recordSuccess, update, quotaUntil_set]
  by_cases same : other = endpointId
  · rw [if_pos same, same]
    rfl
  · rw [if_neg same]

theorem quotaUntil_recordToolOutcome (endpointId : String) (success : Bool) (other : String) :
    quotaUntil (store.recordToolOutcome endpointId success) other = store.quotaUntil other := by
  rw [recordToolOutcome, update, quotaUntil_set]
  by_cases same : other = endpointId
  · rw [if_pos same, same]
    rfl
  · rw [if_neg same]

theorem quotaUntil_markDead (endpointId provider model reason other : String) :
    quotaUntil (store.markDead endpointId provider model reason) other = store.quotaUntil other := by
  rw [markDead, quotaUntil_set]
  by_cases same : other = endpointId
  · rw [if_pos same, same]
    exact snapshot_quota _ _ _
  · rw [if_neg same]

/-- A failure sets the quota of its own endpoint, and only with a time that is positive. -/
theorem quotaUntil_recordFailure (endpointId errorMessage : String)
    (quotaExhaustedSeconds : Option Seconds) (isPermanent : Bool) (now : Seconds) (other : String) :
    quotaUntil (store.recordFailure endpointId errorMessage quotaExhaustedSeconds isPermanent now)
        other =
      if other = endpointId then
        (quotaExhaustedSeconds.filter (0 < ·)).elim (store.quotaUntil other) (now + ·)
      else store.quotaUntil other := by
  rw [recordFailure, update, quotaUntil_set]
  by_cases same : other = endpointId
  · rw [if_pos same, if_pos same, same]
    cases quotaExhaustedSeconds.filter (0 < ·) <;> rfl
  · rw [if_neg same, if_neg same]

/-- No endpoint is written off. -/
def AllAlive (store : HealthTelemetryStore) : Prop :=
  ∀ endpointId provider model, (store.snapshot endpointId provider model).isDead = false

theorem allAlive_empty : AllAlive Dict.empty := fun _ _ _ => rfl

theorem AllAlive.recordFailure (alive : AllAlive store) (endpointId errorMessage : String)
    (quotaExhaustedSeconds : Option Seconds) (now : Seconds) :
    AllAlive (store.recordFailure endpointId errorMessage quotaExhaustedSeconds false now) := by
  intro other provider model
  unfold HealthTelemetryStore.recordFailure update
  by_cases same : other = endpointId
  · subst same
    simpa [snapshot] using alive other "" ""
  · simpa [snapshot, Dict.get_set_ne _ _ same] using alive other provider model

@[simp] theorem getOrCreate_fst (endpointId provider model : String) :
    (store.getOrCreate endpointId provider model).1 = store.snapshot endpointId provider model := by
  unfold getOrCreate snapshot
  cases store.get endpointId <;> rfl

/-- What has been created is what a later look finds. -/
theorem snapshot_getOrCreate_self (endpointId provider model : String) :
    snapshot (store.getOrCreate endpointId provider model).2 endpointId provider model =
      store.snapshot endpointId provider model := by
  unfold getOrCreate snapshot
  cases found : store.get endpointId with
  | some health => simp [found]
  | none => simp

theorem snapshot_getOrCreate_ne {endpointId other : String} (ne : other ≠ endpointId)
    (provider model otherProvider otherModel : String) :
    snapshot (store.getOrCreate endpointId provider model).2 other otherProvider otherModel =
      store.snapshot other otherProvider otherModel := by
  unfold getOrCreate snapshot
  cases store.get endpointId with
  | some health => rfl
  | none => simp [Dict.get_set_ne _ _ ne]

end HealthTelemetryStore

end DuraLLM
