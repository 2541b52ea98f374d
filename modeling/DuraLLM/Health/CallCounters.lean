import DuraLLM.Lib.Dict
import DuraLLM.Models
import Mathlib.Data.List.Induction

/-! # Call counters

The counters of a health snapshot that diagnostics read, and what
`record_success` and `record_failure` do to them.
-/

namespace DuraLLM

structure CallCounters where
  totalCalls : Nat := 0
  failedCalls : Nat := 0
  consecutiveFailures : Nat := 0
  lastLatencyMs : Option ℚ := none
  deriving DecidableEq

namespace CallCounters

variable (counters : CallCounters) (latencyMs : ℚ)

def recordSuccess : CallCounters :=
  { counters with
    totalCalls := counters.totalCalls + 1
    consecutiveFailures := 0
    lastLatencyMs := some latencyMs }

def recordFailure : CallCounters where
  totalCalls := counters.totalCalls + 1
  failedCalls := counters.failedCalls + 1
  consecutiveFailures := counters.consecutiveFailures + 1
  lastLatencyMs := some latencyMs

end CallCounters

/-- A call of `record_success` or `record_failure` on the health store. -/
structure HealthSample where
  endpointId : String
  success : Bool
  latencyMs : ℚ
  deriving DecidableEq

def CallCounters.record (counters : CallCounters) (sample : HealthSample) : CallCounters :=
  if sample.success then counters.recordSuccess sample.latencyMs
  else counters.recordFailure sample.latencyMs

abbrev CounterStore := Dict String CallCounters

namespace CounterStore

variable (store : CounterStore)

/-- The counters of the endpoint, fresh ones when it has none. -/
def counters (endpointId : String) : CallCounters := (store.get endpointId).getD {}

def record (sample : HealthSample) : CounterStore :=
  store.set sample.endpointId ((store.counters sample.endpointId).record sample)

def recordAll (samples : List HealthSample) : CounterStore := samples.foldl record store

theorem counters_record (sample : HealthSample) (endpointId : String) :
    (store.record sample).counters endpointId =
      if endpointId = sample.endpointId then (store.counters endpointId).record sample
      else store.counters endpointId := by
  unfold record counters
  rw [Dict.get_set]
  by_cases own : endpointId = sample.endpointId
  · simp [own]
  · simp [own]

/-- An endpoint's counters only see the samples of that endpoint. -/
theorem counters_recordAll (samples : List HealthSample) (endpointId : String) :
    (store.recordAll samples).counters endpointId =
      (samples.filter (·.endpointId = endpointId)).foldl CallCounters.record
        (store.counters endpointId) := by
  induction samples generalizing store with
  | nil => rfl
  | cons sample samples ih =>
      have first := store.counters_record sample endpointId
      simp only [recordAll, List.foldl_cons] at ih ⊢
      rw [ih, first]
      by_cases own : sample.endpointId = endpointId
      · simp [own]
      · have foreign : ¬ endpointId = sample.endpointId := fun same => own same.symm
        simp [own, foreign]

end CounterStore

/-- From `before` to `after`, exactly these calls were counted. -/
structure CallCounters.Counts (before after : CallCounters) (calls : List HealthSample) :
    Prop where
  total : after.totalCalls = before.totalCalls + calls.length
  failed : after.failedCalls = before.failedCalls + calls.countP (!·.success)
  /-- The failures since the last success. -/
  consecutive : after.consecutiveFailures =
    (if calls.any (·.success) then 0 else before.consecutiveFailures) +
      (calls.reverse.takeWhile (!·.success)).length
  latency : after.lastLatencyMs =
    (calls.getLast?.map fun call => some call.latencyMs).getD before.lastLatencyMs

theorem CallCounters.counts_foldl (before : CallCounters) (calls : List HealthSample) :
    before.Counts (calls.foldl record before) calls := by
  induction calls using List.reverseRecOn with
  | nil => exact ⟨rfl, rfl, rfl, rfl⟩
  | append_singleton calls call ih =>
      rw [List.foldl_append, List.foldl_cons, List.foldl_nil]
      generalize calls.foldl record before = after at ih ⊢
      obtain ⟨total, failed, consecutive, latency⟩ := ih
      cases succeeded : call.success with
      | true =>
          have moved : after.record call = after.recordSuccess call.latencyMs := by
            simp [record, succeeded]
          rw [moved]
          constructor
          · simp [recordSuccess, total]
            omega
          · simp [recordSuccess, failed, succeeded]
          · simp [recordSuccess, succeeded]
          · simp [recordSuccess]
      | false =>
          have moved : after.record call = after.recordFailure call.latencyMs := by
            simp [record, succeeded]
          rw [moved]
          constructor
          · simp [recordFailure, total]
            omega
          · simp [recordFailure, failed, succeeded]
            omega
          · simp [recordFailure, consecutive, succeeded]
            omega
          · simp [recordFailure]

end DuraLLM
