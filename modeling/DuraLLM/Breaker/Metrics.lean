import DuraLLM.Models

/-! # Sliding window metrics

The outcomes of finished calls, the oldest first, kept for the last
`windowSize` calls or the last `windowSize` seconds.  Taking a snapshot evicts
what has left the window, so it returns the metrics it leaves behind.
-/

namespace DuraLLM

inductive SlidingWindowType where
  | countBased
  | timeBased
  deriving DecidableEq, Repr

structure CallOutcome where
  success : Bool
  durationMs : ℚ
  timestampMonotonic : Seconds
  isSlow : Bool
  poisonsHealth : Bool
  deriving DecidableEq

structure MetricsSnapshot where
  totalCalls : Nat
  successCalls : Nat
  failedCalls : Nat
  slowCalls : Nat
  failureRate : ℚ
  slowCallRate : ℚ
  deriving DecidableEq

structure SlidingWindowMetrics where
  windowType : SlidingWindowType := .countBased
  windowSize : Nat := 20
  slowCallDurationMs : ℚ := 5000
  samples : List CallOutcome := []
  deriving DecidableEq

namespace SlidingWindowMetrics

def reset (m : SlidingWindowMetrics) : SlidingWindowMetrics := { m with samples := [] }

/-- The two loops of `_evict_expired` pop from the left. -/
def evictExpired (m : SlidingWindowMetrics) (now : Seconds) : SlidingWindowMetrics :=
  match m.windowType with
  | .countBased => { m with samples := m.samples.drop (m.samples.length - m.windowSize) }
  | .timeBased =>
      let cutoff := now - m.windowSize
      { m with samples := m.samples.dropWhile fun s => s.timestampMonotonic < cutoff }

def record (m : SlidingWindowMetrics) (success : Bool) (durationMs : ℚ) (now : Seconds)
    (poisonsHealth : Bool) : SlidingWindowMetrics :=
  let outcome : CallOutcome :=
    { success, durationMs, timestampMonotonic := now
      isSlow := m.slowCallDurationMs ≤ durationMs
      poisonsHealth }
  { m with samples := m.samples ++ [outcome] }.evictExpired now

/-- Calls per hundred; an empty window has rate zero. -/
def rate (part total : Nat) : ℚ := if total = 0 then 0 else part / total * 100

def snapshot (m : SlidingWindowMetrics) (now : Seconds) : MetricsSnapshot × SlidingWindowMetrics :=
  let window := m.evictExpired now
  let total := window.samples.length
  let failed := window.samples.countP fun s => !s.success && s.poisonsHealth
  let slow := window.samples.countP (·.isSlow)
  ({ totalCalls := total
     successCalls := window.samples.countP (·.success)
     failedCalls := failed
     slowCalls := slow
     failureRate := rate failed total
     slowCallRate := rate slow total }, window)

end SlidingWindowMetrics

end DuraLLM
