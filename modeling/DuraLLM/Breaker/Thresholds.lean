import DuraLLM.Breaker.Discipline
import Mathlib.Data.List.DropRight

/-! # The thresholds of a closed breaker

A count-based window holds the end of what was recorded since the breaker was
last closed.  So a closed breaker opens exactly when the last outcomes, as many
as the window has room for, reach one of the two thresholds, and when the call
is one after which the thresholds are looked at.
-/

namespace DuraLLM

/-- What the window keeps of an outcome, apart from its time. -/
structure OutcomeKind where
  success : Bool
  isSlow : Bool
  poisonsHealth : Bool
  deriving DecidableEq

def CallOutcome.kind (s : CallOutcome) : OutcomeKind := ⟨s.success, s.isSlow, s.poisonsHealth⟩

namespace Report

def kind (config : CircuitBreakerConfig) : Report → OutcomeKind
  | .success durationMs => ⟨true, config.slowCallDurationMs ≤ durationMs, true⟩
  | .failure durationMs _ classification =>
      ⟨false, config.slowCallDurationMs ≤ durationMs, CircuitBreaker.poisons classification⟩

/-- A success, or a failure that counts against the provider. -/
def IsWeighed : Report → Prop
  | .success _ => True
  | .failure _ _ classification => CircuitBreaker.poisons classification = true

instance : (report : Report) → Decidable report.IsWeighed
  | .success _ => inferInstanceAs (Decidable True)
  | .failure .. => inferInstanceAs (Decidable (_ = true))

end Report

/-- Calls per hundred. -/
def perHundred (window : List OutcomeKind) (counts : OutcomeKind → Bool) : ℚ :=
  (window.countP counts : ℚ) / window.length * 100

/-- There are enough calls, and too many of them failed or were slow. -/
structure Breaches (config : CircuitBreakerConfig) (window : List OutcomeKind) : Prop where
  enough : config.minimumNumberOfCalls ≤ window.length
  rates : config.failureRateThreshold ≤ perHundred window (fun o => !o.success && o.poisonsHealth) ∨
    config.slowCallRateThreshold ≤ perHundred window (·.isSlow)

instance (config : CircuitBreakerConfig) (window : List OutcomeKind) :
    Decidable (Breaches config window) :=
  decidable_of_iff
    (config.minimumNumberOfCalls ≤ window.length ∧
      (config.failureRateThreshold ≤
          perHundred window (fun o => !o.success && o.poisonsHealth) ∨
        config.slowCallRateThreshold ≤ perHundred window (·.isSlow)))
    ⟨fun h => ⟨h.1, h.2⟩, fun h => ⟨h.enough, h.rates⟩⟩

/-! ## The window -/

/-- Once more than the window holds, the oldest make room. -/
theorem rtake_rtake_append {α : Type} (n : Nat) (xs : List α) (x : α) :
    (xs.rtake n ++ [x]).rtake n = (xs ++ [x]).rtake n := by
  cases n with
  | zero => simp
  | succ n =>
      rw [List.rtake_concat_succ, List.rtake_concat_succ]
      simp only [List.rtake, List.length_drop, List.drop_drop]
      congr 2
      omega

namespace SlidingWindowMetrics

/-- A count-based window that holds no more than it may. -/
structure Settled (m : SlidingWindowMetrics) : Prop where
  counts : m.windowType = .countBased
  fits : m.samples.length ≤ m.windowSize

theorem Settled.evictExpired {m : SlidingWindowMetrics} (settled : m.Settled) (now : Seconds) :
    m.evictExpired now = m := by
  obtain ⟨type, size, slow, samples⟩ := m
  obtain ⟨counts, fits⟩ := settled
  cases counts
  have none : samples.length - size = 0 := Nat.sub_eq_zero_of_le fits
  simp only [SlidingWindowMetrics.evictExpired, none, List.drop_zero]

theorem Settled.snapshot {m : SlidingWindowMetrics} (settled : m.Settled) (now : Seconds) :
    (m.snapshot now).2 = m :=
  settled.evictExpired now

theorem Settled.reset {m : SlidingWindowMetrics} (settled : m.Settled) : m.reset.Settled :=
  ⟨settled.counts, Nat.zero_le _⟩

theorem record_samples {m : SlidingWindowMetrics} (counts : m.windowType = .countBased)
    (success : Bool) (durationMs : ℚ) (now : Seconds) (poisonsHealth : Bool) :
    m.record success durationMs now poisonsHealth =
      let outcome : CallOutcome :=
        { success, durationMs, timestampMonotonic := now
          isSlow := m.slowCallDurationMs ≤ durationMs
          poisonsHealth }
      { m with samples := (m.samples ++ [outcome]).rtake m.windowSize } := by
  simp only [record, SlidingWindowMetrics.evictExpired, counts]
  rfl

end SlidingWindowMetrics

/-- The window of a breaker holds the end of these outcomes. -/
structure Tallied (outcomes : List OutcomeKind) (b : CircuitBreaker) : Prop where
  counts : b.metrics.windowType = .countBased
  size : b.metrics.windowSize = b.config.slidingWindowSize
  slow : b.metrics.slowCallDurationMs = b.config.slowCallDurationMs
  samples : b.metrics.samples.map (·.kind) = outcomes.rtake b.config.slidingWindowSize

namespace Tallied

variable {outcomes : List OutcomeKind} {b c : CircuitBreaker}

theorem settled (tallied : Tallied outcomes b) : b.metrics.Settled where
  counts := tallied.counts
  fits := by
    have size := congrArg List.length tallied.samples
    rw [List.length_map, List.rtake, List.length_drop] at size
    rw [tallied.size]
    omega

/-- Only the metrics and the configuration are looked at. -/
theorem of_eq (tallied : Tallied outcomes b) (config : c.config = b.config)
    (metrics : c.metrics = b.metrics) : Tallied outcomes c := by
  obtain ⟨counts, size, slow, samples⟩ := tallied
  constructor
  · rw [metrics, counts]
  · rw [metrics, config, size]
  · rw [metrics, config, slow]
  · rw [metrics, config, samples]

theorem emptied (tallied : Tallied outcomes b) (config : c.config = b.config)
    (metrics : c.metrics = b.metrics.reset) : Tallied [] c := by
  obtain ⟨counts, size, slow, -⟩ := tallied
  constructor
  · rw [metrics, ← counts]
    rfl
  · rw [metrics, config, ← size]
    rfl
  · rw [metrics, config, ← slow]
    rfl
  · rw [metrics]
    simp [SlidingWindowMetrics.reset]

theorem record (tallied : Tallied outcomes b) (success : Bool) (durationMs : ℚ) (now : Seconds)
    (poisonsHealth : Bool) :
    Tallied (outcomes ++ [⟨success, b.config.slowCallDurationMs ≤ durationMs, poisonsHealth⟩])
      { b with metrics := b.metrics.record success durationMs now poisonsHealth } := by
  rw [SlidingWindowMetrics.record_samples tallied.counts]
  refine ⟨tallied.counts, tallied.size, tallied.slow, ?_⟩
  have cut : ∀ (n : Nat) (xs : List CallOutcome),
      (xs.rtake n).map (·.kind) = (xs.map (·.kind)).rtake n := by
    intro n xs
    simp [List.rtake, List.map_drop]
  simp only [cut, List.map_append, List.map_singleton, tallied.size, tallied.slow, tallied.samples]
  exact rtake_rtake_append _ _ _

theorem emitTransition {world : BreakerWorld} (tallied : Tallied outcomes b)
    (fromState : CircuitBreakerState) (reason : TransitionReason) :
    Tallied outcomes (b.emitTransition world fromState reason) :=
  tallied.of_eq rfl (tallied.settled.snapshot _)

theorem checkAndUpdateState {world : BreakerWorld} (tallied : Tallied outcomes b) :
    Tallied outcomes (b.checkAndUpdateState world) := by
  unfold CircuitBreaker.checkAndUpdateState
  cases b.state with
  | closed | «open» | halfOpen =>
      simp only
      split
      · apply Tallied.emitTransition
        exact tallied.of_eq rfl rfl
      · exact tallied.of_eq rfl rfl
  | forcedOpen | disabled | metricsOnly => exact tallied.of_eq rfl rfl

/-- The snapshot of a window with something in it. -/
theorem snapshot (tallied : Tallied outcomes b) (some : b.metrics.samples ≠ []) (now : Seconds) :
    let shown := (b.metrics.snapshot now).1
    let window := outcomes.rtake b.config.slidingWindowSize
    shown.totalCalls = window.length ∧
      shown.failureRate = perHundred window (fun o => !o.success && o.poisonsHealth) ∧
      shown.slowCallRate = perHundred window (·.isSlow) := by
  have size : b.metrics.samples.length = (outcomes.rtake b.config.slidingWindowSize).length := by
    rw [← tallied.samples, List.length_map]
  have rate : ∀ p : OutcomeKind → Bool,
      SlidingWindowMetrics.rate (b.metrics.samples.countP (p ·.kind)) b.metrics.samples.length =
        perHundred (outcomes.rtake b.config.slidingWindowSize) p := by
    intro p
    have positive : b.metrics.samples.length ≠ 0 :=
      fun empty => some (List.length_eq_zero_iff.mp empty)
    rw [SlidingWindowMetrics.rate, if_neg positive, perHundred, ← size, ← tallied.samples,
      List.countP_map]
    rfl
  simp only [SlidingWindowMetrics.snapshot, tallied.settled.evictExpired]
  exact ⟨size, rate fun o => !o.success && o.poisonsHealth, rate (·.isSlow)⟩

end Tallied

namespace CircuitBreaker

variable {world : BreakerWorld}

theorem tripReason_eq_none (config : CircuitBreakerConfig) (snapshot : MetricsSnapshot) :
    tripReason config snapshot = none ↔
      ¬(config.failureRateThreshold ≤ snapshot.failureRate ∨
        config.slowCallRateThreshold ≤ snapshot.slowCallRate) := by
  unfold tripReason
  split_ifs <;> simp [*]

/-- A closed breaker weighs what its window holds. -/
theorem evaluateClosedThresholds_tallied (world : BreakerWorld) {outcomes : List OutcomeKind}
    {b : CircuitBreaker} (tallied : Tallied outcomes b) (some : b.metrics.samples ≠ [])
    (closed : b.state = .closed) (now : Seconds) :
    Tallied outcomes (b.evaluateClosedThresholds world now) ∧
      (b.evaluateClosedThresholds world now).state =
        if Breaches b.config (outcomes.rtake b.config.slidingWindowSize) then .open
        else .closed := by
  have kept := tallied.settled.snapshot now
  obtain ⟨total, failed, slow⟩ := tallied.snapshot some now
  have quiet : Tallied outcomes { b with metrics := (b.metrics.snapshot now).2 } :=
    tallied.of_eq rfl kept
  unfold evaluateClosedThresholds
  rw [if_neg (not_not.mpr closed)]
  simp only
  split
  · next few =>
    refine ⟨quiet, ?_⟩
    rw [if_neg fun breach => absurd breach.enough (by omega)]
    exact closed
  · next enough =>
    have reasons := tripReason_eq_none b.config (b.metrics.snapshot now).1
    rw [failed, slow] at reasons
    cases reason : tripReason b.config (b.metrics.snapshot now).1 with
    | none =>
        refine ⟨quiet, ?_⟩
        rw [if_neg fun breach => reasons.mp reason breach.rates]
        exact closed
    | some reason' =>
        refine ⟨?_, ?_⟩
        · apply Tallied.emitTransition
          exact quiet.of_eq rfl rfl
        · have rates := not_not.mp fun none =>
            Option.some_ne_none _ (reason.symm.trans (reasons.mpr none))
          rw [if_pos ⟨by omega, rates⟩]
          rfl

/-! ## Runs -/

variable (world)

/-- What the call adds to the window. Outcomes of probes are counted apart. -/
def recordedBy (b : CircuitBreaker) : BreakerOp → List OutcomeKind
  | .report report =>
      if (b.ticked.checkAndUpdateState world).state = .halfOpen then [] else [report.kind b.config]
  | _ => []

def BecomesClosed (b : CircuitBreaker) (op : BreakerOp) : Prop :=
  b.state ≠ .closed ∧ (b.apply world op).state = .closed

/-- The call closes the breaker, or an administrator clears a closed one. -/
def StartsOver (b : CircuitBreaker) (op : BreakerOp) : Prop :=
  b.BecomesClosed world op ∨ op = .forceClosed ∨ op = .reset

instance (b : CircuitBreaker) (op : BreakerOp) : Decidable (b.BecomesClosed world op) :=
  inferInstanceAs (Decidable (_ ∧ _))

instance (b : CircuitBreaker) (op : BreakerOp) : Decidable (b.StartsOver world op) :=
  inferInstanceAs (Decidable (_ ∨ _))

/-- The outcomes recorded since the last call that `starts`. -/
def outcomesSince (starts : CircuitBreaker → BreakerOp → Prop)
    [∀ b op, Decidable (starts b op)] (b : CircuitBreaker) (outcomes : List OutcomeKind) :
    List BreakerOp → List OutcomeKind
  | [] => outcomes
  | op :: ops =>
      outcomesSince starts (b.apply world op)
        (if starts b op then [] else outcomes ++ b.recordedBy world op) ops

variable {world}

theorem closed_of_checkAndUpdateState {b : CircuitBreaker}
    (closed : (b.checkAndUpdateState world).state = .closed) : b.state = .closed := by
  unfold checkAndUpdateState at closed
  cases state : b.state with
  | closed => rfl
  | «open» | halfOpen =>
      simp only [state] at closed
      split at closed
      · cases closed
      · exact absurd (state.symm.trans closed) (by simp)
  | forcedOpen | disabled | metricsOnly =>
      simp only [state] at closed
      exact absurd (state.symm.trans closed) (by simp)

section Step

variable {outcomes : List OutcomeKind} {b : CircuitBreaker}

theorem checkAndUpdateState_tallied (world : BreakerWorld) (tallied : Tallied outcomes b) :
    Tallied outcomes (b.checkAndUpdateState world) ∧
      (b.checkAndUpdateState world).config = b.config :=
  ⟨tallied.checkAndUpdateState, checkAndUpdateState_config world b⟩

/-- Outside a half-open episode a report is recorded, and then the thresholds
    are looked at where the breaker is closed and the report is weighed. -/
theorem report_recorded (tallied : Tallied outcomes b) (report : Report)
    (settled : (b.ticked.checkAndUpdateState world).state ≠ .halfOpen) :
    ∃ c, Tallied (outcomes ++ [report.kind b.config]) c ∧ c.config = b.config ∧
      c.state = (b.ticked.checkAndUpdateState world).state ∧
      b.report world report =
        if c.state = .closed ∧ report.IsWeighed then
          c.evaluateClosedThresholds world (b.now world)
        else c := by
  have checked : Tallied outcomes (b.ticked.checkAndUpdateState world) :=
    (tallied.of_eq rfl rfl : Tallied outcomes b.ticked).checkAndUpdateState
  have config : (b.ticked.checkAndUpdateState world).config = b.config :=
    checkAndUpdateState_config world b.ticked
  have kind : report.kind (b.ticked.checkAndUpdateState world).config = report.kind b.config :=
    congrArg report.kind config
  rw [← kind]
  cases report with
  | success durationMs =>
      refine ⟨_, checked.record true durationMs (b.now world) true, config, rfl, ?_⟩
      simp only [CircuitBreaker.report, recordSuccess, if_neg settled, Report.IsWeighed, and_true]
  | failure durationMs error classification =>
      have recorded := checked.record false durationMs (b.now world) (poisons classification)
      refine ⟨_, recorded, config, rfl, ?_⟩
      simp only [CircuitBreaker.report, recordFailure, if_neg settled]
      rfl

/-- A probe that closes the breaker empties the window, any other leaves it. -/
theorem report_probe (tallied : Tallied outcomes b) (report : Report)
    (probing : (b.ticked.checkAndUpdateState world).state = .halfOpen) :
    Tallied (if (b.report world report).state = .closed then [] else outcomes)
      (b.report world report) := by
  have checked : Tallied outcomes (b.ticked.checkAndUpdateState world) :=
    (tallied.of_eq rfl rfl : Tallied outcomes b.ticked).checkAndUpdateState
  cases report with
  | success durationMs =>
      simp only [CircuitBreaker.report, recordSuccess, if_pos probing, probeSucceeded]
      split
      · split
        · apply Tallied.emitTransition
          exact checked.emptied rfl rfl
        · next other => exact absurd rfl other
      · rw [if_neg (by simp [probing])]
        exact checked.of_eq rfl rfl
  | failure durationMs error classification =>
      simp only [CircuitBreaker.report, recordFailure, if_pos probing, probeFailed]
      split
      · split
        · next closed => cases closed
        · apply Tallied.emitTransition
          exact checked.of_eq rfl rfl
      · rw [if_neg (by simp [probing])]
        exact checked.of_eq rfl rfl

theorem samples_ne_nil {kind : OutcomeKind} (tallied : Tallied (outcomes ++ [kind]) b)
    (room : 1 ≤ b.config.slidingWindowSize) : b.metrics.samples ≠ [] := by
  intro empty
  have held := tallied.samples
  rw [empty, ← Nat.sub_add_cancel room, List.rtake_concat_succ] at held
  simp at held

/-- A report to a closed breaker that no cluster store can open. -/
theorem report_closed (tallied : Tallied outcomes b) (alone : ∀ n, world.remoteOpen n = false)
    (closed : b.state = .closed) (room : 1 ≤ b.config.slidingWindowSize) (report : Report) :
    (b.report world report).state =
      if report.IsWeighed ∧
          Breaches b.config ((outcomes ++ [report.kind b.config]).rtake b.config.slidingWindowSize)
      then .open else .closed := by
  have stays : (b.ticked.checkAndUpdateState world).state = .closed := by
    simp [checkAndUpdateState, closed, ticked, alone]
  obtain ⟨c, recorded, config, state, same⟩ := report_recorded tallied report
    (fun probing => absurd (stays.symm.trans probing) (by simp))
  rw [stays] at state
  rw [same]
  by_cases weighed : report.IsWeighed
  · rw [← config] at room
    have verdict := (evaluateClosedThresholds_tallied world recorded
      (samples_ne_nil recorded room) state (b.now world)).2
    rw [config] at verdict
    simpa only [state, weighed, and_self, if_true, true_and] using verdict
  · simpa only [weighed, and_false, if_false, false_and] using state

/-- A call that does not close the breaker, and is no administrator's, starts nothing. -/
theorem not_startsOver {op : BreakerOp}
    (closed : (b.apply world op).state = .closed → b.state = .closed)
    (notForced : op ≠ .forceClosed) (notReset : op ≠ .reset) : ¬b.StartsOver world op := by
  intro starts
  rcases starts with becomes | forced | reset
  · exact becomes.1 (closed becomes.2)
  · exact notForced forced
  · exact notReset reset

/-- A call that records nothing and leaves the window alone. -/
theorem apply_idle {op : BreakerOp} (stays : ¬b.StartsOver world op)
    (nothing : b.recordedBy world op = []) (tallied : Tallied outcomes (b.apply world op)) :
    Tallied (if b.StartsOver world op then [] else outcomes ++ b.recordedBy world op)
      (b.apply world op) := by
  rw [if_neg stays, nothing, List.append_nil]
  exact tallied

theorem apply_report_tallied (tallied : Tallied outcomes b)
    (room : 1 ≤ b.config.slidingWindowSize) (report : Report) :
    Tallied (if b.StartsOver world (.report report) then []
        else outcomes ++ b.recordedBy world (.report report)) (b.report world report) := by
  by_cases probing : (b.ticked.checkAndUpdateState world).state = .halfOpen
  · have probed := report_probe tallied report probing
    have opened : b.state ≠ .closed := by
      intro closed
      simp only [checkAndUpdateState, ticked, closed] at probing
      split at probing <;> cases probing
    rw [recordedBy, if_pos probing, List.append_nil]
    simpa [StartsOver, BecomesClosed, opened, apply] using probed
  · obtain ⟨c, recorded, config, state, same⟩ := report_recorded tallied report probing
    have wasClosed : c.state = .closed → b.state = .closed := fun closed =>
      closed_of_checkAndUpdateState (b := b.ticked) (state.symm.trans closed)
    rw [recordedBy, if_neg probing]
    by_cases weighs : c.state = .closed ∧ report.IsWeighed
    · rw [if_pos weighs] at same
      rw [← config] at room
      have weighed := evaluateClosedThresholds_tallied world recorded
        (samples_ne_nil recorded room) weighs.1 (b.now world)
      rw [if_neg (not_startsOver (fun _ => wasClosed weighs.1) (by simp) (by simp)), same]
      exact weighed.1
    · rw [if_neg weighs] at same
      have stays : ¬b.StartsOver world (.report report) := by
        apply not_startsOver _ (by simp) (by simp)
        rw [apply, same]
        exact wasClosed
      rw [if_neg stays, same]
      exact recorded

/-- What a call leaves the window with, whatever it does to the state. -/
theorem apply_tallied (world : BreakerWorld) (tallied : Tallied outcomes b)
    (room : 1 ≤ b.config.slidingWindowSize) (op : BreakerOp) :
    Tallied (if b.StartsOver world op then [] else outcomes ++ b.recordedBy world op)
        (b.apply world op) ∧
      (b.apply world op).config = b.config := by
  obtain ⟨checked, checkedConfig⟩ := checkAndUpdateState_tallied world tallied
  cases op with
  | acquire =>
      obtain ⟨config, state, -, -, -, -⟩ := @acquirePermission_frame world b
      have metrics : (b.acquirePermission world).2.metrics =
          (b.checkAndUpdateState world).metrics := by
        unfold acquirePermission
        simp only
        split <;> first | rfl | (split <;> rfl)
      refine ⟨apply_idle ?_ rfl (checked.of_eq config metrics), config.trans checkedConfig⟩
      apply not_startsOver _ (by simp) (by simp)
      intro closed
      exact closed_of_checkAndUpdateState (state.symm.trans closed)
  | report report => exact ⟨apply_report_tallied tallied room report, report_config world b report⟩
  | observe =>
      exact ⟨apply_idle (not_startsOver closed_of_checkAndUpdateState (by simp) (by simp)) rfl
        checked, checkedConfig⟩
  | snapshot =>
      exact ⟨apply_idle (not_startsOver closed_of_checkAndUpdateState (by simp) (by simp)) rfl
        (checked.of_eq rfl (checked.settled.snapshot _)), checkedConfig⟩
  | forceOpen | disable =>
      refine ⟨apply_idle ?_ rfl ?_, rfl⟩
      · exact not_startsOver (fun closed => by cases closed) (by simp) (by simp)
      apply Tallied.emitTransition
      exact tallied.of_eq rfl rfl
  | forceClosed =>
      refine ⟨?_, rfl⟩
      rw [if_pos (.inr (.inl rfl))]
      apply Tallied.emitTransition
      exact tallied.emptied rfl rfl
  | reset =>
      rw [if_pos (.inr (.inr rfl))]
      simp only [apply, reset]
      split
      · exact ⟨tallied.emptied rfl rfl, rfl⟩
      · refine ⟨?_, rfl⟩
        apply Tallied.emitTransition
        exact tallied.emptied rfl rfl

theorem applyAll_tallied (world : BreakerWorld) (tallied : Tallied outcomes b)
    (room : 1 ≤ b.config.slidingWindowSize) (ops : List BreakerOp) :
    Tallied (b.outcomesSince world (StartsOver world) outcomes ops) (b.applyAll world ops) ∧
      (b.applyAll world ops).config = b.config := by
  induction ops generalizing b outcomes with
  | nil => exact ⟨tallied, rfl⟩
  | cons op ops ih =>
      obtain ⟨next, config⟩ := apply_tallied world tallied room op
      obtain ⟨last, kept⟩ := ih next (by rw [config]; exact room)
      exact ⟨last, kept.trans config⟩

end Step

/-- A report to a closed breaker opens it exactly when it is weighed and, with
    it, the last outcomes since the breaker was last closed or cleared reach a
    threshold; else the breaker stays closed. -/
theorem trips_on_thresholds {world : BreakerWorld} (alone : ∀ n, world.remoteOpen n = false)
    (id : String) {config : CircuitBreakerConfig} (counts : config.slidingWindowType = .countBased)
    (room : 1 ≤ config.slidingWindowSize) (ops : List BreakerOp)
    (closed : ((new id config).applyAll world ops).state = .closed) (report : Report) :
    let b := (new id config).applyAll world ops
    let outcomes := (new id config).outcomesSince world (StartsOver world) [] ops
    ((b.report world report).state = .open ↔
        report.IsWeighed ∧
          Breaches config ((outcomes ++ [report.kind config]).rtake config.slidingWindowSize)) ∧
      ((b.report world report).state = .open ∨ (b.report world report).state = .closed) := by
  intro b outcomes
  have start : Tallied [] (new id config) := ⟨counts, rfl, rfl, by simp [new]⟩
  obtain ⟨tallied, same⟩ := applyAll_tallied world start room ops
  have verdict := report_closed tallied alone closed (by rw [same]; exact room) report
  rw [same] at verdict
  change (b.report world report).state = if report.IsWeighed ∧ Breaches config
    ((outcomes ++ [report.kind config]).rtake config.slidingWindowSize) then _ else _ at verdict
  rw [verdict]
  split
  · next trips => exact ⟨⟨fun _ => trips, fun _ => rfl⟩, .inl rfl⟩
  · next stays =>
    exact ⟨⟨fun opened => (by cases opened), fun trips => absurd trips stays⟩, .inr rfl⟩

/-- A world without other gateways, where no time passes. -/
private def stillWorld : BreakerWorld where
  clock _ := 0

/-- Two failed calls open the breaker. -/
private def wary : CircuitBreakerConfig where
  minimumNumberOfCalls := 2
  slidingWindowSize := 2

private def refusal : Report := .failure 100 none none

theorem trips_on_second_failure :
    (((new "a" wary).applyAll stillWorld [.acquire, .report refusal]).report stillWorld
        refusal).state = .open ∧
      (refusal.IsWeighed ∧ Breaches wary
        (((new "a" wary).outcomesSince stillWorld (StartsOver stillWorld) []
          [.acquire, .report refusal] ++ [refusal.kind wary]).rtake 2)) := by
  have opened : (((new "a" wary).applyAll stillWorld [.acquire, .report refusal]).report stillWorld
      refusal).state = .open := by decide +kernel
  exact ⟨opened, (trips_on_thresholds (fun _ => rfl) "a" rfl (by decide)
    [.acquire, .report refusal] (by decide +kernel) refusal).1.mp opened⟩

/-- A reset clears a closed breaker, which was closed before and stays so. -/
theorem reset_forgets_failure :
    let b := (new "a" wary).applyAll stillWorld [.report refusal, .reset]
    let outcomes := (new "a" wary).outcomesSince stillWorld (BecomesClosed stillWorld) []
      [.report refusal, .reset]
    b.state = .closed ∧ refusal.IsWeighed ∧
      Breaches wary ((outcomes ++ [refusal.kind wary]).rtake wary.slidingWindowSize) ∧
      (b.report stillWorld refusal).state = .closed := by
  decide +kernel

end CircuitBreaker

end DuraLLM
