import DuraLLM.Breaker.CircuitBreaker

/-! # Transitions of the breaker

What each method can do to the state and the counters of a breaker, said once.
A method first evaluates the automatic transitions, `Check`, and then acts on
what they left: `Acquired` for a request for permission, `Reported` for a
report.  The view leaves out times and metrics; where a transition depends on
them it carries the condition.
-/

namespace DuraLLM

/-- The counters of a breaker with the transitions so far, the newest first. -/
structure BreakerView where
  state : CircuitBreakerState
  inFlight : Nat
  successes : Nat
  moves : List (CircuitBreakerState × CircuitBreakerState)

namespace BreakerView

/-- Half-open episodes are numbered from one on. -/
def episode (v : BreakerView) : Nat := v.moves.countP (·.2 = .halfOpen)

def moved (v : BreakerView) (next : CircuitBreakerState) : BreakerView :=
  { v with state := next, moves := (v.state, next) :: v.moves }

def cleared (v : BreakerView) : BreakerView := { v with inFlight := 0, successes := 0 }

theorem episode_moved (v : BreakerView) {next : CircuitBreakerState} (other : next ≠ .halfOpen) :
    (v.moved next).episode = v.episode := by
  simp [episode, moved, other]

theorem episode_entered (v : BreakerView) : (v.moved .halfOpen).episode = v.episode + 1 := by
  simp [episode, moved]

end BreakerView

namespace CircuitBreaker

variable (world : BreakerWorld)

def view (b : CircuitBreaker) : BreakerView where
  state := b.state
  inFlight := b.halfOpenInFlight
  successes := b.halfOpenSuccesses
  moves := b.emitted.map fun e => (e.fromState, e.toState)

def episode (b : CircuitBreaker) : Nat := b.view.episode

@[simp] theorem ticked_config (b : CircuitBreaker) : b.ticked.config = b.config := rfl

@[simp] theorem emitTransition_config (b : CircuitBreaker) (fromState : CircuitBreakerState)
    (reason : TransitionReason) : (b.emitTransition world fromState reason).config = b.config := rfl

/-- The automatic transitions. -/
inductive Check (b : CircuitBreaker) : BreakerView → Prop
  | stays (waiting : b.state = .open → ¬b.WaitOver (b.now world))
      (probing : b.state = .halfOpen → ¬b.ProbesTimedOut (b.now world)) : Check b b.view
  | trips (closed : b.state = .closed) : Check b (b.view.moved .open)
  | enters (opened : b.state = .open) (waited : b.WaitOver (b.now world)) :
      Check b (b.view.moved .halfOpen).cleared
  | timesOut (probing : b.state = .halfOpen) (late : b.ProbesTimedOut (b.now world)) :
      Check b (b.view.moved .open)

theorem Check.of_eq {b : CircuitBreaker} {v w : BreakerView} (check : b.Check world v)
    (same : w = v) : b.Check world w := same ▸ check

theorem checkAndUpdateState_check (b : CircuitBreaker) :
    b.Check world (b.checkAndUpdateState world).view := by
  unfold checkAndUpdateState
  cases state : b.state with
  | closed =>
      simp only
      split
      · refine Check.of_eq world (.trips state) ?_
        rw [BreakerView.moved, show b.view.state = .closed from state]
        rfl
      · exact .stays (by simp [state]) (by simp [state])
  | «open» =>
      simp only
      split
      · next elapsed =>
        refine Check.of_eq world (.enters state elapsed) ?_
        rw [BreakerView.moved, show b.view.state = .open from state]
        rfl
      · next waiting => exact .stays (fun _ => waiting) (by simp [state])
  | halfOpen =>
      simp only
      split
      · next elapsed =>
        refine Check.of_eq world (.timesOut state elapsed) ?_
        rw [BreakerView.moved, show b.view.state = .halfOpen from state]
        rfl
      · next probing => exact .stays (by simp [state]) (fun _ => probing)
  | forcedOpen | disabled | metricsOnly => exact .stays (by simp [state]) (by simp [state])

theorem checkAndUpdateState_config (b : CircuitBreaker) :
    (b.checkAndUpdateState world).config = b.config := by
  unfold checkAndUpdateState
  cases b.state <;> simp only <;> first | rfl | (split <;> rfl)

theorem evaluateClosedThresholds_view (b : CircuitBreaker) (now : Seconds) :
    (b.evaluateClosedThresholds world now).view = b.view ∨
      b.state = .closed ∧ (b.evaluateClosedThresholds world now).view = b.view.moved .open := by
  unfold evaluateClosedThresholds
  split
  · exact .inl rfl
  · next closed =>
    simp only
    split
    · exact .inl rfl
    · split
      · exact .inl rfl
      · refine .inr ⟨not_not.mp closed, ?_⟩
        rw [BreakerView.moved, show b.view.state = .closed from not_not.mp closed]
        rfl

theorem evaluateClosedThresholds_config (b : CircuitBreaker) (now : Seconds) :
    (b.evaluateClosedThresholds world now).config = b.config := by
  unfold evaluateClosedThresholds
  split
  · rfl
  · simp only
    split
    · rfl
    · split <;> rfl

end CircuitBreaker

/-! ## Reports -/

inductive Report where
  | success (durationMs : ℚ)
  | failure (durationMs : ℚ) (error : Option String) (classification : Option FailureClassification)
  deriving DecidableEq

namespace Report

def IsSuccess : Report → Prop
  | .success _ => True
  | .failure .. => False

instance : (report : Report) → Decidable report.IsSuccess
  | .success _ => inferInstanceAs (Decidable True)
  | .failure .. => inferInstanceAs (Decidable False)

/-- A half-open breaker with these counters stays half open on the report. -/
def Lingers (maxCalls successes : Nat) : Report → Prop
  | .success _ => successes + 1 < maxCalls
  | .failure _ _ classification => CircuitBreaker.poisons classification = false

instance (maxCalls successes : Nat) : (report : Report) → Decidable (report.Lingers maxCalls successes)
  | .success _ => inferInstanceAs (Decidable (_ < _))
  | .failure .. => inferInstanceAs (Decidable (_ = false))

end Report

namespace CircuitBreaker

variable (world : BreakerWorld)

def report (b : CircuitBreaker) : Report → CircuitBreaker
  | .success durationMs => b.recordSuccess world durationMs
  | .failure durationMs error classification =>
      b.recordFailure world durationMs error classification

/-- What a report does to a breaker that its check has left as `c`. -/
inductive Reported (maxCalls : Nat) (report : Report) (c : BreakerView) : BreakerView → Prop
  | recorded (state : c.state ≠ .halfOpen) : Reported maxCalls report c c
  | tripped (state : c.state = .closed) : Reported maxCalls report c (c.moved .open)
  | counted (state : c.state = .halfOpen) (lingers : report.Lingers maxCalls c.successes)
      {successes : Nat} (success : report.IsSuccess → successes = c.successes + 1)
      (failure : ¬report.IsSuccess → successes = c.successes) :
      Reported maxCalls report c { c with inFlight := c.inFlight - 1, successes }
  | closed (state : c.state = .halfOpen) (success : report.IsSuccess)
      (enough : maxCalls ≤ c.successes + 1) : Reported maxCalls report c (c.moved .closed).cleared
  | reopened (state : c.state = .halfOpen) (failure : ¬report.IsSuccess) :
      Reported maxCalls report c (c.moved .open).cleared

theorem Reported.of_eq {maxCalls : Nat} {report : Report} {c v w : BreakerView}
    (reported : Reported maxCalls report c v) (same : w = v) : Reported maxCalls report c w :=
  same ▸ reported

theorem recorded_or_tripped {maxCalls : Nat} {report : Report} {b c : CircuitBreaker}
    {now : Seconds} (same : c.view = b.view) (state : b.state ≠ .halfOpen) (evaluates : Bool) :
    Reported maxCalls report b.view
      (if c.state = .closed ∧ evaluates then c.evaluateClosedThresholds world now else c).view := by
  split
  · rcases evaluateClosedThresholds_view world c now with kept | ⟨closed, moved⟩
    · rw [kept, same]
      exact .recorded state
    · rw [moved, same]
      have closed' : b.view.state = .closed := same ▸ closed
      exact .tripped closed'
  · rw [same]
    exact .recorded state

theorem report_reported (b : CircuitBreaker) (report : Report) :
    ∃ c, b.ticked.Check world c ∧
      Reported b.config.halfOpenMaxCalls report c (b.report world report).view := by
  refine ⟨(b.ticked.checkAndUpdateState world).view, checkAndUpdateState_check world _, ?_⟩
  have config := checkAndUpdateState_config world b.ticked
  cases report with
  | success durationMs =>
      simp only [CircuitBreaker.report, recordSuccess]
      generalize b.ticked.checkAndUpdateState world = c at config
      rw [ticked_config] at config
      rw [← config]
      split
      · next halfOpen =>
        simp only [probeSucceeded]
        split
        · next enough =>
          refine .of_eq (.closed halfOpen trivial enough) ?_
          rw [BreakerView.moved, show c.view.state = .halfOpen from halfOpen]
          rfl
        · next few =>
          refine Reported.counted (c := c.view) halfOpen ?_ (fun _ => rfl)
            fun failed => absurd trivial failed
          exact not_le.mp few
      · next other =>
        simpa only [and_true] using recorded_or_tripped (b := c) world
          (c := { c with metrics := c.metrics.record true durationMs (b.now world) true }) rfl other
          true
  | failure durationMs error classification =>
      simp only [CircuitBreaker.report, recordFailure]
      generalize b.ticked.checkAndUpdateState world = c
      split
      · next halfOpen =>
        simp only [probeFailed]
        split
        · refine .of_eq (.reopened halfOpen False.elim) ?_
          rw [BreakerView.moved, show c.view.state = .halfOpen from halfOpen]
          rfl
        · next harmless =>
          refine Reported.counted (c := c.view) halfOpen ?_ (fun success => success.elim)
            fun _ => rfl
          exact Bool.eq_false_iff.mpr harmless
      · next other =>
        exact recorded_or_tripped (b := c) world (c := { c with
          metrics := c.metrics.record false durationMs (b.now world) (poisons classification) })
          rfl other (poisons classification)

theorem report_config (b : CircuitBreaker) (report : Report) :
    (b.report world report).config = b.config := by
  have config := checkAndUpdateState_config world b.ticked
  cases report with
  | success durationMs =>
      simp only [CircuitBreaker.report, recordSuccess, probeSucceeded]
      split
      · split <;> simp only [emitTransition_config, config, ticked_config]
      · split
        · simp only [evaluateClosedThresholds_config, config, ticked_config]
        · simp only [config, ticked_config]
  | failure durationMs error classification =>
      simp only [CircuitBreaker.report, recordFailure, probeFailed]
      split
      · split <;> simp only [emitTransition_config, config, ticked_config]
      · split
        · simp only [evaluateClosedThresholds_config, config, ticked_config]
        · simp only [config, ticked_config]

/-- What asking for permission does to a breaker that its check has left as `c`. -/
inductive Acquired (maxCalls : Nat) (c : BreakerView) :
    Except BreakerError Unit → BreakerView → Prop
  | refused (e : BreakerError) : Acquired maxCalls c (.error e) c
  | admitted (state : c.state ≠ .halfOpen) : Acquired maxCalls c (.ok ()) c
  | probe (state : c.state = .halfOpen) (free : c.inFlight < maxCalls) :
      Acquired maxCalls c (.ok ()) { c with inFlight := c.inFlight + 1 }

theorem acquirePermission_acquired (b : CircuitBreaker) :
    ∃ c, b.Check world c ∧ Acquired b.config.halfOpenMaxCalls c (b.acquirePermission world).1
      (b.acquirePermission world).2.view := by
  refine ⟨_, checkAndUpdateState_check world b, ?_⟩
  have config := checkAndUpdateState_config world b
  rw [← config]
  unfold acquirePermission
  generalize b.checkAndUpdateState world = c
  simp only
  split
  · exact .refused _
  · next state => exact .admitted (by simp [view, state])
  · next state => exact .admitted (by simp [view, state])
  · next state => exact .admitted (by simp [view, state])
  · exact .refused _
  · next state =>
    split
    · exact .refused _
    · next free => exact .probe (c := c.view) state (not_le.mp free)

theorem acquirePermission_config (b : CircuitBreaker) :
    (b.acquirePermission world).2.config = b.config := by
  have config := checkAndUpdateState_config world b
  unfold acquirePermission
  generalize b.checkAndUpdateState world = c at config
  cases state : c.state with
  | halfOpen =>
      simp only [state]
      split <;> exact config
  | closed | «open» | forcedOpen | disabled | metricsOnly =>
      simpa only [state, ticked_config] using config

end CircuitBreaker

end DuraLLM
