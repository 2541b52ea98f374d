import DuraLLM.Breaker.Discipline

/-! # The end of a half-open episode

A half-open breaker is evaluated by every call on it.  When the half-open time
is over, the evaluation ends the episode, but only if no probe is counted as in
flight: a probe that never reports keeps the breaker half open.  The calls that
find an overdue breaker with a probe in flight, and do not themselves report
its end, are exactly those that leave the episode as it is.
-/

namespace DuraLLM

namespace CircuitBreaker

variable (world : BreakerWorld)

/-- The reading on which the call evaluates the automatic transitions. -/
def evaluatedAt (b : CircuitBreaker) : BreakerOp → Option Seconds
  | .acquire | .observe | .snapshot => some (b.now world)
  -- A report has read the clock once before.
  | .report _ => some (b.ticked.now world)
  | .forceOpen | .forceClosed | .disable | .reset => none

/-- The call evaluates a breaker that has been half open for too long. -/
def Overdue (b : CircuitBreaker) (op : BreakerOp) : Prop :=
  b.state = .halfOpen ∧ ∃ now ∈ b.evaluatedAt world op,
    b.config.maxHalfOpenDurationMs / 1000 < now - b.halfOpenEnteredAt

/-- The call closes the breaker, or opens it with a wait that begins within the
    call. -/
def EndsEpisode (b : CircuitBreaker) (op : BreakerOp) : Prop :=
  let after := b.apply world op
  after.state = .closed ∨
    (after.state = .open ∧ ∃ k, b.reads ≤ k ∧ k < after.reads ∧ after.openedAt = world.clock k)

/-- A probe is counted as in flight, and the call is not a report on which the
    breaker closes or reopens. -/
def HeldOpen (b : CircuitBreaker) : BreakerOp → Prop
  | .report report => 0 < b.halfOpenInFlight ∧
      report.Lingers b.config.halfOpenMaxCalls b.halfOpenSuccesses
  | _ => 0 < b.halfOpenInFlight

/-- Every call of a run satisfies `P` in the breaker it is made on. -/
def Along (P : CircuitBreaker → BreakerOp → Prop) (b : CircuitBreaker) : List BreakerOp → Prop
  | [] => True
  | op :: ops => P b op ∧ (b.apply world op).Along P ops

instance (b : CircuitBreaker) (op : BreakerOp) : Decidable (b.Overdue world op) :=
  inferInstanceAs (Decidable (_ ∧ ∃ now ∈ b.evaluatedAt world op, _))

section Evaluation

variable {world} {b : CircuitBreaker} {now : Seconds}

theorem checkAndUpdateState_overdue (probing : b.state = .halfOpen)
    (late : b.config.maxHalfOpenDurationMs / 1000 < b.now world - b.halfOpenEnteredAt)
    (idle : b.halfOpenInFlight = 0) :
    let c := b.checkAndUpdateState world
    c.state = .open ∧ c.openedAt = b.now world ∧ b.reads < c.reads := by
  have later : b.reads < b.reads + 1 + 1 := by omega
  simp [checkAndUpdateState, probing, ProbesTimedOut, late, idle, emitTransition, ticked, later]

theorem checkAndUpdateState_probing (probing : b.state = .halfOpen)
    (flying : 0 < b.halfOpenInFlight) : b.checkAndUpdateState world = b.ticked := by
  have busy : b.halfOpenInFlight ≠ 0 := by omega
  simp [checkAndUpdateState, probing, ProbesTimedOut, busy]

/-- The calls that do nothing to the state beyond the evaluation. -/
theorem endsEpisode_iff_of_check {op : BreakerOp} (probing : b.state = .halfOpen)
    (late : b.config.maxHalfOpenDurationMs / 1000 < b.now world - b.halfOpenEnteredAt)
    (state : (b.apply world op).state = (b.checkAndUpdateState world).state)
    (opened : (b.apply world op).openedAt = (b.checkAndUpdateState world).openedAt)
    (reads : (b.checkAndUpdateState world).reads ≤ (b.apply world op).reads) :
    b.EndsEpisode world op ↔ ¬0 < b.halfOpenInFlight := by
  rcases Nat.eq_zero_or_pos b.halfOpenInFlight with idle | flying
  · obtain ⟨closed, timer, later⟩ := checkAndUpdateState_overdue probing late idle
    simp only [idle, lt_irrefl, not_false_iff, iff_true]
    refine .inr ⟨state.trans closed, b.reads, le_refl _, by omega, opened.trans timer⟩
  · rw [checkAndUpdateState_probing probing flying] at state
    have stays : (b.apply world op).state = .halfOpen := state.trans probing
    simp [EndsEpisode, stays, flying]

/-- A report ends an overdue episode on its evaluation if no probe is in flight,
    and else by its own transition. -/
theorem endsEpisode_report_iff (probing : b.state = .halfOpen) (report : Report)
    (late : b.config.maxHalfOpenDurationMs / 1000 < b.ticked.now world - b.halfOpenEnteredAt) :
    b.EndsEpisode world (.report report) ↔
      ¬(0 < b.halfOpenInFlight ∧
        report.Lingers b.config.halfOpenMaxCalls b.halfOpenSuccesses) := by
  rcases Nat.eq_zero_or_pos b.halfOpenInFlight with idle | flying
  · obtain ⟨opened, timer, later⟩ := checkAndUpdateState_overdue (b := b.ticked) probing late idle
    simp only [idle, lt_irrefl, false_and, not_false_iff, iff_true]
    refine .inr ⟨?_, b.ticked.reads, Nat.le_succ _, ?_, ?_⟩
    all_goals
      cases report <;>
        simp only [apply, CircuitBreaker.report, recordSuccess, recordFailure, opened, reduceCtorEq,
          false_and, if_false]
    all_goals assumption
  · have stays := @checkAndUpdateState_probing world b.ticked probing flying
    have probing' : b.ticked.ticked.state = .halfOpen := probing
    cases report with
    | success durationMs =>
        simp only [EndsEpisode, apply, CircuitBreaker.report, recordSuccess, stays, probing', if_true,
          probeSucceeded, Report.Lingers, flying, true_and, not_lt]
        split
        · next enough =>
          exact iff_of_true (.inl rfl) enough
        · next few =>
          refine iff_of_false ?_ few
          simp
    | failure durationMs error classification =>
        simp only [EndsEpisode, apply, CircuitBreaker.report, recordFailure, stays, probing', if_true,
          probeFailed, Report.Lingers, flying, true_and]
        split
        · next poisonous =>
          refine iff_of_true (.inr ⟨rfl, b.reads, le_refl _, ?_, rfl⟩) (by simp [poisonous])
          simp only [emitTransition, ticked]
          omega
        · next harmless =>
          refine iff_of_false ?_ (by simpa using harmless)
          simp

/-- The step lemma. -/
theorem endsEpisode_iff {op : BreakerOp} (overdue : b.Overdue world op) :
    b.EndsEpisode world op ↔ ¬b.HeldOpen op := by
  obtain ⟨probing, now, evaluated, late⟩ := overdue
  cases op with
  | acquire =>
      obtain rfl := Option.some.inj evaluated
      obtain ⟨-, state, opened, -, -, reads⟩ := @acquirePermission_frame world b
      exact endsEpisode_iff_of_check probing late state opened reads
  | observe =>
      obtain rfl := Option.some.inj evaluated
      exact endsEpisode_iff_of_check probing late rfl rfl (le_refl _)
  | snapshot =>
      obtain rfl := Option.some.inj evaluated
      exact endsEpisode_iff_of_check probing late rfl rfl (Nat.le_succ _)
  | report report =>
      obtain rfl := Option.some.inj evaluated
      exact endsEpisode_report_iff probing report late
  | forceOpen | forceClosed | disable | reset => cases evaluated

end Evaluation

theorem along_congr {P Q : CircuitBreaker → BreakerOp → Prop} (same : ∀ b op, P b op ↔ Q b op)
    (b : CircuitBreaker) (ops : List BreakerOp) : b.Along world P ops ↔ b.Along world Q ops := by
  induction ops generalizing b with
  | nil => exact Iff.rfl
  | cons op ops ih => exact and_congr (same b op) (ih _)

end CircuitBreaker

/-- In every run, all overdue evaluations end the episode exactly when none of
    them finds a probe in flight whose end it does not report itself. -/
theorem episodes_bounded_iff (world : BreakerWorld) (id : String) (config : CircuitBreakerConfig)
    (ops : List BreakerOp) :
    (CircuitBreaker.new id config).Along world
        (fun b op => b.Overdue world op → b.EndsEpisode world op) ops ↔
      (CircuitBreaker.new id config).Along world
        (fun b op => b.Overdue world op → ¬b.HeldOpen op) ops :=
  CircuitBreaker.along_congr world
    (fun _ _ => imp_congr_right CircuitBreaker.endsEpisode_iff) _ _

/-- The probe is admitted at 31 and the breaker is next looked at a minute later. -/
private def lostProbeClock : BreakerWorld where
  clock k := if k < 3 then 0 else if k < 5 then 31 else 91

private theorem lostProbeClock_monotone : Monotone lostProbeClock.clock := by
  intro j k le
  simp only [lostProbeClock]
  split_ifs <;> first | omega | decide

/-- A single probe that never reports keeps the breaker half open. -/
theorem lost_probe_holds_open :
    ¬ ∀ (world : BreakerWorld) (id : String) (config : CircuitBreakerConfig)
        (ops : List BreakerOp), Monotone world.clock →
        (CircuitBreaker.new id config).Along world
          (fun b op => b.Overdue world op → b.EndsEpisode world op) ops := by
  intro claim
  have bounded := claim lostProbeClock "a" { minimumNumberOfCalls := 1 }
    [.report (.failure 100 none none), .acquire, .observe] lostProbeClock_monotone
  rcases bounded.2.2.1 (by decide +kernel) with closed | ⟨opened, -⟩
  · exact absurd closed (by decide +kernel)
  · exact absurd opened (by decide +kernel)

end DuraLLM
