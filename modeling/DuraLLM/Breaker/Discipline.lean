import DuraLLM.Breaker.Transitions
import Mathlib.Order.Monotone.Basic
import Mathlib.Tactic.Linarith

/-! # Discipline of the breaker

A breaker on its own, called in any order.  Its transitions are logged with the
clock reading at the start of the call that made them and the breaker which that
call left behind.  Every call is an automatic transition followed by the
transition of the method, each of them a `Shift`, so that the shape of the log
is an invariant of `Shift`.
-/

namespace DuraLLM

inductive BreakerOp where
  | acquire
  | report (report : Report)
  | observe
  | snapshot
  | forceOpen
  | forceClosed
  | disable
  | reset
  deriving DecidableEq

namespace BreakerOp

def IsAdministrative : BreakerOp → Prop
  | .acquire | .report _ | .observe | .snapshot => False
  | .forceOpen | .forceClosed | .disable | .reset => True

/-- The calls that take a forced-open breaker out of its state. -/
def Unlocks : BreakerOp → Prop
  | .forceClosed | .disable | .reset => True
  | .acquire | .report _ | .observe | .snapshot | .forceOpen => False

instance : (op : BreakerOp) → Decidable op.IsAdministrative
  | .acquire | .report _ | .observe | .snapshot => inferInstanceAs (Decidable False)
  | .forceOpen | .forceClosed | .disable | .reset => inferInstanceAs (Decidable True)

instance : (op : BreakerOp) → Decidable op.Unlocks
  | .forceClosed | .disable | .reset => inferInstanceAs (Decidable True)
  | .acquire | .report _ | .observe | .snapshot | .forceOpen => inferInstanceAs (Decidable False)

end BreakerOp

namespace CircuitBreaker

variable (world : BreakerWorld)

def apply (b : CircuitBreaker) : BreakerOp → CircuitBreaker
  | .acquire => (b.acquirePermission world).2
  | .report report => b.report world report
  | .observe => (b.observe world).2
  | .snapshot => (b.snapshot world).2
  | .forceOpen => b.forceOpen world
  | .forceClosed => b.forceClosed world
  | .disable => b.disable world
  | .reset => b.reset world

def applyAll (b : CircuitBreaker) (ops : List BreakerOp) : CircuitBreaker :=
  ops.foldl (apply world) b

/-- What the breaker emits in a call that leaves it as `c`. -/
def newEvents (b c : CircuitBreaker) : List StateTransitionEvent :=
  c.emitted.take (c.emitted.length - b.emitted.length)

end CircuitBreaker

/-- A transition, the clock reading at the start of the call that made it, and
    the breaker as that call left it. -/
structure LoggedTransition where
  event : StateTransitionEvent
  callStart : Seconds
  after : CircuitBreaker

/-- The state after these transitions, the newest first. -/
def stateAfter : List LoggedTransition → CircuitBreakerState
  | [] => .closed
  | t :: _ => t.event.toState

/-- The transitions that happen without an administrator. -/
def Automatic (fromState toState : CircuitBreakerState) : Prop :=
  (fromState = .closed ∧ toState = .open) ∨ (fromState = .open ∧ toState = .halfOpen) ∨
    (fromState = .halfOpen ∧ toState = .closed) ∨ (fromState = .halfOpen ∧ toState = .open)

/-- A log, the newest transition first. Each transition is automatic and leads on
    from the one before it; the breaker turns half open only after it has waited
    from the start of the call that opened it; and it closes with an empty
    window. -/
def Disciplined (wait : Seconds) : List LoggedTransition → Prop
  | [] => True
  | t :: older =>
      Automatic t.event.fromState t.event.toState ∧ t.event.fromState = stateAfter older ∧
        (t.event.toState = .halfOpen → ∃ opening ∈ older.head?,
          opening.callStart + wait ≤ t.after.halfOpenEnteredAt ∧
            t.after.halfOpenEnteredAt ≤ t.event.timestampMonotonic) ∧
        (t.event.toState = .closed → t.after.metrics.samples = []) ∧
        Disciplined wait older

structure LoggedBreaker where
  breaker : CircuitBreaker
  log : List LoggedTransition := []

namespace LoggedBreaker

variable (world : BreakerWorld)

def start (id : String) (config : CircuitBreakerConfig) : LoggedBreaker where
  breaker := .new id config

def step (s : LoggedBreaker) (op : BreakerOp) : LoggedBreaker :=
  let after := s.breaker.apply world op
  { breaker := after
    log := (s.breaker.newEvents after).map (⟨·, s.breaker.now world, after⟩) ++ s.log }

def run (s : LoggedBreaker) (ops : List BreakerOp) : LoggedBreaker := ops.foldl (step world) s

end LoggedBreaker

/-! ## One transition -/

/-- At most one automatic transition, within a call that started at `start`. -/
inductive Shift (start : Seconds) (b : CircuitBreaker) : CircuitBreaker → Prop
  | stays {c : CircuitBreaker} (config : c.config = b.config) (state : c.state = b.state)
      (opened : c.openedAt = b.openedAt) (entered : c.halfOpenEnteredAt = b.halfOpenEnteredAt)
      (quiet : c.emitted = b.emitted) : Shift start b c
  | opens {c : CircuitBreaker} {e : StateTransitionEvent} (config : c.config = b.config)
      (before : b.state = .closed ∨ b.state = .halfOpen) (state : c.state = .open)
      (event : e.fromState = b.state ∧ e.toState = .open) (emitted : c.emitted = e :: b.emitted)
      (opened : start ≤ c.openedAt) (entered : c.halfOpenEnteredAt = b.halfOpenEnteredAt) :
      Shift start b c
  | enters {c : CircuitBreaker} {e : StateTransitionEvent} (config : c.config = b.config)
      (before : b.state = .open) (state : c.state = .halfOpen)
      (event : e.fromState = .open ∧ e.toState = .halfOpen) (emitted : c.emitted = e :: b.emitted)
      (waited : b.openedAt + b.config.waitDurationOpenMs / 1000 ≤ c.halfOpenEnteredAt)
      (dated : c.halfOpenEnteredAt ≤ e.timestampMonotonic) : Shift start b c
  | closes {c : CircuitBreaker} {e : StateTransitionEvent} (config : c.config = b.config)
      (before : b.state = .halfOpen) (state : c.state = .closed)
      (event : e.fromState = .halfOpen ∧ e.toState = .closed)
      (emitted : c.emitted = e :: b.emitted) (window : c.metrics.samples = [])
      (entered : c.halfOpenEnteredAt = b.halfOpenEnteredAt) : Shift start b c

theorem Shift.config {start : Seconds} {b c : CircuitBreaker} (shift : Shift start b c) :
    c.config = b.config := by
  cases shift <;> assumption

/-- The metrics and the number of clock readings do not matter before. -/
theorem Shift.of_view {start : Seconds} {b b' c : CircuitBreaker} (shift : Shift start b' c)
    (config : b'.config = b.config) (state : b'.state = b.state) (opened : b'.openedAt = b.openedAt)
    (entered : b'.halfOpenEnteredAt = b.halfOpenEnteredAt) (emitted : b'.emitted = b.emitted) :
    Shift start b c := by
  cases shift with
  | stays config' state' opened' entered' quiet =>
      exact .stays (config'.trans config) (state'.trans state) (opened'.trans opened)
        (entered'.trans entered) (quiet.trans emitted)
  | opens config' before state' event emitted' opened' entered' =>
      rw [state] at before event
      rw [emitted] at emitted'
      exact .opens (config'.trans config) before state' event emitted' opened'
        (entered'.trans entered)
  | enters config' before state' event emitted' waited dated =>
      rw [state] at before
      rw [emitted] at emitted'
      rw [opened, config] at waited
      exact .enters (config'.trans config) before state' event emitted' waited dated
  | closes config' before state' event emitted' window entered' =>
      rw [state] at before
      rw [emitted] at emitted'
      exact .closes (config'.trans config) before state' event emitted' window
        (entered'.trans entered)

/-- A method is the automatic transitions followed by its own. The first do not
    close the breaker, and the second do not make it half open. -/
structure Called (start : Seconds) (b c d : CircuitBreaker) : Prop where
  first : Shift start b c
  quiet : c.state = .closed → c.emitted = b.emitted
  second : Shift start c d
  entered : d.halfOpenEnteredAt = c.halfOpenEnteredAt

namespace CircuitBreaker

variable {world : BreakerWorld} {start : Seconds}

theorem checkAndUpdateState_shift (forward : Monotone world.clock) (b : CircuitBreaker)
    (started : start ≤ b.now world) : Shift start b (b.checkAndUpdateState world) := by
  unfold checkAndUpdateState
  cases state : b.state with
  | closed =>
      simp only
      split
      · exact .opens rfl (.inl state) rfl ⟨state.symm, rfl⟩ rfl started rfl
      · exact .stays rfl rfl rfl rfl rfl
  | «open» =>
      simp only
      split
      · next waited =>
        refine .enters rfl state rfl ⟨rfl, rfl⟩ rfl waited ?_
        exact forward (Nat.le_succ _)
      · exact .stays rfl rfl rfl rfl rfl
  | halfOpen =>
      simp only
      split
      · exact .opens rfl (.inr state) rfl ⟨state.symm, rfl⟩ rfl started rfl
      · exact .stays rfl rfl rfl rfl rfl
  | forcedOpen | disabled | metricsOnly => exact .stays rfl rfl rfl rfl rfl

/-- The automatic transitions do not close the breaker. -/
theorem checkAndUpdateState_closed (b : CircuitBreaker)
    (closed : (b.checkAndUpdateState world).state = .closed) :
    (b.checkAndUpdateState world).emitted = b.emitted := by
  unfold checkAndUpdateState at closed ⊢
  cases state : b.state <;> simp only [state] at closed ⊢
  all_goals first | rfl | skip
  all_goals split <;> first | rfl | simp_all [emitTransition, ticked]

theorem evaluateClosedThresholds_shift (b : CircuitBreaker) :
    Shift start b (b.evaluateClosedThresholds world start) := by
  unfold evaluateClosedThresholds
  split
  · exact .stays rfl rfl rfl rfl rfl
  · next closed =>
    simp only
    split
    · exact .stays rfl rfl rfl rfl rfl
    · split
      · exact .stays rfl rfl rfl rfl rfl
      · exact .opens rfl (.inl (not_not.mp closed)) rfl ⟨(not_not.mp closed).symm, rfl⟩ rfl le_rfl rfl

theorem reset_snapshot_samples (m : SlidingWindowMetrics) (now : Seconds) :
    (m.reset.snapshot now).2.samples = [] := by
  simp only [SlidingWindowMetrics.snapshot, SlidingWindowMetrics.reset,
    SlidingWindowMetrics.evictExpired]
  cases m.windowType <;> simp

theorem probeSucceeded_shift (b : CircuitBreaker) (probing : b.state = .halfOpen) :
    Shift start b (b.probeSucceeded world) := by
  unfold probeSucceeded
  simp only
  split
  · exact .closes rfl probing rfl ⟨rfl, rfl⟩ rfl (reset_snapshot_samples _ _) rfl
  · exact .stays rfl rfl rfl rfl rfl

theorem probeFailed_shift (b : CircuitBreaker) (probing : b.state = .halfOpen) (poisons : Bool)
    (error : String) : Shift start b (b.probeFailed world start poisons error) := by
  unfold probeFailed
  simp only
  split
  · exact .opens rfl (.inr probing) rfl ⟨probing.symm, rfl⟩ rfl le_rfl rfl
  · exact .stays rfl rfl rfl rfl rfl

theorem evaluateClosedThresholds_entered (b : CircuitBreaker) (now : Seconds) :
    (b.evaluateClosedThresholds world now).halfOpenEnteredAt = b.halfOpenEnteredAt := by
  unfold evaluateClosedThresholds
  split
  · rfl
  · simp only
    split
    · rfl
    · split <;> rfl

theorem report_called (forward : Monotone world.clock) (b : CircuitBreaker) (report : Report) :
    Called (b.now world) b (b.ticked.checkAndUpdateState world) (b.report world report) := by
  have started : b.now world ≤ b.ticked.now world := forward (Nat.le_succ _)
  have first : Shift (b.now world) b (b.ticked.checkAndUpdateState world) :=
    (checkAndUpdateState_shift forward b.ticked started).of_view rfl rfl rfl rfl rfl
  have quiet := @checkAndUpdateState_closed world b.ticked
  cases report with
  | success durationMs =>
      simp only [CircuitBreaker.report, recordSuccess]
      generalize b.ticked.checkAndUpdateState world = c at first quiet
      split
      · next probing =>
        refine ⟨first, quiet, probeSucceeded_shift c probing, ?_⟩
        simp only [probeSucceeded]
        split <;> rfl
      · split
        · exact ⟨first, quiet, (evaluateClosedThresholds_shift _).of_view rfl rfl rfl rfl rfl,
            evaluateClosedThresholds_entered _ _⟩
        · exact ⟨first, quiet, .stays rfl rfl rfl rfl rfl, rfl⟩
  | failure durationMs error classification =>
      simp only [CircuitBreaker.report, recordFailure]
      generalize b.ticked.checkAndUpdateState world = c at first quiet
      split
      · next probing =>
        refine ⟨first, quiet, probeFailed_shift c probing _ _, ?_⟩
        simp only [probeFailed]
        split <;> rfl
      · split
        · exact ⟨first, quiet, (evaluateClosedThresholds_shift _).of_view rfl rfl rfl rfl rfl,
            evaluateClosedThresholds_entered _ _⟩
        · exact ⟨first, quiet, .stays rfl rfl rfl rfl rfl, rfl⟩

/-- Beyond the automatic transitions, a request for permission only counts. -/
theorem acquirePermission_frame (b : CircuitBreaker) :
    let c := b.checkAndUpdateState world
    let d := (b.acquirePermission world).2
    d.config = c.config ∧ d.state = c.state ∧ d.openedAt = c.openedAt ∧
      d.halfOpenEnteredAt = c.halfOpenEnteredAt ∧ d.emitted = c.emitted ∧ c.reads ≤ d.reads := by
  unfold acquirePermission
  generalize b.checkAndUpdateState world = c
  simp only
  split
  case h_5 => exact ⟨rfl, rfl, rfl, rfl, rfl, Nat.le_succ _⟩
  case h_6 =>
    split <;> exact ⟨rfl, rfl, rfl, rfl, rfl, le_refl _⟩
  all_goals exact ⟨rfl, rfl, rfl, rfl, rfl, le_refl _⟩

/-- Every call that is not administrative. -/
theorem apply_called (forward : Monotone world.clock) (b : CircuitBreaker) {op : BreakerOp}
    (automatic : ¬op.IsAdministrative) : ∃ c, Called (b.now world) b c (b.apply world op) := by
  have check := checkAndUpdateState_shift forward b le_rfl
  have quiet := @checkAndUpdateState_closed world b
  cases op with
  | acquire =>
      obtain ⟨config, state, opened, entered, emitted, -⟩ :=
        @acquirePermission_frame world b
      exact ⟨_, check, quiet, .stays config state opened entered emitted, entered⟩
  | report report => exact ⟨_, report_called forward b report⟩
  | observe => exact ⟨_, check, quiet, .stays rfl rfl rfl rfl rfl, rfl⟩
  | snapshot => exact ⟨_, check, quiet, .stays rfl rfl rfl rfl rfl, rfl⟩
  | forceOpen | forceClosed | disable | reset => exact absurd trivial automatic

end CircuitBreaker

/-! ## The log -/

/-- The breaker is where its log has led it, and its wait began no earlier than
    the call that opened it. -/
structure Tracked (b : CircuitBreaker) (log : List LoggedTransition) : Prop where
  events : log.map (·.event) = b.emitted
  state : b.state = stateAfter log
  opened : b.state = .open → ∃ opening ∈ log.head?, opening.callStart ≤ b.openedAt
  disciplined : Disciplined (b.config.waitDurationOpenMs / 1000) log

namespace Tracked

variable {b c d : CircuitBreaker} {log : List LoggedTransition} {start : Seconds}

theorem new_events {events : List StateTransitionEvent} (emitted : c.emitted = events ++ b.emitted) :
    b.newEvents c = events := by
  simp [CircuitBreaker.newEvents, emitted]

/-- One transition is logged with the breaker `d` that its call leaves behind. -/
theorem shift (tracked : Tracked b log) (shift : Shift start b c)
    (entered : d.halfOpenEnteredAt = c.halfOpenEnteredAt)
    (window : c.state = .closed → c.emitted ≠ b.emitted → d.metrics.samples = []) :
    ∃ events, c.emitted = events ++ b.emitted ∧
      Tracked c (events.map (⟨·, start, d⟩) ++ log) := by
  cases shift with
  | stays config state opened entered' quiet =>
      refine ⟨[], quiet, tracked.events.trans quiet.symm, state.trans tracked.state, ?_, ?_⟩
      · rw [state, opened]
        exact tracked.opened
      · rw [config]
        exact tracked.disciplined
  | @opens e config before state event emitted opened entered' =>
      refine ⟨[e], emitted, ?_, state.trans event.2.symm, ?_, ?_⟩
      · simp [tracked.events, emitted]
      · exact fun _ => ⟨_, rfl, opened⟩
      · rw [config]
        refine ⟨?_, event.1.trans tracked.state, ?_, ?_, tracked.disciplined⟩
        · rw [event.1, event.2]
          rcases before with closed | probing
          · exact .inl ⟨closed, rfl⟩
          · exact .inr (.inr (.inr ⟨probing, rfl⟩))
        · simp [event.2]
        · simp [event.2]
  | @enters e config before state event emitted waited dated =>
      refine ⟨[e], emitted, ?_, state.trans event.2.symm, ?_, ?_⟩
      · simp [tracked.events, emitted]
      · simp [state]
      · rw [config]
        refine ⟨?_, (event.1.trans before.symm).trans tracked.state, ?_, ?_, tracked.disciplined⟩
        · exact .inr (.inl event)
        · obtain ⟨opening, newest, began⟩ := tracked.opened before
          intro _
          rw [entered]
          exact ⟨opening, newest, (by linarith), dated⟩
        · simp [event.2]
  | @closes e config before state event emitted window' entered' =>
      refine ⟨[e], emitted, ?_, state.trans event.2.symm, ?_, ?_⟩
      · simp [tracked.events, emitted]
      · simp [state]
      · rw [config]
        refine ⟨?_, (event.1.trans before.symm).trans tracked.state, ?_, ?_, tracked.disciplined⟩
        · exact .inr (.inr (.inl event))
        · simp [event.2]
        · exact fun _ => window state (by simp [emitted])

/-- The step lemma. -/
theorem called (tracked : Tracked b log) (called : Called start b c d) :
    Tracked d ((b.newEvents d).map (⟨·, start, d⟩) ++ log) := by
  obtain ⟨first, emitted, middle⟩ := tracked.shift (d := d) called.first called.entered
    fun closed moved => absurd (called.quiet closed) moved
  obtain ⟨second, emitted', last⟩ := middle.shift (d := d) called.second rfl (by
    intro closed moved
    cases called.second with
    | stays _ _ _ _ quiet => exact absurd quiet moved
    | opens _ _ state => rw [state] at closed; cases closed
    | enters _ _ state => rw [state] at closed; cases closed
    | closes _ _ _ _ _ window => exact window)
  have all : b.newEvents d = second ++ first :=
    new_events (by rw [emitted', emitted, List.append_assoc])
  rw [all, List.map_append, List.append_assoc]
  exact last

end Tracked

namespace LoggedBreaker

variable {world : BreakerWorld}

theorem tracked_run (forward : Monotone world.clock) {s : LoggedBreaker}
    (tracked : Tracked s.breaker s.log) (ops : List BreakerOp)
    (automatic : ∀ op ∈ ops, ¬op.IsAdministrative) :
    Tracked (s.run world ops).breaker (s.run world ops).log := by
  induction ops generalizing s with
  | nil => exact tracked
  | cons op ops ih =>
      simp only [List.forall_mem_cons] at automatic
      obtain ⟨c, called⟩ := s.breaker.apply_called forward automatic.1
      exact ih (s := s.step world op) (tracked.called called) automatic.2

theorem config_run (forward : Monotone world.clock) {s : LoggedBreaker} (ops : List BreakerOp)
    (automatic : ∀ op ∈ ops, ¬op.IsAdministrative) :
    (s.run world ops).breaker.config = s.breaker.config := by
  induction ops generalizing s with
  | nil => rfl
  | cons op ops ih =>
      simp only [List.forall_mem_cons] at automatic
      obtain ⟨c, called⟩ := s.breaker.apply_called forward automatic.1
      exact (ih automatic.2).trans (called.second.config.trans called.first.config)

end LoggedBreaker

/-! ## Admission -/

namespace CircuitBreaker

variable {world : BreakerWorld}

theorem acquirePermission_ok {b : CircuitBreaker} (admitted : (b.acquirePermission world).1 = .ok ()) :
    (b.acquirePermission world).2.state ≠ .open ∧
      (b.acquirePermission world).2.state ≠ .forcedOpen := by
  rw [(acquirePermission_frame b).2.1]
  unfold acquirePermission at admitted
  generalize b.checkAndUpdateState world = c at admitted
  cases state : c.state <;> simp [state] at admitted ⊢

theorem checkAndUpdateState_forcedOpen {b : CircuitBreaker} (forced : b.state = .forcedOpen) :
    (b.checkAndUpdateState world).state = .forcedOpen := by
  simp [checkAndUpdateState, forced, ticked]

theorem acquirePermission_forcedOpen {b : CircuitBreaker} (forced : b.state = .forcedOpen) :
    ∃ e, (b.acquirePermission world).1 = .error e := by
  simp [acquirePermission, checkAndUpdateState_forcedOpen forced]

/-- The step lemma of a forced-open breaker. -/
theorem apply_forcedOpen {b : CircuitBreaker} (forced : b.state = .forcedOpen) {op : BreakerOp}
    (locked : ¬op.Unlocks) : (b.apply world op).state = .forcedOpen := by
  have stays := @checkAndUpdateState_forcedOpen world b forced
  cases op with
  | acquire => exact (acquirePermission_frame b).2.1.trans stays
  | report report =>
      have stays' := @checkAndUpdateState_forcedOpen world b.ticked forced
      cases report <;> simp [apply, CircuitBreaker.report, recordSuccess, recordFailure, stays']
  | observe => exact stays
  | snapshot => exact stays
  | forceOpen => rfl
  | forceClosed | disable | reset => exact absurd trivial locked

theorem applyAll_forcedOpen {b : CircuitBreaker} (forced : b.state = .forcedOpen)
    (ops : List BreakerOp) (locked : ∀ op ∈ ops, ¬op.Unlocks) :
    (b.applyAll world ops).state = .forcedOpen := by
  induction ops generalizing b with
  | nil => exact forced
  | cons op ops ih =>
      simp only [List.forall_mem_cons] at locked
      exact ih (b := b.apply world op) (apply_forcedOpen forced locked.1) locked.2

end CircuitBreaker

/-- Without an administrator the log of a breaker is disciplined and an open
    breaker admits nothing. A breaker that was forced open stays so and admits
    nothing until it is unlocked. -/
theorem transitions_disciplined (world : BreakerWorld) (forward : Monotone world.clock)
    (id : String) (config : CircuitBreakerConfig) :
    (∀ ops : List BreakerOp, (∀ op ∈ ops, ¬op.IsAdministrative) →
      let s := (LoggedBreaker.start id config).run world ops
      s.log.map (·.event) = s.breaker.emitted ∧
        Disciplined (config.waitDurationOpenMs / 1000) s.log ∧
        ((s.breaker.acquirePermission world).1 = .ok () →
          (s.breaker.acquirePermission world).2.state ≠ .open)) ∧
    ∀ ops later : List BreakerOp, (∀ op ∈ later, ¬op.Unlocks) →
      let b := (((CircuitBreaker.new id config).applyAll world ops).forceOpen world).applyAll world
        later
      b.state = .forcedOpen ∧ ∃ e, (b.acquirePermission world).1 = .error e := by
  refine ⟨?_, ?_⟩
  · intro ops automatic s
    have start : Tracked (LoggedBreaker.start id config).breaker [] :=
      ⟨rfl, rfl, (by simp [LoggedBreaker.start, CircuitBreaker.new]), trivial⟩
    have tracked := LoggedBreaker.tracked_run forward start ops automatic
    have disciplined := tracked.disciplined
    rw [LoggedBreaker.config_run forward ops automatic] at disciplined
    exact ⟨tracked.events, disciplined, fun admitted =>
      (CircuitBreaker.acquirePermission_ok admitted).1⟩
  · intro ops later locked b
    have forced : b.state = .forcedOpen := CircuitBreaker.applyAll_forcedOpen rfl later locked
    exact ⟨forced, CircuitBreaker.acquirePermission_forcedOpen forced⟩

/-- The wait passes after the third reading. -/
private def restedClock : BreakerWorld where
  clock k := if k < 3 then 0 else 31

private theorem restedClock_monotone : Monotone restedClock.clock := by
  intro j k le
  simp only [restedClock]
  split_ifs <;> first | omega | decide

/-- One failure opens the breaker and one success closes it. -/
private def sensitive : CircuitBreakerConfig where
  minimumNumberOfCalls := 1
  halfOpenMaxCalls := 1

private def recovery : List BreakerOp :=
  [.report (.failure 100 none none), .observe, .acquire, .report (.success 50)]

theorem transitions_disciplined_recovery :
    let s := (LoggedBreaker.start "a" sensitive).run restedClock recovery
    s.log.map (fun t => (t.event.fromState, t.event.toState)) =
        [(.halfOpen, .closed), (.open, .halfOpen), (.closed, .open)] ∧
      Disciplined (sensitive.waitDurationOpenMs / 1000) s.log ∧
      ((CircuitBreaker.new "a" sensitive).forceOpen restedClock |>.applyAll restedClock recovery).state =
        .forcedOpen :=
  ⟨by decide +kernel,
    ((transitions_disciplined restedClock restedClock_monotone "a" sensitive).1 recovery
      (by decide)).2.1,
    ((transitions_disciplined restedClock restedClock_monotone "a" sensitive).2 [] recovery
      (by decide)).1⟩

end DuraLLM
