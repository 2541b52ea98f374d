import DuraLLM.Breaker.Thresholds

/-! # Failures that do not count

A failure that does not count against the provider still takes a probe permit,
a reading of the clock and a place in the window.  Two runs are compared: one
of a whole history of calls, and one without some of the requests for
permission and uncounted failures.  They see the same transitions as long as
no timer falls due at a call that is left out, its permit holds nothing up, and
the thresholds would decide the same without its outcome.
-/

namespace DuraLLM

/-- A call with the readings of the clock, and the answers of the cluster
    store, that it gets. -/
structure TimedCall where
  op : BreakerOp
  world : BreakerWorld

namespace BreakerOp

/-- A request for permission, or a failure that does not count. -/
def IsIgnored : BreakerOp → Prop
  | .acquire => True
  | .report (.failure _ _ classification) => CircuitBreaker.poisons classification = false
  | _ => False

instance : (op : BreakerOp) → Decidable op.IsIgnored
  | .acquire => inferInstanceAs (Decidable True)
  | .report (.failure ..) => inferInstanceAs (Decidable (_ = false))
  | .report (.success _) | .observe | .snapshot | .forceOpen | .forceClosed | .disable | .reset =>
      inferInstanceAs (Decidable False)

/-- The reading with which a call evaluates the timers. -/
def checkedAt : BreakerOp → Nat
  | .report _ => 1
  | _ => 0

end BreakerOp

/-- A call of a history, and whether it is left out of the other run. -/
structure HistoryEntry where
  call : TimedCall
  ignored : Bool
  valid : ignored → call.op.IsIgnored

def StateTransitionEvent.move (e : StateTransitionEvent) :
    CircuitBreakerState × CircuitBreakerState :=
  (e.fromState, e.toState)

/-- What the caller sees of a call: the state afterwards and the transitions. -/
structure Sight where
  state : CircuitBreakerState
  moves : List (CircuitBreakerState × CircuitBreakerState)
  deriving DecidableEq

namespace CircuitBreaker

def perform (b : CircuitBreaker) (call : TimedCall) : CircuitBreaker :=
  { b.apply call.world call.op with reads := 0 }

/-- What is seen of the calls that are not left out. -/
def seen (b : CircuitBreaker) : List HistoryEntry → List Sight
  | [] => []
  | entry :: entries =>
      let c := b.perform entry.call
      if entry.ignored then c.seen entries
      else ⟨c.state, (b.newEvents c).map (·.move)⟩ :: c.seen entries

/-! ## When the calls left out make no difference -/

/-- An automatic transition is due at this reading. -/
def TimerDue (b : CircuitBreaker) (world : BreakerWorld) (n : Nat) : Prop :=
  (b.state = .closed ∧ world.remoteOpen n) ∨ (b.state = .open ∧ b.WaitOver (world.clock n)) ∨
    (b.state = .halfOpen ∧ b.ProbesTimedOut (world.clock n))

/-- The thresholds are reached. -/
def Weighs (b : CircuitBreaker) (now : Seconds) : Prop :=
  let snapshot := (b.metrics.snapshot now).1
  b.config.minimumNumberOfCalls ≤ snapshot.totalCalls ∧
    (b.config.failureRateThreshold ≤ snapshot.failureRate ∨
      b.config.slowCallRateThreshold ≤ snapshot.slowCallRate)

/-- With this report in its window. -/
def recording (b : CircuitBreaker) (now : Seconds) : Report → CircuitBreaker
  | .success durationMs => { b with metrics := b.metrics.record true durationMs now true }
  | .failure durationMs _ classification =>
      { b with metrics := b.metrics.record false durationMs now (poisons classification) }

/-- A call that is left out finds no timer due, and gives back no permit but one
    that such a call has taken. -/
structure LeftOutQuietly (b : CircuitBreaker) (held : Nat) (call : TimedCall) : Prop where
  timers : ¬b.TimerDue call.world call.op.checkedAt
  permits : b.state = .halfOpen → call.op ≠ .acquire → 0 < held ∨ b.halfOpenInFlight = 0

/-- The permits that calls left out are holding are not the only ones in flight
    and keep no probe out. -/
def NotHeldUp (b : CircuitBreaker) (held : Nat) (op : BreakerOp) : Prop :=
  b.state = .halfOpen → held = 0 ∨ held < b.halfOpenInFlight ∧
    (op = .acquire → b.config.halfOpenMaxCalls ≤ b.halfOpenInFlight →
      b.config.halfOpenMaxCalls ≤ b.halfOpenInFlight - held)

/-- A weighed report finds the closed breakers of both runs at the same side of
    the thresholds. -/
def SameVerdict (b b' : CircuitBreaker) (call : TimedCall) : Prop :=
  match call.op with
  | .report report =>
      b.state = .closed → report.IsWeighed →
        ((b.recording (call.world.clock 0) report).Weighs (call.world.clock 0) ↔
          (b'.recording (call.world.clock 0) report).Weighs (call.world.clock 0))
  | _ => True

/-- The permits that calls left out hold after this one of theirs. -/
def heldAfter (b : CircuitBreaker) (held : Nat) : BreakerOp → Nat
  | .acquire =>
      if b.state = .halfOpen ∧ b.halfOpenInFlight < b.config.halfOpenMaxCalls then held + 1
      else held
  | _ => if b.state = .halfOpen then held - 1 else held

/-- In a history, with `b'` the breaker of the run without the calls left out. -/
def Unnoticed (b b' : CircuitBreaker) (held : Nat) : List HistoryEntry → Prop
  | [] => True
  | entry :: entries =>
      if entry.ignored then
        b.LeftOutQuietly held entry.call ∧
          Unnoticed (b.perform entry.call) b' (b.heldAfter held entry.call.op) entries
      else
        b.NotHeldUp held entry.call.op ∧ SameVerdict b b' entry.call ∧
          Unnoticed (b.perform entry.call) (b'.perform entry.call)
            (if b.state = .halfOpen then held else 0) entries

instance (b : CircuitBreaker) (world : BreakerWorld) (n : Nat) : Decidable (b.TimerDue world n) :=
  inferInstanceAs (Decidable (_ ∨ _ ∨ _))

instance (b : CircuitBreaker) (now : Seconds) : Decidable (b.Weighs now) :=
  inferInstanceAs (Decidable (_ ∧ _))

instance (b : CircuitBreaker) (held : Nat) (call : TimedCall) :
    Decidable (b.LeftOutQuietly held call) :=
  decidable_of_iff (¬b.TimerDue call.world call.op.checkedAt ∧
      (b.state = .halfOpen → call.op ≠ .acquire → 0 < held ∨ b.halfOpenInFlight = 0))
    ⟨fun h => ⟨h.1, h.2⟩, fun h => ⟨h.timers, h.permits⟩⟩

instance (b : CircuitBreaker) (held : Nat) (op : BreakerOp) : Decidable (b.NotHeldUp held op) :=
  inferInstanceAs (Decidable (_ → _))

instance (b b' : CircuitBreaker) (call : TimedCall) : Decidable (SameVerdict b b' call) := by
  unfold SameVerdict
  split <;> infer_instance

instance decidableUnnoticed (b b' : CircuitBreaker) (held : Nat) :
    (entries : List HistoryEntry) → Decidable (b.Unnoticed b' held entries)
  | [] => inferInstanceAs (Decidable True)
  | entry :: entries =>
      if ignored : entry.ignored then
        have := decidableUnnoticed (b.perform entry.call) b' (b.heldAfter held entry.call.op)
          entries
        decidable_of_iff (b.LeftOutQuietly held entry.call ∧
            Unnoticed (b.perform entry.call) b' (b.heldAfter held entry.call.op) entries)
          (by rw [Unnoticed, if_pos ignored])
      else
        have := decidableUnnoticed (b.perform entry.call) (b'.perform entry.call)
          (if b.state = .halfOpen then held else 0) entries
        decidable_of_iff (b.NotHeldUp held entry.call.op ∧ SameVerdict b b' entry.call ∧
            Unnoticed (b.perform entry.call) (b'.perform entry.call)
              (if b.state = .halfOpen then held else 0) entries)
          (by rw [Unnoticed, if_neg ignored])

/-! ## Two breakers side by side -/

/-- The second breaker may differ in its window, its events, and in the permits
    that the calls left out hold in the first. -/
structure Abreast (held : Nat) (b b' : CircuitBreaker) : Prop where
  config : b'.config = b.config
  state : b'.state = b.state
  opened : b'.openedAt = b.openedAt
  entered : b'.halfOpenEnteredAt = b.halfOpenEnteredAt
  successes : b'.halfOpenSuccesses = b.halfOpenSuccesses
  reads : b'.reads = b.reads
  permits : b.state = .halfOpen → b.halfOpenInFlight = b'.halfOpenInFlight + held

/-- From `b` and `b'` the breakers have gone on to `c` and `c'` with the same
    transitions. -/
structure Together (held : Nat) (b b' c c' : CircuitBreaker) : Prop where
  abreast : Abreast held c c'
  moves : ∃ es es', c.emitted = es ++ b.emitted ∧ c'.emitted = es' ++ b'.emitted ∧
    es.map (·.move) = es'.map (·.move)

section Together

variable {held : Nat} {b b' c c' d d' : CircuitBreaker} {world : BreakerWorld}

theorem Together.quiet (abreast : Abreast held c c') (emitted : c.emitted = b.emitted)
    (emitted' : c'.emitted = b'.emitted) : Together held b b' c c' :=
  ⟨abreast, [], [], emitted, emitted', rfl⟩

theorem Together.trans {held' : Nat} (first : Together held b b' c c')
    (second : Together held' c c' d d') : Together held' b b' d d' := by
  obtain ⟨-, es, es', grown, grown', same⟩ := first
  obtain ⟨abreast, fs, fs', grownMore, grownMore', sameMore⟩ := second
  refine ⟨abreast, fs ++ es, fs' ++ es', ?_, ?_, ?_⟩
  · rw [grownMore, grown, List.append_assoc]
  · rw [grownMore', grown', List.append_assoc]
  · rw [List.map_append, List.map_append, same, sameMore]

theorem Abreast.ticked (abreast : Abreast held b b') : Abreast held b.ticked b'.ticked :=
  ⟨abreast.config, abreast.state, abreast.opened, abreast.entered, abreast.successes,
    congrArg (· + 1) abreast.reads, abreast.permits⟩

/-- Both breakers announce that they have come from one state. -/
theorem Together.emits (abreast : Abreast held c c') {fromState fromState' : CircuitBreakerState}
    (same : fromState' = fromState) (emitted : c.emitted = b.emitted)
    (emitted' : c'.emitted = b'.emitted) (reason reason' : TransitionReason) :
    Together held b b' (c.emitTransition world fromState reason)
      (c'.emitTransition world fromState' reason') := by
  obtain ⟨config, state, opened, entered, successes, reads, permits⟩ := abreast
  refine ⟨⟨config, state, opened, entered, successes, congrArg (· + 1) reads, permits⟩,
    [_], [_], congrArg (_ :: ·) emitted, congrArg (_ :: ·) emitted', ?_⟩
  simp [StateTransitionEvent.move, same, state]

theorem Abreast.now (world : BreakerWorld) (abreast : Abreast held b b') :
    b'.now world = b.now world :=
  congrArg world.clock abreast.reads

theorem checkAndUpdateState_idle (idle : ¬b.TimerDue world b.reads) :
    b.checkAndUpdateState world = b.ticked := by
  unfold checkAndUpdateState
  unfold TimerDue at idle
  cases state : b.state <;> simp [state, CircuitBreaker.now] at idle ⊢ <;> simp [idle]

/-- Outside a half-open episode no permit counts. -/
theorem Abreast.settled (abreast : Abreast held b b') (settled : b.state ≠ .halfOpen) (n : Nat) :
    Abreast n b b' :=
  { abreast with permits := fun probing => absurd probing settled }

/-- The same timers fall due, unless permits that are held decide. -/
theorem Abreast.timerDue (world : BreakerWorld) (abreast : Abreast held b b')
    (free : b.state = .halfOpen → held = 0 ∨ held < b.halfOpenInFlight) :
    b'.TimerDue world b'.reads ↔ b.TimerDue world b.reads := by
  obtain ⟨config, state, opened, entered, successes, reads, permits⟩ := abreast
  have idle : b.state = .halfOpen → (b'.halfOpenInFlight = 0 ↔ b.halfOpenInFlight = 0) := by
    intro probing
    have shared := permits probing
    have freed := free probing
    omega
  simp only [TimerDue, WaitOver, ProbesTimedOut, config, state, opened, entered, reads]
  by_cases probing : b.state = .halfOpen
  · simp only [idle probing]
  · simp only [probing, false_and]

/-- The timers of both breakers. -/
theorem checkAndUpdateState_together (world : BreakerWorld) (abreast : Abreast held b b')
    (free : b.state = .halfOpen → held = 0 ∨ held < b.halfOpenInFlight) :
    Together (if b.state = .halfOpen then held else 0) b b' (b.checkAndUpdateState world)
      (b'.checkAndUpdateState world) := by
  have due' := abreast.timerDue world free
  have reading := abreast.now world
  have ticked := abreast.ticked
  by_cases due : b.TimerDue world b.reads
  · have past' := due'.mpr due
    obtain ⟨config, state, opened, entered, successes, reads, permits⟩ := ticked
    rcases due with ⟨closed, remote⟩ | ⟨waiting, past⟩ | ⟨probing, late⟩
    · have closed' := abreast.state.trans closed
      have remote' : world.remoteOpen b'.reads = true := by rw [abreast.reads, remote]
      simp only [checkAndUpdateState, closed, closed', remote, remote', if_true]
      refine Together.emits ?_ rfl ?_ ?_ _ _
      · exact ⟨config, rfl, reading, entered, successes, reads, fun probing => by cases probing⟩
      · rfl
      · rfl
    · have waiting' := abreast.state.trans waiting
      have elapsed : b'.WaitOver (world.clock b'.reads) := by
        simpa only [TimerDue, waiting', reduceCtorEq, false_and, true_and, or_false, false_or]
          using past'
      simp only [checkAndUpdateState, waiting, waiting']
      rw [if_pos (show b.WaitOver (b.now world) from past),
        if_pos (show b'.WaitOver (b'.now world) from elapsed)]
      refine Together.emits ?_ rfl ?_ ?_ _ _
      · exact ⟨config, rfl, opened, reading, rfl, reads, fun _ => by simp⟩
      · rfl
      · rfl
    · have probing' := abreast.state.trans probing
      have elapsed : b'.ProbesTimedOut (world.clock b'.reads) := by
        simpa only [TimerDue, probing', reduceCtorEq, false_and, true_and, false_or] using past'
      simp only [checkAndUpdateState, probing, probing']
      rw [if_pos (show b.ProbesTimedOut (b.now world) from late),
        if_pos (show b'.ProbesTimedOut (b'.now world) from elapsed)]
      refine Together.emits ?_ rfl ?_ ?_ _ _
      · exact ⟨config, rfl, reading, entered, successes, reads, fun probing => by cases probing⟩
      · rfl
      · rfl
  · rw [checkAndUpdateState_idle due, checkAndUpdateState_idle fun now => due (due'.mp now)]
    refine .quiet ?_ rfl rfl
    split
    · exact ticked
    · next settled => exact ticked.settled settled 0

/-- A half-open breaker was so before its check, or has just become so. -/
theorem NotHeldUp.checked (world : BreakerWorld) {op : BreakerOp} (free : b.NotHeldUp held op) :
    (b.checkAndUpdateState world).NotHeldUp (if b.state = .halfOpen then held else 0) op := by
  intro probing
  by_cases before : b.state = .halfOpen
  · have idle : ¬b.TimerDue world b.reads := by
      intro due
      have late : b.ProbesTimedOut (world.clock b.reads) := by
        simpa only [TimerDue, before, reduceCtorEq, false_and, true_and, false_or] using due
      simp only [checkAndUpdateState, before,
        if_pos (show b.ProbesTimedOut (b.now world) from late)] at probing
      cases probing
    rw [checkAndUpdateState_idle idle, if_pos before]
    exact free before
  · rw [if_neg before]
    exact .inl rfl

theorem acquirePermission_together (abreast : Abreast held b b')
    (free : b.NotHeldUp held .acquire) :
    Together (if b.state = .halfOpen then held else 0) b b' (b.acquirePermission world).2
      (b'.acquirePermission world).2 := by
  have checked := checkAndUpdateState_together world abreast fun probing =>
    (free probing).imp_right And.left
  have later := free.checked world
  unfold acquirePermission
  generalize b.checkAndUpdateState world = c at checked later
  generalize b'.checkAndUpdateState world = c' at checked
  generalize (if b.state = .halfOpen then held else 0) = h at checked later
  apply checked.trans
  obtain ⟨config, state, opened, entered, successes, reads, permits⟩ := checked.abreast
  have same := checked.abreast
  cases now : c.state with
  | halfOpen =>
      have now' := state.trans now
      have full : c'.config.halfOpenMaxCalls ≤ c'.halfOpenInFlight ↔
          c.config.halfOpenMaxCalls ≤ c.halfOpenInFlight := by
        rw [config]
        have shared := permits now
        rcases later now with none | ⟨some, closed⟩
        · omega
        · have closed := closed rfl
          omega
      simp only [now, now', full]
      split
      · exact .quiet same rfl rfl
      · refine .quiet ⟨config, rfl, opened, entered, successes, reads, fun _ => ?_⟩ rfl rfl
        have shared := permits now
        simp only
        omega
  | «open» =>
      simp only [now, state.trans now]
      exact .quiet same.ticked rfl rfl
  | closed | forcedOpen | disabled | metricsOnly =>
      simp only [now, state.trans now]
      exact .quiet same rfl rfl

/-- A breaker that its check leaves closed was so, and no timer was due. -/
theorem checkAndUpdateState_of_closed (closed : (b.checkAndUpdateState world).state = .closed) :
    b.state = .closed ∧ b.checkAndUpdateState world = b.ticked := by
  have before := closed_of_checkAndUpdateState closed
  refine ⟨before, ?_⟩
  simp only [checkAndUpdateState, before] at closed ⊢
  split at closed
  · cases closed
  · next alone => rw [if_neg alone]

theorem evaluateClosedThresholds_weighs (world : BreakerWorld) {now : Seconds}
    (closed : b.state = .closed) (weighs : b.Weighs now) :
    ∃ reason, b.evaluateClosedThresholds world now =
      { b with
        metrics := (b.metrics.snapshot now).2
        state := .open
        openedAt := now }.emitTransition world .closed reason := by
  obtain ⟨enough, rates⟩ := weighs
  have reasons := tripReason_eq_none b.config (b.metrics.snapshot now).1
  cases reason : tripReason b.config (b.metrics.snapshot now).1 with
  | none => exact absurd rates (reasons.mp reason)
  | some reason' =>
      refine ⟨reason', ?_⟩
      simp only [evaluateClosedThresholds, closed, ne_eq, not_true_eq_false, if_false,
        if_neg (not_lt.mpr enough), reason]

theorem evaluateClosedThresholds_stays {now : Seconds} (closed : b.state = .closed)
    (light : ¬b.Weighs now) :
    b.evaluateClosedThresholds world now = { b with metrics := (b.metrics.snapshot now).2 } := by
  simp only [evaluateClosedThresholds, closed, ne_eq, not_true_eq_false, if_false]
  split
  · rfl
  · next enough =>
    have none : tripReason b.config (b.metrics.snapshot now).1 = none := by
      rw [tripReason_eq_none]
      exact fun rates => light ⟨not_lt.mp enough, rates⟩
    rw [none]

/-- The thresholds of two closed breakers with the same verdict. -/
theorem evaluateClosedThresholds_together (abreast : Abreast held b b') (closed : b.state = .closed)
    {now : Seconds} (verdict : b.Weighs now ↔ b'.Weighs now) :
    Together held b b' (b.evaluateClosedThresholds world now)
      (b'.evaluateClosedThresholds world now) := by
  have closed' := abreast.state.trans closed
  by_cases weighs : b.Weighs now
  · obtain ⟨reason, trips⟩ := evaluateClosedThresholds_weighs world closed weighs
    obtain ⟨reason', trips'⟩ := evaluateClosedThresholds_weighs world closed'
      (verdict.mp weighs)
    rw [trips, trips']
    refine Together.emits ?_ rfl ?_ ?_ _ _
    · exact { abreast with opened := rfl, state := rfl, permits := fun probing => by cases probing }
    · rfl
    · rfl
  · rw [evaluateClosedThresholds_stays closed weighs,
      evaluateClosedThresholds_stays closed' fun other => weighs (verdict.mpr other)]
    exact .quiet { abreast with } rfl rfl

theorem recording_state (b : CircuitBreaker) (now : Seconds) (report : Report) :
    (b.recording now report).state = b.state := by
  cases report <;> rfl

/-- The thresholds look at the window and the configuration only. -/
theorem recording_ticked (b : CircuitBreaker) (now : Seconds) (report : Report) :
    (b.ticked.recording now report).Weighs now ↔ (b.recording now report).Weighs now := by
  cases report <;> exact Iff.rfl

/-- A report outside a half-open episode. -/
theorem report_settled (world : BreakerWorld) (report : Report)
    (settled : (b.ticked.checkAndUpdateState world).state ≠ .halfOpen) :
    b.report world report =
      let c := (b.ticked.checkAndUpdateState world).recording (b.now world) report
      if c.state = .closed ∧ report.IsWeighed then c.evaluateClosedThresholds world (b.now world)
      else c := by
  cases report with
  | success durationMs =>
      simp only [CircuitBreaker.report, recordSuccess, if_neg settled, Report.IsWeighed, and_true,
        recording]
  | failure durationMs error classification =>
      simp only [CircuitBreaker.report, recordFailure, if_neg settled, recording]
      rfl

theorem probeSucceeded_together (abreast : Abreast held b b') (probing : b.state = .halfOpen)
    (free : held = 0 ∨ held < b.halfOpenInFlight) :
    Together held b b' (b.probeSucceeded world) (b'.probeSucceeded world) := by
  obtain ⟨config, state, opened, entered, successes, reads, permits⟩ := abreast
  have shared := permits probing
  have enough : b'.config.halfOpenMaxCalls ≤ b'.halfOpenSuccesses + 1 ↔
      b.config.halfOpenMaxCalls ≤ b.halfOpenSuccesses + 1 := by rw [config, successes]
  simp only [probeSucceeded, enough]
  split
  · refine Together.emits ?_ rfl ?_ ?_ _ _
    · exact ⟨config, rfl, opened, entered, rfl, reads, fun closed => by cases closed⟩
    · rfl
    · rfl
  · refine .quiet ⟨config, state, opened, entered, congrArg (· + 1) successes, reads, fun _ => ?_⟩
      rfl rfl
    simp only
    omega

theorem probeFailed_together (abreast : Abreast held b b') (probing : b.state = .halfOpen)
    (free : held = 0 ∨ held < b.halfOpenInFlight) (now : Seconds) (poisons : Bool)
    (error : String) :
    Together held b b' (b.probeFailed world now poisons error)
      (b'.probeFailed world now poisons error) := by
  obtain ⟨config, state, opened, entered, successes, reads, permits⟩ := abreast
  have shared := permits probing
  simp only [probeFailed]
  split
  · refine Together.emits ?_ rfl ?_ ?_ _ _
    · exact ⟨config, rfl, rfl, entered, rfl, reads, fun reopened => by cases reopened⟩
    · rfl
    · rfl
  · refine .quiet ⟨config, state, opened, entered, successes, reads, fun _ => ?_⟩ rfl rfl
    simp only
    omega

theorem report_together (abreast : Abreast held b b') (report : Report)
    (free : b.NotHeldUp held (.report report))
    (verdict : b.state = .closed → report.IsWeighed →
      ((b.recording (b.now world) report).Weighs (b.now world) ↔
        (b'.recording (b.now world) report).Weighs (b.now world))) :
    Together (if b.state = .halfOpen then held else 0) b b' (b.report world report)
      (b'.report world report) := by
  have checked := checkAndUpdateState_together world abreast.ticked fun probing =>
    (free probing).imp_right And.left
  have later : (b.ticked.checkAndUpdateState world).NotHeldUp
      (if b.state = .halfOpen then held else 0) (.report report) :=
    NotHeldUp.checked (b := b.ticked) world free
  have reading := abreast.now world
  have first : Together (if b.state = .halfOpen then held else 0) b b'
      (b.ticked.checkAndUpdateState world) (b'.ticked.checkAndUpdateState world) :=
    ⟨checked.abreast, checked.moves⟩
  generalize (if b.state = .halfOpen then held else 0) = h at first later ⊢
  apply first.trans
  have same := first.abreast
  by_cases probing : (b.ticked.checkAndUpdateState world).state = .halfOpen
  · have probing' := same.state.trans probing
    have free' := (later probing).imp_right And.left
    cases report with
    | success durationMs =>
        simp only [CircuitBreaker.report, recordSuccess, if_pos probing, if_pos probing']
        exact probeSucceeded_together same probing free'
    | failure durationMs error classification =>
        simp only [CircuitBreaker.report, recordFailure, if_pos probing, if_pos probing', reading]
        exact probeFailed_together same probing free' _ _ _
  · have probing' : (b'.ticked.checkAndUpdateState world).state ≠ .halfOpen :=
      fun other => probing (same.state.symm.trans other)
    rw [report_settled world report probing, report_settled world report probing', reading]
    simp only
    have recorded : Together h
        (b.ticked.checkAndUpdateState world) (b'.ticked.checkAndUpdateState world)
        ((b.ticked.checkAndUpdateState world).recording (b.now world) report)
        ((b'.ticked.checkAndUpdateState world).recording (b.now world) report) := by
      cases report <;> exact .quiet { same with } rfl rfl
    apply recorded.trans
    have states := recording_state (b.ticked.checkAndUpdateState world) (b.now world) report
    have states' := recording_state (b'.ticked.checkAndUpdateState world) (b.now world) report
    by_cases weighed : (b.ticked.checkAndUpdateState world).state = .closed ∧ report.IsWeighed
    · obtain ⟨before, kept⟩ := checkAndUpdateState_of_closed weighed.1
      obtain ⟨-, kept'⟩ := checkAndUpdateState_of_closed (same.state.trans weighed.1)
      rw [if_pos (by rw [states]; exact weighed),
        if_pos (by rw [states', same.state]; exact weighed)]
      apply evaluateClosedThresholds_together recorded.abreast (states.trans weighed.1)
      rw [kept, kept', recording_ticked, recording_ticked, recording_ticked, recording_ticked]
      exact verdict before weighed.2
    · rw [if_neg (by rw [states]; exact weighed),
        if_neg (by rw [states', same.state]; exact weighed)]
      exact .quiet recorded.abreast rfl rfl

/-- A call that is made in both runs. -/
theorem apply_together (world : BreakerWorld) (abreast : Abreast held b b') (op : BreakerOp)
    (free : b.NotHeldUp held op)
    (verdict : ∀ report, op = .report report → b.state = .closed → report.IsWeighed →
      ((b.recording (b.now world) report).Weighs (b.now world) ↔
        (b'.recording (b.now world) report).Weighs (b.now world))) :
    Together (if b.state = .halfOpen then held else 0) b b' (b.apply world op)
      (b'.apply world op) := by
  have settled : Abreast (if b.state = .halfOpen then held else 0) b b' := by
    split
    · exact abreast
    · next settled => exact abreast.settled settled 0
  have checked := checkAndUpdateState_together world abreast fun probing =>
    (free probing).imp_right And.left
  obtain ⟨config, state, opened, entered, successes, reads, permits⟩ := settled
  cases op with
  | acquire => exact acquirePermission_together abreast free
  | report report => exact report_together abreast report free (verdict report rfl)
  | observe => exact checked
  | snapshot =>
      apply checked.trans
      exact .quiet { checked.abreast.ticked with } rfl rfl
  | forceOpen =>
      refine Together.emits ?_ state ?_ ?_ _ _
      · exact ⟨config, rfl, opened, entered, successes, reads, fun locked => by cases locked⟩
      · rfl
      · rfl
  | forceClosed =>
      refine Together.emits ?_ state ?_ ?_ _ _
      · exact ⟨config, rfl, opened, entered, successes, reads, fun closed => by cases closed⟩
      · rfl
      · rfl
  | disable =>
      refine Together.emits ?_ state ?_ ?_ _ _
      · exact ⟨config, rfl, opened, entered, successes, reads, fun disabled => by cases disabled⟩
      · rfl
      · rfl
  | reset =>
      generalize (if b.state = .halfOpen then held else 0) = h
      simp only [apply, reset, state]
      split
      · refine .quiet ?_ rfl rfl
        exact ⟨config, rfl, rfl, entered, rfl, reads, fun closed => by cases closed⟩
      · refine Together.emits ?_ rfl ?_ ?_ _ _
        · exact ⟨config, rfl, rfl, entered, rfl, reads, fun closed => by cases closed⟩
        · rfl
        · rfl

/-- A request for permission that is left out. -/
theorem acquire_abreast (abreast : Abreast held b b') (idle : ¬b.TimerDue world b.reads) :
    let c := (b.acquirePermission world).2
    Abreast (b.heldAfter held .acquire) { c with reads := b.reads } b' := by
  obtain ⟨config, state, opened, entered, successes, reads, permits⟩ := abreast
  simp only [acquirePermission, checkAndUpdateState_idle idle, heldAfter]
  cases now : b.state with
  | halfOpen =>
      simp only [ticked, now, true_and]
      by_cases full : b.config.halfOpenMaxCalls ≤ b.halfOpenInFlight
      · simp only [full, not_lt.mpr full, if_true, if_false]
        exact ⟨config, state.trans now, opened, entered, successes, reads, fun _ => permits now⟩
      · simp only [full, not_le.mp full, if_true, if_false]
        refine ⟨config, state.trans now, opened, entered, successes, reads, fun _ => ?_⟩
        have shared := permits now
        simp only
        omega
  | closed | «open» | forcedOpen | disabled | metricsOnly =>
      simp only [ticked, now, reduceCtorEq, false_and, if_false]
      exact ⟨config, state.trans now, opened, entered, successes, reads,
        fun probing => by cases probing⟩

/-- An uncounted failure that is left out. -/
theorem failure_abreast (abreast : Abreast held b b') {durationMs : ℚ} {error : Option String}
    {classification : Option FailureClassification} (harmless : poisons classification = false)
    (idle : ¬b.TimerDue world (b.reads + 1))
    (permits : b.state = .halfOpen → 0 < held ∨ b.halfOpenInFlight = 0) :
    let report := Report.failure durationMs error classification
    Abreast (b.heldAfter held (.report report)) { b.report world report with reads := b.reads }
      b' := by
  have checked : b.ticked.checkAndUpdateState world = b.ticked.ticked :=
    checkAndUpdateState_idle idle
  obtain ⟨config, state, opened, entered, successes, reads, shared⟩ := abreast
  simp only [heldAfter]
  by_cases probing : b.state = .halfOpen
  · have after : b.report world (.failure durationMs error classification) =
        { b.ticked.ticked with halfOpenInFlight := b.halfOpenInFlight - 1 } := by
      simp only [CircuitBreaker.report, recordFailure, checked, harmless, probeFailed,
        if_pos (show b.ticked.ticked.state = .halfOpen from probing), Bool.false_eq_true, if_false]
      rfl
    rw [after, if_pos probing]
    have given := permits probing
    have both := shared probing
    refine ⟨config, state, opened, entered, successes, reads, fun _ => ?_⟩
    simp only
    omega
  · have after := report_settled (b := b) world
      (.failure durationMs error classification) (by rw [checked]; exact probing)
    have light : ¬(Report.failure durationMs error classification).IsWeighed := by
      simp [Report.IsWeighed, harmless]
    simp only [checked, light, and_false, if_false] at after
    rw [after, if_neg probing]
    exact ⟨config, state, opened, entered, successes, reads, shared⟩

/-- A call that is left out. -/
theorem ignored_abreast (world : BreakerWorld) (abreast : Abreast held b b') {op : BreakerOp}
    (ignored : op.IsIgnored) (idle : ¬b.TimerDue world (b.reads + op.checkedAt))
    (permits : b.state = .halfOpen → op ≠ .acquire → 0 < held ∨ b.halfOpenInFlight = 0) :
    Abreast (b.heldAfter held op) { b.apply world op with reads := b.reads } b' := by
  cases op with
  | acquire => exact acquire_abreast abreast idle
  | report report =>
      cases report with
      | success => exact ignored.elim
      | failure =>
          exact failure_abreast abreast ignored idle fun probing => permits probing (by simp)
  | observe | snapshot | forceOpen | forceClosed | disable | reset => exact ignored.elim

end Together

/-! ## Whole histories -/

theorem newEvents_eq {b c : CircuitBreaker} {events : List StateTransitionEvent}
    (grown : c.emitted = events ++ b.emitted) : b.newEvents c = events := by
  simp [newEvents, grown]

/-- The run lemma: what the history's other calls see. -/
theorem seen_of_unnoticed {held : Nat} {b b' : CircuitBreaker} (abreast : Abreast held b b')
    (fresh : b.reads = 0) (entries : List HistoryEntry)
    (unnoticed : b.Unnoticed b' held entries) :
    b.seen entries = b'.seen (entries.filter (!·.ignored)) := by
  induction entries generalizing held b b' with
  | nil => rfl
  | cons entry entries ih =>
      have fresh' : b'.reads = 0 := abreast.reads.trans fresh
      rw [Unnoticed] at unnoticed
      rw [List.filter_cons]
      by_cases ignored : entry.ignored
      · rw [if_pos ignored] at unnoticed
        obtain ⟨⟨timers, permits⟩, rest⟩ := unnoticed
        simp only [seen, ignored, if_true, Bool.not_true, Bool.false_eq_true, if_false]
        apply ih _ rfl rest
        have gone := ignored_abreast entry.call.world abreast (entry.valid ignored)
          (by rw [fresh, Nat.zero_add]; exact timers) permits
        rw [fresh] at gone
        exact gone
      · rw [if_neg ignored] at unnoticed
        obtain ⟨free, verdict, rest⟩ := unnoticed
        have verdict' : ∀ report, entry.call.op = .report report → b.state = .closed →
            report.IsWeighed →
            ((b.recording (b.now entry.call.world) report).Weighs (b.now entry.call.world) ↔
              (b'.recording (b.now entry.call.world) report).Weighs (b.now entry.call.world)) := by
          intro report same closed weighed
          rw [SameVerdict, same] at verdict
          rw [CircuitBreaker.now, fresh]
          exact verdict closed weighed
        obtain ⟨after, es, es', grown, grown', moves⟩ :=
          apply_together entry.call.world abreast entry.call.op free verdict'
        have next : Abreast (if b.state = .halfOpen then held else 0) (b.perform entry.call)
            (b'.perform entry.call) :=
          { after with reads := rfl }
        have states : (b'.perform entry.call).state = (b.perform entry.call).state := next.state
        have here : b.newEvents (b.perform entry.call) = es := newEvents_eq grown
        have there : b'.newEvents (b'.perform entry.call) = es' := newEvents_eq grown'
        simp only [seen, ignored, Bool.false_eq_true, if_false, Bool.not_false, if_true]
        rw [states, here, there, moves, ih next rfl rest]

/-- A call at a moment of a world without other gateways. -/
private def callAt (moment : Seconds) (op : BreakerOp) : TimedCall where
  op := op
  world := { clock := fun _ => moment }

private def made (moment : Seconds) (op : BreakerOp) : HistoryEntry where
  call := callAt moment op
  ignored := false
  valid := by simp

private def leftOut (moment : Seconds) (op : BreakerOp) (valid : op.IsIgnored) : HistoryEntry where
  call := callAt moment op
  ignored := true
  valid _ := valid

/-- The client's own fault. -/
private def clientFault : Report :=
  .failure 100 none (some
    { category := .clientFault, reason := .clientError, shouldFallback := false, retryable := false,
      poisonsHealth := false })

private def outage : Report := .failure 100 none none

/-- Half of two calls failed, and a single success closes the circuit. -/
private def watchful : CircuitBreakerConfig where
  minimumNumberOfCalls := 2
  slidingWindowSize := 2
  halfOpenMaxCalls := 1

end CircuitBreaker

end DuraLLM
