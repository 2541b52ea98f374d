import DuraLLM.Execution.Permits
import DuraLLM.Execution.Routine
import DuraLLM.Health.CallCounters

/-! # What is sent, and what is recorded of it

The exchanges of a run are projected to what its attempts were sized to, sent
and recorded as.  Whatever a pass is answered, it leaves one of a few sequences
of notes (`PassTranscript`), and of the request that all passes share it only changes
the output limit: the clamp that follows a rejected output cap.
-/

namespace DuraLLM

variable {Json Decision : Type}

inductive PassNote (Json : Type) where
  /-- The registry shows the profile of an endpoint that has none of its own. -/
  | profiled (profile : ModelProfile)
  | sized (request : NormalizedRequest Json) (budget : ContextBudget)
  | keyed (endpoint : Endpoint) (keys : Dict String String)
      (answer : Option String × Option String)
  | prepared (endpoint : Endpoint) (request : NormalizedRequest Json) (apiKey : String)
  | dispatched (answer : Except RaisedError ExecutionResult)
  | sampled (sample : HealthSample)
  | attempted (record : AttemptRecord)
  /-- What was read off the text of a rejected output cap. -/
  | capped (cap : Option Nat)
  | lapse

def LocalOp.passNote : (op : LocalOp Json) → op.Answer Json Decision → Option (PassNote Json)
  | .getProfile _ _, (profile : ModelProfile) => some (.profiled profile)
  | .compact request budget, _ => some (.sized request budget)
  | .getActiveKey endpoint keys, (answer : Option String × Option String) =>
      some (.keyed endpoint keys answer)
  | .prepareRequest _ endpoint request apiKey, _ => some (.prepared endpoint request apiKey)
  | .adapterExecute _ _ _, (answer : Except RaisedError ExecutionResult) =>
      some (.dispatched answer)
  | .parseOutputCap _, (.ok cap : Except RaisedError (Option Nat)) => some (.capped cap)
  | .keep (.recordHealthSuccess endpointId latencyMs), _ =>
      some (.sampled ⟨endpointId, true, latencyMs⟩)
  | .keep (.recordHealthFailure failure), _ =>
      some (.sampled ⟨failure.endpointId, false, failure.latencyMs⟩)
  | .keep (.event (.upstreamAttemptSucceeded record)), _ => some (.attempted record)
  | .keep (.event (.upstreamAttemptFailed record)), _ => some (.attempted record)
  | _, _ => none

def passNote : Exchange Json Decision → Option (PassNote Json)
  | ⟨.inl op, answer⟩ => LocalOp.passNote op answer
  | ⟨.inr op, answer⟩ => if op.lapses answer then some .lapse else none

/-- Anything may be answered and asked. -/
def passContract (Json Decision : Type) : Contract (executorSig Json Decision) (PassNote Json) where
  fair := fun _ _ => True
  good := fun _ => True
  note := passNote

/-! ## The logs of a pass -/

/-- The request with the output limit that a rejected cap leaves. -/
def clampRequest (request : NormalizedRequest Json) (cap : Option Nat) (profile : ModelProfile) :
    NormalizedRequest Json :=
  { request with
    maxOutputTokens := some (clampedOutput cap (orNumber request.maxOutputTokens
      (orNumber (some profile.maxOutputTokens) 4096))) }

section Logs

variable (call : ExecuteCall Json) (s : LoopState Json) (d : Dispatch Json Decision)

/-- What the loop does after a failed attempt. -/
inductive RecoveryLog :
    Except RaisedError (LoopState Json) → List (PassNote Json) → Prop where
  | raised (e : RaisedError) : RecoveryLog (.error e) []
  | kept {t : LoopState Json} (same : t.request = s.request) : RecoveryLog (.ok t) []
  /-- The endpoint is left, and its cooldown is recorded as one more failure. -/
  | cooled {t : LoopState Json} (same : t.request = s.request) :
      RecoveryLog (.ok t) [.sampled ⟨d.endpoint.id, false, 0⟩]
  | clamped {t : LoopState Json} (cap : Option Nat)
      (clamp : t.request = clampRequest s.request cap d.profile) :
      RecoveryLog (.ok t) [.capped cap]

/-- A failure that is reported and recovered from. -/
inductive ReportLog (result : ExecutionResult) :
    PassResult Json Decision → List (PassNote Json) → Prop where
  | report {t : LoopState Json} (same : t.request = s.request) {record : AttemptRecord}
      (failed : record.success = false) (attempts : List AttemptRecord)
      {outcome : Except RaisedError (LoopState Json)} {notes : List (PassNote Json)}
      (recovery : RecoveryLog t d outcome notes) :
      ReportLog result (.ofRaising attempts outcome)
        (.sampled ⟨d.endpoint.id, false, result.durationMs⟩ :: .attempted record :: notes)

/-- What follows on the answer to a dispatch. -/
inductive OutcomeLog : Except RaisedError ExecutionResult → PassResult Json Decision →
    List (PassNote Json) → Prop where
  | unclassified (answer : Except RaisedError ExecutionResult) (e : RaisedError)
      (attempts : List AttemptRecord) : OutcomeLog answer (.raised e attempts) [.lapse]
  | blocked (answer : Except RaisedError ExecutionResult) {record : AttemptRecord}
      (failed : record.success = false) (e : RaisedError) (attempts : List AttemptRecord) :
      OutcomeLog answer (.raised e attempts) [.lapse, .attempted record]
  | rotated (answer : Except RaisedError ExecutionResult) {record : AttemptRecord}
      (failed : record.success = false) {t : LoopState Json} (same : t.request = s.request) :
      OutcomeLog answer (.next t) [.lapse, .attempted record]
  | accepted (result : ExecutionResult) {record : AttemptRecord}
      (succeeded : record.success = true) (response : NormalizedResponse Json)
      (decision : Decision) (ledger : AttemptLedger) :
      OutcomeLog (.ok result) (.returned response decision ledger)
        [.sampled ⟨d.endpoint.id, true, result.durationMs⟩, .attempted record]
  /-- The budget store refuses the cost of an accepted response. -/
  | refused (result : ExecutionResult) {record : AttemptRecord}
      (succeeded : record.success = true) {t : LoopState Json} (same : t.request = s.request)
      {outcome : PassResult Json Decision} {notes : List (PassNote Json)}
      (report : ReportLog t d result outcome notes) :
      OutcomeLog (.ok result) outcome
        (.sampled ⟨d.endpoint.id, true, result.durationMs⟩ :: .attempted record :: .lapse :: notes)
  | reported (result : ExecutionResult) {outcome : PassResult Json Decision}
      {notes : List (PassNote Json)} (report : ReportLog s d result outcome notes) :
      OutcomeLog (.ok result) outcome notes
  | transport (e : RaisedError) {record : AttemptRecord} (failed : record.success = false)
      (attempts : List AttemptRecord) :
      OutcomeLog (.error e) (.raised e attempts)
        [.sampled ⟨d.endpoint.id, false, record.latencyMs⟩, .attempted record]

/-- The pass leaves the shared request alone. -/
def SameRequest (result : PassResult Json Decision) : Prop :=
  ∀ t, result = .next t → t.request = s.request

/-- The profile is that of the endpoint, where it has one. -/
def Profiles (endpoint : Endpoint) (profile : ModelProfile) : Prop :=
  ∀ own, endpoint.profile = some own → own = profile

def shownNotes (endpoint : Endpoint) (profile : ModelProfile) : List (PassNote Json) :=
  match endpoint.profile with
  | some _ => []
  | none => [.profiled profile]

/-- What sizing a request for an endpoint leaves. -/
def sizingNotes [JsonCodec Json] (endpoint : Endpoint) (profile : ModelProfile) (shrink : ℚ) :
    List (PassNote Json) :=
  shownNotes endpoint profile ++ [.sized s.request (contextBudget profile shrink s.request)]

/-- The key that is sent: the one handed out, else the text the keys are read
    from. -/
def sentKey (endpoint : Endpoint) (answer : Option String × Option String) : String :=
  answer.1.getD (unsplitKey call.keys endpoint)

/-- A request is sized for an endpoint, and prepared with the output of its
    budget. -/
inductive Sends [JsonCodec Json] (endpoint : Endpoint) (profile : ModelProfile) :
    List (PassNote Json) → Prop where
  | send (known : Profiles endpoint profile) (shrink : ℚ) (key : Option String × Option String)
      {adapted : NormalizedRequest Json}
      (limit : adapted.maxOutputTokens =
        some (contextBudget profile shrink s.request).desiredOutputTokens) :
      Sends endpoint profile (sizingNotes s endpoint profile shrink ++
        [.keyed endpoint call.keys key, .prepared endpoint adapted (sentKey call endpoint key)])

/-- What a pass without a dispatch leaves. -/
inductive EarlyLog [JsonCodec Json] : List (PassNote Json) → Prop where
  | idle : EarlyLog []
  | sized {endpoint : Endpoint} {profile : ModelProfile} (known : Profiles endpoint profile)
      (shrink : ℚ) : EarlyLog (sizingNotes s endpoint profile shrink)
  | sent {endpoint : Endpoint} {profile : ModelProfile} {notes : List (PassNote Json)}
      (sends : Sends call s endpoint profile notes) : EarlyLog notes

def PrepareLog [JsonCodec Json] :
    Except RaisedError (Preparation Json Decision) → List (PassNote Json) → Prop
  | .error _, log => EarlyLog call s log
  | .ok (.skipped t), log => t.request = s.request ∧ EarlyLog call s log
  | .ok (.ready t d), log => t.request = s.request ∧ Sends call s d.endpoint d.profile log

inductive PassTranscript [JsonCodec Json] :
    PassResult Json Decision → List (PassNote Json) → Prop where
  | early {result : PassResult Json Decision} (kept : SameRequest s result)
      {notes : List (PassNote Json)} (ends : EarlyLog call s notes) : PassTranscript result notes
  | dispatched {result : PassResult Json Decision} {t : LoopState Json}
      (same : t.request = s.request) {d : Dispatch Json Decision} {before : List (PassNote Json)}
      (sends : Sends call s d.endpoint d.profile before)
      {answer : Except RaisedError ExecutionResult} {notes : List (PassNote Json)}
      (outcome : OutcomeLog t d answer result notes) :
      PassTranscript result (before ++ .dispatched answer :: notes)

/-- The notes of a run from a state of the loop on. -/
inductive RunNotes [JsonCodec Json] : LoopState Json → List (PassNote Json) → Prop where
  | done (s : LoopState Json) : RunNotes s []
  | last {s : LoopState Json} {result : PassResult Json Decision} {notes : List (PassNote Json)}
      (pass : PassTranscript call s result notes) : RunNotes s notes
  | next {s t : LoopState Json} {notes later : List (PassNote Json)}
      (pass : PassTranscript call s (.next t : PassResult Json Decision) notes)
      (rest : RunNotes t later) : RunNotes s (notes ++ later)

end Logs

/-! ## What is not noted -/

theorem pass_unnoted : Unnoted (passContract Json Decision).left := by
  intro op plain
  cases op with
  | keep note =>
      cases note with
      | event event => cases event <;> first | exact ⟨trivial, fun _ => rfl⟩ | cases plain
      | recordHealthSuccess | recordHealthFailure => cases plain
      | _ => exact ⟨trivial, fun _ => rfl⟩
  | getProfile | compact | getActiveKey | prepareRequest | adapterExecute | parseOutputCap =>
      cases plain
  | _ => exact ⟨trivial, fun _ => rfl⟩

theorem pass_review : NotesReview (passNote : Exchange Json Decision → _) .lapse where
  review := fun _ _ => rfl
  outcome := fun _ _ _ => rfl

section Rules

variable {α β : Type} {post : β → List (PassNote Json) → Prop}

/-- An operation of no note. -/
theorem pass_silent {op : LocalOp Json}
    (noted : ∀ answer : op.Answer Json Decision, LocalOp.passNote op answer = none) :
    (Local.ask op : Local Json Decision _).Quiet (passContract Json Decision).left fun _ => True :=
  (Prog.quiet_call trivial noted).imp fun _ _ => trivial

/-- An operation whose answer is noted. -/
theorem pass_noted {op : LocalOp Json} {note : op.Answer Json Decision → PassNote Json}
    (noted : ∀ answer, LocalOp.passNote op answer = some (note answer))
    {f : op.Answer Json Decision → Local Json Decision β}
    (rest : ∀ answer, (f answer).Meets (passContract Json Decision).left
      fun b log => post b (note answer :: log)) :
    (Local.ask op >>= f).Meets (passContract Json Decision).left post := by
  refine ⟨trivial, fun answer _ => (rest answer).imp fun b log held => ?_⟩
  have marked : (passContract Json Decision).left.note ⟨op, answer⟩ = some (note answer) :=
    noted answer
  rw [marked]
  exact held

theorem pass_local {p : Local Json Decision α} {mid : α → List (PassNote Json) → Prop}
    {f : α → Execution Json Decision β}
    (first : p.Meets (passContract Json Decision).left mid)
    (rest : ∀ a log, mid a log → (f a).Meets (passContract Json Decision)
      fun b more => post b (log ++ more)) :
    (Execution.ofLocal p >>= f).Meets (passContract Json Decision) post :=
  (Prog.meets_inLeft first).seq rest

theorem pass_permit {op : PermitOp Json} {f : op.Answer Json → Execution Json Decision β}
    (rest : ∀ answer, (f answer).Meets (passContract Json Decision)
      fun b log => post b ((if op.lapses answer then some .lapse else none).toList ++ log)) :
    (Execution.ask op >>= f).Meets (passContract Json Decision) post :=
  ⟨trivial, fun answer _ => rest answer⟩

end Rules

/-! ## Local parts -/

section Local

/-- A local program with what it leaves. -/
abbrev LocalNotes {α : Type} (p : Local Json Decision α)
    (post : α → List (PassNote Json) → Prop) : Prop :=
  p.Meets (passContract Json Decision).left post

variable (call : ExecuteCall Json) (s : LoopState Json) (d : Dispatch Json Decision)

theorem notes_emitAttempt (record : AttemptRecord) :
    LocalNotes (emitAttempt record : Local Json Decision Unit)
      fun _ log => log = [.attempted record] := by
  unfold emitAttempt
  split
  · exact ⟨trivial, fun _ _ => rfl⟩
  · exact ⟨trivial, fun _ _ => rfl⟩

theorem notes_recordAttempt (record : AttemptRecord) :
    LocalNotes (recordAttempt s record : Local Json Decision _) fun t log =>
      t = { s with ledger := s.ledger.recordAttempt record } ∧ log = [.attempted record] := by
  refine (notes_emitAttempt record).seq fun _ log emitted => ?_
  subst emitted
  exact ⟨rfl, rfl⟩

theorem silent_settleReserved (reservation : Option Reservation) :
    (settleReserved reservation : Local Json Decision Unit).Quiet
      (passContract Json Decision).left fun _ => True := by
  cases reservation with
  | none => exact Prog.quiet_pure trivial
  | some r => exact pass_silent fun _ => rfl

theorem silent_prepareDurableAttempt (executor : GatewayExecutor Json) (record : AttemptRecord) :
    (prepareDurableAttempt executor record : Local Json Decision Unit).Quiet
      (passContract Json Decision).left fun _ => True := by
  unfold prepareDurableAttempt
  split
  · exact pass_silent fun _ => rfl
  · exact Prog.quiet_pure trivial

theorem silent_finishDurableAttempt (executor : GatewayExecutor Json) (record : AttemptRecord)
    (status : AttemptStatus) (detail : AttemptDetail) :
    (finishDurableAttempt executor record status detail : Local Json Decision Unit).Quiet
      (passContract Json Decision).left fun _ => True := by
  unfold finishDurableAttempt
  split
  · exact pass_silent fun _ => rfl
  · exact Prog.quiet_pure trivial

/-- The end of most handlers. -/
theorem silent_settleAndFinish {α : Type} (executor : GatewayExecutor Json)
    (reservation : Option Reservation) (record : AttemptRecord) (status : AttemptStatus)
    (detail : AttemptDetail) (a : α) :
    (do
      settleReserved reservation
      finishDurableAttempt executor record status detail
      return a : Local Json Decision α).Quiet (passContract Json Decision).left fun b => b = a := by
  refine (silent_settleReserved reservation).bind fun _ _ => ?_
  refine (silent_finishDurableAttempt executor record status detail).bind fun _ _ => ?_
  exact Prog.quiet_pure rfl

theorem notes_recordFailedAttempt (result : ExecutionResult) (classified : FailureClassification)
    (recorded : Bool) :
    LocalNotes (recordFailedAttempt call s d result classified recorded) fun t log =>
      t.request = s.request ∧ ∃ record : AttemptRecord, record.success = false ∧
        log = [.sampled ⟨d.endpoint.id, false, result.durationMs⟩, .attempted record] := by
  refine pass_noted (fun _ => rfl) fun _ => ?_
  refine (pass_unnoted.quiet_recordBilling call s d.endpoint classified).then fun t billed => ?_
  refine (pass_unnoted.quiet_recordPermanent call t d.endpoint classified).then fun u dead => ?_
  refine (pass_unnoted.quiet_recordLaneOutcome d.endpoint (some classified)).then fun _ _ => ?_
  refine (pass_unnoted.quiet_finish d.attempt false _ (some classified)).then
    fun record finished => ?_
  refine (notes_emitAttempt record).seq fun _ log emitted => ?_
  have same : u.request = s.request := (billed.trans dead).request
  refine (silent_settleAndFinish call.executor d.reservation record _ _ _).meets fun v ended => ?_
  subst ended emitted
  obtain ⟨now, rfl⟩ := finished
  exact ⟨same, _, rfl, rfl⟩

theorem notes_rotateKey (keyId : String) (result : ExecutionResult)
    (classified : FailureClassification) :
    LocalNotes (rotateKey call s d keyId result classified) fun t log =>
      t.request = s.request ∧ ∃ record : AttemptRecord, record.success = false ∧
        log = [.attempted record] := by
  refine (pass_unnoted.any rfl).then fun _ _ => (pass_unnoted.any rfl).then fun _ _ => ?_
  refine (pass_unnoted.quiet_finish d.attempt false _ (some classified)).then
    fun record finished => ?_
  refine (notes_recordAttempt s record).seq fun t log recorded => ?_
  obtain ⟨rfl, rfl⟩ := recorded
  refine (silent_settleAndFinish call.executor d.reservation record _ _ _).meets fun u ended => ?_
  subst ended
  obtain ⟨now, rfl⟩ := finished
  exact ⟨rfl, _, rfl, rfl⟩

theorem notes_blockAttempt :
    LocalNotes (blockAttempt call s d) fun _ log =>
      ∃ record : AttemptRecord, record.success = false ∧ log = [.attempted record] := by
  refine (pass_unnoted.quiet_finish d.attempt false 409 none).then fun record finished => ?_
  refine (silent_settleReserved d.reservation).then fun _ _ => ?_
  refine (notes_recordAttempt s record).seq fun t log recorded => ?_
  obtain ⟨rfl, rfl⟩ := recorded
  refine (silent_finishDurableAttempt call.executor record _ _).then fun _ _ => ?_
  obtain ⟨now, rfl⟩ := finished
  exact ⟨_, rfl, rfl⟩

theorem notes_recordTransportError (error : RaisedError) (record : AttemptRecord)
    (classified : FailureClassification) :
    LocalNotes (recordTransportError call s d error record classified) fun _ log =>
      log = [.sampled ⟨d.endpoint.id, false, record.latencyMs⟩, .attempted record] := by
  refine pass_noted (fun _ => rfl) fun _ => (pass_unnoted.any rfl).then fun _ _ => ?_
  refine (pass_unnoted.quiet_recordLaneOutcome d.endpoint (some classified)).then fun _ _ => ?_
  refine (notes_recordAttempt s record).seq fun t log recorded => ?_
  obtain ⟨rfl, rfl⟩ := recorded
  exact (silent_settleAndFinish call.executor d.reservation record _ _ _).meets fun _ _ => rfl

/-- The records of a success end with the report of the attempt. -/
theorem notes_recordSuccess (result : ExecutionResult) :
    LocalNotes (recordSuccess call s d result) fun noted log =>
      noted.2.request = s.request ∧ noted.1.success = true ∧
        log = [.sampled ⟨d.endpoint.id, true, result.durationMs⟩, .attempted noted.1] := by
  have recorded : LocalNotes (do
      let record ← finish d.attempt true 200 none
      return (record, ← recordAttempt s record) : Local Json Decision _) fun noted log =>
        noted.2.request = s.request ∧ noted.1.success = true ∧
          log = [.attempted noted.1] := by
    refine (pass_unnoted.quiet_finish d.attempt true 200 none).then fun record finished => ?_
    refine (notes_recordAttempt s record).seq fun t log recorded => ?_
    obtain ⟨rfl, rfl⟩ := recorded
    obtain ⟨now, rfl⟩ := finished
    exact ⟨rfl, rfl, rfl⟩
  refine pass_noted (fun _ => rfl) fun _ => ?_
  refine (pass_unnoted.quiet_recordLaneOutcome d.endpoint none).then fun _ _ => ?_
  have later := recorded.imp fun noted log held => (⟨held.1, held.2.1, congrArg
    (List.cons (PassNote.sampled ⟨d.endpoint.id, true, result.durationMs⟩)) held.2.2⟩ :
      noted.2.request = s.request ∧ noted.1.success = true ∧
        .sampled ⟨d.endpoint.id, true, result.durationMs⟩ :: log =
          [.sampled ⟨d.endpoint.id, true, result.durationMs⟩, .attempted noted.1])
  dsimp only
  split
  · refine (pass_unnoted.any rfl).then fun _ _ => ?_
    split
    · exact (pass_unnoted.any rfl).then fun _ _ => later
    · exact later
  · split
    · exact (pass_unnoted.any rfl).then fun _ _ => later
    · exact later

/-! ### Recovery -/

theorem notes_stepFallback (classified : FailureClassification) :
    LocalNotes (stepFallback call s d classified) fun t log => RecoveryLog s d (.ok t) log := by
  unfold stepFallback
  split
  · exact RecoveryLog.kept rfl
  · refine pass_noted (fun _ => rfl) fun _ => ?_
    dsimp only
    split
    · exact (pass_unnoted.any rfl).then fun _ _ => RecoveryLog.cooled rfl
    · exact RecoveryLog.cooled rfl

theorem notes_backOff (classified : FailureClassification) :
    LocalNotes (backOff call s d classified) fun t log => RecoveryLog s d (.ok t) log := by
  refine (pass_unnoted.any rfl).then fun p _ => ?_
  refine (pass_unnoted.quiet_computeBackoffSeconds _ _ _).then fun backoff _ => ?_
  refine (pass_unnoted.any rfl).then fun now _ => ?_
  split
  · exact notes_stepFallback call s d classified
  · refine (pass_unnoted.any rfl).then fun _ _ => ?_
    dsimp only
    split
    · exact RecoveryLog.kept rfl
    · split
      · exact RecoveryLog.kept rfl
      · exact (pass_unnoted.any rfl).then fun _ _ => RecoveryLog.kept rfl

theorem notes_clampOutput (classified : FailureClassification) :
    LocalNotes (clampOutput s d classified).run (RecoveryLog s d) := by
  refine ⟨trivial, fun answer _ => ?_⟩
  change Except RaisedError (Option Nat) at answer
  cases answer with
  | ok cap => exact RecoveryLog.clamped cap rfl
  | error e => exact RecoveryLog.raised e

theorem notes_shrinkWindow (classified : FailureClassification) :
    LocalNotes (shrinkWindow s d classified).run (RecoveryLog s d) := by
  refine Prog.Quiet.meets (pass_unnoted.quiet_shrinkWindow s d classified) fun result held => ?_
  cases result with
  | ok t => exact RecoveryLog.kept (held t rfl).request
  | error e => exact RecoveryLog.raised e

theorem notes_retryOrFallBack (classified : FailureClassification) :
    LocalNotes (retryOrFallBack call s d classified).run (RecoveryLog s d) := by
  have lifted {p : Local Json Decision (LoopState Json)}
      (first : LocalNotes p fun t log => RecoveryLog s d (.ok t) log) :
      LocalNotes (ExceptT.lift p : Raising Json Decision _).run (RecoveryLog s d) := by
    refine first.seq fun t log held => ?_
    change RecoveryLog s d (.ok t) (log ++ [])
    rwa [List.append_nil]
  refine (pass_unnoted.quiet_lifted rfl).then RecoveryLog.raised fun p _ => ?_
  split
  · exact lifted (notes_backOff call s d classified)
  · split
    · exact lifted (notes_stepFallback call s d classified)
    · refine (pass_unnoted.quiet_lifted rfl).then RecoveryLog.raised fun _ _ => ?_
      exact RecoveryLog.raised _

theorem notes_recover (classified : FailureClassification) :
    LocalNotes (recover call s d classified).run (RecoveryLog s d) := by
  refine (pass_unnoted.quiet_lifted rfl).then RecoveryLog.raised fun p _ => ?_
  dsimp only
  split
  · exact notes_clampOutput s d classified
  · split
    · exact notes_shrinkWindow s d classified
    · exact notes_retryOrFallBack call s d classified

end Local

/-! ## Up to the prepared request -/

section Prepare

variable (call : ExecuteCall Json) {s t : LoopState Json} (endpoint : Endpoint)
  (decision : Decision) {profile : ModelProfile} {shrink : ℚ}

theorem silent_reserveBudget (request : NormalizedRequest Json) (attemptId : String) :
    Prog.QuietExcept (passContract Json Decision).left (fun _ => True)
      (reserveBudget call request profile attemptId) := by
  unfold reserveBudget
  split
  · exact Prog.quietExcept_pure trivial
  · refine (Prog.quietExcept_lift (pass_silent fun answer => ?_)).bind fun answer _ => ?_
    · cases answer <;> rfl
    · cases answer with
      | refused negative => exact Prog.quietExcept_throw _
      | denied => exact Prog.quietExcept_pure trivial
      | reserved nonneg => exact Prog.quietExcept_pure trivial

variable [JsonCodec Json]

theorem notes_prepareDispatch (same : t.request = s.request) (known : Profiles endpoint profile)
    {adapted : NormalizedRequest Json}
    (limit : adapted.maxOutputTokens =
      some (contextBudget profile shrink s.request).desiredOutputTokens) (wasCompacted : Bool) :
    LocalNotes (prepareDispatch call t endpoint decision profile adapted wasCompacted).run
      fun result log => PrepareLog call s result (sizingNotes s endpoint profile shrink ++ log) := by
  have adapterKnown : Prog.QuietExcept (passContract Json Decision).left (fun _ => True)
      (Raising.getAdapter endpoint : Raising Json Decision _) :=
    (pass_unnoted.any rfl).imp fun _ _ _ _ => trivial
  have unsent : EarlyLog call s (sizingNotes s endpoint profile shrink ++ []) := by
    rw [List.append_nil]
    exact .sized known shrink
  refine adapterKnown.then (fun _ => unsent) fun adapter _ => ⟨trivial, fun key _ => ?_⟩
  have sends : Sends call s endpoint profile (sizingNotes s endpoint profile shrink ++
      [.keyed endpoint call.keys key, .prepared endpoint adapted (sentKey call endpoint key)]) :=
    .send known shrink key limit
  refine ⟨trivial, fun answer _ => ?_⟩
  change Except RaisedError PreparedRequest at answer
  cases answer with
  | error e => exact .sent sends
  | ok prepared =>
      refine (pass_unnoted.quiet_check call.deadline).then (fun _ => .sent sends) fun _ _ => ?_
      refine (pass_unnoted.quiet_lifted rfl).then (fun _ => .sent sends) fun now _ => ?_
      refine (pass_unnoted.quiet_lifted rfl).then (fun _ => .sent sends) fun attemptId _ => ?_
      refine (pass_unnoted.quiet_lifted rfl).then (fun _ => .sent sends) fun start _ => ?_
      refine (silent_reserveBudget call t.request attemptId).then (fun _ => .sent sends)
        fun verdict _ => ?_
      cases verdict with
      | unlimited => exact ⟨same, sends⟩
      | denied => exact ⟨same, .sent sends⟩
      | reserved reservation => exact ⟨same, sends⟩

theorem notes_sizeRequest (same : t.request = s.request) (known : Profiles endpoint profile) :
    LocalNotes (sizeRequest call t endpoint decision profile shrink).run
      fun result log => PrepareLog call s result (shownNotes endpoint profile ++ log) := by
  have sized : EarlyLog call s (sizingNotes s endpoint profile shrink) := .sized known shrink
  unfold sizeRequest
  rw [same]
  refine ⟨trivial, fun answer _ => ?_⟩
  change Except RaisedError (NormalizedRequest Json × Bool) at answer
  rcases answer with e | ⟨compacted, wasCompacted⟩
  · cases e <;> first | exact sized | exact ⟨same, sized⟩
  · change LocalNotes (ExceptT.run (if shrink < 1 ∧ !wasCompacted then _ else _)) _
    split
    · exact ⟨same, sized⟩
    · refine Prog.Quiet.lift (pass_unnoted.quiet_recordFailover call t endpoint _ _)
        fun u failedOver => ?_
      have limit : ({ compacted with
          maxOutputTokens := some (contextBudget profile shrink s.request).desiredOutputTokens } :
            NormalizedRequest Json).maxOutputTokens =
          some (contextBudget profile shrink s.request).desiredOutputTokens := rfl
      refine (notes_prepareDispatch call endpoint decision (failedOver.1.request.trans same) known
        limit wasCompacted).imp fun result log held => ?_
      rw [sizingNotes, List.append_assoc] at held
      exact held

theorem notes_prepareAttempt (s : LoopState Json) :
    LocalNotes (prepareAttempt call s : Raising Json Decision _).run (PrepareLog call s) := by
  have selected : ∀ requestId excluded reason,
      Prog.QuietExcept (passContract Json Decision).left (fun _ => True)
        (Raising.selectCandidate call.requirements call.pool call.strategy requestId excluded
          reason : Raising Json Decision _) :=
    fun _ _ _ => (pass_unnoted.any rfl).imp fun _ _ _ _ => trivial
  have bounds : ∀ note : Bookkeeping, note.isBound = true →
      (passContract Json Decision).left.good (.keep note) ∧
        ∀ answer, (passContract Json Decision).left.note ⟨.keep note, answer⟩ = none := by
    intro note bound
    cases note with
    | event event => cases event <;> first | exact ⟨trivial, fun _ => rfl⟩ | cases bound
    | setMaxTotalAttempts => exact ⟨trivial, fun _ => rfl⟩
    | _ => cases bound
  unfold prepareAttempt
  have same : ({ s with attemptIdx := s.attemptIdx + 1 } : LoopState Json).request =
      s.request := rfl
  generalize ({ s with attemptIdx := s.attemptIdx + 1 } : LoopState Json) = t at same ⊢
  refine (pass_unnoted.quiet_check call.deadline).then (fun _ => .idle) fun _ _ => ?_
  refine (selected _ _ _).then (fun _ => .idle) fun ⟨candidate, decision⟩ _ => ?_
  cases candidate with
  | none =>
      refine (pass_unnoted.quiet_rollOver bounds call t).then (fun _ => .idle) fun u kept => ?_
      exact ⟨kept.2.trans same, .idle⟩
  | some endpoint =>
      refine (pass_unnoted.quiet_lifted rfl).then (fun _ => .idle) fun policy _ => ?_
      dsimp only
      split
      · exact ⟨same, .idle⟩
      · split
        next profile listed =>
          have known : Profiles endpoint profile := by
            intro own found
            rw [listed] at found
            exact (Option.some.inj found).symm
          refine (notes_sizeRequest call endpoint decision same known).imp fun result log held => ?_
          simp only [shownNotes, listed] at held
          exact held
        next missing =>
          refine ⟨trivial, fun profile _ => ?_⟩
          have known : Profiles endpoint profile := by
            intro own found
            rw [missing] at found
            cases found
          refine (notes_sizeRequest call endpoint decision same known).imp fun result log held => ?_
          simp only [shownNotes, missing] at held
          exact held

end Prepare

/-! ## From the permit on -/

section Pass

/-- A program of the executor with what it leaves. -/
abbrev ExecutionNotes {α : Type} (p : Execution Json Decision α)
    (post : α → List (PassNote Json) → Prop) : Prop :=
  p.Meets (passContract Json Decision) post

variable (call : ExecuteCall Json) (s : LoopState Json) (d : Dispatch Json Decision)

theorem notes_reportFailure (result : ExecutionResult) (classified : FailureClassification)
    (recorded : Bool) :
    ExecutionNotes (reportFailure call s d result classified recorded) (ReportLog s d result) := by
  refine pass_permit fun _ => ?_
  refine pass_local (notes_recordFailedAttempt call s d result classified recorded)
    fun t log held => ?_
  obtain ⟨same, record, failed, rfl⟩ := held
  refine pass_local (notes_recover call t d classified) fun outcome notes recovery => ?_
  have report : ReportLog s d result _ _ := .report same failed t.ledger.attempts recovery
  change ReportLog s d result (.ofRaising t.ledger.attempts outcome)
    (.sampled _ :: .attempted record :: (notes ++ []))
  rwa [List.append_nil]

theorem notes_failAttempt (result : ExecutionResult) (classified : FailureClassification)
    (recorded : Bool) :
    ExecutionNotes (failAttempt call s d result classified recorded)
      (OutcomeLog s d (.ok result)) := by
  have reported : ExecutionNotes (reportFailure call s d result classified recorded)
      (OutcomeLog s d (.ok result)) :=
    (notes_reportFailure call s d result classified recorded).imp
      fun _ _ report => .reported result report
  unfold failAttempt
  split
  · exact reported
  · refine pass_permit fun another => ?_
    change Bool at another
    cases another with
    | false => exact reported
    | true =>
        refine pass_local (notes_rotateKey call s d _ result classified) fun t log held => ?_
        obtain ⟨same, record, failed, rfl⟩ := held
        exact OutcomeLog.rotated _ failed same

/-- A failure that cannot be classified is a lapse. -/
theorem notes_classified {post : PassResult Json Decision → List (PassNote Json) → Prop}
    {source : FailureSource} {statusCode : Nat} {headers : List (String × String)}
    {f : Except RaisedError FailureClassification → Execution Json Decision (PassResult Json Decision)}
    (known : ∀ classified, ExecutionNotes (f (.ok classified)) post)
    (unknown : ∀ e, ExecutionNotes (f (.error e)) fun b log => post b (.lapse :: log)) :
    ExecutionNotes (classifyFailure source statusCode headers >>= f) post := by
  unfold classifyFailure
  by_cases refused : source = .exception negativeCost ∧ statusCode = 502
  · rw [if_pos refused]
    exact known negativeCostFailure
  · rw [if_neg refused]
    refine pass_permit fun answer => ?_
    change Except RaisedError FailureClassification at answer
    cases answer with
    | ok classified => exact known classified
    | error e => exact unknown e

theorem notes_failClassified (result : ExecutionResult) (source : FailureSource)
    (statusCode : Nat) (headers : List (String × String)) (recorded : Bool) :
    ExecutionNotes (failClassified call s d result source statusCode headers recorded)
      (OutcomeLog s d (.ok result)) :=
  notes_classified (fun classified => notes_failAttempt call s d result classified recorded)
    fun e => OutcomeLog.unclassified _ e _

theorem notes_transportError (error : RaisedError) :
    ExecutionNotes (transportError call s d error) (OutcomeLog s d (.error error)) := by
  refine notes_classified (fun classified => ?_) fun e => OutcomeLog.unclassified _ e _
  refine pass_local (pass_unnoted.quiet_finish d.attempt false 502 (some classified))
    fun record log finished => ?_
  obtain ⟨rfl, now, rfl⟩ := finished
  refine pass_permit fun _ => ?_
  refine pass_local (notes_recordTransportError call s d error _ classified) fun t log held => ?_
  subst held
  exact OutcomeLog.transport error rfl _

variable [JsonCodec Json]

theorem notes_acceptResponse (result : ExecutionResult) (response : NormalizedResponse Json) :
    ExecutionNotes (acceptResponse call s d result response) (OutcomeLog s d (.ok result)) := by
  refine pass_permit fun _ => ?_
  refine pass_local (notes_recordSuccess call s d result) fun ⟨record, t⟩ log held => ?_
  obtain ⟨same, succeeded, rfl⟩ := held
  have succeed : ∀ ledger : AttemptLedger, ExecutionNotes (do
      Execution.ofLocal (finishDurableAttempt call.executor record .succeeded (.text ""))
      return .returned response d.decision ledger :
        Execution Json Decision (PassResult Json Decision)) fun outcome log =>
      OutcomeLog s d (.ok result) outcome
        (.sampled ⟨d.endpoint.id, true, result.durationMs⟩ :: .attempted record :: log) := by
    intro ledger
    refine pass_local (silent_finishDurableAttempt call.executor record _ _) fun _ log ended => ?_
    obtain ⟨rfl, _⟩ := ended
    exact OutcomeLog.accepted result succeeded response d.decision ledger
  dsimp only
  split
  · exact succeed _
  · refine pass_permit fun answer => ?_
    change SettleAnswer _ at answer
    cases answer with
    | settled nonneg => exact succeed _
    | refused negative =>
        -- A refused cost is a server error, so no key is rotated.
        have kept : ({ t with ledger := t.ledger.addCost (responseCost d response) } :
            LoopState Json).request = s.request := same
        exact (notes_reportFailure call _ d result negativeCostFailure true).imp
          fun outcome notes report => OutcomeLog.refused result succeeded kept report

theorem notes_handleResult (result : ExecutionResult) :
    ExecutionNotes (handleResult call s d result) (OutcomeLog s d (.ok result)) := by
  unfold handleResult
  split
  · have reviewed : ExecutionNotes
        (reviewResponse s d call.executor.maxResponseChars result).run (ReviewLog .lapse) :=
      Prog.Logs.meets (reviewed_response s d pass_review _ result) fun _ => trivial
    refine reviewed.seq fun review log held => ?_
    rcases review with e | classified | response
    · cases blocked : e.isIndeterminate with
      | true =>
          obtain rfl : log = [.lapse] := by simpa [ReviewLog, blocked] using held
          simp only [blocked]
          refine pass_local (notes_blockAttempt call s d) fun t log recorded => ?_
          obtain ⟨record, failed, rfl⟩ := recorded
          exact OutcomeLog.blocked _ failed e _
      | false =>
          obtain rfl : log = [] := by simpa [ReviewLog, blocked] using held
          simp only [blocked]
          exact notes_failClassified call s d result _ _ _ _
    · obtain rfl : log = [] := held
      exact notes_failAttempt call s d result classified false
    · obtain rfl : log = [] := held
      exact notes_acceptResponse call s d result response
  · exact notes_failClassified call s d result _ _ _ _

theorem notes_dispatch :
    ExecutionNotes (dispatch call s d) fun result log =>
      ∃ answer notes, log = .dispatched answer :: notes ∧ OutcomeLog s d answer result notes := by
  refine pass_local (silent_prepareDurableAttempt call.executor d.attempt) fun _ log kept => ?_
  obtain ⟨rfl, _⟩ := kept
  refine ⟨trivial, fun answer _ => ?_⟩
  change Except RaisedError ExecutionResult at answer
  cases answer with
  | ok result =>
      exact (notes_handleResult call s d result).imp fun _ notes held => ⟨_, notes, rfl, held⟩
  | error e =>
      exact (notes_transportError call s d e).imp fun _ notes held => ⟨_, notes, rfl, held⟩

theorem notes_runPass :
    ExecutionNotes (runPass call s : Execution Json Decision _) (PassTranscript call s) := by
  refine pass_local (notes_prepareAttempt call s) fun prepared before held => ?_
  rcases prepared with e | t | ⟨t, d⟩
  · change PassTranscript call s (.raised e s.ledger.attempts) (before ++ [])
    rw [List.append_nil]
    exact .early (fun _ same => by cases same) held
  · change PassTranscript call s (.next t) (before ++ [])
    rw [List.append_nil]
    refine .early (fun u same => ?_) held.2
    cases same
    exact held.1
  · refine pass_permit fun answer => ?_
    change Except BreakerError Unit at answer
    cases answer with
    | ok granted =>
        refine (notes_dispatch call t d).imp fun result log dispatched => ?_
        obtain ⟨answer, notes, rfl, outcome⟩ := dispatched
        exact .dispatched held.1 held.2 outcome
    | error denied =>
        have released : (d.reservation.forM fun r => Local.keep (.releaseReservation r) :
            Local Json Decision Unit).Quiet (passContract Json Decision).left fun _ => True := by
          cases d.reservation with
          | none => exact Prog.quiet_pure trivial
          | some r => exact pass_silent fun _ => rfl
        refine pass_local released fun _ log quiet => ?_
        obtain ⟨rfl, _⟩ := quiet
        change PassTranscript call s (.next (t.exclude d.endpoint)) (before ++ [])
        rw [List.append_nil]
        refine .early (fun u same => ?_) (.sent held.2)
        cases same
        exact held.1

/-- The notes of a run, whatever it is answered. -/
theorem notes_executeLoop (fuel : Nat) :
    ExecutionNotes (executeLoop call fuel s : Execution Json Decision _)
      fun _ log => @RunNotes Json Decision call _ s log := by
  induction fuel generalizing s with
  | zero => exact RunNotes.done s
  | succ fuel ih =>
      have continues : (mayContinue call s : Local Json Decision Bool).Quiet
          (passContract Json Decision).left fun _ => True := by
        refine (pass_unnoted.any rfl).bind fun now _ => ?_
        split
        · exact Prog.quiet_pure trivial
        · exact (pass_unnoted.any rfl).bind fun _ _ => Prog.quiet_pure trivial
      refine pass_local continues fun more log quiet => ?_
      obtain ⟨rfl, _⟩ := quiet
      cases more with
      | false =>
          refine pass_local (pass_unnoted.quiet_giveUp call s) fun _ log quiet => ?_
          obtain ⟨rfl, _⟩ := quiet
          exact RunNotes.done s
      | true =>
          refine (notes_runPass call s).seq fun result log pass => ?_
          cases result with
          | next t =>
              refine (ih t).imp fun _ later rest => ?_
              change RunNotes call s (log ++ later)
              exact .next pass rest
          | returned | raised =>
              change RunNotes call s (log ++ [])
              rw [List.append_nil]
              exact RunNotes.last pass

theorem notes_execute (executor : GatewayExecutor Json) (args : ExecuteRequest Json) (fuel : Nat)
    {exchanges : List (Exchange Json Decision)} {result : ExecuteResult Json Decision}
    (run : (execute executor args fuel).Traces exchanges result) :
    ∃ call : ExecuteCall Json, call.keys = args.apiKeys ∧
      @RunNotes Json Decision call _ { request := args.request }
        (exchanges.filterMap passNote) := by
  have noted : ExecutionNotes (execute executor args fuel : Execution Json Decision _)
      fun _ log => ∃ call : ExecuteCall Json, call.keys = args.apiKeys ∧
        @RunNotes Json Decision call _ { request := args.request } log := by
    have clock : (Local.monotonic : Local Json Decision Seconds).Quiet
        (passContract Json Decision).left fun _ => True := pass_unnoted.any rfl
    refine pass_local clock fun start log quiet => ?_
    obtain ⟨rfl, _⟩ := quiet
    exact (notes_executeLoop (args.call executor start) _ fuel).imp
      fun _ _ notes => ⟨args.call executor start, rfl, notes⟩
  exact (noted.traces run fun _ _ => trivial).1

end Pass

end DuraLLM
