import DuraLLM.Execution.Executor

/-! # Breaker permits of a request

Every granted permit is to be reported back to its breaker, once.  The
transcript of a run is projected to its permit events, and the exchanges after
which the executor fails to report, or reports twice, are named: the lapses.
One pass leaves one of three logs behind (`AttemptLog`), so a whole run is
paired exactly when it has no lapse.
-/

namespace DuraLLM

variable {Json Decision : Type}

inductive PermitEvent where
  | admitted (breakerKey : String)
  | reported (breakerKey : String)
  deriving DecidableEq

/-- Each permit is reported to its breaker, once, before the next is taken. -/
inductive Paired : List PermitEvent → Prop where
  | nil : Paired []
  | attempt (breakerKey : String) {later : List PermitEvent} (paired : Paired later) :
      Paired (.admitted breakerKey :: .reported breakerKey :: later)

def PermitOp.event : (op : PermitOp Json) → op.Answer Json → Option PermitEvent
  | .acquirePermission key, (.ok () : Except BreakerError Unit) => some (.admitted key)
  | .acquirePermission _, (.error _ : Except BreakerError Unit) => none
  | .recordSuccess key _, _ => some (.reported key)
  | .recordFailure key _ _, _ => some (.reported key)
  | .review _, _ => none
  | .classifyFailure _ _ _, _ => none
  | .settleCost _ _, _ => none
  | .hasAlternativeKey _ _ _, _ => none

/-- A call of the review ends in `IndeterminateToolOperationError`: it raises
    it, or it marks the call that the executor raises it for. -/
def ReviewOp.blocks (op : ReviewOp Json) : Except RaisedError (op.Result) → Bool
  | .error e => e.isIndeterminate
  | .ok _ =>
      match op with
      | .markIndeterminate _ _ => true
      | _ => false

/-- The answers after which the permit of the attempt is not reported once:
    a blocked tool call, a failure the classifier cannot classify, an accepted
    response whose negative cost the budget store refuses, and another key to
    rotate to. -/
def PermitOp.lapses : (op : PermitOp Json) → op.Answer Json → Bool
  | .acquirePermission _, _ => false
  | .recordSuccess _ _, _ => false
  | .recordFailure _ _ _, _ => false
  | .review op, answer => op.blocks answer
  | .classifyFailure _ _ _, (.ok _ : Except RaisedError FailureClassification) => false
  | .classifyFailure _ _ _, (.error _ : Except RaisedError FailureClassification) => true
  | .settleCost _ _, (.refused _ : SettleAnswer _) => true
  | .settleCost _ _, (.settled _ : SettleAnswer _) => false
  | .hasAlternativeKey _ _ _, another => another

abbrev Exchange (Json Decision : Type) := Sigma (executorSig Json Decision).Ans

def permitEvent : Exchange Json Decision → Option PermitEvent
  | ⟨.inl _, _⟩ => none
  | ⟨.inr op, answer⟩ => op.event answer

def Lapse : Exchange Json Decision → Bool
  | ⟨.inl _, _⟩ => false
  | ⟨.inr op, answer⟩ => op.lapses answer

/-! ## The log of a run -/

/-- What an answer adds to the log of permits. -/
inductive Mark where
  | event (event : PermitEvent)
  | lapse
  deriving DecidableEq

def Mark.event? : Mark → Option PermitEvent
  | .event e => some e
  | .lapse => none

def PermitOp.mark (op : PermitOp Json) (answer : op.Answer Json) : Option Mark :=
  match op.event answer with
  | some e => some (.event e)
  | none => if op.lapses answer then some .lapse else none

def mark : Exchange Json Decision → Option Mark
  | ⟨.inl _, _⟩ => none
  | ⟨.inr op, answer⟩ => op.mark answer

theorem event_of_mark (exchange : Exchange Json Decision) :
    (mark exchange).bind Mark.event? = permitEvent exchange := by
  rcases exchange with ⟨op | op, answer⟩
  · rfl
  · simp only [mark, permitEvent, PermitOp.mark]
    cases op.event answer with
    | some e => rfl
    | none => cases op.lapses answer <;> rfl

/-- No answer is both a permit event and a lapse. -/
theorem event_none_of_lapses {op : PermitOp Json} {answer : op.Answer Json}
    (lapsed : op.lapses answer = true) : op.event answer = none := by
  cases op with
  | acquirePermission | recordSuccess | recordFailure => cases lapsed
  | review | classifyFailure | settleCost | hasAlternativeKey => rfl

theorem lapse_iff_mark (exchange : Exchange Json Decision) :
    Lapse exchange = true ↔ mark exchange = some .lapse := by
  rcases exchange with ⟨op | op, answer⟩
  · simp only [Lapse, mark, Bool.false_eq_true, reduceCtorEq]
  · simp only [Lapse, mark, PermitOp.mark]
    constructor
    · intro lapsed
      simp only [event_none_of_lapses lapsed, lapsed, if_true]
    · intro marked
      split at marked
      · cases marked
      · simpa using marked

/-- What the attempt behind a granted permit leaves. -/
inductive AttemptLog (breakerKey : String) : List Mark → Prop where
  | once : AttemptLog breakerKey [.event (.reported breakerKey)]
  | never : AttemptLog breakerKey [.lapse]
  | twice : AttemptLog breakerKey
      [.event (.reported breakerKey), .lapse, .event (.reported breakerKey)]

inductive RunLog : List Mark → Prop where
  | nil : RunLog []
  | attempt (breakerKey : String) {log later : List Mark} (first : AttemptLog breakerKey log)
      (rest : RunLog later) : RunLog (.event (.admitted breakerKey) :: (log ++ later))

namespace RunLog

theorem not_reported_first {log : List Mark} (run : RunLog log) (key : String)
    (later : List PermitEvent) : log.filterMap Mark.event? ≠ .reported key :: later := by
  cases run with
  | nil => simp
  | attempt key' first rest => simp [Mark.event?]

/-- A run is paired exactly when nothing in it lapsed. -/
theorem paired_iff {log : List Mark} (run : RunLog log) :
    Paired (log.filterMap Mark.event?) ↔ .lapse ∉ log := by
  induction run with
  | nil => exact ⟨fun _ => List.not_mem_nil, fun _ => .nil⟩
  | @attempt key log later first rest ih =>
      cases first with
      | once =>
          simp only [Mark.event?, List.cons_append, List.nil_append, List.filterMap_cons,
            List.mem_cons, reduceCtorEq, false_or]
          rw [← ih]
          constructor
          · intro paired
            cases paired with
            | attempt _ later => exact later
          · exact .attempt key
      | never =>
          simp only [Mark.event?, List.cons_append, List.nil_append, List.filterMap_cons,
            List.mem_cons, reduceCtorEq, false_or, true_or, not_true_eq_false, iff_false]
          intro paired
          generalize events : later.filterMap Mark.event? = tail at paired
          cases paired with
          | attempt _ _ => exact rest.not_reported_first _ _ events
      | twice =>
          simp only [Mark.event?, List.cons_append, List.nil_append, List.filterMap_cons,
            List.mem_cons, reduceCtorEq, false_or, true_or, not_true_eq_false, iff_false]
          intro paired
          cases paired with
          | attempt _ later => cases later

end RunLog

/-! ## The log of each part -/

section Rules

variable {α β : Type} {post : β → List Mark → Prop}

theorem logs_pure {a : β} (holds : post a []) :
    (pure a : Execution Json Decision β).Logs mark post :=
  Prog.logs_ret holds

/-- A local part leaves the log alone. -/
theorem logs_local (p : Local Json Decision α) {f : α → Execution Json Decision β}
    (rest : ∀ a, (f a).Logs mark post) : (Execution.ofLocal p >>= f).Logs mark post := by
  have silent : (Execution.ofLocal p).Logs mark fun _ log => log = [] :=
    Prog.logs_inLeft (fun _ _ => rfl) p fun _ => rfl
  refine silent.seq fun a log empty => ?_
  subst empty
  exact rest a

theorem logs_permit {op : PermitOp Json} {f : op.Answer Json → Execution Json Decision β}
    (rest : ∀ answer, (f answer).Logs mark
      fun b log => post b ((op.mark answer).toList ++ log)) :
    (Execution.ask op >>= f).Logs mark post :=
  Prog.logs_ask rest

end Rules

/-! ### The review -/

/-- A log that notes of a review the answers that block it, and nothing else. -/
structure NotesReview {ω : Type} (note : Exchange Json Decision → Option ω) (lapse : ω) : Prop where
  review : ∀ (op : ReviewOp Json) answer,
    note ⟨.inr (.review op), answer⟩ = if op.blocks answer then some lapse else none
  outcome : ∀ endpointId success answer,
    note ⟨.inl (.keep (.recordToolOutcome endpointId success)), answer⟩ = none

/-- A review leaves a lapse exactly when it ends in
    `IndeterminateToolOperationError`. -/
def ReviewLog {α ω : Type} (lapse : ω) : Except RaisedError α → List ω → Prop
  | .ok _, log => log = []
  | .error e, log => log = if e.isIndeterminate then [lapse] else []

section Review

variable {α β ω : Type} {note : Exchange Json Decision → Option ω} {lapse : ω}

def Reviewed (note : Exchange Json Decision → Option ω) (lapse : ω)
    (p : Reviewing Json Decision α) : Prop :=
  p.run.Logs note (ReviewLog lapse)

theorem reviewed_pure (a : α) : Reviewed note lapse (pure a : Reviewing Json Decision α) :=
  Prog.logs_ret rfl

theorem Reviewed.bind {p : Reviewing Json Decision α} {f : α → Reviewing Json Decision β}
    (first : Reviewed note lapse p) (rest : ∀ a, Reviewed note lapse (f a)) :
    Reviewed note lapse (p >>= f) := by
  refine Prog.Logs.seq first fun result log held => ?_
  cases result with
  | ok a =>
      obtain rfl : log = [] := held
      exact rest a
  | error e =>
      refine Prog.logs_ret ?_
      rw [List.append_nil]
      exact held

/-- A call of the review that raises. -/
theorem note_raised (noted : NotesReview note lapse) {op : ReviewOp Json} (e : RaisedError) :
    @ReviewLog α ω lapse (.error e)
      ((note ⟨.inr (.review op), .error e⟩).toList ++ []) := by
  have marked := noted.review op (.error e)
  rw [marked]
  cases known : e.isIndeterminate <;> simp [ReviewLog, ReviewOp.blocks, known]

/-- The call that marks an operation is the only one whose success blocks. -/
theorem reviewed_call (noted : NotesReview note lapse) {op : ReviewOp Json}
    (silent : ∀ a, op.blocks (.ok a) = false) :
    Reviewed note lapse (Reviewing.call op : Reviewing Json Decision (op.Result)) := by
  refine Prog.logs_ask fun answer => Prog.logs_ret ?_
  change Except RaisedError (op.Result) at answer
  cases answer with
  | ok a =>
      have marked := noted.review op (.ok a)
      rw [marked]
      simp [ReviewLog, silent a]
  | error e => exact note_raised noted e

/-- Whether the mark succeeds or raises, a blocked call leaves its lapse. -/
theorem reviewed_blocked (noted : NotesReview note lapse) (tcId reason operation tool : String) :
    Reviewed note lapse (do
      Reviewing.call (.markIndeterminate tcId reason)
      throw (.indeterminateToolOperation operation tool) : Reviewing Json Decision α) := by
  refine Prog.logs_ask fun answer => ?_
  change Except RaisedError Unit at answer
  cases answer with
  | ok a =>
      have marked := noted.review (.markIndeterminate tcId reason) (.ok a)
      have logged : @ReviewLog α ω lapse (.error (.indeterminateToolOperation operation tool))
          ((note ⟨.inr (.review (.markIndeterminate tcId reason)), .ok a⟩).toList ++ []) := by
        rw [marked]
        rfl
      exact Prog.logs_ret logged
  | error e => exact Prog.logs_ret (note_raised noted e)

theorem reviewed_outcome (noted : NotesReview note lapse) (endpointId : String) (success : Bool) :
    Reviewed note lapse (Reviewing.keep (.recordToolOutcome endpointId success) :
      Reviewing Json Decision Unit) := by
  refine Prog.logs_ask fun answer => Prog.logs_ret ?_
  have unmarked := noted.outcome endpointId success answer
  rw [unmarked]
  rfl

variable (s : LoopState Json) (d : Dispatch Json Decision)

theorem reviewed_replayOrBlock (noted : NotesReview note lapse) (tcId : String)
    (tc : NormalizedToolCall Json) :
    Reviewed note lapse (replayOrBlock s tcId tc : Reviewing Json Decision _) := by
  refine (reviewed_call noted fun _ => rfl).bind fun ⟨hasReceipt, receipt⟩ => ?_
  cases hasReceipt with
  | true => exact (reviewed_call noted fun _ => rfl).bind fun _ => reviewed_pure _
  | false =>
      refine (reviewed_call noted fun _ => rfl).bind fun unknown => ?_
      cases unknown with
      | false => exact reviewed_pure _
      | true => exact reviewed_blocked noted _ _ _ _

variable [JsonCodec Json]

theorem reviewed_toolCall (noted : NotesReview note lapse) (index : Nat)
    (tc : NormalizedToolCall Json) : Reviewed note lapse (reviewToolCall s d index tc) := by
  refine (reviewed_call noted fun _ => rfl).bind fun _ => ?_
  refine (reviewed_replayOrBlock s noted _ _).bind fun tc => ?_
  refine (reviewed_call noted fun _ => rfl).bind fun report => ?_
  refine (reviewed_outcome noted _ _).bind fun _ => ?_
  split
  · exact (reviewed_call noted fun _ => rfl).bind fun _ => reviewed_pure _
  · exact (reviewed_call noted fun _ => rfl).bind fun _ => reviewed_pure _

theorem reviewed_toolCalls (noted : NotesReview note lapse) (index : Nat)
    (calls : List (NormalizedToolCall Json)) :
    Reviewed note lapse (reviewToolCalls s d index calls) := by
  induction calls generalizing index with
  | nil => exact reviewed_pure _
  | cons tc rest ih =>
      refine (reviewed_toolCall s d noted index tc).bind fun checked => ?_
      cases checked with
      | none => exact reviewed_pure _
      | some checked => exact (ih (index + 1)).bind fun _ => reviewed_pure _

theorem reviewed_response (noted : NotesReview note lapse) (maxResponseChars : Nat)
    (result : ExecutionResult) :
    Reviewed note lapse (reviewResponse s d maxResponseChars result) := by
  refine (reviewed_call noted fun _ => rfl).bind fun response => ?_
  split
  · exact reviewed_pure _
  · refine (reviewed_toolCalls s d noted 0 _).bind fun calls => ?_
    cases calls with
    | some calls => exact reviewed_pure _
    | none => exact reviewed_pure _

end Review

theorem permits_review :
    NotesReview (mark : Exchange Json Decision → Option Mark) .lapse where
  review := fun _ _ => rfl
  outcome := fun _ _ _ => rfl

/-! ### From the permit on -/

section Pass

variable (call : ExecuteCall Json) (s : LoopState Json) (d : Dispatch Json Decision)

theorem logs_reportFailure (result : ExecutionResult) (classified : FailureClassification)
    (recorded : Bool) :
    (reportFailure call s d result classified recorded).Logs mark
      fun _ log => log = [.event (.reported d.endpoint.resourceKey)] := by
  refine logs_permit fun _ => ?_
  exact logs_local _ fun s => logs_local _ fun _ => logs_pure rfl

theorem logs_failAttempt (result : ExecutionResult) (classified : FailureClassification)
    (recorded : Bool) :
    (failAttempt call s d result classified recorded).Logs mark
      fun _ log => AttemptLog d.endpoint.resourceKey log := by
  have reported : (reportFailure call s d result classified recorded).Logs mark
      fun _ log => AttemptLog d.endpoint.resourceKey log :=
    (logs_reportFailure call s d result classified recorded).imp fun _ _ same => same ▸ .once
  unfold failAttempt
  split
  · exact reported
  · refine logs_permit fun another => ?_
    change Bool at another
    cases another with
    | true => exact logs_local _ fun _ => logs_pure .never
    | false => exact reported

/-- A failure that cannot be classified is a lapse. -/
theorem logs_classified {post : PassResult Json Decision → List Mark → Prop}
    {source : FailureSource} {statusCode : Nat} {headers : List (String × String)}
    {f : Except RaisedError FailureClassification → Execution Json Decision (PassResult Json Decision)}
    (known : ∀ classified, (f (.ok classified)).Logs mark post)
    (unknown : ∀ e, (f (.error e)).Logs mark fun b log => post b (.lapse :: log)) :
    (classifyFailure source statusCode headers >>= f).Logs mark post := by
  unfold classifyFailure
  by_cases refused : source = .exception negativeCost ∧ statusCode = 502
  · rw [if_pos refused]
    exact known negativeCostFailure
  · rw [if_neg refused]
    refine logs_permit fun answer => ?_
    change Except RaisedError FailureClassification at answer
    cases answer with
    | ok classified => exact known classified
    | error e => exact unknown e

theorem logs_failClassified (result : ExecutionResult) (source : FailureSource) (statusCode : Nat)
    (headers : List (String × String)) (recorded : Bool) :
    (failClassified call s d result source statusCode headers recorded).Logs mark
      fun _ log => AttemptLog d.endpoint.resourceKey log :=
  logs_classified (fun classified => logs_failAttempt call s d result classified recorded)
    fun _ => logs_pure .never

/-- A refused cost is a server error, so no key is rotated. -/
theorem logs_negativeCost (result : ExecutionResult) (recorded : Bool) :
    (failClassified call s d result (.exception negativeCost) 502 [] recorded).Logs mark
      fun _ log => log = [.event (.reported d.endpoint.resourceKey)] :=
  logs_reportFailure call s d result negativeCostFailure recorded

theorem logs_transportError (error : RaisedError) :
    (transportError call s d error).Logs mark
      fun _ log => AttemptLog d.endpoint.resourceKey log := by
  refine logs_classified (fun classified => ?_) fun _ => logs_pure .never
  refine logs_local _ fun record => logs_permit fun _ => ?_
  exact logs_local _ fun _ => logs_pure .once

variable [JsonCodec Json]

theorem logs_acceptResponse (result : ExecutionResult) (response : NormalizedResponse Json) :
    (acceptResponse call s d result response).Logs mark
      fun _ log => AttemptLog d.endpoint.resourceKey log := by
  refine logs_permit fun _ => logs_local _ fun ⟨record, s⟩ => ?_
  dsimp only
  split
  · exact logs_local _ fun _ => logs_pure .once
  · refine logs_permit fun answer => ?_
    change SettleAnswer _ at answer
    cases answer with
    | settled nonneg => exact logs_local _ fun _ => logs_pure .once
    | refused negative =>
        exact (logs_negativeCost call _ d result true).imp fun _ _ same => same ▸ .twice

theorem logs_handleResult (result : ExecutionResult) :
    (handleResult call s d result).Logs mark
      fun _ log => AttemptLog d.endpoint.resourceKey log := by
  unfold handleResult
  split
  · refine Prog.Logs.seq (reviewed_response s d permits_review _ result) fun review log held => ?_
    rcases review with e | classified | response
    · -- The handler of a blocked call reports to nobody; any other exception is classified.
      cases blocked : e.isIndeterminate with
      | true =>
          obtain rfl : log = [.lapse] := by simpa [ReviewLog, blocked] using held
          simp only [blocked]
          exact logs_local _ fun _ => logs_pure .never
      | false =>
          obtain rfl : log = [] := by simpa [ReviewLog, blocked] using held
          simp only [blocked]
          exact logs_failClassified call s d result _ _ _ _
    · obtain rfl : log = [] := held
      exact logs_failAttempt call s d result classified false
    · obtain rfl : log = [] := held
      exact logs_acceptResponse call s d result response
  · exact logs_failClassified call s d result _ _ _ _

theorem logs_dispatch :
    (dispatch call s d).Logs mark fun _ log => AttemptLog d.endpoint.resourceKey log := by
  refine logs_local _ fun _ => logs_local _ fun answer => ?_
  cases answer with
  | ok result => exact logs_handleResult call s d result
  | error e => exact logs_transportError call s d e

/-- A pass takes no permit, or takes one and leaves the log of its attempt. -/
theorem logs_runPass :
    (runPass call s : Execution Json Decision _).Logs mark fun _ log =>
      log = [] ∨ ∃ key attempt, AttemptLog key attempt ∧ log = .event (.admitted key) :: attempt := by
  refine logs_local _ fun prepared => ?_
  rcases prepared with e | s | ⟨s, d⟩
  · exact logs_pure (.inl rfl)
  · exact logs_pure (.inl rfl)
  · refine logs_permit fun answer => ?_
    change Except BreakerError Unit at answer
    cases answer with
    | ok granted =>
        exact (logs_dispatch call s d).imp fun _ attempt logged => .inr ⟨_, attempt, logged, rfl⟩
    | error denied => exact logs_local _ fun _ => logs_pure (.inl rfl)

end Pass

/-! ## Whole runs -/

theorem logs_executeLoop [JsonCodec Json] (call : ExecuteCall Json) (fuel : Nat)
    (s : LoopState Json) :
    (executeLoop call fuel s : Execution Json Decision _).Logs mark fun _ log => RunLog log := by
  induction fuel generalizing s with
  | zero => exact logs_pure .nil
  | succ fuel ih =>
      refine logs_local _ fun more => ?_
      cases more with
      | false => exact logs_local _ fun _ => logs_pure .nil
      | true =>
          refine Prog.Logs.seq (logs_runPass call s) fun result log pass => ?_
          have extend : ∀ later, RunLog later → RunLog (log ++ later) := by
            intro later rest
            rcases pass with rfl | ⟨key, attempt, first, rfl⟩
            · exact rest
            · exact .attempt key first rest
          cases result with
          | next s => exact (ih s).imp fun _ later rest => extend later rest
          | returned response decision ledger => exact logs_pure (extend [] .nil)
          | raised e attempts => exact logs_pure (extend [] .nil)

/-- In every run of `execute`, the permits taken are each reported once, to
    their breaker and before the next is taken, exactly when no answer of the
    surroundings is a lapse. -/
theorem permits_paired_iff [JsonCodec Json] {σ : Type}
    (handle : Prog.Handler (executorSig Json Decision) σ) (executor : GatewayExecutor Json)
    (args : ExecuteRequest Json) (fuel : Nat) (start : σ) :
    Paired (((execute executor args fuel).transcript handle start).filterMap permitEvent) ↔
      ∀ exchange ∈ (execute executor args fuel).transcript handle start, Lapse exchange = false := by
  have log : RunLog (((execute executor args fuel).transcript handle start).filterMap mark) :=
    logs_local _ (fun start => logs_executeLoop (args.call executor start) fuel _) _ _
      (Prog.traces_exec handle _ start)
  have events : ((execute executor args fuel).transcript handle start).filterMap permitEvent =
      (((execute executor args fuel).transcript handle start).filterMap mark).filterMap
        Mark.event? := by
    rw [List.filterMap_filterMap]
    simp only [event_of_mark]
  rw [events, log.paired_iff]
  simp only [List.mem_filterMap, ← lapse_iff_mark, not_exists, not_and, Bool.not_eq_true]

/-! ### A rotated key keeps its permit -/

section Sample

/-- The surroundings of a sample run: one half-open breaker, the replies still
    to come, and the keys in cooldown. -/
structure SampleWorld where
  breaker : CircuitBreaker
  replies : List ExecutionResult
  cooled : List String := []

def sampleEndpoint : Endpoint where
  id := "groq:llama"
  provider := "groq"
  model := "llama"
  envKey := some "GROQ_API_KEY"

def sampleKeys : Dict String String := Dict.empty.set "GROQ_API_KEY" "first,second"

/-- The keys of the sample, with their identifiers. -/
def sampleCandidates : List (String × String) :=
  [("first", "GROQ_API_KEY:0"), ("second", "GROQ_API_KEY:1")]

def sampleLocal :
    (op : LocalOp OkObject) → SampleWorld → op.Answer OkObject Unit × SampleWorld
  | .monotonic, w => ((0 : Seconds), w)
  | .wallTime, w => ((0 : Seconds), w)
  | .secondsUntilUtcMidnight, w => ((86400 : Seconds), w)
  | .uniform low _, w => (low, w)
  | .newAttemptId, w => ("att_1", w)
  | .newPlanId, w => ("fplan_1", w)
  | .policy, w => (({} : ExecutionPolicy), w)
  | .selectCandidate _ _ _ _ _ _, w => (Except.ok (some sampleEndpoint, ()), w)
  | .endpointsForPool _, w => ([sampleEndpoint], w)
  | .getProfile _ _, w => (({ provider := "groq", model := "llama" } : ModelProfile), w)
  | .compact request _, w => (Except.ok (request, false), w)
  | .getAdapter _ _, w => (Except.ok ⟨"groq"⟩, w)
  | .getActiveKey _ _, w =>
      match sampleCandidates.find? fun key => key.2 ∉ w.cooled with
      | some (value, keyId) => ((some value, some keyId), w)
      | none => ((none, none), w)
  | .prepareRequest _ _ _ _, w => (Except.ok ⟨"https://api.groq.com", [], [], "POST"⟩, w)
  | .reserve _ _ amount limit, w =>
      if negative : amount < 0 ∨ limit < 0 then (ReserveAnswer.refused negative, w)
      else (ReserveAnswer.reserved (not_lt.mp fun h => negative (.inl h)), w)
  | .adapterExecute _ _ _, w =>
      match w.replies with
      | reply :: replies => (Except.ok reply, { w with replies })
      | [] => (Except.error (.other "ConnectionError" "closed"), w)
  | .parseOutputCap _, w => (Except.ok none, w)
  | .parseInputTpmLimit _, w => (Except.ok none, w)
  | .keep (.recordKeyRateLimit keyId _), w => ((), { w with cooled := keyId :: w.cooled })
  | .keep _, w => ((), w)

/-- `classify_failure("slow down", status_code=429)` -/
def slowDown : FailureClassification where
  category := .rateLimit
  reason := .rateLimit
  shouldFallback := true
  retryable := true
  statusCode := some 429
  message := "slow down"

def sampleReview : (op : ReviewOp OkObject) → Except RaisedError (op.Result)
  | .normalizeResponse _ _ _ => .ok ({ content := some "done" } : NormalizedResponse OkObject)
  | .registerToolCall _ _ _ _ => .ok ()
  | .checkIdempotency _ _ _ => .ok (false, none)
  | .markReplayed _ _ => .ok ()
  | .hasIndeterminateOperation _ _ _ => .ok false
  | .markIndeterminate _ _ => .ok ()
  | .validateToolCall _ _ _ _ => .ok (⟨.valid, ⟨true⟩, [], none⟩ : ToolValidationReport OkObject)
  | .markFailed _ _ => .ok ()
  | .markValidated _ => .ok ()

def sampleClock : BreakerWorld where
  clock := fun _ => 0

def samplePermit :
    (op : PermitOp OkObject) → SampleWorld → op.Answer OkObject × SampleWorld
  | .acquirePermission _, w =>
      ((w.breaker.acquirePermission sampleClock).1,
        { w with breaker := (w.breaker.acquirePermission sampleClock).2 })
  | .recordSuccess _ duration, w =>
      ((), { w with breaker := w.breaker.recordSuccess sampleClock duration })
  | .recordFailure _ duration classified, w =>
      ((), { w with breaker := w.breaker.recordFailure sampleClock duration none (some classified) })
  | .review op, w => (sampleReview op, w)
  | .classifyFailure _ _ _, w => (Except.ok slowDown, w)
  | .settleCost _ cost, w =>
      if negative : cost < 0 then (SettleAnswer.refused negative, w)
      else (SettleAnswer.settled (not_lt.mp negative), w)
  | .hasAlternativeKey _ _ keyId, w =>
      (sampleCandidates.any fun key => key.2 ≠ keyId ∧ key.2 ∉ w.cooled, w)

def sampleHandle : Prog.Handler (executorSig OkObject Unit) SampleWorld
  | .inl op, w => sampleLocal op w
  | .inr op, w => samplePermit op w

/-- The body `slow down` under status 429, then a success. -/
def sampleStart : SampleWorld where
  breaker := { CircuitBreaker.new sampleEndpoint.resourceKey {} with state := .halfOpen }
  replies :=
    [{ statusCode := 429, body := [0x73, 0x6c, 0x6f, 0x77, 0x20, 0x64, 0x6f, 0x77, 0x6e] },
     { statusCode := 200 }]

def sampleRun : Execution OkObject Unit (ExecuteResult OkObject Unit) :=
  execute { computePrefixHash := fun _ => "" }
    { request := { requestId := "request-1" }, apiKeys := sampleKeys } 3

def ExecuteResult.hasReturned : ExecuteResult Json Decision → Bool
  | .returned _ _ _ => true
  | .raised _ _ | .outOfFuel => false

/-- A probe of a half-open breaker is rate limited on the first of two keys.
    The executor rotates to the second key, takes a second permit, succeeds and
    returns; the first permit is still in flight. -/
theorem rotated_key_keeps_permit :
    (sampleRun.exec sampleHandle sampleStart).1.hasReturned ∧
    ¬ Paired ((sampleRun.transcript sampleHandle sampleStart).filterMap permitEvent) ∧
    (sampleRun.exec sampleHandle sampleStart).2.breaker.halfOpenInFlight = 1 := by
  have events : (sampleRun.transcript sampleHandle sampleStart).filterMap permitEvent =
      [.admitted "groq:default:llama:default", .admitted "groq:default:llama:default",
       .reported "groq:default:llama:default"] := by
    decide +kernel
  refine ⟨by decide +kernel, ?_, by decide +kernel⟩
  rw [events]
  intro paired
  cases paired

end Sample

end DuraLLM
