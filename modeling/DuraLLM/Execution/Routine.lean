import DuraLLM.Execution.Executor

/-! # Routine operations

Most of what a pass of the retry loop asks for neither dispatches, nor waits,
nor touches a budget, an attempt record or the policy.  A contract that allows
these routine operations and notes none of them is indifferent; under such a
contract the helpers of the executor are quiet, and all they change in the state
of the loop is what it does next.
-/

namespace DuraLLM

variable {Json Decision ω : Type}

def Bookkeeping.isRoutine : Bookkeeping → Bool
  | .event (.rateLimitRolloverWait _ _ _ _) => false
  | .setMaxTotalAttempts _ => false
  | .releaseReservation _ | .settleReserved _ => false
  | .prepareAttempt _ | .finishAttempt _ _ _ => false
  | _ => true

/-- The records that bear on the bounds of a request. -/
def Bookkeeping.isBound : Bookkeeping → Bool
  | .event (.rateLimitRolloverWait _ _ _ _) | .setMaxTotalAttempts _ => true
  | _ => false

def LocalOp.isRoutine : LocalOp Json → Bool
  | .reserve _ _ _ _ | .adapterExecute _ _ _ => false
  | .keep note => note.isRoutine
  | _ => true

/-- Routine operations are allowed and leave no note. -/
def Indifferent (c : Contract (localSig Json Decision) ω) : Prop :=
  ∀ op : LocalOp Json, op.isRoutine = true → c.good op ∧ ∀ answer, c.note ⟨op, answer⟩ = none

/-- Nothing was dispatched: the attempts and the waits are the same, and no
    endpoint is admitted again. -/
structure LoopState.Stays (s s' : LoopState Json) : Prop where
  attempts : s'.ledger.attempts = s.ledger.attempts
  waits : s'.rateLimitWaits = s.rateLimitWaits
  excluded : s.excludedEndpoints ⊆ s'.excludedEndpoints

/-- Nothing was dispatched, and the request is the same. -/
structure LoopState.Proceeds (s s' : LoopState Json) : Prop extends s.Stays s' where
  request : s'.request = s.request

/-- Nothing was dispatched, and the request is the same but for a clamped
    output. -/
structure LoopState.Recovers (c : Contract (localSig Json Decision) ω) (s : LoopState Json)
    (d : Dispatch Json Decision) (classified : FailureClassification) (s' : LoopState Json) :
    Prop extends s.Stays s' where
  request : s'.request = s.request ∨ ∃ cap : Option Nat,
    c.fair (.parseOutputCap classified.message) (.ok cap : Except RaisedError (Option Nat)) ∧
      s'.request = { s.request with
        maxOutputTokens := some (clampedOutput cap (orNumber s.request.maxOutputTokens
          (orNumber (some d.profile.maxOutputTokens) 4096))) }

namespace LoopState.Proceeds

variable {s t u : LoopState Json}

theorem refl (s : LoopState Json) : s.Proceeds s := ⟨⟨rfl, rfl, List.Subset.refl _⟩, rfl⟩

theorem trans (first : s.Proceeds t) (second : t.Proceeds u) : s.Proceeds u :=
  ⟨⟨second.attempts.trans first.attempts, second.waits.trans first.waits,
    List.Subset.trans first.excluded second.excluded⟩, second.request.trans first.request⟩

theorem exclude (first : s.Proceeds t) (endpoint : Endpoint) : s.Proceeds (t.exclude endpoint) :=
  ⟨⟨first.attempts, first.waits, fun _ member => List.mem_append_left _ (first.excluded member)⟩,
    first.request⟩

theorem excludeOnce (first : s.Proceeds t) (id : String) : s.Proceeds (t.excludeOnce id) := by
  unfold LoopState.excludeOnce
  split
  · exact first
  · exact ⟨⟨first.attempts, first.waits,
      fun _ member => List.mem_append_left _ (first.excluded member)⟩, first.request⟩

theorem excludeAll (first : s.Proceeds t) (endpoints : List Endpoint) :
    s.Proceeds (endpoints.foldl (fun s e => s.excludeOnce e.id) t) := by
  induction endpoints generalizing t with
  | nil => exact first
  | cons e endpoints ih => exact ih (first.excludeOnce e.id)

theorem recovers {c : Contract (localSig Json Decision) ω} {d : Dispatch Json Decision}
    {classified : FailureClassification} (proceeds : s.Proceeds t) : s.Recovers c d classified t :=
  ⟨proceeds.toStays, .inl proceeds.request⟩

end LoopState.Proceeds

variable {c : Contract (localSig Json Decision) ω}

/-! ## The helpers -/

/-- A routine operation, with what the contract grants of its answer. -/
theorem Indifferent.ask (plain : Indifferent c) {op : LocalOp Json} (routine : op.isRoutine = true) :
    (Local.ask op : Local Json Decision _).Quiet c (c.fair op) :=
  Prog.quiet_call (plain op routine).1 (plain op routine).2

theorem Indifferent.any (plain : Indifferent c) {op : LocalOp Json} (routine : op.isRoutine = true) :
    (Local.ask op : Local Json Decision _).Quiet c fun _ => True :=
  (plain.ask routine).imp fun _ _ => trivial

/-- The routine records that bear neither on the health of an endpoint nor on
    the report of an attempt. -/
def Bookkeeping.isPlain : Bookkeeping → Bool
  | .event (.upstreamAttemptSucceeded _) | .event (.upstreamAttemptFailed _) => false
  | .recordHealthSuccess _ _ | .recordHealthFailure _ => false
  | note => note.isRoutine

/-- The routine operations that bear neither on what is sent nor on what becomes
    of it. -/
def LocalOp.isPlain : LocalOp Json → Bool
  | .getProfile _ _ | .compact _ _ | .getActiveKey _ _ | .prepareRequest _ _ _ _ => false
  | .parseOutputCap _ => false
  | .keep note => note.isPlain
  | op => op.isRoutine

/-- Plain operations are allowed and leave no note. -/
def Unnoted (c : Contract (localSig Json Decision) ω) : Prop :=
  ∀ op : LocalOp Json, op.isPlain = true → c.good op ∧ ∀ answer, c.note ⟨op, answer⟩ = none

theorem Bookkeeping.isRoutine_of_isPlain {note : Bookkeeping} (plain : note.isPlain = true) :
    note.isRoutine = true := by
  unfold isPlain at plain
  split at plain <;> first | rfl | exact plain

theorem LocalOp.isRoutine_of_isPlain {op : LocalOp Json} (plain : op.isPlain = true) :
    op.isRoutine = true := by
  cases op with
  | keep note => exact Bookkeeping.isRoutine_of_isPlain plain
  | reserve | adapterExecute => cases plain
  | _ => rfl

theorem Indifferent.unnoted (plain : Indifferent c) : Unnoted c :=
  fun op isPlain => plain op (LocalOp.isRoutine_of_isPlain isPlain)

theorem Unnoted.any (plain : Unnoted c) {op : LocalOp Json} (isPlain : op.isPlain = true) :
    (Local.ask op : Local Json Decision _).Quiet c fun _ => True :=
  (Prog.quiet_call (plain op isPlain).1 (plain op isPlain).2).imp fun _ _ => trivial

/-- The clock, the policy or a record inside a program that may raise. -/
theorem Unnoted.quiet_lifted (plain : Unnoted c) {op : LocalOp Json} (isPlain : op.isPlain = true) :
    Prog.QuietExcept c (fun _ => True)
      (Raising.ofLocal (Local.ask op) : Raising Json Decision _) :=
  Prog.quietExcept_lift (plain.any isPlain)

/-- What a pass does once it has a profile: the request is made to fit it. -/
def sizeRequest [JsonCodec Json] (call : ExecuteCall Json) (s : LoopState Json)
    (endpoint : Endpoint) (decision : Decision) (profile : ModelProfile) (shrink : ℚ) :
    Raising Json Decision (Preparation Json Decision) := do
  match ← compactRequest s.request (contextBudget profile shrink s.request) with
  | none => return .skipped (s.exclude endpoint)
  | some (adapted, wasCompacted) =>
      if shrink < 1 ∧ !wasCompacted then return .skipped (s.exclude endpoint)
      else
        let s ← Raising.ofLocal (recordFailover call s endpoint adapted wasCompacted)
        prepareDispatch call s endpoint decision profile adapted wasCompacted

namespace Unnoted

theorem quiet_recordLaneOutcome (plain : Unnoted c) (endpoint : Endpoint)
    (failure : Option FailureClassification) :
    (recordLaneOutcome endpoint failure : Local Json Decision Unit).Quiet c fun _ => True := by
  unfold recordLaneOutcome
  split
  · exact Prog.quiet_pure trivial
  · split
    · exact Prog.quiet_pure trivial
    · split
      · exact plain.any rfl
      · split
        · exact plain.any rfl
        · exact Prog.quiet_pure trivial

theorem quiet_lockQuota (plain : Unnoted c) (call : ExecuteCall Json) (endpoint : Endpoint)
    (classified : FailureClassification) (quota : Seconds) :
    (lockQuota call endpoint classified quota : Local Json Decision Unit).Quiet c
      fun _ => True := by
  unfold lockQuota
  dsimp only
  repeat' first
    | split
    | exact Prog.quiet_pure trivial
    | exact plain.any rfl
    | refine (plain.any rfl).bind fun _ _ => ?_

theorem quiet_recordBilling (plain : Unnoted c) (call : ExecuteCall Json) (s : LoopState Json)
    (endpoint : Endpoint) (classified : FailureClassification) :
    (recordBilling call s endpoint classified : Local Json Decision _).Quiet c s.Proceeds := by
  unfold recordBilling
  split
  · exact Prog.quiet_pure (.refl s)
  · refine (plain.quiet_lockQuota call endpoint classified _).bind fun _ _ => ?_
    split
    · refine (plain.any rfl).bind fun endpoints _ => ?_
      exact Prog.quiet_pure ((LoopState.Proceeds.refl s).excludeAll _)
    · exact Prog.quiet_pure (.refl s)

theorem quiet_recordPermanent (plain : Unnoted c) (call : ExecuteCall Json)
    (s : LoopState Json) (endpoint : Endpoint) (classified : FailureClassification) :
    (recordPermanent call s endpoint classified : Local Json Decision _).Quiet c s.Proceeds := by
  unfold recordPermanent
  split
  · refine (plain.any rfl).bind fun _ _ => ?_
    dsimp only
    split
    · refine (plain.any rfl).bind fun _ _ => ?_
      exact Prog.quiet_pure ((LoopState.Proceeds.refl s).excludeOnce endpoint.id)
    · exact Prog.quiet_pure ((LoopState.Proceeds.refl s).excludeOnce endpoint.id)
  · exact Prog.quiet_pure (.refl s)

theorem quiet_computeBackoffSeconds (plain : Unnoted c) (retry : RetryPolicy)
    (attemptIndex : Nat) (retryAfter : Option Seconds) :
    (computeBackoffSeconds retry attemptIndex retryAfter : Local Json Decision _).Quiet c
      fun _ => True := by
  unfold computeBackoffSeconds
  split
  · exact Prog.quiet_pure trivial
  · dsimp only
    split
    · exact (plain.any rfl).bind fun _ _ => Prog.quiet_pure trivial
    · exact Prog.quiet_pure trivial

theorem quiet_check (plain : Unnoted c) (deadline : Deadline) :
    Prog.QuietExcept c (fun _ => True) (deadline.check : Raising Json Decision Unit) := by
  refine (plain.quiet_lifted rfl).bind fun now _ => ?_
  split
  · refine (plain.quiet_lifted rfl).bind fun _ _ => (plain.quiet_lifted rfl).bind fun _ _ => ?_
    exact Prog.quietExcept_throw _
  · exact Prog.quietExcept_pure trivial

theorem quiet_shrinkWindow (plain : Unnoted c) (s : LoopState Json)
    (d : Dispatch Json Decision) (classified : FailureClassification) :
    Prog.QuietExcept c s.Proceeds (shrinkWindow s d classified) := by
  have parsed : Prog.QuietExcept c (fun _ => True)
      (Raising.parseInputTpmLimit classified.message : Raising Json Decision _) :=
    (plain.any rfl).imp fun _ _ _ _ => trivial
  unfold shrinkWindow
  dsimp only
  split
  case' h_1 =>
    refine (Prog.quietExcept_pure trivial : Prog.QuietExcept c (fun _ => True) _).bind fun
      tokenLimit _ => ?_
  case' h_2 => refine parsed.bind fun tokenLimit _ => ?_
  all_goals
    split
    · exact Prog.quietExcept_pure ⟨⟨rfl, rfl, List.Subset.refl _⟩, rfl⟩
    · split
      · exact Prog.quietExcept_throw _
      · exact Prog.quietExcept_pure ⟨⟨rfl, rfl, List.Subset.refl _⟩, rfl⟩

/-- Only the ledger and the failover records change. -/
theorem quiet_recordFailover [JsonCodec Json] (plain : Unnoted c) (call : ExecuteCall Json)
    (s : LoopState Json) (endpoint : Endpoint) (adapted : NormalizedRequest Json)
    (wasCompacted : Bool) :
    (recordFailover call s endpoint adapted wasCompacted : Local Json Decision _).Quiet c
      fun s' => s.Proceeds s' ∧ s'.excludedEndpoints = s.excludedEndpoints := by
  unfold recordFailover
  split
  · exact Prog.quiet_pure ⟨.refl s, rfl⟩
  · split
    · exact Prog.quiet_pure ⟨.refl s, rfl⟩
    · refine (plain.any rfl).bind fun _ _ => (plain.any rfl).bind fun _ _ => ?_
      refine (plain.any rfl).bind fun _ _ => (plain.any rfl).bind fun _ _ => ?_
      refine (plain.any rfl).bind fun _ _ => (plain.any rfl).bind fun _ _ => ?_
      refine Prog.quiet_pure ⟨⟨⟨?_, rfl, List.Subset.refl _⟩, rfl⟩, rfl⟩
      cases s.fallbackMarked <;> rfl

theorem quiet_reopenLanes (plain : Unnoted c) (pool endpointId : String) :
    (reopenLanes pool endpointId : Local Json Decision Unit).Quiet c fun _ => True := by
  refine (plain.any rfl).bind fun endpoints _ => Prog.quiet_forM (fun endpoint => ?_) _
  split
  · split
    · exact plain.any rfl
    · exact Prog.quiet_pure trivial
  · exact Prog.quiet_pure trivial

/-- A rollover announces its wait and may raise the policy's maximum. -/
theorem quiet_rollOver (plain : Unnoted c)
    (bounds : ∀ note : Bookkeeping, note.isBound = true →
      c.good (.keep note) ∧ ∀ answer, c.note ⟨.keep note, answer⟩ = none)
    (call : ExecuteCall Json) (s : LoopState Json) :
    Prog.QuietExcept c (fun s' => s'.ledger.attempts = s.ledger.attempts ∧
        s'.request = s.request)
      (rollOver call s : Raising Json Decision _) := by
  have bound : ∀ note : Bookkeeping, note.isBound = true →
      (Local.keep note : Local Json Decision Unit).Quiet c fun _ => True := fun note marked =>
    (Prog.quiet_call (bounds note marked).1 (bounds note marked).2).imp fun _ _ => trivial
  have raised : ∀ maximum : Option Nat,
      (maximum.forM fun bound => Local.keep (.setMaxTotalAttempts bound) :
        Local Json Decision Unit).Quiet c fun _ => True := by
    intro maximum
    cases maximum with
    | none => exact Prog.quiet_pure trivial
    | some maximum => exact bound _ rfl
  refine (plain.quiet_lifted rfl).bind fun now _ => ?_
  dsimp only
  split
  · refine (Prog.quietExcept_lift (Q := fun _ => True) ?_).bind fun _ _ => ?_
    · refine (bound _ rfl).bind fun _ _ => (plain.any rfl).bind fun _ _ => ?_
      exact Prog.quiet_forM (plain.quiet_reopenLanes call.pool) _
    · refine (plain.quiet_lifted rfl).bind fun p _ => ?_
      refine (Prog.quietExcept_lift (raised _)).bind fun _ _ => Prog.quietExcept_pure ⟨rfl, rfl⟩
  · refine (plain.quiet_lifted rfl).bind fun _ _ => Prog.quietExcept_throw _

theorem quiet_finish (plain : Unnoted c) (record : AttemptRecord) (success : Bool)
    (statusCode : Nat) (failure : Option FailureClassification) :
    (finish record success statusCode failure : Local Json Decision _).Quiet c
      fun finished => ∃ now, finished = record.finish now success statusCode failure :=
  (plain.any rfl).bind fun now _ => Prog.quiet_pure ⟨now, rfl⟩

theorem quiet_giveUp (plain : Unnoted c) (call : ExecuteCall Json) (s : LoopState Json) :
    (giveUp call s : Local Json Decision _).Quiet c fun _ => True :=
  (plain.any rfl).bind fun _ _ => Prog.quiet_pure trivial

end Unnoted

namespace Indifferent

/-! ### Records -/

theorem quiet_emitAttempt (plain : Indifferent c) (record : AttemptRecord) :
    (emitAttempt record : Local Json Decision Unit).Quiet c fun _ => True := by
  unfold emitAttempt
  split
  · exact plain.any rfl
  · exact plain.any rfl

theorem quiet_finish (plain : Indifferent c) (record : AttemptRecord) (success : Bool)
    (statusCode : Nat) (failure : Option FailureClassification) :
    (finish record success statusCode failure : Local Json Decision _).Quiet c
      fun finished => finished.attemptId = record.attemptId :=
  (plain.unnoted.quiet_finish record success statusCode failure).imp fun _ finished => by
    obtain ⟨now, rfl⟩ := finished
    rfl

/-- The attempt is on the ledger, and nothing else has changed. -/
theorem quiet_recordAttempt (plain : Indifferent c) (s : LoopState Json) (record : AttemptRecord) :
    (recordAttempt s record : Local Json Decision _).Quiet c
      fun s' => s' = { s with ledger := s.ledger.recordAttempt record } :=
  (plain.quiet_emitAttempt record).bind fun _ _ => Prog.quiet_pure rfl

/-- The records of a success end with the attempt on the ledger. -/
theorem quiet_recordSuccess (plain : Indifferent c) (call : ExecuteCall Json) (s : LoopState Json)
    (d : Dispatch Json Decision) (result : ExecutionResult) :
    (recordSuccess call s d result).Quiet c fun noted =>
      noted.1.attemptId = d.attempt.attemptId ∧
        noted.2 = { s with ledger := s.ledger.recordAttempt noted.1 } := by
  have recorded : (do
      let record ← finish d.attempt true 200 none
      return (record, ← recordAttempt s record) : Local Json Decision _).Quiet c fun noted =>
        noted.1.attemptId = d.attempt.attemptId ∧
          noted.2 = { s with ledger := s.ledger.recordAttempt noted.1 } := by
    refine (plain.quiet_finish d.attempt true 200 none).bind fun record same => ?_
    exact (plain.quiet_recordAttempt s record).bind fun t noted => Prog.quiet_pure ⟨same, noted⟩
  refine (plain.any rfl).bind fun _ _ => ?_
  refine (plain.unnoted.quiet_recordLaneOutcome d.endpoint none).bind fun _ _ => ?_
  dsimp only
  split
  · refine (plain.any rfl).bind fun _ _ => ?_
    split
    · exact (plain.any rfl).bind fun _ _ => recorded
    · exact recorded
  · split
    · exact (plain.any rfl).bind fun _ _ => recorded
    · exact recorded

/-! ### What the loop does next -/

theorem quiet_stepFallback (plain : Indifferent c) (call : ExecuteCall Json) (s : LoopState Json)
    (d : Dispatch Json Decision) (classified : FailureClassification) :
    (stepFallback call s d classified).Quiet c s.Proceeds := by
  have excluded : s.Proceeds
      { s.exclude d.endpoint with ledger := s.ledger.markFallback, fallbackMarked := true } := by
    obtain ⟨⟨attempts, waits, excluded⟩, request⟩ :=
      (LoopState.Proceeds.refl s).exclude d.endpoint
    exact ⟨⟨attempts, waits, excluded⟩, request⟩
  unfold stepFallback
  split
  · exact Prog.quiet_pure excluded
  · refine (plain.any rfl).bind fun _ _ => ?_
    dsimp only
    split
    · exact (plain.any rfl).bind fun _ _ => Prog.quiet_pure excluded
    · exact Prog.quiet_pure excluded

theorem quiet_backOff (plain : Indifferent c) (call : ExecuteCall Json) (s : LoopState Json)
    (d : Dispatch Json Decision) (classified : FailureClassification) :
    (backOff call s d classified).Quiet c s.Proceeds := by
  refine (plain.any rfl).bind fun p _ => ?_
  refine (plain.unnoted.quiet_computeBackoffSeconds _ _ _).bind fun backoff _ => ?_
  refine (plain.any rfl).bind fun now _ => ?_
  split
  · exact plain.quiet_stepFallback call s d classified
  · refine (plain.any rfl).bind fun _ _ => ?_
    dsimp only
    split
    · exact Prog.quiet_pure (.refl s)
    · split
      · exact Prog.quiet_pure (.refl s)
      · exact (plain.any rfl).bind fun _ _ => Prog.quiet_pure (.refl s)

/-- The clock, the policy or a record inside a program that may raise. -/
theorem quiet_lifted (plain : Indifferent c) {op : LocalOp Json} (routine : op.isRoutine = true) :
    Prog.QuietExcept c (fun _ => True)
      (Raising.ofLocal (Local.ask op) : Raising Json Decision _) :=
  Prog.quietExcept_lift (plain.any routine)

theorem quiet_clampOutput (plain : Indifferent c) (s : LoopState Json) (d : Dispatch Json Decision)
    (classified : FailureClassification) :
    Prog.QuietExcept c (s.Recovers c d classified) (clampOutput s d classified) := by
  have parsed : Prog.QuietExcept c
      (fun cap => c.fair (.parseOutputCap classified.message)
        (.ok cap : Except RaisedError (Option Nat)))
      (Raising.parseOutputCap classified.message : Raising Json Decision _) := by
    refine (plain.ask rfl).imp fun answer fair cap found => ?_
    subst found
    exact fair
  refine parsed.bind fun cap fair => ?_
  exact Prog.quietExcept_pure ⟨⟨rfl, rfl, List.Subset.refl _⟩, .inr ⟨cap, fair, rfl⟩⟩

theorem quiet_retryOrFallBack (plain : Indifferent c) (call : ExecuteCall Json)
    (s : LoopState Json) (d : Dispatch Json Decision) (classified : FailureClassification) :
    Prog.QuietExcept c s.Proceeds (retryOrFallBack call s d classified) := by
  refine (plain.quiet_lifted rfl).bind fun p _ => ?_
  split
  · exact Prog.quietExcept_lift (plain.quiet_backOff call s d classified)
  · split
    · exact Prog.quietExcept_lift (plain.quiet_stepFallback call s d classified)
    · refine (plain.quiet_lifted rfl).bind fun _ _ => ?_
      exact Prog.quietExcept_throw _

theorem quiet_recover (plain : Indifferent c) (call : ExecuteCall Json) (s : LoopState Json)
    (d : Dispatch Json Decision) (classified : FailureClassification) :
    Prog.QuietExcept c (s.Recovers c d classified) (recover call s d classified) := by
  refine (plain.quiet_lifted rfl).bind fun p _ => ?_
  dsimp only
  split
  · exact plain.quiet_clampOutput s d classified
  · split
    · exact (plain.unnoted.quiet_shrinkWindow s d classified).imp
        fun _ proceeds => proceeds.recovers
    · exact (plain.quiet_retryOrFallBack call s d classified).imp
        fun _ proceeds => proceeds.recovers

/-! ### Before admission -/

/-- The request is what compaction makes of another, with the output of a
    budget. -/
def Compacted (c : Contract (localSig Json Decision) ω) (request : NormalizedRequest Json)
    (budget : ContextBudget) (adapted : NormalizedRequest Json) : Prop :=
  ∃ (compacted : NormalizedRequest Json) (wasCompacted : Bool),
    c.fair (.compact request budget)
      (.ok (compacted, wasCompacted) : Except RaisedError (NormalizedRequest Json × Bool)) ∧
    adapted = { compacted with maxOutputTokens := some budget.desiredOutputTokens }

theorem quiet_compactRequest (plain : Indifferent c) (request : NormalizedRequest Json)
    (budget : ContextBudget) :
    Prog.QuietExcept c
      (fun sized => ∀ adapted wasCompacted, sized = some (adapted, wasCompacted) →
        Compacted c request budget adapted)
      (compactRequest request budget : Raising Json Decision _) := by
  refine Prog.Quiet.bind (plain.ask rfl) fun answer fair => ?_
  split
  next compacted wasCompacted =>
    refine Prog.quiet_pure fun _ made adapted _ same => ?_
    cases made
    cases same
    exact ⟨compacted, wasCompacted, fair, rfl⟩
  · refine Prog.quiet_pure fun _ made _ _ same => ?_
    cases made
    cases same
  · exact Prog.quiet_pure fun _ made => by cases made

/-- What the contract says of the profile of an endpoint. -/
def Profiled (c : Contract (localSig Json Decision) ω) (endpoint : Endpoint)
    (profile : ModelProfile) : Prop :=
  endpoint.profile = some profile ∨
    endpoint.profile = none ∧ c.fair (.getProfile endpoint.provider endpoint.model) profile

/-- A pass raises, or leaves the ledger alone, or comes to the request for a
    selected endpoint. -/
theorem meets_prepareAttempt [JsonCodec Json] (plain : Indifferent c)
    (bounds : ∀ note : Bookkeeping, note.isBound = true →
      c.good (.keep note) ∧ ∀ answer, c.note ⟨.keep note, answer⟩ = none)
    (call : ExecuteCall Json) (s : LoopState Json)
    {post : Except RaisedError (Preparation Json Decision) → List ω → Prop}
    (raised : ∀ e, post (.error e) [])
    (skipped : ∀ t : LoopState Json, t.ledger.attempts = s.ledger.attempts →
      t.request = s.request → post (.ok (.skipped t)) [])
    (prepared : ∀ (t : LoopState Json) (endpoint : Endpoint) (decision : Decision)
      (profile : ModelProfile) (adapted : NormalizedRequest Json) (wasCompacted : Bool),
      t.ledger.attempts = s.ledger.attempts → t.request = s.request →
      (∃ requestId excluded reason, c.fair (.selectCandidate call.requirements call.pool
        call.strategy requestId excluded reason) (.ok (some endpoint, decision))) →
      Profiled c endpoint profile →
      (∃ shrink, Compacted c s.request (contextBudget profile shrink s.request) adapted) →
      (prepareDispatch call t endpoint decision profile adapted wasCompacted).run.Meets c post) :
    (prepareAttempt call s : Raising Json Decision _).run.Meets c post := by
  unfold prepareAttempt
  have same : ({ s with attemptIdx := s.attemptIdx + 1 } : LoopState Json).ledger.attempts =
      s.ledger.attempts := rfl
  have id : ({ s with attemptIdx := s.attemptIdx + 1 } : LoopState Json).request =
      s.request := rfl
  generalize ({ s with attemptIdx := s.attemptIdx + 1 } : LoopState Json) = t at same id ⊢
  have selected : ∀ requestId excluded reason, Prog.QuietExcept c
      (fun answer => c.fair (.selectCandidate call.requirements call.pool call.strategy requestId
        excluded reason) (.ok answer))
      (Raising.selectCandidate call.requirements call.pool call.strategy requestId excluded reason :
        Raising Json Decision _) := by
    intro requestId excluded reason
    refine (plain.ask rfl).imp fun result fair answer chosen => ?_
    subst chosen
    exact fair
  refine (plain.unnoted.quiet_check call.deadline).then raised fun _ _ => ?_
  refine (selected _ _ _).then raised fun ⟨candidate, decision⟩ fair => ?_
  cases candidate with
  | none =>
      refine (plain.unnoted.quiet_rollOver bounds call t).then raised fun u kept => ?_
      exact skipped u (kept.1.trans same) (kept.2.trans id)
  | some endpoint =>
      refine (plain.quiet_lifted rfl).then raised fun policy _ => ?_
      have sized : ∀ profile, Profiled c endpoint profile → ∀ shrink,
          (sizeRequest call t endpoint decision profile shrink).run.Meets c post := by
        intro profile profiled shrink
        refine (plain.quiet_compactRequest _ _).then raised fun compacted sized => ?_
        split
        · exact skipped _ same id
        next adapted wasCompacted =>
          split
          · exact skipped _ same id
          · refine Prog.Quiet.lift (plain.unnoted.quiet_recordFailover call t endpoint _ _)
              fun u failedOver => ?_
            exact prepared u endpoint decision profile adapted wasCompacted
              (failedOver.1.attempts.trans same) (failedOver.1.request.trans id) ⟨_, _, _, fair⟩
              profiled ⟨shrink, id ▸ sized adapted wasCompacted rfl⟩
      dsimp only
      split
      · exact skipped _ same id
      · split
        next profile listed => exact sized profile (.inl listed) _
        next missing =>
          refine Prog.Quiet.lift (plain.ask rfl) fun profile known => ?_
          exact sized profile (.inr ⟨missing, known⟩) _

end Indifferent

/-! ## The review of a response -/

/-- Besides the routine operations, those of a review are allowed and leave no
    note. -/
structure ReviewsFreely (c : Contract (executorSig Json Decision) ω) : Prop where
  plain : Indifferent c.left
  review : ∀ op : ReviewOp Json, c.good (.inr (.review op)) ∧
    ∀ answer, c.note ⟨.inr (.review op), answer⟩ = none

namespace ReviewsFreely

variable {c : Contract (executorSig Json Decision) ω} {α : Type}

theorem quiet_local {Q : α → Prop} {p : Local Json Decision α} (quiet : p.Quiet c.left Q) :
    (Execution.ofLocal p).Quiet c Q :=
  Prog.meets_inLeft quiet

theorem quiet_call (free : ReviewsFreely c) (op : ReviewOp Json) :
    Prog.QuietExcept c (fun a => c.fair (.inr (.review op)) (.ok a))
      (Reviewing.call op : Reviewing Json Decision _) := by
  refine (Prog.quiet_call (free.review op).1 (free.review op).2).imp fun answer fair a same => ?_
  subst same
  exact fair

theorem quiet_any (free : ReviewsFreely c) (op : ReviewOp Json) :
    Prog.QuietExcept c (fun _ => True) (Reviewing.call op : Reviewing Json Decision _) :=
  (free.quiet_call op).imp fun _ _ => trivial

variable (s : LoopState Json) (d : Dispatch Json Decision)

theorem quiet_replayOrBlock (free : ReviewsFreely c) (tcId : String)
    (tc : NormalizedToolCall Json) :
    Prog.QuietExcept c (fun _ => True) (replayOrBlock s tcId tc : Reviewing Json Decision _) := by
  refine (free.quiet_any _).bind fun ⟨hasReceipt, receipt⟩ _ => ?_
  cases hasReceipt with
  | true => exact (free.quiet_any _).bind fun _ _ => Prog.quietExcept_pure trivial
  | false =>
      refine (free.quiet_any _).bind fun unknown _ => ?_
      cases unknown with
      | false => exact Prog.quietExcept_pure trivial
      | true => exact (free.quiet_any _).bind fun _ _ => Prog.quietExcept_throw _

variable [JsonCodec Json]

theorem quiet_reviewToolCall (free : ReviewsFreely c) (index : Nat)
    (tc : NormalizedToolCall Json) :
    Prog.QuietExcept c (fun _ => True) (reviewToolCall s d index tc) := by
  refine (free.quiet_any _).bind fun _ _ => ?_
  refine (free.quiet_replayOrBlock s _ _).bind fun tc _ => ?_
  refine (free.quiet_any _).bind fun report _ => ?_
  refine (Prog.quietExcept_lift (quiet_local (free.plain.any rfl))).bind fun _ _ => ?_
  split
  · exact (free.quiet_any _).bind fun _ _ => Prog.quietExcept_pure trivial
  · exact (free.quiet_any _).bind fun _ _ => Prog.quietExcept_pure trivial

theorem quiet_reviewToolCalls (free : ReviewsFreely c) (index : Nat)
    (calls : List (NormalizedToolCall Json)) :
    Prog.QuietExcept c (fun _ => True) (reviewToolCalls s d index calls) := by
  induction calls generalizing index with
  | nil => exact Prog.quietExcept_pure trivial
  | cons tc rest ih =>
      refine (free.quiet_reviewToolCall s d index tc).bind fun checked _ => ?_
      cases checked with
      | none => exact Prog.quietExcept_pure trivial
      | some checked => exact (ih (index + 1)).bind fun _ _ => Prog.quietExcept_pure trivial

/-- An accepted response has the content of the normalized one. -/
def Reviews (c : Contract (executorSig Json Decision) ω) (d : Dispatch Json Decision)
    (result : ExecutionResult)
    (reviewed : Except FailureClassification (NormalizedResponse Json)) : Prop :=
  ∀ response, reviewed = .ok response → ∃ normalized : NormalizedResponse Json,
    c.fair (.inr (.review (.normalizeResponse d.adapter d.endpoint result))) (.ok normalized) ∧
      response.content = normalized.content

theorem quiet_reviewResponse (free : ReviewsFreely c) (maxResponseChars : Nat)
    (result : ExecutionResult) :
    Prog.QuietExcept c (Reviews c d result) (reviewResponse s d maxResponseChars result) := by
  have rejected : ∀ failure, Reviews c d result (.error failure) :=
    fun _ _ same => by cases same
  refine (free.quiet_call _).bind fun response fair => ?_
  split
  · exact Prog.quietExcept_pure (rejected _)
  · refine (free.quiet_reviewToolCalls s d 0 _).bind fun calls _ => ?_
    cases calls with
    | none => exact Prog.quietExcept_pure (rejected _)
    | some calls =>
        refine Prog.quietExcept_pure fun accepted same => ?_
        cases same
        exact ⟨response, fair, rfl⟩

end ReviewsFreely

end DuraLLM
