import DuraLLM.Execution.Routine
import DuraLLM.Routing.Router
import Mathlib.Data.Finset.Card

/-! # What one request may spend

Dispatches, rollover waits and passes of the retry loop are bounded by the
policy and the pool, whatever the clock says.  A pass records an attempt, waits
for a rollover, or excludes one more endpoint of the pool, so a measure of the
loop's state decreases; and since the loop is only entered while attempts are
left, the rollover never raises the maximum of the policy.
-/

namespace DuraLLM

variable {Json Decision : Type}

inductive Spending where
  | dispatch
  | wait
  deriving DecidableEq

/-- An upstream dispatch, or the announcement of a rollover wait. -/
def LocalOp.spending : LocalOp Json → Option Spending
  | .adapterExecute _ _ _ => some .dispatch
  | .keep (.event (.rateLimitRolloverWait _ _ _ _)) => some .wait
  | _ => none

def LocalOp.raisesMaximum : LocalOp Json → Bool
  | .keep (.setMaxTotalAttempts _) => true
  | _ => false

/-- The policy stays as it is, and the router honours the exclusions. -/
def LocalOp.Fair (Decision : Type) (policy : ExecutionPolicy) (ids : String → List String) :
    (op : LocalOp Json) → op.Answer Json Decision → Prop
  | .policy, answer => answer = policy
  | .selectCandidate _ pool _ _ excluded _, answer =>
      ∀ endpoint decision, answer = Except.ok (some endpoint, decision) →
        endpoint.id ∈ ids pool ∧ endpoint.id ∉ excluded
  | _, _ => True

def spending : Sigma (executorSig Json Decision).Ans → Option Spending
  | ⟨.inl op, _⟩ => LocalOp.spending op
  | ⟨.inr _, _⟩ => none

/-- The contract of `execute`: under a fixed policy and a router that honours
    the exclusions it never raises the maximum. -/
def spendingContract (Json Decision : Type) (policy : ExecutionPolicy)
    (ids : String → List String) : Contract (executorSig Json Decision) Spending where
  fair := fun op answer =>
    match op, answer with
    | .inl op, answer => LocalOp.Fair Decision policy ids op answer
    | .inr _, _ => True
  good := fun op =>
    match op with
    | .inl op => LocalOp.raisesMaximum op = false
    | .inr _ => True
  note := spending

/-! ## Progress of the loop -/

/-- From `s` to `s'`, `n` attempts or more were recorded, no wait was spent and
    no endpoint was admitted again. -/
structure LoopState.Advances (n : Nat) (s s' : LoopState Json) : Prop where
  attempts : s.ledger.totalAttempts + n ≤ s'.ledger.totalAttempts
  waits : s'.rateLimitWaits = s.rateLimitWaits
  excluded : s.excludedEndpoints ⊆ s'.excludedEndpoints

namespace LoopState

theorem Advances.refl (s : LoopState Json) : s.Advances 0 s := ⟨le_rfl, rfl, List.Subset.refl _⟩

theorem Advances.trans {n m : Nat} {s t u : LoopState Json} (first : s.Advances n t)
    (second : t.Advances m u) : s.Advances (n + m) u := by
  refine ⟨?_, second.waits.trans first.waits, List.Subset.trans first.excluded second.excluded⟩
  have one := first.attempts
  have two := second.attempts
  omega

theorem Advances.exclude {n : Nat} {s t : LoopState Json} (first : s.Advances n t)
    (endpoint : Endpoint) : s.Advances n (t.exclude endpoint) :=
  ⟨first.attempts, first.waits, fun _ member => List.mem_append_left _ (first.excluded member)⟩

theorem Advances.record {s : LoopState Json} (record : AttemptRecord) :
    s.Advances 1 { s with ledger := s.ledger.recordAttempt record } :=
  ⟨by simp [AttemptLedger.recordAttempt, AttemptLedger.totalAttempts], rfl, List.Subset.refl _⟩

theorem Stays.advances {s t : LoopState Json} (stays : s.Stays t) : s.Advances 0 t :=
  ⟨le_of_eq (congrArg List.length stays.attempts).symm, stays.waits, stays.excluded⟩

end LoopState

/-! ## Local parts -/

section Local

variable {policy : ExecutionPolicy} {ids : String → List String}

/-- Routine operations spend nothing and leave the maximum alone. -/
theorem spending_reviews : ReviewsFreely (spendingContract Json Decision policy ids) where
  plain := by
    intro op routine
    cases op with
    | keep note =>
        cases note with
        | event event => cases event <;> first | exact ⟨rfl, fun _ => rfl⟩ | cases routine
        | setMaxTotalAttempts => cases routine
        | _ => exact ⟨rfl, fun _ => rfl⟩
    | adapterExecute => cases routine
    | _ => exact ⟨rfl, fun _ => rfl⟩
  review := fun _ => ⟨trivial, fun _ => rfl⟩

theorem spending_plain : Indifferent (spendingContract Json Decision policy ids).left :=
  spending_reviews.plain

/-- A local program that spends nothing. -/
def Frugal {α : Type} (policy : ExecutionPolicy) (ids : String → List String) (Q : α → Prop)
    (p : Local Json Decision α) : Prop :=
  p.Quiet (spendingContract Json Decision policy ids).left Q

theorem frugal_ask {op : LocalOp Json} (free : op.spending = none) (kept : op.raisesMaximum = false) :
    Frugal policy ids (op.Fair Decision policy ids) (Local.ask op) :=
  Prog.quiet_call kept fun _ => free

/-- An operation whose answer may be anything. -/
theorem frugal_any {op : LocalOp Json} (free : op.spending = none)
    (kept : op.raisesMaximum = false) :
    Frugal policy ids (fun _ => True) (Local.ask op : Local Json Decision _) :=
  (frugal_ask free kept).imp fun _ _ => trivial

theorem frugal_policy :
    Frugal policy ids (fun answer => answer = policy) (Local.policy : Local Json Decision _) :=
  frugal_ask rfl rfl

theorem frugal_finishDurableAttempt (executor : GatewayExecutor Json) (record : AttemptRecord)
    (status : AttemptStatus) (detail : AttemptDetail) :
    Frugal policy ids (fun _ => True)
      (finishDurableAttempt executor record status detail : Local Json Decision Unit) := by
  unfold finishDurableAttempt
  split
  · exact frugal_any rfl rfl
  · exact Prog.quiet_pure trivial

theorem frugal_prepareDurableAttempt (executor : GatewayExecutor Json) (record : AttemptRecord) :
    Frugal policy ids (fun _ => True)
      (prepareDurableAttempt executor record : Local Json Decision Unit) := by
  unfold prepareDurableAttempt
  split
  · exact frugal_any rfl rfl
  · exact Prog.quiet_pure trivial

theorem frugal_reservation {note : Reservation → Bookkeeping} (reservation : Option Reservation)
    (free : ∀ r, (LocalOp.keep (note r) : LocalOp Json).spending = none)
    (kept : ∀ r, (LocalOp.keep (note r) : LocalOp Json).raisesMaximum = false) :
    Frugal policy ids (fun _ => True)
      (reservation.forM fun r => Local.keep (note r) : Local Json Decision Unit) := by
  cases reservation with
  | none => exact Prog.quiet_pure trivial
  | some r => exact frugal_any (free r) (kept r)

theorem frugal_settleReserved (reservation : Option Reservation) :
    Frugal policy ids (fun _ => True) (settleReserved reservation : Local Json Decision Unit) :=
  frugal_reservation reservation (fun _ => rfl) fun _ => rfl

theorem advances_recordAgain {s : LoopState Json} (record : AttemptRecord) :
    s.Advances 1 { s with ledger := s.ledger.recordAgain record } := by
  refine ⟨?_, rfl, List.Subset.refl _⟩
  simp only [AttemptLedger.recordAgain, AttemptLedger.recordAttempt, AttemptLedger.totalAttempts,
    List.length_append, List.length_dropLast, List.length_singleton]
  omega

theorem frugal_recordFailedAttempt (call : ExecuteCall Json) (s : LoopState Json)
    (d : Dispatch Json Decision) (result : ExecutionResult) (classified : FailureClassification)
    (recorded : Bool) :
    Frugal policy ids (s.Advances 1) (recordFailedAttempt call s d result classified recorded) := by
  refine (frugal_any rfl rfl).bind fun _ _ => ?_
  refine (spending_plain.unnoted.quiet_recordBilling call s d.endpoint classified).bind fun t billed => ?_
  refine (spending_plain.unnoted.quiet_recordPermanent call t d.endpoint classified).bind fun u dead => ?_
  refine (spending_plain.unnoted.quiet_recordLaneOutcome d.endpoint (some classified)).bind fun _ _ => ?_
  refine (spending_plain.quiet_finish d.attempt false _ (some classified)).bind fun record _ => ?_
  refine (spending_plain.quiet_emitAttempt record).bind fun _ _ => ?_
  refine (frugal_settleReserved d.reservation).bind fun _ _ => ?_
  refine (frugal_finishDurableAttempt call.executor record _ _).bind fun _ _ => ?_
  have noted : u.Advances 1
      { u with ledger :=
          if recorded then u.ledger.recordAgain record else u.ledger.recordAttempt record } := by
    cases recorded with
    | true => exact advances_recordAgain record
    | false => exact .record record
  obtain ⟨attempts, waits, excluded⟩ := (billed.trans dead).advances.trans noted
  exact Prog.quiet_pure ⟨attempts, waits, excluded⟩

/-- As `Frugal`, for a local program that may raise. -/
def FrugalExcept {α : Type} (policy : ExecutionPolicy) (ids : String → List String) (Q : α → Prop)
    (p : Raising Json Decision α) : Prop :=
  Prog.QuietExcept (spendingContract Json Decision policy ids).left Q p

theorem frugalExcept_local {α : Type} {Q : α → Prop} {p : Local Json Decision α}
    (frugal : Frugal policy ids Q p) : FrugalExcept policy ids Q (Raising.ofLocal p) :=
  Prog.quietExcept_lift frugal

theorem frugalExcept_clock :
    FrugalExcept policy ids (fun _ => True)
      (Raising.ofLocal Local.monotonic : Raising Json Decision _) :=
  frugalExcept_local (frugal_any rfl rfl)

theorem frugalExcept_policy :
    FrugalExcept policy ids (fun answer => answer = policy)
      (Raising.ofLocal Local.policy : Raising Json Decision _) :=
  frugalExcept_local frugal_policy

/-! ### Up to admission -/

/-- Only the ledger and the failover records change. -/
structure LoopState.SameExclusions (s s' : LoopState Json) : Prop where
  advances : s.Advances 0 s'
  excluded : s'.excludedEndpoints = s.excludedEndpoints

theorem LoopState.SameExclusions.refl (s : LoopState Json) : s.SameExclusions s := ⟨.refl s, rfl⟩

/-- A rollover spends one of three waits. -/
structure LoopState.RollsOver (s s' : LoopState Json) : Prop where
  attempts : s.ledger.totalAttempts ≤ s'.ledger.totalAttempts
  allowed : s.rateLimitWaits < 3
  waits : s'.rateLimitWaits = s.rateLimitWaits + 1

/-- As long as attempts are left, the reset keeps the maximum. -/
theorem resetForRateLimitRetry_keeps {ledger : AttemptLedger}
    (left : ledger.totalAttempts < policy.maxTotalAttempts) (endpointIds : List String) :
    (ledger.resetForRateLimitRetry policy endpointIds).2 = none := by
  simp only [AttemptLedger.resetForRateLimitRetry]
  exact if_neg (not_le.mpr left)

theorem meets_wait (pool : String) (endpoints : List String) (wait : Seconds) (n : Nat) :
    (do
      Local.event (.rateLimitRolloverWait pool endpoints wait n)
      Local.keep (.sleep wait)
      endpoints.forM (reopenLanes pool) : Local Json Decision Unit).Meets
        (spendingContract Json Decision policy ids).left fun _ log => log = [.wait] := by
  have silent : Frugal policy ids (fun _ => True) (do
      Local.keep (.sleep wait)
      endpoints.forM (reopenLanes pool) : Local Json Decision Unit) :=
    (frugal_any rfl rfl).bind fun _ _ => Prog.quiet_forM (spending_plain.unnoted.quiet_reopenLanes pool) _
  have announced : (Local.event (.rateLimitRolloverWait pool endpoints wait n) :
      Local Json Decision Unit).Meets (spendingContract Json Decision policy ids).left
        fun _ log => log = [.wait] :=
    (Prog.meets_call rfl fun _ => rfl).imp fun _ _ held => held.1
  refine announced.seq fun _ log noted => silent.meets fun _ _ => ?_
  rw [noted, List.append_nil]

theorem meets_rollOver (call : ExecuteCall Json) {s : LoopState Json}
    (left : s.ledger.totalAttempts < policy.maxTotalAttempts) :
    (rollOver call s : Raising Json Decision _).run.Meets
      (spendingContract Json Decision policy ids).left fun result log =>
        match result with
        | .ok s' => log = [.wait] ∧ s.RollsOver s'
        | .error _ => log = [] := by
  refine frugalExcept_clock.then (fun _ => rfl) fun now _ => ?_
  dsimp only
  split
  next allowed =>
    refine Prog.Meets.lift (meets_wait call.pool _ _ _) fun _ log waited => ?_
    subst waited
    refine Prog.Quiet.lift frugal_policy fun p same => ?_
    subst same
    -- Nothing is left to write into the policy.
    rw [resetForRateLimitRetry_keeps left]
    exact ⟨rfl, le_rfl, allowed.2.1, rfl⟩
  next => exact (frugalExcept_local (frugal_any rfl rfl)).then (fun _ => rfl) fun _ _ => rfl

/-- One more of the ids is excluded. -/
structure LoopState.Excludes (ids : List String) (s s' : LoopState Json) : Prop where
  advances : s.Advances 0 s'
  fresh : ∃ id ∈ ids, id ∉ s.excludedEndpoints ∧ id ∈ s'.excludedEndpoints

theorem LoopState.SameExclusions.exclude {ids : List String} {s s' : LoopState Json}
    (same : s.SameExclusions s') {endpoint : Endpoint} (listed : endpoint.id ∈ ids)
    (fresh : endpoint.id ∉ s.excludedEndpoints) : s.Excludes ids (s'.exclude endpoint) :=
  ⟨same.advances.exclude endpoint, endpoint.id, listed, fresh,
    List.mem_append_right _ List.mem_cons_self⟩

theorem frugal_reserveBudget (call : ExecuteCall Json) (request : NormalizedRequest Json)
    (profile : ModelProfile) (attemptId : String) :
    FrugalExcept policy ids (fun _ => True)
      (reserveBudget call request profile attemptId : Raising Json Decision _) := by
  unfold reserveBudget
  split
  · exact Prog.quietExcept_pure trivial
  · refine (frugalExcept_local (frugal_any rfl rfl)).bind fun answer _ => ?_
    cases answer with
    | refused negative => exact Prog.quietExcept_throw _
    | denied => exact Prog.quietExcept_pure trivial
    | reserved nonneg => exact Prog.quietExcept_pure trivial

/-- A request for `endpoint` is ready, or its budget was denied. -/
def Dispatchable (ids : List String) (s : LoopState Json) (endpoint : Endpoint) :
    Preparation Json Decision → Prop
  | .skipped s' => s.Excludes ids s'
  | .ready s' d => s.SameExclusions s' ∧ d.endpoint = endpoint

theorem frugal_prepareDispatch (call : ExecuteCall Json) (s : LoopState Json) {endpoint : Endpoint}
    (listed : endpoint.id ∈ ids call.pool) (fresh : endpoint.id ∉ s.excludedEndpoints)
    (decision : Decision) (profile : ModelProfile) (adapted : NormalizedRequest Json)
    (wasCompacted : Bool) :
    FrugalExcept policy ids (Dispatchable (ids call.pool) s endpoint)
      (prepareDispatch call s endpoint decision profile adapted wasCompacted) := by
  have same : s.SameExclusions { s with lastEndpoint := some endpoint } :=
    ⟨⟨le_rfl, rfl, List.Subset.refl _⟩, rfl⟩
  have adapter : FrugalExcept policy ids (fun _ => True)
      (Raising.getAdapter endpoint : Raising Json Decision _) :=
    (frugal_any rfl rfl).imp fun _ _ _ _ => trivial
  have prepared : ∀ adapter key, FrugalExcept policy ids (fun _ => True)
      (Raising.prepareRequest adapter endpoint adapted key : Raising Json Decision _) :=
    fun _ _ => (frugal_any rfl rfl).imp fun _ _ _ _ => trivial
  refine adapter.bind fun _ _ => (frugalExcept_local (frugal_any rfl rfl)).bind fun _ _ => ?_
  refine (prepared _ _).bind fun _ _ => (spending_plain.unnoted.quiet_check call.deadline).bind fun _ _ => ?_
  refine frugalExcept_clock.bind fun _ _ => ?_
  refine (frugalExcept_local (frugal_any rfl rfl)).bind fun attemptId _ => ?_
  refine frugalExcept_clock.bind fun _ _ => ?_
  refine (frugal_reserveBudget call _ profile attemptId).bind fun verdict _ => ?_
  cases verdict with
  | unlimited => exact Prog.quietExcept_pure ⟨same, rfl⟩
  | reserved reservation => exact Prog.quietExcept_pure ⟨same, rfl⟩
  | denied =>
      obtain ⟨⟨attempts, waits, excluded⟩, again⟩ := same.exclude listed fresh
      exact Prog.quietExcept_pure ⟨⟨attempts, waits, excluded⟩, again⟩

/-- What a pass has done when it comes to admission. -/
def Prepares (ids : List String) (s : LoopState Json) :
    Except RaisedError (Preparation Json Decision) → List Spending → Prop
  | .error _, log => log = []
  | .ok (.skipped s'), log => log = [] ∧ s.Excludes ids s' ∨ log = [.wait] ∧ s.RollsOver s'
  | .ok (.ready s' d), log =>
      log = [] ∧ s.SameExclusions s' ∧ d.endpoint.id ∈ ids ∧ d.endpoint.id ∉ s.excludedEndpoints

/-- The part of a pass from the profile of the selected endpoint on. -/
theorem meets_sizedAttempt [JsonCodec Json] (call : ExecuteCall Json) (s : LoopState Json)
    {endpoint : Endpoint} (listed : endpoint.id ∈ ids call.pool)
    (fresh : endpoint.id ∉ s.excludedEndpoints) (decision : Decision) (profile : ModelProfile)
    (shrink : ℚ) :
    (do match ← compactRequest s.request (contextBudget profile shrink s.request) with
        | none => return .skipped (s.exclude endpoint)
        | some (adapted, wasCompacted) =>
            if shrink < 1 ∧ !wasCompacted then return .skipped (s.exclude endpoint)
            else
              let s ← Raising.ofLocal (recordFailover call s endpoint adapted wasCompacted)
              prepareDispatch call s endpoint decision profile adapted wasCompacted :
      Raising Json Decision (Preparation Json Decision)).run.Meets
        (spendingContract Json Decision policy ids).left (Prepares (ids call.pool) s) := by
  have skipped : Prepares (ids call.pool) s
      (.ok (.skipped (s.exclude endpoint) : Preparation Json Decision)) [] :=
    .inl ⟨rfl, (LoopState.SameExclusions.refl s).exclude listed fresh⟩
  refine (spending_plain.quiet_compactRequest _ _).then (fun _ => rfl) fun compacted _ => ?_
  split
  · exact skipped
  · split
    · exact skipped
    · refine Prog.Quiet.lift (spending_plain.unnoted.quiet_recordFailover call s endpoint _ _)
        fun t failedOver => ?_
      have same : s.SameExclusions t := ⟨failedOver.1.advances, failedOver.2⟩
      have fresh' : endpoint.id ∉ t.excludedEndpoints := by rwa [same.excluded]
      refine Prog.Quiet.meets (frugal_prepareDispatch call t listed fresh' decision profile _ _)
        fun result held => ?_
      rcases result with e | u | ⟨u, d⟩
      · rfl
      · obtain ⟨advances, id, member, new, now⟩ := held _ rfl
        exact .inl ⟨rfl, same.advances.trans advances, id, member, same.excluded ▸ new, now⟩
      · obtain ⟨later, rfl⟩ := held _ rfl
        exact ⟨rfl, ⟨same.advances.trans later.advances, later.excluded.trans same.excluded⟩,
          listed, fresh⟩

theorem meets_prepareAttempt [JsonCodec Json] (call : ExecuteCall Json) {s : LoopState Json}
    (left : s.ledger.totalAttempts < policy.maxTotalAttempts) :
    (prepareAttempt call s : Raising Json Decision _).run.Meets
      (spendingContract Json Decision policy ids).left
      (Prepares (ids call.pool) { s with attemptIdx := s.attemptIdx + 1 }) := by
  have selected : ∀ requirements pool strategy requestId excluded reason,
      FrugalExcept policy ids
        (fun answer => ∀ endpoint, answer.1 = some endpoint →
          endpoint.id ∈ ids pool ∧ endpoint.id ∉ excluded)
        (Raising.selectCandidate requirements pool strategy requestId excluded reason :
          Raising Json Decision _) := by
    intro requirements pool strategy requestId excluded reason
    refine (frugal_ask rfl rfl).imp fun result fair answer same endpoint chosen => ?_
    exact fair endpoint answer.2 (by rw [same, ← chosen])
  unfold prepareAttempt
  have still : ({ s with attemptIdx := s.attemptIdx + 1 } : LoopState Json).ledger.totalAttempts <
      policy.maxTotalAttempts := left
  generalize ({ s with attemptIdx := s.attemptIdx + 1 } : LoopState Json) = t at still ⊢
  refine (spending_plain.unnoted.quiet_check call.deadline).then (fun _ => rfl) fun _ _ => ?_
  refine (selected _ _ _ _ _ _).then (fun _ => rfl) fun answer chosen => ?_
  obtain ⟨candidate, decision⟩ := answer
  cases candidate with
  | none =>
      refine (meets_rollOver call still).seq fun result log held => ?_
      cases result with
      | ok s' => exact .inr (by rwa [List.append_nil])
      | error e => exact (List.append_nil log).trans held
  | some endpoint =>
      obtain ⟨listed, fresh⟩ := chosen endpoint rfl
      refine frugalExcept_policy.then (fun _ => rfl) fun p _ => ?_
      dsimp only
      split
      · exact .inl ⟨rfl, (LoopState.SameExclusions.refl t).exclude listed fresh⟩
      · split
        · exact meets_sizedAttempt call t listed fresh decision _ _
        · refine Prog.Quiet.lift (frugal_any rfl rfl) fun profile _ => ?_
          exact meets_sizedAttempt call t listed fresh decision profile _

end Local

/-! ## From admission on -/

section Pass

variable {policy : ExecutionPolicy} {ids : String → List String} {α : Type} {Q : α → Prop}

/-- A program of the executor that spends nothing. -/
def Thrifty (policy : ExecutionPolicy) (ids : String → List String) (Q : α → Prop)
    (p : Execution Json Decision α) : Prop :=
  p.Quiet (spendingContract Json Decision policy ids) Q

theorem thrifty_local {p : Local Json Decision α} (frugal : Frugal policy ids Q p) :
    Thrifty policy ids Q (Execution.ofLocal p) :=
  Prog.meets_inLeft frugal

theorem thrifty_ask (op : PermitOp Json) :
    Thrifty policy ids (fun _ => True) (Execution.ask op : Execution Json Decision _) :=
  Prog.quiet_call trivial fun _ => rfl

/-- An attempt that lets the loop go on is on the ledger. -/
def Recorded (s : LoopState Json) : PassResult Json Decision → Prop
  | .next s' => s.Advances 1 s'
  | .returned _ _ _ | .raised _ _ => True

variable (call : ExecuteCall Json) (s : LoopState Json) (d : Dispatch Json Decision)

theorem thrifty_reportFailure (result : ExecutionResult) (classified : FailureClassification)
    (recorded : Bool) :
    Thrifty policy ids (Recorded s) (reportFailure call s d result classified recorded) := by
  refine (thrifty_ask _).bind fun _ _ => ?_
  refine (thrifty_local (frugal_recordFailedAttempt call s d result classified recorded)).bind
    fun t noted => ?_
  refine (thrifty_local (spending_plain.quiet_recover call t d classified)).bind
    fun next held => ?_
  cases next with
  | ok u => exact Prog.quiet_pure (noted.trans (held u rfl).advances)
  | error e => exact Prog.quiet_pure trivial

theorem frugal_rotateKey (keyId : String) (result : ExecutionResult)
    (classified : FailureClassification) :
    Frugal policy ids (s.Advances 1) (rotateKey call s d keyId result classified) := by
  refine (frugal_any rfl rfl).bind fun _ _ => (frugal_any rfl rfl).bind fun _ _ => ?_
  refine (spending_plain.quiet_finish d.attempt false _ (some classified)).bind fun record _ => ?_
  refine (spending_plain.quiet_recordAttempt s record).bind fun t noted => ?_
  refine (frugal_settleReserved d.reservation).bind fun _ _ => ?_
  refine (frugal_finishDurableAttempt call.executor record _ _).bind fun _ _ => ?_
  exact Prog.quiet_pure (noted ▸ .record record)

theorem thrifty_failAttempt (result : ExecutionResult) (classified : FailureClassification)
    (recorded : Bool) :
    Thrifty policy ids (Recorded s) (failAttempt call s d result classified recorded) := by
  unfold failAttempt
  split
  · exact thrifty_reportFailure call s d result classified recorded
  · refine (thrifty_ask _).bind fun another _ => ?_
    split
    · refine (thrifty_local (frugal_rotateKey call s d _ result classified)).bind fun t noted => ?_
      exact Prog.quiet_pure noted
    · exact thrifty_reportFailure call s d result classified recorded

theorem thrifty_classifyFailure (source : FailureSource) (statusCode : Nat)
    (headers : List (String × String)) :
    Thrifty policy ids (fun _ => True)
      (classifyFailure source statusCode headers : Execution Json Decision _) := by
  unfold classifyFailure
  split
  · exact Prog.quiet_pure trivial
  · exact thrifty_ask _

theorem thrifty_failClassified (result : ExecutionResult) (source : FailureSource)
    (statusCode : Nat) (headers : List (String × String)) (recorded : Bool) :
    Thrifty policy ids (Recorded s)
      (failClassified call s d result source statusCode headers recorded) := by
  refine (thrifty_classifyFailure source statusCode headers).bind fun answer _ => ?_
  cases answer with
  | error e => exact Prog.quiet_pure trivial
  | ok classified => exact thrifty_failAttempt call s d result classified recorded

theorem thrifty_transportError (error : RaisedError) :
    Thrifty policy ids (Recorded s) (transportError call s d error) := by
  refine (thrifty_classifyFailure _ _ _).bind fun answer _ => ?_
  cases answer with
  | error e => exact Prog.quiet_pure trivial
  | ok classified =>
      refine (thrifty_local (spending_plain.quiet_finish d.attempt false 502 (some classified))).bind
        fun record _ => (thrifty_ask _).bind fun _ _ => ?_
      have noted : Frugal policy ids (fun _ => True)
          (recordTransportError call s d error record classified) := by
        refine (frugal_any rfl rfl).bind fun _ _ => (frugal_any rfl rfl).bind fun _ _ => ?_
        refine (spending_plain.unnoted.quiet_recordLaneOutcome d.endpoint (some classified)).bind
          fun _ _ => ?_
        refine (spending_plain.quiet_recordAttempt s record).bind fun t _ => ?_
        refine (frugal_settleReserved d.reservation).bind fun _ _ => ?_
        exact (frugal_finishDurableAttempt call.executor record _ _).bind fun _ _ =>
          Prog.quiet_pure trivial
      exact (thrifty_local noted).bind fun _ _ => Prog.quiet_pure trivial

theorem frugal_blockAttempt :
    Frugal policy ids (fun _ => True) (blockAttempt call s d) := by
  refine (spending_plain.quiet_finish d.attempt false 409 none).bind fun record _ => ?_
  refine (frugal_settleReserved d.reservation).bind fun _ _ => ?_
  refine (spending_plain.quiet_recordAttempt s record).bind fun t _ => ?_
  exact (frugal_finishDurableAttempt call.executor record _ _).bind fun _ _ =>
    Prog.quiet_pure trivial

variable [JsonCodec Json]

theorem thrifty_acceptResponse (result : ExecutionResult) (response : NormalizedResponse Json) :
    Thrifty policy ids (Recorded s) (acceptResponse call s d result response) := by
  refine (thrifty_ask _).bind fun _ _ => ?_
  refine (thrifty_local (spending_plain.quiet_recordSuccess call s d result)).bind
    fun ⟨record, t⟩ success => ?_
  obtain rfl : t = { s with ledger := s.ledger.recordAttempt record } := success.2
  have noted := LoopState.Advances.record (s := s) record
  dsimp only
  split
  · refine (thrifty_local (frugal_finishDurableAttempt _ _ _ _)).bind fun _ _ => ?_
    exact Prog.quiet_pure trivial
  · refine (thrifty_ask _).bind fun answer _ => ?_
    change SettleAnswer _ at answer
    cases answer with
    | settled nonneg =>
        refine (thrifty_local (frugal_finishDurableAttempt _ _ _ _)).bind fun _ _ => ?_
        exact Prog.quiet_pure trivial
    | refused negative =>
        refine (thrifty_failClassified call _ d result _ _ _ _).imp fun next held => ?_
        cases next with
        | next u =>
            have later : s.Advances 2 u := noted.trans ⟨held.attempts, held.waits, held.excluded⟩
            have more := later.attempts
            exact ⟨by omega, later.waits, later.excluded⟩
        | returned response decision ledger => trivial
        | raised e attempts => trivial

theorem thrifty_handleResult (result : ExecutionResult) :
    Thrifty policy ids (Recorded s) (handleResult call s d result) := by
  unfold handleResult
  split
  · refine Prog.Quiet.bind (spending_reviews.quiet_reviewResponse s d _ result) fun review _ => ?_
    rcases review with e | classified | response
    · cases blocked : e.isIndeterminate with
      | true =>
          simp only [blocked]
          exact (thrifty_local (frugal_blockAttempt call s d)).bind fun _ _ =>
            Prog.quiet_pure trivial
      | false =>
          simp only [blocked]
          exact thrifty_failClassified call s d result _ _ _ _
    · exact thrifty_failAttempt call s d result classified false
    · exact thrifty_acceptResponse call s d result response
  · exact thrifty_failClassified call s d result _ _ _ _

theorem meets_dispatch :
    (dispatch call s d).Meets (spendingContract Json Decision policy ids)
      fun result log => log = [.dispatch] ∧ Recorded s result := by
  have sent : (Execution.ofLocal (Local.adapterExecute d.adapter d.prepared d.timeoutSeconds) :
      Execution Json Decision _).Meets (spendingContract Json Decision policy ids)
        fun _ log => log = [.dispatch] :=
    Prog.meets_inLeft ((Prog.meets_call rfl fun _ => rfl).imp fun _ _ held => held.1)
  refine (thrifty_local (frugal_prepareDurableAttempt _ _)).then fun _ _ => ?_
  refine sent.seq fun answer log noted => ?_
  subst noted
  cases answer with
  | error e => exact (thrifty_transportError call s d e).meets fun _ held => ⟨rfl, held⟩
  | ok result => exact (thrifty_handleResult call s d result).meets fun _ held => ⟨rfl, held⟩

end Pass

/-! ## Passes and runs -/

/-- The ids that are not excluded yet. -/
def LoopState.free (ids : List String) (s : LoopState Json) : Nat :=
  (ids.toFinset \ s.excludedEndpoints.toFinset).card

/-- What bounds the passes still to come: each attempt and each wait that is
    left may be preceded by a walk through the pool. -/
def LoopState.remaining (policy : ExecutionPolicy) (ids : List String) (s : LoopState Json) : Nat :=
  (policy.maxTotalAttempts - s.ledger.totalAttempts + (3 - s.rateLimitWaits)) * (ids.length + 1) +
    s.free ids

namespace LoopState

variable {policy : ExecutionPolicy} {ids : List String} {s s' : LoopState Json}

theorem free_le (ids : List String) (s : LoopState Json) : s.free ids ≤ ids.length :=
  (Finset.card_le_card Finset.sdiff_subset).trans (List.toFinset_card_le ids)

theorem free_anti (excluded : s.excludedEndpoints ⊆ s'.excludedEndpoints) :
    s'.free ids ≤ s.free ids :=
  Finset.card_le_card (Finset.sdiff_subset_sdiff subset_rfl fun _ member =>
    List.mem_toFinset.mpr (excluded (List.mem_toFinset.mp member)))

theorem Excludes.free_lt (excludes : s.Excludes ids s') : s'.free ids < s.free ids := by
  obtain ⟨advances, id, listed, fresh, now⟩ := excludes
  refine Finset.card_lt_card (Finset.ssubset_iff_of_subset ?_ |>.mpr ⟨id, ?_, ?_⟩)
  · exact Finset.sdiff_subset_sdiff subset_rfl fun _ member =>
      List.mem_toFinset.mpr (advances.excluded (List.mem_toFinset.mp member))
  · simp [listed, fresh]
  · simp [now]

/-- An attempt or a wait pays for a walk through the pool. -/
theorem remaining_lt_of_spent
    (spent : policy.maxTotalAttempts - s'.ledger.totalAttempts + (3 - s'.rateLimitWaits) <
      policy.maxTotalAttempts - s.ledger.totalAttempts + (3 - s.rateLimitWaits)) :
    s'.remaining policy ids < s.remaining policy ids := by
  have room : s'.free ids < ids.length + 1 := Nat.lt_succ_of_le (free_le ids s')
  have walk := Nat.mul_le_mul_right (ids.length + 1) (Nat.succ_le_of_lt spent)
  rw [Nat.succ_mul] at walk
  unfold remaining
  omega

theorem Excludes.remaining_lt (excludes : s.Excludes ids s') :
    s'.remaining policy ids < s.remaining policy ids := by
  have fewer := excludes.free_lt
  have attempts := excludes.advances.attempts
  have spent : policy.maxTotalAttempts - s'.ledger.totalAttempts + (3 - s'.rateLimitWaits) ≤
      policy.maxTotalAttempts - s.ledger.totalAttempts + (3 - s.rateLimitWaits) := by
    rw [excludes.advances.waits]
    omega
  exact Nat.add_lt_add_of_le_of_lt (Nat.mul_le_mul_right _ spent) fewer

end LoopState

/-- What a pass spends, and that the loop gets closer to its end. -/
structure Paid (policy : ExecutionPolicy) (ids : List String) (s : LoopState Json)
    (log : List Spending) (s' : LoopState Json) : Prop where
  dispatches : s.ledger.totalAttempts + log.count .dispatch ≤ s'.ledger.totalAttempts
  single : log.count .dispatch ≤ 1
  waits : s.rateLimitWaits + log.count .wait = s'.rateLimitWaits
  bounded : s.rateLimitWaits ≤ 3 → s'.rateLimitWaits ≤ 3
  closer : s'.remaining policy ids < s.remaining policy ids

theorem LoopState.Excludes.paid {policy : ExecutionPolicy} {ids : List String}
    {s s' : LoopState Json} (excludes : s.Excludes ids s') : Paid policy ids s [] s' where
  dispatches := excludes.advances.attempts
  single := Nat.zero_le _
  waits := excludes.advances.waits.symm
  bounded := excludes.advances.waits ▸ id
  closer := excludes.remaining_lt

theorem LoopState.RollsOver.paid {policy : ExecutionPolicy} {ids : List String}
    {s s' : LoopState Json} (rolls : s.RollsOver s') : Paid policy ids s [.wait] s' where
  dispatches := rolls.attempts
  single := Nat.zero_le _
  waits := rolls.waits.symm
  bounded := fun _ => by
    have allowed := rolls.allowed
    have waits := rolls.waits
    omega
  closer := by
    have attempts := rolls.attempts
    have allowed := rolls.allowed
    have waits := rolls.waits
    exact remaining_lt_of_spent (by omega)

theorem LoopState.Advances.paid {policy : ExecutionPolicy} {ids : List String}
    {s s' : LoopState Json} (advances : s.Advances 1 s')
    (left : s.ledger.totalAttempts < policy.maxTotalAttempts) :
    Paid policy ids s [.dispatch] s' where
  dispatches := advances.attempts
  single := le_rfl
  waits := advances.waits.symm
  bounded := advances.waits ▸ id
  closer := by
    have attempts := advances.attempts
    have waits := advances.waits
    exact remaining_lt_of_spent (by omega)

section Runs

variable {policy : ExecutionPolicy} {ids : String → List String}

/-- What a pass leaves in the log. Where it ends the request, it dispatched at
    most once. -/
def PassSpends (policy : ExecutionPolicy) (ids : List String) (s : LoopState Json) :
    PassResult Json Decision → List Spending → Prop
  | .next s', log => Paid policy ids s log s'
  | .returned _ _ _, log | .raised _ _, log => log = [] ∨ log = [.dispatch]

theorem meets_admitAttempt [JsonCodec Json] (call : ExecuteCall Json) {s t : LoopState Json}
    (d : Dispatch Json Decision) (left : s.ledger.totalAttempts < policy.maxTotalAttempts)
    (same : s.SameExclusions t) (listed : d.endpoint.id ∈ ids call.pool)
    (fresh : d.endpoint.id ∉ s.excludedEndpoints) :
    (admitAttempt call t d).Meets (spendingContract Json Decision policy ids)
      (PassSpends policy (ids call.pool) s) := by
  refine (thrifty_ask _).then fun answer _ => ?_
  change Except BreakerError Unit at answer
  cases answer with
  | ok granted =>
      refine (meets_dispatch call t d).imp fun result log held => ?_
      obtain ⟨rfl, recorded⟩ := held
      cases result with
      | next u => exact (same.advances.trans recorded).paid left
      | returned response decision ledger => exact .inr rfl
      | raised e attempts => exact .inr rfl
  | error denied =>
      refine (thrifty_local (frugal_reservation d.reservation (fun _ => rfl) fun _ => rfl)).then
        fun _ _ => ?_
      exact (same.exclude listed fresh).paid

theorem meets_runPass [JsonCodec Json] (call : ExecuteCall Json) {s : LoopState Json}
    (left : s.ledger.totalAttempts < policy.maxTotalAttempts) :
    (runPass call s : Execution Json Decision _).Meets (spendingContract Json Decision policy ids)
      (PassSpends policy (ids call.pool) { s with attemptIdx := s.attemptIdx + 1 }) := by
  refine (Prog.meets_inLeft (meets_prepareAttempt call left)).seq fun prepared log held => ?_
  rcases prepared with e | t | ⟨t, d⟩
  · obtain rfl : log = [] := held
    exact .inl rfl
  · rcases held with ⟨rfl, excludes⟩ | ⟨rfl, rolls⟩
    · exact excludes.paid
    · exact rolls.paid
  · obtain ⟨rfl, same, listed, fresh⟩ := held
    exact meets_admitAttempt call d left same listed fresh

theorem frugal_mayContinue (call : ExecuteCall Json) (s : LoopState Json) :
    Frugal policy ids (fun more => more = true → s.ledger.totalAttempts < policy.maxTotalAttempts)
      (mayContinue call s : Local Json Decision Bool) := by
  refine (frugal_any rfl rfl).bind fun now _ => ?_
  split
  · exact Prog.quiet_pure fun more => nomatch more
  · refine frugal_policy.bind fun p same => Prog.quiet_pure fun more => ?_
    subst same
    exact of_decide_eq_true more

/-- The bounds on a run from a state of the loop. -/
structure WithinBounds (policy : ExecutionPolicy) (ids : List String) (fuel : Nat) (s : LoopState Json)
    (result : ExecuteResult Json Decision) (log : List Spending) : Prop where
  dispatches : log.count .dispatch ≤ policy.maxTotalAttempts - s.ledger.totalAttempts
  waits : log.count .wait ≤ 3 - s.rateLimitWaits
  ends : s.remaining policy ids < fuel → result ≠ .outOfFuel

theorem WithinBounds.next {ids : List String} {fuel : Nat} {s s' : LoopState Json}
    {result : ExecuteResult Json Decision} {log more : List Spending}
    (paid : Paid policy ids s log s') (few : s'.rateLimitWaits ≤ 3)
    (left : s.ledger.totalAttempts < policy.maxTotalAttempts)
    (rest : WithinBounds policy ids fuel s' result more) :
    WithinBounds policy ids (fuel + 1) s result (log ++ more) := by
  have dispatches := paid.dispatches
  have single := paid.single
  have waits := paid.waits
  have closer := paid.closer
  have later := rest.dispatches
  have laterWaits := rest.waits
  refine ⟨?_, ?_, fun enough => rest.ends (by omega)⟩
  · rw [List.count_append]
    omega
  · rw [List.count_append]
    omega

theorem WithinBounds.last {ids : List String} {fuel : Nat} {s : LoopState Json}
    {result : ExecuteResult Json Decision} {log : List Spending}
    (left : s.ledger.totalAttempts < policy.maxTotalAttempts)
    (once : log = [] ∨ log = [.dispatch]) (ended : result ≠ .outOfFuel) :
    WithinBounds policy ids fuel s result (log ++ []) := by
  refine ⟨?_, ?_, fun _ => ended⟩
  · rcases once with rfl | rfl
    · exact Nat.zero_le _
    · exact Nat.sub_pos_of_lt left
  · rcases once with rfl | rfl <;> exact Nat.zero_le _

theorem meets_executeLoop [JsonCodec Json] (call : ExecuteCall Json) (fuel : Nat)
    {s : LoopState Json} (few : s.rateLimitWaits ≤ 3) :
    (executeLoop call fuel s : Execution Json Decision _).Meets
      (spendingContract Json Decision policy ids) (WithinBounds policy (ids call.pool) fuel s) := by
  induction fuel generalizing s with
  | zero => exact ⟨Nat.zero_le _, Nat.zero_le _, fun enough => absurd enough (Nat.not_lt_zero _)⟩
  | succ fuel ih =>
      refine (thrifty_local (frugal_mayContinue call s)).then fun more within => ?_
      cases more with
      | false =>
          refine (thrifty_local (spending_plain.unnoted.quiet_giveUp call s)).then fun _ _ => ?_
          exact ⟨Nat.zero_le _, Nat.zero_le _, fun _ same => nomatch same⟩
      | true =>
          have left := within rfl
          refine (meets_runPass call left).seq fun result log paid => ?_
          cases result with
          | next s' =>
              refine (ih (paid.bounded few)).imp fun result more rest => ?_
              obtain ⟨dispatches, waits, ends⟩ := WithinBounds.next paid (paid.bounded few) left rest
              exact ⟨dispatches, waits, ends⟩
          | returned response decision ledger =>
              exact WithinBounds.last left paid fun same => nomatch same
          | raised e attempts => exact WithinBounds.last left paid fun same => nomatch same

end Runs

/-! ## The gateway around a request -/

/-- The policy that all requests share, the router, and everything else. -/
structure Gateway (σ : Type) where
  policy : ExecutionPolicy
  router : CapabilityRouter
  rest : σ

/-- How everything else behaves: what the router's checks say of an endpoint,
    and the answers of clock, adapters, breakers, stores, keys and compaction. -/
structure Surroundings (Json σ : Type) where
  assess : RequirementVector → Endpoint → σ → CandidateEvaluation × σ
  answer : Prog.Handler (executorSig Json RoutingDecision) σ

section Gateway

variable {σ : Type} (w : Surroundings Json σ)

def Surroundings.handle : Prog.Handler (executorSig Json RoutingDecision) (Gateway σ)
  | .inl .policy, g => (g.policy, g)
  | .inl (.selectCandidate requirements pool strategy requestId excluded reason), g =>
      let (answer, router, rest) := g.router.selectCandidate w.assess requirements pool strategy
        requestId excluded reason g.rest
      (Except.ok answer, { g with router, rest })
  | .inl (.endpointsForPool pool), g => (g.router.registry.endpointsForPool pool, g)
  | .inl (.keep (.setMaxTotalAttempts bound)), g =>
      ((), { g with policy := { g.policy with maxTotalAttempts := bound } })
  | op, g => ((w.answer op g.rest).1, { g with rest := (w.answer op g.rest).2 })

/-- The ids of the pool's endpoints. -/
def CapabilityRegistry.ids (registry : CapabilityRegistry) (pool : String) : List String :=
  (registry.endpointsForPool pool).map (·.id)

structure Gateway.Holds (policy : ExecutionPolicy) (registry : CapabilityRegistry)
    (g : Gateway σ) : Prop where
  policy : g.policy = policy
  registry : g.router.registry = registry

theorem Surroundings.handle_fair {policy : ExecutionPolicy} {registry : CapabilityRegistry}
    (op : (executorSig Json RoutingDecision).Op) {g : Gateway σ} (holds : g.Holds policy registry) :
    (spendingContract Json RoutingDecision policy registry.ids).fair op (w.handle op g).1 := by
  cases op with
  | inr op => trivial
  | inl op =>
      cases op with
      | policy => exact holds.policy
      | selectCandidate requirements pool strategy requestId excluded reason =>
          intro endpoint decision same
          have chosen : (g.router.selectCandidate w.assess requirements pool strategy requestId
              excluded reason g.rest).1 = (some endpoint, decision) := Except.ok.inj same
          obtain ⟨member, admitted⟩ := CapabilityRouter.selected_admissible (congrArg Prod.fst chosen)
          rw [holds.registry] at member
          exact ⟨List.mem_map_of_mem member, admitted⟩
      | _ => trivial

theorem Surroundings.handle_holds {policy : ExecutionPolicy} {registry : CapabilityRegistry}
    (op : (executorSig Json RoutingDecision).Op) {g : Gateway σ} (holds : g.Holds policy registry)
    (good : (spendingContract Json RoutingDecision policy registry.ids).good op) :
    (w.handle op g).2.Holds policy registry := by
  obtain ⟨samePolicy, sameRegistry⟩ := holds
  unfold Surroundings.handle
  split
  · exact ⟨samePolicy, sameRegistry⟩
  next requirements pool strategy requestId excluded reason =>
    have same := g.router.selectCandidate_registry w.assess requirements pool strategy requestId
      excluded reason g.rest
    exact ⟨samePolicy, same.trans sameRegistry⟩
  · exact ⟨samePolicy, sameRegistry⟩
  · cases good
  · exact ⟨samePolicy, sameRegistry⟩

/-- Enough passes for every request to the pool. -/
def Gateway.passes (g : Gateway σ) (pool : String) : Nat :=
  (g.policy.maxTotalAttempts + 4) * ((g.router.registry.endpointsForPool pool).length + 1)

theorem remaining_start_lt (g : Gateway σ) (pool : String) (request : NormalizedRequest Json) :
    ({ request } : LoopState Json).remaining g.policy (g.router.registry.ids pool) <
      g.passes pool := by
  have room := LoopState.free_le (g.router.registry.ids pool) ({ request } : LoopState Json)
  simp only [LoopState.remaining, Gateway.passes, CapabilityRegistry.ids, List.length_map,
    AttemptLedger.totalAttempts, List.length_nil, Nat.sub_zero] at room ⊢
  rw [show g.policy.maxTotalAttempts + 4 = g.policy.maxTotalAttempts + 3 + 1 from rfl,
    Nat.succ_mul (g.policy.maxTotalAttempts + 3)]
  omega

theorem execute_bounded [JsonCodec Json] (executor : GatewayExecutor Json)
    (args : ExecuteRequest Json) (fuel : Nat) (g : Gateway σ) :
    WithinBounds g.policy (g.router.registry.ids args.pool) fuel { request := args.request }
        ((execute executor args fuel).exec w.handle g).1
        (((execute executor args fuel).transcript w.handle g).filterMap spending) ∧
      ((execute executor args fuel).exec w.handle g).2.policy = g.policy ∧
      ∀ exchange ∈ (execute executor args fuel).transcript w.handle g,
        (spendingContract Json RoutingDecision g.policy g.router.registry.ids).good exchange.1 := by
  have meets : (execute executor args fuel : Execution Json RoutingDecision _).Meets
      (spendingContract Json RoutingDecision g.policy g.router.registry.ids)
      (WithinBounds g.policy (g.router.registry.ids args.pool) fuel { request := args.request }) :=
    (thrifty_local (frugal_any rfl rfl)).then fun start _ =>
      meets_executeLoop (args.call executor start) fuel (Nat.zero_le _)
  obtain ⟨bounded, holds, good⟩ := meets.run (I := Gateway.Holds g.policy g.router.registry)
    (fun op _ => w.handle_fair op) (fun op _ => w.handle_holds op) ⟨rfl, rfl⟩
  exact ⟨bounded, holds.policy, good⟩

def raisesMaximum : Sigma (executorSig Json Decision).Ans → Bool
  | ⟨.inl op, _⟩ => LocalOp.raisesMaximum op
  | ⟨.inr _, _⟩ => false

/-- Whatever the surroundings answer, a request dispatches at most as often as
    the policy allows, waits for at most three rollovers, leaves the policy as it
    is, and its loop ends. -/
theorem execution_bounded [JsonCodec Json] (executor : GatewayExecutor Json)
    (args : ExecuteRequest Json) (fuel : Nat) (g : Gateway σ) :
    (((execute executor args fuel).transcript w.handle g).filterMap spending).count .dispatch ≤
        g.policy.maxTotalAttempts ∧
      (((execute executor args fuel).transcript w.handle g).filterMap spending).count .wait ≤ 3 ∧
      ((execute executor args fuel).exec w.handle g).2.policy = g.policy ∧
      (∀ exchange ∈ (execute executor args fuel).transcript w.handle g,
        raisesMaximum exchange = false) ∧
      ((execute executor args (g.passes args.pool + fuel)).exec w.handle g).1 ≠ .outOfFuel := by
  obtain ⟨bounded, policy, good⟩ := execute_bounded w executor args fuel g
  refine ⟨bounded.dispatches, bounded.waits, policy, ?_, ?_⟩
  · intro exchange member
    obtain ⟨op | op, answer⟩ := exchange
    · exact good _ member
    · rfl
  · obtain ⟨enough, -, -⟩ := execute_bounded w executor args (g.passes args.pool + fuel) g
    exact enough.ends (Nat.lt_add_right _ (remaining_start_lt g args.pool args.request))

end Gateway

end DuraLLM
