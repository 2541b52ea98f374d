import DuraLLM.Execution.Permits
import DuraLLM.Execution.Routine
import DuraLLM.Routing.Budget
import Mathlib.Tactic.Ring

/-! # What an agent budget pays for

Any number of `execute` calls share one budget store.  A call reserves the
estimated cost of the original request before each dispatch and settles the
estimated cost of the response.  With an upstream that keeps to the output limit
it was sent, a settlement is covered by its reservation as long as the request
that is sent is no larger, and allows no more output, than was estimated.
-/

namespace DuraLLM

variable {Json Decision σ : Type}

/-- A call of `execute`. -/
structure ExecuteJob (Json : Type) where
  executor : GatewayExecutor Json
  args : ExecuteRequest Json
  fuel : Nat

namespace ExecuteJob

def scope (job : ExecuteJob Json) : String :=
  orText job.args.requirements.budgetScope job.args.request.requestId

def limit (job : ExecuteJob Json) : Option ℚ := job.args.requirements.budgetLimitUsd

/-- The output limit of the original request, 0 where it has none. -/
def maxTokens (job : ExecuteJob Json) : Int := job.args.request.maxOutputTokens.getD 0

/-- The requirement vector of the call, which the clock has no part in. -/
def requirements [JsonCodec Json] (job : ExecuteJob Json) : RequirementVector :=
  (job.args.call job.executor 0).requirements

end ExecuteJob

/-! ## The shared store -/

/-- The call of the budget store behind an operation. -/
def LocalOp.budgetCall : LocalOp Json → Option BudgetCall
  | .reserve reservationId scope amountUsd limitUsd =>
      some (.reserve reservationId scope amountUsd limitUsd)
  | .keep (.releaseReservation r) => some (.release r.reservationId)
  | .keep (.settleReserved r) => some (.settle r.reservationId r.amountUsd)
  | _ => none

def PermitOp.budgetCall : PermitOp Json → Option BudgetCall
  | .settleCost reservationId costUsd => some (.settle reservationId costUsd)
  | _ => none

def budgetCall : (executorSig Json Decision).Op → Option BudgetCall
  | .inl op => LocalOp.budgetCall op
  | .inr op => PermitOp.budgetCall op

namespace BudgetReservationStore

/-- What the executor hears of `reserve`. -/
def reserveAnswer (store : BudgetReservationStore) (reservationId scope : String)
    (amountUsd limitUsd : ℚ) : ReserveAnswer amountUsd limitUsd :=
  if negative : amountUsd < 0 ∨ limitUsd < 0 then .refused negative
  else
    match store.reserve reservationId scope amountUsd limitUsd with
    | .ok (none, _) => .denied
    | _ => .reserved (Rat.not_lt.mp fun below => negative (.inl below))

/-- What the executor hears of `settle`. -/
def settleAnswer (costUsd : ℚ) : SettleAnswer costUsd :=
  if negative : costUsd < 0 then .refused negative else .settled (Rat.not_lt.mp negative)

end BudgetReservationStore

/-- The budget store with its history, and everything else. -/
structure Fleet (σ : Type) where
  history : BudgetHistory := {}
  world : σ

/-- The store answers its own calls, and `others` answers the rest: the clock,
    the router, the adapters, for each call of `execute` as they like. -/
def fleetHandle (others : Nat → Prog.Handler (executorSig Json Decision) σ) (index : Nat) :
    Prog.Handler (executorSig Json Decision) (Fleet σ)
  | .inl (.reserve reservationId scope amountUsd limitUsd), fleet =>
      (fleet.history.store.reserveAnswer reservationId scope amountUsd limitUsd,
        { fleet with
          history := fleet.history.step (.reserve reservationId scope amountUsd limitUsd) })
  | .inl (.keep (.releaseReservation r)), fleet =>
      ((), { fleet with history := fleet.history.step (.release r.reservationId) })
  | .inl (.keep (.settleReserved r)), fleet =>
      ((), { fleet with history := fleet.history.step (.settle r.reservationId r.amountUsd) })
  | .inr (.settleCost reservationId costUsd), fleet =>
      (BudgetReservationStore.settleAnswer costUsd,
        { fleet with history := fleet.history.step (.settle reservationId costUsd) })
  | op, fleet =>
      ((others index op fleet.world).1,
        { fleet with world := (others index op fleet.world).2 })

def fleetMachine [JsonCodec Json] (others : Nat → Prog.Handler (executorSig Json Decision) σ) :
    Machine (executorSig Json Decision) (Fleet σ) (ExecuteJob Json) Empty
      (ExecuteResult Json Decision) where
  program job := execute job.executor job.args job.fuel
  admits _ _ := true
  handle := fleetHandle others
  outside event := event.elim
  kills event := event.elim

abbrev FleetPool (Json Decision σ : Type) :=
  Pool (executorSig Json Decision) (Fleet σ) (ExecuteJob Json) (ExecuteResult Json Decision)

def FleetPool.start (world : σ) : FleetPool Json Decision σ := ⟨{ world }, []⟩

theorem fleetHandle_history (others : Nat → Prog.Handler (executorSig Json Decision) σ)
    (index : Nat) (op : (executorSig Json Decision).Op) (fleet : Fleet σ) :
    (fleetHandle others index op fleet).2.history =
      ((budgetCall op).toList).foldl BudgetHistory.step fleet.history := by
  rcases op with op | op
  · cases op with
    | keep note => cases note <;> rfl
    | _ => rfl
  · cases op <;> rfl

/-- The calls of the budget store in an interleaving. -/
def budgetCalls (exchanges : List (ExecuteJob Json × Exchange Json Decision)) : List BudgetCall :=
  exchanges.filterMap fun e => budgetCall e.2.1

theorem foldl_budgetCalls (exchanges : List (ExecuteJob Json × Exchange Json Decision))
    (history : BudgetHistory) :
    exchanges.foldl (fun h e => ((budgetCall e.2.1).toList).foldl BudgetHistory.step h) history =
      (budgetCalls exchanges).foldl BudgetHistory.step history := by
  induction exchanges generalizing history with
  | nil => rfl
  | cons e rest ih =>
      simp only [List.foldl_cons, ih, budgetCalls, List.filterMap_cons]
      cases budgetCall e.2.1 <;> rfl

/-- The history of the store is that of the calls it was asked. -/
theorem run_history [JsonCodec Json] (others : Nat → Prog.Handler (executorSig Json Decision) σ)
    (world : σ) (moves : List (Move (ExecuteJob Json) Empty)) :
    ((FleetPool.start world).run (fleetMachine others) moves).state.history =
      BudgetHistory.run
        (budgetCalls ((FleetPool.start world).exchanges (fleetMachine others) moves)) := by
  have folded := Pool.run_fold (m := fleetMachine others) Fleet.history
    (fun h op => ((budgetCall op).toList).foldl BudgetHistory.step h)
    (fun index op s => fleetHandle_history others index op s) (fun event => event.elim)
    (FleetPool.start world) moves
  rw [folded, foldl_budgetCalls]
  rfl

/-! ## Honest upstreams and covered requests -/

/-- How the output limit is read off a prepared request, and the size of the
    answer off a result. -/
structure Upstream where
  maxTokens : PreparedRequest → Int
  outputTokens : ExecutionResult → Nat

/-- An adapter sends the output limit of the request or a lower one, the provider
    answers within it, and the response has the content of the answer. -/
def LocalOp.honest (upstream : Upstream) : (op : LocalOp Json) → op.Answer Json Decision → Bool
  | .prepareRequest _ _ request _, (.ok prepared : Except RaisedError PreparedRequest) =>
      decide (∀ limit ∈ request.maxOutputTokens, upstream.maxTokens prepared ≤ limit)
  | .adapterExecute _ prepared _, (.ok result : Except RaisedError ExecutionResult) =>
      decide ((upstream.outputTokens result : Int) ≤ upstream.maxTokens prepared)
  | _, _ => true

def ReviewOp.honest (upstream : Upstream) : (op : ReviewOp Json) → Except RaisedError op.Result → Bool
  | .normalizeResponse _ _ result, .ok (response : NormalizedResponse Json) =>
      decide (estimateText (response.content.getD "") ≤ upstream.outputTokens result)
  | _, _ => true

def PermitOp.honest (upstream : Upstream) : (op : PermitOp Json) → op.Answer Json → Bool
  | .review op, answer => op.honest upstream answer
  | _, _ => true

def honest (upstream : Upstream) : Exchange Json Decision → Bool
  | ⟨.inl op, answer⟩ => LocalOp.honest upstream op answer
  | ⟨.inr op, answer⟩ => PermitOp.honest upstream op answer

section Profiles

variable (P : ModelProfile → Prop) [DecidablePred P]

/-- What holds of every profile that the executor is shown. -/
def LocalOp.shows : (op : LocalOp Json) → op.Answer Json Decision → Bool
  | .getProfile _ _, (profile : ModelProfile) => decide (P profile)
  | .selectCandidate _ _ _ _ _ _,
      (.ok (some endpoint, _) : Except RaisedError (Option Endpoint × Decision)) =>
      decide (∀ profile ∈ endpoint.profile, P profile)
  | _, _ => true

def shows : Exchange Json Decision → Bool
  | ⟨.inl op, answer⟩ => LocalOp.shows P op answer
  | ⟨.inr _, _⟩ => true

end Profiles

abbrev Priced (profile : ModelProfile) : Prop :=
  0 ≤ profile.inputPricePer1m ∧ 0 ≤ profile.outputPricePer1m

/-- A request without an output limit is sent with that of the profile, and
    estimated at 4096 tokens or the window. -/
abbrev Sized (maxTokens : Int) (profile : ModelProfile) : Prop :=
  maxTokens = 0 → orNumber (some profile.maxOutputTokens) 4096 ≤ min 4096 profile.contextWindow

/-- No output cap that is read off a failure is above the limit of the request. -/
def LocalOp.caps (maxTokens : Int) : (op : LocalOp Json) → op.Answer Json Decision → Bool
  | .parseOutputCap _, (.ok cap : Except RaisedError (Option Nat)) =>
      decide (maxTokens ≠ 0 → clampedOutput cap maxTokens ≤ maxTokens)
  | _, _ => true

def caps (maxTokens : Int) : Exchange Json Decision → Bool
  | ⟨.inl op, answer⟩ => LocalOp.caps maxTokens op answer
  | ⟨.inr _, _⟩ => true

/-- What is sent allows no more output than was estimated. -/
structure Estimable (job : ExecuteJob Json) (exchange : Exchange Json Decision) : Prop where
  sized : shows (Sized job.maxTokens) exchange
  capped : caps job.maxTokens exchange

section Costs

variable [JsonCodec Json]

/-- Compaction leaves a request that fits alone, and makes another fit. -/
def LocalOp.compacts : (op : LocalOp Json) → op.Answer Json Decision → Bool
  | .compact request budget,
      (.ok (compacted, _) : Except RaisedError (NormalizedRequest Json × Bool)) =>
      if estimateTokens request ≤ budget.availableInputBudget then
        estimateTokens compacted = estimateTokens request
      else estimateTokens compacted ≤ budget.availableInputBudget
  | _, _ => true

def compacts : Exchange Json Decision → Bool
  | ⟨.inl op, answer⟩ => LocalOp.compacts op answer
  | ⟨.inr _, _⟩ => true

theorem compacts_le {request compacted : NormalizedRequest Json} {budget : ContextBudget}
    {wasCompacted : Bool}
    (fits : compacts (⟨.inl (.compact request budget),
      (.ok (compacted, wasCompacted) : Except RaisedError (NormalizedRequest Json × Bool))⟩ :
        Exchange Json Decision)) :
    estimateTokens compacted ≤ estimateTokens request := by
  simp only [compacts, LocalOp.compacts] at fits
  split at fits
  · exact (of_decide_eq_true fits).le
  · have small := of_decide_eq_true fits
    omega

/-- The price of a request as it is sent, with all the output it allows. -/
def sentCost (profile : ModelProfile) (request : NormalizedRequest Json) : ℚ :=
  (estimateTokens request * profile.inputPricePer1m +
    request.maxOutputTokens.getD 0 * profile.outputPricePer1m) / 1000000

/-! ### The request in the loop -/

/-- The request of the call, with an output limit that is not raised. -/
structure Kept (job : ExecuteJob Json) (request : NormalizedRequest Json) : Prop where
  same : ∃ limit, request = { job.args.request with maxOutputTokens := limit }
  limited : job.maxTokens ≠ 0 →
    ∃ limit, request.maxOutputTokens = some limit ∧ limit ≠ 0 ∧ limit ≤ job.maxTokens

variable {job : ExecuteJob Json} {request : NormalizedRequest Json}

omit [JsonCodec Json] in
theorem kept_start (job : ExecuteJob Json) : Kept job job.args.request where
  same := ⟨_, rfl⟩
  limited := by
    intro given
    unfold ExecuteJob.maxTokens at given ⊢
    cases limit : job.args.request.maxOutputTokens with
    | none => simp [limit] at given
    | some limit' => exact ⟨limit', rfl, by simpa [limit] using given, by simp⟩

omit [JsonCodec Json] in
theorem Kept.requestId (kept : Kept job request) :
    request.requestId = job.args.request.requestId := by
  obtain ⟨limit, rfl⟩ := kept.same
  rfl

theorem Kept.estimate (kept : Kept job request) :
    estimateTokens request = estimateTokens job.args.request := by
  obtain ⟨limit, rfl⟩ := kept.same
  rfl

theorem clampedOutput_ne_zero {cap : Option Nat} {limit : Int} (given : limit ≠ 0) :
    clampedOutput cap limit ≠ 0 := by
  cases cap with
  | none => simp only [clampedOutput]; omega
  | some cap => simp only [clampedOutput]; grind

/-- A cap that is no higher than the first limit lowers the present one. -/
theorem clampedOutput_le {cap : Option Nat} {limit maxTokens : Int} (below : limit ≤ maxTokens)
    (capped : clampedOutput cap maxTokens ≤ maxTokens) : clampedOutput cap limit ≤ maxTokens := by
  cases cap with
  | none => simp only [clampedOutput]; omega
  | some cap => simp only [clampedOutput] at capped ⊢; grind

omit [JsonCodec Json] in
/-- A clamp that follows a low cap keeps the limit low. -/
theorem Kept.clamp (kept : Kept job request) {cap : Option Nat} {assumed : Int}
    (capped : job.maxTokens ≠ 0 → clampedOutput cap job.maxTokens ≤ job.maxTokens) :
    Kept job { request with
      maxOutputTokens := some (clampedOutput cap (orNumber request.maxOutputTokens assumed)) } where
  same := by
    obtain ⟨limit, rfl⟩ := kept.same
    exact ⟨_, rfl⟩
  limited := by
    intro given
    obtain ⟨limit, found, nonzero, below⟩ := kept.limited given
    refine ⟨_, rfl, ?_, ?_⟩
    · rw [found]
      exact clampedOutput_ne_zero (by simp [orNumber, nonzero])
    · rw [found]
      exact clampedOutput_le (by simpa [orNumber, nonzero] using below) (capped given)

/-- The budget of an attempt allows no more output than was estimated. -/
theorem Kept.desired_le (kept : Kept job request) {profile : ModelProfile}
    (sized : Sized job.maxTokens profile) (shrink : ℚ) :
    (contextBudget profile shrink request).desiredOutputTokens ≤
      orNumber (some job.maxTokens) (min 4096 profile.contextWindow) := by
  have least : (contextBudget profile shrink request).desiredOutputTokens ≤
      min (orNumber request.maxOutputTokens (orNumber (some profile.maxOutputTokens) 4096))
        (orNumber (some profile.maxOutputTokens) 4096) := by
    unfold contextBudget
    dsimp only
    split <;> omega
  refine least.trans ?_
  by_cases given : job.maxTokens = 0
  · have room := sized given
    simp only [given, orNumber, ite_true] at room ⊢
    omega
  · obtain ⟨limit, found, nonzero, below⟩ := kept.limited given
    simp only [found, orNumber, given, nonzero, ite_false]
    omega

/-- What is sent is covered by the estimate. -/
theorem Kept.sentCost_le (kept : Kept job request) {profile : ModelProfile}
    (priced : Priced profile) (sized : Sized job.maxTokens profile) {shrink : ℚ}
    {compacted : NormalizedRequest Json}
    (smaller : estimateTokens compacted ≤ estimateTokens request) :
    sentCost profile { compacted with
        maxOutputTokens := some (contextBudget profile shrink request).desiredOutputTokens } ≤
      job.requirements.estimatedCostUsd profile := by
  have input : (estimateTokens compacted : ℚ) * profile.inputPricePer1m ≤
      estimateTokens job.args.request * profile.inputPricePer1m :=
    mul_le_mul_of_nonneg_right (by exact_mod_cast kept.estimate ▸ smaller) priced.1
  have output : ((contextBudget profile shrink request).desiredOutputTokens : ℚ) *
        profile.outputPricePer1m ≤
      (orNumber (some job.maxTokens) (min 4096 profile.contextWindow) : Int) *
        profile.outputPricePer1m :=
    mul_le_mul_of_nonneg_right (by exact_mod_cast kept.desired_le sized shrink) priced.2
  change (estimateTokens compacted * profile.inputPricePer1m +
      ((contextBudget profile shrink request).desiredOutputTokens : ℚ) *
        profile.outputPricePer1m) / 1000000 ≤
    (estimateTokens job.args.request * profile.inputPricePer1m +
      (orNumber (some job.maxTokens) (min 4096 profile.contextWindow) : Int) *
        profile.outputPricePer1m) / 1000000
  linarith

/-- An honest answer costs no more than the request allowed. -/
theorem responseCost_le_sentCost {d : Dispatch Json Decision} {response : NormalizedResponse Json}
    {limit : Int} (sent : d.adaptedRequest.maxOutputTokens = some limit)
    (within : (estimateText (response.content.getD "") : Int) ≤ limit)
    (price : 0 ≤ d.profile.outputPricePer1m) :
    responseCost d response ≤ sentCost d.profile d.adaptedRequest := by
  have output : ((estimateText (response.content.getD "") : Int) : ℚ) * d.profile.outputPricePer1m ≤
      (limit : ℚ) * d.profile.outputPricePer1m :=
    mul_le_mul_of_nonneg_right (by exact_mod_cast within) price
  rw [Int.cast_natCast] at output
  have split : responseCost d response =
      (estimateTokens d.adaptedRequest * d.profile.inputPricePer1m +
        estimateText (response.content.getD "") * d.profile.outputPricePer1m) / 1000000 := by
    unfold responseCost
    ring
  rw [split, sentCost, sent, Option.getD_some]
  linarith

end Costs

/-! ## What each part may settle -/

/-- What is reserved under an id, in an honest and covered run. -/
structure Books (Json : Type) where
  upstream : Upstream
  amountOf : String → ℚ
  job : ExecuteJob Json

/-- An operation that reserves does so for its request; one that settles stays
    within what is reserved under the id. -/
def Books.Good (books : Books Json) : (executorSig Json Decision).Op → Prop
  | .inl (.reserve _ scope _ limitUsd) =>
      scope = books.job.scope ∧ books.job.limit = some limitUsd
  | .inl (.keep (.settleReserved r)) => r.amountUsd ≤ books.amountOf r.reservationId
  | .inr (.settleCost reservationId costUsd) => costUsd ≤ books.amountOf reservationId
  | _ => True

/-- The amount of a reservation is what its id stands for. -/
def Books.Remembers (books : Books Json) : (executorSig Json Decision).Op → Prop
  | .inl (.reserve reservationId _ amountUsd _) => books.amountOf reservationId = amountUsd
  | _ => True

section Contract

variable [JsonCodec Json]

/-- What the surroundings of a call owe it, and what keeps its estimate right. -/
structure Answered (upstream : Upstream) (job : ExecuteJob Json) (exchange : Exchange Json Decision) :
    Prop extends Estimable job exchange where
  honest : honest upstream exchange
  priced : shows Priced exchange
  compacts : compacts exchange

def spendContract (Decision : Type) (books : Books Json) :
    Contract (executorSig Json Decision) Unit where
  fair := fun op answer => Answered books.upstream books.job ⟨op, answer⟩ ∧ books.Remembers op
  good := books.Good
  note := fun _ => none

variable {books : Books Json}

theorem spend_reviews : ReviewsFreely (spendContract Decision books) where
  plain := by
    intro op routine
    cases op with
    | keep note =>
        cases note with
        | settleReserved => cases routine
        | _ => exact ⟨trivial, fun _ => rfl⟩
    | reserve => cases routine
    | _ => exact ⟨trivial, fun _ => rfl⟩
  review := fun _ => ⟨trivial, fun _ => rfl⟩

theorem spend_plain : Indifferent (spendContract Decision books).left := spend_reviews.plain

end Contract

/-! ### Local parts -/

section Local

variable [JsonCodec Json] {books : Books Json}

/-- The dispatch reserved what is booked under its id. -/
def Booked (books : Books Json) (reservation : Option Reservation) : Prop :=
  ∀ r, reservation = some r → r.amountUsd ≤ books.amountOf r.reservationId

theorem pays_note {note : Bookkeeping} (good : books.Good (.inl (.keep note) : (executorSig Json Decision).Op)) :
    (Local.keep note : Local Json Decision Unit).Quiet (spendContract Decision books).left
      fun _ => True :=
  (Prog.quiet_call good fun _ => rfl).imp fun _ _ => trivial

theorem pays_settleReserved {reservation : Option Reservation} (booked : Booked books reservation) :
    (settleReserved reservation : Local Json Decision Unit).Quiet
      (spendContract Decision books).left fun _ => True := by
  cases reservation with
  | none => exact Prog.quiet_pure trivial
  | some r => exact pays_note (booked r rfl)

theorem pays_finishDurableAttempt (executor : GatewayExecutor Json) (record : AttemptRecord)
    (status : AttemptStatus) (detail : AttemptDetail) :
    (finishDurableAttempt executor record status detail : Local Json Decision Unit).Quiet
      (spendContract Decision books).left fun _ => True := by
  unfold finishDurableAttempt
  split
  · exact pays_note trivial
  · exact Prog.quiet_pure trivial

variable (call : ExecuteCall Json) (s : LoopState Json) (d : Dispatch Json Decision)

theorem pays_recordFailedAttempt (booked : Booked books d.reservation) (result : ExecutionResult)
    (classified : FailureClassification) (recorded : Bool) :
    (recordFailedAttempt call s d result classified recorded).Quiet
      (spendContract Decision books).left fun t => t.request = s.request := by
  refine (spend_plain.any rfl).bind fun _ _ => ?_
  refine (spend_plain.unnoted.quiet_recordBilling call s d.endpoint classified).bind fun t billed => ?_
  refine (spend_plain.unnoted.quiet_recordPermanent call t d.endpoint classified).bind fun u dead => ?_
  refine (spend_plain.unnoted.quiet_recordLaneOutcome d.endpoint (some classified)).bind fun _ _ => ?_
  refine (spend_plain.quiet_finish d.attempt false _ (some classified)).bind fun record _ => ?_
  refine (spend_plain.quiet_emitAttempt record).bind fun _ _ => ?_
  refine (pays_settleReserved booked).bind fun _ _ => ?_
  refine (pays_finishDurableAttempt call.executor record _ _).bind fun _ _ => ?_
  exact Prog.quiet_pure (billed.trans dead).request

theorem pays_rotateKey (booked : Booked books d.reservation) (keyId : String)
    (result : ExecutionResult) (classified : FailureClassification) :
    (rotateKey call s d keyId result classified).Quiet (spendContract Decision books).left
      fun t => t.request = s.request := by
  refine (spend_plain.any rfl).bind fun _ _ => (spend_plain.any rfl).bind fun _ _ => ?_
  refine (spend_plain.quiet_finish d.attempt false _ (some classified)).bind fun record _ => ?_
  refine (spend_plain.quiet_recordAttempt s record).bind fun t recorded => ?_
  subst recorded
  refine (pays_settleReserved booked).bind fun _ _ => ?_
  refine (pays_finishDurableAttempt call.executor record _ _).bind fun _ _ => ?_
  exact Prog.quiet_pure rfl

theorem pays_recordTransportError (booked : Booked books d.reservation) (error : RaisedError)
    (record : AttemptRecord) (classified : FailureClassification) :
    (recordTransportError call s d error record classified).Quiet
      (spendContract Decision books).left fun _ => True := by
  refine (spend_plain.any rfl).bind fun _ _ => (spend_plain.any rfl).bind fun _ _ => ?_
  refine (spend_plain.unnoted.quiet_recordLaneOutcome d.endpoint (some classified)).bind fun _ _ => ?_
  refine (spend_plain.quiet_recordAttempt s record).bind fun t _ => ?_
  refine (pays_settleReserved booked).bind fun _ _ => ?_
  exact (pays_finishDurableAttempt call.executor record _ _).bind fun _ _ => Prog.quiet_pure trivial

theorem pays_blockAttempt (booked : Booked books d.reservation) :
    (blockAttempt call s d).Quiet (spendContract Decision books).left fun _ => True := by
  refine (spend_plain.quiet_finish d.attempt false 409 none).bind fun record _ => ?_
  refine (pays_settleReserved booked).bind fun _ _ => ?_
  refine (spend_plain.quiet_recordAttempt s record).bind fun t _ => ?_
  exact (pays_finishDurableAttempt call.executor record _ _).bind fun _ _ => Prog.quiet_pure trivial

/-! ### Up to admission -/

/-- A dispatch whose reservation covers what was sent. -/
structure Backed (books : Books Json) (d : Dispatch Json Decision) : Prop where
  booked : Booked books d.reservation
  covered : ∀ r, d.reservation = some r →
    sentCost d.profile d.adaptedRequest ≤ books.amountOf r.reservationId
  sent : ∃ limit, d.adaptedRequest.maxOutputTokens = some limit ∧
    books.upstream.maxTokens d.prepared ≤ limit
  price : 0 ≤ d.profile.outputPricePer1m

/-- A prepared pass keeps the request, and its dispatch is backed. -/
def Ready (books : Books Json) : Preparation Json Decision → Prop
  | .skipped t => Kept books.job t.request
  | .ready t d => Kept books.job t.request ∧ Backed books d

/-- The call behind a job at the time it started. -/
def IsCallOf (job : ExecuteJob Json) (call : ExecuteCall Json) : Prop :=
  call.requirements = job.requirements

theorem pays_reserveBudget {call : ExecuteCall Json} (own : IsCallOf books.job call)
    {request : NormalizedRequest Json} (kept : Kept books.job request)
    (profile : ModelProfile) (attemptId : String) :
    Prog.QuietExcept (spendContract Decision books).left (fun verdict =>
      ∀ r, verdict = .reserved r → r.amountUsd = books.amountOf r.reservationId ∧
        r.amountUsd = books.job.requirements.estimatedCostUsd profile)
      (reserveBudget call request profile attemptId : Raising Json Decision _) := by
  unfold reserveBudget
  split
  · exact Prog.quietExcept_pure fun r same => by cases same
  next limit limited =>
    have good : books.Good (.inl (.reserve (request.requestId ++ ":" ++ attemptId)
        (orText call.requirements.budgetScope request.requestId)
        (call.requirements.estimatedCostUsd profile) limit) : (executorSig Json Decision).Op) := by
      rw [own] at limited ⊢
      rw [kept.requestId]
      exact ⟨rfl, limited⟩
    refine (Prog.quietExcept_lift (Prog.quiet_call good fun _ => rfl)).bind fun answer fair => ?_
    cases answer with
    | refused negative => exact Prog.quietExcept_throw _
    | denied => exact Prog.quietExcept_pure fun r same => by cases same
    | reserved nonneg =>
        refine Prog.quietExcept_pure fun r same => ?_
        cases same
        exact ⟨fair.2.symm, congrArg (fun q => q.estimatedCostUsd profile) own⟩

theorem pays_prepareDispatch {call : ExecuteCall Json} (own : IsCallOf books.job call)
    {s : LoopState Json} (kept : Kept books.job s.request) (endpoint : Endpoint)
    (decision : Decision) {profile : ModelProfile} (price : 0 ≤ profile.outputPricePer1m)
    {adapted : NormalizedRequest Json} (sized : ∃ limit, adapted.maxOutputTokens = some limit)
    (covered : sentCost profile adapted ≤ books.job.requirements.estimatedCostUsd profile)
    (wasCompacted : Bool) :
    Prog.QuietExcept (spendContract Decision books).left (Ready books)
      (prepareDispatch call s endpoint decision profile adapted wasCompacted) := by
  have adapter : Prog.QuietExcept (spendContract Decision books).left (fun _ => True)
      (Raising.getAdapter endpoint : Raising Json Decision _) :=
    (spend_plain.any rfl).imp fun _ _ _ _ => trivial
  have prepared : ∀ adapter key, Prog.QuietExcept (spendContract Decision books).left
      (fun prepared => ∀ limit ∈ adapted.maxOutputTokens, books.upstream.maxTokens prepared ≤ limit)
      (Raising.prepareRequest adapter endpoint adapted key : Raising Json Decision _) := by
    intro adapter key
    refine (spend_plain.ask rfl).imp fun answer fair prepared found => ?_
    subst found
    exact of_decide_eq_true fair.1.honest
  refine adapter.bind fun _ _ => (spend_plain.quiet_lifted rfl).bind fun ⟨keyVal, keyId⟩ _ => ?_
  obtain ⟨limit, found⟩ := sized
  refine (prepared _ _).bind fun _ sent => ?_
  refine (spend_plain.unnoted.quiet_check call.deadline).bind fun _ _ => ?_
  refine (spend_plain.quiet_lifted rfl).bind fun _ _ => ?_
  refine (spend_plain.quiet_lifted rfl).bind fun attemptId _ => ?_
  refine (spend_plain.quiet_lifted rfl).bind fun _ _ => ?_
  refine (pays_reserveBudget own kept profile attemptId).bind fun verdict reserved => ?_
  cases verdict with
  | unlimited =>
      refine Prog.quietExcept_pure ⟨kept, ?_⟩
      exact
        { booked := fun r same => by cases same
          covered := fun r same => by cases same
          sent := ⟨limit, found, sent limit found⟩
          price }
  | denied => exact Prog.quietExcept_pure kept
  | reserved r =>
      obtain ⟨booked, estimate⟩ := reserved r rfl
      refine Prog.quietExcept_pure ⟨kept, ?_⟩
      refine
        { booked := fun r' same => ?_
          covered := fun r' same => ?_
          sent := ⟨limit, found, sent limit found⟩
          price }
      · cases same
        exact booked.le
      · cases same
        rw [← booked, estimate]
        exact covered

theorem pays_prepareAttempt {call : ExecuteCall Json} (own : IsCallOf books.job call)
    {s : LoopState Json} (kept : Kept books.job s.request) :
    Prog.QuietExcept (spendContract Decision books).left (Ready books)
      (prepareAttempt call s) := by
  unfold Prog.QuietExcept Prog.Quiet
  refine spend_plain.meets_prepareAttempt ?_ call s ?_ ?_ ?_
  · intro note bound
    cases note with
    | event | setMaxTotalAttempts => exact ⟨trivial, fun _ => rfl⟩
    | _ => cases bound
  · exact fun e => ⟨rfl, fun _ same => by cases same⟩
  · intro t _ same
    refine ⟨rfl, fun prepared found => ?_⟩
    cases found
    change Kept books.job t.request
    exact same ▸ kept
  · intro t endpoint decision profile adapted wasCompacted _ same selected profiled compacted
    have known : Priced profile ∧ Sized books.job.maxTokens profile := by
      obtain ⟨_, _, _, answered, _⟩ := selected
      rcases profiled with listed | ⟨_, answered, _⟩
      · exact ⟨of_decide_eq_true answered.priced profile listed,
          of_decide_eq_true answered.sized profile listed⟩
      · exact ⟨of_decide_eq_true answered.priced, of_decide_eq_true answered.sized⟩
    obtain ⟨shrink, request, _, ⟨answered, _⟩, rfl⟩ := compacted
    refine pays_prepareDispatch own (same ▸ kept) endpoint decision known.1.2 ⟨_, rfl⟩ ?_ wasCompacted
    exact kept.sentCost_le known.1 known.2 (compacts_le answered.compacts)

end Local

/-! ### From admission on -/

section Pass

variable [JsonCodec Json] {books : Books Json}

/-- A pass that goes on keeps the request. -/
def KeepsRequest (job : ExecuteJob Json) : PassResult Json Decision → Prop
  | .next t => Kept job t.request
  | _ => True

/-- An operation that settles nothing. -/
def PermitOp.Free : PermitOp Json → Prop
  | .settleCost _ _ => False
  | _ => True

theorem pays_ask (op : PermitOp Json) (free : op.Free) :
    (Execution.ask op : Execution Json Decision _).Quiet (spendContract Decision books)
      fun _ => True := by
  have good : books.Good (.inr op : (executorSig Json Decision).Op) := by
    cases op with
    | settleCost => cases free
    | _ => exact trivial
  exact (Prog.quiet_call good fun _ => rfl).imp fun _ _ => trivial

theorem pays_settleCost {reservationId : String} {costUsd : ℚ}
    (paid : costUsd ≤ books.amountOf reservationId) :
    (Execution.settleCost reservationId costUsd : Execution Json Decision _).Quiet
      (spendContract Decision books) fun _ => True :=
  (Prog.quiet_call paid fun _ => rfl).imp fun _ _ => trivial

variable (call : ExecuteCall Json) {s : LoopState Json} {d : Dispatch Json Decision}

theorem pays_reportFailure (kept : Kept books.job s.request) (booked : Booked books d.reservation) (result : ExecutionResult)
    (classified : FailureClassification) (recorded : Bool) :
    (reportFailure call s d result classified recorded).Quiet (spendContract Decision books)
      (KeepsRequest books.job) := by
  refine (pays_ask (.recordFailure _ _ _) trivial).bind fun _ _ => ?_
  refine (ReviewsFreely.quiet_local (pays_recordFailedAttempt call s d booked result classified
    recorded)).bind fun t same => ?_
  refine (ReviewsFreely.quiet_local (spend_plain.quiet_recover call t d classified)).bind
    fun next recovers => Prog.quiet_pure ?_
  rw [← same] at kept
  cases next with
  | error e => trivial
  | ok u =>
      change Kept books.job u.request
      rcases (recovers u rfl).request with still | ⟨cap, ⟨answered, _⟩, clamped⟩
      · exact still ▸ kept
      · exact clamped ▸ kept.clamp (of_decide_eq_true answered.capped)

theorem pays_failAttempt (kept : Kept books.job s.request) (booked : Booked books d.reservation)
    (result : ExecutionResult) (classified : FailureClassification) (recorded : Bool) :
    (failAttempt call s d result classified recorded).Quiet (spendContract Decision books)
      (KeepsRequest books.job) := by
  unfold failAttempt
  split
  · exact pays_reportFailure call kept booked result classified recorded
  · refine (pays_ask (.hasAlternativeKey _ _ _) trivial).bind fun another _ => ?_
    split
    · refine (ReviewsFreely.quiet_local (pays_rotateKey call s d booked _ result classified)).bind
        fun t same => Prog.quiet_pure ?_
      change Kept books.job t.request
      exact same ▸ kept
    · exact pays_reportFailure call kept booked result classified recorded

theorem pays_classifyFailure (source : FailureSource) (statusCode : Nat)
    (headers : List (String × String)) :
    (classifyFailure source statusCode headers : Execution Json Decision _).Quiet
      (spendContract Decision books) fun _ => True := by
  unfold classifyFailure
  split
  · exact Prog.quiet_pure trivial
  · exact pays_ask (.classifyFailure _ _ _) trivial

theorem pays_failClassified (kept : Kept books.job s.request) (booked : Booked books d.reservation)
    (result : ExecutionResult) (source : FailureSource) (statusCode : Nat)
    (headers : List (String × String)) (recorded : Bool) :
    (failClassified call s d result source statusCode headers recorded).Quiet
      (spendContract Decision books) (KeepsRequest books.job) := by
  refine (pays_classifyFailure source statusCode headers).bind fun answer _ => ?_
  cases answer with
  | error e => exact Prog.quiet_pure trivial
  | ok classified => exact pays_failAttempt call kept booked result classified recorded

theorem pays_transportError (s : LoopState Json) (booked : Booked books d.reservation)
    (error : RaisedError) :
    (transportError call s d error).Quiet (spendContract Decision books)
      (KeepsRequest books.job) := by
  refine (pays_classifyFailure _ _ _).bind fun answer _ => ?_
  cases answer with
  | error e => exact Prog.quiet_pure trivial
  | ok classified =>
      refine (ReviewsFreely.quiet_local
        (spend_plain.quiet_finish d.attempt false 502 (some classified))).bind fun record _ => ?_
      refine (pays_ask (.recordFailure _ _ _) trivial).bind fun _ _ => ?_
      refine (ReviewsFreely.quiet_local (pays_recordTransportError call s d booked error record
        classified)).bind fun _ _ => ?_
      exact Prog.quiet_pure trivial

/-- The cost of an honest response is covered by the reservation. -/
theorem pays_acceptResponse (kept : Kept books.job s.request) (backed : Backed books d)
    (result : ExecutionResult) {response : NormalizedResponse Json}
    (within : (estimateText (response.content.getD "") : Int) ≤
      books.upstream.maxTokens d.prepared) :
    (acceptResponse call s d result response).Quiet (spendContract Decision books)
      (KeepsRequest books.job) := by
  refine (pays_ask (.recordSuccess _ _) trivial).bind fun _ _ => ?_
  refine (ReviewsFreely.quiet_local (spend_plain.quiet_recordSuccess call s d result)).bind
    fun ⟨record, t⟩ success => ?_
  obtain rfl : t = { s with ledger := s.ledger.recordAttempt record } := success.2
  dsimp only
  split
  · refine (ReviewsFreely.quiet_local (pays_finishDurableAttempt _ _ _ _)).bind fun _ _ => ?_
    exact Prog.quiet_pure trivial
  next reservation reserved =>
    have good : responseCost d response ≤ books.amountOf reservation.reservationId := by
      obtain ⟨limit, sent, below⟩ := backed.sent
      exact (responseCost_le_sentCost sent (within.trans below) backed.price).trans
        (backed.covered reservation reserved)
    refine (pays_settleCost good).bind fun answer _ => ?_
    change SettleAnswer _ at answer
    cases answer with
    | settled nonneg =>
        refine (ReviewsFreely.quiet_local (pays_finishDurableAttempt _ _ _ _)).bind fun _ _ => ?_
        exact Prog.quiet_pure trivial
    | refused negative =>
        exact pays_failClassified call
          (s := { s with ledger := (s.ledger.recordAttempt record).addCost (responseCost d response) })
          kept backed.booked result _ _ _ _

theorem pays_handleResult (kept : Kept books.job s.request) (backed : Backed books d)
    {result : ExecutionResult}
    (within : (books.upstream.outputTokens result : Int) ≤ books.upstream.maxTokens d.prepared) :
    (handleResult call s d result).Quiet (spendContract Decision books)
      (KeepsRequest books.job) := by
  unfold handleResult
  split
  · refine Prog.Quiet.bind (spend_reviews.quiet_reviewResponse s d _ result)
      fun review reviewed => ?_
    rcases review with e | classified | response
    · cases blocked : e.isIndeterminate with
      | true =>
          simp only [blocked]
          exact (ReviewsFreely.quiet_local (pays_blockAttempt call s d backed.booked)).bind
            fun _ _ => Prog.quiet_pure trivial
      | false =>
          simp only [blocked]
          exact pays_failClassified call kept backed.booked result _ _ _ _
    · exact pays_failAttempt call kept backed.booked result classified false
    · obtain ⟨normalized, fair, same⟩ := reviewed _ rfl response rfl
      have honest : estimateText (normalized.content.getD "") ≤
          books.upstream.outputTokens result := of_decide_eq_true fair.1.honest
      refine pays_acceptResponse call kept backed result ?_
      rw [same]
      exact le_trans (by exact_mod_cast honest) within
  · exact pays_failClassified call kept backed.booked result _ _ _ _

theorem pays_dispatch (kept : Kept books.job s.request) (backed : Backed books d) :
    (dispatch call s d).Quiet (spendContract Decision books) (KeepsRequest books.job) := by
  have intent : (prepareDurableAttempt call.executor d.attempt : Local Json Decision Unit).Quiet
      (spendContract Decision books).left fun _ => True := by
    unfold prepareDurableAttempt
    split
    · exact pays_note trivial
    · exact Prog.quiet_pure trivial
  have sent : (Local.adapterExecute d.adapter d.prepared d.timeoutSeconds :
      Local Json Decision _).Quiet (spendContract Decision books).left fun answer =>
        ∀ result, answer = .ok result →
          (books.upstream.outputTokens result : Int) ≤ books.upstream.maxTokens d.prepared := by
    refine (Prog.quiet_call trivial fun _ => rfl).imp fun answer fair result same => ?_
    subst same
    exact of_decide_eq_true fair.1.honest
  refine (ReviewsFreely.quiet_local intent).bind fun _ _ => ?_
  refine (ReviewsFreely.quiet_local sent).bind fun answer within => ?_
  cases answer with
  | error e => exact pays_transportError call s backed.booked e
  | ok result => exact pays_handleResult call kept backed (within result rfl)

theorem pays_runPass {call : ExecuteCall Json} (own : IsCallOf books.job call)
    (kept : Kept books.job s.request) :
    (runPass call s : Execution Json Decision _).Quiet (spendContract Decision books)
      (KeepsRequest books.job) := by
  refine (ReviewsFreely.quiet_local (pays_prepareAttempt own kept)).bind fun prepared held => ?_
  rcases prepared with e | t | ⟨t, d⟩
  · exact Prog.quiet_pure trivial
  · exact Prog.quiet_pure (held _ rfl)
  · obtain ⟨still, backed⟩ := held _ rfl
    refine (pays_ask (.acquirePermission _) trivial).bind fun answer _ => ?_
    change Except BreakerError Unit at answer
    cases answer with
    | ok granted => exact pays_dispatch call still backed
    | error denied =>
        have released : (d.reservation.forM fun r => Local.keep (.releaseReservation r) :
            Local Json Decision Unit).Quiet (spendContract Decision books).left fun _ => True := by
          cases d.reservation with
          | none => exact Prog.quiet_pure trivial
          | some r => exact pays_note trivial
        exact (ReviewsFreely.quiet_local released).bind fun _ _ => Prog.quiet_pure still

theorem pays_executeLoop {call : ExecuteCall Json} (own : IsCallOf books.job call) (fuel : Nat)
    {s : LoopState Json} (kept : Kept books.job s.request) :
    (executeLoop call fuel s : Execution Json Decision _).Quiet (spendContract Decision books)
      fun _ => True := by
  induction fuel generalizing s with
  | zero => exact Prog.quiet_pure trivial
  | succ fuel ih =>
      have more : (mayContinue call s : Local Json Decision Bool).Quiet
          (spendContract Decision books).left fun _ => True := by
        refine (spend_plain.any rfl).bind fun now _ => ?_
        split
        · exact Prog.quiet_pure trivial
        · exact (spend_plain.any rfl).bind fun _ _ => Prog.quiet_pure trivial
      refine (ReviewsFreely.quiet_local more).bind fun goesOn _ => ?_
      cases goesOn with
      | false =>
          refine (ReviewsFreely.quiet_local (spend_plain.unnoted.quiet_giveUp call s)).bind fun _ _ => ?_
          exact Prog.quiet_pure trivial
      | true =>
          refine (pays_runPass own kept).bind fun result still => ?_
          cases result with
          | next t => exact ih still
          | returned response decision ledger => exact Prog.quiet_pure trivial
          | raised e attempts => exact Prog.quiet_pure trivial

theorem pays_execute (books : Books Json) :
    (execute books.job.executor books.job.args books.job.fuel : Execution Json Decision _).Quiet
      (spendContract Decision books) fun _ => True := by
  refine (ReviewsFreely.quiet_local (spend_plain.any rfl)).bind fun now _ => ?_
  have own : IsCallOf books.job (books.job.args.call books.job.executor now) := rfl
  exact pays_executeLoop own _ (kept_start books.job)

end Pass

/-! ## Whole runs -/

/-- The amount of the first reservation under an id. -/
def amountUnder (calls : List BudgetCall) (reservationId : String) : ℚ :=
  match calls with
  | [] => 0
  | .reserve id _ amountUsd _ :: rest =>
      if id = reservationId then amountUsd else amountUnder rest reservationId
  | _ :: rest => amountUnder rest reservationId

theorem amountUnder_eq {calls : List BudgetCall} (unique : (calls.filterMap BudgetCall.reserves).Nodup)
    {reservationId scope : String} {amountUsd limitUsd : ℚ}
    (reserved : .reserve reservationId scope amountUsd limitUsd ∈ calls) :
    amountUnder calls reservationId = amountUsd := by
  induction calls with
  | nil => cases reserved
  | cons call rest ih =>
      cases List.mem_cons.mp reserved with
      | inl first =>
          subst first
          exact if_pos rfl
      | inr later =>
          cases call with
          | release | settle => exact ih unique later
          | reserve id scope' amount' limit' =>
              have apart : id ≠ reservationId := by
                rintro rfl
                exact (List.nodup_cons.mp unique).1 (List.mem_filterMap.mpr ⟨_, later, rfl⟩)
              exact (if_neg apart).trans (ih (List.nodup_cons.mp unique).2 later)

/-- A reservation does not fit by the slack alone. -/
def BudgetHistory.strict (h : BudgetHistory) (scope : String) (limitUsd : ℚ) : BudgetCall → Bool
  | .reserve _ on amountUsd _ =>
      decide (on = scope → h.Within scope (limitUsd + budgetSlack - amountUsd) →
        h.Within scope (limitUsd - amountUsd))
  | _ => true

abbrev NoSlack (scope : String) (limitUsd : ℚ) (calls : List BudgetCall) : Prop :=
  ∀ n < calls.length, ∀ call ∈ calls[n]?, (BudgetHistory.run (calls.take n)).strict scope limitUsd call

theorem NoSlack.fits {scope : String} {limitUsd : ℚ} {calls before : List BudgetCall}
    (strict : NoSlack scope limitUsd calls) {reservationId : String} {amountUsd limit : ℚ}
    (here : before ++ [.reserve reservationId scope amountUsd limit] <+: calls)
    (room : (BudgetHistory.run before).Within scope (limitUsd + budgetSlack - amountUsd)) :
    (BudgetHistory.run before).Within scope (limitUsd - amountUsd) := by
  obtain ⟨rest, rfl⟩ := here
  have fits := strict before.length (by simp) (.reserve reservationId scope amountUsd limit) (by simp)
  rw [List.append_assoc, List.take_left] at fits
  exact of_decide_eq_true fits rfl room

section Fleet

variable [JsonCodec Json]
  {others : Nat → Prog.Handler (executorSig Json Decision) σ} {world : σ}
  {moves : List (Move (ExecuteJob Json) Empty)}

/-- What the calls of `execute` perform, in order. -/
def FleetPool.trace (others : Nat → Prog.Handler (executorSig Json Decision) σ) (world : σ)
    (moves : List (Move (ExecuteJob Json) Empty)) : List (ExecuteJob Json × Exchange Json Decision) :=
  (FleetPool.start world).exchanges (fleetMachine others) moves

/-- The history of the shared store. -/
def FleetPool.history (others : Nat → Prog.Handler (executorSig Json Decision) σ) (world : σ)
    (moves : List (Move (ExecuteJob Json) Empty)) : BudgetHistory :=
  ((FleetPool.start world).run (fleetMachine others) moves).state.history

open FleetPool (trace history)

/-- The calls only ask what their books allow. -/
theorem trace_good {upstream : Upstream}
    (unique : ((budgetCalls (trace others world moves)).filterMap BudgetCall.reserves).Nodup)
    (answered : ∀ e ∈ trace others world moves, Answered upstream e.1 e.2) :
    ∀ e ∈ trace others world moves,
      Books.Good ⟨upstream, amountUnder (budgetCalls (trace others world moves)), e.1⟩ e.2.1 := by
  have programs : ∀ job : ExecuteJob Json, ((fleetMachine others).program job).Meets
      (spendContract Decision ⟨upstream, amountUnder (budgetCalls (trace others world moves)), job⟩)
      fun _ _ => True := by
    intro job
    refine Prog.Meets.imp (pays_execute ⟨upstream, _, job⟩) fun _ _ _ => trivial
  refine Pool.Keeping.good programs (fun _ inside => by cases inside) moves ?_
  intro e found
  refine ⟨answered e found, ?_⟩
  obtain ⟨job, ⟨op, answer⟩⟩ := e
  rcases op with op | op
  · cases op with
    | reserve reservationId scope amountUsd limitUsd =>
        exact amountUnder_eq unique (List.mem_filterMap.mpr ⟨_, found, rfl⟩)
    | _ => trivial
  · trivial

/-- No settlement costs more than was reserved under its id. -/
theorem settled_le_reserved {upstream : Upstream}
    (unique : ((budgetCalls (trace others world moves)).filterMap BudgetCall.reserves).Nodup)
    (answered : ∀ e ∈ trace others world moves, Answered upstream e.1 e.2)
    {reservationId scope : String} {cost amountUsd limitUsd : ℚ}
    (settled : .settle reservationId cost ∈ budgetCalls (trace others world moves))
    (reserved : .reserve reservationId scope amountUsd limitUsd ∈
      budgetCalls (trace others world moves)) : cost ≤ amountUsd := by
  rw [← amountUnder_eq unique reserved]
  obtain ⟨⟨job, ⟨op, answer⟩⟩, found, asked⟩ := List.mem_filterMap.mp settled
  have good := trace_good unique answered _ found
  rcases op with op | op
  · cases op with
    | keep note =>
        cases note with
        | settleReserved r =>
            cases asked
            exact good
        | _ => cases asked
    | _ => cases asked
  · cases op with
    | settleCost id costUsd =>
        cases asked
        exact good
    | _ => cases asked

/-- A reservation on a scope is that of a call on the scope. -/
theorem reserved_by {upstream : Upstream}
    (unique : ((budgetCalls (trace others world moves)).filterMap BudgetCall.reserves).Nodup)
    (answered : ∀ e ∈ trace others world moves, Answered upstream e.1 e.2)
    {reservationId scope : String} {amountUsd limitUsd : ℚ}
    (reserved : .reserve reservationId scope amountUsd limitUsd ∈
      budgetCalls (trace others world moves)) :
    ∃ e ∈ trace others world moves, e.1.scope = scope ∧ e.1.limit = some limitUsd := by
  obtain ⟨⟨job, ⟨op, answer⟩⟩, found, asked⟩ := List.mem_filterMap.mp reserved
  have good := trace_good unique answered _ found
  rcases op with op | op
  · cases op with
    | reserve id scope' amount' limit' =>
        cases asked
        exact ⟨_, found, good.1.symm, good.2⟩
    | keep note => cases note <;> cases asked
    | _ => cases asked
  · cases op <;> cases asked

/-- In every run of calls that share a scope and a limit, with honest upstreams
    and profiles without negative prices, no settlement costs more than its
    reservation and the scope is charged no more than its limit, as long as no
    profile or output cap allows more output than was estimated and no
    reservation uses the slack of the store. -/
theorem budget_never_overspent {upstream : Upstream} {scope : String} {limitUsd : ℚ}
    (nonneg : 0 ≤ limitUsd)
    (oneLimit : ∀ e ∈ trace others world moves, e.1.scope = scope →
      ∀ limit ∈ e.1.limit, limit = limitUsd)
    (unique : ((budgetCalls (trace others world moves)).filterMap BudgetCall.reserves).Nodup)
    (answered : ∀ e ∈ trace others world moves, honest upstream e.2 ∧ shows Priced e.2 ∧ compacts e.2)
    (estimable : ∀ e ∈ trace others world moves, Estimable e.1 e.2)
    (strict : NoSlack scope limitUsd (budgetCalls (trace others world moves))) :
    (∀ reservationId cost on amountUsd limit,
      .settle reservationId cost ∈ budgetCalls (trace others world moves) →
        .reserve reservationId on amountUsd limit ∈ budgetCalls (trace others world moves) →
          cost ≤ amountUsd) ∧
      ∀ seen, seen <+: moves → (history others world seen).store.spentOn scope ≤ limitUsd := by
  have fair : ∀ e ∈ trace others world moves, Answered upstream e.1 e.2 := fun e found =>
    ⟨estimable e found, (answered e found).1, (answered e found).2.1, (answered e found).2.2⟩
  have covered : ∀ reservationId cost on amountUsd limit,
      .settle reservationId cost ∈ budgetCalls (trace others world moves) →
        .reserve reservationId on amountUsd limit ∈ budgetCalls (trace others world moves) →
          cost ≤ amountUsd := fun _ _ _ _ _ => settled_le_reserved unique fair
  refine ⟨covered, fun seen prior => ?_⟩
  have early : budgetCalls (trace others world seen) <+: budgetCalls (trace others world moves) := by
    obtain ⟨rest, rfl⟩ := prior
    rw [trace, trace, Pool.exchanges_append, budgetCalls, budgetCalls, List.filterMap_append]
    exact List.prefix_append _ _
  have same : history others world seen = BudgetHistory.run (budgetCalls (trace others world seen)) :=
    run_history others world seen
  have fits : ∀ before reservationId amountUsd limit,
      before ++ [.reserve reservationId scope amountUsd limit] <+:
          budgetCalls (trace others world moves) →
        (BudgetHistory.run before).Within scope (limit + budgetSlack - amountUsd) →
          (BudgetHistory.run before).Within scope (limitUsd - amountUsd) := by
    intro before reservationId amountUsd limit here room
    have reserved : BudgetCall.reserve reservationId scope amountUsd limit ∈
        budgetCalls (trace others world moves) := here.subset (by simp)
    obtain ⟨e, found, own, limited⟩ := reserved_by unique fair reserved
    rw [oneLimit e found own limit limited] at room
    exact strict.fits here room
  have within := BudgetHistory.run_within nonneg fits
    (fun _ _ _ _ here found _ => BudgetHistory.affordable_of_calls covered here found) early
  have balanced := BudgetHistory.run_balanced (budgetCalls (trace others world seen))
  have held : 0 ≤ (BudgetHistory.run (budgetCalls (trace others world seen))).store.reservedFor scope :=
    balanced.reservedFor_nonneg scope
  rw [same]
  unfold BudgetHistory.Within at within
  linarith

end Fleet

/-! ### A raised output limit is not reserved for -/

section Sample

/-- The output limit that the sample adapter sends, in two bytes. -/
def spendUpstream : Upstream where
  maxTokens prepared := prepared.bodyBytes.foldl (fun limit byte => limit * 256 + byte.toNat) 0
  outputTokens result := tokensOfLength result.body.length

/-- `classify_failure("otpm: limit 1000", status_code=429)` -/
def outputCapExceeded : FailureClassification where
  category := .requestIncompatibility
  reason := .outputCapExceeded
  shouldFallback := true
  retryable := true
  poisonsHealth := false
  statusCode := some 429
  message := "otpm: limit 1000"

/-- One token of output costs one dollar. -/
def spendEndpoint : Endpoint :=
  { sampleEndpoint with profile := some { provider := "groq", model := "llama", outputPricePer1m := 1000000 } }

def spendHandle (index : Nat) : Prog.Handler (executorSig OkObject Unit) SampleWorld
  | .inl .newAttemptId, w => ("att_" ++ toString index ++ toString w.replies.length, w)
  | .inl (.selectCandidate _ _ _ _ _ _), w => (Except.ok (some spendEndpoint, ()), w)
  | .inl (.prepareRequest _ _ request _), w =>
      let limit := (request.maxOutputTokens.getD 0).toNat
      (Except.ok ⟨"https://api.groq.com", [], [.ofNat (limit / 256), .ofNat limit], "POST"⟩, w)
  | .inl (.parseOutputCap _), w => (Except.ok (some 1000), w)
  | .inr (.classifyFailure _ _ _), w => (Except.ok outputCapExceeded, w)
  | .inr (.review (.normalizeResponse _ _ result)), w =>
      (Except.ok ({ content := some (String.ofList (result.body.map fun b => Char.ofNat b.toNat)) } :
        NormalizedResponse OkObject), w)
  | .inr op, w => samplePermit op w
  | .inl op, w => sampleLocal op w

/-- A request for at most four tokens, on a budget of eight dollars. -/
def spendJob (requestId : String) : ExecuteJob OkObject where
  executor := { computePrefixHash := fun _ => "" }
  args :=
    { request := { requestId, maxOutputTokens := some 4 }
      apiKeys := sampleKeys
      requirements := { budgetLimitUsd := some 8, budgetScope := some "agent" } }
  fuel := 3

def spendStart (replies : List ExecutionResult) : SampleWorld where
  breaker := CircuitBreaker.new sampleEndpoint.resourceKey {}
  replies

/-- The body `all done` under status 200. -/
def shortReply : ExecutionResult where
  statusCode := 200
  body := [0x61, 0x6c, 0x6c, 0x20, 0x64, 0x6f, 0x6e, 0x65]

/-- Two calls on one scope, each performing every other operation. -/
def spendMoves : List (Move (ExecuteJob OkObject) Empty) :=
  [.spawn (spendJob "request-1"), .spawn (spendJob "request-2")] ++
    (List.replicate 40 [.run 0, .run 1]).flatten

theorem budget_never_overspent_sample :
    (0 : ℚ) ≤ 8 ∧
      (FleetPool.history spendHandle (spendStart [shortReply, shortReply]) spendMoves).store.spentOn
        "agent" ≤ 8 := by
  have answered : ∀ e ∈ FleetPool.trace spendHandle (spendStart [shortReply, shortReply]) spendMoves,
      (honest spendUpstream e.2 ∧ shows Priced e.2 ∧ compacts e.2) ∧
        shows (Sized e.1.maxTokens) e.2 ∧ caps e.1.maxTokens e.2 := by
    decide +kernel
  have kept : _ ∧ ∀ seen, seen <+: spendMoves →
      (FleetPool.history spendHandle (spendStart [shortReply, shortReply]) seen).store.spentOn
        "agent" ≤ 8 := budget_never_overspent
    (by norm_num) (by decide +kernel) (by decide +kernel) (fun e found => (answered e found).1)
    (fun e found => ⟨(answered e found).2.1, (answered e found).2.2⟩) (by decide +kernel)
  exact ⟨by norm_num, kept.2 spendMoves (List.prefix_refl _)⟩

/-- The body `otpm: limit 1000` under status 429, then forty characters. -/
def capReplies : List ExecutionResult :=
  [{ statusCode := 429
     body := [0x6f, 0x74, 0x70, 0x6d, 0x3a, 0x20, 0x6c, 0x69, 0x6d, 0x69, 0x74, 0x20, 0x31, 0x30,
       0x30, 0x30] },
   { statusCode := 200, body := List.replicate 40 0x78 }]

def capMoves : List (Move (ExecuteJob OkObject) Empty) :=
  .spawn (spendJob "request-1") :: List.replicate 50 (.run 0)

/-- The provider's cap of 1000 tokens is sent in place of the request's four, and
    ten tokens are charged to a reservation of four. -/
theorem raised_output_overspends :
    (∀ e ∈ FleetPool.trace spendHandle (spendStart capReplies) capMoves,
      e.1.scope = "agent" ∧ e.1.limit = some 8) ∧
    ((budgetCalls (FleetPool.trace spendHandle (spendStart capReplies) capMoves)).filterMap
      BudgetCall.reserves).Nodup ∧
    (∀ e ∈ FleetPool.trace spendHandle (spendStart capReplies) capMoves,
      honest spendUpstream e.2 ∧ shows Priced e.2 ∧ compacts e.2) ∧
    NoSlack "agent" 8 (budgetCalls (FleetPool.trace spendHandle (spendStart capReplies) capMoves)) ∧
    .reserve "request-1:att_01" "agent" 4 8 ∈
      budgetCalls (FleetPool.trace spendHandle (spendStart capReplies) capMoves) ∧
    .settle "request-1:att_01" 10 ∈
      budgetCalls (FleetPool.trace spendHandle (spendStart capReplies) capMoves) ∧
    (FleetPool.history spendHandle (spendStart capReplies) capMoves).store.spentOn "agent" = 14 := by
  refine ⟨?_, ?_, ?_, ?_, ?_, ?_, ?_⟩ <;> decide +kernel

end Sample

end DuraLLM
