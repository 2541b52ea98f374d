import DuraLLM.Lib.Unwinding
import DuraLLM.Routing.Eligibility

/-! # Shadow quality does not steer

The quality estimates end up in the same records that the strategies sort.
`withoutQuality` takes them out again: what is left does not depend on the
policy, and neither do the selection and the state of the router.
-/

namespace DuraLLM

def CandidateEvaluation.withoutQuality (evaluation : CandidateEvaluation) : CandidateEvaluation :=
  { evaluation with
    expectedQualityScore := none
    qualityConfidence := 0
    qualityProvenance := none
    degradationRequired := false }

/-- The decision without what it records for comparison only. -/
def RoutingDecision.withoutShadow (decision : RoutingDecision) : RoutingDecision :=
  { decision with
    evaluatedCandidates := decision.evaluatedCandidates.map (·.withoutQuality)
    shadowRecommendedEndpoint := none
    shadowRecommendedScore := none
    shadowAbstained := true
    shadowReason := none }

namespace CapabilityRouter

/-! ## One endpoint -/

/-- An evaluation and the stores, as far as the selection goes. -/
def bare (result : CandidateEvaluation × RouterStores) : CandidateEvaluation × RouterStores :=
  (result.1.withoutQuality, result.2)

section Endpoint

variable {router : CapabilityRouter} {reads : RouterReads} {requirements : RequirementVector}
  {endpoint : Endpoint} (policy policy' : ShadowQualityPolicy)

theorem withQuality_withoutQuality (evaluation : CandidateEvaluation) :
    (withQuality reads policy requirements endpoint evaluation).withoutQuality =
      evaluation.withoutQuality := by
  unfold withQuality
  split <;> rfl

theorem scored_bare (stores : RouterStores) (state : CircuitBreakerState) :
    bare (router.scored reads policy requirements endpoint stores state) =
      bare (router.scored reads policy' requirements endpoint stores state) := by
  simp only [bare, scored, withQuality_withoutQuality]

theorem assessBreaker_bare (stores : RouterStores) :
    bare (router.assessBreaker reads policy requirements endpoint stores) =
      bare (router.assessBreaker reads policy' requirements endpoint stores) := by
  simp only [assessBreaker]
  split
  · rfl
  · split
    · rfl
    · exact scored_bare policy policy' _ _

theorem assessLane_bare (stores : RouterStores) :
    bare (router.assessLane reads policy requirements endpoint stores) =
      bare (router.assessLane reads policy' requirements endpoint stores) := by
  unfold assessLane
  split
  · exact assessBreaker_bare policy policy' _
  · simp only
    split
    · exact assessBreaker_bare policy policy' _
    · rfl

theorem assess_bare (stores : RouterStores) :
    bare (router.assess reads policy requirements endpoint stores) =
      bare (router.assess reads policy' requirements endpoint stores) := by
  unfold assess
  split
  · rfl
  · simp only [assessLive]
    split
    · rfl
    · split
      · rfl
      · split
        · exact assessLane_bare policy policy' _
        · rfl

/-- The candidates, as far as the selection goes. -/
def bareAll (result : List Candidate × RouterStores) : List Candidate × RouterStores :=
  (result.1.map fun candidate => (candidate.1, candidate.2.withoutQuality), result.2)

variable (router reads requirements) in
theorem evaluateCandidates_bare (exclusions : List String) (endpoints : List Endpoint)
    (stores : RouterStores) :
    bareAll (evaluateCandidates (router.assess reads policy requirements) exclusions endpoints
      stores) =
    bareAll (evaluateCandidates (router.assess reads policy' requirements) exclusions endpoints
      stores) := by
  induction endpoints generalizing stores with
  | nil => rfl
  | cons endpoint rest ih =>
      have first : bare (evaluateCandidate (router.assess reads policy requirements) exclusions
          endpoint stores) = bare (evaluateCandidate (router.assess reads policy' requirements)
            exclusions endpoint stores) := by
        unfold evaluateCandidate
        split
        · rfl
        · exact assess_bare policy policy' stores
      have evaluation := congrArg Prod.fst first
      have after := congrArg Prod.snd first
      simp only [bare] at evaluation after
      have later := ih (evaluateCandidate (router.assess reads policy' requirements) exclusions
        endpoint stores).2
      simp only [bareAll, Prod.mk.injEq] at later
      simp only [bareAll, evaluateCandidates, List.map_cons, evaluation, after, later.1, later.2]

end Endpoint

/-! ## The selection -/

abbrev stripped (candidates : List Candidate) : List Candidate :=
  candidates.map fun candidate => (candidate.1, candidate.2.withoutQuality)

/-- The strategies do not look at quality. -/
theorem order_stripped (strategy : String) (isLargeContext : Bool) (eligible : List Candidate) :
    stripped (order strategy isLargeContext eligible) =
      order strategy isLargeContext (stripped eligible) := by
  have sorts : ∀ le : Candidate → Candidate → Bool,
      (∀ a b, le a b = le (a.1, a.2.withoutQuality) (b.1, b.2.withoutQuality)) →
        stripped (eligible.mergeSort le) = (stripped eligible).mergeSort le :=
    fun le blind => List.map_mergeSort fun a _ b _ => blind a b
  unfold order byScore
  split_ifs
  · exact sorts _ fun _ _ => rfl
  · rfl
  · exact sorts _ fun _ _ => rfl
  · exact sorts _ fun _ _ => rfl
  · exact sorts _ fun _ _ => rfl
  · exact sorts _ fun _ _ => rfl

theorem ranked_stripped (evaluations ordered : List Candidate) :
    (ranked evaluations ordered).map (·.withoutQuality) =
      ranked (stripped evaluations) (stripped ordered) := by
  simp only [ranked, stripped, List.map_map, List.findIdx_map]
  rfl

variable (router : CapabilityRouter) (reads : RouterReads) (requirements : RequirementVector)
  (stores : RouterStores) (pool : String) (strategy : Option String) (requestId : String)
  (excludedEndpoints : List String) (fallbackReason : Option FallbackReason)

/-- A selection without what is recorded for comparison. -/
def outcome (result : (Option Endpoint × RoutingDecision) × CapabilityRouter × RouterStores) :
    (Option Endpoint × RoutingDecision) × CapabilityRouter × RouterStores :=
  ((result.1.1, result.1.2.withoutShadow), result.2)

/-- Whatever the policy has observed, `select_candidate` selects the same
    endpoint, with the same eligibility, scores and ranks, and leaves the same
    state. -/
theorem select_outcome (policy policy' : ShadowQualityPolicy) :
    outcome (router.select reads policy requirements stores pool strategy requestId
      excludedEndpoints fallbackReason) =
    outcome (router.select reads policy' requirements stores pool strategy requestId
      excludedEndpoints fallbackReason) := by
  have same := evaluateCandidates_bare router reads requirements policy policy' excludedEndpoints
    (router.registry.endpointsForPool pool) stores
  simp only [outcome, select, selectCandidate, RoutingDecision.withoutShadow]
  generalize evaluateCandidates (router.assess reads policy requirements) excludedEndpoints
    (router.registry.endpointsForPool pool) stores = mine at same
  generalize evaluateCandidates (router.assess reads policy' requirements) excludedEndpoints
    (router.registry.endpointsForPool pool) stores = theirs at same
  obtain ⟨evaluations, after⟩ := mine
  obtain ⟨evaluations', after'⟩ := theirs
  simp only [bareAll, Prod.mk.injEq] at same
  obtain ⟨sameEvaluations, rfl⟩ := same
  have eligible : stripped (evaluations.filter (·.2.eligible)) =
      stripped (evaluations'.filter (·.2.eligible)) := by
    have filters : ∀ candidates : List Candidate,
        stripped (candidates.filter (·.2.eligible)) =
          (stripped candidates).filter (·.2.eligible) := fun candidates =>
      (List.filter_map (p := fun candidate : Candidate => candidate.2.eligible)).symm
    rw [filters, filters]
    exact congrArg (List.filter _) sameEvaluations
  have count : (evaluations.filter (·.2.eligible)).length =
      (evaluations'.filter (·.2.eligible)).length := by
    simpa using congrArg List.length eligible
  have none : (evaluations.filter (·.2.eligible)).isEmpty =
      (evaluations'.filter (·.2.eligible)).isEmpty := by
    rw [Bool.eq_iff_iff, List.isEmpty_iff_length_eq_zero, List.isEmpty_iff_length_eq_zero, count]
  have ordered : ∀ strat large, stripped (order strat large (evaluations.filter (·.2.eligible))) =
      stripped (order strat large (evaluations'.filter (·.2.eligible))) := by
    intro strat large
    rw [order_stripped, order_stripped, eligible]
  have chosen : ∀ strat large (position : Nat),
      ((order strat large (evaluations.filter (·.2.eligible)))[position]?).map (·.1) =
        ((order strat large (evaluations'.filter (·.2.eligible)))[position]?).map (·.1) := by
    intro strat large position
    have at_ := congrArg (fun candidates : List Candidate => (candidates[position]?).map (·.1))
      (ordered strat large)
    simpa only [List.getElem?_map, Option.map_map, Function.comp_def] using at_
  simp only [chosen, count, none, ranked_stripped, ordered, sameEvaluations, stripped]

/-! ## Sequences of requests -/

/-- A request for a candidate. -/
structure SelectRequest where
  reads : RouterReads
  requirements : RequirementVector
  pool : String
  strategy : Option String
  requestId : String
  excludedEndpoints : List String
  fallbackReason : Option FallbackReason

inductive RoutingCall where
  | select (request : SelectRequest)
  | observe (endpoint : Endpoint) (taskClass : String) (estimate : QualityEstimate)

def RoutingCall.isSelect : RoutingCall → Bool
  | .select _ => true
  | .observe .. => false

structure RoutingState where
  router : CapabilityRouter
  stores : RouterStores
  policy : ShadowQualityPolicy

/-- What a request brings, and the state that it leaves to the router. -/
abbrev RoutingAnswer :=
  Option ((Option Endpoint × RoutingDecision) × CapabilityRouter × RouterStores)

def RoutingState.step (s : RoutingState) : RoutingCall → RoutingAnswer × RoutingState
  | .select request =>
      let result := s.router.select request.reads s.policy request.requirements s.stores
        request.pool request.strategy request.requestId request.excludedEndpoints
        request.fallbackReason
      (some (outcome result), { s with router := result.2.1, stores := result.2.2 })
  | .observe endpoint taskClass estimate =>
      (none, { s with policy := (s.policy.observe endpoint taskClass estimate).2 })

/-- Two states that only differ in the policy. -/
def SameRouting (s t : RoutingState) : Prop := s.router = t.router ∧ s.stores = t.stores

theorem unwinds : Unwinding.Unwinds RoutingState.step RoutingCall.isSelect (fun _ _ => True)
    (fun _ => SameRouting) where
  answer call s t mine same := by
    cases call with
    | observe => cases mine
    | select request =>
        obtain ⟨router, stores, policy⟩ := s
        obtain ⟨_, _, policy'⟩ := t
        obtain ⟨rfl, rfl⟩ := same
        exact congrArg some (select_outcome _ _ _ _ _ _ _ _ _ policy policy')
  both call later s t mine _ same := by
    cases call with
    | observe => cases mine
    | select request =>
        obtain ⟨router, stores, policy⟩ := s
        obtain ⟨_, _, policy'⟩ := t
        obtain ⟨rfl, rfl⟩ := same
        have after := congrArg Prod.snd (select_outcome router request.reads request.requirements
          stores request.pool request.strategy request.requestId request.excludedEndpoints
          request.fallbackReason policy policy')
        exact ⟨congrArg Prod.fst after, congrArg Prod.snd after⟩
  alone call later s t foreign _ same := by
    cases call with
    | select => cases foreign
    | observe => exact same

/-- Two runs of the router with the same requests, and any two policies that
    make any observations: every request brings the same outcome. -/
theorem shadow_quality_inert (policy policy' : ShadowQualityPolicy) {calls calls' : List RoutingCall}
    (same : calls.filter (·.isSelect) = calls'.filter (·.isSelect)) :
    Unwinding.answers RoutingState.step (·.isSelect) ⟨router, stores, policy⟩ calls =
      Unwinding.answers RoutingState.step (·.isSelect) ⟨router, stores, policy'⟩ calls' := by
  have purged : ∀ (policy : ShadowQualityPolicy) (calls : List RoutingCall),
      Unwinding.answers RoutingState.step (·.isSelect) ⟨router, stores, policy⟩ calls =
        Unwinding.answers RoutingState.step (·.isSelect) ⟨router, stores, {}⟩
          (calls.filter (·.isSelect)) := fun policy calls =>
    unwinds.answers_purged (List.pairwise_of_forall fun _ _ => trivial) fun _ _ => ⟨rfl, rfl⟩
  rw [purged policy calls, purged policy' calls', same]

private def shadowedEndpoint : Endpoint where
  id := "coding:x"
  provider := "groq"
  model := "x"
  pool := "coding"

private def shadowedRequest : RoutingCall :=
  .select
    { reads := { now := 0, casing := .ascii, breakerWorld := fun _ => { clock := fun _ => 0 } }
      requirements := { taskClass := "coding" }
      pool := "coding"
      strategy := none
      requestId := "req"
      excludedEndpoints := []
      fallbackReason := none }

/-- One run sees a poor quality of the only endpoint before the request. -/
theorem shadow_quality_inert_observed :
    Unwinding.answers RoutingState.step (·.isSelect) ⟨⟨⟨[shadowedEndpoint], by decide, .empty, .empty⟩,
        "balanced", .empty, []⟩, {}, {}⟩
        [.observe shadowedEndpoint "coding" ⟨0, 1, "eval", none⟩, shadowedRequest] =
      Unwinding.answers RoutingState.step (·.isSelect) ⟨⟨⟨[shadowedEndpoint], by decide, .empty, .empty⟩,
        "balanced", .empty, []⟩, {}, {}⟩ [shadowedRequest] :=
  shadow_quality_inert _ _ {} {} rfl

end CapabilityRouter

end DuraLLM
