import DuraLLM.Breaker.CircuitBreaker
import DuraLLM.Lib.Dict
import DuraLLM.Protocol.Ir

/-! # Candidate selection

`CapabilityRouter.select_candidate`: the endpoints of a pool are evaluated one
after another, the eligible ones are ordered by the strategy, and one of them is
chosen.  What the dead list, the health store, the requirements, the lanes, the
breakers and the scorer say of an endpoint is `assess`, which may leave traces
in their states.
-/

namespace DuraLLM

/-- The registered endpoints in the order of their first registration; the
    registry keeps one for each id. -/
structure CapabilityRegistry where
  endpoints : List Endpoint
  nodupIds : (endpoints.map (·.id)).Nodup
  profiles : Dict String ModelProfile := .empty
  aliases : Dict String String := .empty

def CapabilityRegistry.endpointsForPool (registry : CapabilityRegistry) (pool : String) :
    List Endpoint :=
  registry.endpoints.filter fun e => e.pool = pool

structure CandidateEvaluation where
  endpointId : String
  provider : String
  model : String
  eligible : Bool
  exclusionReason : Option String := none
  breakerState : CircuitBreakerState := .closed
  hardConstraintsPassed : Bool := true
  healthScore : ℚ := 1
  latencyScore : ℚ := 1
  costScore : ℚ := 1
  finalScore : ℚ := 0
  rank : Nat := 0
  isColdStart : Bool := false
  observedLatencyMs : Option ℚ := none
  resourceLane : Option String := none
  resourceLaneAvailable : Bool := true
  tokenizerId : Option String := none
  tokenizerRevision : Option String := none
  preflightRequiresCompaction : Bool := false
  expectedQualityScore : Option ℚ := none
  qualityConfidence : ℚ := 0
  qualityProvenance : Option String := none
  degradationRequired : Bool := false
  warmCache : Bool := false
  deriving DecidableEq

structure RoutingDecision where
  requestId : String := ""
  strategy : String := "balanced"
  selectedEndpoint : Option Endpoint := none
  evaluatedCandidates : List CandidateEvaluation := []
  totalConsidered : Nat := 0
  totalEligible : Nat := 0
  fallbackReason : Option FallbackReason := none
  shadowRecommendedEndpoint : Option String := none
  shadowRecommendedScore : Option ℚ := none
  shadowAbstained : Bool := true
  shadowReason : Option String := none
  deriving DecidableEq

structure CapabilityRouter where
  registry : CapabilityRegistry
  defaultStrategy : String := "balanced"
  roundRobinIndices : Dict String Nat := .empty
  deadList : List String := []

abbrev Candidate := Endpoint × CandidateEvaluation

namespace CapabilityRouter

/-! ## The pipeline -/

section Evaluate

variable {σ : Type} (assess : Endpoint → σ → CandidateEvaluation × σ) (exclusions : List String)

/-- Manual exclusion comes before every other check. -/
def evaluateCandidate (endpoint : Endpoint) (w : σ) : CandidateEvaluation × σ :=
  if endpoint.id ∈ exclusions then
    ({ endpointId := endpoint.id
       provider := endpoint.provider
       model := endpoint.model
       eligible := false
       exclusionReason := some "Excluded by attempt ledger or recent failure" }, w)
  else assess endpoint w

def evaluateCandidates : List Endpoint → σ → List Candidate × σ
  | [], w => ([], w)
  | endpoint :: rest, w =>
      let (evaluation, w) := evaluateCandidate assess exclusions endpoint w
      let (evaluations, w) := evaluateCandidates rest w
      ((endpoint, evaluation) :: evaluations, w)

end Evaluate

/-! ## Strategies -/

/-- The key of the `priority` strategy, compared from the left. For a small
    context every candidate has the same tier. -/
def priorityKey (isLargeContext : Bool) (candidate : Candidate) : Nat × Int × ℚ :=
  let (endpoint, evaluation) := candidate
  let window := orNumber (endpoint.profile.map (·.contextWindow)) 65536
  let isGroq := endpoint.provider.toLower = "groq"
  let tier :=
    if !isLargeContext then 0
    else if 200000 ≤ window ∧ ¬isGroq then 0
    else if isGroq then 1
    else 2
  (tier, endpoint.priority, -evaluation.finalScore)

def priorityLe (isLargeContext : Bool) (a b : Candidate) : Bool :=
  let (tier, priority, score) := priorityKey isLargeContext a
  let (tier', priority', score') := priorityKey isLargeContext b
  tier < tier' ∨ (tier = tier' ∧ (priority < priority' ∨ (priority = priority' ∧ score ≤ score')))

/-- A stable sort with the highest score first. -/
def byScore (score : CandidateEvaluation → ℚ) (eligible : List Candidate) : List Candidate :=
  eligible.mergeSort fun a b => score b.2 ≤ score a.2

/-- The eligible candidates in the order of the strategy. Round robin keeps the
    order of the pool. -/
def order (strategy : String) (isLargeContext : Bool) (eligible : List Candidate) :
    List Candidate :=
  if strategy = "priority" then eligible.mergeSort (priorityLe isLargeContext)
  else if strategy = "round_robin" then eligible
  else if strategy = "latency_aware" then byScore (·.latencyScore) eligible
  else if strategy = "cost_aware" then byScore (·.costScore) eligible
  else if strategy = "reliability_aware" then byScore (·.healthScore) eligible
  else byScore (·.finalScore) eligible

/-- The position of the selected candidate in that order. -/
def position (router : CapabilityRouter) (strategy pool : String) (eligible : Nat) : Nat :=
  if strategy = "round_robin" then (router.roundRobinIndices.get pool).getD 0 % eligible else 0

def turnRoundRobin (router : CapabilityRouter) (strategy pool : String) (eligible : Nat) :
    CapabilityRouter :=
  if strategy = "round_robin" then
    { router with
      roundRobinIndices :=
        router.roundRobinIndices.set pool
          ((router.position strategy pool eligible + 1) % eligible) }
  else router

/-- The evaluations in the order of the pool, with the ranks of the eligible. -/
def ranked (evaluations ordered : List Candidate) : List CandidateEvaluation :=
  evaluations.map fun (endpoint, evaluation) =>
    { evaluation with
      rank :=
        if evaluation.eligible then (ordered.findIdx fun c => c.1.id = endpoint.id) + 1
        else evaluation.rank }

section Select

variable {σ : Type} (assess : RequirementVector → Endpoint → σ → CandidateEvaluation × σ)

def selectCandidate (router : CapabilityRouter) (requirements : RequirementVector) (pool : String)
    (strategy : Option String) (requestId : String) (excludedEndpoints : List String)
    (fallbackReason : Option FallbackReason) (w : σ) :
    (Option Endpoint × RoutingDecision) × CapabilityRouter × σ :=
  let strat := orText strategy router.defaultStrategy
  let endpoints := router.registry.endpointsForPool pool
  let (evaluations, w) := evaluateCandidates (assess requirements) excludedEndpoints endpoints w
  let eligible := evaluations.filter (·.2.eligible)
  let ordered := order strat (5000 < requirements.estimatedInputTokens) eligible
  let selected := (ordered[router.position strat pool eligible.length]?).map (·.1)
  let decision : RoutingDecision :=
    { requestId
      strategy := strat
      selectedEndpoint := selected
      evaluatedCandidates := ranked evaluations ordered
      totalConsidered := endpoints.length
      totalEligible := eligible.length
      fallbackReason }
  ((selected, decision),
    if eligible.isEmpty then router else router.turnRoundRobin strat pool eligible.length, w)

end Select

/-! ## What selection guarantees -/

section Sound

variable {σ : Type} {assess : Endpoint → σ → CandidateEvaluation × σ} {exclusions : List String}

theorem evaluateCandidate_excluded {endpoint : Endpoint} (excluded : endpoint.id ∈ exclusions)
    (w : σ) : (evaluateCandidate assess exclusions endpoint w).1.eligible = false := by
  simp [evaluateCandidate, excluded]

theorem eligible_evaluated {endpoints : List Endpoint} {w : σ} {candidate : Candidate}
    (member : candidate ∈ (evaluateCandidates assess exclusions endpoints w).1)
    (eligible : candidate.2.eligible) :
    candidate.1 ∈ endpoints ∧ candidate.1.id ∉ exclusions := by
  induction endpoints generalizing w with
  | nil => simp [evaluateCandidates] at member
  | cons endpoint rest ih =>
      simp only [evaluateCandidates, List.mem_cons] at member
      rcases member with rfl | later
      · refine ⟨List.mem_cons_self, fun excluded => ?_⟩
        simp [evaluateCandidate_excluded excluded] at eligible
      · obtain ⟨found, admitted⟩ := ih later
        exact ⟨List.mem_cons_of_mem _ found, admitted⟩

theorem mem_order {strategy : String} {isLargeContext : Bool} {eligible : List Candidate}
    {candidate : Candidate} (member : candidate ∈ order strategy isLargeContext eligible) :
    candidate ∈ eligible := by
  unfold order byScore at member
  split_ifs at member <;> simpa using member

end Sound

/-- The selected endpoint is one of the pool's and not excluded. -/
theorem selected_admissible {σ : Type}
    {assess : RequirementVector → Endpoint → σ → CandidateEvaluation × σ}
    {router : CapabilityRouter} {requirements : RequirementVector} {pool : String}
    {strategy : Option String} {requestId : String} {excludedEndpoints : List String}
    {fallbackReason : Option FallbackReason} {w : σ} {endpoint : Endpoint}
    (selected : (router.selectCandidate assess requirements pool strategy requestId
      excludedEndpoints fallbackReason w).1.1 = some endpoint) :
    endpoint ∈ router.registry.endpointsForPool pool ∧ endpoint.id ∉ excludedEndpoints := by
  simp only [selectCandidate, Option.map_eq_some_iff] at selected
  obtain ⟨candidate, located, rfl⟩ := selected
  have member := mem_order (List.mem_of_getElem? located)
  obtain ⟨evaluated, eligible⟩ := List.mem_filter.mp member
  exact eligible_evaluated evaluated eligible

theorem selectCandidate_registry {σ : Type} (router : CapabilityRouter)
    (assess : RequirementVector → Endpoint → σ → CandidateEvaluation × σ)
    (requirements : RequirementVector) (pool : String) (strategy : Option String)
    (requestId : String) (excludedEndpoints : List String) (fallbackReason : Option FallbackReason)
    (w : σ) :
    (router.selectCandidate assess requirements pool strategy requestId excludedEndpoints
      fallbackReason w).2.1.registry = router.registry := by
  simp only [selectCandidate]
  split
  · rfl
  · unfold turnRoundRobin
    split <;> rfl

end CapabilityRouter

end DuraLLM
