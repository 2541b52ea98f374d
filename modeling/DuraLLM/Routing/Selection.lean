import DuraLLM.Routing.Quality
import DuraLLM.Routing.Resources
import DuraLLM.Routing.Router

/-! # What the router checks

The checks that `select_candidate` makes of one endpoint, with the stores they
read.  A call of `select_candidate` reads the wall clock once; each breaker
keeps reading a clock of its own.
-/

namespace DuraLLM

/-! ## Scores -/

structure RoutingScorer where
  wQuality : ℚ := 3 / 10
  wReliability : ℚ := 3 / 10
  wLatency : ℚ := 2 / 10
  wCost : ℚ := 2 / 10
  coldStartLatencyScore : ℚ := 8 / 10

namespace RoutingScorer

def reliabilityScore (breakerState : CircuitBreakerState) (health : EndpointHealthSnapshot) : ℚ :=
  match breakerState with
  | .open | .forcedOpen => 0
  | .halfOpen => 1 / 2
  | .closed | .disabled | .metricsOnly =>
      if 0 < health.totalCalls then
        5 / 10 * health.successRate + 3 / 10 * health.toolSuccessRate +
          2 / 10 * health.semanticSuccessRate
      else 1

def costScore : Option ModelProfile → ℚ
  | none => 8 / 10
  | some profile =>
      if profile.isFree then 1
      else if 0 < profile.inputPricePer1m then
        max (1 / 10) (min 1 (1 / (1 + profile.inputPricePer1m)))
      else 8 / 10

def qualityScore : Option ModelProfile → ℚ
  | none => 5 / 10
  | some profile =>
      2 / 10 + (if profile.supportsTools = some true then 3 / 10 else 0) +
        (if profile.supportsReasoning then 2 / 10 else 0) +
        min (3 / 10) (profile.contextWindow / 1000000)

def scoreCandidate (scorer : RoutingScorer) (endpoint : Endpoint)
    (breakerState : CircuitBreakerState) (health : EndpointHealthSnapshot) (warmCache : Bool) :
    CandidateEvaluation :=
  let reliability := reliabilityScore breakerState health
  let latency :=
    match health.emaLatencyMs with
    | some observed => max 0 (min 1 (1 - observed / 5000))
    | none => scorer.coldStartLatencyScore
  let cost := costScore endpoint.profile
  let final := scorer.wQuality * qualityScore endpoint.profile + scorer.wReliability * reliability +
    scorer.wLatency * latency + scorer.wCost * cost
  { endpointId := endpoint.id
    provider := endpoint.provider
    model := endpoint.model
    eligible := true
    breakerState
    healthScore := reliability
    latencyScore := latency
    costScore := cost
    finalScore := if warmCache then final + 25 / 100 else final
    isColdStart := health.emaLatencyMs.isNone
    observedLatencyMs := health.emaLatencyMs
    warmCache }

end RoutingScorer

/-! ## Stores -/

/-- When the prompt cache of an endpoint goes cold, by its prefix hash. -/
abbrev PromptCacheTracker := Dict (String × String) Seconds

/-- A cache that has gone cold is forgotten. -/
def PromptCacheTracker.isWarm (entries : PromptCacheTracker) (endpointId prefixHash : String)
    (now : Seconds) : Bool × PromptCacheTracker :=
  match entries.get (endpointId, prefixHash) with
  | none => (false, entries)
  | some expiry =>
      if expiry ≤ now then (false, entries.erase (endpointId, prefixHash)) else (true, entries)

structure RouterStores where
  health : HealthTelemetryStore := Dict.empty
  lanes : ResourceLaneStore := Dict.empty
  breakers : Dict String CircuitBreaker := .empty
  cache : PromptCacheTracker := Dict.empty

/-- What the checks read from outside. -/
structure RouterReads where
  now : Seconds
  casing : Casing
  breakerWorld : String → BreakerWorld
  breakerConfig : CircuitBreakerConfig := {}

namespace RouterStores

variable (reads : RouterReads) (stores : RouterStores)

/-- The breaker of the endpoint, a new one when there is none. -/
def breaker (endpoint : Endpoint) : CircuitBreaker :=
  (stores.breakers.get endpoint.resourceKey).getD
    (CircuitBreaker.new endpoint.resourceKey reads.breakerConfig)

/-- What the breaker says when it is asked now. -/
def breakerState (endpoint : Endpoint) : CircuitBreakerState :=
  ((stores.breaker reads endpoint).observe (reads.breakerWorld endpoint.resourceKey)).1

def healthOf (endpoint : Endpoint) : EndpointHealthSnapshot :=
  stores.health.snapshot endpoint.id endpoint.provider endpoint.model

/-- `get_or_create` of the health store. -/
def createHealth (endpoint : Endpoint) : RouterStores :=
  { stores with
    health := (stores.health.getOrCreate endpoint.id endpoint.provider endpoint.model).2 }

end RouterStores

def CapabilityRegistry.makeKey (casing : Casing) (provider model : String) : String :=
  casing.lower provider ++ ":" ++ casing.lower model

/-- The profile under the exact key, under the key of an alias, or one that
    declares nothing. -/
def CapabilityRegistry.getProfile (registry : CapabilityRegistry) (casing : Casing)
    (provider model : String) : ModelProfile :=
  let key := makeKey casing provider model
  match registry.profiles.get key with
  | some profile => profile
  | none =>
      ((registry.aliases.get key).bind registry.profiles.get).getD
        { provider, model
          contextWindow := 32768
          maxOutputTokens := 4096
          supportsTools := none
          supportsParallelTools := none
          supportsStructuredOutput := none }

/-! ## The checks -/

namespace CapabilityRouter

variable (router : CapabilityRouter) (reads : RouterReads) (policy : ShadowQualityPolicy)
  (requirements : RequirementVector) (endpoint : Endpoint) (stores : RouterStores)

/-- The endpoint, or its model, has been written off. -/
def Dead : Prop :=
  endpoint.id ∈ router.deadList ∨
    (endpoint.provider ≠ "" ∧ endpoint.model ≠ "" ∧
      endpoint.provider ++ ":" ++ endpoint.model ∈ router.deadList) ∨
    (stores.healthOf endpoint).isDead

instance : Decidable (router.Dead endpoint stores) :=
  inferInstanceAs (Decidable (_ ∨ _ ∨ _))

def profileOf : ModelProfile :=
  endpoint.profile.getD
    (router.registry.getProfile reads.casing endpoint.provider endpoint.model)

def preflight : TokenizerPreflight :=
  preflightContext (router.profileOf reads endpoint) requirements.estimatedInputTokens
    requirements.expectedOutputTokens requirements.safetyMarginTokens
    requirements.allowContextCompaction

/-- The record of an endpoint that is left out. -/
def leftOut (reason : String) : CandidateEvaluation where
  endpointId := endpoint.id
  provider := endpoint.provider
  model := endpoint.model
  eligible := false
  exclusionReason := some reason

/-- The quality estimate is written into the record of an eligible endpoint. -/
def withQuality (evaluation : CandidateEvaluation) : CandidateEvaluation :=
  match policy.estimate endpoint requirements.taskClass reads.now with
  | none => evaluation
  | some quality =>
      { evaluation with
        expectedQualityScore := some quality.score
        qualityConfidence := quality.confidence
        qualityProvenance := some quality.provenance
        degradationRequired := ∃ minimum ∈ requirements.minimumQualityScore, quality.score < minimum }

/-- Soft scoring, with the prompt cache. -/
def scored (state : CircuitBreakerState) : CandidateEvaluation × RouterStores :=
  let (warm, cache) :=
    match requirements.prefixHash with
    | none => (false, stores.cache)
    | some hash =>
        if hash = "" then (false, stores.cache) else stores.cache.isWarm endpoint.id hash reads.now
  let preflight := router.preflight reads requirements endpoint
  let evaluation := RoutingScorer.scoreCandidate {} endpoint state (stores.healthOf endpoint) warm
  (withQuality reads policy requirements endpoint
    { evaluation with
      resourceLane := endpoint.resourceLane
      resourceLaneAvailable := true
      tokenizerId := some preflight.tokenizerId
      tokenizerRevision := preflight.tokenizerRevision
      preflightRequiresCompaction := preflight.requiresCompaction },
    { stores with cache })

/-- Half-open breakers are left to the admission of probes. -/
def assessBreaker : CandidateEvaluation × RouterStores :=
  let (state, breaker) :=
    (stores.breaker reads endpoint).observe (reads.breakerWorld endpoint.resourceKey)
  let stores' := { stores with breakers := stores.breakers.set endpoint.resourceKey breaker }
  if state = .open then
    ({ leftOut endpoint "Circuit breaker is OPEN" with
        breakerState := state
        isColdStart := (stores.healthOf endpoint).isColdStart }, stores')
  else if state = .forcedOpen then
    ({ leftOut endpoint "Circuit breaker is FORCED_OPEN" with
        breakerState := state
        isColdStart := (stores.healthOf endpoint).isColdStart }, stores')
  else router.scored reads policy requirements endpoint stores' state

/-- Rate limits and quotas are scoped to the lane. -/
def assessLane : CandidateEvaluation × RouterStores :=
  match endpoint.resourceLane with
  | none => router.assessBreaker reads policy requirements endpoint stores
  | some lane =>
      let (status, lanes) := ResourceLaneStore.status stores.lanes lane reads.now
      let stores := { stores with lanes }
      if status.available then router.assessBreaker reads policy requirements endpoint stores
      else
        let preflight := router.preflight reads requirements endpoint
        let detail :=
          match status.reason with
          | none => ""
          | some reason => if reason = "" then "" else ": " ++ reason
        ({ leftOut endpoint ("Resource lane '" ++ lane ++ "' unavailable" ++ detail) with
            isColdStart := (stores.healthOf endpoint).isColdStart
            resourceLane := some lane
            resourceLaneAvailable := false
            tokenizerId := some preflight.tokenizerId
            tokenizerRevision := preflight.tokenizerRevision
            preflightRequiresCompaction := preflight.requiresCompaction }, stores)

/-- Quota, hard constraints and context. -/
def assessLive : CandidateEvaluation × RouterStores :=
  let profile := router.profileOf reads endpoint
  let health := stores.healthOf endpoint
  if health.isQuotaExhausted reads.now then
    ({ leftOut endpoint ("Endpoint daily quota exhausted (resets at " ++
          fixedPlaces 0 health.quotaExhaustedUntil ++ ")") with
        isColdStart := health.isColdStart }, stores)
  else
    match RequirementVector.matchesHardConstraints reads.casing requirements profile health
        reads.now with
    | some reason =>
        ({ leftOut endpoint reason with
            hardConstraintsPassed := false
            isColdStart := health.isColdStart }, stores)
    | none =>
        let preflight := router.preflight reads requirements endpoint
        if preflight.compatible then
          router.assessLane reads policy requirements endpoint stores
        else
          ({ leftOut endpoint (preflight.reason.getD "") with
              exclusionReason := preflight.reason
              hardConstraintsPassed := false
              isColdStart := health.isColdStart
              resourceLane := endpoint.resourceLane
              tokenizerId := some preflight.tokenizerId
              tokenizerRevision := preflight.tokenizerRevision
              preflightRequiresCompaction := preflight.requiresCompaction }, stores)

/-- The dead list comes before everything that reads a profile. -/
def assess : CandidateEvaluation × RouterStores :=
  if router.Dead endpoint stores then
    let stores := stores.createHealth endpoint
    (leftOut endpoint ("DeadList pre-flight short-circuit: " ++
      orText (stores.healthOf endpoint).deadReason
        "Permanently blacklisted dead model / configuration error"), stores)
  else router.assessLive reads policy requirements endpoint (stores.createHealth endpoint)

/-- `select_candidate`, with the recommendation that is recorded beside the
    selection. -/
def select (pool : String) (strategy : Option String) (requestId : String)
    (excludedEndpoints : List String) (fallbackReason : Option FallbackReason) :
    (Option Endpoint × RoutingDecision) × CapabilityRouter × RouterStores :=
  let ((selected, decision), router', stores') :=
    router.selectCandidate (router.assess reads policy) requirements pool strategy requestId
      excludedEndpoints fallbackReason stores
  let shadow := policy.recommend (router.registry.endpointsForPool pool) requirements.taskClass
    reads.now
  ((selected,
    { decision with
      shadowRecommendedEndpoint := shadow.endpointId
      shadowRecommendedScore := shadow.score
      shadowAbstained := shadow.abstained
      shadowReason := some shadow.reason }), router', stores')

end CapabilityRouter

end DuraLLM
