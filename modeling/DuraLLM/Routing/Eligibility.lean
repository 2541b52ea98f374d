import DuraLLM.Routing.Selection

/-! # Which endpoints are eligible

Soundness and completeness of `select_candidate`: an endpoint of the pool is
marked eligible exactly when it passes every filter.  The endpoints are
evaluated one after another, and each evaluation may leave traces in the
stores: a fresh health snapshot, a lane whose outage is over, a breaker that
has moved on.  The first two make no difference to a later endpoint; a breaker
is what it says when the endpoint's turn comes.
-/

namespace DuraLLM

namespace CapabilityRouter

variable (router : CapabilityRouter) (reads : RouterReads) (policy : ShadowQualityPolicy)
  (requirements : RequirementVector) (exclusions : List String)

/-- The endpoint passes every filter; `breaker` is the state that its breaker
    reports at its turn. -/
structure Admissible (stores : RouterStores) (endpoint : Endpoint)
    (breaker : CircuitBreakerState) : Prop where
  notExcluded : endpoint.id ∉ exclusions
  alive : ¬router.Dead endpoint stores
  quota : (stores.healthOf endpoint).isQuotaExhausted reads.now = false
  constraints : RequirementVector.Satisfies reads.casing requirements
    (router.profileOf reads endpoint) (stores.healthOf endpoint) reads.now
  context : FitsContext (router.profileOf reads endpoint) requirements.estimatedInputTokens
    requirements.expectedOutputTokens requirements.safetyMarginTokens
    requirements.allowContextCompaction
  lane : ∀ lane ∈ endpoint.resourceLane, ResourceLaneStore.Available stores.lanes lane reads.now
  breaker : breaker ≠ .open ∧ breaker ≠ .forcedOpen

/-! ## One endpoint -/

section Endpoint

variable {router reads policy requirements exclusions} {endpoint : Endpoint}
  {stores : RouterStores}

theorem assessBreaker_eligible :
    (router.assessBreaker reads policy requirements endpoint stores).1.eligible = true ↔
      stores.breakerState reads endpoint ≠ .open ∧ stores.breakerState reads endpoint ≠ .forcedOpen := by
  have scored : ∀ stores state,
      (router.scored reads policy requirements endpoint stores state).1.eligible = true := by
    intro stores state
    simp only [scored, withQuality]
    split <;> rfl
  simp only [assessBreaker, RouterStores.breakerState]
  split
  · next opened => simp [leftOut, opened]
  · next shut =>
    split
    · next forced => simp [leftOut, forced]
    · next free => simp [scored, shut, free]

theorem assessLane_eligible :
    (router.assessLane reads policy requirements endpoint stores).1.eligible = true ↔
      (∀ lane ∈ endpoint.resourceLane, ResourceLaneStore.Available stores.lanes lane reads.now) ∧
        stores.breakerState reads endpoint ≠ .open ∧
        stores.breakerState reads endpoint ≠ .forcedOpen := by
  unfold assessLane
  cases endpoint.resourceLane with
  | none => simp [assessBreaker_eligible]
  | some lane =>
      have asked := ResourceLaneStore.available_iff stores.lanes lane reads.now
      simp only [Option.mem_def, Option.some.injEq, forall_eq']
      split
      · next free => simp [assessBreaker_eligible, asked.mp free, RouterStores.breakerState,
          RouterStores.breaker]
      · next shut => simp [leftOut, mt asked.mpr shut]

theorem assessLive_eligible :
    (router.assessLive reads policy requirements endpoint stores).1.eligible = true ↔
      (stores.healthOf endpoint).isQuotaExhausted reads.now = false ∧
        RequirementVector.Satisfies reads.casing requirements (router.profileOf reads endpoint)
          (stores.healthOf endpoint) reads.now ∧
        (router.preflight reads requirements endpoint).compatible = true ∧
        (router.assessLane reads policy requirements endpoint stores).1.eligible = true := by
  simp only [assessLive]
  split
  · next exhausted => simp [leftOut, exhausted]
  · next quota =>
    simp only [Bool.not_eq_true] at quota
    split
    · next reason violated =>
      have unmet : ¬RequirementVector.Satisfies reads.casing requirements
          (router.profileOf reads endpoint) (stores.healthOf endpoint) reads.now := fun met => by
        rw [RequirementVector.matchesHardConstraints_iff.mpr met] at violated
        cases violated
      simp [leftOut, unmet]
    · next passed =>
      have met := RequirementVector.matchesHardConstraints_iff.mp passed
      split
      · next fits => simp [quota, met, fits]
      · next full => simp [leftOut, full]

theorem healthOf_createHealth (other : Endpoint) :
    (stores.createHealth other).healthOf other = stores.healthOf other := by
  simp only [RouterStores.healthOf, RouterStores.createHealth,
    HealthTelemetryStore.snapshot_getOrCreate_self]

/-- One evaluation: every filter, and no other. -/
theorem evaluateCandidate_eligible :
    (evaluateCandidate (router.assess reads policy requirements) exclusions endpoint
        stores).1.eligible = true ↔
      Admissible router reads requirements exclusions stores endpoint
        (stores.breakerState reads endpoint) := by
  unfold evaluateCandidate
  split
  · next excluded => exact iff_of_false (by simp) fun passes => passes.notExcluded excluded
  · next kept =>
    unfold assess
    split
    · next dead => exact iff_of_false (by simp [leftOut]) fun passes => passes.alive dead
    · next alive =>
      rw [assessLive_eligible, assessLane_eligible, healthOf_createHealth, preflight,
        preflightContext_compatible_iff]
      constructor
      · rintro ⟨quota, constraints, context, lane, breaker⟩
        exact ⟨kept, alive, quota, constraints, context, lane, breaker⟩
      · intro passes
        exact ⟨passes.quota, passes.constraints, passes.context, passes.lane, passes.breaker⟩

end Endpoint

/-! ## One after another -/

/-- What one evaluation leaves for the endpoints that are still to come. -/
structure Untouched (now : Seconds) (endpoints : List Endpoint) (before after : RouterStores) :
    Prop where
  health : ∀ endpoint ∈ endpoints, after.healthOf endpoint = before.healthOf endpoint
  lanes : ∀ lane, ResourceLaneStore.Available after.lanes lane now ↔
    ResourceLaneStore.Available before.lanes lane now

section Stores

variable (endpoint : Endpoint) (stores : RouterStores)

theorem assessBreaker_stores :
    (router.assessBreaker reads policy requirements endpoint stores).2.health = stores.health ∧
      (router.assessBreaker reads policy requirements endpoint stores).2.lanes = stores.lanes := by
  simp only [assessBreaker, scored]
  split
  · exact ⟨rfl, rfl⟩
  · split <;> exact ⟨rfl, rfl⟩

theorem assessLane_stores :
    (router.assessLane reads policy requirements endpoint stores).2.health = stores.health ∧
      ∀ lane, ResourceLaneStore.Available
          (router.assessLane reads policy requirements endpoint stores).2.lanes lane reads.now ↔
        ResourceLaneStore.Available stores.lanes lane reads.now := by
  unfold assessLane
  split
  · obtain ⟨health, lanes⟩ := assessBreaker_stores router reads policy requirements endpoint stores
    exact ⟨health, fun lane => by rw [lanes]⟩
  · next asked _ =>
    simp only
    split
    · obtain ⟨health, lanes⟩ := assessBreaker_stores router reads policy requirements endpoint
        { stores with lanes := (ResourceLaneStore.status stores.lanes asked reads.now).2 }
      exact ⟨health, fun lane => by rw [lanes, ResourceLaneStore.available_status]⟩
    · exact ⟨rfl, fun lane => ResourceLaneStore.available_status asked⟩

theorem assessLive_stores :
    (router.assessLive reads policy requirements endpoint stores).2.health = stores.health ∧
      ∀ lane, ResourceLaneStore.Available
          (router.assessLive reads policy requirements endpoint stores).2.lanes lane reads.now ↔
        ResourceLaneStore.Available stores.lanes lane reads.now := by
  simp only [assessLive]
  split
  · exact ⟨rfl, fun _ => .rfl⟩
  · split
    · exact ⟨rfl, fun _ => .rfl⟩
    · split
      · exact assessLane_stores router reads policy requirements endpoint stores
      · exact ⟨rfl, fun _ => .rfl⟩

variable {exclusions endpoint stores}

/-- Endpoints with other ids see the stores they would have seen before. -/
theorem evaluateCandidate_untouched {rest : List Endpoint}
    (fresh : endpoint.id ∉ rest.map (·.id)) :
    Untouched reads.now rest stores
      (evaluateCandidate (router.assess reads policy requirements) exclusions endpoint
        stores).2 := by
  have created : ∀ other ∈ rest, (stores.createHealth endpoint).healthOf other =
      stores.healthOf other := by
    intro other member
    have ne : other.id ≠ endpoint.id := fun same => fresh (same ▸ List.mem_map_of_mem member)
    exact HealthTelemetryStore.snapshot_getOrCreate_ne ne _ _ _ _
  unfold evaluateCandidate
  split
  · exact ⟨fun _ _ => rfl, fun _ => .rfl⟩
  · unfold assess
    split
    · exact ⟨created, fun _ => .rfl⟩
    · obtain ⟨health, lanes⟩ := assessLive_stores router reads policy requirements endpoint
        (stores.createHealth endpoint)
      refine ⟨fun other member => ?_, lanes⟩
      rw [← created other member, RouterStores.healthOf, health]
      rfl

/-- Nobody's quota is changed by an evaluation. -/
theorem evaluateCandidate_quota (endpointId : String) :
    (evaluateCandidate (router.assess reads policy requirements) exclusions endpoint
      stores).2.health.quotaUntil endpointId = stores.health.quotaUntil endpointId := by
  have created : (stores.createHealth endpoint).health.quotaUntil endpointId =
      stores.health.quotaUntil endpointId := HealthTelemetryStore.quotaUntil_getOrCreate _ _ _ _
  unfold evaluateCandidate
  split
  · rfl
  · unfold assess
    split
    · exact created
    · rw [(assessLive_stores router reads policy requirements endpoint
        (stores.createHealth endpoint)).1]
      exact created

theorem evaluateCandidates_quota (endpoints : List Endpoint) (stores : RouterStores)
    (endpointId : String) :
    (evaluateCandidates (router.assess reads policy requirements) exclusions endpoints
      stores).2.health.quotaUntil endpointId = stores.health.quotaUntil endpointId := by
  induction endpoints generalizing stores with
  | nil => rfl
  | cons endpoint rest ih =>
      simp only [evaluateCandidates]
      rw [ih, evaluateCandidate_quota]

theorem select_quota (stores : RouterStores) (pool : String) (strategy : Option String)
    (requestId : String) (fallbackReason : Option FallbackReason) (endpointId : String) :
    (router.select reads policy requirements stores pool strategy requestId exclusions
      fallbackReason).2.2.health.quotaUntil endpointId = stores.health.quotaUntil endpointId :=
  evaluateCandidates_quota router reads policy requirements _ _ _

variable {router reads policy requirements}

theorem Admissible.congr {before after : RouterStores} {endpoints : List Endpoint}
    (untouched : Untouched reads.now endpoints before after) (member : endpoint ∈ endpoints)
    {breaker : CircuitBreakerState} :
    Admissible router reads requirements exclusions after endpoint breaker ↔
      Admissible router reads requirements exclusions before endpoint breaker := by
  have health := untouched.health endpoint member
  constructor
  · intro passes
    exact ⟨passes.notExcluded, by simpa only [Dead, health] using passes.alive,
      health ▸ passes.quota, health ▸ passes.constraints, passes.context,
      fun lane has => (untouched.lanes lane).mp (passes.lane lane has), passes.breaker⟩
  · intro passes
    exact ⟨passes.notExcluded, by simpa only [Dead, health] using passes.alive,
      health ▸ passes.quota, health ▸ passes.constraints, passes.context,
      fun lane has => (untouched.lanes lane).mpr (passes.lane lane has), passes.breaker⟩

end Stores

/-- The turn of an endpoint: what its breaker reports, and the evaluation. -/
structure Turn where
  endpoint : Endpoint
  breaker : CircuitBreakerState
  evaluation : CandidateEvaluation

def turns : List Endpoint → RouterStores → List Turn
  | [], _ => []
  | endpoint :: rest, stores =>
      let (evaluation, after) :=
        evaluateCandidate (router.assess reads policy requirements) exclusions endpoint stores
      ⟨endpoint, stores.breakerState reads endpoint, evaluation⟩ :: turns rest after

section Turns

theorem turns_endpoints (endpoints : List Endpoint) (stores : RouterStores) :
    (turns router reads policy requirements exclusions endpoints stores).map (·.endpoint) =
      endpoints := by
  induction endpoints generalizing stores with
  | nil => rfl
  | cons endpoint rest ih =>
      simp only [turns, List.map_cons]
      rw [ih]

theorem evaluateCandidates_turns (endpoints : List Endpoint) (stores : RouterStores) :
    (evaluateCandidates (router.assess reads policy requirements) exclusions endpoints stores).1 =
      (turns router reads policy requirements exclusions endpoints stores).map fun turn =>
        (turn.endpoint, turn.evaluation) := by
  induction endpoints generalizing stores with
  | nil => rfl
  | cons endpoint rest ih =>
      simp only [evaluateCandidates, turns, List.map_cons]
      rw [ih]

theorem evaluateCandidate_endpointId (endpoint : Endpoint) (stores : RouterStores) :
    (evaluateCandidate (router.assess reads policy requirements) exclusions endpoint
      stores).1.endpointId = endpoint.id := by
  have scored : ∀ stores state,
      (router.scored reads policy requirements endpoint stores state).1.endpointId =
        endpoint.id := by
    intro stores state
    simp only [scored, withQuality, RoutingScorer.scoreCandidate]
    split <;> rfl
  have breaker : ∀ stores,
      (router.assessBreaker reads policy requirements endpoint stores).1.endpointId =
        endpoint.id := by
    intro stores
    simp only [assessBreaker]
    split
    · rfl
    · split
      · rfl
      · exact scored _ _
  have lane : ∀ stores,
      (router.assessLane reads policy requirements endpoint stores).1.endpointId =
        endpoint.id := by
    intro stores
    unfold assessLane
    split
    · exact breaker _
    · simp only
      split
      · exact breaker _
      · rfl
  unfold evaluateCandidate
  split
  · rfl
  · unfold assess
    split
    · rfl
    · simp only [assessLive]
      split
      · rfl
      · split
        · rfl
        · split
          · exact lane _
          · rfl

/-- Each turn marks its endpoint eligible exactly when it is admissible in the
    stores as they were at the start. -/
theorem turns_sound {endpoints : List Endpoint} (distinct : (endpoints.map (·.id)).Nodup)
    (stores : RouterStores) :
    ∀ turn ∈ turns router reads policy requirements exclusions endpoints stores,
      turn.evaluation.endpointId = turn.endpoint.id ∧
      (turn.evaluation.eligible = true ↔
        Admissible router reads requirements exclusions stores turn.endpoint turn.breaker) := by
  induction endpoints generalizing stores with
  | nil => simp [turns]
  | cons endpoint rest ih =>
      rw [List.map_cons, List.nodup_cons] at distinct
      intro turn member
      simp only [turns, List.mem_cons] at member
      cases member with
      | inl here =>
          subst here
          exact ⟨evaluateCandidate_endpointId router reads policy requirements exclusions endpoint
            stores, evaluateCandidate_eligible⟩
      | inr later =>
          obtain ⟨named, eligible⟩ := ih distinct.2 _ turn later
          refine ⟨named, eligible.trans (Admissible.congr
            (evaluateCandidate_untouched router reads policy requirements distinct.1) ?_)⟩
          have located := List.mem_map_of_mem (f := Turn.endpoint) later
          rwa [turns_endpoints] at located

end Turns

/-! ## The selection -/

theorem order_perm (strategy : String) (isLargeContext : Bool) (eligible : List Candidate) :
    (order strategy isLargeContext eligible).Perm eligible := by
  unfold order byScore
  split_ifs <;> first | exact List.mergeSort_perm _ _ | exact .refl _

theorem ranked_endpointIds (evaluations ordered : List Candidate) :
    (ranked evaluations ordered).map (·.endpointId) = evaluations.map (·.2.endpointId) := by
  simp [ranked, Function.comp_def]

theorem ranked_eligible (evaluations ordered : List Candidate) :
    ((ranked evaluations ordered).filter (·.eligible)).length =
      (evaluations.filter (·.2.eligible)).length := by
  simp [ranked, List.filter_map, Function.comp_def]

/-- A pool with an eligible candidate gets one of them. -/
theorem position_lt (strategy pool : String) {eligible : Nat} (some : 0 < eligible) :
    router.position strategy pool eligible < eligible := by
  unfold position
  split
  · exact Nat.mod_lt _ some
  · exact some

section Selected

variable (stores : RouterStores) (pool : String) (strategy : Option String) (requestId : String)
  (fallbackReason : Option FallbackReason)

/-- The candidates that are ordered. -/
def eligibleTurns : List Candidate :=
  ((turns router reads policy requirements exclusions (router.registry.endpointsForPool pool)
    stores).map fun turn => (turn.endpoint, turn.evaluation)).filter (·.2.eligible)

theorem mem_eligibleTurns {candidate : Candidate} :
    candidate ∈ router.eligibleTurns reads policy requirements exclusions stores pool ↔
      ∃ turn ∈ turns router reads policy requirements exclusions
          (router.registry.endpointsForPool pool) stores,
        (turn.endpoint, turn.evaluation) = candidate ∧
          Admissible router reads requirements exclusions stores turn.endpoint turn.breaker := by
  have distinct : ((router.registry.endpointsForPool pool).map (·.id)).Nodup :=
    router.registry.nodupIds.sublist (List.filter_sublist.map _)
  have sound := turns_sound router reads policy requirements exclusions distinct stores
  simp only [eligibleTurns, List.mem_filter, List.mem_map]
  constructor
  · rintro ⟨⟨turn, located, rfl⟩, marked⟩
    exact ⟨turn, located, rfl, (sound turn located).2.mp marked⟩
  · rintro ⟨turn, located, rfl, passes⟩
    exact ⟨⟨turn, located, rfl⟩, (sound turn located).2.mpr passes⟩

theorem select_endpoint :
    (router.select reads policy requirements stores pool strategy requestId exclusions
        fallbackReason).1.1 =
      ((order (orText strategy router.defaultStrategy) (5000 < requirements.estimatedInputTokens)
          (router.eligibleTurns reads policy requirements exclusions stores pool))[router.position
        (orText strategy router.defaultStrategy) pool
        (router.eligibleTurns reads policy requirements exclusions stores pool).length]?).map
          (·.1) := by
  simp only [select, selectCandidate, eligibleTurns, ← evaluateCandidates_turns]

variable {strategy requestId fallbackReason}

/-- What is selected passes every filter. -/
theorem select_passes {endpoint : Endpoint}
    (selected : (router.select reads policy requirements stores pool strategy requestId exclusions
      fallbackReason).1.1 = some endpoint) :
    ∃ turn ∈ turns router reads policy requirements exclusions
        (router.registry.endpointsForPool pool) stores,
      turn.endpoint = endpoint ∧
        Admissible router reads requirements exclusions stores turn.endpoint turn.breaker := by
  rw [select_endpoint] at selected
  obtain ⟨candidate, located, rfl⟩ := Option.map_eq_some_iff.mp selected
  have eligible := (order_perm _ _ _).mem_iff.mp (List.mem_of_getElem? located)
  obtain ⟨turn, listed, rfl, passes⟩ :=
    (mem_eligibleTurns router reads policy requirements exclusions stores pool).mp eligible
  exact ⟨turn, listed, rfl, passes⟩

/-- An endpoint that passes every filter is reason enough to select one. -/
theorem select_isSome {turn : Turn}
    (located : turn ∈ turns router reads policy requirements exclusions
      (router.registry.endpointsForPool pool) stores)
    (passes : Admissible router reads requirements exclusions stores turn.endpoint turn.breaker) :
    (router.select reads policy requirements stores pool strategy requestId exclusions
      fallbackReason).1.1.isSome := by
  have member := (mem_eligibleTurns router reads policy requirements exclusions stores pool).mpr
    ⟨turn, located, rfl, passes⟩
  have inside := position_lt router (orText strategy router.defaultStrategy) pool
    (List.length_pos_of_mem member)
  have ordered := order_perm (orText strategy router.defaultStrategy)
    (5000 < requirements.estimatedInputTokens)
    (router.eligibleTurns reads policy requirements exclusions stores pool)
  rw [select_endpoint, List.getElem?_eq_getElem (lt_of_lt_of_eq inside ordered.length_eq.symm)]
  rfl

/-- The only endpoint of a pool is selected when it passes every filter. -/
theorem select_only {endpoint : Endpoint}
    (only : router.registry.endpointsForPool pool = [endpoint])
    (passes : Admissible router reads requirements exclusions stores endpoint
      (stores.breakerState reads endpoint)) :
    (router.select reads policy requirements stores pool strategy requestId exclusions
      fallbackReason).1.1 = some endpoint := by
  have located : (⟨endpoint, stores.breakerState reads endpoint,
      (evaluateCandidate (router.assess reads policy requirements) exclusions endpoint
        stores).1⟩ : Turn) ∈ turns router reads policy requirements exclusions
          (router.registry.endpointsForPool pool) stores := by
    rw [only]
    exact List.mem_singleton.mpr rfl
  have some : (router.select reads policy requirements stores pool strategy requestId exclusions
      fallbackReason).1.1.isSome :=
    select_isSome router reads policy requirements exclusions stores pool located passes
  obtain ⟨other, selected⟩ := Option.isSome_iff_exists.mp some
  obtain ⟨turn, listed, same, -⟩ :=
    select_passes router reads policy requirements exclusions stores pool selected
  rw [only] at listed
  rw [selected, ← same, List.mem_singleton.mp listed]

end Selected

/-- `select_candidate` is sound and complete: it returns an endpoint exactly
    when one of the pool passes every filter, the endpoint that it returns does,
    and the decision holds one evaluation for each endpoint of the pool. -/
theorem select_candidate_sound_complete (stores : RouterStores) (pool : String)
    (strategy : Option String) (requestId : String) (fallbackReason : Option FallbackReason) :
    let result := (router.select reads policy requirements stores pool strategy requestId exclusions
      fallbackReason).1
    let endpoints := router.registry.endpointsForPool pool
    let turns := turns router reads policy requirements exclusions endpoints stores
    let Passes := fun turn : Turn =>
      Admissible router reads requirements exclusions stores turn.endpoint turn.breaker
    turns.map (·.endpoint) = endpoints ∧
    (result.1.isSome ↔ ∃ turn ∈ turns, Passes turn) ∧
    (∀ endpoint, result.1 = some endpoint → ∃ turn ∈ turns, turn.endpoint = endpoint ∧ Passes turn) ∧
    result.2.selectedEndpoint = result.1 ∧
    result.2.evaluatedCandidates.map (·.endpointId) = endpoints.map (·.id) ∧
    result.2.totalConsidered = endpoints.length ∧
    result.2.totalEligible = (result.2.evaluatedCandidates.filter (·.eligible)).length := by
  intro result endpoints turns Passes
  have returned : ∀ endpoint, result.1 = some endpoint →
      ∃ turn ∈ turns, turn.endpoint = endpoint ∧ Passes turn := fun endpoint selected =>
    select_passes router reads policy requirements exclusions stores pool selected
  have record : result.2.evaluatedCandidates =
      ranked (turns.map fun turn => (turn.endpoint, turn.evaluation))
        (order (orText strategy router.defaultStrategy) (5000 < requirements.estimatedInputTokens)
          (router.eligibleTurns reads policy requirements exclusions stores pool)) := by
    simp only [result, select, selectCandidate, eligibleTurns, turns, endpoints,
      ← evaluateCandidates_turns]
  refine ⟨turns_endpoints _ _ _ _ _ _ _, ⟨?_, ?_⟩, returned, rfl, ?_, rfl, ?_⟩
  · intro found
    obtain ⟨endpoint, same⟩ := Option.isSome_iff_exists.mp found
    obtain ⟨turn, located, _, passes⟩ := returned endpoint same
    exact ⟨turn, located, passes⟩
  · rintro ⟨turn, located, passes⟩
    exact select_isSome router reads policy requirements exclusions stores pool located passes
  · have distinct : (endpoints.map (·.id)).Nodup :=
      router.registry.nodupIds.sublist (List.filter_sublist.map _)
    have sound := turns_sound router reads policy requirements exclusions distinct stores
    rw [record, ranked_endpointIds, List.map_map,
      ← turns_endpoints router reads policy requirements exclusions endpoints stores, List.map_map]
    exact List.map_congr_left fun turn located => (sound turn located).1
  · rw [record, ranked_eligible]
    simp only [result, select, selectCandidate, turns, endpoints, ← evaluateCandidates_turns]

end CapabilityRouter

end DuraLLM
