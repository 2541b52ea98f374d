import DuraLLM.Gateway.Serving

/-! # Accounts without quota

When the daily quota of a provider's account is gone, its endpoints are of no
use until the quota is reset.  The request that finds out excludes them all; the
router knows the failed endpoint from the health store, and the others not at
all.  The places where an endpoint of such an account may still be sent to are
named here, and a run without them sends nothing there.
-/

namespace DuraLLM

namespace Serving

variable {s : Serving}

/-- The account of the provider is locked out of the pool. -/
def LockedOut (s : Serving) (pool provider : String) : Prop :=
  ∃ lockout ∈ s.lockouts, lockout.pool = pool ∧
    lockout.provider.toLower = provider.toLower ∧ s.clock < lockout.until_

/-- Something that the router looks at keeps the endpoint from the request. -/
def Barred (s : Serving) (r : ServedRequest) (endpoint : Endpoint) : Prop :=
  endpoint.id ∈ r.excluded ∨ s.router.Dead endpoint s.stores ∨
    (s.stores.healthOf endpoint).isQuotaExhausted s.clock = true

/-- No request of the pool is about to send to the account. -/
def Idle (s : Serving) (pool : String) (endpoint : Endpoint) : Prop :=
  ∀ r ∈ s.requests.values, r.pool = pool →
    ∀ other ∈ r.phase.aboutToSend, other.provider.toLower ≠ endpoint.provider.toLower

instance (s : Serving) (pool provider : String) : Decidable (s.LockedOut pool provider) :=
  inferInstanceAs (Decidable (∃ lockout ∈ s.lockouts, _))

instance (s : Serving) (r : ServedRequest) (endpoint : Endpoint) :
    Decidable (s.Barred r endpoint) := inferInstanceAs (Decidable (_ ∨ _ ∨ _))

instance (s : Serving) (pool : String) (endpoint : Endpoint) : Decidable (s.Idle pool endpoint) :=
  inferInstanceAs (Decidable (∀ r ∈ s.requests.values, _))

/-- An attempt of the request that fails with the account finds nobody else about to send to
    it. -/
def EndsAlone (s : Serving) (request : Nat) (classified : FailureClassification) : Prop :=
  ∀ r ∈ s.requests.get request, ∀ endpoint ∈ r.phase.sentTo,
    accountQuota endpoint classified ≠ none → s.Idle r.pool endpoint

/-- The request is selected for with every endpoint of a locked-out account barred. -/
def SelectsBarred (s : Serving) (request : Nat) : Prop :=
  ∀ r ∈ s.requests.get request, r.phase = .between →
    ∀ endpoint ∈ s.router.registry.endpointsForPool r.pool,
      s.LockedOut r.pool endpoint.provider → s.Barred r endpoint

instance (s : Serving) (request : Nat) (classified : FailureClassification) :
    Decidable (s.EndsAlone request classified) :=
  inferInstanceAs (Decidable (∀ r ∈ s.requests.get request, _))

instance (s : Serving) (request : Nat) : Decidable (s.SelectsBarred request) :=
  inferInstanceAs (Decidable (∀ r ∈ s.requests.get request, _))

/-- The step lets nobody near a locked-out account. -/
def Fences (s : Serving) : ServingStep → Prop
  | .select request _ => s.SelectsBarred request
  | .fail request _ classified | .crash request classified => s.EndsAlone request classified
  | _ => True

instance (s : Serving) : (step : ServingStep) → Decidable (s.Fences step)
  | .select request _ => inferInstanceAs (Decidable (s.SelectsBarred request))
  | .fail request _ classified | .crash request classified =>
      inferInstanceAs (Decidable (s.EndsAlone request classified))
  | .wait _ | .register _ | .elsewhere _ | .note _ _ | .arrive _ _ | .giveUp _ | .dispatch _
  | .exclude _ _ | .rollOver _ _ | .finish _ => inferInstanceAs (Decidable True)

/-- Nobody is about to send to a locked-out account. -/
def Clear (s : Serving) : Prop :=
  ∀ request r, s.requests.get request = some r →
    ∀ endpoint, r.phase = .chosen endpoint → ¬s.LockedOut r.pool endpoint.provider

/-! ## One step -/

/-- What is selected is barred by nothing. -/
theorem choose_unbarred {r : ServedRequest} {call : SelectionCall} {endpoint : Endpoint}
    (selected : (s.router.select { call.reads with now := s.clock } call.policy call.requirements
      s.stores r.pool call.strategy call.requestId r.excluded call.fallbackReason).1.1 =
        some endpoint) :
    endpoint ∈ s.router.registry.endpointsForPool r.pool ∧ ¬s.Barred r endpoint := by
  obtain ⟨turn, located, rfl, passes⟩ := CapabilityRouter.select_passes _ _ _ _ _ _ _ selected
  have listed := List.mem_map_of_mem (f := CapabilityRouter.Turn.endpoint) located
  rw [CapabilityRouter.turns_endpoints] at listed
  refine ⟨listed, ?_⟩
  rintro (excluded | dead | exhausted)
  · exact passes.notExcluded excluded
  · exact passes.alive dead
  · exact absurd passes.quota (ne_of_eq_of_ne exhausted (by decide))

/-- A request that is about to send to an endpoint was before. -/
theorem Clear.modify (clear : s.Clear) (request : Nat) (f : ServedRequest → ServedRequest)
    (keeps : ∀ r endpoint, (f r).phase = .chosen endpoint →
      r.phase = .chosen endpoint ∧ (f r).pool = r.pool) :
    ({ s with requests := s.requests.modify request f } : Serving).Clear := by
  intro other r found endpoint chosen
  rw [Dict.get_modify] at found
  split at found
  · obtain ⟨before, was, rfl⟩ := Option.map_eq_some_iff.mp found
    obtain ⟨still, pool⟩ := keeps before endpoint chosen
    rw [pool]
    exact clear _ before was endpoint still
  · exact clear other r found endpoint chosen

theorem Clear.set (clear : s.Clear) (request : Nat) {r : ServedRequest}
    (fine : ∀ endpoint, r.phase = .chosen endpoint → ¬s.LockedOut r.pool endpoint.provider) :
    ({ s with requests := s.requests.set request r } : Serving).Clear := by
  intro other r' found endpoint chosen
  rw [Dict.get_set] at found
  split at found
  · cases found
    exact fine endpoint chosen
  · exact clear other r' found endpoint chosen

theorem Clear.erase (clear : s.Clear) (request : Nat) :
    ({ s with requests := s.requests.erase request } : Serving).Clear := by
  intro other r found endpoint chosen
  by_cases same : other = request
  · subst same
    simp at found
  · rw [Dict.get_erase_ne _ same] at found
    exact clear other r found endpoint chosen

/-- A lockout meets nobody who is about to send to the account. -/
theorem Clear.lockOut (clear : s.Clear) {pool : String} {endpoint : Endpoint}
    {classified : FailureClassification}
    (idle : accountQuota endpoint classified ≠ none → s.Idle pool endpoint) :
    ({ s with lockouts := s.lockOut pool endpoint classified } : Serving).Clear := by
  intro request r found other chosen locked
  obtain ⟨lockout, member, samePool, sameProvider, within⟩ := locked
  cases quota : accountQuota endpoint classified with
  | none =>
      simp only [Serving.lockOut, quota] at member
      exact clear request r found other chosen ⟨lockout, member, samePool, sameProvider, within⟩
  | some seconds =>
      simp only [Serving.lockOut, quota, List.mem_cons] at member
      cases member with
      | inl new =>
          subst new
          have listed := Dict.mem_values_iff.mpr ⟨request, found⟩
          exact idle (by simp [quota]) r listed samePool.symm other
            (by simp [RequestPhase.aboutToSend, chosen]) sameProvider.symm
      | inr old =>
          exact clear request r found other chosen ⟨lockout, old, samePool, sameProvider, within⟩

theorem Clear.choose (clear : s.Clear) {request : Nat} {r : ServedRequest} {call : SelectionCall}
    (barred : ∀ endpoint ∈ s.router.registry.endpointsForPool r.pool,
      s.LockedOut r.pool endpoint.provider → s.Barred r endpoint) :
    (s.choose request r call).Clear := by
  unfold Serving.choose
  simp only
  split
  · exact clear
  · next endpoint selected =>
    obtain ⟨listed, unbarred⟩ := choose_unbarred selected
    have fine : ∀ other, RequestPhase.chosen endpoint = .chosen other →
        ¬s.LockedOut r.pool other.provider := by
      intro other same locked
      cases same
      exact unbarred (barred endpoint listed locked)
    exact clear.set request fine

theorem Clear.fail (clear : s.Clear) {request : Nat} {r : ServedRequest} {endpoint : Endpoint}
    {result : ExecutionResult} {classified : FailureClassification}
    (idle : accountQuota endpoint classified ≠ none → s.Idle r.pool endpoint) :
    (s.failed request r endpoint result classified).Clear :=
  (clear.lockOut idle).set request fun _ chosen => by cases chosen

/-- A step that fences the locked-out accounts lets nobody near them. -/
theorem clear_step (clear : s.Clear) {step : ServingStep} (fences : s.Fences step) :
    (s.step step).Clear := by
  cases step with
  | wait seconds =>
      intro request r found endpoint chosen locked
      obtain ⟨lockout, member, pool, provider, within⟩ := locked
      have later : s.clock ≤ s.clock + max 0 seconds := le_add_of_nonneg_right (le_max_left _ _)
      exact clear request r found endpoint chosen
        ⟨lockout, member, pool, provider, lt_of_le_of_lt later within⟩
  | register endpoint => exact clear
  | elsewhere stores => exact clear
  | note n quotaFree =>
      obtain ⟨requests, lockouts, clock, -⟩ := s.keep_requests n
      intro request r found endpoint chosen locked
      simp only [Serving.step, LockedOut, requests, lockouts, clock] at found locked
      exact clear request r found endpoint chosen locked
  | arrive request pool => exact clear.set request fun _ chosen => by cases chosen
  | select request call =>
      apply whenBetween_induct clear
      intro r found between
      exact clear.choose (fences r found between)
  | giveUp request => exact clear.modify request _ fun _ _ chosen => by cases chosen
  | dispatch request =>
      apply clear.modify request
      intro r endpoint chosen
      split at chosen
      · cases chosen
      · exact ⟨chosen, rfl⟩
  | exclude request endpointId => exact clear.modify request _ fun _ _ chosen => ⟨chosen, rfl⟩
  | rollOver request endpointIds => exact clear.modify request _ fun _ _ chosen => ⟨chosen, rfl⟩
  | fail request result classified =>
      apply whenSent_induct clear
      intro r endpoint found phase
      exact clear.fail (fences r found endpoint (by simp [RequestPhase.sentTo, phase]))
  | crash request classified =>
      apply whenSent_induct clear
      intro r endpoint found phase
      have alone := fences r found endpoint (by simp [RequestPhase.sentTo, phase])
      exact (clear.lockOut alone).erase request
  | finish request => exact clear.erase request

/-! ## Whole runs -/

/-- Whatever is sent in the run goes to an endpoint whose account is not locked out. -/
def Respects (s : Serving) (steps : List ServingStep) : Prop :=
  ∀ before request after, steps = before ++ .dispatch request :: after →
    ∀ r, (s.run before).requests.get request = some r →
      ∀ endpoint, r.phase = .chosen endpoint → ¬(s.run before).LockedOut r.pool endpoint.provider

/-- In a run whose steps fence the locked-out accounts nothing is sent to them. -/
theorem account_lockouts_respected (router : CapabilityRouter) (stores : RouterStores)
    (clock : Seconds) (steps : List ServingStep)
    (fenced : ∀ before step after, steps = before ++ step :: after →
      (({ router, stores, clock } : Serving).run before).Fences step) :
    Respects { router, stores, clock } steps := by
  have clear : ∀ before after, steps = before ++ after →
      (({ router, stores, clock } : Serving).run before).Clear := by
    intro before
    induction before using List.reverseRecOn with
    | nil =>
        intro _ _ request r found
        simp [run] at found
    | append_singleton before step ih =>
        intro after same
        subst same
        rw [run_append]
        exact clear_step (ih (step :: after) (by simp)) (fenced before step after (by simp))
  intro before request after same r found endpoint chosen
  exact clear before _ same request r found endpoint chosen

/-! ### Two free models of one account -/

def freeModel (name : String) : Endpoint where
  id := "coding:" ++ name
  provider := "openrouter"
  model := name
  pool := "coding"
  profile := some { provider := "openrouter", model := name }

def freeModels : CapabilityRouter where
  registry :=
    { endpoints := [freeModel "a", freeModel "b"]
      nodupIds := by decide }

def plainCall : SelectionCall where
  reads := { now := 0, casing := .ascii, breakerWorld := fun _ => { clock := fun _ => 0 } }
  policy := {}
  requirements := {}
  strategy := some "round_robin"

def dailyQuota : FailureClassification where
  category := .rateLimit
  reason := .billing
  shouldFallback := true
  retryable := false
  statusCode := some 429
  message := "Rate limit exceeded: free-models-per-day"

/-- A request uses up the account. -/
def spendQuota : List ServingStep :=
  [.arrive 0 "coding", .select 0 plainCall, .dispatch 0, .fail 0 { statusCode := 429 } dailyQuota]

/-- The same request finds nothing else, and the next one comes a day later. -/
theorem account_lockouts_respected_day_later :
    Respects { router := freeModels, clock := 0 }
      (spendQuota ++
        [.select 0 plainCall, .finish 0, .wait 86400, .arrive 1 "coding", .select 1 plainCall,
          .dispatch 1]) :=
  account_lockouts_respected freeModels {} 0 _
    (Along.split (by decide +kernel :
      Along Fences { router := freeModels, clock := 0 } (spendQuota ++ _)))

/-- The next request is sent to the other model at once. -/
theorem locked_out_account_used :
    ¬Respects { router := freeModels, clock := 0 }
      (spendQuota ++ [.finish 0, .arrive 1 "coding", .select 1 plainCall, .dispatch 1]) := by
  intro respects
  have unused := respects (spendQuota ++ [.finish 0, .arrive 1 "coding", .select 1 plainCall]) 1 []
    (by simp) { pool := "coding", phase := .chosen (freeModel "b") } (by decide +kernel)
    (freeModel "b") rfl
  exact unused (by decide +kernel)

end Serving

end DuraLLM
