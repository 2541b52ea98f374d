import DuraLLM.Lib.Unwinding
import DuraLLM.Routing.Pools

/-! # Pool isolation

The two pools share the tables of one manager.  What a pool sees of it is
`within`: its own routes and position, the entries under its own name, and the
accounts that are still locked out.  A call on the other pool leaves that alone.
-/

namespace DuraLLM

inductive PoolCall where
  | markCooldown (routeId : String) (seconds : Seconds)
  | markQuotaExhausted (routeId : String) (seconds : Seconds)
  | markDeprecated (model : String)
  | clearCooldown (routeId : String)
  | recordRouteSuccess (routeId : String)
  | selectRoute
  | getCandidateRoutes
  | addDiscoveredRoute (route : RouteDefinition)

inductive PoolAnswer where
  | done
  | selected (route : Option RouteDefinition)
  | candidates (routes : List RouteDefinition)

/-- A call on a pool, with its clock readings. -/
structure PoolRequest where
  now : Clock
  pool : String
  call : PoolCall

namespace IsolatedPoolManager

variable (casing : Casing) (manager : IsolatedPoolManager)

def perform (manager : IsolatedPoolManager) (request : PoolRequest) :
    PoolAnswer × IsolatedPoolManager :=
  let pool := request.pool
  let now := request.now
  match request.call with
  | .markCooldown routeId seconds => (.done, manager.markCooldown casing pool routeId seconds now)
  | .markQuotaExhausted routeId seconds =>
      (.done, manager.markQuotaExhausted casing pool routeId seconds now)
  | .markDeprecated model => (.done, manager.markDeprecated casing pool model)
  | .clearCooldown routeId => (.done, manager.clearCooldown casing routeId pool)
  | .recordRouteSuccess routeId => (.done, manager.recordRouteSuccess casing pool routeId now)
  | .selectRoute =>
      let (route, manager) := manager.selectRoute casing pool now
      (.selected route, manager)
  | .getCandidateRoutes =>
      let (routes, manager) := manager.getCandidateRoutes casing pool now
      (.candidates routes, manager)
  | .addDiscoveredRoute route => (.done, manager.addDiscoveredRoute pool route)

/-- The key of a table is one of the pool's. -/
def ofPool (pool : String) (key : String × String) : Bool := key.1 = casing.lower pool

def isPool (pool : String) (key : String) : Bool := key = casing.lower pool

/-- What the pool sees at this time. -/
def within (pool : String) (now : Clock) : IsolatedPoolManager where
  allowedProviders := manager.allowedProviders
  keys := manager.keys
  codingRoutes := if pool = "coding" then manager.codingRoutes else []
  agentRoutes := if pool = "coding" then [] else manager.agentRoutes
  codingIndex := if pool = "coding" then manager.codingIndex else 0
  agentIndex := if pool = "coding" then 0 else manager.agentIndex
  cooldowns := manager.cooldowns.filter fun key _ => ofPool casing pool key
  deprecated := manager.deprecated.filter (ofPool casing pool)
  exhaustedQuotas := manager.exhaustedQuotas.filter fun key _ => ofPool casing pool key
  accountLockouts := manager.accountLockouts.filter fun _ expiry => now.epoch < expiry
  lastSuccess := manager.lastSuccess.filter fun key _ => isPool casing pool key
  lastSuccessAt := manager.lastSuccessAt.filter fun key _ => isPool casing pool key

variable {casing manager} {pool : String} {now : Clock}

/-! ## A call on the pool itself -/

@[simp] theorem routes_within : (manager.within casing pool now).routes pool =
    manager.routes pool := by
  by_cases coding : pool = "coding" <;> simp [routes, within, coding]

/-- What is purged from a pool's tables and what the pool does not see. -/
theorem autoExpireCooldowns_within :
    (manager.within casing pool now).autoExpireCooldowns casing pool now =
      (manager.autoExpireCooldowns casing pool now).within casing pool now := by
  simp only [autoExpireCooldowns, within, Dict.filter_filter, Bool.and_comm]

/-- The accounts have been purged. -/
theorem admits_within (r : RouteDefinition) :
    ((manager.autoExpireCooldowns casing pool now).within casing pool now).admits casing pool now r =
      (manager.autoExpireCooldowns casing pool now).admits casing pool now r := by
  apply admits_congr
  · rfl
  · rfl
  · simp [within, ofPool]
  · simp only [within, autoExpireCooldowns, Dict.get_filter]
    cases manager.accountLockouts.get (casing.lower r.provider) with
    | none => rfl
    | some expiry => by_cases live : now.epoch < expiry <;> simp [Option.filter, live]
  · simp only [within, Dict.get_filter, keyOf]
    cases (manager.autoExpireCooldowns casing pool now).exhaustedQuotas.get _ <;>
      simp [Option.filter, ofPool]
  · simp only [within, Dict.get_filter, keyOf]
    cases (manager.autoExpireCooldowns casing pool now).cooldowns.get _ <;>
      simp [Option.filter, ofPool]

/-- A pair of an answer and what the pool sees of the manager afterwards. -/
def View (casing : Casing) (pool : String) (now : Clock) {α : Type}
    (result : α × IsolatedPoolManager) : α × IsolatedPoolManager :=
  (result.1, result.2.within casing pool now)

theorem getCandidateRoutes_within :
    (manager.within casing pool now).getCandidateRoutes casing pool now =
      View casing pool now (manager.getCandidateRoutes casing pool now) := by
  simp only [getCandidateRoutes, autoExpireCooldowns_within, routes_within, View]
  congr 1
  exact List.filter_congr fun r _ => admits_within r

theorem oldestCooldown_within :
    (manager.within casing pool now).oldestCooldown casing pool =
      manager.oldestCooldown casing pool := by
  simp only [oldestCooldown, within, Dict.filter, Dict.restrict, List.filter_filter, ofPool,
    Bool.and_self]

theorem relieved_within :
    (manager.within casing pool now).relieved casing pool now =
      View casing pool now (manager.relieved casing pool now) := by
  simp only [relieved, getCandidateRoutes_within, View, oldestCooldown_within]
  split
  · cases (manager.getCandidateRoutes casing pool now).2.oldestCooldown casing pool with
    | none => rfl
    | some key =>
        have erased : { (manager.getCandidateRoutes casing pool now).2.within casing pool now with
              cooldowns := ((manager.getCandidateRoutes casing pool now).2.within casing pool
                now).cooldowns.erase key } =
            ({ (manager.getCandidateRoutes casing pool now).2 with
              cooldowns := (manager.getCandidateRoutes casing pool now).2.cooldowns.erase
                key } : IsolatedPoolManager).within casing pool now := by
          simp only [within, Dict.erase, Dict.filter_filter, Bool.and_comm]
        simp only [erased, getCandidateRoutes_within, View]
  · rfl

theorem stickyRoute_within (candidates : List RouteDefinition) :
    (manager.within casing pool now).stickyRoute casing pool candidates now =
      manager.stickyRoute casing pool candidates now := by
  have own : ∀ (V : Type) (d : Dict String V),
      (d.filter fun key _ => isPool casing pool key).get (casing.lower pool) =
        d.get (casing.lower pool) := by
    intro V d
    rw [Dict.get_filter]
    cases d.get (casing.lower pool) <;> simp [Option.filter, isPool]
  simp only [stickyRoute, within, own]

theorem selectRoute_within :
    (manager.within casing pool now).selectRoute casing pool now =
      View casing pool now (manager.selectRoute casing pool now) := by
  simp only [selectRoute, relieved_within, View, stickyRoute_within]
  split
  · rfl
  · split
    · rfl
    · split
      · next coding => simp [within, coding]
      · next agent => simp [within, agent]

variable (casing manager) in
/-- A pool's own call: the answer depends on what the pool sees, and so does
    what it sees afterwards. -/
theorem perform_within (request : PoolRequest) :
    (manager.within casing request.pool request.now).perform casing request =
      View casing request.pool request.now (manager.perform casing request) := by
  obtain ⟨now, pool, call⟩ := request
  cases call with
  | markCooldown routeId seconds =>
      simp only [perform, View, markCooldown, within]
      rw [Dict.filter_set_of_kept _ _ (by simp [ofPool, keyOf])]
  | markQuotaExhausted routeId seconds =>
      simp only [perform, View, markQuotaExhausted, within]
      rw [Dict.filter_set_of_kept _ _ (by simp [ofPool, keyOf])]
  | markDeprecated model => simp [perform, View, markDeprecated, within, ofPool]
  | clearCooldown routeId =>
      simp only [perform, View, clearCooldown, within, Dict.filter_filter, Bool.and_comm]
  | recordRouteSuccess routeId =>
      simp only [perform, View, recordRouteSuccess, within]
      rw [Dict.filter_set_of_kept _ _ (by simp [isPool]),
        Dict.filter_set_of_kept _ _ (by simp [isPool])]
  | selectRoute => simp only [perform, selectRoute_within, View]
  | getCandidateRoutes => simp only [perform, getCandidateRoutes_within, View]
  | addDiscoveredRoute route =>
      simp only [perform, View, addDiscoveredRoute, routes_within]
      split
      · rfl
      · split
        · next coding => simp [within, coding]
        · next agent => simp [within, agent]

/-! ## A call on the other pool -/

def poolNames : List String := ["coding", "general_agent"]

theorem lower_name {pool : String} (known : pool ∈ poolNames) : casing.lower pool = pool := by
  have cases : pool = "coding" ∨ pool = "general_agent" := by simpa [poolNames] using known
  rcases cases with rfl | rfl
  · rw [casing.plain _ (by simp)]
    decide +kernel
  · rw [casing.plain _ (by simp)]
    decide +kernel

/-- Two pools: they have different names, and one of them is the coding pool. -/
structure Apart (casing : Casing) (pool other : String) : Prop where
  names : casing.lower other ≠ casing.lower pool
  coding : pool = "coding" ↔ other ≠ "coding"

theorem Apart.of_known {other : String} (known : pool ∈ poolNames) (known' : other ∈ poolNames)
    (different : other ≠ pool) : Apart casing pool other where
  names := by rwa [lower_name known, lower_name known']
  coding := by
    simp only [poolNames, List.mem_cons, List.not_mem_nil, or_false] at known known'
    rcases known with rfl | rfl <;> rcases known' with rfl | rfl <;> simp_all

section Foreign

variable {other : String} (apart : Apart casing pool other)

include apart

theorem not_ofPool (routeId : String) : ofPool casing pool (keyOf casing other routeId) = false := by
  simp [ofPool, keyOf, apart.names]

variable (manager now)

theorem autoExpireCooldowns_other :
    (manager.autoExpireCooldowns casing other now).within casing pool now =
      manager.within casing pool now := by
  have keyed : ∀ (d : Dict (String × String) Seconds) (past : Seconds → Prop) [DecidablePred past],
      (d.filter fun key expiry => !(key.1 = casing.lower other ∧ past expiry)).filter
          (fun key _ => ofPool casing pool key) = d.filter fun key _ => ofPool casing pool key := by
    intro d past _
    rw [Dict.filter_filter]
    congr
    funext key expiry
    by_cases own : key.1 = casing.lower pool
    · simp [ofPool, own, Ne.symm apart.names]
    · simp [ofPool, own]
  have accounts : (manager.accountLockouts.filter fun _ expiry => !(expiry ≤ now.epoch)).filter
      (fun _ expiry => now.epoch < expiry) =
        manager.accountLockouts.filter fun _ expiry => now.epoch < expiry := by
    rw [Dict.filter_filter]
    congr
    funext _ expiry
    by_cases live : now.epoch < expiry <;> simp [live]
  simp only [autoExpireCooldowns, within, keyed, accounts]

theorem getCandidateRoutes_other :
    (manager.getCandidateRoutes casing other now).2.within casing pool now =
      manager.within casing pool now :=
  autoExpireCooldowns_other manager now apart

omit apart in
theorem oldestCooldown_pool {manager : IsolatedPoolManager} {key : String × String}
    (oldest : manager.oldestCooldown casing other = some key) : key.1 = casing.lower other := by
  have folds : ∀ (entries : List ((String × String) × Seconds))
      (found : Option ((String × String) × Seconds)),
      (∀ entry ∈ entries, entry.1.1 = casing.lower other) →
      (∀ entry ∈ found, entry.1.1 = casing.lower other) →
      ∀ entry ∈ entries.foldl older found, entry.1.1 = casing.lower other := by
    intro entries
    induction entries with
    | nil => exact fun found _ inside => inside
    | cons first entries ih =>
        intro found all inside
        apply ih _ fun entry member => all entry (List.mem_cons_of_mem _ member)
        have firstInside := all first List.mem_cons_self
        intro entry member
        cases found with
        | none =>
            obtain rfl := Option.some.inj member
            exact firstInside
        | some old =>
            simp only [older] at member
            split at member
            · obtain rfl := Option.some.inj member
              exact firstInside
            · exact inside entry member
  obtain ⟨entry, found, rfl⟩ := Option.map_eq_some_iff.mp oldest
  exact folds _ none (fun entry member => by simpa using (List.mem_filter.mp member).2)
    (by simp) entry found

theorem relieved_other :
    (manager.relieved casing other now).2.within casing pool now =
      manager.within casing pool now := by
  simp only [relieved]
  split
  · cases oldest : (manager.getCandidateRoutes casing other now).2.oldestCooldown casing other with
    | none => exact getCandidateRoutes_other manager now apart
    | some key =>
        have named := oldestCooldown_pool oldest
        have kept : ∀ d : Dict (String × String) Seconds,
            (d.erase key).filter (fun key _ => ofPool casing pool key) =
              d.filter fun key _ => ofPool casing pool key := by
          intro d
          rw [Dict.erase, Dict.filter_filter]
          congr
          funext k expiry
          by_cases same : k = key
          · simp [ofPool, same, named, apart.names]
          · simp [same]
        rw [getCandidateRoutes_other _ now apart]
        refine Eq.trans ?_ (getCandidateRoutes_other manager now apart)
        simp only [within, kept]
  · exact getCandidateRoutes_other manager now apart

theorem selectRoute_other :
    (manager.selectRoute casing other now).2.within casing pool now =
      manager.within casing pool now := by
  have relieved := relieved_other manager now apart
  simp only [selectRoute]
  split
  · exact relieved
  · split
    · exact relieved
    · rw [← relieved]
      split
      · next coding =>
        have agent : pool ≠ "coding" := fun own => apart.coding.mp own coding
        simp [within, agent]
      · next agent =>
        have coding : pool = "coding" := apart.coding.mpr agent
        simp [within, coding]

/-- A call on the other pool changes nothing that this pool sees. -/
theorem perform_other (call : PoolCall) :
    (manager.perform casing ⟨now, other, call⟩).2.within casing pool now =
      manager.within casing pool now := by
  cases call with
  | markCooldown routeId seconds =>
      simp only [perform, markCooldown, within]
      rw [Dict.filter_set_of_dropped _ _ (not_ofPool apart routeId)]
  | markQuotaExhausted routeId seconds =>
      simp only [perform, markQuotaExhausted, within]
      rw [Dict.filter_set_of_dropped _ _ (not_ofPool apart routeId)]
  | markDeprecated model => simp [perform, markDeprecated, within, ofPool, apart.names]
  | clearCooldown routeId =>
      simp only [perform, clearCooldown, within, Dict.filter_filter]
      congr
      funext key expiry
      by_cases own : key.1 = casing.lower pool
      · simp [ofPool, own, Ne.symm apart.names]
      · simp [ofPool, own]
  | recordRouteSuccess routeId =>
      simp only [perform, recordRouteSuccess, within]
      rw [Dict.filter_set_of_dropped _ _ (by simp [isPool, apart.names]),
        Dict.filter_set_of_dropped _ _ (by simp [isPool, apart.names])]
  | selectRoute => exact selectRoute_other manager now apart
  | getCandidateRoutes => exact getCandidateRoutes_other manager now apart
  | addDiscoveredRoute route =>
      simp only [perform, addDiscoveredRoute]
      split
      · rfl
      · split
        · next coding =>
          have agent : pool ≠ "coding" := fun own => apart.coding.mp own coding
          simp [within, agent]
        · next agent =>
          have coding : pool = "coding" := apart.coding.mpr agent
          simp [within, coding]

end Foreign

/-! ## Runs -/

/-- What is not seen at one time is not seen later. -/
theorem within_later {later : Clock} (clock : now.epoch ≤ later.epoch) :
    (manager.within casing pool now).within casing pool later =
      manager.within casing pool later := by
  have accounts : (manager.accountLockouts.filter fun _ expiry => now.epoch < expiry).filter
      (fun _ expiry => later.epoch < expiry) =
        manager.accountLockouts.filter fun _ expiry => later.epoch < expiry := by
    rw [Dict.filter_filter]
    congr
    funext _ expiry
    by_cases live : later.epoch < expiry
    · simp [live, clock.trans_lt live]
    · simp [live]
  by_cases coding : pool = "coding" <;>
    simp [within, coding, accounts, Dict.filter_filter, List.filter_filter]

variable (casing pool) in
/-- The pool sees the same of both managers, at the time of the request. -/
def Alike (request : PoolRequest) (manager manager' : IsolatedPoolManager) : Prop :=
  manager.within casing pool request.now = manager'.within casing pool request.now

theorem Alike.later (request : PoolRequest) {later : PoolRequest} {manager manager' : IsolatedPoolManager}
    (alike : Alike casing pool request manager manager')
    (clock : request.now.epoch ≤ later.now.epoch) : Alike casing pool later manager manager' := by
  have seen := congrArg (fun manager => manager.within casing pool later.now) alike
  simp only [within_later clock] at seen
  exact seen

/-- Requests on the two pools whose wall clock does not go back. -/
def InTurn (request later : PoolRequest) : Prop :=
  request.now.epoch ≤ later.now.epoch ∧ request.pool ∈ poolNames

theorem unwinds (casing : Casing) (known : pool ∈ poolNames) :
    Unwinding.Unwinds (perform casing) (fun request => request.pool = pool) InTurn
      (Alike casing pool) where
  answer request s t mine alike := by
    obtain rfl := of_decide_eq_true mine
    have seen := perform_within casing s request
    rw [alike, perform_within] at seen
    exact (congrArg Prod.fst seen).symm
  both request later s t mine order alike := by
    obtain rfl := of_decide_eq_true mine
    have seen := perform_within casing s request
    rw [alike, perform_within] at seen
    exact Alike.later request (congrArg Prod.snd seen).symm order.1
  alone request later s t foreign order alike := by
    have apart : Apart casing pool request.pool :=
      .of_known known order.2 (of_decide_eq_false foreign)
    have seen := perform_other s request.now apart request.call
    exact Alike.later request (seen.trans alike) order.1

/-- One route id in both pools: the coding pool cools it and then gives up the
    cooldown, between two looks at the other pool. -/
private def sharedRoute : RouteDefinition where
  id := "shared"
  provider := "groq"
  model := "x"

private def sharing : IsolatedPoolManager where
  codingRoutes := [sharedRoute]
  agentRoutes := [sharedRoute]

private def crossing : List PoolRequest :=
  [⟨⟨0, 0⟩, "general_agent", .getCandidateRoutes⟩, ⟨⟨1, 1⟩, "coding", .markCooldown "shared" 60⟩,
    ⟨⟨2, 2⟩, "coding", .selectRoute⟩, ⟨⟨3, 3⟩, "general_agent", .selectRoute⟩]

end IsolatedPoolManager

end DuraLLM
