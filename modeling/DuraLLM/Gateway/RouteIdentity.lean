import DuraLLM.Execution.Executor
import DuraLLM.Routing.Pools

/-! # Routes and their endpoints

The gateway registers an endpoint for each route, under an id that names the
pool first.  The executor marks the pool manager by that endpoint: a quota by
the last segment of its id, a cooldown and a success by the whole id.  The pool
manager looks all of them up by the bare route id.
-/

namespace DuraLLM

def endpointFromRoute (route : RouteDefinition) (pool : String) (priority : Int) : Endpoint where
  id := pool ++ ":" ++ route.id
  provider := route.provider
  model := route.model
  protocol := route.apiFormat
  envKey := route.envKey
  priority := priority
  profile := some
    { provider := route.provider
      model := route.model
      contextWindow := route.contextLength
      maxOutputTokens := route.maxOutputTokens
      supportsTools := some true }
  pool := pool

/-! ## The marks of the executor -/

inductive ExecutorMark where
  | cooldown (seconds : Seconds)
  | quotaExhausted (seconds : Seconds)
  | success

namespace IsolatedPoolManager

variable (casing : Casing) (manager : IsolatedPoolManager)

def mark (pool : String) (endpoint : Endpoint) (now : Clock) : ExecutorMark → IsolatedPoolManager
  | .cooldown seconds => manager.markCooldown casing pool endpoint.id seconds now
  | .quotaExhausted seconds => manager.markQuotaExhausted casing pool (routeId endpoint) seconds now
  | .success => manager.recordRouteSuccess casing pool endpoint.id now

/-- What a note of the executor does to the pool manager. The gateway's manager
    is the process-wide one unless another is given. -/
def keep (now : Clock) : Bookkeeping → IsolatedPoolManager
  | .recordRouteSuccess pool endpointId => manager.recordRouteSuccess casing pool endpointId now
  | .markCooldown pool endpointId seconds | .markGlobalCooldown pool endpointId seconds =>
      manager.markCooldown casing pool endpointId seconds now
  | .markQuotaExhausted pool id seconds => manager.markQuotaExhausted casing pool id seconds now
  | .markProviderQuotaExhausted pool provider seconds =>
      manager.markProviderQuotaExhausted casing pool provider seconds now
  | .markDeprecated pool model => manager.markDeprecated casing pool model
  | _ => manager

variable {Json Decision : Type}

/-- The executor over the pool manager, with answers to everything else. -/
def poolHandle (now : Clock) (answer : (op : LocalOp Json) → op.Answer Json Decision) :
    Prog.Handler (localSig Json Decision) IsolatedPoolManager
  | .keep note, manager => ((), manager.keep casing now note)
  | op, manager => (answer op, manager)

section Marks

variable {casing} {manager} (call : ExecuteCall Json) (s : LoopState Json)
  (d : Dispatch Json Decision) (classified : FailureClassification) (now : Clock)
  (answer : (op : LocalOp Json) → op.Answer Json Decision)
  (pooled : call.executor.hasPoolManager = true)

include pooled

theorem stepFallback_marks :
    ((stepFallback call s d classified).exec (poolHandle casing now answer) manager).2 =
      match cooldownSeconds classified with
      | none => manager
      | some seconds => manager.mark casing call.pool d.endpoint now (.cooldown seconds) := by
  unfold stepFallback
  cases cooldownSeconds classified with
  | none => rfl
  | some seconds =>
      simp only [pooled, if_true]
      rfl

/-- The quota of one route. -/
theorem lockQuota_marks (quota : Seconds) (endpoint : Endpoint)
    (single : isAccountWide endpoint classified = false) :
    ((lockQuota call endpoint classified quota).exec (poolHandle casing now answer) manager).2 =
      manager.mark casing call.pool endpoint now
        (.quotaExhausted (if quota ≠ 0 then quota else 86400)) := by
  unfold lockQuota
  simp only [single, pooled, Bool.false_eq_true, if_false, if_true]
  split <;> split <;> rfl

theorem recordSuccess_marks (result : ExecutionResult) :
    ((recordSuccess call s d result).exec (poolHandle casing now answer) manager).2 =
      manager.mark casing call.pool d.endpoint now .success := by
  have lane : ∀ manager : IsolatedPoolManager,
      ((recordLaneOutcome d.endpoint none : Local Json Decision Unit).exec
        (poolHandle casing now answer) manager).2 = manager := by
    intro manager
    unfold recordLaneOutcome
    split
    · rfl
    · split <;> rfl
  unfold recordSuccess
  simp only [pooled, if_true, Prog.exec_bind, lane]
  split <;> rfl

end Marks

/-! ## Agreement -/

abbrev candidates (pool : String) (now : Clock) : List RouteDefinition :=
  (manager.getCandidateRoutes casing pool now).1

/-- The manager takes the mark, made at the time `since`, for one of the route:
    it leaves the route out until the time is over, or it has it as the last
    successful route. -/
def Notices (pool : String) (r : RouteDefinition) (since : Clock) : ExecutorMark → Prop
  | .cooldown seconds => ∀ now : Clock, since.monotonic ≤ now.monotonic →
      now.monotonic < since.monotonic + seconds → r ∉ manager.candidates casing pool now
  | .quotaExhausted seconds => ∀ now : Clock, since.epoch ≤ now.epoch →
      now.epoch < since.epoch + seconds → r ∉ manager.candidates casing pool now
  | .success => ∀ now : Clock, since.monotonic ≤ now.monotonic →
      now.monotonic < since.monotonic + stickyAffinitySeconds →
        r ∈ manager.candidates casing pool now →
          manager.stickyRoute casing pool (manager.candidates casing pool now) now = some r

/-- Whatever the manager holds about the routes, the mark is taken for one of
    this route and of no other. -/
def Agrees (pool : String) (routes : List RouteDefinition) (r : RouteDefinition) (priority : Int)
    (mark : ExecutorMark) : Prop :=
  ∀ (manager : IsolatedPoolManager) (since : Clock), manager.routes pool = routes →
    let after := manager.mark casing pool (endpointFromRoute r pool priority) since mark
    after.Notices casing pool r since mark ∧
      ∀ other ∈ routes, other.id ≠ r.id → ∀ now,
        (other ∈ after.candidates casing pool now ↔ other ∈ manager.candidates casing pool now)

/-! ### Other routes -/

section Others

variable {casing} {manager} {pool : String} {r : RouteDefinition}

theorem markCooldown_other {routeId : String} {seconds : Seconds} {since : Clock}
    (apart : casing.lower r.id ≠ casing.lower routeId) (now : Clock) :
    r ∈ (manager.markCooldown casing pool routeId seconds since).candidates casing pool now ↔
      r ∈ manager.candidates casing pool now := by
  have key : keyOf casing pool r.id ≠ keyOf casing pool routeId := fun same =>
    apart (congrArg Prod.snd same)
  have same : ((manager.markCooldown casing pool routeId seconds since).autoExpireCooldowns casing
      pool now).admits casing pool now r =
      (manager.autoExpireCooldowns casing pool now).admits casing pool now r := by
    refine admits_congr rfl rfl .rfl rfl rfl ?_
    simp only [autoExpireCooldowns, markCooldown, Dict.get_filter, Dict.get_set_ne _ _ key]
  rw [candidates, candidates, mem_candidates, mem_candidates, same]
  rfl

theorem markQuotaExhausted_other {routeId : String} {seconds : Seconds} {since : Clock}
    (apart : casing.lower r.id ≠ casing.lower routeId) (now : Clock) :
    r ∈ (manager.markQuotaExhausted casing pool routeId seconds since).candidates casing pool now ↔
      r ∈ manager.candidates casing pool now := by
  have key : keyOf casing pool r.id ≠ keyOf casing pool routeId := fun same =>
    apart (congrArg Prod.snd same)
  have same : ((manager.markQuotaExhausted casing pool routeId seconds since).autoExpireCooldowns
      casing pool now).admits casing pool now r =
      (manager.autoExpireCooldowns casing pool now).admits casing pool now r := by
    refine admits_congr rfl rfl .rfl rfl ?_ rfl
    simp only [autoExpireCooldowns, markQuotaExhausted, Dict.get_filter, Dict.get_set_ne _ _ key]
  rw [candidates, candidates, mem_candidates, mem_candidates, same]
  rfl

end Others

/-! ### A manager that leaves no route out -/

/-- The key that the route needs is there. -/
def addKey (keys : Dict String String) (r : RouteDefinition) : Dict String String :=
  match r.envKey with
  | none => keys
  | some key => keys.set key "key"

def keyring (routes : List RouteDefinition) : Dict String String := routes.foldl addKey .empty

theorem addKey_get {keys : Dict String String} {r : RouteDefinition} {key : String}
    (held : keys.get key = some "key" ∨ r.envKey = some key) :
    (addKey keys r).get key = some "key" := by
  unfold addKey
  cases needs : r.envKey with
  | none => simpa [needs] using held
  | some other =>
      simp only [Dict.get_set]
      split
      · rfl
      · next apart =>
        rw [needs] at held
        exact held.resolve_right fun same => apart (Option.some.inj same).symm

theorem keyring_get {routes : List RouteDefinition} {r : RouteDefinition} (member : r ∈ routes)
    {key : String} (needs : r.envKey = some key) : (keyring routes).get key = some "key" := by
  have keeps : ∀ (rest : List RouteDefinition) (keys : Dict String String),
      keys.get key = some "key" ∨ r ∈ rest → (rest.foldl addKey keys).get key = some "key" := by
    intro rest
    induction rest with
    | nil => simp
    | cons first rest ih =>
        intro keys held
        apply ih
        cases held with
        | inl held => exact .inl (addKey_get (.inl held))
        | inr member =>
            cases List.mem_cons.mp member with
            | inl here => exact .inl (addKey_get (.inr (here ▸ needs)))
            | inr later => exact .inr later
  exact keeps routes .empty (.inr member)

/-- Every route is in use. -/
def idle (routes : List RouteDefinition) : IsolatedPoolManager where
  keys := keyring routes
  codingRoutes := routes
  agentRoutes := routes

def startOfTime : Clock := ⟨0, 0⟩

/-- Only a table of cooldowns or of quotas keeps a route of this manager out. -/
structure Willing (routes : List RouteDefinition) (manager : IsolatedPoolManager) : Prop where
  holds : ∀ pool, manager.routes pool = routes
  allowed : manager.allowedProviders = none
  keys : manager.keys = keyring routes
  deprecated : manager.deprecated = []
  account : manager.accountLockouts = .empty

theorem willing_idle (routes : List RouteDefinition) : Willing routes (idle routes) where
  holds pool := by
    unfold IsolatedPoolManager.routes
    split <;> rfl
  allowed := rfl
  keys := rfl
  deprecated := rfl
  account := rfl

theorem Willing.mem_candidates {casing : Casing} {routes : List RouteDefinition}
    {manager : IsolatedPoolManager} (willing : Willing routes manager) {r : RouteDefinition}
    (member : r ∈ routes) (pool : String) :
    r ∈ manager.candidates casing pool startOfTime ↔
      (manager.exhaustedQuotas.get (keyOf casing pool r.id)).getD 0 ≤ 0 ∧
        (manager.cooldowns.get (keyOf casing pool r.id)).getD 0 ≤ 0 := by
  have expired : ∀ expiry : Option Seconds,
      (expiry.filter fun e => !(e ≤ 0)).getD 0 ≤ 0 ↔ expiry.getD 0 ≤ 0 := by
    intro expiry
    cases expiry with
    | none => rfl
    | some e => by_cases past : e ≤ 0 <;> simp [Option.filter, past]
  have keyed : (manager.autoExpireCooldowns casing pool startOfTime).hasKey r = true := by
    unfold hasKey
    split
    · rfl
    · next key needs =>
      split
      · rfl
      · simp only [autoExpireCooldowns, willing.keys, keyring_get member needs]
        decide
  rw [candidates, IsolatedPoolManager.mem_candidates, willing.holds pool]
  simp [member, admits, isAllowed, isRouteQuotaExhausted, keyed]
  simp [autoExpireCooldowns, willing.allowed, willing.deprecated, willing.account, startOfTime,
    Dict.get_filter, keyOf]
  exact and_congr (expired _) (expired _)

/-- A mark fills one of the tables. -/
theorem Willing.mark {casing : Casing} {routes : List RouteDefinition}
    {manager : IsolatedPoolManager} (willing : Willing routes manager) (pool : String)
    (endpoint : Endpoint) (now : Clock) (mark : ExecutorMark) :
    Willing routes (manager.mark casing pool endpoint now mark) := by
  cases mark <;>
    exact ⟨willing.holds, willing.allowed, willing.keys, willing.deprecated, willing.account⟩

section Iff

variable {casing} {pool : String} {routes : List RouteDefinition} {r : RouteDefinition}
  {priority : Int} {seconds : Seconds}

/-- No other route of the pool answers to this id. -/
def Alone (casing : Casing) (routes : List RouteDefinition) (r : RouteDefinition)
    (routeId : String) : Prop :=
  ∀ other ∈ routes, other.id ≠ r.id → casing.lower other.id ≠ casing.lower routeId

/-- A manager that keeps this key out for one second from the start of time. -/
def coolingDown (routes : List RouteDefinition) (key : String × String) : IsolatedPoolManager :=
  { idle routes with cooldowns := (Dict.empty : Dict _ Seconds).set key 1 }

def exhausted (routes : List RouteDefinition) (key : String × String) : IsolatedPoolManager :=
  { idle routes with exhaustedQuotas := (Dict.empty : Dict _ Seconds).set key 1 }

theorem willing_coolingDown (routes : List RouteDefinition) (key : String × String) :
    Willing routes (coolingDown routes key) :=
  ⟨(willing_idle routes).holds, rfl, rfl, rfl, rfl⟩

theorem willing_exhausted (routes : List RouteDefinition) (key : String × String) :
    Willing routes (exhausted routes key) :=
  ⟨(willing_idle routes).holds, rfl, rfl, rfl, rfl⟩

/-- A cooldown is filed under the qualified id, which is no id of the route. -/
theorem cooldown_agrees_iff (member : r ∈ routes) :
    Agrees casing pool routes r priority (.cooldown seconds) ↔
      seconds ≤ 0 ∧ Alone casing routes r (pool ++ ":" ++ r.id) := by
  constructor
  · intro agrees
    have short : seconds ≤ 0 := by
      by_contra long
      have willing := willing_idle routes
      have key : keyOf casing pool r.id ≠ keyOf casing pool (pool ++ ":" ++ r.id) := fun same =>
        casing.qualified_ne pool r.id (congrArg Prod.snd same).symm
      have omitted := (agrees (idle routes) startOfTime (willing.holds pool)).1 startOfTime
        (le_refl _) (by simpa [startOfTime] using long)
      rw [(willing.mark pool _ _ _).mem_candidates member] at omitted
      apply omitted
      simp [mark, markCooldown, endpointFromRoute, idle, Dict.get_set_ne _ _ key]
    refine ⟨short, fun other listed apart same => ?_⟩
    -- the mark overwrites a cooldown of the other route
    have key : keyOf casing pool other.id = keyOf casing pool (pool ++ ":" ++ r.id) :=
      congrArg (Prod.mk _) same
    have willing := willing_coolingDown routes (keyOf casing pool other.id)
    have agreed := (agrees _ startOfTime (willing.holds pool)).2 other listed apart startOfTime
    rw [willing.mem_candidates listed,
      (willing.mark pool _ _ _).mem_candidates listed] at agreed
    simp [mark, markCooldown, endpointFromRoute, coolingDown, idle, key, startOfTime] at agreed
    exact absurd (agreed.mp short) (not_le.mpr one_pos)
  · rintro ⟨short, alone⟩ manager since holds
    refine ⟨fun now after before => ?_, fun other listed apart now => ?_⟩
    · have ended : since.monotonic + seconds ≤ since.monotonic := by simpa using short
      exact absurd (before.trans_le ended) (not_lt.mpr after)
    · exact markCooldown_other (alone other listed apart) now

/-- A quota is filed under the last segment of the id. -/
theorem quota_agrees_iff (member : r ∈ routes) :
    Agrees casing pool routes r priority (.quotaExhausted seconds) ↔
      (0 < seconds → r.id.toList.count ':' = 0) ∧
        Alone casing routes r (Text.lastSegment r.id) := by
  have filed : routeId (endpointFromRoute r pool priority) = Text.lastSegment r.id :=
    Text.lastSegment_qualified pool r.id
  constructor
  · intro agrees
    have willing := willing_idle routes
    constructor
    · intro long
      by_contra qualified
      have key : keyOf casing pool r.id ≠ keyOf casing pool (Text.lastSegment r.id) := fun same =>
        qualified ((casing.lastSegment_eq_iff r.id).mp (congrArg Prod.snd same).symm)
      have omitted := (agrees (idle routes) startOfTime (willing.holds pool)).1 startOfTime
        (le_refl _) (by simpa [startOfTime] using long)
      rw [(willing.mark pool _ _ _).mem_candidates member] at omitted
      apply omitted
      simp [mark, markQuotaExhausted, filed, idle, Dict.get_set_ne _ _ key]
    · intro other listed apart same
      have key : keyOf casing pool other.id = keyOf casing pool (Text.lastSegment r.id) :=
        congrArg (Prod.mk _) same
      by_cases long : 0 < seconds
      · -- the mark keeps the other route out
        have agreed := (agrees _ startOfTime (willing.holds pool)).2 other listed apart startOfTime
        rw [willing.mem_candidates listed,
          (willing.mark pool _ _ _).mem_candidates listed] at agreed
        simp [mark, markQuotaExhausted, filed, idle, key, startOfTime] at agreed
        exact absurd agreed (not_le.mpr long)
      · -- the mark ends a quota of the other route
        have locked := willing_exhausted routes (keyOf casing pool other.id)
        have agreed := (agrees _ startOfTime (locked.holds pool)).2 other listed apart startOfTime
        rw [locked.mem_candidates listed,
          (locked.mark pool _ _ _).mem_candidates listed] at agreed
        simp [mark, markQuotaExhausted, filed, exhausted, idle, key, startOfTime] at agreed
        exact absurd (agreed.mp (not_lt.mp long)) (not_le.mpr one_pos)
  · rintro ⟨plain, alone⟩ manager since holds
    refine ⟨fun now after before => ?_, fun other listed apart now => ?_⟩
    · have long : 0 < seconds := by
        have later := after.trans_lt before
        simpa using later
      have locked : (manager.mark casing pool (endpointFromRoute r pool priority) since
          (.quotaExhausted seconds)).exhaustedQuotas.get (keyOf casing pool r.id) =
            some (since.epoch + seconds) := by
        simp [mark, markQuotaExhausted, filed, Text.lastSegment_of_no_colon (plain long)]
      exact not_mem_of_quota locked before
    · rw [mark, filed]
      exact markQuotaExhausted_other (alone other listed apart) now

/-- The last success is filed under the qualified id, where no route is looked
    up. -/
theorem success_disagrees (member : r ∈ routes) :
    ¬Agrees casing pool routes r priority .success := by
  intro agrees
  have willing := willing_idle routes
  have candidate : r ∈ ((idle routes).mark casing pool (endpointFromRoute r pool priority)
      startOfTime .success).candidates casing pool startOfTime := by
    rw [(willing.mark pool _ _ _).mem_candidates member]
    simp [mark, recordRouteSuccess, idle]
  have sticky := (agrees (idle routes) startOfTime (willing.holds pool)).1 startOfTime
    (le_refl _) (by decide +kernel) candidate
  simp only [stickyRoute] at sticky
  split at sticky
  · have found := List.find?_some sticky
    simp [mark, recordRouteSuccess, endpointFromRoute] at found
    exact casing.qualified_ne pool r.id found.symm
  · cases sticky

/-- What the marks need to land at the route and nowhere else. -/
def Lands (casing : Casing) (pool : String) (routes : List RouteDefinition) (r : RouteDefinition) :
    ExecutorMark → Prop
  | .cooldown seconds => seconds ≤ 0 ∧ Alone casing routes r (pool ++ ":" ++ r.id)
  | .quotaExhausted seconds => (0 < seconds → r.id.toList.count ':' = 0) ∧
      Alone casing routes r (Text.lastSegment r.id)
  | .success => False

/-- No success and no real cooldown reaches its route; a quota does when the
    route's id has no colon and no other route of the pool is its namesake. -/
theorem executor_marks_agree_iff (member : r ∈ routes) (mark : ExecutorMark) :
    Agrees casing pool routes r priority mark ↔ Lands casing pool routes r mark := by
  cases mark with
  | cooldown seconds => exact cooldown_agrees_iff member
  | quotaExhausted seconds => exact quota_agrees_iff member
  | success => exact iff_of_false (success_disagrees member) id

/-- A route whose id carries a tag. -/
def taggedRoute : RouteDefinition where
  id := "model:free"
  provider := "openrouter"
  model := "model:free"

theorem executor_marks_agree_iff_tagged :
    Agrees .ascii "coding" [taggedRoute] taggedRoute 1 (.quotaExhausted 60) ↔
      Lands .ascii "coding" [taggedRoute] taggedRoute (.quotaExhausted 60) :=
  executor_marks_agree_iff List.mem_cons_self _

/-- A route of the coding pool is still in use right after it was put on a
    cooldown of thirty seconds. -/
theorem cooled_route_in_use :
    ¬ ∀ (casing : Casing) (pool : String) (routes : List RouteDefinition) (r : RouteDefinition)
        (priority : Int) (mark : ExecutorMark), pool ∈ ["coding", "general_agent"] → r ∈ routes →
          Agrees casing pool routes r priority mark := by
  intro claim
  let r : RouteDefinition := { id := "groq-x", provider := "groq", model := "x" }
  have agrees := claim .ascii "coding" [r] r 1 (.cooldown 30) (by simp) (by simp)
  have omitted := (agrees (idle [r]) startOfTime rfl).1 ⟨0, 0⟩ (by decide) (by decide +kernel)
  exact omitted (by decide +kernel)

end Iff

end IsolatedPoolManager

end DuraLLM
