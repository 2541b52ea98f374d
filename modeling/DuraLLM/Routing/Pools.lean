import DuraLLM.Lib.Dict
import DuraLLM.Lib.Text
import DuraLLM.Protocol.Ir

/-! # Routing pools

`IsolatedPoolManager` holds the routes of the pools and what keeps a route out
of use: its cooldown, its daily quota, the quota of its provider's account, and
the models that are gone for good.  Routes are known by their lower-cased ids
within a lower-cased pool.

The manager holds its lock for a whole call, and a call reads each clock once.
-/

namespace DuraLLM

/-- `time.monotonic()` and `time.time()` -/
structure Clock where
  monotonic : Seconds
  epoch : Seconds

structure RouteDefinition where
  id : String
  provider : String
  model : String
  apiFormat : String := "openai"
  envKey : Option String := none
  contextLength : Int := 65536
  maxOutputTokens : Int := 4096
  deriving DecidableEq

/-- `bool(text.strip())` -/
def visible (text : String) : Bool := text.toList.any (!isSpace ·)

structure IsolatedPoolManager where
  allowedProviders : Option (List String) := none
  keys : Dict String String := .empty
  codingRoutes : List RouteDefinition := []
  agentRoutes : List RouteDefinition := []
  codingIndex : Nat := 0
  agentIndex : Nat := 0
  cooldowns : Dict (String × String) Seconds := .empty
  deprecated : List (String × String) := []
  exhaustedQuotas : Dict (String × String) Seconds := .empty
  accountLockouts : Dict String Seconds := .empty
  lastSuccess : Dict String String := .empty
  lastSuccessAt : Dict String Seconds := .empty

namespace IsolatedPoolManager

variable (casing : Casing) (manager : IsolatedPoolManager)

def routes (pool : String) : List RouteDefinition :=
  if pool = "coding" then manager.codingRoutes else manager.agentRoutes

/-- What the tables know a route by. -/
def keyOf (pool routeId : String) : String × String := (casing.lower pool, casing.lower routeId)

/-! ## Marks -/

def markCooldown (pool routeId : String) (seconds : Seconds) (now : Clock) : IsolatedPoolManager :=
  { manager with
    cooldowns := manager.cooldowns.set (keyOf casing pool routeId) (now.monotonic + seconds) }

def markQuotaExhausted (pool routeId : String) (seconds : Seconds) (now : Clock) :
    IsolatedPoolManager :=
  { manager with
    exhaustedQuotas :=
      manager.exhaustedQuotas.set (keyOf casing pool routeId) (now.epoch + seconds) }

/-- The account of the provider, and each route of it in the pool. -/
def markProviderQuotaExhausted (pool provider : String) (seconds : Seconds) (now : Clock) :
    IsolatedPoolManager :=
  let ofProvider := (manager.routes pool).filter fun r =>
    casing.lower r.provider = casing.lower provider
  { manager with
    accountLockouts := manager.accountLockouts.set (casing.lower provider) (now.epoch + seconds)
    exhaustedQuotas := ofProvider.foldl
      (fun quotas r => quotas.set (keyOf casing pool r.id) (now.epoch + seconds))
      manager.exhaustedQuotas }

def markDeprecated (pool model : String) : IsolatedPoolManager :=
  { manager with deprecated := (casing.lower pool, casing.lower model) :: manager.deprecated }

/-- The cooldown of the route in one pool. -/
def clearCooldown (routeId pool : String) : IsolatedPoolManager :=
  { manager with
    cooldowns := manager.cooldowns.filter fun key _ =>
      !(key.2 = casing.lower routeId ∧ key.1 = casing.lower pool) }

def recordRouteSuccess (pool routeId : String) (now : Clock) : IsolatedPoolManager :=
  { manager with
    lastSuccess := manager.lastSuccess.set (casing.lower pool) (casing.lower routeId)
    lastSuccessAt := manager.lastSuccessAt.set (casing.lower pool) now.monotonic }

/-! ## Candidates -/

def isRouteQuotaExhausted (pool routeId provider : String) (now : Clock) : Bool :=
  (provider ≠ "" ∧ now.epoch < (manager.accountLockouts.get (casing.lower provider)).getD 0) ∨
    now.epoch < (manager.exhaustedQuotas.get (keyOf casing pool routeId)).getD 0

/-- Purge what has expired: the accounts of all pools, the rest of this one. -/
def autoExpireCooldowns (pool : String) (now : Clock) : IsolatedPoolManager :=
  { manager with
    cooldowns := manager.cooldowns.filter fun key expiry =>
      !(key.1 = casing.lower pool ∧ expiry ≤ now.monotonic)
    exhaustedQuotas := manager.exhaustedQuotas.filter fun key expiry =>
      !(key.1 = casing.lower pool ∧ expiry ≤ now.epoch)
    accountLockouts := manager.accountLockouts.filter fun _ expiry => !(expiry ≤ now.epoch) }

def isAllowed (r : RouteDefinition) : Bool :=
  match manager.allowedProviders with
  | none => true
  | some providers => casing.lower r.provider ∈ providers

/-- A route that needs a key is only used with one. -/
def hasKey (r : RouteDefinition) : Bool :=
  match r.envKey with
  | none => true
  | some key => if key = "" then true else visible ((manager.keys.get key).getD "")

def admits (pool : String) (now : Clock) (r : RouteDefinition) : Bool :=
  manager.isAllowed casing r && manager.hasKey r &&
    !((casing.lower pool, casing.lower r.model) ∈ manager.deprecated) &&
    !manager.isRouteQuotaExhausted casing pool r.id r.provider now &&
    !(now.monotonic < (manager.cooldowns.get (keyOf casing pool r.id)).getD 0)

def getCandidateRoutes (pool : String) (now : Clock) : List RouteDefinition × IsolatedPoolManager :=
  let manager := manager.autoExpireCooldowns casing pool now
  ((manager.routes pool).filter (manager.admits casing pool now), manager)

/-! ## Selection -/

def stickyAffinitySeconds : Seconds := 120

/-- The route of the last success, if that was not long ago. -/
def stickyRoute (pool : String) (candidates : List RouteDefinition) (now : Clock) :
    Option RouteDefinition :=
  let p := casing.lower pool
  let lastId := (manager.lastSuccess.get p).getD ""
  let lastAt := (manager.lastSuccessAt.get p).getD 0
  if lastId ≠ "" ∧ now.monotonic - lastAt < stickyAffinitySeconds then
    candidates.find? fun r => casing.lower r.id = lastId
  else none

/-- The first of the entries that end earliest, as `min` takes it. -/
def older (oldest : Option ((String × String) × Seconds)) (entry : (String × String) × Seconds) :
    Option ((String × String) × Seconds) :=
  match oldest with
  | none => some entry
  | some old => if entry.2 < old.2 then some entry else some old

/-- The cooldown of the pool that ends first. -/
def oldestCooldown (pool : String) : Option (String × String) :=
  let ofPool := manager.cooldowns.entries.filter fun entry => entry.1.1 = casing.lower pool
  (ofPool.foldl older none).map (·.1)

/-- When every candidate is cooling, the oldest cooldown is given up. -/
def relieved (pool : String) (now : Clock) : List RouteDefinition × IsolatedPoolManager :=
  let (candidates, manager) := manager.getCandidateRoutes casing pool now
  if candidates.isEmpty then
    match manager.oldestCooldown casing pool with
    | none => (candidates, manager)
    | some key =>
        { manager with cooldowns := manager.cooldowns.erase key }.getCandidateRoutes casing pool now
  else (candidates, manager)

/-- Sticky affinity first, round robin otherwise. -/
def selectRoute (pool : String) (now : Clock) : Option RouteDefinition × IsolatedPoolManager :=
  let (candidates, manager) := manager.relieved casing pool now
  match manager.stickyRoute casing pool candidates now with
  | some sticky => (some sticky, manager)
  | none =>
      let n := candidates.length
      if n = 0 then (none, manager)
      else if pool = "coding" then
        (candidates[manager.codingIndex % n]?,
          { manager with codingIndex := (manager.codingIndex + 1) % n })
      else
        (candidates[manager.agentIndex % n]?,
          { manager with agentIndex := (manager.agentIndex + 1) % n })

/-- Append the route unless its id is there. -/
def addDiscoveredRoute (pool : String) (route : RouteDefinition) : IsolatedPoolManager :=
  if route.id ∈ (manager.routes pool).map (·.id) then manager
  else if pool = "coding" then { manager with codingRoutes := manager.codingRoutes ++ [route] }
  else { manager with agentRoutes := manager.agentRoutes ++ [route] }

/-! ## What a mark changes -/

section Marks

variable {casing} {manager} {pool : String} {now : Clock} {r : RouteDefinition}

/-- What keeps a route out of use is looked up under its own keys. -/
theorem admits_congr {other : IsolatedPoolManager}
    (allowed : other.allowedProviders = manager.allowedProviders) (keys : other.keys = manager.keys)
    (deprecated : (casing.lower pool, casing.lower r.model) ∈ other.deprecated ↔
      (casing.lower pool, casing.lower r.model) ∈ manager.deprecated)
    (account : other.accountLockouts.get (casing.lower r.provider) =
      manager.accountLockouts.get (casing.lower r.provider))
    (quota : other.exhaustedQuotas.get (keyOf casing pool r.id) =
      manager.exhaustedQuotas.get (keyOf casing pool r.id))
    (cooldown : other.cooldowns.get (keyOf casing pool r.id) =
      manager.cooldowns.get (keyOf casing pool r.id)) :
    other.admits casing pool now r = manager.admits casing pool now r := by
  simp only [admits, isAllowed, hasKey, isRouteQuotaExhausted, allowed, keys, deprecated, account,
    quota, cooldown]

theorem mem_candidates :
    r ∈ (manager.getCandidateRoutes casing pool now).1 ↔ r ∈ manager.routes pool ∧
      (manager.autoExpireCooldowns casing pool now).admits casing pool now r = true := by
  simp only [getCandidateRoutes, List.mem_filter]
  rfl

/-- A cooldown that has not ended keeps the route out. -/
theorem not_mem_of_cooldown {expiry : Seconds}
    (cooling : manager.cooldowns.get (keyOf casing pool r.id) = some expiry)
    (before : now.monotonic < expiry) : r ∉ (manager.getCandidateRoutes casing pool now).1 := by
  intro member
  have admitted := (mem_candidates.mp member).2
  simp [admits, autoExpireCooldowns, Dict.get_filter, cooling, before, Option.filter] at admitted

theorem not_mem_of_quota {expiry : Seconds}
    (exhausted : manager.exhaustedQuotas.get (keyOf casing pool r.id) = some expiry)
    (before : now.epoch < expiry) : r ∉ (manager.getCandidateRoutes casing pool now).1 := by
  intro member
  have admitted := (mem_candidates.mp member).2
  simp [admits, isRouteQuotaExhausted, autoExpireCooldowns, Dict.get_filter, exhausted, before,
    Option.filter] at admitted

end Marks

end IsolatedPoolManager

end DuraLLM
