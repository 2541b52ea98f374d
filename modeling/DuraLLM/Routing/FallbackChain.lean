import DuraLLM.Lib.RoundRobin
import DuraLLM.Routing.Relief

/-! # The fallback chain

A `UniversalFailoverRouter` with configured fallbacks goes around its chain and
takes the next entry that is not barred; only when it finds none does it ask
the manager of the pools.
-/

namespace DuraLLM

/-- An entry of the chain.  What else it says is handed on as it is. -/
structure FallbackItem where
  provider : String := ""
  model : String := ""
  deriving DecidableEq

/-- The state of a `UniversalFailoverRouter`. -/
structure FallbackRouter where
  fallbackChain : List FallbackItem := []
  allowedProviders : Option (List String) := none
  defaultPool : String := "general_agent"
  manager : IsolatedPoolManager := {}
  providerCooldowns : Dict String Seconds := .empty
  deprecatedModels : List String := []
  authFailedProviders : List String := []
  fallbackIndex : Int := -1

inductive NextRoute where
  | fallback (index : Int)
  | pooled (route : RouteDefinition)
  deriving DecidableEq

namespace FallbackRouter

variable (casing : Casing) (router : FallbackRouter)

/-! ## Marks -/

def poolOr (pool : Option String) : String := orText pool router.defaultPool

def markCooldown (provider : String) (seconds : Seconds) (pool routeId : Option String)
    (now : Clock) : FallbackRouter :=
  { router with
    providerCooldowns :=
      router.providerCooldowns.set (casing.lower provider) (now.monotonic + seconds)
    manager := router.manager.markCooldown casing (router.poolOr pool) (orText routeId provider)
      seconds now }

def markDeprecated (model : String) (pool : Option String) : FallbackRouter :=
  { router with
    deprecatedModels := model :: router.deprecatedModels
    manager := router.manager.markDeprecated casing (router.poolOr pool) model }

/-- The cooldowns of a route in all pools. -/
def clearEverywhere (manager : IsolatedPoolManager) (routeId : String) : IsolatedPoolManager :=
  { manager with
    cooldowns := manager.cooldowns.filter fun key _ => !(key.2 = casing.lower routeId) }

def recordSuccess (provider : String) (pool routeId : Option String) (now : Clock) :
    FallbackRouter :=
  let p := casing.lower provider
  let cleared := clearEverywhere casing router.manager (orText routeId p)
  { router with
    providerCooldowns := router.providerCooldowns.erase p
    authFailedProviders := router.authFailedProviders.filter (· ≠ p)
    manager :=
      match routeId with
      | none => cleared
      | some id => if id = "" then cleared
          else cleared.recordRouteSuccess casing (router.poolOr pool) id now }

def markAuthFailed (provider : String) : FallbackRouter :=
  { router with authFailedProviders := casing.lower provider :: router.authFailedProviders }

/-! ## Selection -/

/-- Nothing bars the entry at this time. -/
def free (item : FallbackItem) (now : Seconds) : Bool :=
  let p := casing.lower item.provider
  (match router.allowedProviders with
    | none => true
    | some providers => p ∈ providers) &&
    !(p ∈ router.authFailedProviders) && !(item.model ∈ router.deprecatedModels) &&
    !(now < (router.providerCooldowns.get p).getD 0)

/-- The entry with this number, at the time of this attempt. -/
def freeAt (clock : Nat → Seconds) (attempt : Nat) (index : Int) : Bool :=
  (router.fallbackChain[index.toNat]?).any fun item => router.free casing item (clock attempt)

/-- `clock` gives the readings of the attempts, `now` that of the manager. -/
def getNextAvailableRoute (pool : Option String) (clock : Nat → Seconds) (now : Clock) :
    Option NextRoute × FallbackRouter :=
  let n := router.fallbackChain.length
  let found := RoundRobin.seek n (router.freeAt casing clock) (n * 2) 0 router.fallbackIndex
  let router := { router with fallbackIndex := found.2 }
  match found.1 with
  | some index => (some (.fallback index), router)
  | none =>
      let (route, manager) := router.manager.selectRoute casing (router.poolOr pool) now
      (route.map .pooled, { router with manager })

/-- The current entry is not checked. -/
def activeProvider (now : Clock) : Option NextRoute × FallbackRouter :=
  if router.fallbackChain = [] then
    let (route, manager) := router.manager.selectRoute casing router.defaultPool now
    (route.map .pooled, { router with manager })
  else
    (some (.fallback (max 0 router.fallbackIndex % router.fallbackChain.length)), router)

/-! ## Runs -/

inductive Call where
  | markCooldown (provider : String) (seconds : Seconds) (pool routeId : Option String)
      (now : Clock)
  | markDeprecated (model : String) (pool : Option String)
  | recordSuccess (provider : String) (pool routeId : Option String) (now : Clock)
  | markAuthFailed (provider : String)
  | activeProvider (now : Clock)
  | getNextAvailableRoute (pool : Option String) (clock : Nat → Seconds) (now : Clock)

/-- The call asks for the next route. -/
def Call.asks : Call → Bool
  | .getNextAvailableRoute _ _ _ => true
  | _ => false

def after : Call → FallbackRouter
  | .markCooldown provider seconds pool routeId now =>
      router.markCooldown casing provider seconds pool routeId now
  | .markDeprecated model pool => router.markDeprecated casing model pool
  | .recordSuccess provider pool routeId now =>
      router.recordSuccess casing provider pool routeId now
  | .markAuthFailed provider => router.markAuthFailed casing provider
  | .activeProvider now => (router.activeProvider casing now).2
  | .getNextAvailableRoute pool clock now => (router.getNextAvailableRoute casing pool clock now).2

def run (calls : List Call) : FallbackRouter := calls.foldl (after casing) router

/-- The routes that the calls for one are answered with. -/
def answers (router : FallbackRouter) : List Call → List (Option NextRoute)
  | [] => []
  | .getNextAvailableRoute pool clock now :: calls =>
      (router.getNextAvailableRoute casing pool clock now).1 ::
        (router.getNextAvailableRoute casing pool clock now).2.answers calls
  | call :: calls => (router.after casing call).answers calls

/-- Whenever a route is asked for, nothing bars the entry with this number. -/
def StaysFree (index : Nat) (router : FallbackRouter) : List Call → Prop
  | [] => True
  | .getNextAvailableRoute pool clock now :: calls =>
      (∀ attempt, router.freeAt casing clock attempt index = true) ∧
        StaysFree index (router.getNextAvailableRoute casing pool clock now).2 calls
  | call :: calls => StaysFree index (router.after casing call) calls

/-! ## No entry is passed over -/

variable {casing router}

@[simp] theorem chain_after (call : Call) :
    (router.after casing call).fallbackChain = router.fallbackChain := by
  cases call with
  | getNextAvailableRoute pool clock now =>
      simp only [after, getNextAvailableRoute]
      split <;> rfl
  | activeProvider now =>
      simp only [after, activeProvider]
      split <;> rfl
  | _ => rfl

theorem chain_run (calls : List Call) :
    (router.run casing calls).fallbackChain = router.fallbackChain := by
  induction calls generalizing router with
  | nil => rfl
  | cons call calls ih => exact ih.trans (chain_after call)

theorem freeAt_of_free {index : Nat} {item : FallbackItem} {clock : Nat → Seconds} {attempt : Nat}
    (found : router.fallbackChain[index]? = some item)
    (free : router.free casing item (clock attempt) = true) :
    router.freeAt casing clock attempt index = true := by
  rw [freeAt, Int.toNat_natCast, found]
  exact free

/-- Only a call for the next route moves the index. -/
theorem index_after {call : Call} (other : call.asks = false) :
    (router.after casing call).fallbackIndex = router.fallbackIndex := by
  cases call with
  | getNextAvailableRoute pool clock now => cases other
  | activeProvider now =>
      simp only [after, activeProvider]
      split <;> rfl
  | _ => rfl

theorem index_next (pool : Option String) (clock : Nat → Seconds) (now : Clock) :
    (router.getNextAvailableRoute casing pool clock now).2.fallbackIndex =
      (RoundRobin.seek router.fallbackChain.length (router.freeAt casing clock)
        (router.fallbackChain.length * 2) 0 router.fallbackIndex).2 := by
  simp only [getNextAvailableRoute]
  split <;> rfl

/-- The index stands in the chain, or before it. -/
def Placed (router : FallbackRouter) : Prop :=
  RoundRobin.Inside router.fallbackChain.length router.fallbackIndex

theorem Placed.after (placed : router.Placed) (call : Call) :
    (router.after casing call).Placed := by
  unfold Placed at placed ⊢
  rw [chain_after]
  cases call with
  | getNextAvailableRoute pool clock now =>
      rw [FallbackRouter.after, index_next]
      rcases Nat.eq_zero_or_pos router.fallbackChain.length with empty | some_entry
      · rw [empty]
        rwa [empty] at placed
      · exact RoundRobin.seek_inside some_entry _ _ placed
  | _ =>
      rw [index_after rfl]
      exact placed

theorem Placed.run (placed : router.Placed) (calls : List Call) :
    (router.run casing calls).Placed := by
  induction calls generalizing router with
  | nil => exact placed
  | cons call calls ih => exact ih (placed.after call)

/-- An entry that nothing bars is what a call finds, or it comes nearer. -/
theorem Placed.next_nears (placed : router.Placed) {index : Nat}
    (entry : index < router.fallbackChain.length) (pool : Option String) {clock : Nat → Seconds}
    (now : Clock) (free : ∀ attempt, router.freeAt casing clock attempt index = true) :
    ∃ j, (router.getNextAvailableRoute casing pool clock now).1 = some (.fallback j) ∧
      (router.getNextAvailableRoute casing pool clock now).2.fallbackIndex = j ∧
      RoundRobin.Nears router.fallbackChain.length index router.fallbackIndex j := by
  have bound : (index : Int) < router.fallbackChain.length := by omega
  have within := RoundRobin.Inside.distance_le placed bound
  have enough : RoundRobin.distance router.fallbackChain.length router.fallbackIndex index ≤
      ((router.fallbackChain.length * 2 : Nat) : Int) := by omega
  obtain ⟨j, found, nears⟩ :=
    RoundRobin.seek_nears (Int.natCast_nonneg index) bound free 0 placed enough
  refine ⟨j, ?_, ?_, nears⟩
  · simp only [getNextAvailableRoute, found]
  · rw [index_next, found]

/-- The answers are stops of a cursor that never passes the entry by. -/
theorem Placed.rounds (placed : router.Placed) {index : Nat}
    (entry : index < router.fallbackChain.length) {calls : List Call}
    (free : StaysFree casing index router calls) :
    ∃ stops, router.answers casing calls = stops.map (some ∘ NextRoute.fallback) ∧
      RoundRobin.Rounds router.fallbackChain.length index router.fallbackIndex stops := by
  induction calls generalizing router with
  | nil => exact ⟨[], rfl, trivial⟩
  | cons call calls ih =>
      have later := @ih (router.after casing call) (placed.after call) (by rwa [chain_after])
      rw [chain_after] at later
      cases call with
      | getNextAvailableRoute pool clock now =>
          obtain ⟨here, rest⟩ := free
          obtain ⟨j, answer, stop, nears⟩ := placed.next_nears entry pool now here
          obtain ⟨stops, answers, rounds⟩ := later rest
          refine ⟨j :: stops, ?_, nears, ?_⟩
          · rw [FallbackRouter.answers, answer, List.map_cons]
            exact congrArg _ answers
          · rwa [FallbackRouter.after, stop] at rounds
      | _ =>
          rw [index_after rfl] at later
          exact later free

/-- A router before its first call. -/
def new (fallbackChain : List FallbackItem) (allowedProviders : Option (List String))
    (defaultPool : String) (manager : IsolatedPoolManager) : FallbackRouter :=
  { fallbackChain, allowedProviders, defaultPool, manager }

/-- After any calls, an entry that stays free is handed out in as many calls for
    a route as the chain has entries, and none of them is answered from the pools. -/
theorem no_starvation (casing : Casing) (chain : List FallbackItem)
    (allowedProviders : Option (List String)) (defaultPool : String)
    (manager : IsolatedPoolManager) (earlier calls : List Call) (index : Nat)
    (entry : index < chain.length)
    (free : StaysFree casing index
      ((new chain allowedProviders defaultPool manager).run casing earlier) calls) :
    let answers := ((new chain allowedProviders defaultPool manager).run casing earlier).answers
      casing calls
    (∀ answer ∈ answers, ∃ j, answer = some (.fallback j)) ∧
      (chain.length ≤ answers.length → some (.fallback index) ∈ answers) := by
  intro answers
  have start : (new chain allowedProviders defaultPool manager).Placed := by
    constructor
    · exact le_refl _
    · change (-1 : Int) < chain.length
      omega
  have placed : ((new chain allowedProviders defaultPool manager).run casing earlier).Placed :=
    start.run earlier
  have same : ((new chain allowedProviders defaultPool manager).run casing earlier).fallbackChain =
      chain := chain_run earlier
  obtain ⟨stops, answered, rounds⟩ := placed.rounds (by rwa [same]) free
  rw [Placed, same] at placed
  rw [same] at rounds
  constructor
  · intro answer member
    rw [show answers = _ from answered, List.mem_map] at member
    obtain ⟨j, -, rfl⟩ := member
    exact ⟨j, rfl⟩
  · intro enough
    rw [show answers = _ from answered] at enough ⊢
    rw [List.length_map] at enough
    have near := placed.distance_le (k := index) (by omega)
    have reached := rounds.mem (Int.natCast_nonneg index) placed (by omega)
    exact List.mem_map_of_mem reached

section Sample

/-- Two entries, of which the first is cooling down. -/
def twoEntries : FallbackRouter :=
  (new [⟨"groq", "coder"⟩, ⟨"nvidia", "llama"⟩] none "coding" {}).run .ascii
    [.markCooldown "Groq" 60 none none ⟨0, 0⟩]

def twoAsked : List Call :=
  [.getNextAvailableRoute none (fun _ => 5) ⟨5, 5⟩, .getNextAvailableRoute none (fun _ => 6) ⟨6, 6⟩]

theorem twoEntries_stays : StaysFree .ascii 1 twoEntries twoAsked := by
  have chain : twoEntries.fallbackChain[1]? = some ⟨"nvidia", "llama"⟩ := by
    rw [twoEntries, chain_run]
    rfl
  have first : twoEntries.free .ascii ⟨"nvidia", "llama"⟩ 5 = true := by decide +kernel
  have second : (twoEntries.after .ascii (.getNextAvailableRoute none (fun _ => 5) ⟨5, 5⟩)).free
      .ascii ⟨"nvidia", "llama"⟩ 6 = true := by decide +kernel
  have chain_later : (twoEntries.after .ascii
      (.getNextAvailableRoute none (fun _ => 5) ⟨5, 5⟩)).fallbackChain[1]? =
        some ⟨"nvidia", "llama"⟩ := by
    rw [chain_after, chain]
  exact ⟨fun _ => freeAt_of_free chain first, fun _ => freeAt_of_free chain_later second, trivial⟩

theorem no_starvation_cooling :
    (∀ answer ∈ twoEntries.answers .ascii twoAsked, ∃ j, answer = some (.fallback j)) ∧
      (2 ≤ (twoEntries.answers .ascii twoAsked).length →
        some (.fallback 1) ∈ twoEntries.answers .ascii twoAsked) :=
  no_starvation .ascii [⟨"groq", "coder"⟩, ⟨"nvidia", "llama"⟩] none "coding" {}
    [.markCooldown "Groq" 60 none none ⟨0, 0⟩] twoAsked 1 (by decide) twoEntries_stays

end Sample

end FallbackRouter

end DuraLLM
