import DuraLLM.Routing.PoolIsolation

/-! # Relief from cooldowns

When every candidate of a pool is cooling, `select_route` gives up one cooldown:
the one that ends first of all that are recorded for the pool.  That helps only
if it is the cooldown of a route that nothing else keeps out of use.
-/

namespace DuraLLM

namespace IsolatedPoolManager

variable (casing : Casing) (manager : IsolatedPoolManager) (pool : String) (now : Clock)

/-- The tables as `select_route` goes by them: what has expired is purged first. -/
def purged : IsolatedPoolManager := manager.autoExpireCooldowns casing pool now

/-- A route of the pool that is allowed, keyed, not deprecated and within its quota. -/
structure Usable (r : RouteDefinition) : Prop where
  route : r ∈ manager.routes pool
  allowed : manager.isAllowed casing r = true
  keyed : manager.hasKey r = true
  current : (casing.lower pool, casing.lower r.model) ∉ manager.deprecated
  withinQuota : (manager.purged casing pool now).isRouteQuotaExhausted casing pool r.id r.provider now =
    false

/-- The route is under a short-term cooldown. -/
def cooling (r : RouteDefinition) : Bool :=
  now.monotonic < ((manager.purged casing pool now).cooldowns.get (keyOf casing pool r.id)).getD 0

variable {casing manager pool now} {r : RouteDefinition}

theorem mem_candidates_iff :
    r ∈ (manager.getCandidateRoutes casing pool now).1 ↔
      manager.Usable casing pool now r ∧ manager.cooling casing pool now r = false := by
  rw [mem_candidates, admits]
  simp only [Bool.and_eq_true, Bool.not_eq_true', decide_eq_false_iff_not, and_assoc]
  constructor
  · rintro ⟨route, allowed, keyed, current, quota, cool⟩
    exact ⟨⟨route, allowed, keyed, current, quota⟩, decide_eq_false cool⟩
  · rintro ⟨usable, cool⟩
    exact ⟨usable.route, usable.allowed, usable.keyed, usable.current, usable.withinQuota,
      of_decide_eq_false cool⟩

theorem getCandidateRoutes_snd :
    (manager.getCandidateRoutes casing pool now).2 = manager.purged casing pool now := rfl

variable (casing manager pool now) in
/-- Purging twice is purging once. -/
theorem purged_purged :
    (manager.purged casing pool now).purged casing pool now = manager.purged casing pool now := by
  simp only [purged, autoExpireCooldowns, Dict.filter_filter, Bool.and_self]

/-- The purged tables without one cooldown. -/
def without (casing : Casing) (manager : IsolatedPoolManager) (pool : String) (now : Clock)
    (key : String × String) : IsolatedPoolManager :=
  { manager.purged casing pool now with
    cooldowns := (manager.purged casing pool now).cooldowns.erase key }

/-- Only a cooldown is given up. -/
theorem usable_without {key : String × String} :
    (manager.without casing pool now key).Usable casing pool now r ↔
      manager.Usable casing pool now r := by
  have again := purged_purged casing manager pool now
  have quotasAgain := congrArg exhaustedQuotas again
  have accountsAgain := congrArg accountLockouts again
  have quotas : ((manager.without casing pool now key).purged casing pool now).exhaustedQuotas =
      (manager.purged casing pool now).exhaustedQuotas := quotasAgain
  have accounts : ((manager.without casing pool now key).purged casing pool now).accountLockouts =
      (manager.purged casing pool now).accountLockouts := accountsAgain
  have alike : ((manager.without casing pool now key).purged casing pool now).isRouteQuotaExhausted
      casing pool r.id r.provider now =
      (manager.purged casing pool now).isRouteQuotaExhausted casing pool r.id r.provider now := by
    simp only [isRouteQuotaExhausted, quotas, accounts]
  constructor
  · intro usable
    exact ⟨usable.route, usable.allowed, usable.keyed, usable.current,
      alike.symm.trans usable.withinQuota⟩
  · intro usable
    exact ⟨usable.route, usable.allowed, usable.keyed, usable.current,
      alike.trans usable.withinQuota⟩

/-- The route whose cooldown was given up is free, and the others are as they were. -/
theorem cooling_without {key : String × String} :
    (manager.without casing pool now key).cooling casing pool now r =
      if keyOf casing pool r.id = key then decide (now.monotonic < 0)
      else manager.cooling casing pool now r := by
  have twice : ((manager.without casing pool now key).purged casing pool now).cooldowns =
      ((manager.purged casing pool now).cooldowns.erase key).filter fun key expiry =>
        !(key.1 = casing.lower pool ∧ expiry ≤ now.monotonic) := rfl
  have once := congrArg cooldowns
    (purged_purged casing manager pool now)
  have purgedAgain : (manager.purged casing pool now).cooldowns.filter (fun key expiry =>
      !(key.1 = casing.lower pool ∧ expiry ≤ now.monotonic)) =
      (manager.purged casing pool now).cooldowns := once
  rw [cooling, twice, Dict.get_filter]
  split
  · next same =>
    rw [same, Dict.get_erase_self]
    rfl
  · next other =>
    have kept := congrArg (fun tables => tables.get (keyOf casing pool r.id)) purgedAgain
    simp only [Dict.get_filter] at kept
    rw [Dict.get_erase_ne _ other, kept]
    rfl

/-! ## What the pool offers -/

variable (casing manager pool now) in
/-- The cooldown that is given up is that of a usable route. -/
def ReliefServes : Prop :=
  0 ≤ now.monotonic ∧ ∃ r, manager.Usable casing pool now r ∧
    (manager.purged casing pool now).oldestCooldown casing pool = some (keyOf casing pool r.id)

theorem relieved_eq :
    (manager.relieved casing pool now).1 =
      if (manager.getCandidateRoutes casing pool now).1 = [] then
        match (manager.purged casing pool now).oldestCooldown casing pool with
        | none => []
        | some key => ((manager.without casing pool now key).getCandidateRoutes casing pool now).1
      else (manager.getCandidateRoutes casing pool now).1 := by
  rw [relieved]
  simp only [List.isEmpty_iff, getCandidateRoutes_snd]
  split
  · next none =>
    cases (manager.purged casing pool now).oldestCooldown casing pool with
    | none => exact none
    | some key => rfl
  · rfl

/-- Only usable routes are offered. -/
theorem usable_of_mem_relieved (member : r ∈ (manager.relieved casing pool now).1) :
    manager.Usable casing pool now r := by
  rw [relieved_eq] at member
  split at member
  · cases oldest : (manager.purged casing pool now).oldestCooldown casing pool with
    | none => simp [oldest] at member
    | some key =>
        simp only [oldest] at member
        exact usable_without.mp (mem_candidates_iff.mp member).1
  · exact (mem_candidates_iff.mp member).1

/-- When something is offered: a usable route is free, or relief reaches one. -/
theorem relieved_ne_nil_iff :
    (manager.relieved casing pool now).1 ≠ [] ↔
      (∃ r, manager.Usable casing pool now r ∧ manager.cooling casing pool now r = false) ∨
        manager.ReliefServes casing pool now := by
  have free : (manager.getCandidateRoutes casing pool now).1 ≠ [] ↔
      ∃ r, manager.Usable casing pool now r ∧ manager.cooling casing pool now r = false := by
    simp only [← mem_candidates_iff]
    exact ⟨List.exists_mem_of_ne_nil _, fun ⟨_, member⟩ => List.ne_nil_of_mem member⟩
  rw [relieved_eq]
  split
  · next none =>
    have cool : ∀ r, manager.Usable casing pool now r → manager.cooling casing pool now r = true := by
      intro r usable
      cases heat : manager.cooling casing pool now r with
      | true => rfl
      | false => exact absurd none (free.mpr ⟨r, usable, heat⟩)
    rw [← free]
    simp only [none, ne_eq, not_true_eq_false, false_or, ReliefServes]
    cases oldest : (manager.purged casing pool now).oldestCooldown casing pool with
    | none => simp
    | some key =>
        constructor
        · intro offered
          obtain ⟨r, member⟩ := List.exists_mem_of_ne_nil _ offered
          obtain ⟨usable, cold⟩ := mem_candidates_iff.mp member
          have here := usable_without.mp usable
          rw [cooling_without] at cold
          split at cold
          · next same =>
            exact ⟨not_lt.mp (of_decide_eq_false cold), r, here, congrArg some same.symm⟩
          · rw [cool r here] at cold
            cases cold
        · rintro ⟨started, r, usable, same⟩
          have key' := Option.some.inj same
          have cold : (manager.without casing pool now key).cooling casing pool now r = false := by
            rw [cooling_without, if_pos key'.symm]
            exact decide_eq_false (not_lt.mpr started)
          exact List.ne_nil_of_mem (mem_candidates_iff.mpr ⟨usable_without.mpr usable, cold⟩)
  · next some =>
    exact ⟨fun _ => .inl (free.mp some), fun _ => some⟩

/-! ## Selection -/

variable (casing manager pool now) in
/-- A route is selected from what is offered, and one is if there is any. -/
theorem selectRoute_answer :
    (∀ r, (manager.selectRoute casing pool now).1 = some r →
      r ∈ (manager.relieved casing pool now).1) ∧
      ((manager.selectRoute casing pool now).1 = none ↔
        (manager.relieved casing pool now).1 = []) := by
  rw [selectRoute]
  obtain ⟨candidates, after⟩ := manager.relieved casing pool now
  dsimp only
  have turn (index : Nat) : (∀ r, candidates[index % candidates.length]? = some r → r ∈ candidates) ∧
      (candidates ≠ [] → candidates[index % candidates.length]? ≠ none) := by
    constructor
    · exact fun r found => List.mem_of_getElem? found
    · intro some none
      have positive := List.length_pos_iff.mpr some
      have inside := Nat.mod_lt index positive
      have outside := List.getElem?_eq_none_iff.mp none
      omega
  cases sticky : after.stickyRoute casing pool candidates now with
  | some route =>
      have member : route ∈ candidates := by
        rw [stickyRoute] at sticky
        split at sticky
        · exact List.mem_of_find?_eq_some sticky
        · cases sticky
      constructor
      · intro r same
        cases same
        exact member
      · simp [List.ne_nil_of_mem member]
  | none =>
      dsimp only
      split
      · next empty =>
        simp [List.length_eq_zero_iff.mp empty]
      · next some =>
        have offered : candidates ≠ [] := fun none => some (by rw [none]; rfl)
        split
        · exact ⟨(turn _).1, by simp [offered, (turn after.codingIndex).2 offered]⟩
        · exact ⟨(turn _).1, by simp [offered, (turn after.agentIndex).2 offered]⟩

/-- The state after a run of calls on the pools. -/
def after (casing : Casing) (manager : IsolatedPoolManager) (requests : List PoolRequest) :
    IsolatedPoolManager :=
  requests.foldl (fun manager request => (manager.perform casing request).2) manager

/-- In every state that a run reaches, what is selected is usable; and that nothing is
    selected says that nothing is usable exactly when nothing is, a usable route is
    free, or the cooldown that ends first is that of a usable route. -/
theorem select_relieves_iff (casing : Casing) (start : IsolatedPoolManager)
    (requests : List PoolRequest) (pool : String) (now : Clock) :
    let manager := start.after casing requests
    (((manager.selectRoute casing pool now).1 = none → ∀ r, ¬manager.Usable casing pool now r) ∧
      ∀ r, (manager.selectRoute casing pool now).1 = some r → manager.Usable casing pool now r) ↔
    (∀ r, ¬manager.Usable casing pool now r) ∨
      (∃ r, manager.Usable casing pool now r ∧ manager.cooling casing pool now r = false) ∨
      manager.ReliefServes casing pool now := by
  intro manager
  obtain ⟨chosen, nothing⟩ := selectRoute_answer casing manager pool now
  have usable : ∀ r, (manager.selectRoute casing pool now).1 = some r →
      manager.Usable casing pool now r := fun r same => usable_of_mem_relieved (chosen r same)
  rw [nothing, ← relieved_ne_nil_iff]
  constructor
  · intro held
    by_cases empty : (manager.relieved casing pool now).1 = []
    · exact .inl (held.1 empty)
    · exact .inr empty
  · intro either
    refine ⟨fun empty => ?_, usable⟩
    cases either with
    | inl none => exact none
    | inr offered => exact absurd empty offered

/-! ### A cooldown of no use -/

section Sample

def coolingRoute : RouteDefinition where
  id := "groq-coding"
  provider := "groq"
  model := "x"

def oneRoute : IsolatedPoolManager where
  codingRoutes := [coolingRoute]

/-- The only route is rate limited, and so is one that is not there (any more). -/
def coolingRequests : List PoolRequest :=
  [⟨⟨0, 0⟩, "coding", .markCooldown "groq-coding" 60⟩, ⟨⟨0, 0⟩, "coding", .markCooldown "gone" 30⟩]

/-- Relief goes to the route that is gone, and nothing is selected. -/
theorem relief_misses_usable_route :
    ((oneRoute.after .ascii coolingRequests).selectRoute .ascii "coding" ⟨1, 1⟩).1 = none ∧
      (oneRoute.after .ascii coolingRequests).Usable .ascii "coding" ⟨1, 1⟩ coolingRoute := by
  constructor
  · decide +kernel
  · constructor
    · exact List.mem_singleton.mpr rfl
    · decide +kernel
    · decide +kernel
    · decide +kernel
    · decide +kernel

end Sample

end IsolatedPoolManager

end DuraLLM
