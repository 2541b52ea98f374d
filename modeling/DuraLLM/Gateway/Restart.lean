import DuraLLM.Execution.Permits
import DuraLLM.Gateway.AccountLockouts
import DuraLLM.Gateway.RouteIdentity
import DuraLLM.Storage.QuotaLockouts
import Mathlib.Data.List.Induction

/-! # Quota lockouts after a restart

A new gateway takes the active lockouts out of the database.  The router of the
new process sees of them what is filed in the health store, under the id that
pool and route of the row make up: that is the endpoint only where its route id
has come through splitting and lower-casing unchanged.  The row of an account is
filed with the pool manager alone.
-/

namespace DuraLLM

/-! ## What the executor writes -/

namespace QuotaLockoutTable

variable {Json Decision : Type} (casing : Casing)

def keep (table : QuotaLockoutTable) : Bookkeeping → QuotaLockoutTable
  | .recordQuotaLockout providerId pool routeId expiresAt reason =>
      table.recordQuotaLockout casing providerId pool routeId expiresAt (some reason)
  | _ => table

/-- The executor over the table, at one time, with answers to everything else. -/
def handle (now : Seconds) (answer : (op : LocalOp Json) → op.Answer Json Decision) :
    Prog.Handler (localSig Json Decision) QuotaLockoutTable
  | .keep note, table => ((), table.keep casing note)
  | .wallTime, table => (now, table)
  | op, table => (answer op, table)

/-- A row for the route, by the last segment of the endpoint's id, and one for the account. -/
theorem lockQuota_records (now : Seconds)
    (answer : (op : LocalOp Json) → op.Answer Json Decision) (call : ExecuteCall Json)
    (endpoint : Endpoint) (classified : FailureClassification) {quota : Seconds}
    (nonzero : quota ≠ 0) (records : call.executor.recordsQuotaLockouts = true)
    (table : QuotaLockoutTable) :
    ((lockQuota call endpoint classified quota).exec (handle casing now answer) table).2 =
      let reason := some (clip 160 classified.message)
      let route := table.recordQuotaLockout casing endpoint.provider call.pool (routeId endpoint)
        (now + quota) reason
      if isAccountWide endpoint classified then
        route.recordQuotaLockout casing endpoint.provider call.pool "*" (now + quota) reason
      else route := by
  unfold lockQuota
  by_cases wide : isAccountWide endpoint classified = true <;>
    by_cases pooled : call.executor.hasPoolManager = true <;>
    simp [nonzero, wide, pooled, records, Prog.exec_bind] <;> rfl

end QuotaLockoutTable

/-! ## What a new gateway reads -/

/-- One row, in the constructor of `ProxyGateway`. -/
def restoreLockout (casing : Casing) (now : Clock)
    (restored : IsolatedPoolManager × HealthTelemetryStore) (row : QuotaLockout) :
    IsolatedPoolManager × HealthTelemetryStore :=
  let (manager, health) := restored
  let pool := casing.lower row.pool
  let routeId := casing.lower row.routeId
  let providerId := casing.lower row.providerId
  if now.epoch < row.expiresAt then
    let remaining := max 0 (row.expiresAt - now.epoch)
    if routeId = "*" ∨ routeId = "" then
      if providerId = "" then restored
      else
        ({ manager with
            accountLockouts := manager.accountLockouts.set providerId row.expiresAt
          }.markProviderQuotaExhausted casing pool providerId remaining now, health)
    else
      ({ manager with
          exhaustedQuotas := manager.exhaustedQuotas.set (pool, routeId) row.expiresAt },
        health.recordFailure (pool ++ ":" ++ routeId)
          ("Persisted daily quota lockout: " ++ row.reason) (some remaining) false now.epoch)
  else restored

def restoreLockouts (casing : Casing) (now : Clock) (rows : List QuotaLockout)
    (manager : IsolatedPoolManager) : IsolatedPoolManager × HealthTelemetryStore :=
  rows.foldl (restoreLockout casing now) (manager, Dict.empty)

/-- The endpoint id that the row is filed under in the health store. -/
def QuotaLockout.filedUnder (casing : Casing) (now : Clock) (row : QuotaLockout) : Option String :=
  let routeId := casing.lower row.routeId
  if now.epoch < row.expiresAt ∧ routeId ≠ "*" ∧ routeId ≠ "" then
    some (casing.lower row.pool ++ ":" ++ routeId)
  else none

/-- When the last row that is filed under the endpoint's id expires, long ago when there is
    none. -/
def restoredUntil (casing : Casing) (now : Clock) (rows : List QuotaLockout)
    (endpointId : String) : Seconds :=
  ((rows.filter fun row => row.filedUnder casing now = some endpointId).getLast?.map
    (·.expiresAt)).getD 0

section Restored

variable {casing : Casing} {now : Clock} {manager : IsolatedPoolManager}

theorem restoreLockout_quota (restored : IsolatedPoolManager × HealthTelemetryStore)
    (row : QuotaLockout) (endpointId : String) :
    (restoreLockout casing now restored row).2.quotaUntil endpointId =
      if row.filedUnder casing now = some endpointId then row.expiresAt
      else restored.2.quotaUntil endpointId := by
  simp only [restoreLockout, QuotaLockout.filedUnder]
  by_cases active : now.epoch < row.expiresAt
  · have remaining : 0 < row.expiresAt - now.epoch := sub_pos.mpr active
    by_cases wild : casing.lower row.routeId = "*" ∨ casing.lower row.routeId = ""
    · have unfiled : ¬(casing.lower row.routeId ≠ "*" ∧ casing.lower row.routeId ≠ "") := by
        tauto
      simp only [active, wild, unfiled, if_true, true_and, if_false, reduceCtorEq]
      split <;> rfl
    · obtain ⟨named, nonempty⟩ := not_or.mp wild
      simp only [active, named, nonempty, if_true, or_self, if_false, ne_eq, not_false_eq_true,
        and_self, Option.some.injEq, HealthTelemetryStore.quotaUntil_recordFailure,
        max_eq_right remaining.le, eq_comm]
      simp [Option.filter, remaining]
  · simp [active]

theorem filedUnder_iff {row : QuotaLockout} {pool id : String}
    (lowered : casing.lower row.pool = pool) :
    row.filedUnder casing now = some (pool ++ ":" ++ id) ↔
      now.epoch < row.expiresAt ∧ casing.lower row.routeId = id ∧ id ≠ "*" ∧ id ≠ "" := by
  unfold QuotaLockout.filedUnder
  simp only [lowered]
  split
  · next named =>
    rw [Option.some.injEq, String.append_right_inj]
    constructor
    · rintro rfl
      exact ⟨named.1, rfl, named.2⟩
    · exact fun same => same.2.1
  · next unnamed =>
    simp only [reduceCtorEq, false_iff]
    rintro ⟨active, rfl, named⟩
    exact unnamed ⟨active, named⟩

/-- Where all rows expire at one time, an endpoint is restored until then when a row is filed
    under its id. -/
theorem le_restoredUntil_iff {rows : List QuotaLockout} {endpointId : String} {expiry : Seconds}
    (same : ∀ row ∈ rows, row.expiresAt = expiry) (positive : 0 < expiry) :
    expiry ≤ restoredUntil casing now rows endpointId ↔
      ∃ row ∈ rows, row.filedUnder casing now = some endpointId := by
  unfold restoredUntil
  cases last : (rows.filter fun row => row.filedUnder casing now = some endpointId).getLast? with
  | none =>
      rw [List.getLast?_eq_none_iff, List.filter_eq_nil_iff] at last
      simp only [Option.map_none, Option.getD_none, not_le.mpr positive, false_iff]
      rintro ⟨row, member, filed⟩
      exact last row member (by simpa using filed)
  | some row =>
      obtain ⟨member, filed⟩ := List.mem_filter.mp (List.mem_of_getLast? last)
      simp only [Option.map_some, Option.getD_some, same row member, le_refl, true_iff]
      exact ⟨row, member, by simpa using filed⟩

theorem restoreLockouts_quota (rows : List QuotaLockout) (endpointId : String) :
    (restoreLockouts casing now rows manager).2.quotaUntil endpointId =
      restoredUntil casing now rows endpointId := by
  unfold restoreLockouts restoredUntil
  induction rows using List.reverseRecOn with
  | nil => rfl
  | append_singleton rows row ih =>
      rw [List.foldl_append, List.foldl_cons, List.foldl_nil, restoreLockout_quota, ih,
        List.filter_append]
      by_cases filed : row.filedUnder casing now = some endpointId <;> simp [filed]

end Restored

/-! ## Runs of the new gateway -/

namespace Serving

/-- The new gateway, before its routes are registered. -/
def restarted (casing : Casing) (now : Clock) (rows : List QuotaLockout)
    (manager : IsolatedPoolManager) : Serving where
  router := { registry := { endpoints := [], nodupIds := List.nodup_nil } }
  stores := { health := (restoreLockouts casing now rows manager).2 }
  clock := now.epoch

/-- Until this time no request is sent to the endpoint, or about to be, and it has no quota. -/
structure Held (s : Serving) (endpointId : String) (until_ : Seconds) : Prop where
  quota : until_ ≤ s.stores.health.quotaUntil endpointId
  away : ∀ request r, s.requests.get request = some r →
    ∀ endpoint ∈ r.phase.endpoint, endpoint.id ≠ endpointId

/-- The endpoint was not selected before this time, and it is held while it lasts. -/
structure Awaits (s : Serving) (endpointId : String) (until_ : Seconds) : Prop where
  selected : ∀ e ∈ s.selected, e.endpointId = endpointId → until_ ≤ e.time
  held : s.clock < until_ → s.Held endpointId until_

variable {s : Serving} {endpointId : String} {until_ : Seconds}

theorem keep_quota (note : Bookkeeping) (quotaFree : note.isQuotaFree = true) :
    (s.keep note).stores.health.quotaUntil endpointId = s.stores.health.quotaUntil endpointId := by
  cases note with
  | recordHealthSuccess id latencyMs =>
      exact HealthTelemetryStore.quotaUntil_recordSuccess _ _ _ _
  | recordToolOutcome id success => exact HealthTelemetryStore.quotaUntil_recordToolOutcome _ _ _
  | markDead id provider model reason =>
      exact HealthTelemetryStore.quotaUntil_markDead _ _ _ _ _
  | recordHealthFailure failure =>
      have absent : failure.quotaExhaustedSeconds = none := by
        simpa [Bookkeeping.isQuotaFree] using quotaFree
      simp only [keep, HealthTelemetryStore.quotaUntil_recordFailure, absent]
      split <;> rfl
  | _ => rfl

theorem Held.modify (held : s.Held endpointId until_) (request : Nat)
    (f : ServedRequest → ServedRequest)
    (keeps : ∀ r, ∀ endpoint ∈ (f r).phase.endpoint, endpoint ∈ r.phase.endpoint) :
    ({ s with requests := s.requests.modify request f } : Serving).Held endpointId until_ := by
  refine ⟨held.quota, ?_⟩
  intro other r found endpoint inside
  rw [Dict.get_modify] at found
  split at found
  · obtain ⟨before, was, rfl⟩ := Option.map_eq_some_iff.mp found
    exact held.away _ before was endpoint (keeps before endpoint inside)
  · exact held.away other r found endpoint inside

theorem Held.set (held : s.Held endpointId until_) (request : Nat) {r : ServedRequest}
    (away : ∀ endpoint ∈ r.phase.endpoint, endpoint.id ≠ endpointId) :
    ({ s with requests := s.requests.set request r } : Serving).Held endpointId until_ := by
  refine ⟨held.quota, ?_⟩
  intro other r' found endpoint inside
  rw [Dict.get_set] at found
  split at found
  · cases found
    exact away endpoint inside
  · exact held.away other r' found endpoint inside

theorem Held.erase (held : s.Held endpointId until_) (request : Nat) :
    ({ s with requests := s.requests.erase request } : Serving).Held endpointId until_ := by
  refine ⟨held.quota, ?_⟩
  intro other r found endpoint inside
  by_cases same : other = request
  · subst same
    simp at found
  · rw [Dict.get_erase_ne _ same] at found
    exact held.away other r found endpoint inside

/-- An endpoint without quota is not selected. -/
theorem Held.unselected (held : s.Held endpointId until_) (early : s.clock < until_)
    {r : ServedRequest} {call : SelectionCall} {endpoint : Endpoint}
    (selected : (s.router.select { call.reads with now := s.clock } call.policy call.requirements
      s.stores r.pool call.strategy call.requestId r.excluded call.fallbackReason).1.1 =
        some endpoint) : endpoint.id ≠ endpointId := by
  intro same
  obtain ⟨turn, _, rfl, passes⟩ := CapabilityRouter.select_passes _ _ _ _ _ _ _ selected
  have quota := passes.quota
  simp only [EndpointHealthSnapshot.isQuotaExhausted, RouterStores.healthOf,
    HealthTelemetryStore.snapshot_quota, same, decide_eq_false_iff_not, not_lt] at quota
  exact absurd (le_trans held.quota quota) (not_le.mpr early)

theorem Awaits.choose (awaits : s.Awaits endpointId until_) (request : Nat) (r : ServedRequest)
    (call : SelectionCall) : (s.choose request r call).Awaits endpointId until_ := by
  have kept (early : s.clock < until_) :
      until_ ≤ (s.router.select { call.reads with now := s.clock } call.policy call.requirements
        s.stores r.pool call.strategy call.requestId r.excluded
        call.fallbackReason).2.2.health.quotaUntil endpointId := by
    rw [CapabilityRouter.select_quota]
    exact (awaits.held early).quota
  unfold Serving.choose
  simp only
  split
  · exact ⟨awaits.selected, fun early => ⟨kept early, (awaits.held early).away⟩⟩
  · next endpoint selected =>
    constructor
    · intro e member same
      cases List.mem_cons.mp member with
      | inl new =>
          subst new
          by_contra early
          exact (awaits.held (not_le.mp early)).unselected (not_le.mp early) selected same
      | inr old => exact awaits.selected e old same
    · intro early
      have away : ∀ other ∈ (RequestPhase.chosen endpoint).endpoint, other.id ≠ endpointId := by
        intro other inside
        cases inside
        exact (awaits.held early).unselected early selected
      exact ⟨kept early, ((awaits.held early).set request away).away⟩

theorem Awaits.failed (awaits : s.Awaits endpointId until_) {request : Nat} {r : ServedRequest}
    {endpoint : Endpoint} (found : s.requests.get request = some r)
    (phase : r.phase = .sent endpoint) (result : ExecutionResult)
    (classified : FailureClassification) :
    (s.failed request r endpoint result classified).Awaits endpointId until_ := by
  refine ⟨awaits.selected, fun early => ⟨?_, ?_⟩⟩
  · have held := awaits.held early
    have other : endpoint.id ≠ endpointId := held.away request r found endpoint (by
      simp [RequestPhase.endpoint, phase])
    simp only [Serving.failed, keep, HealthTelemetryStore.quotaUntil_recordFailure,
      if_neg (Ne.symm other)]
    exact held.quota
  · exact ((awaits.held early).set request (by simp [RequestPhase.endpoint])).away

theorem awaits_step (awaits : s.Awaits endpointId until_) (step : ServingStep) :
    (s.step step).Awaits endpointId until_ := by
  cases step with
  | wait seconds =>
      refine ⟨awaits.selected, fun early => ?_⟩
      have held := awaits.held (lt_of_le_of_lt (le_add_of_nonneg_right (le_max_left _ _)) early)
      exact ⟨held.quota, held.away⟩
  | register _ | elsewhere _ =>
      exact ⟨awaits.selected, fun early =>
        ⟨(awaits.held early).quota, (awaits.held early).away⟩⟩
  | note n quotaFree =>
      obtain ⟨requests, -, clock, selected⟩ := s.keep_requests n
      constructor
      · intro e member
        rw [Serving.step, selected] at member
        exact awaits.selected e member
      · intro early
        rw [Serving.step, clock] at early
        obtain ⟨quota, away⟩ := awaits.held early
        constructor
        · rw [Serving.step, keep_quota n quotaFree]
          exact quota
        · rw [Serving.step, requests]
          exact away
  | arrive request pool =>
      exact ⟨awaits.selected, fun early =>
        (awaits.held early).set request (by simp [RequestPhase.endpoint])⟩
  | select request call =>
      apply whenBetween_induct (P := fun s => s.Awaits endpointId until_) awaits
      intro r _ _
      exact awaits.choose request r call
  | giveUp request =>
      exact ⟨awaits.selected, fun early =>
        (awaits.held early).modify request _ fun _ _ inside => by cases inside⟩
  | dispatch request =>
      refine ⟨awaits.selected, fun early => (awaits.held early).modify request _ ?_⟩
      intro r endpoint inside
      split at inside
      · next phase => simpa [RequestPhase.endpoint, phase] using inside
      · exact inside
  | exclude request id =>
      exact ⟨awaits.selected, fun early =>
        (awaits.held early).modify request _ fun _ _ inside => inside⟩
  | rollOver request ids =>
      exact ⟨awaits.selected, fun early =>
        (awaits.held early).modify request _ fun _ _ inside => inside⟩
  | fail request result classified =>
      apply whenSent_induct (P := fun s => s.Awaits endpointId until_) awaits
      intro r endpoint found phase
      exact awaits.failed found phase result classified
  | crash request classified =>
      apply whenSent_induct (P := fun s => s.Awaits endpointId until_) awaits
      intro r endpoint found phase
      refine ⟨awaits.selected, fun early => ?_⟩
      exact ⟨((awaits.held early).erase request).quota, ((awaits.held early).erase request).away⟩
  | finish request => exact ⟨awaits.selected, fun early => (awaits.held early).erase request⟩

theorem awaits_run (awaits : s.Awaits endpointId until_) (steps : List ServingStep) :
    (s.run steps).Awaits endpointId until_ := by
  induction steps generalizing s with
  | nil => exact awaits
  | cons step steps ih => exact ih (awaits_step awaits step)

/-- In no run of the new gateway is the endpoint selected before this time. -/
def NeverSelected (casing : Casing) (now : Clock) (rows : List QuotaLockout)
    (manager : IsolatedPoolManager) (endpointId : String) (until_ : Seconds) : Prop :=
  ∀ steps, ∀ e ∈ ((restarted casing now rows manager).run steps).selected,
    e.endpointId = endpointId → until_ ≤ e.time

section Restarted

variable {casing : Casing} {now : Clock} {rows : List QuotaLockout} {manager : IsolatedPoolManager}

theorem neverSelected_of_restored
    (restored : until_ ≤ restoredUntil casing now rows endpointId) :
    NeverSelected casing now rows manager endpointId until_ := by
  intro steps
  have start : (restarted casing now rows manager).Awaits endpointId until_ := by
    refine ⟨by simp [restarted], fun _ => ⟨?_, by simp [restarted]⟩⟩
    rw [restarted, restoreLockouts_quota]
    exact restored
  exact (awaits_run start steps).selected

/-! ### Nothing else keeps a new gateway from a route -/

/-- A request that asks for nothing but a single token. -/
def modestCall (casing : Casing) : SelectionCall where
  reads := { now := 0, casing, breakerWorld := fun _ => { clock := fun _ => 0 } }
  policy := {}
  requirements := { expectedOutputTokens := 1 }

/-- Wait, register the endpoint, and route a request to its pool. -/
def probe (casing : Casing) (seconds : Seconds) (endpoint : Endpoint) : List ServingStep :=
  [.wait seconds, .register endpoint, .arrive 0 endpoint.pool, .select 0 (modestCall casing)]

theorem restoreLockouts_alive : (restoreLockouts casing now rows manager).2.AllAlive := by
  unfold restoreLockouts
  induction rows using List.reverseRecOn with
  | nil => exact HealthTelemetryStore.allAlive_empty
  | append_singleton rows row ih =>
      rw [List.foldl_append, List.foldl_cons, List.foldl_nil]
      simp only [restoreLockout]
      split
      · split
        · split <;> exact ih
        · exact ih.recordFailure _ _ _ _
      · exact ih

theorem modest_satisfies (profile : ModelProfile) (health : EndpointHealthSnapshot)
    (time : Seconds) :
    RequirementVector.Satisfies casing (modestCall casing).requirements profile health time := by
  constructor <;> simp [modestCall]

theorem route_fits {route : RouteDefinition} (roomy : 1 ≤ route.contextLength) (pool : String)
    (priority : Int) {profile : ModelProfile}
    (declared : (endpointFromRoute route pool priority).profile = some profile) :
    FitsContext profile 0 1 0 true := by
  simp only [endpointFromRoute, Option.some.injEq] at declared
  subst declared
  simp only [FitsContext, effectiveOutput]
  omega

theorem route_admissible {route : RouteDefinition} (roomy : 1 ≤ route.contextLength)
    (pool : String) (priority : Int) {router : CapabilityRouter} (undead : router.deadList = [])
    {health : HealthTelemetryStore} (alive : health.AllAlive) {time : Seconds}
    (expired : health.quotaUntil (endpointFromRoute route pool priority).id ≤ time) :
    CapabilityRouter.Admissible router { (modestCall casing).reads with now := time }
      (modestCall casing).requirements [] { health } (endpointFromRoute route pool priority)
      (RouterStores.breakerState { (modestCall casing).reads with now := time } { health }
        (endpointFromRoute route pool priority)) where
  notExcluded := List.not_mem_nil
  alive := by
    simp [CapabilityRouter.Dead, undead, RouterStores.healthOf, alive _ _ _]
  quota := by
    simpa [EndpointHealthSnapshot.isQuotaExhausted, RouterStores.healthOf,
      HealthTelemetryStore.snapshot_quota] using expired
  constraints := modest_satisfies _ _ _
  context := route_fits roomy pool priority rfl
  lane := by simp [endpointFromRoute]
  breaker := by
    constructor <;>
      simp [RouterStores.breakerState, RouterStores.breaker, CircuitBreaker.observe,
        CircuitBreaker.checkAndUpdateState, CircuitBreaker.new, CircuitBreaker.ticked, modestCall]

/-- The probe ends with the route selected, once it has quota. -/
theorem probe_selects {route : RouteDefinition} (pool : String) (priority : Int) {time : Seconds}
    (later : now.epoch ≤ time) (roomy : 1 ≤ route.contextLength)
    (expired : restoredUntil casing now rows (endpointFromRoute route pool priority).id ≤ time) :
    ((restarted casing now rows manager).run (probe casing (time - now.epoch)
      (endpointFromRoute route pool priority))).selected =
        [{ endpointId := (endpointFromRoute route pool priority).id, time }] := by
  have clock : now.epoch + max 0 (time - now.epoch) = time := by
    rw [max_eq_right (sub_nonneg.mpr later), add_sub_cancel]
  let router : CapabilityRouter :=
    { registry := CapabilityRegistry.register { endpoints := [], nodupIds := List.nodup_nil }
        (endpointFromRoute route pool priority) }
  have only : router.registry.endpointsForPool pool = [endpointFromRoute route pool priority] := by
    simp [router, CapabilityRegistry.register, CapabilityRegistry.endpointsForPool,
      endpointFromRoute]
  rw [← @restoreLockouts_quota casing now manager] at expired
  have chosen : (router.select { (modestCall casing).reads with now := time }
      (modestCall casing).policy (modestCall casing).requirements
      { health := (restoreLockouts casing now rows manager).2 } pool none "" [] none).1.1 =
        some (endpointFromRoute route pool priority) :=
    CapabilityRouter.select_only _ _ _ _ _ _ _ only
      (route_admissible roomy pool priority rfl restoreLockouts_alive expired)
  have ready : (restarted casing now rows manager).run
      [.wait (time - now.epoch), .register (endpointFromRoute route pool priority),
        .arrive 0 (endpointFromRoute route pool priority).pool] =
      { router, stores := { health := (restoreLockouts casing now rows manager).2 }, clock := time
        requests := Dict.empty.set 0 { pool } } := by
    simp only [run, List.foldl_cons, List.foldl_nil, step, restarted, clock]
    rfl
  have steps : probe casing (time - now.epoch) (endpointFromRoute route pool priority) =
      [.wait (time - now.epoch), .register (endpointFromRoute route pool priority),
        .arrive 0 (endpointFromRoute route pool priority).pool] ++
      [.select 0 (modestCall casing)] := rfl
  rw [steps, run_append, ready]
  simp only [run, List.foldl_cons, List.foldl_nil, step, whenBetween, Dict.get_set_self, if_true]
  exact choose_selected chosen

/-- A gateway that the database does not keep from an endpoint id selects it in time. -/
theorem neverSelected_iff (route : RouteDefinition) (pool : String) (priority : Int)
    (soon : now.epoch < until_) :
    NeverSelected casing now rows manager (endpointFromRoute route pool priority).id until_ ↔
      until_ ≤ restoredUntil casing now rows (endpointFromRoute route pool priority).id := by
  refine ⟨fun never => ?_, neverSelected_of_restored⟩
  by_contra early
  -- the route of this id in a gateway that has given it a context
  let roomy : RouteDefinition := { route with contextLength := 65536 }
  have fits : 1 ≤ roomy.contextLength := by norm_num [roomy]
  have selected : ((restarted casing now rows manager).run _).selected = _ :=
    probe_selects pool priority (le_max_left now.epoch _) fits
      (le_max_right _ _)
  have late := never _ _ (by rw [selected]; exact List.mem_singleton.mpr rfl) rfl
  exact absurd late (not_le.mpr (max_lt soon (not_le.mp early)))

end Restarted

end Serving

/-! ## A lockout and a restart -/

/-- The executor records that a quota is gone, and a new gateway starts on the database before
    the quota is back. -/
structure LockedRestart (Json Decision : Type) (casing : Casing) where
  call : ExecuteCall Json
  records : call.executor.recordsQuotaLockouts = true
  answer : (op : LocalOp Json) → op.Answer Json Decision
  route : RouteDefinition
  priority : Int
  classified : FailureClassification
  quota : Seconds
  billed : quotaSeconds classified = some quota
  /-- When it is recorded, and what the database has held until then. -/
  since : Seconds
  before : QuotaLockoutTable
  now : Clock
  soon : now.epoch < since + quota
  /-- The database lists its rows as it likes. -/
  rows : List QuotaLockout
  listed : rows.Perm ((((lockQuota call (endpointFromRoute route call.pool priority) classified
    quota).exec (QuotaLockoutTable.handle casing since answer) before).2).getActiveQuotaLockouts
      casing none now.epoch)
  manager : IsolatedPoolManager

namespace LockedRestart

variable {Json Decision : Type} {casing : Casing} (r : LockedRestart Json Decision casing)

def pool : String := r.call.pool

def endpoint : Endpoint := endpointFromRoute r.route r.pool r.priority

def expiry : Seconds := r.since + r.quota

/-- The lockout is about the route, or about every route of its provider. -/
def Locks (other : RouteDefinition) : Prop :=
  other.id = r.route.id ∨
    isAccountWide r.endpoint r.classified = true ∧
      casing.lower other.provider = casing.lower r.route.provider

/-- The routes that the new gateway has in the pool are left alone until the quota is back. -/
def Survives : Prop :=
  ∀ other ∈ r.manager.routes r.pool, r.Locks other → ∀ priority,
    Serving.NeverSelected casing r.now r.rows r.manager
      (endpointFromRoute other r.pool priority).id r.expiry

theorem survives_iff {restored : RouteDefinition → Prop}
    (each : ∀ other, r.expiry ≤ restoredUntil casing r.now r.rows (r.pool ++ ":" ++ other.id) ↔
      restored other) :
    r.Survives ↔ ∀ other ∈ r.manager.routes r.pool, r.Locks other → restored other := by
  constructor
  · intro survives other member locks
    exact (each other).mp ((Serving.neverSelected_iff other r.pool 0 r.soon).mp
      (survives other member locks 0))
  · intro restored other member locks priority
    exact (Serving.neverSelected_iff other r.pool priority r.soon).mpr
      ((each other).mpr (restored other member locks))

/-- A lockout survives the restart when each of its endpoints has a row filed under its very id
    that lasts as long. -/
theorem lockout_survives_restart_iff :
    r.Survives ↔ ∀ other ∈ r.manager.routes r.pool, r.Locks other →
      r.expiry ≤ restoredUntil casing r.now r.rows (r.pool ++ ":" ++ other.id) :=
  r.survives_iff fun _ => Iff.rfl

/-! ### A database without other lockouts -/

/-- What splitting and lower-casing make of a route id on its way to the health store. -/
def filedId (casing : Casing) (id : String) : String :=
  casing.lower (casing.lower (Text.lastSegment id))

theorem filedId_eq_self_iff (id : String) :
    filedId casing id = id ↔ id.toList.count ':' = 0 ∧ casing.lower (casing.lower id) = id := by
  constructor
  · intro same
    have plain : id.toList.count ':' = 0 := by
      rw [← same, filedId, casing.colons, casing.colons, Text.lastSegment_count]
    rw [filedId, Text.lastSegment_of_no_colon plain] at same
    exact ⟨plain, same⟩
  · rintro ⟨plain, same⟩
    rw [filedId, Text.lastSegment_of_no_colon plain, same]

theorem quota_ne_zero : r.quota ≠ 0 := by
  have billed := r.billed
  simp only [quotaSeconds, orNumber] at billed
  split at billed
  · split at billed
    · rw [← Option.some.inj billed]
      norm_num
    · split at billed
      · rw [← Option.some.inj billed]
        norm_num
      · next nonzero =>
        rw [← Option.some.inj billed]
        exact nonzero
  · cases billed

/-- The rows, in whatever order they come, are the route's and that of the account. -/
theorem mem_rows_iff (fresh : r.before = Dict.empty) {row : QuotaLockout} :
    row ∈ r.rows ↔
      row.providerId = casing.lower r.route.provider ∧ row.pool = casing.lower r.pool ∧
        (row.routeId = casing.lower (Text.lastSegment r.route.id) ∨
          isAccountWide r.endpoint r.classified = true ∧ row.routeId = casing.lower "*") ∧
        row.expiresAt = r.expiry ∧ row.reason = clip 160 r.classified.message := by
  rw [r.listed.mem_iff, QuotaLockoutTable.mem_getActiveQuotaLockouts,
    QuotaLockoutTable.lockQuota_records casing _ _ _ _ _ r.quota_ne_zero r.records, fresh]
  have last : routeId (endpointFromRoute r.route r.call.pool r.priority) =
      Text.lastSegment r.route.id := Text.lastSegment_qualified r.call.pool r.route.id
  have active : r.now.epoch < r.expiry := r.soon
  have provider : (endpointFromRoute r.route r.call.pool r.priority).provider = r.route.provider :=
    rfl
  simp only [QuotaLockoutTable.recordQuotaLockout, Option.getD_some, last, provider]
  cases wide : isAccountWide (endpointFromRoute r.route r.call.pool r.priority) r.classified with
  | true =>
      simp only [if_true, Dict.get_set, Dict.get_empty, Prod.mk.injEq, endpoint, pool, wide, expiry]
      grind [expiry]
  | false =>
      simp only [Bool.false_eq_true, if_false, Dict.get_set, Dict.get_empty, Prod.mk.injEq,
        endpoint, pool, wide, expiry]
      grind [expiry]

/-- With no other lockout in the database, a route is left alone when the id that the locked
    route is filed under is its own. -/
theorem lone_survives_iff (fresh : r.before = Dict.empty)
    (lowered : casing.lower (casing.lower r.pool) = r.pool) (positive : 0 < r.expiry) :
    r.Survives ↔ ∀ other ∈ r.manager.routes r.pool, r.Locks other →
      filedId casing r.route.id = other.id ∧ other.id ≠ "*" ∧ other.id ≠ "" := by
  refine r.survives_iff fun other => ?_
  have same : ∀ row ∈ r.rows, row.expiresAt = r.expiry := fun row member =>
    ((r.mem_rows_iff fresh).mp member).2.2.2.1
  rw [le_restoredUntil_iff same positive]
  constructor
  · rintro ⟨row, member, filed⟩
    obtain ⟨-, pool, route, expires, -⟩ := (r.mem_rows_iff fresh).mp member
    obtain ⟨-, id, named⟩ := (filedUnder_iff (by rw [pool, lowered])).mp filed
    cases route with
    | inl own => exact ⟨by rw [← id, own, filedId], named⟩
    | inr account =>
        -- the row of the account is filed with the pool manager only
        have star : casing.lower "*" = "*" := 
          (casing.plain "*" (by simp)).trans (by decide +kernel)
        rw [account.2, star, star] at id
        exact absurd id.symm named.1
  · rintro ⟨id, named⟩
    let row : QuotaLockout :=
      { providerId := casing.lower r.route.provider
        pool := casing.lower r.pool
        routeId := casing.lower (Text.lastSegment r.route.id)
        expiresAt := r.expiry
        reason := clip 160 r.classified.message }
    refine ⟨row, (r.mem_rows_iff fresh).mpr ⟨rfl, rfl, .inl rfl, rfl, rfl⟩, ?_⟩
    have filed : row.filedUnder casing r.now = some (r.pool ++ ":" ++ other.id) :=
      (filedUnder_iff lowered).mpr ⟨r.soon, id, named⟩
    exact filed

/-! ### A route whose id carries a tag -/

/-- The quota of `model:free` is recorded at the start of time, and the gateway starts again an
    hour later. -/
def taggedRestart : LockedRestart OkObject Unit .ascii where
  call :=
    { executor := { recordsQuotaLockouts := true, computePrefixHash := fun _ => "" }
      pool := "coding"
      strategy := none
      keys := .empty
      prefixHash := ""
      requirements := {}
      deadline := { startTimeMonotonic := 0 } }
  records := rfl
  answer op := (sampleLocal op { breaker := .new "sample" {}, replies := [] }).1
  route := IsolatedPoolManager.taggedRoute
  priority := 1
  classified := Serving.dailyQuota
  quota := 86400
  billed := rfl
  since := 0
  before := .empty
  now := ⟨3600, 3600⟩
  soon := by norm_num
  rows :=
    [{ providerId := "openrouter", pool := "coding", routeId := "free", expiresAt := 86400
       reason := "Rate limit exceeded: free-models-per-day" },
     { providerId := "openrouter", pool := "coding", routeId := "*", expiresAt := 86400
       reason := "Rate limit exceeded: free-models-per-day" }]
  listed := by
    rw [QuotaLockoutTable.lockQuota_records _ _ _ _ _ _ (by norm_num) rfl, routeId,
      Text.splitOn_colon]
    decide +kernel
  manager := { codingRoutes := [IsolatedPoolManager.taggedRoute] }

/-- The quota is filed under `coding:free`, and `coding:model:free` is selected at once. -/
theorem tagged_lockout_lost :
    taggedRestart.pool ∈ ["coding", "general_agent"] ∧ ¬taggedRestart.Survives := by
  refine ⟨by decide, fun survives => ?_⟩
  have never := survives IsolatedPoolManager.taggedRoute (by decide) (.inl rfl) 1
  have restored := (Serving.neverSelected_iff _ _ _ taggedRestart.soon).mp never
  exact absurd restored (by decide +kernel)

end LockedRestart

end DuraLLM
