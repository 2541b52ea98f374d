import DuraLLM.Execution.Recovery
import DuraLLM.Routing.Eligibility

/-! # Serving requests

The requests of a gateway share its router and the stores that the router reads.
Each request keeps a list of its own of endpoints that it will not be sent to
again, which a rollover shortens.  Selection, dispatch and failure are steps of
their own, and any number of requests take them in any order.
-/

namespace DuraLLM

/-- `register_endpoint`. An endpoint takes the place of one with its id; those of a gateway bring
    their profile. -/
def CapabilityRegistry.register (registry : CapabilityRegistry) (endpoint : Endpoint) :
    CapabilityRegistry :=
  if known : endpoint.id ∈ registry.endpoints.map (·.id) then
    { registry with
      endpoints := registry.endpoints.map fun e => if e.id = endpoint.id then endpoint else e
      nodupIds := by
        have same : (registry.endpoints.map fun e => if e.id = endpoint.id then endpoint else e).map
            (·.id) = registry.endpoints.map (·.id) := by
          rw [List.map_map]
          apply List.map_congr_left
          intro e _
          simp only [Function.comp_apply]
          split
          · next here => exact here.symm
          · rfl
        rw [same]
        exact registry.nodupIds }
  else
    { registry with
      endpoints := registry.endpoints ++ [endpoint]
      nodupIds := by
        rw [List.map_append, List.map_singleton]
        exact registry.nodupIds.append (List.nodup_singleton _)
          (List.disjoint_singleton.mpr known) }

inductive RequestPhase where
  | between
  /-- An endpoint was selected and nothing was sent to it yet. -/
  | chosen (endpoint : Endpoint)
  | sent (endpoint : Endpoint)
  deriving DecidableEq

def RequestPhase.sentTo : RequestPhase → Option Endpoint
  | .sent endpoint => some endpoint
  | _ => none

def RequestPhase.aboutToSend : RequestPhase → Option Endpoint
  | .chosen endpoint => some endpoint
  | _ => none

/-- Where the request is sent, or about to be. -/
def RequestPhase.endpoint : RequestPhase → Option Endpoint
  | .between => none
  | .chosen endpoint | .sent endpoint => some endpoint

structure ServedRequest where
  pool : String
  excluded : List String := []
  phase : RequestPhase := .between
  deriving DecidableEq

/-- The daily quota of a provider's account is gone. -/
structure AccountLockout where
  pool : String
  provider : String
  until_ : Seconds

structure SelectedEndpoint where
  endpointId : String
  time : Seconds

/-- What the requests share, with the time of day. The lockouts and the selections are for the
    record: no step reads them. -/
structure Serving where
  router : CapabilityRouter
  stores : RouterStores := {}
  clock : Seconds
  requests : Dict Nat ServedRequest := .empty
  lockouts : List AccountLockout := []
  selected : List SelectedEndpoint := []

/-- The arguments of `select_candidate` that the request does not hold. -/
structure SelectionCall where
  reads : RouterReads
  policy : ShadowQualityPolicy
  requirements : RequirementVector
  strategy : Option String := none
  requestId : String := ""
  fallbackReason : Option FallbackReason := none

/-- The notes that say nothing about a quota. -/
def Bookkeeping.isQuotaFree : Bookkeeping → Bool
  | .recordHealthFailure failure => failure.quotaExhaustedSeconds.isNone
  | _ => true

inductive ServingStep where
  | wait (seconds : Seconds)
  | register (endpoint : Endpoint)
  /-- Lanes, breakers and caches change as they please. -/
  | elsewhere (stores : RouterStores)
  | note (note : Bookkeeping) (quotaFree : note.isQuotaFree = true)
  | arrive (request : Nat) (pool : String)
  | select (request : Nat) (call : SelectionCall)
  /-- Budget, context, adapter or breaker turn the selected endpoint down. -/
  | giveUp (request : Nat)
  | dispatch (request : Nat)
  | exclude (request : Nat) (endpointId : String)
  | rollOver (request : Nat) (endpointIds : List String)
  | fail (request : Nat) (result : ExecutionResult) (classified : FailureClassification)
  /-- The attempt raises, or its stream breaks off: the request ends. -/
  | crash (request : Nat) (classified : FailureClassification)
  | finish (request : Nat)

/-- How long the failure locks the account of the endpoint's provider out. -/
def accountQuota (endpoint : Endpoint) (classified : FailureClassification) : Option Seconds :=
  if isAccountWide endpoint classified then quotaSeconds classified else none

/-- `if ep.id not in excluded: excluded.append(ep.id)` for each of the endpoints. -/
def excludeAll (excluded : List String) (endpoints : List Endpoint) : List String :=
  endpoints.foldl (fun excluded e => if e.id ∈ excluded then excluded else excluded ++ [e.id])
    excluded

namespace Serving

variable (s : Serving)

/-- What a note of the executor does to the dead list and the health store. -/
def keep : Bookkeeping → Serving
  | .recordHealthSuccess id latencyMs =>
      { s with stores.health := s.stores.health.recordSuccess (1 / 5) id latencyMs }
  | .recordHealthFailure f =>
      { s with
        stores.health := s.stores.health.recordFailure f.endpointId f.errorMessage
          f.quotaExhaustedSeconds f.isPermanent s.clock }
  | .recordToolOutcome id success =>
      { s with stores.health := s.stores.health.recordToolOutcome id success }
  | .markDead id provider model reason =>
      { s with
        router.deadList :=
          (if provider ≠ "" ∧ model ≠ "" then [provider ++ ":" ++ model] else []) ++
            id :: s.router.deadList
        stores.health := s.stores.health.markDead id provider model reason }
  | _ => s

/-- `select_candidate` for the request, at the time of day. -/
def choose (request : Nat) (r : ServedRequest) (call : SelectionCall) : Serving :=
  let result := s.router.select { call.reads with now := s.clock } call.policy call.requirements
    s.stores r.pool call.strategy call.requestId r.excluded call.fallbackReason
  let s := { s with router := result.2.1, stores := result.2.2 }
  match result.1.1 with
  | none => s
  | some endpoint =>
      { s with
        requests := s.requests.set request { r with phase := .chosen endpoint }
        selected := { endpointId := endpoint.id, time := s.clock } :: s.selected }

/-- The account is locked out from now on. -/
def lockOut (pool : String) (endpoint : Endpoint) (classified : FailureClassification) :
    List AccountLockout :=
  match accountQuota endpoint classified with
  | none => s.lockouts
  | some quota =>
      { pool, provider := endpoint.provider, until_ := s.clock + quota } :: s.lockouts

/-- The endpoints that an account-wide failure excludes, for this request only. -/
def excludedAfter (r : ServedRequest) (endpoint : Endpoint) (classified : FailureClassification) :
    List String :=
  match accountQuota endpoint classified with
  | none => r.excluded
  | some _ =>
      excludeAll r.excluded ((s.router.registry.endpointsForPool r.pool).filter fun e =>
        e.provider.toLower = endpoint.provider.toLower)

/-- The failure of what was sent, as `recordFailedAttempt` files it. -/
def failed (request : Nat) (r : ServedRequest) (endpoint : Endpoint) (result : ExecutionResult)
    (classified : FailureClassification) : Serving :=
  { s.keep (.recordHealthFailure
      { endpointId := endpoint.id
        latencyMs := result.durationMs
        statusCode := some result.statusCode
        errorMessage := clip 160 classified.message
        quotaExhaustedSeconds := quotaSeconds classified
        isPermanent := classified.isPermanent }) with
    requests := s.requests.set request
      { r with phase := .between, excluded := s.excludedAfter r endpoint classified }
    lockouts := s.lockOut r.pool endpoint classified }

/-- What raises ends the request, and nothing is filed about a quota. -/
def crashed (request : Nat) (r : ServedRequest) (endpoint : Endpoint)
    (classified : FailureClassification) : Serving :=
  { s with
    requests := s.requests.erase request
    lockouts := s.lockOut r.pool endpoint classified }

/-- A request selects when nothing of it is under way. -/
def whenBetween (request : Nat) (next : ServedRequest → Serving) : Serving :=
  match s.requests.get request with
  | none => s
  | some r => if r.phase = .between then next r else s

/-- An attempt ends when it is under way. -/
def whenSent (request : Nat) (next : ServedRequest → Endpoint → Serving) : Serving :=
  match s.requests.get request with
  | none => s
  | some r =>
      match r.phase with
      | .sent endpoint => next r endpoint
      | _ => s

def step (s : Serving) : ServingStep → Serving
  | .wait seconds => { s with clock := s.clock + max 0 seconds }
  | .register endpoint => { s with router.registry := s.router.registry.register endpoint }
  | .elsewhere stores => { s with stores := { stores with health := s.stores.health } }
  | .note n _ => s.keep n
  | .arrive request pool => { s with requests := s.requests.set request { pool } }
  | .select request call => s.whenBetween request fun r => s.choose request r call
  | .giveUp request =>
      { s with requests := s.requests.modify request fun r => { r with phase := .between } }
  | .dispatch request =>
      { s with
        requests := s.requests.modify request fun r =>
          match r.phase with
          | .chosen endpoint => { r with phase := .sent endpoint }
          | _ => r }
  | .exclude request endpointId =>
      { s with
        requests := s.requests.modify request fun r =>
          { r with excluded := r.excluded ++ [endpointId] } }
  | .rollOver request endpointIds =>
      { s with
        requests := s.requests.modify request fun r =>
          { r with excluded := endpointIds.foldl List.erase r.excluded } }
  | .fail request result classified =>
      s.whenSent request fun r endpoint => s.failed request r endpoint result classified
  | .crash request classified =>
      s.whenSent request fun r endpoint => s.crashed request r endpoint classified
  | .finish request => { s with requests := s.requests.erase request }

def run (s : Serving) (steps : List ServingStep) : Serving := steps.foldl step s

/-- Notes are about endpoints. -/
theorem keep_requests (note : Bookkeeping) :
    (s.keep note).requests = s.requests ∧ (s.keep note).lockouts = s.lockouts ∧
      (s.keep note).clock = s.clock ∧ (s.keep note).selected = s.selected := by
  cases note <;> exact ⟨rfl, rfl, rfl, rfl⟩

variable {s}

/-- Every step of the run finds a state as `P` asks. -/
def Along (P : Serving → ServingStep → Prop) : Serving → List ServingStep → Prop
  | _, [] => True
  | s, step :: rest => P s step ∧ Along P (s.step step) rest

instance decidableAlong {P : Serving → ServingStep → Prop} [∀ s step, Decidable (P s step)] :
    (s : Serving) → (steps : List ServingStep) → Decidable (Along P s steps)
  | _, [] => inferInstanceAs (Decidable True)
  | s, step :: rest => @instDecidableAnd _ _ _ (decidableAlong (s.step step) rest)

theorem Along.split {P : Serving → ServingStep → Prop} {steps : List ServingStep}
    (along : Along P s steps) :
    ∀ before step after, steps = before ++ step :: after → P (s.run before) step := by
  induction steps generalizing s with
  | nil => simp
  | cons first rest ih =>
      rintro (_ | ⟨other, before⟩) step after same
      · cases same
        exact along.1
      · cases same
        exact ih along.2 before step after rfl

theorem choose_selected {request : Nat} {r : ServedRequest} {call : SelectionCall}
    {endpoint : Endpoint}
    (selected : (s.router.select { call.reads with now := s.clock } call.policy call.requirements
      s.stores r.pool call.strategy call.requestId r.excluded call.fallbackReason).1.1 =
        some endpoint) :
    (s.choose request r call).selected =
      { endpointId := endpoint.id, time := s.clock } :: s.selected := by
  unfold choose
  simp only [selected]

/-- What holds of the state, and of what comes after a selection, holds after the step. -/
theorem whenBetween_induct {P : Serving → Prop} {request : Nat} {next : ServedRequest → Serving}
    (still : P s) (selects : ∀ r, s.requests.get request = some r → r.phase = .between → P (next r)) :
    P (s.whenBetween request next) := by
  unfold whenBetween
  cases found : s.requests.get request with
  | none => exact still
  | some r =>
      by_cases between : r.phase = .between
      · simpa only [between, if_true] using selects r found between
      · simpa only [between, if_false] using still

theorem whenSent_induct {P : Serving → Prop} {request : Nat}
    {next : ServedRequest → Endpoint → Serving} (still : P s)
    (ends : ∀ r endpoint, s.requests.get request = some r → r.phase = .sent endpoint →
      P (next r endpoint)) : P (s.whenSent request next) := by
  unfold whenSent
  cases found : s.requests.get request with
  | none => exact still
  | some r =>
      cases phase : r.phase with
      | sent endpoint => simpa only [phase] using ends r endpoint found phase
      | between => simpa only [phase] using still
      | chosen endpoint => simpa only [phase] using still

/-! ## What an account-wide failure excludes -/

theorem mem_excludeAll {id : String} {excluded : List String} {endpoints : List Endpoint} :
    id ∈ excludeAll excluded endpoints ↔ id ∈ excluded ∨ ∃ e ∈ endpoints, e.id = id := by
  unfold excludeAll
  induction endpoints generalizing excluded with
  | nil => simp
  | cons e endpoints ih =>
      rw [List.foldl_cons, ih]
      by_cases known : e.id ∈ excluded
      · grind
      · grind

section Executor

variable {Json Decision : Type} (answer : (op : LocalOp Json) → op.Answer Json Decision)

/-- The executor over what the requests share, with answers to everything else. -/
def handle : Prog.Handler (localSig Json Decision) Serving
  | .keep note, s => ((), s.keep note)
  | .endpointsForPool pool, s => (s.router.registry.endpointsForPool pool, s)
  | op, s => (answer op, s)

/-- The lockouts are kept where the router does not look. -/
theorem lockQuota_exec (call : ExecuteCall Json) (endpoint : Endpoint)
    (classified : FailureClassification) (quota : Seconds) :
    ((lockQuota call endpoint classified quota).exec (handle answer) s).2 = s := by
  unfold lockQuota
  by_cases nonzero : quota ≠ 0 <;> by_cases wide : isAccountWide endpoint classified = true <;>
    by_cases pooled : call.executor.hasPoolManager = true <;>
    by_cases records : call.executor.recordsQuotaLockouts = true <;>
    simp [nonzero, wide, pooled, records, Prog.exec_bind] <;> rfl

theorem foldl_excludeOnce (loop : LoopState Json) (endpoints : List Endpoint) :
    (endpoints.foldl (fun loop e => loop.excludeOnce e.id) loop).excludedEndpoints =
      excludeAll loop.excludedEndpoints endpoints := by
  unfold excludeAll
  induction endpoints generalizing loop with
  | nil => rfl
  | cons e endpoints ih =>
      rw [List.foldl_cons, List.foldl_cons, ih]
      congr 1
      unfold LoopState.excludeOnce
      split <;> rfl

theorem recordBilling_excluded (call : ExecuteCall Json) (loop : LoopState Json)
    (endpoint : Endpoint) (classified : FailureClassification) :
    ((recordBilling call loop endpoint classified).exec (handle answer) s).1.excludedEndpoints =
      s.excludedAfter { pool := call.pool, excluded := loop.excludedEndpoints } endpoint
        classified := by
  unfold recordBilling excludedAfter accountQuota
  cases quota : quotaSeconds classified with
  | none => simp
  | some seconds =>
      simp only [Prog.exec_bind, lockQuota_exec]
      by_cases wide : isAccountWide endpoint classified = true
      · simp only [wide, if_true]
        exact foldl_excludeOnce loop _
      · simp [wide]

end Executor

theorem run_append (s : Serving) (before after : List ServingStep) :
    s.run (before ++ after) = (s.run before).run after := List.foldl_append

end Serving

end DuraLLM
