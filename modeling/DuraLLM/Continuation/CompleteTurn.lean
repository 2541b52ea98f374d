import DuraLLM.Continuation.Exclusion
import DuraLLM.Continuation.Reference

/-! # The turn around a model call

`ProxyGateway.complete_turn` begins a turn, has the executor complete the
request, and ends the turn.  An exception of the executor interrupts the turn.
The completion of a turn can raise as well, when the request or the response
cannot be digested, and then nobody interrupts it: the in-memory store keeps
the turn active, while the durable store forgets its lease in any case and
lets the next `begin_turn` discard it.
-/

namespace DuraLLM

/-- What a call of the executor comes to. An exception comes with its text,
    unless `str` raises on it. -/
inductive ExecutorOutcome (Response : Type) where
  | returned (response : Response) (selectedEndpoint : Option String)
  | raised (detail : Option String)

inductive GatewayOp (Request Response : Type) where
  | complete (request : Request)
  | store (call : ContinuationCall Request Response)

def GatewayOp.Answer {Request Response : Type} : GatewayOp Request Response → Type
  | .complete _ => ExecutorOutcome Response
  | .store _ => ContinuationAnswer

abbrev gatewaySignature (Request Response : Type) : Signature where
  Op := GatewayOp Request Response
  Ans := GatewayOp.Answer

/-- `complete_turn` has returned, or raised the exception of the executor or
    one of the store. -/
inductive TurnOutcome (Response : Type) where
  | returned (response : Response) (selectedEndpoint : Option String)
      (event : Option ContinuationEvent)
  | raised (detail : Option String)
  | stopped (answer : ContinuationAnswer)

namespace ProxyGateway

variable {Request Response : Type}

def ask (op : GatewayOp Request Response) : Prog (gatewaySignature Request Response) op.Answer :=
  Prog.call (S := gatewaySignature Request Response) op

/-- The `except` clause, and what comes after the `try`. -/
def endTurn (request : Request) (turn : ContinuationTurn) :
    ExecutorOutcome Response → Prog (gatewaySignature Request Response) (TurnOutcome Response)
  | .raised none => return .raised none
  | .raised (some detail) => do
      match ← ask (.store (.interruptTurn turn detail)) with
      | .event _ => return .raised (some detail)
      | answer => return .stopped answer
  | .returned response selectedEndpoint => do
      match ← ask (.store (.completeTurn turn request response
          (selectedEndpoint.getD "unknown"))) with
      | .event event => return .returned response selectedEndpoint (some event)
      | answer => return .stopped answer

def completeTurn (request : Request) (continuation : Option ContinuationRequest) :
    Prog (gatewaySignature Request Response) (TurnOutcome Response) := do
  match continuation with
  | none =>
      match ← ask (.complete request) with
      | .returned response selectedEndpoint => return .returned response selectedEndpoint none
      | .raised detail => return .raised detail
  | some continuation =>
      match ← ask (.store (.beginTurn continuation)) with
      | .turn turn => endTurn request turn (← ask (.complete request))
      | answer => return .stopped answer

end ProxyGateway

section Ending

variable {Request Response : Type}

/-- The call that ends the turn, if there is one. -/
def ExecutorOutcome.ending (turn : ContinuationTurn) (request : Request) :
    ExecutorOutcome Response → Option (ContinuationCall Request Response)
  | .raised detail => detail.map (.interruptTurn turn)
  | .returned response selectedEndpoint =>
      some (.completeTurn turn request response (selectedEndpoint.getD "unknown"))

theorem ExecutorOutcome.ending_turn {turn : ContinuationTurn} {request : Request}
    {outcome : ExecutorOutcome Response} {call : ContinuationCall Request Response}
    (ends : outcome.ending turn request = some call) : call.turn? = some turn := by
  cases outcome with
  | returned response endpoint =>
      cases ends
      rfl
  | raised detail =>
      cases detail with
      | none => cases ends
      | some text =>
          cases ends
          rfl

namespace ProxyGateway

variable {σ : Type} (handle : Prog.Handler (gatewaySignature Request Response) σ)
  {request : Request} {continuation : ContinuationRequest} {turn : ContinuationTurn}

theorem endTurn_exec (outcome : ExecutorOutcome Response) (s : σ) :
    ((endTurn request turn outcome).exec handle s).2 =
      match outcome.ending turn request with
      | none => s
      | some call => (handle (.store call) s).2 := by
  cases outcome with
  | returned response endpoint =>
      simp only [endTurn, ExecutorOutcome.ending]
      cases answer : handle (.store (.completeTurn turn request response
        (endpoint.getD "unknown"))) s with
      | mk first t =>
          simp only [ask, Prog.call, Prog.exec_bind, Prog.exec, answer]
          cases first <;> rfl
  | raised detail =>
      cases detail with
      | none => rfl
      | some text =>
          simp only [endTurn, ExecutorOutcome.ending, Option.map_some]
          cases answer : handle (.store (.interruptTurn turn text)) s with
          | mk first t =>
              simp only [ask, Prog.call, Prog.exec_bind, Prog.exec, answer]
              cases first <;> rfl

/-- Once the turn has begun, the executor is called and the turn is ended. -/
theorem completeTurn_exec {s t u : σ} {outcome : ExecutorOutcome Response}
    (begun : handle (.store (.beginTurn continuation)) s = (.turn turn, t))
    (called : handle (.complete request) t = (outcome, u)) :
    ((completeTurn request (some continuation)).exec handle s).2 =
      match outcome.ending turn request with
      | none => u
      | some call => (handle (.store call) u).2 := by
  rw [← endTurn_exec handle]
  simp only [completeTurn, ask, Prog.call, Prog.exec_bind, Prog.exec, begun, called]

end ProxyGateway

end Ending

/-- The call is about other turns than this one. -/
def ContinuationCall.Spares {Request Response : Type} (turnId : String)
    (call : ContinuationCall Request Response) : Prop :=
  ∀ turn ∈ call.turn?, turn.turnId ≠ turnId

/-- The exception of the executor, if there is one, has a text. -/
def ExecutorOutcome.Told {Response : Type} : ExecutorOutcome Response → Prop
  | .raised detail => detail.isSome
  | .returned .. => True

theorem ExecutorOutcome.told_iff {Request Response : Type} (outcome : ExecutorOutcome Response)
    (turn : ContinuationTurn) (request : Request) :
    outcome.Told ↔ (outcome.ending turn request).isSome := by
  cases outcome with
  | returned => exact iff_of_true trivial rfl
  | raised detail => simp [Told, ending]

/-- The digests of the response, if there is one, can be computed. -/
def ExecutorOutcome.Digested {Request Response : Type} (digests : Digests Request Response)
    (turn : ContinuationTurn) (request : Request) : ExecutorOutcome Response → Prop
  | .raised _ => True
  | .returned response endpoint =>
      (checkpointOf digests turn request response (endpoint.getD "unknown") 0).isSome

/-- Whether a checkpoint can be made does not depend on the time. -/
theorem checkpointOf_isSome {Request Response : Type} (digests : Digests Request Response)
    (turn : ContinuationTurn) (request : Request) (response : Response) (endpoint : String)
    (now later : Seconds) :
    (checkpointOf digests turn request response endpoint now).isSome =
      (checkpointOf digests turn request response endpoint later).isSome := by
  unfold checkpointOf
  cases digests.request request with
  | none => rfl
  | some requestDigest =>
      cases digests.response response endpoint with
      | none => rfl
      | some responseDigest =>
          simp only [Option.bind_eq_bind, Option.bind_some]
          cases digests.checkpoint _ <;> rfl

/-! ## Already active

Only an active turn makes `begin_turn` say so: no other error has its text and
status.
-/

theorem validateOptional_ne {validate : String → String → Except ContinuationError Unit}
    (other : ∀ name text, validate name text ≠ .error turnAlreadyActive) (name : String)
    (value : Option String) : validateOptional validate name value ≠ .error turnAlreadyActive := by
  cases value with
  | none => simp [validateOptional]
  | some text =>
      simp only [validateOptional]
      split
      · simp
      · exact other name text

theorem validateIdentifier_ne (name text : String) :
    validateIdentifier name text ≠ .error turnAlreadyActive := by
  unfold validateIdentifier
  split <;> simp [turnAlreadyActive]

theorem validateDigest_ne (name text : String) :
    validateDigest name text ≠ .error turnAlreadyActive := by
  unfold validateDigest
  split <;> simp [turnAlreadyActive]

theorem bind_ne {e : ContinuationError} {first : Except ContinuationError Unit}
    {next : Unit → Except ContinuationError Unit} (other : first ≠ .error e)
    (others : next () ≠ .error e) : (first >>= next) ≠ .error e := by
  cases first with
  | error e' => exact other
  | ok done => exact others

theorem validateRequest_ne (request : ContinuationRequest) :
    validateRequest request ≠ .error turnAlreadyActive := by
  unfold validateRequest
  split
  · simp [throw, throwThe, MonadExceptOf.throw, bind, Except.bind, turnAlreadyActive]
  · refine bind_ne (validateOptional_ne validateIdentifier_ne _ _) ?_
    refine bind_ne (validateDigest_ne _ _) ?_
    exact validateOptional_ne validateDigest_ne _ _

theorem admission_ne (payload : SessionPayload) (request : ContinuationRequest) :
    admission payload request ≠ .error turnAlreadyActive := by
  unfold admission
  split
  · simp
  · split
    · simp [turnAlreadyActive]
    · split <;> simp [turnAlreadyActive]

namespace InMemoryContinuationStore

variable {Request Response : Type} {digests : Digests Request Response}
  {store : InMemoryContinuationStore} {turn : ContinuationTurn}

theorem beginTurn_alreadyActive {draws : Draws} {request : ContinuationRequest}
    (rejected : (store.beginTurn draws request).1 = .raised turnAlreadyActive) :
    ∃ session, store.sessions.get (sessionIdOf request draws.session) = some session ∧
      truthy session.activeTurnId = true := by
  have admits : ∀ session : Session,
      (store.admitTurn draws request (sessionIdOf request draws.session) session).1 =
        .raised turnAlreadyActive → truthy session.activeTurnId = true := by
    intro session rejected
    unfold admitTurn at rejected
    split at rejected
    · assumption
    · split at rejected
      · next e refused =>
        rw [ContinuationAnswer.raised.inj rejected] at refused
        exact absurd refused (admission_ne _ _)
      · cases rejected
  unfold beginTurn at rejected
  split at rejected
  · next e invalid =>
    rw [ContinuationAnswer.raised.inj rejected] at invalid
    exact absurd invalid (validateRequest_ne request)
  · dsimp only at rejected
    split at rejected
    · split at rejected
      · simp [turnAlreadyActive] at rejected
      · exact absurd (admits _ rejected) (by simp [truthy])
    · next session found =>
      split at rejected
      · simp [turnAlreadyActive] at rejected
      · exact ⟨session, found, admits session rejected⟩

/-! ## The in-memory store -/

/-- The turn is the active one of its session. -/
def Runs (store : InMemoryContinuationStore) (turn : ContinuationTurn) : Prop :=
  ∃ session, store.sessions.get turn.sessionId = some session ∧
    session.toSessionPayload.IsActive turn

theorem runs_iff : store.Runs turn ↔ (store.activeSession turn).isSome := by
  rw [Option.isSome_iff_exists]
  simp only [Runs, activeSession, Option.filter_eq_some_iff, decide_eq_true_eq]

theorem not_runs_of_none (none : store.activeSession turn = none) : ¬store.Runs turn := by
  simp [runs_iff, none]

/-- The session moves on, and its active turn stays. -/
theorem Runs.put {sessionId : String} {session : Session} {payload : SessionPayload}
    {event : ContinuationEvent} (runs : store.Runs turn)
    (found : store.sessions.get sessionId = some session ∨ sessionId ≠ turn.sessionId)
    (keeps : session.toSessionPayload.IsActive turn → payload.IsActive turn) :
    (store.put sessionId session payload event).Runs turn := by
  obtain ⟨running, located, active⟩ := runs
  unfold Runs InMemoryContinuationStore.put
  by_cases here : turn.sessionId = sessionId
  · subst here
    cases found with
    | inl found =>
        rw [located] at found
        cases found
        exact ⟨_, Dict.get_set_self _ _ _, keeps active⟩
    | inr other => exact absurd rfl other
  · exact ⟨running, (Dict.get_set_ne _ _ here).trans located, active⟩

theorem Runs.admitTurn (runs : store.Runs turn) (named : turn.turnId ≠ "") (draws : Draws)
    (request : ContinuationRequest) {sessionId : String} {session : Session}
    (found : store.sessions.get sessionId = some session ∨ sessionId ≠ turn.sessionId) :
    (store.admitTurn draws request sessionId session).2.Runs turn := by
  unfold InMemoryContinuationStore.admitTurn
  split
  · exact runs
  · next idle =>
    split
    · exact runs
    · refine runs.put found fun active => ?_
      rw [active.1] at idle
      exact absurd idle (by simp [truthy, named])

theorem Runs.beginTurn (runs : store.Runs turn) (named : turn.turnId ≠ "") (draws : Draws)
    (request : ContinuationRequest) : (store.beginTurn draws request).2.Runs turn := by
  unfold InMemoryContinuationStore.beginTurn
  split
  · exact runs
  · dsimp only
    split
    · next absent =>
      split
      · exact runs
      · refine runs.admitTurn named draws request (.inr fun same => ?_)
        obtain ⟨session, located, _⟩ := runs
        rw [← same, absent] at located
        cases located
    · next session found =>
      split
      · exact runs
      · exact runs.admitTurn named draws request (.inl found)

/-- Ending another turn leaves this one alone. -/
theorem Runs.ended (runs : store.Runs turn) {other : ContinuationTurn} {session : Session}
    (apart : other.turnId ≠ turn.turnId) (found : store.activeSession other = some session)
    (payload : SessionPayload) (event : ContinuationEvent) :
    (store.put other.sessionId session payload event).Runs turn := by
  simp only [activeSession, Option.filter_eq_some_iff, decide_eq_true_eq] at found
  refine runs.put (.inl found.1) fun active => ?_
  exact absurd (Option.some.inj (found.2.1.symm.trans active.1)) apart

variable (digests) in
/-- A turn runs until a call is about it. -/
theorem Runs.call (runs : store.Runs turn) (named : turn.turnId ≠ "") (draws : Draws)
    {call : ContinuationCall Request Response} (spares : call.Spares turn.turnId) :
    (store.call digests draws call).2.Runs turn := by
  cases call with
  | beginTurn request => exact runs.beginTurn named draws request
  | completeTurn other request response endpoint =>
      simp only [InMemoryContinuationStore.call, completeTurn]
      split
      · exact runs
      · next session found =>
        split
        · exact runs
        · exact runs.ended (spares other rfl) found _ _
  | acknowledge sessionId turnId epoch digest =>
      simp only [InMemoryContinuationStore.call, acknowledge]
      split
      · exact runs
      · split
        · exact runs
        · next session found =>
          split
          · exact runs
          · exact runs.put (.inl found) fun active => active
  | interruptTurn other detail =>
      simp only [InMemoryContinuationStore.call, interruptTurn]
      split
      · exact runs
      · next session found => exact runs.ended (spares other rfl) found _ _

/-- The turn that `begin_turn` returns is the active one of its session. -/
theorem beginTurn_runs {draws : Draws} {request : ContinuationRequest}
    {later : InMemoryContinuationStore} (begun : store.beginTurn draws request = (.turn turn, later)) :
    later.Runs turn ∧ turn.turnId ≠ "" := by
  have admits : ∀ session : Session,
      store.admitTurn draws request (sessionIdOf request draws.session) session =
        (.turn turn, later) → later.Runs turn ∧ turn.turnId ≠ "" := by
    intro session begun
    unfold admitTurn at begun
    split at begun
    · cases begun
    · split at begun
      · cases begun
      · cases begun
        exact ⟨⟨_, Dict.get_set_self _ _ _, rfl, rfl⟩, by simp [turnOf, newTurnId]⟩
  unfold beginTurn at begun
  split at begun
  · cases begun
  · dsimp only at begun
    split at begun
    · split at begun
      · cases begun
      · exact admits _ begun
    · split at begun
      · cases begun
      · exact admits _ begun

/-- The turn has ended, and no `begin_turn` of its session is rejected because
    a turn is active. -/
structure Released (store : InMemoryContinuationStore) (turn : ContinuationTurn) : Prop where
  ended : ¬store.Runs turn
  admits : ∀ draws request, sessionIdOf request draws.session = turn.sessionId →
    (store.beginTurn draws request).1 ≠ .raised turnAlreadyActive

theorem released_put (session : Session) {payload : SessionPayload}
    (idle : payload.activeTurnId = none) (event : ContinuationEvent) :
    (store.put turn.sessionId session payload event).Released turn where
  ended := by
    rintro ⟨left, found, active⟩
    simp only [put, Dict.get_set_self, Option.some.injEq] at found
    subst found
    rw [show payload.activeTurnId = some turn.turnId from active.1] at idle
    cases idle
  admits := by
    intro draws request here rejected
    obtain ⟨left, found, active⟩ := beginTurn_alreadyActive rejected
    simp only [put, here, Dict.get_set_self, Option.some.injEq] at found
    subst found
    simp [truthy, idle] at active

/-- What the call at the end leaves of a running turn. -/
theorem Runs.released_iff (runs : store.Runs turn) (draws : Draws) (request : Request)
    {outcome : ExecutorOutcome Response} {call : ContinuationCall Request Response}
    (ends : outcome.ending turn request = some call) :
    (store.call digests draws call).2.Released turn ↔ outcome.Digested digests turn request := by
  obtain ⟨session, serving⟩ := Option.isSome_iff_exists.mp (runs_iff.mp runs)
  cases outcome with
  | raised detail =>
      obtain ⟨text, rfl, rfl⟩ := Option.map_eq_some_iff.mp ends
      simp only [InMemoryContinuationStore.call, interruptTurn, serving]
      exact iff_of_true (released_put session rfl _) trivial
  | returned response endpoint =>
      cases ends
      have timeless := checkpointOf_isSome digests turn request response
        (endpoint.getD "unknown") draws.now 0
      simp only [InMemoryContinuationStore.call, completeTurn, serving,
        ExecutorOutcome.Digested, ← timeless]
      cases checkpointOf digests turn request response (endpoint.getD "unknown") draws.now with
      | none => exact iff_of_false (fun released => released.ended runs) (by simp)
      | some checkpoint => exact iff_of_true (released_put session rfl _) rfl

end InMemoryContinuationStore

/-- A gateway over the in-memory store, and what its calls draw. -/
structure InMemoryGateway where
  store : InMemoryContinuationStore := {}
  draws : Nat → Draws
  drawn : Nat := 0

namespace InMemoryGateway

variable {Request Response : Type} (digests : Digests Request Response)

def call (gateway : InMemoryGateway) (call : ContinuationCall Request Response) :
    ContinuationAnswer × InMemoryGateway :=
  let answer := gateway.store.call digests (gateway.draws gateway.drawn) call
  (answer.1, { gateway with store := answer.2, drawn := gateway.drawn + 1 })

def serve (gateway : InMemoryGateway) (calls : List (ContinuationCall Request Response)) :
    InMemoryGateway :=
  calls.foldl (fun gateway call => (gateway.call digests call).2) gateway

/-- While the executor completes the request, other requests use the store. -/
def handle (outcome : ExecutorOutcome Response)
    (others : List (ContinuationCall Request Response)) :
    Prog.Handler (gatewaySignature Request Response) InMemoryGateway
  | .complete _, gateway => (outcome, gateway.serve digests others)
  | .store call, gateway => gateway.call digests call

variable {turn : ContinuationTurn}

theorem runs_serve {gateway : InMemoryGateway} (runs : gateway.store.Runs turn)
    (named : turn.turnId ≠ "") (calls : List (ContinuationCall Request Response))
    (spares : ∀ call ∈ calls, call.Spares turn.turnId) :
    (gateway.serve digests calls).store.Runs turn := by
  induction calls generalizing gateway with
  | nil => exact runs
  | cons call calls ih =>
      have stays := runs.call digests named (gateway.draws gateway.drawn)
        (spares call List.mem_cons_self)
      exact ih stays fun later member => spares later (List.mem_cons_of_mem _ member)

/-- The turn of a finished `complete_turn` is over, unless the exception of the
    executor has no text or the checkpoint cannot be made. -/
theorem completeTurn_released_iff (gateway : InMemoryGateway) (request : Request)
    (continuation : ContinuationRequest) (outcome : ExecutorOutcome Response)
    (others : List (ContinuationCall Request Response))
    (begun : (gateway.call digests (.beginTurn continuation)).1 = .turn turn)
    (spares : ∀ call ∈ others, call.Spares turn.turnId) :
    ((ProxyGateway.completeTurn request (some continuation)).exec
        (handle digests outcome others) gateway).2.store.Released turn ↔
      outcome.Told ∧ outcome.Digested digests turn request := by
  obtain ⟨opened, named⟩ := InMemoryContinuationStore.beginTurn_runs (Prod.ext begun rfl)
  have runs : ((gateway.call digests (.beginTurn continuation)).2.serve digests others).store.Runs
      turn := runs_serve digests opened named others spares
  rw [ProxyGateway.completeTurn_exec (handle digests outcome others) (Prod.ext begun rfl) rfl,
    outcome.told_iff turn request]
  cases ends : outcome.ending turn request with
  | none => exact iff_of_false (fun released => released.ended runs) (by simp)
  | some call => exact (runs.released_iff _ request ends).trans (by simp)

end InMemoryGateway

/-! ## The durable store -/

namespace SqliteContinuation

variable {Json Request Response : Type} [JsonCodec Json] {sha256 : String → String}
  {digests : Digests Request Response} {s t : ContinuationSystem Json}

theorem discardStale_alreadyActive (i : Nat) {session : StoredSession SessionPayload}
    (current : Current session s) :
    Does sha256 (discardStale i session) s fun answer t =>
      (∀ e, answer = .error e → ∃ id held, session.payload.activeTurnId = some id ∧
        (s.instances i).turnLeases.get id = some held) ∧
      ∀ left, answer = .ok left → left.sessionId = session.sessionId ∧ Current left t := by
  have kept : Does sha256 (discardStale i session) s _ := discardStale_does i current
  refine ⟨?_, fun left returned => ?_⟩
  · unfold discardStale
    split
    · intro e raised
      cases raised
    · next turnId active =>
      split
      · intro e raised
        cases raised
      · cases cached : (s.instances i).turnLeases.get turnId with
        | some held => exact fun _ _ => ⟨turnId, held, active, cached⟩
        | none =>
            have save : Does sha256 (save i session session.payload.interrupted) s _ :=
              save_does i session.payload.interrupted current
            obtain ⟨saved, done, _⟩ := save
            intro e raised
            simp [Prog.exec_bind, ContinuationSystem.handle, cached, done] at raised
  · obtain ⟨named, _, current'⟩ := kept.2 left returned
    exact ⟨named, current'⟩

theorem admitTurn_ne (i : Nat) (request : ContinuationRequest) (sessionId : String) (lease : Lease)
    {session : StoredSession SessionPayload} (current : Current session s) :
    Does sha256 (admitTurn i request sessionId lease session) s fun answer _ =>
      answer.1 ≠ .error turnAlreadyActive := by
  unfold admitTurn
  split
  · next e refused =>
    intro same
    rw [Except.error.inj same] at refused
    exact admission_ne _ _ refused
  · refine (hex_does i).seq ?_
    rintro _ _ ⟨rfl, rfl⟩
    refine (save_does i _ (s := { s with drawn := s.drawn + 1 }) current).seq ?_
    rintro answer t ⟨saved, rfl, _⟩
    exact fun same => by cases same

/-- An active turn that the instance remembers. -/
def Busy (s : ContinuationSystem Json) (i : Nat) (sessionId : String) : Prop :=
  ∃ row id held, s.db.sessions.get sessionId = some row ∧ row.payload.activeTurnId = some id ∧
    (s.instances i).turnLeases.get id = some held

/-- A new session has no active turn. -/
theorem loadOrCreate_active (i : Nat) (request : ContinuationRequest) (sessionId : String) :
    Does sha256 (loadOrCreate i request sessionId) s fun answer t =>
      answer ≠ .error turnAlreadyActive ∧ ∀ session, answer = .ok session →
        Current session t ∧ t.instances = s.instances ∧
          ∀ id, session.payload.activeTurnId = some id → ∃ row,
            s.db.sessions.get sessionId = some row ∧ row.payload.activeTurnId = some id := by
  have loads : Does sha256 (loadOrCreate i request sessionId) s _ :=
    loadOrCreate_does i request sessionId
  obtain ⟨rows, ready⟩ := loads
  unfold Does Prog.Runs at *
  cases located : s.db.sessions.get sessionId with
  | some row =>
      rw [loadOrCreate_found i request located] at ready ⊢
      refine ⟨by simp, fun session returned => ?_⟩
      cases returned
      exact ⟨(ready _ rfl).2, rfl, fun id active => ⟨row, rfl, active⟩⟩
  | none =>
      cases child : truthy request.parentCheckpointDigest with
      | true =>
          rw [loadOrCreate_orphan i located child]
          exact ⟨by simp [turnAlreadyActive], fun _ returned => by cases returned⟩
      | false =>
          rw [loadOrCreate_new i located child] at ready ⊢
          refine ⟨by simp, fun session returned => ?_⟩
          cases returned
          exact ⟨(ready _ rfl).2, rfl, fun _ active => by cases active⟩

theorem beginLeased_alreadyActive (i : Nat) (request : ContinuationRequest) (sessionId : String)
    (lease : Lease) :
    Does sha256 (beginLeased i request sessionId lease) s fun answer _ =>
      answer.1 = .error turnAlreadyActive → Busy s i sessionId := by
  refine (loadOrCreate_active i request sessionId).seq ?_
  rintro loaded t ⟨other, ready⟩
  cases loaded with
  | error e => exact fun rejected => absurd (Except.error.inj rejected) fun same => other (same ▸ rfl)
  | ok session =>
      obtain ⟨current, instances, known⟩ := ready session rfl
      simp only
      split
      · exact fun rejected => by simp [turnAlreadyActive] at rejected
      · refine (discardStale_alreadyActive i current).seq ?_
        rintro left u ⟨stale, ready'⟩
        cases left with
        | error e =>
            intro _
            obtain ⟨id, held, active, cached⟩ := stale e rfl
            obtain ⟨row, located, same⟩ := known id active
            exact ⟨row, id, held, located, same, instances ▸ cached⟩
        | ok left =>
            obtain ⟨_, current'⟩ := ready' left rfl
            exact (admitTurn_ne i request sessionId lease current').imp
              fun _ _ other rejected => absurd rejected other

/-- `begin_turn` says that a turn is active when another owner holds the
    session, or when the instance itself is serving a turn of it. -/
theorem beginTurn_alreadyActive (i : Nat) (request : ContinuationRequest) :
    Does sha256 (beginTurn i request) s fun answer _ => answer = .error turnAlreadyActive →
      grantedToken (s.db.leases.get (sessionResource (requestedSession s request)))
        (s.instances i).ownerId s.reads.now = none ∨ Busy s i (requestedSession s request) := by
  unfold beginTurn
  split
  · next e invalid =>
    intro rejected
    rw [Except.error.inj rejected] at invalid
    exact absurd invalid (validateRequest_ne request)
  · refine (chooseSessionId_does i request (requestedSession s request)).seq ?_
    rintro _ t ⟨rfl, chosen, same⟩
    cases rule : grantedToken (s.db.leases.get (sessionResource (requestedSession s request)))
      (s.instances i).ownerId s.reads.now with
    | none => exact fun _ => .inl rfl
    | some token =>
        have granted := rule
        rw [← same, ← chosen.instances, ← chosen.reads] at granted
        refine (acquires granted).seq ?_
        rintro _ _ ⟨rfl, rfl⟩
        refine (beginLeased_alreadyActive i request _ _).seq ?_
        rintro ⟨outcome, retained⟩ u busy
        have later : outcome = .error turnAlreadyActive → Busy s i (requestedSession s request) := by
          intro rejected
          obtain ⟨row, id, held, located, active, cached⟩ := busy rejected
          simp only [ContinuationSystem.leased, same, chosen.instances] at located cached
          exact ⟨row, id, held, located, active, cached⟩
        cases retained with
        | true => exact fun rejected => .inr (later rejected)
        | false => exact fun rejected => .inr (later rejected)

end SqliteContinuation

open SqliteContinuation ContinuationRun

def ContinuationStep.Spares {Request Response : Type} (turnId : String) :
    ContinuationStep Request Response → Prop
  | .wait _ => True
  | .call _ made => made.Spares turnId

def ContinuationStep.isWait {Request Response : Type} : ContinuationStep Request Response → Bool
  | .wait _ => true
  | .call .. => false

section Durable

variable {Json Request Response : Type} [JsonCodec Json] {sha256 : String → String}
  {digests : Digests Request Response} {s t : ContinuationSystem Json} {i : Nat}
  {turn : ContinuationTurn}

/-- The instance remembers the lease of the turn, and no other instance does. -/
structure RememberedBy (i : Nat) (turn : ContinuationTurn) (s : ContinuationSystem Json) : Prop
    extends Remembers s where
  issued : ∃ k < s.drawn, turn.turnId = newTurnId (s.hexes k)
  here : ((s.instances i).turnLeases.get turn.turnId).isSome
  alone : ∀ j ≠ i, (s.instances j).turnLeases.get turn.turnId = none

/-- No instance remembers a lease of the turn. -/
def Forgotten (turn : ContinuationTurn) (s : ContinuationSystem Json) : Prop :=
  ∀ j, (s.instances j).turnLeases.get turn.turnId = none

theorem RememberedBy.call (remembered : RememberedBy i turn s) (j : Nat)
    {call : ContinuationCall Request Response} (spares : call.Spares turn.turnId) :
    Does sha256 (program digests j call) s fun _ t => RememberedBy i turn t := by
  obtain ⟨k, earlier, drawn⟩ := remembered.issued
  have steady : Steady s ((program digests j call).exec (ContinuationSystem.handle sha256) s).2 :=
    exec_steady _ _
  have keeps : Does sha256 (program digests j call) s _ :=
    program_keeps j remembered.injective earlier (drawn ▸ spares)
  rw [← drawn] at keeps
  exact
    { remembered.toRemembers.call j call with
      issued := ⟨k, earlier.trans_le steady.drawn, steady.hexes ▸ drawn⟩
      here := keeps i ▸ remembered.here
      alone := fun other ne => (keeps other).trans (remembered.alone other ne) }

theorem RememberedBy.ended (remembered : RememberedBy i turn s)
    {call : ContinuationCall Request Response} (ends : call.turn? = some turn) :
    Does sha256 (program digests i call) s fun _ t => Forgotten turn t := by
  refine (end_does call ends).imp ?_
  rintro answer t (⟨uncached, _⟩ | ⟨lease, _, ended, _⟩)
  · exact absurd remembered.here (by simp [uncached])
  · intro j
    by_cases own : j = i
    · exact own ▸ ended.forgotten
    · exact (ended.memory j _ fun both => own both.1).trans (remembered.alone j own)

variable {run : ContinuationRun Json}

variable (sha256 digests) in
theorem RememberedBy.along (remembered : RememberedBy i turn run.system)
    (steps : List (ContinuationStep Request Response))
    (spares : ∀ step ∈ steps, step.Spares turn.turnId) :
    RememberedBy i turn (run.run sha256 digests steps).system := by
  induction steps generalizing run with
  | nil => exact remembered
  | cons step steps ih =>
      refine ih ?_ fun later member => spares later (List.mem_cons_of_mem _ member)
      have spared := spares step List.mem_cons_self
      cases step with
      | wait now =>
          exact ⟨⟨remembered.injective, remembered.cached⟩, remembered.issued, remembered.here,
            remembered.alone⟩
      | call j call => exact remembered.call j spared

variable (sha256 digests) in
theorem remembers_run (remembers : Remembers run.system)
    (steps : List (ContinuationStep Request Response)) :
    Remembers (run.run sha256 digests steps).system := by
  induction steps generalizing run with
  | nil => exact remembers
  | cons step steps ih =>
      refine ih ?_
      cases step with
      | wait now => exact ⟨remembers.injective, remembers.cached⟩
      | call j call => exact remembers.call j call

variable (sha256 digests) in
/-- Waiting only moves the clock. -/
theorem waits_run (run : ContinuationRun Json) (steps : List (ContinuationStep Request Response))
    (waits : ∀ step ∈ steps, step.isWait = true) :
    ∃ reads, (run.run sha256 digests steps).system = { run.system with reads } := by
  induction steps generalizing run with
  | nil => exact ⟨run.system.reads, rfl⟩
  | cons step steps ih =>
      have first := waits step List.mem_cons_self
      cases step with
      | wait now =>
          obtain ⟨reads, same⟩ := ih (run.step sha256 digests (.wait now))
            fun later member => waits later (List.mem_cons_of_mem _ member)
          exact ⟨reads, same⟩
      | call j call => cases first

theorem Holds.rememberedBy {now : Seconds} (holds : Holds ⟨turn, i, now⟩ s) (remembers : Remembers s) :
    RememberedBy i turn s := by
  obtain ⟨lease, _, cached, _⟩ := holds.lease
  exact
    { remembers with
      issued := holds.issued
      here := Option.isSome_iff_exists.mpr ⟨lease, cached⟩
      alone := holds.alone }

/-- A turn that `begin_turn` returned holds its session. -/
theorem begun_holds (remembers : Remembers s) (call : ContinuationCall Request Response) :
    Does sha256 (program digests i call) s fun answer t => ∀ turn, answer = .turn turn →
      Holds ⟨turn, i, s.reads.now⟩ t := by
  refine (program_begins i call).imp ?_
  intro answer t begins turn returned
  obtain ⟨request, token, within, held, began⟩ := begins turn returned
  exact holds_of_began within held began fun k later j => remembers.unused later j

/-- Nobody holds the session, and its active turn, if any, is this one. -/
structure Free (turn : ContinuationTurn) (s : ContinuationSystem Json) : Prop where
  forgotten : Forgotten turn s
  unleased : s.db.leases.get (sessionResource turn.sessionId) = none
  active : ∀ row id, s.db.sessions.get turn.sessionId = some row →
    row.payload.activeTurnId = some id → id = turn.turnId

/-- The end of a turn that holds its session frees the session. -/
theorem Holds.freed {now : Seconds} (holds : Holds ⟨turn, i, now⟩ s) (remembers : Remembers s)
    {call : ContinuationCall Request Response} (ends : call.turn? = some turn) :
    Does sha256 (program digests i call) s fun _ t => Free turn t := by
  have forgotten : Does sha256 (program digests i call) s fun _ t => Forgotten turn t :=
    (holds.rememberedBy remembers).ended ends
  obtain ⟨lease, held, cached, resource, there, owner, token, _⟩ := holds.lease
  obtain ⟨row, located, _, running⟩ := holds.serving
  refine ⟨forgotten, ?_, ?_⟩
  all_goals
    have ended : Does sha256 (program digests i call) s _ := end_does call ends
    rcases ended with ⟨uncached, _⟩ | ⟨other, cached', ended, _⟩
  · rw [cached] at uncached
    cases uncached
  · obtain rfl := Option.some.inj (cached.symm.trans cached')
    rw [ended.leases]
    simp [ContinuationSystem.released, Database.deleteLease, Dict.get_filter, there, resource,
      Option.filter, owner, token]
  · rw [cached] at uncached
    cases uncached
  · intro left id found active
    rcases ended.idle with same | ⟨idle, there, none⟩
    · rw [same] at found
      obtain rfl := Option.some.inj (found.symm.trans located)
      exact Option.some.inj (active.symm.trans running.1)
    · obtain rfl := Option.some.inj (found.symm.trans there)
      rw [none] at active
      cases active

/-- `begin_turn` is not rejected on a free session. -/
theorem Free.admits (free : Free turn s) (j : Nat) {request : ContinuationRequest}
    (here : requestedSession s request = turn.sessionId) :
    Does sha256 (program digests j (.beginTurn request)) s fun answer _ =>
      answer ≠ .raised turnAlreadyActive := by
  refine (beginTurn_alreadyActive j request).seq ?_
  intro answer t blocked rejected
  have same : answer = .error turnAlreadyActive := by
    cases answer with
    | ok begun => cases rejected
    | error e => rw [ContinuationAnswer.raised.inj rejected]
  rcases blocked same with refused | ⟨row, id, held, located, active, cached⟩
  · rw [here, free.unleased] at refused
    cases refused
  · rw [here] at located
    rw [free.active row id located active, free.forgotten j] at cached
    cases cached

end Durable

namespace ContinuationRun

variable {Json Request Response : Type} [JsonCodec Json] (sha256 : String → String)
  (digests : Digests Request Response)

/-- While the executor completes the request, time passes and other requests
    use the store, on any instance. -/
def gatewayHandle (i : Nat) (outcome : ExecutorOutcome Response)
    (others : List (ContinuationStep Request Response)) :
    Prog.Handler (gatewaySignature Request Response) (ContinuationRun Json)
  | .complete _, run => (outcome, run.run sha256 digests others)
  | .store call, run =>
      ((run.perform sha256 digests i call).1, run.step sha256 digests (.call i call))

/-- The turn is forgotten, and no `begin_turn` of its session, on any instance
    at any later time, is rejected because a turn is active. -/
structure Released (run : ContinuationRun Json) (turn : ContinuationTurn) : Prop where
  forgotten : Forgotten turn run.system
  admits : ∀ waits : List (ContinuationStep Request Response),
    (∀ step ∈ waits, step.isWait = true) → ∀ j request,
      requestedSession (run.run sha256 digests waits).system request = turn.sessionId →
        ((run.run sha256 digests waits).perform sha256 digests j (.beginTurn request)).1 ≠
          .raised turnAlreadyActive

variable {sha256 digests} {run : ContinuationRun Json} {turn : ContinuationTurn}

theorem released_of_free (free : Free turn run.system) : run.Released sha256 digests turn where
  forgotten := free.forgotten
  admits := by
    intro waits waiting j request here
    obtain ⟨reads, same⟩ := waits_run sha256 digests run waits waiting
    have still : Free turn (run.run sha256 digests waits).system := by
      rw [same]
      exact ⟨free.forgotten, free.unleased, free.active⟩
    exact still.admits j here

/-- The turn of a finished `complete_turn` is forgotten, whatever else went on,
    unless the exception of the executor has no text. -/
theorem completeTurn_released_iff (remembers : Remembers run.system) (i : Nat) (request : Request)
    (continuation : ContinuationRequest) (outcome : ExecutorOutcome Response)
    (others : List (ContinuationStep Request Response))
    (begun : (run.perform sha256 digests i (.beginTurn continuation)).1 = .turn turn)
    (spares : ∀ step ∈ others, step.Spares turn.turnId) :
    let after := ((ProxyGateway.completeTurn request (some continuation)).exec
      (gatewayHandle sha256 digests i outcome others) run).2
    (Forgotten turn after.system ↔ outcome.Told) ∧
      ((∀ step ∈ others, step.isWait = true) →
        (after.Released sha256 digests turn ↔ outcome.Told)) := by
  intro after
  generalize reached : run.step sha256 digests (.call i (.beginTurn continuation)) = opened
  have known : Remembers opened.system := reached ▸ remembers.call i (.beginTurn continuation)
  have holds : Holds ⟨turn, i, run.system.reads.now⟩ opened.system :=
    reached ▸ begun_holds remembers (.beginTurn continuation) turn begun
  have remembered := (holds.rememberedBy known).along sha256 digests others spares
  have finished : after = match outcome.ending turn request with
      | none => opened.run sha256 digests others
      | some call => (opened.run sha256 digests others).step sha256 digests (.call i call) := by
    exact ProxyGateway.completeTurn_exec (gatewayHandle sha256 digests i outcome others)
      (Prod.ext begun reached) rfl
  rw [outcome.told_iff turn request]
  cases ends : outcome.ending turn request with
  | none =>
      rw [ends] at finished
      have kept : ¬Forgotten turn after.system := by
        intro forgotten
        have here := remembered.here
        rw [← show after = opened.run sha256 digests others from finished, forgotten i] at here
        cases here
      exact ⟨iff_of_false kept (by simp),
        fun _ => iff_of_false (fun released => kept released.forgotten) (by simp)⟩
  | some call =>
      rw [ends] at finished
      have about := outcome.ending_turn ends
      have forgotten : Forgotten turn after.system := finished ▸ remembered.ended about
      refine ⟨iff_of_true forgotten rfl, fun waiting => iff_of_true ?_ rfl⟩
      obtain ⟨reads, same⟩ := waits_run sha256 digests opened others waiting
      have still : Holds ⟨turn, i, run.system.reads.now⟩ (opened.run sha256 digests others).system := by
        rw [same]
        exact ⟨holds.issued, holds.speaks, holds.serving, holds.lease, holds.alone⟩
      have free : Free turn after.system :=
        finished ▸ still.freed (remembers_run sha256 digests known others) about
      exact released_of_free free

end ContinuationRun

/-- When `complete_turn` has returned or raised, its turn is no longer active:
    in the in-memory store, if what the executor came to can be recorded, and
    in the durable store in any case. The one exception in both is an exception
    of the executor without a text. -/
theorem complete_turn_releases_iff {Json Request Response : Type} [JsonCodec Json]
    (sha256 : String → String) (digests : Digests Request Response) (request : Request)
    (continuation : ContinuationRequest) (outcome : ExecutorOutcome Response)
    (turn : ContinuationTurn) :
    (∀ (gateway : InMemoryGateway) (others : List (ContinuationCall Request Response)),
      (gateway.call digests (.beginTurn continuation)).1 = .turn turn →
      (∀ call ∈ others, call.Spares turn.turnId) →
      (((ProxyGateway.completeTurn request (some continuation)).exec
          (InMemoryGateway.handle digests outcome others) gateway).2.store.Released turn ↔
        outcome.Told ∧ outcome.Digested digests turn request)) ∧
    (∀ (db : Database Json SessionPayload) (config : Nat → String × Seconds) (hexes : Nat → String)
        (earlier others : List (ContinuationStep Request Response)) (i : Nat),
      Function.Injective hexes →
      let run := (start db config hexes).run sha256 digests earlier
      (run.perform sha256 digests i (.beginTurn continuation)).1 = .turn turn →
      (∀ step ∈ others, step.Spares turn.turnId) →
      let after := ((ProxyGateway.completeTurn request (some continuation)).exec
        (gatewayHandle sha256 digests i outcome others) run).2
      (Forgotten turn after.system ↔ outcome.Told) ∧
        ((∀ step ∈ others, step.isWait = true) →
          (after.Released sha256 digests turn ↔ outcome.Told))) := by
  refine ⟨fun gateway others begun spares => ?_, fun db config hexes earlier others i fresh => ?_⟩
  · exact gateway.completeTurn_released_iff digests request continuation outcome others begun spares
  · intro run begun spares
    have empty : Remembers (start db config hexes).system := by
      refine ⟨fresh, fun j id lease found => ?_⟩
      simp [start] at found
    exact completeTurn_released_iff (remembers_run sha256 digests empty earlier) i request
      continuation outcome others begun spares

/-! A text is a list of code points, and a lone surrogate cannot be encoded. -/

private def hexRow (n : Nat) : String := String.ofList (List.replicate n 'c')

private theorem hexRow_injective : Function.Injective hexRow := by
  intro m n same
  simpa [hexRow] using congrArg String.length same

private def encodes (text : List Nat) : Bool := text.all fun c => c < 0xD800 || 0xDFFF < c

private def textDigests : Digests (List Nat) (List Nat) where
  request text := if encodes text then some (hexRow 64) else none
  response text _ := if encodes text then some (hexRow 64) else none
  checkpoint _ := some (hexRow 64)

private def newGateway : InMemoryGateway where
  draws n := ⟨hexRow n, hexRow n, hexRow n, 0⟩

private def firstContinuation : ContinuationRequest := { stateDigest := hexRow 64 }

private def openedTurn (session turn : Nat) : ContinuationTurn where
  sessionId := newSessionId (hexRow session)
  turnId := newTurnId (hexRow turn)
  epoch := 0
  parentCheckpointDigest := none
  clientStateDigest := hexRow 64

/-- The durable store survives a response that the in-memory store does not. -/
theorem complete_turn_releases_iff_sample :
    ((ProxyGateway.completeTurn [104] (some firstContinuation)).exec
        (InMemoryGateway.handle textDigests (.returned [105] (some "coding:groq"))
          [.beginTurn firstContinuation]) newGateway).2.store.Released (openedTurn 0 0) ∧
      ((ProxyGateway.completeTurn [104] (some firstContinuation)).exec
        (gatewayHandle sampleSha256 textDigests 0 (.returned [0xD800] none) [.wait 10])
        (start {} (fun i => (hexRow i, 120)) hexRow : ContinuationRun OkObject)).2.Released
          sampleSha256 textDigests (openedTurn 0 1) := by
  refine ⟨?_, ?_⟩
  · refine ((@complete_turn_releases_iff OkObject _ _ _ sampleSha256 textDigests [104]
      firstContinuation (.returned [105] (some "coding:groq")) (openedTurn 0 0)).1 newGateway
        [.beginTurn firstContinuation] (by decide +kernel) ?_).mpr ⟨trivial, rfl⟩
    intro call member turn about
    obtain rfl := List.mem_singleton.mp member
    cases about
  · refine (((complete_turn_releases_iff sampleSha256 textDigests [104] firstContinuation
      (.returned [0xD800] none) (openedTurn 0 1)).2 {} (fun i => (hexRow i, 120)) hexRow [] [.wait 10] 0
        hexRow_injective (by decide +kernel) ?_).2 ?_).mpr trivial
    · intro step member
      obtain rfl := List.mem_singleton.mp member
      trivial
    · intro step member
      obtain rfl := List.mem_singleton.mp member
      rfl

/-- After a response with a lone surrogate, the in-memory store rejects the
    next turn. -/
theorem surrogate_keeps_turn :
    ¬ ∀ (gateway : InMemoryGateway) (continuation : ContinuationRequest) (request : List Nat)
        (outcome : ExecutorOutcome (List Nat)) (turn : ContinuationTurn),
        (gateway.call textDigests (.beginTurn continuation)).1 = .turn turn →
          ((ProxyGateway.completeTurn request (some continuation)).exec
            (InMemoryGateway.handle textDigests outcome []) gateway).2.store.Released turn := by
  intro claim
  have released := claim newGateway firstContinuation [104] (.returned [0xD800] none)
    (openedTurn 0 0) (by decide +kernel)
  refine released.admits ⟨hexRow 5, hexRow 5, hexRow 5, 0⟩
    { firstContinuation with sessionId := some (newSessionId (hexRow 0)) } rfl ?_
  decide +kernel

end DuraLLM
