import DuraLLM.Continuation.History

/-! # The in-memory continuation store

`InMemoryContinuationStore` holds its lock for a whole call, so a call is one
step.  It is the reference for the durable store: both decide on a session
through `admission`, and both change it by the transitions of
`SessionPayload`.

A session keeps the events it has issued; its history is read off them.
-/

namespace DuraLLM

/-- May this request begin the next turn of the session? -/
def admission (payload : SessionPayload) (request : ContinuationRequest) :
    Except ContinuationError Unit :=
  match payload.latestCheckpoint with
  | none => .ok ()
  | some checkpoint =>
      if payload.latestCheckpointAcknowledged = false then
        .error (.protocol
          "Previous ACP checkpoint must be acknowledged before the next turn" 409)
      else if request.parentCheckpointDigest ≠ some checkpoint.gatewayDigest then
        .error (.protocol "ACP parent checkpoint digest is stale or missing" 409)
      else .ok ()

def turnOf (payload : SessionPayload) (request : ContinuationRequest)
    (sessionId turnId : String) : ContinuationTurn where
  sessionId := sessionId
  turnId := turnId
  epoch := payload.nextEpoch
  parentCheckpointDigest := payload.latestCheckpoint.map (·.gatewayDigest)
  clientStateDigest := request.stateDigest
  protocolVersion := request.protocolVersion

def sessionIdOf (request : ContinuationRequest) (hex : String) : String :=
  match request.sessionId with
  | none => newSessionId hex
  | some id => if id = "" then newSessionId hex else id

/-- Which checkpoint does this acknowledgement settle? -/
def acknowledgement (payload : SessionPayload) (turnId : String) (epoch : Nat)
    (checkpointDigest : String) : Except ContinuationError Checkpoint :=
  match payload.latestCheckpoint with
  | none => .error (.protocol "ACP session has no checkpoint to acknowledge" 404)
  | some checkpoint =>
      if (checkpoint.turnId, checkpoint.epoch, checkpoint.gatewayDigest) ≠
          (turnId, epoch, checkpointDigest) then
        .error (.protocol "ACP acknowledgement does not match the latest checkpoint" 409)
      else if payload.latestCheckpointAcknowledged = true then
        .error (.protocol "ACP checkpoint was already acknowledged" 409)
      else .ok checkpoint

theorem admission_ok {payload : SessionPayload} {request : ContinuationRequest}
    (admitted : admission payload request = .ok ()) :
    payload.latestCheckpoint.isSome → payload.latestCheckpointAcknowledged = true := by
  intro present
  unfold admission at admitted
  split at admitted
  · next none => simp [none] at present
  · split at admitted
    · cases admitted
    · next acknowledged => simpa using acknowledged

theorem acknowledgement_ok {payload : SessionPayload} {turnId digest : String} {epoch : Nat}
    {checkpoint : Checkpoint}
    (accepted : acknowledgement payload turnId epoch digest = .ok checkpoint) :
    payload.latestCheckpoint = some checkpoint ∧
      payload.latestCheckpointAcknowledged = false := by
  unfold acknowledgement at accepted
  split at accepted
  · cases accepted
  · next found latest =>
    split at accepted
    · cases accepted
    · split at accepted
      · cases accepted
      · next pending =>
        cases accepted
        exact ⟨latest, by simpa using pending⟩

structure Session extends SessionPayload where
  protocolVersion : String
  events : List ContinuationEvent := []

structure InMemoryContinuationStore where
  sessions : Dict String Session := .empty

/-- The calls of both stores. -/
inductive ContinuationCall (Request Response : Type) where
  | beginTurn (request : ContinuationRequest)
  | completeTurn (turn : ContinuationTurn) (request : Request) (response : Response)
      (selectedEndpoint : String)
  | acknowledge (sessionId turnId : String) (epoch : Nat) (checkpointDigest : String)
  | interruptTurn (turn : ContinuationTurn) (detail : String)

inductive ContinuationAnswer where
  | turn (turn : ContinuationTurn)
  | event (event : ContinuationEvent)
  | raised (error : ContinuationError)
  deriving DecidableEq

/-- What a call draws from outside: random identifiers and the time. -/
structure Draws where
  session : String
  turn : String
  event : String
  now : Seconds

namespace InMemoryContinuationStore

variable {Request Response : Type} (digests : Digests Request Response)

/-- Store the session with its next state and the event that tells of it. -/
def put (store : InMemoryContinuationStore) (sessionId : String) (session : Session)
    (payload : SessionPayload) (event : ContinuationEvent) : InMemoryContinuationStore :=
  ⟨store.sessions.set sessionId
    { payload with
      protocolVersion := session.protocolVersion
      events := session.events ++ [event] }⟩

def admitTurn (store : InMemoryContinuationStore) (draws : Draws) (request : ContinuationRequest)
    (sessionId : String) (session : Session) : ContinuationAnswer × InMemoryContinuationStore :=
  if truthy session.activeTurnId then (.raised turnAlreadyActive, store)
  else
    match admission session.toSessionPayload request with
    | .error e => (.raised e, store)
    | .ok () =>
        let turn := turnOf session.toSessionPayload request sessionId (newTurnId draws.turn)
        (.turn turn, store.put sessionId session
          (session.toSessionPayload.begun turn.turnId)
          (eventOf draws.event draws.now .turnStarted turn none false none))

def beginTurn (store : InMemoryContinuationStore) (draws : Draws)
    (request : ContinuationRequest) : ContinuationAnswer × InMemoryContinuationStore :=
  match validateRequest request with
  | .error e => (.raised e, store)
  | .ok () =>
      let sessionId := sessionIdOf request draws.session
      match store.sessions.get sessionId with
      | none =>
          if truthy request.parentCheckpointDigest then
            (.raised (.protocol "A new ACP session cannot specify a parent checkpoint" 400), store)
          else store.admitTurn draws request sessionId { protocolVersion := request.protocolVersion }
      | some session =>
          if session.protocolVersion ≠ request.protocolVersion then
            (.raised (.protocol
              "ACP protocol version does not match the existing session" 409), store)
          else store.admitTurn draws request sessionId session

def activeSession (store : InMemoryContinuationStore) (turn : ContinuationTurn) :
    Option Session :=
  (store.sessions.get turn.sessionId).filter fun session =>
    session.toSessionPayload.IsActive turn

def completeTurn (store : InMemoryContinuationStore) (draws : Draws) (turn : ContinuationTurn)
    (request : Request) (response : Response) (selectedEndpoint : String) :
    ContinuationAnswer × InMemoryContinuationStore :=
  match store.activeSession turn with
  | none => (.raised turnNoLongerActive, store)
  | some session =>
      match checkpointOf digests turn request response selectedEndpoint draws.now with
      | none => (.raised .serialization, store)
      | some checkpoint =>
          let event := eventOf draws.event draws.now .turnCompleted turn (some checkpoint) true none
          (.event event, store.put turn.sessionId session
            (session.toSessionPayload.completed checkpoint) event)

def acknowledge (store : InMemoryContinuationStore) (draws : Draws)
    (sessionId turnId : String) (epoch : Nat) (checkpointDigest : String) :
    ContinuationAnswer × InMemoryContinuationStore :=
  match validateAcknowledgement sessionId turnId checkpointDigest with
  | .error e => (.raised e, store)
  | .ok () =>
      match store.sessions.get sessionId with
      | none => (.raised (.protocol "ACP session has no checkpoint to acknowledge" 404), store)
      | some session =>
          match acknowledgement session.toSessionPayload turnId epoch checkpointDigest with
          | .error e => (.raised e, store)
          | .ok checkpoint =>
              let turn := acknowledgedTurn sessionId checkpoint session.protocolVersion
              let event := eventOf draws.event draws.now .checkpointAcknowledged turn
                (some checkpoint) false none
              (.event event, store.put sessionId session session.toSessionPayload.acknowledged event)

def interruptTurn (store : InMemoryContinuationStore) (draws : Draws) (turn : ContinuationTurn)
    (detail : String) : ContinuationAnswer × InMemoryContinuationStore :=
  match store.activeSession turn with
  | none => (.raised turnNoLongerActive, store)
  | some session =>
      let event := eventOf draws.event draws.now .turnInterrupted turn none false (some detail)
      (.event event, store.put turn.sessionId session session.toSessionPayload.interrupted event)

def call (store : InMemoryContinuationStore) (draws : Draws) :
    ContinuationCall Request Response → ContinuationAnswer × InMemoryContinuationStore
  | .beginTurn request => store.beginTurn draws request
  | .completeTurn turn request response endpoint =>
      store.completeTurn digests draws turn request response endpoint
  | .acknowledge sessionId turnId epoch digest =>
      store.acknowledge draws sessionId turnId epoch digest
  | .interruptTurn turn detail => store.interruptTurn draws turn detail

end InMemoryContinuationStore

/-! ## Runs -/

/-- The event that the session keeps, as its history sees it. -/
def historyEvent (event : ContinuationEvent) : Option SessionEvent :=
  match event.eventType, event.checkpoint with
  | .turnStarted, _ => some (.started event.turnId event.epoch)
  | .turnCompleted, some checkpoint => some (.committed checkpoint)
  | .turnCompleted, none => none
  | .checkpointAcknowledged, _ => some (.acknowledged event.epoch)
  | .turnInterrupted, _ => none

def Session.history (session : Session) : List SessionEvent :=
  (session.events.filterMap historyEvent).reverse

/-- The turns a call works on. -/
def ContinuationCall.turn? {Request Response : Type} :
    ContinuationCall Request Response → Option ContinuationTurn
  | .completeTurn turn _ _ _ | .interruptTurn turn _ => some turn
  | .beginTurn _ | .acknowledge .. => none

/-- A run of one process. Turns are only ever those `begin_turn` returned. -/
structure InMemoryRun where
  store : InMemoryContinuationStore := {}
  issued : List ContinuationTurn := []

namespace InMemoryRun

variable {Request Response : Type} (digests : Digests Request Response)

def step (run : InMemoryRun) (event : Draws × ContinuationCall Request Response) : InMemoryRun :=
  if ∀ turn ∈ event.2.turn?, turn ∈ run.issued then
    let answer := run.store.call digests event.1 event.2
    { store := answer.2
      issued := match answer.1 with
        | .turn turn => turn :: run.issued
        | _ => run.issued }
  else run

def run (start : InMemoryRun) (events : List (Draws × ContinuationCall Request Response)) :
    InMemoryRun :=
  events.foldl (step digests) start

end InMemoryRun

end DuraLLM
