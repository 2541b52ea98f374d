import DuraLLM.Continuation.Store
import DuraLLM.Storage.Transactions
import Mathlib.Logic.Function.Basic

/-! # The durable continuation store

`SQLiteContinuationStore` keeps sessions in the database, saves them by
compare-and-swap on their revision, and holds a session lease from
`begin_turn` until the turn is completed or interrupted.  The lease of a turn
is remembered in the memory of the instance only.

A call is a program over store transactions and that memory.  A `finally`
clause is what the program does after its body, whatever the body returned.
-/

namespace DuraLLM

/-- An instance: its configuration and the leases of the turns it began. -/
structure ContinuationInstance where
  ownerId : String
  leaseTtlSeconds : Seconds := 120
  turnLeases : Dict String Lease := .empty

inductive ContinuationOp (Json : Type) where
  | store (call : StoreCall Json SessionPayload)
  | config
  | getTurnLease (turnId : String)
  | setTurnLease (turnId : String) (lease : Lease)
  | popTurnLease (turnId : String)
  /-- `uuid.uuid4().hex` -/
  | hex
  /-- `time.time()` -/
  | time

def ContinuationOp.Answer {Json : Type} : ContinuationOp Json → Type
  | .store call => call.Answer
  | .config => String × Seconds
  | .getTurnLease _ => Option Lease
  | .setTurnLease .. | .popTurnLease _ => Unit
  | .hex => String
  | .time => Seconds

abbrev continuationSignature (Json : Type) : Signature where
  Op := Nat × ContinuationOp Json
  Ans op := op.2.Answer

def sessionResource (sessionId : String) : String := "session:" ++ sessionId

namespace SqliteContinuation

variable {Json Request Response : Type}

def ask (i : Nat) (op : ContinuationOp Json) : Prog (continuationSignature Json) op.Answer :=
  Prog.call (S := continuationSignature Json) (i, op)

@[simp] theorem exec_ask {σ : Type} (handle : Prog.Handler (continuationSignature Json) σ)
    (i : Nat) (op : ContinuationOp Json) (s : σ) :
    (ask i op).exec handle s = handle (i, op) s := rfl

def event (i : Nat) (eventType : ContinuationEventType) (turn : ContinuationTurn)
    (checkpoint : Option Checkpoint) (ackRequired : Bool) (detail : Option String) :
    Prog (continuationSignature Json) ContinuationEvent := do
  let hex ← ask i .hex
  let now ← ask i .time
  return eventOf hex now eventType turn checkpoint ackRequired detail

def acquireSession (i : Nat) (sessionId : String) :
    Prog (continuationSignature Json) (Except ContinuationError Lease) := do
  let (ownerId, leaseTtlSeconds) ← ask i .config
  match ← ask i (.store (.acquireLease (sessionResource sessionId) ownerId leaseTtlSeconds)) with
  | none => return .error turnAlreadyActive
  | some lease => return .ok lease

def releaseSession (i : Nat) (lease : Lease) : Prog (continuationSignature Json) Unit := do
  let (ownerId, _) ← ask i .config
  let _ ← ask i (.store (.releaseLease lease.resource ownerId lease.fencingToken))
  return ()

def loadOrCreate (i : Nat) (request : ContinuationRequest) (sessionId : String) :
    Prog (continuationSignature Json)
      (Except ContinuationError (StoredSession SessionPayload)) := do
  match ← ask i (.store (.loadSession sessionId)) with
  | some session => return .ok session
  | none =>
      if truthy request.parentCheckpointDigest then
        return .error (.protocol "A new ACP session cannot specify a parent checkpoint" 400)
      else
        match ← ask i (.store (.createSession sessionId request.protocolVersion {})) with
        | some created => return .ok created
        | none =>
            match ← ask i (.store (.loadSession sessionId)) with
            | some session => return .ok session
            | none => return .error (.protocol "Unable to create ACP session" 503)

def save (i : Nat) (session : StoredSession SessionPayload) (payload : SessionPayload) :
    Prog (continuationSignature Json)
      (Except ContinuationError (StoredSession SessionPayload)) := do
  match ← ask i (.store (.saveSession session.sessionId session.protocolVersion payload
      session.revision)) with
  | none =>
      return .error (.protocol "ACP session changed concurrently; retry the turn" 409)
  | some saved => return .ok saved

/-- The second component of an error says whether the lease is retained. -/
def discardStale (i : Nat) (session : StoredSession SessionPayload) :
    Prog (continuationSignature Json)
      (Except (ContinuationError × Bool) (StoredSession SessionPayload)) := do
  match session.payload.activeTurnId with
  | none => return .ok session
  | some turnId =>
      if turnId = "" then return .ok session
      else
        match ← ask i (.getTurnLease turnId) with
        -- The live first turn shares this lease: it must not be released.
        | some _ => return .error (turnAlreadyActive, true)
        | none =>
            match ← save i session session.payload.interrupted with
            | .error e => return .error (e, false)
            | .ok saved => return .ok saved

def admitTurn (i : Nat) (request : ContinuationRequest) (sessionId : String) (lease : Lease)
    (session : StoredSession SessionPayload) :
    Prog (continuationSignature Json) (Except ContinuationError ContinuationTurn × Bool) := do
  match admission session.payload request with
  | .error e => return (.error e, false)
  | .ok () =>
      let hex ← ask i .hex
      let turn := turnOf session.payload request sessionId (newTurnId hex)
      match ← save i session (session.payload.begun turn.turnId) with
      | .error e => return (.error e, false)
      | .ok _ =>
          let _ ← ask i (.setTurnLease turn.turnId lease)
          return (.ok turn, true)

/-- The body of the `try` of `begin_turn`, with `retained`. -/
def beginLeased (i : Nat) (request : ContinuationRequest) (sessionId : String) (lease : Lease) :
    Prog (continuationSignature Json) (Except ContinuationError ContinuationTurn × Bool) := do
  match ← loadOrCreate i request sessionId with
  | .error e => return (.error e, false)
  | .ok session =>
      if session.protocolVersion ≠ request.protocolVersion then
        return (.error (.protocol
          "ACP protocol version does not match the existing session" 409), false)
      else
        match ← discardStale i session with
        | .error (e, retained) => return (.error e, retained)
        | .ok session => admitTurn i request sessionId lease session

/-- `request.session_id or new_session_id()` -/
def chooseSessionId (i : Nat) (request : ContinuationRequest) :
    Prog (continuationSignature Json) String := do
  match request.sessionId with
  | none => return newSessionId (← ask i .hex)
  | some id => if id = "" then return newSessionId (← ask i .hex) else return id

def beginTurn (i : Nat) (request : ContinuationRequest) :
    Prog (continuationSignature Json) (Except ContinuationError ContinuationTurn) := do
  match validateRequest request with
  | .error e => return .error e
  | .ok () =>
      let sessionId ← chooseSessionId i request
      match ← acquireSession i sessionId with
      | .error e => return .error e
      | .ok lease =>
          let (outcome, retained) ← beginLeased i request sessionId lease
          if retained then return outcome
          else
            let _ ← releaseSession i lease
            return outcome

def activeSession (i : Nat) (turn : ContinuationTurn) :
    Prog (continuationSignature Json)
      (Except ContinuationError (StoredSession SessionPayload)) := do
  match ← ask i (.store (.loadSession turn.sessionId)) with
  | none => return .error turnNoLongerActive
  | some session =>
      if session.protocolVersion = turn.protocolVersion ∧ session.payload.IsActive turn then
        return .ok session
      else return .error turnNoLongerActive

def completeLeased (digests : Digests Request Response) (i : Nat) (turn : ContinuationTurn)
    (request : Request) (response : Response) (selectedEndpoint : String) :
    Prog (continuationSignature Json) (Except ContinuationError ContinuationEvent) := do
  match ← activeSession i turn with
  | .error e => return .error e
  | .ok session =>
      let now ← ask i .time
      match checkpointOf digests turn request response selectedEndpoint now with
      | none => return .error .serialization
      | some checkpoint =>
          match ← save i session (session.payload.completed checkpoint) with
          | .error e => return .error e
          | .ok _ => return .ok (← event i .turnCompleted turn (some checkpoint) true none)

/-- The `finally` of `complete_turn` and `interrupt_turn`. -/
def endTurn (i : Nat) (turn : ContinuationTurn)
    (body : Prog (continuationSignature Json) (Except ContinuationError ContinuationEvent)) :
    Prog (continuationSignature Json) (Except ContinuationError ContinuationEvent) := do
  match ← ask i (.getTurnLease turn.turnId) with
  | none => return .error turnNoLongerActive
  | some lease =>
      let outcome ← body
      let _ ← ask i (.popTurnLease turn.turnId)
      let _ ← releaseSession i lease
      return outcome

def completeTurn (digests : Digests Request Response) (i : Nat) (turn : ContinuationTurn)
    (request : Request) (response : Response) (selectedEndpoint : String) :
    Prog (continuationSignature Json) (Except ContinuationError ContinuationEvent) :=
  endTurn i turn (completeLeased digests i turn request response selectedEndpoint)

def interruptLeased (i : Nat) (turn : ContinuationTurn) (detail : String) :
    Prog (continuationSignature Json) (Except ContinuationError ContinuationEvent) := do
  match ← activeSession i turn with
  | .error e => return .error e
  | .ok session =>
      match ← save i session session.payload.interrupted with
      | .error e => return .error e
      | .ok _ => return .ok (← event i .turnInterrupted turn none false (some detail))

def interruptTurn (i : Nat) (turn : ContinuationTurn) (detail : String) :
    Prog (continuationSignature Json) (Except ContinuationError ContinuationEvent) :=
  endTurn i turn (interruptLeased i turn detail)

def acknowledgeLeased (i : Nat) (sessionId turnId : String) (epoch : Nat)
    (checkpointDigest : String) :
    Prog (continuationSignature Json) (Except ContinuationError ContinuationEvent) := do
  match ← ask i (.store (.loadSession sessionId)) with
  | none => return .error (.protocol "ACP session has no checkpoint to acknowledge" 404)
  | some session =>
      match acknowledgement session.payload turnId epoch checkpointDigest with
      | .error e => return .error e
      | .ok checkpoint =>
          match ← save i session session.payload.acknowledged with
          | .error e => return .error e
          | .ok _ =>
              let turn := acknowledgedTurn sessionId checkpoint session.protocolVersion
              return .ok (← event i .checkpointAcknowledged turn (some checkpoint) false none)

def acknowledge (i : Nat) (sessionId turnId : String) (epoch : Nat) (checkpointDigest : String) :
    Prog (continuationSignature Json) (Except ContinuationError ContinuationEvent) := do
  match validateAcknowledgement sessionId turnId checkpointDigest with
  | .error e => return .error e
  | .ok () =>
      match ← acquireSession i sessionId with
      | .error e => return .error e
      | .ok lease =>
          let outcome ← acknowledgeLeased i sessionId turnId epoch checkpointDigest
          let _ ← releaseSession i lease
          return outcome

def answerOf {α : Type} (returned : α → ContinuationAnswer) :
    Except ContinuationError α → ContinuationAnswer
  | .ok a => returned a
  | .error e => .raised e

def program (digests : Digests Request Response) (i : Nat) :
    ContinuationCall Request Response → Prog (continuationSignature Json) ContinuationAnswer
  | .beginTurn request => return answerOf .turn (← beginTurn i request)
  | .completeTurn turn request response endpoint => do
      return answerOf .event (← completeTurn digests i turn request response endpoint)
  | .acknowledge sessionId turnId epoch digest => do
      return answerOf .event (← acknowledge i sessionId turnId epoch digest)
  | .interruptTurn turn detail => return answerOf .event (← interruptTurn i turn detail)

end SqliteContinuation

/-! ## Instances over one database -/

/-- `hexes` is the supply of random identifiers and `drawn` how many of them
    have been used. -/
structure ContinuationSystem (Json : Type) [JsonCodec Json] where
  db : Database Json SessionPayload := {}
  instances : Nat → ContinuationInstance
  reads : StoreReads := ⟨0, 0⟩
  hexes : Nat → String
  drawn : Nat := 0

namespace ContinuationSystem

variable {Json : Type} [JsonCodec Json]

def updateInstance (s : ContinuationSystem Json) (i : Nat)
    (f : ContinuationInstance → ContinuationInstance) : ContinuationSystem Json :=
  { s with instances := Function.update s.instances i (f (s.instances i)) }

def updateTurnLeases (s : ContinuationSystem Json) (i : Nat)
    (f : Dict String Lease → Dict String Lease) : ContinuationSystem Json :=
  s.updateInstance i fun store => { store with turnLeases := f store.turnLeases }

def handle (sha256 : String → String) :
    Prog.Handler (continuationSignature Json) (ContinuationSystem Json)
  | (_, .store call), s =>
      let answer := call.perform sha256 s.reads s.db
      (answer.1, { s with db := answer.2 })
  | (i, .config), s => (((s.instances i).ownerId, (s.instances i).leaseTtlSeconds), s)
  | (i, .getTurnLease turnId), s => ((s.instances i).turnLeases.get turnId, s)
  | (i, .setTurnLease turnId lease), s => ((), s.updateTurnLeases i (·.set turnId lease))
  | (i, .popTurnLease turnId), s => ((), s.updateTurnLeases i (·.erase turnId))
  | (_, .hex), s => (s.hexes s.drawn, { s with drawn := s.drawn + 1 })
  | (_, .time), s => (s.reads.now, s)

end ContinuationSystem

/-- The clock moves; an instance crashes and is started again with an empty
    memory and its own configuration. -/
inductive ContinuationWorld where
  | clock (reads : StoreReads)
  | crash (i : Nat) (ownerId : String) (leaseTtlSeconds : Seconds)

def ContinuationWorld.apply {Json : Type} [JsonCodec Json] (s : ContinuationSystem Json) :
    ContinuationWorld → ContinuationSystem Json
  | .clock reads => { s with reads }
  | .crash i ownerId leaseTtlSeconds => s.updateInstance i fun _ => { ownerId, leaseTtlSeconds }

end DuraLLM
