import DuraLLM.Agent.Idempotency

/-! # Continuation protocol records

The records of the Agent Continuation Protocol and the checks both stores make
on them.  A `Checkpoint` is issued when a turn completes and has to be
acknowledged by the client before the next turn begins.

`Digests` stands for `canonical_digest` on the three records it is applied to.
It has no value where the record cannot be serialized, and the call then
raises.
-/

namespace DuraLLM

def acpVersion : String := "lcb-acp/1"

/-- A client sees the message of a `ContinuationProtocolError` with its status. -/
inductive ContinuationError where
  | protocol (message : String) (statusCode : Nat)
  | serialization
  deriving DecidableEq, Repr

/-- A call that raised has returned nothing. -/
theorem raised_ne {ε α : Type} {e : ε} {P : α → Prop} :
    ∀ a, (Except.error e : Except ε α) = .ok a → P a := nofun

structure ContinuationRequest where
  stateDigest : String
  sessionId : Option String := none
  parentCheckpointDigest : Option String := none
  protocolVersion : String := acpVersion
  deriving DecidableEq

structure Checkpoint where
  checkpointId : String
  sessionId : String
  turnId : String
  epoch : Nat
  parentCheckpointDigest : Option String
  requestDigest : String
  clientStateDigest : String
  responseDigest : String
  gatewayDigest : String
  createdAt : Seconds
  deriving DecidableEq

structure ContinuationTurn where
  sessionId : String
  turnId : String
  epoch : Nat
  parentCheckpointDigest : Option String
  clientStateDigest : String
  protocolVersion : String := acpVersion
  deriving DecidableEq

inductive ContinuationEventType where
  | turnStarted
  | turnCompleted
  | checkpointAcknowledged
  | turnInterrupted
  deriving DecidableEq, Repr

structure ContinuationEvent where
  eventId : String
  eventType : ContinuationEventType
  sessionId : String
  turnId : String
  epoch : Nat
  protocolVersion : String := acpVersion
  checkpoint : Option Checkpoint := none
  ackRequired : Bool := false
  detail : Option String := none
  createdAt : Seconds
  deriving DecidableEq

/-- `asdict` of a checkpoint before its own digest is known. -/
structure CheckpointData where
  protocolVersion : String
  sessionId : String
  turnId : String
  epoch : Nat
  parentCheckpointDigest : Option String
  requestDigest : String
  clientStateDigest : String
  responseDigest : String
  selectedEndpoint : String
  deriving DecidableEq

structure Digests (Request Response : Type) where
  request : Request → Option String
  response : Response → (selectedEndpoint : String) → Option String
  checkpoint : CheckpointData → Option String

/-- Truth value of an optional text: present and not empty. -/
def truthy (text : Option String) : Bool := text.any (· ≠ "")

def newSessionId (hex : String) : String := "acp_sess_" ++ hex

def newTurnId (hex : String) : String := "acp_turn_" ++ hex

theorem newTurnId_injective {hex other : String} (same : newTurnId hex = newTurnId other) :
    hex = other := by
  simpa [newTurnId] using same

/-- A fresh turn is not the one of a session without an active turn. -/
theorem newTurnId_ne {active : Option String} (idle : truthy active = false) (hex : String) :
    active ≠ some (newTurnId hex) := by
  rintro rfl
  simp [truthy, newTurnId] at idle

/-! ## Validation -/

/-- `^[0-9a-f]{64}$` -/
def isDigest (value : String) : Bool :=
  value.length = 64 && value.toList.all fun c => c.isDigit || ('a' ≤ c && c ≤ 'f')

/-- `^[A-Za-z0-9_.:-]{1,128}$` -/
def isIdentifier (value : String) : Bool :=
  1 ≤ value.length && value.length ≤ 128 &&
    value.toList.all fun c => c.isAlphanum || c ∈ ['_', '.', ':', '-']

def validateIdentifier (name value : String) : Except ContinuationError Unit :=
  if isIdentifier value then .ok () else .error (.protocol ("Invalid ACP " ++ name) 400)

def validateDigest (name value : String) : Except ContinuationError Unit :=
  if isDigest value then .ok ()
  else .error (.protocol ("ACP " ++ name ++ " must be a lowercase SHA-256 digest") 400)

/-- The optional fields are only validated when they are present. -/
def validateOptional (validate : String → String → Except ContinuationError Unit) (name : String)
    (value : Option String) : Except ContinuationError Unit :=
  match value with
  | none => .ok ()
  | some text => if text = "" then .ok () else validate name text

def validateRequest (request : ContinuationRequest) : Except ContinuationError Unit := do
  if request.protocolVersion ≠ acpVersion then
    throw (.protocol ("Unsupported ACP protocol version: " ++ request.protocolVersion) 400)
  validateOptional validateIdentifier "session_id" request.sessionId
  validateDigest "state_digest" request.stateDigest
  validateOptional validateDigest "parent_checkpoint_digest" request.parentCheckpointDigest

/-- The checks at the head of `acknowledge`. -/
def validateAcknowledgement (sessionId turnId checkpointDigest : String) :
    Except ContinuationError Unit := do
  validateIdentifier "session_id" sessionId
  validateIdentifier "turn_id" turnId
  validateDigest "checkpoint_digest" checkpointDigest

/-! ## Records both stores build -/

def turnNoLongerActive : ContinuationError := .protocol "ACP turn is no longer active" 409

def turnAlreadyActive : ContinuationError :=
  .protocol "An ACP turn is already active for this session" 409

def checkpointOf {Request Response : Type} (digests : Digests Request Response)
    (turn : ContinuationTurn) (request : Request) (response : Response)
    (selectedEndpoint : String) (now : Seconds) : Option Checkpoint := do
  let requestDigest ← digests.request request
  let responseDigest ← digests.response response selectedEndpoint
  let digest ← digests.checkpoint
    { protocolVersion := turn.protocolVersion
      sessionId := turn.sessionId
      turnId := turn.turnId
      epoch := turn.epoch
      parentCheckpointDigest := turn.parentCheckpointDigest
      requestDigest
      clientStateDigest := turn.clientStateDigest
      responseDigest
      selectedEndpoint }
  return {
    checkpointId := "acp_ckpt_" ++ (digest.take 24).toString
    sessionId := turn.sessionId
    turnId := turn.turnId
    epoch := turn.epoch
    parentCheckpointDigest := turn.parentCheckpointDigest
    requestDigest
    clientStateDigest := turn.clientStateDigest
    responseDigest
    gatewayDigest := digest
    createdAt := now }

theorem checkpointOf_some {Request Response : Type} {digests : Digests Request Response}
    {turn : ContinuationTurn} {request : Request} {response : Response} {endpoint : String}
    {now : Seconds} {checkpoint : Checkpoint}
    (made : checkpointOf digests turn request response endpoint now = some checkpoint) :
    checkpoint.turnId = turn.turnId ∧ checkpoint.epoch = turn.epoch ∧
      checkpoint.parentCheckpointDigest = turn.parentCheckpointDigest := by
  simp only [checkpointOf, Option.bind_eq_bind, Option.bind_eq_some_iff, Option.pure_def,
    Option.some.injEq] at made
  obtain ⟨_, _, _, _, _, _, rfl⟩ := made
  exact ⟨rfl, rfl, rfl⟩

/-- `_event`: the identifier is drawn like a turn identifier. -/
def eventOf (hex : String) (now : Seconds) (eventType : ContinuationEventType)
    (turn : ContinuationTurn) (checkpoint : Option Checkpoint) (ackRequired : Bool)
    (detail : Option String) : ContinuationEvent where
  eventId := "acp_evt_" ++ hex
  eventType := eventType
  sessionId := turn.sessionId
  turnId := turn.turnId
  epoch := turn.epoch
  protocolVersion := turn.protocolVersion
  checkpoint := checkpoint
  ackRequired := ackRequired
  detail := detail
  createdAt := now

/-- The turn that `acknowledge` reconstructs from the checkpoint. -/
def acknowledgedTurn (sessionId : String) (checkpoint : Checkpoint) (protocolVersion : String) :
    ContinuationTurn where
  sessionId := sessionId
  turnId := checkpoint.turnId
  epoch := checkpoint.epoch
  parentCheckpointDigest := checkpoint.parentCheckpointDigest
  clientStateDigest := checkpoint.clientStateDigest
  protocolVersion := protocolVersion

end DuraLLM
