import DuraLLM.Continuation.Calls

/-! # The durable store answers as the reference store

One instance of the durable store and an in-memory store are handed the same
calls, one after the other, and draw the same identifiers and times.  They
answer alike: the session rows show the sessions in memory, and the instance
remembers a lease for exactly those turns that are active.

No lease is ever refused, since all of them are the instance's own; an
acknowledgement that gives the lease of a turn away is harmless here.
-/

namespace DuraLLM

/-- A durable store and the reference store beside it. -/
structure ContinuationTwins (Json : Type) [JsonCodec Json] where
  memory : InMemoryRun := {}
  system : ContinuationSystem Json

namespace ContinuationSystem

variable {Json Request Response : Type} [JsonCodec Json]

/-- How many identifiers a request takes for its session. -/
def sessionDraws (request : ContinuationRequest) : Nat :=
  if truthy request.sessionId then 0 else 1

/-- The identifiers and the time that a call draws. The reference store also
    draws one for an event that it only keeps. -/
def drawsOf (s : ContinuationSystem Json) : ContinuationCall Request Response → Draws
  | .beginTurn request =>
      { session := s.hexes s.drawn
        turn := s.hexes (s.drawn + sessionDraws request)
        event := s.hexes s.drawn
        now := s.reads.now }
  | _ =>
      { session := s.hexes s.drawn
        turn := s.hexes s.drawn
        event := s.hexes s.drawn
        now := s.reads.now }

/-- The row is written. -/
def withRow (s : ContinuationSystem Json) (id : String) (row : SessionRow SessionPayload) :
    ContinuationSystem Json :=
  { s with db := { s.db with sessions := s.db.sessions.set id row } }

end ContinuationSystem

namespace ContinuationTwins

variable {Json Request Response : Type} [JsonCodec Json] (sha256 : String → String)
  (digests : Digests Request Response)

/-- A new instance over an empty database. -/
def start (ownerId : String) (leaseTtlSeconds : Seconds) (hexes : Nat → String) : ContinuationTwins Json where
  system := { instances := fun _ => { ownerId, leaseTtlSeconds }, hexes }

/-- The time of the next call. -/
def atTime (twins : ContinuationTwins Json) (reads : StoreReads) : ContinuationSystem Json :=
  { twins.system with reads }

/-- What the durable store answers, and what the reference store does. -/
def answers (twins : ContinuationTwins Json) (event : StoreReads × ContinuationCall Request Response) :
    ContinuationAnswer × ContinuationAnswer :=
  (((SqliteContinuation.program digests 0 event.2).exec (ContinuationSystem.handle sha256)
      (twins.atTime event.1)).1,
    (twins.memory.store.call digests ((twins.atTime event.1).drawsOf event.2) event.2).1)

/-- Turns are only ever those that `begin_turn` returned. -/
def step (twins : ContinuationTwins Json) (event : StoreReads × ContinuationCall Request Response) :
    ContinuationTwins Json :=
  if ∀ turn ∈ event.2.turn?, turn ∈ twins.memory.issued then
    { memory := twins.memory.step digests ((twins.atTime event.1).drawsOf event.2, event.2)
      system :=
        ((SqliteContinuation.program digests 0 event.2).exec (ContinuationSystem.handle sha256)
          (twins.atTime event.1)).2 }
  else twins

def run (twins : ContinuationTwins Json) (events : List (StoreReads × ContinuationCall Request Response)) :
    ContinuationTwins Json :=
  events.foldl (step sha256 digests) twins

end ContinuationTwins

namespace SqliteContinuation

variable {Json Request Response : Type} [JsonCodec Json] {sha256 : String → String}
  {s : ContinuationSystem Json}

/-! ## The parts of a call, run alone -/

variable (sha256) in
theorem save_exec (i : Nat) (session : StoredSession SessionPayload) (payload : SessionPayload)
    (current : Current session s) :
    (save i session payload).exec (ContinuationSystem.handle sha256) s =
      (.ok { session.toSessionRow.saved session.protocolVersion payload s.reads.now with
          sessionId := session.sessionId },
        s.withRow session.sessionId
          (session.toSessionRow.saved session.protocolVersion payload s.reads.now)) := by
  have located : s.db.sessions.get session.sessionId = some session.toSessionRow := current
  simp [save, Prog.exec_bind, ContinuationSystem.handle, StoreCall.perform,
    Database.saveSession_fits located, ContinuationSystem.withRow]

/-- The row of a new session. -/
def newRow (version : String) (now : Seconds) : SessionRow SessionPayload where
  protocolVersion := version
  payload := {}
  revision := 1
  createdAt := now
  updatedAt := now

theorem loadOrCreate_new (i : Nat) {request : ContinuationRequest} {sessionId : String}
    (absent : s.db.sessions.get sessionId = none) (orphan : truthy request.parentCheckpointDigest = false) :
    (loadOrCreate i request sessionId).exec (ContinuationSystem.handle sha256) s =
      (.ok { newRow request.protocolVersion s.reads.now with sessionId },
        s.withRow sessionId (newRow request.protocolVersion s.reads.now)) := by
  simp [loadOrCreate, Prog.exec_bind, ContinuationSystem.handle, StoreCall.perform,
    Database.loadSession, Database.createSession, Dict.contains, absent, orphan,
    ContinuationSystem.withRow, newRow]

theorem loadOrCreate_orphan (i : Nat) {request : ContinuationRequest} {sessionId : String}
    (absent : s.db.sessions.get sessionId = none) (child : truthy request.parentCheckpointDigest = true) :
    (loadOrCreate i request sessionId).exec (ContinuationSystem.handle sha256) s =
      (.error (.protocol "A new ACP session cannot specify a parent checkpoint" 400), s) := by
  simp [loadOrCreate, Prog.exec_bind, ContinuationSystem.handle, StoreCall.perform,
    Database.loadSession, absent, child]

/-- The second write counts. -/
theorem withRow_overwritten (id : String) (row later : SessionRow SessionPayload) (drawn : Nat) :
    ({ s.withRow id row with drawn } : ContinuationSystem Json).withRow id later =
      ({ s with drawn } : ContinuationSystem Json).withRow id later := by
  simp only [ContinuationSystem.withRow, Dict.set_set]

variable (sha256) in
theorem admitTurn_exec (i : Nat) (request : ContinuationRequest) (lease : Lease)
    (session : StoredSession SessionPayload) (current : Current session s)
    (admitted : admission session.payload request = .ok ()) :
    (admitTurn i request session.sessionId lease session).exec (ContinuationSystem.handle sha256) s =
      ((.ok (turnOf session.payload request session.sessionId (newTurnId (s.hexes s.drawn))), true),
        ({ s with drawn := s.drawn + 1 }.withRow session.sessionId
          (session.toSessionRow.saved session.protocolVersion
            (session.payload.begun (newTurnId (s.hexes s.drawn))) s.reads.now)).updateTurnLeases i
              (·.set (newTurnId (s.hexes s.drawn)) lease)) := by
  have saved := save_exec sha256 (s := { s with drawn := s.drawn + 1 }) i session
    (session.payload.begun (newTurnId (s.hexes s.drawn))) current
  simp [admitTurn, admitted, Prog.exec_bind, ContinuationSystem.handle, turnOf, saved]

variable (sha256) in
theorem discardStale_idle (i : Nat) (session : StoredSession SessionPayload)
    (idle : session.payload.activeTurnId = none) :
    (discardStale i session).exec (ContinuationSystem.handle sha256) s = (.ok session, s) := by
  simp [discardStale, idle]

theorem chooses (i : Nat) (request : ContinuationRequest) :
    Does sha256 (chooseSessionId i request) s fun answer t =>
      answer = requestedSession s request ∧
        t = { s with drawn := s.drawn + ContinuationSystem.sessionDraws request } := by
  unfold chooseSessionId requestedSession sessionIdOf ContinuationSystem.sessionDraws truthy
  cases request.sessionId with
  | none => exact ⟨rfl, rfl⟩
  | some id =>
      by_cases empty : id = ""
      · simp only [empty, if_true]
        exact ⟨rfl, rfl⟩
      · simp only [empty, if_false]
        exact ⟨rfl, by simp [Prog.exec_pure, empty]⟩

theorem acquires {i : Nat} {sessionId : String} {token : Nat}
    (rule : grantedToken (s.db.leases.get (sessionResource sessionId)) (s.instances i).ownerId
      s.reads.now = some token) :
    Does sha256 (acquireSession i sessionId) s fun answer t =>
      answer = .ok (s.leaseOf i sessionId token) ∧ t = s.leased i sessionId token := by
  unfold Does Prog.Runs
  rw [acquireSession_granted rule]
  exact ⟨rfl, rfl⟩

/-! ## What the two stores have in common -/

/-- What a session looks like from outside. -/
def rowView (row : SessionRow SessionPayload) : String × SessionPayload :=
  (row.protocolVersion, row.payload)

def sessionView (session : Session) : String × SessionPayload :=
  (session.protocolVersion, session.toSessionPayload)

structure Mirrors (process : InMemoryRun) (s : ContinuationSystem Json) : Prop where
  sessions : ∀ id, (s.db.sessions.get id).map rowView =
    (process.store.sessions.get id).map sessionView
  versions : ∀ id session, process.store.sessions.get id = some session →
    session.protocolVersion = acpVersion
  owned : ∀ resource row, s.db.leases.get resource = some row →
    row.ownerId = (s.instances 0).ownerId
  issued : ∀ turn ∈ process.issued, turn.protocolVersion = acpVersion ∧
    ∃ k < s.drawn, turn.turnId = newTurnId (s.hexes k)
  unique : ∀ turn ∈ process.issued, ∀ other ∈ process.issued,
    turn.turnId = other.turnId → turn = other
  active : ∀ id session turnId, process.store.sessions.get id = some session →
    session.activeTurnId = some turnId →
      ∃ turn ∈ process.issued, turn.turnId = turnId ∧ turn.sessionId = id ∧
        session.toSessionPayload.IsActive turn
  cached : ∀ turn ∈ process.issued,
    ((s.instances 0).turnLeases.get turn.turnId).isSome ↔
      ∃ session, process.store.sessions.get turn.sessionId = some session ∧
        session.toSessionPayload.IsActive turn

namespace Mirrors

variable {process : InMemoryRun}

theorem absent (mirrors : Mirrors process s) {id : String}
    (missing : process.store.sessions.get id = none) : s.db.sessions.get id = none := by
  have view := mirrors.sessions id
  rw [missing] at view
  exact Option.map_eq_none_iff.mp view

theorem located (mirrors : Mirrors process s) {id : String} {session : Session}
    (found : process.store.sessions.get id = some session) :
    ∃ row, s.db.sessions.get id = some row ∧ row.protocolVersion = session.protocolVersion ∧
      row.payload = session.toSessionPayload := by
  have view := mirrors.sessions id
  rw [found] at view
  obtain ⟨row, there, same⟩ := Option.map_eq_some_iff.mp view
  exact ⟨row, there, congrArg Prod.fst same, congrArg Prod.snd same⟩

/-- An active turn has a name. -/
theorem named (mirrors : Mirrors process s) {id turnId : String} {session : Session}
    (found : process.store.sessions.get id = some session)
    (active : session.activeTurnId = some turnId) : turnId ≠ "" := by
  obtain ⟨turn, member, rfl, _⟩ := mirrors.active id session turnId found active
  obtain ⟨_, k, _, drawn⟩ := mirrors.issued turn member
  rw [drawn]
  simp [newTurnId]

/-- The clock moved, and identifiers were drawn. -/
theorem drawn (mirrors : Mirrors process s) (reads : StoreReads) (more : Nat) :
    Mirrors process { s with reads, drawn := s.drawn + more } := by
  refine { mirrors with issued := ?_ }
  intro turn member
  obtain ⟨version, k, below, same⟩ := mirrors.issued turn member
  exact ⟨version, k, Nat.lt_add_right more below, same⟩

/-- Every lease is the instance's own, and so none is refused. -/
theorem granted (mirrors : Mirrors process s) (sessionId : String) :
    ∃ token, grantedToken (s.db.leases.get (sessionResource sessionId)) (s.instances 0).ownerId
      s.reads.now = some token := by
  unfold grantedToken
  cases held : s.db.leases.get (sessionResource sessionId) with
  | none => exact ⟨1, rfl⟩
  | some row => exact ⟨row.fencingToken, if_pos (mirrors.owned _ row held)⟩

theorem leased (mirrors : Mirrors process s) (sessionId : String) (token : Nat) :
    Mirrors process (s.leased 0 sessionId token) := by
  refine { mirrors with owned := ?_ }
  intro resource row there
  simp only [ContinuationSystem.leased, Dict.get_set] at there
  split at there
  · cases there
    rfl
  · exact mirrors.owned resource row there

theorem released (mirrors : Mirrors process s) (lease : Lease) :
    Mirrors process (s.released 0 lease) := by
  refine { mirrors with owned := ?_ }
  intro resource row there
  simp only [ContinuationSystem.released, Database.deleteLease, Dict.get_filter] at there
  exact mirrors.owned resource row (Option.filter_eq_some_iff.mp there).1

/-- A session moves in both stores, and its turn stays the same. -/
theorem put (mirrors : Mirrors process s) {id : String} {session : Session}
    (found : process.store.sessions.get id = some session) (payload : SessionPayload)
    (turnId : payload.activeTurnId = session.activeTurnId)
    (epoch : payload.activeEpoch = session.activeEpoch) {row : SessionRow SessionPayload}
    (view : rowView row = (session.protocolVersion, payload)) (event : ContinuationEvent) :
    Mirrors ⟨process.store.put id session payload event, process.issued⟩ (s.withRow id row) := by
  have same : ∀ turn : ContinuationTurn, payload.IsActive turn ↔ session.toSessionPayload.IsActive turn := by
    intro turn
    simp only [SessionPayload.IsActive, turnId, epoch]
  refine { mirrors with sessions := ?_, versions := ?_, active := ?_, cached := ?_ }
  · intro other
    simp only [ContinuationSystem.withRow, InMemoryContinuationStore.put, Dict.get_set]
    split
    · exact congrArg some view
    · exact mirrors.sessions other
  · intro other moved there
    simp only [InMemoryContinuationStore.put, Dict.get_set] at there
    split at there
    · cases there
      exact mirrors.versions id session found
    · exact mirrors.versions other moved there
  · intro other moved turnId' there active
    simp only [InMemoryContinuationStore.put, Dict.get_set] at there
    split at there
    · next here =>
      subst here
      cases there
      obtain ⟨turn, member, named, there, running⟩ :=
        mirrors.active _ session turnId' found (turnId ▸ active)
      exact ⟨turn, member, named, there, (same turn).mpr running⟩
    · exact mirrors.active other moved turnId' there active
  · intro turn member
    refine (mirrors.cached turn member).trans ?_
    simp only [InMemoryContinuationStore.put, Dict.get_set]
    by_cases here : turn.sessionId = id
    · simp [here, found, same]
    · simp [here]

/-- The active turn of a session ends, and its lease is forgotten. -/
theorem ended (mirrors : Mirrors process s) {turn : ContinuationTurn}
    (member : turn ∈ process.issued) {session : Session}
    (found : process.store.sessions.get turn.sessionId = some session)
    (running : session.toSessionPayload.IsActive turn) {payload : SessionPayload}
    (idle : payload.activeTurnId = none) {row : SessionRow SessionPayload}
    (view : rowView row = (session.protocolVersion, payload)) (event : ContinuationEvent) :
    Mirrors ⟨process.store.put turn.sessionId session payload event, process.issued⟩
      ((s.withRow turn.sessionId row).updateTurnLeases 0 (·.erase turn.turnId)) := by
  have steady := updateTurnLeases_steady (s.withRow turn.sessionId row) 0 (·.erase turn.turnId)
  refine
    { sessions := ?_, versions := ?_, owned := ?_, issued := mirrors.issued
      unique := mirrors.unique, active := ?_, cached := ?_ }
  · intro other
    simp only [ContinuationSystem.updateTurnLeases, ContinuationSystem.updateInstance,
      ContinuationSystem.withRow, InMemoryContinuationStore.put, Dict.get_set]
    split
    · exact congrArg some view
    · exact mirrors.sessions other
  · intro other moved there
    simp only [InMemoryContinuationStore.put, Dict.get_set] at there
    split at there
    · cases there
      exact mirrors.versions _ session found
    · exact mirrors.versions other moved there
  · intro resource held there
    rw [steady.owner]
    exact mirrors.owned resource held there
  · intro other moved turnId there active
    simp only [InMemoryContinuationStore.put, Dict.get_set] at there
    split at there
    · cases there
      rw [show payload.activeTurnId = some turnId from active] at idle
      cases idle
    · exact mirrors.active other moved turnId there active
  · intro other issued
    rw [turnLeases_update, if_pos rfl]
    simp only [InMemoryContinuationStore.put, Dict.get_set]
    by_cases same : other.turnId = turn.turnId
    · obtain rfl := mirrors.unique other issued turn member same
      simp [SessionPayload.IsActive, idle]
    · rw [Dict.get_erase_ne _ same]
      refine (mirrors.cached other issued).trans ?_
      by_cases here : other.sessionId = turn.sessionId
      · have apart : session.activeTurnId ≠ some other.turnId := fun active =>
          same (Option.some.inj (active.symm.trans running.1))
        simp [here, found, apart, SessionPayload.IsActive, idle]
      · simp [here]

/-- A turn begins in an idle session, under an identifier of its own. -/
theorem begun (mirrors : Mirrors process s) (fresh : Function.Injective s.hexes)
    {turn : ContinuationTurn} {session : Session}
    (known : process.store.sessions.get turn.sessionId = some session ∨
      process.store.sessions.get turn.sessionId = none)
    (version : session.protocolVersion = acpVersion) (idle : session.activeTurnId = none)
    (speaks : turn.protocolVersion = acpVersion) (name : turn.turnId = newTurnId (s.hexes s.drawn))
    {payload : SessionPayload} (running : payload.IsActive turn) {row : SessionRow SessionPayload}
    (view : rowView row = (session.protocolVersion, payload)) (event : ContinuationEvent)
    (lease : Lease) :
    Mirrors ⟨process.store.put turn.sessionId session payload event, turn :: process.issued⟩
      (({ s with drawn := s.drawn + 1 }.withRow turn.sessionId row).updateTurnLeases 0
        (·.set turn.turnId lease)) := by
  have steady := updateTurnLeases_steady ({ s with drawn := s.drawn + 1 }.withRow turn.sessionId row) 0
    (·.set turn.turnId lease)
  have new : ∀ other ∈ process.issued, other.turnId ≠ turn.turnId := by
    intro other member same
    obtain ⟨_, k, below, drawn⟩ := mirrors.issued other member
    have : k = s.drawn := fresh (newTurnId_injective (drawn.symm.trans (same.trans name)))
    omega
  refine
    { sessions := ?_, versions := ?_, owned := ?_, issued := ?_, unique := ?_, active := ?_
      cached := ?_ }
  · intro other
    simp only [ContinuationSystem.updateTurnLeases, ContinuationSystem.updateInstance,
      ContinuationSystem.withRow, InMemoryContinuationStore.put, Dict.get_set]
    split
    · exact congrArg some view
    · exact mirrors.sessions other
  · intro other moved there
    simp only [InMemoryContinuationStore.put, Dict.get_set] at there
    split at there
    · cases there
      exact version
    · exact mirrors.versions other moved there
  · intro resource held there
    rw [steady.owner]
    exact mirrors.owned resource held there
  · intro other member
    cases List.mem_cons.mp member with
    | inl here =>
        subst here
        exact ⟨speaks, s.drawn, Nat.lt_succ_self _, name⟩
    | inr old =>
        obtain ⟨same, k, below, drawn⟩ := mirrors.issued other old
        exact ⟨same, k, Nat.lt_succ_of_lt below, drawn⟩
  · intro first member second member' same
    cases List.mem_cons.mp member with
    | inl here =>
        cases List.mem_cons.mp member' with
        | inl here' => exact here.trans here'.symm
        | inr old' => exact absurd (same.symm.trans (congrArg _ here)) (new second old')
    | inr old =>
        cases List.mem_cons.mp member' with
        | inl here' => exact absurd (same.trans (congrArg _ here')) (new first old)
        | inr old' => exact mirrors.unique first old second old' same
  · intro other moved turnId there active
    simp only [InMemoryContinuationStore.put, Dict.get_set] at there
    split at there
    · next here =>
      cases there
      exact ⟨turn, List.mem_cons_self, Option.some.inj (running.1.symm.trans active), here.symm,
        running⟩
    · obtain ⟨older, member, rest⟩ := mirrors.active other moved turnId there active
      exact ⟨older, List.mem_cons_of_mem _ member, rest⟩
  · intro other member
    rw [turnLeases_update, if_pos rfl]
    simp only [InMemoryContinuationStore.put, Dict.get_set]
    cases List.mem_cons.mp member with
    | inl here =>
        subst here
        simpa using running
    | inr old =>
        rw [if_neg (new other old)]
        refine (mirrors.cached other old).trans ?_
        by_cases here : other.sessionId = turn.sessionId
        · have apart : payload.activeTurnId ≠ some other.turnId := fun active =>
            new other old (Option.some.inj (active.symm.trans running.1))
          rcases known with found | absent
          · simp [here, found, idle, apart, SessionPayload.IsActive]
          · simp [here, absent, apart, SessionPayload.IsActive]
        · simp [here]

end Mirrors

/-! ## Calls -/

/-- The answer is that of the reference store, and the stores still agree. -/
def Agrees (process : InMemoryRun) (answered : ContinuationAnswer × InMemoryContinuationStore)
    (answer : ContinuationAnswer) (t : ContinuationSystem Json) : Prop :=
  answer = answered.1 ∧
    Mirrors
      { store := answered.2
        issued := match answered.1 with
          | .turn turn => turn :: process.issued
          | _ => process.issued } t

variable {process : InMemoryRun}

theorem Mirrors.raises (mirrors : Mirrors process s) (e : ContinuationError) :
    Agrees process (.raised e, process.store) (.raised e) s :=
  ⟨rfl, mirrors⟩

/-- A new turn in a session that is idle, or that is not there yet. -/
theorem admitTurn_agrees (mirrors : Mirrors process s) (fresh : Function.Injective s.hexes)
    (request : ContinuationRequest) (spoken : request.protocolVersion = acpVersion)
    {sessionId : String} (session : Session)
    (known : process.store.sessions.get sessionId = some session ∨
      process.store.sessions.get sessionId = none)
    (version : session.protocolVersion = acpVersion) (idle : session.activeTurnId = none)
    (lease : Lease) (row : SessionRow SessionPayload) {revision : Nat} {createdAt updatedAt : Seconds}
    (shown : row = ⟨session.protocolVersion, session.toSessionPayload, revision, createdAt, updatedAt⟩)
    (draws : Draws) (drawn : draws.turn = s.hexes s.drawn)
    (admitted : admission session.toSessionPayload request = .ok ()) :
    Agrees process (process.store.admitTurn draws request sessionId session)
      (.turn (turnOf session.toSessionPayload request sessionId (newTurnId (s.hexes s.drawn))))
      (({ s with drawn := s.drawn + 1 }.withRow sessionId
        (row.saved row.protocolVersion (row.payload.begun (newTurnId (s.hexes s.drawn)))
          s.reads.now)).updateTurnLeases 0 (·.set (newTurnId (s.hexes s.drawn)) lease)) := by
  have free : truthy session.activeTurnId = false := by rw [idle]; rfl
  simp only [Agrees, InMemoryContinuationStore.admitTurn, free, admitted, drawn]
  refine ⟨rfl, ?_⟩
  have running : (session.toSessionPayload.begun (newTurnId (s.hexes s.drawn))).IsActive
      (turnOf session.toSessionPayload request sessionId (newTurnId (s.hexes s.drawn))) := ⟨rfl, rfl⟩
  subst shown
  exact mirrors.begun fresh known version idle spoken rfl running rfl _ lease

variable (sha256) in
theorem beginLeased_agrees (mirrors : Mirrors process s) (fresh : Function.Injective s.hexes)
    {request : ContinuationRequest} (valid : validateRequest request = .ok ()) (lease : Lease)
    (draws : Draws) (drawn : draws.turn = s.hexes s.drawn) :
    Does sha256 (beginLeased 0 request (sessionIdOf request draws.session) lease) s fun answer t =>
      Agrees process (process.store.beginTurn draws request) (answerOf .turn answer.1) t := by
  have spoken := validateRequest_ok valid
  unfold Does Prog.Runs
  cases found : process.store.sessions.get (sessionIdOf request draws.session) with
  | none =>
      have absent := mirrors.absent found
      cases parent : truthy request.parentCheckpointDigest with
      | true =>
          simp only [beginLeased, Prog.exec_bind, loadOrCreate_orphan 0 absent parent,
            Prog.exec_pure, InMemoryContinuationStore.beginTurn, valid, found, parent, if_true]
          exact mirrors.raises _
      | false =>
          have idle := discardStale_idle sha256 0 (s := s.withRow (sessionIdOf request draws.session)
            (newRow request.protocolVersion s.reads.now))
            { newRow request.protocolVersion s.reads.now with
              sessionId := sessionIdOf request draws.session } rfl
          have admitted := admitTurn_exec sha256 0 request lease
            (s := s.withRow (sessionIdOf request draws.session)
              (newRow request.protocolVersion s.reads.now))
            { newRow request.protocolVersion s.reads.now with
              sessionId := sessionIdOf request draws.session }
            (Dict.get_set_self _ _ _) rfl
          have same : (newRow request.protocolVersion s.reads.now).protocolVersion =
              request.protocolVersion := rfl
          simp only [beginLeased, Prog.exec_bind, loadOrCreate_new 0 absent parent, idle, same,
            ne_eq, not_true_eq_false, if_false, admitted, InMemoryContinuationStore.beginTurn,
            valid, found, parent]
          rw [withRow_overwritten]
          exact admitTurn_agrees mirrors fresh request spoken { protocolVersion := request.protocolVersion }
            (.inr found) spoken rfl lease _ rfl draws drawn rfl
  | some session =>
      obtain ⟨row, located, version, payload⟩ := mirrors.located found
      have known := mirrors.versions _ session found
      have same : row.protocolVersion = request.protocolVersion :=
        (version.trans known).trans spoken.symm
      cases active : session.activeTurnId with
      | some turnId =>
          have named := mirrors.named found active
          obtain ⟨turn, member, rfl, here, running⟩ := mirrors.active _ session _ found active
          obtain ⟨held, cached⟩ := Option.isSome_iff_exists.mp
            ((mirrors.cached turn member).mpr ⟨session, here ▸ found, running⟩)
          have live := beginLeased_live sha256 (s := s) 0 request lease located same
            (by rw [payload, active]) named cached
          have busy : truthy (some turn.turnId) = true := by simp [truthy, named]
          simp only [live, InMemoryContinuationStore.beginTurn, valid, found, known, spoken, ne_eq,
            not_true_eq_false, if_false, InMemoryContinuationStore.admitTurn, active, busy, if_true]
          exact mirrors.raises _
      | none =>
          have idle := discardStale_idle sha256 0 (s := s)
            { row with sessionId := sessionIdOf request draws.session } (by rw [payload, active])
          have free : truthy (none : Option String) = false := rfl
          cases admitted : admission session.toSessionPayload request with
          | error e =>
              have refused : admission row.payload request = .error e := by rw [payload, admitted]
              simp only [beginLeased, Prog.exec_bind, loadOrCreate_found 0 request located, idle, same,
                ne_eq, not_true_eq_false, if_false, admitTurn, refused, Prog.exec_pure,
                InMemoryContinuationStore.beginTurn, valid, found, known, spoken,
                InMemoryContinuationStore.admitTurn, active, free, admitted]
              exact mirrors.raises e
          | ok granted =>
              have begun := admitTurn_exec sha256 0 request lease
                { row with sessionId := sessionIdOf request draws.session } located
                (by rw [payload, admitted])
              simp only [beginLeased, Prog.exec_bind, loadOrCreate_found 0 request located, idle, same,
                ne_eq, not_true_eq_false, if_false, begun, InMemoryContinuationStore.beginTurn,
                valid, found, known, spoken]
              have shown : row = ⟨session.protocolVersion, session.toSessionPayload, row.revision,
                  row.createdAt, row.updatedAt⟩ := by rw [← version, ← payload]
              have agrees := admitTurn_agrees mirrors fresh request spoken session (.inl found) known
                active lease row shown draws drawn admitted
              rw [← payload, same, spoken] at agrees
              exact agrees

/-- Releasing a lease of its own, the instance agrees as before. -/
theorem Agrees.released {answered : ContinuationAnswer × InMemoryContinuationStore}
    {answer : ContinuationAnswer} {t : ContinuationSystem Json}
    (agrees : Agrees process answered answer t) (lease : Lease) :
    Agrees process answered answer (t.released 0 lease) :=
  ⟨agrees.1, agrees.2.released lease⟩

theorem beginTurn_agrees (mirrors : Mirrors process s) (fresh : Function.Injective s.hexes)
    (request : ContinuationRequest) :
    Does sha256 (beginTurn 0 request) s fun answer t =>
      Agrees process (process.store.beginTurn
        (s.drawsOf (.beginTurn request : ContinuationCall Request Response)) request)
        (answerOf .turn answer) t := by
  unfold beginTurn
  split
  next e invalid =>
    unfold InMemoryContinuationStore.beginTurn
    rw [invalid]
    exact mirrors.raises e
  next valid =>
    have chosen := mirrors.drawn s.reads (ContinuationSystem.sessionDraws request)
    obtain ⟨token, rule⟩ := chosen.granted (requestedSession s request)
    have leased := chosen.leased (requestedSession s request) token
    have begun := beginLeased_agrees sha256 leased fresh valid
      (ContinuationSystem.leaseOf { s with drawn := s.drawn + ContinuationSystem.sessionDraws request }
        0 (requestedSession s request) token)
      (s.drawsOf (.beginTurn request : ContinuationCall Request Response)) rfl
    refine (chooses 0 request).seq ?_
    rintro _ _ ⟨rfl, rfl⟩
    refine (acquires rule).seq ?_
    rintro _ _ ⟨rfl, rfl⟩
    refine Prog.Runs.seq begun fun outcome t agrees => ?_
    obtain ⟨answer, retained⟩ := outcome
    cases retained with
    | true => exact agrees
    | false => exact agrees.released _

/-! ### Ending a turn -/

variable (sha256) in
theorem activeSession_exec (i : Nat) {turn : ContinuationTurn} {row : SessionRow SessionPayload}
    (located : s.db.sessions.get turn.sessionId = some row)
    (version : row.protocolVersion = turn.protocolVersion) (running : row.payload.IsActive turn) :
    (activeSession i turn).exec (ContinuationSystem.handle sha256) s =
      (.ok { row with sessionId := turn.sessionId }, s) := by
  simp [activeSession, Prog.exec_bind, ContinuationSystem.handle, StoreCall.perform,
    Database.loadSession, located, version, running]

variable (sha256) in
/-- A turn without a lease is not active in memory either. -/
theorem endTurn_stale (mirrors : Mirrors process s) {turn : ContinuationTurn}
    (member : turn ∈ process.issued) (cached : (s.instances 0).turnLeases.get turn.turnId = none)
    (body : Prog (continuationSignature Json) (Except ContinuationError ContinuationEvent)) :
    (endTurn 0 turn body).exec (ContinuationSystem.handle sha256) s = (.error turnNoLongerActive, s) ∧
      process.store.activeSession turn = none := by
  constructor
  · simp [endTurn, Prog.exec_bind, ContinuationSystem.handle, cached]
  · rw [InMemoryContinuationStore.activeSession, Option.filter_eq_none_iff]
    intro session found running
    have held := (mirrors.cached turn member).mpr ⟨session, found, of_decide_eq_true running⟩
    simp [cached] at held

theorem endTurn_agrees (mirrors : Mirrors process s) {turn : ContinuationTurn}
    (member : turn ∈ process.issued) {session : Session}
    (found : process.store.sessions.get turn.sessionId = some session)
    (running : session.toSessionPayload.IsActive turn) {lease : Lease}
    (cached : (s.instances 0).turnLeases.get turn.turnId = some lease) {payload : SessionPayload}
    (idle : payload.activeTurnId = none) (row : SessionRow SessionPayload)
    (view : rowView row = (session.protocolVersion, payload))
    {body : Prog (continuationSignature Json) (Except ContinuationError ContinuationEvent)}
    {event : ContinuationEvent}
    (done : body.exec (ContinuationSystem.handle sha256) s =
      (.ok event, { s with drawn := s.drawn + 1 }.withRow turn.sessionId row)) :
    Does sha256 (endTurn 0 turn body) s fun answer t =>
      Agrees process (.event event, process.store.put turn.sessionId session payload event)
        (answerOf .event answer) t := by
  have ended := (mirrors.drawn s.reads 1).ended member found running idle view event
  unfold Does Prog.Runs
  simp only [endTurn, Prog.exec_bind, exec_ask, ContinuationSystem.handle, cached, done]
  exact ⟨rfl, ended.released lease⟩

section Turns

variable {turn : ContinuationTurn}

/-- A turn with a lease is the active one of its session. -/
theorem Mirrors.serving (mirrors : Mirrors process s) (member : turn ∈ process.issued) {lease : Lease}
    (cached : (s.instances 0).turnLeases.get turn.turnId = some lease) :
    ∃ session row, process.store.activeSession turn = some session ∧
      process.store.sessions.get turn.sessionId = some session ∧
      s.db.sessions.get turn.sessionId = some row ∧ row.protocolVersion = turn.protocolVersion ∧
      row.protocolVersion = session.protocolVersion ∧ row.payload = session.toSessionPayload ∧
      session.toSessionPayload.IsActive turn := by
  obtain ⟨session, found, running⟩ := (mirrors.cached turn member).mp (by simp [cached])
  obtain ⟨row, located, version, payload⟩ := mirrors.located found
  have spoken := (version.trans (mirrors.versions _ session found)).trans
    (mirrors.issued turn member).1.symm
  refine ⟨session, row, ?_, found, located, spoken, version, payload, running⟩
  simp [InMemoryContinuationStore.activeSession, found, running]

theorem interruptTurn_agrees (mirrors : Mirrors process s) (member : turn ∈ process.issued)
    (detail : String) {draws : Draws} (event : draws.event = s.hexes s.drawn)
    (now : draws.now = s.reads.now) :
    Does sha256 (interruptTurn 0 turn detail) s fun answer t =>
      Agrees process (process.store.interruptTurn draws turn detail) (answerOf .event answer) t := by
  cases cached : (s.instances 0).turnLeases.get turn.turnId with
  | none =>
      obtain ⟨done, stale⟩ := endTurn_stale sha256 mirrors member cached
        (interruptLeased 0 turn detail)
      unfold Does Prog.Runs interruptTurn InMemoryContinuationStore.interruptTurn
      rw [done, stale]
      exact mirrors.raises _
  | some lease =>
      obtain ⟨session, row, serving, found, located, spoken, version, payload, running⟩ :=
        mirrors.serving member cached
      have loaded := activeSession_exec sha256 0 located spoken (payload ▸ running)
      have saved := save_exec sha256 (s := s) 0
        { row with sessionId := turn.sessionId } row.payload.interrupted located
      unfold InMemoryContinuationStore.interruptTurn
      rw [serving]
      refine endTurn_agrees mirrors member found running cached rfl
        (row.saved row.protocolVersion row.payload.interrupted s.reads.now) ?_ ?_
      · exact Prod.ext version (congrArg SessionPayload.interrupted payload)
      · simp only [interruptLeased, Prog.exec_bind, loaded, saved, event, now]
        rfl

variable {digests : Digests Request Response}

theorem completeTurn_agrees (mirrors : Mirrors process s) (member : turn ∈ process.issued)
    {request : Request} {response : Response} {endpoint : String} {draws : Draws}
    (event : draws.event = s.hexes s.drawn) (now : draws.now = s.reads.now)
    (digested : (checkpointOf digests turn request response endpoint s.reads.now).isSome) :
    Does sha256 (completeTurn digests 0 turn request response endpoint) s fun answer t =>
      Agrees process (process.store.completeTurn digests draws turn request response endpoint)
        (answerOf .event answer) t := by
  obtain ⟨checkpoint, made⟩ := Option.isSome_iff_exists.mp digested
  cases cached : (s.instances 0).turnLeases.get turn.turnId with
  | none =>
      obtain ⟨done, stale⟩ := endTurn_stale sha256 mirrors member cached
        (completeLeased digests 0 turn request response endpoint)
      unfold Does Prog.Runs completeTurn InMemoryContinuationStore.completeTurn
      rw [done, stale]
      exact mirrors.raises _
  | some lease =>
      obtain ⟨session, row, serving, found, located, spoken, version, payload, running⟩ :=
        mirrors.serving member cached
      have loaded := activeSession_exec sha256 0 located spoken (payload ▸ running)
      have saved := save_exec sha256 (s := s) 0
        { row with sessionId := turn.sessionId } (row.payload.completed checkpoint) located
      unfold InMemoryContinuationStore.completeTurn
      rw [serving, now]
      simp only [made]
      refine endTurn_agrees mirrors member found running cached rfl
        (row.saved row.protocolVersion (row.payload.completed checkpoint) s.reads.now) ?_ ?_
      · exact Prod.ext version (congrArg (SessionPayload.completed · checkpoint) payload)
      · simp only [completeLeased, Prog.exec_bind, loaded, exec_ask, ContinuationSystem.handle, made,
          saved, event]
        rfl

end Turns

/-! ### Acknowledging -/

theorem acknowledgeLeased_agrees (mirrors : Mirrors process s) {sessionId turnId digest : String}
    {epoch : Nat} (valid : validateAcknowledgement sessionId turnId digest = .ok ()) {draws : Draws}
    (event : draws.event = s.hexes s.drawn) (now : draws.now = s.reads.now) :
    Does sha256 (acknowledgeLeased 0 sessionId turnId epoch digest) s fun answer t =>
      Agrees process (process.store.acknowledge draws sessionId turnId epoch digest)
        (answerOf .event answer) t := by
  unfold Does Prog.Runs InMemoryContinuationStore.acknowledge
  rw [valid]
  cases found : process.store.sessions.get sessionId with
  | none =>
      have absent := mirrors.absent found
      simp only [acknowledgeLeased, Prog.exec_bind, exec_ask, ContinuationSystem.handle,
        StoreCall.perform, Database.loadSession, absent, Option.map_none]
      exact mirrors.raises _
  | some session =>
      obtain ⟨row, located, version, payload⟩ := mirrors.located found
      cases accepted : acknowledgement session.toSessionPayload turnId epoch digest with
      | error e =>
          have refused : acknowledgement row.payload turnId epoch digest = .error e := by
            rw [payload, accepted]
          simp only [acknowledgeLeased, Prog.exec_bind, exec_ask, ContinuationSystem.handle,
            StoreCall.perform, Database.loadSession, located, Option.map_some, refused, accepted]
          exact mirrors.raises e
      | ok checkpoint =>
          have settled : acknowledgement row.payload turnId epoch digest = .ok checkpoint := by
            rw [payload, accepted]
          have saved := save_exec sha256 (s := s) 0
            { row with sessionId } row.payload.acknowledged located
          simp only [acknowledgeLeased, Prog.exec_bind, exec_ask, ContinuationSystem.handle,
            StoreCall.perform, Database.loadSession, located, Option.map_some, settled, accepted,
            saved, event, now, version]
          have view : rowView (row.saved session.protocolVersion row.payload.acknowledged s.reads.now) =
              (session.protocolVersion, session.toSessionPayload.acknowledged) :=
            Prod.ext rfl (congrArg SessionPayload.acknowledged payload)
          exact ⟨rfl, (mirrors.drawn s.reads 1).put found session.toSessionPayload.acknowledged
            rfl rfl view _⟩

theorem acknowledge_agrees (mirrors : Mirrors process s) (sessionId turnId : String) (epoch : Nat)
    (digest : String) {draws : Draws} (event : draws.event = s.hexes s.drawn)
    (now : draws.now = s.reads.now) :
    Does sha256 (acknowledge 0 sessionId turnId epoch digest) s fun answer t =>
      Agrees process (process.store.acknowledge draws sessionId turnId epoch digest)
        (answerOf .event answer) t := by
  unfold acknowledge
  split
  next e invalid =>
    unfold InMemoryContinuationStore.acknowledge
    rw [invalid]
    exact mirrors.raises e
  next valid =>
    obtain ⟨token, rule⟩ := mirrors.granted sessionId
    refine (acquires rule).seq ?_
    rintro _ _ ⟨rfl, rfl⟩
    refine Prog.Runs.seq (acknowledgeLeased_agrees (mirrors.leased sessionId token) valid event now)
      fun outcome t agrees => ?_
    exact agrees.released _

end SqliteContinuation

/-! ## Whole runs -/

namespace ContinuationTwins

open SqliteContinuation

variable {Json Request Response : Type} [JsonCodec Json] {sha256 : String → String}
  {digests : Digests Request Response}

/-- The digests that the call needs can be computed, at any time. -/
def Digestible (digests : Digests Request Response) : ContinuationCall Request Response → Prop
  | .completeTurn turn request response endpoint =>
      ∀ now, (checkpointOf digests turn request response endpoint now).isSome
  | .beginTurn _ | .acknowledge .. | .interruptTurn .. => True

variable (sha256) in
/-- One call: the answers are the same, and so are the sessions. -/
theorem call_agrees {twins : ContinuationTwins Json} (mirrors : Mirrors twins.memory twins.system)
    (fresh : Function.Injective twins.system.hexes)
    (event : StoreReads × ContinuationCall Request Response)
    (known : ∀ turn ∈ event.2.turn?, turn ∈ twins.memory.issued)
    (digested : Digestible digests event.2) :
    Does sha256 (program digests 0 event.2) (twins.atTime event.1) (Agrees twins.memory
      (twins.memory.store.call digests ((twins.atTime event.1).drawsOf event.2) event.2)) := by
  obtain ⟨reads, call⟩ := event
  have later : Mirrors twins.memory (twins.atTime reads) := mirrors.drawn reads 0
  cases call with
  | beginTurn request => exact (beginTurn_agrees later fresh request).seq fun _ _ agrees => agrees
  | completeTurn turn request response endpoint =>
      exact (completeTurn_agrees later (known turn rfl) rfl rfl (digested _)).seq
        fun _ _ agrees => agrees
  | acknowledge sessionId turnId epoch digest =>
      exact (acknowledge_agrees later sessionId turnId epoch digest rfl rfl).seq
        fun _ _ agrees => agrees
  | interruptTurn turn detail =>
      exact (interruptTurn_agrees later (known turn rfl) detail rfl rfl).seq fun _ _ agrees => agrees

/-- The stores agree, and identifiers are not drawn twice. -/
structure Alike (twins : ContinuationTwins Json) : Prop where
  mirrors : Mirrors twins.memory twins.system
  fresh : Function.Injective twins.system.hexes

theorem alike_start (ownerId : String) (leaseTtlSeconds : Seconds) {hexes : Nat → String}
    (fresh : Function.Injective hexes) : Alike (start ownerId leaseTtlSeconds hexes : ContinuationTwins Json) where
  mirrors :=
    { sessions := fun _ => rfl
      versions := fun _ _ found => by cases found
      owned := fun _ _ found => by cases found
      issued := fun _ member => by cases member
      unique := fun _ member => by cases member
      active := fun _ _ _ found => by cases found
      cached := fun _ member => by cases member }
  fresh := fresh

theorem Alike.step {twins : ContinuationTwins Json} (alike : Alike twins)
    (event : StoreReads × ContinuationCall Request Response) (digested : Digestible digests event.2) :
    Alike (twins.step sha256 digests event) := by
  unfold ContinuationTwins.step
  split
  next known =>
    have agrees := call_agrees sha256 alike.mirrors alike.fresh event known digested
    refine ⟨?_, ?_⟩
    · simp only [InMemoryRun.step, if_pos known]
      exact agrees.2
    · have steady : Steady (twins.atTime event.1) ((program digests 0 event.2).exec
          (ContinuationSystem.handle sha256) (twins.atTime event.1)).2 := exec_steady _ _
      rw [steady.hexes]
      exact alike.fresh
  next unknown => exact alike

theorem Alike.run {twins : ContinuationTwins Json} (alike : Alike twins)
    (events : List (StoreReads × ContinuationCall Request Response))
    (digested : ∀ event ∈ events, Digestible digests event.2) :
    Alike (twins.run sha256 digests events) := by
  induction events generalizing twins with
  | nil => exact alike
  | cons event events ih =>
      exact ih (alike.step event (digested event List.mem_cons_self))
        fun later member => digested later (List.mem_cons_of_mem _ member)

/-- After any sequence of calls, the next call is answered by the durable store
    as by the reference store. -/
theorem sqlite_answers_as_reference (ownerId : String) (leaseTtlSeconds : Seconds)
    {hexes : Nat → String} (fresh : Function.Injective hexes)
    (events : List (StoreReads × ContinuationCall Request Response))
    (digested : ∀ event ∈ events, Digestible digests event.2)
    (event : StoreReads × ContinuationCall Request Response) (last : Digestible digests event.2) :
    let twins := (start ownerId leaseTtlSeconds hexes : ContinuationTwins Json).run sha256 digests events
    (∀ turn ∈ event.2.turn?, turn ∈ twins.memory.issued) →
      (twins.answers sha256 digests event).1 = (twins.answers sha256 digests event).2 := by
  intro twins known
  have alike : Alike twins := (alike_start ownerId leaseTtlSeconds fresh).run events digested
  exact (call_agrees sha256 alike.mirrors alike.fresh event known last).1

/-! A turn is completed, and acknowledged long after its lease has expired. -/

private def hexTally (n : Nat) : String := String.ofList (List.replicate n 'a')

private theorem hexTally_injective : Function.Injective hexTally := by
  intro m n same
  simpa [hexTally] using congrArg String.length same

private def tallyDigests : Digests Unit Unit where
  request _ := some (hexTally 64)
  response _ _ := some (hexTally 64)
  checkpoint _ := some (hexTally 64)

private def firstTurn : ContinuationTurn where
  sessionId := newSessionId (hexTally 0)
  turnId := newTurnId (hexTally 1)
  epoch := 0
  parentCheckpointDigest := none
  clientStateDigest := hexTally 64

private def acknowledgedCalls : List (StoreReads × ContinuationCall Unit Unit) :=
  [(⟨0, 0⟩, .beginTurn { stateDigest := hexTally 64 }),
   (⟨10, 10⟩, .completeTurn firstTurn () () "groq:llama"),
   (⟨900, 900⟩, .acknowledge firstTurn.sessionId firstTurn.turnId 0 (hexTally 64))]

private def secondBegin : StoreReads × ContinuationCall Unit Unit :=
  (⟨901, 901⟩, .beginTurn
    { stateDigest := hexTally 64
      sessionId := some firstTurn.sessionId
      parentCheckpointDigest := some (hexTally 64) })

theorem sqlite_answers_as_reference_sample :
    let twins := (start "acp" 120 hexTally : ContinuationTwins OkObject).run sampleSha256 tallyDigests
      acknowledgedCalls
    (twins.answers sampleSha256 tallyDigests secondBegin).1 =
        .turn { firstTurn with
          turnId := newTurnId (hexTally 4), epoch := 1, parentCheckpointDigest := some (hexTally 64) } ∧
      (twins.answers sampleSha256 tallyDigests secondBegin).1 =
        (twins.answers sampleSha256 tallyDigests secondBegin).2 := by
  have digested : ∀ event ∈ acknowledgedCalls, Digestible tallyDigests event.2 := by
    simp [acknowledgedCalls, Digestible, checkpointOf, tallyDigests]
  exact ⟨by decide +kernel, sqlite_answers_as_reference "acp" 120 hexTally_injective acknowledgedCalls
    digested secondBegin trivial fun _ none => by cases none⟩

end ContinuationTwins

end DuraLLM
