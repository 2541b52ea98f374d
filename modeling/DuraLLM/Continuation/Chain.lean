import DuraLLM.Continuation.Sqlite

/-! # One chain of checkpoints

Both stores keep the checkpoints of a session in a single chain and let no turn
begin before the checkpoint under it is acknowledged.  In memory a call is one
step and the invariant is `Consistent`, session by session.

In the database a call is many steps, and other instances move between any two
of them.  What a call carries from one of its transactions to the next is a
loaded session: `Knows` says that the row is still that session, or has moved
on to a higher revision, in which case saving will fail.
-/

namespace DuraLLM

/-! ## In memory -/

namespace InMemoryRun

variable {Request Response : Type} {digests : Digests Request Response} {process : InMemoryRun}

structure Sound (process : InMemoryRun) : Prop where
  sessions : ∀ id session, process.store.sessions.get id = some session →
    Consistent session.toSessionPayload session.history
  turns : ∀ turn ∈ process.issued, ∃ session, process.store.sessions.get turn.sessionId = some session ∧
    Continues turn session.history

/-- A session that moved to a consistent state with a longer history. -/
theorem Sound.put (sound : process.Sound) {id : String} {session : Session}
    {payload : SessionPayload} {event : ContinuationEvent} {issued : List ContinuationTurn}
    (consistent : Consistent payload ((historyEvent event).toList ++ session.history))
    (known : process.store.sessions.get id = some session ∨ process.store.sessions.get id = none)
    (turns : ∀ turn ∈ issued, turn ∈ process.issued ∨
      turn.sessionId = id ∧ Continues turn session.history) :
    Sound ⟨process.store.put id session payload event, issued⟩ := by
  have history : ∀ version, Session.history { payload with
      protocolVersion := version, events := session.events ++ [event] } =
      (historyEvent event).toList ++ session.history := by
    intro version
    cases told : historyEvent event <;> simp [Session.history, told]
  constructor
  · intro other found located
    simp only [InMemoryContinuationStore.put, Dict.get_set] at located
    split at located
    · obtain rfl := Option.some.inj located
      rw [history]
      exact consistent
    · exact sound.sessions other found located
  · intro turn member
    simp only [InMemoryContinuationStore.put, Dict.get_set]
    rcases turns turn member with old | ⟨rfl, continues⟩
    · obtain ⟨found, located, continues⟩ := sound.turns turn old
      split
      · next same =>
        subst same
        refine ⟨_, rfl, ?_⟩
        rw [history]
        rcases known with there | absent
        · obtain rfl := Option.some.inj (there.symm.trans located)
          exact continues.mono _
        · rw [absent] at located
          cases located
      · exact ⟨found, located, continues⟩
    · refine ⟨_, if_pos rfl, ?_⟩
      rw [history]
      exact continues.mono _

theorem Sound.admission (sound : process.Sound) (draws : Draws) (request : ContinuationRequest)
    (id : String) {session : Session}
    (consistent : Consistent session.toSessionPayload session.history)
    (known : process.store.sessions.get id = some session ∨ process.store.sessions.get id = none) :
    let answer := process.store.admitTurn draws request id session
    Sound ⟨answer.2, match answer.1 with
      | .turn turn => turn :: process.issued
      | _ => process.issued⟩ := by
  simp only [InMemoryContinuationStore.admitTurn]
  split
  · exact sound
  · split
    · exact sound
    · next admitted =>
      refine sound.put ?_ known ?_
      · exact consistent.begun _ (admission_ok admitted)
      · intro turn member
        rcases List.mem_cons.mp member with rfl | old
        · exact .inr ⟨rfl, _, consistent.past, rfl⟩
        · exact .inl old

theorem activeSession_some {store : InMemoryContinuationStore} {turn : ContinuationTurn}
    {session : Session} (found : store.activeSession turn = some session) :
    store.sessions.get turn.sessionId = some session ∧ session.toSessionPayload.IsActive turn := by
  simp only [InMemoryContinuationStore.activeSession, Option.filter_eq_some_iff,
    decide_eq_true_eq] at found
  exact found

/-- The step lemma. -/
theorem Sound.step (sound : process.Sound) (event : Draws × ContinuationCall Request Response) :
    (process.step digests event).Sound := by
  obtain ⟨draws, call⟩ := event
  simp only [InMemoryRun.step]
  split
  · next allowed =>
    cases call with
    | beginTurn request =>
        simp only [InMemoryContinuationStore.call, InMemoryContinuationStore.beginTurn]
        split
        · exact sound
        · split
          · next absent =>
            split
            · exact sound
            · exact sound.admission draws request _ Consistent.start (.inr absent)
          · next session located =>
            split
            · exact sound
            · exact sound.admission draws request _ (sound.sessions _ _ located) (.inl located)
    | completeTurn turn request response endpoint =>
        simp only [InMemoryContinuationStore.call, InMemoryContinuationStore.completeTurn]
        split
        · exact sound
        · next session found =>
          obtain ⟨located, active⟩ := activeSession_some found
          split
          · exact sound
          · next checkpoint made =>
            obtain ⟨_, epoch, parent⟩ := checkpointOf_some made
            obtain ⟨there, known, continues⟩ := sound.turns turn (allowed turn rfl)
            obtain rfl := Option.some.inj (located.symm.trans known)
            refine sound.put ?_ (.inl located) fun _ old => .inl old
            exact (sound.sessions _ _ located).completed continues active epoch parent
    | acknowledge id turnId epoch digest =>
        simp only [InMemoryContinuationStore.call, InMemoryContinuationStore.acknowledge]
        split
        · exact sound
        · split
          · exact sound
          · next session located =>
            split
            · exact sound
            · next checkpoint accepted =>
              refine sound.put ?_ (.inl located) fun _ old => .inl old
              exact (sound.sessions _ _ located).acknowledge (acknowledgement_ok accepted).1
    | interruptTurn turn detail =>
        simp only [InMemoryContinuationStore.call, InMemoryContinuationStore.interruptTurn]
        split
        · exact sound
        · next session found =>
          have located := (activeSession_some found).1
          refine sound.put ?_ (.inl located) fun _ old => .inl old
          exact (sound.sessions _ _ located).interrupted
  · exact sound

theorem Sound.run (sound : process.Sound) (events : List (Draws × ContinuationCall Request Response)) :
    (process.run digests events).Sound := by
  induction events generalizing process with
  | nil => exact sound
  | cons event events ih => exact ih (sound.step event)

end InMemoryRun

/-! ## In the database -/

/-- What a change of the stored session shows, the newest event first. -/
def observeSession (before after : SessionPayload) : List SessionEvent :=
  (match after.activeTurnId, after.activeEpoch with
    | some turnId, some epoch =>
        if before.activeTurnId = some turnId then [] else [.started turnId epoch]
    | _, _ => []) ++
  (match after.latestCheckpoint with
    | none => []
    | some checkpoint =>
        if after.latestCheckpointAcknowledged ∧ ¬before.latestCheckpointAcknowledged then
          [.acknowledged checkpoint.epoch]
        else []) ++
  match after.latestCheckpoint with
    | none => []
    | some checkpoint =>
        if before.latestCheckpoint = some checkpoint then [] else [.committed checkpoint]

@[simp] theorem observeSession_same (payload : SessionPayload) :
    observeSession payload payload = [] := by
  unfold observeSession
  cases payload.activeTurnId <;> cases payload.activeEpoch <;>
    cases payload.latestCheckpoint <;> simp

theorem observeSession_interrupted (payload : SessionPayload) :
    observeSession payload payload.interrupted = [] := by
  simp only [observeSession, SessionPayload.interrupted]
  cases payload.latestCheckpoint <;> simp

theorem observeSession_begun {payload : SessionPayload} {turnId : String}
    (fresh : payload.activeTurnId ≠ some turnId) :
    observeSession payload (payload.begun turnId) = [.started turnId payload.nextEpoch] := by
  simp only [observeSession, SessionPayload.begun, fresh]
  cases payload.latestCheckpoint <;> simp

theorem observeSession_acknowledged {payload : SessionPayload} {checkpoint : Checkpoint}
    (latest : payload.latestCheckpoint = some checkpoint)
    (pending : payload.latestCheckpointAcknowledged = false) :
    observeSession payload payload.acknowledged = [.acknowledged checkpoint.epoch] := by
  simp only [observeSession, SessionPayload.acknowledged, latest, pending]
  cases payload.activeTurnId <;> cases payload.activeEpoch <;> simp

theorem observeSession_completed {payload : SessionPayload} {checkpoint : Checkpoint}
    (fresh : payload.latestCheckpoint ≠ some checkpoint) :
    observeSession payload (payload.completed checkpoint) = [.committed checkpoint] := by
  simp [observeSession, SessionPayload.completed, fresh]

/-- The system beside the history of one session. -/
structure Traced (Json : Type) [JsonCodec Json] where
  system : ContinuationSystem Json
  history : List SessionEvent := []

section Durable

variable {Json : Type} [JsonCodec Json] (sha256 : String → String) (sessionId : String)

def Database.payloadOf (db : Database Json SessionPayload) : SessionPayload :=
  ((db.sessions.get sessionId).map (·.payload)).getD {}

variable {sessionId} in
theorem payloadOf_congr {db db' : Database Json SessionPayload}
    (same : db.sessions.get sessionId = db'.sessions.get sessionId) :
    db.payloadOf sessionId = db'.payloadOf sessionId := by
  simp only [Database.payloadOf, same]

namespace Traced

def handle : Prog.Handler (continuationSignature Json) (Traced Json) :=
  fun op s =>
    let answer := ContinuationSystem.handle sha256 op s.system
    (answer.1,
      { system := answer.2
        history := observeSession (s.system.db.payloadOf sessionId)
          (answer.2.db.payloadOf sessionId) ++ s.history })

def Sound (s : Traced Json) : Prop := Consistent (s.system.db.payloadOf sessionId) s.history

/-- What no operation takes back: the history, and the revision of the row. -/
structure Grows (s t : Traced Json) : Prop where
  history : ∃ events, t.history = events ++ s.history
  row : ∀ row, s.system.db.sessions.get sessionId = some row →
    ∃ row', t.system.db.sessions.get sessionId = some row' ∧
      (row' = row ∨ row.revision < row'.revision)

/-- A loaded session is the row, or the row has moved on. -/
structure Knows (session : StoredSession SessionPayload) (s : Traced Json) : Prop where
  past : Past s.history session.payload.nextEpoch session.payload.latestCheckpoint
  row : ∃ row, s.system.db.sessions.get sessionId = some row ∧
    (row = session.toSessionRow ∨ session.revision < row.revision)

variable {sha256 sessionId} {s t u : Traced Json}

theorem Grows.refl (s : Traced Json) : Grows sessionId s s :=
  ⟨⟨[], rfl⟩, fun row located => ⟨row, located, .inl rfl⟩⟩

theorem Grows.trans (first : Grows sessionId s t) (second : Grows sessionId t u) :
    Grows sessionId s u := by
  obtain ⟨events, earlier⟩ := first.history
  obtain ⟨more, later⟩ := second.history
  refine ⟨⟨more ++ events, by rw [later, earlier, List.append_assoc]⟩, ?_⟩
  intro row located
  obtain ⟨row', located', moved⟩ := first.row row located
  obtain ⟨row'', located'', moved'⟩ := second.row row' located'
  refine ⟨row'', located'', ?_⟩
  rcases moved with rfl | higher
  · exact moved'
  · rcases moved' with rfl | higher'
    · exact .inr higher
    · exact .inr (higher.trans higher')

theorem Grows.continues {turn : ContinuationTurn} (grows : Grows sessionId s t)
    (continues : Continues turn s.history) : Continues turn t.history := by
  obtain ⟨events, same⟩ := grows.history
  rw [same]
  exact continues.mono events

theorem Knows.mono {session : StoredSession SessionPayload} (grows : Grows sessionId s t)
    (knows : Knows sessionId session s) : Knows sessionId session t := by
  obtain ⟨events, same⟩ := grows.history
  refine ⟨same ▸ knows.past.mono events, ?_⟩
  obtain ⟨row, located, moved⟩ := knows.row
  obtain ⟨row', located', moved'⟩ := grows.row row located
  refine ⟨row', located', ?_⟩
  rcases moved with rfl | higher
  · rcases moved' with rfl | higher'
    · exact .inl rfl
    · exact .inr higher'
  · rcases moved' with rfl | higher'
    · exact .inr higher
    · exact .inr (higher.trans higher')

variable (sha256 sessionId) in
/-- What the calls do to the session by any operation but saving. -/
theorem kept (op : (continuationSignature Json).Op)
    (payload : (ContinuationSystem.handle sha256 op s.system).2.db.payloadOf sessionId =
      s.system.db.payloadOf sessionId)
    (row : ∀ row, s.system.db.sessions.get sessionId = some row →
      (ContinuationSystem.handle sha256 op s.system).2.db.sessions.get sessionId = some row)
    (sound : Sound sessionId s) :
    Sound sessionId (handle sha256 sessionId op s).2 ∧
      Grows sessionId s (handle sha256 sessionId op s).2 := by
  have history : (handle sha256 sessionId op s).2.history = s.history := by
    simp only [handle, payload, observeSession_same, List.nil_append]
  refine ⟨?_, ⟨[], history⟩, fun found located => ⟨found, row found located, .inl rfl⟩⟩
  rw [Sound, history]
  simp only [handle, payload]
  exact sound

/-- The operations that leave the table of sessions alone. -/
def Frames : ContinuationOp Json → Prop
  | .store (.acquireLease ..) | .store (.releaseLease ..) | .store (.loadSession _) => True
  | .store _ => False
  | .config | .getTurnLease _ | .setTurnLease .. | .popTurnLease _ | .hex | .time => True

variable (sha256) in
theorem Frames.sessions {op : ContinuationOp Json} (frames : Frames op) (i : Nat)
    (s : ContinuationSystem Json) :
    (ContinuationSystem.handle sha256 (i, op) s).2.db.sessions = s.db.sessions := by
  cases op with
  | store call =>
      cases call with
      | acquireLease resource owner ttl =>
          simp only [ContinuationSystem.handle, StoreCall.perform, Database.acquireLease]
          split
          · rfl
          · next granted =>
            obtain ⟨_, _, _, rfl⟩ := Database.acquireLeaseLocked_some granted
            rfl
      | releaseLease | loadSession => rfl
      | _ => exact frames.elim
  | _ => rfl

variable (sha256 sessionId) in
/-- From `s` on, the program keeps the chain and ends as `post` says. -/
abbrev Ensures {α : Type} (p : Prog (continuationSignature Json) α) (s : Traced Json)
    (post : α → Traced Json → Prop) : Prop :=
  Prog.Safe (handle sha256 sessionId) (Sound sessionId) (Grows sessionId) post p s

theorem frame_ensures (op : ContinuationOp Json) (frames : Frames op) (i : Nat) :
    Ensures sha256 sessionId (SqliteContinuation.ask i op) s fun _ u => Grows sessionId s u := by
  intro t moved sound
  have same := frames.sessions sha256 i t.system
  obtain ⟨kept, along⟩ := kept sha256 sessionId (i, op) (s := t)
    (by simp only [Database.payloadOf, same]) (fun row located => by rw [same, located]) sound
  exact ⟨kept, along, moved.trans along⟩

theorem hex_ensures (i : Nat) :
    Ensures sha256 sessionId
      (SqliteContinuation.ask i .hex : Prog (continuationSignature Json) String) s
      fun _ u => Grows sessionId s u :=
  frame_ensures .hex trivial i

/-- Whoever holds a copy of the row knows the session. -/
theorem Sound.knows (sound : Sound sessionId s) {session : StoredSession SessionPayload}
    (located : s.system.db.sessions.get sessionId = some session.toSessionRow) :
    Knows sessionId session s := by
  refine ⟨?_, session.toSessionRow, located, .inl rfl⟩
  have past := sound.past
  simpa only [Database.payloadOf, located, Option.map_some, Option.getD_some] using past

theorem load_ensures (i : Nat) (id : String) :
    Ensures sha256 sessionId (SqliteContinuation.ask i (.store (.loadSession id))) s
      fun answer u => Grows sessionId s u ∧ ∀ session, answer = some session →
        session.sessionId = id ∧ (id = sessionId → Knows sessionId session u) := by
  intro t moved sound
  obtain ⟨kept, along⟩ := kept sha256 sessionId (i, .store (.loadSession id)) (s := t)
    rfl (fun _ located => located) sound
  refine ⟨kept, along, moved.trans along, ?_⟩
  intro session loaded
  have found : t.system.db.loadSession id = some session := loaded
  simp only [Database.loadSession, Option.map_eq_some_iff] at found
  obtain ⟨row, located, rfl⟩ := found
  refine ⟨rfl, ?_⟩
  rintro rfl
  exact kept.knows located

theorem create_ensures (i : Nat) (id version : String) :
    Ensures sha256 sessionId (SqliteContinuation.ask i (.store (.createSession id version {}))) s
      fun answer u => Grows sessionId s u ∧ ∀ session, answer = some session →
        session.sessionId = id ∧ (id = sessionId → Knows sessionId session u) := by
  intro t moved sound
  have absent : t.system.db.sessions.contains id = false → id = sessionId →
      t.system.db.sessions.get sessionId = none := by
    rintro free rfl
    simpa only [Dict.contains, Option.isSome_eq_false_iff, Option.isNone_iff_eq_none] using free
  obtain ⟨kept, along⟩ := kept sha256 sessionId
    (i, .store (.createSession id version {})) (s := t)
    (by
      simp only [ContinuationSystem.handle, StoreCall.perform, Database.createSession,
        Database.payloadOf]
      split
      · rfl
      · next free =>
        by_cases same : sessionId = id
        · have none := absent (by simpa using free) same.symm
          subst same
          simp [none]
        · simp [Dict.get_set_ne _ _ same])
    (by
      intro row located
      simp only [ContinuationSystem.handle, StoreCall.perform, Database.createSession]
      split
      · exact located
      · next free =>
        rw [Dict.get_set_ne, located]
        rintro rfl
        simp [Dict.contains, located] at free) sound
  refine ⟨kept, along, moved.trans along, ?_⟩
  intro session created
  have found : (t.system.db.createSession t.system.reads.now id version {}).1 = some session :=
    created
  simp only [Database.createSession] at found
  split at found
  · cases found
  · next free =>
    obtain rfl := Option.some.inj found
    refine ⟨rfl, ?_⟩
    rintro rfl
    refine kept.knows ?_
    simp [handle, ContinuationSystem.handle, StoreCall.perform, Database.createSession, free]

/-- The row is the one that was loaded, so saving moves the chain on. -/
theorem save_moves {session : StoredSession SessionPayload} {payload : SessionPayload}
    {now : Seconds} (sound : Sound sessionId t)
    (here : t.system.db.sessions.get sessionId = some session.toSessionRow)
    (valid : Consistent session.payload t.history →
      Consistent payload (observeSession session.payload payload ++ t.history))
    {u : Traced Json}
    (row : u.system.db.sessions.get sessionId =
      some (session.toSessionRow.saved session.protocolVersion payload now))
    (history : u.history = observeSession (t.system.db.payloadOf sessionId)
      (u.system.db.payloadOf sessionId) ++ t.history) :
    Sound sessionId u ∧ Grows sessionId t u := by
  have before : t.system.db.payloadOf sessionId = session.payload := by
    simp only [Database.payloadOf, here, Option.map_some, Option.getD_some]
  have after : u.system.db.payloadOf sessionId = payload := by
    simp only [Database.payloadOf, row, Option.map_some, Option.getD_some, SessionRow.saved]
  rw [before, after] at history
  refine ⟨?_, ⟨_, history⟩, ?_⟩
  · rw [Sound, after, history]
    exact valid (before ▸ sound)
  · intro found located
    obtain rfl := Option.some.inj (here.symm.trans located)
    exact ⟨_, row, .inr (Nat.lt_succ_self _)⟩

variable (sha256) in
/-- The compare-and-swap: the row moves on by the saved payload if it is still
    the one that was loaded, and nothing happens otherwise. -/
theorem save_step (i : Nat) {session : StoredSession SessionPayload} {payload : SessionPayload}
    (sound : Sound sessionId t)
    (knows : session.sessionId = sessionId → Knows sessionId session t)
    (valid : session.sessionId = sessionId → Consistent session.payload t.history →
      Consistent payload (observeSession session.payload payload ++ t.history)) :
    let answer := handle sha256 sessionId (i, .store (.saveSession session.sessionId
      session.protocolVersion payload session.revision)) t
    Sound sessionId answer.2 ∧ Grows sessionId t answer.2 ∧ ∀ saved, answer.1 = some saved →
      saved.sessionId = session.sessionId ∧ saved.payload = payload ∧
        (session.sessionId = sessionId → Knows sessionId saved answer.2) := by
  intro answer
  by_cases fits : ∃ row, t.system.db.sessions.get session.sessionId = some row ∧
      row.revision = session.revision
  · obtain ⟨row, located, revision⟩ := fits
    have stored : answer.2.system.db.sessions = t.system.db.sessions.set session.sessionId
        (row.saved session.protocolVersion payload t.system.reads.now) :=
      congrArg (·.2.sessions) (Database.saveSession_fits located revision)
    have returned : answer.1 = some { row.saved session.protocolVersion payload
        t.system.reads.now with sessionId := session.sessionId } :=
      congrArg Prod.fst (Database.saveSession_fits located revision)
    by_cases here : session.sessionId = sessionId
    · have same : row = session.toSessionRow := by
        obtain ⟨found, there, moved⟩ := (knows here).row
        obtain rfl := Option.some.inj (located.symm.trans (here ▸ there))
        exact moved.resolve_right (by omega)
      subst same
      obtain ⟨sound', grows⟩ := save_moves (u := answer.2) sound (here ▸ located) (valid here)
        (by rw [stored, here, Dict.get_set_self]) rfl
      refine ⟨sound', grows, ?_⟩
      intro saved same
      obtain rfl := Option.some.inj (returned.symm.trans same)
      refine ⟨rfl, rfl, fun _ => sound'.knows ?_⟩
      rw [stored, here, Dict.get_set_self]
    · have unmoved : answer.2.system.db.sessions.get sessionId =
          t.system.db.sessions.get sessionId := by
        rw [stored, Dict.get_set_ne _ _ (Ne.symm here)]
      obtain ⟨kept, along⟩ := kept sha256 sessionId
        (i, .store (.saveSession session.sessionId session.protocolVersion payload
          session.revision)) (s := t)
        (payloadOf_congr unmoved)
        (fun row located => unmoved.trans located) sound
      refine ⟨kept, along, ?_⟩
      intro saved same
      obtain rfl := Option.some.inj (returned.symm.trans same)
      exact ⟨rfl, rfl, fun same => absurd same here⟩
  · have stale : ∀ row, t.system.db.sessions.get session.sessionId = some row →
        row.revision ≠ session.revision := fun row located same => fits ⟨row, located, same⟩
    have stored : answer.2.system.db = t.system.db :=
      congrArg Prod.snd (Database.saveSession_stale stale)
    have returned : answer.1 = none := congrArg Prod.fst (Database.saveSession_stale stale)
    obtain ⟨kept, along⟩ := kept sha256 sessionId
      (i, .store (.saveSession session.sessionId session.protocolVersion payload
        session.revision)) (s := t)
      (congrArg (Database.payloadOf sessionId) stored)
      (fun row located => (congrArg (·.sessions.get sessionId) stored).trans located) sound
    refine ⟨kept, along, ?_⟩
    intro saved same
    rw [returned] at same
    cases same

/-- Saving a known session. -/
theorem save_ensures (i : Nat) {session : StoredSession SessionPayload} {payload : SessionPayload}
    (knows : session.sessionId = sessionId → Knows sessionId session s)
    (valid : session.sessionId = sessionId → ∀ t : Traced Json, Grows sessionId s t →
      Consistent session.payload t.history →
      Consistent payload (observeSession session.payload payload ++ t.history)) :
    Ensures sha256 sessionId (SqliteContinuation.save i session payload) s
      fun answer u => Grows sessionId s u ∧ ∀ saved, answer = .ok saved →
        saved.sessionId = session.sessionId ∧ saved.payload = payload ∧
          (session.sessionId = sessionId → Knows sessionId saved u) := by
  intro t moved sound
  obtain ⟨kept, along, known⟩ := save_step sha256 i sound
    (fun here => (knows here).mono moved) (fun here => valid here t moved)
  refine ⟨kept, along, ?_⟩
  revert known
  generalize handle sha256 sessionId (i, .store (.saveSession session.sessionId
    session.protocolVersion payload session.revision)) t = answer at along
  obtain ⟨answer, u⟩ := answer
  intro known
  cases answer with
  | none => exact ⟨moved.trans along, raised_ne⟩
  | some saved =>
      refine ⟨moved.trans along, ?_⟩
      intro same returned
      obtain rfl := Except.ok.inj returned
      exact known saved rfl

/-! ### The calls -/

open SqliteContinuation

/-- What the leases and the events of a call do to its result: nothing. -/
theorem acquire_ensures (i : Nat) (id : String) :
    Ensures sha256 sessionId (acquireSession i id) s fun _ u => Grows sessionId s u := by
  refine (frame_ensures .config trivial i).seq fun config t first => ?_
  refine (frame_ensures (.store (.acquireLease ..)) trivial i).seq fun lease u second => ?_
  cases lease <;> exact first.trans second

theorem release_ensures (i : Nat) (lease : Lease) :
    Ensures sha256 sessionId (releaseSession i lease) s fun _ u => Grows sessionId s u := by
  refine (frame_ensures .config trivial i).seq fun config t first => ?_
  refine (frame_ensures (.store (.releaseLease ..)) trivial i).seq fun _ u second => ?_
  exact first.trans second

theorem event_ensures (i : Nat) (eventType : ContinuationEventType) (turn : ContinuationTurn)
    (checkpoint : Option Checkpoint) (ackRequired : Bool) (detail : Option String) :
    Ensures sha256 sessionId (event i eventType turn checkpoint ackRequired detail) s
      fun _ u => Grows sessionId s u := by
  refine (hex_ensures i).seq fun hex t first => ?_
  refine (frame_ensures .time trivial i).seq fun now u second => ?_
  exact first.trans second

theorem loadOrCreate_ensures (i : Nat) (request : ContinuationRequest) (id : String) :
    Ensures sha256 sessionId (loadOrCreate i request id) s
      fun answer u => Grows sessionId s u ∧ ∀ session, answer = .ok session →
        session.sessionId = id ∧ (id = sessionId → Knows sessionId session u) := by
  refine (load_ensures i id).seq fun loaded t first => ?_
  cases loaded with
  | some session =>
      refine ⟨first.1, ?_⟩
      intro found returned
      obtain rfl := Except.ok.inj returned
      exact first.2 session rfl
  | none =>
      simp only
      split
      · exact ⟨first.1, raised_ne⟩
      · refine (create_ensures i id request.protocolVersion).seq fun created u second => ?_
        cases created with
        | some session =>
            refine ⟨first.1.trans second.1, ?_⟩
            intro found returned
            obtain rfl := Except.ok.inj returned
            exact second.2 session rfl
        | none =>
            refine (load_ensures i id).seq fun again v third => ?_
            have grows := first.1.trans (second.1.trans third.1)
            cases again with
            | none => exact ⟨grows, raised_ne⟩
            | some session =>
                refine ⟨grows, ?_⟩
                intro found returned
                obtain rfl := Except.ok.inj returned
                exact third.2 session rfl

/-- What is discarded is not in the history, so the chain does not move. -/
theorem interrupted_valid {payload : SessionPayload} {history : List SessionEvent}
    (consistent : Consistent payload history) :
    Consistent payload.interrupted (observeSession payload payload.interrupted ++ history) := by
  rw [observeSession_interrupted]
  exact consistent.interrupted

theorem discardStale_ensures (i : Nat) {session : StoredSession SessionPayload}
    (knows : session.sessionId = sessionId → Knows sessionId session s) :
    Ensures sha256 sessionId (discardStale i session) s
      fun answer u => Grows sessionId s u ∧ ∀ left, answer = .ok left →
        left.sessionId = session.sessionId ∧ truthy left.payload.activeTurnId = false ∧
          (session.sessionId = sessionId → Knows sessionId left u) := by
  have unchanged : truthy session.payload.activeTurnId = false → ∀ left,
      (Except.ok session : Except (ContinuationError × Bool) _) = .ok left →
      left.sessionId = session.sessionId ∧ truthy left.payload.activeTurnId = false ∧
        (session.sessionId = sessionId → Knows sessionId left s) := by
    intro idle left returned
    obtain rfl := Except.ok.inj returned
    exact ⟨rfl, idle, knows⟩
  unfold discardStale
  split
  · next idle => exact ⟨Grows.refl s, unchanged (by simp [idle, truthy])⟩
  · next turnId active =>
    split
    · next empty => exact ⟨Grows.refl s, unchanged (by simp [active, empty, truthy])⟩
    · refine (frame_ensures (.getTurnLease turnId) trivial i).seq fun live t first => ?_
      cases live with
      | some lease => exact ⟨first, raised_ne⟩
      | none =>
          refine (save_ensures i (fun here => (knows here).mono first)
            (fun _ _ _ consistent => interrupted_valid consistent)).seq fun saved u second => ?_
          cases saved with
          | error e => exact ⟨first.trans second.1, raised_ne⟩
          | ok left =>
              obtain ⟨id, payload, known⟩ := second.2 left rfl
              refine ⟨first.trans second.1, ?_⟩
              intro found returned
              obtain rfl := Except.ok.inj returned
              exact ⟨id, by rw [payload]; rfl, known⟩

variable (sessionId) in
/-- The turn a call works on or returns belongs to this session's past. -/
def Issued (turn : ContinuationTurn) (s : Traced Json) : Prop :=
  turn.sessionId = sessionId → Continues turn s.history

theorem Issued.mono {turn : ContinuationTurn} (grows : Grows sessionId s t)
    (issued : Issued sessionId turn s) : Issued sessionId turn t :=
  fun here => grows.continues (issued here)

theorem admitTurn_ensures (i : Nat) (request : ContinuationRequest) {id : String} (lease : Lease)
    {session : StoredSession SessionPayload} (named : session.sessionId = id)
    (idle : truthy session.payload.activeTurnId = false)
    (knows : session.sessionId = sessionId → Knows sessionId session s) :
    Ensures sha256 sessionId (admitTurn i request id lease session) s
      fun answer u => Grows sessionId s u ∧ ∀ turn, answer.1 = .ok turn →
        Issued sessionId turn u := by
  unfold admitTurn
  split
  · exact ⟨Grows.refl s, raised_ne⟩
  · next admitted =>
    refine (hex_ensures i).seq fun hex t first => ?_
    refine (save_ensures i (fun here => (knows here).mono first)
      (fun _ u _ consistent => ?_)).seq fun saved u second => ?_
    · change Consistent (session.payload.begun (newTurnId hex)) (observeSession session.payload
        (session.payload.begun (newTurnId hex)) ++ u.history)
      rw [observeSession_begun (newTurnId_ne idle hex)]
      exact consistent.begun _ (admission_ok admitted)
    · cases saved with
      | error e => exact ⟨first.trans second.1, raised_ne⟩
      | ok saved =>
          refine (frame_ensures (.setTurnLease ..) trivial i).seq fun _ v third => ?_
          refine ⟨first.trans (second.1.trans third), ?_⟩
          intro turn returned here
          obtain rfl := Except.ok.inj returned
          have known := (knows (named.trans here)).mono (first.trans (second.1.trans third))
          exact ⟨_, known.past, rfl⟩

theorem beginLeased_ensures (i : Nat) (request : ContinuationRequest) (id : String)
    (lease : Lease) :
    Ensures sha256 sessionId (beginLeased i request id lease) s
      fun answer u => Grows sessionId s u ∧ ∀ turn, answer.1 = .ok turn →
        Issued sessionId turn u := by
  refine (loadOrCreate_ensures i request id).seq fun loaded t first => ?_
  cases loaded with
  | error e => exact ⟨first.1, raised_ne⟩
  | ok session =>
      obtain ⟨named, knows⟩ := first.2 session rfl
      simp only
      split
      · exact ⟨first.1, raised_ne⟩
      · refine (discardStale_ensures i fun here => knows (named ▸ here)).seq fun left u second => ?_
        cases left with
        | error e => exact ⟨first.1.trans second.1, raised_ne⟩
        | ok left =>
            obtain ⟨same, idle, known⟩ := second.2 left rfl
            refine (admitTurn_ensures i request lease (same.trans named) idle
              (fun here => known (same ▸ here))).imp ?_
            intro answer v third
            exact ⟨first.1.trans (second.1.trans third.1), third.2⟩

theorem beginTurn_ensures (i : Nat) (request : ContinuationRequest) :
    Ensures sha256 sessionId (beginTurn i request) s
      fun answer u => ∀ turn, answer = .ok turn → Issued sessionId turn u := by
  unfold beginTurn
  split
  · exact raised_ne
  · have chosen : Ensures sha256 sessionId (chooseSessionId i request) s
        fun _ u => Grows sessionId s u := by
      unfold chooseSessionId
      split
      · exact (hex_ensures i).seq fun _ _ grows => grows
      · split
        · exact (hex_ensures i).seq fun _ _ grows => grows
        · exact Grows.refl s
    refine chosen.seq fun id t _ => ?_
    refine (acquire_ensures i _).seq fun acquired u _ => ?_
    cases acquired with
    | error e => exact raised_ne
    | ok lease =>
        refine (beginLeased_ensures i request _ lease).seq fun answer v done => ?_
        simp only
        split
        · exact done.2
        · refine (release_ensures i lease).seq fun _ w released => ?_
          exact fun turn returned => (done.2 turn returned).mono released

theorem activeSession_ensures (i : Nat) (turn : ContinuationTurn) :
    Ensures sha256 sessionId (activeSession i turn) s
      fun answer u => Grows sessionId s u ∧ ∀ session, answer = .ok session →
        session.sessionId = turn.sessionId ∧ session.payload.IsActive turn ∧
          (session.sessionId = sessionId → Knows sessionId session u) := by
  refine (load_ensures i turn.sessionId).seq fun loaded t first => ?_
  cases loaded with
  | none => exact ⟨first.1, raised_ne⟩
  | some session =>
      obtain ⟨named, knows⟩ := first.2 session rfl
      simp only
      split
      · next active =>
        refine ⟨first.1, ?_⟩
        intro found returned
        obtain rfl := Except.ok.inj returned
        exact ⟨named, active.2, fun here => knows (named ▸ here)⟩
      · exact ⟨first.1, raised_ne⟩

theorem completeLeased_ensures {Request Response : Type} (digests : Digests Request Response)
    (i : Nat) {turn : ContinuationTurn} (request : Request) (response : Response)
    (endpoint : String) (issued : Issued sessionId turn s) :
    Ensures sha256 sessionId (completeLeased digests i turn request response endpoint) s
      fun _ _ => True := by
  refine (activeSession_ensures i turn).seq fun loaded t first => ?_
  cases loaded with
  | error e => trivial
  | ok session =>
      obtain ⟨named, active, knows⟩ := first.2 session rfl
      refine (frame_ensures .time trivial i).seq fun now u second => ?_
      split
      · trivial
      · next checkpoint made =>
        obtain ⟨_, epoch, parent⟩ := checkpointOf_some made
        refine (save_ensures i (fun here => (knows here).mono second)
          (fun here v third consistent => ?_)).seq fun saved v third => ?_
        · have continues := issued.mono (first.1.trans (second.trans third)) (named ▸ here)
          have next : checkpoint.epoch = session.payload.nextEpoch :=
            epoch.trans (consistent.active turn.epoch active.2)
          rw [observeSession_completed (consistent.latest_ne next)]
          exact consistent.completed continues active epoch parent
        · cases saved with
          | error e => trivial
          | ok saved => exact Prog.Safe.seq (event_ensures i _ _ _ _ _) fun _ _ _ => trivial

theorem interruptLeased_ensures (i : Nat) (turn : ContinuationTurn) (detail : String) :
    Ensures sha256 sessionId (interruptLeased i turn detail) s fun _ _ => True := by
  refine (activeSession_ensures i turn).seq fun loaded t first => ?_
  cases loaded with
  | error e => trivial
  | ok session =>
      obtain ⟨_, _, knows⟩ := first.2 session rfl
      refine (save_ensures i knows
        (fun _ _ _ consistent => interrupted_valid consistent)).seq fun saved u second => ?_
      cases saved with
      | error e => trivial
      | ok saved => exact Prog.Safe.seq (event_ensures i _ _ _ _ _) fun _ _ _ => trivial

theorem endTurn_ensures (i : Nat) {turn : ContinuationTurn}
    {body : Prog (continuationSignature Json) (Except ContinuationError ContinuationEvent)}
    (safe : ∀ t, Grows sessionId s t → Ensures sha256 sessionId body t fun _ _ => True) :
    Ensures sha256 sessionId (endTurn i turn body) s fun _ _ => True := by
  refine (frame_ensures (.getTurnLease _) trivial i).seq fun lease t first => ?_
  cases lease with
  | none => trivial
  | some lease =>
      refine (safe t first).seq fun outcome u _ => ?_
      refine (frame_ensures (.popTurnLease _) trivial i).seq fun _ v _ => ?_
      exact (release_ensures i lease).seq fun _ _ _ => trivial

theorem acknowledge_ensures (i : Nat) (id turnId : String) (epoch : Nat) (digest : String) :
    Ensures sha256 sessionId (acknowledge i id turnId epoch digest) s fun _ _ => True := by
  unfold acknowledge
  split
  · trivial
  · refine (acquire_ensures i id).seq fun acquired t _ => ?_
    cases acquired with
    | error e => trivial
    | ok lease =>
        refine Prog.Safe.seq (show Ensures sha256 sessionId _ t fun _ _ => True from ?_)
          fun outcome u _ => (release_ensures i lease).seq fun _ _ _ => trivial
        refine (load_ensures i id).seq fun loaded u first => ?_
        cases loaded with
        | none => trivial
        | some session =>
            obtain ⟨named, knows⟩ := first.2 session rfl
            simp only
            split
            · trivial
            · next checkpoint accepted =>
              obtain ⟨latest, pending⟩ := acknowledgement_ok accepted
              refine (save_ensures i (fun here => knows (named ▸ here))
                (fun _ v _ consistent => ?_)).seq fun saved v second => ?_
              · rw [observeSession_acknowledged latest pending]
                exact consistent.acknowledge latest
              · cases saved with
                | error e => trivial
                | ok saved => exact Prog.Safe.seq (event_ensures i _ _ _ _ _) fun _ _ _ => trivial

variable {Request Response : Type} (digests : Digests Request Response)

variable (sessionId) in
/-- What a call that returned has established. -/
def Established (answer : ContinuationAnswer) (s : Traced Json) : Prop :=
  match answer with
  | .turn turn => Issued sessionId turn s
  | .event _ | .raised _ => True

theorem Established.mono {answer : ContinuationAnswer} (grows : Grows sessionId s t)
    (established : Established sessionId answer s) :
    Established sessionId answer t := by
  cases answer with
  | turn turn => exact Issued.mono grows established
  | event | raised => trivial

theorem program_ensures (i : Nat) (call : ContinuationCall Request Response)
    (issued : ∀ turn, call.turn? = some turn → Issued sessionId turn s) :
    Ensures sha256 sessionId (program digests i call) s
      (Established sessionId) := by
  have silent : ∀ (answer : Except ContinuationError ContinuationEvent) (u : Traced Json), True →
      Ensures sha256 sessionId (pure (answerOf .event answer)) u
        (Established sessionId) := by
    intro answer u _
    cases answer <;> trivial
  cases call with
  | beginTurn request =>
      refine (beginTurn_ensures i request).seq fun answer u returned => ?_
      cases answer with
      | error e => trivial
      | ok turn => exact returned turn rfl
  | completeTurn turn request response endpoint =>
      refine Prog.Safe.seq (endTurn_ensures i fun t grows => ?_) silent
      exact completeLeased_ensures digests i request response endpoint
        ((issued turn rfl).mono grows)
  | acknowledge id turnId epoch digest =>
      exact Prog.Safe.seq (acknowledge_ensures i id turnId epoch digest) silent
  | interruptTurn turn detail =>
      exact Prog.Safe.seq (endTurn_ensures i fun t _ => interruptLeased_ensures i turn detail) silent

end Traced

end Durable

section Machine

variable {Json Request Response : Type} [JsonCodec Json]

/-- A turn is completed or interrupted only after some `begin_turn` returned it;
    the caller may hand it to any instance. -/
def continuationMachine (sha256 : String → String) (digests : Digests Request Response)
    (sessionId : String) :
    Machine (continuationSignature Json) (Traced Json) (Nat × ContinuationCall Request Response)
      ContinuationWorld ContinuationAnswer where
  program label := SqliteContinuation.program digests label.1 label.2
  admits threads label :=
    match label.2.turn? with
    | none => true
    | some turn => threads.any fun thread => thread.result = some (.turn turn)
  handle _ := Traced.handle sha256 sessionId
  outside event s := { s with system := event.apply s.system }
  kills
    | .clock _, _ => false
    | .crash i _ _, label => label.1 = i

variable {sha256 : String → String} {digests : Digests Request Response} {sessionId : String}

theorem continuationRule : Pool.Rule
    (m := (continuationMachine sha256 digests sessionId :
      Machine (continuationSignature Json) _ _ _ _))
    (Traced.Sound sessionId) (Traced.Grows sessionId)
    (fun _ _ => Traced.Established sessionId) where
  refl := Traced.Grows.refl
  trans := Traced.Grows.trans
  postStable := fun _ _ _ _ _ grows established => established.mono grows
  outside := by
    intro event s sound
    cases event with
    | clock reads => exact ⟨sound, ⟨⟨[], rfl⟩, fun row located => ⟨row, located, .inl rfl⟩⟩⟩
    | crash i owner ttl => exact ⟨sound, ⟨⟨[], rfl⟩, fun row located => ⟨row, located, .inl rfl⟩⟩⟩
  starts := by
    intro pool label safe admitted
    refine Traced.program_ensures digests label.1 label.2 ?_
    intro turn worksOn
    simp only [continuationMachine, worksOn, List.any_eq_true, decide_eq_true_eq] at admitted
    obtain ⟨thread, member, result⟩ := admitted
    obtain ⟨index, located⟩ := List.getElem?_of_mem member
    exact safe.result located result

/-- The chain of checkpoints, for one process in memory and for any number of
    instances over one database, under every interleaving of their
    transactions with crashes and moving clocks. -/
theorem checkpoints_single_chain (sha256 : String → String) (digests : Digests Request Response) :
    (∀ (events : List (Draws × ContinuationCall Request Response)) (sessionId : String)
      (session : Session),
      (({} : InMemoryRun).run digests events).store.sessions.get sessionId = some session →
      SingleChain (checkpointsIn session.history).reverse ∧ Ordered session.history) ∧
    ∀ (system : ContinuationSystem Json) (sessionId : String)
      (moves : List (Move (Nat × ContinuationCall Request Response) ContinuationWorld)),
      let pool := (Pool.mk (Traced.mk { system with db := {} : ContinuationSystem Json } []) []).run
        (continuationMachine sha256 digests sessionId) moves
      SingleChain (checkpointsIn pool.state.history).reverse ∧ Ordered pool.state.history := by
  refine ⟨?_, ?_⟩
  · intro events sessionId session located
    have start : ({} : InMemoryRun).Sound := ⟨by simp, by simp⟩
    have consistent := (start.run events).sessions sessionId session located
    exact ⟨consistent.linked.singleChain, consistent.ordered⟩
  · intro system sessionId moves pool
    have start : Pool.Safe (m := continuationMachine sha256 digests sessionId)
        (Traced.Sound sessionId) (Traced.Grows sessionId)
        (fun _ _ => Traced.Established sessionId)
        (Pool.mk (Traced.mk { system with db := {} : ContinuationSystem Json } []) []) :=
      ⟨Consistent.start, by simp⟩
    have sound := (start.run continuationRule moves).1.invariant
    exact ⟨sound.linked.singleChain, sound.ordered⟩

end Machine

end DuraLLM
