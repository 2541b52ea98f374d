import DuraLLM.Continuation.Sqlite

/-! # A call run alone

What one call of the durable continuation store does to the rows of its
session, to the lease of the session and to the memory of its instance, when
nobody moves between its transactions.  A call works within its session:
`Within` says that every other session, every other lease and every cached
lease stays as it was, except under turn ids drawn by the call itself.
-/

namespace DuraLLM

namespace ContinuationSystem

variable {Json : Type} [JsonCodec Json]

/-- The lease that instance `i` is granted on a session, and the system with it. -/
def leaseOf (s : ContinuationSystem Json) (i : Nat) (sessionId : String) (token : Nat) : Lease :=
  .granted (sessionResource sessionId) (s.instances i).ownerId token
    (s.instances i).leaseTtlSeconds s.reads.now

def rowOf (s : ContinuationSystem Json) (i : Nat) (token : Nat) : LeaseRow :=
  .granted (s.instances i).ownerId token (s.instances i).leaseTtlSeconds s.reads.now

def leased (s : ContinuationSystem Json) (i : Nat) (sessionId : String) (token : Nat) :
    ContinuationSystem Json :=
  let leases := s.db.leases.set (sessionResource sessionId) (s.rowOf i token)
  { s with db := { s.db with leases } }

def released (s : ContinuationSystem Json) (i : Nat) (lease : Lease) : ContinuationSystem Json :=
  { s with db := s.db.deleteLease lease.resource (s.instances i).ownerId lease.fencingToken }

end ContinuationSystem

theorem sessionResource_injective {id other : String}
    (same : sessionResource id = sessionResource other) : id = other := by
  simpa [sessionResource] using same

namespace SqliteContinuation

variable {Json : Type} [JsonCodec Json] {sha256 : String → String} {s t u : ContinuationSystem Json}

/-! ## What no call changes -/

structure Steady (s t : ContinuationSystem Json) : Prop where
  owner : ∀ j, (t.instances j).ownerId = (s.instances j).ownerId
  ttl : ∀ j, (t.instances j).leaseTtlSeconds = (s.instances j).leaseTtlSeconds
  reads : t.reads = s.reads
  hexes : t.hexes = s.hexes
  drawn : s.drawn ≤ t.drawn

theorem Steady.refl (s : ContinuationSystem Json) : Steady s s :=
  ⟨fun _ => rfl, fun _ => rfl, rfl, rfl, le_refl _⟩

theorem Steady.trans (first : Steady s t) (second : Steady t u) : Steady s u where
  owner j := (second.owner j).trans (first.owner j)
  ttl j := (second.ttl j).trans (first.ttl j)
  reads := second.reads.trans first.reads
  hexes := second.hexes.trans first.hexes
  drawn := first.drawn.trans second.drawn

theorem updateTurnLeases_steady (s : ContinuationSystem Json) (i : Nat)
    (f : Dict String Lease → Dict String Lease) : Steady s (s.updateTurnLeases i f) := by
  refine ⟨fun j => ?_, fun j => ?_, rfl, rfl, le_refl _⟩
  all_goals
    by_cases same : j = i
    · subst same
      simp [ContinuationSystem.updateTurnLeases, ContinuationSystem.updateInstance]
    · simp [ContinuationSystem.updateTurnLeases, ContinuationSystem.updateInstance, same]

theorem handle_steady (op : (continuationSignature Json).Op) (s : ContinuationSystem Json) :
    Steady s (ContinuationSystem.handle sha256 op s).2 := by
  obtain ⟨i, op⟩ := op
  cases op with
  | store call => exact ⟨fun _ => rfl, fun _ => rfl, rfl, rfl, le_refl _⟩
  | config | getTurnLease | time => exact .refl s
  | setTurnLease id lease => exact updateTurnLeases_steady s i (·.set id lease)
  | popTurnLease id => exact updateTurnLeases_steady s i (·.erase id)
  | hex => exact ⟨fun _ => rfl, fun _ => rfl, rfl, rfl, Nat.le_succ _⟩

theorem exec_steady {α : Type} (p : Prog (continuationSignature Json) α)
    (s : ContinuationSystem Json) :
    Steady s (p.exec (ContinuationSystem.handle sha256) s).2 := by
  induction p generalizing s with
  | ret a => exact .refl s
  | ask op next ih => exact (handle_steady op s).trans (ih _ _)

/-! ## Within one session -/

/-- Only the row of this session may differ. -/
structure Rows (sessionId : String) (s t : ContinuationSystem Json) : Prop extends Steady s t where
  sessions : ∀ id ≠ sessionId, t.db.sessions.get id = s.db.sessions.get id
  leases : t.db.leases = s.db.leases
  instances : t.instances = s.instances

theorem Rows.refl (sessionId : String) (s : ContinuationSystem Json) : Rows sessionId s s :=
  { Steady.refl s with sessions := fun _ _ => rfl, leases := rfl, instances := rfl }

theorem Rows.trans {sessionId : String} (first : Rows sessionId s t) (second : Rows sessionId t u) :
    Rows sessionId s u :=
  { first.toSteady.trans second.toSteady with
    sessions := fun id other => (second.sessions id other).trans (first.sessions id other)
    leases := second.leases.trans first.leases
    instances := second.instances.trans first.instances }

structure Within (sessionId : String) (i : Nat) (s t : ContinuationSystem Json) : Prop
    extends Steady s t where
  sessions : ∀ id ≠ sessionId, t.db.sessions.get id = s.db.sessions.get id
  leases : ∀ resource ≠ sessionResource sessionId,
    t.db.leases.get resource = s.db.leases.get resource
  memory : ∀ j id, (t.instances j).turnLeases.get id = (s.instances j).turnLeases.get id ∨
    j = i ∧ ∃ k, s.drawn ≤ k ∧ k < t.drawn ∧ id = newTurnId (s.hexes k)

theorem Rows.within {sessionId : String} (rows : Rows sessionId s t) (i : Nat) :
    Within sessionId i s t :=
  { rows.toSteady with
    sessions := rows.sessions
    leases := fun _ _ => by rw [rows.leases]
    memory := fun _ _ => .inl (by rw [rows.instances]) }

/-- Calls are put together from parts that each draw their own identifiers. -/
theorem Within.trans {sessionId : String} {i : Nat} (first : Within sessionId i s t)
    (second : Within sessionId i t u) : Within sessionId i s u :=
  { first.toSteady.trans second.toSteady with
    sessions := fun id other => (second.sessions id other).trans (first.sessions id other)
    leases := fun resource other =>
      (second.leases resource other).trans (first.leases resource other)
    memory := by
      intro j id
      rcases second.memory j id with same | ⟨rfl, k, below, above, drawn⟩
      · rcases first.memory j id with same' | ⟨rfl, k, below, above, drawn⟩
        · exact .inl (same.trans same')
        · exact .inr ⟨rfl, k, below, above.trans_le second.drawn, drawn⟩
      · exact .inr ⟨rfl, k, first.drawn.trans below, above, first.hexes ▸ drawn⟩ }

theorem leased_within (i : Nat) (sessionId : String) (token : Nat) :
    Within sessionId i s (s.leased i sessionId token) :=
  { Steady.refl s with
    sessions := fun _ _ => rfl
    leases := fun _ other => Dict.get_set_ne _ _ other
    memory := fun _ _ => .inl rfl }

theorem released_within (i : Nat) {sessionId : String} {lease : Lease}
    (resource : lease.resource = sessionResource sessionId) :
    Within sessionId i s (s.released i lease) := by
  refine { Steady.refl s with
    sessions := fun _ _ => rfl, leases := fun other ne => ?_, memory := fun _ _ => .inl rfl }
  simp only [ContinuationSystem.released, Database.deleteLease, Dict.get_filter, resource, ne,
    false_and, not_false_eq_true, decide_true]
  cases s.db.leases.get other <;> rfl

/-- Drawing an identifier changes nothing else. -/
theorem drawn_rows (sessionId : String) (s : ContinuationSystem Json) :
    Rows sessionId s { s with drawn := s.drawn + 1 } :=
  { Rows.refl sessionId s with drawn := Nat.le_succ _ }

theorem turnLeases_update (s : ContinuationSystem Json) (i : Nat)
    (f : Dict String Lease → Dict String Lease) (j : Nat) :
    ((s.updateTurnLeases i f).instances j).turnLeases =
      if j = i then f (s.instances i).turnLeases else (s.instances j).turnLeases := by
  simp only [ContinuationSystem.updateTurnLeases, ContinuationSystem.updateInstance,
    Function.update_apply]
  split <;> rfl

/-- A call may cache a lease under a turn id it has drawn. -/
theorem Within.remember {sessionId : String} {i : Nat} (within : Within sessionId i s t) {k : Nat}
    (below : s.drawn ≤ k) (above : k < t.drawn) (lease : Lease) :
    Within sessionId i s (t.updateTurnLeases i (·.set (newTurnId (s.hexes k)) lease)) := by
  refine { within.toSteady.trans (updateTurnLeases_steady t i _) with
    sessions := within.sessions, leases := within.leases, memory := fun j id => ?_ }
  rw [turnLeases_update]
  split
  · next same =>
    subst same
    by_cases drawn : id = newTurnId (s.hexes k)
    · exact .inr ⟨rfl, k, below, above, drawn⟩
    · rw [Dict.get_set_ne _ _ drawn]
      exact within.memory j id
  · exact within.memory j id

/-- A turn id drawn before `s` is none of those drawn after it. -/
theorem memory_kept {sessionId : String} {i : Nat} (within : Within sessionId i s t)
    (injective : Function.Injective s.hexes) {k : Nat} (earlier : k < s.drawn) (j : Nat) :
    (t.instances j).turnLeases.get (newTurnId (s.hexes k)) =
      (s.instances j).turnLeases.get (newTurnId (s.hexes k)) := by
  rcases within.memory j (newTurnId (s.hexes k)) with same | ⟨_, k', below, _, drawn⟩
  · exact same
  · have : k = k' := injective (newTurnId_injective drawn)
    omega

variable (sha256) in
/-- Run alone from `s`, the program ends as `post` says. -/
abbrev Does {α : Type} (p : Prog (continuationSignature Json) α) (s : ContinuationSystem Json)
    (post : α → ContinuationSystem Json → Prop) : Prop :=
  p.Runs (ContinuationSystem.handle sha256) s post

theorem getTurnLease_does (i : Nat) (turnId : String) :
    Does sha256 (ask i (.getTurnLease turnId)) s fun answer t =>
      answer = (s.instances i).turnLeases.get turnId ∧ t = s := ⟨rfl, rfl⟩

theorem hex_does (i : Nat) :
    Does sha256 (ask i .hex) s fun answer t =>
      answer = s.hexes s.drawn ∧ t = { s with drawn := s.drawn + 1 } := ⟨rfl, rfl⟩

theorem setTurnLease_does (i : Nat) (turnId : String) (lease : Lease) :
    Does sha256 (ask i (.setTurnLease turnId lease)) s fun _ t =>
      t = s.updateTurnLeases i (·.set turnId lease) := rfl

theorem popTurnLease_does (i : Nat) (turnId : String) :
    Does sha256 (ask i (.popTurnLease turnId)) s fun _ t =>
      t = s.updateTurnLeases i (·.erase turnId) := rfl

/-! ## The leases -/

theorem acquireSession_granted {i : Nat} {sessionId : String} {token : Nat}
    (rule : grantedToken (s.db.leases.get (sessionResource sessionId)) (s.instances i).ownerId
      s.reads.now = some token) :
    (acquireSession i sessionId).exec (ContinuationSystem.handle sha256) s =
      (.ok (s.leaseOf i sessionId token), s.leased i sessionId token) := by
  simp [acquireSession, Prog.exec_bind, ContinuationSystem.handle, StoreCall.perform,
    Database.acquireLease, Database.acquireLeaseLocked, rule, ContinuationSystem.leaseOf,
    ContinuationSystem.leased, ContinuationSystem.rowOf]

theorem acquireSession_refused {i : Nat} {sessionId : String}
    (rule : grantedToken (s.db.leases.get (sessionResource sessionId)) (s.instances i).ownerId
      s.reads.now = none) :
    (acquireSession i sessionId).exec (ContinuationSystem.handle sha256) s =
      (.error turnAlreadyActive, s) := by
  simp [acquireSession, Prog.exec_bind, ContinuationSystem.handle, StoreCall.perform,
    Database.acquireLease, Database.acquireLeaseLocked, rule]

theorem acquireSession_does (i : Nat) (sessionId : String) :
    Does sha256 (acquireSession i sessionId) s fun answer t =>
      (∃ e, answer = .error e ∧ t = s) ∨
      ∃ token, answer = .ok (s.leaseOf i sessionId token) ∧ t = s.leased i sessionId token := by
  unfold Does Prog.Runs
  cases rule : grantedToken (s.db.leases.get (sessionResource sessionId)) (s.instances i).ownerId
      s.reads.now with
  | none =>
      rw [acquireSession_refused rule]
      exact .inl ⟨_, rfl, rfl⟩
  | some token =>
      rw [acquireSession_granted rule]
      exact .inr ⟨token, rfl, rfl⟩

theorem releaseSession_does (i : Nat) (lease : Lease) :
    Does sha256 (releaseSession i lease) s fun _ t => t = s.released i lease := rfl

/-! ## The session row -/

/-- The row in the database is the session in hand. -/
def Current (session : StoredSession SessionPayload) (s : ContinuationSystem Json) : Prop :=
  s.db.sessions.get session.sessionId = some session.toSessionRow

theorem loadOrCreate_found (i : Nat) (request : ContinuationRequest) {sessionId : String}
    {row : SessionRow SessionPayload} (located : s.db.sessions.get sessionId = some row) :
    (loadOrCreate i request sessionId).exec (ContinuationSystem.handle sha256) s =
      (.ok { row with sessionId }, s) := by
  simp [loadOrCreate, Prog.exec_bind, ContinuationSystem.handle, StoreCall.perform,
    Database.loadSession, located]

theorem loadOrCreate_does (i : Nat) (request : ContinuationRequest) (sessionId : String) :
    Does sha256 (loadOrCreate i request sessionId) s fun answer t =>
      Rows sessionId s t ∧ ∀ session, answer = .ok session →
        session.sessionId = sessionId ∧ Current session t := by
  unfold Does Prog.Runs
  cases located : s.db.sessions.get sessionId with
  | some row =>
      rw [loadOrCreate_found i request located]
      refine ⟨.refl _ s, ?_⟩
      intro session returned
      obtain rfl := Except.ok.inj returned
      exact ⟨rfl, located⟩
  | none =>
      by_cases parent : truthy request.parentCheckpointDigest
      · simp [loadOrCreate, Prog.exec_bind, ContinuationSystem.handle, StoreCall.perform,
          Database.loadSession, located, parent, Rows.refl]
      · simp [loadOrCreate, Prog.exec_bind, ContinuationSystem.handle, StoreCall.perform,
          Database.loadSession, located, parent, Database.createSession, Dict.contains, Current]
        exact { Steady.refl s with
          sessions := fun id other => Dict.get_set_ne _ _ other, leases := rfl, instances := rfl }

theorem save_does (i : Nat) {session : StoredSession SessionPayload} (payload : SessionPayload)
    (current : Current session s) :
    Does sha256 (save i session payload) s fun answer t => ∃ saved, answer = .ok saved ∧
      Rows session.sessionId s t ∧ saved.sessionId = session.sessionId ∧
      saved.protocolVersion = session.protocolVersion ∧ saved.payload = payload ∧
      Current saved t := by
  unfold Does Prog.Runs
  have located : s.db.sessions.get session.sessionId = some session.toSessionRow := current
  simp [save, Prog.exec_bind, ContinuationSystem.handle, StoreCall.perform,
    Database.saveSession_fits located, Current, SessionRow.saved]
  exact { Steady.refl s with
    sessions := fun id other => Dict.get_set_ne _ _ other, leases := rfl, instances := rfl }

/-! ## Beginning a turn -/

variable (sha256) in
/-- The active turn is one that this instance is serving. -/
theorem discardStale_live (i : Nat) (session : StoredSession SessionPayload) {turnId : String}
    {lease : Lease} (active : session.payload.activeTurnId = some turnId) (named : turnId ≠ "")
    (cached : (s.instances i).turnLeases.get turnId = some lease) :
    (discardStale i session).exec (ContinuationSystem.handle sha256) s =
      (.error (turnAlreadyActive, true), s) := by
  simp [discardStale, active, named, Prog.exec_bind, ContinuationSystem.handle, cached]

theorem discardStale_does (i : Nat) {session : StoredSession SessionPayload}
    (current : Current session s) :
    Does sha256 (discardStale i session) s fun answer t =>
      Rows session.sessionId s t ∧ ∀ left, answer = .ok left →
        left.sessionId = session.sessionId ∧ left.protocolVersion = session.protocolVersion ∧
          Current left t := by
  have kept : ∀ answer : Except (ContinuationError × Bool) (StoredSession SessionPayload),
      answer = .ok session → Rows session.sessionId s s ∧ ∀ left, answer = .ok left →
        left.sessionId = session.sessionId ∧ left.protocolVersion = session.protocolVersion ∧
          Current left s := by
    rintro answer rfl
    refine ⟨.refl _ s, ?_⟩
    intro left returned
    obtain rfl := Except.ok.inj returned
    exact ⟨rfl, rfl, current⟩
  unfold discardStale
  split
  · exact kept _ rfl
  · next turnId active =>
    split
    · exact kept _ rfl
    · refine (getTurnLease_does i turnId).seq ?_
      rintro cached _ ⟨_, rfl⟩
      cases cached with
      | some lease => exact ⟨.refl _ _, raised_ne⟩
      | none =>
          refine (save_does i session.payload.interrupted current).seq ?_
          rintro answer t ⟨saved, rfl, rows, named, version, _, current'⟩
          refine ⟨rows, ?_⟩
          intro left returned
          obtain rfl := Except.ok.inj returned
          exact ⟨named, version, current'⟩

/-- Instance `i` has begun this turn under this lease. -/
structure Began (i : Nat) (sessionId version : String) (lease : Lease)
    (s t : ContinuationSystem Json) (turn : ContinuationTurn) : Prop where
  named : turn.sessionId = sessionId
  speaks : turn.protocolVersion = version
  fresh : ∃ k, s.drawn ≤ k ∧ k < t.drawn ∧ turn.turnId = newTurnId (s.hexes k)
  cached : (t.instances i).turnLeases.get turn.turnId = some lease
  active : ∃ row, t.db.sessions.get sessionId = some row ∧ row.payload.IsActive turn ∧
    row.protocolVersion = version

theorem admitTurn_does (i : Nat) (request : ContinuationRequest) (lease : Lease)
    {session : StoredSession SessionPayload} (current : Current session s)
    (version : session.protocolVersion = request.protocolVersion) :
    Does sha256 (admitTurn i request session.sessionId lease session) s fun answer t =>
      Within session.sessionId i s t ∧ t.db.leases = s.db.leases ∧
        ∀ turn, answer.1 = .ok turn → answer.2 = true ∧
          Began i session.sessionId request.protocolVersion lease s t turn := by
  unfold admitTurn
  split
  · exact ⟨(Rows.refl _ s).within i, rfl, raised_ne⟩
  · refine (hex_does i).seq ?_
    rintro _ _ ⟨rfl, rfl⟩
    refine (save_does i _ (s := { s with drawn := s.drawn + 1 }) current).seq ?_
    rintro answer t ⟨saved, rfl, rows, named, kept, payload, current'⟩
    refine (setTurnLease_does i _ lease).seq ?_
    rintro _ _ rfl
    have all := (drawn_rows session.sessionId s).trans rows
    have above : s.drawn < t.drawn := rows.drawn
    refine ⟨(all.within i).remember (le_refl _) above lease, rows.leases, ?_⟩
    intro turn returned
    obtain rfl := Except.ok.inj returned
    refine ⟨rfl, rfl, rfl, ⟨s.drawn, le_refl _, above, rfl⟩, ?_, ?_⟩
    · rw [Prog.exec_pure, turnLeases_update, if_pos rfl, Dict.get_set_self]
    · refine ⟨saved.toSessionRow, named ▸ current', ?_, kept.trans version⟩
      rw [payload]
      exact ⟨rfl, rfl⟩

variable (sha256) in
theorem beginLeased_live (i : Nat) (request : ContinuationRequest) {sessionId : String}
    (lease : Lease) {row : SessionRow SessionPayload} {turnId : String} {held : Lease}
    (located : s.db.sessions.get sessionId = some row)
    (version : row.protocolVersion = request.protocolVersion)
    (active : row.payload.activeTurnId = some turnId) (named : turnId ≠ "")
    (cached : (s.instances i).turnLeases.get turnId = some held) :
    (beginLeased i request sessionId lease).exec (ContinuationSystem.handle sha256) s =
      ((.error turnAlreadyActive, true), s) := by
  have live := discardStale_live sha256 (s := s) i { row with sessionId } active named cached
  simp [beginLeased, Prog.exec_bind, loadOrCreate_found i request located, version, live]

theorem beginLeased_does (i : Nat) (request : ContinuationRequest) (sessionId : String)
    (lease : Lease) :
    Does sha256 (beginLeased i request sessionId lease) s fun answer t =>
      Within sessionId i s t ∧ t.db.leases = s.db.leases ∧
        ∀ turn, answer.1 = .ok turn → answer.2 = true ∧
          Began i sessionId request.protocolVersion lease s t turn := by
  refine (loadOrCreate_does i request sessionId).seq ?_
  rintro loaded t ⟨rows, ready⟩
  cases loaded with
  | error e => exact ⟨rows.within i, rows.leases, raised_ne⟩
  | ok session =>
      obtain ⟨named, current⟩ := ready session rfl
      subst named
      simp only
      split
      · exact ⟨rows.within i, rows.leases, raised_ne⟩
      · next version =>
        refine (discardStale_does i current).seq ?_
        rintro left u ⟨rows', ready'⟩
        have all := rows.trans rows'
        cases left with
        | error e => exact ⟨all.within i, all.leases, raised_ne⟩
        | ok left =>
            obtain ⟨same, kept, current'⟩ := ready' left rfl
            rw [← same]
            rw [← same] at all
            refine (admitTurn_does i request lease current'
              (kept.trans (not_not.mp version))).imp ?_
            rintro answer v ⟨within, leases, began⟩
            refine ⟨(all.within i).trans within, leases.trans all.leases, ?_⟩
            intro turn returned
            obtain ⟨retained, begun⟩ := began turn returned
            obtain ⟨k, below, above, drawn⟩ := begun.fresh
            exact ⟨retained, begun.named, begun.speaks,
              ⟨k, all.drawn.trans below, above, all.hexes ▸ drawn⟩, begun.cached, begun.active⟩

theorem chooseSessionId_does (i : Nat) (request : ContinuationRequest) (sessionId : String) :
    Does sha256 (chooseSessionId i request) s fun answer t =>
      answer = sessionIdOf request (s.hexes s.drawn) ∧ Rows sessionId s t ∧ t.db = s.db := by
  unfold chooseSessionId sessionIdOf
  cases request.sessionId with
  | none => exact ⟨rfl, drawn_rows sessionId s, rfl⟩
  | some id =>
      by_cases empty : id = ""
      · simp only [empty, if_true]
        exact ⟨rfl, drawn_rows sessionId s, rfl⟩
      · simp only [empty, if_false]
        exact ⟨rfl, .refl sessionId s, rfl⟩

theorem validateRequest_ok {request : ContinuationRequest} (valid : validateRequest request = .ok ()) :
    request.protocolVersion = acpVersion := by
  by_contra other
  simp [validateRequest, other, throw, throwThe, MonadExceptOf.throw, bind, Except.bind] at valid

/-- The session that a request begins its turn in. -/
abbrev requestedSession (s : ContinuationSystem Json) (request : ContinuationRequest) : String :=
  sessionIdOf request (s.hexes s.drawn)

theorem beginTurn_does (i : Nat) (request : ContinuationRequest) :
    Does sha256 (beginTurn i request) s fun answer t =>
      Within (requestedSession s request) i s t ∧ ∀ turn, answer = .ok turn →
        ∃ token, t.db.leases.get (sessionResource (requestedSession s request)) =
            some (s.rowOf i token) ∧
          Began i (requestedSession s request) acpVersion
            (s.leaseOf i (requestedSession s request) token) s t turn := by
  unfold beginTurn
  split
  · exact ⟨(Rows.refl _ s).within i, raised_ne⟩
  · next valid =>
    refine (chooseSessionId_does i request (requestedSession s request)).seq ?_
    rintro _ t ⟨rfl, chosen, same⟩
    refine (acquireSession_does i _).seq ?_
    rintro acquired u (⟨e, rfl, rfl⟩ | ⟨token, rfl, rfl⟩)
    · exact ⟨chosen.within i, raised_ne⟩
    · refine (beginLeased_does i request _ _).seq ?_
      rintro ⟨outcome, retained⟩ v ⟨within, leases, began⟩
      have all := (chosen.within i).trans ((leased_within i _ token).trans within)
      cases retained with
      | true =>
          refine ⟨all, ?_⟩
          intro turn returned
          obtain ⟨_, begun⟩ := began turn returned
          obtain ⟨k, below, above, drawn⟩ := begun.fresh
          have lease : t.leaseOf i (requestedSession s request) token =
              s.leaseOf i (requestedSession s request) token := by
            simp only [ContinuationSystem.leaseOf, chosen.instances, chosen.reads]
          have row : t.rowOf i token = s.rowOf i token := by
            simp only [ContinuationSystem.rowOf, chosen.instances, chosen.reads]
          have held : v.db.leases.get (sessionResource (requestedSession s request)) =
              some (s.rowOf i token) := by
            rw [leases, ← row]
            exact Dict.get_set_self _ _ _
          refine ⟨token, held, begun.named, ?_, ?_, ?_, ?_⟩
          · exact begun.speaks.trans (validateRequest_ok valid)
          · exact ⟨k, chosen.drawn.trans below, above, chosen.hexes ▸ drawn⟩
          · rw [← lease]
            exact begun.cached
          · rw [← validateRequest_ok valid]
            exact begun.active
      | false =>
          refine (releaseSession_does i _).seq ?_
          rintro _ _ rfl
          refine ⟨all.trans (released_within i rfl), ?_⟩
          intro turn returned
          exact absurd (began turn returned).1 (by simp)

/-- A call that was turned away: it has at most renewed a lease of its own. -/
structure Rejected {α : Type} (i : Nat) (sessionId : String) (answer : Except ContinuationError α)
    (s t : ContinuationSystem Json) : Prop extends Steady s t where
  raised : ∃ e, answer = .error e
  sessions : t.db.sessions = s.db.sessions
  instances : t.instances = s.instances
  leases : t.db.leases = s.db.leases ∨ ∃ token,
    grantedToken (s.db.leases.get (sessionResource sessionId)) (s.instances i).ownerId
      s.reads.now = some token ∧ t.db.leases = (s.leased i sessionId token).db.leases

theorem Rows.rejected {α : Type} {sessionId : String} (rows : Rows sessionId s t)
    (same : t.db = s.db) (i : Nat) (e : ContinuationError) :
    Rejected (α := α) i sessionId (.error e) s t :=
  { rows.toSteady with
    raised := ⟨e, rfl⟩
    sessions := by rw [same]
    instances := rows.instances
    leases := .inl (by rw [same]) }

/-- Another owner holds the session. -/
theorem beginTurn_refused {i : Nat} {request : ContinuationRequest}
    (rule : grantedToken (s.db.leases.get (sessionResource (requestedSession s request)))
      (s.instances i).ownerId s.reads.now = none) :
    Does sha256 (beginTurn i request) s (Rejected i (requestedSession s request) · s ·) := by
  unfold beginTurn
  split
  · exact (Rows.refl _ s).rejected rfl i _
  · refine (chooseSessionId_does i request (requestedSession s request)).seq ?_
    rintro _ t ⟨rfl, chosen, same⟩
    rw [← same, ← chosen.instances, ← chosen.reads] at rule
    unfold Prog.Runs
    rw [Prog.exec_bind, acquireSession_refused rule]
    exact chosen.rejected same i _

/-- The session is serving a turn of this very instance. -/
theorem beginTurn_live {i : Nat} {request : ContinuationRequest} {row : SessionRow SessionPayload}
    {turnId : String} {held : Lease} {token : Nat}
    (rule : grantedToken (s.db.leases.get (sessionResource (requestedSession s request)))
      (s.instances i).ownerId s.reads.now = some token)
    (located : s.db.sessions.get (requestedSession s request) = some row)
    (version : row.protocolVersion = acpVersion)
    (active : row.payload.activeTurnId = some turnId) (named : turnId ≠ "")
    (cached : (s.instances i).turnLeases.get turnId = some held) :
    Does sha256 (beginTurn i request) s (Rejected i (requestedSession s request) · s ·) := by
  unfold beginTurn
  split
  · exact (Rows.refl _ s).rejected rfl i _
  · next valid =>
    refine (chooseSessionId_does i request (requestedSession s request)).seq ?_
    rintro _ t ⟨rfl, chosen, same⟩
    have granted := rule
    rw [← same, ← chosen.instances, ← chosen.reads] at granted
    have live := beginLeased_live sha256 (s := t.leased i (requestedSession s request) token) i
      request (t.leaseOf i (requestedSession s request) token)
      (by simpa only [ContinuationSystem.leased, same] using located)
      (version.trans (validateRequest_ok valid).symm) active named
      (by simpa only [ContinuationSystem.leased, chosen.instances] using cached)
    unfold Prog.Runs
    rw [Prog.exec_bind, acquireSession_granted granted]
    simp only [Prog.exec_bind, live, if_true, Prog.exec_pure]
    exact { chosen.toSteady with
      raised := ⟨_, rfl⟩
      sessions := by simp only [ContinuationSystem.leased, same]
      instances := chosen.instances
      leases := .inr ⟨token, rule, by
        simp only [ContinuationSystem.leased, ContinuationSystem.rowOf, same, chosen.instances,
          chosen.reads]⟩ }

/-! ## Acknowledging -/

theorem acknowledge_refused {i : Nat} {sessionId turnId digest : String} {epoch : Nat}
    (rule : grantedToken (s.db.leases.get (sessionResource sessionId))
      (s.instances i).ownerId s.reads.now = none) :
    Does sha256 (acknowledge i sessionId turnId epoch digest) s
      (Rejected i sessionId · s ·) := by
  unfold acknowledge
  split
  · exact (Rows.refl _ s).rejected rfl i _
  · unfold Does Prog.Runs
    rw [Prog.exec_bind, acquireSession_refused rule]
    exact (Rows.refl _ s).rejected rfl i _

theorem event_does (i : Nat) (eventType : ContinuationEventType) (turn : ContinuationTurn)
    (checkpoint : Option Checkpoint) (ackRequired : Bool) (detail : Option String)
    (sessionId : String) :
    Does sha256 (event i eventType turn checkpoint ackRequired detail) s fun _ t =>
      Rows sessionId s t ∧ t.db = s.db := ⟨drawn_rows sessionId s, rfl⟩

theorem acknowledgeLeased_does (i : Nat) (sessionId turnId : String) (epoch : Nat)
    (digest : String) :
    Does sha256 (acknowledgeLeased i sessionId turnId epoch digest) s fun _ t =>
      Rows sessionId s t := by
  have load : Does sha256 (ask i (.store (.loadSession sessionId))) s fun answer t =>
      t = s ∧ ∀ session, answer = some session → session.sessionId = sessionId ∧
        Current session s := by
    refine ⟨rfl, ?_⟩
    intro session loaded
    obtain ⟨row, located, rfl⟩ := Option.map_eq_some_iff.mp loaded
    exact ⟨rfl, located⟩
  refine load.seq ?_
  rintro loaded _ ⟨rfl, found⟩
  cases loaded with
  | none => exact .refl _ _
  | some session =>
      obtain ⟨rfl, current⟩ := found session rfl
      simp only
      split
      · exact .refl _ _
      · refine (save_does i _ current).seq ?_
        rintro _ t ⟨saved, rfl, rows, _⟩
        refine (event_does i _ _ _ _ _ session.sessionId).seq ?_
        rintro _ u ⟨rows', _⟩
        exact rows.trans rows'

theorem acknowledge_does (i : Nat) (sessionId turnId : String) (epoch : Nat) (digest : String) :
    Does sha256 (acknowledge i sessionId turnId epoch digest) s fun _ t =>
      Within sessionId i s t := by
  unfold acknowledge
  split
  · exact (Rows.refl _ s).within i
  · refine (acquireSession_does i sessionId).seq ?_
    rintro acquired t (⟨e, rfl, rfl⟩ | ⟨token, rfl, rfl⟩)
    · exact (Rows.refl _ _).within i
    · refine (acknowledgeLeased_does i sessionId turnId epoch digest).seq ?_
      rintro outcome t rows
      refine (releaseSession_does i _).seq ?_
      rintro _ _ rfl
      exact ((leased_within i sessionId token).trans (rows.within i)).trans (released_within i rfl)

/-! ## Ending a turn -/

/-- The session is serving this turn. -/
def Serving (turn : ContinuationTurn) (s : ContinuationSystem Json) : Prop :=
  ∃ row, s.db.sessions.get turn.sessionId = some row ∧
    row.protocolVersion = turn.protocolVersion ∧ row.payload.IsActive turn

theorem activeSession_does (i : Nat) (turn : ContinuationTurn) :
    Does sha256 (activeSession i turn) s fun answer t => t = s ∧
      ((∃ session, answer = .ok session ∧ session.sessionId = turn.sessionId ∧
        Current session s ∧ Serving turn s) ∨
        answer = .error turnNoLongerActive ∧ ¬Serving turn s) := by
  unfold Does Prog.Runs
  cases located : s.db.sessions.get turn.sessionId with
  | none =>
      simp [activeSession, Prog.exec_bind, ContinuationSystem.handle, StoreCall.perform,
        Database.loadSession, located, Serving]
  | some row =>
      by_cases active : row.protocolVersion = turn.protocolVersion ∧ row.payload.IsActive turn
      · simp [activeSession, Prog.exec_bind, ContinuationSystem.handle, StoreCall.perform,
          Database.loadSession, located, active, Serving, Current]
      · simp [activeSession, Prog.exec_bind, ContinuationSystem.handle, StoreCall.perform,
          Database.loadSession, located, active, Serving]

/-- The session of the turn is idle. -/
def Idle (turn : ContinuationTurn) (s : ContinuationSystem Json) : Prop :=
  ∃ row, s.db.sessions.get turn.sessionId = some row ∧ row.payload.activeTurnId = none

/-- The body of `complete_turn` or `interrupt_turn` touches the row of a turn
    that is being served, and nothing else. -/
structure Settled (turn : ContinuationTurn) (s t : ContinuationSystem Json) : Prop
    extends Rows turn.sessionId s t where
  quiet : ¬Serving turn s → t.db.sessions = s.db.sessions
  idle : t.db.sessions = s.db.sessions ∨ Idle turn t

theorem Settled.refl (turn : ContinuationTurn) (s : ContinuationSystem Json) : Settled turn s s :=
  ⟨.refl _ s, fun _ => rfl, .inl rfl⟩

/-- A turn that is being served ends. -/
theorem Settled.of_saved {turn : ContinuationTurn} (rows : Rows turn.sessionId s t)
    (serving : Serving turn s) {saved : StoredSession SessionPayload}
    (named : saved.sessionId = turn.sessionId) (idle : saved.payload.activeTurnId = none)
    (current : Current saved t) : Settled turn s t :=
  ⟨rows, fun unserved => absurd serving unserved, .inr ⟨saved.toSessionRow, named ▸ current, idle⟩⟩

/-- The event that tells of it is only returned. -/
theorem Settled.told {turn : ContinuationTurn} (settled : Settled turn s t)
    (rows : Rows turn.sessionId t u) (same : u.db = t.db) : Settled turn s u := by
  refine ⟨settled.toRows.trans rows, ?_, ?_⟩
  · rw [same]
    exact settled.quiet
  · unfold Idle
    rw [same]
    exact settled.idle

theorem interruptLeased_does (i : Nat) (turn : ContinuationTurn) (detail : String) :
    Does sha256 (interruptLeased i turn detail) s fun answer t =>
      Settled turn s t ∧ (Serving turn s → ∃ event, answer = .ok event) := by
  refine (activeSession_does i turn).seq ?_
  rintro _ _ ⟨rfl, ⟨session, rfl, named, current, serving⟩ | ⟨rfl, idle⟩⟩
  · refine (save_does i session.payload.interrupted current).seq ?_
    rintro _ t ⟨saved, rfl, rows, same, _, payload, current'⟩
    rw [named] at rows
    have settled := Settled.of_saved rows serving (same.trans named) (by rw [payload]; rfl) current'
    refine (event_does i _ _ _ _ _ turn.sessionId).seq ?_
    rintro event u ⟨rows', db⟩
    exact ⟨settled.told rows' db, fun _ => ⟨event, rfl⟩⟩
  · exact ⟨.refl _ _, fun serving => absurd serving idle⟩

section Complete

variable {Request Response : Type} (digests : Digests Request Response)

theorem completeLeased_does (i : Nat) (turn : ContinuationTurn) (request : Request)
    (response : Response) (endpoint : String) :
    Does sha256 (completeLeased digests i turn request response endpoint) s fun answer t =>
      Settled turn s t ∧ (Serving turn s → answer ≠ .error turnNoLongerActive ∧
        ((checkpointOf digests turn request response endpoint s.reads.now).isSome →
          ∃ event, answer = .ok event)) := by
  refine (activeSession_does i turn).seq ?_
  rintro _ s ⟨rfl, ⟨session, rfl, named, current, serving⟩ | ⟨rfl, idle⟩⟩
  · have time : Does sha256 (ask i .time) s fun answer t => answer = s.reads.now ∧ t = s :=
      ⟨rfl, rfl⟩
    refine time.seq ?_
    rintro _ _ ⟨rfl, rfl⟩
    split
    · next unserializable =>
      refine ⟨.refl _ _, fun _ => ⟨nofun, ?_⟩⟩
      intro made
      simp [unserializable] at made
    · refine (save_does i _ current).seq ?_
      rintro _ t ⟨saved, rfl, rows, same, _, payload, current'⟩
      rw [named] at rows
      have settled := Settled.of_saved rows serving (same.trans named) (by rw [payload]; rfl) current'
      refine (event_does i _ _ _ _ _ turn.sessionId).seq ?_
      rintro event u ⟨rows', db⟩
      exact ⟨settled.told rows' db, fun _ => ⟨nofun, fun _ => ⟨event, rfl⟩⟩⟩
  · exact ⟨.refl _ _, fun serving => absurd serving idle⟩

end Complete

/-- A turn was ended under its cached lease. -/
structure Ended (i : Nat) (turn : ContinuationTurn) (lease : Lease)
    (s t : ContinuationSystem Json) : Prop extends Steady s t where
  sessions : ∀ id, id ≠ turn.sessionId ∨ ¬Serving turn s →
    t.db.sessions.get id = s.db.sessions.get id
  leases : t.db.leases = (s.released i lease).db.leases
  memory : ∀ j id, ¬(j = i ∧ id = turn.turnId) →
    (t.instances j).turnLeases.get id = (s.instances j).turnLeases.get id
  forgotten : (t.instances i).turnLeases.get turn.turnId = none
  idle : t.db.sessions = s.db.sessions ∨ Idle turn t

theorem Settled.ended {turn : ContinuationTurn} (settled : Settled turn s t) (i : Nat)
    (lease : Lease) :
    Ended i turn lease s ((t.updateTurnLeases i (·.erase turn.turnId)).released i lease) := by
  have steady := settled.toSteady.trans (updateTurnLeases_steady t i (·.erase turn.turnId))
  refine { steady with
    sessions := ?_, leases := ?_, memory := ?_, forgotten := ?_, idle := settled.idle }
  · rintro id (other | idle)
    · exact settled.sessions id other
    · exact congrArg (Dict.get · id) (settled.quiet idle)
  · simp only [ContinuationSystem.released, Database.deleteLease, steady.owner]
    rw [← settled.leases]
    rfl
  · intro j id other
    simp only [ContinuationSystem.released, turnLeases_update, ← settled.instances]
    split
    · next same =>
      subst same
      exact Dict.get_erase_ne _ (by simpa using other)
    · rfl
  · simp only [ContinuationSystem.released, turnLeases_update, if_true, Dict.get_erase_self]

theorem endTurn_does (i : Nat) (turn : ContinuationTurn)
    {body : Prog (continuationSignature Json) (Except ContinuationError ContinuationEvent)}
    {post : Except ContinuationError ContinuationEvent → Prop}
    (settles : Does sha256 body s fun answer t => Settled turn s t ∧ post answer) :
    Does sha256 (endTurn i turn body) s fun answer t =>
      ((s.instances i).turnLeases.get turn.turnId = none ∧
        answer = .error turnNoLongerActive ∧ t = s) ∨
      ∃ lease, (s.instances i).turnLeases.get turn.turnId = some lease ∧
        Ended i turn lease s t ∧ post answer := by
  refine (getTurnLease_does i turn.turnId).seq ?_
  rintro cached _ ⟨same, rfl⟩
  cases cached with
  | none => exact .inl ⟨same.symm, rfl, rfl⟩
  | some lease =>
      refine settles.seq ?_
      rintro outcome t ⟨settled, holds⟩
      refine (popTurnLease_does i turn.turnId).seq ?_
      rintro _ _ rfl
      refine (releaseSession_does i lease).seq ?_
      rintro _ _ rfl
      exact .inr ⟨lease, same.symm, settled.ended i lease, holds⟩

end SqliteContinuation

end DuraLLM
