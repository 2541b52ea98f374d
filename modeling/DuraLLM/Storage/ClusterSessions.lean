import DuraLLM.Storage.Sqlite
import Mathlib.Data.List.Nodup

/-! # Sessions shared by a cluster

`ClusterPersistenceStore` keeps a session as a JSON text under one Redis key,
shared by all pods, and a copy of it in the memory of the pod that wrote it.
A save is a read, a comparison and a write, each a step of its own.  Redis is
modelled with everything the key has held, newest first, and the call that
wrote it; only the newest is ever read.
-/

namespace DuraLLM

variable {Payload : Type}

/-- A stored session and the position of the call that wrote it. -/
structure SessionVersion (Payload : Type) where
  writer : Nat
  session : StoredSession Payload
  deriving DecidableEq

structure SessionCluster (Payload : Type) where
  redis : String → List (SessionVersion Payload) := fun _ => []
  /-- `_sessions` of each pod. -/
  cached : Nat → String → Option (StoredSession Payload) := fun _ _ => none

/-- One Redis command, or one access to the memory of a pod. -/
inductive SessionOp (Payload : Type) where
  | redisGet (sessionId : String)
  | redisSet (sessionId : String) (session : StoredSession Payload)
  /-- `set(..., nx=True)` -/
  | redisSetNx (sessionId : String) (session : StoredSession Payload)
  | cacheGet (pod : Nat) (sessionId : String)
  | cacheSet (pod : Nat) (sessionId : String) (session : StoredSession Payload)

def SessionOp.Answer : SessionOp Payload → Type
  | .redisGet _ | .cacheGet _ _ => Option (StoredSession Payload)
  | .redisSet _ _ | .cacheSet _ _ _ => Unit
  | .redisSetNx _ _ => Bool

variable (Payload) in
def sessionSig : Signature where
  Op := SessionOp Payload
  Ans := SessionOp.Answer

namespace SessionCluster

def write (s : SessionCluster Payload) (writer : Nat) (sessionId : String)
    (session : StoredSession Payload) : SessionCluster Payload :=
  { s with redis := Function.update s.redis sessionId (⟨writer, session⟩ :: s.redis sessionId) }

def current (s : SessionCluster Payload) (sessionId : String) : Option (StoredSession Payload) :=
  (s.redis sessionId).head?.map (·.session)

def handle (writer : Nat) : (op : SessionOp Payload) → SessionCluster Payload →
    op.Answer × SessionCluster Payload
  | .redisGet id, s => (s.current id, s)
  | .redisSet id session, s => ((), s.write writer id session)
  | .redisSetNx id session, s =>
      if s.redis id = [] then (true, s.write writer id session) else (false, s)
  | .cacheGet pod id, s => (s.cached pod id, s)
  | .cacheSet pod id session, s =>
      ((), { s with
        cached := Function.update s.cached pod
          (Function.update (s.cached pod) id (some session)) })

end SessionCluster

/-! ## The methods -/

abbrev SessionProg (Payload α : Type) := Prog (sessionSig Payload) α

def SessionProg.ask (op : SessionOp Payload) : SessionProg Payload op.Answer :=
  Prog.call (S := sessionSig Payload) op

open SessionProg (ask)

/-- An absent key falls back to the memory of the pod. -/
def loadSession (pod : Nat) (sessionId : String) :
    SessionProg Payload (Option (StoredSession Payload)) := do
  match ← ask (.redisGet sessionId) with
  | some session => return some session
  | none => ask (.cacheGet pod sessionId)

/-- What `json.loads` makes of a payload that `json.dumps` wrote; `none` where
    `json.dumps` raises. -/
abbrev Wire (Payload : Type) := Payload → Option Payload

structure SessionArguments (Payload : Type) where
  pod : Nat
  /-- `time.time()` -/
  now : Seconds
  sessionId : String
  protocolVersion : String
  payload : Payload

section Methods

variable (wire : Wire Payload) (call : SessionArguments Payload)

def createSession : SessionProg Payload (Option (StoredSession Payload)) := do
  let session : StoredSession Payload :=
    { sessionId := call.sessionId
      protocolVersion := call.protocolVersion
      payload := call.payload
      revision := 1
      createdAt := call.now
      updatedAt := call.now }
  match wire call.payload with
  | none => return none
  | some payload =>
      let created : Bool ← ask (.redisSetNx call.sessionId { session with payload })
      if created then
        match ← ask (.cacheGet call.pod call.sessionId) with
        | some _ => return none
        | none =>
            ask (.cacheSet call.pod call.sessionId session)
            return some session
      else return none

/-- A save from its comparison on; the write does not repeat it. -/
def swapSession (expectedRevision : Nat) (existing : StoredSession Payload) :
    SessionProg Payload (Option (StoredSession Payload)) :=
  if existing.revision ≠ expectedRevision then return none
  else do
    let updated : StoredSession Payload :=
      { sessionId := call.sessionId
        protocolVersion := call.protocolVersion
        payload := call.payload
        revision := expectedRevision + 1
        createdAt := existing.createdAt
        updatedAt := call.now }
    match wire call.payload with
    | none => return none
    | some payload =>
        ask (.redisSet call.sessionId { updated with payload })
        ask (.cacheSet call.pod call.sessionId updated)
        return some updated

def saveSession (expectedRevision : Nat) :
    SessionProg Payload (Option (StoredSession Payload)) := do
  match ← loadSession call.pod call.sessionId with
  | none => return none
  | some existing => swapSession wire call expectedRevision existing

end Methods

inductive SessionCall (Payload : Type) where
  | create (call : SessionArguments Payload)
  | save (call : SessionArguments Payload) (expectedRevision : Nat)

/-- Any pods, and any number of calls on each. -/
def sessionMachine (wire : Wire Payload) :
    Machine (sessionSig Payload) (SessionCluster Payload) (SessionCall Payload) Empty
      (Option (StoredSession Payload)) where
  program
    | .create call => createSession wire call
    | .save call expectedRevision => saveSession wire call expectedRevision
  admits _ _ := true
  handle := SessionCluster.handle
  outside event := event.elim
  kills event := event.elim

abbrev SessionPool (Payload : Type) :=
  Pool (sessionSig Payload) (SessionCluster Payload) (SessionCall Payload)
    (Option (StoredSession Payload))

/-! ## What a save relies on -/

/-- Each version has a larger revision than the one before it. -/
def Increasing (versions : List (SessionVersion Payload)) : Prop :=
  versions.Pairwise fun newer older => older.session.revision < newer.session.revision

/-- The call at this position saved the session from this revision. -/
def SessionPool.Saved (pool : SessionPool Payload) (sessionId : String) (expectedRevision : Nat)
    (position : Nat) : Prop :=
  ∃ thread call session, pool.threads[position]? = some thread ∧
    thread.label = .save call expectedRevision ∧ call.sessionId = sessionId ∧
    thread.result = some (some session)

/-- Revisions increase, and no two saves from one revision succeed. -/
structure SessionPool.ComparesAndSwaps (pool : SessionPool Payload) (sessionId : String) :
    Prop where
  increasing : Increasing (pool.state.redis sessionId)
  once : ∀ expectedRevision first second, pool.Saved sessionId expectedRevision first →
    pool.Saved sessionId expectedRevision second → first = second

def SessionCluster.revision (s : SessionCluster Payload) (sessionId : String) : Nat :=
  ((s.current sessionId).map (·.revision)).getD 0

/-- The write of a save replaces the revision before its own. -/
def SessionOp.FindsExpected (sessionId : String) (s : SessionCluster Payload) :
    SessionOp Payload → Prop
  | .redisSet id session => id = sessionId → session.revision = s.revision sessionId + 1
  | _ => True

/-- Every save of the interleaving still finds the revision it expects when it
    writes. -/
def SavesFindExpected (wire : Wire Payload) (sessionId : String) (pool : SessionPool Payload)
    (moves : List (Move (SessionCall Payload) Empty)) : Prop :=
  pool.Along (sessionMachine wire) (fun pool _ op => op.FindsExpected sessionId pool.state) moves

/-! ## The revisions count the versions -/

/-- The revision of a version is its place in the history. -/
def Counted : List (SessionVersion Payload) → Prop
  | [] => True
  | version :: older => version.session.revision = older.length + 1 ∧ Counted older

theorem Counted.increasing {versions : List (SessionVersion Payload)} (counted : Counted versions) :
    Increasing versions := by
  have bounded : ∀ {older : List (SessionVersion Payload)}, Counted older →
      ∀ version ∈ older, version.session.revision ≤ older.length := by
    intro older
    induction older with
    | nil => simp
    | cons newest older ih =>
        intro counted version member
        cases member with
        | head => exact counted.1.le
        | tail _ member => exact (ih counted.2 version member).trans (Nat.le_succ _)
  induction versions with
  | nil => exact .nil
  | cons newest older ih =>
      refine .cons (fun version member => ?_) (ih counted.2)
      have small := bounded counted.2 version member
      have big := counted.1
      omega

theorem Counted.revision {s : SessionCluster Payload} {sessionId : String}
    (counted : Counted (s.redis sessionId)) :
    s.revision sessionId = (s.redis sessionId).length := by
  unfold SessionCluster.revision SessionCluster.current
  cases versions : s.redis sessionId with
  | nil => rfl
  | cons newest older =>
      rw [versions] at counted
      exact counted.1

/-- A write that leaves the revisions increasing continues the count, if it is
    not ahead of it. -/
theorem Counted.write {versions : List (SessionVersion Payload)} {version : SessionVersion Payload}
    (counted : Counted versions) (increasing : Increasing (version :: versions))
    (notAhead : version.session.revision ≤ versions.length + 1)
    (positive : 0 < version.session.revision) : Counted (version :: versions) := by
  refine ⟨?_, counted⟩
  cases versions with
  | nil => exact le_antisymm notAhead positive
  | cons newest older =>
      have newer := (List.pairwise_cons.mp increasing).1 newest List.mem_cons_self
      have place := counted.1
      simp only [List.length_cons] at notAhead ⊢
      omega

theorem Increasing.revisions {versions : List (SessionVersion Payload)}
    (increasing : Increasing versions) :
    (versions.map (·.session.revision)).Pairwise fun newer older => older < newer :=
  List.pairwise_map.mpr increasing

theorem Increasing.of_suffix {older newer : List (SessionVersion Payload)}
    (increasing : Increasing newer) (suffix : older <:+ newer) : Increasing older :=
  List.Pairwise.sublist suffix.sublist increasing

namespace SessionCluster

/-- As long as the revisions of a session increase they count its versions, and
    no pod remembers a revision that Redis has not reached. -/
structure Sound (s : SessionCluster Payload) : Prop where
  counted : ∀ id, Increasing (s.redis id) → Counted (s.redis id)
  reached : ∀ pod id session, s.cached pod id = some session → Increasing (s.redis id) →
    session.revision ≤ (s.redis id).length

/-- No version is ever forgotten. -/
def Grows (s t : SessionCluster Payload) : Prop := ∀ id, s.redis id <:+ t.redis id

theorem Grows.refl (s : SessionCluster Payload) : s.Grows s := fun _ => List.suffix_rfl

theorem Grows.trans {s t u : SessionCluster Payload} (first : s.Grows t) (second : t.Grows u) :
    s.Grows u :=
  fun id => (first id).trans (second id)

/-- Redis has reached this revision of the session, as far as the revisions
    increase. -/
def Reached (s : SessionCluster Payload) (id : String) (revision : Nat) : Prop :=
  Increasing (s.redis id) → revision ≤ (s.redis id).length

theorem Reached.grow {s t : SessionCluster Payload} {id : String} {revision : Nat}
    (reached : s.Reached id revision) (grows : s.Grows t) : t.Reached id revision :=
  fun increasing => (reached (increasing.of_suffix (grows id))).trans (grows id).length_le

theorem Sound.current {s : SessionCluster Payload} (sound : s.Sound) {id : String}
    {session : StoredSession Payload} (read : s.current id = some session) :
    s.Reached id session.revision := by
  intro increasing
  have newest := (sound.counted id increasing).revision
  simp only [SessionCluster.revision, read, Option.map_some, Option.getD_some] at newest
  exact newest.le

@[simp] theorem write_redis (s : SessionCluster Payload) (writer : Nat) (id : String)
    (session : StoredSession Payload) :
    (s.write writer id session).redis id = ⟨writer, session⟩ :: s.redis id := by
  simp [write]

theorem write_redis_ne (s : SessionCluster Payload) (writer : Nat) {id other : String}
    (session : StoredSession Payload) (apart : other ≠ id) :
    (s.write writer id session).redis other = s.redis other := by
  simp [write, apart]

theorem grows_write (s : SessionCluster Payload) (writer : Nat) (id : String)
    (session : StoredSession Payload) : s.Grows (s.write writer id session) := by
  intro other
  by_cases same : other = id
  · subst same
    rw [write_redis]
    exact List.suffix_cons _ _
  · simp only [write_redis_ne s writer session same, List.suffix_rfl]

/-- A write that is not ahead of Redis. -/
theorem Sound.write {s : SessionCluster Payload} (sound : s.Sound) {writer : Nat} {id : String}
    {session : StoredSession Payload} {revision : Nat} (next : session.revision = revision + 1)
    (reached : s.Reached id revision) : (s.write writer id session).Sound := by
  constructor
  · intro other increasing
    by_cases same : other = id
    · subst same
      rw [write_redis] at increasing ⊢
      have before := increasing.of_suffix (List.suffix_cons _ _)
      refine (sound.counted other before).write increasing ?_ ?_
      · exact next.le.trans (Nat.succ_le_succ (reached before))
      · exact next ▸ Nat.succ_pos revision
    · rw [write_redis_ne s writer session same] at increasing ⊢
      exact sound.counted other increasing
  · intro pod other remembered cached
    exact Reached.grow (sound.reached pod other remembered cached)
      (grows_write s writer id session)

theorem Sound.cacheSet {s : SessionCluster Payload} (sound : s.Sound) {pod : Nat} {id : String}
    {session : StoredSession Payload} (reached : s.Reached id session.revision) (writer : Nat) :
    (handle writer (.cacheSet pod id session) s).2.Sound := by
  refine ⟨sound.counted, fun pod' other remembered cached => ?_⟩
  simp only [handle, Function.update_apply] at cached
  split at cached
  · next here =>
    subst here
    by_cases same : other = id
    · subst same
      rw [Function.update_self] at cached
      obtain rfl := Option.some.inj cached
      exact reached
    · rw [Function.update_of_ne same] at cached
      exact sound.reached pod' other remembered cached
  · exact sound.reached pod' other remembered cached

end SessionCluster

/-! ## The calls -/

open SessionCluster (Sound Grows Reached handle)

/-- A successful save has written the next revision itself. -/
def Wrote (index : Nat) : SessionCall Payload → Option (StoredSession Payload) →
    SessionCluster Payload → Prop
  | .save call expectedRevision, some _, s =>
      ∃ version ∈ s.redis call.sessionId, version.writer = index ∧
        version.session.revision = expectedRevision + 1
  | .save _ _, none, _ | .create _, _, _ => True

section Safe

variable {wire : Wire Payload} {index : Nat} {s : SessionCluster Payload} {β : Type}
  {post : β → SessionCluster Payload → Prop}

/-- A step that only reads. -/
theorem safe_read {op : SessionOp Payload} {f : op.Answer → SessionProg Payload β}
    (reads : ∀ t, (handle index op t).2 = t)
    (rest : ∀ t answer, s.Grows t → t.Sound → (handle index op t).1 = answer →
      Prog.Safe (handle index) Sound Grows post (f answer) t) :
    Prog.Safe (handle index) Sound Grows post (ask op >>= f) s := by
  intro t grows sound
  refine ⟨(reads t).symm ▸ sound, (reads t).symm ▸ .refl t, ?_⟩
  rw [reads t]
  exact rest t _ grows sound rfl

theorem safe_redisSet {id : String} {session : StoredSession Payload} {revision : Nat}
    {f : Unit → SessionProg Payload β} (reached : s.Reached id revision)
    (next : session.revision = revision + 1)
    (rest : ∀ t : SessionCluster Payload, t.Sound → ⟨index, session⟩ ∈ t.redis id →
      t.Reached id session.revision → Prog.Safe (handle index) Sound Grows post (f ()) t) :
    Prog.Safe (handle index) Sound Grows post (ask (.redisSet id session) >>= f) s := by
  intro t grows sound
  have written : (t.write index id session).Sound := sound.write next (reached.grow grows)
  refine ⟨written, t.grows_write index id session, rest (t.write index id session) written ?_ ?_⟩
  · rw [SessionCluster.write_redis]
    exact List.mem_cons_self
  · exact written.current (by simp [SessionCluster.current])

/-- A session is created with revision 1, where there is none. -/
theorem safe_redisSetNx {id : String} {session : StoredSession Payload}
    {f : Bool → SessionProg Payload β} (first : session.revision = 1)
    (created : ∀ t : SessionCluster Payload, t.Reached id 1 →
      Prog.Safe (handle index) Sound Grows post (f true) t)
    (taken : ∀ t : SessionCluster Payload, Prog.Safe (handle index) Sound Grows post (f false) t) :
    Prog.Safe (handle index) Sound Grows post (ask (.redisSetNx id session) >>= f) s := by
  intro t _ sound
  have answered : ∀ answer : Bool × SessionCluster Payload,
      answer = (true, t.write index id session) ∨ answer = (false, t) →
        answer.2.Sound ∧ t.Grows answer.2 ∧
          Prog.Safe (handle index) Sound Grows post (f answer.1) answer.2 := by
    rintro _ (rfl | rfl)
    · have unread : t.Reached id 0 := fun _ => Nat.zero_le _
      have written : (t.write index id session).Sound := sound.write first unread
      refine ⟨written, t.grows_write index id session, created _ ?_⟩
      rw [← first]
      exact written.current (by simp [SessionCluster.current])
    · exact ⟨sound, .refl t, taken t⟩
  refine answered (handle index (.redisSetNx id session) t) ?_
  by_cases absent : t.redis id = []
  · exact .inl (if_pos absent)
  · exact .inr (if_neg absent)

theorem safe_cacheSet {pod : Nat} {id : String} {session : StoredSession Payload}
    {f : Unit → SessionProg Payload β} (reached : s.Reached id session.revision)
    (rest : ∀ t : SessionCluster Payload, s.Grows t →
      Prog.Safe (handle index) Sound Grows post (f ()) t) :
    Prog.Safe (handle index) Sound Grows post (ask (.cacheSet pod id session) >>= f) s := by
  intro t grows sound
  have same : t.Grows (handle index (.cacheSet pod id session) t).2 := fun _ => List.suffix_rfl
  exact ⟨sound.cacheSet (reached.grow grows) index, same, rest _ (grows.trans same)⟩

variable (wire index) (call : SessionArguments Payload)

theorem safe_createSession (s : SessionCluster Payload) :
    Prog.Safe (handle index) Sound Grows (Wrote index (.create call))
      (createSession wire call) s := by
  unfold createSession
  dsimp only
  split
  · trivial
  · next payload _ =>
    refine safe_redisSetNx rfl (fun t reached => ?_) fun t => trivial
    refine safe_read (fun _ => rfl) fun u known grows _ _ => ?_
    change Option (StoredSession Payload) at known
    cases known with
    | some _ => trivial
    | none => exact safe_cacheSet (reached.grow grows) fun _ _ => trivial

theorem safe_swapSession (expectedRevision : Nat) {existing : StoredSession Payload}
    (reached : s.Reached call.sessionId existing.revision) :
    Prog.Safe (handle index) Sound Grows (Wrote index (.save call expectedRevision))
      (swapSession wire call expectedRevision existing) s := by
  unfold swapSession
  split
  · trivial
  · next same =>
    obtain rfl := not_not.mp same
    dsimp only
    split
    · trivial
    · next payload _ =>
      refine safe_redisSet reached rfl fun t sound wrote reached => ?_
      refine safe_cacheSet reached fun u grows => ?_
      exact ⟨_, (grows _).subset wrote, rfl, rfl⟩

/-- What is loaded, from Redis or from the memory of the pod, Redis has reached. -/
theorem safe_loadSession (pod : Nat) (id : String) (s : SessionCluster Payload) :
    Prog.Safe (handle index) Sound Grows
      (fun loaded t => ∀ existing, loaded = some existing → t.Reached id existing.revision)
      (loadSession pod id) s := by
  refine safe_read (fun _ => rfl) fun t answer _ sound read => ?_
  change Option (StoredSession Payload) at answer
  cases answer with
  | some session =>
      rintro _ ⟨⟩
      exact sound.current read
  | none =>
      intro u _ sound
      exact ⟨sound, .refl u, fun existing cached => sound.reached pod id existing cached⟩

theorem safe_saveSession (expectedRevision : Nat) (s : SessionCluster Payload) :
    Prog.Safe (handle index) Sound Grows (Wrote index (.save call expectedRevision))
      (saveSession wire call expectedRevision) s := by
  refine (safe_loadSession index call.pod call.sessionId s).seq fun loaded t reached => ?_
  cases loaded with
  | none => trivial
  | some existing => exact safe_swapSession wire index call expectedRevision (reached existing rfl)

end Safe

/-! ## Every interleaving -/

theorem sessionRule (wire : Wire Payload) :
    Pool.Rule (m := sessionMachine wire) Sound Grows Wrote where
  refl := .refl
  trans := .trans
  postStable := by
    intro index label result s t grows wrote
    cases label with
    | create call => trivial
    | save call expectedRevision =>
        cases result with
        | none => trivial
        | some session =>
            obtain ⟨version, member, rest⟩ := wrote
            exact ⟨version, (grows _).subset member, rest⟩
  outside event := event.elim
  starts := by
    intro pool label _ _
    cases label with
    | create call => exact safe_createSession wire _ call pool.state
    | save call expectedRevision => exact safe_saveSession wire _ call expectedRevision pool.state

variable (Payload) in
/-- Nothing stored, nothing running. -/
def SessionPool.start : SessionPool Payload := ⟨{}, []⟩

theorem SessionPool.start_safe (wire : Wire Payload) :
    Pool.Safe (m := sessionMachine wire) Sound Grows Wrote (SessionPool.start Payload) where
  invariant := ⟨fun _ _ => trivial, fun _ _ _ cached => by cases cached⟩
  threads := fun _ _ _ located => by simp [SessionPool.start] at located

section Runs

variable {wire : Wire Payload} {pool : SessionPool Payload} {sessionId : String}

/-- Each version has one writer, so two saves from one revision are one. -/
theorem SessionPool.once_of_increasing
    (safe : Pool.Safe (m := sessionMachine wire) Sound Grows Wrote pool)
    (increasing : Increasing (pool.state.redis sessionId)) {expectedRevision first second : Nat}
    (saved : pool.Saved sessionId expectedRevision first)
    (again : pool.Saved sessionId expectedRevision second) : first = second := by
  have version : ∀ {position}, pool.Saved sessionId expectedRevision position →
      ∃ version ∈ pool.state.redis sessionId, version.writer = position ∧
        version.session.revision = expectedRevision + 1 := by
    rintro position ⟨thread, call, session, located, label, rfl, result⟩
    have wrote := safe.result located result
    rw [label] at wrote
    exact wrote
  obtain ⟨v, member, rfl, revision⟩ := version saved
  obtain ⟨w, member', rfl, revision'⟩ := version again
  have same : v = w := by
    have apart : ((pool.state.redis sessionId).map (·.session.revision)).Nodup :=
      increasing.revisions.imp fun smaller => smaller.ne'
    exact List.inj_on_of_nodup_map apart member member' (revision.trans revision'.symm)
  rw [same]

/-- A write continues the count exactly when it finds the revision it expects. -/
theorem counted_handle_iff {s : SessionCluster Payload} {index : Nat} {op : SessionOp Payload}
    (counted : Counted (s.redis sessionId)) (next : (handle index op s).2.Sound) :
    Counted ((handle index op s).2.redis sessionId) ↔ op.FindsExpected sessionId s := by
  cases op with
  | redisGet | cacheGet | cacheSet => exact iff_of_true counted trivial
  | redisSet id session =>
      change Counted ((s.write index id session).redis sessionId) ↔ _
      by_cases same : id = sessionId
      · subst same
        rw [SessionCluster.write_redis]
        simp only [SessionOp.FindsExpected, counted.revision, Counted, counted, and_true,
          forall_true_left]
      · rw [SessionCluster.write_redis_ne s index session (Ne.symm same)]
        exact iff_of_true counted fun impossible => absurd impossible same
  | redisSetNx id session =>
      -- Only an absent session is created, and one version is always counted.
      have created : ∀ answer : Bool × SessionCluster Payload,
          answer = (true, s.write index id session) ∧ s.redis id = [] ∨ answer = (false, s) →
            answer.2.Sound → Counted (answer.2.redis sessionId) := by
        rintro _ (⟨rfl, absent⟩ | rfl) sound
        · by_cases same : id = sessionId
          · subst same
            refine sound.counted id ?_
            rw [SessionCluster.write_redis, absent]
            exact List.pairwise_singleton _ _
          · rw [SessionCluster.write_redis_ne s index session (Ne.symm same)]
            exact counted
        · exact counted
      refine iff_of_true (created _ ?_ next) trivial
      by_cases absent : s.redis id = []
      · exact .inl ⟨if_pos absent, absent⟩
      · exact .inr (if_neg absent)

theorem SessionPool.counted_step_iff {move : Move (SessionCall Payload) Empty}
    (counted : Counted (pool.state.redis sessionId))
    (next : Sound (pool.step (sessionMachine wire) move).state) :
    Counted ((pool.step (sessionMachine wire) move).state.redis sessionId) ↔
      ∀ performed ∈ pool.performs move,
        SessionOp.FindsExpected sessionId pool.state performed.2 := by
  cases move with
  | spawn label => exact iff_of_true counted fun _ none => by simp [Pool.performs] at none
  | outside event => exact event.elim
  | run index =>
      rcases located : pool.threads[index]? with _ | ⟨label, _ | (result | ⟨op, rest⟩)⟩
      case run.some.some.ask =>
        simp only [Pool.step, Pool.performs, located, Option.mem_def, Option.some.injEq,
          forall_eq'] at next ⊢
        exact counted_handle_iff counted next
      -- Otherwise nothing is performed.
      all_goals
        simp only [Pool.step, Pool.performs, located]
        exact iff_of_true counted (by simp)

theorem Counted.of_suffix {older newer : List (SessionVersion Payload)} (counted : Counted newer)
    (suffix : older <:+ newer) : Counted older := by
  induction newer with
  | nil =>
      obtain rfl := List.suffix_nil.mp suffix
      trivial
  | cons newest rest ih =>
      rcases List.suffix_cons_iff.mp suffix with rfl | suffix
      · exact counted
      · exact ih counted.2 suffix

theorem SessionPool.counted_run_iff
    (safe : Pool.Safe (m := sessionMachine wire) Sound Grows Wrote pool)
    (counted : Counted (pool.state.redis sessionId))
    (moves : List (Move (SessionCall Payload) Empty)) :
    Counted ((pool.run (sessionMachine wire) moves).state.redis sessionId) ↔
      SavesFindExpected wire sessionId pool moves := by
  induction moves generalizing pool with
  | nil => exact iff_of_true counted trivial
  | cons move moves ih =>
      have next := (safe.step (sessionRule wire) move).1
      have step := counted_step_iff counted next.invariant
      constructor
      · intro final
        have early : Counted ((pool.step (sessionMachine wire) move).state.redis sessionId) :=
          Counted.of_suffix final ((next.run (sessionRule wire) moves).2 sessionId)
        exact ⟨step.mp early, (ih next early).mp final⟩
      · rintro ⟨now, later⟩
        exact (ih next (step.mpr now)).mpr later

end Runs

/-- Under every interleaving of calls on any number of pods, the revisions of a
    session increase, and one save succeeds at most from each, exactly when every
    save still finds the revision it expects when it writes. -/
theorem cluster_saves_swap_iff (wire : Wire Payload) (sessionId : String)
    (moves : List (Move (SessionCall Payload) Empty)) :
    SessionPool.ComparesAndSwaps ((SessionPool.start Payload).run (sessionMachine wire) moves)
        sessionId ↔
      SavesFindExpected wire sessionId (SessionPool.start Payload) moves := by
  have safe := (SessionPool.start_safe wire).run (sessionRule wire) moves
  rw [← SessionPool.counted_run_iff (SessionPool.start_safe wire) trivial moves]
  constructor
  · exact fun swaps => safe.1.invariant.counted sessionId swaps.increasing
  · exact fun counted => ⟨counted.increasing, fun _ _ _ saved again =>
      SessionPool.once_of_increasing safe.1 counted.increasing saved again⟩

/-! ### Two saves from one revision -/

section Sample

def sampleArguments (pod : Nat) (payload : String) : SessionArguments String where
  pod
  now := 0
  sessionId := "session-1"
  protocolVersion := "1"
  payload

/-- Pod 0 creates the session; pods 0 and 1 both read revision 1 before either
    writes revision 2. -/
def sampleMoves : List (Move (SessionCall String) Empty) :=
  [.spawn (.create (sampleArguments 0 "new")), .run 0, .run 0, .run 0,
    .spawn (.save (sampleArguments 0 "left") 1), .spawn (.save (sampleArguments 1 "right") 1),
    .run 1, .run 2, .run 1, .run 1, .run 2, .run 2]

/-- Both saves succeed, and the first is overwritten. -/
theorem both_saves_succeed :
    ¬ SessionPool.ComparesAndSwaps
      ((SessionPool.start String).run (sessionMachine some) sampleMoves) "session-1" := by
  intro swaps
  have revisions : (((SessionPool.start String).run (sessionMachine some) sampleMoves).state.redis
      "session-1").map (·.session.revision) = [2, 2, 1] := by
    decide +kernel
  have increasing := swaps.increasing.revisions
  rw [revisions] at increasing
  simp at increasing

end Sample

end DuraLLM
