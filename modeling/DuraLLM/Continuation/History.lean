import DuraLLM.Continuation.Models
import Mathlib.Data.List.Infix

/-! # Sessions and their history

`SessionPayload` is the state of one session, the same five fields in both
stores.  Four transitions change it.  The history of a session is what these
transitions have shown to the outside, the newest event first, and
`Consistent` ties the state to its history: the state remembers the length and
the head of the chain of checkpoints, and whether that head is acknowledged.
-/

namespace DuraLLM

structure SessionPayload where
  nextEpoch : Nat := 0
  activeTurnId : Option String := none
  activeEpoch : Option Nat := none
  latestCheckpoint : Option Checkpoint := none
  latestCheckpointAcknowledged : Bool := true
  deriving DecidableEq

namespace SessionPayload

def begun (payload : SessionPayload) (turnId : String) : SessionPayload :=
  { payload with activeTurnId := some turnId, activeEpoch := some payload.nextEpoch }

def interrupted (payload : SessionPayload) : SessionPayload :=
  { payload with activeTurnId := none, activeEpoch := none }

def completed (payload : SessionPayload) (checkpoint : Checkpoint) : SessionPayload :=
  { payload with
    activeTurnId := none
    activeEpoch := none
    nextEpoch := checkpoint.epoch + 1
    latestCheckpoint := some checkpoint
    latestCheckpointAcknowledged := false }

def acknowledged (payload : SessionPayload) : SessionPayload :=
  { payload with latestCheckpointAcknowledged := true }

/-- The turn is the active one. -/
def IsActive (payload : SessionPayload) (turn : ContinuationTurn) : Prop :=
  payload.activeTurnId = some turn.turnId ∧ payload.activeEpoch = some turn.epoch

instance (payload : SessionPayload) (turn : ContinuationTurn) : Decidable (payload.IsActive turn) :=
  inferInstanceAs (Decidable (_ ∧ _))

end SessionPayload

inductive SessionEvent where
  | started (turnId : String) (epoch : Nat)
  | committed (checkpoint : Checkpoint)
  | acknowledged (epoch : Nat)
  deriving DecidableEq

/-- The checkpoints of a history, the newest first. -/
def checkpointsIn : List SessionEvent → List Checkpoint
  | [] => []
  | .committed checkpoint :: older => checkpoint :: checkpointsIn older
  | .started .. :: older | .acknowledged .. :: older => checkpointsIn older

/-- Each checkpoint counts those before it and names the last of them. -/
def Linked : List Checkpoint → Prop
  | [] => True
  | checkpoint :: older =>
      checkpoint.epoch = older.length ∧
        checkpoint.parentCheckpointDigest = older.head?.map (·.gatewayDigest) ∧ Linked older

/-- A turn of a later epoch starts only after the checkpoint of the epoch
    before it is acknowledged. -/
def Ordered (history : List SessionEvent) : Prop :=
  ∀ newer older turnId n, history = newer ++ .started turnId (n + 1) :: older →
    .acknowledged n ∈ older

/-- The checkpoints, oldest first, form a single chain. -/
def SingleChain (checkpoints : List Checkpoint) : Prop :=
  ∀ n checkpoint, checkpoints[n]? = some checkpoint →
    checkpoint.epoch = n ∧
      (n = 0 → checkpoint.parentCheckpointDigest = none) ∧
      ∀ m previous, n = m + 1 → checkpoints[m]? = some previous →
        checkpoint.parentCheckpointDigest = some previous.gatewayDigest

theorem Linked.singleChain {checkpoints : List Checkpoint} (linked : Linked checkpoints) :
    SingleChain checkpoints.reverse := by
  induction checkpoints with
  | nil => simp [SingleChain]
  | cons checkpoint older ih =>
      intro n found located
      rw [List.reverse_cons] at located
      rcases Nat.lt_or_ge n older.length with inside | beyond
      · rw [List.getElem?_append_left (by simpa using inside)] at located
        obtain ⟨epoch, first, next⟩ := ih linked.2.2 n found located
        refine ⟨epoch, first, ?_⟩
        rintro m previous rfl there
        rw [List.reverse_cons, List.getElem?_append_left (by simp; omega)] at there
        exact next m previous rfl there
      · have last : n = older.length := by
          have bound := (List.getElem?_eq_some_iff.mp located).1
          simp only [List.length_append, List.length_reverse, List.length_singleton] at bound
          omega
        subst last
        rw [List.getElem?_append_right (by simp), List.length_reverse, Nat.sub_self,
          List.getElem?_cons_zero, Option.some.injEq] at located
        subst located
        refine ⟨linked.1, ?_, ?_⟩
        · intro empty
          rw [linked.2.1, List.length_eq_zero_iff.mp empty]
          rfl
        · intro m previous length there
          rw [List.reverse_cons, List.getElem?_append_left (by simp; omega),
            List.getElem?_reverse (by omega)] at there
          have head : older.length - 1 - m = 0 := by omega
          rw [head, ← List.head?_eq_getElem?] at there
          rw [linked.2.1, there]
          rfl

theorem Ordered.cons {history : List SessionEvent} (ordered : Ordered history)
    {event : SessionEvent}
    (starts : ∀ turnId n, event = .started turnId (n + 1) → .acknowledged n ∈ history) :
    Ordered (event :: history) := by
  intro newer older turnId n split
  cases newer with
  | nil =>
      simp only [List.nil_append, List.cons.injEq] at split
      obtain ⟨rfl, rfl⟩ := split
      exact starts turnId n rfl
  | cons first rest =>
      simp only [List.cons_append, List.cons.injEq] at split
      exact ordered rest older turnId n split.2

structure Consistent (payload : SessionPayload) (history : List SessionEvent) : Prop where
  epochs : payload.nextEpoch = (checkpointsIn history).length
  latest : payload.latestCheckpoint = (checkpointsIn history).head?
  active : ∀ epoch, payload.activeEpoch = some epoch → epoch = payload.nextEpoch
  acknowledged : payload.latestCheckpointAcknowledged = true →
    ∀ checkpoint, payload.latestCheckpoint = some checkpoint →
      .acknowledged checkpoint.epoch ∈ history
  linked : Linked (checkpointsIn history)
  ordered : Ordered history

/-- The session once had `epoch` checkpoints and `latest` was the last of them. -/
def Past (history : List SessionEvent) (epoch : Nat) (latest : Option Checkpoint) : Prop :=
  ∃ newer past, checkpointsIn history = newer ++ past ∧ past.length = epoch ∧ latest = past.head?

/-- The turn continues some past of the session. -/
def Continues (turn : ContinuationTurn) (history : List SessionEvent) : Prop :=
  ∃ latest, Past history turn.epoch latest ∧
    turn.parentCheckpointDigest = latest.map (·.gatewayDigest)

theorem checkpointsIn_append (events history : List SessionEvent) :
    checkpointsIn (events ++ history) = checkpointsIn events ++ checkpointsIn history := by
  induction events with
  | nil => rfl
  | cons event events ih => cases event <;> simp [checkpointsIn, ih]

theorem Past.mono {history : List SessionEvent} {epoch : Nat} {latest : Option Checkpoint}
    (past : Past history epoch latest) (events : List SessionEvent) :
    Past (events ++ history) epoch latest := by
  obtain ⟨newer, past, split, length, head⟩ := past
  exact ⟨checkpointsIn events ++ newer, past, by rw [checkpointsIn_append, split,
    List.append_assoc], length, head⟩

theorem Continues.mono {turn : ContinuationTurn} {history : List SessionEvent}
    (continues : Continues turn history) (events : List SessionEvent) :
    Continues turn (events ++ history) := by
  obtain ⟨latest, past, parent⟩ := continues
  exact ⟨latest, past.mono events, parent⟩

namespace Consistent

variable {payload : SessionPayload} {history : List SessionEvent}

theorem start : Consistent {} [] where
  epochs := rfl
  latest := rfl
  active := nofun
  acknowledged := nofun
  linked := trivial
  ordered := by
    intro newer older turnId n split
    simp at split

theorem interrupted (consistent : Consistent payload history) :
    Consistent payload.interrupted history :=
  { consistent with active := nofun }

/-- A turn begins: the newest checkpoint, if there is one, is acknowledged. -/
theorem begun (consistent : Consistent payload history) (turnId : String)
    (acked : payload.latestCheckpoint.isSome → payload.latestCheckpointAcknowledged = true) :
    Consistent (payload.begun turnId) (.started turnId payload.nextEpoch :: history) where
  epochs := consistent.epochs
  latest := consistent.latest
  active := fun epoch same => (Option.some.inj same).symm
  acknowledged := fun flag checkpoint latest =>
    List.mem_cons_of_mem _ (consistent.acknowledged flag checkpoint latest)
  linked := consistent.linked
  ordered := by
    refine consistent.ordered.cons ?_
    intro id n same
    obtain ⟨_, count⟩ := SessionEvent.started.inj same
    have epochs := consistent.epochs
    have latest := consistent.latest
    have linked := consistent.linked
    cases past : checkpointsIn history with
    | nil =>
        rw [past] at epochs
        simp only [List.length_nil] at epochs
        omega
    | cons checkpoint older =>
        rw [past] at epochs latest linked
        have member := consistent.acknowledged (acked (by simp [latest])) checkpoint latest
        have epoch : checkpoint.epoch = n := by
          have := linked.1
          simp only [List.length_cons] at epochs
          omega
        rwa [epoch] at member

/-- The active turn completes with a checkpoint that carries its epoch and its
    parent. -/
theorem completed (consistent : Consistent payload history) {turn : ContinuationTurn}
    {checkpoint : Checkpoint} (continues : Continues turn history)
    (active : payload.IsActive turn) (epoch : checkpoint.epoch = turn.epoch)
    (parent : checkpoint.parentCheckpointDigest = turn.parentCheckpointDigest) :
    Consistent (payload.completed checkpoint) (.committed checkpoint :: history) := by
  obtain ⟨_, ⟨newer, past, split, length, rfl⟩, digest⟩ := continues
  have current : turn.epoch = (checkpointsIn history).length :=
    (consistent.active turn.epoch active.2).trans consistent.epochs
  have whole : newer = [] := by
    rw [split, List.length_append, ← length] at current
    exact List.length_eq_zero_iff.mp (by omega)
  rw [whole, List.nil_append] at split
  exact
    { epochs := by simp [SessionPayload.completed, checkpointsIn, epoch, current]
      latest := rfl
      active := nofun
      acknowledged := nofun
      linked := ⟨epoch.trans current, by rw [parent, digest, split], consistent.linked⟩
      ordered := consistent.ordered.cons nofun }

theorem acknowledge (consistent : Consistent payload history) {checkpoint : Checkpoint}
    (latest : payload.latestCheckpoint = some checkpoint) :
    Consistent payload.acknowledged (.acknowledged checkpoint.epoch :: history) where
  epochs := consistent.epochs
  latest := consistent.latest
  active := consistent.active
  acknowledged := by
    intro _ found same
    obtain rfl := Option.some.inj (latest.symm.trans same)
    exact List.mem_cons_self
  linked := consistent.linked
  ordered := consistent.ordered.cons nofun

theorem past (consistent : Consistent payload history) :
    Past history payload.nextEpoch payload.latestCheckpoint :=
  ⟨[], checkpointsIn history, rfl, consistent.epochs.symm, consistent.latest⟩

/-- The checkpoint of the next epoch is not there yet. -/
theorem latest_ne (consistent : Consistent payload history) {checkpoint : Checkpoint}
    (epoch : checkpoint.epoch = payload.nextEpoch) :
    payload.latestCheckpoint ≠ some checkpoint := by
  intro same
  have linked := consistent.linked
  have epochs := consistent.epochs
  have latest := consistent.latest.symm.trans same
  cases past : checkpointsIn history with
  | nil => simp [past] at latest
  | cons newest older =>
      rw [past] at linked epochs latest
      obtain rfl := Option.some.inj latest
      have count := linked.1
      simp only [List.length_cons] at epochs
      omega

end Consistent

end DuraLLM
