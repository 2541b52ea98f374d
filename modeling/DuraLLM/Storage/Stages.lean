import DuraLLM.Agent.Receipts
import DuraLLM.Storage.Calls
import DuraLLM.Storage.Lifecycle

/-! # The stages of an operation

The lifecycle that the durable ledger enforces, for a workload in which every
operation has its own call id.  A call that the ledger accepts moves its
operation as `Stage.after` says and leaves the others where they are; a call
that raises moves nothing.
-/

namespace DuraLLM

variable {Json Payload Id : Type} [JsonCodec Json] {sha256 : String → String}

def ToolOperation.hash (sha256 : String → String) (o : ToolOperation Json) : String :=
  computeArgumentsHash sha256 o.arguments

def ToolOperation.key (sha256 : String → String) (o : ToolOperation Json) : String :=
  operationKey sha256 o.logicalOperationId o.toolName (o.hash sha256)

theorem ToolOperation.key_eq (o : ToolOperation Json) :
    operationKey sha256 o.logicalOperationId o.toolName (computeArgumentsHash sha256 o.arguments) =
      o.key sha256 := rfl

theorem ToolOperation.slot_eq (o : ToolOperation Json) :
    ToolExecutionLedger.opKey o.logicalOperationId o.toolName
      (computeArgumentsHash sha256 o.arguments) = o.slot sha256 := rfl

/-- Distinct operations, each with its own tool call id. -/
structure Workload (Json Id : Type) [JsonCodec Json] (sha256 : String → String) where
  callId : Id → String
  operation : Id → ToolOperation Json
  callId_injective : Function.Injective callId
  key_injective : Function.Injective fun o => (operation o).key sha256

inductive LifecycleCall (Json : Type) where
  | register
  | validated
  | submitted
  | committed (receipt : Json)
  | indeterminate (reason : String)
  | failed (message : String)

/-- A lifecycle call on one of the operations, and the clocks it reads. -/
structure LifecycleEvent (Json Id : Type) where
  reads : LedgerReads
  target : Id
  call : LifecycleCall Json

namespace LifecycleEvent

variable (w : Workload Json Id sha256) (event : LifecycleEvent Json Id)

def durable : DurableCall Json :=
  let id := w.callId event.target
  let o := w.operation event.target
  match event.call with
  | .register => .registerToolCall id o.logicalOperationId o.toolName o.arguments
  | .validated => .markValidated id
  | .submitted => .markSubmitted id
  | .committed receipt => .markCommitted id receipt
  | .indeterminate reason => .markIndeterminate id reason
  | .failed message => .markFailed id message

end LifecycleEvent

/-- Where an operation stands. -/
inductive Stage (Json : Type) where
  | unknown
  | opened
  | submitted
  | unresolved
  | failed
  | committed (receipt : Json)

namespace Stage

/-- Where a call takes an operation. -/
def after : Stage Json → LifecycleCall Json → Stage Json
  | .unknown, .register => .opened
  | .opened, .submitted => .submitted
  | .submitted, .committed receipt => .committed receipt
  | .opened, .indeterminate _ | .submitted, .indeterminate _ | .failed, .indeterminate _ =>
      .unresolved
  | .opened, .failed _ | .unresolved, .failed _ => .failed
  | stage, _ => stage

/-- The calls the durable ledger accepts. -/
def Allows : Stage Json → LifecycleCall Json → Prop
  | .opened, .submitted | .submitted, .committed _ => True
  | _, .submitted | _, .committed _ => False
  | .unknown, .indeterminate _ | .unknown, .failed _ => False
  | _, _ => True

/-- The allowed calls that the durable ledger ignores and the in-process one
    does not. -/
def Clashes : Stage Json → LifecycleCall Json → Prop
  | .submitted, .failed _ | .committed _, .indeterminate _ => True
  | _, _ => False

def receipt : Stage Json → Option Json
  | .committed receipt => some receipt
  | _ => none

def unsettled : Stage Json → Bool
  | .submitted | .unresolved => true
  | _ => false

end Stage

/-- What a row shows of the stage. -/
def OperationRow.Shows (row : OperationRow Json) : Stage Json → Prop
  | .unknown => False
  | .opened => row.status = .proposed ∨ row.status = .validated
  | .submitted => row.status = .submitted
  | .unresolved => row.status = .indeterminate
  | .failed => row.status = .failed
  | .committed receipt =>
      row.status = .committed ∧ row.executionReceiptJson = some (.encode receipt)

variable {w : Workload Json Id sha256} {o : Id} {stage : Stage Json}

/-- The database has the operation at the stage. -/
def Database.Has (db : Database Json Payload) (w : Workload Json Id sha256) (o : Id) :
    Stage Json → Prop
  | .unknown => db.keyOf (w.callId o) = none ∧
      db.operations.get ((w.operation o).key sha256) = none
  | stage => ∃ row, db.keyOf (w.callId o) = some ((w.operation o).key sha256) ∧
      db.operations.get ((w.operation o).key sha256) = some row ∧
      row.argumentsHash = (w.operation o).hash sha256 ∧ row.Shows stage

namespace Database

variable {db next : Database Json Payload}

/-- An operation the database has, at a stage that its row shows. -/
theorem Has.intro {row : OperationRow Json}
    (bound : db.keyOf (w.callId o) = some ((w.operation o).key sha256))
    (located : db.operations.get ((w.operation o).key sha256) = some row)
    (hash : row.argumentsHash = (w.operation o).hash sha256) (shows : row.Shows stage) :
    db.Has w o stage := by
  cases stage with
  | unknown => exact shows.elim
  | opened | submitted | unresolved | failed | committed => exact ⟨row, bound, located, hash, shows⟩

theorem Has.row {row : OperationRow Json} (has : db.Has w o stage)
    (located : db.operations.get ((w.operation o).key sha256) = some row) :
    db.keyOf (w.callId o) = some ((w.operation o).key sha256) ∧
      row.argumentsHash = (w.operation o).hash sha256 ∧ row.Shows stage := by
  cases stage with
  | unknown =>
      rw [has.2] at located
      cases located
  | opened | submitted | unresolved | failed | committed =>
      obtain ⟨row', bound, located', hash, shows⟩ := has
      obtain rfl := Option.some.inj (located'.symm.trans located)
      exact ⟨bound, hash, shows⟩

/-- The key a known call id of the workload is bound to. -/
theorem Has.key {key : String} (has : db.Has w o stage) (bound : db.keyOf (w.callId o) = some key) :
    key = (w.operation o).key sha256 := by
  cases stage with
  | unknown =>
      rw [has.1] at bound
      cases bound
  | opened | submitted | unresolved | failed | committed =>
      obtain ⟨row, expected, _⟩ := has
      exact Option.some.inj (bound.symm.trans expected)

theorem Has.congr (keys : next.keyOf (w.callId o) = db.keyOf (w.callId o))
    (rows : next.operations.get ((w.operation o).key sha256) =
      db.operations.get ((w.operation o).key sha256)) :
    next.Has w o stage ↔ db.Has w o stage := by
  cases stage <;> simp only [Has, keys, rows]

theorem Has.shows_of_status {status : ToolExecutionStatus} (has : db.Has w o stage)
    (shown : db.statusOf ((w.operation o).key sha256) = some status) :
    ∃ row : OperationRow Json, row.status = status ∧ row.Shows stage := by
  obtain ⟨row, located, same⟩ := Option.map_eq_some_iff.mp shown
  exact ⟨row, same, (has.row located).2.2⟩

/-- A write to one operation. -/
structure Wrote (w : Workload Json Id sha256) (o : Id) (stage : Stage Json)
    (db next : Database Json Payload) : Prop where
  target : next.Has w o stage
  others : ∀ other ≠ o, ∀ stage, db.Has w other stage → next.Has w other stage

theorem Wrote.nothing (has : db.Has w o stage) : Wrote w o stage db db :=
  ⟨has, fun _ _ _ has => has⟩

theorem Wrote.update {row : OperationRow Json} {stage' : Stage Json}
    {f : OperationRow Json → OperationRow Json} (has : db.Has w o stage)
    (located : db.operations.get ((w.operation o).key sha256) = some row)
    (hash : (f row).argumentsHash = row.argumentsHash) (shows : (f row).Shows stage')
    (calls : next.operationCalls = db.operationCalls)
    (rows : next.operations = (db.updateOperation ((w.operation o).key sha256) f).operations) :
    Wrote w o stage' db next := by
  obtain ⟨bound, known, _⟩ := has.row located
  have keys : ∀ id, next.keyOf id = db.keyOf id := by simp [keyOf, calls]
  constructor
  · refine .intro ((keys _).trans bound) ?_ (hash.trans known) shows
    simp [rows, updateOperation_get f located]
  · intro other ne stage
    refine (Has.congr (keys _) ?_).mpr
    rw [rows, updateOperation_get f located, if_neg]
    exact fun same => ne (w.key_injective same)

theorem Wrote.prepare {now : Seconds} {arguments : Json} {stored : StoredOperation Json}
    (has : db.Has w o stage)
    (done : db.prepareOperation sha256 now (w.callId o) (w.operation o).logicalOperationId
      (w.operation o).toolName ((w.operation o).hash sha256) arguments = .ok (stored, next)) :
    Wrote w o (stage.after .register) db next := by
  obtain ⟨row, ⟨key, createdAt⟩, status, _, hash, target, _, rfl⟩ := prepareOperation_ok done
  obtain rfl : key = (w.operation o).key sha256 := target
  constructor
  · cases stage with
    | unknown =>
        obtain ⟨unbound, missing⟩ := has
        simp only [keyOf, Option.map_eq_none_iff] at unbound
        refine .intro ?_ (?_ : _ = some row) hash (.inl status)
        · simp [keyOf, unbound]
        · simp [missing]
    | opened | submitted | unresolved | failed | committed =>
        obtain ⟨known, bound, located, same, shows⟩ := has
        simp only [keyOf, Option.map_eq_some_iff] at bound
        obtain ⟨call, found, named⟩ := bound
        refine .intro ?_ (Dict.get_insertNew_of_some located) same shows
        simp [keyOf, found, named]
  · intro other ne stage
    refine (Has.congr ?_ ?_).mpr
    · have apart : w.callId other ≠ w.callId o := fun same => ne (w.callId_injective same)
      simp [keyOf, Dict.get_insertNew_ne _ _ apart]
    · exact Dict.get_insertNew_ne _ _ fun same => ne (w.key_injective same)

end Database

/-- The records that the durable ledger keeps in memory are those of the workload. -/
def LedgerSystem.Remembers (s : LedgerSystem Json Payload) (w : Workload Json Id sha256) : Prop :=
  ∀ o r, (s.instances 0).base.recordsByCallId.get (w.callId o) = some r →
    r.argumentsHash = (w.operation o).hash sha256

namespace LedgerSystem

variable {s t : LedgerSystem Json Payload} {reads : LedgerReads}

/-- A call on the base class leaves the hashes of its records alone, and
    registers what the workload says. -/
theorem Remembers.apply (remembers : s.Remembers w) (call : LedgerCall Json) (reads : LedgerReads)
    (registers : ∀ id op tool arguments, call = .register id op tool arguments →
      ∃ o, id = w.callId o ∧ arguments = (w.operation o).arguments)
    (base : (t.instances 0).base = call.apply sha256 (s.instances 0).base reads) :
    t.Remembers w := by
  intro o r found
  rw [base] at found
  rcases LedgerCall.record_of_apply found with ⟨known, before, same⟩ | fresh
  · rw [same.hash]
    exact remembers o known before
  · obtain ⟨op, tool, arguments, rfl, _, _, _, _, hash⟩ := fresh
    obtain ⟨registered, id, rfl⟩ := registers _ op tool arguments rfl
    rw [hash, w.callId_injective id]
    rfl

theorem Remembers.hydrate {id : String} {operation : StoredOperation Json}
    (remembers : s.Remembers w)
    (base : (t.instances 0).base = (s.instances 0).base.updateRecord id (·.hydrate operation)) :
    t.Remembers w := by
  intro o r found
  simp only [base, ToolExecutionLedger.updateRecord, Dict.get_modify] at found
  split at found
  · next here =>
    obtain ⟨known, before, rfl⟩ := Option.map_eq_some_iff.mp found
    exact remembers o known (here ▸ before)
  · exact remembers o r found

/-- The record that is registered carries the hash of the workload's operation. -/
theorem Remembers.registered (remembers : s.Remembers w) (reads : LedgerReads) (o : Id) :
    ((s.instances 0).base.registerToolCall sha256 reads (w.callId o)
      (w.operation o).logicalOperationId (w.operation o).toolName
      (w.operation o).arguments).1.argumentsHash = (w.operation o).hash sha256 := by
  unfold ToolExecutionLedger.registerToolCall
  split
  · next known found => exact remembers o known found
  · rfl

/-- The answer to a call on an operation at the stage: an exception that leaves
    the database alone, or the operation has moved as the lifecycle says. -/
structure Responds (w : Workload Json Id sha256) (o : Id) (stage : Stage Json)
    (call : LifecycleCall Json) (s : LedgerSystem Json Payload)
    (answer : DurableAnswer Json × LedgerSystem Json Payload) : Prop where
  remembers : answer.2.Remembers w
  database : (∃ e, answer.1 = .raised e ∧ answer.2.db = s.db) ∨
    (∀ e, answer.1 ≠ .raised e) ∧ stage.Allows call ∧
      Database.Wrote w o (stage.after call) s.db answer.2.db

theorem register_responds (remembers : s.Remembers w) (has : s.db.Has w o stage) :
    Responds w o stage .register s
      (s.call sha256 0 (.registerToolCall (w.callId o) (w.operation o).logicalOperationId
        (w.operation o).toolName (w.operation o).arguments)) := by
  rw [call_register]
  have hash := remembers.registered s.reads o
  have known : (s.updateBase 0 fun base => (base.registerToolCall sha256 s.reads (w.callId o)
      (w.operation o).logicalOperationId (w.operation o).toolName
      (w.operation o).arguments).2).Remembers w :=
    remembers.apply (.register (w.callId o) (w.operation o).logicalOperationId
      (w.operation o).toolName (w.operation o).arguments) s.reads
      (by
        intro id op tool arguments same
        cases same
        exact ⟨o, rfl, rfl⟩)
      rfl
  simp only [hash]
  split
  · next e done => exact ⟨known, .inl ⟨_, rfl, rfl⟩⟩
  · next stored db done =>
    have allowed : stage.Allows (.register : LifecycleCall Json) := by cases stage <;> trivial
    exact ⟨known.hydrate rfl, .inr ⟨nofun, allowed, .prepare has done⟩⟩

theorem failed_responds {message : String} (remembers : s.Remembers w)
    (has : s.db.Has w o stage) :
    Responds w o stage (.failed message) s
      (s.call sha256 0 (.markFailed (w.callId o) message)) := by
  rw [call_failed]
  split
  · next e done => exact ⟨remembers, .inl ⟨_, rfl, rfl⟩⟩
  · next stored db done =>
    refine ⟨remembers.apply (.failed (w.callId o) message) s.reads nofun rfl,
      .inr ⟨nofun, ?_⟩⟩
    obtain ⟨key, row, bound, located, next⟩ := Database.markOperationFailed_ok done
    obtain rfl := has.key bound
    obtain ⟨_, _, shows⟩ := has.row located
    have moves : row.status ≠ .committed ∧ row.status ≠ .submitted →
        Database.Wrote w o .failed s.db db := by
      intro movable
      rw [if_pos movable] at next
      subst next
      refine .update has located ?_ ?_ rfl rfl <;> rfl
    have stays : ¬(row.status ≠ .committed ∧ row.status ≠ .submitted) →
        Database.Wrote w o stage s.db db := by
      intro fixed
      rw [if_neg fixed] at next
      subst next
      exact .nothing has
    cases stage with
    | unknown => exact shows.elim
    | opened =>
        refine ⟨trivial, moves ?_⟩
        rcases shows with status | status <;> simp [status]
    | unresolved | failed => exact ⟨trivial, moves (by simp [show row.status = _ from shows])⟩
    | submitted => exact ⟨trivial, stays (by simp [show row.status = _ from shows])⟩
    | committed receipt => exact ⟨trivial, stays (by simp [shows.1])⟩

theorem indeterminate_responds {reason : String} (remembers : s.Remembers w)
    (has : s.db.Has w o stage) :
    Responds w o stage (.indeterminate reason) s
      (s.call sha256 0 (.markIndeterminate (w.callId o) reason)) := by
  rw [call_indeterminate]
  split
  · next e done => exact ⟨remembers, .inl ⟨_, rfl, rfl⟩⟩
  · next stored db done =>
    refine ⟨remembers.apply (.indeterminate (w.callId o) reason) s.reads nofun
      rfl, .inr ⟨nofun, ?_⟩⟩
    obtain ⟨key, row, bound, located, next⟩ := Database.markOperationIndeterminate_ok done
    obtain rfl := has.key bound
    obtain ⟨_, _, shows⟩ := has.row located
    have moves : row.status ≠ .committed → Database.Wrote w o .unresolved s.db db := by
      intro movable
      rw [if_pos movable] at next
      subst next
      exact .update (f := fun row => { row with
        status := .indeterminate, errorMessage := some reason, updatedAt := s.reads.now })
        has located rfl rfl rfl rfl
    cases stage with
    | unknown => exact shows.elim
    | opened =>
        refine ⟨trivial, moves ?_⟩
        rcases shows with status | status <;> simp [status]
    | submitted | unresolved | failed =>
        exact ⟨trivial, moves (by simp [show row.status = _ from shows])⟩
    | committed receipt =>
        rw [if_neg (not_not.mpr shows.1)] at next
        subst next
        exact ⟨trivial, .nothing has⟩

theorem submitted_responds (remembers : s.Remembers w) (has : s.db.Has w o stage) :
    Responds w o stage .submitted s
      (s.call sha256 0 (.markSubmitted (w.callId o))) := by
  rw [call_submitted]
  split
  · next e done => exact ⟨remembers, .inl ⟨_, rfl, rfl⟩⟩
  · next lease db done =>
    refine ⟨remembers.apply (.submitted (w.callId o)) s.reads nofun rfl,
      .inr ⟨nofun, ?_⟩⟩
    obtain ⟨key, row, leased, bound, located, was, acquired, rfl⟩ :=
      Database.markOperationSubmitted_ok done
    obtain ⟨_, _, _, rfl⟩ := Database.acquireLeaseLocked_some acquired
    obtain rfl := has.key bound
    obtain ⟨_, _, shows⟩ := has.row located
    cases stage with
    | unknown => exact shows.elim
    | opened =>
        refine ⟨trivial, .update has located ?_ ?_ rfl rfl⟩ <;> rfl
    | submitted | unresolved | failed => simp [show row.status = _ from shows] at was
    | committed receipt => simp [shows.1] at was

theorem committed_responds {receipt : Json} (remembers : s.Remembers w)
    (has : s.db.Has w o stage) :
    Responds w o stage (.committed receipt) s
      (s.call sha256 0 (.markCommitted (w.callId o) receipt)) := by
  rw [call_committed]
  split
  · exact ⟨remembers, .inl ⟨_, rfl, rfl⟩⟩
  · next lease cached =>
    split
    · next e done => exact ⟨remembers, .inl ⟨_, rfl, rfl⟩⟩
    · next stored db done =>
      refine ⟨remembers.apply (.committed (w.callId o) receipt) s.reads nofun
        rfl, .inr ⟨nofun, ?_⟩⟩
      obtain ⟨key, row, bound, located, was, _, rfl⟩ := Database.markOperationCommitted_ok done
      obtain rfl := has.key bound
      obtain ⟨_, _, shows⟩ := has.row located
      cases stage with
      | unknown => exact shows.elim
      | submitted =>
          exact ⟨trivial, .update (f := fun row => { row with
            status := .committed, executionReceiptJson := some (.encode receipt)
            errorMessage := none, updatedAt := s.reads.later })
            has located rfl ⟨rfl, rfl⟩ rfl rfl⟩
      | opened => rcases shows with status | status <;> simp [status] at was
      | unresolved | failed => simp [show row.status = _ from shows] at was
      | committed receipt => simp [shows.1] at was

theorem Remembers.lookUp (remembers : s.Remembers w) (has : s.db.Has w o stage) :
    (s.lookUp 0 (w.callId o)).2.Remembers w := by
  unfold LedgerSystem.lookUp
  split
  · exact remembers
  · split
    · exact remembers
    · next operation found =>
      obtain ⟨key, row, bound, located, rfl⟩ := Database.operationForCall_some found
      obtain rfl := has.key bound
      obtain ⟨_, hash, _⟩ := has.row located
      intro other r stored
      simp only [updateBase, updateInstance, Function.update_self, Dict.get_set] at stored
      split at stored
      · next here =>
        obtain rfl := Option.some.inj stored
        obtain rfl := w.callId_injective here
        exact hash
      · exact remembers other r stored

theorem validated_responds (remembers : s.Remembers w) (has : s.db.Has w o stage) :
    Responds w o stage .validated s
      (s.call sha256 0 (.markValidated (w.callId o))) := by
  have same : stage.after .validated = stage := by cases stage <;> rfl
  have allowed : stage.Allows (.validated : LifecycleCall Json) := by cases stage <;> trivial
  have looked := remembers.lookUp has
  have kept := lookUp_same s 0 (w.callId o)
  rw [call_validated]
  generalize s.lookUp 0 (w.callId o) = answer at looked kept
  obtain ⟨record, t⟩ := answer
  have nothing : Database.Wrote w o (stage.after .validated) s.db t.db := by
    rw [same, show t.db = s.db from kept.1]
    exact .nothing has
  cases record with
  | none => exact ⟨looked, .inr ⟨nofun, allowed, nothing⟩⟩
  | some record =>
      simp only
      split
      · split
        · next e done => exact ⟨looked, .inl ⟨_, rfl, kept.1⟩⟩
        · next stored db done =>
          refine ⟨looked.apply (.validated (w.callId o)) s.reads nofun rfl,
            .inr ⟨nofun, allowed, ?_⟩⟩
          rw [same]
          obtain ⟨key, row, bound, located, next⟩ := Database.markOperationValidated_ok done
          obtain rfl := has.key bound
          obtain ⟨_, _, shows⟩ := has.row located
          split at next
          · next proposed =>
            subst next
            cases stage with
            | opened =>
                refine .update has located ?_ ?_ rfl rfl
                · rfl
                · exact .inr rfl
            | unknown => exact shows.elim
            | submitted | unresolved | failed =>
                rw [show row.status = _ from shows] at proposed
                cases proposed
            | committed receipt =>
                rw [shows.1] at proposed
                cases proposed
          · subst next
            exact .nothing has
      · exact ⟨looked, .inr ⟨nofun, allowed, nothing⟩⟩

end LedgerSystem

/-! ## The answers -/

theorem Database.Has.receipt_answer {s : LedgerSystem Json Payload} (has : s.db.Has w o stage) :
    (s.call sha256 0 (.checkIdempotency (w.operation o).logicalOperationId
      (w.operation o).toolName (w.operation o).arguments)).1 =
      .receipt stage.receipt.isSome stage.receipt := by
  rw [LedgerSystem.call_checkIdempotency, ToolOperation.key_eq]
  cases stage with
  | unknown => simp [has.2, Stage.receipt]
  | opened =>
      obtain ⟨row, _, located, _, shows⟩ := has
      rcases shows with status | status <;> simp [located, status, Stage.receipt]
  | submitted | unresolved | failed =>
      obtain ⟨row, _, located, _, shows⟩ := has
      simp [located, show row.status = _ from shows, Stage.receipt]
  | committed receipt =>
      obtain ⟨row, _, located, _, status, stored⟩ := has
      simp [located, status, stored, Stage.receipt]

theorem Database.Has.flag_answer {s : LedgerSystem Json Payload} (has : s.db.Has w o stage) :
    (s.call sha256 0 (.hasIndeterminateOperation (w.operation o).logicalOperationId
      (w.operation o).toolName (w.operation o).arguments)).1 = .flag stage.unsettled := by
  rw [LedgerSystem.call_hasIndeterminate, ToolOperation.key_eq]
  cases stage with
  | unknown => simp [has.2, Stage.unsettled]
  | opened =>
      obtain ⟨row, _, located, _, shows⟩ := has
      rcases shows with status | status <;>
        simp [located, status, Stage.unsettled, ToolExecutionStatus.isUnknownOutcome]
  | submitted | unresolved | failed =>
      obtain ⟨row, _, located, _, shows⟩ := has
      simp [located, show row.status = _ from shows, Stage.unsettled,
        ToolExecutionStatus.isUnknownOutcome]
  | committed receipt =>
      obtain ⟨row, _, located, _, status, _⟩ := has
      simp [located, status, Stage.unsettled, ToolExecutionStatus.isUnknownOutcome]

end DuraLLM
