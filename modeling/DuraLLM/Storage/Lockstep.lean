import DuraLLM.Storage.Stages

/-! # The two ledgers side by side

An in-process ledger and a durable one are given the same lifecycle calls, as
far as the durable one accepts them.  The durable ledger ignores a failure of a
submitted operation and a lost acknowledgement of a committed one, while the
in-process ledger takes both at their word; and the latter keeps its receipts
under a key that two operations may share.  Apart from these the two ledgers
answer alike.
-/

namespace DuraLLM

variable {Json Payload Id : Type} [JsonCodec Json] {sha256 : String → String}

def LifecycleEvent.inProcess (w : Workload Json Id sha256) (event : LifecycleEvent Json Id) :
    LedgerCall Json :=
  let id := w.callId event.target
  let o := w.operation event.target
  match event.call with
  | .register => .register id o.logicalOperationId o.toolName o.arguments
  | .validated => .validated id
  | .submitted => .submitted id
  | .committed receipt => .committed id receipt
  | .indeterminate reason => .indeterminate id reason
  | .failed message => .failed id message

/-- A durable ledger, as instance 0 over its database, and an in-process one. -/
structure Twins (Json Payload : Type) [JsonCodec Json] where
  durable : LedgerSystem Json Payload
  inProcess : ToolExecutionLedger Json

namespace Twins

/-- Fresh ledgers over an empty database. -/
def start (ownerId : String) (leaseTtlSeconds : Seconds) (maxRecords : Nat)
    (ttlSeconds : Option Seconds) : Twins Json Payload where
  durable := { db := {}, instances := fun _ => { ownerId, leaseTtlSeconds }, reads := ⟨0, 0, 0⟩ }
  inProcess := { maxRecords, ttlSeconds }

variable (w : Workload Json Id sha256)

/-- What the durable ledger makes of the call. -/
def perform (t : Twins Json Payload) (event : LifecycleEvent Json Id) :
    DurableAnswer Json × LedgerSystem Json Payload :=
  { t.durable with reads := event.reads }.call sha256 0 (event.durable w)

def Accepts (t : Twins Json Payload) (event : LifecycleEvent Json Id) : Prop :=
  ∀ e, (t.perform w event).1 ≠ .raised e

/-- The in-process ledger only gets the calls that the durable one accepts. -/
def step (t : Twins Json Payload) (event : LifecycleEvent Json Id) : Twins Json Payload :=
  match t.perform w event with
  | (.raised _, durable) => { t with durable }
  | (_, durable) =>
      { durable, inProcess := (event.inProcess w).apply sha256 t.inProcess event.reads }

def run (t : Twins Json Payload) (events : List (LifecycleEvent Json Id)) : Twins Json Payload :=
  events.foldl (step w) t

/-- The call evicts nothing from the in-process ledger. -/
def Unevicted (t : Twins Json Payload) (event : LifecycleEvent Json Id) : Prop :=
  (event.inProcess w).apply sha256 t.inProcess event.reads =
    (event.inProcess w).applyUnbounded sha256 t.inProcess event.reads

instance [DecidableEq Json] (t : Twins Json Payload) (event : LifecycleEvent Json Id) :
    Decidable (t.Unevicted w event) :=
  inferInstanceAs (Decidable (_ = _))

/-- An accepted call on which the two ledgers part. -/
def Diverges (t : Twins Json Payload) (event : LifecycleEvent Json Id) : Prop :=
  t.Accepts w event ∧
    match event.call with
    | .failed _ =>
        t.durable.db.statusOf ((w.operation event.target).key sha256) = some .submitted
    | .indeterminate _ =>
        t.durable.db.statusOf ((w.operation event.target).key sha256) = some .committed
    | .committed _ => ∃ other ≠ event.target,
        (w.operation other).slot sha256 = (w.operation event.target).slot sha256
    | .register | .validated | .submitted => False

/-- Every event of the run satisfies `P` in the state it finds. -/
def Along (P : Twins Json Payload → LifecycleEvent Json Id → Prop) (t : Twins Json Payload) :
    List (LifecycleEvent Json Id) → Prop
  | [] => True
  | event :: events => P t event ∧ (t.step w event).Along P events

/-- At this time the in-process ledger still honours a receipt of the
    operation, if it keeps one. -/
def Honours (t : Twins Json Payload) (o : Id) (now : Seconds) : Prop :=
  ∀ entry, t.inProcess.receiptsByOpHash.get ((w.operation o).slot sha256) = some entry →
    t.inProcess.outlived (now - entry.2) = false

/-- Both ledgers answer both questions alike for every operation. -/
def Agree (t : Twins Json Payload) : Prop :=
  ∀ o, let op := (w.operation o).logicalOperationId
    let tool := (w.operation o).toolName
    let arguments := (w.operation o).arguments
    (∀ now, t.Honours w o now →
      let answer := t.inProcess.checkIdempotency sha256 now op tool arguments
      (t.durable.call sha256 0 (.checkIdempotency op tool arguments)).1 =
        .receipt answer.1 answer.2) ∧
    (t.durable.call sha256 0 (.hasIndeterminateOperation op tool arguments)).1 =
      .flag (t.inProcess.hasIndeterminateOperation sha256 op tool arguments)

end Twins

/-! ## The in-process side -/

/-- What a record shows of the stage.  A failure that is reported after the
    commit stays on the record. -/
def ToolExecutionRecord.Shows (r : ToolExecutionRecord Json) : Stage Json → Prop
  | .unknown => False
  | .opened => r.status = .proposed ∨ r.status = .validated
  | .submitted => r.status = .submitted
  | .unresolved => r.status = .indeterminate
  | .failed => r.status = .failed
  | .committed _ => r.status = .committed ∨ r.status = .failed

variable {w : Workload Json Id sha256} {o : Id} {stage : Stage Json}

/-- The record of an operation of the workload. -/
structure ToolExecutionRecord.Describes (r : ToolExecutionRecord Json) (sha256 : String → String)
    (o : ToolOperation Json) : Prop where
  operation : r.logicalOperationId = o.logicalOperationId
  tool : r.toolName = o.toolName
  hash : r.argumentsHash = o.hash sha256

namespace ToolExecutionLedger

variable {ledger next : ToolExecutionLedger Json} {reads : LedgerReads}

/-- The ledger has the operation at the stage, and in its slot the receipt of
    that stage. -/
structure Has (ledger : ToolExecutionLedger Json) (w : Workload Json Id sha256) (o : Id)
    (stage : Stage Json) : Prop where
  record : match stage with
    | .unknown => ledger.recordsByCallId.get (w.callId o) = none
    | stage => ∃ r, ledger.recordsByCallId.get (w.callId o) = some r ∧
        r.Describes sha256 (w.operation o) ∧ r.Shows stage
  receipt : (ledger.receiptsByOpHash.get ((w.operation o).slot sha256)).map Prod.fst = stage.receipt

/-- A write to one operation. -/
structure Wrote (w : Workload Json Id sha256) (o : Id) (stage : Stage Json)
    (ledger next : ToolExecutionLedger Json) : Prop where
  target : next.Has w o stage
  others : ∀ other ≠ o, ∀ stage, ledger.Has w other stage → next.Has w other stage

theorem Has.intro {r : ToolExecutionRecord Json}
    (found : ledger.recordsByCallId.get (w.callId o) = some r)
    (describes : r.Describes sha256 (w.operation o)) (shows : r.Shows stage)
    (receipt : (ledger.receiptsByOpHash.get ((w.operation o).slot sha256)).map Prod.fst =
      stage.receipt) : ledger.Has w o stage := by
  refine ⟨?_, receipt⟩
  cases stage with
  | unknown => exact shows.elim
  | opened | submitted | unresolved | failed | committed => exact ⟨r, found, describes, shows⟩

theorem Has.found {r : ToolExecutionRecord Json} (has : ledger.Has w o stage)
    (found : ledger.recordsByCallId.get (w.callId o) = some r) :
    r.Describes sha256 (w.operation o) ∧ r.Shows stage := by
  have record := has.record
  cases stage with
  | unknown =>
      rw [show _ = none from record] at found
      cases found
  | opened | submitted | unresolved | failed | committed =>
      obtain ⟨known, same, describes, shows⟩ := record
      obtain rfl := Option.some.inj (same.symm.trans found)
      exact ⟨describes, shows⟩

theorem Has.absent (has : ledger.Has w o stage)
    (missing : ledger.recordsByCallId.get (w.callId o) = none) : stage = .unknown := by
  have record := has.record
  cases stage with
  | unknown => rfl
  | opened | submitted | unresolved | failed | committed =>
      obtain ⟨r, known, _⟩ := record
      rw [known] at missing
      cases missing

theorem Has.congr (records : next.recordsByCallId.get (w.callId o) =
      ledger.recordsByCallId.get (w.callId o))
    (receipts : next.receiptsByOpHash.get ((w.operation o).slot sha256) =
      ledger.receiptsByOpHash.get ((w.operation o).slot sha256))
    (has : ledger.Has w o stage) : next.Has w o stage :=
  ⟨by simpa only [records] using has.record, by simpa only [receipts] using has.receipt⟩

theorem Wrote.update {stage' : Stage Json} {f : ToolExecutionRecord Json → ToolExecutionRecord Json}
    (has : ledger.Has w o stage) (same : ∀ r : ToolExecutionRecord Json, r.SameCall (f r))
    (shows : ∀ r : ToolExecutionRecord Json, r.Shows stage → (f r).Shows stage')
    (unknown : stage = .unknown → stage' = .unknown)
    (receipt : stage'.receipt = stage.receipt) :
    Wrote w o stage' ledger (ledger.updateRecord (w.callId o) f) := by
  constructor
  · cases found : ledger.recordsByCallId.get (w.callId o) with
    | none =>
        obtain rfl := has.absent found
        obtain rfl := unknown rfl
        refine ⟨?_, has.receipt⟩
        simp [updateRecord, found]
    | some r =>
        obtain ⟨describes, shown⟩ := has.found found
        refine .intro (r := f r) ?_ ?_ (shows r shown) (has.receipt.trans receipt.symm)
        · simp [updateRecord, found]
        · exact ⟨(same r).operation.trans describes.operation, (same r).tool.trans describes.tool,
            (same r).hash.trans describes.hash⟩
  · intro other ne stage
    refine Has.congr ?_ rfl
    exact Dict.get_modify_ne _ _ fun same => ne (w.callId_injective same)

theorem Wrote.register (has : ledger.Has w o stage) :
    Wrote w o (stage.after .register) ledger
      ((LedgerCall.register (w.callId o) (w.operation o).logicalOperationId
        (w.operation o).toolName (w.operation o).arguments).applyUnbounded sha256 ledger
        reads) := by
  cases found : ledger.recordsByCallId.get (w.callId o) with
  | some r =>
      have same : stage.after .register = stage := by
        cases stage with
        | unknown => exact (has.found found).2.elim
        | opened | submitted | unresolved | failed | committed => rfl
      simp only [LedgerCall.applyUnbounded, found, same]
      exact ⟨has, fun _ _ _ has => has⟩
  | none =>
      simp only [LedgerCall.applyUnbounded, found]
      constructor
      · obtain rfl := has.absent found
        exact .intro (Dict.get_set_self _ _ _) ⟨rfl, rfl, rfl⟩ (.inl rfl) has.receipt
      · intro other ne stage
        refine Has.congr ?_ rfl
        exact Dict.get_set_ne _ _ fun same => ne (w.callId_injective same)

/-- A commit of a submitted operation, in the terms of the workload. -/
theorem Has.commit {receipt : Json} (has : ledger.Has w o .submitted) :
    (LedgerCall.committed (w.callId o) receipt).applyUnbounded sha256 ledger reads =
      { ledger.updateRecord (w.callId o) fun r => { r with
          status := .committed, executionReceipt := some receipt, updatedAt := reads.wall } with
        receiptsByOpHash := ledger.receiptsByOpHash.set ((w.operation o).slot sha256)
          (receipt, reads.now) } := by
  obtain ⟨r, found, describes, _⟩ := has.record
  simp only [LedgerCall.applyUnbounded, found, describes.operation, describes.tool, describes.hash]
  rfl

theorem Wrote.committed {receipt : Json} (has : ledger.Has w o .submitted)
    (own : ∀ other ≠ o, (w.operation other).slot sha256 ≠ (w.operation o).slot sha256) :
    Wrote w o (.committed receipt) ledger
      ((LedgerCall.committed (w.callId o) receipt).applyUnbounded sha256 ledger reads) := by
  obtain ⟨r, found, describes, _⟩ := has.record
  rw [has.commit]
  constructor
  · refine .intro (r := { r with
      status := .committed, executionReceipt := some receipt, updatedAt := reads.wall }) ?_
      ⟨describes.operation, describes.tool, describes.hash⟩ (.inl rfl) ?_
    · simp [updateRecord, found]
    · simp [Stage.receipt]
  · intro other ne stage
    refine Has.congr ?_ (Dict.get_set_ne _ _ (own other ne))
    exact Dict.get_modify_ne _ _ fun same => ne (w.callId_injective same)

theorem Wrote.event {event : LifecycleEvent Json Id} (has : ledger.Has w event.target stage)
    (allowed : stage.Allows event.call) (fine : ¬stage.Clashes event.call)
    (own : ∀ receipt, event.call = .committed receipt → ∀ other ≠ event.target,
      (w.operation other).slot sha256 ≠ (w.operation event.target).slot sha256) :
    Wrote w event.target (stage.after event.call) ledger
      ((event.inProcess w).applyUnbounded sha256 ledger event.reads) := by
  obtain ⟨reads, o, call⟩ := event
  cases call with
  | register => exact .register has
  | validated =>
      refine .update has (fun r => ?_) (fun r shows => ?_) ?_ ?_
      · split <;> exact ⟨rfl, rfl, rfl, rfl⟩
      · cases stage with
        | opened =>
            split
            · exact .inr rfl
            · exact shows
        | unknown => exact shows.elim
        | submitted | unresolved | failed =>
            rw [if_neg (by simp [show r.status = _ from shows])]
            exact shows
        | committed receipt =>
            rw [if_neg (by rcases shows with status | status <;> simp [status])]
            exact shows
      · rintro rfl
        rfl
      · cases stage <;> rfl
  | submitted =>
      cases stage with
      | opened => exact .update has (fun _ => ⟨rfl, rfl, rfl, rfl⟩) (fun _ _ => rfl) nofun rfl
      | unknown | submitted | unresolved | failed | committed => exact allowed.elim
  | committed receipt =>
      cases stage with
      | submitted => exact .committed has (own receipt rfl)
      | unknown | opened | unresolved | failed | committed => exact allowed.elim
  | indeterminate reason =>
      cases stage with
      | opened | submitted | unresolved | failed =>
          exact .update has (fun _ => ⟨rfl, rfl, rfl, rfl⟩) (fun _ _ => rfl) nofun rfl
      | unknown => exact allowed.elim
      | committed receipt => exact absurd trivial fine
  | failed message =>
      cases stage with
      | opened | unresolved | failed =>
          exact .update has (fun _ => ⟨rfl, rfl, rfl, rfl⟩) (fun _ _ => rfl) nofun rfl
      | committed receipt =>
          exact .update has (fun _ => ⟨rfl, rfl, rfl, rfl⟩) (fun _ _ => .inr rfl) nofun rfl
      | unknown => exact allowed.elim
      | submitted => exact absurd trivial fine

/-- Every record is that of an operation of the workload. -/
def Known (ledger : ToolExecutionLedger Json) (w : Workload Json Id sha256) : Prop :=
  ∀ id r, ledger.recordsByCallId.get id = some r →
    ∃ o, id = w.callId o ∧ r.Describes sha256 (w.operation o)

theorem Known.event (known : ledger.Known w) (event : LifecycleEvent Json Id) :
    ((event.inProcess w).apply sha256 ledger event.reads).Known w := by
  intro id r found
  rcases LedgerCall.record_of_apply found with ⟨old, before, same⟩ | fresh
  · obtain ⟨o, rfl, describes⟩ := known id old before
    exact ⟨o, rfl, same.operation.trans describes.operation, same.tool.trans describes.tool,
      same.hash.trans describes.hash⟩
  · obtain ⟨op, tool, arguments, registers, _, operation, name, _, hash⟩ := fresh
    obtain ⟨reads, o, call⟩ := event
    cases call with
    | register =>
        cases registers
        exact ⟨o, rfl, operation, name, hash⟩
    | validated | submitted | committed | indeterminate | failed => cases registers

end ToolExecutionLedger

namespace ToolExecutionLedger

variable {ledger : ToolExecutionLedger Json}

theorem Has.receipt_answer {now : Seconds} (has : ledger.Has w o stage)
    (honoured : ∀ entry, ledger.receiptsByOpHash.get ((w.operation o).slot sha256) = some entry →
      ledger.outlived (now - entry.2) = false) :
    ledger.checkIdempotency sha256 now (w.operation o).logicalOperationId (w.operation o).toolName
      (w.operation o).arguments = (stage.receipt.isSome, stage.receipt) := by
  rw [← has.receipt]
  simp only [checkIdempotency, ToolOperation.slot_eq]
  cases kept : ledger.receiptsByOpHash.get ((w.operation o).slot sha256) with
  | none => rfl
  | some entry => simp [honoured entry kept]

/-- No other record has the triple of an operation. -/
theorem Known.own {id : String} {r : ToolExecutionRecord Json} (known : ledger.Known w)
    (found : ledger.recordsByCallId.get id = some r) (describes : r.Describes sha256 (w.operation o)) :
    id = w.callId o := by
  obtain ⟨owner, rfl, describes'⟩ := known id r found
  refine congrArg w.callId (w.key_injective ?_)
  simp only [ToolOperation.key, ← describes.operation, ← describes.tool, ← describes.hash,
    ← describes'.operation, ← describes'.tool, ← describes'.hash]

theorem Known.flag_answer (known : ledger.Known w) :
    ledger.hasIndeterminateOperation sha256 (w.operation o).logicalOperationId
      (w.operation o).toolName (w.operation o).arguments =
      (ledger.recordsByCallId.get (w.callId o)).any (·.status.isUnknownOutcome) := by
  rw [Bool.eq_iff_iff]
  simp only [hasIndeterminateOperation, List.any_eq_true, decide_eq_true_eq, Dict.mem_values_iff,
    Option.any_eq_true]
  constructor
  · rintro ⟨r, ⟨id, found⟩, operation, tool, hash, unknown⟩
    obtain rfl := known.own found ⟨operation, tool, hash⟩
    exact ⟨r, found, unknown⟩
  · rintro ⟨r, found, unknown⟩
    obtain ⟨owner, same, describes⟩ := known _ r found
    obtain rfl := w.callId_injective same
    exact ⟨r, ⟨_, found⟩, describes.operation, describes.tool, describes.hash, unknown⟩

theorem Has.flag_answer (has : ledger.Has w o stage) (known : ledger.Known w) :
    ledger.hasIndeterminateOperation sha256 (w.operation o).logicalOperationId
      (w.operation o).toolName (w.operation o).arguments = stage.unsettled := by
  rw [known.flag_answer]
  cases found : ledger.recordsByCallId.get (w.callId o) with
  | none =>
      obtain rfl := has.absent found
      rfl
  | some r =>
      have shows := (has.found found).2
      cases stage with
      | unknown => exact shows.elim
      | opened | committed =>
          rcases shows with status | status <;>
            simp [status, Stage.unsettled, ToolExecutionStatus.isUnknownOutcome]
      | submitted | unresolved | failed =>
          simp [show r.status = _ from shows, Stage.unsettled, ToolExecutionStatus.isUnknownOutcome]

end ToolExecutionLedger

/-! ## In step -/

theorem Twins.perform_responds {t : Twins Json Payload} {event : LifecycleEvent Json Id}
    (remembers : t.durable.Remembers w) (has : t.durable.db.Has w event.target stage) :
    LedgerSystem.Responds w event.target stage event.call t.durable (t.perform w event) := by
  obtain ⟨reads, o, call⟩ := event
  have responds : LedgerSystem.Responds w o stage call { t.durable with reads }
      (t.perform w ⟨reads, o, call⟩) := by
    cases call with
    | register => exact LedgerSystem.register_responds remembers has
    | validated => exact LedgerSystem.validated_responds remembers has
    | submitted => exact LedgerSystem.submitted_responds remembers has
    | committed receipt => exact LedgerSystem.committed_responds remembers has
    | indeterminate reason => exact LedgerSystem.indeterminate_responds remembers has
    | failed message => exact LedgerSystem.failed_responds remembers has
  exact ⟨responds.remembers, responds.database⟩

namespace Twins

/-- Every operation is at the same stage in both ledgers. -/
structure InStep (t : Twins Json Payload) (w : Workload Json Id sha256) : Prop where
  paired : ∀ o, ∃ stage, t.durable.db.Has w o stage ∧ t.inProcess.Has w o stage
  remembers : t.durable.Remembers w
  known : t.inProcess.Known w

variable {t : Twins Json Payload} {event : LifecycleEvent Json Id}

theorem InStep.start (ownerId : String) (leaseTtlSeconds : Seconds) (maxRecords : Nat)
    (ttlSeconds : Option Seconds) :
    (start ownerId leaseTtlSeconds maxRecords ttlSeconds : Twins Json Payload).InStep w where
  paired _ := ⟨.unknown, ⟨rfl, rfl⟩, ⟨rfl, rfl⟩⟩
  remembers _ _ found := by cases found
  known _ _ found := by cases found

theorem InStep.agree (inStep : t.InStep w) : t.Agree w := by
  intro o
  obtain ⟨stage, durable, inProcess⟩ := inStep.paired o
  constructor
  · intro now honours
    rw [durable.receipt_answer, inProcess.receipt_answer honours]
  · rw [durable.flag_answer, inProcess.flag_answer inStep.known]

theorem step_rejected {e : LedgerError} (raised : (t.perform w event).1 = .raised e) :
    t.step w event = { t with durable := (t.perform w event).2 } := by
  unfold step
  split
  · next durable answered => rw [answered]
  · next answer durable other answered =>
    rw [answered] at raised
    exact absurd raised (other e)

theorem step_accepted (accepts : t.Accepts w event) :
    t.step w event = ⟨(t.perform w event).2,
      (event.inProcess w).apply sha256 t.inProcess event.reads⟩ := by
  unfold step
  split
  · next e durable answered =>
    refine absurd ?_ (accepts e)
    rw [answered]
  · next answer durable other answered => rw [answered]

theorem diverges_of_clash (accepts : t.Accepts w event)
    (durable : t.durable.db.Has w event.target stage) (clash : stage.Clashes event.call) :
    t.Diverges w event := by
  refine ⟨accepts, ?_⟩
  obtain ⟨reads, o, call⟩ := event
  cases call with
  | failed message =>
      cases stage with
      | submitted =>
          obtain ⟨row, _, located, _, status⟩ := durable
          exact (congrArg (Option.map OperationRow.status) located).trans (congrArg some status)
      | unknown | opened | unresolved | failed | committed => exact clash.elim
  | indeterminate reason =>
      cases stage with
      | committed receipt =>
          obtain ⟨row, _, located, _, status, _⟩ := durable
          exact (congrArg (Option.map OperationRow.status) located).trans (congrArg some status)
      | unknown | opened | submitted | unresolved | failed => exact clash.elim
  | register | validated | submitted | committed => cases stage <;> exact clash.elim

theorem InStep.step (inStep : t.InStep w) (unevicted : t.Unevicted w event)
    (fine : ¬t.Diverges w event) : (t.step w event).InStep w := by
  obtain ⟨stage, durable, inProcess⟩ := inStep.paired event.target
  obtain ⟨remembers, ⟨e, raised, same⟩ | ⟨accepts, allowed, wrote⟩⟩ :=
    perform_responds inStep.remembers durable
  · rw [step_rejected raised]
    refine ⟨fun o => ?_, remembers, inStep.known⟩
    obtain ⟨stage, durable, inProcess⟩ := inStep.paired o
    exact ⟨stage, same.symm ▸ durable, inProcess⟩
  · have followed : ToolExecutionLedger.Wrote w event.target (stage.after event.call) t.inProcess
        ((event.inProcess w).apply sha256 t.inProcess event.reads) := by
      rw [show _ = _ from unevicted]
      refine .event inProcess allowed (fun clash => fine (diverges_of_clash accepts durable clash)) ?_
      intro receipt committed other ne shared
      refine fine ⟨accepts, ?_⟩
      rw [committed]
      exact ⟨other, ne, shared⟩
    rw [step_accepted accepts]
    refine ⟨fun o => ?_, remembers, inStep.known.event event⟩
    by_cases target : o = event.target
    · subst target
      exact ⟨_, wrote.target, followed.target⟩
    · obtain ⟨stage, durable, inProcess⟩ := inStep.paired o
      exact ⟨stage, wrote.others o target stage durable, followed.others o target stage inProcess⟩

/-- A ledger that honours receipts at all honours each for a while. -/
theorem exists_honours (t : Twins Json Payload) (w : Workload Json Id sha256) (o : Id) :
    ∃ now, t.Honours w o now := by
  cases kept : t.inProcess.receiptsByOpHash.get ((w.operation o).slot sha256) with
  | none =>
      refine ⟨0, fun entry found => ?_⟩
      rw [kept] at found
      cases found
  | some entry =>
      refine ⟨entry.2 + t.inProcess.ttlSeconds.getD 0, fun other found => ?_⟩
      obtain rfl := Option.some.inj (kept.symm.trans found)
      unfold ToolExecutionLedger.outlived
      split
      · rfl
      · next ttl configured => simp [configured]

/-- The receipt of one operation answers for another with the same slot. -/
theorem InStep.shared_slot_disagrees {reads : LedgerReads} {other : Id} {receipt : Json}
    {durable : LedgerSystem Json Payload} (inStep : t.InStep w)
    (inProcess : t.inProcess.Has w o .submitted)
    (same : ∀ stage, t.durable.db.Has w other stage → durable.db.Has w other stage)
    (shared : (w.operation other).slot sha256 = (w.operation o).slot sha256) :
    ¬Agree w ⟨durable,
      (LedgerCall.committed (w.callId o) receipt).applyUnbounded sha256 t.inProcess reads⟩ := by
  intro agree
  obtain ⟨stage, others, theirs⟩ := inStep.paired other
  have empty : stage.receipt = none := by
    rw [← theirs.receipt, shared, inProcess.receipt]
    rfl
  rw [inProcess.commit] at agree
  obtain ⟨now, honours⟩ := exists_honours _ w other
  have answer := (agree other).1 now honours
  rw [(same stage others).receipt_answer, empty] at answer
  simp only [Honours, shared, Dict.get_set_self, Option.some.injEq, forall_eq'] at honours
  simp [ToolExecutionLedger.checkIdempotency, ToolOperation.slot_eq, shared, honours] at answer

/-- A failure settles a submitted operation for the in-process ledger only. -/
theorem InStep.failed_disagrees {reads : LedgerReads} {message : String}
    {durable : LedgerSystem Json Payload} (inStep : t.InStep w)
    (inProcess : t.inProcess.Has w o .submitted) (stays : durable.db.Has w o .submitted) :
    ¬Agree w ⟨durable, t.inProcess.markFailed reads (w.callId o) message⟩ := by
  intro agree
  have known : (t.inProcess.markFailed reads (w.callId o) message).Known w :=
    inStep.known.event ⟨reads, o, .failed message⟩
  obtain ⟨r, found, _⟩ := inProcess.record
  have flag := (agree o).2
  rw [stays.flag_answer, known.flag_answer] at flag
  simp [ToolExecutionLedger.markFailed, ToolExecutionLedger.updateRecord, found, Stage.unsettled,
    ToolExecutionStatus.isUnknownOutcome] at flag

/-- A lost acknowledgement unsettles a committed operation for the in-process
    ledger only. -/
theorem InStep.indeterminate_disagrees {reads : LedgerReads} {reason : String} {receipt : Json}
    {durable : LedgerSystem Json Payload} (inStep : t.InStep w)
    (inProcess : t.inProcess.Has w o (.committed receipt))
    (stays : durable.db.Has w o (.committed receipt)) :
    ¬Agree w ⟨durable, t.inProcess.markIndeterminate reads (w.callId o) reason⟩ := by
  intro agree
  have known : (t.inProcess.markIndeterminate reads (w.callId o) reason).Known w :=
    inStep.known.event ⟨reads, o, .indeterminate reason⟩
  obtain ⟨r, found, _⟩ := inProcess.record
  have flag := (agree o).2
  rw [stays.flag_answer, known.flag_answer] at flag
  simp [ToolExecutionLedger.markIndeterminate, ToolExecutionLedger.updateRecord, found,
    Stage.unsettled, ToolExecutionStatus.isUnknownOutcome] at flag

/-- The step lemma for the other direction. -/
theorem InStep.disagree (inStep : t.InStep w) (unevicted : t.Unevicted w event)
    (diverges : t.Diverges w event) : ¬(t.step w event).Agree w := by
  obtain ⟨accepts, part⟩ := diverges
  obtain ⟨stage, durable, inProcess⟩ := inStep.paired event.target
  obtain ⟨_, ⟨e, raised, _⟩ | ⟨_, allowed, wrote⟩⟩ := perform_responds inStep.remembers durable
  · exact absurd raised (accepts e)
  rw [step_accepted accepts, show _ = _ from unevicted]
  obtain ⟨reads, o, call⟩ := event
  cases call with
  | register | validated | submitted => exact part.elim
  | failed message =>
      obtain ⟨row, status, shows⟩ := durable.shows_of_status part
      cases stage with
      | submitted => exact inStep.failed_disagrees inProcess wrote.target
      | unknown => exact shows.elim
      | opened | unresolved | failed | committed => simp [OperationRow.Shows, status] at shows
  | indeterminate reason =>
      obtain ⟨row, status, shows⟩ := durable.shows_of_status part
      cases stage with
      | committed receipt => exact inStep.indeterminate_disagrees inProcess wrote.target
      | unknown => exact shows.elim
      | opened | submitted | unresolved | failed => simp [OperationRow.Shows, status] at shows
  | committed receipt =>
      obtain ⟨other, ne, shared⟩ := part
      cases stage with
      | submitted => exact inStep.shared_slot_disagrees inProcess (wrote.others other ne) shared
      | unknown | opened | unresolved | failed | committed => exact allowed.elim

end Twins

/-- On distinct operations, and as long as nothing is evicted, the two ledgers
    agree after every call exactly when no accepted call marks a submitted
    operation failed or a committed one indeterminate, and none commits an
    operation that shares its receipt slot with another. -/
theorem ledgers_agree_iff (w : Workload Json Id sha256) (ownerId : String)
    (leaseTtlSeconds : Seconds) (maxRecords : Nat) (ttlSeconds : Option Seconds)
    (events : List (LifecycleEvent Json Id))
    (unevicted : Twins.Along w (Twins.Unevicted w)
      (Twins.start ownerId leaseTtlSeconds maxRecords ttlSeconds : Twins Json Payload) events) :
    (∀ n, ((Twins.start ownerId leaseTtlSeconds maxRecords ttlSeconds :
        Twins Json Payload).run w (events.take n)).Agree w) ↔
      Twins.Along w (fun t event => ¬t.Diverges w event)
        (Twins.start ownerId leaseTtlSeconds maxRecords ttlSeconds : Twins Json Payload) events := by
  have inStep : (Twins.start ownerId leaseTtlSeconds maxRecords ttlSeconds :
      Twins Json Payload).InStep w := .start ownerId leaseTtlSeconds maxRecords ttlSeconds
  generalize (Twins.start ownerId leaseTtlSeconds maxRecords ttlSeconds : Twins Json Payload) = t
    at inStep unevicted ⊢
  induction events generalizing t with
  | nil =>
      simp only [List.take_nil, Twins.Along, iff_true]
      exact fun _ => inStep.agree
  | cons event events ih =>
      obtain ⟨here, later⟩ := unevicted
      constructor
      · intro agree
        have fine : ¬t.Diverges w event := fun diverges =>
          inStep.disagree here diverges (agree 1)
        exact ⟨fine, (ih _ (inStep.step here fine) later).mp fun n => agree (n + 1)⟩
      · rintro ⟨fine, rest⟩ n
        cases n with
        | zero => exact inStep.agree
        | succ n => exact (ih _ (inStep.step here fine) later).mpr rest n

private def twoDeploysSha256 (text : String) : String :=
  if text = "operation-2\x1fdeploy\x1f" ++
      "6bc0da1f42f96fc37b8bd7ed20ba57606d2a0da5cda2b135c7854fbdc985b8a3" then
    "cdf838c5435bcd8d60681e56a7b91f9ab05eb5b4b5288f7958a88c66107d4277"
  else sampleSha256 text

private def twoDeploys : Workload OkObject Bool twoDeploysSha256 where
  callId second := if second then "call-2" else "call-1"
  operation second := ⟨if second then "operation-2" else "operation-1", "deploy", ⟨true⟩⟩
  callId_injective := by
    intro first second
    cases first <;> cases second <;> decide
  key_injective := by
    intro first second
    cases first <;> cases second <;> decide +kernel

private def freshTwins : Twins OkObject Unit := .start "ledger" 30 10000 (some 3600)

private def oneCommitsOneFails : List (LifecycleEvent OkObject Bool) :=
  [⟨⟨0, 0, 0⟩, false, .register⟩, ⟨⟨1, 1, 1⟩, false, .submitted⟩, ⟨⟨2, 2, 2⟩, true, .register⟩,
    ⟨⟨3, 3, 3⟩, false, .committed ⟨true⟩⟩, ⟨⟨4, 4, 4⟩, true, .failed "refused"⟩]

theorem ledgers_agree_two_deploys :
    (freshTwins.run twoDeploys (oneCommitsOneFails.take 5)).Agree twoDeploys := by
  refine (ledgers_agree_iff twoDeploys "ledger" 30 10000 (some 3600) oneCommitsOneFails
    ⟨by decide +kernel, by decide +kernel, by decide +kernel, by decide +kernel,
      by decide +kernel, trivial⟩).mpr ?_ 5
  refine ⟨fun d => d.2, fun d => d.2, fun d => d.2, ?_, ?_, trivial⟩
  · rintro ⟨_, shared⟩
    revert shared
    decide +kernel
  · rintro ⟨_, submitted⟩
    revert submitted
    decide +kernel

private def submittedFails : List (LifecycleEvent OkObject Bool) :=
  [⟨⟨0, 0, 0⟩, false, .register⟩, ⟨⟨1, 1, 1⟩, false, .submitted⟩,
    ⟨⟨2, 2, 2⟩, false, .failed "tool error"⟩]

/-- Register, submit, fail: the durable ledger still asks for a resolution, the
    in-process one does not. -/
theorem submitted_failure_parts_ledgers :
    ¬ ∀ events : List (LifecycleEvent OkObject Bool),
        Twins.Along twoDeploys (Twins.Unevicted twoDeploys) freshTwins events →
        (freshTwins.run twoDeploys events).Agree twoDeploys := by
  intro claim
  have agree := claim submittedFails
    ⟨by decide +kernel, by decide +kernel, by decide +kernel, trivial⟩
  exact absurd (agree false).2 (by decide +kernel)

end DuraLLM
