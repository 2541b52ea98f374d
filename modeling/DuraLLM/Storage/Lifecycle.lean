import DuraLLM.Storage.Transactions

/-! # An operation after its submission

Once an operation is submitted its external effect may have happened.  From
then on the store should either hold its receipt or ask for a manual
resolution.  One transition steps out of that: `mark_operation_failed` refuses
to touch a committed or a submitted operation, but not an indeterminate one.
-/

namespace DuraLLM

variable {Json Payload : Type} [JsonCodec Json] (sha256 : String → String)

/-- A run of the store is a list of calls with their clock readings. -/
abbrev StoreRun (Json Payload : Type) := List (StoreReads × StoreCall Json Payload)

namespace Database

def run (db : Database Json Payload) (calls : StoreRun Json Payload) : Database Json Payload :=
  calls.foldl (fun db call => call.2.after sha256 call.1 db) db

def statusOf (db : Database Json Payload) (key : String) : Option ToolExecutionStatus :=
  (db.operations.get key).map (·.status)

/-- The operation is committed with a receipt, or its outcome is to be resolved
    by hand. -/
def Accounted (db : Database Json Payload) (key : String) : Prop :=
  ∃ row, db.operations.get key = some row ∧
    ((row.status = .committed ∧ row.executionReceiptJson.isSome) ∨
      operationRequiresManualResolution (operationFromRow key row) = true)

/-- The call marks an indeterminate operation failed. -/
def WritesOff (db : Database Json Payload) (key : String) : StoreCall Json Payload → Prop
  | .markOperationFailed id _ => db.keyOf id = some key ∧ db.statusOf key = some .indeterminate
  | _ => False

/-- No call of the run does. -/
def NeverWritesOff (db : Database Json Payload) (key : String) : StoreRun Json Payload → Prop
  | [] => True
  | call :: calls =>
      ¬db.WritesOff key call.2 ∧ (call.2.after sha256 call.1 db).NeverWritesOff key calls

instance (db : Database Json Payload) (key : String) :
    (call : StoreCall Json Payload) → Decidable (db.WritesOff key call)
  | .markOperationFailed id _ => inferInstanceAs
      (Decidable (db.keyOf id = some key ∧ db.statusOf key = some .indeterminate))
  | .loadSession .. | .createSession .. | .saveSession .. | .acquireLease .. | .releaseLease ..
  | .operationForCall .. | .operationForKey .. | .prepareOperation ..
  | .markOperationValidated .. | .markOperationSubmitted .. | .markOperationCommitted ..
  | .markOperationIndeterminate .. | .recoverInflightOperations .. =>
      inferInstanceAs (Decidable False)

instance decidableNeverWritesOff (db : Database Json Payload) (key : String) :
    (calls : StoreRun Json Payload) → Decidable (db.NeverWritesOff sha256 key calls)
  | [] => inferInstanceAs (Decidable True)
  | call :: calls =>
      have := decidableNeverWritesOff (call.2.after sha256 call.1 db) key calls
      inferInstanceAs (Decidable (_ ∧ _))

end Database

/-- The states an operation stays in after its submission. -/
def OperationRow.Dispatched (row : OperationRow Json) : Prop :=
  row.status = .submitted ∨ row.status = .indeterminate ∨
    (row.status = .committed ∧ row.executionReceiptJson.isSome)

theorem OperationRow.Dispatched.accounted {db : Database Json Payload} {key : String}
    {row : OperationRow Json} (dispatched : row.Dispatched)
    (located : db.operations.get key = some row) : db.Accounted key := by
  refine ⟨row, located, ?_⟩
  rcases dispatched with status | status | settled
  · exact .inr (by simp [operationRequiresManualResolution, operationFromRow, status,
      ToolExecutionStatus.isUnknownOutcome])
  · exact .inr (by simp [operationRequiresManualResolution, operationFromRow, status,
      ToolExecutionStatus.isUnknownOutcome])
  · exact .inl settled

variable {sha256} {db : Database Json Payload} {key : String} {row : OperationRow Json}

/-- The step lemma: only writing the operation off leaves `Dispatched`. -/
theorem RowChange.dispatched {reads : StoreReads} {call : StoreCall Json Payload}
    {row' : OperationRow Json} (change : RowChange reads db key row call row')
    (located : db.operations.get key = some row) (spared : ¬db.WritesOff key call)
    (dispatched : row.Dispatched) : row'.Dispatched := by
  cases change with
  | kept => exact dispatched
  | validated bound was => simp [OperationRow.Dispatched, was] at dispatched
  | submitted bound was => exact .inl rfl
  | committed bound was => exact .inr (.inr ⟨rfl, rfl⟩)
  | indeterminate bound was => exact .inr (.inl rfl)
  | failed bound was =>
      rcases dispatched with status | status | settled
      · exact absurd status was.2
      · refine absurd ⟨bound, ?_⟩ spared
        rw [Database.statusOf, located, Option.map_some, status]
      · exact absurd settled.1 was.1
  | recovered was => exact .inr (.inl rfl)

theorem failed_not_accounted (failed : db.statusOf key = some .failed) : ¬db.Accounted key := by
  rintro ⟨row, located, accounted⟩
  simp only [Database.statusOf, located, Option.map_some, Option.some.injEq] at failed
  simp [operationRequiresManualResolution, operationFromRow, failed,
    ToolExecutionStatus.isUnknownOutcome] at accounted

theorem writesOff_fails {reads : StoreReads} {call : StoreCall Json Payload}
    (off : db.WritesOff key call) : (call.after sha256 reads db).statusOf key = some .failed := by
  cases call with
  | markOperationFailed id reason =>
      obtain ⟨bound, status⟩ := off
      simp only [Database.statusOf, Option.map_eq_some_iff] at status
      obtain ⟨row, located, status⟩ := status
      simp [Database.statusOf, StoreCall.after, StoreCall.perform, StoreCall.rollback,
        Database.markOperationFailed, Database.operationForCall_of_row bound located,
        operationFromRow, status, Database.updateOperation_get _ located]
  | _ => exact off.elim

private theorem accounted_iff_of_dispatched (located : db.operations.get key = some row)
    (dispatched : row.Dispatched) (calls : StoreRun Json Payload) :
    (∀ n, (db.run sha256 (calls.take n)).Accounted key) ↔ db.NeverWritesOff sha256 key calls := by
  induction calls generalizing db row with
  | nil =>
      simp only [List.take_nil, Database.NeverWritesOff, iff_true]
      exact fun _ => dispatched.accounted located
  | cons call calls ih =>
      simp only [Database.NeverWritesOff]
      constructor
      · intro always
        have spared : ¬db.WritesOff key call.2 := by
          intro off
          exact failed_not_accounted (writesOff_fails off) (always 1)
        obtain ⟨row', located', change⟩ :=
          (call.2.outcome sha256 call.1 db).row_change located
        refine ⟨spared, (ih located' (change.dispatched located spared dispatched)).mp ?_⟩
        intro n
        exact always (n + 1)
      · rintro ⟨spared, rest⟩ n
        obtain ⟨row', located', change⟩ :=
          (call.2.outcome sha256 call.1 db).row_change located
        cases n with
        | zero => exact dispatched.accounted located
        | succ n => exact (ih located' (change.dispatched located spared dispatched)).mpr rest n

/-- From a submitted operation on, the store accounts for it at every moment of
    a run exactly when no call of the run marks it failed while it is
    indeterminate. -/
theorem submitted_accounted_iff (db : Database Json Payload) (key : String)
    (submitted : db.statusOf key = some .submitted) (calls : StoreRun Json Payload) :
    (∀ n, (db.run sha256 (calls.take n)).Accounted key) ↔ db.NeverWritesOff sha256 key calls := by
  simp only [Database.statusOf, Option.map_eq_some_iff] at submitted
  obtain ⟨row, located, status⟩ := submitted
  exact accounted_iff_of_dispatched located (.inl status) calls

private def deployHash : String := computeArgumentsHash sampleSha256 (⟨true⟩ : OkObject)

private def deployKey : String := operationKey sampleSha256 "operation-1" "deploy" deployHash

private def atStart : StoreReads := ⟨0, 0⟩

private def deploySubmitted : StoreRun OkObject Unit :=
  [(atStart, .prepareOperation "call-1" "operation-1" "deploy" deployHash ⟨true⟩),
    (atStart, .markOperationSubmitted "call-1" "worker" 30)]

private def recoveredAndMarked : StoreRun OkObject Unit :=
  [(atStart, .recoverInflightOperations "restart"),
    (atStart, .prepareOperation "call-2" "operation-1" "deploy" deployHash ⟨true⟩),
    (atStart, .markOperationIndeterminate "call-2" "lost")]

theorem submitted_accounted_after_recovery :
    ((({} : Database OkObject Unit).run sampleSha256 deploySubmitted).run sampleSha256
      (recoveredAndMarked.take 3)).Accounted deployKey :=
  (submitted_accounted_iff _ deployKey (by decide +kernel) recoveredAndMarked).mpr
    (by decide +kernel) 3

/-- Submit, recover, fail: the operation ends as plainly failed. -/
theorem recovered_operation_written_off :
    ¬ ∀ (calls : StoreRun OkObject Unit) (key : String) (n m : Nat), n ≤ m →
        (({} : Database OkObject Unit).run sampleSha256 (calls.take n)).statusOf key =
          some .submitted →
        (({} : Database OkObject Unit).run sampleSha256 (calls.take m)).Accounted key := by
  intro claim
  refine failed_not_accounted ?_ (claim
    (deploySubmitted ++ [(atStart, .recoverInflightOperations "restart"),
      (atStart, .markOperationFailed "call-1" "tool error")]) deployKey 2 4 (by decide) ?_)
  · decide +kernel
  · decide +kernel

end DuraLLM
