import DuraLLM.Storage.Cluster
import Mathlib.Data.List.Infix

/-! # Committed operations in the cluster store

A committed operation is looked up by its key, then by the call id that was
prepared under this key last.  A later `prepare_operation` may move the key to
another call id, or put a fresh operation under the call id, and then the
receipt is out of sight.  The calls that do so are named, and a run keeps its
receipts exactly when it has none of them.
-/

namespace DuraLLM

variable {Json : Type}

structure OperationTriple where
  logicalOperationId : String
  toolName : String
  argumentsHash : String
  deriving DecidableEq

def OperationTriple.key (t : OperationTriple) : String :=
  ToolExecutionLedger.opKey t.logicalOperationId t.toolName t.argumentsHash

theorem OperationTriple.opKey_eq (t : OperationTriple) :
    ToolExecutionLedger.opKey t.logicalOperationId t.toolName t.argumentsHash = t.key := rfl

def ClusterOperation.triple (op : ClusterOperation Json) : OperationTriple :=
  ⟨op.logicalOperationId, op.toolName, op.argumentsHash⟩

/-- The calls on operations, with any hash. -/
inductive ReceiptCall (Json : Type) where
  | prepareOperation (toolCallId : String) (triple : OperationTriple) (arguments : Json)
  | commitReceipt (toolCallId : String) (receipt : Json)

def ReceiptCall.apply (store : ClusterStore Json) (now : Seconds) :
    ReceiptCall Json → ClusterStore Json
  | .prepareOperation id t arguments =>
      (store.prepareOperation now id t.logicalOperationId t.toolName t.argumentsHash arguments).2
  | .commitReceipt id receipt => (store.commitReceipt now id receipt).2

/-- A run from an empty store: its calls with their clock readings. -/
abbrev ReceiptRun (Json : Type) := List (Seconds × ReceiptCall Json)

namespace ReceiptRun

def store (calls : ReceiptRun Json) : ClusterStore Json :=
  calls.foldl (fun store call => call.2.apply store call.1) {}

@[simp] theorem store_snoc (calls : ReceiptRun Json) (call : Seconds × ReceiptCall Json) :
    store (calls ++ [call]) = call.2.apply (store calls) call.1 := by
  simp [store]

/-- A `commit_receipt` of the run found an operation with this triple. -/
def Committed (calls : ReceiptRun Json) (triple : OperationTriple) (receipt : Json) : Prop :=
  ∃ before now id after op, calls = before ++ (now, .commitReceipt id receipt) :: after ∧
    (store before).operations.get id = some op ∧ op.triple = triple

end ReceiptRun

namespace ClusterStore

/-- The operation that is found for the triple is committed with the receipt. -/
def Answers (store : ClusterStore Json) (triple : OperationTriple) (receipt : Json) : Prop :=
  ∃ op, store.operationForKey triple.logicalOperationId triple.toolName triple.argumentsHash =
      some op ∧ op.status = .committed ∧ op.executionReceipt = some receipt

/-- A key leads to its operation through a call id. -/
theorem operationForKey_eq_some {store : ClusterStore Json} {triple : OperationTriple}
    {op : ClusterOperation Json} :
    store.operationForKey triple.logicalOperationId triple.toolName triple.argumentsHash = some op ↔
      ∃ id, store.keyToOp.get triple.key = some id ∧ id ≠ "" ∧
        store.operations.get id = some op := by
  unfold operationForKey OperationTriple.key
  constructor
  · intro found
    split at found
    · next id indexed =>
        split at found
        · next named => exact ⟨id, indexed, named, found⟩
        · cases found
    · cases found
  · rintro ⟨id, indexed, named, found⟩
    simp only [indexed, if_pos named, found]

theorem answers_iff {store : ClusterStore Json} {triple : OperationTriple} {receipt : Json} :
    store.Answers triple receipt ↔
      ∃ id op, store.keyToOp.get triple.key = some id ∧ id ≠ "" ∧
        store.operations.get id = some op ∧ op.status = .committed ∧
        op.executionReceipt = some receipt := by
  constructor
  · rintro ⟨op, found, committed, carries⟩
    obtain ⟨id, indexed, named, stored⟩ := operationForKey_eq_some.mp found
    exact ⟨id, op, indexed, named, stored, committed, carries⟩
  · rintro ⟨id, op, indexed, named, stored, committed, carries⟩
    exact ⟨op, operationForKey_eq_some.mpr ⟨id, indexed, named, stored⟩, committed, carries⟩

variable {store : ClusterStore Json} {now : Seconds} {triple committed : OperationTriple}
  {receipt kept : Json} {id : String}

/-- A prepared operation hides the receipts of its key and of its call id. -/
theorem answers_prepareOperation {arguments : Json} :
    ((ReceiptCall.prepareOperation id triple arguments).apply store now).Answers committed kept ↔
      committed.key ≠ triple.key ∧ store.keyToOp.get committed.key ≠ some id ∧
        store.Answers committed kept := by
  simp only [answers_iff, ReceiptCall.apply, prepareOperation, Dict.get_set,
    OperationTriple.opKey_eq]
  constructor
  · rintro ⟨found, op, indexed, named, stored, status, carries⟩
    -- The fresh operation is not committed, so it is not the one that is found.
    have other : found ≠ id := by
      rintro rfl
      rw [if_pos rfl] at stored
      cases stored
      cases status
    have otherKey : committed.key ≠ triple.key := by
      intro same
      rw [if_pos same] at indexed
      exact other (Option.some.inj indexed).symm
    rw [if_neg otherKey] at indexed
    rw [if_neg other] at stored
    refine ⟨otherKey, ?_, found, op, indexed, named, stored, status, carries⟩
    rw [indexed]
    exact fun same => other (Option.some.inj same)
  · rintro ⟨otherKey, otherId, found, op, indexed, answers⟩
    have other : found ≠ id := by
      rintro rfl
      exact otherId indexed
    refine ⟨found, op, (if_neg otherKey).trans indexed, ?_⟩
    rwa [if_neg other]

/-- A committed receipt is found if its key leads to it, and it replaces what was
    found through its call id. -/
theorem answers_commitReceipt {op : ClusterOperation Json}
    (prepared : store.operations.get id = some op) :
    ((ReceiptCall.commitReceipt id receipt).apply store now).Answers committed kept ↔
      (store.keyToOp.get committed.key = some id ∧ id ≠ "" ∧ kept = receipt) ∨
        (store.keyToOp.get committed.key ≠ some id ∧ store.Answers committed kept) := by
  simp only [answers_iff, ReceiptCall.apply, commitReceipt, prepared, Dict.get_set]
  constructor
  · rintro ⟨found, op', indexed, named, stored, answer⟩
    by_cases same : found = id
    · subst same
      rw [if_pos rfl] at stored
      cases stored
      exact .inl ⟨indexed, named, (Option.some.inj answer.2).symm⟩
    · rw [if_neg same] at stored
      refine .inr ⟨?_, found, op', indexed, named, stored, answer⟩
      rw [indexed]
      exact fun leads => same (Option.some.inj leads)
  · rintro (⟨leads, named, rfl⟩ | ⟨other, found, op', indexed, answer⟩)
    · exact ⟨id, _, leads, named, if_pos rfl, rfl, rfl⟩
    · have apart : found ≠ id := by
        rintro rfl
        exact other indexed
      refine ⟨found, op', indexed, ?_⟩
      rwa [if_neg apart]

theorem Answers.named (answers : store.Answers triple receipt)
    (leads : store.keyToOp.get triple.key = some id) : id ≠ "" := by
  obtain ⟨found, op, indexed, named, _⟩ := answers_iff.mp answers
  cases leads.symm.trans indexed
  exact named

theorem apply_commitReceipt_of_none (absent : store.operations.get id = none) :
    (ReceiptCall.commitReceipt id receipt).apply store now = store := by
  simp only [ReceiptCall.apply, commitReceipt, absent]

end ClusterStore

namespace ReceiptRun

/-- Every receipt of the run is found under the operation it was committed for. -/
def KeepsReceipts (calls : ReceiptRun Json) : Prop :=
  ∀ triple receipt, calls.Committed triple receipt → (store calls).Answers triple receipt

/-- A key under which a receipt was committed is not prepared again, nor is the
    call id it leads to; and a receipt is committed through the call id that its
    key leads to, which has no other receipt yet, or over an equal receipt. -/
def Spares (before : ReceiptRun Json) : ReceiptCall Json → Prop
  | .prepareOperation id triple _ =>
      ∀ committed receipt, before.Committed committed receipt →
        committed.key ≠ triple.key ∧ (store before).keyToOp.get committed.key ≠ some id
  | .commitReceipt id receipt =>
      ∀ op, (store before).operations.get id = some op →
        ((store before).keyToOp.get op.triple.key = some id ∧ id ≠ "" ∨
          (store before).Answers op.triple receipt) ∧
        ∀ committed kept, before.Committed committed kept →
          (store before).keyToOp.get committed.key = some id → kept = receipt

theorem Committed.snoc {calls : ReceiptRun Json} {triple : OperationTriple} {receipt : Json}
    (committed : calls.Committed triple receipt) (call : Seconds × ReceiptCall Json) :
    Committed (calls ++ [call]) triple receipt := by
  obtain ⟨before, now, id, after, op, rfl, found, same⟩ := committed
  exact ⟨before, now, id, after ++ [call], op, by simp, found, same⟩

/-- What the last call committed. -/
theorem committed_snoc {calls : ReceiptRun Json} {now : Seconds} {call : ReceiptCall Json}
    {triple : OperationTriple} {receipt : Json}
    (committed : Committed (calls ++ [(now, call)]) triple receipt) :
    calls.Committed triple receipt ∨
      ∃ id op, call = .commitReceipt id receipt ∧ (store calls).operations.get id = some op ∧
        op.triple = triple := by
  obtain ⟨before, then_, id, after, op, split, found, same⟩ := committed
  cases after using List.reverseRecOn with
  | nil =>
      obtain ⟨rfl, last⟩ := List.append_inj' split rfl
      cases last
      exact .inr ⟨id, op, rfl, found, same⟩
  | append_singleton after last =>
      rw [← List.cons_append, ← List.append_assoc] at split
      obtain ⟨rfl, -⟩ := List.append_inj' split rfl
      exact .inl ⟨before, then_, id, after, op, rfl, found, same⟩

/-! ## One call -/

variable {calls : ReceiptRun Json} {now : Seconds}

theorem keeps_prepareOperation_iff (kept : calls.KeepsReceipts) (id : String)
    (triple : OperationTriple) (arguments : Json) :
    KeepsReceipts (calls ++ [(now, .prepareOperation id triple arguments)]) ↔
      calls.Spares (.prepareOperation id triple arguments) := by
  constructor
  · intro keeps committed receipt earlier
    have answers := keeps committed receipt (earlier.snoc _)
    rw [store_snoc, ClusterStore.answers_prepareOperation] at answers
    exact ⟨answers.1, answers.2.1⟩
  · intro spares committed receipt later
    rw [store_snoc, ClusterStore.answers_prepareOperation]
    rcases committed_snoc later with earlier | ⟨_, _, impossible, _⟩
    · obtain ⟨otherKey, otherId⟩ := spares committed receipt earlier
      exact ⟨otherKey, otherId, kept committed receipt earlier⟩
    · cases impossible

theorem keeps_commitReceipt_iff (kept : calls.KeepsReceipts) (id : String) (receipt : Json) :
    KeepsReceipts (calls ++ [(now, .commitReceipt id receipt)]) ↔
      calls.Spares (.commitReceipt id receipt) := by
  constructor
  · intro keeps op prepared
    constructor
    · have answers := keeps op.triple receipt ⟨calls, now, id, [], op, rfl, prepared, rfl⟩
      rw [store_snoc, ClusterStore.answers_commitReceipt prepared] at answers
      rcases answers with ⟨leads, named, _⟩ | ⟨_, answers⟩
      · exact .inl ⟨leads, named⟩
      · exact .inr answers
    · intro committed earlierReceipt earlier leads
      have answers := keeps committed earlierReceipt (earlier.snoc _)
      rw [store_snoc, ClusterStore.answers_commitReceipt prepared] at answers
      rcases answers with ⟨_, _, same⟩ | ⟨other, _⟩
      · exact same
      · exact absurd leads other
  · intro spares committed carried later
    rw [store_snoc]
    cases prepared : (store calls).operations.get id with
    | none =>
        rw [ClusterStore.apply_commitReceipt_of_none prepared]
        rcases committed_snoc later with earlier | ⟨other, op, same, found, _⟩
        · exact kept committed carried earlier
        · cases same
          rw [prepared] at found
          cases found
    | some op =>
        obtain ⟨placed, replaces⟩ := spares op prepared
        rw [ClusterStore.answers_commitReceipt prepared]
        by_cases leads : (store calls).keyToOp.get committed.key = some id
        · rcases committed_snoc later with earlier | ⟨other, op', same, found, rfl⟩
          · have answers := kept committed carried earlier
            exact .inl ⟨leads, answers.named leads, replaces committed carried earlier leads⟩
          · cases same
            cases prepared.symm.trans found
            rcases placed with ⟨_, named⟩ | answers
            · exact .inl ⟨leads, named, rfl⟩
            · exact .inl ⟨leads, answers.named leads, rfl⟩
        · rcases committed_snoc later with earlier | ⟨other, op', same, found, rfl⟩
          · exact .inr ⟨leads, kept committed carried earlier⟩
          · cases same
            cases prepared.symm.trans found
            rcases placed with ⟨here, _⟩ | answers
            · exact absurd here leads
            · exact .inr ⟨leads, answers⟩

theorem keeps_snoc_iff (kept : calls.KeepsReceipts) (call : Seconds × ReceiptCall Json) :
    KeepsReceipts (calls ++ [call]) ↔ calls.Spares call.2 := by
  obtain ⟨now, call⟩ := call
  cases call with
  | prepareOperation id triple arguments => exact keeps_prepareOperation_iff kept id triple arguments
  | commitReceipt id receipt => exact keeps_commitReceipt_iff kept id receipt

/-! ## Runs -/

/-- At every moment of the run, every receipt committed so far is found. -/
def AlwaysKeepsReceipts (calls : ReceiptRun Json) : Prop :=
  ∀ seen, seen <+: calls → KeepsReceipts seen

/-- Every call of the run spares the receipts committed before it. -/
def SparesReceipts (calls : ReceiptRun Json) : Prop :=
  ∀ before call after, calls = before ++ call :: after → Spares before call.2

end ReceiptRun

open ReceiptRun in
/-- In every run of the cluster store, each committed receipt is found under its
    operation ever after exactly when every call spares the receipts before it. -/
theorem cluster_receipts_kept_iff (calls : ReceiptRun Json) :
    calls.AlwaysKeepsReceipts ↔ calls.SparesReceipts := by
  induction calls using List.reverseRecOn with
  | nil =>
      constructor
      · intro _ before call after split
        simp at split
      · intro _ seen inside triple receipt committed
        obtain rfl := List.prefix_nil.mp inside
        obtain ⟨before, now, id, after, op, split, _⟩ := committed
        simp at split
  | append_singleton calls last ih =>
      have early (spares : SparesReceipts (calls ++ [last])) : AlwaysKeepsReceipts calls :=
        ih.mpr fun before call after split =>
          spares before call (after ++ [last]) (by simp [split])
      constructor
      · intro keeps before call after split
        have earlier : AlwaysKeepsReceipts calls := fun seen inside =>
          keeps seen (inside.trans (List.prefix_append _ _))
        cases after using List.reverseRecOn with
        | nil =>
            obtain ⟨rfl, same⟩ := List.append_inj' split rfl
            cases same
            exact (keeps_snoc_iff (earlier _ List.prefix_rfl) last).mp (keeps _ List.prefix_rfl)
        | append_singleton after next =>
            rw [← List.cons_append, ← List.append_assoc] at split
            obtain ⟨rfl, -⟩ := List.append_inj' split rfl
            exact ih.mp earlier before call after rfl
      · intro spares seen inside
        rcases List.prefix_concat_iff.mp inside with rfl | inside
        · exact (keeps_snoc_iff (early spares _ List.prefix_rfl) last).mpr
            (spares calls last [] rfl)
        · exact early spares seen inside

/-- An operation is proposed again, under another call id, after its receipt. -/
theorem reproposed_operation_hides_receipt :
    ¬ ReceiptRun.AlwaysKeepsReceipts
      [(0, .prepareOperation "call-1" ⟨"operation-1", "deploy", "hash"⟩ true),
        (1, .commitReceipt "call-1" true),
        (2, .prepareOperation "call-2" ⟨"operation-1", "deploy", "hash"⟩ true)] := by
  intro keeps
  have committed : ReceiptRun.Committed
      [(0, .prepareOperation "call-1" ⟨"operation-1", "deploy", "hash"⟩ true),
        (1, .commitReceipt "call-1" true),
        (2, .prepareOperation "call-2" ⟨"operation-1", "deploy", "hash"⟩ true)]
      ⟨"operation-1", "deploy", "hash"⟩ true :=
    ⟨[_], 1, "call-1", [_], _, rfl, rfl, rfl⟩
  have answers := keeps _ List.prefix_rfl _ _ committed
  exact (ClusterStore.answers_prepareOperation.mp answers).1 rfl

end DuraLLM
