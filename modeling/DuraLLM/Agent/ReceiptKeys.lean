import DuraLLM.Agent.Receipts
import Mathlib.Data.List.Induction

/-! # What a receipt key says

A receipt is filed under the operation id, the tool name and the hash of the
arguments, with colons between them.  The hash has no colon in it.  The other
two may, and then the key does not say where the first ends.
-/

namespace DuraLLM

/-! ## Separated texts -/

section Separated

variable {α : Type} {sep : α} {x y x' y' : List α}

/-- The first separator is where it is. -/
theorem split_at_first (clear : sep ∉ x) (clear' : sep ∉ x')
    (same : x ++ sep :: y = x' ++ sep :: y') : x = x' ∧ y = y' := by
  induction x generalizing x' with
  | nil =>
      cases x' with
      | nil => exact ⟨rfl, (List.cons.inj same).2⟩
      | cons a rest => exact absurd (List.mem_cons.mpr (.inl (List.cons.inj same).1)) clear'
  | cons a rest ih =>
      cases x' with
      | nil => exact absurd (List.mem_cons.mpr (.inl (List.cons.inj same).1.symm)) clear
      | cons b rest' =>
          obtain ⟨rfl, tails⟩ := List.cons.inj same
          simp only [List.mem_cons, not_or] at clear clear'
          obtain ⟨rfl, rfl⟩ := ih clear.2 clear'.2 tails
          exact ⟨rfl, rfl⟩

theorem split_at_last (clear : sep ∉ y) (clear' : sep ∉ y')
    (same : x ++ sep :: y = x' ++ sep :: y') : x = x' ∧ y = y' := by
  have mirrored : y.reverse ++ sep :: x.reverse = y'.reverse ++ sep :: x'.reverse := by
    simpa using congrArg List.reverse same
  obtain ⟨tails, heads⟩ := split_at_first (by simpa using clear) (by simpa using clear') mirrored
  exact ⟨List.reverse_injective heads, List.reverse_injective tails⟩

end Separated

variable {Json : Type} [JsonCodec Json] {sha256 : String → String}

/-- Hexadecimal digests. -/
def ColonFree (sha256 : String → String) : Prop := ∀ text, ':' ∉ (sha256 text).toList

namespace ToolExecutionLedger

theorem toList_opKey (op tool hash : String) :
    (opKey op tool hash).toList = (op.toList ++ ':' :: tool.toList) ++ ':' :: hash.toList := by
  simp [opKey]

/-- A key without further colons says what it is made of. -/
theorem opKey_inj {op tool hash op' tool' hash' : String}
    (same : opKey op tool hash = opKey op' tool' hash') (opClear : ':' ∉ op.toList)
    (toolClear : ':' ∉ tool.toList) (hashClear : ':' ∉ hash.toList)
    (hashClear' : ':' ∉ hash'.toList) : op = op' ∧ tool = tool' ∧ hash = hash' := by
  have texts := congrArg String.toList same
  rw [toList_opKey, toList_opKey] at texts
  obtain ⟨names, hashes⟩ := split_at_last hashClear hashClear' texts
  obtain ⟨ops, -, tools⟩ := (List.append_cons_inj_of_notMem opClear toolClear).mp names
  exact ⟨String.toList_inj.mp ops, String.toList_inj.mp tools, String.toList_inj.mp hashes⟩

/-- With a colon in either name the key is also that of another operation. -/
theorem exists_opKey_eq {op tool : String} (colon : ':' ∈ op.toList ∨ ':' ∈ tool.toList) :
    ∃ op' tool', (op', tool') ≠ (op, tool) ∧
      ∀ hash, opKey op' tool' hash = opKey op tool hash := by
  rcases colon with inside | inside
  · obtain ⟨before, after, split⟩ := List.append_of_mem inside
    obtain rfl : op = String.ofList before ++ ":" ++ String.ofList after := by
      apply String.toList_inj.mp
      simp [split]
    refine ⟨String.ofList before, String.ofList after ++ ":" ++ tool, ?_, ?_⟩
    · intro same
      have lengths := congrArg (fun pair => pair.1.length) same
      have colon : ":".length = 1 := rfl
      simp only [String.length_append] at lengths
      omega
    · intro hash
      simp [opKey, String.append_assoc]
  · obtain ⟨before, after, split⟩ := List.append_of_mem inside
    obtain rfl : tool = String.ofList before ++ ":" ++ String.ofList after := by
      apply String.toList_inj.mp
      simp [split]
    refine ⟨op ++ ":" ++ String.ofList before, String.ofList after, ?_, ?_⟩
    · intro same
      have lengths := congrArg (fun pair => pair.1.length) same
      have colon : ":".length = 1 := rfl
      simp only [String.length_append] at lengths
      omega
    · intro hash
      simp [opKey, String.append_assoc]

/-! ## Runs -/

def run (sha256 : String → String) (ledger : ToolExecutionLedger Json)
    (calls : List (LedgerReads × LedgerCall Json)) : ToolExecutionLedger Json :=
  calls.foldl (fun ledger call => call.2.apply sha256 ledger call.1) ledger

/-- In the course of the run a call on record satisfying `P` was committed with
    the receipt. -/
def Commits (sha256 : String → String) (ledger : ToolExecutionLedger Json)
    (calls : List (LedgerReads × LedgerCall Json)) (receipt : Json)
    (P : ToolExecutionRecord Json → Prop) : Prop :=
  ∃ before reads id after r, calls = before ++ (reads, .committed id receipt) :: after ∧
    (ledger.run sha256 before).recordsByCallId.get id = some r ∧ P r

theorem run_snoc (ledger : ToolExecutionLedger Json)
    (calls : List (LedgerReads × LedgerCall Json)) (call : LedgerReads × LedgerCall Json) :
    ledger.run sha256 (calls ++ [call]) = call.2.apply sha256 (ledger.run sha256 calls) call.1 := by
  simp [run]

theorem Commits.snoc {ledger : ToolExecutionLedger Json}
    {calls : List (LedgerReads × LedgerCall Json)} {receipt : Json}
    {P : ToolExecutionRecord Json → Prop} (commits : ledger.Commits sha256 calls receipt P)
    (call : LedgerReads × LedgerCall Json) : ledger.Commits sha256 (calls ++ [call]) receipt P := by
  obtain ⟨before, reads, id, after, r, rfl, found, holds⟩ := commits
  exact ⟨before, reads, id, after ++ [call], r, by simp, found, holds⟩

theorem Commits.imp {ledger : ToolExecutionLedger Json}
    {calls : List (LedgerReads × LedgerCall Json)} {receipt : Json}
    {P Q : ToolExecutionRecord Json → Prop} (commits : ledger.Commits sha256 calls receipt P)
    (weaken : ∀ r, P r → Q r) : ledger.Commits sha256 calls receipt Q := by
  obtain ⟨before, reads, id, after, r, split, found, holds⟩ := commits
  exact ⟨before, reads, id, after, r, split, found, weaken r holds⟩

/-- Every record carries the hash of its own arguments. -/
def Hashed (sha256 : String → String) (ledger : ToolExecutionLedger Json) : Prop :=
  ∀ id r, ledger.recordsByCallId.get id = some r →
    r.argumentsHash = computeArgumentsHash sha256 r.arguments

theorem Hashed.step {ledger : ToolExecutionLedger Json} (hashed : ledger.Hashed sha256)
    (call : LedgerReads × LedgerCall Json) :
    (call.2.apply sha256 ledger call.1).Hashed sha256 := by
  intro id r found
  rcases LedgerCall.record_of_apply found with ⟨old, before, same⟩ | fresh
  · rw [same.hash, same.arguments]
    exact hashed id old before
  · obtain ⟨op, tool, arguments, _, _, _, _, rfl, hash⟩ := fresh
    exact hash

theorem Hashed.run {ledger : ToolExecutionLedger Json} (hashed : ledger.Hashed sha256)
    (calls : List (LedgerReads × LedgerCall Json)) : (ledger.run sha256 calls).Hashed sha256 := by
  induction calls generalizing ledger with
  | nil => exact hashed
  | cons call calls ih => exact ih (hashed.step call)

/-- Every receipt in the ledger comes from a commit of a call with that key. -/
theorem receipt_committed {ledger : ToolExecutionLedger Json}
    (empty : ledger.receiptsByOpHash = .empty) (calls : List (LedgerReads × LedgerCall Json))
    {slot : String} {entry : Json × Seconds}
    (kept : (ledger.run sha256 calls).receiptsByOpHash.get slot = some entry) :
    ledger.Commits sha256 calls entry.1 fun r =>
      opKey r.logicalOperationId r.toolName r.argumentsHash = slot := by
  induction calls using List.reverseRecOn with
  | nil =>
      rw [show ledger.run sha256 [] = ledger from rfl, empty] at kept
      cases kept
  | append_singleton calls call ih =>
      rw [run_snoc] at kept
      rcases LedgerCall.receipt_of_apply kept with before | ⟨id, r, committed, found, same⟩
      · exact (ih before).snoc call
      · obtain ⟨reads, call⟩ := call
        exact ⟨calls, reads, id, [], r, by rw [← committed], found, same.symm⟩

end ToolExecutionLedger

/-- The record of a call of exactly this operation. -/
def ToolExecutionRecord.IsOf (r : ToolExecutionRecord Json) (o : ToolOperation Json) : Prop :=
  r.logicalOperationId = o.logicalOperationId ∧ r.toolName = o.toolName ∧
    r.arguments = o.arguments

/-- In every run of the ledger, a check of the operation answers only with a
    receipt that one of its own calls was committed with. -/
def ToolOperation.OwnReceiptsOnly (sha256 : String → String) (o : ToolOperation Json) : Prop :=
  ∀ (maxRecords : Nat) (ttlSeconds : Option Seconds)
    (calls : List (LedgerReads × LedgerCall Json)) (now : Seconds) (receipt : Json),
    let ledger : ToolExecutionLedger Json := { maxRecords, ttlSeconds }
    (ledger.run sha256 calls).checkIdempotency sha256 now o.logicalOperationId o.toolName
        o.arguments = (true, some receipt) →
      ledger.Commits sha256 calls receipt (·.IsOf o)

theorem computeArgumentsHash_injective (collisionFree : Function.Injective sha256)
    {arguments arguments' : Json}
    (same : computeArgumentsHash sha256 arguments = computeArgumentsHash sha256 arguments') :
    arguments = arguments' :=
  JsonCodec.dumps_injective .spaced (collisionFree same)

/-- Without colons in its names an operation has its slot for itself. -/
theorem ToolOperation.ownReceiptsOnly (collisionFree : Function.Injective sha256)
    (hex : ColonFree sha256) {o : ToolOperation Json} (opClear : ':' ∉ o.logicalOperationId.toList)
    (toolClear : ':' ∉ o.toolName.toList) : o.OwnReceiptsOnly sha256 := by
  intro maxRecords ttlSeconds calls now receipt ledger answer
  obtain ⟨entry, kept, rfl⟩ := ToolExecutionLedger.receipt_of_check answer
  obtain ⟨before, reads, id, after, r, split, found, same⟩ :=
    ToolExecutionLedger.receipt_committed rfl calls kept
  have own : r.argumentsHash = computeArgumentsHash sha256 r.arguments :=
    ToolExecutionLedger.Hashed.run (fun _ _ found => by cases found) before id r found
  rw [own] at same
  obtain ⟨op, tool, hash⟩ := ToolExecutionLedger.opKey_inj same.symm opClear toolClear
    (hex _) (hex _)
  exact ⟨before, reads, id, after, r, split, found, op.symm, tool.symm,
    (computeArgumentsHash_injective collisionFree hash).symm⟩

section Foreign

variable (sha256) (op tool : String) (arguments : Json)

/-- Register a call and commit it, all at one time. -/
private def oneCommit : List (LedgerReads × LedgerCall Json) :=
  [(⟨0, 0, 0⟩, .register "call" op tool arguments), (⟨0, 0, 0⟩, .committed "call" arguments)]

private def oneRecord : ToolExecutionRecord Json :=
  { toolCallId := "call", logicalOperationId := op, toolName := tool, arguments
    argumentsHash := computeArgumentsHash sha256 arguments, createdAt := 0, updatedAt := 0 }

private def oneSlot : ToolExecutionLedger Json := { maxRecords := 1, ttlSeconds := none }

private theorem oneCommit_record :
    ((oneSlot : ToolExecutionLedger Json).run sha256
      [(⟨0, 0, 0⟩, .register "call" op tool arguments)]).recordsByCallId.get "call" =
      some (oneRecord sha256 op tool arguments) :=
  ToolExecutionLedger.evictFrom_newest rfl rfl Nat.one_pos

private theorem oneCommit_receipt :
    ((oneSlot : ToolExecutionLedger Json).run sha256
      (oneCommit op tool arguments)).receiptsByOpHash.get
        (ToolExecutionLedger.opKey op tool (computeArgumentsHash sha256 arguments)) =
      some (arguments, 0) := by
  have split : oneCommit op tool arguments =
      [(⟨0, 0, 0⟩, .register "call" op tool arguments)] ++
        [(⟨0, 0, 0⟩, .committed "call" arguments)] := rfl
  rw [split, ToolExecutionLedger.run_snoc]
  simp only [LedgerCall.apply, ToolExecutionLedger.markCommitted,
    oneCommit_record sha256 op tool arguments]
  exact ToolExecutionLedger.evictFrom_newest rfl rfl Nat.one_pos

end Foreign

/-- With one it answers for another operation. -/
theorem ToolOperation.foreign_receipt {o : ToolOperation Json}
    (colon : ':' ∈ o.logicalOperationId.toList ∨ ':' ∈ o.toolName.toList) :
    ¬o.OwnReceiptsOnly sha256 := by
  intro own
  obtain ⟨op, tool, different, same⟩ := ToolExecutionLedger.exists_opKey_eq colon
  have kept := oneCommit_receipt sha256 op tool o.arguments
  rw [same] at kept
  have answer : (oneSlot.run sha256 (oneCommit op tool o.arguments)).checkIdempotency sha256 0
      o.logicalOperationId o.toolName o.arguments = (true, some o.arguments) := by
    simp only [ToolExecutionLedger.checkIdempotency, kept]
    rfl
  obtain ⟨before, reads, id, after, r, split, found, isOf⟩ := own 1 none _ 0 _ answer
  -- The commit is the second call, and the record it finds is the other operation's.
  obtain ⟨rfl, rfl⟩ : before = [(⟨0, 0, 0⟩, .register "call" op tool o.arguments)] ∧
      id = "call" := by
    rcases before with _ | ⟨first, _ | ⟨second, rest⟩⟩
    · simp [oneCommit] at split
    · simp only [oneCommit, List.cons_append, List.nil_append, List.cons.injEq, Prod.mk.injEq,
        LedgerCall.committed.injEq] at split
      exact ⟨by rw [← split.1], split.2.1.2.1.symm⟩
    · simp [oneCommit] at split
  have record := oneCommit_record sha256 op tool o.arguments
  obtain rfl := Option.some.inj (record.symm.trans found)
  exact different (Prod.ext isOf.1 isOf.2.1)

end DuraLLM
