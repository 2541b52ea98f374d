import DuraLLM.Agent.ReceiptKeys
import DuraLLM.Lib.JsonValue

/-! # Operations in the cluster store

`ClusterPersistenceStore` keeps its operations by tool call id, and beside them
an index from the operation key to the call id that was prepared under it last.
The key is built like the receipt key of the in-process ledger.  The operations
live in the memory of the process; only sessions and attempts go to Redis.
-/

namespace DuraLLM

variable {Json : Type}

inductive ClusterOperationStatus where
  | prepared
  | committed
  deriving DecidableEq, Repr

structure ClusterOperation (Json : Type) where
  operationKey : String
  logicalOperationId : String
  toolName : String
  argumentsHash : String
  arguments : Json
  status : ClusterOperationStatus
  executionReceipt : Option Json
  errorMessage : Option String
  createdAt : Seconds
  updatedAt : Seconds

structure ClusterStore (Json : Type) where
  operations : Dict String (ClusterOperation Json) := .empty
  keyToOp : Dict String String := .empty

namespace ClusterStore

def prepareOperation (store : ClusterStore Json) (now : Seconds)
    (toolCallId logicalOperationId toolName argumentsHash : String) (arguments : Json) :
    ClusterOperation Json × ClusterStore Json :=
  let key := ToolExecutionLedger.opKey logicalOperationId toolName argumentsHash
  let op : ClusterOperation Json :=
    { operationKey := key, logicalOperationId, toolName, argumentsHash, arguments
      status := .prepared
      executionReceipt := none
      errorMessage := none
      createdAt := now
      updatedAt := now }
  (op, { operations := store.operations.set toolCallId op
         keyToOp := store.keyToOp.set key toolCallId })

def operationForCall (store : ClusterStore Json) (toolCallId : String) :
    Option (ClusterOperation Json) :=
  store.operations.get toolCallId

/-- An empty call id counts as none. -/
def operationForKey (store : ClusterStore Json)
    (logicalOperationId toolName argumentsHash : String) : Option (ClusterOperation Json) :=
  match store.keyToOp.get
      (ToolExecutionLedger.opKey logicalOperationId toolName argumentsHash) with
  | some callId => if callId ≠ "" then store.operations.get callId else none
  | none => none

def commitReceipt (store : ClusterStore Json) (now : Seconds) (toolCallId : String)
    (receipt : Json) : Option (ClusterOperation Json) × ClusterStore Json :=
  match store.operations.get toolCallId with
  | none => (none, store)
  | some op =>
      let committed := { op with
        status := .committed
        executionReceipt := some receipt
        errorMessage := none
        updatedAt := now }
      (some committed, { store with operations := store.operations.set toolCallId committed })

end ClusterStore

/-- The calls on operations.  The caller hashes the arguments it prepares. -/
inductive ClusterCall (Json : Type) where
  | prepare (toolCallId : String) (o : ToolOperation Json)
  | commit (toolCallId : String) (receipt : Json)

def ClusterCall.apply [JsonCodec Json] (sha256 : String → String) (store : ClusterStore Json) (now : Seconds) :
    ClusterCall Json → ClusterStore Json
  | .prepare id o => (store.prepareOperation now id o.logicalOperationId o.toolName
      (computeArgumentsHash sha256 o.arguments) o.arguments).2
  | .commit id receipt => (store.commitReceipt now id receipt).2

/-- A run of the store: its calls with their clock readings. -/
abbrev ClusterRun (Json : Type) := List (Seconds × ClusterCall Json)

def ClusterStore.run [JsonCodec Json] (sha256 : String → String) (calls : ClusterRun Json) : ClusterStore Json :=
  calls.foldl (fun store call => call.2.apply sha256 store call.1) {}

namespace ClusterRun

def Prepares (calls : ClusterRun Json) (id : String) (o : ToolOperation Json) : Prop :=
  ∃ now, (now, .prepare id o) ∈ calls

/-- A call id that was prepared for the operation is committed later on. -/
def Commits (calls : ClusterRun Json) (o : ToolOperation Json) (receipt : Json) : Prop :=
  ∃ before now id after, calls = before ++ (now, .commit id receipt) :: after ∧
    Prepares before id o

/-- No call id is prepared for two operations. -/
def OneOperationEach (calls : ClusterRun Json) : Prop :=
  ∀ id o o', Prepares calls id o → Prepares calls id o' → o = o'

theorem Prepares.snoc {calls : ClusterRun Json} {id : String} {o : ToolOperation Json}
    (prepares : Prepares calls id o) (call : Seconds × ClusterCall Json) :
    Prepares (calls ++ [call]) id o := by
  obtain ⟨now, member⟩ := prepares
  exact ⟨now, List.mem_append_left _ member⟩

theorem Commits.snoc {calls : ClusterRun Json} {o : ToolOperation Json} {receipt : Json}
    (commits : Commits calls o receipt) (call : Seconds × ClusterCall Json) :
    Commits (calls ++ [call]) o receipt := by
  obtain ⟨before, now, id, after, rfl, prepares⟩ := commits
  exact ⟨before, now, id, after ++ [call], by simp, prepares⟩

end ClusterRun

/-- A stored operation that is exactly this one. -/
def ClusterOperation.IsOf (stored : ClusterOperation Json) (o : ToolOperation Json) : Prop :=
  stored.logicalOperationId = o.logicalOperationId ∧ stored.toolName = o.toolName ∧
    stored.arguments = o.arguments

variable [JsonCodec Json] {sha256 : String → String}

namespace ClusterStore

/-- What the run has to show for what is in the store. -/
structure Traced (sha256 : String → String) (calls : ClusterRun Json) (store : ClusterStore Json) :
    Prop where
  stored : ∀ id stored, store.operations.get id = some stored →
    ∃ o, calls.Prepares id o ∧ stored.IsOf o ∧
      ∀ receipt, stored.executionReceipt = some receipt → calls.Commits o receipt
  filed : ∀ key id, store.keyToOp.get key = some id →
    ∃ o, calls.Prepares id o ∧ o.slot sha256 = key

theorem Traced.snoc {calls : ClusterRun Json} {store : ClusterStore Json}
    (traced : store.Traced sha256 calls) (call : Seconds × ClusterCall Json) :
    (call.2.apply sha256 store call.1).Traced sha256 (calls ++ [call]) := by
  have stored : ∀ id stored, store.operations.get id = some stored →
      ∃ o, ClusterRun.Prepares (calls ++ [call]) id o ∧ stored.IsOf o ∧
        ∀ receipt, stored.executionReceipt = some receipt →
          ClusterRun.Commits (calls ++ [call]) o receipt := by
    intro id stored found
    obtain ⟨o, prepares, isOf, commits⟩ := traced.stored id stored found
    exact ⟨o, prepares.snoc call, isOf, fun receipt has => (commits receipt has).snoc call⟩
  have filed : ∀ key id, store.keyToOp.get key = some id →
      ∃ o, ClusterRun.Prepares (calls ++ [call]) id o ∧ o.slot sha256 = key := by
    intro key id found
    obtain ⟨o, prepares, same⟩ := traced.filed key id found
    exact ⟨o, prepares.snoc call, same⟩
  obtain ⟨now, call⟩ := call
  cases call with
  | prepare id o =>
      have prepares : ClusterRun.Prepares (calls ++ [(now, .prepare id o)]) id o :=
        ⟨now, List.mem_append_right _ List.mem_cons_self⟩
      constructor
      · intro other op found
        simp only [ClusterCall.apply, prepareOperation, Dict.get_set] at found
        split at found
        · next here =>
          subst here
          obtain rfl := Option.some.inj found
          exact ⟨o, prepares, ⟨rfl, rfl, rfl⟩, (by simp)⟩
        · exact stored other op found
      · intro key other found
        simp only [ClusterCall.apply, prepareOperation, Dict.get_set] at found
        split at found
        · next here =>
          subst here
          obtain rfl := Option.some.inj found
          exact ⟨o, prepares, rfl⟩
        · exact filed key other found
  | commit id receipt =>
      simp only [ClusterCall.apply, commitReceipt]
      split
      · exact ⟨stored, filed⟩
      · next op found =>
        refine ⟨?_, filed⟩
        intro other kept located
        simp only [Dict.get_set] at located
        split at located
        · next here =>
          subst here
          obtain rfl := Option.some.inj located
          obtain ⟨o, prepares, isOf, _⟩ := traced.stored _ op found
          refine ⟨o, prepares.snoc _, isOf, ?_⟩
          rintro committed ⟨⟩
          exact ⟨calls, now, _, [], rfl, prepares⟩
        · exact stored other kept located

theorem traced_run (sha256 : String → String) (calls : ClusterRun Json) :
    (run sha256 calls).Traced sha256 calls := by
  induction calls using List.reverseRecOn with
  | nil =>
      constructor
      · intro id stored found
        cases found
      · intro key id found
        cases found
  | append_singleton calls call ih =>
      have step := ih.snoc call
      simpa only [run, List.foldl_append, List.foldl_cons, List.foldl_nil] using step

end ClusterStore

/-- In every run in which no call id is prepared twice for different operations,
    a lookup of the operation finds it or nothing, and a receipt only if it was
    committed. -/
def ToolOperation.OwnOperationOnly (sha256 : String → String) (o : ToolOperation Json) : Prop :=
  ∀ calls : ClusterRun Json, calls.OneOperationEach → ∀ stored,
    (ClusterStore.run sha256 calls).operationForKey o.logicalOperationId o.toolName
        (computeArgumentsHash sha256 o.arguments) = some stored →
      stored.IsOf o ∧
        ∀ receipt, stored.executionReceipt = some receipt → calls.Commits o receipt

/-- Operations without colons in their names share no slot with any other. -/
theorem ToolOperation.slot_own (collisionFree : Function.Injective sha256) (hex : ColonFree sha256)
    {o o' : ToolOperation Json} (opClear : ':' ∉ o.logicalOperationId.toList)
    (toolClear : ':' ∉ o.toolName.toList) (same : o'.slot sha256 = o.slot sha256) : o' = o := by
  obtain ⟨op, tool, hash⟩ := ToolExecutionLedger.opKey_inj same.symm opClear toolClear (hex _) (hex _)
  have arguments := computeArgumentsHash_injective collisionFree hash
  cases o
  cases o'
  simp_all

theorem ToolOperation.ownOperationOnly (collisionFree : Function.Injective sha256)
    (hex : ColonFree sha256) {o : ToolOperation Json} (opClear : ':' ∉ o.logicalOperationId.toList)
    (toolClear : ':' ∉ o.toolName.toList) : o.OwnOperationOnly sha256 := by
  intro calls each stored answer
  have traced := ClusterStore.traced_run sha256 calls
  simp only [ClusterStore.operationForKey] at answer
  split at answer
  · next id indexed =>
    split at answer
    · obtain ⟨filed, prepares, same⟩ := traced.filed _ id indexed
      obtain rfl := ToolOperation.slot_own collisionFree hex opClear toolClear same
      obtain ⟨o, prepares', isOf, commits⟩ := traced.stored id stored answer
      obtain rfl := each id _ _ prepares prepares'
      exact ⟨isOf, commits⟩
    · cases answer
  · cases answer

/-- Both stores answer for exactly the operation they are asked about, in every
    run, exactly when neither its id nor its tool name has a colon in it.  SHA-256
    is taken to be free of collisions. -/
theorem receipt_keys_identify_iff (sha256 : String → String)
    (collisionFree : Function.Injective sha256) (hex : ColonFree sha256)
    (o : ToolOperation JsonValue) :
    (o.OwnReceiptsOnly sha256 ∧ o.OwnOperationOnly sha256) ↔
      ':' ∉ o.logicalOperationId.toList ∧ ':' ∉ o.toolName.toList := by
  constructor
  · rintro ⟨receipts, _⟩
    constructor
    · exact fun colon => ToolOperation.foreign_receipt (.inl colon) receipts
    · exact fun colon => ToolOperation.foreign_receipt (.inr colon) receipts
  · rintro ⟨opClear, toolClear⟩
    exact ⟨ToolOperation.ownReceiptsOnly collisionFree hex opClear toolClear,
      ToolOperation.ownOperationOnly collisionFree hex opClear toolClear⟩

/-- A text without collisions: every character in unary. -/
private def unary (text : List Char) : List Char :=
  text.flatMap fun c => List.replicate c.toNat '1' ++ ['0']

private theorem unary_injective {text text' : List Char} (same : unary text = unary text') :
    text = text' := by
  induction text generalizing text' with
  | nil =>
      cases text' with
      | nil => rfl
      | cons c rest => simp [unary] at same
  | cons c rest ih =>
      cases text' with
      | nil => simp [unary] at same
      | cons c' rest' =>
          have ones : ∀ n : Nat, '0' ∉ List.replicate n '1' := by simp
          simp only [unary, List.flatMap_cons, List.append_assoc, List.singleton_append] at same
          obtain ⟨heads, tails⟩ := split_at_first (ones _) (ones _) same
          have codes : c.toNat = c'.toNat := by simpa using congrArg List.length heads
          rw [Char.toNat_inj.mp codes, ih tails]

/-- SHA-256 on the one text that the sample hashes. -/
private def okSha256 (text : String) : String :=
  if text = OkObject.text .spaced true then
    "6bc0da1f42f96fc37b8bd7ed20ba57606d2a0da5cda2b135c7854fbdc985b8a3"
  else String.ofList (unary text.toList)

private theorem unary_chars (text : List Char) : ∀ c ∈ unary text, c = '0' ∨ c = '1' := by
  intro c member
  obtain ⟨source, _, inside⟩ := List.mem_flatMap.mp member
  rcases List.mem_append.mp inside with one | zero
  · exact .inr (List.eq_of_mem_replicate one)
  · exact .inl (List.mem_singleton.mp zero)

private theorem okSha256_injective : Function.Injective okSha256 := by
  have apart : ∀ text, String.ofList (unary text) ≠
      "6bc0da1f42f96fc37b8bd7ed20ba57606d2a0da5cda2b135c7854fbdc985b8a3" := by
    intro text same
    have six : '6' ∈ unary text := by
      rw [← String.toList_ofList (l := unary text), same]
      decide
    have digits := unary_chars text '6' six
    revert digits
    decide
  intro text text' same
  unfold okSha256 at same
  split at same <;> split at same
  · next here there => rw [here, there]
  · exact absurd same.symm (apart _)
  · exact absurd same (apart _)
  · have lists := congrArg String.toList same
    simp only [String.toList_ofList] at lists
    exact String.toList_inj.mp (unary_injective lists)

private theorem okSha256_colonFree : ColonFree okSha256 := by
  intro text
  unfold okSha256
  split
  · decide
  · intro colon
    rw [String.toList_ofList] at colon
    have digits := unary_chars _ ':' colon
    revert digits
    decide

private def okArguments : JsonValue := .ofRaw (.obj [("ok", .scalar (.bool true))])

theorem receipt_keys_identify_deploy :
    (⟨"operation-1", "deploy", okArguments⟩ : ToolOperation JsonValue).OwnReceiptsOnly okSha256 ∧
      (⟨"operation-1", "deploy", okArguments⟩ : ToolOperation JsonValue).OwnOperationOnly
        okSha256 :=
  (receipt_keys_identify_iff okSha256 okSha256_injective okSha256_colonFree _).mpr
    ⟨by decide, by decide⟩

/-- `tenant:a` with `deploy` is also `tenant` with `a:deploy`. -/
theorem colon_shares_receipt :
    ¬(⟨"tenant:a", "deploy", okArguments⟩ : ToolOperation JsonValue).OwnReceiptsOnly okSha256 :=
  ToolOperation.foreign_receipt (.inl (by decide))

end DuraLLM
