import DuraLLM.Agent.ReceiptKeys
import DuraLLM.Lib.Recency

/-! # The order in which receipts are evicted

Receipts are evicted from the old end of the dictionary.  A receipt that is
committed again keeps its place there, so that end is the oldest only as long as
no operation is committed again behind whose receipt another one is stored.
-/

namespace DuraLLM

variable {Json : Type} [JsonCodec Json] {sha256 : String → String}

namespace ToolExecutionLedger

/-- The receipts as `_evict` finds them, if the call comes to it. -/
def handedOver (ledger : ToolExecutionLedger Json) (reads : LedgerReads) :
    LedgerCall Json → Option (Dict String (Json × Seconds))
  | .register id _ _ _ =>
      match ledger.recordsByCallId.get id with
      | some _ => none
      | none => some ledger.receiptsByOpHash
  | .committed id receipt =>
      (ledger.recordsByCallId.get id).map fun r =>
        ledger.receiptsByOpHash.set r.slot (receipt, reads.now)
  | _ => none

theorem receipts_apply (ledger : ToolExecutionLedger Json) (reads : LedgerReads)
    (call : LedgerCall Json) :
    (call.apply sha256 ledger reads).receiptsByOpHash =
      match ledger.handedOver reads call with
      | some store => ledger.evictFrom reads.later (·.2) store
      | none => ledger.receiptsByOpHash := by
  cases call with
  | register id op tool arguments =>
      rw [LedgerCall.apply, registerToolCall, handedOver]
      cases ledger.recordsByCallId.get id <;> rfl
  | committed id receipt =>
      rw [LedgerCall.apply, markCommitted, handedOver]
      cases ledger.recordsByCallId.get id <;> rfl
  | validated | submitted | replayed | indeterminate | failed => rfl

theorem settings_apply (sha256 : String → String) (ledger : ToolExecutionLedger Json) (reads : LedgerReads)
    (call : LedgerCall Json) :
    (call.apply sha256 ledger reads).maxRecords = ledger.maxRecords ∧
      (call.apply sha256 ledger reads).ttlSeconds = ledger.ttlSeconds := by
  cases call with
  | register id op tool arguments =>
      rw [LedgerCall.apply, registerToolCall]
      cases ledger.recordsByCallId.get id <;> exact ⟨rfl, rfl⟩
  | committed id receipt =>
      rw [LedgerCall.apply, markCommitted]
      cases ledger.recordsByCallId.get id <;> exact ⟨rfl, rfl⟩
  | validated | submitted | replayed | indeterminate | failed => exact ⟨rfl, rfl⟩

/-- What the size limit forces out, after what has expired is gone. -/
def forcedOut {V : Type} (ledger : ToolExecutionLedger Json) (now : Seconds) (stamp : V → Seconds)
    (store : Dict String V) : List (String × V) :=
  let young := (store.dropOldWhile fun v => ledger.outlived (now - stamp v)).entries
  young.take (young.length - ledger.maxRecords)

/-- No receipt that the call forces out is younger than one that stays. -/
def ForcesOutOldest (ledger : ToolExecutionLedger Json) (reads : LedgerReads)
    (call : LedgerCall Json) : Prop :=
  ∀ store, ledger.handedOver reads call = some store →
    ∀ e ∈ ledger.forcedOut reads.later (·.2) store,
      ∀ kept ∈ (ledger.evictFrom reads.later (·.2) store).entries, e.2.2 ≤ kept.2.2

/-- A call that commits an operation whose receipt is stored already finds that
    receipt at the newer end. -/
def RenewsNewestOnly (ledger : ToolExecutionLedger Json) : LedgerCall Json → Prop
  | .committed id _ => ∀ r, ledger.recordsByCallId.get id = some r →
      ∀ older entry newer, ledger.receiptsByOpHash.entries = older ++ (r.slot, entry) :: newer →
        newer = []
  | _ => True

/-! ## Commits -/

/-- What the call commits: the slot of the operation with the receipt and the time. -/
def commitOf (ledger : ToolExecutionLedger Json) (reads : LedgerReads) :
    LedgerCall Json → List (String × (Json × Seconds))
  | .committed id receipt =>
      ((ledger.recordsByCallId.get id).map fun r => (r.slot, (receipt, reads.now))).toList
  | _ => []

/-- The commits of a run. -/
def commits (sha256 : String → String) :
    ToolExecutionLedger Json → List (LedgerReads × LedgerCall Json) →
      List (String × (Json × Seconds))
  | _, [] => []
  | ledger, call :: calls =>
      ledger.commitOf call.1 call.2 ++ commits sha256 (call.2.apply sha256 ledger call.1) calls

theorem commits_snoc (ledger : ToolExecutionLedger Json)
    (calls : List (LedgerReads × LedgerCall Json)) (call : LedgerReads × LedgerCall Json) :
    ledger.commits sha256 (calls ++ [call]) =
      ledger.commits sha256 calls ++ (ledger.run sha256 calls).commitOf call.1 call.2 := by
  induction calls generalizing ledger with
  | nil => simp [commits, run]
  | cons first calls ih => rw [List.cons_append, commits, ih, commits, List.append_assoc]; rfl

/-- The readings of the ledger's clock in a run. -/
def readings (calls : List (LedgerReads × LedgerCall Json)) : List Seconds :=
  calls.flatMap fun call => [call.1.now, call.1.later]

/-! ## The invariant -/

/-- The receipts at time `t`: in the order of their commits, and missing none of the
    last operations that has not expired. -/
structure InCommitOrder (ledger : ToolExecutionLedger Json) (store : Dict String (Json × Seconds))
    (history : List (String × (Json × Seconds))) (t : Seconds) : Prop where
  sorted : store.entries.Pairwise fun e e' => e.2.2 ≤ e'.2.2
  past : ∀ e ∈ store.entries, e.2.2 ≤ t
  retains : Recency.Retains ledger.maxRecords (fun v => ledger.outlived (t - v.2) = true)
    (Recency.order history) store.entries

variable {ledger : ToolExecutionLedger Json} {store : Dict String (Json × Seconds)}
  {history : List (String × (Json × Seconds))} {t later : Seconds}

omit [JsonCodec Json] in
theorem outlived_later {stamp : Seconds} (after : t ≤ later)
    (old : ledger.outlived (t - stamp) = true) : ledger.outlived (later - stamp) = true := by
  unfold outlived at old ⊢
  cases ttl : ledger.ttlSeconds with
  | none => simp [ttl] at old
  | some limit =>
      simp only [ttl, decide_eq_true_eq] at old ⊢
      exact lt_of_lt_of_le old (sub_le_sub_right after stamp)

namespace InCommitOrder

omit [JsonCodec Json] in
theorem empty (t : Seconds) : ledger.InCommitOrder .empty [] t where
  sorted := List.Pairwise.nil
  past := by simp [Dict.empty]
  retains := Recency.Retains.nil

omit [JsonCodec Json] in
theorem wait (inOrder : ledger.InCommitOrder store history t) (after : t ≤ later) :
    ledger.InCommitOrder store history later where
  sorted := inOrder.sorted
  past e member := (inOrder.past e member).trans after
  retains := inOrder.retains.imp fun _ => outlived_later after

omit [JsonCodec Json] in
/-- The receipt of a commit is the last one. -/
theorem appended (inOrder : ledger.InCommitOrder store history t) {slot : String} {receipt : Json}
    {front : List (String × (Json × Seconds))} (sub : front.Sublist store.entries)
    (entries : (store.set slot (receipt, t)).entries = front ++ [(slot, (receipt, t))])
    (retains : Recency.Retains ledger.maxRecords (fun v => ledger.outlived (t - v.2) = true)
      (Recency.touch slot (receipt, t) (Recency.order history)) (front ++ [(slot, (receipt, t))])) :
    ledger.InCommitOrder (store.set slot (receipt, t)) (history ++ [(slot, (receipt, t))]) t := by
  have before : ∀ e ∈ front, e.2.2 ≤ t := fun e member => inOrder.past e (sub.mem member)
  constructor
  · simp only [entries, List.pairwise_append, List.pairwise_singleton, List.mem_singleton, true_and]
    constructor
    · exact inOrder.sorted.sublist sub
    · intro e member other same
      rw [same]
      exact before e member
  · simp only [entries, List.mem_append, List.mem_singleton]
    intro e member
    cases member with
    | inl inside => exact before e inside
    | inr same => exact same ▸ le_refl t
  · rw [Recency.order_snoc, entries]
    exact retains

omit [JsonCodec Json] in
/-- The receipt of a commit comes in at the newer end, or is there. -/
theorem set (inOrder : ledger.InCommitOrder store history t) {slot : String} (receipt : Json)
    (newest : ∀ older entry newer, store.entries = older ++ (slot, entry) :: newer → newer = []) :
    ledger.InCommitOrder (store.set slot (receipt, t)) (history ++ [(slot, (receipt, t))]) t := by
  cases found : store.get slot with
  | none =>
      have absent : slot ∉ store.entries.map Prod.fst := Dict.get_eq_none_iff.mp found
      exact inOrder.appended (List.Sublist.refl _) (Dict.set_entries_of_absent found _)
        (inOrder.retains.store absent (receipt, t))
  | some entry =>
      obtain ⟨front, back, split⟩ := Dict.exists_split found
      obtain rfl := newest front entry back split
      exact inOrder.appended (split ▸ List.sublist_append_left _ _) (Dict.set_entries_of_split split _)
        (inOrder.retains.renew split (receipt, t))

omit [JsonCodec Json] in
theorem evict (inOrder : ledger.InCommitOrder store history t) :
    ledger.InCommitOrder (ledger.evictFrom t (·.2) store) history t := by
  have sub : (ledger.evictFrom t (·.2) store).entries.Sublist store.entries :=
    (List.drop_sublist _ _).trans (List.dropWhile_sublist _)
  constructor
  · exact inOrder.sorted.sublist sub
  · exact fun e member => inOrder.past e (sub.mem member)
  · exact (inOrder.retains.dropWhile fun _ _ old => old).cut

omit [JsonCodec Json] in
/-- What goes for want of room is older than what stays. -/
theorem oldest_forcedOut (inOrder : ledger.InCommitOrder store history t) :
    ∀ e ∈ ledger.forcedOut t (·.2) store, ∀ kept ∈ (ledger.evictFrom t (·.2) store).entries,
      e.2.2 ≤ kept.2.2 := by
  intro e out kept stays
  let young := (store.dropOldWhile fun v => ledger.outlived (t - v.2)).entries
  have sorted : young.Pairwise fun e e' => e.2.2 ≤ e'.2.2 :=
    inOrder.sorted.sublist (List.dropWhile_sublist _)
  rw [← List.take_append_drop (young.length - ledger.maxRecords) young,
    List.pairwise_append] at sorted
  exact sorted.2.2 e out kept stays

end InCommitOrder

/-! ## Steps and runs -/

/-- The ledger has the limits of another. -/
def SameLimits (s ledger : ToolExecutionLedger Json) : Prop :=
  s.maxRecords = ledger.maxRecords ∧ s.ttlSeconds = ledger.ttlSeconds

omit [JsonCodec Json] in
theorem SameLimits.evictFrom {s : ToolExecutionLedger Json} (same : s.SameLimits ledger)
    (now : Seconds) {V : Type} (stamp : V → Seconds) (store : Dict String V) :
    s.evictFrom now stamp store = ledger.evictFrom now stamp store ∧
      s.forcedOut now stamp store = ledger.forcedOut now stamp store := by
  simp only [ToolExecutionLedger.evictFrom, forcedOut, outlived, same.1, same.2, and_self]

theorem run_sameLimits (sha256 : String → String) (ledger : ToolExecutionLedger Json)
    (calls : List (LedgerReads × LedgerCall Json)) :
    (ledger.run sha256 calls).SameLimits ledger := by
  induction calls using List.reverseRecOn with
  | nil => exact ⟨rfl, rfl⟩
  | append_singleton calls call ih =>
      rw [run_snoc]
      have kept := settings_apply sha256 (ledger.run sha256 calls) call.1 call.2
      exact ⟨kept.1.trans ih.1, kept.2.trans ih.2⟩

omit [JsonCodec Json] in
/-- The receipts that are handed to `_evict` are in order. -/
theorem InCommitOrder.handed {s : ToolExecutionLedger Json} {reads : LedgerReads}
    {call : LedgerCall Json} (inOrder : ledger.InCommitOrder s.receiptsByOpHash history reads.now)
    (renews : s.RenewsNewestOnly call) {store : Dict String (Json × Seconds)}
    (handed : s.handedOver reads call = some store) :
    ledger.InCommitOrder store (history ++ s.commitOf reads call) reads.now := by
  cases call with
  | register id op tool arguments =>
      rw [handedOver] at handed
      split at handed
      · cases handed
      · cases handed
        have nothing : s.commitOf reads (.register id op tool arguments) = [] := rfl
        rw [nothing, List.append_nil]
        exact inOrder
  | committed id receipt =>
      obtain ⟨r, found, rfl⟩ := Option.map_eq_some_iff.mp handed
      rw [commitOf, found]
      exact inOrder.set receipt (renews r found)
  | validated | submitted | replayed | indeterminate | failed => cases handed

omit [JsonCodec Json] in
/-- Nothing is committed without coming to `_evict`. -/
theorem commitOf_eq_nil {s : ToolExecutionLedger Json} {reads : LedgerReads}
    {call : LedgerCall Json} (none : s.handedOver reads call = none) :
    s.commitOf reads call = [] := by
  cases call with
  | committed id receipt =>
      rw [commitOf, Option.map_eq_none_iff.mp none]
      rfl
  | register | validated | submitted | replayed | indeterminate | failed => rfl

theorem InCommitOrder.apply (sha256 : String → String) {s : ToolExecutionLedger Json} (same : s.SameLimits ledger)
    {reads : LedgerReads} {call : LedgerCall Json} (clock : reads.now ≤ reads.later)
    (inOrder : ledger.InCommitOrder s.receiptsByOpHash history reads.now)
    (renews : s.RenewsNewestOnly call) :
    ledger.InCommitOrder (call.apply sha256 s reads).receiptsByOpHash
      (history ++ s.commitOf reads call) reads.later := by
  rw [receipts_apply]
  cases handed : s.handedOver reads call with
  | none =>
      rw [commitOf_eq_nil handed, List.append_nil]
      exact inOrder.wait clock
  | some store =>
      simp only [(same.evictFrom _ _ _).1]
      exact ((inOrder.handed renews handed).wait clock).evict

/-- Whatever is committed, no more receipts are kept than there may be. -/
theorem receipts_size_le (sha256 : String → String) (maxRecords : Nat) (ttlSeconds : Option Seconds)
    (calls : List (LedgerReads × LedgerCall Json)) :
    (({ maxRecords, ttlSeconds } : ToolExecutionLedger Json).run sha256 calls).receiptsByOpHash.size ≤
      maxRecords := by
  induction calls using List.reverseRecOn with
  | nil => exact Nat.zero_le _
  | append_singleton calls call ih =>
      rw [run_snoc, receipts_apply]
      split
      · have limits := run_sameLimits sha256
          ({ maxRecords, ttlSeconds } : ToolExecutionLedger Json) calls
        simp only [(limits.evictFrom _ _ _).1]
        exact Dict.size_keepNewest_le _ _
      · exact ih

/-- Every step of the run commits only what is not stored or is stored last. -/
def RunRenewsNewestOnly (sha256 : String → String) (ledger : ToolExecutionLedger Json)
    (calls : List (LedgerReads × LedgerCall Json)) : Prop :=
  ∀ before reads call after, calls = before ++ (reads, call) :: after →
    (ledger.run sha256 before).RenewsNewestOnly call

/-- The first step, and the steps after it. -/
theorem RunRenewsNewestOnly.cons {call : LedgerReads × LedgerCall Json}
    {calls : List (LedgerReads × LedgerCall Json)} (first : ledger.RenewsNewestOnly call.2)
    (rest : (call.2.apply sha256 ledger call.1).RunRenewsNewestOnly sha256 calls) :
    ledger.RunRenewsNewestOnly sha256 (call :: calls) := by
  intro before reads later after split
  cases before with
  | nil =>
      cases split
      exact first
  | cons head before =>
      cases split
      exact rest before reads later after rfl

theorem RunRenewsNewestOnly.front {before after : List (LedgerReads × LedgerCall Json)}
    (renews : ledger.RunRenewsNewestOnly sha256 (before ++ after)) :
    ledger.RunRenewsNewestOnly sha256 before := by
  intro first reads call rest split
  exact renews first reads call (rest ++ after) (by simp [split])

theorem inCommitOrder_run (empty : ledger.receiptsByOpHash = .empty)
    (calls : List (LedgerReads × LedgerCall Json)) (clock : (readings calls).Pairwise (· ≤ ·))
    (renews : ledger.RunRenewsNewestOnly sha256 calls) (late : ∀ reading ∈ readings calls, reading ≤ t) :
    ledger.InCommitOrder (ledger.run sha256 calls).receiptsByOpHash (ledger.commits sha256 calls) t := by
  induction calls using List.reverseRecOn generalizing t with
  | nil =>
      have start : ledger.run sha256 [] = ledger := rfl
      rw [start, empty]
      exact .empty t
  | append_singleton calls call ih =>
      obtain ⟨reads, call⟩ := call
      have parts : readings (calls ++ [(reads, call)]) =
          readings calls ++ [reads.now, reads.later] := by simp [readings]
      rw [parts] at clock late
      obtain ⟨front, back, order⟩ := List.pairwise_append.mp clock
      have before := ih front renews.front fun reading member =>
        order reading member reads.now List.mem_cons_self
      have ticks : reads.now ≤ reads.later := by simpa using back
      rw [run_snoc, commits_snoc]
      have after := before.apply sha256 (run_sameLimits sha256 ledger calls) ticks
        (renews calls reads call [] rfl)
      exact after.wait (late reads.later (by simp))

/-- What a call leaves of the receipts: at most `maxRecords`, the size limit has taken
    the oldest, and the last `maxRecords` operations are replayed until they expire. -/
structure LeavesInOrder (sha256 : String → String) (ledger : ToolExecutionLedger Json)
    (before : List (LedgerReads × LedgerCall Json)) (reads : LedgerReads) (call : LedgerCall Json) :
    Prop where
  few : (call.apply sha256 (ledger.run sha256 before) reads).receiptsByOpHash.size ≤ ledger.maxRecords
  oldest : (ledger.run sha256 before).ForcesOutOldest reads call
  replays : ∀ (o : ToolOperation Json) (receipt : Json) (committed now : Seconds),
    (o.slot sha256, (receipt, committed)) ∈ Recency.newest ledger.maxRecords
      (Recency.order (ledger.commits sha256 (before ++ [(reads, call)]))) →
    reads.later ≤ now → ledger.outlived (now - committed) = false →
    (call.apply sha256 (ledger.run sha256 before) reads).checkIdempotency sha256 now
      o.logicalOperationId o.toolName o.arguments = (true, some receipt)

/-- In a run that commits again only what was committed last, receipts leave in the
    order of their commits. -/
theorem receipts_leave_in_order (maxRecords : Nat) (ttlSeconds : Option Seconds)
    (calls : List (LedgerReads × LedgerCall Json)) (clock : (readings calls).Pairwise (· ≤ ·))
    (renews : ({ maxRecords, ttlSeconds } : ToolExecutionLedger Json).RunRenewsNewestOnly sha256
      calls) :
    ∀ before reads call after, calls = before ++ (reads, call) :: after →
      ({ maxRecords, ttlSeconds } : ToolExecutionLedger Json).LeavesInOrder sha256 before reads
        call := by
  intro before reads call after split
  let ledger : ToolExecutionLedger Json := { maxRecords, ttlSeconds }
  let s := ledger.run sha256 before
  let s' := call.apply sha256 s reads
  have limits : s.SameLimits ledger := run_sameLimits sha256 ledger before
  have limits' : s'.SameLimits ledger := by
    have kept := settings_apply sha256 s reads call
    exact ⟨kept.1.trans limits.1, kept.2.trans limits.2⟩
  have whole : calls = (before ++ [(reads, call)]) ++ after := by simp [split]
  have parts : readings calls = readings before ++ (reads.now :: reads.later :: readings after) := by
    simp [split, readings]
  rw [parts] at clock
  obtain ⟨front, back, order⟩ := List.pairwise_append.mp clock
  have ticks : reads.now ≤ reads.later :=
    (List.pairwise_cons.mp back).1 reads.later List.mem_cons_self
  rw [whole] at renews
  have reached : ledger.InCommitOrder s.receiptsByOpHash (ledger.commits sha256 before) reads.now :=
    inCommitOrder_run rfl before front renews.front.front fun reading member =>
      order reading member reads.now List.mem_cons_self
  have step := renews before reads call after (by simp)
  constructor
  · have small := receipts_size_le sha256 maxRecords ttlSeconds
      (before ++ [(reads, call)])
    rwa [run_snoc] at small
  · intro store handed
    rw [(limits.evictFrom _ _ _).1, (limits.evictFrom _ _ _).2]
    exact ((reached.handed step handed).wait ticks).oldest_forcedOut
  · intro o receipt committed now recent late young
    rw [commits_snoc] at recent
    have later := (reached.apply sha256 limits ticks step).wait late
    have present := later.retains.mem recent (by simp [ledger, young])
    have still : s'.outlived (now - committed) = false := by
      rw [outlived, limits'.2]
      exact young
    exact check_of_receipt (Dict.mem_entries_iff.mp present) still

/-! ### A receipt that is committed again -/

section Sample

private def register (operation : String) (t : Seconds) : LedgerReads × LedgerCall OkObject :=
  (⟨t, t, t⟩, .register operation operation "deploy" ⟨true⟩)

private def commit (operation : String) (t : Seconds) : LedgerReads × LedgerCall OkObject :=
  (⟨t, t, t⟩, .committed operation ⟨true⟩)

/-- An operation is committed twice. -/
def renewing : List (LedgerReads × LedgerCall OkObject) :=
  [register "a" 0, commit "a" 1, commit "a" 2]

theorem receipts_leave_in_order_renewing :
    ({ maxRecords := 1 } : ToolExecutionLedger OkObject).LeavesInOrder (fun _ => "")
      [register "a" 0, commit "a" 1] ⟨2, 2, 2⟩ (.committed "a" ⟨true⟩) := by
  have renews : ({ maxRecords := 1 } : ToolExecutionLedger OkObject).RunRenewsNewestOnly
      (fun _ => "") renewing := by
    refine .cons trivial (.cons ?_ (.cons ?_ ?_))
    · intro r _ older entry newer split
      have none : [] = older ++ (r.slot, entry) :: newer := split
      simp at none
    · intro r _ older entry newer split
      have one : (({ maxRecords := 1 } : ToolExecutionLedger OkObject).run (fun _ => "")
          [register "a" 0, commit "a" 1]).receiptsByOpHash.size = 1 := by decide +kernel
      have counted := one.symm.trans (congrArg List.length split)
      rw [List.length_append, List.length_cons] at counted
      exact List.length_eq_zero_iff.mp (by omega)
    · intro before reads call after split
      simp at split
  exact receipts_leave_in_order 1 (some 3600) renewing (by decide +kernel) renews _ _ _ [] rfl

/-- Two operations are committed, the first of them again, and a third is known. -/
def recommitting : List (LedgerReads × LedgerCall OkObject) :=
  [register "a" 0, commit "a" 0, register "b" 1, commit "b" 1, commit "a" 2, register "c" 3]

/-- The receipt of time 2 is forced out, and that of time 1 stays. -/
theorem recommitted_receipt_forced_out :
    ¬∀ (maxRecords : Nat) (calls : List (LedgerReads × LedgerCall OkObject)), 1 ≤ maxRecords →
      (readings calls).Pairwise (· ≤ ·) →
      ∀ before reads call after, calls = before ++ (reads, call) :: after →
        ({ maxRecords } : ToolExecutionLedger OkObject).LeavesInOrder (fun _ => "") before reads
          call := by
  intro inOrder
  have leaves := inOrder 2 (recommitting ++ [commit "c" 3]) (by decide) (by decide +kernel)
    recommitting ⟨3, 3, 3⟩ (.committed "c" ⟨true⟩) [] rfl
  let s := ({ maxRecords := 2 } : ToolExecutionLedger OkObject).run (fun _ => "") recommitting
  have handed : s.handedOver ⟨3, 3, 3⟩ (.committed "c" ⟨true⟩) =
      some (s.receiptsByOpHash.set "c:deploy:" (⟨true⟩, 3)) := by decide +kernel
  have younger := leaves.oldest _ handed ("a:deploy:", (⟨true⟩, 2)) (by decide +kernel)
    ("b:deploy:", (⟨true⟩, 1)) (by decide +kernel)
  exact absurd younger (by decide +kernel)

end Sample

end ToolExecutionLedger

end DuraLLM
