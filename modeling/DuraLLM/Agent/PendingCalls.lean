import DuraLLM.Agent.Receipts
import Mathlib.Data.List.Infix

/-! # Pending calls of the in-process ledger

A call marked submitted or indeterminate may have had its external effect.
Until it is marked committed, failed or replayed, `hasIndeterminateOperation`
has to answer for it.  `Watched` runs the ledger beside a history that never
forgets a registration; the question is when the bounded ledger keeps up with
that history.

Eviction does not look at the status of what it drops, so it does not always.
`Retains` is the condition on a call, in the ledger as it stands before it,
under which nothing pending is lost.
-/

namespace DuraLLM

/-- A call as its caller knows it. -/
structure Registration (Json : Type) where
  logicalOperationId : String
  toolName : String
  arguments : Json
  /-- Marked submitted or indeterminate, and not acknowledged since. -/
  unacknowledged : Bool
  deriving DecidableEq

/-- `superseded` holds the registrations whose call id was registered anew
    after the ledger had dropped its record. -/
structure Watched (Json : Type) where
  ledger : ToolExecutionLedger Json
  known : Dict String (Registration Json) := .empty
  superseded : List (Registration Json) := []

variable {Json : Type} [JsonCodec Json] (sha256 : String → String)

namespace Watched

def mark (w : Watched Json) (id : String) (pending : Bool) : Dict String (Registration Json) :=
  w.known.modify id fun reg => { reg with unacknowledged := pending }

def step (w : Watched Json) (event : LedgerReads × LedgerCall Json) : Watched Json :=
  let ledger := event.2.apply sha256 w.ledger event.1
  match event.2 with
  | .register id op tool arguments =>
      if w.ledger.recordsByCallId.contains id then { w with ledger }
      else
        { ledger
          known := w.known.set id ⟨op, tool, arguments, false⟩
          superseded := (w.known.get id).toList ++ w.superseded }
  | .validated _ => { w with ledger }
  | .submitted id | .indeterminate id _ => { w with ledger, known := w.mark id true }
  | .committed id _ | .replayed id _ | .failed id _ => { w with ledger, known := w.mark id false }

def run (w : Watched Json) (events : List (LedgerReads × LedgerCall Json)) : Watched Json :=
  events.foldl (step sha256) w

/-- A fresh ledger with the given limits. -/
def start (maxRecords : Nat) (ttlSeconds : Option Seconds) : Watched Json :=
  { ledger := { maxRecords, ttlSeconds } }

/-- The registrations whose effect may have happened unacknowledged. -/
def Unacknowledged (w : Watched Json) (reg : Registration Json) : Prop :=
  ((∃ id, w.known.get id = some reg) ∨ reg ∈ w.superseded) ∧ reg.unacknowledged = true

end Watched

/-- No record of unknown outcome is older than the lifetime when `_evict` runs
    at `now`, the record of call `spared` aside. -/
def ToolExecutionLedger.PendingYoung (ledger : ToolExecutionLedger Json) (now : Seconds)
    (spared : String) : Prop :=
  ∀ e ∈ ledger.recordsByCallId.entries, e.1 ≠ spared → e.2.status.isUnknownOutcome = true →
    ledger.outlived (now - e.2.createdAt) = false

/-- Fewer than `max_records` records were registered from any record of unknown
    outcome on. -/
def ToolExecutionLedger.PendingRecent (ledger : ToolExecutionLedger Json) : Prop :=
  ∀ newest ∈ ledger.recordsByCallId.entries.tails, ∀ e ∈ newest.head?,
    e.2.status.isUnknownOutcome = true → newest.length < ledger.maxRecords

/-- What a call must find so that it loses no pending call: an evicting call
    reaches no record of unknown outcome, and a call is marked submitted or
    indeterminate while its record is still there. -/
def Retains (w : Watched Json) (event : LedgerReads × LedgerCall Json) : Prop :=
  match event.2 with
  | .register id _ _ _ => w.ledger.recordsByCallId.contains id = false →
      w.ledger.PendingYoung event.1.later id ∧ w.ledger.PendingRecent
  | .committed id _ => w.ledger.recordsByCallId.contains id = true →
      w.ledger.PendingYoung event.1.later id
  | .submitted id | .indeterminate id _ =>
      w.known.contains id = true → w.ledger.recordsByCallId.contains id = true
  | .validated _ | .replayed _ _ | .failed _ _ => True

/-- Every step of the run meets `Retains` in the state it is taken from. -/
def RetainsAlong (w : Watched Json) : List (LedgerReads × LedgerCall Json) → Prop
  | [] => True
  | event :: events => Retains w event ∧ RetainsAlong (w.step sha256 event) events

instance (ledger : ToolExecutionLedger Json) (now : Seconds) (spared : String) :
    Decidable (ledger.PendingYoung now spared) :=
  inferInstanceAs (Decidable (∀ e ∈ ledger.recordsByCallId.entries, _))

instance (ledger : ToolExecutionLedger Json) : Decidable ledger.PendingRecent :=
  inferInstanceAs (Decidable (∀ newest ∈ ledger.recordsByCallId.entries.tails, _))

instance (w : Watched Json) : (event : LedgerReads × LedgerCall Json) → Decidable (Retains w event)
  | (reads, .register id _ _ _) => inferInstanceAs (Decidable (_ →
      w.ledger.PendingYoung reads.later id ∧ w.ledger.PendingRecent))
  | (reads, .committed id _) => inferInstanceAs (Decidable (_ → w.ledger.PendingYoung reads.later id))
  | (_, .submitted id) | (_, .indeterminate id _) => inferInstanceAs (Decidable
      (w.known.contains id = true → w.ledger.recordsByCallId.contains id = true))
  | (_, .validated _) | (_, .replayed _ _) | (_, .failed _ _) => inferInstanceAs (Decidable True)

instance decidableRetainsAlong (w : Watched Json) :
    (events : List (LedgerReads × LedgerCall Json)) → Decidable (RetainsAlong sha256 w events)
  | [] => inferInstanceAs (Decidable True)
  | event :: events =>
      have := decidableRetainsAlong (w.step sha256 event) events
      inferInstanceAs (Decidable (Retains w event ∧ RetainsAlong sha256 (w.step sha256 event) events))

namespace ToolExecutionLedger

omit [JsonCodec Json] in
/-- A young enough record with fewer than `max_records` newer ones survives. -/
theorem evict_keeps {ledger : ToolExecutionLedger Json} {now : Seconds} {id : String}
    {r : ToolExecutionRecord Json} {older newer : List (String × ToolExecutionRecord Json)}
    (split : ledger.recordsByCallId.entries = older ++ (id, r) :: newer)
    (young : ledger.outlived (now - r.createdAt) = false)
    (recent : newer.length < ledger.maxRecords) :
    (ledger.evict now).recordsByCallId.get id = some r := by
  obtain ⟨rest, kept⟩ := Dict.dropOldWhile_split
    (p := fun r => ledger.outlived (now - r.createdAt)) split young
  obtain ⟨front, final⟩ := Dict.keepNewest_split kept recent
  exact Dict.get_of_split final

omit [JsonCodec Json] in
theorem evict_size_le (ledger : ToolExecutionLedger Json) (now : Seconds) :
    (ledger.evict now).recordsByCallId.size ≤ ledger.maxRecords :=
  Dict.size_keepNewest_le _ _

/-- A record the ledger holds, with a status of unknown outcome, answers for
    its operation. -/
theorem hasIndeterminateOperation_of_get {ledger : ToolExecutionLedger Json} {id op tool : String}
    {arguments : Json} {r : ToolExecutionRecord Json}
    (found : ledger.recordsByCallId.get id = some r)
    (operation : r.logicalOperationId = op) (name : r.toolName = tool)
    (hash : r.argumentsHash = computeArgumentsHash sha256 arguments)
    (unknown : r.status.isUnknownOutcome = true) :
    ledger.hasIndeterminateOperation sha256 op tool arguments = true := by
  simp only [hasIndeterminateOperation, List.any_eq_true, decide_eq_true_eq]
  exact ⟨r, Dict.mem_values_iff.mpr ⟨id, found⟩, operation, name, hash, unknown⟩

end ToolExecutionLedger

/-- A record and a registration speak of the same operation. -/
structure SameOperation (r : ToolExecutionRecord Json) (reg : Registration Json) : Prop where
  operation : r.logicalOperationId = reg.logicalOperationId
  tool : r.toolName = reg.toolName
  hash : r.argumentsHash = computeArgumentsHash sha256 reg.arguments

/-- The ledger keeps up with the history. -/
structure Faithful (w : Watched Json) : Prop where
  bounded : w.ledger.recordsByCallId.size ≤ w.ledger.maxRecords
  agrees : ∀ id r, w.ledger.recordsByCallId.get id = some r →
    ∃ reg, w.known.get id = some reg ∧ SameOperation sha256 r reg
  pending : ∀ id reg, w.known.get id = some reg → reg.unacknowledged = true →
    ∃ r, w.ledger.recordsByCallId.get id = some r ∧ r.status.isUnknownOutcome = true
  settled : ∀ reg ∈ w.superseded, reg.unacknowledged = false

namespace Faithful

variable {sha256}

theorem start (maxRecords : Nat) (ttlSeconds : Option Seconds) :
    Faithful sha256 (Watched.start maxRecords ttlSeconds : Watched Json) where
  bounded := Nat.zero_le _
  agrees := by
    intro id r found
    cases found
  pending := by
    intro id reg found
    cases found
  settled := by
    intro reg member
    cases member

/-- Change one record and the registration of the same call. Only a call left
    unacknowledged needs its record, with a status of unknown outcome. -/
theorem update {w : Watched Json} (faithful : Faithful sha256 w) (id : String)
    {f : ToolExecutionRecord Json → ToolExecutionRecord Json}
    {g : Registration Json → Registration Json}
    (fSame : ∀ r reg, SameOperation sha256 r reg → SameOperation sha256 (f r) (g reg))
    (owned : ∀ reg, w.known.get id = some reg → (g reg).unacknowledged = true →
      ∃ r, w.ledger.recordsByCallId.get id = some r ∧ (f r).status.isUnknownOutcome = true) :
    Faithful sha256 { w with ledger := w.ledger.updateRecord id f, known := w.known.modify id g } where
  bounded := by simpa [ToolExecutionLedger.updateRecord] using faithful.bounded
  agrees := by
    intro other r found
    simp only [ToolExecutionLedger.updateRecord, Dict.get_modify] at found ⊢
    by_cases same : other = id
    · subst same
      simp only [if_pos, Option.map_eq_some_iff] at found ⊢
      obtain ⟨before, present, rfl⟩ := found
      obtain ⟨reg, knownReg, agree⟩ := faithful.agrees other before present
      exact ⟨g reg, ⟨reg, knownReg, rfl⟩, fSame before reg agree⟩
    · simp only [if_neg same] at found ⊢
      exact faithful.agrees other r found
  pending := by
    intro other reg knownReg flag
    simp only [ToolExecutionLedger.updateRecord, Dict.get_modify] at knownReg ⊢
    by_cases same : other = id
    · subst same
      simp only [if_pos, Option.map_eq_some_iff] at knownReg ⊢
      obtain ⟨before, knownBefore, rfl⟩ := knownReg
      obtain ⟨r, present, unknown⟩ := owned before knownBefore flag
      exact ⟨f r, ⟨r, present, rfl⟩, unknown⟩
    · simp only [if_neg same] at knownReg ⊢
      exact faithful.pending other reg knownReg flag
  settled := faithful.settled

/-- Eviction, when it reaches no record of unknown outcome. -/
theorem evict {w : Watched Json} (faithful : Faithful sha256 w) {now : Seconds}
    (spares : ∀ id r, w.ledger.recordsByCallId.get id = some r → r.status.isUnknownOutcome = true →
      (w.ledger.evict now).recordsByCallId.get id = some r) :
    Faithful sha256 { w with ledger := w.ledger.evict now } where
  bounded := w.ledger.evict_size_le now
  agrees := fun id r found => faithful.agrees id r (ToolExecutionLedger.record_of_evict found)
  pending := by
    intro id reg knownReg flag
    obtain ⟨r, present, unknown⟩ := faithful.pending id reg knownReg flag
    exact ⟨r, spares id r present unknown, unknown⟩
  settled := faithful.settled

/-- Mark a call, with or without leaving it unacknowledged. -/
theorem mark {w : Watched Json} (faithful : Faithful sha256 w) (id : String) (flag : Bool)
    {f : ToolExecutionRecord Json → ToolExecutionRecord Json}
    (identity : ∀ r, (f r).logicalOperationId = r.logicalOperationId ∧
      (f r).toolName = r.toolName ∧ (f r).argumentsHash = r.argumentsHash)
    (owned : flag = true →
      (w.known.contains id = true → w.ledger.recordsByCallId.contains id = true) ∧
      ∀ r, (f r).status.isUnknownOutcome = true) :
    Faithful sha256 { w with ledger := w.ledger.updateRecord id f, known := w.mark id flag } := by
  refine faithful.update id ?_ ?_
  · intro r reg same
    obtain ⟨operation, tool, hash⟩ := identity r
    exact ⟨operation.trans same.operation, tool.trans same.tool, hash.trans same.hash⟩
  · intro reg knownReg pending
    obtain ⟨present, unknown⟩ := owned pending
    obtain ⟨r, found⟩ := Option.isSome_iff_exists.mp (present (by simp [Dict.contains, knownReg]))
    exact ⟨r, found, unknown r⟩

theorem validated {w : Watched Json} (faithful : Faithful sha256 w) (reads : LedgerReads)
    (id : String) : Faithful sha256 { w with ledger := w.ledger.markValidated reads id } := by
  have unchanged : w.known.modify id (fun reg => reg) = w.known := by
    apply Dict.ext
    simp [Dict.modify, Dict.mapValues]
  have updated := faithful.update id
    (f := fun r => if r.status = .proposed then
      { r with status := .validated, updatedAt := reads.wall } else r)
    (g := fun reg => reg) ?_ ?_
  · rw [unchanged] at updated
    exact updated
  · intro r reg same
    split
    · exact ⟨same.operation, same.tool, same.hash⟩
    · exact same
  · intro reg knownReg pending
    obtain ⟨r, present, unknown⟩ := faithful.pending id reg knownReg pending
    refine ⟨r, present, ?_⟩
    split
    next proposed => rw [proposed] at unknown; cases unknown
    next => exact unknown

theorem committed {w : Watched Json} (faithful : Faithful sha256 w) (reads : LedgerReads)
    (id : String) (receipt : Json)
    (young : w.ledger.recordsByCallId.contains id = true → w.ledger.PendingYoung reads.later id) :
    Faithful sha256
      { w with ledger := w.ledger.markCommitted reads id receipt, known := w.mark id false } := by
  have marked := faithful.mark id false
    (f := fun r => { r with
      status := .committed, executionReceipt := some receipt, updatedAt := reads.wall })
    (fun _ => ⟨rfl, rfl, rfl⟩) (fun absurdity => by cases absurdity)
  unfold ToolExecutionLedger.markCommitted
  cases present : w.ledger.recordsByCallId.get id with
  | none =>
      refine ⟨faithful.bounded, ?_, ?_, faithful.settled⟩
      · intro other r found
        obtain ⟨reg, knownReg, same⟩ := faithful.agrees other r found
        have ne : other ≠ id := by
          intro eq
          rw [eq, present] at found
          cases found
        exact ⟨reg, by rw [Watched.mark, Dict.get_modify_ne _ _ ne]; exact knownReg, same⟩
      · intro other reg knownReg flag
        have ne : other ≠ id := by
          intro eq
          rw [eq, Watched.mark, Dict.get_modify_self, Option.map_eq_some_iff] at knownReg
          obtain ⟨before, _, rfl⟩ := knownReg
          cases flag
        rw [Watched.mark, Dict.get_modify_ne _ _ ne] at knownReg
        exact faithful.pending other reg knownReg flag
  | some r =>
      -- The receipt store is not looked at by the invariant, only the records are.
      have receipted : Faithful sha256 { w with
          known := w.mark id false
          ledger := { w.ledger.updateRecord id (fun r => { r with
              status := .committed, executionReceipt := some receipt, updatedAt := reads.wall }) with
            receiptsByOpHash := w.ledger.receiptsByOpHash.set
              (ToolExecutionLedger.opKey r.logicalOperationId r.toolName r.argumentsHash)
              (receipt, reads.now) } } :=
        ⟨marked.bounded, marked.agrees, marked.pending, marked.settled⟩
      refine receipted.evict ?_
      intro other before found unknown
      obtain ⟨older, newer, split⟩ := Dict.exists_split found
      have ne : other ≠ id := by
        intro eq
        simp only [ToolExecutionLedger.updateRecord] at found
        rw [eq, Dict.get_modify_self, Option.map_eq_some_iff] at found
        obtain ⟨_, _, rfl⟩ := found
        cases unknown
      have original : w.ledger.recordsByCallId.get other = some before := by
        simpa [ToolExecutionLedger.updateRecord, Dict.get_modify_ne _ _ ne] using found
      refine ToolExecutionLedger.evict_keeps split ?_ ?_
      · exact young (by simp [Dict.contains, present]) (other, before)
          (Dict.mem_entries_iff.mpr original) ne unknown
      · exact lt_of_lt_of_le (Dict.newer_lt_size split) receipted.bounded

theorem register {w : Watched Json} (faithful : Faithful sha256 w) (reads : LedgerReads)
    {id : String} (op tool : String) (arguments : Json)
    (absent : w.ledger.recordsByCallId.get id = none)
    (young : w.ledger.PendingYoung reads.later id) (recent : w.ledger.PendingRecent) :
    Faithful sha256
      { ledger := (w.ledger.registerToolCall sha256 reads id op tool arguments).2
        known := w.known.set id ⟨op, tool, arguments, false⟩
        superseded := (w.known.get id).toList ++ w.superseded } := by
  have fresh : ∀ reg, w.known.get id = some reg → reg.unacknowledged = false := by
    intro reg knownReg
    cases flag : reg.unacknowledged with
    | false => rfl
    | true =>
        obtain ⟨r, present, _⟩ := faithful.pending id reg knownReg flag
        rw [absent] at present
        cases present
  simp only [ToolExecutionLedger.registerToolCall, absent]
  refine ⟨ToolExecutionLedger.evict_size_le _ _, ?_, ?_, ?_⟩
  · intro other r found
    have inserted := ToolExecutionLedger.record_of_evict found
    simp only [Dict.get_set] at inserted ⊢
    by_cases same : other = id
    · simp only [if_pos same, Option.some.injEq] at inserted ⊢
      exact ⟨_, rfl, by subst inserted; exact ⟨rfl, rfl, rfl⟩⟩
    · simp only [if_neg same] at inserted ⊢
      exact faithful.agrees other r inserted
  · intro other reg knownReg flag
    simp only [Dict.get_set] at knownReg
    by_cases same : other = id
    · simp only [if_pos same, Option.some.injEq] at knownReg
      subst knownReg
      cases flag
    · simp only [if_neg same] at knownReg
      obtain ⟨r, present, unknown⟩ := faithful.pending other reg knownReg flag
      obtain ⟨older, newer, split⟩ := Dict.exists_split present
      have appended : ∀ record, (w.ledger.recordsByCallId.set id record).entries =
          older ++ (other, r) :: (newer ++ [(id, record)]) := by
        intro record
        simp only [Dict.set_entries_of_absent absent, split, List.append_assoc, List.cons_append]
      refine ⟨r, ToolExecutionLedger.evict_keeps (appended _)
        (young (other, r) (Dict.mem_entries_iff.mpr present) same unknown) ?_, unknown⟩
      have suffix : (other, r) :: newer <:+ w.ledger.recordsByCallId.entries := ⟨older, split.symm⟩
      simpa using recent _ ((List.mem_tails ..).mpr suffix) (other, r) rfl unknown
  · intro reg member
    rcases List.mem_append.mp member with here | there
    · exact fresh reg (Option.mem_toList.mp here)
    · exact faithful.settled reg there

/-- One call: the ledger keeps up when the call finds what `Retains` asks. -/
theorem step {w : Watched Json} (faithful : Faithful sha256 w)
    (event : LedgerReads × LedgerCall Json) (retains : Retains w event) :
    Faithful sha256 (w.step sha256 event) := by
  obtain ⟨reads, call⟩ := event
  cases call with
  | register id op tool arguments =>
      simp only [Watched.step, LedgerCall.apply]
      cases present : w.ledger.recordsByCallId.get id with
      | none =>
          have absent : w.ledger.recordsByCallId.contains id = false := by
            simp [Dict.contains, present]
          obtain ⟨young, recent⟩ := retains absent
          rw [if_neg (by simp [absent])]
          exact faithful.register reads op tool arguments present young recent
      | some r =>
          rw [if_pos (by simp [Dict.contains, present])]
          simpa only [ToolExecutionLedger.registerToolCall, present] using faithful
  | validated id => exact faithful.validated reads id
  | submitted id =>
      exact faithful.mark id true (fun _ => ⟨rfl, rfl, rfl⟩) (fun _ => ⟨retains, fun _ => rfl⟩)
  | indeterminate id reason =>
      exact faithful.mark id true (fun _ => ⟨rfl, rfl, rfl⟩) (fun _ => ⟨retains, fun _ => rfl⟩)
  | committed id receipt => exact faithful.committed reads id receipt retains
  | replayed id receipt =>
      exact faithful.mark id false (fun _ => ⟨rfl, rfl, rfl⟩) (fun absurdity => by cases absurdity)
  | failed id message =>
      exact faithful.mark id false (fun _ => ⟨rfl, rfl, rfl⟩) (fun absurdity => by cases absurdity)

theorem run {w : Watched Json} (faithful : Faithful sha256 w)
    (events : List (LedgerReads × LedgerCall Json)) (retains : RetainsAlong sha256 w events) :
    Faithful sha256 (w.run sha256 events) := by
  induction events generalizing w with
  | nil => exact faithful
  | cons event events ih => exact ih (faithful.step event retains.1) retains.2

theorem visible {w : Watched Json} (faithful : Faithful sha256 w) {reg : Registration Json}
    (pending : w.Unacknowledged reg) :
    w.ledger.hasIndeterminateOperation sha256 reg.logicalOperationId reg.toolName
      reg.arguments = true := by
  obtain ⟨⟨id, knownReg⟩ | lost, flag⟩ := pending
  · obtain ⟨r, present, unknown⟩ := faithful.pending id reg knownReg flag
    obtain ⟨reg', knownReg', same⟩ := faithful.agrees id r present
    obtain rfl : reg = reg' := Option.some.inj (knownReg.symm.trans knownReg')
    exact ToolExecutionLedger.hasIndeterminateOperation_of_get sha256 present same.operation
      same.tool same.hash unknown
  · rw [faithful.settled reg lost] at flag
    cases flag

end Faithful

def NondecreasingClock (events : List (LedgerReads × LedgerCall Json)) : Prop :=
  (events.flatMap fun event => [event.1.now, event.1.later]).Pairwise (· ≤ ·)

instance (events : List (LedgerReads × LedgerCall Json)) : Decidable (NondecreasingClock events) :=
  inferInstanceAs (Decidable (List.Pairwise _ _))

private def still : LedgerReads := ⟨0, 0, 0⟩

private def deployThenAnother : List (LedgerReads × LedgerCall OkObject) :=
  [(still, .register "call-1" "operation-1" "deploy" ⟨true⟩), (still, .submitted "call-1"),
    (still, .register "call-2" "operation-2" "deploy" ⟨true⟩)]

end DuraLLM
