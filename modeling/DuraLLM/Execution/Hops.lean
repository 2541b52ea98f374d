import DuraLLM.Execution.Permits
import DuraLLM.Execution.Routine
import DuraLLM.Lib.Visits

/-! # Hops between endpoints

The ledger remembers the endpoints that were attempted, and a rollover of rate
limits makes it forget those it names.  Its memory and its counters decide
which endpoint may be attempted next.  A run is projected to its reports of
attempts, its key rotations and its rollovers; one pass adds to them as
`PassHops` says, under the policies and the router that its contract grants.
-/

namespace DuraLLM

open Visit (recalled)

variable {Json Decision : Type}

inductive HopNote where
  /-- The report of an attempt. -/
  | attempted (endpointId : String) (success : Bool)
  /-- There is another key than that of the attempt about to be reported. -/
  | rotated (endpointId : String)
  | rolledOver (endpointIds : List String)
  deriving DecidableEq

namespace HopNote

def visit? : HopNote → Option (Visit String)
  | .attempted endpointId _ => some (.visit endpointId)
  | .rolledOver endpointIds => some (.forget endpointIds)
  | .rotated _ => none

end HopNote

/-- The visits to endpoints. -/
def visitsIn (notes : List HopNote) : List (Visit String) := notes.filterMap HopNote.visit?

theorem visitsIn_append (notes later : List HopNote) :
    visitsIn (notes ++ later) = visitsIn notes ++ visitsIn later :=
  List.filterMap_append

def LocalOp.hopNote : LocalOp Json → Option HopNote
  | .keep (.event (.upstreamAttemptSucceeded record)) => some (.attempted record.endpointId true)
  | .keep (.event (.upstreamAttemptFailed record)) => some (.attempted record.endpointId false)
  | .keep (.event (.rateLimitRolloverWait _ endpoints _ _)) => some (.rolledOver endpoints)
  | _ => none

def hopNote : Exchange Json Decision → Option HopNote
  | ⟨.inl op, _⟩ => op.hopNote
  | ⟨.inr (.hasAlternativeKey endpoint _ _), (another : Bool)⟩ =>
      if another then some (.rotated endpoint.id) else none
  | ⟨.inr _, _⟩ => none

/-- What the surroundings are granted: the policies that may be shown, and
    whether the router honours the exclusions. -/
structure HopTerms where
  policies : ExecutionPolicy → Prop
  honours : Prop

def HopTerms.grants (terms : HopTerms) : (op : LocalOp Json) → op.Answer Json Decision → Prop
  | .policy, (policy : ExecutionPolicy) => terms.policies policy
  | .selectCandidate _ _ _ _ excluded _,
      (.ok (some endpoint, _) : Except RaisedError (Option Endpoint × Decision)) =>
      terms.honours → endpoint.id ∉ excluded
  | _, _ => True

def hopContract (Json Decision : Type) (terms : HopTerms) :
    Contract (executorSig Json Decision) HopNote where
  fair := fun op answer =>
    match op, answer with
    | .inl op, answer => terms.grants op answer
    | .inr _, _ => True
  good := fun _ => True
  note := hopNote

/-! ## The ledger -/

namespace AttemptLedger

/-- The counters agree with the memory. -/
def Counted (ledger : AttemptLedger) : Prop :=
  ∀ endpointId, ledger.attemptsOn endpointId = ledger.endpointsAttempted.count endpointId

theorem counted_record {ledger : AttemptLedger} (counted : ledger.Counted) (record : AttemptRecord) :
    (ledger.recordAttempt record).Counted := by
  intro endpointId
  simp only [recordAttempt, attemptsOn, Dict.get_set, List.count_append, List.count_singleton]
  split
  next same =>
    subst same
    simp [← counted record.endpointId, attemptsOn]
  next other =>
    have different : ¬record.endpointId = endpointId := fun same => other same.symm
    simpa [different, attemptsOn] using counted endpointId

theorem counted_reset {ledger : AttemptLedger} (counted : ledger.Counted) (policy : ExecutionPolicy)
    (endpointIds : List String) : (ledger.resetForRateLimitRetry policy endpointIds).1.Counted := by
  have counters : ∀ (counts : Dict String Nat) endpointId,
      ((endpointIds.foldl (fun counts id => counts.set id 0) counts).get endpointId).getD 0 =
        if endpointId ∈ endpointIds then 0 else (counts.get endpointId).getD 0 := by
    induction endpointIds with
    | nil => simp
    | cons first rest ih =>
        intro counts endpointId
        rw [List.foldl_cons, ih, Dict.get_set]
        by_cases later : endpointId ∈ rest
        · simp [later]
        · by_cases here : endpointId = first
          · simp [here]
          · simp [later, here]
  intro endpointId
  have kept := counted endpointId
  simp only [attemptsOn] at kept
  simp only [resetForRateLimitRetry, attemptsOn, counters]
  by_cases named : endpointId ∈ endpointIds
  · rw [if_pos named, eq_comm, List.count_eq_zero]
    intro member
    have free := (List.mem_filter.mp member).2
    simp [named] at free
  · rw [if_neg named, List.count_filter (by simpa using named)]
    exact kept

/-- The candidate is within the budget of hops, and no endpoint is returned to
    that was left. -/
theorem permits_of_validate {ledger : AttemptLedger} {policy : ExecutionPolicy}
    {endpointId : String} (valid : ledger.validateNextCandidate policy endpointId = .ok ()) :
    ledger.fallbackCount < policy.fallback.maxFallbackHops ∧
      Visit.Permits ledger.endpointsAttempted endpointId := by
  unfold validateNextCandidate at valid
  split at valid
  · cases valid
  · split at valid
    · cases valid
    next spent hops =>
      refine ⟨by omega, ?_⟩
      cases memory : ledger.endpointsAttempted.reverse with
      | nil => exact .inr (by simp [List.reverse_eq_nil_iff.mp memory])
      | cons previous earlier =>
          rw [memory] at valid
          have order : ledger.endpointsAttempted = earlier.reverse ++ [previous] := by
            rw [← List.reverse_reverse ledger.endpointsAttempted, memory, List.reverse_cons]
          rw [Visit.Permits, order, List.getLast?_concat, List.mem_append, List.mem_reverse,
            List.mem_singleton]
          by_cases here : endpointId = previous
          · exact .inl (congrArg some here.symm)
          · by_cases cycle : endpointId ∈ earlier
            · simp [here, cycle] at valid
            · exact .inr fun member => member.elim cycle here

end AttemptLedger

/-! ## The notes of a pass -/

section Notes

variable (terms : HopTerms)

/-- What decides on the next candidate is the same, and no endpoint is admitted
    again. -/
structure LoopState.Keeps (s t : LoopState Json) : Prop where
  ledger : t.ledger = s.ledger
  marked : t.fallbackMarked = s.fallbackMarked
  last : t.lastEndpoint = s.lastEndpoint
  excluded : s.excludedEndpoints ⊆ t.excludedEndpoints

/-- Leaving an endpoint takes a hop, unless it was counted when that endpoint was
    given up. -/
structure LoopState.Leaves (s : LoopState Json) (endpointId : String) (t : LoopState Json) :
    Prop where
  memory : t.ledger.endpointsAttempted = s.ledger.endpointsAttempted
  counts : t.ledger.endpointCounts = s.ledger.endpointCounts
  excluded : s.excludedEndpoints ⊆ t.excludedEndpoints
  hop : (t.fallbackMarked = s.fallbackMarked ∧ t.ledger.fallbackCount = s.ledger.fallbackCount ∧
      ∀ left ∈ s.lastEndpoint, left.id = endpointId) ∨
    t.fallbackMarked = false ∧
      t.ledger.fallbackCount = s.ledger.fallbackCount + if s.fallbackMarked then 0 else 1

/-- A candidate was validated, and is the endpoint now. -/
structure LoopState.Chooses (s : LoopState Json) (endpointId : String) (t : LoopState Json) :
    Prop extends s.Leaves endpointId t where
  valid : ∃ policy, terms.policies policy ∧
    s.ledger.validateNextCandidate policy endpointId = .ok ()
  free : terms.honours → endpointId ∉ s.excludedEndpoints
  last : t.lastEndpoint.map (·.id) = some endpointId

/-- The reports of one attempt: a success whose cost is refused is reported again,
    as a failure. -/
inductive AttemptNotes (endpointId : String) : List HopNote → Prop where
  | once (success : Bool) : AttemptNotes endpointId [.attempted endpointId success]
  | twice : AttemptNotes endpointId [.attempted endpointId true, .attempted endpointId false]

/-- What was reported is on the ledger. -/
structure LoopState.Records (s : LoopState Json) (notes : List HopNote) (t : LoopState Json) :
    Prop where
  memory : t.ledger.endpointsAttempted = recalled s.ledger.endpointsAttempted (visitsIn notes)
  counted : s.ledger.Counted → t.ledger.Counted
  hops : t.ledger.fallbackCount = s.ledger.fallbackCount
  marked : t.fallbackMarked = s.fallbackMarked
  last : t.lastEndpoint = s.lastEndpoint
  excluded : s.excludedEndpoints ⊆ t.excludedEndpoints

/-- The endpoint is excluded, and the hop away from it is counted. -/
structure LoopState.GivesUp (s : LoopState Json) (endpointId : String) (t : LoopState Json) :
    Prop where
  ledger : t.ledger = s.ledger.markFallback
  marked : t.fallbackMarked = true
  last : t.lastEndpoint = s.lastEndpoint
  excluded : s.excludedEndpoints ⊆ t.excludedEndpoints
  gone : endpointId ∈ t.excludedEndpoints

/-- What the loop does after a failed attempt: it may attempt the endpoint again,
    or gives it up, or gives up altogether. -/
inductive RecoverHops (s : LoopState Json) (endpointId : String) :
    Except RaisedError (LoopState Json) → Prop where
  | raised (e : RaisedError) : RecoverHops s endpointId (.error e)
  | kept {t : LoopState Json} (keeps : s.Keeps t) {policy : ExecutionPolicy}
      (shown : terms.policies policy)
      (room : s.ledger.canAttemptEndpoint policy endpointId = true) :
      RecoverHops s endpointId (.ok t)
  | gaveUp {t : LoopState Json} (gives : s.GivesUp endpointId t) : RecoverHops s endpointId (.ok t)

/-- What follows on a dispatch to the endpoint. -/
inductive AttemptHops (s : LoopState Json) (endpointId : String) :
    PassResult Json Decision → List HopNote → Prop where
  | stopped {result : PassResult Json Decision} (final : ∀ t, result ≠ .next t)
      {notes : List HopNote} (made : notes = [] ∨ AttemptNotes endpointId notes) :
      AttemptHops s endpointId result notes
  | rotated {t : LoopState Json}
      (records : s.Records [.rotated endpointId, .attempted endpointId false] t) :
      AttemptHops s endpointId (.next t) [.rotated endpointId, .attempted endpointId false]
  | failed {t u : LoopState Json} {notes : List HopNote} (made : AttemptNotes endpointId notes)
      (records : s.Records notes t) (recovers : RecoverHops terms t endpointId (.ok u)) :
      AttemptHops s endpointId (.next u) notes

/-- The endpoints named are admitted again. -/
structure LoopState.Readmits (s : LoopState Json) (endpointIds : List String)
    (t : LoopState Json) : Prop where
  ledger : ∃ policy, t.ledger = (s.ledger.resetForRateLimitRetry policy endpointIds).1
  marked : t.fallbackMarked = s.fallbackMarked
  last : t.lastEndpoint = s.lastEndpoint
  excluded : ∀ endpointId ∈ s.excludedEndpoints,
    endpointId ∈ endpointIds ∨ endpointId ∈ t.excludedEndpoints

inductive PassHops (s : LoopState Json) :
    PassResult Json Decision → List HopNote → Prop where
  | stopped {result : PassResult Json Decision} (final : ∀ t, result ≠ .next t) : PassHops s result []
  | idle {t : LoopState Json} (keeps : s.Keeps t) : PassHops s (.next t) []
  | rolledOver {endpointIds : List String} {t : LoopState Json} (rolls : s.Readmits endpointIds t) :
      PassHops s (.next t) [.rolledOver endpointIds]
  /-- The candidate was turned down after all. -/
  | passed {endpointId : String} {t u : LoopState Json} (chosen : s.Chooses terms endpointId t)
      (keeps : t.Keeps u) : PassHops s (.next u) []
  | tried {endpointId : String} {t : LoopState Json} (chosen : s.Chooses terms endpointId t)
      {result : PassResult Json Decision} {notes : List HopNote}
      (attempt : AttemptHops terms t endpointId result notes) : PassHops s result notes

/-- The notes of a run from a state of the loop on. -/
inductive RunHops : LoopState Json → List HopNote → Prop where
  | done (s : LoopState Json) : RunHops s []
  | last {s : LoopState Json} {result : PassResult Json Decision} (final : ∀ t, result ≠ .next t)
      {notes : List HopNote} (pass : PassHops terms s result notes) : RunHops s notes
  | next {s t : LoopState Json} {notes later : List HopNote}
      (pass : PassHops terms s (.next t : PassResult Json Decision) notes)
      (rest : RunHops t later) : RunHops s (notes ++ later)

end Notes

namespace LoopState.Keeps

variable {s t u : LoopState Json}

theorem refl (s : LoopState Json) : s.Keeps s := ⟨rfl, rfl, rfl, List.Subset.refl _⟩

theorem trans (first : s.Keeps t) (second : t.Keeps u) : s.Keeps u :=
  ⟨second.ledger.trans first.ledger, second.marked.trans first.marked,
    second.last.trans first.last, List.Subset.trans first.excluded second.excluded⟩

theorem exclude (first : s.Keeps t) (endpoint : Endpoint) : s.Keeps (t.exclude endpoint) :=
  ⟨first.ledger, first.marked, first.last,
    fun _ member => List.mem_append_left _ (first.excluded member)⟩

theorem excludeOnce (first : s.Keeps t) (endpointId : String) :
    s.Keeps (t.excludeOnce endpointId) := by
  unfold LoopState.excludeOnce
  split
  · exact first
  · exact ⟨first.ledger, first.marked, first.last,
      fun _ member => List.mem_append_left _ (first.excluded member)⟩

theorem excludeAll (first : s.Keeps t) (endpoints : List Endpoint) :
    s.Keeps (endpoints.foldl (fun s e => s.excludeOnce e.id) t) := by
  induction endpoints generalizing t with
  | nil => exact first
  | cons e endpoints ih => exact ih (first.excludeOnce e.id)

end LoopState.Keeps

/-! ## What is not noted -/

section Rules

variable {terms : HopTerms} {α : Type}

theorem hop_unnoted : Unnoted (hopContract Json Decision terms).left := by
  intro op plain
  cases op with
  | keep note =>
      cases note with
      | event event => cases event <;> first | exact ⟨trivial, fun _ => rfl⟩ | cases plain
      | _ => exact ⟨trivial, fun _ => rfl⟩
  | _ => exact ⟨trivial, fun _ => rfl⟩

/-- An operation of no note, with what is granted of its answer. -/
theorem hop_granted {op : LocalOp Json} (noted : op.hopNote = none) :
    (Local.ask op : Local Json Decision _).Quiet (hopContract Json Decision terms).left
      (terms.grants op) :=
  Prog.quiet_call trivial fun _ => noted

theorem hop_silent {op : LocalOp Json} (noted : op.hopNote = none) :
    (Local.ask op : Local Json Decision _).Quiet (hopContract Json Decision terms).left
      fun _ => True :=
  (hop_granted noted).imp fun _ _ => trivial

theorem hop_lifted {op : LocalOp Json} (noted : op.hopNote = none) :
    Prog.QuietExcept (hopContract Json Decision terms).left (fun _ => True)
      (Raising.ofLocal (Local.ask op) : Raising Json Decision _) :=
  Prog.quietExcept_lift (hop_silent noted)

/-- The policy of the moment. -/
theorem hop_policy :
    (Local.policy : Local Json Decision _).Quiet (hopContract Json Decision terms).left
      terms.policies :=
  hop_granted rfl

theorem hop_settleReserved (reservation : Option Reservation) :
    (settleReserved reservation : Local Json Decision Unit).Quiet
      (hopContract Json Decision terms).left fun _ => True := by
  cases reservation with
  | none => exact Prog.quiet_pure trivial
  | some r => exact hop_silent rfl

theorem hop_finishDurableAttempt (executor : GatewayExecutor Json) (record : AttemptRecord)
    (status : AttemptStatus) (detail : AttemptDetail) :
    (finishDurableAttempt executor record status detail : Local Json Decision Unit).Quiet
      (hopContract Json Decision terms).left fun _ => True := by
  unfold finishDurableAttempt
  split
  · exact hop_silent rfl
  · exact Prog.quiet_pure trivial

/-- The end of most handlers. -/
theorem hop_settleAndFinish (executor : GatewayExecutor Json) (reservation : Option Reservation)
    (record : AttemptRecord) (status : AttemptStatus) (detail : AttemptDetail) (a : α) :
    (do
      settleReserved reservation
      finishDurableAttempt executor record status detail
      return a : Local Json Decision α).Quiet (hopContract Json Decision terms).left
        fun b => b = a := by
  refine (hop_settleReserved reservation).bind fun _ _ => ?_
  refine (hop_finishDurableAttempt executor record status detail).bind fun _ _ => ?_
  exact Prog.quiet_pure rfl

theorem hop_emitAttempt (record : AttemptRecord) :
    (emitAttempt record : Local Json Decision Unit).Meets (hopContract Json Decision terms).left
      fun _ log => log = [.attempted record.endpointId record.success] := by
  unfold emitAttempt
  split
  next succeeded => exact ⟨trivial, fun _ _ => by rw [succeeded]; rfl⟩
  next failed =>
    have lost : record.success = false := by simpa using failed
    exact ⟨trivial, fun _ _ => by rw [lost]; rfl⟩

end Rules

/-! ## Records -/

section Records

variable {terms : HopTerms} (call : ExecuteCall Json) (s : LoopState Json)
  (d : Dispatch Json Decision)

theorem keeps_recordBilling (endpoint : Endpoint) (classified : FailureClassification) :
    (recordBilling call s endpoint classified : Local Json Decision _).Quiet
      (hopContract Json Decision terms).left s.Keeps := by
  unfold recordBilling
  split
  · exact Prog.quiet_pure (.refl s)
  · refine (hop_unnoted.quiet_lockQuota call endpoint classified _).bind fun _ _ => ?_
    split
    · refine (hop_silent rfl).bind fun endpoints _ => ?_
      exact Prog.quiet_pure ((LoopState.Keeps.refl s).excludeAll _)
    · exact Prog.quiet_pure (.refl s)

theorem keeps_recordPermanent (endpoint : Endpoint) (classified : FailureClassification) :
    (recordPermanent call s endpoint classified : Local Json Decision _).Quiet
      (hopContract Json Decision terms).left s.Keeps := by
  unfold recordPermanent
  split
  · refine (hop_silent rfl).bind fun _ _ => ?_
    dsimp only
    split
    · refine (hop_silent rfl).bind fun _ _ => ?_
      exact Prog.quiet_pure ((LoopState.Keeps.refl s).excludeOnce endpoint.id)
    · exact Prog.quiet_pure ((LoopState.Keeps.refl s).excludeOnce endpoint.id)
  · exact Prog.quiet_pure (.refl s)

/-- A report puts the endpoint on the ledger once. -/
theorem records_report {t u : LoopState Json} (keeps : s.Keeps t) (record : AttemptRecord)
    (success : Bool) (ledger : u.ledger = t.ledger.recordAttempt record)
    (marked : u.fallbackMarked = t.fallbackMarked) (last : u.lastEndpoint = t.lastEndpoint)
    (excluded : t.excludedEndpoints ⊆ u.excludedEndpoints) :
    s.Records [.attempted record.endpointId success] u where
  memory := by
    rw [ledger, ← keeps.ledger]
    rfl
  counted := by
    intro counted
    rw [ledger]
    exact AttemptLedger.counted_record (keeps.ledger ▸ counted) record
  hops := by
    rw [ledger, ← keeps.ledger]
    rfl
  marked := marked.trans keeps.marked
  last := last.trans keeps.last
  excluded := List.Subset.trans keeps.excluded excluded

theorem hops_recordAttempt (record : AttemptRecord) :
    (recordAttempt s record : Local Json Decision _).Meets (hopContract Json Decision terms).left
      fun t log => t = { s with ledger := s.ledger.recordAttempt record } ∧
        log = [.attempted record.endpointId record.success] := by
  refine (hop_emitAttempt record).seq fun _ log emitted => ?_
  subst emitted
  exact ⟨rfl, rfl⟩

theorem LoopState.Records.trans {s t u : LoopState Json} {first second : List HopNote}
    (begins : s.Records first t) (goesOn : t.Records second u) : s.Records (first ++ second) u where
  memory := by
    rw [goesOn.memory, begins.memory, visitsIn_append, Visit.recalled_append]
  counted := fun counted => goesOn.counted (begins.counted counted)
  hops := goesOn.hops.trans begins.hops
  marked := goesOn.marked.trans begins.marked
  last := goesOn.last.trans begins.last
  excluded := List.Subset.trans begins.excluded goesOn.excluded

/-- To record the last attempt once more counts as one more. -/
theorem recordAgain_eq (ledger : AttemptLedger) (record : AttemptRecord) :
    ∃ attempts, ledger.recordAgain record = { ledger with attempts }.recordAttempt record :=
  ⟨_, rfl⟩

theorem hops_recordFailedAttempt (result : ExecutionResult) (classified : FailureClassification)
    (recorded : Bool) :
    (recordFailedAttempt call s d result classified recorded).Meets
      (hopContract Json Decision terms).left fun t log =>
        log = [.attempted d.attempt.endpointId false] ∧ s.Records log t := by
  refine (hop_silent rfl).then fun _ _ => ?_
  refine (keeps_recordBilling call s d.endpoint classified).then fun t billed => ?_
  refine (keeps_recordPermanent call t d.endpoint classified).then fun u dead => ?_
  refine (hop_unnoted.quiet_recordLaneOutcome d.endpoint (some classified)).then fun _ _ => ?_
  refine (hop_unnoted.quiet_finish d.attempt false _ (some classified)).then
    fun record finished => ?_
  refine (hop_emitAttempt record).seq fun _ log emitted => ?_
  refine (hop_settleAndFinish call.executor d.reservation record _ _ _).meets fun v ended => ?_
  subst ended emitted
  obtain ⟨now, rfl⟩ := finished
  refine ⟨rfl, ?_⟩
  have keeps := billed.trans dead
  cases recorded with
  | false => exact records_report s keeps _ false rfl rfl rfl (List.Subset.refl _)
  | true =>
      -- What was recorded of the success is replaced, and counted again.
      have again : LoopState.Keeps s { u with ledger := u.ledger } := keeps
      refine ⟨?_, ?_, ?_, keeps.marked, keeps.last, keeps.excluded⟩
      · change u.ledger.endpointsAttempted ++ [_] = _
        rw [again.ledger]
        rfl
      · intro counted
        have kept : u.ledger.Counted := again.ledger ▸ counted
        have replaced : ∀ attempts, AttemptLedger.Counted { u.ledger with attempts } := fun _ => kept
        exact AttemptLedger.counted_record (replaced _) _
      · change u.ledger.fallbackCount = _
        rw [again.ledger]

theorem hops_rotateKey (keyId : String) (result : ExecutionResult)
    (classified : FailureClassification) :
    (rotateKey call s d keyId result classified).Meets (hopContract Json Decision terms).left
      fun t log => log = [.attempted d.attempt.endpointId false] ∧ s.Records log t := by
  refine (hop_silent rfl).then fun _ _ => (hop_silent rfl).then fun _ _ => ?_
  refine (hop_unnoted.quiet_finish d.attempt false _ (some classified)).then
    fun record finished => ?_
  refine (hops_recordAttempt s record).seq fun t log recorded => ?_
  obtain ⟨rfl, rfl⟩ := recorded
  refine (hop_settleAndFinish call.executor d.reservation record _ _ _).meets fun u ended => ?_
  subst ended
  obtain ⟨now, rfl⟩ := finished
  exact ⟨rfl, records_report s (.refl s) _ false rfl rfl rfl (List.Subset.refl _)⟩

theorem hops_blockAttempt :
    (blockAttempt call s d).Meets (hopContract Json Decision terms).left
      fun _ log => log = [.attempted d.attempt.endpointId false] := by
  refine (hop_unnoted.quiet_finish d.attempt false 409 none).then fun record finished => ?_
  refine (hop_settleReserved d.reservation).then fun _ _ => ?_
  refine (hops_recordAttempt s record).seq fun t log recorded => ?_
  obtain ⟨rfl, rfl⟩ := recorded
  refine (hop_finishDurableAttempt call.executor record _ _).then fun _ _ => ?_
  obtain ⟨now, rfl⟩ := finished
  rfl

theorem hops_recordTransportError (error : RaisedError) (record : AttemptRecord)
    (classified : FailureClassification) :
    (recordTransportError call s d error record classified).Meets
      (hopContract Json Decision terms).left
        fun _ log => log = [.attempted record.endpointId record.success] := by
  refine (hop_silent rfl).then fun _ _ => (hop_silent rfl).then fun _ _ => ?_
  refine (hop_unnoted.quiet_recordLaneOutcome d.endpoint (some classified)).then fun _ _ => ?_
  refine (hops_recordAttempt s record).seq fun t log recorded => ?_
  obtain ⟨rfl, rfl⟩ := recorded
  exact (hop_settleAndFinish call.executor d.reservation record _ _ _).meets fun _ _ => rfl

theorem hops_recordSuccess (result : ExecutionResult) :
    (recordSuccess call s d result).Meets (hopContract Json Decision terms).left
      fun noted log => log = [.attempted d.attempt.endpointId true] ∧ s.Records log noted.2 := by
  have recorded : (do
      let record ← finish d.attempt true 200 none
      return (record, ← recordAttempt s record) : Local Json Decision _).Meets
        (hopContract Json Decision terms).left fun noted log =>
          log = [.attempted d.attempt.endpointId true] ∧ s.Records log noted.2 := by
    refine (hop_unnoted.quiet_finish d.attempt true 200 none).then fun record finished => ?_
    refine (hops_recordAttempt s record).seq fun t log recorded => ?_
    obtain ⟨rfl, rfl⟩ := recorded
    obtain ⟨now, rfl⟩ := finished
    exact ⟨rfl, records_report s (.refl s) _ true rfl rfl rfl (List.Subset.refl _)⟩
  refine (hop_silent rfl).then fun _ _ => ?_
  refine (hop_unnoted.quiet_recordLaneOutcome d.endpoint none).then fun _ _ => ?_
  dsimp only
  split
  · refine (hop_silent rfl).then fun _ _ => ?_
    split
    · exact (hop_silent rfl).then fun _ _ => recorded
    · exact recorded
  · split
    · exact (hop_silent rfl).then fun _ _ => recorded
    · exact recorded

/-! ### Recovery -/

theorem hops_stepFallback (classified : FailureClassification) :
    (stepFallback call s d classified).Quiet (hopContract Json Decision terms).left
      (s.GivesUp d.endpoint.id) := by
  have gives : s.GivesUp d.endpoint.id
      { s.exclude d.endpoint with ledger := s.ledger.markFallback, fallbackMarked := true } :=
    ⟨rfl, rfl, rfl, List.subset_append_left _ _, List.mem_append_right _ List.mem_cons_self⟩
  unfold stepFallback
  split
  · exact Prog.quiet_pure gives
  · refine (hop_silent rfl).bind fun _ _ => ?_
    dsimp only
    split
    · exact (hop_silent rfl).bind fun _ _ => Prog.quiet_pure gives
    · exact Prog.quiet_pure gives

theorem hops_backOff (classified : FailureClassification) :
    (backOff call s d classified).Quiet (hopContract Json Decision terms).left
      fun t => s.Keeps t ∨ s.GivesUp d.endpoint.id t := by
  refine (hop_silent rfl).bind fun p _ => ?_
  refine (hop_unnoted.quiet_computeBackoffSeconds _ _ _).bind fun backoff _ => ?_
  refine (hop_silent rfl).bind fun now _ => ?_
  split
  · exact (hops_stepFallback call s d classified).imp fun _ gives => .inr gives
  · refine (hop_silent rfl).bind fun _ _ => ?_
    dsimp only
    split
    · exact Prog.quiet_pure (.inl (.refl s))
    · split
      · exact Prog.quiet_pure (.inl (.refl s))
      · exact (hop_silent rfl).bind fun _ _ => Prog.quiet_pure (.inl (.refl s))

/-- Programs that may raise, and end as the loop does after a failed attempt. -/
abbrev Recovering (terms : HopTerms) (s : LoopState Json) (endpointId : String)
    (p : Raising Json Decision (LoopState Json)) : Prop :=
  p.run.Quiet (hopContract Json Decision terms).left (RecoverHops terms s endpointId)

theorem recovering_of_keeps {endpointId : String} {p : Raising Json Decision (LoopState Json)}
    (keeps : Prog.QuietExcept (hopContract Json Decision terms).left s.Keeps p)
    {policy : ExecutionPolicy} (shown : terms.policies policy)
    (room : s.ledger.canAttemptEndpoint policy endpointId = true) :
    Recovering terms s endpointId p := by
  refine Prog.Quiet.imp keeps fun result held => ?_
  cases result with
  | ok t => exact .kept (held t rfl) shown room
  | error e => exact .raised e

theorem keeps_clampOutput (classified : FailureClassification) :
    Prog.QuietExcept (hopContract Json Decision terms).left s.Keeps
      (clampOutput s d classified) := by
  have parsed : Prog.QuietExcept (hopContract Json Decision terms).left (fun _ => True)
      (Raising.parseOutputCap classified.message : Raising Json Decision _) :=
    (hop_silent rfl).imp fun _ _ _ _ => trivial
  exact parsed.bind fun cap _ => Prog.quietExcept_pure ⟨rfl, rfl, rfl, List.Subset.refl _⟩

theorem keeps_shrinkWindow (classified : FailureClassification) :
    Prog.QuietExcept (hopContract Json Decision terms).left s.Keeps
      (shrinkWindow s d classified) := by
  have parsed : Prog.QuietExcept (hopContract Json Decision terms).left (fun _ => True)
      (Raising.parseInputTpmLimit classified.message : Raising Json Decision _) :=
    (hop_silent rfl).imp fun _ _ _ _ => trivial
  unfold shrinkWindow
  dsimp only
  split
  case' h_1 =>
    refine (Prog.quietExcept_pure trivial : Prog.QuietExcept _ (fun _ => True) _).bind fun
      tokenLimit _ => ?_
  case' h_2 => refine parsed.bind fun tokenLimit _ => ?_
  all_goals
    split
    · exact Prog.quietExcept_pure ⟨rfl, rfl, rfl, List.Subset.refl _⟩
    · split
      · exact Prog.quietExcept_throw _
      · exact Prog.quietExcept_pure ⟨rfl, rfl, rfl, List.Subset.refl _⟩

theorem recovering_retryOrFallBack (classified : FailureClassification) :
    Recovering terms s d.endpoint.id (retryOrFallBack call s d classified) := by
  have policy : Prog.QuietExcept (hopContract Json Decision terms).left terms.policies
      (Raising.ofLocal Local.policy : Raising Json Decision _) := Prog.quietExcept_lift hop_policy
  refine policy.then (fun e => ⟨rfl, .raised e⟩) fun p shown => ?_
  split
  next again =>
    refine Prog.Quiet.bind (hops_backOff call s d classified) fun t held => ?_
    rcases held with keeps | gives
    · exact Prog.quiet_pure (.kept keeps shown again.2)
    · exact Prog.quiet_pure (.gaveUp gives)
  · split
    · refine Prog.Quiet.bind (hops_stepFallback call s d classified) fun t gives => ?_
      exact Prog.quiet_pure (.gaveUp gives)
    · refine (hop_lifted rfl).then (fun e => ⟨rfl, .raised e⟩) fun _ _ => ?_
      exact ⟨rfl, .raised _⟩

theorem recovering_recover (classified : FailureClassification) :
    Recovering terms s d.endpoint.id (recover call s d classified) := by
  have policy : Prog.QuietExcept (hopContract Json Decision terms).left terms.policies
      (Raising.ofLocal Local.policy : Raising Json Decision _) := Prog.quietExcept_lift hop_policy
  refine policy.then (fun e => ⟨rfl, .raised e⟩) fun p shown => ?_
  dsimp only
  split
  next again => exact recovering_of_keeps s (keeps_clampOutput s d classified) shown again.2.2
  · split
    next again => exact recovering_of_keeps s (keeps_shrinkWindow s d classified) shown again.2.2
    · exact recovering_retryOrFallBack call s d classified

end Records

/-! ## Up to the prepared request -/

section Prepare

variable (terms : HopTerms)

theorem PassHops.of_index {s : LoopState Json} {index : Nat} {result : PassResult Json Decision}
    {notes : List HopNote}
    (pass : PassHops terms ({ s with attemptIdx := index } : LoopState Json) result notes) :
    PassHops terms s result notes := by
  cases pass with
  | stopped final => exact .stopped final
  | idle keeps => exact .idle ⟨keeps.ledger, keeps.marked, keeps.last, keeps.excluded⟩
  | rolledOver rolls =>
      exact .rolledOver ⟨rolls.ledger, rolls.marked, rolls.last, rolls.excluded⟩
  | passed chosen keeps =>
      have own : s.Chooses terms _ _ :=
        ⟨⟨chosen.memory, chosen.counts, chosen.excluded, chosen.hop⟩, chosen.valid, chosen.free,
          chosen.last⟩
      exact .passed own keeps
  | tried chosen attempt =>
      have own : s.Chooses terms _ _ :=
        ⟨⟨chosen.memory, chosen.counts, chosen.excluded, chosen.hop⟩, chosen.valid, chosen.free,
          chosen.last⟩
      exact .tried own attempt

def PrepareHops (s : LoopState Json) :
    Except RaisedError (Preparation Json Decision) → List HopNote → Prop
  | .error _, log => log = []
  | .ok (.skipped t), log => PassHops terms s (.next t : PassResult Json Decision) log
  | .ok (.ready t d), log =>
      log = [] ∧ d.attempt.endpointId = d.endpoint.id ∧ s.Chooses terms d.endpoint.id t

variable {terms} (call : ExecuteCall Json) (s : LoopState Json)

/-- Erasing some leaves the others. -/
theorem mem_foldl_erase (erased : List String) {ids : List String} {id : String}
    (member : id ∈ ids) : id ∈ erased ∨ id ∈ erased.foldl List.erase ids := by
  induction erased generalizing ids with
  | nil => exact .inr member
  | cons first rest ih =>
      by_cases same : id = first
      · exact .inl (List.mem_cons.mpr (.inl same))
      · have kept := (List.mem_erase_of_ne same).mpr member
        exact (ih kept).imp_left (List.mem_cons_of_mem _)

theorem hops_reopenLanes (pool endpointId : String) :
    (reopenLanes pool endpointId : Local Json Decision Unit).Quiet
      (hopContract Json Decision terms).left fun _ => True :=
  hop_unnoted.quiet_reopenLanes pool endpointId

theorem hops_rollOver :
    (rollOver call s : Raising Json Decision _).run.Meets (hopContract Json Decision terms).left
      fun result log =>
        match result with
        | .error _ => log = []
        | .ok t => PassHops terms s (.next t : PassResult Json Decision) log := by
  have raised : ∀ maximum : Option Nat,
      (maximum.forM fun bound => Local.keep (.setMaxTotalAttempts bound) :
        Local Json Decision Unit).Quiet (hopContract Json Decision terms).left fun _ => True := by
    intro maximum
    cases maximum with
    | none => exact Prog.quiet_pure trivial
    | some maximum => exact hop_silent rfl
  refine (hop_lifted rfl).then (fun _ => rfl) fun now _ => ?_
  dsimp only
  split
  · generalize s.ledger.attempts.foldl (Rollover.add s.excludedEndpoints) {} = rollover
    have announced : ∀ wait,
        (do
          Local.event (.rateLimitRolloverWait call.pool rollover.endpoints wait
            (s.rateLimitWaits + 1))
          Local.keep (.sleep wait)
          rollover.endpoints.forM (reopenLanes call.pool) : Local Json Decision Unit).Meets
            (hopContract Json Decision terms).left
              fun _ log => log = [.rolledOver rollover.endpoints] := by
      intro wait
      refine ⟨trivial, fun _ _ => ?_⟩
      refine (hop_silent rfl).then fun _ _ => ?_
      exact (Prog.quiet_forM (hops_reopenLanes call.pool) _).meets fun _ _ => rfl
    refine Prog.Meets.lift (announced _) fun _ log waited => ?_
    subst waited
    refine Prog.Quiet.lift hop_policy fun policy _ => ?_
    refine Prog.Quiet.lift (raised _) fun _ _ => ?_
    exact PassHops.rolledOver ⟨⟨policy, rfl⟩, rfl, rfl, fun _ member => mem_foldl_erase _ member⟩
  · exact (hop_lifted rfl).then (fun _ => rfl) fun _ _ => rfl

variable (endpoint : Endpoint) (decision : Decision)

theorem hops_reserveBudget (request : NormalizedRequest Json) (profile : ModelProfile)
    (attemptId : String) :
    Prog.QuietExcept (hopContract Json Decision terms).left (fun _ => True)
      (reserveBudget call request profile attemptId) := by
  unfold reserveBudget
  split
  · exact Prog.quietExcept_pure trivial
  · refine (Prog.quietExcept_lift (hop_silent rfl)).bind fun answer _ => ?_
    cases answer with
    | refused negative => exact Prog.quietExcept_throw _
    | denied => exact Prog.quietExcept_pure trivial
    | reserved nonneg => exact Prog.quietExcept_pure trivial

/-- The chosen endpoint is attempted, or turned down for its budget. -/
theorem hops_prepareDispatch {t : LoopState Json}
    (chosen : s.Chooses terms endpoint.id { t with lastEndpoint := some endpoint })
    (profile : ModelProfile) (adapted : NormalizedRequest Json) (wasCompacted : Bool) :
    (prepareDispatch call t endpoint decision profile adapted wasCompacted).run.Meets
      (hopContract Json Decision terms).left (PrepareHops terms s) := by
  have adapterKnown : Prog.QuietExcept (hopContract Json Decision terms).left (fun _ => True)
      (Raising.getAdapter endpoint : Raising Json Decision _) :=
    (hop_silent rfl).imp fun _ _ _ _ => trivial
  refine adapterKnown.then (fun _ => rfl) fun adapter _ => ?_
  refine (hop_lifted rfl).then (fun _ => rfl) fun key _ => ?_
  have prepares : ∀ apiKey, Prog.QuietExcept (hopContract Json Decision terms).left
      (fun _ => True)
      (Raising.prepareRequest adapter endpoint adapted apiKey : Raising Json Decision _) :=
    fun _ => (hop_silent rfl).imp fun _ _ _ _ => trivial
  refine (prepares _).then (fun _ => rfl) fun prepared _ => ?_
  refine (hop_unnoted.quiet_check call.deadline).then (fun _ => rfl) fun _ _ => ?_
  refine (hop_lifted rfl).then (fun _ => rfl) fun now _ => ?_
  refine (hop_lifted rfl).then (fun _ => rfl) fun attemptId _ => ?_
  refine (hop_lifted rfl).then (fun _ => rfl) fun start _ => ?_
  refine (hops_reserveBudget call t.request profile attemptId).then (fun _ => rfl)
    fun verdict _ => ?_
  cases verdict with
  | unlimited => exact ⟨rfl, rfl, chosen⟩
  | reserved reservation => exact ⟨rfl, rfl, chosen⟩
  | denied =>
      have excluded := (LoopState.Keeps.refl
        ({ t with lastEndpoint := some endpoint } : LoopState Json)).exclude endpoint
      exact PassHops.passed chosen ⟨excluded.ledger, excluded.marked, excluded.last,
        excluded.excluded⟩

variable [JsonCodec Json]

theorem leaves_recordFailover (adapted : NormalizedRequest Json) (wasCompacted : Bool) :
    (recordFailover call s endpoint adapted wasCompacted : Local Json Decision _).Quiet
      (hopContract Json Decision terms).left (s.Leaves endpoint.id) := by
  unfold recordFailover
  split
  next none =>
    refine Prog.quiet_pure ⟨rfl, rfl, List.Subset.refl _, .inl ⟨rfl, rfl, fun left here => ?_⟩⟩
    rw [none] at here
    cases here
  next last known =>
    split
    next same =>
      refine Prog.quiet_pure ⟨rfl, rfl, List.Subset.refl _, .inl ⟨rfl, rfl, fun left here => ?_⟩⟩
      rw [known] at here
      cases here
      exact same
    next other =>
      refine (hop_silent rfl).bind fun _ _ => (hop_silent rfl).bind fun _ _ => ?_
      refine (hop_silent rfl).bind fun _ _ => (hop_silent rfl).bind fun _ _ => ?_
      refine (hop_silent rfl).bind fun _ _ => (hop_silent rfl).bind fun _ _ => ?_
      refine Prog.quiet_pure ⟨?_, ?_, List.Subset.refl _, .inr ⟨rfl, ?_⟩⟩
      · cases s.fallbackMarked <;> rfl
      · cases s.fallbackMarked <;> rfl
      · cases s.fallbackMarked <;> rfl

theorem hops_sizeRequest
    (valid : ∃ policy, terms.policies policy ∧
      s.ledger.validateNextCandidate policy endpoint.id = .ok ())
    (free : terms.honours → endpoint.id ∉ s.excludedEndpoints) (profile : ModelProfile)
    (shrink : ℚ) :
    (sizeRequest call s endpoint decision profile shrink).run.Meets
      (hopContract Json Decision terms).left (PrepareHops terms s) := by
  have excluded : PassHops terms s (.next (s.exclude endpoint) : PassResult Json Decision) [] :=
    .idle ((LoopState.Keeps.refl s).exclude endpoint)
  have compacts : ∀ budget, Prog.QuietExcept (hopContract Json Decision terms).left (fun _ => True)
      (compactRequest s.request budget : Raising Json Decision _) := by
    intro budget
    refine Prog.Quiet.bind (hop_silent rfl) fun answer _ => ?_
    split <;> exact Prog.quiet_pure fun _ _ => trivial
  unfold sizeRequest
  refine (compacts _).then (fun _ => rfl) fun compacted _ => ?_
  split
  · exact excluded
  next adapted wasCompacted =>
    split
    · exact excluded
    · refine Prog.Quiet.lift (leaves_recordFailover call s endpoint adapted wasCompacted)
        fun t leaves => ?_
      have chosen : s.Chooses terms endpoint.id { t with lastEndpoint := some endpoint } :=
        ⟨⟨leaves.memory, leaves.counts, leaves.excluded, leaves.hop⟩, valid, free, rfl⟩
      exact hops_prepareDispatch call s endpoint decision chosen profile adapted wasCompacted

end Prepare

section Prepare

variable {terms : HopTerms} [JsonCodec Json] (call : ExecuteCall Json)

omit [JsonCodec Json] in
theorem PrepareHops.of_index {s : LoopState Json} {index : Nat}
    {result : Except RaisedError (Preparation Json Decision)} {notes : List HopNote}
    (prepared : PrepareHops terms { s with attemptIdx := index } result notes) :
    PrepareHops terms s result notes := by
  rcases result with e | t | ⟨t, d⟩
  · exact prepared
  · exact PassHops.of_index terms prepared
  · obtain ⟨silent, own, chosen⟩ := prepared
    exact ⟨silent, own, ⟨chosen.memory, chosen.counts, chosen.excluded, chosen.hop⟩, chosen.valid,
      chosen.free, chosen.last⟩

theorem hops_prepareAttempt (s : LoopState Json) :
    (prepareAttempt call s : Raising Json Decision _).run.Meets
      (hopContract Json Decision terms).left (PrepareHops terms s) := by
  have selected : ∀ requestId excluded reason,
      Prog.QuietExcept (hopContract Json Decision terms).left
        (fun answer => ∀ endpoint, answer.1 = some endpoint →
          terms.honours → endpoint.id ∉ excluded)
        (Raising.selectCandidate call.requirements call.pool call.strategy requestId excluded
          reason : Raising Json Decision _) := by
    intro requestId excluded reason
    refine (hop_granted rfl).imp fun result granted answer chosen endpoint found honours => ?_
    obtain ⟨candidate, decision⟩ := answer
    subst chosen
    cases found
    exact granted honours
  have policy : Prog.QuietExcept (hopContract Json Decision terms).left terms.policies
      (Raising.ofLocal Local.policy : Raising Json Decision _) := Prog.quietExcept_lift hop_policy
  unfold prepareAttempt
  refine Prog.Meets.imp ?_ fun result log
    (prepared : PrepareHops terms { s with attemptIdx := s.attemptIdx + 1 } result log) =>
      prepared.of_index
  generalize ({ s with attemptIdx := s.attemptIdx + 1 } : LoopState Json) = t
  refine (hop_unnoted.quiet_check call.deadline).then (fun _ => rfl) fun _ _ => ?_
  refine (selected _ _ _).then (fun _ => rfl) fun ⟨candidate, decision⟩ free => ?_
  cases candidate with
  | none =>
      refine Prog.Meets.seq (hops_rollOver call t) fun result log held => ?_
      cases result with
      | error e =>
          subst held
          rfl
      | ok u =>
          change PassHops terms t (.next u) (log ++ [])
          rwa [List.append_nil]
  | some endpoint =>
      refine policy.then (fun _ => rfl) fun p shown => ?_
      dsimp only
      split
      · exact PassHops.idle ((LoopState.Keeps.refl t).exclude endpoint)
      next valid =>
        have sized := hops_sizeRequest call t endpoint decision ⟨p, shown, valid⟩
          (free endpoint rfl)
        split
        · exact sized _ _
        · refine Prog.Quiet.lift (hop_silent rfl) fun profile _ => ?_
          exact sized profile _

end Prepare

/-! ## The review of a response -/

/-- The operations that a review consists of. -/
def isReview : (executorSig Json Decision).Op → Bool
  | .inr (.review _) => true
  | .inl (.keep (.recordToolOutcome _ _)) => true
  | _ => false

section Review

variable {α β : Type}

abbrev AsksReview (p : Reviewing Json Decision α) : Prop := p.run.Asks fun op => isReview op = true

theorem AsksReview.bind {p : Reviewing Json Decision α} {f : α → Reviewing Json Decision β}
    (first : AsksReview p) (rest : ∀ a, AsksReview (f a)) : AsksReview (p >>= f) :=
  Prog.Asks.bind first fun result =>
    match result with
    | .ok a => rest a
    | .error _ => trivial

theorem asksReview_call (op : ReviewOp Json) :
    AsksReview (Reviewing.call op : Reviewing Json Decision _) :=
  ⟨rfl, fun _ => trivial⟩

theorem asksReview_pure (a : α) : AsksReview (pure a : Reviewing Json Decision α) := trivial

variable (s : LoopState Json) (d : Dispatch Json Decision)

theorem asksReview_replayOrBlock (tcId : String) (tc : NormalizedToolCall Json) :
    AsksReview (replayOrBlock s tcId tc : Reviewing Json Decision _) := by
  refine (asksReview_call _).bind fun ⟨hasReceipt, receipt⟩ => ?_
  cases hasReceipt with
  | true => exact (asksReview_call _).bind fun _ => asksReview_pure _
  | false =>
      refine (asksReview_call _).bind fun unknown => ?_
      change Bool at unknown
      cases unknown with
      | false => exact asksReview_pure _
      | true => exact (asksReview_call _).bind fun _ => trivial

variable [JsonCodec Json]

theorem asksReview_toolCall (index : Nat) (tc : NormalizedToolCall Json) :
    AsksReview (reviewToolCall s d index tc) := by
  refine (asksReview_call _).bind fun _ => ?_
  refine (asksReview_replayOrBlock s _ _).bind fun tc => ?_
  refine (asksReview_call _).bind fun report => ?_
  refine AsksReview.bind (p := Reviewing.keep _) ⟨rfl, fun _ => trivial⟩ fun _ => ?_
  split
  · exact (asksReview_call _).bind fun _ => asksReview_pure _
  · exact (asksReview_call _).bind fun _ => asksReview_pure _

theorem asksReview_toolCalls (index : Nat) (calls : List (NormalizedToolCall Json)) :
    AsksReview (reviewToolCalls s d index calls) := by
  induction calls generalizing index with
  | nil => exact asksReview_pure _
  | cons tc rest ih =>
      refine (asksReview_toolCall s d index tc).bind fun checked => ?_
      cases checked with
      | none => exact asksReview_pure _
      | some checked => exact (ih (index + 1)).bind fun _ => asksReview_pure _

theorem asksReview_response (maxResponseChars : Nat) (result : ExecutionResult) :
    AsksReview (reviewResponse s d maxResponseChars result) := by
  refine (asksReview_call _).bind fun response => ?_
  split
  · exact asksReview_pure _
  · refine (asksReview_toolCalls s d 0 _).bind fun calls => ?_
    cases calls with
    | none => exact asksReview_pure _
    | some calls => exact asksReview_pure _

end Review

theorem asks_quiet {S : Signature} {α ω : Type} {c : Contract S ω} {P : S.Op → Prop}
    {p : Prog S α} (asks : p.Asks P)
    (silent : ∀ op, P op → c.good op ∧ ∀ ans, c.note ⟨op, ans⟩ = none) :
    p.Quiet c fun _ => True := by
  induction p with
  | ret a => exact Prog.quiet_pure trivial
  | ask op next ih =>
      obtain ⟨good, unnoted⟩ := silent op asks.1
      refine ⟨good, fun ans _ => ?_⟩
      rw [unnoted]
      exact ih ans (asks.2 ans)

/-! ## From the permit on -/

section Pass

variable {terms : HopTerms} (call : ExecuteCall Json) (s : LoopState Json)
  (d : Dispatch Json Decision)

/-- A program of the executor with what it leaves. -/
abbrev ExecutionHops {α : Type} (terms : HopTerms) (p : Execution Json Decision α)
    (post : α → List HopNote → Prop) : Prop :=
  p.Meets (hopContract Json Decision terms) post

theorem hop_local {α β : Type} {p : Local Json Decision α} {mid : α → List HopNote → Prop}
    {post : β → List HopNote → Prop} {f : α → Execution Json Decision β}
    (first : p.Meets (hopContract Json Decision terms).left mid)
    (rest : ∀ a log, mid a log → ExecutionHops terms (f a) fun b more => post b (log ++ more)) :
    ExecutionHops terms (Execution.ofLocal p >>= f) post :=
  (Prog.meets_inLeft first).seq rest

/-- `before` was reported since `start`. -/
theorem hops_reportFailure {start : LoopState Json} (before : List HopNote)
    (own : d.attempt.endpointId = d.endpoint.id) (records : start.Records before s)
    (made : AttemptNotes d.endpoint.id (before ++ [.attempted d.endpoint.id false]))
    (result : ExecutionResult) (classified : FailureClassification) (recorded : Bool) :
    ExecutionHops terms (reportFailure call s d result classified recorded) fun outcome notes =>
      AttemptHops terms start d.endpoint.id outcome (before ++ notes) := by
  refine ⟨trivial, fun _ _ => ?_⟩
  refine hop_local (hops_recordFailedAttempt call s d result classified recorded)
    fun t log held => ?_
  obtain ⟨rfl, again⟩ := held
  rw [own] at again ⊢
  refine hop_local (recovering_recover call t d classified) fun outcome log recovers => ?_
  obtain ⟨rfl, recovers⟩ := recovers
  cases outcome with
  | error e => exact .stopped (fun _ same => by cases same) (.inr made)
  | ok u => exact .failed made (records.trans again) recovers

theorem hops_failAttempt (own : d.attempt.endpointId = d.endpoint.id) (result : ExecutionResult)
    (classified : FailureClassification) (recorded : Bool) :
    ExecutionHops terms (failAttempt call s d result classified recorded)
      (AttemptHops terms s d.endpoint.id) := by
  have reported : ExecutionHops terms (reportFailure call s d result classified recorded)
      (AttemptHops terms s d.endpoint.id) :=
    hops_reportFailure call s d [] own
      ⟨rfl, fun counted => counted, rfl, rfl, rfl, List.Subset.refl _⟩ (.once false) result
      classified recorded
  unfold failAttempt
  split
  · exact reported
  next keyId _ =>
    refine ⟨trivial, fun another _ => ?_⟩
    change Bool at another
    cases another with
    | false => exact reported
    | true =>
        refine hop_local (hops_rotateKey call s d keyId result classified) fun t log held => ?_
        obtain ⟨rfl, records⟩ := held
        rw [own] at records ⊢
        exact AttemptHops.rotated ⟨records.memory, records.counted, records.hops, records.marked,
          records.last, records.excluded⟩

/-- A failure that cannot be classified ends the run. -/
theorem hops_classified {post : PassResult Json Decision → List HopNote → Prop}
    {source : FailureSource} {statusCode : Nat} {headers : List (String × String)}
    {f : Except RaisedError FailureClassification → Execution Json Decision (PassResult Json Decision)}
    (known : ∀ classified, ExecutionHops terms (f (.ok classified)) post)
    (unknown : ∀ e, ExecutionHops terms (f (.error e)) post) :
    ExecutionHops terms (classifyFailure source statusCode headers >>= f) post := by
  unfold classifyFailure
  by_cases refused : source = .exception negativeCost ∧ statusCode = 502
  · rw [if_pos refused]
    exact known negativeCostFailure
  · rw [if_neg refused]
    refine ⟨trivial, fun answer _ => ?_⟩
    change Except RaisedError FailureClassification at answer
    cases answer with
    | ok classified => exact known classified
    | error e => exact unknown e

theorem hops_failClassified (own : d.attempt.endpointId = d.endpoint.id) (result : ExecutionResult)
    (source : FailureSource) (statusCode : Nat) (headers : List (String × String))
    (recorded : Bool) :
    ExecutionHops terms (failClassified call s d result source statusCode headers recorded)
      (AttemptHops terms s d.endpoint.id) :=
  hops_classified (fun classified => hops_failAttempt call s d own result classified recorded)
    fun e => .stopped (fun _ same => by cases same) (.inl rfl)

theorem hops_transportError (own : d.attempt.endpointId = d.endpoint.id) (error : RaisedError) :
    ExecutionHops terms (transportError call s d error) (AttemptHops terms s d.endpoint.id) := by
  refine hops_classified (fun classified => ?_)
    fun e => .stopped (fun _ same => by cases same) (.inl rfl)
  refine hop_local (hop_unnoted.quiet_finish d.attempt false 502 (some classified))
    fun record log finished => ?_
  obtain ⟨rfl, now, rfl⟩ := finished
  refine ⟨trivial, fun _ _ => ?_⟩
  refine hop_local (hops_recordTransportError call s d error _ classified) fun t log held => ?_
  subst held
  refine .stopped (fun _ same => by cases same) (.inr ?_)
  change AttemptNotes d.endpoint.id [.attempted d.attempt.endpointId false]
  rw [own]
  exact .once false

variable [JsonCodec Json]

theorem hops_acceptResponse (own : d.attempt.endpointId = d.endpoint.id) (result : ExecutionResult)
    (response : NormalizedResponse Json) :
    ExecutionHops terms (acceptResponse call s d result response)
      (AttemptHops terms s d.endpoint.id) := by
  refine ⟨trivial, fun _ _ => ?_⟩
  refine hop_local (hops_recordSuccess call s d result) fun ⟨record, t⟩ log held => ?_
  obtain ⟨rfl, records⟩ := held
  rw [own] at records ⊢
  have succeed : ∀ ledger : AttemptLedger, ExecutionHops terms (do
      Execution.ofLocal (finishDurableAttempt call.executor record .succeeded (.text ""))
      return .returned response d.decision ledger :
        Execution Json Decision (PassResult Json Decision)) fun outcome log =>
      AttemptHops terms s d.endpoint.id outcome ([.attempted d.endpoint.id true] ++ log) := by
    intro ledger
    refine hop_local (hop_finishDurableAttempt call.executor record _ _) fun _ log ended => ?_
    obtain ⟨rfl, _⟩ := ended
    exact .stopped (fun _ same => by cases same) (.inr (.once true))
  dsimp only
  split
  · exact succeed _
  · refine ⟨trivial, fun answer _ => ?_⟩
    change SettleAnswer _ at answer
    cases answer with
    | settled nonneg => exact succeed _
    | refused negative =>
        -- A refused cost is a server error, so no key is rotated.
        have charged : s.Records [.attempted d.endpoint.id true]
            { t with ledger := t.ledger.addCost (responseCost d response) } :=
          ⟨records.memory, records.counted, records.hops, records.marked, records.last,
            records.excluded⟩
        exact hops_reportFailure call _ d _ own charged .twice result negativeCostFailure true

theorem hops_handleResult (own : d.attempt.endpointId = d.endpoint.id) (result : ExecutionResult) :
    ExecutionHops terms (handleResult call s d result) (AttemptHops terms s d.endpoint.id) := by
  unfold handleResult
  split
  · have reviewed : ((reviewResponse s d call.executor.maxResponseChars result).run :
        Execution Json Decision _).Quiet (hopContract Json Decision terms) fun _ => True :=
      asks_quiet (asksReview_response s d _ result) fun op review => by
        refine ⟨trivial, fun answer => ?_⟩
        rcases op with op | op
        · cases op with
          | keep note => cases note <;> first | rfl | cases review
          | _ => cases review
        · cases op <;> first | rfl | cases review
    refine reviewed.then fun review _ => ?_
    rcases review with e | classified | response
    · cases blocked : e.isIndeterminate with
      | true =>
          simp only [blocked]
          refine hop_local (hops_blockAttempt call s d) fun t log recorded => ?_
          subst recorded
          refine .stopped (fun _ same => by cases same) (.inr ?_)
          change AttemptNotes d.endpoint.id [.attempted d.attempt.endpointId false]
          rw [own]
          exact .once false
      | false =>
          simp only [blocked]
          exact hops_failClassified call s d own result _ _ _ _
    · exact hops_failAttempt call s d own result classified false
    · exact hops_acceptResponse call s d own result response
  · exact hops_failClassified call s d own result _ _ _ _

theorem hops_dispatch (own : d.attempt.endpointId = d.endpoint.id) :
    ExecutionHops terms (dispatch call s d) (AttemptHops terms s d.endpoint.id) := by
  have prepared : (prepareDurableAttempt call.executor d.attempt : Local Json Decision Unit).Quiet
      (hopContract Json Decision terms).left fun _ => True := by
    unfold prepareDurableAttempt
    split
    · exact hop_silent rfl
    · exact Prog.quiet_pure trivial
  refine hop_local prepared fun _ log kept => ?_
  obtain ⟨rfl, _⟩ := kept
  refine ⟨trivial, fun answer _ => ?_⟩
  change Except RaisedError ExecutionResult at answer
  cases answer with
  | ok result => exact hops_handleResult call s d own result
  | error e => exact hops_transportError call s d own e

theorem hops_runPass :
    ExecutionHops terms (runPass call s : Execution Json Decision _) (PassHops terms s) := by
  refine hop_local (hops_prepareAttempt call s) fun prepared before held => ?_
  rcases prepared with e | t | ⟨t, d⟩
  · obtain rfl : before = [] := held
    exact .stopped fun _ same => by cases same
  · change PassHops terms s (.next t) (before ++ [])
    rw [List.append_nil]
    exact held
  · obtain ⟨rfl, own, chosen⟩ := held
    refine ⟨trivial, fun answer _ => ?_⟩
    change Except BreakerError Unit at answer
    cases answer with
    | ok granted =>
        exact (hops_dispatch call t d own).imp fun result log attempt => .tried chosen attempt
    | error denied =>
        have released : (d.reservation.forM fun r => Local.keep (.releaseReservation r) :
            Local Json Decision Unit).Quiet (hopContract Json Decision terms).left
              fun _ => True := by
          cases d.reservation with
          | none => exact Prog.quiet_pure trivial
          | some r => exact hop_silent rfl
        refine hop_local released fun _ log quiet => ?_
        obtain ⟨rfl, _⟩ := quiet
        exact PassHops.passed chosen ((LoopState.Keeps.refl t).exclude d.endpoint)

/-- The notes of a run, whatever the surroundings answer within their terms. -/
theorem hops_executeLoop (fuel : Nat) :
    ExecutionHops terms (executeLoop call fuel s : Execution Json Decision _)
      fun _ log => @RunHops Json Decision terms s log := by
  induction fuel generalizing s with
  | zero => exact RunHops.done s
  | succ fuel ih =>
      have continues : (mayContinue call s : Local Json Decision Bool).Quiet
          (hopContract Json Decision terms).left fun _ => True := by
        refine (hop_silent rfl).bind fun now _ => ?_
        split
        · exact Prog.quiet_pure trivial
        · exact (hop_silent rfl).bind fun _ _ => Prog.quiet_pure trivial
      refine hop_local continues fun more log quiet => ?_
      obtain ⟨rfl, _⟩ := quiet
      cases more with
      | false =>
          refine hop_local (hop_unnoted.quiet_giveUp call s) fun _ log quiet => ?_
          obtain ⟨rfl, _⟩ := quiet
          exact RunHops.done s
      | true =>
          refine (hops_runPass call s).seq fun result log pass => ?_
          cases result with
          | next t =>
              refine (ih t).imp fun _ later rest => ?_
              change RunHops terms s (log ++ later)
              exact .next pass rest
          | returned | raised =>
              change RunHops terms s (log ++ [])
              rw [List.append_nil]
              exact RunHops.last (fun _ same => by cases same) pass

theorem hops_execute (executor : GatewayExecutor Json) (args : ExecuteRequest Json) (fuel : Nat) :
    ExecutionHops terms (execute executor args fuel : Execution Json Decision _)
      fun _ log => @RunHops Json Decision terms { request := args.request } log := by
  have clock : (Local.monotonic : Local Json Decision Seconds).Quiet
      (hopContract Json Decision terms).left fun _ => True := hop_silent rfl
  refine hop_local clock fun start log quiet => ?_
  obtain ⟨rfl, _⟩ := quiet
  exact hops_executeLoop (args.call executor start) _ fuel

end Pass

end DuraLLM
