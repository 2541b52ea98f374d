import DuraLLM.Execution.Permits
import DuraLLM.Execution.Routine

/-! # The books of an attempt

Every dispatch is preceded by the record of its intent and followed by the one
of its outcome, and a budget reservation is closed before the next one is made.
The transcript of a run is projected to these events.  With stores that do not
raise, the only exchange that leaves an attempt open is a failure that the
classifier cannot classify: it raises outside of every handler, and the run is
over.
-/

namespace DuraLLM

variable {Json Decision : Type}

inductive AttemptEvent where
  | reserved (reservationId : String)
  | closed (reservationId : String)
  | prepared (attemptId : String)
  | dispatched
  | finished (attemptId : String)
  deriving DecidableEq

/-- The events of a run with the attempts that were dispatched, in order. -/
inductive Bookkept : List AttemptEvent → List String → Prop where
  | nil : Bookkept [] []
  /-- The breaker turned the attempt down. -/
  | denied (reservationId : String) {later : List AttemptEvent} {ids : List String}
      (rest : Bookkept later ids) :
      Bookkept (.reserved reservationId :: .closed reservationId :: later) ids
  | attempt (id : String) {later : List AttemptEvent} {ids : List String}
      (rest : Bookkept later ids) :
      Bookkept (.prepared id :: .dispatched :: .finished id :: later) (id :: ids)
  | reservedAttempt (reservationId id : String) {later : List AttemptEvent} {ids : List String}
      (rest : Bookkept later ids) :
      Bookkept (.reserved reservationId :: .prepared id :: .dispatched :: .closed reservationId ::
        .finished id :: later) (id :: ids)

/-- The reservations that are still open after the events. -/
def stillOpen (events : List AttemptEvent) : List String :=
  events.foldl (fun still event =>
    match event with
    | .reserved reservationId => reservationId :: still
    | .closed reservationId => still.filter (· ≠ reservationId)
    | _ => still) []

theorem Bookkept.nothing_open {events : List AttemptEvent} {ids : List String}
    (kept : Bookkept events ids) : stillOpen events = [] := by
  induction kept with
  | nil => rfl
  | denied reservationId rest ih => simpa [stillOpen] using ih
  | attempt id rest ih => simpa [stillOpen] using ih
  | reservedAttempt reservationId id rest ih => simpa [stillOpen] using ih

def LocalOp.attemptEvent :
    (op : LocalOp Json) → op.Answer Json Decision → Option AttemptEvent
  | .reserve reservationId _ _ _, (.reserved _ : ReserveAnswer _ _) =>
      some (.reserved reservationId)
  | .adapterExecute _ _ _, _ => some .dispatched
  | .keep (.prepareAttempt record), _ => some (.prepared record.attemptId)
  | .keep (.finishAttempt record _ _), _ => some (.finished record.attemptId)
  | .keep (.releaseReservation reservation), _ => some (.closed reservation.reservationId)
  | .keep (.settleReserved reservation), _ => some (.closed reservation.reservationId)
  | _, _ => none

def PermitOp.attemptEvent : (op : PermitOp Json) → op.Answer Json → Option AttemptEvent
  | .settleCost reservationId _, (.settled _ : SettleAnswer _) => some (.closed reservationId)
  | _, _ => none

def attemptEvent : Exchange Json Decision → Option AttemptEvent
  | ⟨.inl op, answer⟩ => LocalOp.attemptEvent op answer
  | ⟨.inr op, answer⟩ => PermitOp.attemptEvent op answer

/-- `classify_failure` raises. -/
def PermitOp.unclassified : (op : PermitOp Json) → op.Answer Json → Bool
  | .classifyFailure _ _ _, (.error _ : Except RaisedError FailureClassification) => true
  | _, _ => false

def unclassified : Exchange Json Decision → Bool
  | ⟨.inl _, _⟩ => false
  | ⟨.inr op, answer⟩ => PermitOp.unclassified op answer

/-- The budget store raises on the cost of a response. -/
def PermitOp.refuses : (op : PermitOp Json) → op.Answer Json → Bool
  | .settleCost _ _, (.refused _ : SettleAnswer _) => true
  | _, _ => false

def refuses : Exchange Json Decision → Bool
  | ⟨.inl _, _⟩ => false
  | ⟨.inr op, answer⟩ => PermitOp.refuses op answer

/-- The attempts on the ledger that a run returns or discards. -/
def ExecuteResult.attempts : ExecuteResult Json Decision → Option (List AttemptRecord)
  | .returned _ _ ledger => some ledger.attempts
  | .raised _ attempts => some attempts
  | .outOfFuel => none

def attemptIds (attempts : List AttemptRecord) : List String := attempts.map (·.attemptId)

/-- What is asked of a whole run. -/
structure RunBooks (events : List AttemptEvent) (result : ExecuteResult Json Decision) : Prop where
  kept : ∃ ids, Bookkept events ids ∧
    ∀ attempts, result.attempts = some attempts → attemptIds attempts = ids
  settled : stillOpen events = []

/-! ## The log of a run -/

inductive BookMark where
  | event (event : AttemptEvent)
  | lapse
  deriving DecidableEq

def BookMark.event? : BookMark → Option AttemptEvent
  | .event e => some e
  | .lapse => none

def bookMark (exchange : Exchange Json Decision) : Option BookMark :=
  match attemptEvent exchange with
  | some e => some (.event e)
  | none => if unclassified exchange then some .lapse else none

theorem attemptEvent_of_bookMark (exchange : Exchange Json Decision) :
    (bookMark exchange).bind BookMark.event? = attemptEvent exchange := by
  unfold bookMark
  cases attemptEvent exchange with
  | some e => rfl
  | none => cases unclassified exchange <;> rfl

theorem attemptEvent_of_unclassified {exchange : Exchange Json Decision}
    (lapsed : unclassified exchange = true) : attemptEvent exchange = none := by
  rcases exchange with ⟨op | op, answer⟩
  · cases lapsed
  · cases op with
    | classifyFailure => rfl
    | _ => cases lapsed

theorem unclassified_iff_bookMark (exchange : Exchange Json Decision) :
    unclassified exchange = true ↔ bookMark exchange = some .lapse := by
  unfold bookMark
  constructor
  · intro lapsed
    simp only [attemptEvent_of_unclassified lapsed, lapsed, if_true]
  · intro marked
    split at marked
    · cases marked
    · simpa using marked

/-- The log of a run, with the ids of its finished attempts. The last attempt
    may be lost. -/
inductive BookLog : List BookMark → List String → Prop where
  | nil : BookLog [] []
  | denied (reservationId : String) {later : List BookMark} {ids : List String}
      (rest : BookLog later ids) :
      BookLog (.event (.reserved reservationId) :: .event (.closed reservationId) :: later) ids
  | attempt (id : String) {later : List BookMark} {ids : List String} (rest : BookLog later ids) :
      BookLog (.event (.prepared id) :: .event .dispatched :: .event (.finished id) :: later)
        (id :: ids)
  | reservedAttempt (reservationId id : String) {later : List BookMark} {ids : List String}
      (rest : BookLog later ids) :
      BookLog (.event (.reserved reservationId) :: .event (.prepared id) :: .event .dispatched ::
        .event (.closed reservationId) :: .event (.finished id) :: later) (id :: ids)
  | lost (id : String) : BookLog [.event (.prepared id), .event .dispatched, .lapse] []
  | reservedLost (reservationId id : String) :
      BookLog [.event (.reserved reservationId), .event (.prepared id), .event .dispatched, .lapse]
        []

namespace BookLog

theorem bookkept {log : List BookMark} {ids : List String} (run : BookLog log ids)
    (whole : .lapse ∉ log) : Bookkept (log.filterMap BookMark.event?) ids := by
  induction run with
  | nil => exact .nil
  | denied reservationId rest ih => exact .denied reservationId (ih (by simpa using whole))
  | attempt id rest ih => exact .attempt id (ih (by simpa using whole))
  | reservedAttempt reservationId id rest ih =>
      exact .reservedAttempt reservationId id (ih (by simpa using whole))
  | lost | reservedLost => simp at whole

/-- An attempt that is lost is finished nowhere. -/
theorem whole_of_bookkept {log : List BookMark} {ids found : List String} (run : BookLog log ids)
    (kept : Bookkept (log.filterMap BookMark.event?) found) : .lapse ∉ log := by
  induction run generalizing found with
  | nil => simp
  | denied reservationId rest ih =>
      cases kept with
      | denied _ later => simpa using ih later
  | attempt id rest ih =>
      cases kept with
      | attempt _ later => simpa using ih later
  | reservedAttempt reservationId id rest ih =>
      cases kept with
      | reservedAttempt _ _ later => simpa using ih later
  | lost | reservedLost => cases kept

end BookLog

/-! ## The log of each part -/

/-- The stores do not raise. -/
def bookContract (Json Decision : Type) : Contract (executorSig Json Decision) BookMark where
  fair := fun op answer => refuses ⟨op, answer⟩ = false
  good := fun _ => True
  note := bookMark

theorem book_reviews : ReviewsFreely (bookContract Json Decision) where
  plain := by
    intro op routine
    cases op with
    | keep note =>
        cases note with
        | prepareAttempt | finishAttempt | releaseReservation | settleReserved => cases routine
        | _ => exact ⟨trivial, fun _ => rfl⟩
    | reserve | adapterExecute => cases routine
    | _ => exact ⟨trivial, fun _ => rfl⟩
  review := fun _ => ⟨trivial, fun _ => rfl⟩

theorem book_plain : Indifferent (bookContract Json Decision).left := book_reviews.plain

section Local

/-- The marks that close a reservation, if there is one. -/
def closingMarks (reservation : Option Reservation) : List BookMark :=
  reservation.toList.map fun r => .event (.closed r.reservationId)

theorem books_keep {note : Bookkeeping} {event : AttemptEvent}
    (noted : ∀ answer, bookMark (⟨.inl (.keep note), answer⟩ : Exchange Json Decision) =
      some (.event event)) :
    (Local.keep note : Local Json Decision Unit).Meets (bookContract Json Decision).left
      fun _ log => log = [.event event] :=
  (Prog.meets_call trivial noted).imp fun _ _ held => held.1

theorem books_reservation {note : Reservation → Bookkeeping} (reservation : Option Reservation)
    (noted : ∀ r answer, bookMark (⟨.inl (.keep (note r)), answer⟩ : Exchange Json Decision) =
      some (.event (.closed r.reservationId))) :
    (reservation.forM fun r => Local.keep (note r) : Local Json Decision Unit).Meets
      (bookContract Json Decision).left fun _ log => log = closingMarks reservation := by
  cases reservation with
  | none => exact rfl
  | some r => exact books_keep (noted r)

theorem books_finishDurableAttempt {executor : GatewayExecutor Json}
    (stored : executor.hasAttemptStore = true) (record : AttemptRecord) (status : AttemptStatus)
    (detail : AttemptDetail) :
    (finishDurableAttempt executor record status detail : Local Json Decision Unit).Meets
      (bookContract Json Decision).left
      fun _ log => log = [.event (.finished record.attemptId)] := by
  unfold finishDurableAttempt
  rw [if_pos stored]
  exact books_keep fun _ => rfl

/-- What ends an attempt in the books. -/
def closing (d : Dispatch Json Decision) : List BookMark :=
  closingMarks d.reservation ++ [.event (.finished d.attempt.attemptId)]

/-- The tail of most handlers: the reservation is settled, the outcome stored. -/
theorem books_settleAndFinish {α : Type} {executor : GatewayExecutor Json}
    (stored : executor.hasAttemptStore = true) (d : Dispatch Json Decision)
    {record : AttemptRecord} (same : record.attemptId = d.attempt.attemptId)
    (status : AttemptStatus) (detail : AttemptDetail) (a : α) :
    (do
      settleReserved d.reservation
      finishDurableAttempt executor record status detail
      return a : Local Json Decision α).Meets (bookContract Json Decision).left
        fun b log => b = a ∧ log = closing d := by
  refine (books_reservation d.reservation fun _ _ => rfl).seq fun _ log settled => ?_
  refine (books_finishDurableAttempt stored record status detail).seq fun _ more finished => ?_
  refine ⟨rfl, ?_⟩
  rw [settled, finished, same, List.append_nil]
  rfl

/-- The attempt is on the ledger, once. -/
def Records (s : LoopState Json) (d : Dispatch Json Decision) (attempts : List AttemptRecord) :
    Prop :=
  attemptIds attempts = attemptIds s.ledger.attempts ++ [d.attempt.attemptId]

theorem records_recordAttempt (s : LoopState Json) (d : Dispatch Json Decision)
    {record : AttemptRecord} (same : record.attemptId = d.attempt.attemptId) :
    Records s d (s.ledger.recordAttempt record).attempts := by
  simp [Records, attemptIds, AttemptLedger.recordAttempt, same]

variable {call : ExecuteCall Json} (s : LoopState Json) (d : Dispatch Json Decision)

theorem books_recordFailedAttempt (stored : call.executor.hasAttemptStore = true)
    (result : ExecutionResult) (classified : FailureClassification) :
    (recordFailedAttempt call s d result classified false).Meets (bookContract Json Decision).left
      fun s' log => log = closing d ∧ Records s d s'.ledger.attempts := by
  refine (book_plain.any rfl).then fun _ _ => ?_
  refine (book_plain.unnoted.quiet_recordBilling call s d.endpoint classified).then fun t billed => ?_
  refine (book_plain.unnoted.quiet_recordPermanent call t d.endpoint classified).then fun u dead => ?_
  refine (book_plain.unnoted.quiet_recordLaneOutcome d.endpoint (some classified)).then fun _ _ => ?_
  refine (book_plain.quiet_finish d.attempt false _ (some classified)).then fun record same => ?_
  refine (book_plain.quiet_emitAttempt record).then fun _ _ => ?_
  refine (books_settleAndFinish stored d same _ _ _).imp fun s' log held => ⟨held.2, ?_⟩
  have kept : u.ledger.attempts = s.ledger.attempts := (billed.trans dead).attempts
  have recorded : Records u d (u.ledger.recordAttempt record).attempts :=
    records_recordAttempt u d same
  rw [Records, kept] at recorded
  rw [held.1]
  exact recorded

theorem books_rotateKey (stored : call.executor.hasAttemptStore = true) (keyId : String)
    (result : ExecutionResult) (classified : FailureClassification) :
    (rotateKey call s d keyId result classified).Meets (bookContract Json Decision).left
      fun s' log => log = closing d ∧ Records s d s'.ledger.attempts := by
  refine (book_plain.any rfl).then fun _ _ => (book_plain.any rfl).then fun _ _ => ?_
  refine (book_plain.quiet_finish d.attempt false _ (some classified)).then fun record same => ?_
  refine (book_plain.quiet_recordAttempt s record).then fun t recorded => ?_
  refine (books_settleAndFinish stored d same _ _ t).imp fun s' log held => ⟨held.2, ?_⟩
  rw [held.1, recorded]
  exact records_recordAttempt s d same

theorem books_recordTransportError (stored : call.executor.hasAttemptStore = true)
    (error : RaisedError) {record : AttemptRecord} (same : record.attemptId = d.attempt.attemptId)
    (classified : FailureClassification) :
    (recordTransportError call s d error record classified).Meets
      (bookContract Json Decision).left
      fun s' log => log = closing d ∧ Records s d s'.ledger.attempts := by
  refine (book_plain.any rfl).then fun _ _ => (book_plain.any rfl).then fun _ _ => ?_
  refine (book_plain.unnoted.quiet_recordLaneOutcome d.endpoint (some classified)).then fun _ _ => ?_
  refine (book_plain.quiet_recordAttempt s record).then fun t recorded => ?_
  refine (books_settleAndFinish stored d same _ _ t).imp fun s' log held => ⟨held.2, ?_⟩
  rw [held.1, recorded]
  exact records_recordAttempt s d same

theorem books_blockAttempt (stored : call.executor.hasAttemptStore = true) :
    (blockAttempt call s d).Meets (bookContract Json Decision).left
      fun s' log => log = closing d ∧ Records s d s'.ledger.attempts := by
  refine (book_plain.quiet_finish d.attempt false 409 none).then fun record same => ?_
  refine (books_reservation d.reservation fun _ _ => rfl).seq fun _ log settled => ?_
  refine (book_plain.quiet_recordAttempt s record).then fun t recorded => ?_
  refine (books_finishDurableAttempt stored record _ _).seq fun _ more finished => ?_
  refine ⟨?_, ?_⟩
  · rw [settled, finished, same, List.append_nil]
    rfl
  · rw [recorded]
    exact records_recordAttempt s d same

end Local

/-! ### From admission on -/

def PassResult.attempts : PassResult Json Decision → List AttemptRecord
  | .next s => s.ledger.attempts
  | .returned _ _ ledger => ledger.attempts
  | .raised _ attempts => attempts

section Pass

variable {call : ExecuteCall Json} (s : LoopState Json) (d : Dispatch Json Decision)

/-- How an attempt ends: in the books, or lost with the request. -/
def EndsAttempt (s : LoopState Json) (d : Dispatch Json Decision)
    (result : PassResult Json Decision) (log : List BookMark) : Prop :=
  (log = closing d ∧ Records s d result.attempts) ∨
    (log = [.lapse] ∧ ∃ e attempts, result = .raised e attempts)

theorem books_ask {α : Type} {op : PermitOp Json} {f : op.Answer Json → Execution Json Decision α}
    {post : α → List BookMark → Prop}
    (silent : ∀ answer, bookMark (⟨.inr op, answer⟩ : Exchange Json Decision) = none)
    (rest : ∀ answer, (f answer).Meets (bookContract Json Decision) post) :
    (Execution.ask op >>= f).Meets (bookContract Json Decision) post :=
  (Prog.quiet_call trivial silent).then fun answer _ => rest answer

theorem books_reportFailure (stored : call.executor.hasAttemptStore = true)
    (result : ExecutionResult) (classified : FailureClassification) :
    (reportFailure call s d result classified false).Meets (bookContract Json Decision)
      (EndsAttempt s d) := by
  refine books_ask (fun _ => rfl) fun _ => ?_
  refine (Prog.meets_inLeft (books_recordFailedAttempt s d stored result classified)).seq
    fun t log noted => ?_
  refine (Prog.meets_inLeft (book_plain.quiet_recover call t d classified)).seq
    fun next more held => ?_
  obtain ⟨rfl, proceeds⟩ := held
  refine .inl ⟨by simpa using noted.1, ?_⟩
  cases next with
  | ok u =>
      have kept : u.ledger.attempts = t.ledger.attempts := (proceeds u rfl).attempts
      simpa only [PassResult.ofRaising, PassResult.attempts, kept] using noted.2
  | error e => exact noted.2

theorem books_failAttempt (stored : call.executor.hasAttemptStore = true)
    (result : ExecutionResult) (classified : FailureClassification) :
    (failAttempt call s d result classified false).Meets (bookContract Json Decision)
      (EndsAttempt s d) := by
  have reported := books_reportFailure s d stored result classified
  unfold failAttempt
  split
  · exact reported
  · refine books_ask (fun _ => rfl) fun another => ?_
    change Bool at another
    cases another with
    | false => exact reported
    | true =>
        refine (Prog.meets_inLeft (books_rotateKey s d stored _ result classified)).seq
          fun t log noted => ?_
        exact .inl ⟨by simpa using noted.1, noted.2⟩

/-- A failure that cannot be classified ends the request. -/
theorem books_classified {source : FailureSource} {statusCode : Nat}
    {headers : List (String × String)}
    {f : Except RaisedError FailureClassification → Execution Json Decision (PassResult Json Decision)}
    (known : ∀ classified, (f (.ok classified)).Meets (bookContract Json Decision)
      (EndsAttempt s d))
    (unknown : ∀ e, f (.error e) = pure (.raised e s.ledger.attempts)) :
    (classifyFailure source statusCode headers >>= f).Meets (bookContract Json Decision)
      (EndsAttempt s d) := by
  unfold classifyFailure
  split
  · exact known negativeCostFailure
  · refine ⟨trivial, fun answer _ => ?_⟩
    change Except RaisedError FailureClassification at answer
    cases answer with
    | ok classified => exact known classified
    | error e =>
        change (f (.error e)).Meets _ _
        rw [unknown]
        exact .inr ⟨rfl, e, _, rfl⟩

theorem books_failClassified (stored : call.executor.hasAttemptStore = true)
    (result : ExecutionResult) (source : FailureSource) (statusCode : Nat)
    (headers : List (String × String)) :
    (failClassified call s d result source statusCode headers false).Meets
      (bookContract Json Decision) (EndsAttempt s d) :=
  books_classified s d (fun classified => books_failAttempt s d stored result classified)
    fun _ => rfl

theorem books_transportError (stored : call.executor.hasAttemptStore = true)
    (error : RaisedError) :
    (transportError call s d error).Meets (bookContract Json Decision) (EndsAttempt s d) := by
  refine books_classified s d (fun classified => ?_) fun _ => rfl
  refine (Prog.meets_inLeft (book_plain.quiet_finish d.attempt false 502 (some classified))).seq
    fun record log held => ?_
  obtain ⟨rfl, same⟩ := held
  refine books_ask (fun _ => rfl) fun _ => ?_
  refine (Prog.meets_inLeft (books_recordTransportError s d stored error same classified)).seq
    fun t log noted => ?_
  exact .inl ⟨by simpa using noted.1, noted.2⟩

variable [JsonCodec Json]

theorem books_acceptResponse (stored : call.executor.hasAttemptStore = true)
    (result : ExecutionResult) (response : NormalizedResponse Json) :
    (acceptResponse call s d result response).Meets (bookContract Json Decision)
      (EndsAttempt s d) := by
  refine books_ask (fun _ => rfl) fun _ => ?_
  refine (Prog.meets_inLeft (book_plain.quiet_recordSuccess call s d result)).seq
    fun ⟨record, t⟩ log held => ?_
  obtain ⟨rfl, same, recorded⟩ := held
  change record.attemptId = d.attempt.attemptId at same
  obtain rfl : t = { s with ledger := s.ledger.recordAttempt record } := recorded
  have onLedger : Records s d (s.ledger.recordAttempt record).attempts :=
    records_recordAttempt s d same
  have finished : ∀ ledger : AttemptLedger, ledger.attempts =
      (s.ledger.recordAttempt record).attempts → (do
        Execution.ofLocal (finishDurableAttempt call.executor record .succeeded (.text ""))
        return .returned response d.decision ledger :
          Execution Json Decision (PassResult Json Decision)).Meets (bookContract Json Decision)
            fun result log => log = [.event (.finished d.attempt.attemptId)] ∧
              Records s d result.attempts := by
    intro ledger kept
    refine (Prog.meets_inLeft (books_finishDurableAttempt stored record _ _)).seq
      fun _ log noted => ⟨by simp [noted, same], ?_⟩
    exact (congrArg (Records s d) kept).mpr onLedger
  dsimp only
  split
  next unreserved =>
    refine (finished (AttemptLedger.addCost _ _) rfl).imp fun result log held => ?_
    exact .inl ⟨by simp [closing, closingMarks, unreserved, held.1], held.2⟩
  next reservation reserved =>
    refine ⟨trivial, fun answer settled => ?_⟩
    change SettleAnswer _ at answer
    cases answer with
    | refused negative => cases settled
    | settled nonneg =>
        refine (finished (AttemptLedger.addCost _ _) rfl).imp fun result log held => ?_
        refine .inl ⟨?_, held.2⟩
        rw [held.1]
        simp only [closing, closingMarks, reserved]
        rfl

theorem books_handleResult (stored : call.executor.hasAttemptStore = true)
    (result : ExecutionResult) :
    (handleResult call s d result).Meets (bookContract Json Decision) (EndsAttempt s d) := by
  unfold handleResult
  split
  · refine Prog.Quiet.then (book_reviews.quiet_reviewResponse s d _ result) fun review _ => ?_
    rcases review with e | classified | response
    · cases blocked : e.isIndeterminate with
      | true =>
          simp only [blocked]
          refine (Prog.meets_inLeft (books_blockAttempt s d stored)).seq fun t log noted => ?_
          exact .inl ⟨by simpa using noted.1, noted.2⟩
      | false =>
          simp only [blocked]
          exact books_failClassified s d stored result _ _ _
    · exact books_failAttempt s d stored result classified
    · exact books_acceptResponse s d stored result response
  · exact books_failClassified s d stored result _ _ _

theorem books_dispatch (stored : call.executor.hasAttemptStore = true) :
    (dispatch call s d).Meets (bookContract Json Decision) fun result log => ∃ ending,
      EndsAttempt s d result ending ∧
        log = .event (.prepared d.attempt.attemptId) :: .event .dispatched :: ending := by
  have prepared : (prepareDurableAttempt call.executor d.attempt : Local Json Decision Unit).Meets
      (bookContract Json Decision).left
      fun _ log => log = [.event (.prepared d.attempt.attemptId)] := by
    unfold prepareDurableAttempt
    rw [if_pos stored]
    exact books_keep fun _ => rfl
  have sent : (Local.adapterExecute d.adapter d.prepared d.timeoutSeconds :
      Local Json Decision _).Meets (bookContract Json Decision).left
        fun _ log => log = [.event .dispatched] :=
    (Prog.meets_call trivial fun _ => rfl).imp fun _ _ held => held.1
  refine (Prog.meets_inLeft prepared).seq fun _ log intent => ?_
  refine (Prog.meets_inLeft sent).seq fun answer more bytes => ?_
  subst intent bytes
  cases answer with
  | error e =>
      exact (books_transportError s d stored e).imp fun _ ending ends => ⟨ending, ends, rfl⟩
  | ok result =>
      exact (books_handleResult s d stored result).imp fun _ ending ends => ⟨ending, ends, rfl⟩

end Pass

/-! ### Up to admission -/

/-- What a pass has done when it comes to admission: the reservation of the
    dispatch is all that is in the books. -/
def PreparesBooks (s : LoopState Json) :
    Except RaisedError (Preparation Json Decision) → List BookMark → Prop
  | .error _, log => log = []
  | .ok (.skipped t), log => log = [] ∧ t.ledger.attempts = s.ledger.attempts
  | .ok (.ready t d), log =>
      log = d.reservation.toList.map (fun r => .event (.reserved r.reservationId)) ∧
        t.ledger.attempts = s.ledger.attempts

theorem books_reserveBudget (call : ExecuteCall Json) (request : NormalizedRequest Json)
    (profile : ModelProfile) (attemptId : String) :
    (reserveBudget call request profile attemptId : Raising Json Decision _).run.Meets
      (bookContract Json Decision).left fun result log =>
        match result with
        | .ok (.reserved r) => log = [.event (.reserved r.reservationId)]
        | _ => log = [] := by
  unfold reserveBudget
  split
  · exact rfl
  · refine ⟨trivial, fun answer _ => ?_⟩
    change ReserveAnswer _ _ at answer
    cases answer with
    | refused negative => exact rfl
    | denied => exact rfl
    | reserved nonneg => exact rfl

theorem books_prepareDispatch (call : ExecuteCall Json) (s : LoopState Json) (endpoint : Endpoint)
    (decision : Decision) (profile : ModelProfile) (adapted : NormalizedRequest Json)
    (wasCompacted : Bool) :
    (prepareDispatch call s endpoint decision profile adapted wasCompacted).run.Meets
      (bookContract Json Decision).left (PreparesBooks s) := by
  have adapter : Prog.QuietExcept (bookContract Json Decision).left (fun _ => True)
      (Raising.getAdapter endpoint : Raising Json Decision _) :=
    (book_plain.any rfl).imp fun _ _ _ _ => trivial
  have prepared : ∀ adapter key, Prog.QuietExcept (bookContract Json Decision).left
      (fun _ => True) (Raising.prepareRequest adapter endpoint adapted key :
        Raising Json Decision _) :=
    fun _ _ => (book_plain.any rfl).imp fun _ _ _ _ => trivial
  refine adapter.then (fun _ => rfl) fun _ _ => ?_
  refine (book_plain.quiet_lifted rfl).then (fun _ => rfl) fun ⟨keyVal, keyId⟩ _ => ?_
  refine (prepared _ _).then (fun _ => rfl) fun _ _ => ?_
  refine (book_plain.unnoted.quiet_check call.deadline).then (fun _ => rfl) fun _ _ => ?_
  refine (book_plain.quiet_lifted rfl).then (fun _ => rfl) fun _ _ => ?_
  refine (book_plain.quiet_lifted rfl).then (fun _ => rfl) fun attemptId _ => ?_
  refine (book_plain.quiet_lifted rfl).then (fun _ => rfl) fun _ _ => ?_
  refine (books_reserveBudget call _ profile attemptId).seq fun result log noted => ?_
  rcases result with e | verdict
  · exact (List.append_nil log).trans noted
  · cases verdict with
    | unlimited => exact ⟨(List.append_nil log).trans noted, rfl⟩
    | denied => exact ⟨(List.append_nil log).trans noted, rfl⟩
    | reserved r => exact ⟨(List.append_nil log).trans noted, rfl⟩

theorem books_prepareAttempt [JsonCodec Json] (call : ExecuteCall Json) (s : LoopState Json) :
    (prepareAttempt call s : Raising Json Decision _).run.Meets (bookContract Json Decision).left
      (PreparesBooks s) := by
  refine book_plain.meets_prepareAttempt ?_ call s (fun _ => rfl) (fun t kept _ => ⟨rfl, kept⟩) ?_
  · intro note bound
    cases note with
    | event event =>
        cases event with
        | rateLimitRolloverWait => exact ⟨trivial, fun _ => rfl⟩
        | _ => cases bound
    | setMaxTotalAttempts => exact ⟨trivial, fun _ => rfl⟩
    | _ => cases bound
  · intro t endpoint decision profile adapted wasCompacted kept _ _ _ _
    refine (books_prepareDispatch call t endpoint decision profile adapted wasCompacted).imp
      fun result log held => ?_
    rcases result with e | u | ⟨u, d⟩
    · exact held
    · exact ⟨held.1, held.2.trans kept⟩
    · exact ⟨held.1, held.2.trans kept⟩

/-! ## Whole runs -/

/-- A pass that loses no attempt, with the id of the one it finished. -/
inductive WholePass : List BookMark → List String → Prop where
  | nothing : WholePass [] []
  | denied (reservationId : String) :
      WholePass [.event (.reserved reservationId), .event (.closed reservationId)] []
  | attempt (id : String) :
      WholePass [.event (.prepared id), .event .dispatched, .event (.finished id)] [id]
  | reservedAttempt (reservationId id : String) :
      WholePass [.event (.reserved reservationId), .event (.prepared id), .event .dispatched,
        .event (.closed reservationId), .event (.finished id)] [id]

theorem WholePass.extend {log later : List BookMark} {ids found : List String}
    (first : WholePass log ids) (rest : BookLog later found) :
    BookLog (log ++ later) (ids ++ found) := by
  cases first with
  | nothing => exact rest
  | denied reservationId => exact .denied reservationId rest
  | attempt id => exact .attempt id rest
  | reservedAttempt reservationId id => exact .reservedAttempt reservationId id rest

/-- What a pass leaves: the attempt it finished is on the ledger, or it lost its
    attempt and raised. -/
def PassBooks (s : LoopState Json) (result : PassResult Json Decision) (log : List BookMark) :
    Prop :=
  (∃ ids, WholePass log ids ∧
      attemptIds result.attempts = attemptIds s.ledger.attempts ++ ids) ∨
    (BookLog log [] ∧ .lapse ∈ log ∧ ∃ e attempts, result = .raised e attempts)

/-- An attempt that was dispatched, behind its reservation. -/
theorem EndsAttempt.passBooks {s t : LoopState Json} {d : Dispatch Json Decision}
    {result : PassResult Json Decision} {ending : List BookMark}
    (ends : EndsAttempt t d result ending) (kept : t.ledger.attempts = s.ledger.attempts) :
    PassBooks s result (d.reservation.toList.map (fun r => .event (.reserved r.reservationId)) ++
      .event (.prepared d.attempt.attemptId) :: .event .dispatched :: ending) := by
  rcases ends with ⟨rfl, recorded⟩ | ⟨rfl, raised⟩
  · rw [Records, kept] at recorded
    refine .inl ⟨_, ?_, recorded⟩
    unfold closing closingMarks
    cases d.reservation with
    | none => exact .attempt _
    | some r => exact .reservedAttempt _ _
  · refine .inr ⟨?_, by simp, raised⟩
    cases d.reservation with
    | none => exact .lost _
    | some r => exact .reservedLost _ _

/-- The books of a run from a state of the loop. -/
def BooksFrom (s : LoopState Json) (result : ExecuteResult Json Decision) (log : List BookMark) :
    Prop :=
  ∃ ids, BookLog log ids ∧ (.lapse ∉ log → ∀ attempts, result.attempts = some attempts →
    attemptIds attempts = attemptIds s.ledger.attempts ++ ids)

/-- A pass that ends the request. -/
theorem PassBooks.last {s : LoopState Json} {result : PassResult Json Decision}
    {log : List BookMark} (pass : PassBooks s result log) {final : ExecuteResult Json Decision}
    (same : final.attempts = some result.attempts) : BooksFrom s final (log ++ []) := by
  rcases pass with ⟨ids, first, recorded⟩ | ⟨lost, lapsed, raised⟩
  · refine ⟨ids, ?_, fun _ attempts found => ?_⟩
    · simpa using first.extend .nil
    · rw [same] at found
      cases found
      exact recorded
  · refine ⟨[], by rwa [List.append_nil], fun whole => absurd lapsed ?_⟩
    rwa [List.append_nil] at whole

theorem booksFrom_nothing (s : LoopState Json) (e : RaisedError) :
    BooksFrom s (.raised e s.ledger.attempts : ExecuteResult Json Decision) [] := by
  refine ⟨[], .nil, fun _ attempts found => ?_⟩
  cases found
  exact (List.append_nil _).symm

section Runs

variable [JsonCodec Json] {call : ExecuteCall Json}

theorem books_admitAttempt (stored : call.executor.hasAttemptStore = true) {s t : LoopState Json}
    (d : Dispatch Json Decision) (kept : t.ledger.attempts = s.ledger.attempts) :
    (admitAttempt call t d).Meets (bookContract Json Decision) fun result log =>
      PassBooks s result
        (d.reservation.toList.map (fun r => .event (.reserved r.reservationId)) ++ log) := by
  refine books_ask (fun _ => rfl) fun answer => ?_
  change Except BreakerError Unit at answer
  cases answer with
  | ok granted =>
      refine (books_dispatch t d stored).imp fun result log held => ?_
      obtain ⟨ending, ends, rfl⟩ := held
      exact ends.passBooks kept
  | error denied =>
      refine (Prog.meets_inLeft (books_reservation d.reservation fun _ _ => rfl)).seq
        fun _ log released => ?_
      refine .inl ⟨[], ?_, ?_⟩
      · rw [List.append_nil, released, closingMarks]
        cases d.reservation with
        | none => exact .nothing
        | some r => exact .denied _
      · rw [List.append_nil]
        exact congrArg attemptIds kept

theorem books_runPass (stored : call.executor.hasAttemptStore = true) (s : LoopState Json) :
    (runPass call s : Execution Json Decision _).Meets (bookContract Json Decision)
      (PassBooks s) := by
  have nothing : ∀ result : PassResult Json Decision,
      result.attempts = s.ledger.attempts → PassBooks s result [] :=
    fun result kept => .inl ⟨[], .nothing, by rw [kept, List.append_nil]⟩
  refine (Prog.meets_inLeft (books_prepareAttempt call s)).seq fun prepared log held => ?_
  rcases prepared with e | t | ⟨t, d⟩
  · obtain rfl : log = [] := held
    exact nothing _ rfl
  · obtain ⟨rfl, kept⟩ := held
    exact nothing _ kept
  · obtain ⟨rfl, kept⟩ := held
    exact books_admitAttempt stored d kept

theorem books_executeLoop (stored : call.executor.hasAttemptStore = true) (fuel : Nat)
    (s : LoopState Json) :
    (executeLoop call fuel s : Execution Json Decision _).Meets (bookContract Json Decision)
      (BooksFrom s) := by
  induction fuel generalizing s with
  | zero => exact ⟨[], .nil, fun _ _ none => by cases none⟩
  | succ fuel ih =>
      have more : (mayContinue call s : Local Json Decision Bool).Quiet
          (bookContract Json Decision).left fun _ => True := by
        refine (book_plain.any rfl).bind fun now _ => ?_
        split
        · exact Prog.quiet_pure trivial
        · exact (book_plain.any rfl).bind fun _ _ => Prog.quiet_pure trivial
      refine (ReviewsFreely.quiet_local more).then fun goesOn _ => ?_
      cases goesOn with
      | false =>
          refine (ReviewsFreely.quiet_local (book_plain.unnoted.quiet_giveUp call s)).then fun e _ => ?_
          exact booksFrom_nothing s e
      | true =>
          refine (books_runPass stored s).seq fun result log pass => ?_
          cases result with
          | returned response decision ledger => exact pass.last rfl
          | raised e attempts => exact pass.last rfl
          | next t =>
              rcases pass with ⟨ids, first, recorded⟩ | ⟨_, _, _, _, ended⟩
              · refine (ih t).imp fun result later rest => ?_
                obtain ⟨found, books, kept⟩ := rest
                refine ⟨ids ++ found, first.extend books, fun whole attempts same => ?_⟩
                have final := kept (fun lapsed => whole (List.mem_append_right _ lapsed)) attempts same
                rw [final, ← List.append_assoc]
                exact congrArg (· ++ found) recorded
              · cases ended

end Runs

/-- In every run of `execute` with an attempt store, over stores that do not
    raise, the books are kept exactly when every failure could be classified. -/
theorem attempts_bookkept_iff [JsonCodec Json] {σ : Type}
    (handle : Prog.Handler (executorSig Json Decision) σ) (executor : GatewayExecutor Json)
    (stored : executor.hasAttemptStore = true) (args : ExecuteRequest Json) (fuel : Nat) (start : σ)
    (accepted : ∀ exchange ∈ (execute executor args fuel).transcript handle start,
      refuses exchange = false) :
    RunBooks (((execute executor args fuel).transcript handle start).filterMap attemptEvent)
        ((execute executor args fuel).exec handle start).1 ↔
      ∀ exchange ∈ (execute executor args fuel).transcript handle start,
        unclassified exchange = false := by
  have meets : (execute executor args fuel : Execution Json Decision _).Meets
      (bookContract Json Decision) (BooksFrom { request := args.request }) := by
    refine (ReviewsFreely.quiet_local (book_plain.any rfl)).then fun now _ => ?_
    exact books_executeLoop stored fuel _
  obtain ⟨ids, books, recorded⟩ := (meets.traces (Prog.traces_exec handle _ start) accepted).1
  have events : ((execute executor args fuel).transcript handle start).filterMap attemptEvent =
      (((execute executor args fuel).transcript handle start).filterMap bookMark).filterMap
        BookMark.event? := by
    rw [List.filterMap_filterMap]
    simp only [attemptEvent_of_bookMark]
  have whole : .lapse ∉ ((execute executor args fuel).transcript handle start).filterMap bookMark ↔
      ∀ exchange ∈ (execute executor args fuel).transcript handle start,
        unclassified exchange = false := by
    simp only [List.mem_filterMap, ← unclassified_iff_bookMark, not_exists, not_and,
      Bool.not_eq_true]
  rw [← whole, events]
  constructor
  · rintro ⟨⟨found, kept, _⟩, _⟩
    exact books.whole_of_bookkept kept
  · intro clean
    have kept := books.bookkept clean
    exact ⟨⟨ids, kept, recorded clean⟩, kept.nothing_open⟩
section Sample

def sampleBookRun : Execution OkObject Unit (ExecuteResult OkObject Unit) :=
  execute { computePrefixHash := fun _ => "", hasAttemptStore := true }
    { request := { requestId := "request-1" }, apiKeys := sampleKeys
      requirements := { budgetLimitUsd := some 1 } } 3

/-- A key is rotated after the first of two attempts. -/
theorem attempts_bookkept_sample :
    RunBooks ((sampleBookRun.transcript sampleHandle sampleStart).filterMap attemptEvent)
      (sampleBookRun.exec sampleHandle sampleStart).1 :=
  (attempts_bookkept_iff sampleHandle _ rfl _ 3 sampleStart (by decide +kernel)).mpr
    (by decide +kernel)

/-- `b"tpm: limit " + b"9" * 4301` -/
def longLimit : ExecutionResult where
  statusCode := 500
  body := [0x74, 0x70, 0x6d, 0x3a, 0x20, 0x6c, 0x69, 0x6d, 0x69, 0x74, 0x20] ++
    List.replicate 4301 0x39

/-- What `int` raises on the digits of `longLimit`, the only body that is
    classified here. -/
def longLimitHandle : Prog.Handler (executorSig OkObject Unit) SampleWorld
  | .inr (.classifyFailure _ _ _), w =>
      (Except.error (.valueError "Exceeds the limit (4300 digits) for integer string conversion"), w)
  | .inr op, w => samplePermit op w
  | .inl op, w => sampleLocal op w

/-- The classifier raises, so the attempt is never finished, on no ledger, and
    its reservation stays open. -/
theorem long_limit_loses_attempt :
    (∀ exchange ∈ sampleBookRun.transcript longLimitHandle { sampleStart with replies := [longLimit] },
      refuses exchange = false) ∧
    ¬ RunBooks ((sampleBookRun.transcript longLimitHandle
        { sampleStart with replies := [longLimit] }).filterMap attemptEvent)
      (sampleBookRun.exec longLimitHandle { sampleStart with replies := [longLimit] }).1 ∧
    stillOpen ((sampleBookRun.transcript longLimitHandle
        { sampleStart with replies := [longLimit] }).filterMap attemptEvent) =
      ["request-1:att_1"] := by
  have events : (sampleBookRun.transcript longLimitHandle
      { sampleStart with replies := [longLimit] }).filterMap attemptEvent =
        [.reserved "request-1:att_1", .prepared "att_1", .dispatched] := by
    decide +kernel
  refine ⟨by decide +kernel, ?_, ?_⟩
  · rw [events]
    rintro ⟨⟨ids, kept, _⟩, _⟩
    cases kept
  · rw [events]
    rfl

end Sample

end DuraLLM
