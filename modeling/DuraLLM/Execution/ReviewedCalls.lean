import DuraLLM.Execution.Permits
import DuraLLM.Execution.Routine

/-! # The tool calls that are returned

A response is returned with the tool calls of the provider as the review leaves
them: registered with the ledger, checked for a receipt or a submission without
one, validated against the schema of their own tool, and marked.  The calls of
the review are noted with their answers, and the notes of the last attempt
account for every call that is returned.
-/

namespace DuraLLM

variable {Json Decision : Type}

inductive ReviewNote (Json : Type) where
  | normalized (response : NormalizedResponse Json)
  | registered (toolCallId operationId toolName : String) (arguments : Json)
  | checked (operationId toolName : String) (arguments : Json) (answer : Bool × Option Json)
  | replayed (toolCallId : String) (receipt : Option Json)
  /-- Whether the operation was submitted without an acknowledgement. -/
  | pending (operationId toolName : String) (arguments : Json) (answer : Bool)
  | validated (toolName : String) (arguments : ToolArguments Json) (schema : Option Json)
      (knownTools : List String) (report : ToolValidationReport Json)
  | accepted (toolCallId : String)

def ReviewOp.reviewNote : (op : ReviewOp Json) → op.Result → Option (ReviewNote Json)
  | .normalizeResponse _ _ _, (response : NormalizedResponse Json) => some (.normalized response)
  | .registerToolCall toolCallId operationId toolName arguments, _ =>
      some (.registered toolCallId operationId toolName arguments)
  | .checkIdempotency operationId toolName arguments, (answer : Bool × Option Json) =>
      some (.checked operationId toolName arguments answer)
  | .markReplayed toolCallId receipt, _ => some (.replayed toolCallId receipt)
  | .hasIndeterminateOperation operationId toolName arguments, (answer : Bool) =>
      some (.pending operationId toolName arguments answer)
  | .validateToolCall toolName arguments schema knownTools, (report : ToolValidationReport Json) =>
      some (.validated toolName arguments schema knownTools report)
  | .markValidated toolCallId, _ => some (.accepted toolCallId)
  | _, _ => none

/-- A call that raises leaves no note. -/
def reviewNote : Exchange Json Decision → Option (ReviewNote Json)
  | ⟨.inr (.review op), (.ok answer : Except RaisedError (op.Result))⟩ => op.reviewNote answer
  | _ => none

def reviewContract (Json Decision : Type) :
    Contract (executorSig Json Decision) (ReviewNote Json) where
  fair := fun _ _ => True
  good := fun _ => True
  note := reviewNote

/-! ## What the review of a call leaves -/

section Calls

variable [JsonCodec Json] (s : LoopState Json)

/-- The id under which the ledger knows the call. -/
def ledgerCallId (index : Nat) (tc : NormalizedToolCall Json) : String :=
  s.request.requestId ++ ":att" ++ toString s.attemptIdx ++ ":" ++ clientCallId s index tc

/-- The call with its ids, and with the receipt that was found. -/
def identifiedCall (index : Nat) (tc : NormalizedToolCall Json) (answer : Bool × Option Json) :
    NormalizedToolCall Json :=
  let metadata := { tc.metadata with ledgerCallId := some (ledgerCallId s index tc) }
  { tc with
    id := clientCallId s index tc
    metadata :=
      if answer.1 then { metadata with replayed := true, executionReceipt := answer.2 }
      else metadata }

/-- The schema of the tool that the call names. -/
def ownSchema (tc : NormalizedToolCall Json) : Option Json :=
  (s.request.tools.find? fun t => t.name = tc.name).map (·.parameters)

/-- What is noted of a call that is accepted. -/
def callNotes (index : Nat) (tc : NormalizedToolCall Json) (answer : Bool × Option Json)
    (report : ToolValidationReport Json) : List (ReviewNote Json) :=
  let id := ledgerCallId s index tc
  let operationId := s.request.requestId
  [.registered id operationId tc.name tc.arguments,
    .checked operationId tc.name tc.arguments answer,
    if answer.1 then .replayed id answer.2 else .pending operationId tc.name tc.arguments false,
    .validated tc.name (validationInput tc) (ownSchema s tc) (s.request.tools.map (·.name)) report,
    .accepted id]

/-- The calls of a provider, what becomes of them, and the notes of it: each was
    found executable. -/
inductive CallsReviewed : Nat → List (NormalizedToolCall Json) → List (NormalizedToolCall Json) →
    List (ReviewNote Json) → Prop where
  | nil (index : Nat) : CallsReviewed index [] [] []
  | cons {index : Nat} {tc : NormalizedToolCall Json} (answer : Bool × Option Json)
      {report : ToolValidationReport Json} (executable : report.isExecutable = true)
      {rest others : List (NormalizedToolCall Json)} {notes : List (ReviewNote Json)}
      (later : CallsReviewed (index + 1) rest others notes) :
      CallsReviewed index (tc :: rest)
        (validatedCall (identifiedCall s index tc answer) report :: others)
        (callNotes s index tc answer report ++ notes)

/-- The arguments of a returned call are those that were validated, and its raw
    arguments are the provider's, or read as the arguments. -/
theorem CallsReviewed.arguments {index : Nat} {calls others : List (NormalizedToolCall Json)}
    {notes : List (ReviewNote Json)} (reviewed : CallsReviewed s index calls others notes)
    {returned : NormalizedToolCall Json} (member : returned ∈ others) :
    ∃ tc ∈ calls, ∃ report,
      .validated tc.name (validationInput tc) (ownSchema s tc) (s.request.tools.map (·.name))
          report ∈ notes ∧
        report.isExecutable = true ∧ returned.name = tc.name ∧
        returned.arguments = report.validatedArguments ∧
        (report.normalizationsApplied = [] ∧ returned.rawArguments = tc.rawArguments ∨
          JsonCodec.loads returned.rawArguments = some returned.arguments) := by
  induction reviewed with
  | nil index => cases member
  | @cons index tc answer report executable rest others notes later ih =>
      rcases List.mem_cons.mp member with rfl | member
      · have noted : .validated tc.name (validationInput tc) (ownSchema s tc)
            (s.request.tools.map (·.name)) report ∈ callNotes s index tc answer report := by
          simp [callNotes]
        refine ⟨tc, List.mem_cons_self, report, List.mem_append_left _ noted, executable, ?_⟩
        unfold validatedCall
        split
        next none => exact ⟨rfl, rfl, .inl ⟨none, rfl⟩⟩
        next some => exact ⟨rfl, rfl, .inr (JsonCodec.loads_dumps _ _)⟩
      · obtain ⟨tc, known, report, noted, held⟩ := ih member
        exact ⟨tc, List.mem_cons_of_mem _ known, report, List.mem_append_right _ noted, held⟩

end Calls

/-! ## The review -/

section Review

variable {α β : Type}

/-- A call of the review, with its note. -/
theorem review_call {op : ReviewOp Json} {f : op.Result → Reviewing Json Decision β}
    {post : Except RaisedError β → List (ReviewNote Json) → Prop}
    (raised : ∀ e, post (.error e) [])
    (rest : ∀ answer, (f answer).run.Meets (reviewContract Json Decision)
      fun b log => post b ((op.reviewNote answer).toList ++ log)) :
    (Reviewing.call op >>= f).run.Meets (reviewContract Json Decision) post := by
  refine ⟨trivial, fun answer _ => ?_⟩
  change Except RaisedError (op.Result) at answer
  cases answer with
  | ok answer => exact rest answer
  | error e => exact raised e

variable [JsonCodec Json] (s : LoopState Json) (d : Dispatch Json Decision)

omit [JsonCodec Json] in
theorem notes_replayOrBlock (tcId : String) (tc : NormalizedToolCall Json) :
    (replayOrBlock s tcId tc : Reviewing Json Decision _).run.Meets (reviewContract Json Decision)
      fun result log => ∀ checked, result = .ok checked → ∃ answer : Bool × Option Json,
        checked = { tc with
          metadata :=
            if answer.1 then
              { tc.metadata with
                ledgerCallId := some tcId, replayed := true, executionReceipt := answer.2 }
            else { tc.metadata with ledgerCallId := some tcId } } ∧
        log = [.checked s.request.requestId tc.name tc.arguments answer,
          if answer.1 then .replayed tcId answer.2
          else .pending s.request.requestId tc.name tc.arguments false] := by
  refine review_call (fun e _ same => by cases same) fun answer => ?_
  change Bool × Option Json at answer
  obtain ⟨found, receipt⟩ := answer
  cases found with
  | true =>
      refine review_call (fun e _ same => by cases same) fun _ => ?_
      rintro checked ⟨⟩
      exact ⟨(true, receipt), rfl, rfl⟩
  | false =>
      refine review_call (fun e _ same => by cases same) fun unknown => ?_
      change Bool at unknown
      cases unknown with
      | false =>
          rintro checked ⟨⟩
          exact ⟨(false, receipt), rfl, rfl⟩
      | true =>
          refine review_call (fun e _ same => by cases same) fun _ => ?_
          rintro checked ⟨⟩

theorem notes_reviewToolCall (index : Nat) (tc : NormalizedToolCall Json) :
    (reviewToolCall s d index tc : Reviewing Json Decision _).run.Meets
      (reviewContract Json Decision) fun result log => ∀ checked, result = .ok (some checked) →
        ∃ answer report, report.isExecutable = true ∧
          checked = validatedCall (identifiedCall s index tc answer) report ∧
          log = callNotes s index tc answer report := by
  refine review_call (fun e _ same => by cases same) fun _ => ?_
  refine Prog.Meets.seq (notes_replayOrBlock s (ledgerCallId s index tc) _) fun result log held => ?_
  cases result with
  | error e => exact fun _ same => by cases same
  | ok checked =>
      obtain ⟨answer, rfl, rfl⟩ := held checked rfl
      refine review_call (fun e _ same => by cases same) fun report => ?_
      change ToolValidationReport Json at report
      refine ⟨trivial, fun _ _ => ?_⟩
      change Prog.Meets _ (ExceptT.run (if report.isExecutable then _ else _)) _
      split
      next executable =>
        refine review_call (fun e _ same => by cases same) fun _ => ?_
        rintro checked ⟨⟩
        refine ⟨answer, report, executable, ?_, ?_⟩
        · unfold identifiedCall
          rfl
        · unfold callNotes
          rfl
      next =>
        refine review_call (fun e _ same => by cases same) fun _ => ?_
        rintro checked ⟨⟩

theorem notes_reviewToolCalls (index : Nat) (calls : List (NormalizedToolCall Json)) :
    (reviewToolCalls s d index calls : Reviewing Json Decision _).run.Meets
      (reviewContract Json Decision) fun result log =>
        ∀ checked, result = .ok (some checked) → CallsReviewed s index calls checked log := by
  induction calls generalizing index with
  | nil =>
      rintro checked ⟨⟩
      exact .nil index
  | cons tc rest ih =>
      refine Prog.Meets.seq (notes_reviewToolCall s d index tc) fun result log held => ?_
      rcases result with e | _ | checked
      · exact fun _ same => by cases same
      · exact fun _ same => by cases same
      · obtain ⟨answer, report, executable, rfl, rfl⟩ := held checked rfl
        refine Prog.Meets.seq (ih (index + 1)) fun result more later => ?_
        rcases result with e | _ | others
        · exact fun _ same => by cases same
        · exact fun _ same => by cases same
        · rintro checked ⟨⟩
          rw [List.append_nil]
          exact .cons answer executable (later others rfl)

/-- The response is that of the provider, with its calls reviewed. -/
def ResponseReviewed (maxResponseChars : Nat) (response : NormalizedResponse Json)
    (log : List (ReviewNote Json)) : Prop :=
  ∃ normalized notes calls, log = .normalized normalized :: notes ∧
    checkSanity maxResponseChars normalized = none ∧
    response = { normalized with toolCalls := calls } ∧
    CallsReviewed s 0 normalized.toolCalls calls notes

theorem notes_reviewResponse (maxResponseChars : Nat) (result : ExecutionResult) :
    (reviewResponse s d maxResponseChars result).run.Meets (reviewContract Json Decision)
      fun reviewed log => ∀ response, reviewed = .ok (.ok response) →
        ResponseReviewed s maxResponseChars response log := by
  refine review_call (fun e _ same => by cases same) fun normalized => ?_
  change NormalizedResponse Json at normalized
  split
  · exact fun _ same => by cases same
  next sane =>
    refine Prog.Meets.seq (notes_reviewToolCalls s d 0 normalized.toolCalls) fun result log held => ?_
    rcases result with e | _ | calls
    · exact fun _ same => by cases same
    · exact fun _ same => by cases same
    · rintro response ⟨⟩
      change ResponseReviewed s maxResponseChars _ (.normalized normalized :: (log ++ []))
      rw [List.append_nil]
      exact ⟨normalized, log, calls, rfl, sane, rfl, held calls rfl⟩

end Review

/-! ## Passes -/

section Pass

/-- The request has the same id and the same tools. -/
structure LoopState.SameTools (s t : LoopState Json) : Prop where
  requestId : t.request.requestId = s.request.requestId
  tools : t.request.tools = s.request.tools

namespace LoopState.SameTools

variable {s t u : LoopState Json}

theorem of_request (same : t.request = s.request) : s.SameTools t := ⟨by rw [same], by rw [same]⟩

theorem trans (first : s.SameTools t) (second : t.SameTools u) : s.SameTools u :=
  ⟨second.requestId.trans first.requestId, second.tools.trans first.tools⟩

end LoopState.SameTools

theorem review_indifferent : Indifferent (reviewContract Json Decision).left :=
  fun _ _ => ⟨trivial, fun _ => rfl⟩

/-- No local program is noted. -/
theorem review_local {α : Type} (p : Local Json Decision α) :
    p.Quiet (reviewContract Json Decision).left fun _ => True := by
  induction p with
  | ret a => exact Prog.quiet_pure trivial
  | ask op next ih => exact ⟨trivial, fun answer _ => ih answer⟩

/-- A local program that may raise is not either. -/
theorem review_raising {α : Type} (p : Raising Json Decision α) :
    Prog.QuietExcept (reviewContract Json Decision).left (fun _ => True) p :=
  (review_local p.run).imp fun _ _ _ _ => trivial

/-- Nor are the permits. -/
theorem review_permit {op : PermitOp Json}
    (silent : ∀ answer, reviewNote (⟨.inr op, answer⟩ : Exchange Json Decision) = none) :
    (Execution.ask op : Execution Json Decision _).Quiet (reviewContract Json Decision)
      fun _ => True :=
  (Prog.quiet_call trivial silent).imp fun _ _ => trivial

/-- The loop goes on with a request of the same id and tools, or ends in an
    exception. -/
def GoesOn (s : LoopState Json) : PassResult Json Decision → Prop
  | .next t => s.SameTools t
  | .raised _ _ => True
  | .returned _ _ _ => False

/-- A pass goes on with the request, or raises, or returns a response that the last
    review accounts for. -/
def PassReview [JsonCodec Json] (maxResponseChars : Nat) (s : LoopState Json) :
    PassResult Json Decision → List (ReviewNote Json) → Prop
  | .next t, _ => s.SameTools t
  | .raised _ _, _ => True
  | .returned response _ _, log => ∃ t, s.SameTools t ∧
      ∃ before notes, log = before ++ notes ∧ ResponseReviewed t maxResponseChars response notes

theorem GoesOn.before {s t : LoopState Json} {result : PassResult Json Decision}
    (goesOn : GoesOn t result) (same : s.SameTools t) : GoesOn s result := by
  cases result with
  | next u => exact same.trans goesOn
  | raised e attempts => trivial
  | returned response decision ledger => exact goesOn.elim

variable (call : ExecuteCall Json) (s : LoopState Json) (d : Dispatch Json Decision)

abbrev ExecutionReview {α : Type} (p : Execution Json Decision α)
    (post : α → List (ReviewNote Json) → Prop) : Prop :=
  p.Meets (reviewContract Json Decision) post

theorem request_recordFailedAttempt (result : ExecutionResult) (classified : FailureClassification)
    (recorded : Bool) :
    (recordFailedAttempt call s d result classified recorded).Quiet
      (reviewContract Json Decision).left fun t => t.request = s.request := by
  have plain : Unnoted (reviewContract Json Decision).left := review_indifferent.unnoted
  refine (review_local _).bind fun _ _ => ?_
  refine (plain.quiet_recordBilling call s d.endpoint classified).bind fun t billed => ?_
  refine (plain.quiet_recordPermanent call t d.endpoint classified).bind fun u dead => ?_
  refine (review_local _).bind fun _ _ => (review_local _).bind fun record _ => ?_
  refine (review_local _).bind fun _ _ => (review_local _).bind fun _ _ => ?_
  exact (review_local _).bind fun _ _ => Prog.quiet_pure (billed.trans dead).request

theorem request_rotateKey (keyId : String) (result : ExecutionResult)
    (classified : FailureClassification) :
    (rotateKey call s d keyId result classified).Quiet (reviewContract Json Decision).left
      fun t => t.request = s.request := by
  refine (review_local _).bind fun _ _ => (review_local _).bind fun _ _ => ?_
  refine (review_local _).bind fun record _ => ?_
  refine (review_indifferent.quiet_recordAttempt s record).bind fun t recorded => ?_
  subst recorded
  exact (review_local _).bind fun _ _ => (review_local _).bind fun _ _ => Prog.quiet_pure rfl

theorem review_reportFailure (result : ExecutionResult) (classified : FailureClassification)
    (recorded : Bool) :
    (reportFailure call s d result classified recorded).Quiet (reviewContract Json Decision)
      (GoesOn s) := by
  refine Prog.Quiet.bind (review_permit fun _ => rfl) fun _ _ => ?_
  refine Prog.Quiet.bind (Prog.meets_inLeft
    (request_recordFailedAttempt call s d result classified recorded)) fun t same => ?_
  refine Prog.Quiet.bind (Prog.meets_inLeft
    (review_indifferent.quiet_recover call t d classified)) fun outcome recovers => ?_
  refine Prog.quiet_pure ?_
  cases outcome with
  | error e => trivial
  | ok u =>
      have first := LoopState.SameTools.of_request same
      rcases (recovers u rfl).request with kept | ⟨cap, -, clamped⟩
      · exact first.trans (.of_request kept)
      · exact first.trans ⟨by rw [clamped], by rw [clamped]⟩

theorem review_failAttempt (result : ExecutionResult) (classified : FailureClassification)
    (recorded : Bool) :
    (failAttempt call s d result classified recorded).Quiet (reviewContract Json Decision)
      (GoesOn s) := by
  unfold failAttempt
  split
  · exact review_reportFailure call s d result classified recorded
  · refine Prog.Quiet.bind (review_permit fun _ => rfl) fun another _ => ?_
    change Bool at another
    cases another with
    | false => exact review_reportFailure call s d result classified recorded
    | true =>
        refine Prog.Quiet.bind (Prog.meets_inLeft
          (request_rotateKey call s d _ result classified)) fun t same => ?_
        exact Prog.quiet_pure (LoopState.SameTools.of_request same)

theorem review_classifyFailure (source : FailureSource) (statusCode : Nat)
    (headers : List (String × String)) :
    (classifyFailure source statusCode headers : Execution Json Decision _).Quiet
      (reviewContract Json Decision) fun _ => True := by
  unfold classifyFailure
  split
  · exact Prog.quiet_pure trivial
  · exact review_permit fun _ => rfl

theorem review_failClassified (result : ExecutionResult) (source : FailureSource)
    (statusCode : Nat) (headers : List (String × String)) (recorded : Bool) :
    (failClassified call s d result source statusCode headers recorded).Quiet
      (reviewContract Json Decision) (GoesOn s) := by
  refine (review_classifyFailure source statusCode headers).bind fun answer _ => ?_
  cases answer with
  | error e => exact Prog.quiet_pure trivial
  | ok classified => exact review_failAttempt call s d result classified recorded

theorem review_transportError (error : RaisedError) :
    (transportError call s d error).Quiet (reviewContract Json Decision) (GoesOn s) := by
  refine (review_classifyFailure _ _ _).bind fun answer _ => ?_
  cases answer with
  | error e => exact Prog.quiet_pure trivial
  | ok classified =>
      refine Prog.Quiet.bind (Prog.meets_inLeft (review_local _)) fun record _ => ?_
      refine Prog.Quiet.bind (review_permit fun _ => rfl) fun _ _ => ?_
      refine Prog.Quiet.bind (Prog.meets_inLeft (review_local _)) fun t _ => ?_
      exact Prog.quiet_pure trivial

variable [JsonCodec Json]

theorem GoesOn.passReview {s : LoopState Json} {result : PassResult Json Decision}
    (goesOn : GoesOn s result) (maxResponseChars : Nat) (log : List (ReviewNote Json)) :
    PassReview maxResponseChars s result log := by
  cases result with
  | next u => exact goesOn
  | raised e attempts => trivial
  | returned response decision ledger => exact goesOn.elim

/-- An accepted response is returned, unless its cost is refused. -/
theorem review_acceptResponse (result : ExecutionResult) (response : NormalizedResponse Json) :
    (acceptResponse call s d result response).Quiet (reviewContract Json Decision)
      fun outcome => GoesOn s outcome ∨
        ∃ decision ledger, outcome = .returned response decision ledger := by
  refine Prog.Quiet.bind (review_permit fun _ => rfl) fun _ _ => ?_
  refine Prog.Quiet.bind (Prog.meets_inLeft
    (review_indifferent.quiet_recordSuccess call s d result)) fun ⟨record, t⟩ recorded => ?_
  dsimp only at recorded
  obtain ⟨-, rfl⟩ := recorded
  have succeed : ∀ ledger : AttemptLedger, (do
      Execution.ofLocal (finishDurableAttempt call.executor record .succeeded (.text ""))
      return .returned response d.decision ledger :
        Execution Json Decision (PassResult Json Decision)).Quiet (reviewContract Json Decision)
          fun outcome => GoesOn s outcome ∨
            ∃ decision ledger, outcome = .returned response decision ledger := by
    intro ledger
    refine Prog.Quiet.bind (Prog.meets_inLeft (review_local _)) fun _ _ => ?_
    exact Prog.quiet_pure (.inr ⟨_, ledger, rfl⟩)
  dsimp only
  split
  · exact succeed _
  · refine Prog.Quiet.bind (review_permit fun _ => rfl) fun answer _ => ?_
    change SettleAnswer _ at answer
    cases answer with
    | settled nonneg => exact succeed _
    | refused negative =>
        exact (review_failClassified call _ d result _ _ _ _).imp fun outcome goesOn =>
          .inl (goesOn.before (.of_request rfl))

theorem review_handleResult (result : ExecutionResult) :
    ExecutionReview (handleResult call s d result) (PassReview call.executor.maxResponseChars s) := by
  have same : s.SameTools s := .of_request rfl
  have failed {p : Execution Json Decision (PassResult Json Decision)}
      (quiet : p.Quiet (reviewContract Json Decision) (GoesOn s)) (before : List (ReviewNote Json)) :
      ExecutionReview p fun outcome log =>
        PassReview call.executor.maxResponseChars s outcome (before ++ log) :=
    quiet.meets fun outcome goesOn => goesOn.passReview _ _
  unfold handleResult
  split
  · refine (notes_reviewResponse s d call.executor.maxResponseChars result).seq
      fun review log held => ?_
    rcases review with e | classified | response
    · cases blocked : e.isIndeterminate with
      | true =>
          simp only [blocked]
          refine Prog.Quiet.then (Prog.meets_inLeft (review_local _)) fun _ _ => ?_
          trivial
      | false =>
          simp only [blocked]
          exact failed (review_failClassified call s d result _ _ _ _) log
    · exact failed (review_failAttempt call s d result classified false) log
    · refine (review_acceptResponse call s d result response).meets fun outcome accepted => ?_
      rw [List.append_nil]
      rcases accepted with goesOn | ⟨decision, ledger, rfl⟩
      · exact goesOn.passReview _ _
      · exact ⟨s, same, [], log, rfl, held response rfl⟩
  · exact failed (review_failClassified call s d result _ _ _ _) []

theorem review_dispatch :
    ExecutionReview (dispatch call s d) (PassReview call.executor.maxResponseChars s) := by
  refine Prog.Quiet.then (Prog.meets_inLeft (review_local _)) fun _ _ => ?_
  refine ⟨trivial, fun answer _ => ?_⟩
  change Except RaisedError ExecutionResult at answer
  cases answer with
  | ok result => exact review_handleResult call s d result
  | error e =>
      refine (review_transportError call s d e).meets fun outcome goesOn => ?_
      exact goesOn.passReview _ _

/-- What is prepared is prepared for the request. -/
def PreparesFor (s : LoopState Json) : Except RaisedError (Preparation Json Decision) → Prop
  | .error _ => True
  | .ok (.skipped t) => t.request = s.request
  | .ok (.ready t _) => t.request = s.request

omit [JsonCodec Json] in
theorem review_prepareDispatch {t : LoopState Json} (same : t.request = s.request)
    (endpoint : Endpoint) (decision : Decision) (profile : ModelProfile)
    (adapted : NormalizedRequest Json) (wasCompacted : Bool) :
    (prepareDispatch call t endpoint decision profile adapted wasCompacted).run.Quiet
      (reviewContract Json Decision).left (PreparesFor s) := by
  refine (review_raising _).then (fun _ => ⟨rfl, trivial⟩) fun _ _ => ?_
  refine (review_raising _).then (fun _ => ⟨rfl, trivial⟩) fun _ _ => ?_
  refine (review_raising _).then (fun _ => ⟨rfl, trivial⟩) fun _ _ => ?_
  refine (review_raising _).then (fun _ => ⟨rfl, trivial⟩) fun _ _ => ?_
  refine (review_raising _).then (fun _ => ⟨rfl, trivial⟩) fun _ _ => ?_
  refine (review_raising _).then (fun _ => ⟨rfl, trivial⟩) fun _ _ => ?_
  refine (review_raising _).then (fun _ => ⟨rfl, trivial⟩) fun _ _ => ?_
  refine (review_raising _).then (fun _ => ⟨rfl, trivial⟩) fun verdict _ => ?_
  cases verdict <;> exact ⟨rfl, same⟩

theorem review_prepareAttempt :
    (prepareAttempt call s : Raising Json Decision _).run.Quiet (reviewContract Json Decision).left
      (PreparesFor s) := by
  refine review_indifferent.meets_prepareAttempt (fun _ _ => ⟨trivial, fun _ => rfl⟩) call s
    (fun e => ⟨rfl, trivial⟩) (fun t _ same => ⟨rfl, same⟩)
    fun t endpoint decision profile adapted wasCompacted _ same _ _ _ => ?_
  exact review_prepareDispatch call s same endpoint decision profile adapted wasCompacted

theorem review_admitAttempt :
    ExecutionReview (admitAttempt call s d) (PassReview call.executor.maxResponseChars s) := by
  refine Prog.Quiet.then (review_permit fun _ => rfl) fun answer _ => ?_
  change Except BreakerError Unit at answer
  cases answer with
  | ok admitted => exact review_dispatch call s d
  | error e =>
      refine Prog.Quiet.then (Prog.meets_inLeft (review_local _)) fun _ _ => ?_
      exact LoopState.SameTools.of_request rfl

theorem review_runPass :
    ExecutionReview (runPass call s : Execution Json Decision _)
      (PassReview call.executor.maxResponseChars s) := by
  refine Prog.Quiet.then (Prog.meets_inLeft (review_prepareAttempt call s)) fun prepared same => ?_
  rcases prepared with e | t | ⟨t, d⟩
  · trivial
  · exact LoopState.SameTools.of_request same
  · have first : s.SameTools t := .of_request same
    refine (review_admitAttempt call t d).imp fun outcome log held => ?_
    cases outcome with
    | next u => exact first.trans held
    | raised e attempts => trivial
    | returned response decision ledger =>
        obtain ⟨u, second, held⟩ := held
        exact ⟨u, first.trans second, held⟩

/-- A run returns only what its last review accounts for. -/
def RunReview (maxResponseChars : Nat) (s : LoopState Json) :
    ExecuteResult Json Decision → List (ReviewNote Json) → Prop
  | .returned response _ _, log => ∃ t, s.SameTools t ∧
      ∃ before notes, log = before ++ notes ∧ ResponseReviewed t maxResponseChars response notes
  | _, _ => True

theorem review_executeLoop (fuel : Nat) :
    ExecutionReview (executeLoop call fuel s : Execution Json Decision _)
      (RunReview call.executor.maxResponseChars s) := by
  induction fuel generalizing s with
  | zero => trivial
  | succ fuel ih =>
      refine Prog.Quiet.then (Prog.meets_inLeft (review_local _)) fun mayContinue _ => ?_
      change Bool at mayContinue
      cases mayContinue with
      | false => exact Prog.Quiet.then (Prog.meets_inLeft (review_local _)) fun _ _ => trivial
      | true =>
          refine (review_runPass call s).seq fun outcome log held => ?_
          cases outcome with
          | raised e attempts => trivial
          | returned response decision ledger =>
              change RunReview _ s (.returned response decision ledger) (log ++ [])
              rw [List.append_nil]
              exact held
          | next t =>
              refine (ih t).imp fun result more later => ?_
              cases result with
              | returned response decision ledger =>
                  obtain ⟨u, same, before, notes, rfl, reviewed⟩ := later
                  exact ⟨u, held.trans same, log ++ before, notes,
                    (List.append_assoc ..).symm, reviewed⟩
              | _ => trivial

end Pass

/-! ## Runs -/

section Run

variable [JsonCodec Json]

/-- Every response that `execute` returns is one of a provider, sane, and with its
    calls as the last review of the run left them: each registered, checked for a
    receipt, known not to be pending, and found executable for the schema of its own
    tool. -/
theorem returned_calls_reviewed {σ : Type} (handle : Prog.Handler (executorSig Json Decision) σ)
    (executor : GatewayExecutor Json) (args : ExecuteRequest Json) (fuel : Nat) (start : σ) :
    RunReview executor.maxResponseChars { request := args.request }
      ((execute executor args fuel : Execution Json Decision _).exec handle start).1
      (((execute executor args fuel).transcript handle start).filterMap reviewNote) := by
  have reviewed : ExecutionReview (execute executor args fuel : Execution Json Decision _)
      (RunReview executor.maxResponseChars { request := args.request }) :=
    Prog.Quiet.then (Prog.meets_inLeft (review_local _)) fun _ _ => review_executeLoop _ _ fuel
  exact (reviewed.traces (Prog.traces_exec handle _ start) fun _ _ => trivial).1

end Run

end DuraLLM
