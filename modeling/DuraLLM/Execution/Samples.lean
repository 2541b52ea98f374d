import DuraLLM.Execution.PassNotes

/-! # One attempt, one sample

Each dispatched attempt is due one sample in the health store: its endpoint,
whether it succeeded, and its latency.  The store is told on success, on a
transport error and on a classified failure.  It is not told of an attempt that
is blocked, cannot be classified or gives way to another key, and it is told
twice where the cost of a success is refused, or where an endpoint that is left
cools down.  In a run without these, the samples are those that were due.
-/

namespace DuraLLM

variable {Json Decision : Type}

def PassNote.sample : PassNote Json → Option HealthSample
  | .sampled sample => some sample
  | _ => none

def samplesIn (notes : List (PassNote Json)) : List HealthSample := notes.filterMap PassNote.sample

/-- The report of an attempt, before the next is dispatched. -/
def reportIn : List (PassNote Json) → Option AttemptRecord
  | [] => none
  | .attempted record :: _ => some record
  | .dispatched _ :: _ => none
  | _ :: later => reportIn later

/-- The latency of a reply is its duration; that of an attempt without one is the
    time until it was over. -/
def dueSample (endpointId : String) (answer : Except RaisedError ExecutionResult)
    (report : Option AttemptRecord) : HealthSample where
  endpointId
  success := report.any (·.success)
  latencyMs :=
    match answer with
    | .ok result => result.durationMs
    | .error _ => (report.map (·.latencyMs)).getD 0

/-- A sample for each attempt that is dispatched; `endpointId` is what was
    prepared for last. -/
def dueSamples : String → List (PassNote Json) → List HealthSample
  | _, [] => []
  | _, .prepared endpoint _ _ :: later => dueSamples endpoint.id later
  | endpointId, .dispatched answer :: later =>
      dueSample endpointId answer (reportIn later) :: dueSamples endpointId later
  | endpointId, _ :: later => dueSamples endpointId later

def PassNote.isSample : PassNote Json → Bool
  | .sampled _ => true
  | _ => false

/-- An endpoint is left with a cooldown: a sample right behind the report of an
    attempt. -/
def coolsEndpoint : List (PassNote Json) → Bool
  | [] => false
  | .attempted _ :: later => later.head?.any PassNote.isSample || coolsEndpoint later
  | _ :: later => coolsEndpoint later

theorem coolsEndpoint_of_append {first later : List (PassNote Json)}
    (warm : coolsEndpoint (first ++ later) = false) :
    coolsEndpoint first = false ∧ coolsEndpoint later = false := by
  induction first with
  | nil => exact ⟨rfl, warm⟩
  | cons note first ih =>
      cases note with
      | attempted record =>
          simp only [List.cons_append, coolsEndpoint, Bool.or_eq_false_iff] at warm ⊢
          obtain ⟨next, rest⟩ := warm
          refine ⟨⟨?_, (ih rest).1⟩, (ih rest).2⟩
          cases first with
          | nil => rfl
          | cons => exact next
      | _ => exact ih warm

/-! ## The samples of a pass -/

/-- Whatever comes later, the notes leave the samples that are due for them. -/
def InStep (notes : List (PassNote Json)) : Prop :=
  ∀ endpointId, ∃ samples prepared, ∀ later : List (PassNote Json),
    samplesIn (notes ++ later) = samples ++ samplesIn later ∧
      dueSamples endpointId (notes ++ later) = samples ++ dueSamples prepared later

theorem InStep.nil : InStep ([] : List (PassNote Json)) :=
  fun endpointId => ⟨[], endpointId, fun _ => ⟨rfl, rfl⟩⟩

theorem InStep.append {first second : List (PassNote Json)} (begins : InStep first)
    (goesOn : InStep second) : InStep (first ++ second) := by
  intro endpointId
  obtain ⟨samples, prepared, one⟩ := begins endpointId
  obtain ⟨more, last, two⟩ := goesOn prepared
  refine ⟨samples ++ more, last, fun later => ?_⟩
  obtain ⟨told, due⟩ := one (second ++ later)
  obtain ⟨toldLater, dueLater⟩ := two later
  rw [List.append_assoc, told, due, toldLater, dueLater, List.append_assoc, List.append_assoc]
  exact ⟨rfl, rfl⟩

section Pass

variable {call : ExecuteCall Json} {s : LoopState Json} {d : Dispatch Json Decision}

/-- What follows on the report of a failure: nothing, a clamp or a cooldown. -/
theorem RecoveryLog.inStep {outcome : Except RaisedError (LoopState Json)}
    {notes : List (PassNote Json)} (recovery : RecoveryLog s d outcome notes)
    (warm : notes.head?.any PassNote.isSample = false) : InStep notes := by
  cases recovery with
  | raised | kept => exact .nil
  | cooled => cases warm
  | clamped cap => exact fun endpointId => ⟨[], endpointId, fun _ => ⟨rfl, rfl⟩⟩

/-- A dispatched attempt that leaves its sample and then its report. -/
theorem inStep_attempt (answer : Except RaisedError ExecutionResult) {record : AttemptRecord}
    {sample : HealthSample} {notes : List (PassNote Json)} (rest : InStep notes)
    (due : sample = dueSample sample.endpointId answer (some record)) (endpointId : String)
    (own : endpointId = sample.endpointId) :
    ∃ samples prepared, ∀ later : List (PassNote Json),
      samplesIn ((.dispatched answer :: .sampled sample :: .attempted record :: notes) ++ later) =
          samples ++ samplesIn later ∧
        dueSamples endpointId
            ((.dispatched answer :: .sampled sample :: .attempted record :: notes) ++ later) =
          samples ++ dueSamples prepared later := by
  obtain ⟨more, prepared, held⟩ := rest endpointId
  refine ⟨sample :: more, prepared, fun later => ?_⟩
  obtain ⟨told, dueLater⟩ := held later
  constructor
  · exact congrArg (List.cons sample) told
  · change dueSample endpointId answer (some record) :: dueSamples endpointId (notes ++ later) = _
    rw [own, ← due, ← own, dueLater]
    rfl

/-- One sample for what follows on a dispatch, where nothing lapses or cools
    down. -/
theorem OutcomeLog.inStep {answer : Except RaisedError ExecutionResult}
    {result : PassResult Json Decision} {notes : List (PassNote Json)}
    (outcome : OutcomeLog s d answer result notes) (whole : .lapse ∉ notes)
    (warm : coolsEndpoint notes = false) :
    ∃ samples prepared, ∀ later : List (PassNote Json),
      samplesIn ((.dispatched answer :: notes) ++ later) = samples ++ samplesIn later ∧
        dueSamples d.endpoint.id ((.dispatched answer :: notes) ++ later) =
          samples ++ dueSamples prepared later := by
  cases outcome with
  | unclassified | blocked | rotated | refused => simp at whole
  | accepted result succeeded =>
      refine inStep_attempt (.ok result) .nil ?_ _ rfl
      simp [dueSample, succeeded]
  | transport e failed =>
      refine inStep_attempt (.error e) .nil ?_ _ rfl
      simp [dueSample, failed]
  | reported result report =>
      cases report with
      | report same failed attempts recovery =>
          simp only [coolsEndpoint, Bool.or_eq_false_iff] at warm
          refine inStep_attempt (.ok result) (recovery.inStep warm.1) ?_ _ rfl
          simp [dueSample, failed]

variable [JsonCodec Json]

theorem sizing_samples (endpointId : String) (endpoint : Endpoint) (profile : ModelProfile)
    (shrink : ℚ) (later : List (PassNote Json)) :
    samplesIn (sizingNotes s endpoint profile shrink ++ later) = samplesIn later ∧
      dueSamples endpointId (sizingNotes s endpoint profile shrink ++ later) =
        dueSamples endpointId later := by
  unfold sizingNotes shownNotes
  cases endpoint.profile with
  | some own => exact ⟨rfl, rfl⟩
  | none => exact ⟨rfl, rfl⟩

/-- Up to the dispatch, no sample is due. -/
theorem Sends.samples {endpoint : Endpoint} {profile : ModelProfile}
    {notes : List (PassNote Json)} (sends : Sends call s endpoint profile notes)
    (endpointId : String) (later : List (PassNote Json)) :
    samplesIn (notes ++ later) = samplesIn later ∧
      dueSamples endpointId (notes ++ later) = dueSamples endpoint.id later := by
  cases sends with
  | send known shrink key limit =>
      rw [List.append_assoc]
      have sizing := sizing_samples (s := s) endpointId endpoint profile shrink
      constructor
      · exact (sizing _).1
      · exact (sizing _).2

theorem EarlyLog.inStep {notes : List (PassNote Json)} (ends : EarlyLog call s notes) :
    InStep notes := by
  cases ends with
  | idle => exact .nil
  | sized known shrink =>
      exact fun endpointId => ⟨[], endpointId, sizing_samples endpointId _ _ shrink⟩
  | @sent endpoint _ _ sends =>
      exact fun endpointId => ⟨[], endpoint.id, sends.samples endpointId⟩

theorem PassTranscript.inStep {result : PassResult Json Decision} {notes : List (PassNote Json)}
    (pass : PassTranscript call s result notes) (whole : .lapse ∉ notes)
    (warm : coolsEndpoint notes = false) : InStep notes := by
  cases pass with
  | early kept ends => exact ends.inStep
  | @dispatched t same d before sends answer notes outcome =>
      intro endpointId
      have later : coolsEndpoint notes = false := (coolsEndpoint_of_append warm).2
      have kept : .lapse ∉ notes := fun lapsed =>
        whole (List.mem_append_right _ (List.mem_cons_of_mem _ lapsed))
      obtain ⟨samples, prepared, held⟩ := outcome.inStep kept later
      refine ⟨samples, prepared, fun more => ?_⟩
      obtain ⟨told, due⟩ := sends.samples endpointId ((.dispatched answer :: notes) ++ more)
      obtain ⟨toldLater, dueLater⟩ := held more
      rw [List.append_assoc, told, due, toldLater, dueLater]
      exact ⟨rfl, rfl⟩

/-- In a run where nothing lapses or cools down, the samples are those due. -/
theorem RunNotes.inStep {notes : List (PassNote Json)}
    (run : @RunNotes Json Decision call _ s notes) (whole : .lapse ∉ notes)
    (warm : coolsEndpoint notes = false) : InStep notes := by
  induction run with
  | done s => exact .nil
  | last pass => exact pass.inStep whole warm
  | next pass rest ih =>
      obtain ⟨first, later⟩ := coolsEndpoint_of_append warm
      have begins := pass.inStep (fun lapsed => whole (List.mem_append_left _ lapsed)) first
      exact begins.append (ih (fun lapsed => whole (List.mem_append_right _ lapsed)) later)

end Pass

/-! ## Whole runs -/

theorem lapse_of_note {exchange : Exchange Json Decision}
    (noted : passNote exchange = some .lapse) : Lapse exchange = true := by
  rcases exchange with ⟨op | op, answer⟩
  · change LocalOp.passNote op answer = some .lapse at noted
    cases op with
    | keep note =>
        cases note with
        | event event => cases event <;> cases noted
        | _ => cases noted
    | parseOutputCap message =>
        change Except RaisedError (Option Nat) at answer
        cases answer <;> cases noted
    | _ => cases noted
  · change (if op.lapses answer then some PassNote.lapse else none) = _ at noted
    split at noted
    next lapsed => exact lapsed
    next => cases noted

section Sample

end Sample

end DuraLLM
