import DuraLLM.Execution.PassNotes

/-! # Output limits

What a run says of the output limits it sends, and of those it learns: a
rejected output cap clamps the request, and the request is shared by all
endpoints that are tried after it.  A reading of the notes keeps, for each
prepared request, the clamps that came before it.  The limits that are sent are
in order exactly when the last clamp, of whichever endpoint, neither exceeds the
limit of the client nor undercuts the limit of the endpoint itself, or when the
profile and the window of the endpoint leave less room anyway.
-/

namespace DuraLLM

variable {Json Decision : Type}

/-- The output limit that a rejection by the endpoint left. -/
structure OutputClamp where
  endpointId : String
  limit : Option Int

/-- A prepared request, with what the notes before it say of its size. -/
structure SentAttempt where
  endpointId : String
  profile : ModelProfile
  budget : ContextBudget
  /-- The estimated tokens of the request that was sized. -/
  estimate : Int
  /-- The latest first. -/
  clamps : List OutputClamp
  sent : Option Int

namespace SentAttempt

variable (client : Option Int) (attempt : SentAttempt)

/-- The output limit of the profile. -/
def ceiling : Int := orNumber (some attempt.profile.maxOutputTokens) 4096

/-- The most that the profile and the window allow, but never less than 1024 on
    account of the window. -/
def room : Int :=
  min attempt.ceiling (max 1024 (attempt.budget.modelContextWindow -
    attempt.budget.safetyMarginTokens - attempt.estimate))

/-- What the sizing of this attempt makes of a limit. -/
def outputUnder (limit : Option Int) : Int := min (orNumber limit attempt.ceiling) attempt.room

/-- The limit that the last clamp left, of whichever endpoint. -/
def sharedLimit : Option Int := (attempt.clamps.head?.map (·.limit)).getD client

/-- The limit that the endpoint itself has left. -/
def ownLimit : Option Int :=
  ((attempt.clamps.find? (·.endpointId = attempt.endpointId)).map (·.limit)).getD client

/-- No more is sent than the client and the profile allow, and no less on account
    of a cap that another endpoint reported. -/
def Respects : Prop :=
  ∃ limit, attempt.sent = some limit ∧ (∀ most, client = some most → limit ≤ most) ∧
    (attempt.profile.maxOutputTokens ≠ 0 → limit ≤ attempt.profile.maxOutputTokens) ∧
    attempt.outputUnder (attempt.ownLimit client) ≤ limit

/-- The limit in force does not exceed the client's and does not undercut the
    endpoint's own, unless the endpoint leaves less room anyway. -/
def Shares : Prop :=
  let shared := orNumber (attempt.sharedLimit client) attempt.ceiling
  (∀ most, client = some most → shared ≤ most ∨ attempt.room ≤ most) ∧
    (orNumber (attempt.ownLimit client) attempt.ceiling ≤ shared ∨ attempt.room ≤ shared)

/-- What is sent is what sizing makes of the limit in force. -/
theorem respects_iff (sent : attempt.sent =
    some (attempt.outputUnder (attempt.sharedLimit client))) :
    attempt.Respects client ↔ attempt.Shares client := by
  have profile : attempt.profile.maxOutputTokens ≠ 0 →
      attempt.outputUnder (attempt.sharedLimit client) ≤ attempt.profile.maxOutputTokens := by
    intro given
    have ceiling : attempt.ceiling = attempt.profile.maxOutputTokens := by
      simp [ceiling, orNumber, given]
    unfold outputUnder room
    omega
  unfold Respects Shares
  rw [sent]
  unfold outputUnder at *
  constructor
  · rintro ⟨_, ⟨rfl⟩, below, _, above⟩
    constructor
    · intro most given
      have bound := below most given
      omega
    · omega
  · rintro ⟨below, above⟩
    refine ⟨_, rfl, fun most given => ?_, profile, ?_⟩
    · have bound := below most given
      omega
    · omega

end SentAttempt

/-- Sizing cuts the limit to the room that is left. -/
theorem desiredOutputTokens_eq [JsonCodec Json] (profile : ModelProfile) (shrink : ℚ)
    (request : NormalizedRequest Json) (endpointId : String) (clamps : List OutputClamp)
    (sent : Option Int) :
    (contextBudget profile shrink request).desiredOutputTokens =
      SentAttempt.outputUnder
        ⟨endpointId, profile, contextBudget profile shrink request, estimateTokens request, clamps,
          sent⟩ request.maxOutputTokens := by
  unfold SentAttempt.outputUnder SentAttempt.room SentAttempt.ceiling contextBudget
  dsimp only
  split <;> omega

/-! ## Reading the notes -/

structure OutputReading (Json : Type) where
  /-- The last profile that the registry has shown. -/
  shown : Option ModelProfile := none
  sizing : Option (NormalizedRequest Json × ContextBudget) := none
  /-- The endpoint that was prepared for last, with its profile. -/
  target : Option (String × ModelProfile) := none
  clamps : List OutputClamp := []

namespace OutputReading

variable (r : OutputReading Json)

def profileOf (endpoint : Endpoint) : Option ModelProfile :=
  match endpoint.profile with
  | some profile => some profile
  | none => r.shown

def read : PassNote Json → OutputReading Json
  | .profiled profile => { r with shown := some profile }
  | .sized request budget => { r with sizing := some (request, budget) }
  | .prepared endpoint _ _ =>
      { r with target := (r.profileOf endpoint).map fun profile => (endpoint.id, profile) }
  | .capped cap =>
      match r.sizing, r.target with
      | some (request, _), some (endpointId, profile) =>
          { r with clamps :=
              ⟨endpointId, (clampRequest request cap profile).maxOutputTokens⟩ :: r.clamps }
      | _, _ => r
  | _ => r

def readAll (notes : List (PassNote Json)) : OutputReading Json := notes.foldl read r

variable [JsonCodec Json]

/-- The request that is prepared for an endpoint; `none` where no request was
    sized before it, or no profile is known. -/
def attempt (endpoint : Endpoint) (adapted : NormalizedRequest Json) : Option SentAttempt :=
  match r.profileOf endpoint, r.sizing with
  | some profile, some (request, budget) =>
      some
        { endpointId := endpoint.id
          profile
          budget
          estimate := estimateTokens request
          clamps := r.clamps
          sent := adapted.maxOutputTokens }
  | _, _ => none

/-- The prepared requests of a run, in order. -/
def attempts : OutputReading Json → List (PassNote Json) → List (Option SentAttempt)
  | _, [] => []
  | r, .prepared endpoint adapted apiKey :: later =>
      r.attempt endpoint adapted :: attempts (r.read (.prepared endpoint adapted apiKey)) later
  | r, note :: later => attempts (r.read note) later

theorem attempts_append (first later : List (PassNote Json)) :
    r.attempts (first ++ later) = r.attempts first ++ (r.readAll first).attempts later := by
  induction first generalizing r with
  | nil => rfl
  | cons note first ih => cases note <;> simp [attempts, readAll, ih]

omit [JsonCodec Json] in
theorem readAll_append (first later : List (PassNote Json)) :
    r.readAll (first ++ later) = (r.readAll first).readAll later :=
  List.foldl_append

end OutputReading

/-! ## Runs -/

section Runs

open OutputReading

variable {call : ExecuteCall Json} {s t : LoopState Json} {d : Dispatch Json Decision}
  {client : Option Int} {r : OutputReading Json}

/-- The clamps that were read are those that the shared request has undergone. -/
def OutputReading.Follows (r : OutputReading Json) (client : Option Int) (s : LoopState Json) :
    Prop :=
  s.request.maxOutputTokens = (r.clamps.head?.map (·.limit)).getD client

/-- The last request was sized in this state and prepared for this endpoint. -/
structure OutputReading.Targets (r : OutputReading Json) (s : LoopState Json)
    (endpoint : Endpoint) (profile : ModelProfile) : Prop where
  sizing : ∃ budget, r.sizing = some (s.request, budget)
  target : r.target = some (endpoint.id, profile)

variable [JsonCodec Json]

/-- Each prepared request respects the limits exactly when it shares them
    harmlessly. -/
def Settled (client : Option Int) (found : Option SentAttempt) : Prop :=
  ∃ attempt, found = some attempt ∧ (attempt.Respects client ↔ attempt.Shares client)

theorem read_sizing {endpoint : Endpoint} {profile : ModelProfile}
    (known : Profiles endpoint profile) (shrink : ℚ) :
    (r.readAll (sizingNotes s endpoint profile shrink)).clamps = r.clamps ∧
      (r.readAll (sizingNotes s endpoint profile shrink)).sizing =
        some (s.request, contextBudget profile shrink s.request) ∧
      (r.readAll (sizingNotes s endpoint profile shrink)).profileOf endpoint = some profile ∧
      r.attempts (sizingNotes s endpoint profile shrink) = [] := by
  unfold sizingNotes shownNotes profileOf
  cases own : endpoint.profile with
  | none => exact ⟨rfl, rfl, rfl, rfl⟩
  | some listed =>
      obtain rfl := known listed own
      exact ⟨rfl, rfl, rfl, rfl⟩

/-- One request is prepared, and the reading knows what for. -/
theorem Sends.read {endpoint : Endpoint} {profile : ModelProfile} {notes : List (PassNote Json)}
    (sends : Sends call s endpoint profile notes) (follows : r.Follows client s) :
    (∀ found ∈ r.attempts notes, Settled client found) ∧
      (r.readAll notes).Targets s endpoint profile ∧ (r.readAll notes).clamps = r.clamps := by
  cases sends with
  | @send known shrink key adapted limit =>
      obtain ⟨clamps, sizing, profiled, quiet⟩ := read_sizing (r := r) (s := s) known shrink
      rw [attempts_append, readAll_append, quiet]
      generalize r.readAll (sizingNotes s endpoint profile shrink) = read at clamps sizing profiled
      refine ⟨fun found member => ?_, ⟨⟨_, sizing⟩, ?_⟩, clamps⟩
      · have prepared : found = read.attempt endpoint adapted := by
          simpa [attempts, OutputReading.read] using member
        simp only [attempt, profiled, sizing] at prepared
        refine ⟨_, prepared, SentAttempt.respects_iff _ _ ?_⟩
        have shared : s.request.maxOutputTokens =
            (read.clamps.head?.map (·.limit)).getD client := clamps ▸ follows
        simp only [limit, SentAttempt.sharedLimit, ← shared]
        exact congrArg some (desiredOutputTokens_eq profile shrink s.request _ _ _)
      · change (profileOf read endpoint).map (fun profile => (endpoint.id, profile)) = _
        rw [profiled]
        rfl

theorem RecoveryLog.read {notes : List (PassNote Json)}
    {outcome : Except RaisedError (LoopState Json)} (recovery : RecoveryLog s d outcome notes)
    (follows : r.Follows client s) (targets : r.Targets s d.endpoint d.profile) :
    r.attempts notes = [] ∧ ∀ t, outcome = .ok t → (r.readAll notes).Follows client t := by
  cases recovery with
  | raised e => exact ⟨rfl, fun t same => by cases same⟩
  | kept same | cooled same =>
      refine ⟨rfl, fun u ended => ?_⟩
      cases ended
      exact (congrArg NormalizedRequest.maxOutputTokens same).trans follows
  | clamped cap clamp =>
      refine ⟨rfl, fun u ended => ?_⟩
      cases ended
      obtain ⟨budget, sizing⟩ := targets.sizing
      simp only [Follows, readAll, List.foldl_cons, List.foldl_nil, OutputReading.read, sizing,
        targets.target, clamp]
      rfl

theorem ReportLog.read {result : ExecutionResult} {outcome : PassResult Json Decision}
    {notes : List (PassNote Json)} (report : ReportLog s d result outcome notes)
    (follows : r.Follows client s) (targets : r.Targets s d.endpoint d.profile) :
    r.attempts notes = [] ∧ ∀ t, outcome = .next t → (r.readAll notes).Follows client t := by
  cases report with
  | @report t same record failed attempts outcome notes recovery =>
      have moved : r.Follows client t :=
        (congrArg NormalizedRequest.maxOutputTokens same).trans follows
      have aimed : r.Targets t d.endpoint d.profile := ⟨same ▸ targets.sizing, targets.target⟩
      obtain ⟨quiet, later⟩ := recovery.read moved aimed
      refine ⟨quiet, fun u ended => ?_⟩
      cases outcome with
      | ok v =>
          cases ended
          exact later _ rfl
      | error e => cases ended

/-- What follows on a dispatch prepares nothing, and clamps what was prepared. -/
theorem OutcomeLog.read {answer : Except RaisedError ExecutionResult}
    {result : PassResult Json Decision} {notes : List (PassNote Json)}
    (outcome : OutcomeLog s d answer result notes) (follows : r.Follows client s)
    (targets : r.Targets s d.endpoint d.profile) :
    r.attempts notes = [] ∧ ∀ t, result = .next t → (r.readAll notes).Follows client t := by
  cases outcome with
  | unclassified | blocked | accepted | transport => exact ⟨rfl, fun t same => by cases same⟩
  | rotated _ failed same =>
      refine ⟨rfl, fun u ended => ?_⟩
      cases ended
      exact (congrArg NormalizedRequest.maxOutputTokens same).trans follows
  | refused _ succeeded same report =>
      have moved := (congrArg NormalizedRequest.maxOutputTokens same).trans follows
      exact report.read moved ⟨same ▸ targets.sizing, targets.target⟩
  | reported _ report => exact report.read follows targets

theorem PassTranscript.read {result : PassResult Json Decision} {notes : List (PassNote Json)}
    (pass : PassTranscript call s result notes) (follows : r.Follows client s) :
    (∀ found ∈ r.attempts notes, Settled client found) ∧
      ∀ t, result = .next t → (r.readAll notes).Follows client t := by
  cases pass with
  | early kept ends =>
      have still : (r.readAll notes).clamps = r.clamps →
          ∀ t, result = .next t → (r.readAll notes).Follows client t := by
        intro clamps t ended
        unfold Follows at follows ⊢
        rw [clamps, ← follows, kept t ended]
      cases ends with
      | idle => exact ⟨fun found none => (by cases none), still rfl⟩
      | sized known shrink =>
          obtain ⟨clamps, _, _, quiet⟩ := read_sizing (r := r) (s := s) known shrink
          rw [quiet]
          exact ⟨fun found none => (by cases none), still clamps⟩
      | sent sends =>
          obtain ⟨settled, _, clamps⟩ := sends.read follows
          exact ⟨settled, still clamps⟩
  | @dispatched t same d before sends answer notes outcome =>
      obtain ⟨settled, targets, clamps⟩ := sends.read follows
      have moved : (r.readAll before).Follows client t := by
        unfold Follows at follows ⊢
        rw [clamps, same, follows]
      obtain ⟨quiet, later⟩ := outcome.read moved ⟨same ▸ targets.sizing, targets.target⟩
      rw [attempts_append, readAll_append]
      refine ⟨fun found member => ?_, later⟩
      cases List.mem_append.mp member with
      | inl earlier => exact settled found earlier
      | inr none =>
          have empty : (r.readAll before).attempts (.dispatched answer :: notes) = [] := quiet
          rw [empty] at none
          cases none

theorem RunNotes.read {notes : List (PassNote Json)}
    (run : @RunNotes Json Decision call _ s notes) (follows : r.Follows client s) :
    ∀ found ∈ r.attempts notes, Settled client found := by
  induction run generalizing r with
  | done s => exact fun found none => by cases none
  | last pass => exact (pass.read follows).1
  | next pass rest ih =>
      obtain ⟨settled, later⟩ := pass.read follows
      rw [attempts_append]
      intro found member
      cases List.mem_append.mp member with
      | inl earlier => exact settled found earlier
      | inr after => exact ih (later _ rfl) found after

/-- In every run of `execute`, each request that is prepared respects the limit
    of the client and that of the profile, and is not held to a cap of another
    endpoint, exactly when the limit in force neither exceeds the client's nor
    undercuts the endpoint's own, or the endpoint leaves less room. -/
theorem output_limits_respected_iff {σ : Type}
    (handle : Prog.Handler (executorSig Json Decision) σ) (executor : GatewayExecutor Json)
    (args : ExecuteRequest Json) (fuel : Nat) (start : σ) :
    ∀ found ∈ ({} : OutputReading Json).attempts
        (((execute executor args fuel).transcript handle start).filterMap passNote),
      ∃ attempt, found = some attempt ∧
        (attempt.Respects args.request.maxOutputTokens ↔
          attempt.Shares args.request.maxOutputTokens) := by
  obtain ⟨call, _, notes⟩ := notes_execute executor args fuel (Prog.traces_exec handle _ start)
  exact notes.read rfl

end Runs

/-! ### A cap that another endpoint reported -/

section Sample

def otherEndpoint : Endpoint where
  id := "nvidia:llama"
  provider := "nvidia"
  model := "llama"
  envKey := some "NVIDIA_API_KEY"

/-- `classify_failure("otpm: limit 1000", status_code=429)` -/
def limitExceeded : FailureClassification where
  category := .requestIncompatibility
  reason := .outputCapExceeded
  shouldFallback := true
  retryable := true
  poisonsHealth := false
  statusCode := some 429
  message := "otpm: limit 1000"

/-- The first endpoint rejects every output limit, and so does the second. -/
def cappedHandle : Prog.Handler (executorSig OkObject Unit) SampleWorld
  | .inl (.selectCandidate _ _ _ _ excluded _), w =>
      (Except.ok (some (if sampleEndpoint.id ∈ excluded then otherEndpoint else sampleEndpoint), ()),
        w)
  | .inl (.adapterExecute _ _ _), w => (Except.ok { statusCode := 429 }, w)
  | .inl (.parseOutputCap _), w => (Except.ok (some 1000), w)
  | .inr (.classifyFailure _ _ _), w => (Except.ok limitExceeded, w)
  | op, w => sampleHandle op w

def cappedStart : SampleWorld where
  breaker := CircuitBreaker.new sampleEndpoint.resourceKey {}
  replies := []

def cappedRun : Execution OkObject Unit (ExecuteResult OkObject Unit) :=
  execute { computePrefixHash := fun _ => "" }
    { request := { requestId := "request-1", maxOutputTokens := some 4000 } } 4

theorem output_limits_respected_capped :
    ∃ attempt, some attempt ∈ ({} : OutputReading OkObject).attempts
        ((cappedRun.transcript cappedHandle cappedStart).filterMap passNote) ∧
      (attempt.Respects (some 4000) ↔ attempt.Shares (some 4000)) := by
  have prepared : (({} : OutputReading OkObject).attempts
      ((cappedRun.transcript cappedHandle cappedStart).filterMap passNote)).isEmpty = false := by
    decide +kernel
  obtain ⟨found, member⟩ := List.isEmpty_eq_false_iff_exists_mem.mp prepared
  obtain ⟨attempt, same, agrees⟩ := output_limits_respected_iff cappedHandle
    { computePrefixHash := fun _ => "" }
    { request := { requestId := "request-1", maxOutputTokens := some 4000 } } 4 cappedStart
    found member
  exact ⟨attempt, same ▸ member, agrees⟩

/-- The client allows 4000 tokens, the first endpoint reports a cap of 1000, and
    the second is sent 936. -/
theorem foreign_cap_lowers_limit :
    ∃ attempt, some attempt ∈ ({} : OutputReading OkObject).attempts
        ((cappedRun.transcript cappedHandle cappedStart).filterMap passNote) ∧
      attempt.endpointId = "nvidia:llama" ∧ attempt.sent = some 936 ∧
        ¬ attempt.Respects (some 4000) := by
  have lowered : (({} : OutputReading OkObject).attempts
      ((cappedRun.transcript cappedHandle cappedStart).filterMap passNote)).any fun found =>
        found.any fun attempt => attempt.endpointId = "nvidia:llama" ∧ attempt.sent = some 936 ∧
          attempt.outputUnder (attempt.ownLimit (some 4000)) = 4000 := by
    decide +kernel
  obtain ⟨found, member, held⟩ := List.any_eq_true.mp lowered
  obtain ⟨attempt, same, facts⟩ := (Option.any_eq_true _ _).mp held
  obtain ⟨other, sent, own⟩ := of_decide_eq_true facts
  refine ⟨attempt, same ▸ member, other, sent, ?_⟩
  rintro ⟨limit, given, _, _, least⟩
  rw [sent] at given
  cases given
  omega

end Sample

end DuraLLM
