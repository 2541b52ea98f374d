import DuraLLM.Execution.NativeStream
import DuraLLM.Execution.PassNotes
import DuraLLM.Routing.KeyRotation

/-! # The keys that are sent

`execute` and `open_native_stream` ask the rotation pool for a key, and where it
hands none out they fall back on the text of the environment variable.  The
pool splits this text and the fallback does not, so what is sent is a usable
key, or no key for want of one, exactly when some key of the endpoint is free
or there is no text to fall back on.
-/

namespace DuraLLM

variable {Json Decision : Type}

namespace KeyRotationPool

/-- A configured key that is not in cooldown, or no key where there is none. -/
def Usable (pool : KeyRotationPool) (endpoint : Endpoint) (keys : Dict String String)
    (now : Seconds) (apiKey : String) : Prop :=
  (∃ id, (apiKey, id) ∈ pool.availableKeys endpoint keys now) ∨
    (pool.availableKeys endpoint keys now = [] ∧ apiKey = "")

/-- What the executors make of the answer of the pool. -/
theorem usable_iff (pool : KeyRotationPool) (endpoint : Endpoint) (keys : Dict String String)
    (now : Seconds) :
    pool.Usable endpoint keys now
        ((pool.getActiveKey endpoint keys now).1.1.getD (unsplitKey keys endpoint)) ↔
      pool.availableKeys endpoint keys now ≠ [] ∨ unsplitKey keys endpoint = "" := by
  by_cases none_available : pool.availableKeys endpoint keys now = []
  · have fallback := getActiveKey_none none_available
    simp [Usable, none_available, fallback]
  · obtain ⟨key, found, answered⟩ := getActiveKey_answer none_available
    have handed : (pool.getActiveKey endpoint keys now).1.1 = some key.1 := by rw [answered]; rfl
    have usable : pool.Usable endpoint keys now key.1 :=
      .inl ⟨key.2, List.mem_of_getElem? found⟩
    simp [handed, usable, none_available]

end KeyRotationPool

/-! ## What a run says of keys -/

structure KeySelection where
  endpoint : Endpoint
  keys : Dict String String
  answer : Option String × Option String

inductive KeyNote where
  | selected (selection : KeySelection)
  | sent (endpoint : Endpoint) (apiKey : String)

def PassNote.keyNote : PassNote Json → Option KeyNote
  | .keyed endpoint keys answer => some (.selected ⟨endpoint, keys, answer⟩)
  | .prepared endpoint _ apiKey => some (.sent endpoint apiKey)
  | _ => none

def keyNote (exchange : Exchange Json Decision) : Option KeyNote :=
  (passNote exchange).bind PassNote.keyNote

def NativeOp.keyNote : (op : NativeOp Json) → op.Answer Json → Option KeyNote
  | .prepareRequest _ endpoint _ apiKey, _ => some (.sent endpoint apiKey)
  | _, _ => none

def streamKeyNote : Sigma (streamSig Json Decision).Ans → Option KeyNote
  | ⟨.inl op, answer⟩ => DuraLLM.keyNote ⟨op, answer⟩
  | ⟨.inr op, answer⟩ => NativeOp.keyNote op answer

/-- A prepared request: what the pool was last asked, and the key that is sent. -/
structure KeySend where
  selection : Option KeySelection
  endpoint : Endpoint
  apiKey : String

def keySends : Option KeySelection → List KeyNote → List KeySend
  | _, [] => []
  | _, .selected selection :: later => keySends (some selection) later
  | last, .sent endpoint apiKey :: later => ⟨last, endpoint, apiKey⟩ :: keySends last later

/-- The pool was asked for a key of the endpoint, and whichever state of it gave
    the answer, the key that is sent is usable exactly when a key is free or
    there is nothing to fall back on. -/
def KeySend.IsChosen (keys : Dict String String) (send : KeySend) : Prop :=
  ∃ answer, send.selection = some ⟨send.endpoint, keys, answer⟩ ∧
    ∀ (pool : KeyRotationPool) (now : Seconds),
      (pool.getActiveKey send.endpoint keys now).1 = answer →
        (pool.Usable send.endpoint keys now send.apiKey ↔
          pool.availableKeys send.endpoint keys now ≠ [] ∨ unsplitKey keys send.endpoint = "")

/-- Each request is prepared with the key that was selected for it. -/
inductive SelectsThenSends (keys : Dict String String) : List KeyNote → Prop where
  | nil : SelectsThenSends keys []
  | send (endpoint : Endpoint) (answer : Option String × Option String) {later : List KeyNote}
      (rest : SelectsThenSends keys later) :
      SelectsThenSends keys (.selected ⟨endpoint, keys, answer⟩ ::
        .sent endpoint (answer.1.getD (unsplitKey keys endpoint)) :: later)

namespace SelectsThenSends

variable {keys : Dict String String}

theorem append {first later : List KeyNote} (begins : SelectsThenSends keys first)
    (rest : SelectsThenSends keys later) : SelectsThenSends keys (first ++ later) := by
  induction begins with
  | nil => exact rest
  | send endpoint answer _ ih => exact .send endpoint answer ih

theorem chosen {notes : List KeyNote} (sends : SelectsThenSends keys notes)
    (last : Option KeySelection) : ∀ send ∈ keySends last notes, send.IsChosen keys := by
  induction sends generalizing last with
  | nil => simp [keySends]
  | send endpoint answer rest ih =>
      intro send member
      simp only [keySends, List.mem_cons] at member
      cases member with
      | inl first =>
          subst first
          refine ⟨answer, rfl, fun pool now answered => ?_⟩
          have usable := pool.usable_iff endpoint keys now
          rwa [answered] at usable
      | inr later => exact ih _ send later

end SelectsThenSends

/-! ## Runs of execute -/

section Execute

variable {call : ExecuteCall Json} {s : LoopState Json}

theorem RecoveryLog.no_key {d : Dispatch Json Decision}
    {outcome : Except RaisedError (LoopState Json)} {notes : List (PassNote Json)}
    (recovery : RecoveryLog s d outcome notes) : notes.filterMap PassNote.keyNote = [] := by
  cases recovery <;> rfl

theorem ReportLog.no_key {d : Dispatch Json Decision} {result : ExecutionResult}
    {outcome : PassResult Json Decision} {notes : List (PassNote Json)}
    (report : ReportLog s d result outcome notes) : notes.filterMap PassNote.keyNote = [] := by
  cases report with
  | report same failed attempts recovery => exact recovery.no_key

theorem OutcomeLog.no_key {d : Dispatch Json Decision}
    {answer : Except RaisedError ExecutionResult} {result : PassResult Json Decision}
    {notes : List (PassNote Json)} (outcome : OutcomeLog s d answer result notes) :
    notes.filterMap PassNote.keyNote = [] := by
  cases outcome with
  | refused _ _ _ report => exact report.no_key
  | reported _ report => exact report.no_key
  | _ => rfl

variable [JsonCodec Json]

theorem sizing_no_key (endpoint : Endpoint) (profile : ModelProfile) (shrink : ℚ) :
    (sizingNotes s endpoint profile shrink).filterMap PassNote.keyNote = [] := by
  unfold sizingNotes shownNotes
  split <;> rfl

theorem Sends.keys {endpoint : Endpoint} {profile : ModelProfile} {notes : List (PassNote Json)}
    (sends : Sends call s endpoint profile notes) :
    SelectsThenSends call.keys (notes.filterMap PassNote.keyNote) := by
  cases sends with
  | send known shrink key limit =>
      rw [List.filterMap_append, sizing_no_key]
      exact .send endpoint key .nil

theorem PassTranscript.keys {result : PassResult Json Decision} {notes : List (PassNote Json)}
    (pass : PassTranscript call s result notes) :
    SelectsThenSends call.keys (notes.filterMap PassNote.keyNote) := by
  cases pass with
  | early kept ends =>
      cases ends with
      | idle => exact .nil
      | sized known shrink =>
          rw [sizing_no_key]
          exact .nil
      | sent sends => exact sends.keys
  | dispatched same sends outcome =>
      rw [List.filterMap_append]
      refine sends.keys.append ?_
      rw [List.filterMap_cons, outcome.no_key]
      exact .nil

theorem RunNotes.keys {notes : List (PassNote Json)}
    (run : @RunNotes Json Decision call _ s notes) :
    SelectsThenSends call.keys (notes.filterMap PassNote.keyNote) := by
  induction run with
  | done s => exact .nil
  | last pass => exact pass.keys
  | next pass rest ih =>
      rw [List.filterMap_append]
      exact pass.keys.append ih

end Execute

/-! ## Runs of open_native_stream -/

/-- Anything may be answered and asked. -/
def keyContract (Json Decision : Type) : Contract (streamSig Json Decision) KeyNote where
  fair := fun _ _ => True
  good := fun _ => True
  note := streamKeyNote

section Stream

variable {α β : Type}

theorem keyNote_plain {op : LocalOp Json} (plain : op.isPlain = true)
    (answer : (localSig Json Decision).Ans op) :
    keyNote (⟨.inl op, answer⟩ : Exchange Json Decision) = none := by
  have unnoted : passNote (⟨.inl op, answer⟩ : Exchange Json Decision) = none :=
    (pass_unnoted op plain).2 answer
  rw [keyNote, unnoted]
  rfl

theorem keyNote_permit (op : PermitOp Json) (answer : (permitSig Json).Ans op) :
    keyNote (⟨.inr op, answer⟩ : Exchange Json Decision) = none := by
  change (if op.lapses answer then some PassNote.lapse else none).bind PassNote.keyNote = none
  cases op.lapses answer <;> rfl

theorem key_unnoted : Unnoted (keyContract Json Decision).left.left :=
  fun _ plain => ⟨trivial, keyNote_plain plain⟩

/-- A local program that asks for no key. -/
abbrev Keyless (p : Local Json Decision α) (Q : α → Prop) : Prop :=
  p.Quiet (keyContract Json Decision).left.left Q

/-- A streaming program that asks for no key, and may raise. -/
abbrev KeylessOpening (p : Opening Json Decision α) (Q : α → Prop) : Prop :=
  Prog.QuietExcept (keyContract Json Decision) Q p

theorem keyless_keep {note : Bookkeeping} :
    Keyless (Local.keep note : Local Json Decision Unit) fun _ => True := by
  refine (Prog.quiet_call trivial fun answer => ?_).imp fun _ _ => trivial
  cases note with
  | event event => cases event <;> rfl
  | _ => rfl

theorem keyless_local {p : Local Json Decision α} {Q : α → Prop} (quiet : Keyless p Q) :
    KeylessOpening (Opening.ofLocal p) Q :=
  Prog.quietExcept_lift (Prog.meets_inLeft (Prog.meets_inLeft quiet))

theorem keyless_raising {p : Raising Json Decision α} {Q : α → Prop}
    (quiet : Prog.QuietExcept (keyContract Json Decision).left.left Q p) :
    KeylessOpening (Opening.ofRaising p) Q :=
  Prog.meets_inLeft (Prog.meets_inLeft quiet)

/-- A plain local operation. -/
theorem keyless_plain {op : LocalOp Json} (plain : op.isPlain = true) :
    KeylessOpening (Opening.ofLocal (Local.ask op) : Opening Json Decision _) fun _ => True :=
  keyless_local (key_unnoted.any plain)

theorem keyless_permit {op : PermitOp Json} :
    KeylessOpening (ExceptT.lift (Streaming.ofExecution (Execution.ask op)) :
      Opening Json Decision _) fun _ => True := by
  refine Prog.quietExcept_lift (Prog.meets_inLeft ?_)
  exact (Prog.quiet_call trivial (keyNote_permit op)).imp fun _ _ => trivial

theorem keyless_classify (source : FailureSource) (statusCode : Nat)
    (headers : List (String × String)) :
    KeylessOpening (Opening.classify source statusCode headers : Opening Json Decision _)
      fun _ => True := by
  refine Prog.meets_inLeft ?_
  exact (Prog.quiet_call trivial (keyNote_permit (.classifyFailure source statusCode headers))).imp
    fun _ _ _ _ => trivial

theorem keyless_ask {op : NativeOp Json} (noted : ∀ answer, NativeOp.keyNote op answer = none) :
    KeylessOpening (Opening.ask op : Opening Json Decision _) fun _ => True :=
  Prog.quietExcept_lift ((Prog.quiet_call trivial noted).imp fun _ _ => trivial)

/-- A native operation whose answer may be an exception. -/
theorem keyless_attempt {op : NativeOp Json} {q : op.Answer Json → Except RaisedError α}
    (noted : ∀ answer, NativeOp.keyNote op answer = none) :
    KeylessOpening (ExceptT.mk (.ask (.inr op) fun answer => .ret (q answer)) :
      Opening Json Decision α) fun _ => True :=
  Prog.quietExcept_call trivial noted fun _ _ _ _ => trivial

variable (call : ExecuteCall Json) (s : LoopState Json) (endpoint : Endpoint)

theorem keyless_recordStreamBilling (classified : FailureClassification) :
    Keyless (recordStreamBilling call s endpoint classified : Local Json Decision _)
      fun _ => True := by
  unfold recordStreamBilling
  split
  · exact Prog.quiet_pure trivial
  · dsimp only
    repeat' first
      | split
      | exact Prog.quiet_pure trivial
      | exact key_unnoted.any rfl
      | refine (key_unnoted.any rfl).bind fun _ _ => ?_

theorem keyless_finishDurableAttempt (executor : GatewayExecutor Json) (record : AttemptRecord)
    (status : AttemptStatus) (detail : AttemptDetail) :
    Keyless (finishDurableAttempt executor record status detail : Local Json Decision Unit)
      fun _ => True := by
  unfold finishDurableAttempt
  split
  · exact keyless_keep
  · exact Prog.quiet_pure trivial

theorem keyless_recordStreamFailure (record : AttemptRecord) (classified : FailureClassification) :
    Keyless (recordStreamFailure call s endpoint record classified : Local Json Decision _)
      fun _ => True := by
  have emitted : Keyless (emitAttempt record : Local Json Decision Unit) fun _ => True := by
    unfold emitAttempt
    split
    · exact keyless_keep
    · exact keyless_keep
  refine keyless_keep.bind fun _ _ => ?_
  refine (keyless_recordStreamBilling call s endpoint classified).bind fun t _ => ?_
  refine (key_unnoted.quiet_recordPermanent call t endpoint classified).bind fun u _ => ?_
  refine (key_unnoted.quiet_recordLaneOutcome endpoint (some classified)).bind fun _ _ => ?_
  refine emitted.bind fun _ _ => ?_
  refine (keyless_finishDurableAttempt call.executor record _ _).bind fun _ _ => ?_
  exact Prog.quiet_pure trivial

theorem keyless_leaveStreamRoute (classified : FailureClassification) :
    Keyless (leaveStreamRoute call s endpoint classified : Local Json Decision _)
      fun _ => True := by
  unfold leaveStreamRoute
  split
  · exact Prog.quiet_pure trivial
  · refine keyless_keep.bind fun _ _ => ?_
    dsimp only
    split
    · exact keyless_keep.bind fun _ _ => Prog.quiet_pure trivial
    · exact Prog.quiet_pure trivial

theorem keyless_retryStream (classified : FailureClassification) :
    Keyless (retryStream call s endpoint classified : Local Json Decision _) fun _ => True := by
  refine (key_unnoted.any rfl).bind fun policy _ => ?_
  split
  · refine (key_unnoted.quiet_computeBackoffSeconds _ _ _).bind fun backoff _ => ?_
    refine (key_unnoted.any rfl).bind fun now _ => ?_
    split
    · refine keyless_keep.bind fun _ _ => ?_
      cases endpoint.resourceLane with
      | none => exact Prog.quiet_pure trivial
      | some lane => exact keyless_keep.bind fun _ _ => Prog.quiet_pure trivial
    · exact keyless_leaveStreamRoute call s endpoint classified
  · exact keyless_leaveStreamRoute call s endpoint classified

theorem keyless_failStream (attempt : AttemptRecord) (source : FailureSource) (statusCode : Nat)
    (headers : List (String × String)) :
    KeylessOpening (failStream call s endpoint attempt source statusCode headers :
      Opening Json Decision _) fun _ => True := by
  refine (keyless_classify source statusCode headers).bind fun classified _ => ?_
  refine (keyless_local (key_unnoted.quiet_finish attempt false statusCode (some classified))).bind
    fun record _ => keyless_permit.bind fun _ _ => ?_
  refine (keyless_local (keyless_recordStreamFailure call s endpoint record classified)).bind
    fun t _ => ?_
  split
  · exact Prog.quietExcept_throw _
  · refine (keyless_local (keyless_retryStream call t endpoint classified)).bind fun u _ => ?_
    exact Prog.quietExcept_pure trivial

theorem keyless_firstBytes (stream : ByteStream) :
    KeylessOpening (firstBytes stream : Opening Json Decision _) fun _ => True := by
  refine (keyless_attempt fun _ => rfl).bind fun _ _ => ?_
  refine (keyless_ask fun _ => rfl).bind fun chunk _ => ?_
  change ChunkAnswer at chunk
  rcases chunk with (_ | ⟨byte, bytes⟩) | _ | error
  all_goals exact Prog.quietExcept_pure trivial

theorem keyless_handleStream (decision : Decision) (attempt : AttemptRecord)
    (result : ProviderStreamResult) :
    KeylessOpening (handleStream call s endpoint decision attempt result :
      Opening Json Decision _) fun _ => True := by
  unfold handleStream
  split
  · exact keyless_failStream call s endpoint attempt _ _ _
  · refine (keyless_firstBytes _).bind fun first _ => ?_
    cases first with
    | ok firstChunk =>
        refine (keyless_plain rfl).bind fun _ _ => ?_
        dsimp only
        split
        · exact (keyless_local keyless_keep).bind fun _ _ => Prog.quietExcept_pure trivial
        · exact Prog.quietExcept_pure trivial
    | error error =>
        refine (keyless_attempt fun _ => rfl).bind fun _ _ => ?_
        exact keyless_failStream call s endpoint attempt _ _ _

theorem keyless_transportTimeouts (deadline : Deadline) :
    KeylessOpening (transportTimeouts deadline : Opening Json Decision _) fun _ => True := by
  refine (keyless_ask fun _ => rfl).bind fun now _ => ?_
  split
  · refine (keyless_plain rfl).bind fun _ _ => (keyless_plain rfl).bind fun _ _ => ?_
    exact Prog.quietExcept_throw _
  · exact (keyless_plain rfl).bind fun _ _ => Prog.quietExcept_pure trivial

theorem keyless_openStream (decision : Decision) (adapter : Adapter) (prepared : PreparedRequest)
    (wasCompacted : Bool) :
    KeylessOpening (openStream call s endpoint decision adapter prepared wasCompacted :
      Opening Json Decision _) fun _ => True := by
  have kept : ∀ record : AttemptRecord,
      Keyless (prepareDurableAttempt call.executor record : Local Json Decision Unit)
        fun _ => True := by
    intro record
    unfold prepareDurableAttempt
    split
    · exact keyless_keep
    · exact Prog.quiet_pure trivial
  refine (keyless_plain rfl).bind fun attemptId _ => (keyless_plain rfl).bind fun now _ => ?_
  refine (keyless_local (kept _)).bind fun _ _ => ?_
  refine (keyless_transportTimeouts call.deadline).bind fun timeouts _ => ?_
  refine (keyless_attempt fun _ => rfl).bind fun result _ => ?_
  exact keyless_handleStream call s endpoint decision _ result

/-- No key, or one request with the key selected for it. -/
abbrev StreamKeys (keys : Dict String String) (p : Opening Json Decision α) : Prop :=
  p.run.Meets (keyContract Json Decision) fun _ log => SelectsThenSends keys log

variable (stream : StreamCall Json) [JsonCodec Json]

theorem keys_dispatchStream (decision : Decision) (profile : ModelProfile) :
    StreamKeys stream.call.keys
      (dispatchStream stream s endpoint decision profile : Opening Json Decision _) := by
  refine (keyless_ask fun _ => rfl).then (fun _ => .nil) fun answer _ => ?_
  change Except RaisedError (NormalizedRequest Json × Bool) at answer
  rcases answer with e | ⟨compacted, wasCompacted⟩
  · cases e <;> exact SelectsThenSends.nil
  · refine (keyless_attempt fun _ => rfl).then (fun _ => .nil) fun adapter _ => ?_
    refine (keyless_ask fun _ => rfl).then (fun _ => .nil) fun has _ => ?_
    change Bool at has
    cases has with
    | false => exact SelectsThenSends.nil
    | true =>
        refine ⟨trivial, fun key _ => ⟨trivial, fun answer _ => ?_⟩⟩
        have sends : SelectsThenSends stream.call.keys [.selected ⟨endpoint, stream.call.keys, key⟩,
            .sent endpoint (key.1.getD (unsplitKey stream.call.keys endpoint))] :=
          .send endpoint key .nil
        change Except RaisedError PreparedRequest at answer
        cases answer with
        | error e => exact sends
        | ok prepared =>
            have streamed : KeylessOpening (Opening.attempt
                (pure (streamingPreparedRequest stream.asEventStream prepared)) :
                  Opening Json Decision _) fun _ => True :=
              Prog.quiet_pure fun _ _ => trivial
            refine streamed.then (fun _ => sends) fun prepared _ => ?_
            exact Prog.Quiet.meets
              (keyless_openStream stream.call s endpoint decision adapter prepared wasCompacted)
              fun _ _ => sends

theorem keys_admitStream (decision : Decision) (profile : ModelProfile) :
    StreamKeys stream.call.keys
      (admitStream stream s endpoint decision profile : Opening Json Decision _) := by
  refine (keyless_plain rfl).then (fun _ => .nil) fun policy _ => ?_
  split
  · exact SelectsThenSends.nil
  · refine keyless_permit.then (fun _ => .nil) fun answer _ => ?_
    change Except BreakerError Unit at answer
    cases answer with
    | error denied => exact SelectsThenSends.nil
    | ok granted => exact keys_dispatchStream s endpoint stream decision profile

omit [JsonCodec Json] in
/-- Waiting for rate limits asks for no key. -/
theorem keyless_rollOverStream :
    Keyless (rollOverStream call s : Local Json Decision _) fun _ => True := by
  have raised : ∀ maximum : Option Nat,
      Keyless (maximum.forM fun bound => Local.keep (.setMaxTotalAttempts bound) :
        Local Json Decision Unit) fun _ => True := by
    intro maximum
    cases maximum with
    | none => exact Prog.quiet_pure trivial
    | some maximum => exact keyless_keep
  refine (key_unnoted.any rfl).bind fun now _ => ?_
  dsimp only
  split
  · refine keyless_keep.bind fun _ _ => keyless_keep.bind fun _ _ => ?_
    refine (Prog.quiet_forM (key_unnoted.quiet_reopenLanes call.pool) _).bind fun _ _ => ?_
    refine (key_unnoted.any rfl).bind fun policy _ => ?_
    exact (raised _).bind fun _ _ => Prog.quiet_pure trivial
  · exact Prog.quiet_pure trivial

theorem keys_streamPass :
    StreamKeys stream.call.keys (streamPass stream s : Opening Json Decision _) := by
  refine (keyless_raising (key_unnoted.quiet_check stream.call.deadline)).then (fun _ => .nil)
    fun _ _ => ?_
  have selected : ∀ requestId excluded reason,
      Prog.QuietExcept (keyContract Json Decision).left.left (fun _ => True)
        (Raising.selectCandidate stream.call.requirements stream.call.pool stream.call.strategy
          requestId excluded reason : Raising Json Decision _) :=
    fun _ _ _ => (key_unnoted.any rfl).imp fun _ _ _ _ => trivial
  refine (keyless_raising (selected _ _ _)).then (fun _ => .nil) fun ⟨candidate, decision⟩ _ => ?_
  cases candidate with
  | none =>
      exact Prog.Quiet.meets (keyless_local (keyless_rollOverStream stream.call _))
        fun _ _ => .nil
  | some endpoint =>
      have supports (profile : ModelProfile) (t : LoopState Json) : StreamKeys stream.call.keys
          (if !profile.supportsStreaming then
            pure (.next (t.excludeFor endpoint .streamingNotSupported))
          else admitStream stream t endpoint decision profile : Opening Json Decision _) := by
        split
        · exact SelectsThenSends.nil
        · exact keys_admitStream t endpoint stream decision profile
      dsimp only
      split
      · exact SelectsThenSends.nil
      · split
        · exact supports _ _
        · refine ⟨trivial, fun profile _ => ?_⟩
          exact supports profile _

theorem keys_streamLoop (fuel : Nat) :
    (streamLoop stream fuel s : Streaming Json Decision _).Meets (keyContract Json Decision)
      fun _ log => SelectsThenSends stream.call.keys log := by
  induction fuel generalizing s with
  | zero => exact SelectsThenSends.nil
  | succ fuel ih =>
      have continues : Keyless (mayContinue stream.call s : Local Json Decision Bool)
          fun _ => True := by
        refine (key_unnoted.any rfl).bind fun now _ => ?_
        split
        · exact Prog.quiet_pure trivial
        · exact (key_unnoted.any rfl).bind fun _ _ => Prog.quiet_pure trivial
      refine Prog.Quiet.then (Prog.meets_inLeft (Prog.meets_inLeft continues)) fun more _ => ?_
      cases more with
      | false => exact SelectsThenSends.nil
      | true =>
          refine (keys_streamPass s stream).seq fun result log sends => ?_
          have ends : SelectsThenSends stream.call.keys (log ++ []) := by rwa [List.append_nil]
          rcases result with e | t | handle | _
          · exact ends
          · exact (ih t).imp fun _ _ rest => sends.append rest
          · exact ends
          · exact ends

theorem keys_openNativeStream (executor : GatewayExecutor Json) (args : StreamRequest Json)
    (asEventStream : List UInt8 → Option (List UInt8)) (fuel : Nat) :
    (openNativeStream executor args asEventStream fuel : Streaming Json Decision _).Meets
      (keyContract Json Decision) fun _ log => SelectsThenSends args.apiKeys log := by
  unfold openNativeStream
  split
  · exact SelectsThenSends.nil
  · have clock : Keyless (Local.monotonic : Local Json Decision Seconds) fun _ => True :=
      key_unnoted.any rfl
    refine Prog.Quiet.then (Prog.meets_inLeft (Prog.meets_inLeft clock)) fun start _ => ?_
    exact keys_streamLoop _ (args.call executor asEventStream start) fuel

end Stream

/-! ## Whole runs -/

section Runs

variable {σ τ : Type} [JsonCodec Json]

theorem keys_execute (executor : GatewayExecutor Json) (args : ExecuteRequest Json) (fuel : Nat)
    {exchanges : List (Exchange Json Decision)} {result : ExecuteResult Json Decision}
    (run : (execute executor args fuel).Traces exchanges result) :
    SelectsThenSends args.apiKeys (exchanges.filterMap keyNote) := by
  obtain ⟨call, same, notes⟩ := notes_execute executor args fuel run
  have sends := notes.keys
  rw [List.filterMap_filterMap, same] at sends
  exact sends

/-- In every run of `execute` and of `open_native_stream`, each request is
    prepared with a key chosen for its endpoint: a configured one that is not in
    cooldown, or none for want of one, exactly when some key of the endpoint is
    not in cooldown or the text of its environment variable is empty. -/
theorem sent_keys_usable_iff (handle : Prog.Handler (executorSig Json Decision) σ)
    (streamHandle : Prog.Handler (streamSig Json Decision) τ) (executor : GatewayExecutor Json)
    (args : ExecuteRequest Json) (streamArgs : StreamRequest Json)
    (asEventStream : List UInt8 → Option (List UInt8)) (fuel : Nat) (start : σ)
    (streamStart : τ) :
    (∀ send ∈ keySends none
        (((execute executor args fuel).transcript handle start).filterMap keyNote),
      send.IsChosen args.apiKeys) ∧
      ∀ send ∈ keySends none
          (((openNativeStream executor streamArgs asEventStream fuel).transcript streamHandle
            streamStart).filterMap streamKeyNote),
        send.IsChosen streamArgs.apiKeys := by
  have executed := keys_execute executor args fuel (Prog.traces_exec handle _ start)
  have opened := ((keys_openNativeStream executor streamArgs asEventStream fuel).traces
    (Prog.traces_exec streamHandle _ streamStart) fun _ _ => trivial).1
  exact ⟨executed.chosen none, opened.chosen none⟩

end Runs

/-! ### Every key is cooling down -/

section Sample

/-- Both keys of the sample were rate limited ten seconds ahead. -/
def coolingPool : KeyRotationPool :=
  ({} : KeyRotationPool).recordRateLimit "GROQ_API_KEY:0" (some 10) 0
    |>.recordRateLimit "GROQ_API_KEY:1" (some 10) 0

/-- The sample's surroundings, with this pool at time 0. -/
def coolingHandle : Prog.Handler (executorSig OkObject Unit) SampleWorld
  | .inl (.getActiveKey endpoint keys), w => ((coolingPool.getActiveKey endpoint keys 0).1, w)
  | op, w => sampleHandle op w

/-- With both keys of the endpoint in cooldown, the text of its environment
    variable is sent, commas and all. -/
theorem unsplit_keys_sent :
    ∃ send ∈ keySends none ((sampleRun.transcript coolingHandle sampleStart).filterMap keyNote),
      (coolingPool.getActiveKey send.endpoint sampleKeys 0).1 = (none, none) ∧
        send.apiKey = "first,second" ∧
        ¬ coolingPool.Usable send.endpoint sampleKeys 0 send.apiKey := by
  have none_available : coolingPool.availableKeys sampleEndpoint sampleKeys 0 = [] := by
    decide +kernel
  have sends : (keySends none
      ((sampleRun.transcript coolingHandle sampleStart).filterMap keyNote)).any fun send =>
        send.endpoint = sampleEndpoint ∧ send.apiKey = "first,second" := by
    decide +kernel
  obtain ⟨send, member, sent⟩ := List.any_eq_true.mp sends
  obtain ⟨toSample, unsplit⟩ := of_decide_eq_true sent
  refine ⟨send, member, ?_, unsplit, ?_⟩
  · rw [toSample]
    decide +kernel
  · simp [KeyRotationPool.Usable, toSample, unsplit, none_available]

end Sample

end DuraLLM
