import DuraLLM.Execution.ServerErrors
import DuraLLM.Execution.StreamPermits

/-! # Clients that hang up

A client ends a native stream early by closing its iterator or by cancelling the
handle.  Neither is an error of the provider, but both come back to `iter_bytes`
as an exception: the one as `GeneratorExit` at the `yield`, the other as an error
of the stream at the next read.  The handler catches every exception and reports
it as a failure of the endpoint.

What is held against the provider is compared with what its stream did.  It
answers to the stream exactly when the client neither closes an iterator that is
at a `yield` nor makes the stream raise by a cancellation.
-/

namespace DuraLLM

variable {Json Decision : Type}

/-- What decides whether a hang-up counts. -/
inductive HangUpMark where
  | acted (action : ClientAction) (phase : IteratorPhase)
  /-- The provider stream raises. -/
  | raised
  /-- The provider stream is at its end. -/
  | ended
  /-- The classifier raises. -/
  | unclassified
  /-- The breaker records a failure that poisons, or the health store a failed call. -/
  | charged
  | laneSet
  deriving DecidableEq

def Bookkeeping.hangUp : Bookkeeping → Option HangUpMark
  | .recordHealthFailure _ => some .charged
  | .setLaneAvailable _ | .setLaneUnavailable _ _ _ => some .laneSet
  | _ => none

def LocalOp.hangUp : LocalOp Json → Option HangUpMark
  | .keep note => note.hangUp
  | _ => none

def PermitOp.hangUp : (op : PermitOp Json) → op.Answer Json → Option HangUpMark
  | .recordFailure _ _ classified, _ => if classified.poisonsHealth then some .charged else none
  | .classifyFailure _ _ _, (.error _ : Except RaisedError FailureClassification) =>
      some .unclassified
  | _, _ => none

def NativeOp.hangUp : (op : NativeOp Json) → op.Answer Json → Option HangUpMark
  | .clientAction phase, action => some (.acted action phase)
  | .nextChunk _, (.raised _ : ChunkAnswer) => some .raised
  | .nextChunk _, (.stopIteration : ChunkAnswer) => some .ended
  | _, _ => none

def hangUpMark : StreamExchange Json Decision → Option HangUpMark
  | ⟨.inl (.inl op), _⟩ => op.hangUp
  | ⟨.inl (.inr op), answer⟩ => op.hangUp answer
  | ⟨.inr op, answer⟩ => op.hangUp answer

/-! ## What counts against the provider -/

/-- What has come of the client's last action. -/
inductive Cause where
  | client
  | streamEnd
  | streamError
  deriving DecidableEq

/-- An error of the provider is one that its stream raises for a client that has
    not cancelled.  Only such an error is charged, and the lane is set only after
    one or at the end of the stream. -/
def Fair : (cancelled : Bool) → Cause → List HangUpMark → Prop
  | _, _, [] => True
  | cancelled, _, .acted action _ :: log => Fair (cancelled || action = .cancel) .client log
  | cancelled, _, .raised :: log => Fair cancelled (if cancelled then .client else .streamError) log
  | cancelled, _, .ended :: log => Fair cancelled .streamEnd log
  | cancelled, cause, .unclassified :: log => Fair cancelled cause log
  | cancelled, cause, .charged :: log => cause = .streamError ∧ Fair cancelled cause log
  | cancelled, cause, .laneSet :: log => cause ≠ .client ∧ Fair cancelled cause log

/-- The client closes no iterator that is at a `yield`, and the stream raises
    nothing after a cancellation, unless the classifier raises on it. -/
def Civil : (cancelled : Bool) → List HangUpMark → Prop
  | _, [] => True
  | cancelled, .acted action phase :: log =>
      (action = .close → phase = .suspended → log.head? = some .unclassified) ∧
        Civil (cancelled || action = .cancel) log
  | cancelled, .raised :: log =>
      (cancelled = true → log.head? = some .unclassified) ∧ Civil cancelled log
  | cancelled, _ :: log => Civil cancelled log

/-- Nothing but actions on an iterator that has ended. -/
def Idle (log : List HangUpMark) : Prop := ∀ mark ∈ log, ∃ action, mark = .acted action .finished

/-- What the handling of an exception leaves. -/
inductive FailureLog : List HangUpMark → Prop where
  | unclassified : FailureLog [.unclassified]
  | charged (times lanes : Nat) :
      FailureLog (List.replicate (times + 1) .charged ++ List.replicate lanes .laneSet)

section Readings

variable {cancelled : Bool} {cause : Cause} {log later : List HangUpMark}

theorem Idle.fair (idle : Idle log) : Fair cancelled cause log := by
  induction log generalizing cancelled cause with
  | nil => trivial
  | cons mark log ih =>
      obtain ⟨⟨action, rfl⟩, rest⟩ := List.forall_mem_cons.mp idle
      exact ih rest

theorem Idle.civil (idle : Idle log) : Civil cancelled log := by
  induction log generalizing cancelled with
  | nil => trivial
  | cons mark log ih =>
      obtain ⟨⟨action, rfl⟩, rest⟩ := List.forall_mem_cons.mp idle
      exact ⟨fun _ suspended => (by cases suspended), ih rest⟩

theorem fair_charged (times : Nat) :
    Fair cancelled cause (List.replicate (times + 1) .charged ++ log) ↔
      cause = .streamError ∧ Fair cancelled cause log := by
  induction times with
  | zero => rfl
  | succ times ih =>
      rw [List.replicate_succ, List.cons_append]
      simp only [Fair, ih]
      tauto

theorem fair_laneSet (lanes : Nat) (own : cause ≠ .client) :
    Fair cancelled cause (List.replicate lanes .laneSet ++ log) ↔ Fair cancelled cause log := by
  induction lanes with
  | zero => rfl
  | succ lanes ih =>
      rw [List.replicate_succ, List.cons_append]
      simp only [Fair, ih, ne_eq, own, not_false_eq_true, true_and]

theorem civil_laneSet (lanes : Nat) :
    Civil cancelled (List.replicate lanes .laneSet ++ log) ↔ Civil cancelled log := by
  induction lanes with
  | zero => rfl
  | succ lanes ih => exact ih

theorem civil_charged (times : Nat) :
    Civil cancelled (List.replicate times .charged ++ log) ↔ Civil cancelled log := by
  induction times with
  | zero => rfl
  | succ times ih => exact ih

namespace FailureLog

/-- An exception that is classified counts, so it has to be the provider's. -/
theorem fair_iff (failure : FailureLog log) (idle : Idle later) :
    Fair cancelled cause (log ++ later) ↔
      (cause ≠ .streamError → (log ++ later).head? = some .unclassified) := by
  cases failure with
  | unclassified => exact iff_of_true idle.fair fun _ => rfl
  | charged times lanes =>
      rw [List.append_assoc, fair_charged]
      constructor
      · intro fair other
        exact absurd fair.1 other
      · intro named
        have provider : cause = .streamError := by
          by_contra other
          cases named other
        have own : cause ≠ .client := by rw [provider]; simp
        exact ⟨provider, (fair_laneSet lanes own).mpr idle.fair⟩

theorem civil (failure : FailureLog log) (idle : Idle later) : Civil cancelled (log ++ later) := by
  cases failure with
  | unclassified => exact idle.civil
  | charged times lanes =>
      rw [List.append_assoc, civil_charged, civil_laneSet]
      exact idle.civil

/-- An iterator is closed at a `yield`. -/
theorem closed_iff (failure : FailureLog log) (idle : Idle later) :
    Fair cancelled cause (.acted .close .suspended :: (log ++ later)) ↔
      Civil cancelled (.acted .close .suspended :: (log ++ later)) := by
  simp only [Fair, Civil, failure.fair_iff idle, failure.civil idle, and_true]
  simp

/-- A read raises. -/
theorem raised_iff (failure : FailureLog log) (idle : Idle later) :
    Fair cancelled cause (.raised :: (log ++ later)) ↔
      Civil cancelled (.raised :: (log ++ later)) := by
  simp only [Fair, Civil, failure.fair_iff idle, failure.civil idle, and_true]
  cases cancelled with
  | false => simp
  | true => simp

end FailureLog

/-- A read finds the end of the stream. -/
theorem ended_iff (lanes : Nat) (idle : Idle later) :
    Fair cancelled cause (.ended :: (List.replicate lanes .laneSet ++ later)) ↔
      Civil cancelled (.ended :: (List.replicate lanes .laneSet ++ later)) := by
  simp only [Fair, Civil, civil_laneSet]
  rw [fair_laneSet lanes (by simp)]
  exact iff_of_true idle.fair idle.civil

end Readings

/-! ## The log of each part -/

section Rules

variable {α β : Type}

/-- What a program leaves, whatever it is answered. -/
abbrev HangUpLogs (post : α → List HangUpMark → Prop) (p : Streaming Json Decision α) : Prop :=
  p.Logs hangUpMark post

/-- As `HangUpLogs`, for a local program. -/
abbrev LocalHangUpLogs (post : α → List HangUpMark → Prop) (p : Local Json Decision α) : Prop :=
  p.Logs (fun exchange => LocalOp.hangUp exchange.1) post

theorem hangUpLogs_local {post : β → List HangUpMark → Prop} {mid : α → List HangUpMark → Prop}
    {p : Local Json Decision α} (first : LocalHangUpLogs mid p)
    {f : α → Streaming Json Decision β}
    (rest : ∀ a log, mid a log → HangUpLogs (fun b more => post b (log ++ more)) (f a)) :
    HangUpLogs post (Streaming.ofLocal p >>= f) :=
  Prog.Logs.seq (.inLeft (.inLeft first)) rest

theorem hangUpLogs_only {post : α → List HangUpMark → Prop} {p : Local Json Decision α}
    (logs : LocalHangUpLogs post p) : HangUpLogs post (Streaming.ofLocal p) :=
  .inLeft (.inLeft logs)

theorem hangUpLogs_permit {post : β → List HangUpMark → Prop} {op : PermitOp Json}
    {f : op.Answer Json → Streaming Json Decision β}
    (rest : ∀ answer, HangUpLogs (fun b log => post b ((op.hangUp answer).toList ++ log))
      (f answer)) :
    HangUpLogs post (Streaming.ofExecution (Execution.ask op) >>= f) :=
  Prog.logs_ask rest

theorem hangUpLogs_ask {post : β → List HangUpMark → Prop} {op : NativeOp Json}
    {f : op.Answer Json → Streaming Json Decision β}
    (rest : ∀ answer, HangUpLogs (fun b log => post b ((op.hangUp answer).toList ++ log))
      (f answer)) :
    HangUpLogs post (Streaming.ask op >>= f) :=
  Prog.logs_ask rest

theorem hangUpLogs_pure {post : α → List HangUpMark → Prop} {a : α} (holds : post a []) :
    HangUpLogs post (pure a : Streaming Json Decision α) :=
  Prog.logs_ret holds

/-- The reading of the clock when an attempt ends. -/
theorem localHangUpLogs_finish (record : AttemptRecord) (success : Bool) (statusCode : Nat)
    (failure : Option FailureClassification) :
    LocalHangUpLogs (fun _ log => log = [])
      (finish record success statusCode failure : Local Json Decision _) :=
  Prog.logs_ask fun _ => Prog.logs_ret rfl

theorem localHangUpLogs_keep (note : Bookkeeping) :
    LocalHangUpLogs (fun _ log => log = note.hangUp.toList)
      (Local.keep note : Local Json Decision Unit) :=
  Prog.logs_ask fun _ => Prog.logs_ret (List.append_nil _)

theorem localHangUpLogs_recordLaneOutcome (endpoint : Endpoint)
    (failure : Option FailureClassification) :
    LocalHangUpLogs (fun _ log => ∃ lanes, log = List.replicate lanes .laneSet)
      (recordLaneOutcome endpoint failure : Local Json Decision Unit) := by
  have untouched : LocalHangUpLogs (fun _ log => ∃ lanes, log = List.replicate lanes .laneSet)
      (pure () : Local Json Decision Unit) := Prog.logs_ret ⟨0, rfl⟩
  unfold recordLaneOutcome
  split
  · exact untouched
  · split
    · exact untouched
    · split
      · exact (localHangUpLogs_keep _).imp fun _ _ same => ⟨1, same⟩
      · split
        · exact (localHangUpLogs_keep _).imp fun _ _ same => ⟨1, same⟩
        · exact untouched

theorem localHangUpLogs_emitAttempt (record : AttemptRecord) :
    LocalHangUpLogs (fun _ log => log = [])
      (emitAttempt record : Local Json Decision Unit) := by
  unfold emitAttempt
  split
  · exact localHangUpLogs_keep _
  · exact localHangUpLogs_keep _

theorem localHangUpLogs_finishDurableAttempt (executor : GatewayExecutor Json)
    (record : AttemptRecord) (status : AttemptStatus) (detail : AttemptDetail) :
    LocalHangUpLogs (fun _ log => log = [])
      (finishDurableAttempt executor record status detail : Local Json Decision Unit) := by
  unfold finishDurableAttempt
  split
  · exact localHangUpLogs_keep _
  · exact Prog.logs_ret rfl

end Rules

section Handle

variable (executor : GatewayExecutor Json)

namespace NativeStreamHandle

variable {h : NativeStreamHandle Decision}

/-- The iterator is still to be read, and the outcome to be reported. -/
structure Reading (h : NativeStreamHandle Decision) : Prop where
  unfinished : h.finished = false
  reading : h.phase ≠ .finished

theorem Open.isReading (open_ : h.Open) : h.Reading := ⟨open_.unfinished, open_.reading⟩

theorem localHangUpLogs_settle (record : AttemptRecord) (failure : Option FailureClassification)
    (status : AttemptStatus) (detail : AttemptDetail) :
    LocalHangUpLogs (fun _ log => ∃ lanes, log = List.replicate lanes .laneSet)
      (h.settle executor record failure status detail : Local Json Decision _) := by
  refine (localHangUpLogs_recordLaneOutcome h.endpoint failure).seq fun _ lanes set => ?_
  refine (localHangUpLogs_emitAttempt record).seq fun _ _ emitted => ?_
  refine (localHangUpLogs_finishDurableAttempt executor record status detail).seq
    fun _ _ finished => Prog.logs_ret ?_
  rw [emitted, finished, List.append_nil, List.append_nil, List.append_nil]
  exact set

theorem hangUpLogs_finishSuccess (reading : h.Reading) :
    HangUpLogs (fun _ log => ∃ lanes, log = List.replicate lanes .laneSet)
      (h.finishSuccess executor : Streaming Json Decision _) := by
  unfold finishSuccess
  rw [if_neg (by simp [reading.unfinished])]
  refine hangUpLogs_local (localHangUpLogs_finish _ _ _ _) fun record _ timed => ?_
  subst timed
  refine hangUpLogs_permit fun _ => hangUpLogs_only ?_
  refine (localHangUpLogs_keep _).seq fun _ _ kept => ?_
  subst kept
  exact localHangUpLogs_settle executor record none .streamSucceeded (.text "")

theorem hangUpLogs_finishFailure (reading : h.Reading) (error : StreamError) :
    HangUpLogs (fun _ log => FailureLog log)
      (h.finishFailure executor error : Streaming Json Decision _) := by
  unfold finishFailure
  rw [if_neg (by simp [reading.unfinished])]
  refine hangUpLogs_permit fun answer => ?_
  change Except RaisedError FailureClassification at answer
  cases answer with
  | error e => exact hangUpLogs_pure .unclassified
  | ok classified =>
      refine hangUpLogs_local (localHangUpLogs_finish _ _ _ _) fun record _ timed => ?_
      subst timed
      refine hangUpLogs_permit fun _ => hangUpLogs_only ?_
      refine (localHangUpLogs_keep _).seq fun _ _ kept => ?_
      subst kept
      refine (localHangUpLogs_settle executor record (some classified) .streamInterrupted _).imp
        fun _ log settled => ?_
      obtain ⟨lanes, rfl⟩ := settled
      cases poisons : classified.poisonsHealth with
      | true => simpa [PermitOp.hangUp, Bookkeeping.hangUp, poisons] using FailureLog.charged 1 lanes
      | false => simpa [PermitOp.hangUp, Bookkeeping.hangUp, poisons] using FailureLog.charged 0 lanes

/-- What a read of the iterator leaves. -/
inductive ReadLog : List HangUpMark → Prop where
  | ended (lanes : Nat) : ReadLog (.ended :: List.replicate lanes .laneSet)
  | raised {log : List HangUpMark} (failure : FailureLog log) : ReadLog (.raised :: log)

/-- The client gets the next bytes of the iterator it has, or its end. -/
def Reads (h : NativeStreamHandle Decision) :
    Option (Option (List UInt8) × NativeStreamHandle Decision) → List HangUpMark → Prop
  | none, log => log = []
  | some (_, h'), log => h' = h ∧ log = [] ∨ h'.phase = .finished ∧ ReadLog log

/-- An iterator that ends gives its client nothing more. -/
theorem hangUpLogs_ended {ended : Streaming Json Decision (NativeStreamHandle Decision)}
    {ends : List HangUpMark → Prop} (first : HangUpLogs (fun _ log => ends log) ended) :
    HangUpLogs (fun result log => ∃ h', result = some (none, h') ∧ h'.phase = .finished ∧ ends log)
      (do return some (none, ← finishIterator ended) :
        Streaming Json Decision (Option (Option (List UInt8) × NativeStreamHandle Decision))) := by
  have closed : HangUpLogs (fun h' log => h'.phase = .finished ∧ ends log)
      (finishIterator ended) := by
    refine first.seq fun _ log held => hangUpLogs_ask fun _ => hangUpLogs_pure ⟨rfl, ?_⟩
    rwa [← List.append_nil log] at held
  refine closed.seq fun h' log held => hangUpLogs_pure ⟨h', rfl, ?_⟩
  rwa [← List.append_nil log] at held

theorem hangUpLogs_resume (reading : h.Reading) (fuel : Nat) :
    HangUpLogs h.Reads (h.resume executor fuel : Streaming Json Decision _) := by
  induction fuel with
  | zero => exact hangUpLogs_pure rfl
  | succ fuel ih =>
      refine hangUpLogs_ask fun answer => ?_
      change ChunkAnswer at answer
      rcases answer with (_ | ⟨byte, bytes⟩) | _ | error
      · exact ih
      · exact hangUpLogs_pure (.inl ⟨rfl, rfl⟩)
      · refine (hangUpLogs_ended (hangUpLogs_finishSuccess executor reading)).imp
          fun _ log held => ?_
        obtain ⟨h', rfl, finished, lanes, rfl⟩ := held
        exact .inr ⟨finished, .ended lanes⟩
      · refine (hangUpLogs_ended (hangUpLogs_finishFailure executor reading error)).imp
          fun _ log held => ?_
        obtain ⟨h', rfl, finished, failure⟩ := held
        exact .inr ⟨finished, .raised failure⟩

end NativeStreamHandle

section Serve

variable {h : NativeStreamHandle Decision}

/-- A client in control acts. -/
theorem hangUpLogs_acted {yielded : Option (List UInt8)} {β : Type}
    {post : β → List HangUpMark → Prop} {f : ClientAction → Streaming Json Decision β}
    (acts : ∀ action, HangUpLogs (fun b log => post b (.acted action h.phase :: log)) (f action)) :
    HangUpLogs post (do
      Streaming.ask (.handBack yielded h.phase h.cancelled)
      f (← Streaming.ask (.clientAction h.phase))) :=
  hangUpLogs_ask fun _ => hangUpLogs_ask acts

theorem hangUpLogs_serve_finished (fuel steps : Nat) (yielded : Option (List UInt8))
    (finished : h.phase = .finished) :
    HangUpLogs (fun _ log => Idle log)
      (serve executor fuel steps yielded h : Streaming Json Decision _) := by
  induction steps generalizing yielded h with
  | zero => exact hangUpLogs_ask fun _ => hangUpLogs_pure (fun _ none => absurd none List.not_mem_nil)
  | succ steps ih =>
      refine hangUpLogs_acted fun action => ?_
      have more : ∀ (yielded' : Option (List UInt8)) (h' : NativeStreamHandle Decision),
          h'.phase = .finished → HangUpLogs (fun _ log => Idle (.acted action h.phase :: log))
            (serve executor fuel steps yielded' h' : Streaming Json Decision _) := by
        intro yielded' h' finished'
        refine (ih yielded' finished').imp fun _ log idle => ?_
        exact List.forall_mem_cons.mpr ⟨⟨action, by rw [finished]⟩, idle⟩
      cases action with
      | next | close =>
          simp only [NativeStreamHandle.act, finished]
          rw [finished] at more
          exact more _ _ finished
      | cancel => exact hangUpLogs_ask fun _ => hangUpLogs_ask fun _ => more _ _ finished

/-- The client of a read iterator. -/
theorem hangUpLogs_serve_read (fuel steps : Nat)
    (later : ∀ yielded, HangUpLogs
      (fun _ log => Fair h.cancelled .client log ↔ Civil h.cancelled log)
      (serve executor fuel steps yielded h : Streaming Json Decision _))
    {p : Streaming Json Decision (Option (Option (List UInt8) × NativeStreamHandle Decision))}
    (reads : HangUpLogs h.Reads p) :
    HangUpLogs (fun _ log => Fair h.cancelled .client log ↔ Civil h.cancelled log)
      (do
        match ← p with
        | none => pure ()
        | some (yielded, h) => serve executor fuel steps yielded h : Streaming Json Decision _) := by
  refine reads.seq fun result log read => ?_
  rcases result with _ | ⟨yielded', h'⟩
  · obtain rfl : log = [] := read
    exact hangUpLogs_pure Iff.rfl
  · rcases read with ⟨rfl, rfl⟩ | ⟨finished, outcome⟩
    · exact later yielded'
    · refine (hangUpLogs_serve_finished executor fuel steps yielded' finished).imp
        fun _ rest idle => ?_
      cases outcome with
      | ended lanes => exact ended_iff lanes idle
      | raised failure => exact failure.raised_iff idle

/-- One action after another: what counts against the provider is its own as
    long as the client is civil. -/
theorem hangUpLogs_serve (fuel steps : Nat) (yielded : Option (List UInt8)) (reading : h.Reading) :
    HangUpLogs (fun _ log => Fair h.cancelled .client log ↔ Civil h.cancelled log)
      (serve executor fuel steps yielded h : Streaming Json Decision _) := by
  -- by induction on the actions that are left; a cancelled handle goes on as any other
  induction steps generalizing yielded h with
  | zero => exact hangUpLogs_ask fun _ => hangUpLogs_pure Iff.rfl
  | succ steps ih =>
      refine hangUpLogs_acted fun action => ?_
      cases action with
      | next =>
          simp only [Fair, Civil, reduceCtorEq, false_implies, true_and, decide_false,
            Bool.or_false]
          cases phase : h.phase with
          | unstarted =>
              have suspended : ({ h with phase := .suspended } : NativeStreamHandle Decision).Reading :=
                ⟨reading.unfinished, by simp⟩
              simp only [NativeStreamHandle.act, phase]
              exact ih _ suspended
          | suspended =>
              simp only [NativeStreamHandle.act, phase]
              exact hangUpLogs_serve_read executor fuel steps (fun yielded => ih yielded reading)
                (NativeStreamHandle.hangUpLogs_resume executor reading fuel)
          | finished => exact absurd phase reading.reading
      | close =>
          cases phase : h.phase with
          | unstarted =>
              simp only [NativeStreamHandle.act, phase]
              refine (hangUpLogs_serve_finished executor fuel steps _ rfl).imp fun _ log idle => ?_
              exact iff_of_true idle.fair ⟨fun _ suspended => (by cases suspended), idle.civil⟩
          | suspended =>
              simp only [NativeStreamHandle.act, phase]
              refine Prog.Logs.seq (NativeStreamHandle.hangUpLogs_ended
                (NativeStreamHandle.hangUpLogs_finishFailure executor reading
                  NativeStreamHandle.generatorExit)) fun result log held => ?_
              obtain ⟨h', rfl, finished, failure⟩ := held
              refine (hangUpLogs_serve_finished executor fuel steps none finished).imp
                fun _ rest idle => ?_
              exact failure.closed_iff idle
          | finished => exact absurd phase reading.reading
      | cancel =>
          refine hangUpLogs_ask fun _ => hangUpLogs_ask fun _ => ?_
          have cancelled : ({ h with cancelled := true } : NativeStreamHandle Decision).Reading :=
            ⟨reading.unfinished, reading.reading⟩
          refine (ih none cancelled).imp fun _ log held => ?_
          simpa [Fair, Civil, NativeOp.hangUp] using held

end Serve

end Handle

/-! ## Whole streams -/

section Sample

/-- A client that follows a script; what is classified is the text of `GeneratorExit`. -/
def hangUpHandle : Prog.Handler (streamSig OkObject Unit) (List ClientAction × SampleWorld)
  | .inl (.inr (.classifyFailure _ status _)), s =>
      (Classifier.classifyFailure .ascii 0 { text := "" } (some status) [], s)
  | .inl op, (script, w) => ((sampleHandle op w).1, script, (sampleHandle op w).2)
  | .inr (.clientAction _), (action :: script, w) => (action, script, w)
  | .inr op, (script, w) => ((sampleNative op w).1, script, (sampleNative op w).2)

def hangUpOpening : Streaming OkObject Unit (StreamResult Unit) :=
  openNativeStream { computePrefixHash := fun _ => "" }
    { request := { requestId := "request-1" }, apiKeys := sampleKeys } some 1

def StreamResult.handle? : StreamResult Decision → Option (NativeStreamHandle Decision)
  | .opened h => some h
  | .raised _ | .outOfFuel => none

theorem StreamResult.handle?_eq_some {result : StreamResult Decision}
    {h : NativeStreamHandle Decision} : result.handle? = some h ↔ result = .opened h := by
  cases result <;> simp [StreamResult.handle?]

/-- The opened stream, and the world in which its client takes it over. -/
def hangUpOpened (script : List ClientAction) :
    StreamResult Unit × List ClientAction × SampleWorld :=
  hangUpOpening.exec hangUpHandle (script, sampleStart)

def hangUpServing (h : NativeStreamHandle Unit) : Streaming OkObject Unit Unit :=
  serve { computePrefixHash := fun _ => "" } 1 2 none h

end Sample

end DuraLLM
