import DuraLLM.Execution.NativeStream
import DuraLLM.Execution.Permits

/-! # Breaker permits of native streams

A permit taken for a native stream is to be reported before the call moves on,
or by the time the client is in control of an iterator that has ended or was
cancelled.  The answers and actions after which it is not are named, and as for
buffered requests a session is paired exactly when none of them occurs.
-/

namespace DuraLLM

variable {Json Decision : Type}

inductive StreamEvent where
  | admitted (breakerKey : String)
  | reported (breakerKey : String)
  /-- The client is in control, and the iterator is still to be read. -/
  | held
  /-- The client is in control, and the iterator has ended or was cancelled. -/
  | due
  deriving DecidableEq

/-- What may follow a permit that was handed over with a stream. -/
inductive HandedOver (breakerKey : String) : List StreamEvent → Prop where
  | unread : HandedOver breakerKey [.held]
  | reading {later : List StreamEvent} (rest : HandedOver breakerKey later) :
      HandedOver breakerKey (.held :: later)
  | settled (times : Nat) :
      HandedOver breakerKey (.held :: .reported breakerKey :: List.replicate times .due)

/-- Each permit is reported to its breaker, once, before the next is taken, or
    is handed over with a stream and reported, once, by the time it is due. -/
inductive StreamPaired : List StreamEvent → Prop where
  | nil : StreamPaired []
  | attempt (breakerKey : String) {later : List StreamEvent} (paired : StreamPaired later) :
      StreamPaired (.admitted breakerKey :: .reported breakerKey :: later)
  | opened (breakerKey : String) {later : List StreamEvent}
      (handedOver : HandedOver breakerKey later) : StreamPaired (.admitted breakerKey :: later)

abbrev StreamExchange (Json Decision : Type) := Sigma (streamSig Json Decision).Ans

def PermitEvent.inStream : PermitEvent → StreamEvent
  | .admitted breakerKey => .admitted breakerKey
  | .reported breakerKey => .reported breakerKey

def NativeOp.event : NativeOp Json → Option StreamEvent
  | .handBack _ phase cancelled => some (if phase = .finished ∨ cancelled then .due else .held)
  | _ => none

def streamEvent : StreamExchange Json Decision → Option StreamEvent
  | ⟨.inl (.inl _), _⟩ => none
  | ⟨.inl (.inr op), answer⟩ => (op.event answer).map PermitEvent.inStream
  | ⟨.inr op, _⟩ => op.event

/-- A close of an iterator that was never started, or a cancellation while it is
    still to be read. -/
def ClientAction.strands (phase : IteratorPhase) : ClientAction → Bool
  | .next => false
  | .close => phase = .unstarted
  | .cancel => phase ≠ .finished

/-- The answers after which a permit is kept: one of the calls between admission
    and the first bytes raises, the adapter has no native stream, the deadline
    passes or the request is no JSON object; or the client strands its handle. -/
def NativeOp.lapses (asEventStream : List UInt8 → Option (List UInt8)) :
    (op : NativeOp Json) → op.Answer Json → Bool
  | .compact _ _, (.error _ : Except RaisedError (NormalizedRequest Json × Bool)) => true
  | .getAdapter _ _, (.error _ : Except RaisedError Adapter) => true
  | .hasOpenStream _, has => !has
  | .prepareRequest _ _ _ _, (.error _ : Except RaisedError PreparedRequest) => true
  | .prepareRequest _ _ _ _, (.ok prepared : Except RaisedError PreparedRequest) =>
      (asEventStream prepared.bodyBytes).isNone
  | .transportClock deadline, now => deadline.isExpired now
  | .openStream _ _ _, (.error _ : Except RaisedError ProviderStreamResult) => true
  | .iterBytes _, (.error _ : Except RaisedError Unit) => true
  | .discardStream _, (.error _ : Except RaisedError Unit) => true
  | .clientAction phase, action => ClientAction.strands phase action
  | _, _ => false

def StreamLapse (asEventStream : List UInt8 → Option (List UInt8)) :
    StreamExchange Json Decision → Bool
  | ⟨.inl (.inl _), _⟩ => false
  | ⟨.inl (.inr op), answer⟩ => op.lapses answer
  | ⟨.inr op, answer⟩ => op.lapses asEventStream answer

/-! ## The log of a session -/

inductive StreamMark where
  | event (event : StreamEvent)
  | lapse
  deriving DecidableEq

def StreamMark.event? : StreamMark → Option StreamEvent
  | .event e => some e
  | .lapse => none

def streamMark (asEventStream : List UInt8 → Option (List UInt8))
    (exchange : StreamExchange Json Decision) : Option StreamMark :=
  match streamEvent exchange with
  | some e => some (.event e)
  | none => if StreamLapse asEventStream exchange then some .lapse else none

def NativeOp.mark (asEventStream : List UInt8 → Option (List UInt8)) (op : NativeOp Json)
    (answer : op.Answer Json) : Option StreamMark :=
  match op.event with
  | some e => some (.event e)
  | none => if op.lapses asEventStream answer then some .lapse else none

section Marks

variable {asEventStream : List UInt8 → Option (List UInt8)}

theorem streamEvent_of_mark (exchange : StreamExchange Json Decision) :
    (streamMark asEventStream exchange).bind StreamMark.event? = streamEvent exchange := by
  unfold streamMark
  cases streamEvent exchange with
  | some e => rfl
  | none => cases StreamLapse asEventStream exchange <;> rfl

/-- No answer is both an event and a lapse. -/
theorem streamEvent_none {exchange : StreamExchange Json Decision}
    (lapsed : StreamLapse asEventStream exchange = true) : streamEvent exchange = none := by
  rcases exchange with ⟨(op | op) | op, answer⟩
  · rfl
  · exact congrArg (Option.map PermitEvent.inStream) (event_none_of_lapses lapsed)
  · cases op with
    | handBack => cases lapsed
    | _ => rfl

theorem streamLapse_iff_mark (exchange : StreamExchange Json Decision) :
    StreamLapse asEventStream exchange = true ↔
      streamMark asEventStream exchange = some .lapse := by
  unfold streamMark
  constructor
  · intro lapsed
    simp only [streamEvent_none lapsed, lapsed, if_true]
  · intro marked
    split at marked
    · cases marked
    · simpa using marked

end Marks

/-- The log of a client that holds a handle. -/
inductive HandleLog (breakerKey : String) : List StreamMark → Prop where
  | unread : HandleLog breakerKey [.event .held]
  | reading {later : List StreamMark} (rest : HandleLog breakerKey later) :
      HandleLog breakerKey (.event .held :: later)
  | settled (times : Nat) :
      HandleLog breakerKey
        (.event .held :: .event (.reported breakerKey) :: List.replicate times (.event .due))
  | stranded (later : List StreamMark) :
      HandleLog breakerKey (.event .held :: .lapse :: .event .due :: later)

namespace HandleLog

variable {breakerKey : String} {log : List StreamMark}

theorem held_first (handle : HandleLog breakerKey log) :
    ∃ later, log.filterMap StreamMark.event? = .held :: later := by
  cases handle with
  | unread | reading | settled | stranded => exact ⟨_, rfl⟩

theorem filterMap_due (times : Nat) :
    (List.replicate times (StreamMark.event .due)).filterMap StreamMark.event? =
      List.replicate times .due := by
  simp [List.filterMap_replicate, StreamMark.event?]

theorem handedOver_iff (handle : HandleLog breakerKey log) :
    HandedOver breakerKey (log.filterMap StreamMark.event?) ↔ .lapse ∉ log := by
  induction handle with
  | unread => exact ⟨fun _ => by simp, fun _ => .unread⟩
  | @reading later rest ih =>
      simp only [StreamMark.event?, List.filterMap_cons, List.mem_cons, reduceCtorEq, false_or]
      rw [← ih]
      constructor
      · intro handed
        obtain ⟨more, events⟩ := rest.held_first
        rw [events] at handed ⊢
        cases handed with
        | reading rest => exact rest
      · exact .reading
  | settled times =>
      simp only [StreamMark.event?, List.filterMap_cons, filterMap_due]
      refine ⟨fun _ => ?_, fun _ => .settled times⟩
      simp [List.mem_replicate]
  | stranded later =>
      simp only [StreamMark.event?, List.filterMap_cons, List.mem_cons, reduceCtorEq, true_or,
        or_true, not_true_eq_false, iff_false]
      intro handed
      cases handed with
      | reading rest => cases rest

end HandleLog

/-- What a permit leaves that is not handed over. -/
inductive OpeningLog (breakerKey : String) : List StreamMark → Prop where
  | once : OpeningLog breakerKey [.event (.reported breakerKey)]
  | never : OpeningLog breakerKey [.lapse]

inductive StreamLog : List StreamMark → Prop where
  | nil : StreamLog []
  | failed (breakerKey : String) {log later : List StreamMark} (first : OpeningLog breakerKey log)
      (rest : StreamLog later) : StreamLog (.event (.admitted breakerKey) :: (log ++ later))
  | opened (breakerKey : String) {log : List StreamMark} (handle : HandleLog breakerKey log) :
      StreamLog (.event (.admitted breakerKey) :: log)

namespace StreamLog

/-- A session is paired exactly when nothing in it lapsed. -/
theorem paired_iff {log : List StreamMark} (session : StreamLog log) :
    StreamPaired (log.filterMap StreamMark.event?) ↔ .lapse ∉ log := by
  induction session with
  | nil => exact ⟨fun _ => List.not_mem_nil, fun _ => .nil⟩
  | @failed key log later first rest ih =>
      cases first with
      | once =>
          simp only [StreamMark.event?, List.cons_append, List.nil_append, List.filterMap_cons,
            List.mem_cons, reduceCtorEq, false_or]
          rw [← ih]
          constructor
          · intro paired
            cases paired with
            | attempt _ later => exact later
            | opened _ handed => cases handed
          · exact .attempt key
      | never =>
          simp only [StreamMark.event?, List.cons_append, List.nil_append, List.filterMap_cons,
            List.mem_cons, reduceCtorEq, false_or, true_or, not_true_eq_false, iff_false]
          intro paired
          cases rest with
          | nil =>
              cases paired with
              | opened _ handed => cases handed
          | failed | opened =>
              cases paired with
              | opened _ handed => cases handed
  | @opened key log handle =>
      simp only [StreamMark.event?, List.filterMap_cons, List.mem_cons, reduceCtorEq, false_or]
      rw [← handle.handedOver_iff]
      constructor
      · intro paired
        obtain ⟨later, events⟩ := handle.held_first
        rw [events] at paired ⊢
        cases paired with
        | opened _ handed => exact handed
      · exact .opened key

end StreamLog

/-! ## The log of each part -/

section Rules

variable {asEventStream : List UInt8 → Option (List UInt8)} {α β : Type}

/-- What a program leaves, whatever it is answered. -/
abbrev StreamLogs (asEventStream : List UInt8 → Option (List UInt8))
    (post : α → List StreamMark → Prop) (p : Streaming Json Decision α) : Prop :=
  p.Logs (streamMark asEventStream) post

theorem streamLogs_pure {post : α → List StreamMark → Prop} {a : α} (holds : post a []) :
    StreamLogs asEventStream post (pure a : Streaming Json Decision α) :=
  Prog.logs_ret holds

/-- A local part leaves the log alone. -/
theorem streamLogs_only {post : α → List StreamMark → Prop} (p : Local Json Decision α)
    (holds : ∀ a, post a []) : StreamLogs asEventStream post (Streaming.ofLocal p) :=
  .inLeft (Prog.logs_inLeft (fun _ _ => rfl) p holds)

theorem streamLogs_local {post : β → List StreamMark → Prop} (p : Local Json Decision α)
    {f : α → Streaming Json Decision β} (rest : ∀ a, StreamLogs asEventStream post (f a)) :
    StreamLogs asEventStream post (Streaming.ofLocal p >>= f) := by
  have silent : StreamLogs asEventStream (fun _ log => log = [])
      (Streaming.ofLocal p : Streaming Json Decision α) := streamLogs_only p fun _ => rfl
  refine silent.seq fun a log empty => ?_
  subst empty
  exact rest a

theorem streamLogs_permit {post : β → List StreamMark → Prop} {op : PermitOp Json}
    {f : op.Answer Json → Streaming Json Decision β}
    (rest : ∀ answer, StreamLogs asEventStream
      (fun b log => post b ((streamMark asEventStream
        (⟨.inl (.inr op), answer⟩ : StreamExchange Json Decision)).toList ++ log))
      (f answer)) :
    StreamLogs asEventStream post (Streaming.ofExecution (Execution.ask op) >>= f) :=
  Prog.logs_ask rest

theorem streamLogs_ask {post : β → List StreamMark → Prop} {op : NativeOp Json}
    {f : op.Answer Json → Streaming Json Decision β}
    (rest : ∀ answer, StreamLogs asEventStream
      (fun b log => post b ((op.mark asEventStream answer).toList ++ log))
      (f answer)) :
    StreamLogs asEventStream post (Streaming.ask op >>= f) :=
  Prog.logs_ask rest

end Rules

/-! ### The handle -/

section Handle

variable {asEventStream : List UInt8 → Option (List UInt8)}
variable (executor : GatewayExecutor Json)

namespace NativeStreamHandle

variable {h : NativeStreamHandle Decision}

/-- The iterator is still to be read, and the outcome to be reported. -/
structure Open (h : NativeStreamHandle Decision) : Prop where
  unfinished : h.finished = false
  reading : h.phase ≠ .finished
  uncancelled : h.cancelled = false

theorem logs_finishSuccess (open_ : h.Open) :
    StreamLogs asEventStream (fun _ log => log = [.event (.reported h.endpoint.resourceKey)])
      (h.finishSuccess executor : Streaming Json Decision _) := by
  unfold finishSuccess
  rw [if_neg (by simp [open_.unfinished])]
  refine streamLogs_local _ fun record => streamLogs_permit fun _ => ?_
  exact streamLogs_only _ fun _ => rfl

theorem logs_finishFailure (open_ : h.Open) (error : StreamError) :
    StreamLogs asEventStream (fun _ log => OpeningLog h.endpoint.resourceKey log)
      (h.finishFailure executor error : Streaming Json Decision _) := by
  unfold finishFailure
  rw [if_neg (by simp [open_.unfinished])]
  refine streamLogs_permit fun answer => ?_
  change Except RaisedError FailureClassification at answer
  cases answer with
  | error e => exact streamLogs_pure .never
  | ok classified =>
      refine streamLogs_local _ fun record => streamLogs_permit fun _ => ?_
      exact streamLogs_only _ fun _ => .once

/-- The client gets the next bytes of the iterator it has, or its end. -/
def Resumes (h : NativeStreamHandle Decision) :
    Option (Option (List UInt8) × NativeStreamHandle Decision) → List StreamMark → Prop
  | none, log => log = []
  | some (_, h'), log =>
      h' = h ∧ log = [] ∨ h'.phase = .finished ∧ OpeningLog h.endpoint.resourceKey log

theorem logs_finishIterator {ended : Streaming Json Decision (NativeStreamHandle Decision)}
    {ends : List StreamMark → Prop} (first : StreamLogs asEventStream (fun _ log => ends log) ended) :
    StreamLogs asEventStream (fun h' log => h'.phase = .finished ∧ ends log)
      (finishIterator ended) := by
  refine first.seq fun h log held => streamLogs_ask fun _ => streamLogs_pure ⟨rfl, ?_⟩
  rwa [← List.append_nil log] at held

/-- An iterator that ends gives its client nothing more. -/
theorem logs_ended {ended : Streaming Json Decision (NativeStreamHandle Decision)}
    (first : StreamLogs asEventStream (fun _ log => OpeningLog h.endpoint.resourceKey log) ended) :
    StreamLogs asEventStream h.Resumes
      (do return some (none, ← finishIterator ended) : Streaming Json Decision _) := by
  refine (logs_finishIterator first).seq fun h' log held => streamLogs_pure ?_
  rw [List.append_nil]
  exact .inr held

theorem logs_resume (open_ : h.Open) (fuel : Nat) :
    StreamLogs asEventStream h.Resumes (h.resume executor fuel : Streaming Json Decision _) := by
  induction fuel with
  | zero => exact streamLogs_pure rfl
  | succ fuel ih =>
      refine streamLogs_ask fun answer => ?_
      change ChunkAnswer at answer
      rcases answer with (_ | ⟨byte, bytes⟩) | _ | error
      · exact ih
      · exact streamLogs_pure (.inl ⟨rfl, rfl⟩)
      · exact logs_ended ((logs_finishSuccess executor open_).imp fun _ _ same => same ▸ .once)
      · exact logs_ended (logs_finishFailure executor open_ error)

end NativeStreamHandle

section Serve

variable {h : NativeStreamHandle Decision}

/-- The client is in control. -/
theorem streamLogs_handBack {yielded : Option (List UInt8)} {post : Unit → List StreamMark → Prop}
    (holds : post () [.event (if h.phase = .finished ∨ h.cancelled then .due else .held)]) :
    StreamLogs asEventStream post
      (Streaming.ask (.handBack yielded h.phase h.cancelled) : Streaming Json Decision _) :=
  Prog.logs_ask fun _ => Prog.logs_ret holds

theorem streamLogs_handedBack {yielded : Option (List UInt8)} {β : Type}
    {post : β → List StreamMark → Prop} {f : Unit → Streaming Json Decision β}
    (rest : StreamLogs asEventStream
      (fun b log => post b
        (.event (if h.phase = .finished ∨ h.cancelled then .due else .held) :: log)) (f ())) :
    StreamLogs asEventStream post
      (Streaming.ask (.handBack yielded h.phase h.cancelled) >>= f) :=
  Prog.logs_ask fun _ => rest

theorem streamLogs_action {phase : IteratorPhase} {β : Type} {post : β → List StreamMark → Prop}
    {f : ClientAction → Streaming Json Decision β}
    (keeps : ∀ action, action.strands phase = false → StreamLogs asEventStream post (f action))
    (strands : ∀ action, action.strands phase = true →
      StreamLogs asEventStream (fun b log => post b (.lapse :: log)) (f action)) :
    StreamLogs asEventStream post (Streaming.ask (.clientAction phase) >>= f) := by
  refine streamLogs_ask fun action => ?_
  change ClientAction at action
  cases stranded : action.strands phase with
  | false =>
      have unmarked : (NativeOp.clientAction phase : NativeOp Json).mark asEventStream action = none :=
        if_neg (by simp [NativeOp.lapses, stranded])
      simp only [unmarked]
      exact keeps action stranded
  | true =>
      have marked : (NativeOp.clientAction phase : NativeOp Json).mark asEventStream action =
          some .lapse := if_pos stranded
      simp only [marked]
      exact strands action stranded

/-- The client is told that the outcome is due. -/
theorem logs_serve_due (fuel steps : Nat) (yielded : Option (List UInt8))
    (ended : h.phase = .finished ∨ h.cancelled) :
    StreamLogs asEventStream (fun _ log => ∃ later, log = .event .due :: later)
      (serve executor fuel steps yielded h : Streaming Json Decision _) := by
  cases steps with
  | zero =>
      refine streamLogs_handBack ⟨[], ?_⟩
      rw [if_pos ended]
  | succ steps =>
      refine streamLogs_handedBack fun exchanges _ _ => 
        ⟨exchanges.filterMap (streamMark asEventStream), ?_⟩
      rw [if_pos ended]

/-- A finished iterator stays finished. -/
theorem logs_serve_finished (fuel steps : Nat) (yielded : Option (List UInt8))
    (finished : h.phase = .finished) :
    StreamLogs asEventStream (fun _ log => ∃ times, log = List.replicate times (.event .due))
      (serve executor fuel steps yielded h : Streaming Json Decision _) := by
  induction steps generalizing yielded h with
  | zero =>
      refine streamLogs_handBack ⟨1, ?_⟩
      rw [if_pos (.inl finished)]
      rfl
  | succ steps ih =>
      refine streamLogs_handedBack ?_
      rw [if_pos (.inl finished)]
      have more : ∀ (yielded' : Option (List UInt8)) (h' : NativeStreamHandle Decision),
          h'.phase = .finished → StreamLogs asEventStream
            (fun _ log => ∃ times, .event .due :: log = List.replicate times (.event .due))
            (serve executor fuel steps yielded' h' : Streaming Json Decision _) := by
        intro yielded' h' finished'
        refine (ih yielded' finished').imp fun _ log held => ?_
        obtain ⟨times, rfl⟩ := held
        exact ⟨times + 1, rfl⟩
      refine streamLogs_action (fun action _ => ?_) fun action strands => ?_
      · cases action with
        | next | close =>
            simp only [NativeStreamHandle.act, finished]
            exact more _ _ finished
        | cancel => exact streamLogs_ask fun _ => streamLogs_ask fun _ => more _ _ finished
      · rw [finished] at strands
        cases action <;> cases strands

/-- The log of what is left once an iterator has ended. -/
theorem HandleLog.ended {key : String} {log later : List StreamMark} (first : OpeningLog key log)
    (finished : ∃ times, later = List.replicate times (.event .due))
    (due : ∃ rest, later = .event .due :: rest) :
    HandleLog key (.event .held :: (log ++ later)) := by
  cases first with
  | once =>
      obtain ⟨times, rfl⟩ := finished
      exact .settled times
  | never =>
      obtain ⟨rest, rfl⟩ := due
      exact .stranded rest

theorem logs_serve_ended (fuel steps : Nat) (yielded : Option (List UInt8))
    (finished : h.phase = .finished) {key : String} {log : List StreamMark}
    (first : OpeningLog key log) :
    StreamLogs asEventStream (fun _ later => HandleLog key (.event .held :: (log ++ later)))
      (serve executor fuel steps yielded h : Streaming Json Decision _) := by
  intro exchanges result traces
  exact .ended first
    (logs_serve_finished executor fuel steps yielded finished exchanges result traces)
    (logs_serve_due executor fuel steps yielded (.inl finished) exchanges result traces)

/-- A client that strands its handle. -/
theorem logs_serve_stranded (fuel steps : Nat) (yielded : Option (List UInt8))
    (ended : h.phase = .finished ∨ h.cancelled) (key : String) :
    StreamLogs asEventStream (fun _ later => HandleLog key (.event .held :: .lapse :: later))
      (serve executor fuel steps yielded h : Streaming Json Decision _) := by
  refine (logs_serve_due executor fuel steps yielded ended).imp fun _ log held => ?_
  obtain ⟨later, rfl⟩ := held
  exact .stranded later

/-- The client of a resumed iterator. -/
theorem logs_serve_resumed (open_ : h.Open) (fuel steps : Nat)
    (later : ∀ yielded, StreamLogs asEventStream
      (fun _ log => HandleLog h.endpoint.resourceKey log)
      (serve executor fuel steps yielded h : Streaming Json Decision _))
    {p : Streaming Json Decision (Option (Option (List UInt8) × NativeStreamHandle Decision))}
    (resumes : StreamLogs asEventStream h.Resumes p) :
    StreamLogs asEventStream (fun _ log => HandleLog h.endpoint.resourceKey (.event .held :: log))
      (do
        match ← p with
        | none => pure ()
        | some (yielded, h) => serve executor fuel steps yielded h : Streaming Json Decision _) := by
  refine resumes.seq fun result log resumed => ?_
  rcases result with _ | ⟨yielded', h'⟩
  · obtain rfl : log = [] := resumed
    exact streamLogs_pure .unread
  · rcases resumed with ⟨rfl, rfl⟩ | ⟨finished, first⟩
    · exact (later yielded').imp fun _ _ rest => .reading rest
    · exact logs_serve_ended executor fuel steps yielded' finished first

theorem logs_serve (fuel steps : Nat) (yielded : Option (List UInt8)) (open_ : h.Open) :
    StreamLogs asEventStream (fun _ log => HandleLog h.endpoint.resourceKey log)
      (serve executor fuel steps yielded h : Streaming Json Decision _) := by
  have held : ¬(h.phase = .finished ∨ h.cancelled) := by
    rw [open_.uncancelled]
    simpa using open_.reading
  induction steps generalizing yielded h with
  | zero =>
      refine streamLogs_handBack ?_
      rw [if_neg held]
      exact .unread
  | succ steps ih =>
      refine streamLogs_handedBack ?_
      rw [if_neg held]
      refine streamLogs_action (fun action keeps => ?_) fun action strands => ?_
      · cases action with
        | next =>
            cases phase : h.phase with
            | unstarted =>
                have suspended : ({ h with phase := .suspended } : NativeStreamHandle Decision).Open :=
                  ⟨open_.unfinished, by simp, open_.uncancelled⟩
                simp only [NativeStreamHandle.act, phase]
                exact (ih _ suspended (by simp [open_.uncancelled])).imp fun _ _ rest =>
                  .reading rest
            | suspended =>
                simp only [NativeStreamHandle.act, phase]
                exact logs_serve_resumed executor open_ fuel steps
                  (fun yielded => ih yielded open_ held)
                  (NativeStreamHandle.logs_resume executor open_ fuel)
            | finished => exact absurd phase open_.reading
        | close =>
            cases phase : h.phase with
            | unstarted =>
                rw [phase] at keeps
                cases keeps
            | suspended =>
                simp only [NativeStreamHandle.act, phase]
                exact logs_serve_resumed executor open_ fuel steps
                  (fun yielded => ih yielded open_ held)
                  (NativeStreamHandle.logs_ended
                    (NativeStreamHandle.logs_finishFailure executor open_ _))
            | finished => exact absurd phase open_.reading
        | cancel => exact absurd (by simpa [ClientAction.strands] using keeps) open_.reading
      · cases action with
        | next => cases strands
        | close =>
            have unstarted : h.phase = .unstarted := by simpa [ClientAction.strands] using strands
            simp only [NativeStreamHandle.act, unstarted]
            exact logs_serve_stranded executor fuel steps _ (.inl rfl) _
        | cancel =>
            refine streamLogs_ask fun _ => streamLogs_ask fun _ => ?_
            exact logs_serve_stranded executor fuel steps _ (.inr rfl) _

end Serve

end Handle

/-! ### Up to the handle -/

section Opening

variable {asEventStream : List UInt8 → Option (List UInt8)} {α β : Type}

/-- What an opening program leaves, whatever it is answered. -/
abbrev OpeningLogs (asEventStream : List UInt8 → Option (List UInt8))
    (post : Except RaisedError α → List StreamMark → Prop) (p : Opening Json Decision α) : Prop :=
  StreamLogs asEventStream post p.run

variable {post : Except RaisedError β → List StreamMark → Prop} {f : α → Opening Json Decision β}

theorem openingLogs_pure {b : β} (holds : post (.ok b) []) :
    OpeningLogs asEventStream post (pure b : Opening Json Decision β) :=
  Prog.logs_ret holds

theorem openingLogs_throw {e : RaisedError} (holds : post (.error e) []) :
    OpeningLogs asEventStream post (throw e : Opening Json Decision β) :=
  Prog.logs_ret holds

theorem openingLogs_local (p : Local Json Decision α)
    (rest : ∀ a, OpeningLogs asEventStream post (f a)) :
    OpeningLogs asEventStream post (Opening.ofLocal p >>= f) := by
  have silent : StreamLogs asEventStream (fun _ log => log = [])
      (Streaming.ofLocal p : Streaming Json Decision α) := streamLogs_only p fun _ => rfl
  refine silent.lift fun a log empty => ?_
  subst empty
  exact rest a

theorem openingLogs_ask {op : NativeOp Json} {f : op.Answer Json → Opening Json Decision β}
    (rest : ∀ answer, OpeningLogs asEventStream
      (fun b log => post b ((op.mark asEventStream answer).toList ++ log)) (f answer)) :
    OpeningLogs asEventStream post (Opening.ask op >>= f) :=
  Prog.logs_ask rest

theorem openingLogs_raising (p : Raising Json Decision α) (raised : ∀ e, post (.error e) [])
    (rest : ∀ a, OpeningLogs asEventStream post (f a)) :
    OpeningLogs asEventStream post (Opening.ofRaising p >>= f) := by
  have silent : OpeningLogs asEventStream (fun _ log => log = [])
      (Opening.ofRaising p : Opening Json Decision α) := streamLogs_only p.run fun _ => rfl
  refine silent.raising (fun e log empty => ?_) fun a log empty => ?_
  · exact empty ▸ raised e
  · subst empty
    exact rest a

/-- A part that leaves a lapse exactly when it raises. -/
def Lapsing : Except RaisedError α → List StreamMark → Prop
  | .ok _, log => log = []
  | .error _, log => log = [.lapse]

/-- The outcome of an admitted endpoint. -/
def Settles (endpoint : Endpoint) :
    Except RaisedError (StreamPass Json Decision) → List StreamMark → Prop
  | .ok (.opened h), log => h.Open ∧ h.endpoint = endpoint ∧ log = []
  | .ok (.next _), log | .ok .exhausted, log | .error _, log =>
      OpeningLog endpoint.resourceKey log

theorem lapsing_then {endpoint : Endpoint} {p : Opening Json Decision α}
    {f : α → Opening Json Decision (StreamPass Json Decision)}
    (first : OpeningLogs asEventStream Lapsing p)
    (rest : ∀ a, OpeningLogs asEventStream (Settles endpoint) (f a)) :
    OpeningLogs asEventStream (Settles endpoint) (p >>= f) := by
  refine first.raising (fun e log lapsed => ?_) fun a log empty => ?_
  · obtain rfl : log = [.lapse] := lapsed
    exact .never
  · obtain rfl : log = [] := empty
    exact rest a

theorem lapsing_getAdapter (provider protocol : String) :
    OpeningLogs asEventStream Lapsing
      (Opening.attempt (Streaming.ask (.getAdapter provider protocol)) : Opening Json Decision _) := by
  refine Prog.logs_ask fun answer => Prog.logs_ret ?_
  change Except RaisedError Adapter at answer
  cases answer <;> rfl

theorem lapsing_openStream (adapter : Adapter) (prepared : PreparedRequest)
    (timeouts : TransportTimeouts) :
    OpeningLogs asEventStream Lapsing
      (Opening.attempt (Streaming.ask (.openStream adapter prepared timeouts)) :
        Opening Json Decision _) := by
  refine Prog.logs_ask fun answer => Prog.logs_ret ?_
  change Except RaisedError ProviderStreamResult at answer
  cases answer <;> rfl

theorem lapsing_discardStream (stream : ByteStream) :
    OpeningLogs asEventStream Lapsing
      (Opening.attempt (Streaming.ask (.discardStream stream)) : Opening Json Decision _) := by
  refine Prog.logs_ask fun answer => Prog.logs_ret ?_
  change Except RaisedError Unit at answer
  cases answer <;> rfl

theorem lapsing_firstBytes (stream : ByteStream) :
    OpeningLogs asEventStream Lapsing (firstBytes stream : Opening Json Decision _) := by
  refine Prog.logs_ask fun answer => ?_
  change Except RaisedError Unit at answer
  cases answer with
  | error e => exact Prog.logs_ret rfl
  | ok started =>
      refine Prog.logs_ask fun chunk => ?_
      change ChunkAnswer at chunk
      rcases chunk with (_ | ⟨byte, bytes⟩) | _ | error
      all_goals exact Prog.logs_ret rfl

theorem lapsing_transportTimeouts (deadline : Deadline) :
    OpeningLogs asEventStream Lapsing (transportTimeouts deadline : Opening Json Decision _) := by
  refine openingLogs_ask fun now => ?_
  change Seconds at now
  cases expired : deadline.isExpired now with
  | true =>
      have marked : (NativeOp.transportClock deadline : NativeOp Json).mark asEventStream now =
          some .lapse := if_pos expired
      simp only [marked]
      refine openingLogs_local _ fun _ => openingLogs_local _ fun _ => ?_
      exact openingLogs_throw rfl
  | false =>
      have unmarked : (NativeOp.transportClock deadline : NativeOp Json).mark asEventStream now =
          none := if_neg (by simp [NativeOp.lapses, expired])
      simp only [unmarked]
      refine openingLogs_local _ fun _ => ?_
      exact openingLogs_pure rfl

section Pass

variable (call : ExecuteCall Json) (s : LoopState Json) (endpoint : Endpoint)

theorem logs_failStream {attempt : AttemptRecord} (source : FailureSource) (statusCode : Nat)
    (headers : List (String × String)) :
    OpeningLogs asEventStream (Settles endpoint)
      (failStream call s endpoint attempt source statusCode headers :
        Opening Json Decision _) := by
  refine Prog.logs_ask fun answer => ?_
  change Except RaisedError FailureClassification at answer
  cases answer with
  | error e => exact Prog.logs_ret .never
  | ok classified =>
      refine openingLogs_local _ fun record => Prog.logs_ask fun _ => ?_
      refine openingLogs_local _ fun s => ?_
      split
      · exact openingLogs_throw .once
      · exact openingLogs_local _ fun s => openingLogs_pure .once

theorem logs_handleStream (decision : Decision) (attempt : AttemptRecord)
    (result : ProviderStreamResult) :
    OpeningLogs asEventStream (Settles endpoint)
      (handleStream call s endpoint decision attempt result : Opening Json Decision _) := by
  unfold handleStream
  split
  · exact logs_failStream call s endpoint _ _ _
  · refine lapsing_then (lapsing_firstBytes _) fun first => ?_
    cases first with
    | ok firstChunk =>
        refine openingLogs_local _ fun _ => ?_
        split
        · refine openingLogs_local _ fun _ => ?_
          exact openingLogs_pure ⟨⟨rfl, by simp, rfl⟩, rfl, rfl⟩
        · exact openingLogs_pure ⟨⟨rfl, by simp, rfl⟩, rfl, rfl⟩
    | error error =>
        exact lapsing_then (lapsing_discardStream _) fun _ => logs_failStream call s endpoint _ _ _

theorem logs_openStream (decision : Decision) (adapter : Adapter) (prepared : PreparedRequest)
    (wasCompacted : Bool) :
    OpeningLogs asEventStream (Settles endpoint)
      (openStream call s endpoint decision adapter prepared wasCompacted :
        Opening Json Decision _) := by
  refine openingLogs_local _ fun attemptId => openingLogs_local _ fun now => ?_
  refine openingLogs_local _ fun _ => lapsing_then (lapsing_transportTimeouts _) fun timeouts => ?_
  exact lapsing_then (lapsing_openStream _ _ _) fun result =>
    logs_handleStream call s endpoint decision _ result

end Pass

section Pass

variable [JsonCodec Json] (stream : StreamCall Json) (s : LoopState Json)

omit [JsonCodec Json] in
/-- The body of a prepared request is to become a JSON object. -/
theorem logs_asEventStream (call : ExecuteCall Json) (endpoint : Endpoint) (decision : Decision)
    (adapter : Adapter) (prepared : PreparedRequest) (wasCompacted : Bool) :
    OpeningLogs stream.asEventStream
      (fun result log => Settles endpoint result
        ((if (stream.asEventStream prepared.bodyBytes).isNone then some StreamMark.lapse
          else none).toList ++ log))
      (do
        let prepared ← Opening.attempt
          (pure (streamingPreparedRequest stream.asEventStream prepared))
        openStream call s endpoint decision adapter prepared wasCompacted :
          Opening Json Decision _) := by
  cases body : stream.asEventStream prepared.bodyBytes with
  | none =>
      simp only [streamingPreparedRequest, body]
      exact Prog.logs_ret .never
  | some bodyBytes =>
      simp only [streamingPreparedRequest, body]
      exact logs_openStream call s endpoint decision adapter _ wasCompacted

theorem logs_dispatchStream (endpoint : Endpoint) (decision : Decision) (profile : ModelProfile) :
    OpeningLogs stream.asEventStream (Settles endpoint)
      (dispatchStream stream s endpoint decision profile : Opening Json Decision _) := by
  refine Prog.logs_ask fun answer => ?_
  change Except RaisedError (NormalizedRequest Json × Bool) at answer
  rcases answer with e | ⟨compacted, wasCompacted⟩
  · cases e <;> exact Prog.logs_ret .never
  · refine lapsing_then (lapsing_getAdapter _ _) fun adapter => Prog.logs_ask fun has => ?_
    change Bool at has
    cases has with
    | false => exact Prog.logs_ret .never
    | true =>
        refine openingLogs_local _ fun ⟨keyVal, _⟩ => Prog.logs_ask fun answer => ?_
        change Except RaisedError PreparedRequest at answer
        cases answer with
        | error e => exact Prog.logs_ret .never
        | ok prepared =>
            exact logs_asEventStream stream s stream.call endpoint decision adapter prepared _

/-- A pass takes no permit, or one that it reports, keeps or hands over. -/
def PassLog : Except RaisedError (StreamPass Json Decision) → List StreamMark → Prop
  | .ok (.opened h), log => h.Open ∧ log = [.event (.admitted h.endpoint.resourceKey)]
  | .ok (.next _), log | .ok .exhausted, log | .error _, log =>
      log = [] ∨ ∃ key opening, OpeningLog key opening ∧ log = .event (.admitted key) :: opening

theorem logs_admitStream (endpoint : Endpoint) (decision : Decision) (profile : ModelProfile) :
    OpeningLogs stream.asEventStream PassLog
      (admitStream stream s endpoint decision profile : Opening Json Decision _) := by
  refine openingLogs_local _ fun policy => ?_
  split
  · exact openingLogs_pure (.inl rfl)
  · refine Prog.logs_ask fun answer => ?_
    change Except BreakerError Unit at answer
    cases answer with
    | error denied => exact Prog.logs_ret (.inl rfl)
    | ok granted =>
        refine (logs_dispatchStream stream s endpoint decision profile).imp fun result log held => ?_
        rcases result with e | next | handle | _
        · exact .inr ⟨_, log, held, rfl⟩
        · exact .inr ⟨_, log, held, rfl⟩
        · obtain ⟨open_, rfl, rfl⟩ := held
          exact ⟨open_, rfl⟩
        · exact .inr ⟨_, log, held, rfl⟩

omit [JsonCodec Json] in
/-- Waiting for rate limits opens no stream. -/
theorem logs_rollOverStream (call : ExecuteCall Json) :
    StreamLogs stream.asEventStream (fun result log => PassLog (.ok result) log)
      (Streaming.ofLocal (rollOverStream call s) : Streaming Json Decision _) := by
  have unopened : (rollOverStream call s : Local Json Decision _).Logs (fun _ => none)
      fun result log => PassLog (.ok result) log := by
    refine Prog.logs_unnoted _ fun now => ?_
    dsimp only
    split
    · refine Prog.logs_unnoted _ fun _ => Prog.logs_unnoted _ fun _ => ?_
      refine Prog.logs_unnoted _ fun _ => Prog.logs_unnoted _ fun policy => ?_
      exact Prog.logs_unnoted _ fun _ => Prog.logs_ret (.inl rfl)
    · exact Prog.logs_ret (.inl rfl)
  exact .inLeft (.inLeft unopened)

theorem logs_streamPass :
    OpeningLogs stream.asEventStream PassLog (streamPass stream s : Opening Json Decision _) := by
  refine openingLogs_raising _ (fun _ => .inl rfl) fun _ => ?_
  refine openingLogs_raising _ (fun _ => .inl rfl) fun ⟨candidate, decision⟩ => ?_
  cases candidate with
  | none =>
      exact (logs_rollOverStream stream _ stream.call).seq fun result log held =>
        Prog.logs_ret ((List.append_nil log).symm ▸ held)
  | some endpoint =>
      dsimp only
      split
      · exact openingLogs_pure (.inl rfl)
      · have supports (profile : ModelProfile) : OpeningLogs stream.asEventStream PassLog
            (if !profile.supportsStreaming then
              pure (.next (LoopState.excludeFor { s with attemptIdx := s.attemptIdx + 1 } endpoint
                .streamingNotSupported))
            else
              admitStream stream { s with attemptIdx := s.attemptIdx + 1 } endpoint decision profile
                : Opening Json Decision _) := by
          split
          · exact openingLogs_pure (.inl rfl)
          · exact logs_admitStream stream _ endpoint decision profile
        split
        · exact supports _
        · exact openingLogs_local _ fun profile => supports profile

end Pass

end Opening

/-! ## Whole sessions -/

/-- What an opened stream leaves is completed by what its client leaves. -/
def OpenedLog : StreamResult Decision → List StreamMark → Prop
  | .opened h, log =>
      h.Open ∧ ∀ handle, HandleLog h.endpoint.resourceKey handle → StreamLog (log ++ handle)
  | .raised _, log | .outOfFuel, log => StreamLog log

section Session

variable {asEventStream : List UInt8 → Option (List UInt8)}

theorem StreamLog.after_pass {log later : List StreamMark}
    (pass : log = [] ∨
      ∃ key opening, OpeningLog key opening ∧ log = .event (.admitted key) :: opening)
    (rest : StreamLog later) : StreamLog (log ++ later) := by
  rcases pass with rfl | ⟨key, opening, first, rfl⟩
  · exact rest
  · exact .failed key first rest

theorem openedLog_after_pass {result : StreamResult Decision} {log later : List StreamMark}
    (pass : log = [] ∨
      ∃ key opening, OpeningLog key opening ∧ log = .event (.admitted key) :: opening)
    (rest : OpenedLog result later) : OpenedLog result (log ++ later) := by
  cases result with
  | opened h =>
      refine ⟨rest.1, fun handle served => ?_⟩
      rw [List.append_assoc]
      exact .after_pass pass (rest.2 handle served)
  | raised | outOfFuel => exact StreamLog.after_pass pass rest

theorem logs_streamLoop [JsonCodec Json] (stream : StreamCall Json) (fuel : Nat)
    (s : LoopState Json) :
    StreamLogs stream.asEventStream OpenedLog
      (streamLoop stream fuel s : Streaming Json Decision _) := by
  induction fuel generalizing s with
  | zero => exact streamLogs_pure .nil
  | succ fuel ih =>
      refine streamLogs_local _ fun more => ?_
      cases more with
      | false => exact streamLogs_pure .nil
      | true =>
          refine (logs_streamPass stream s).seq fun result log pass => ?_
          rcases result with e | next | handle | _
          · exact streamLogs_pure (StreamLog.after_pass pass .nil)
          · exact (ih next).imp fun _ _ rest => openedLog_after_pass pass rest
          · obtain ⟨open_, rfl⟩ := pass
            exact streamLogs_pure ⟨open_, fun _ served => .opened _ served⟩
          · exact streamLogs_pure (StreamLog.after_pass pass .nil)

theorem logs_openNativeStream [JsonCodec Json] (executor : GatewayExecutor Json)
    (args : StreamRequest Json) (fuel : Nat) :
    StreamLogs asEventStream OpenedLog
      (openNativeStream executor args asEventStream fuel : Streaming Json Decision _) := by
  unfold openNativeStream
  split
  · exact streamLogs_pure .nil
  · exact streamLogs_local _ fun start =>
      logs_streamLoop (args.call executor asEventStream start) fuel _

theorem logs_streamSession [JsonCodec Json] (executor : GatewayExecutor Json)
    (args : StreamRequest Json) (fuel steps : Nat) :
    StreamLogs asEventStream (fun _ log => StreamLog log)
      (streamSession executor args asEventStream fuel steps : Streaming Json Decision _) := by
  refine (logs_openNativeStream executor args fuel).seq fun result log opened => ?_
  cases result with
  | opened h =>
      exact (logs_serve executor fuel steps none opened.1).imp fun _ _ served => opened.2 _ served
  | raised | outOfFuel => exact streamLogs_pure ((List.append_nil log).symm ▸ opened)

end Session

/-- In every session of `open_native_stream` and its client, the permits taken
    are each reported once, in time, exactly when nothing in it lapses. -/
theorem stream_permits_paired_iff [JsonCodec Json] {σ : Type}
    (handle : Prog.Handler (streamSig Json Decision) σ) (executor : GatewayExecutor Json)
    (args : StreamRequest Json) (asEventStream : List UInt8 → Option (List UInt8))
    (fuel steps : Nat) (start : σ) :
    StreamPaired
        (((streamSession executor args asEventStream fuel steps).transcript handle start).filterMap
          streamEvent) ↔
      ∀ exchange ∈ (streamSession executor args asEventStream fuel steps).transcript handle start,
        StreamLapse asEventStream exchange = false := by
  have log : StreamLog
      (((streamSession executor args asEventStream fuel steps).transcript handle start).filterMap
        (streamMark asEventStream)) :=
    logs_streamSession executor args fuel steps _ _ (Prog.traces_exec handle _ start)
  have events :
      ((streamSession executor args asEventStream fuel steps).transcript handle start).filterMap
          streamEvent =
        (((streamSession executor args asEventStream fuel steps).transcript handle start).filterMap
          (streamMark asEventStream)).filterMap StreamMark.event? := by
    rw [List.filterMap_filterMap]
    simp only [streamEvent_of_mark]
  rw [events, log.paired_iff]
  simp only [List.mem_filterMap, ← streamLapse_iff_mark, not_exists, not_and, Bool.not_eq_true]

/-! ### A client that cancels before it reads -/

section Sample

/-- An adapter that opens one stream of one chunk, and a client that cancels. -/
def sampleNative :
    (op : NativeOp OkObject) → SampleWorld → op.Answer OkObject × SampleWorld
  | .compact request _, w => (Except.ok (request, false), w)
  | .getAdapter _ _, w => (Except.ok ⟨"groq"⟩, w)
  | .hasOpenStream _, w => (true, w)
  | .prepareRequest _ _ _ _, w => (Except.ok ⟨"https://api.groq.com", [], [], "POST"⟩, w)
  | .transportClock _, w => ((0 : Seconds), w)
  | .openStream _ _ _, w =>
      (Except.ok ({ statusCode := 200, stream := some ⟨"stream-1"⟩ } : ProviderStreamResult), w)
  | .iterBytes _, w | .discardStream _, w | .closeStream _, w => (Except.ok (), w)
  | .nextChunk _, w => (ChunkAnswer.chunk [0x64], w)
  | .cancelRequest _ _, w | .handBack _ _ _, w => ((), w)
  | .clientAction _, w => (ClientAction.cancel, w)

def sampleStreamHandle : Prog.Handler (streamSig OkObject Unit) SampleWorld
  | .inl op, w => sampleHandle op w
  | .inr op, w => sampleNative op w

def sampleSession : Streaming OkObject Unit Unit :=
  streamSession { computePrefixHash := fun _ => "" }
    { request := { requestId := "request-1" }, apiKeys := sampleKeys } some 1 1

/-- A probe of a half-open breaker opens a stream, and its client disconnects
    before it reads: nothing is reported, and the permit stays in flight. -/
theorem cancelled_stream_keeps_permit :
    ¬ StreamPaired
        ((sampleSession.transcript sampleStreamHandle sampleStart).filterMap streamEvent) ∧
      (sampleSession.exec sampleStreamHandle sampleStart).2.breaker.halfOpenInFlight = 1 := by
  have events :
      (sampleSession.transcript sampleStreamHandle sampleStart).filterMap streamEvent =
        [.admitted "groq:default:llama:default", .held, .due] := by
    decide +kernel
  refine ⟨?_, by decide +kernel⟩
  rw [events]
  intro paired
  cases paired with
  | opened _ handed =>
      cases handed with
      | reading rest => cases rest

end Sample

end DuraLLM
