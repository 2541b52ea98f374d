import DuraLLM.Mcp.Reexecution
import DuraLLM.Storage.OneOperation

/-! # Concurrent requests for one operation

Any number of `tools/call` requests that carry the same operation, interleaved
between any two of their steps.  A ledger method is one step, and so is a run of
the handler.  A request is always in one of a dozen phases, by what it does
next.
-/

namespace DuraLLM

/-- Requests for `o` may start at any time. -/
def mcpMachine (proxy : McpProxy) (sha256 : String → String) {Ledger : Type}
    (backend : LedgerBackend Ledger) (world : ProxyWorld) (o : ToolOperation JsonValue) :
    Machine proxySignature (ProxyState Ledger) McpRequest Empty McpResponse where
  program request := proxy.handleToolsCall sha256 request
  admits _ request := proxy.target sha256 request = some o
  handle _ := ProxyState.handle backend world
  outside event := event.elim
  kills event := event.elim

/-! ## Phases -/

/-- What a request does next. -/
inductive Phase where
  | arriving (toolCallId : String → String)
  | screening (toolCallId : String)
  | checking (toolCallId : String)
  | replaying (toolCallId : String) (receipt : JsonValue)
  | registering (toolCallId : String)
  | validating (toolCallId : String)
  | submitting (toolCallId : String)
  | invoking (toolCallId : String)
  | stamping (toolCallId output : String)
  | committing (toolCallId output : String) (receipt : JsonValue)
  | failing (toolCallId errorMessage : String)
  | answered (response : McpResponse)

namespace Phase

variable (proxy : McpProxy) (o : ToolOperation JsonValue)

/-- What is left of the request. -/
def program : Phase → Prog proxySignature McpResponse
  | .arriving toolCallId => do
      let milliseconds : String ← McpProxy.ask .milliseconds
      proxy.callTool (toolCallId milliseconds) o
  | .screening id => proxy.callTool id o
  | .checking id => do
      proxy.replayOrExecute id o (← McpProxy.ask (.ledger (.checkIdempotency o)))
  | .replaying id receipt => proxy.replayOrExecute id o (true, some receipt)
  | .registering id => proxy.firstExecution id o
  | .validating id => McpProxy.submitThen id (McpProxy.runHandler id o)
  | .submitting id => do
      McpProxy.unlessRaised (← McpProxy.ask (.ledger (.markSubmitted id)))
        (McpProxy.runHandler id o)
  | .invoking id => McpProxy.runHandler id o
  | .stamping id output => McpProxy.commitOutput id output
  | .committing id output receipt => McpProxy.commitReceipt id output receipt
  | .failing id message => McpProxy.fail id message
  | .answered response => return response

/-- One operation takes a request from one phase to the next. -/
inductive Step : Phase → (op : ProxyOp) → op.Answer → Phase → Prop where
  | arrived {toolCallId : String → String} (milliseconds : String) :
      Step (.arriving toolCallId) .milliseconds milliseconds (.screening (toolCallId milliseconds))
  | blocked {id : String} {response : McpResponse} :
      Step (.screening id) (.ledger (.hasIndeterminateOperation o)) true (.answered response)
  | passed {id : String} :
      Step (.screening id) (.ledger (.hasIndeterminateOperation o)) false (.checking id)
  | found {id : String} (receipt : JsonValue) :
      Step (.checking id) (.ledger (.checkIdempotency o)) (true, some receipt)
        (.replaying id receipt)
  | unanswered {id : String} {answer : Bool × Option JsonValue}
      (none : ∀ receipt, answer ≠ (true, some receipt)) :
      Step (.checking id) (.ledger (.checkIdempotency o)) answer (.registering id)
  | replayed {id : String} {receipt : JsonValue} {answer : Except LedgerError Unit}
      {response : McpResponse} :
      Step (.replaying id receipt) (.ledger (.markReplayed id receipt)) answer (.answered response)
  | registered {id : String} :
      Step (.registering id) (.ledger (.registerToolCall id o)) (.ok ()) (.validating id)
  | notRegistered {id : String} (e : LedgerError) :
      Step (.registering id) (.ledger (.registerToolCall id o)) (.error e) (.answered (.raised e))
  | validated {id : String} :
      Step (.validating id) (.ledger (.markValidated id)) (.ok ()) (.submitting id)
  | notValidated {id : String} (e : LedgerError) :
      Step (.validating id) (.ledger (.markValidated id)) (.error e) (.answered (.raised e))
  | submitted {id : String} :
      Step (.submitting id) (.ledger (.markSubmitted id)) (.ok ()) (.invoking id)
  | notSubmitted {id : String} (e : LedgerError) :
      Step (.submitting id) (.ledger (.markSubmitted id)) (.error e) (.answered (.raised e))
  | returned {id output : String} {value : PyValue} (text : value.output = .ok output) :
      Step (.invoking id) (.invoke o) (.returned value) (.stamping id output)
  | lost {id message : String} {outcome : HandlerOutcome}
      (without : ∀ value output, outcome = .returned value → value.output ≠ .ok output) :
      Step (.invoking id) (.invoke o) outcome (.failing id message)
  | stamped {id output : String} (timestamp : JsonScalar) :
      Step (.stamping id output) .timestamp timestamp
        (.committing id output (committedReceipt output timestamp))
  | committed {id output : String} {receipt : JsonValue} {response : McpResponse} :
      Step (.committing id output receipt) (.ledger (.markCommitted id receipt)) (.ok ())
        (.answered response)
  | notCommitted {id output : String} {receipt : JsonValue} (e : LedgerError) :
      Step (.committing id output receipt) (.ledger (.markCommitted id receipt)) (.error e)
        (.failing id e.text)
  | failed {id message : String} {answer : Except LedgerError Unit} {response : McpResponse} :
      Step (.failing id message) (.ledger (.markFailed id message)) answer (.answered response)

variable {proxy o}

/-- A request stays in phase. -/
theorem program_next (handled : proxy.handles o.toolName) (phase : Phase) {op : ProxyOp}
    {next : op.Answer → Prog proxySignature McpResponse}
    (asks : phase.program proxy o = .ask op next) (answer : op.Answer) :
    ∃ phase', next answer = phase'.program proxy o ∧ Step o phase op answer phase' := by
  cases phase with
  | arriving toolCallId =>
      cases asks
      exact ⟨_, rfl, .arrived answer⟩
  | screening id =>
      cases asks
      cases answer with
      | true => exact ⟨.answered _, rfl, .blocked⟩
      | false => exact ⟨.checking id, rfl, .passed⟩
  | checking id =>
      cases asks
      rcases answer with ⟨_ | _, _ | receipt⟩
      · exact ⟨.registering id, rfl, .unanswered (by simp)⟩
      · exact ⟨.registering id, rfl, .unanswered (by simp)⟩
      · exact ⟨.registering id, rfl, .unanswered (by simp)⟩
      · exact ⟨.replaying id receipt, rfl, .found receipt⟩
  | replaying id receipt =>
      cases asks
      rcases answer with e | done
      · exact ⟨.answered _, rfl, .replayed⟩
      · exact ⟨.answered _, rfl, .replayed⟩
  | registering id =>
      simp only [program, McpProxy.firstExecution, handled, if_true] at asks
      cases asks
      rcases answer with e | done
      · exact ⟨.answered _, rfl, .notRegistered e⟩
      · exact ⟨.validating id, rfl, .registered⟩
  | validating id =>
      cases asks
      rcases answer with e | done
      · exact ⟨.answered _, rfl, .notValidated e⟩
      · exact ⟨.submitting id, rfl, .validated⟩
  | submitting id =>
      cases asks
      rcases answer with e | done
      · exact ⟨.answered _, rfl, .notSubmitted e⟩
      · exact ⟨.invoking id, rfl, .submitted⟩
  | invoking id =>
      cases asks
      rcases answer with ⟨text | v | typeError⟩ | message
      · exact ⟨.stamping id text, rfl, .returned rfl⟩
      · exact ⟨.stamping id _, rfl, .returned rfl⟩
      · refine ⟨.failing id typeError, rfl, .lost ?_⟩
        intro value output same
        cases same
        intro impossible; cases impossible
      · exact ⟨.failing id message, rfl, .lost (by simp)⟩
  | stamping id output =>
      cases asks
      exact ⟨.committing id output (committedReceipt output answer), rfl, .stamped answer⟩
  | committing id output receipt =>
      cases asks
      rcases answer with e | done
      · exact ⟨.failing id e.text, rfl, .notCommitted e⟩
      · exact ⟨.answered _, rfl, .committed⟩
  | failing id message =>
      cases asks
      rcases answer with e | done
      · exact ⟨.answered _, rfl, .failed⟩
      · exact ⟨.answered _, rfl, .failed⟩
  | answered response => cases asks

/-- A request that is admitted starts in one of the first two phases. -/
theorem program_start {sha256 : String → String} {request : McpRequest}
    (target : proxy.target sha256 request = some o) :
    ∃ phase : Phase, proxy.handleToolsCall sha256 request = phase.program proxy o ∧
      ((∃ id, phase = .arriving id) ∨ ∃ id, phase = .screening id) := by
  unfold McpProxy.target at target
  unfold McpProxy.handleToolsCall
  cases name : request.name.filter (· ≠ "") with
  | none =>
      simp only [name] at target
      cases target
  | some toolName =>
      simp only [name] at target ⊢
      cases verdict : proxy.validated toolName request.arguments with
      | error errorMessage =>
          simp only [verdict] at target
          cases target
      | ok arguments =>
          simp only [verdict, Option.some.injEq] at target ⊢
          subst target
          split
          · exact ⟨.screening _, rfl, .inr ⟨_, rfl⟩⟩
          · exact ⟨.screening _, rfl, .inr ⟨_, rfl⟩⟩
          · exact ⟨.arriving _, rfl, .inl ⟨_, rfl⟩⟩

end Phase

/-! ## A pool in phases -/

section Pools

variable {proxy : McpProxy} {sha256 : String → String} {Ledger : Type}
  {backend : LedgerBackend Ledger} {world : ProxyWorld} {o : ToolOperation JsonValue}

abbrev RequestPool (Ledger : Type) :=
  Pool proxySignature (ProxyState Ledger) McpRequest McpResponse

/-- The phases of the requests, in the order in which they came. -/
def RequestPool.InPhases (proxy : McpProxy) (o : ToolOperation JsonValue)
    (pool : RequestPool Ledger) (phases : List Phase) : Prop :=
  pool.threads.map (·.rest) = phases.map fun phase => some (phase.program proxy o)

/-- What a move does to the state and to the phases. -/
inductive RequestPool.Evolves (backend : LedgerBackend Ledger) (world : ProxyWorld)
    (o : ToolOperation JsonValue) (pool : RequestPool Ledger) (phases : List Phase)
    (move : Move McpRequest Empty) : ProxyState Ledger → List Phase → Prop where
  | idle : Evolves backend world o pool phases move pool.state phases
  | started {phase : Phase}
      (first : (∃ id, phase = .arriving id) ∨ ∃ id, phase = .screening id) :
      Evolves backend world o pool phases move pool.state (phases ++ [phase])
  | performed {index : Nat} {phase phase' : Phase} {op : ProxyOp}
      (located : phases[index]? = some phase) (performs : pool.performs move = some (index, op))
      (step : Phase.Step o phase op (ProxyState.handle backend world op pool.state).1 phase') :
      Evolves backend world o pool phases move (ProxyState.handle backend world op pool.state).2
        (phases.set index phase')

theorem RequestPool.InPhases.step (handled : proxy.handles o.toolName) {pool : RequestPool Ledger}
    {phases : List Phase} (inPhases : InPhases proxy o pool phases)
    (move : Move McpRequest Empty) :
    ∃ phases', InPhases proxy o (pool.step (mcpMachine proxy sha256 backend world o) move) phases' ∧
      Evolves backend world o pool phases move
        (pool.step (mcpMachine proxy sha256 backend world o) move).state phases' := by
  cases move with
  | spawn request =>
      simp only [Pool.step, mcpMachine]
      by_cases admitted : proxy.target sha256 request = some o
      · obtain ⟨phase, starts, first⟩ := Phase.program_start admitted
        simp only [admitted, decide_true, if_true]
        refine ⟨phases ++ [phase], ?_, .started first⟩
        simp only [InPhases, List.map_append, List.map_cons, List.map_nil, starts]
        rw [show _ = _ from inPhases]
      · simp only [admitted, decide_false, Bool.false_eq_true, if_false]
        exact ⟨phases, inPhases, .idle⟩
  | run index =>
      simp only [Pool.step]
      split
      · next label op next running =>
        have there : (pool.threads.map (·.rest))[index]? = some (some (.ask op next)) := by
          simp [running]
        rw [show _ = _ from inPhases, List.getElem?_map] at there
        obtain ⟨phase, located, asks⟩ := Option.map_eq_some_iff.mp there
        obtain ⟨phase', continues, step⟩ := Phase.program_next handled phase (Option.some.inj asks)
          (ProxyState.handle backend world op pool.state).1
        refine ⟨phases.set index phase', ?_, .performed located ?_ step⟩
        · simp only [InPhases, List.map_set, ← continues]
          rw [show _ = _ from inPhases]
          rfl
        · simp only [Pool.performs, running]
      · exact ⟨phases, inPhases, .idle⟩
  | outside event => exact event.elim

/-- What every move keeps, in terms of the phases, holds after every
    interleaving. -/
theorem RequestPool.run_keeps (handled : proxy.handles o.toolName)
    {I : ProxyState Ledger → List Phase → Prop} {P : RequestPool Ledger → Nat → ProxyOp → Prop}
    (keeps : ∀ (pool : RequestPool Ledger) phases move state phases',
      InPhases proxy o pool phases → I pool.state phases →
      (∀ next ∈ pool.performs move, P pool next.1 next.2) →
      Evolves backend world o pool phases move state phases' → I state phases')
    {s : ProxyState Ledger} (start : I s []) (moves : List (Move McpRequest Empty))
    (along : Pool.Along (mcpMachine proxy sha256 backend world o) P ⟨s, []⟩ moves) :
    ∃ phases, I (Pool.run (mcpMachine proxy sha256 backend world o) ⟨s, []⟩ moves).state
      phases := by
  have invariant : ∃ phases,
      InPhases proxy o (Pool.run (mcpMachine proxy sha256 backend world o) ⟨s, []⟩ moves) phases ∧
      I (Pool.run (mcpMachine proxy sha256 backend world o) ⟨s, []⟩ moves).state phases := by
    have empty : ∃ phases, InPhases proxy o (⟨s, []⟩ : RequestPool Ledger) phases ∧ I s phases :=
      ⟨[], rfl, start⟩
    refine Pool.run_keeps (I := fun pool => ∃ phases, InPhases proxy o pool phases ∧
      I pool.state phases) ?_ empty moves along
    rintro pool move ⟨phases, inPhases, holds⟩ allowed
    obtain ⟨phases', after, evolves⟩ := inPhases.step handled move
    exact ⟨phases', after, keeps pool phases move _ phases' inPhases holds allowed evolves⟩
  obtain ⟨phases, _, holds⟩ := invariant
  exact ⟨phases, holds⟩

/-- One request changes its phase. -/
theorem countP_set_phase {phases : List Phase} {index : Nat} {phase : Phase} (p : Phase → Bool)
    (located : phases[index]? = some phase) (phase' : Phase) :
    (phases.set index phase').countP p + (p phase).toNat = phases.countP p + (p phase').toNat := by
  obtain ⟨inside, here⟩ := List.getElem?_eq_some_iff.mp located
  have some_counted : p phase → 0 < phases.countP p := fun holds =>
    List.countP_pos_iff.mpr ⟨phase, List.mem_of_getElem? located, holds⟩
  rw [List.countP_set inside, here]
  cases before : p phase <;> cases after : p phase' <;> simp_all

end Pools

/-! ## Durably -/

def Phase.isInvoking : Phase → Bool
  | .invoking _ => true
  | _ => false

section Durably

variable {Payload : Type} {proxy : McpProxy} {sha256 : String → String} {world : ProxyWorld}
  {o : ToolOperation JsonValue} {s : ProxyState (LedgerSystem JsonValue Payload)}

/-- Whoever got its submission through runs the handler or has run it. Only one
    request can, because the submission moves the one row. -/
structure SubmittedOnce (sha256 : String → String) (o : ToolOperation JsonValue)
    (s : ProxyState (LedgerSystem JsonValue Payload)) (phases : List Phase) : Prop where
  sole : s.ledger.Sole sha256 o
  once : phases.countP Phase.isInvoking + s.invocations.length = 0 ∨
    (phases.countP Phase.isInvoking + s.invocations.length = 1 ∧ s.ledger.Past (o.key sha256))

/-- A step that is neither a submission nor an invocation. -/
theorem SubmittedOnce.keep {t : ProxyState (LedgerSystem JsonValue Payload)} {phases : List Phase}
    {index : Nat} {phase phase' : Phase} (before : SubmittedOnce sha256 o s phases)
    (located : phases[index]? = some phase) (idle : phase.isInvoking = false)
    (idle' : phase'.isInvoking = false) (sole : t.ledger.Sole sha256 o)
    (past : s.ledger.Past (o.key sha256) → t.ledger.Past (o.key sha256))
    (log : t.invocations = s.invocations) : SubmittedOnce sha256 o t (phases.set index phase') := by
  have count := countP_set_phase Phase.isInvoking located phase'
  rw [idle, idle'] at count
  refine ⟨sole, ?_⟩
  rw [log]
  rcases before.once with zero | ⟨one, advanced⟩
  · exact .inl (by simp_all)
  · exact .inr ⟨by simp_all, past advanced⟩

theorem LedgerSystem.Sole.at_reads {system : LedgerSystem JsonValue Payload}
    (sole : system.Sole sha256 o) (reads : LedgerReads) : { system with reads }.Sole sha256 o :=
  ⟨sole.calls, sole.records, sole.rows⟩

/-- The handler runs. -/
theorem SubmittedOnce.invoked {phases : List Phase} {index : Nat} {id : String}
    (before : SubmittedOnce sha256 o s phases) (located : phases[index]? = some (.invoking id))
    (phase' : Phase) (idle : phase'.isInvoking = false) :
    SubmittedOnce sha256 o (McpProxy.durably sha256 world (.invoke o) s).2
      (phases.set index phase') := by
  have count := countP_set_phase Phase.isInvoking located phase'
  rw [idle] at count
  simp only [Phase.isInvoking, Bool.toNat_true, Bool.toNat_false] at count
  refine ⟨before.sole, ?_⟩
  simp only [ProxyState.handle, List.length_cons]
  rcases before.once with zero | ⟨one, past⟩
  · omega
  · exact .inr ⟨by omega, past⟩

theorem SubmittedOnce.performed {phases : List Phase} {index : Nat} {phase phase' : Phase}
    {op : ProxyOp} (before : SubmittedOnce sha256 o s phases)
    (located : phases[index]? = some phase)
    (step : Phase.Step o phase op (McpProxy.durably sha256 world op s).1 phase') :
    SubmittedOnce sha256 o (McpProxy.durably sha256 world op s).2 (phases.set index phase') := by
  generalize answered : (McpProxy.durably sha256 world op s).1 = answer at step
  have sole := before.sole.at_reads (world.reads s.operations)
  have stays : ∀ call : DurableCall JsonValue, s.ledger.Past (o.key sha256) →
      (LedgerSystem.call sha256 { s.ledger with reads := world.reads s.operations } 0 call).2.Past
        (o.key sha256) := by
    intro call past
    exact LedgerSystem.Past.call (s := { s.ledger with reads := world.reads s.operations }) past 0
      call
  cases step with
  | arrived | stamped => exact before.keep located rfl rfl before.sole id rfl
  | blocked | passed =>
      refine before.keep located rfl rfl ?_ (stays _) rfl
      exact sole
  | found | unanswered =>
      refine before.keep located rfl rfl ?_ (stays _) rfl
      simp only [ProxyState.handle, durableBackend, LedgerMethod.durable,
        LedgerSystem.call_checkIdempotency]
      exact sole
  | replayed => exact before.keep located rfl rfl (sole.mark (.replayed _ _) _ (by simp)) (stays _) rfl
  | registered | notRegistered =>
      exact before.keep located rfl rfl (sole.register _) (stays _) rfl
  | validated | notValidated =>
      exact before.keep located rfl rfl (sole.validated _) (stays _) rfl
  | notSubmitted => exact before.keep located rfl rfl (sole.submitted _) (stays _) rfl
  | committed | notCommitted =>
      exact before.keep located rfl rfl (sole.committed _ _) (stays _) rfl
  | failed => exact before.keep located rfl rfl (sole.failed _ _) (stays _) rfl
  | @submitted id =>
      have count := countP_set_phase Phase.isInvoking located (.invoking id)
      simp only [Phase.isInvoking, Bool.toNat_false, Bool.toNat_true] at count
      refine ⟨sole.submitted id, .inr ?_⟩
      simp only [ProxyState.handle, durableBackend, LedgerMethod.durable, LedgerMethod.read,
        LedgerSystem.call_submitted] at answered ⊢
      generalize verdict : s.ledger.db.markOperationSubmitted (world.reads s.operations).now id
        (s.ledger.instances 0).ownerId (s.ledger.instances 0).leaseTtlSeconds = result at answered ⊢
      cases result with
      | error e => cases answered
      | ok granted =>
          obtain ⟨early, late⟩ := LedgerSystem.Past.submitted sole.calls verdict
          rcases before.once with zero | ⟨_, past⟩
          · exact ⟨by omega, late⟩
          · exact absurd past early
  | @returned id output value text =>
      exact before.invoked located (.stamping id output) rfl
  | @lost id message outcome without =>
      exact before.invoked located (.failing id message) rfl

theorem SubmittedOnce.evolves {pool : RequestPool (LedgerSystem JsonValue Payload)}
    {phases phases' : List Phase} {move : Move McpRequest Empty}
    {state : ProxyState (LedgerSystem JsonValue Payload)}
    (before : SubmittedOnce sha256 o pool.state phases)
    (evolves : pool.Evolves (durableBackend sha256) world o phases move state phases') :
    SubmittedOnce sha256 o state phases' := by
  cases evolves with
  | idle => exact before
  | started first =>
      refine ⟨before.sole, ?_⟩
      rw [List.countP_append]
      rcases first with ⟨id, rfl⟩ | ⟨id, rfl⟩
      · exact before.once
      · exact before.once
  | performed located _ step => exact before.performed located step

/-- Every interleaving invokes the handler once at most. -/
theorem SubmittedOnce.run (handled : proxy.handles o.toolName) (ownerId : String)
    (leaseTtlSeconds : Seconds) (moves : List (Move McpRequest Empty)) :
    (Pool.run (mcpMachine proxy sha256 (durableBackend sha256) world o)
      ⟨.startDurable Payload ownerId leaseTtlSeconds, []⟩ moves).state.invocations.length ≤ 1 := by
  have start : SubmittedOnce sha256 o (.startDurable Payload ownerId leaseTtlSeconds) [] :=
    ⟨⟨fun _ _ found => (by cases found), fun _ _ found => (by cases found),
      fun _ found => (by cases found)⟩, .inl rfl⟩
  have invariant : ∃ phases, SubmittedOnce sha256 o
      (Pool.run (mcpMachine proxy sha256 (durableBackend sha256) world o)
        ⟨.startDurable Payload ownerId leaseTtlSeconds, []⟩ moves).state phases :=
    RequestPool.run_keeps handled (fun _ _ _ _ _ _ before _ evolves => before.evolves evolves)
      start moves (Pool.along_true _ moves)
  obtain ⟨phases, once⟩ := invariant
  rcases once.once with zero | ⟨one, _⟩
  · omega
  · omega

end Durably

/-! ## In process -/

/-- The stretch from an unanswered receipt check to the commit. -/
def ProxyOp.inWindow : ProxyOp → Bool
  | .ledger (.registerToolCall ..) | .ledger (.markValidated _) | .ledger (.markSubmitted _)
  | .ledger (.markCommitted ..) | .invoke _ | .timestamp => true
  | _ => false

/-- No request makes its receipt check while another one is between its own and
    its commit, nothing is evicted and nothing has expired. -/
def RequestPool.Exclusive (sha256 : String → String) (world : ProxyWorld)
    (pool : RequestPool (ToolExecutionLedger JsonValue)) (_ : Nat) (op : ProxyOp) : Prop :=
  op.Keeps sha256 world pool.state ∧
    match op with
    | .ledger (.checkIdempotency _) =>
        ∀ t ∈ pool.threads, t.nextOp.any ProxyOp.inWindow = false
    | _ => True

instance RequestPool.decidableExclusive (sha256 : String → String) (world : ProxyWorld)
    (pool : RequestPool (ToolExecutionLedger JsonValue)) (index : Nat) :
    (op : ProxyOp) → Decidable (pool.Exclusive sha256 world index op)
  | .ledger (.checkIdempotency _) => inferInstanceAs (Decidable (_ ∧ ∀ t ∈ pool.threads, _))
  | .ledger (.registerToolCall ..) | .ledger (.markCommitted ..)
  | .ledger (.hasIndeterminateOperation _) | .ledger (.markReplayed ..)
  | .ledger (.markValidated _) | .ledger (.markSubmitted _) | .ledger (.markFailed ..)
  | .invoke _ | .timestamp | .milliseconds => inferInstanceAs (Decidable (_ ∧ True))

namespace Phase

/-- Before the handler runs. -/
def isBefore : Phase → Bool
  | .registering _ | .validating _ | .submitting _ | .invoking _ => true
  | _ => false

def isInside : Phase → Bool
  | .registering _ | .validating _ | .submitting _ | .invoking _ | .stamping .. | .committing .. =>
      true
  | _ => false

/-- The call id, once it is registered and until it is committed. -/
def registeredId : Phase → Option String
  | .validating id | .submitting id | .invoking id | .stamping id _ | .committing id _ _ => some id
  | _ => none

end Phase

section InProcess

variable {proxy : McpProxy} {sha256 : String → String} {world : ProxyWorld}
  {o : ToolOperation JsonValue} {s t : ProxyState (ToolExecutionLedger JsonValue)}
  {phases : List Phase} {index : Nat} {phase phase' : Phase}

/-- Who passed the receipt check runs the handler, and until its commit nobody
    else passes. -/
structure ExecutedOnce (sha256 : String → String) (o : ToolOperation JsonValue)
    (s : ProxyState (ToolExecutionLedger JsonValue)) (phases : List Phase) : Prop where
  records : ∀ id r, s.ledger.recordsByCallId.get id = some r → r.slot = o.slot sha256
  mine : ∀ phase ∈ phases, ∀ id ∈ phase.registeredId,
    (s.ledger.recordsByCallId.get id).isSome
  once : phases.countP Phase.isBefore + s.invocations.length ≤ 1
  clear : s.ledger.receiptsByOpHash.get (o.slot sha256) = none →
    phases.countP Phase.isInside = 0 → s.invocations.length = 0

/-- What a ledger method may do to the records. -/
structure RecordsGrow (sha256 : String → String) (o : ToolOperation JsonValue)
    (ledger next : ToolExecutionLedger JsonValue) : Prop where
  own : ∀ id r, next.recordsByCallId.get id = some r →
    (∃ old, ledger.recordsByCallId.get id = some old ∧ r.slot = old.slot) ∨ r.slot = o.slot sha256
  kept : ∀ id, (ledger.recordsByCallId.get id).isSome → (next.recordsByCallId.get id).isSome

theorem RecordsGrow.mark {ledger : ToolExecutionLedger JsonValue} (id : String)
    (f : ToolExecutionRecord JsonValue → ToolExecutionRecord JsonValue)
    (same : ∀ r : ToolExecutionRecord JsonValue, r.SameCall (f r)) :
    RecordsGrow sha256 o ledger (ledger.updateRecord id f) where
  own := by
    intro other r found
    simp only [ToolExecutionLedger.updateRecord, Dict.get_modify] at found
    split at found
    · next here =>
      subst here
      obtain ⟨old, before, rfl⟩ := Option.map_eq_some_iff.mp found
      exact .inl ⟨old, before, (same old).slot⟩
    · exact .inl ⟨r, found, rfl⟩
  kept := fun other known => (ToolExecutionLedger.updateRecord_isSome id other f).trans known

/-- The records and the call ids in use, after a step. -/
theorem ExecutedOnce.grow (before : ExecutedOnce sha256 o s phases)
    (t : ProxyState (ToolExecutionLedger JsonValue)) (index : Nat) (phase' : Phase)
    (grows : RecordsGrow sha256 o s.ledger t.ledger)
    (new : ∀ id ∈ phase'.registeredId, (t.ledger.recordsByCallId.get id).isSome) :
    (∀ id r, t.ledger.recordsByCallId.get id = some r → r.slot = o.slot sha256) ∧
      ∀ phase ∈ phases.set index phase', ∀ id ∈ phase.registeredId,
        (t.ledger.recordsByCallId.get id).isSome := by
  constructor
  · intro id r found
    obtain ⟨old, known, same⟩ | fresh := grows.own id r found
    · exact same.trans (before.records id old known)
    · exact fresh
  · intro phase member id registered
    rcases List.mem_or_eq_of_mem_set member with known | rfl
    · exact grows.kept id (before.mine phase known id registered)
    · exact new id registered

/-- A step within the window, or outside of it. -/
theorem ExecutedOnce.keep (before : ExecutedOnce sha256 o s phases)
    (located : phases[index]? = some phase)
    (sameBefore : phase'.isBefore = phase.isBefore) (sameInside : phase'.isInside = phase.isInside)
    (grows : RecordsGrow sha256 o s.ledger t.ledger)
    (new : ∀ id ∈ phase'.registeredId, (t.ledger.recordsByCallId.get id).isSome)
    (receipts : t.ledger.receiptsByOpHash = s.ledger.receiptsByOpHash)
    (log : t.invocations = s.invocations) : ExecutedOnce sha256 o t (phases.set index phase') := by
  obtain ⟨records, mine⟩ := before.grow _ index _ grows new
  have countBefore := countP_set_phase Phase.isBefore located phase'
  have countInside := countP_set_phase Phase.isInside located phase'
  rw [sameBefore] at countBefore
  rw [sameInside] at countInside
  refine ⟨records, mine, ?_, ?_⟩
  · rw [log]
    have := before.once
    omega
  · rw [receipts, log]
    intro absent outside
    exact before.clear absent (by omega)

theorem RecordsGrow.refl (ledger : ToolExecutionLedger JsonValue) :
    RecordsGrow sha256 o ledger ledger :=
  ⟨fun _ r found => .inl ⟨r, found, rfl⟩, fun _ => id⟩

theorem RecordsGrow.register {id : String}
    (keeps : ProxyOp.Keeps sha256 world (.ledger (.registerToolCall id o)) s) :
    RecordsGrow sha256 o s.ledger
        (ProxyState.inProcess sha256 world (.ledger (.registerToolCall id o)) s).2.ledger ∧
      (ProxyState.inProcess sha256 world (.ledger (.registerToolCall id o))
        s).2.ledger.receiptsByOpHash = s.ledger.receiptsByOpHash ∧
      ((ProxyState.inProcess sha256 world (.ledger (.registerToolCall id o))
        s).2.ledger.recordsByCallId.get id).isSome := by
  have own : ∀ other r, ((LedgerCall.register id o.logicalOperationId o.toolName
      o.arguments).apply sha256 s.ledger (world.reads s.operations)).recordsByCallId.get other =
        some r →
      (∃ old, s.ledger.recordsByCallId.get other = some old ∧ r.slot = old.slot) ∨
        r.slot = o.slot sha256 := by
    intro other r found
    obtain ⟨old, known, same⟩ | ⟨_, _, _, call, _, operation, tool, _, hash⟩ :=
      LedgerCall.record_of_apply found
    · exact .inl ⟨old, known, same.slot⟩
    · cases call
      refine .inr ?_
      simp only [ToolExecutionRecord.slot, ToolOperation.slot, operation, tool, hash]
  have unbounded : (ProxyState.inProcess sha256 world (.ledger (.registerToolCall id o))
      s).2.ledger = (LedgerCall.register id o.logicalOperationId o.toolName
        o.arguments).applyUnbounded sha256 s.ledger (world.reads s.operations) := keeps
  refine ⟨⟨own, ?_⟩, ?_, ?_⟩
  · intro other known
    rw [unbounded]
    exact LedgerCall.applyUnbounded_register_keeps known
  · rw [unbounded]
    exact LedgerCall.applyUnbounded_register_receipts _ _ _ _
  · rw [unbounded]
    exact LedgerCall.applyUnbounded_registered _ _ _ _

/-- A request passes the receipt check: there is no receipt, and nobody else is
    on the way to one. -/
theorem ExecutedOnce.enter {id : String} (before : ExecutedOnce sha256 o s phases)
    (located : phases[index]? = some (.checking id))
    (absent : s.ledger.receiptsByOpHash.get (o.slot sha256) = none)
    (outside : phases.countP Phase.isInside = 0) (ledger : t.ledger = s.ledger)
    (log : t.invocations = s.invocations) :
    ExecutedOnce sha256 o t (phases.set index (.registering id)) := by
  obtain ⟨records, mine⟩ := before.grow t index (.registering id)
    (ledger ▸ .refl _) fun _ same => by cases same
  have countBefore := countP_set_phase Phase.isBefore located (.registering id)
  have countInside := countP_set_phase Phase.isInside located (.registering id)
  have fewer : phases.countP Phase.isBefore ≤ phases.countP Phase.isInside := by
    apply List.countP_mono_left
    intro phase _
    cases phase <;> simp [Phase.isBefore, Phase.isInside]
  have none := before.clear absent outside
  simp only [Phase.isBefore, Phase.isInside, Bool.toNat_true, Bool.toNat_false] at countBefore countInside
  refine ⟨records, mine, ?_, ?_⟩
  · rw [log]
    omega
  · intro _ empty
    omega

/-- The handler runs and returns. -/
theorem ExecutedOnce.invoked {id output : String} (before : ExecutedOnce sha256 o s phases)
    (located : phases[index]? = some (.invoking id)) :
    ExecutedOnce sha256 o (ProxyState.inProcess sha256 world (.invoke o) s).2
      (phases.set index (.stamping id output)) := by
  have held : (s.ledger.recordsByCallId.get id).isSome :=
    before.mine _ (List.mem_of_getElem? located) id rfl
  obtain ⟨records, mine⟩ := before.grow (ProxyState.inProcess sha256 world (.invoke o) s).2
    index (.stamping id output) (.refl _) (by rintro _ ⟨⟩; exact held)
  have countBefore := countP_set_phase Phase.isBefore located (.stamping id output)
  have countInside := countP_set_phase Phase.isInside located (.stamping id output)
  simp only [Phase.isBefore, Phase.isInside, Bool.toNat_true, Bool.toNat_false] at countBefore countInside
  have := before.once
  refine ⟨records, mine, ?_, ?_⟩
  · simp only [ProxyState.handle, List.length_cons]
    omega
  · intro _ empty
    have inside : 0 < phases.countP Phase.isInside :=
      List.countP_pos_iff.mpr ⟨_, List.mem_of_getElem? located, rfl⟩
    omega

/-- The commit puts the receipt on file before the request leaves the window. -/
theorem ExecutedOnce.committed {id output : String} {receipt : JsonValue} {response : McpResponse}
    (before : ExecutedOnce sha256 o s phases)
    (located : phases[index]? = some (.committing id output receipt))
    (keeps : ProxyOp.Keeps sha256 world (.ledger (.markCommitted id receipt)) s) :
    ExecutedOnce sha256 o
      (ProxyState.inProcess sha256 world (.ledger (.markCommitted id receipt)) s).2
      (phases.set index (.answered response)) := by
  have unbounded : (ProxyState.inProcess sha256 world (.ledger (.markCommitted id receipt))
      s).2.ledger = (LedgerCall.committed id receipt).applyUnbounded sha256 s.ledger
        (world.reads s.operations) := keeps
  have grows : RecordsGrow sha256 o s.ledger
      (ProxyState.inProcess sha256 world (.ledger (.markCommitted id receipt)) s).2.ledger := by
    constructor
    · intro other r found
      obtain ⟨old, known, same⟩ | ⟨_, _, _, call, _⟩ := LedgerCall.record_of_apply
        (show ((LedgerCall.committed id receipt).apply sha256 s.ledger
          (world.reads s.operations)).recordsByCallId.get other = some r from found)
      · exact .inl ⟨old, known, same.slot⟩
      · cases call
    · intro other known
      rw [unbounded]
      exact LedgerCall.applyUnbounded_committed_keeps known
  obtain ⟨records, mine⟩ := before.grow _ index (.answered response) grows fun _ same => by cases same
  have countBefore := countP_set_phase Phase.isBefore located (.answered response)
  simp only [Phase.isBefore, Bool.toNat_false] at countBefore
  have := before.once
  refine ⟨records, mine, ?_, ?_⟩
  · simp only [ProxyState.handle]
    omega
  · intro absent
    obtain ⟨r, held⟩ := Option.isSome_iff_exists.mp
      (before.mine _ (List.mem_of_getElem? located) id rfl)
    have filed := LedgerCall.applyUnbounded_committed sha256 (world.reads s.operations) receipt held
    rw [before.records id r held, ← unbounded, absent] at filed
    cases filed

/-- A request inside the window has an operation of the window before it. -/
theorem Phase.asks_inWindow (proxy : McpProxy) (o : ToolOperation JsonValue) {phase : Phase}
    (inside : phase.isInside) :
    ∃ (op : ProxyOp) (next : op.Answer → Prog proxySignature McpResponse),
      phase.program proxy o = .ask op next ∧ op.inWindow = true := by
  cases phase with
  | registering | validating | submitting | invoking | stamping | committing =>
      exact ⟨_, _, rfl, rfl⟩
  | _ => cases inside

theorem RequestPool.InPhases.outside {pool : RequestPool (ToolExecutionLedger JsonValue)}
    (inPhases : InPhases proxy o pool phases)
    (alone : ∀ t ∈ pool.threads, t.nextOp.any ProxyOp.inWindow = false) :
    phases.countP Phase.isInside = 0 := by
  apply List.countP_eq_zero.mpr
  intro phase member inside
  obtain ⟨op, next, asks, inWindow⟩ := Phase.asks_inWindow proxy o inside
  have rest : some (phase.program proxy o) ∈ pool.threads.map (·.rest) := by
    rw [show _ = _ from inPhases]
    exact List.mem_map.mpr ⟨phase, member, rfl⟩
  obtain ⟨t, running, same⟩ := List.mem_map.mp rest
  have outside := alone t running
  rw [Thread.nextOp, same, asks] at outside
  exact Bool.noConfusion (outside.symm.trans inWindow)

theorem ExecutedOnce.performed {pool : RequestPool (ToolExecutionLedger JsonValue)} {op : ProxyOp}
    (writes : ∀ n, ∃ value output, world.outcome n = .returned value ∧ value.output = .ok output)
    (before : ExecutedOnce sha256 o pool.state phases) (inPhases : pool.InPhases proxy o phases)
    (exclusive : pool.Exclusive sha256 world index op) (located : phases[index]? = some phase)
    (step : Phase.Step o phase op (ProxyState.inProcess sha256 world op pool.state).1 phase') :
    ExecutedOnce sha256 o (ProxyState.inProcess sha256 world op pool.state).2
      (phases.set index phase') := by
  have held : ∀ id ∈ phase.registeredId, (pool.state.ledger.recordsByCallId.get id).isSome :=
    before.mine phase (List.mem_of_getElem? located)
  generalize answered : (ProxyState.inProcess sha256 world op pool.state).1 = answer at step
  cases step with
  | arrived | blocked | passed | found => exact before.keep located rfl rfl (.refl _) (fun _ same => by cases same) rfl rfl
  | unanswered none =>
      refine before.enter located ?_ (inPhases.outside exclusive.2) rfl rfl
      cases kept : pool.state.ledger.receiptsByOpHash.get (o.slot sha256) with
      | none => rfl
      | some entry =>
          have found := ToolExecutionLedger.check_of_receipt kept (exclusive.1 entry kept)
          exact absurd (answered.symm.trans found) (none entry.1)
  | replayed =>
      exact before.keep located rfl rfl (.mark _ _ fun _ => ⟨rfl, rfl, rfl, rfl⟩) (fun _ same => by cases same) rfl rfl
  | registered =>
      obtain ⟨grows, receipts, known⟩ := RecordsGrow.register exclusive.1
      exact before.keep located rfl rfl grows (by rintro _ ⟨⟩; exact known) receipts rfl
  | @validated id =>
      have grows : RecordsGrow sha256 o pool.state.ledger
          (pool.state.ledger.markValidated (world.reads pool.state.operations) id) := by
        refine .mark _ _ fun r => ?_
        split <;> exact ⟨rfl, rfl, rfl, rfl⟩
      exact before.keep located rfl rfl grows (fun id registered => grows.kept id (held id registered))
        rfl rfl
  | @submitted id =>
      have grows : RecordsGrow sha256 o pool.state.ledger
          (pool.state.ledger.markSubmitted (world.reads pool.state.operations) id) :=
        .mark _ _ fun _ => ⟨rfl, rfl, rfl, rfl⟩
      exact before.keep located rfl rfl grows (fun id registered => grows.kept id (held id registered))
        rfl rfl
  | returned => exact before.invoked located
  | lost without =>
      obtain ⟨value, output, returned, text⟩ := writes pool.state.operations
      exact absurd text (without value output (answered.symm.trans returned))
  | stamped => exact before.keep located rfl rfl (.refl _) held rfl rfl
  | committed => exact before.committed located exclusive.1
  | failed =>
      exact before.keep located rfl rfl (.mark _ _ fun _ => ⟨rfl, rfl, rfl, rfl⟩) (fun _ same => by cases same) rfl rfl
  | notRegistered | notValidated | notSubmitted | notCommitted => cases answered

theorem ExecutedOnce.evolves {pool : RequestPool (ToolExecutionLedger JsonValue)}
    {phases' : List Phase} {move : Move McpRequest Empty}
    (writes : ∀ n, ∃ value output, world.outcome n = .returned value ∧ value.output = .ok output)
    (inPhases : pool.InPhases proxy o phases) (before : ExecutedOnce sha256 o pool.state phases)
    (exclusive : ∀ next ∈ pool.performs move, pool.Exclusive sha256 world next.1 next.2)
    (evolves : pool.Evolves (inProcessBackend sha256) world o phases move s phases') :
    ExecutedOnce sha256 o s phases' := by
  cases evolves with
  | idle => exact before
  | started first =>
      refine ⟨before.records, ?_, ?_, ?_⟩
      · intro phase member id registered
        rcases List.mem_append.mp member with known | new
        · exact before.mine phase known id registered
        · cases List.mem_singleton.mp new
          rcases first with ⟨_, rfl⟩ | ⟨_, rfl⟩ <;> cases registered
      · rw [List.countP_append]
        rcases first with ⟨_, rfl⟩ | ⟨_, rfl⟩ <;> exact before.once
      · rw [List.countP_append]
        rcases first with ⟨_, rfl⟩ | ⟨_, rfl⟩ <;> exact before.clear
  | performed located performs step =>
      exact before.performed writes inPhases (exclusive _ performs) located step

theorem ExecutedOnce.run (handled : proxy.handles o.toolName)
    (writes : ∀ n, ∃ value output, world.outcome n = .returned value ∧ value.output = .ok output)
    (maxRecords : Nat) (ttlSeconds : Option Seconds) (moves : List (Move McpRequest Empty))
    (along : Pool.Along (mcpMachine proxy sha256 (inProcessBackend sha256) world o)
      (RequestPool.Exclusive sha256 world) ⟨.start maxRecords ttlSeconds, []⟩ moves) :
    (Pool.run (mcpMachine proxy sha256 (inProcessBackend sha256) world o)
      ⟨.start maxRecords ttlSeconds, []⟩ moves).state.invocations.length ≤ 1 := by
  have start : ExecutedOnce sha256 o (.start maxRecords ttlSeconds) [] :=
    ⟨fun _ _ found => (by cases found), fun _ member => (by cases member), Nat.zero_le 1, fun _ _ => rfl⟩
  have invariant : ∃ phases, ExecutedOnce sha256 o
      (Pool.run (mcpMachine proxy sha256 (inProcessBackend sha256) world o)
        ⟨.start maxRecords ttlSeconds, []⟩ moves).state phases :=
    RequestPool.run_keeps handled (fun _ _ _ _ _ inPhases before exclusive evolves =>
      before.evolves writes inPhases exclusive evolves) start moves along
  obtain ⟨phases, once⟩ := invariant
  exact (Nat.le_add_left _ _).trans once.once

end InProcess

/-- Under every interleaving of requests for one operation its handler runs once
    at most: over the durable ledger without further ado, and over the in-process
    ledger as long as nobody checks for a receipt that is on its way. -/
theorem handler_runs_once (Payload : Type) (proxy : McpProxy) (sha256 : String → String)
    (world : ProxyWorld) (o : ToolOperation JsonValue) (handled : proxy.handles o.toolName)
    (writes : ∀ n, ∃ value output, world.outcome n = .returned value ∧ value.output = .ok output)
    (moves : List (Move McpRequest Empty)) :
    (∀ maxRecords ttlSeconds,
      Pool.Along (mcpMachine proxy sha256 (inProcessBackend sha256) world o)
        (RequestPool.Exclusive sha256 world) ⟨.start maxRecords ttlSeconds, []⟩ moves →
      (Pool.run (mcpMachine proxy sha256 (inProcessBackend sha256) world o)
        ⟨.start maxRecords ttlSeconds, []⟩ moves).state.invocations.length ≤ 1) ∧
    ∀ ownerId leaseTtlSeconds,
      (Pool.run (mcpMachine proxy sha256 (durableBackend sha256) world o)
        ⟨.startDurable Payload ownerId leaseTtlSeconds, []⟩ moves).state.invocations.length ≤ 1 :=
  ⟨fun maxRecords ttlSeconds along =>
      ExecutedOnce.run handled writes maxRecords ttlSeconds moves along,
    fun ownerId leaseTtlSeconds => SubmittedOnce.run handled ownerId leaseTtlSeconds moves⟩

/-- The first request commits before the second one checks. -/
private def oneAfterTheOther : List (Move McpRequest Empty) :=
  .spawn (deployRequest true "call-1") :: .spawn (deployRequest true "call-2") ::
    (List.replicate 8 (.run 0) ++ List.replicate 3 (.run 1))

theorem handler_runs_once_deploy :
    (Pool.run (mcpMachine sampleProxy flagSha256 (inProcessBackend flagSha256)
        (sampleWorld fun _ => .returned (.text "deployed")) (deployOperation true))
      ⟨.start 10000 (some 3600), []⟩ oneAfterTheOther).state.invocations.length ≤ 1 ∧
    (Pool.run (mcpMachine sampleProxy flagSha256 (durableBackend flagSha256)
        (sampleWorld fun _ => .returned (.text "deployed")) (deployOperation true))
      ⟨.startDurable Unit "worker-1" 30, []⟩ oneAfterTheOther).state.invocations.length ≤ 1 := by
  obtain ⟨inProcess, durably⟩ := handler_runs_once Unit sampleProxy flagSha256
    (sampleWorld fun _ => .returned (.text "deployed")) (deployOperation true) (by decide +kernel)
    (fun _ => ⟨_, _, rfl, rfl⟩) oneAfterTheOther
  constructor
  · apply inProcess
    decide +kernel
  · exact durably "worker-1" 30

/-- Both requests check before either of them is registered. -/
theorem both_checks_pass :
    ¬(Pool.run (mcpMachine sampleProxy flagSha256 (inProcessBackend flagSha256)
        (sampleWorld fun _ => .returned (.text "deployed")) (deployOperation true))
      ⟨.start 10000 (some 3600), []⟩
      (.spawn (deployRequest true "call-1") :: .spawn (deployRequest true "call-2") ::
        ([.run 0, .run 0, .run 1, .run 1] ++ List.replicate 4 (.run 0) ++
          List.replicate 4 (.run 1)))).state.invocations.length ≤ 1 := by
  decide +kernel

end DuraLLM
