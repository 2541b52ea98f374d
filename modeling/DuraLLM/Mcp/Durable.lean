import DuraLLM.Mcp.Requests
import DuraLLM.Storage.Sequential
import DuraLLM.Storage.Stages

/-! # The proxy over a durable ledger

What one request does to the database and to the log of invocations, when
requests are served one after the other.
-/

namespace DuraLLM

variable {Payload : Type} {proxy : McpProxy} {sha256 : String → String} {world : ProxyWorld}

/-- The clocks are no part of what the ledger knows. -/
theorem LedgerSystem.Orderly.at_reads {s : LedgerSystem JsonValue Payload} {opened : Option String}
    (orderly : s.Orderly opened) (reads : LedgerReads) : { s with reads }.Orderly opened :=
  ⟨orderly.recorded, orderly.bound, orderly.advanced, orderly.unleased⟩

theorem LedgerSystem.Opened.at_reads {s : LedgerSystem JsonValue Payload} {id key : String}
    (opened : s.Opened id key) (reads : LedgerReads) : { s with reads }.Opened id key :=
  ⟨opened.orderly.at_reads reads, opened.mine, opened.row⟩

namespace McpProxy

abbrev durably (sha256 : String → String) (world : ProxyWorld) :
    Prog.Handler proxySignature (ProxyState (LedgerSystem JsonValue Payload)) :=
  ProxyState.handle (durableBackend sha256) world

/-- What a request for `o` leaves behind. -/
structure DurablyServed (proxy : McpProxy) (sha256 : String → String) (o : ToolOperation JsonValue)
    (s : ProxyState (LedgerSystem JsonValue Payload))
    (served : McpResponse × ProxyState (LedgerSystem JsonValue Payload)) : Prop where
  orderly : served.2.ledger.Orderly none
  follows : Database.Follows
    (fun key receipt => key = o.key sha256 ∧ ∃ output, proxy.Completes o served output receipt)
    s.ledger.db served.2.ledger.db
  invoked : served.2.invocations = s.invocations ∨
    (s.ledger.db.operations.get (o.key sha256) = none ∧
      (served.2.ledger.db.operations.get (o.key sha256)).isSome ∧
      ∃ outcome, served.2.invocations = (o, outcome) :: s.invocations)
  replayed : ∀ output isError receipt, served.1 = .replayed output isError receipt →
    output = replayedOutput receipt ∧
      ∃ row text, s.ledger.db.operations.get (o.key sha256) = some row ∧
        row.executionReceiptJson = some text ∧ text.decode = receipt

variable {s : ProxyState (LedgerSystem JsonValue Payload)} {id : String}
  {o : ToolOperation JsonValue} {filed : String → JsonValue → Prop}

/-- Step 6 of a call whose id is bound to `key`. -/
structure DurablyRun (proxy : McpProxy) (o : ToolOperation JsonValue) (key : String)
    (s : ProxyState (LedgerSystem JsonValue Payload))
    (served : McpResponse × ProxyState (LedgerSystem JsonValue Payload)) : Prop where
  orderly : served.2.ledger.Orderly none
  follows : Database.Follows
    (fun k receipt => k = key ∧ ∃ output, proxy.Completes o served output receipt)
    s.ledger.db served.2.ledger.db
  invoked : served.2.invocations = s.invocations ∨
    ∃ outcome, served.2.invocations = (o, outcome) :: s.invocations
  executed : ∀ output isError receipt, served.1 ≠ .replayed output isError receipt

theorem durably_fail {t : ProxyState (LedgerSystem JsonValue Payload)} {key : String}
    {outcome : HandlerOutcome} (orderly : t.ledger.Orderly none)
    (db : t.ledger.db = s.ledger.db) (log : t.invocations = (o, outcome) :: s.invocations)
    (message : String) :
    DurablyRun proxy o key s ((fail id message).exec (durably sha256 world) t) := by
  have failed := fun filed =>
    (orderly.at_reads (world.reads t.operations)).failed sha256 filed id message
  simp only [fail, Prog.exec_bind, ProxyState.exec_ask, ProxyState.handle, durableBackend,
    LedgerMethod.durable, LedgerMethod.read]
  generalize LedgerSystem.call sha256 { t.ledger with reads := world.reads t.operations } 0
    (.markFailed id message) = answer at failed ⊢
  have after := (failed fun _ _ => True).1
  unfold unlessRaised
  split
  · exact ⟨after, db ▸ (failed _).2, .inr ⟨_, log⟩, (by simp)⟩
  · exact ⟨after, db ▸ (failed _).2, .inr ⟨_, log⟩, (by simp)⟩

theorem durably_runHandler {key : String} (orderly : s.ledger.Orderly none)
    (mine : s.ledger.db.keyOf id = some key) :
    DurablyRun proxy o key s ((runHandler id o).exec (durably sha256 world) s) := by
  simp only [runHandler, Prog.exec_bind, ProxyState.exec_ask, ProxyState.handle]
  cases world.outcome s.operations with
  | raised message =>
      exact durably_fail (s := s)
        (t := ⟨s.ledger, s.operations + 1, (o, .raised message) :: s.invocations⟩)
        orderly rfl rfl message
  | returned value =>
      simp only
      cases text : value.output with
      | error typeError =>
          exact durably_fail (s := s)
            (t := ⟨s.ledger, s.operations + 1, (o, .returned value) :: s.invocations⟩)
            orderly rfl rfl typeError
      | ok output =>
          simp only [commitOutput, commitReceipt, Prog.exec_bind, ProxyState.exec_ask, ProxyState.handle, durableBackend,
            LedgerMethod.durable, LedgerMethod.read]
          have commits := (orderly.at_reads (world.reads (s.operations + 2))).committed sha256 id
            (committedReceipt output (world.timestamp (s.operations + 1)))
          generalize LedgerSystem.call sha256
            { s.ledger with reads := world.reads (s.operations + 2) } 0
            (.markCommitted id (committedReceipt output (world.timestamp (s.operations + 1)))) =
              answer at commits ⊢
          obtain ⟨after, ⟨e, rfl⟩ | ⟨done, key', mine', follows⟩⟩ := commits
          · exact durably_fail (s := s)
              (t := ⟨_, s.operations + 3, (o, .returned value) :: s.invocations⟩)
              after rfl rfl e.text
          · obtain ⟨outcome, t⟩ := answer
            cases done
            cases mine.symm.trans mine'
            refine ⟨after, follows.imp ?_, .inr ⟨_, rfl⟩, fun _ _ _ same => by cases same⟩
            rintro k receipt ⟨rfl, rfl⟩
            exact ⟨rfl, output, rfl, ⟨_, rfl⟩, .inl ⟨value, text, rfl⟩⟩

theorem durably_acknowledge {key : String} (orderly : s.ledger.Orderly none)
    (mine : s.ledger.db.keyOf id = some key) (without : proxy.handles o.toolName = false) :
    DurablyRun proxy o key s ((acknowledge id o).exec (durably sha256 world) s) := by
  simp only [acknowledge, Prog.exec_bind, ProxyState.exec_ask, ProxyState.handle, durableBackend,
    LedgerMethod.durable, LedgerMethod.read]
  have commits := (orderly.at_reads (world.reads (s.operations + 1))).committed sha256 id
    (committedReceipt (acknowledgedOutput o) (world.timestamp s.operations))
  generalize LedgerSystem.call sha256 { s.ledger with reads := world.reads (s.operations + 1) } 0
    (.markCommitted id (committedReceipt (acknowledgedOutput o) (world.timestamp s.operations))) =
      answer at commits ⊢
  obtain ⟨after, ⟨e, rfl⟩ | ⟨done, key', mine', follows⟩⟩ := commits
  · exact ⟨after, .refl _, .inl rfl, fun _ _ _ same => by cases same⟩
  · obtain ⟨outcome, t⟩ := answer
    cases done
    cases mine.symm.trans mine'
    refine ⟨after, follows.imp ?_, .inl rfl, fun _ _ _ same => by cases same⟩
    rintro k receipt ⟨rfl, rfl⟩
    exact ⟨rfl, _, rfl, ⟨_, rfl⟩, .inr ⟨without, rfl⟩⟩

/-- A request that ends before the tool runs. -/
theorem DurablyServed.of_stopped {t : ProxyState (LedgerSystem JsonValue Payload)} {e : LedgerError}
    (orderly : t.ledger.Orderly none)
    (follows : ∀ filed, Database.Follows filed s.ledger.db t.ledger.db)
    (log : t.invocations = s.invocations) :
    DurablyServed proxy sha256 o s (.raised e, t) :=
  ⟨orderly, follows _, .inl log, (by simp)⟩

variable (sha256 world) in
/-- An operation that was just opened is submitted. -/
theorem durably_submitOpened {key : String} (opened : s.ledger.Opened id key)
    (next : Prog proxySignature McpResponse) :
    ∃ t : ProxyState (LedgerSystem JsonValue Payload), t.ledger.Orderly none ∧
      (∀ filed, Database.Follows filed s.ledger.db t.ledger.db) ∧ t.invocations = s.invocations ∧
      (submitThen id next).exec (durably sha256 world) s = next.exec (durably sha256 world) t := by
  simp only [submitThen, Prog.exec_bind, ProxyState.exec_ask, ProxyState.handle, durableBackend,
    LedgerMethod.durable, LedgerMethod.read]
  have validated := fun filed =>
    (opened.at_reads (world.reads s.operations)).validated sha256 filed
  generalize LedgerSystem.call sha256 { s.ledger with reads := world.reads s.operations } 0
    (.markValidated id) = answer at validated ⊢
  obtain ⟨verdict, t⟩ := answer
  obtain ⟨_, rfl, opened⟩ := validated fun _ _ => True
  have submitted := fun filed =>
    (opened.at_reads (world.reads (s.operations + 1))).submitted sha256 filed
  simp only [DurableAnswer.succeeded, unlessRaised, Prog.exec_bind, ProxyState.exec_ask,
    ProxyState.handle, durableBackend, LedgerMethod.durable, LedgerMethod.read]
  generalize LedgerSystem.call sha256 { t with reads := world.reads (s.operations + 1) } 0
    (.markSubmitted id) = answer at submitted ⊢
  obtain ⟨verdict, u⟩ := answer
  obtain ⟨_, rfl, orderly⟩ := submitted fun _ _ => True
  exact ⟨⟨u, s.operations + 2, s.invocations⟩, orderly,
    fun filed => (validated filed).1.trans (submitted filed).1, rfl, rfl⟩

variable (sha256 world id) in
/-- With no operation open the submission is refused. -/
theorem durably_submitAdvanced (orderly : s.ledger.Orderly none)
    (next : Prog proxySignature McpResponse) :
    ∃ (t : ProxyState (LedgerSystem JsonValue Payload)) (e : LedgerError),
      t.ledger.Orderly none ∧
      (∀ filed, Database.Follows filed s.ledger.db t.ledger.db) ∧ t.invocations = s.invocations ∧
      (submitThen id next).exec (durably sha256 world) s = (.raised e, t) := by
  simp only [submitThen, Prog.exec_bind, ProxyState.exec_ask, ProxyState.handle, durableBackend,
    LedgerMethod.durable, LedgerMethod.read]
  have validated := fun filed =>
    (orderly.at_reads (world.reads s.operations)).validated sha256 filed id
  generalize LedgerSystem.call sha256 { s.ledger with reads := world.reads s.operations } 0
    (.markValidated id) = answer at validated ⊢
  obtain ⟨verdict, t⟩ := answer
  have orderly := (validated fun _ _ => True).2
  have follows := fun filed => (validated filed).1
  cases verdict.succeeded with
  | error e => exact ⟨⟨t, s.operations + 1, s.invocations⟩, e, orderly, follows, rfl, rfl⟩
  | ok done =>
      obtain ⟨e, refused⟩ :=
        (orderly.at_reads (world.reads (s.operations + 1))).submitted sha256 id
      simp only [unlessRaised, Prog.exec_bind, ProxyState.exec_ask, ProxyState.handle,
        durableBackend, LedgerMethod.durable, LedgerMethod.read]
      rw [show LedgerSystem.call sha256 _ 0 _ = _ from refused]
      exact ⟨⟨{ t with reads := world.reads (s.operations + 1) }, s.operations + 2, s.invocations⟩,
        e, orderly.at_reads _, follows, rfl, rfl⟩

theorem durably_firstExecution (orderly : s.ledger.Orderly none) :
    DurablyServed proxy sha256 o s ((proxy.firstExecution id o).exec (durably sha256 world) s) := by
  have registered := fun filed => (orderly.at_reads (world.reads s.operations)).register sha256
    filed id o.logicalOperationId o.toolName o.arguments
  simp only [firstExecution, Prog.exec_bind, ProxyState.exec_ask, ProxyState.handle, durableBackend,
    LedgerMethod.durable, LedgerMethod.read]
  generalize LedgerSystem.call sha256 { s.ledger with reads := world.reads s.operations } 0
    (.registerToolCall id o.logicalOperationId o.toolName o.arguments) = answer at registered ⊢
  obtain ⟨verdict, t⟩ := answer
  have follows := fun filed => (registered filed).1
  obtain after | ⟨absent, ⟨r, rfl⟩, opened⟩ := (registered fun _ _ => True).2
  · cases verdict.succeeded with
    | error e =>
        exact .of_stopped (t := ⟨t, s.operations + 1, s.invocations⟩) after follows rfl
    | ok done =>
        obtain ⟨u, e, orderly, later, log, ends⟩ := durably_submitAdvanced sha256 world id
          (s := ⟨t, s.operations + 1, s.invocations⟩) after
          (if proxy.handles o.toolName then runHandler id o else acknowledge id o)
        simp only [unlessRaised, ends]
        exact .of_stopped orderly (fun filed => (follows filed).trans (later filed)) log
  · obtain ⟨u, orderly, later, log, continues⟩ := durably_submitOpened sha256 world
      (s := ⟨t, s.operations + 1, s.invocations⟩) opened
      (if proxy.handles o.toolName then runHandler id o else acknowledge id o)
    have mine : u.ledger.db.keyOf id = some (o.key sha256) :=
      (later fun _ _ => True).calls id _ opened.mine
    have run : DurablyRun proxy o (o.key sha256) u
        ((if proxy.handles o.toolName then runHandler id o else acknowledge id o).exec
          (durably sha256 world) u) := by
      cases handled : proxy.handles o.toolName with
      | true => exact durably_runHandler orderly mine
      | false => exact durably_acknowledge orderly mine handled
    simp only [DurableAnswer.succeeded, unlessRaised, continues]
    obtain ⟨row, located, _, _⟩ := opened.row
    refine ⟨run.orderly, ((follows _).trans (later _)).trans run.follows, ?_,
      fun output isError receipt same => absurd same (run.executed output isError receipt)⟩
    obtain quiet | ⟨outcome, logged⟩ := run.invoked
    · exact .inl (quiet.trans log)
    · refine .inr ⟨absent, ?_, outcome, logged.trans (congrArg _ log)⟩
      apply run.follows.rows
      apply (later fun _ _ => True).rows
      exact Option.isSome_iff_exists.mpr ⟨row, located⟩

/-- The case analysis for a durable ledger. -/
theorem durably_callTool (orderly : s.ledger.Orderly none) :
    DurablyServed proxy sha256 o s ((proxy.callTool id o).exec (durably sha256 world) s) := by
  simp only [callTool, Prog.exec_bind, ProxyState.exec_ask, ProxyState.handle, durableBackend,
    LedgerMethod.durable, LedgerMethod.read, LedgerSystem.call_hasIndeterminate,
    DurableAnswer.toFlag]
  split
  · exact ⟨orderly.at_reads _, .refl _, .inl rfl, (by simp)⟩
  · simp only [Prog.exec_bind, ProxyState.exec_ask, ProxyState.handle, durableBackend,
      LedgerMethod.durable, LedgerMethod.read, LedgerSystem.call_checkIdempotency]
    let checked : ProxyState (LedgerSystem JsonValue Payload) :=
      ⟨{ s.ledger with reads := world.reads (s.operations + 1) }, s.operations + 2, s.invocations⟩
    have first : DurablyServed proxy sha256 o checked
        ((proxy.firstExecution id o).exec (durably sha256 world) checked) :=
      durably_firstExecution (orderly.at_reads _)
    have executed : DurablyServed proxy sha256 o s _ :=
      ⟨first.orderly, first.follows, first.invoked, first.replayed⟩
    split
    · exact executed
    · next row located =>
      split
      · next committed =>
        obtain ⟨text, written⟩ := Option.isSome_iff_exists.mp committed.2
        rw [written]
        refine ⟨(orderly.at_reads (world.reads (s.operations + 2))).replayed sha256 id text.decode,
          .refl s.ledger.db, .inl rfl, ?_⟩
        intro output isError receipt response
        cases response
        exact ⟨rfl, row, text, located, written, rfl⟩
      · exact executed

/-- A request is turned away, or served as `DurablyServed` says. -/
theorem durably_serve (orderly : s.ledger.Orderly none) (request : McpRequest) :
    (proxy.target sha256 request = none ∧
      (proxy.serve sha256 (durableBackend sha256) world s request).2 = s ∧
      ∀ output isError receipt, (proxy.serve sha256 (durableBackend sha256) world s request).1 ≠
        .replayed output isError receipt) ∨
    ∃ o, proxy.target sha256 request = some o ∧ DurablyServed proxy sha256 o s
      (proxy.serve sha256 (durableBackend sha256) world s request) := by
  obtain away | ⟨o, id, t, target, ledger, log, served, _⟩ :=
    proxy.handleToolsCall_cases sha256 request (durableBackend sha256) world s
  · exact .inl away
  · refine .inr ⟨o, target, ?_⟩
    rw [← ledger] at orderly
    have ends : DurablyServed proxy sha256 o t
        ((proxy.callTool id o).exec (durably sha256 world) t) := durably_callTool orderly
    rw [served]
    refine ⟨ends.orderly, ?_, ?_, ?_⟩
    · rw [← ledger]
      exact ends.follows
    · rw [← ledger, ← log]
      exact ends.invoked
    · rw [← ledger]
      exact ends.replayed

end McpProxy

variable (Payload) in
/-- A new proxy over a new database. -/
def ProxyState.startDurable (ownerId : String) (leaseTtlSeconds : Seconds) :
    ProxyState (LedgerSystem JsonValue Payload) where
  ledger := { db := {}, instances := fun _ => { ownerId, leaseTtlSeconds }, reads := ⟨0, 0, 0⟩ }

variable (Payload) in
theorem ProxyState.startDurable_orderly (ownerId : String) (leaseTtlSeconds : Seconds) :
    (startDurable Payload ownerId leaseTtlSeconds).ledger.Orderly none where
  recorded := fun _ _ found => by cases found
  bound := fun _ _ found => by cases found
  advanced := fun _ _ found => by cases found
  unleased := fun _ _ => rfl

namespace McpProxy

theorem durably_run_orderly (orderly : s.ledger.Orderly none) (requests : List McpRequest) :
    (proxy.run sha256 (durableBackend sha256) world s requests).ledger.Orderly none := by
  induction requests using List.reverseRecOn with
  | nil => exact orderly
  | append_singleton requests request ih =>
      rw [run_snoc]
      obtain ⟨_, same, _⟩ | ⟨_, _, served⟩ := durably_serve ih request
      · rw [same]
        exact ih
      · exact served.orderly

end McpProxy

end DuraLLM
