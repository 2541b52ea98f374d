import DuraLLM.Agent.Receipts
import DuraLLM.Execution.Effects
import DuraLLM.Lib.JsonValue
import DuraLLM.Storage.Calls

/-! # The MCP proxy

`MCPProxy._handle_tools_call` as a program over the ledger methods, the tool
handlers and the clock.  A ledger method is one operation, whichever ledger is
behind it.  Handler run, serialisation of the result and its commit share one
`try` block: whatever goes wrong in there marks the call failed.

The tool validator is any function from the tool's schema and the arguments to
a report.  Ids that the client sends are texts.
-/

namespace DuraLLM

/-! ## Requests -/

structure McpToolDefinition where
  inputSchema : JsonValue
  /-- The handler itself belongs to the surroundings. -/
  hasHandler : Bool

structure McpProxy where
  tools : Dict String McpToolDefinition
  validator : String → JsonValue → JsonValue → ToolValidationReport JsonValue

/-- What a `tools/call` request brings: the JSON-RPC id, if it is truthy, the
    tool name, if it is a text, the arguments, and the text fields of `_meta`, of
    `params` and of the headers. -/
structure McpRequest where
  reqId : Option String := none
  name : Option String
  arguments : JsonValue := .ofRaw (.obj [])
  metaFields : Dict String String := .empty
  params : Dict String String := .empty
  headers : Dict String String := .empty

/-- Python's `or` over texts: the first that is there and not empty. -/
def firstTruthy (candidates : List (Option String)) : Option String :=
  candidates.findSome? fun text => text.filter (· ≠ "")

namespace McpRequest

variable (sha256 : String → String) (request : McpRequest)

/-- Without an id from the client the operation is named after its arguments. -/
def operationId (toolName : String) (arguments : JsonValue) : String :=
  (firstTruthy [request.metaFields.get "operation_id", request.metaFields.get "idempotency_key",
    request.params.get "operation_id", request.params.get "idempotency_key",
    request.headers.get "Idempotency-Key", request.headers.get "idempotency-key",
    request.headers.get "X-LCB-Operation-Id", request.headers.get "x-lcb-operation-id"]).getD
    ("op_" ++ toolName ++ "_" ++
      String.ofList ((computeArgumentsHash sha256 arguments).toList.take 16))

def clientToolCallId : Option String :=
  firstTruthy [request.metaFields.get "tool_call_id", request.params.get "tool_call_id",
    request.headers.get "X-LCB-Tool-Call-Id", request.headers.get "x-lcb-tool-call-id"]

end McpRequest

/-- The arguments after validation, which only registered tools get. -/
def McpProxy.validated (proxy : McpProxy) (toolName : String) (arguments : JsonValue) :
    Except (Option String) JsonValue :=
  match proxy.tools.get toolName with
  | none => .ok arguments
  | some tool =>
      let report := proxy.validator toolName arguments tool.inputSchema
      if report.isExecutable then .ok report.validatedArguments else .error report.errorMessage

def McpProxy.handles (proxy : McpProxy) (toolName : String) : Bool :=
  (proxy.tools.get toolName).any (·.hasHandler)

/-! ## Results and receipts -/

/-- What a handler can return: a text, a value that `json.dumps` writes, or one
    on which it raises. -/
inductive PyValue where
  | text (s : String)
  | json (v : JsonValue)
  | unserializable (typeError : String)
  deriving DecidableEq

def PyValue.output : PyValue → Except String String
  | .text s => .ok s
  | .json v => .ok (JsonCodec.dumps .verbatim v)
  | .unserializable typeError => .error typeError

inductive HandlerOutcome where
  | returned (value : PyValue)
  | raised (message : String)
  deriving DecidableEq

/-- `{"status": "committed", "output": …, "is_error": False, "timestamp": …}` -/
def committedReceipt (output : String) (timestamp : JsonScalar) : JsonValue :=
  .ofRaw (.obj [("status", .str "committed"), ("output", .str output),
    ("is_error", .scalar (.bool false)), ("timestamp", .scalar timestamp)])

/-- The output of a cached receipt, written as text if it is none. -/
def replayedOutput (receipt : JsonValue) : String :=
  match receipt.field "output" with
  | none => ""
  | some (.str s) => s
  | some v => JsonCodec.dumps .verbatim (JsonValue.ofRaw v)

/-- The receipt text of a tool without a handler. -/
def acknowledgedOutput (o : ToolOperation JsonValue) : String :=
  JsonCodec.dumps .spaced (JsonValue.ofRaw (.obj [("acknowledged", .scalar (.bool true)),
    ("tool", .str o.toolName), ("arguments", o.arguments.raw)]))

/-- The responses, by their `_lcb_status` or their error. `raised` is an
    exception of the ledger that leaves the proxy. -/
inductive McpResponse where
  | invalidParams
  | schemaInvalid (errorMessage : Option String)
  | indeterminate (operationId toolName : String)
  | replayed (output : String) (isError : JsonRaw) (receipt : JsonValue)
  | committed (output : String) (receipt : JsonValue)
  | failed (errorMessage : String)
  | raised (error : LedgerError)

/-! ## The program -/

def LedgerError.text : LedgerError → String
  | .store (.durable message) | .store (.leaseUnavailable message) | .runtime message => message

/-- The ledger methods the proxy calls. -/
inductive LedgerMethod where
  | hasIndeterminateOperation (o : ToolOperation JsonValue)
  | checkIdempotency (o : ToolOperation JsonValue)
  | markReplayed (toolCallId : String) (receipt : JsonValue)
  | registerToolCall (toolCallId : String) (o : ToolOperation JsonValue)
  | markValidated (toolCallId : String)
  | markSubmitted (toolCallId : String)
  | markCommitted (toolCallId : String) (receipt : JsonValue)
  | markFailed (toolCallId errorMessage : String)

def LedgerMethod.Answer : LedgerMethod → Type
  | .hasIndeterminateOperation _ => Bool
  | .checkIdempotency _ => Bool × Option JsonValue
  | .markReplayed .. | .registerToolCall .. | .markValidated _ | .markSubmitted _
  | .markCommitted .. | .markFailed .. => Except LedgerError Unit

inductive ProxyOp where
  | ledger (method : LedgerMethod)
  /-- The handler gets the arguments; the operation id is for the record. -/
  | invoke (o : ToolOperation JsonValue)
  | timestamp
  | milliseconds

def ProxyOp.Answer : ProxyOp → Type
  | .ledger method => method.Answer
  | .invoke _ => HandlerOutcome
  | .timestamp => JsonScalar
  | .milliseconds => String

abbrev proxySignature : Signature where
  Op := ProxyOp
  Ans := ProxyOp.Answer

namespace McpProxy

def ask (op : ProxyOp) : Prog proxySignature op.Answer := Prog.call (S := proxySignature) op

/-- Continue unless the ledger has raised. -/
def unlessRaised (answer : Except LedgerError Unit) (next : Prog proxySignature McpResponse) :
    Prog proxySignature McpResponse :=
  match answer with
  | .error e => return .raised e
  | .ok () => next

/-- The `except` branch. -/
def fail (toolCallId errorMessage : String) : Prog proxySignature McpResponse := do
  unlessRaised (← ask (.ledger (.markFailed toolCallId errorMessage)))
    (return .failed errorMessage)

def commitReceipt (toolCallId output : String) (receipt : JsonValue) :
    Prog proxySignature McpResponse := do
  match ← ask (.ledger (.markCommitted toolCallId receipt)) with
  | .error e => fail toolCallId e.text
  | .ok () => return .committed output receipt

/-- What is left of the `try` block once the result is text. -/
def commitOutput (toolCallId output : String) : Prog proxySignature McpResponse := do
  commitReceipt toolCallId output (committedReceipt output (← ask .timestamp))

/-- Step 6, with a handler. -/
def runHandler (toolCallId : String) (o : ToolOperation JsonValue) :
    Prog proxySignature McpResponse := do
  match ← ask (.invoke o) with
  | .raised message => fail toolCallId message
  | .returned value =>
      match value.output with
      | .error typeError => fail toolCallId typeError
      | .ok output => commitOutput toolCallId output

/-- Step 6, without one. -/
def acknowledge (toolCallId : String) (o : ToolOperation JsonValue) :
    Prog proxySignature McpResponse := do
  let receipt := committedReceipt (acknowledgedOutput o) (← ask .timestamp)
  unlessRaised (← ask (.ledger (.markCommitted toolCallId receipt)))
    (return .committed (acknowledgedOutput o) receipt)

variable (proxy : McpProxy)

/-- The second half of step 5. -/
def submitThen (toolCallId : String) (next : Prog proxySignature McpResponse) :
    Prog proxySignature McpResponse := do
  unlessRaised (← ask (.ledger (.markValidated toolCallId))) do
    unlessRaised (← ask (.ledger (.markSubmitted toolCallId))) next

/-- Steps 5 and 6: the call is registered, validated and submitted before the
    tool runs. -/
def firstExecution (toolCallId : String) (o : ToolOperation JsonValue) :
    Prog proxySignature McpResponse := do
  unlessRaised (← ask (.ledger (.registerToolCall toolCallId o)))
    (submitThen toolCallId
      (if proxy.handles o.toolName then runHandler toolCallId o else acknowledge toolCallId o))

/-- Steps 4 to 6, with the answer of the receipt check. -/
def replayOrExecute (toolCallId : String) (o : ToolOperation JsonValue) :
    Bool × Option JsonValue → Prog proxySignature McpResponse
  | (true, some receipt) => do
      unlessRaised (← ask (.ledger (.markReplayed toolCallId receipt)))
        (return .replayed (replayedOutput receipt)
          ((receipt.field "is_error").getD (.scalar (.bool false))) receipt)
  | _ => proxy.firstExecution toolCallId o

/-- Steps 3 to 6. -/
def callTool (toolCallId : String) (o : ToolOperation JsonValue) :
    Prog proxySignature McpResponse := do
  match ← ask (.ledger (.hasIndeterminateOperation o)) with
  | true => return .indeterminate o.logicalOperationId o.toolName
  | false => proxy.replayOrExecute toolCallId o (← ask (.ledger (.checkIdempotency o)))

def handleToolsCall (sha256 : String → String) (request : McpRequest) :
    Prog proxySignature McpResponse :=
  match request.name.filter (· ≠ "") with
  | none => return .invalidParams
  | some toolName =>
      match proxy.validated toolName request.arguments with
      | .error errorMessage => return .schemaInvalid errorMessage
      | .ok arguments =>
          let operationId := request.operationId sha256 toolName arguments
          let o : ToolOperation JsonValue := ⟨operationId, toolName, arguments⟩
          match request.clientToolCallId, request.reqId with
          | some toolCallId, _ => proxy.callTool toolCallId o
          | none, some reqId => proxy.callTool ("mcp_" ++ operationId ++ "_" ++ reqId) o
          | none, none => do
              let milliseconds : String ← ask .milliseconds
              proxy.callTool ("mcp_" ++ operationId ++ "_" ++ milliseconds) o

end McpProxy

/-! ## The surroundings -/

/-- What the surroundings answer to the operation with this number: the clocks,
    and what a handler would do. -/
structure ProxyWorld where
  reads : Nat → LedgerReads
  outcome : Nat → HandlerOutcome
  timestamp : Nat → JsonScalar
  milliseconds : Nat → String

/-- `invocations` is the log of handler runs, the latest first. -/
structure ProxyState (Ledger : Type) where
  ledger : Ledger
  operations : Nat := 0
  invocations : List (ToolOperation JsonValue × HandlerOutcome) := []

/-- A ledger behind the proxy. -/
abbrev LedgerBackend (Ledger : Type) :=
  LedgerReads → (method : LedgerMethod) → Ledger → method.Answer × Ledger

def ProxyState.handle {Ledger : Type} (backend : LedgerBackend Ledger) (world : ProxyWorld) :
    Prog.Handler proxySignature (ProxyState Ledger)
  | .ledger method, s =>
      let answer := backend (world.reads s.operations) method s.ledger
      (answer.1, { s with ledger := answer.2, operations := s.operations + 1 })
  | .invoke o, s =>
      (world.outcome s.operations,
        { s with
          operations := s.operations + 1
          invocations := (o, world.outcome s.operations) :: s.invocations })
  | .timestamp, s => (world.timestamp s.operations, { s with operations := s.operations + 1 })
  | .milliseconds, s => (world.milliseconds s.operations, { s with operations := s.operations + 1 })

/-- The in-process ledger. -/
def inProcessBackend (sha256 : String → String) :
    LedgerBackend (ToolExecutionLedger JsonValue)
  | _, .hasIndeterminateOperation o, ledger =>
      (ledger.hasIndeterminateOperation sha256 o.logicalOperationId o.toolName o.arguments, ledger)
  | reads, .checkIdempotency o, ledger =>
      (ledger.checkIdempotency sha256 reads.now o.logicalOperationId o.toolName o.arguments, ledger)
  | reads, .markReplayed id receipt, ledger => (.ok (), ledger.markReplayed reads id receipt)
  | reads, .registerToolCall id o, ledger =>
      (.ok (), (ledger.registerToolCall sha256 reads id o.logicalOperationId o.toolName
        o.arguments).2)
  | reads, .markValidated id, ledger => (.ok (), ledger.markValidated reads id)
  | reads, .markSubmitted id, ledger => (.ok (), ledger.markSubmitted reads id)
  | reads, .markCommitted id receipt, ledger => (.ok (), ledger.markCommitted reads id receipt)
  | reads, .markFailed id message, ledger => (.ok (), ledger.markFailed reads id message)

/-- What a durable ledger call returns, as the proxy sees it. -/
def DurableAnswer.succeeded : DurableAnswer JsonValue → Except LedgerError Unit
  | .raised e => .error e
  | _ => .ok ()

def DurableAnswer.toFlag : DurableAnswer JsonValue → Bool
  | .flag value => value
  | _ => false

def DurableAnswer.toReceipt : DurableAnswer JsonValue → Bool × Option JsonValue
  | .receipt known value => (known, value)
  | _ => (false, Option.none)

def LedgerMethod.durable : LedgerMethod → DurableCall JsonValue
  | .hasIndeterminateOperation o =>
      .hasIndeterminateOperation o.logicalOperationId o.toolName o.arguments
  | .checkIdempotency o => .checkIdempotency o.logicalOperationId o.toolName o.arguments
  | .markReplayed id receipt => .markReplayed id receipt
  | .registerToolCall id o => .registerToolCall id o.logicalOperationId o.toolName o.arguments
  | .markValidated id => .markValidated id
  | .markSubmitted id => .markSubmitted id
  | .markCommitted id receipt => .markCommitted id receipt
  | .markFailed id message => .markFailed id message

def LedgerMethod.read (answer : DurableAnswer JsonValue) : (method : LedgerMethod) → method.Answer
  | .hasIndeterminateOperation _ => answer.toFlag
  | .checkIdempotency _ => answer.toReceipt
  | .markReplayed .. | .registerToolCall .. | .markValidated _ | .markSubmitted _
  | .markCommitted .. | .markFailed .. => answer.succeeded

/-- A durable ledger, as instance 0 over its database. -/
def durableBackend {Payload : Type} (sha256 : String → String) :
    LedgerBackend (LedgerSystem JsonValue Payload) :=
  fun reads method system =>
    let answer := { system with reads }.call sha256 0 method.durable
    (method.read answer.1, answer.2)

end DuraLLM
