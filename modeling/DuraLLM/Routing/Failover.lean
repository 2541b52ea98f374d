import DuraLLM.Agent.Pruner
import DuraLLM.Execution.Classifier
import DuraLLM.Lib.DynValue
import DuraLLM.Lib.Utf8
import DuraLLM.Routing.Relief

/-! # Failover across a pool

`UniversalFailoverRouter.dispatch` sends a payload to one route of a pool after
the other.  A failure marks the route with the manager of the pools, or clamps
or prunes the payload that is sent next.  Each call on the manager holds its
lock: before every step other threads may have called it, and the clocks have
moved.
-/

namespace DuraLLM

open Classifier (Readers ApiError)

/-! ## The output cap that an error names -/

namespace Classifier

section Scanning

variable (chars : CharTable)

/-- ``[`'"]?`` -/
def quoteMark (text : List Char) : List Char :=
  match text with
  | c :: rest => if c = '`' ∨ c = '\'' ∨ c = '"' then rest else text
  | [] => []

/-- `\s+` -/
def spaces (text : List Char) : Option (List Char) :=
  if (text.takeWhile chars.space).isEmpty then none else some (text.dropWhile chars.space)

/-- ``less than or equal to\s+[`'"]?(\d+)`` -/
def atMost (text : List Char) : Option (List Char) := do
  let rest ← text.dropPrefix? ("less than or equal to" : String).toList
  let (cap, _) ← digits chars (quoteMark (← spaces chars rest))
  return cap

/-- ``max_tokens[`'"]?\s+must be less than or equal to\s+[`'"]?(\d+)`` -/
def mustBeAtMost (text : List Char) : Option (List Char) := do
  let rest ← text.dropPrefix? ("max_tokens" : String).toList
  let rest ← (← spaces chars (quoteMark rest)).dropPrefix? ("must be " : String).toList
  atMost chars rest

/-- `range of max_tokens should be\s*\[\s*\d+\s*,\s*(\d+)\s*\]` -/
def rangeEnd (text : List Char) : Option (List Char) := do
  let rest ← text.dropPrefix? ("range of max_tokens should be" : String).toList
  let rest ← (rest.dropWhile chars.space).dropPrefix? ['[']
  let (_, rest) ← digits chars (rest.dropWhile chars.space)
  let rest ← (rest.dropWhile chars.space).dropPrefix? [',']
  let (cap, rest) ← digits chars (rest.dropWhile chars.space)
  let _ ← (rest.dropWhile chars.space).dropPrefix? [']']
  return cap

/-- `exceeds model(?:'s)? maximum output tokens\s*\(?\s*(\d+)\s*\)?` -/
def modelMaximum (text : List Char) : Option (List Char) := do
  let rest ← text.dropPrefix? ("exceeds model" : String).toList
  let rest := (rest.dropPrefix? ['\'', 's']).getD rest
  let rest ← rest.dropPrefix? (" maximum output tokens" : String).toList
  let rest := rest.dropWhile chars.space
  let rest := (rest.dropPrefix? ['(']).getD rest
  let (cap, _) ← digits chars (rest.dropWhile chars.space)
  return cap

/-- `available[_\s]+tokens[:\s]+(\d+)` -/
def availableTokens (text : List Char) : Option (List Char) := do
  let rest ← text.dropPrefix? ("available" : String).toList
  let gap (extra : Char) (c : Char) : Bool := c = extra || chars.space c
  let words := rest.dropWhile (gap '_')
  let behind ← words.dropPrefix? ("tokens" : String).toList
  let number := behind.dropWhile (gap ':')
  if words.length = rest.length ∨ number.length = behind.length then none
  else (digits chars number).map (·.1)

/-- The number that `parse_output_cap_from_error` reads. -/
def outputCapNumber (msg : String) : Option (List Char) :=
  let perMinute (text : List Char) : Option (List Char) :=
    ["output tokens per minute", "otpm"].findSome? fun unit =>
      (text.dropPrefix? (unit : String).toList).bind (lastLimit chars)
  let text := msg.toList
  (search perMinute text).orElse fun _ =>
    (search (mustBeAtMost chars) text).orElse fun _ =>
      (if hasAny ["max_tokens", "token"] msg then search (atMost chars) text else none).orElse
        fun _ => (search (rangeEnd chars) text).orElse fun _ =>
          (search (modelMaximum chars) text).orElse fun _ => search (availableTokens chars) text

end Scanning

def parseOutputCapFromError (lib : Readers) (errorMsg : String) :
    Except RaisedError (Option Nat) :=
  match outputCapNumber lib.chars (lib.casing.lower errorMsg) with
  | none => .ok none
  | some number => (lib.int number).map some

end Classifier

/-! ## The payload -/

namespace ChatPayload

/-- `payload.get("max_tokens")` -/
def maxTokens (payload : ChatPayload) : Option JsonRaw := Entries.get "max_tokens" payload.rest

def setMaxTokens (payload : ChatPayload) (tokens : Int) : ChatPayload :=
  { payload with rest := Entries.set "max_tokens" (.scalar (.int tokens)) payload.rest }

end ChatPayload

namespace UniversalFailoverRouter

/-- What `execute_upstream_request` hands back; the names of the headers are
    lower case. -/
structure UpstreamReply where
  status : Nat
  headers : List (String × String) := []
  body : Utf8.Bytes := []

/-- What the libraries decide, and the conversion of Gemini's answers. -/
structure DispatchLibraries (Json : Type) where
  readers : Readers
  pruning : Libraries
  /-- `body.decode("utf-8", errors="ignore")` -/
  decodeIgnoring : Utf8.Bytes → String
  /-- `convert_gemini_to_openai_response`, or nothing where it raises. -/
  convertGemini : Json → String → Option Json
  /-- `current_max > cap` for what is not a whole number, or nothing where it raises. -/
  exceeds : JsonRaw → Nat → Option Bool
  /-- `int(in_limit * 0.85)` -/
  shareOf : Nat → Int
  /-- `len(str(content))` -/
  shownLength : JsonRaw → Nat
  defaultTimeout : Seconds := 120

namespace DispatchLibraries

variable {Json : Type} (lib : DispatchLibraries Json)

abbrev casing : Casing := lib.readers.casing

/-- `current_max is None or current_max > cap` -/
def mayClamp (current : Option JsonRaw) (cap : Nat) : Option Bool :=
  match current with
  | none | some (.scalar .null) => some true
  | some (.scalar (.int n)) => some ((cap : Int) < n)
  | some value => lib.exceeds value cap

end DispatchLibraries

/-- The provider's compute tier and the size of the history. -/
def calculateAdaptiveTimeout {Json : Type} (lib : DispatchLibraries Json) (provider : String)
    (payload : ChatPayload) : Seconds :=
  let tier : Seconds :=
    if lib.casing.lower provider ∈ ["nvidia", "sambanova", "cerebras"] then 45 else 35
  let charCount :=
    (payload.history.map fun m => lib.shownLength ((m.lookup "content").getD (.str ""))).sum
  let tokens := charCount / 4
  let extra : Seconds := if 16000 < tokens then 25 else if 8000 < tokens then 15 else 0
  min lib.defaultTimeout (tier + extra)

/-! ## Steps -/

/-- What happens around a dispatch: the readings of the clocks at each step, what
    other threads have asked of the pools by then, and what the providers answer. -/
structure Surroundings where
  clock : Nat → Clock
  others : Nat → List PoolRequest
  upstream : Nat → RouteDefinition → ChatPayload → Int → UpstreamReply

inductive DispatchEvent where
  | sent (route : RouteDefinition) (payload : ChatPayload) (reply : UpstreamReply)
  | deprecated (model : String)
  | capped (tokens : Int)

structure DispatchState where
  manager : IsolatedPoolManager
  step : Nat := 0
  log : List DispatchEvent := []

abbrev Dispatching := StateM DispatchState

variable {Json : Type} (lib : DispatchLibraries Json) (around : Surroundings)

/-- A call that holds the lock of the manager. -/
def atOnce {α : Type} (call : IsolatedPoolManager → Clock → α × IsolatedPoolManager) :
    Dispatching α := fun s =>
  let result := call (s.manager.after lib.casing (around.others s.step)) (around.clock s.step)
  (result.1, { s with manager := result.2, step := s.step + 1 })

/-- A call for the sake of its mark. -/
def marking (mark : IsolatedPoolManager → Clock → IsolatedPoolManager) : Dispatching Unit :=
  atOnce lib around fun manager now => ((), mark manager now)

def note (event : DispatchEvent) : Dispatching Unit := fun s =>
  ((), { s with log := s.log ++ [event] })

def executeUpstreamRequest (route : RouteDefinition) (payload : ChatPayload) (timeout : Int) :
    Dispatching UpstreamReply := fun s =>
  let reply := around.upstream s.step route payload timeout
  (reply, { s with step := s.step + 1, log := s.log ++ [.sent route payload reply] })

def markDeprecated (pool model : String) : Dispatching Unit := do
  marking lib around fun manager _ => manager.markDeprecated lib.casing pool model
  note (.deprecated model)

/-! ## Failures -/

/-- `details.get("account_wide")`: of the billing failures, the permanent ones
    have no such entry. -/
def accountWide (classified : FailureClassification) : Bool :=
  classified.reason = .billing && !classified.isPermanent

/-- The provider that `classify_api_error` goes by. -/
def providerOf (route : RouteDefinition) : String :=
  if route.provider ≠ "" then route.provider
  else ((((route.id.splitOn "-").head?.getD "").splitOn ":").getLast?).getD ""

/-- The marks of `classify_api_error`. -/
def markClassified (pool : String) (route : RouteDefinition)
    (classified : FailureClassification) : Dispatching Unit := do
  if pool = "" ∨ route.id = "" then return
  else if classified.reason = .billing then
    let seconds := orNumber classified.retryAfterSeconds 86400
    marking lib around fun manager now =>
      manager.markQuotaExhausted lib.casing pool route.id seconds now
    if accountWide classified then
      marking lib around fun manager now =>
        manager.markProviderQuotaExhausted lib.casing pool (providerOf route) seconds now
  else if classified.reason = .modelNotFound ∨ classified.isPermanent then
    markDeprecated lib around pool route.id

/-- The cap, with room to spare where it is large. -/
def clampedTokens (cap : Nat) : Int := if 64 < cap then max 1 ((cap : Int) - 64) else cap

/-- The tokens to clamp the payload to, if it is to be sent again right away. -/
def clampTokens (payload : ChatPayload) (classified : FailureClassification) (body : String) :
    Except RaisedError (Option Int) := do
  if classified.reason ≠ .outputCapExceeded then return none
  else
    match ← Classifier.parseOutputCapFromError lib.readers body with
    | none | some 0 => return none
    | some cap =>
        match lib.mayClamp payload.maxTokens cap with
        | none => throw (.other "TypeError" "'>' not supported between instances")
        | some exceeds => return if exceeds then some (clampedTokens cap) else none

/-- The payload cut down to the input limit that the error names. -/
def shrinkInput (payload : ChatPayload) (classified : FailureClassification) (body : String) :
    Except RaisedError (Option ChatPayload) := do
  if classified.reason ≠ .payloadTooLarge ∧ classified.reason ≠ .contextOverflow then return none
  else
    match ← Classifier.parseInputTpmLimit lib.readers body with
    | none | some 0 => return none
    | some limit =>
        match pruneOpenaiRequest lib.pruning payload
            { maxContextTokens := max 1000 (lib.shareOf limit) } with
        | none => throw (.other "Exception" "prune_openai_request")
        | some pruned => return some pruned

/-- `min(120, max(30, int(float(retry_after or "60"))))` -/
def rateLimitCooldown (headers : List (String × String)) : Seconds :=
  let retryAfter := (headers.lookup "retry-after").filter (· ≠ "")
  match lib.readers.float (retryAfter.getD "60") with
  | some seconds => min 120 (max 30 (seconds.floor : Seconds))
  | none => 60

/-- What keeps the route, its model or its account out of use from now on. -/
def markFailure (pool : String) (route : RouteDefinition) (classified : FailureClassification)
    (status : Nat) (headers : List (String × String)) : Dispatching Unit := do
  if classified.reason = .billing then
    let message := lib.casing.lower classified.message
    if hasText "free-models-per-day" message ∨ hasText "free model requests" message ∨
        lib.casing.lower route.provider = "openrouter" then
      let resetSec ← atOnce lib around fun manager now =>
        (Classifier.calculateSecondsUntilUtcMidnight now.epoch, manager)
      marking lib around fun manager now =>
        manager.markProviderQuotaExhausted lib.casing pool route.provider resetSec now
    else
      marking lib around fun manager now =>
        manager.markQuotaExhausted lib.casing pool route.id 86400 now
  else if classified.reason = .rateLimit ∨ classified.reason = .upstreamRateLimit then
    marking lib around fun manager now =>
      manager.markCooldown lib.casing pool route.id (rateLimitCooldown lib headers) now
  else if classified.reason = .modelNotFound ∨ status = 404 then
    markDeprecated lib around pool route.model
  else if classified.reason ∈ [.overloaded, .serverError, .timeout, .connectionRefused] then
    marking lib around fun manager now => manager.markCooldown lib.casing pool route.id 30 now

/-- How one turn of the loop ends. -/
inductive TurnEnd (Json : Type) where
  | noRoute
  | answered (parsed : Json) (route : RouteDefinition)
  | raised (error : RaisedError)
  | again (payload : ChatPayload)

/-- After a failure the payload is clamped, or pruned, or the route is marked. -/
def handleFailure (pool : String) (payload : ChatPayload) (route : RouteDefinition)
    (reply : UpstreamReply) (status : Nat) : Dispatching (TurnEnd Json) := do
  let body := lib.decodeIgnoring reply.body
  let now ← atOnce lib around fun manager now => (now.epoch, manager)
  match Classifier.classifyFailure lib.readers now { text := body } (some status) [] with
  | .error e => return .raised e
  | .ok classified => do
      markClassified lib around pool route classified
      match clampTokens lib payload classified body with
      | .error e => return .raised e
      | .ok (some tokens) => do
          note (.capped tokens)
          return .again (payload.setMaxTokens tokens)
      | .ok none =>
          match shrinkInput lib payload classified body with
          | .error e => return .raised e
          | .ok (some pruned) => return .again pruned
          | .ok none => do
              markFailure lib around pool route classified status reply.headers
              return .again payload

/-! ## The loop -/

/-- The answer of a provider in OpenAI's format, if it can be read. -/
def parseReply [JsonCodec Json] (route : RouteDefinition) (reply : UpstreamReply) : Option Json := do
  if reply.status = 200 then
    let raw ← JsonCodec.loads (← Utf8.decode reply.body)
    if route.apiFormat = "gemini" then lib.convertGemini raw route.model else return raw
  else none

/-- The payload, pruned to the window of the route, is sent to it. -/
def tryRoute [JsonCodec Json] (pool : String) (payload : ChatPayload) (route : RouteDefinition) :
    Dispatching (TurnEnd Json) :=
  match pruneOpenaiRequest lib.pruning payload { maxContextTokens := route.contextLength } with
  | none => return .raised (.other "Exception" "prune_openai_request")
  | some pruned => do
      let timeout := calculateAdaptiveTimeout lib route.provider pruned
      let reply ← executeUpstreamRequest around route pruned timeout.floor
      match parseReply lib route reply with
      | some parsed => do
          marking lib around fun manager now =>
            manager.recordRouteSuccess lib.casing pool route.id now
          return .answered parsed route
      | none =>
          handleFailure lib around pool payload route reply
            (if reply.status = 200 then 502 else reply.status)

/-- One turn of the loop. -/
def dispatchTurn [JsonCodec Json] (pool : String) (payload : ChatPayload) :
    Dispatching (TurnEnd Json) := do
  match ← atOnce lib around fun manager now => manager.selectRoute lib.casing pool now with
  | none => return .noRoute
  | some route => tryRoute lib around pool payload route

inductive DispatchResult (Json : Type) where
  | answered (parsed : Json) (route : RouteDefinition)
  | unavailable
  | raised (error : RaisedError)

def dispatch [JsonCodec Json] (pool : String) : Nat → ChatPayload → Dispatching (DispatchResult Json)
  | 0, _ => return .unavailable
  | maxAttempts + 1, payload => do
      match ← dispatchTurn lib around pool payload with
      | .noRoute => return .unavailable
      | .answered parsed route => return .answered parsed route
      | .raised error => return .raised error
      | .again payload => dispatch pool maxAttempts payload

end UniversalFailoverRouter

end DuraLLM
