import DuraLLM.Models

/-! # Protocol records

The neutral request and response that every provider is translated to and
from, the endpoint a request is sent to, and the records of one attempt.
`Json` is the type of JSON objects.  Fields that no modelled function reads are
left out.
-/

namespace DuraLLM

structure NormalizedToolDefinition (Json : Type) where
  name : String
  parameters : Json
  description : String := ""
  cacheControl : Option Json := none

/-- What the gateway tells the client about a tool call. -/
structure ToolCallMetadata (Json : Type) where
  ledgerCallId : Option String := none
  replayed : Bool := false
  executionReceipt : Option Json := none
  rawArgumentsBeforeNormalization : Option String := none

structure NormalizedToolCall (Json : Type) where
  id : String
  name : String
  arguments : Json
  rawArguments : String := ""
  metadata : ToolCallMetadata Json := {}

structure NormalizedToolResult where
  toolCallId : String
  toolName : Option String := none
  content : String := ""
  isError : Bool := false

structure NormalizedMessage (Json : Type) where
  role : String
  content : String := ""
  reasoningContent : Option String := none
  toolCalls : List (NormalizedToolCall Json) := []
  toolResults : List NormalizedToolResult := []
  name : Option String := none
  reasoningSignature : Option String := none
  cacheControl : Option Json := none

structure NormalizedRequest (Json : Type) where
  requestId : String
  messages : List (NormalizedMessage Json) := []
  systemInstruction : Option String := none
  tools : List (NormalizedToolDefinition Json) := []
  maxOutputTokens : Option Int := none
  model : String := "default"
  systemCacheControl : Option Json := none
  toolChoice : Option Json := none
  temperature : Option ℚ := none
  stream : Bool := false

/-- The default of the response id is drawn at random; here the empty text stands for it. -/
structure NormalizedResponse (Json : Type) where
  responseId : String := ""
  content : Option String := none
  reasoningContent : Option String := none
  reasoningSignature : Option String := none
  toolCalls : List (NormalizedToolCall Json) := []
  finishReason : String := "stop"
  inputTokens : Int := 0
  outputTokens : Int := 0

inductive CapabilityVerificationStatus where
  | unknown
  | verified
  | unavailable
  | degraded
  deriving DecidableEq, Repr

structure PrivacyProfile where
  region : Option String := none
  compliance : List String := []
  allowsExternalTraffic : Bool := true
  deriving DecidableEq

/-- A capability that is `none` is undeclared. -/
structure ModelProfile where
  provider : String
  model : String
  contextWindow : Int := 65536
  maxOutputTokens : Int := 4096
  supportsTools : Option Bool := some true
  supportsParallelTools : Option Bool := some true
  supportsStructuredOutput : Option Bool := some true
  supportsVision : Bool := false
  supportsReasoning : Bool := false
  supportsStreaming : Bool := true
  isFree : Bool := false
  inputPricePer1m : ℚ := 0
  outputPricePer1m : ℚ := 0
  privacy : PrivacyProfile := {}
  verificationStatus : CapabilityVerificationStatus := .unknown
  capabilityExpiresAt : Option Seconds := none
  tokenizerId : String := "approx_chars_v1"
  tokenizerRevision : Option String := none
  expectedQualityScore : Option ℚ := none
  qualityConfidence : ℚ := 0
  qualityProvenance : Option String := none
  deriving DecidableEq

structure Endpoint where
  id : String
  provider : String
  model : String
  protocol : String := "openai"
  deployment : Option String := none
  quotaBucketId : Option String := none
  envKey : Option String := none
  envKeys : List String := []
  priority : Int := 1
  profile : Option ModelProfile := none
  pool : String := "general_agent"
  resourceLane : Option String := none
  deriving DecidableEq

/-- White space, as `str.strip` removes it. -/
def isSpace (c : Char) : Bool :=
  let n := c.toNat
  (0x09 ≤ n && n ≤ 0x0d) || (0x1c ≤ n && n ≤ 0x20) || n == 0x85 || n == 0xa0 || n == 0x1680 ||
    (0x2000 ≤ n && n ≤ 0x200a) || n == 0x2028 || n == 0x2029 || n == 0x202f || n == 0x205f ||
    n == 0x3000

/-- `value or default` on an optional text. -/
def orText (value : Option String) (default : String) : String :=
  match value with
  | none => default
  | some text => if text = "" then default else text

/-- `value or default` on an optional number. -/
def orNumber {α : Type} [Zero α] [DecidableEq α] (value : Option α) (default : α) : α :=
  match value with
  | none => default
  | some n => if n = 0 then default else n

/-- Provider, deployment, model and quota bucket: the identity of a breaker. -/
def Endpoint.resourceKey (endpoint : Endpoint) : String :=
  endpoint.provider ++ ":" ++ orText endpoint.deployment "default" ++ ":" ++ endpoint.model ++ ":" ++
    orText endpoint.quotaBucketId "default"

structure RequirementVector where
  requireTools : Bool := false
  requireParallelTools : Bool := false
  requireStructuredOutput : Bool := false
  requireVision : Bool := false
  requireReasoning : Bool := false
  minimumContextTokens : Int := 0
  maximumCostUsd : Option ℚ := none
  latencyBudgetMs : Option ℚ := none
  taskClass : String := "general"
  allowedProviders : Option (List String) := none
  forbiddenProviders : Option (List String) := none
  estimatedInputTokens : Int := 0
  expectedOutputTokens : Int := 0
  safetyMarginTokens : Int := 0
  allowContextCompaction : Bool := true
  requiredRegion : Option String := none
  requiredCompliance : Option (List String) := none
  allowExternalTraffic : Option Bool := none
  requireVerifiedCapabilities : Bool := false
  minimumQualityScore : Option ℚ := none
  allowQualityDegradation : Bool := false
  budgetScope : Option String := none
  budgetLimitUsd : Option ℚ := none
  prefixHash : Option String := none
  deriving DecidableEq

def RequirementVector.estimatedCostUsd (r : RequirementVector) (profile : ModelProfile) : ℚ :=
  let outTokens := orNumber (some r.expectedOutputTokens) (min 4096 profile.contextWindow)
  (r.estimatedInputTokens * profile.inputPricePer1m + outTokens * profile.outputPricePer1m) / 1000000

structure PreparedRequest where
  url : String
  headers : List (String × String)
  bodyBytes : List UInt8
  method : String := "POST"
  deriving DecidableEq

/-- What an adapter brings back from the provider. -/
structure ExecutionResult where
  statusCode : Nat
  body : List UInt8 := []
  headers : List (String × String) := []
  durationMs : ℚ := 0
  deriving DecidableEq

structure AttemptRecord where
  attemptId : String
  requestId : String
  provider : String
  model : String
  endpointId : String
  attemptIndex : Nat
  fallbackIndex : Nat
  startTimeMonotonic : Seconds
  endTimeMonotonic : Option Seconds := none
  latencyMs : ℚ := 0
  statusCode : Option Nat := none
  success : Bool := false
  failure : Option FailureClassification := none
  compacted : Bool := false
  deriving DecidableEq

def AttemptRecord.finish (attempt : AttemptRecord) (now : Seconds) (success : Bool)
    (statusCode : Nat) (failure : Option FailureClassification) : AttemptRecord :=
  { attempt with
    endTimeMonotonic := some now
    latencyMs := max 0 ((now - attempt.startTimeMonotonic) * 1000)
    success
    statusCode := some statusCode
    failure }

end DuraLLM
