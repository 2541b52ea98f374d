import DuraLLM.Providers.AnthropicAdapter

/-! # What the adapters read

The OpenAI-compatible adapter reads one completion or a whole stream of chunks,
the Gemini adapter one reply, and all three adapters end with a response of the
same shape.  Its members are values whose type nobody has checked.  A raised
error is `none`.
-/

namespace DuraLLM

open Text JsonRaw

/-- A `NormalizedResponse` as it comes from an upstream body. -/
structure DecodedResponse where
  responseId : JsonRaw
  model : JsonRaw
  content : JsonRaw := null
  reasoningContent : JsonRaw := null
  reasoningSignature : JsonRaw := null
  toolCalls : List AdaptedToolCall := []
  finishReason : JsonRaw := .str "stop"
  inputTokens : JsonRaw := int 0
  outputTokens : JsonRaw := int 0

/-- A text or `None`. -/
def optionalText : Option String → JsonRaw
  | none => null
  | some text => .str text

def AdaptedResponse.decoded (r : AdaptedResponse) : DecodedResponse :=
  { r with
    content := optionalText r.content
    finishReason := .str r.finishReason }

def SseToolCall.adapted (tc : SseToolCall) : AdaptedToolCall :=
  .create tc.id tc.name tc.arguments.raw tc.rawArguments

def SseResponse.decoded (r : SseResponse) : DecodedResponse :=
  { r with
    content := optionalText r.content
    reasoningContent := optionalText r.reasoningContent
    toolCalls := r.toolCalls.map (·.adapted) }

/-- `x[0] if x else {}`; nothing but a list has a first item with members. -/
def firstOf (items : JsonRaw) : Option JsonRaw :=
  if items.truthy then
    match items with
    | .arr (first :: _) => some first
    | _ => none
  else some (.obj [])

/-! ## The OpenAI adapter -/

namespace OpenAIAdapter

section Completion

-- what `str` makes of a value that is no text, and the ids drawn for calls without one
variable (str : JsonRaw → String) (draw : Nat → String)

/-- `str(raw_args)` -/
def argumentsOf : JsonRaw → String
  | .str text => text
  | value => str value

def toolCallToIr (n : Nat) (tc : JsonRaw) : Option AdaptedToolCall := do
  let fn ← tc.get "function" (.obj [])
  let rawArgs ← fn.get "arguments" (.str "\x7b\x7d")
  let id ← tc.get "id" null
  let name ← fn.get "name" (.str "")
  let id := id.orElse (.str ("call_" ++ draw n))
  match rawArgs with
  | .obj _ => return .create id name rawArgs (payloadText rawArgs)
  | _ =>
      let rawStr := argumentsOf str rawArgs
      return .create id name (((JsonValue.loads rawStr).map (·.raw)).getD (.obj [])) rawStr

def toolCallsToIr (n : Nat) : List JsonRaw → Option (List AdaptedToolCall)
  | [] => some []
  | tc :: calls => do return (← toolCallToIr str draw n tc) :: (← toolCallsToIr (n + 1) calls)

def openaiResponseToIr (uuid : String) (openaiResp : JsonRaw) : Option DecodedResponse := do
  let firstChoice ← firstOf (← openaiResp.get "choices" (.arr []))
  let msg ← firstChoice.get "message" (.obj [])
  let reasoning ← msg.get "reasoning_content" null
  let thinking ← msg.get "thinking" null
  let calls ← WireStreamAssembler.items (← msg.get "tool_calls" (.arr []))
  let usage ← openaiResp.get "usage" (.obj [])
  return {
    responseId := ← openaiResp.get "id" (.str ("resp_" ++ uuid))
    model := ← openaiResp.get "model" (.str "default")
    content := ← msg.get "content" null
    reasoningContent := reasoning.orElse thinking
    toolCalls := ← toolCallsToIr str draw 0 calls
    finishReason := ← firstChoice.get "finish_reason" (.str "stop")
    inputTokens := ← usage.get "prompt_tokens" (int 0)
    outputTokens := ← usage.get "completion_tokens" (int 0) }

end Completion

/-- `body_text.startswith("data:") or "\ndata:" in body_text` -/
def isChunkStream (bodyText : String) : Bool :=
  (afterPrefix "data:" bodyText).isSome || decide ("\ndata:".toList <:+: bodyText.toList)

end OpenAIAdapter

/-! ## The Gemini adapter -/

namespace GeminiAdapter

/-- `key in value`; numbers have no members. -/
def hasMember (key : String) : JsonRaw → Option Bool
  | .obj members => some (members.lookup key).isSome
  | .arr items => some (items.any (·.isStr key))
  | .str text => some (decide (key.toList <:+: text.toList))
  | .scalar _ => none

/-- `value[key]`, where the key is known to be in the value. -/
def member (key : String) : JsonRaw → Option JsonRaw
  | .obj members => members.lookup key
  | _ => none

section Reply

-- what `str` makes of a value, and the digest of a body without an id
variable (str digest : JsonRaw → String)

def geminiResponseId (geminiResp : JsonRaw) : Option String := do
  match ← geminiResp.get "responseId" null with
  | .str rid => return if rid = "" then "gemini_" ++ digest geminiResp else rid
  | _ => return "gemini_" ++ digest geminiResp

def functionCallToIr (responseId : String) (index : Nat) (fc : JsonRaw) : Option AdaptedToolCall := do
  let args ← fc.get "args" (.obj [])
  let name ← fc.get "name" (.str "")
  let id : JsonRaw := .str ("call_" ++ responseId ++ "_" ++ toString index)
  match args with
  | .obj _ => return .create id name args (payloadText args)
  | _ => return .create id name (.obj []) (OpenAIAdapter.argumentsOf str args)

/-- The texts and the calls of the parts from this index on. -/
def readParts (responseId : String) (index : Nat) :
    List JsonRaw → Option (List JsonRaw × List AdaptedToolCall)
  | [] => some ([], [])
  | p :: parts =>
      do
        if ← hasMember "text" p then
          let text ← member "text" p
          let (texts, calls) ← readParts responseId (index + 1) parts
          return (text :: texts, calls)
        else if ← hasMember "functionCall" p then
          let call ← functionCallToIr str responseId index (← member "functionCall" p)
          let (texts, calls) ← readParts responseId (index + 1) parts
          return (texts, call :: calls)
        else readParts responseId (index + 1) parts

def geminiResponseToIr (geminiResp : JsonRaw) (modelName : String) : Option DecodedResponse := do
  let candidates ← geminiResp.get "candidates" (.arr [])
  let responseId ← geminiResponseId digest geminiResp
  if candidates.truthy then
    let first ← firstOf candidates
    let contentObj ← first.get "content" (.obj [])
    let parts ← WireStreamAssembler.items (← contentObj.get "parts" (.arr []))
    let (textPieces, toolCalls) ← readParts str responseId 0 parts
    let usage ← geminiResp.get "usageMetadata" (.obj [])
    return {
      responseId := .str responseId
      model := .str modelName
      content := optionalText (← SseState.joinParts textPieces)
      toolCalls
      finishReason := .str (if toolCalls.isEmpty then "stop" else "tool_calls")
      inputTokens := ← usage.get "promptTokenCount" (int 0)
      outputTokens := ← usage.get "candidatesTokenCount" (int 0) }
  else return { responseId := .str responseId, model := .str modelName, content := .str "" }

end Reply

end GeminiAdapter

/-! ## All of them -/

inductive ProviderAdapter where
  | openai
  | anthropic
  | gemini

/-- What the language decides, and what is drawn for one response. -/
structure ReplyContext where
  str : JsonRaw → String
  digest : JsonRaw → String
  uuid : String
  drawChunk : Int → String
  draw : Nat → String

variable (context : ReplyContext) (endpointModel body : String)

/-- The body is given as the text that its bytes decode to. -/
def OpenAIAdapter.normalizeResponse : Option DecodedResponse :=
  let bodyText := strip body
  if bodyText = "" then none
  else if isChunkStream bodyText then
    (sseChunksToIr context.uuid context.drawChunk bodyText endpointModel).map (·.decoded)
  else do
    openaiResponseToIr context.str context.draw context.uuid (← JsonValue.loads bodyText).raw

def GeminiAdapter.normalizeResponse : Option DecodedResponse := do
  geminiResponseToIr context.str context.digest (← JsonValue.loads body).raw endpointModel

def ProviderAdapter.normalizeResponse : ProviderAdapter → Option DecodedResponse
  | .openai => OpenAIAdapter.normalizeResponse context endpointModel body
  | .anthropic =>
      (AnthropicAdapter.normalizeResponse context.uuid context.draw endpointModel body).map
        (·.decoded)
  | .gemini => GeminiAdapter.normalizeResponse context endpointModel body

end DuraLLM
