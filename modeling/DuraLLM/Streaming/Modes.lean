import DuraLLM.Lib.JsonAccess
import DuraLLM.Protocol.Ir

/-! # Synthetic streams

A buffered and validated response is replayed to the client as server-sent
events of its protocol.  The time of day is a parameter.
-/

namespace DuraLLM

open JsonRaw

/-- `json.dumps(payload, ensure_ascii=False)` -/
def payloadText (payload : JsonRaw) : String := String.ofList (payload.write .verbatim)

/-- A frame with an event line. -/
def eventFrame (event : String) (payload : JsonRaw) : String :=
  "event: " ++ event ++ "\n" ++ "data: " ++ payloadText payload ++ "\n\n"

/-- A frame without one. -/
def dataFrame (data : String) : String := "data: " ++ data ++ "\n\n"

/-- An id with the mark of its protocol in front. -/
def marked (mark responseId : String) : String :=
  if responseId.startsWith mark then responseId else mark ++ responseId

/-- `tc.raw_arguments or json.dumps(tc.arguments)` -/
def argumentsText (style : JsonStyle) (tc : NormalizedToolCall JsonValue) : String :=
  if tc.rawArguments ≠ "" then tc.rawArguments else tc.arguments.dumps style

/-! ## Anthropic -/

def blockStart (idx : Nat) (block : List (String × JsonRaw)) : String × JsonRaw :=
  ("content_block_start",
    .obj [("type", .str "content_block_start"), ("index", int idx), ("content_block", .obj block)])

def blockDelta (idx : Nat) (delta : List (String × JsonRaw)) : String × JsonRaw :=
  ("content_block_delta",
    .obj [("type", .str "content_block_delta"), ("index", int idx), ("delta", .obj delta)])

def blockStop (idx : Nat) : String × JsonRaw :=
  ("content_block_stop", .obj [("type", .str "content_block_stop"), ("index", int idx)])

def messageStart (resp : NormalizedResponse JsonValue) (requestedModel : String) :
    String × JsonRaw :=
  ("message_start",
    .obj [("type", .str "message_start"),
      ("message", .obj [
        ("id", .str (marked "msg_" resp.responseId)), ("type", .str "message"),
        ("role", .str "assistant"), ("model", .str requestedModel), ("content", .arr []),
        ("stop_reason", null), ("stop_sequence", null),
        ("usage", .obj [("input_tokens", int resp.inputTokens), ("output_tokens", int 1)])])])

def thinkingBlock (idx : Nat) (thinking : String) (signature : Option String) :
    List (String × JsonRaw) :=
  blockStart idx [("type", .str "thinking"), ("thinking", .str "")] ::
    blockDelta idx [("type", .str "thinking_delta"), ("thinking", .str thinking)] ::
    ((if orText signature "" ≠ "" then
        [blockDelta idx
          [("type", .str "signature_delta"), ("signature", .str (orText signature ""))]]
      else []) ++ [blockStop idx])

def textBlock (idx : Nat) (text : String) : List (String × JsonRaw) :=
  [blockStart idx [("type", .str "text"), ("text", .str "")],
    blockDelta idx [("type", .str "text_delta"), ("text", .str text)],
    blockStop idx]

def toolUseBlock (idx : Nat) (tc : NormalizedToolCall JsonValue) : List (String × JsonRaw) :=
  [blockStart idx
      [("type", .str "tool_use"), ("id", .str tc.id), ("name", .str tc.name), ("input", .obj [])],
    blockDelta idx
      [("type", .str "input_json_delta"), ("partial_json", .str (argumentsText .verbatim tc))],
    blockStop idx]

def toolUseBlocks (idx : Nat) : List (NormalizedToolCall JsonValue) → List (String × JsonRaw)
  | [] => []
  | tc :: calls => toolUseBlock idx tc ++ toolUseBlocks (idx + 1) calls

def stopReason (finishReason : String) : String :=
  if finishReason = "stop" then "end_turn"
  else if finishReason = "tool_calls" then "tool_use"
  else if finishReason = "length" then "max_tokens"
  else "end_turn"

def messageEnd (resp : NormalizedResponse JsonValue) : List (String × JsonRaw) :=
  [("message_delta",
      .obj [("type", .str "message_delta"),
        ("delta", .obj [
          ("stop_reason", .str (stopReason resp.finishReason)), ("stop_sequence", null)]),
        ("usage", .obj [("output_tokens", int resp.outputTokens)])]),
    ("message_stop", .obj [("type", .str "message_stop")])]

/-- The events of a response. A block takes the next index when there is something to put in it. -/
def anthropicEvents (resp : NormalizedResponse JsonValue) (requestedModel : String) :
    List (String × JsonRaw) :=
  let thinking := orText resp.reasoningContent ""
  let text := orText resp.content ""
  let afterThinking := if thinking ≠ "" then 1 else 0
  let afterText := if text ≠ "" then afterThinking + 1 else afterThinking
  messageStart resp requestedModel ::
    ((if thinking ≠ "" then thinkingBlock 0 thinking resp.reasoningSignature else []) ++
      (if text ≠ "" then textBlock afterThinking text else []) ++
      toolUseBlocks afterText resp.toolCalls ++
      messageEnd resp)

def synthesizeAnthropicSse (resp : NormalizedResponse JsonValue) (requestedModel : String) :
    List String :=
  (anthropicEvents resp requestedModel).map fun event => eventFrame event.1 event.2

/-! ## OpenAI -/

def toolCallChunk (idx : Nat) (tc : NormalizedToolCall JsonValue) : JsonRaw :=
  .obj [("index", int idx), ("id", .str tc.id), ("type", .str "function"),
    ("function", .obj [
      ("name", .str tc.name), ("arguments", .str (argumentsText .spaced tc))])]

def toolCallChunks (idx : Nat) : List (NormalizedToolCall JsonValue) → List JsonRaw
  | [] => []
  | tc :: calls => toolCallChunk idx tc :: toolCallChunks (idx + 1) calls

/-- An empty part of the answer is left out. -/
def openaiDelta (resp : NormalizedResponse JsonValue) : JsonRaw :=
  .obj (("role", .str "assistant") ::
    ((if orText resp.content "" ≠ "" then [("content", .str (orText resp.content ""))] else []) ++
      (if orText resp.reasoningContent "" ≠ "" then
        [("reasoning_content", .str (orText resp.reasoningContent ""))] else []) ++
      (if resp.toolCalls ≠ [] then
        [("tool_calls", .arr (toolCallChunks 0 resp.toolCalls))] else [])))

/-- The finish reason that is sent. -/
def sentFinishReason (resp : NormalizedResponse JsonValue) : String :=
  if resp.toolCalls ≠ [] then "tool_calls" else resp.finishReason

def openaiChunk (resp : NormalizedResponse JsonValue) (requestedModel : String) (now : Int) :
    JsonRaw :=
  .obj [("id", .str (marked "chatcmpl-" resp.responseId)),
    ("object", .str "chat.completion.chunk"), ("created", int now), ("model", .str requestedModel),
    ("choices", .arr [
      .obj [("index", int 0), ("delta", openaiDelta resp),
        ("finish_reason", .str (sentFinishReason resp))]])]

def synthesizeOpenaiSse (resp : NormalizedResponse JsonValue) (requestedModel : String)
    (now : Int) : List String :=
  [dataFrame (payloadText (openaiChunk resp requestedModel now)), dataFrame "[DONE]"]

end DuraLLM
