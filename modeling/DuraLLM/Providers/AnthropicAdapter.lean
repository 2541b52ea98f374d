import DuraLLM.Protocol.OpenAIReassembly

/-! # The Anthropic adapter

The answer of a provider that speaks the Anthropic protocol, as one message or
as the events of a stream.  The two are read apart from each other: the message
as an object, the events line by line with the block that is open.  What has the
wrong shape raises an error, which is `none`; what is added to a text is a text.
-/

namespace DuraLLM

open Text JsonRaw

structure AdaptedToolCall where
  id : JsonRaw
  name : JsonRaw
  arguments : JsonRaw
  rawArguments : String

structure AdaptedResponse where
  responseId : JsonRaw
  model : JsonRaw
  content : Option String
  reasoningContent : JsonRaw
  reasoningSignature : JsonRaw
  toolCalls : List AdaptedToolCall
  finishReason : String
  inputTokens : JsonRaw
  outputTokens : JsonRaw

/-- Arguments without a text get one. -/
def AdaptedToolCall.create (id name arguments : JsonRaw) (rawArguments : String) :
    AdaptedToolCall :=
  { id, name, arguments
    rawArguments :=
      if rawArguments = "" && arguments.truthy then payloadText arguments else rawArguments }

namespace AnthropicAdapter

/-- `finish_map.get(stop_reason, "stop")`; lists and objects are no keys. -/
def finishReason : JsonRaw → Option String
  | .str "end_turn" => some "stop"
  | .str "tool_use" => some "tool_calls"
  | .str "max_tokens" => some "length"
  | .arr _ | .obj _ => none
  | _ => some "stop"

/-! ## One message -/

structure MessageParts where
  textParts : List JsonRaw := []
  reasoning : JsonRaw := null
  signature : JsonRaw := null
  toolCalls : List AdaptedToolCall := []

def MessageParts.addBlock (parts : MessageParts) (b : JsonRaw) : Option MessageParts := do
  let type ← b.get "type" null
  if type.isStr "text" then
    return { parts with textParts := parts.textParts ++ [← b.get "text" (.str "")] }
  else if type.isStr "thinking" then
    return { parts with
      reasoning := ← b.get "thinking" (.str "")
      signature := ← b.get "signature" null }
  else if type.isStr "tool_use" then
    let id ← b.get "id" (.str "")
    let name ← b.get "name" (.str "")
    let input ← b.get "input" (.obj [])
    return { parts with toolCalls := parts.toolCalls ++ [.create id name input ""] }
  else return parts

def readMessage (rawJson : JsonRaw) (endpointModel : String) : Option AdaptedResponse := do
  let content ← WireStreamAssembler.items (← rawJson.get "content" (.arr []))
  let parts ← content.foldlM MessageParts.addBlock {}
  let usage ← rawJson.get "usage" (.obj [])
  let stopReason ← rawJson.get "stop_reason" (.str "end_turn")
  return {
    responseId := ← rawJson.get "id" (.str "")
    model := .str endpointModel
    content := some (String.join (← parts.textParts.mapM asStr))
    reasoningContent := parts.reasoning
    reasoningSignature := parts.signature
    toolCalls := parts.toolCalls
    finishReason := ← finishReason stopReason
    inputTokens := ← usage.get "input_tokens" (int 0)
    outputTokens := ← usage.get "output_tokens" (int 0) }

/-! ## A stream of events -/

structure EventState where
  textParts : List JsonRaw := []
  reasoning : JsonRaw := null
  signature : JsonRaw := null
  toolCalls : List AdaptedToolCall := []
  model : JsonRaw
  msgId : JsonRaw
  inputTokens : JsonRaw := int 0
  outputTokens : JsonRaw := int 0
  stopReason : JsonRaw := .str "end_turn"
  currentBlockType : JsonRaw := null
  currentToolId : JsonRaw := .str ""
  currentToolName : JsonRaw := .str ""
  currentToolInputStr : String := ""

namespace EventState

/-- `text + value` -/
def plus (text value : JsonRaw) : Option JsonRaw := do
  return .str ((← text.asStr) ++ (← value.asStr))

def messageStart (s : EventState) (data : JsonRaw) : Option EventState := do
  let msg ← data.get "message" (.obj [])
  let id ← msg.get "id" null
  let model ← msg.get "model" null
  let usage ← msg.get "usage" (.obj [])
  return { s with
    msgId := id.orElse s.msgId
    model := model.orElse s.model
    inputTokens := ← usage.get "input_tokens" s.inputTokens }

section Drawn

-- the ids that are drawn for calls without one
variable (draw : Nat → String)

def blockStart (s : EventState) (data : JsonRaw) : Option EventState := do
  let cb ← data.get "content_block" (.obj [])
  let type ← cb.get "type" null
  let s := { s with currentBlockType := type }
  if type.isStr "text" then
    return { s with textParts := s.textParts ++ [← cb.get "text" (.str "")] }
  else if type.isStr "thinking" then
    return { s with
      reasoning := ← cb.get "thinking" (.str "")
      signature := ← cb.get "signature" null }
  else if type.isStr "tool_use" then
    return { s with
      currentToolId := ← cb.get "id" (.str ("toolu_" ++ draw s.toolCalls.length))
      currentToolName := ← cb.get "name" (.str "")
      currentToolInputStr := "" }
  else return s

def blockDelta (s : EventState) (data : JsonRaw) : Option EventState := do
  let delta ← data.get "delta" (.obj [])
  let type ← delta.get "type" null
  if type.isStr "text_delta" then
    return { s with textParts := s.textParts ++ [← delta.get "text" (.str "")] }
  else if type.isStr "thinking_delta" then
    let thinking ← delta.get "thinking" (.str "")
    return { s with reasoning := ← plus (s.reasoning.orElse (.str "")) thinking }
  else if type.isStr "input_json_delta" then
    let partialJson ← (← delta.get "partial_json" (.str "")).asStr
    return { s with currentToolInputStr := s.currentToolInputStr ++ partialJson }
  else return s

/-- Arguments that do not decode count as none. -/
def finalArguments (inputStr : String) : JsonRaw :=
  if inputStr = "" then .obj [] else ((JsonValue.loads inputStr).map (·.raw)).getD (.obj [])

def blockStop (s : EventState) : EventState :=
  let toolCalls :=
    if s.currentBlockType.isStr "tool_use" then
      s.toolCalls ++ [.create s.currentToolId s.currentToolName
        (finalArguments s.currentToolInputStr) s.currentToolInputStr]
    else s.toolCalls
  { s with toolCalls, currentBlockType := null }

def messageDelta (s : EventState) (data : JsonRaw) : Option EventState := do
  let delta ← data.get "delta" (.obj [])
  let stopReason ← delta.get "stop_reason" null
  let usage ← data.get "usage" (.obj [])
  return { s with
    stopReason := stopReason.orElse s.stopReason
    outputTokens := ← usage.get "output_tokens" s.outputTokens }

def addData (s : EventState) (data : JsonRaw) : Option EventState := do
  let evtType ← data.get "type" null
  if evtType.isStr "message_start" then s.messageStart data
  else if evtType.isStr "content_block_start" then s.blockStart draw data
  else if evtType.isStr "content_block_delta" then s.blockDelta data
  else if evtType.isStr "content_block_stop" then return s.blockStop
  else if evtType.isStr "message_delta" then s.messageDelta data
  else return s

/-- A line without an object is passed over. -/
def addLine (s : EventState) (rawLine : String) : Option EventState :=
  match lineObject rawLine with
  | none => some s
  | some members => s.addData draw (.obj members)

end Drawn

def response (s : EventState) : Option AdaptedResponse := do
  return {
    responseId := s.msgId
    model := s.model
    content := ← SseState.joinParts s.textParts
    reasoningContent := s.reasoning
    reasoningSignature := s.signature
    toolCalls := s.toolCalls
    finishReason := ← finishReason s.stopReason
    inputTokens := s.inputTokens
    outputTokens := s.outputTokens }

end EventState

def parseAnthropicSse (uuid : String) (draw : Nat → String) (sseText defaultModel : String) :
    Option AdaptedResponse := do
  let fresh : EventState := { model := .str defaultModel, msgId := .str ("msg_" ++ uuid) }
  let s ← (splitlines sseText).foldlM (EventState.addLine draw) fresh
  s.response

/-! ## Either -/

/-- `body_text.startswith("event:") or "\nevent:" in body_text` -/
def isEventStream (bodyText : String) : Bool :=
  (afterPrefix "event:" bodyText).isSome || decide ("\nevent:".toList <:+: bodyText.toList)

/-- The body is given as the text that its bytes decode to. -/
def normalizeResponse (uuid : String) (draw : Nat → String) (endpointModel body : String) :
    Option AdaptedResponse :=
  let bodyText := strip body
  if bodyText = "" then none
  else if isEventStream bodyText then parseAnthropicSse uuid draw bodyText endpointModel
  else do readMessage (← JsonValue.loads bodyText).raw endpointModel

end AnthropicAdapter

end DuraLLM
