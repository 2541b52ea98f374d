import DuraLLM.Streaming.DataLines

/-! # A streamed answer as one body

A provider may answer with a whole stream of chunks although one body was asked
for.  Its data lines are read up to the end mark, and the fragments they carry
are put together, those of a tool call by its index.  A chunk of the wrong shape
raises an error, which is `none`; an index is a number, and what is added to a
text is a text.  Identifiers that are drawn are parameters.
-/

namespace DuraLLM

open Text JsonRaw

/-! ## Reading -/

structure SseState where
  contentParts : List JsonRaw := []
  reasoningParts : List JsonRaw := []
  toolCallsMap : Dict Int StreamedToolCall := .empty
  finishReason : JsonRaw := .str "stop"
  responseId : JsonRaw
  model : JsonRaw
  promptTokens : JsonRaw := int 0
  completionTokens : JsonRaw := int 0

structure SseToolCall where
  id : JsonRaw
  name : JsonRaw
  arguments : JsonValue
  rawArguments : String

structure SseResponse where
  responseId : JsonRaw
  model : JsonRaw
  content : Option String
  reasoningContent : Option String
  toolCalls : List SseToolCall
  finishReason : JsonRaw
  inputTokens : JsonRaw
  outputTokens : JsonRaw

namespace SseState

/-- `text += value`, when there is a value. -/
def addText (text value : JsonRaw) : Option JsonRaw :=
  if value.truthy then do return .str ((← text.asStr) ++ (← value.asStr)) else some text

/-- `parts.append(value)`, when there is a value. -/
def addPart (parts : List JsonRaw) (value : JsonRaw) : List JsonRaw :=
  if value.truthy then parts ++ [value] else parts

/-- The first fragment of a tool call. -/
def startCall (id fn : JsonRaw) : Option StreamedToolCall := do
  return { id, name := ← fn.get "name" (.str "") }

def continueCall (call : StreamedToolCall) (id fn : JsonRaw) : Option StreamedToolCall := do
  return { call with id := id.orElse call.id, name := ← addText call.name (← fn.get "name" null) }

section Reading

variable (draw : Int → String)

def addToolCall (s : SseState) (tc : JsonRaw) : Option SseState := do
  let idx ← (← tc.get "index" (int 0)).asInt
  let id ← tc.get "id" null
  let fn ← tc.get "function" (.obj [])
  let call ←
    match s.toolCallsMap.get idx with
    | none => startCall (id.orElse (.str ("call_" ++ draw idx))) fn
    | some call => continueCall call id fn
  let args ← WireStreamAssembler.appendTruthy call.args (← fn.get "arguments" null)
  return { s with toolCallsMap := s.toolCallsMap.set idx { call with args } }

def addChoice (s : SseState) (choice : JsonRaw) : Option SseState := do
  let fr ← choice.get "finish_reason" null
  let delta ← choice.get "delta" (.obj [])
  let content ← delta.get "content" null
  let reasoning ← delta.get "reasoning" null
  let reasoningContent ← delta.get "reasoning_content" null
  let tcs ← WireStreamAssembler.items (← delta.get "tool_calls" (.arr []))
  tcs.foldlM (addToolCall draw)
    { s with
      finishReason := fr.orElse s.finishReason
      contentParts := addPart s.contentParts content
      reasoningParts := addPart s.reasoningParts (reasoning.orElse reasoningContent) }

/-- Only an object counts as usage. -/
def addUsage (s : SseState) : JsonRaw → SseState
  | .obj members =>
      { s with
        promptTokens := (members.lookup "prompt_tokens").getD s.promptTokens
        completionTokens := (members.lookup "completion_tokens").getD s.completionTokens }
  | _ => s

def addChunk (s : SseState) (chunk : JsonRaw) : Option SseState := do
  let id ← chunk.get "id" null
  let model ← chunk.get "model" null
  let usage ← chunk.get "usage" null
  let choices ← WireStreamAssembler.items (← chunk.get "choices" (.arr []))
  choices.foldlM (addChoice draw)
    ({ s with responseId := id.orElse s.responseId, model := model.orElse s.model }.addUsage usage)

/-- The loop over the lines. -/
def readLines (s : SseState) : List String → Option SseState
  | [] => some s
  | rawLine :: rest =>
      let line := strip rawLine
      if line = "" || (afterPrefix ":" line).isSome then readLines s rest
      else match (afterPrefix "data:" line).map strip with
        | none => readLines s rest
        | some data =>
            if data = "[DONE]" then some s
            else match JsonValue.loads data with
              | some ⟨.obj members, _⟩ => do readLines (← s.addChunk draw (.obj members)) rest
              | _ => readLines s rest

end Reading

/-- `"".join(parts) if parts else None` -/
def joinParts : List JsonRaw → Option (Option String)
  | [] => some none
  | parts => do return some (String.join (← parts.mapM asStr))

/-- Arguments that do not decode count as none. -/
def finalToolCall (tc : StreamedToolCall) : SseToolCall :=
  { id := tc.id
    name := tc.name
    arguments :=
      if tc.args = "" then .ofRaw (.obj []) else (JsonValue.loads tc.args).getD (.ofRaw (.obj []))
    rawArguments := tc.args }

def finalToolCalls (s : SseState) : List SseToolCall :=
  (s.toolCallsMap.keys.mergeSort (· ≤ ·)).map fun idx =>
    finalToolCall ((s.toolCallsMap.get idx).getD {})

def response (s : SseState) : Option SseResponse := do
  return {
    responseId := s.responseId
    model := s.model
    content := ← joinParts s.contentParts
    reasoningContent := ← joinParts s.reasoningParts
    toolCalls := s.finalToolCalls
    finishReason := s.finishReason
    inputTokens := s.promptTokens
    outputTokens := s.completionTokens }

end SseState

def sseChunksToIr (uuid : String) (draw : Int → String) (sseText defaultModel : String) :
    Option SseResponse := do
  let fresh : SseState := { responseId := .str ("resp_" ++ uuid), model := .str defaultModel }
  let s ← fresh.readLines draw (splitlines sseText)
  s.response

/-! ## Streams -/

/-- A fragment of the tool call with this index. -/
structure CallDelta where
  index : Nat
  id : Option String := none
  name : Option String := none
  arguments : Option String := none

structure ChoiceDelta where
  role : Bool := false
  content : Option String := none
  reasoning : Option String := none
  calls : List CallDelta := []
  finish : Option String := none

/-- A chunk of an OpenAI stream, and the style it is written in.  Its ids are no text of the answer:
    they do not tear the line. -/
structure StreamChunk where
  style : JsonStyle
  id : String
  model : String
  created : Int
  choices : List ChoiceDelta
  usage : Option (Nat × Nat) := none
  wholeId : JsonString.Untorn id
  wholeModel : JsonString.Untorn model

/-- A member that may be missing. -/
def optionalMember (key : String) (value : Option String) : List (String × JsonRaw) :=
  value.toList.map fun text => (key, .str text)

namespace CallDelta

def function (d : CallDelta) : List (String × JsonRaw) :=
  optionalMember "name" d.name ++ optionalMember "arguments" d.arguments

/-- The first fragment says of what type the call is. -/
def payload (d : CallDelta) : JsonRaw :=
  .obj (("index", int d.index) ::
    (optionalMember "id" d.id ++ (if d.id.isSome then [("type", .str "function")] else []) ++
      (if d.function.isEmpty then [] else [("function", .obj d.function)])))

end CallDelta

namespace ChoiceDelta

def delta (d : ChoiceDelta) : List (String × JsonRaw) :=
  (if d.role then [("role", .str "assistant")] else []) ++
    (optionalMember "content" d.content ++ (optionalMember "reasoning_content" d.reasoning ++
      (if d.calls.isEmpty then [] else [("tool_calls", .arr (d.calls.map CallDelta.payload))])))

def payload (d : ChoiceDelta) : JsonRaw :=
  .obj [("index", int 0), ("delta", .obj d.delta),
    ("finish_reason", (d.finish.map JsonRaw.str).getD null)]

end ChoiceDelta

namespace StreamChunk

def members (chunk : StreamChunk) : List (String × JsonRaw) :=
  [("id", .str chunk.id), ("object", .str "chat.completion.chunk"), ("created", int chunk.created),
    ("model", .str chunk.model), ("choices", .arr (chunk.choices.map ChoiceDelta.payload))] ++
    (chunk.usage.toList.map fun usage =>
      ("usage", .obj [("prompt_tokens", int usage.1), ("completion_tokens", int usage.2)]))

def frame (chunk : StreamChunk) : String :=
  dataFrame (String.ofList ((obj chunk.members).write chunk.style))

end StreamChunk

def streamText (chunks : List StreamChunk) : String :=
  String.join (chunks.map StreamChunk.frame) ++ dataFrame "[DONE]"

end DuraLLM
