import DuraLLM.Lib.Dict
import DuraLLM.Lib.JsonAccess
import DuraLLM.Streaming.Parser

/-! # Assembling a streamed answer

The text, the reasoning and the tool calls of an answer are put together from
the events of its stream, of either protocol.  A payload of the wrong shape
raises an error, which is `none`.
-/

namespace DuraLLM

open JsonRaw

/-- A tool call whose arguments are still arriving. -/
structure StreamedToolCall where
  id : JsonRaw := .str ""
  name : JsonRaw := .str ""
  args : String := ""

structure WireStreamAssembler where
  textContent : String := ""
  reasoningContent : String := ""
  reasoningSignature : JsonRaw := null
  toolCalls : Dict Int StreamedToolCall := .empty
  finishReason : JsonRaw := null

structure AssembledToolCall where
  id : JsonRaw
  name : JsonRaw
  arguments : JsonValue

namespace WireStreamAssembler

/-- The entry under an index, made when it is missing. -/
def entry (w : WireStreamAssembler) (idx : Int) : StreamedToolCall := (w.toolCalls.get idx).getD {}

def setEntry (w : WireStreamAssembler) (idx : Int) (call : StreamedToolCall) :
    WireStreamAssembler :=
  { w with toolCalls := w.toolCalls.set idx call }

/-! ## Anthropic events -/

def contentBlockDelta (w : WireStreamAssembler) (payload : JsonRaw) :
    Option WireStreamAssembler := do
  let delta ← payload.get "delta" (.obj [])
  let dtype ← delta.get "type" null
  if dtype.isStr "text_delta" then
    let text ← (← delta.get "text" (.str "")).asStr
    return { w with textContent := w.textContent ++ text }
  else if dtype.isStr "thinking_delta" then
    let thinking ← (← delta.get "thinking" (.str "")).asStr
    return { w with reasoningContent := w.reasoningContent ++ thinking }
  else if dtype.isStr "signature_delta" then
    return { w with reasoningSignature := ← delta.get "signature" null }
  else if dtype.isStr "input_json_delta" then
    let idx ← (← payload.get "index" (int 0)).asInt
    let more ← (← delta.get "partial_json" (.str "")).asStr
    let call := w.entry idx
    return w.setEntry idx { call with args := call.args ++ more }
  else
    return w

def contentBlockStart (w : WireStreamAssembler) (payload : JsonRaw) :
    Option WireStreamAssembler := do
  let block ← payload.get "content_block" (.obj [])
  if (← block.get "type" null).isStr "tool_use" then
    let idx ← (← payload.get "index" (int 0)).asInt
    return w.setEntry idx
      { id := ← block.get "id" (.str ""), name := ← block.get "name" (.str "") }
  else
    return w

/-! ## OpenAI chunks -/

/-- `text += value`, when there is a value. -/
def appendTruthy (text : String) (value : JsonRaw) : Option String :=
  if value.truthy then value.asStr.map (text ++ ·) else some text

def toolCallDelta (w : WireStreamAssembler) (tc : JsonRaw) : Option WireStreamAssembler := do
  let idx ← (← tc.get "index" (int 0)).asInt
  let call := w.entry idx
  let id ← tc.get "id" null
  let fn ← tc.get "function" (.obj [])
  let name ← fn.get "name" null
  return w.setEntry idx
    { id := if id.truthy then id else call.id
      name := if name.truthy then name else call.name
      args := ← appendTruthy call.args (← fn.get "arguments" null) }

/-- The items a loop over a value goes through. -/
def items : JsonRaw → Option (List JsonRaw)
  | .arr items => some items
  | .obj members => some (members.map fun m => .str m.1)
  | .str s => some (s.toList.map fun c => .str (String.singleton c))
  | .scalar _ => none

def choiceDelta (w : WireStreamAssembler) (c0 : JsonRaw) : Option WireStreamAssembler := do
  let finish ← c0.get "finish_reason" null
  let delta ← c0.get "delta" (.obj [])
  let text ← appendTruthy w.textContent (← delta.get "content" null)
  let reasoning ← appendTruthy w.reasoningContent (← delta.get "reasoning_content" null)
  let tcDeltas ← items (← delta.get "tool_calls" (.arr []))
  let w := { w with
    finishReason := if finish.truthy then finish else w.finishReason
    textContent := text
    reasoningContent := reasoning }
  tcDeltas.foldlM toolCallDelta w

/-- The first of the choices is the one that counts. -/
def firstChoice (w : WireStreamAssembler) (payload : JsonRaw) : Option WireStreamAssembler := do
  match ← payload.get "choices" (.arr []) with
  | .arr (c0 :: _) => w.choiceDelta c0
  | choices => if choices.truthy then none else some w

/-! ## Events -/

/-- Accumulate content from a parsed event of either protocol. -/
def processEvent (w : WireStreamAssembler) (event : ParsedSSEEvent JsonValue) :
    Option WireStreamAssembler := do
  let payload := (event.jsonData.map (·.raw)).getD null
  if event.isDone || !payload.truthy then return w
  let etype ← if event.event ≠ "" then some (.str event.event) else payload.get "type" (.str "")
  let w ←
    if etype.isStr "content_block_delta" then w.contentBlockDelta payload
    else if etype.isStr "content_block_start" then w.contentBlockStart payload
    else some w
  w.firstChoice payload

/-- What a fresh assembler makes of a whole stream. -/
def assemble (events : List (ParsedSSEEvent JsonValue)) : Option WireStreamAssembler :=
  events.foldlM processEvent {}

/-- The tool calls in the order of their indices. Arguments that do not decode are kept raw. -/
def assembledToolCalls (w : WireStreamAssembler) : List AssembledToolCall :=
  (w.toolCalls.keys.mergeSort (· ≤ ·)).map fun idx =>
    let tc := w.entry idx
    { id := tc.id
      name := tc.name
      arguments :=
        if tc.args = "" then .ofRaw (.obj [])
        else (JsonValue.loads tc.args).getD (.ofRaw (.obj [("_raw", .str tc.args)])) }

end WireStreamAssembler

end DuraLLM
