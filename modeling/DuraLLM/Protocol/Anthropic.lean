import DuraLLM.Lib.JsonAccess
import DuraLLM.Lib.Text
import DuraLLM.Protocol.Ir

/-! # Anthropic requests

The body of a messages request, with its members' defaults, how it becomes a
neutral request, and how a neutral request becomes a body.  Where the code calls
`str` on a value that is no text, the body holds the text that `str` gives.  The
ids that are drawn for tool uses without one are a parameter, by the place of
the block.
-/

namespace DuraLLM

open Text

/-! ## The body -/

inductive ToolInput where
  | object (input : JsonValue)
  | other (text : String)

inductive ToolResultContent where
  | text (text : String)
  /-- The `text` members of the parts that are objects. -/
  | parts (texts : List String)

inductive BlockContent where
  | text (text : String)
  | thinking (thinking : String) (signature : Option String)
  | toolUse (id : Option String) (name : String) (input : ToolInput)
  | toolResult (toolUseId : String) (content : ToolResultContent) (isError : Bool)
  | other

structure ContentBlock where
  content : BlockContent
  cacheControl : Option JsonValue := none

inductive MessageContent where
  | text (text : String)
  | blocks (blocks : List ContentBlock)
  | other (text : String)

structure AnthropicMessage where
  role : String := "user"
  content : MessageContent

structure SystemBlock where
  /-- The text of a text block. -/
  text : Option String
  cacheControl : Option JsonValue := none

inductive SystemPrompt where
  | text (text : String)
  | blocks (blocks : List SystemBlock)

structure AnthropicTool where
  name : String := ""
  description : String := ""
  inputSchema : JsonValue :=
    .ofRaw (.obj [("type", .str "object"), ("properties", .obj [])])
  cacheControl : Option JsonValue := none

structure AnthropicBody where
  model : String := "auto-coding-agent"
  system : Option SystemPrompt := none
  tools : List AnthropicTool := []
  messages : List AnthropicMessage := []
  toolChoice : Option JsonValue := none
  maxTokens : Option Int := none
  temperature : Option ℚ := none
  stream : Bool := false

/-! ## Messages -/

namespace ContentBlock

def text (b : ContentBlock) : Option String :=
  match b.content with
  | .text text => some text
  | _ => none

def thinking (b : ContentBlock) : Option String :=
  match b.content with
  | .thinking thinking _ => some thinking
  | _ => none

def signature (b : ContentBlock) : Option String :=
  match b.content with
  | .thinking _ signature => signature.filter (· ≠ "")
  | _ => none

/-- A tool use; `hex` is drawn for its id when it has none. -/
def toolCall (hex : String) (b : ContentBlock) : Option (NormalizedToolCall JsonValue) :=
  match b.content with
  | .toolUse id name (.object input) =>
      some {
        id := orText id ("toolu_" ++ hex)
        name
        arguments := input
        rawArguments := input.dumps .verbatim }
  | .toolUse id name (.other text) =>
      some {
        id := orText id ("toolu_" ++ hex)
        name
        arguments := .ofRaw (.obj [])
        rawArguments := text }
  | _ => none

def toolResult (b : ContentBlock) : Option NormalizedToolResult :=
  match b.content with
  | .toolResult toolUseId (.text text) isError =>
      some { toolCallId := toolUseId, content := text, isError }
  | .toolResult toolUseId (.parts texts) isError =>
      some { toolCallId := toolUseId, content := joinLines texts, isError }
  | _ => none

end ContentBlock

/-- The tool calls of the blocks, from the block with this number on. -/
def blockToolCalls (draw : Nat → String) (n : Nat) :
    List ContentBlock → List (NormalizedToolCall JsonValue)
  | [] => []
  | b :: blocks => (b.toolCall (draw n)).toList ++ blockToolCalls draw (n + 1) blocks

def anthropicMessageToIr (draw : Nat → String) (msg : AnthropicMessage) :
    NormalizedMessage JsonValue :=
  match msg.content with
  | .text text | .other text => { role := msg.role, content := text }
  | .blocks blocks =>
      let reasoningParts := blocks.filterMap (·.thinking)
      { role := msg.role
        content := joinLines (blocks.filterMap (·.text))
        reasoningContent := if reasoningParts = [] then none else some (joinLines reasoningParts)
        -- a signature covers the exact text of one block
        reasoningSignature :=
          if reasoningParts.length = 1 then (blocks.filterMap (·.signature)).head? else none
        toolCalls := blockToolCalls draw 0 blocks
        toolResults := blocks.filterMap (·.toolResult)
        cacheControl := (blocks.filterMap (·.cacheControl)).getLast? }

/-- The messages, from the one with this number on. -/
def anthropicMessagesToIr (draw : Nat → Nat → String) (n : Nat) :
    List AnthropicMessage → List (NormalizedMessage JsonValue)
  | [] => []
  | msg :: messages =>
      anthropicMessageToIr (draw n) msg :: anthropicMessagesToIr draw (n + 1) messages

/-! ## Requests -/

def systemText : Option SystemPrompt → Option String
  | some (.text text) => if text = "" then none else some text
  | some (.blocks blocks) =>
      let parts := blocks.filterMap (·.text)
      if parts = [] then none else some (joinLines parts)
  | none => none

def systemCacheControl : Option SystemPrompt → Option JsonValue
  | some (.blocks blocks) => (blocks.filterMap (·.cacheControl)).head?
  | _ => none

def anthropicRequestToIr (requestId : String) (draw : Nat → Nat → String) (body : AnthropicBody) :
    NormalizedRequest JsonValue where
  requestId := requestId
  model := body.model
  messages := anthropicMessagesToIr draw 0 body.messages
  systemInstruction := systemText body.system
  systemCacheControl := systemCacheControl body.system
  tools := body.tools.map fun t =>
    { name := t.name
      description := t.description
      parameters := t.inputSchema
      cacheControl := t.cacheControl }
  toolChoice := body.toolChoice
  maxOutputTokens := body.maxTokens
  temperature := body.temperature
  stream := body.stream

/-! ## Payloads -/

/-- The Anthropic form of a tool choice in either form. A `function` that is no object has no
    name. -/
def toolChoiceToAnthropic (toolChoice : JsonRaw) : Option JsonRaw :=
  match toolChoice with
  | .str mode =>
      if mode = "auto" then some (.obj [("type", .str "auto")])
      else if mode = "required" then some (.obj [("type", .str "any")])
      else if mode = "none" then some (.obj [("type", .str "none")])
      else none
  | .obj members =>
      let kind := (members.lookup "type").getD .null
      if kind.isStr "auto" || kind.isStr "any" || kind.isStr "tool" || kind.isStr "none" then
        some toolChoice
      else if kind.isStr "function" then
        match members.lookup "function" with
        | some (.obj function) =>
            let name := (function.lookup "name").getD .null
            if name.truthy then some (.obj [("type", .str "tool"), ("name", name)]) else none
        | _ => none
      else none
  | _ => none

def toolUseToAnthropic (tc : NormalizedToolCall JsonValue) : ContentBlock where
  content := .toolUse (some tc.id) tc.name (.object tc.arguments)

def toolResultToAnthropic (tr : NormalizedToolResult) : ContentBlock where
  content := .toolResult tr.toolCallId (.text tr.content) tr.isError

/-- Thinking goes back with its signature only. -/
def contentBlocks (m : NormalizedMessage JsonValue) : List ContentBlock :=
  let thinking := orText m.reasoningContent ""
  let signature := orText m.reasoningSignature ""
  (if thinking ≠ "" ∧ signature ≠ "" then [{ content := .thinking thinking (some signature) }]
    else []) ++
    (if m.content ≠ "" then [{ content := .text m.content }] else []) ++
    m.toolCalls.map toolUseToAnthropic ++
    m.toolResults.map toolResultToAnthropic

/-- The last block gets the marker. -/
def markLast (marker : JsonValue) : List ContentBlock → List ContentBlock
  | [] => []
  | [b] => [{ b with cacheControl := some marker }]
  | b :: blocks => b :: markLast marker blocks

/-- A marker that is false is left out. -/
def markBlocks (marker : Option JsonValue) (blocks : List ContentBlock) : List ContentBlock :=
  match marker.filter (·.raw.truthy) with
  | some marker => markLast marker blocks
  | none => blocks

def messageToAnthropic (m : NormalizedMessage JsonValue) : AnthropicMessage where
  role := m.role
  content :=
    match contentBlocks m with
    | [] => .text m.content
    | blocks => .blocks (markBlocks m.cacheControl blocks)

/-- Without an instruction the first system message takes its place. -/
def systemToAnthropic (req : NormalizedRequest JsonValue) : Option SystemPrompt :=
  match req.systemInstruction.filter (· ≠ "") with
  | some text =>
      match req.systemCacheControl.filter (·.raw.truthy) with
      | some marker => some (.blocks [{ text := some text, cacheControl := some marker }])
      | none => some (.text text)
  | none => (req.messages.find? (·.role == "system")).map fun m => .text m.content

def toolToAnthropic (t : NormalizedToolDefinition JsonValue) : AnthropicTool where
  name := t.name
  description := t.description
  inputSchema := t.parameters
  cacheControl := t.cacheControl.filter (·.raw.truthy)

def irToAnthropicRequest (req : NormalizedRequest JsonValue) (targetModel : String) :
    AnthropicBody where
  model := targetModel
  system := systemToAnthropic req
  tools := req.tools.map toolToAnthropic
  messages := (req.messages.filter (·.role ≠ "system")).map messageToAnthropic
  toolChoice :=
    if req.tools = [] then none
    else ((req.toolChoice.map (·.raw)).bind toolChoiceToAnthropic).map .ofRaw
  maxTokens := req.maxOutputTokens.filter (· ≠ 0)
  temperature := req.temperature
  stream := req.stream

end DuraLLM
