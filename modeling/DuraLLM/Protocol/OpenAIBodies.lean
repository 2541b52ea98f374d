import DuraLLM.Protocol.OpenAI
import DuraLLM.Streaming.Modes

/-! # OpenAI bodies

The body of a chat completions request and that of its response, with their
members' defaults, how they become neutral ones, and how a neutral response
becomes a body.  Where the code calls `str` on a value that is no text, the body
holds the text that `str` gives.  The ids that are drawn for tool calls without
one are a parameter, by the place of the call.
-/

namespace DuraLLM

/-! ## Tool calls -/

inductive OpenAIArguments where
  | object (arguments : JsonValue)
  | text (text : String)

structure OpenAIBodyCall where
  id : Option String := none
  name : String := ""
  arguments : OpenAIArguments := .text "\x7b\x7d"

/-- Arguments that do not decode are empty. -/
def callArguments : OpenAIArguments → JsonValue
  | .object arguments => arguments
  | .text text => (JsonValue.loads text).getD (.ofRaw (.obj []))

def callRawArguments : OpenAIArguments → String
  | .object arguments => arguments.dumps .verbatim
  | .text text => text

/-- A tool call; `hex` is drawn for its id when it has none. -/
def bodyCallToIr (hex : String) (tc : OpenAIBodyCall) : NormalizedToolCall JsonValue where
  id := orText tc.id ("call_" ++ hex)
  name := tc.name
  arguments := callArguments tc.arguments
  rawArguments := callRawArguments tc.arguments

/-- The tool calls of a message, from the one with this number on. -/
def bodyCallsToIr (draw : Nat → String) (n : Nat) :
    List OpenAIBodyCall → List (NormalizedToolCall JsonValue)
  | [] => []
  | tc :: calls => bodyCallToIr (draw n) tc :: bodyCallsToIr draw (n + 1) calls

/-! ## Requests -/

inductive OpenAIContent where
  | text (text : String)
  /-- The texts of a list of text parts, and what `str` makes of the list. -/
  | parts (texts : List String) (str : String)
  /-- What `str` makes of anything else. -/
  | other (str : String)

structure OpenAIBodyMessage where
  role : String := "user"
  content : Option OpenAIContent := none
  reasoningContent : Option String := none
  thinking : Option String := none
  toolCalls : List OpenAIBodyCall := []
  toolCallId : String := ""
  name : Option String := none

inductive OpenAITool where
  | function (name description : String) (parameters : JsonValue)
  | other

structure OpenAIBody where
  model : String := "default"
  messages : List OpenAIBodyMessage := []
  tools : List OpenAITool := []
  toolChoice : Option JsonValue := none
  maxTokens : Option Int := none
  maxCompletionTokens : Option Int := none
  temperature : Option ℚ := none
  stream : Bool := false

/-- `str(content) if content else ""` -/
def contentText : Option OpenAIContent → String
  | none => ""
  | some (.text text) => text
  | some (.parts texts str) => if texts = [] then "" else str
  | some (.other str) => str

/-- `first or second` -/
def firstText (first second : Option String) : Option String :=
  if orText first "" ≠ "" then first else second

def openaiMessageToIr (draw : Nat → String) (msg : OpenAIBodyMessage) :
    NormalizedMessage JsonValue where
  role := msg.role
  content := contentText msg.content
  reasoningContent := (firstText msg.reasoningContent msg.thinking).filter (· ≠ "")
  toolCalls := bodyCallsToIr draw 0 msg.toolCalls
  toolResults :=
    if msg.role = "tool" then
      [{ toolCallId := msg.toolCallId, toolName := msg.name, content := contentText msg.content }]
    else []
  name := msg.name

/-- The messages, from the one with this number on. -/
def openaiMessagesToIr (draw : Nat → Nat → String) (n : Nat) :
    List OpenAIBodyMessage → List (NormalizedMessage JsonValue)
  | [] => []
  | msg :: messages =>
      openaiMessageToIr (draw n) msg :: openaiMessagesToIr draw (n + 1) messages

/-- The first system message that says something. One that says nothing counts as an instruction,
    until another comes. -/
def systemInstruction (messages : List OpenAIBodyMessage) : Option String :=
  messages.foldl
    (fun instruction msg =>
      if msg.role = "system" ∧ orText instruction "" = "" then some (contentText msg.content)
      else instruction)
    none

def toolToIr : OpenAITool → Option (NormalizedToolDefinition JsonValue)
  | .function name description parameters => some { name, description, parameters }
  | .other => none

def openaiRequestToIr (requestId : String) (draw : Nat → Nat → String) (body : OpenAIBody) :
    NormalizedRequest JsonValue where
  requestId := requestId
  model := body.model
  messages := openaiMessagesToIr draw 0 body.messages
  systemInstruction := systemInstruction body.messages
  tools := body.tools.filterMap toolToIr
  toolChoice := body.toolChoice
  maxOutputTokens := if orNumber body.maxTokens 0 ≠ 0 then body.maxTokens else body.maxCompletionTokens
  temperature := body.temperature
  stream := body.stream

/-! ## Responses -/

structure OpenAIBodyAnswer where
  content : Option String := none
  reasoningContent : Option String := none
  thinking : Option String := none
  toolCalls : List OpenAIBodyCall := []

structure OpenAIChoice where
  message : OpenAIBodyAnswer := {}
  finishReason : String := "stop"

structure OpenAIResponse where
  id : Option String := none
  model : String := "default"
  choices : List OpenAIChoice := []
  promptTokens : Int := 0
  completionTokens : Int := 0
  totalTokens : Int := 0

/-- The first choice counts. The id is drawn when there is none. -/
def openaiResponseToIr (drawn : String) (draw : Nat → String) (resp : OpenAIResponse) :
    NormalizedResponse JsonValue :=
  let firstChoice := resp.choices.headD {}
  let msg := firstChoice.message
  { responseId := resp.id.getD ("resp_" ++ drawn)
    content := msg.content
    reasoningContent := firstText msg.reasoningContent msg.thinking
    toolCalls := bodyCallsToIr draw 0 msg.toolCalls
    finishReason := firstChoice.finishReason
    inputTokens := resp.promptTokens
    outputTokens := resp.completionTokens }

/-- A tool call of a payload, as it stands in a body. -/
def OpenAIToolCall.body (tc : OpenAIToolCall) : OpenAIBodyCall where
  id := some tc.id
  name := tc.name
  arguments := .text tc.arguments

def irToOpenaiResponse (resp : NormalizedResponse JsonValue) (requestedModel : String) :
    OpenAIResponse where
  id := some (marked "chatcmpl-" resp.responseId)
  model := requestedModel
  choices :=
    [{ message :=
        { content := resp.content
          reasoningContent := resp.reasoningContent.filter (· ≠ "")
          toolCalls := resp.toolCalls.map fun tc => (toolCallToOpenai tc).body }
       finishReason := sentFinishReason resp }]
  promptTokens := resp.inputTokens
  completionTokens := resp.outputTokens
  totalTokens := resp.inputTokens + resp.outputTokens

end DuraLLM
