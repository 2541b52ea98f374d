import DuraLLM.Lib.Dict
import DuraLLM.Lib.JsonAccess
import DuraLLM.Protocol.Ir

/-! # OpenAI requests

How a neutral request becomes the payload of a chat completions request.  A
member that the payload leaves out is `none`.
-/

namespace DuraLLM

open JsonRaw

structure OpenAIToolCall where
  id : String
  name : String
  arguments : String
  deriving DecidableEq

structure OpenAIMessage where
  role : String
  content : Option String := none
  reasoningContent : Option String := none
  toolCalls : List OpenAIToolCall := []
  toolCallId : Option String := none
  name : Option String := none
  deriving DecidableEq

structure OpenAIPayload where
  model : String
  messages : List OpenAIMessage
  maxTokens : Option Int := none
  temperature : Option ℚ := none
  stream : Bool := false
  tools : List (NormalizedToolDefinition JsonValue) := []
  toolChoice : Option JsonRaw := none

/-- The OpenAI form of a tool choice in either form. -/
def toolChoiceToOpenai (toolChoice : JsonRaw) : Option JsonRaw :=
  match toolChoice with
  | .str mode => if mode = "auto" ∨ mode = "required" ∨ mode = "none" then some (.str mode) else none
  | .obj members =>
      let kind := (members.lookup "type").getD null
      let name := (members.lookup "name").getD null
      if kind.isStr "function" then some toolChoice
      else if kind.isStr "auto" || kind.isStr "none" then some kind
      else if kind.isStr "any" then some (.str "required")
      else if kind.isStr "tool" && name.truthy then
        some (.obj [("type", .str "function"), ("function", .obj [("name", name)])])
      else none
  | _ => none

/-! ## Messages -/

/-- The name of each tool call by its id. -/
def toolIdToName (messages : List (NormalizedMessage JsonValue)) : Dict String String :=
  (messages.flatMap (·.toolCalls)).foldl
    (fun names tc => if tc.id ≠ "" ∧ tc.name ≠ "" then names.set tc.id tc.name else names) .empty

def toolMessage (names : Dict String String) (tr : NormalizedToolResult) : OpenAIMessage where
  role := "tool"
  toolCallId := some tr.toolCallId
  name := some (orText tr.toolName ((names.get tr.toolCallId).getD "tool"))
  content := some tr.content

def toolCallToOpenai (tc : NormalizedToolCall JsonValue) : OpenAIToolCall where
  id := tc.id
  name := tc.name
  arguments := if tc.rawArguments ≠ "" then tc.rawArguments else tc.arguments.dumps .verbatim

def assistantMessage (m : NormalizedMessage JsonValue) : OpenAIMessage where
  role := "assistant"
  content := if m.content ≠ "" then some m.content else none
  reasoningContent := m.reasoningContent.filter (· ≠ "")
  toolCalls := m.toolCalls.map toolCallToOpenai

/-- A message of any other role is dropped. -/
def messageToOpenai (names : Dict String String) (m : NormalizedMessage JsonValue) :
    List OpenAIMessage :=
  if m.role = "system" then [{ role := "system", content := some m.content }]
  else if m.role = "user" then
    (if m.content ≠ "" then [{ role := "user", content := some m.content }] else []) ++
      m.toolResults.map (toolMessage names)
  else if m.role = "assistant" then [assistantMessage m]
  else if m.role = "tool" then
    m.toolResults.map (toolMessage names) ++
      (if m.toolResults = [] then [{ role := "tool", content := some m.content }] else [])
  else []

/-- The system instruction goes first, unless a message has that role. -/
def systemMessages (req : NormalizedRequest JsonValue) : List OpenAIMessage :=
  let hasSystem := req.messages.any fun m => m.role == "system"
  if orText req.systemInstruction "" ≠ "" ∧ !hasSystem then
    [{ role := "system", content := req.systemInstruction }]
  else []

def irToOpenaiRequest (req : NormalizedRequest JsonValue) (targetModel : String) : OpenAIPayload where
  model := targetModel
  messages :=
    systemMessages req ++ req.messages.flatMap (messageToOpenai (toolIdToName req.messages))
  maxTokens := req.maxOutputTokens.filter (· ≠ 0)
  temperature := req.temperature
  stream := req.stream
  tools := req.tools.map fun t => { t with cacheControl := none }
  toolChoice :=
    if req.tools = [] then none else (req.toolChoice.map (·.raw)).bind toolChoiceToOpenai

end DuraLLM
