import DuraLLM.Protocol.OpenAIBodies
import DuraLLM.Streaming.RoundTrip

/-! # OpenAI round trips

A chat completions body in normal form comes back from the neutral request as
it was, and so does a neutral response from its body.  Only a tool message
without a name of its own is given one on the way.
-/

namespace DuraLLM

/-! ## Payloads as bodies -/

def OpenAIMessage.body (m : OpenAIMessage) : OpenAIBodyMessage where
  role := m.role
  content := m.content.map .text
  reasoningContent := m.reasoningContent
  toolCalls := m.toolCalls.map (·.body)
  toolCallId := m.toolCallId.getD ""
  name := m.name

def OpenAIPayload.body (p : OpenAIPayload) : OpenAIBody where
  model := p.model
  messages := p.messages.map (·.body)
  tools := p.tools.map fun t => .function t.name t.description t.parameters
  toolChoice := p.toolChoice.map JsonValue.ofRaw
  maxTokens := p.maxTokens
  temperature := p.temperature
  stream := p.stream

/-! ## Normal form -/

/-- A tool call with an id, a name and the text of its arguments. -/
structure OpenAIToolCall.Whole (tc : OpenAIToolCall) : Prop where
  id : tc.id ≠ ""
  name : tc.name ≠ ""
  arguments : tc.arguments ≠ ""

inductive NormalMessage : OpenAIMessage → Prop
  | system (text : String) : NormalMessage { role := "system", content := some text }
  | user (text : String) (spoken : text ≠ "") : NormalMessage { role := "user", content := some text }
  | assistant (content reasoningContent : Option String) (toolCalls : List OpenAIToolCall)
      (spoken : content ≠ some "") (reasons : reasoningContent ≠ some "")
      (whole : ∀ tc ∈ toolCalls, tc.Whole) :
      NormalMessage { role := "assistant", content, reasoningContent, toolCalls }
  | tool (id name text : String) :
      NormalMessage
        { role := "tool", content := some text, toolCallId := some id, name := some name }

inductive NormalToolChoice : JsonRaw → Prop
  | auto : NormalToolChoice (.str "auto")
  | none : NormalToolChoice (.str "none")
  | required : NormalToolChoice (.str "required")
  | function (choice : JsonValue) (members : List (String × JsonRaw))
      (object : choice.raw = .obj members) (typed : members.lookup "type" = some (.str "function")) :
      NormalToolChoice choice.raw

structure OpenAIPayload.Normal (p : OpenAIPayload) : Prop where
  messages : ∀ m ∈ p.messages, NormalMessage m
  tools : ∀ t ∈ p.tools, t.cacheControl = none
  toolChoice : ∀ choice ∈ p.toolChoice, p.tools ≠ [] ∧ NormalToolChoice choice
  maxTokens : ∀ n ∈ p.maxTokens, 0 < n

/-- The names of tool messages say something. -/
def OpenAIMessage.Named (m : OpenAIMessage) : Prop := m.role = "tool" → m.name ≠ some ""

/-! ## One message -/

theorem orText_of_ne {text : String} (spoken : text ≠ "") (default : String) :
    orText (some text) default = text := by
  simp [orText, spoken]

theorem bodyCall_back {tc : OpenAIToolCall} (whole : tc.Whole) (hex : String) :
    toolCallToOpenai (bodyCallToIr hex tc.body) = tc := by
  obtain ⟨id, name, arguments⟩ := tc
  have named : id ≠ "" := whole.id
  have spoken : arguments ≠ "" := whole.arguments
  simp [toolCallToOpenai, bodyCallToIr, OpenAIToolCall.body, callRawArguments, orText, named, spoken]

theorem bodyCalls_back {calls : List OpenAIToolCall} (whole : ∀ tc ∈ calls, tc.Whole)
    (draw : Nat → String) (n : Nat) :
    (bodyCallsToIr draw n (calls.map (·.body))).map toolCallToOpenai = calls := by
  induction calls generalizing n with
  | nil => rfl
  | cons tc calls ih =>
      obtain ⟨first, later⟩ := List.forall_mem_cons.mp whole
      rw [List.map_cons, bodyCallsToIr, List.map_cons, bodyCall_back first, ih later]

/-- The name that a tool message is known by. -/
def OpenAIMessage.knownAs (m : OpenAIMessage) (names : Dict String String) : OpenAIMessage :=
  if m.role = "tool" then
    { m with name := some (orText m.name ((names.get (m.toolCallId.getD "")).getD "tool")) }
  else m

theorem text_back {text : Option String} (spoken : text ≠ some "") :
    text.filter (· ≠ "") = text := by
  cases text with
  | none => rfl
  | some text =>
      have nonempty : text ≠ "" := fun empty => spoken (congrArg some empty)
      simp [Option.filter, nonempty]

/-- A message comes back as it was, but for the name of a tool message. -/
theorem message_back {m : OpenAIMessage} (normal : NormalMessage m) (names : Dict String String)
    (draw : Nat → String) :
    messageToOpenai names (openaiMessageToIr draw m.body) = [m.knownAs names] := by
  cases normal with
  | system text => rfl
  | user text spoken =>
      simp [messageToOpenai, openaiMessageToIr, OpenAIMessage.body, OpenAIMessage.knownAs,
        contentText, spoken]
  | assistant content reasoning calls spoken reasons whole =>
      have same : (if contentText (content.map .text) ≠ "" then
          some (contentText (content.map .text)) else none) = content := by
        cases content with
        | none => rfl
        | some text =>
            have nonempty : text ≠ "" := fun empty => spoken (congrArg some empty)
            simp [contentText, nonempty]
      have reasoned : firstText reasoning none = reasoning := by
        cases reasoning with
        | none => rfl
        | some text =>
            have nonempty : text ≠ "" := fun empty => reasons (congrArg some empty)
            simp [firstText, orText, nonempty]
      have called := bodyCalls_back whole draw 0
      simp only [messageToOpenai, openaiMessageToIr, OpenAIMessage.body, OpenAIMessage.knownAs,
        assistantMessage, same, reasoned, text_back reasons, called]
      rfl
  | tool id name text =>
      simp [messageToOpenai, openaiMessageToIr, OpenAIMessage.body, OpenAIMessage.knownAs,
        contentText, toolMessage]

/-! ## The whole body -/

theorem messages_back {messages : List OpenAIMessage} (normal : ∀ m ∈ messages, NormalMessage m)
    (names : Dict String String) (draw : Nat → Nat → String) (n : Nat) :
    (openaiMessagesToIr draw n (messages.map (·.body))).flatMap (messageToOpenai names) =
      messages.map (·.knownAs names) := by
  induction messages generalizing n with
  | nil => rfl
  | cons m messages ih =>
      obtain ⟨first, later⟩ := List.forall_mem_cons.mp normal
      rw [List.map_cons, openaiMessagesToIr, List.flatMap_cons, message_back first, ih later]
      rfl

theorem openaiMessageToIr_role (draw : Nat → String) (msg : OpenAIBodyMessage) :
    (openaiMessageToIr draw msg).role = msg.role := rfl

theorem any_role (role : String) (draw : Nat → Nat → String) (n : Nat)
    (messages : List OpenAIBodyMessage) :
    (openaiMessagesToIr draw n messages).any (·.role == role) =
      messages.any (·.role == role) := by
  induction messages generalizing n with
  | nil => rfl
  | cons msg messages ih => simp [openaiMessagesToIr, openaiMessageToIr_role, ih]

/-- An instruction is known only where a message has the role. -/
theorem systemInstruction_none {messages : List OpenAIBodyMessage}
    (without : messages.any (·.role == "system") = false) : systemInstruction messages = none := by
  unfold systemInstruction
  induction messages with
  | nil => rfl
  | cons msg messages ih =>
      rw [List.any_cons, Bool.or_eq_false_iff] at without
      have other : msg.role ≠ "system" := by simpa using without.1
      rw [List.foldl_cons, if_neg (fun both => other both.1)]
      exact ih without.2

/-- The instruction is one of the messages already, so none is put before them. -/
theorem systemMessages_openaiRequestToIr (requestId : String) (draw : Nat → Nat → String)
    (body : OpenAIBody) : systemMessages (openaiRequestToIr requestId draw body) = [] := by
  unfold systemMessages
  cases has : body.messages.any (·.role == "system") with
  | true => simp [openaiRequestToIr, any_role, has]
  | false => simp [openaiRequestToIr, systemInstruction_none has, orText]

theorem toolChoice_back {choice : JsonRaw} (normal : NormalToolChoice choice) :
    toolChoiceToOpenai choice = some choice := by
  cases normal with
  | auto | none | required => rfl
  | function choice members object typed =>
      rw [object]
      simp [toolChoiceToOpenai, typed, JsonRaw.isStr]

theorem NormalToolChoice.canonical {choice : JsonRaw} (normal : NormalToolChoice choice) :
    (JsonValue.ofRaw choice).raw = choice := by
  cases normal with
  | auto | none | required => rfl
  | function choice members object typed => exact choice.canonical.sorted_eq

theorem toolToIr_function (name description : String) (parameters : JsonValue) :
    toolToIr (.function name description parameters) =
      some { name, description, parameters } := rfl

theorem tools_back {tools : List (NormalizedToolDefinition JsonValue)}
    (plain : ∀ t ∈ tools, t.cacheControl = none) :
    (tools.map fun t => OpenAITool.function t.name t.description t.parameters).filterMap
      toolToIr = tools := by
  induction tools with
  | nil => rfl
  | cons t tools ih =>
      obtain ⟨first, later⟩ := List.forall_mem_cons.mp plain
      have same : { t with cacheControl := none } = t := by rw [← first]
      rw [List.map_cons, List.filterMap_cons, toolToIr_function, ih later]
      exact congrArg (· :: tools) same

theorem uncached {tools : List (NormalizedToolDefinition JsonValue)}
    (plain : ∀ t ∈ tools, t.cacheControl = none) :
    tools.map (fun t => { t with cacheControl := none }) = tools := by
  induction tools with
  | nil => rfl
  | cons t tools ih =>
      obtain ⟨first, later⟩ := List.forall_mem_cons.mp plain
      have same : { t with cacheControl := none } = t := by rw [← first]
      rw [List.map_cons, ih later, same]

theorem OpenAIPayload.Normal.toolChoice_back {p : OpenAIPayload} (normal : p.Normal) :
    (if p.tools = [] then none
      else ((p.toolChoice.map JsonValue.ofRaw).map (·.raw)).bind toolChoiceToOpenai) = p.toolChoice := by
  cases chosen : p.toolChoice with
  | none => simp
  | some choice =>
      obtain ⟨tools, form⟩ := normal.toolChoice choice chosen
      simp [tools, form.canonical, DuraLLM.toolChoice_back form]

theorem OpenAIPayload.Normal.maxTokens_back {p : OpenAIPayload} (normal : p.Normal) :
    (if orNumber p.maxTokens 0 ≠ 0 then p.maxTokens else none).filter (· ≠ 0) = p.maxTokens := by
  cases limit : p.maxTokens with
  | none => rfl
  | some n =>
      have positive : 0 < n := normal.maxTokens n limit
      have nonzero : n ≠ 0 := by omega
      simp [orNumber, nonzero]

/-- A body comes back as it was, but for the names of the tool messages. -/
theorem payload_back {p : OpenAIPayload} (normal : p.Normal) (requestId : String)
    (draw : Nat → Nat → String) :
    irToOpenaiRequest (openaiRequestToIr requestId draw p.body) p.model =
      { p with
        messages := p.messages.map
          (·.knownAs (toolIdToName (openaiMessagesToIr draw 0 p.body.messages))) } := by
  have tools : (p.body.tools.filterMap toolToIr) = p.tools := tools_back normal.tools
  have first := systemMessages_openaiRequestToIr requestId draw p.body
  have rest := messages_back normal.messages
    (toolIdToName (openaiMessagesToIr draw 0 p.body.messages)) draw 0
  have limit := normal.maxTokens_back
  have choice := normal.toolChoice_back
  unfold irToOpenaiRequest
  rw [first]
  simp only [openaiRequestToIr, tools, uncached normal.tools, List.nil_append]
  congr 1

/-- The ids that tool calls share stand for names that say something. -/
theorem toolIdToName_filled (messages : List (NormalizedMessage JsonValue)) (id : String) :
    (toolIdToName messages).get id ≠ some "" := by
  unfold toolIdToName
  generalize messages.flatMap (·.toolCalls) = calls
  have start : ∀ id, (Dict.empty : Dict String String).get id ≠ some "" := by simp
  revert start
  generalize (Dict.empty : Dict String String) = names
  intro start
  induction calls generalizing names with
  | nil => exact start id
  | cons tc calls ih =>
      rw [List.foldl_cons]
      apply ih
      intro other
      split
      · rename_i both
        rw [Dict.get_set]
        split
        · exact fun empty => both.2 (Option.some.inj empty)
        · exact start other
      · exact start other

/-- A message keeps its name unless it is a tool message whose name says nothing. -/
theorem knownAs_eq_iff {m : OpenAIMessage} (normal : NormalMessage m)
    {names : Dict String String} (filled : ∀ id, names.get id ≠ some "") :
    m.knownAs names = m ↔ m.Named := by
  cases normal with
  | system text | user text spoken | assistant content reasoning calls spoken reasons whole =>
      simp [OpenAIMessage.knownAs, OpenAIMessage.Named]
  | tool id name text =>
      have known : (names.get id).getD "tool" ≠ "" := by
        cases found : names.get id with
        | none => decide
        | some known => exact fun empty => filled id (found.trans (congrArg some empty))
      by_cases empty : name = ""
      · simp [OpenAIMessage.knownAs, OpenAIMessage.Named, orText, empty, known]
      · simp [OpenAIMessage.knownAs, OpenAIMessage.Named, orText, empty]

theorem map_knownAs_eq_iff {messages : List OpenAIMessage}
    (normal : ∀ m ∈ messages, NormalMessage m) {names : Dict String String}
    (filled : ∀ id, names.get id ≠ some "") :
    messages.map (·.knownAs names) = messages ↔ ∀ m ∈ messages, m.Named := by
  induction messages with
  | nil => simp
  | cons m messages ih =>
      obtain ⟨first, later⟩ := List.forall_mem_cons.mp normal
      rw [List.map_cons, List.cons.injEq, knownAs_eq_iff first filled, ih later,
        List.forall_mem_cons]

/-- A body in normal form comes back as it was exactly when its tool messages have names that say
    something. -/
theorem openai_request_round_trip_iff {p : OpenAIPayload} (normal : p.Normal) (requestId : String)
    (draw : Nat → Nat → String) :
    irToOpenaiRequest (openaiRequestToIr requestId draw p.body) p.model = p ↔
      ∀ m ∈ p.messages, m.Named := by
  have names := map_knownAs_eq_iff normal.messages
    (toolIdToName_filled (openaiMessagesToIr draw 0 p.body.messages))
  rw [payload_back normal]
  constructor
  · intro same
    exact names.mp (congrArg OpenAIPayload.messages same)
  · intro named
    rw [names.mpr named]

def weatherPayload (toolName : String) : OpenAIPayload where
  model := "gpt-4o"
  messages :=
    [{ role := "system", content := some "Be brief." },
     { role := "user", content := some "Weather in Paris?" },
     { role := "assistant", reasoningContent := some "Look it up."
       toolCalls := [⟨"call_1", "get_weather", "{}"⟩] },
     { role := "tool", content := some "18C", toolCallId := some "call_1", name := some toolName },
     { role := "system", content := some "Answer in French." }]
  maxTokens := some 512
  tools := [{ name := "get_weather", parameters := .ofRaw (.obj []) }]
  toolChoice := some (.str "auto")
  stream := true

theorem weatherPayload_normal (toolName : String) : (weatherPayload toolName).Normal where
  messages := by
    have called : ∀ tc ∈ [(⟨"call_1", "get_weather", "{}"⟩ : OpenAIToolCall)], tc.Whole := by
      intro tc mem
      rw [List.mem_singleton.mp mem]
      exact ⟨by decide, by decide, by decide⟩
    intro m mem
    simp only [weatherPayload, List.mem_cons, List.not_mem_nil, or_false] at mem
    obtain rfl | rfl | rfl | rfl | rfl := mem
    · exact .system _
    · exact .user _ (by decide)
    · exact .assistant _ _ _ (by decide) (by decide) called
    · exact .tool _ _ _
    · exact .system _
  tools := by simp [weatherPayload]
  toolChoice := by
    intro choice chosen
    obtain rfl : JsonRaw.str "auto" = choice := Option.some.inj chosen
    exact ⟨by simp [weatherPayload], .auto⟩
  maxTokens := by simp [weatherPayload]

theorem openai_request_round_trip_weather :
    irToOpenaiRequest (openaiRequestToIr "req_1" (fun _ _ => "0a1b2c3d")
        (weatherPayload "get_weather").body) "gpt-4o" = weatherPayload "get_weather" :=
  (openai_request_round_trip_iff (weatherPayload_normal _) _ _).mpr
    (by simp [weatherPayload, OpenAIMessage.Named])

/-- A tool message whose name is empty comes back with the name of its call. -/
theorem unnamed_tool_message_renamed :
    (weatherPayload "").Normal ∧
      irToOpenaiRequest (openaiRequestToIr "req_1" (fun _ _ => "0a1b2c3d")
        (weatherPayload "").body) "gpt-4o" ≠ weatherPayload "" := by
  refine ⟨weatherPayload_normal _, fun same => ?_⟩
  have names := congrArg (fun p => p.messages.map (·.name)) same
  revert names
  decide

/-! ## Responses -/

/-- What a tool call is for: its id, its name and its arguments. -/
structure CalledTool where
  id : String
  name : String
  arguments : JsonValue
  deriving DecidableEq

def NormalizedToolCall.called (tc : NormalizedToolCall JsonValue) : CalledTool :=
  ⟨tc.id, tc.name, tc.arguments⟩

theorem called_back {tc : NormalizedToolCall JsonValue} (named : tc.id ≠ "")
    (decodes : TextDecodes tc) (hex : String) :
    (bodyCallToIr hex (toolCallToOpenai tc).body).called = tc.called := by
  have text : JsonValue.loads (toolCallToOpenai tc).arguments = some tc.arguments :=
    loads_argumentsText .verbatim decodes
  have same : (toolCallToOpenai tc).id = tc.id := rfl
  simp [bodyCallToIr, OpenAIToolCall.body, callArguments, NormalizedToolCall.called, text, same,
    orText_of_ne named]
  rfl

theorem calls_back {calls : List (NormalizedToolCall JsonValue)}
    (named : ∀ tc ∈ calls, tc.id ≠ "") (decodes : ∀ tc ∈ calls, TextDecodes tc)
    (draw : Nat → String) (n : Nat) :
    (bodyCallsToIr draw n (calls.map fun tc => (toolCallToOpenai tc).body)).map (·.called) =
      calls.map (·.called) := by
  induction calls generalizing n with
  | nil => rfl
  | cons tc calls ih =>
      obtain ⟨first, later⟩ := List.forall_mem_cons.mp named
      obtain ⟨reads, rest⟩ := List.forall_mem_cons.mp decodes
      rw [List.map_cons, bodyCallsToIr, List.map_cons, called_back first reads, ih later rest,
        List.map_cons]

theorem reasoning_back (reasoning : Option String) :
    orText (firstText (reasoning.filter (· ≠ "")) none) "" = orText reasoning "" := by
  cases reasoning with
  | none => rfl
  | some text =>
      by_cases empty : text = ""
      · simp [firstText, orText, Option.filter, empty]
      · simp [firstText, orText, Option.filter, empty]

/-- A response comes back from its body. Its tool calls decide its finish reason. -/
theorem openai_response_round_trip {resp : NormalizedResponse JsonValue}
    (named : ∀ tc ∈ resp.toolCalls, tc.id ≠ "") (decodes : ∀ tc ∈ resp.toolCalls, TextDecodes tc)
    (requestedModel drawn : String) (draw : Nat → String) :
    let back := openaiResponseToIr drawn draw (irToOpenaiResponse resp requestedModel)
    back.content = resp.content ∧
      orText back.reasoningContent "" = orText resp.reasoningContent "" ∧
      back.inputTokens = resp.inputTokens ∧ back.outputTokens = resp.outputTokens ∧
      back.toolCalls.map (·.called) = resp.toolCalls.map (·.called) ∧
      back.finishReason = if resp.toolCalls ≠ [] then "tool_calls" else resp.finishReason := by
  intro back
  have calls : back.toolCalls.map (·.called) = resp.toolCalls.map (·.called) :=
    calls_back named decodes draw 0
  have reasoning : orText back.reasoningContent "" = orText resp.reasoningContent "" :=
    reasoning_back resp.reasoningContent
  exact ⟨rfl, reasoning, rfl, rfl, calls, rfl⟩

def weatherResponse : NormalizedResponse JsonValue where
  responseId := "resp_1"
  content := some "Let me see."
  toolCalls :=
    [{ id := "call_1", name := "get_weather", arguments := .ofRaw (.obj []) },
     { id := "call_2", name := "get_time", arguments := .ofRaw (.obj [])
       rawArguments := "\x7b\x7d" }]

theorem openai_response_round_trip_weather :
    let back := openaiResponseToIr "0a1b2c3d4e5f" (fun _ => "0a1b2c3d")
      (irToOpenaiResponse weatherResponse "gpt-4o")
    back.toolCalls.map (·.called) = weatherResponse.toolCalls.map (·.called) ∧
      back.finishReason = "tool_calls" := by
  have named : ∀ tc ∈ weatherResponse.toolCalls, tc.id ≠ "" := by simp [weatherResponse]
  have decodes : ∀ tc ∈ weatherResponse.toolCalls, TextDecodes tc := by
    intro tc mem
    simp only [weatherResponse, List.mem_cons, List.not_mem_nil, or_false] at mem
    obtain rfl | rfl := mem
    · exact Or.inl rfl
    · exact Or.inr (by decide)
  exact (openai_response_round_trip named decodes "gpt-4o" "0a1b2c3d4e5f"
    fun _ => "0a1b2c3d").2.2.2.2

end DuraLLM
