import DuraLLM.Protocol.Anthropic
import DuraLLM.Protocol.Gemini
import DuraLLM.Protocol.OpenAIRoundTrip

/-! # The texts of messages

Which messages of a chat completions body each of the payloads keeps, and under
which text.  A list of parts is kept as what `str` makes of it, so that its text
need not be found there.
-/

namespace DuraLLM

/-! ## Texts of bodies and payloads -/

/-- What a message is meant to say. -/
def OpenAIBodyMessage.saidText (msg : OpenAIBodyMessage) : String :=
  match msg.content with
  | none => ""
  | some (.text text) => text
  | some (.parts texts _) => String.join texts
  | some (.other str) => str

/-- The message has one of the known roles and a text, and `str` makes some text of its content. -/
structure OpenAIBodyMessage.Said (msg : OpenAIBodyMessage) : Prop where
  role : msg.role ∈ ["system", "developer", "user", "assistant", "tool"]
  content : (∃ text, msg.content = some (.text text)) ∨
    ∃ texts str, msg.content = some (.parts texts str) ∧ str ≠ ""
  said : msg.saidText ≠ ""

/-- The text is found in one of the texts of a payload. -/
def Occurs (text : String) (texts : List String) : Prop :=
  ∃ carrier ∈ texts, text.toList <:+: carrier.toList

def OpenAIPayload.texts (p : OpenAIPayload) : List String := p.messages.filterMap (·.content)

def ContentBlock.texts (b : ContentBlock) : List String :=
  match b.content with
  | .text text => [text]
  | .toolResult _ (.text text) _ => [text]
  | .toolResult _ (.parts texts) _ => texts
  | _ => []

def AnthropicMessage.texts (m : AnthropicMessage) : List String :=
  match m.content with
  | .text text | .other text => [text]
  | .blocks blocks => blocks.flatMap (·.texts)

def SystemPrompt.texts : SystemPrompt → List String
  | .text prompt => [prompt]
  | .blocks parts => parts.filterMap (·.text)

def AnthropicBody.texts (b : AnthropicBody) : List String :=
  b.system.toList.flatMap (·.texts) ++ b.messages.flatMap (·.texts)

def GeminiPart.texts : GeminiPart → List String
  | .text said => [said]
  | .functionResponse _ output => [output]
  | .functionCall .. => []

def GeminiContent.texts (c : GeminiContent) : List String := c.parts.flatMap (·.texts)

def GeminiPayload.texts (p : GeminiPayload) : List String :=
  p.systemInstruction.toList ++ p.contents.flatMap (·.texts)

/-! ## Kept texts -/

section Kept

variable (messages : List OpenAIBodyMessage)

def storedText (msg : OpenAIBodyMessage) : String := contentText msg.content

def firstSystem : List OpenAIBodyMessage := (messages.find? (·.role == "system")).toList

def keptByOpenai : List String :=
  (messages.filter (·.role ≠ "developer")).map storedText

def keptByAnthropic : List String :=
  (firstSystem messages ++ messages.filter (·.role ≠ "system")).map storedText

def keptByGemini : List String :=
  (firstSystem messages ++
    messages.filter fun msg => msg.role ≠ "system" ∧ msg.role ≠ "developer").map storedText

end Kept

/-! ## Messages -/

section Message

variable {msg : OpenAIBodyMessage} (said : msg.Said) (draw : Nat → String)

include said

theorem OpenAIBodyMessage.Said.stored : storedText msg ≠ "" := by
  obtain ⟨text, content⟩ | ⟨texts, str, content, some⟩ := said.content
  · have same := said.said
    simp only [OpenAIBodyMessage.saidText, content] at same
    simpa [storedText, content, contentText] using same
  · have texts_ne : texts ≠ [] := by
      rintro rfl
      have same := said.said
      simp [OpenAIBodyMessage.saidText, content] at same
    simpa [storedText, content, contentText, texts_ne] using some

theorem openai_message_texts (names : Dict String String) :
    (messageToOpenai names (openaiMessageToIr draw msg)).filterMap (·.content) =
      if msg.role = "developer" then [] else [storedText msg] := by
  have stored : contentText msg.content ≠ "" := said.stored
  have roles := said.role
  simp only [List.mem_cons, List.not_mem_nil, or_false] at roles
  obtain role | role | role | role | role := roles <;>
    simp [messageToOpenai, openaiMessageToIr, role, storedText, stored, assistantMessage,
      toolMessage]

/-- The blocks of a message: its text, its calls, and its text again when it is a result. -/
theorem openai_contentBlocks :
    contentBlocks (openaiMessageToIr draw msg) =
      { content := .text (storedText msg) } ::
        ((bodyCallsToIr draw 0 msg.toolCalls).map toolUseToAnthropic ++
          (openaiMessageToIr draw msg).toolResults.map toolResultToAnthropic) := by
  have stored : contentText msg.content ≠ "" := said.stored
  simp [contentBlocks, openaiMessageToIr, storedText, stored, orText]

theorem anthropic_message_texts (text : String) :
    text ∈ (messageToAnthropic (openaiMessageToIr draw msg)).texts ↔ text = storedText msg := by
  have calls : ((bodyCallsToIr draw 0 msg.toolCalls).map toolUseToAnthropic).flatMap
      (·.texts) = [] := by
    rw [List.flatMap_eq_nil_iff]
    intro b mem
    obtain ⟨tc, -, rfl⟩ := List.mem_map.mp mem
    rfl
  have blocks : (messageToAnthropic (openaiMessageToIr draw msg)).texts =
      (contentBlocks (openaiMessageToIr draw msg)).flatMap (·.texts) := by
    rw [messageToAnthropic, openai_contentBlocks said]
    rfl
  rw [blocks, openai_contentBlocks said, List.flatMap_cons, List.flatMap_append, calls]
  by_cases tool : msg.role = "tool"
  · simp [openaiMessageToIr, tool, toolResultToAnthropic, ContentBlock.texts, storedText]
  · simp [openaiMessageToIr, tool, ContentBlock.texts]

theorem gemini_message_texts :
    (messageToGemini (openaiMessageToIr draw msg)).flatMap (·.texts) =
      if msg.role = "system" ∨ msg.role = "developer" then [] else [storedText msg] := by
  have stored : contentText msg.content ≠ "" := said.stored
  have roles := said.role
  simp only [List.mem_cons, List.not_mem_nil, or_false] at roles
  obtain role | role | role | role | role := roles <;>
    simp [messageToGemini, openaiMessageToIr, role, storedText, stored, GeminiContent.texts,
      GeminiPart.texts, functionResponse, partsOrEmpty]

end Message

/-! ## The system text -/

theorem foldl_systemInstruction {messages : List OpenAIBodyMessage} {instruction : String}
    (some : instruction ≠ "") :
    messages.foldl
      (fun instruction msg =>
        if msg.role = "system" ∧ orText instruction "" = "" then
          Option.some (contentText msg.content)
        else instruction)
      (Option.some instruction) = Option.some instruction := by
  induction messages with
  | nil => rfl
  | cons msg messages ih =>
      have kept : ¬(msg.role = "system" ∧ orText (Option.some instruction) "" = "") := by
        simp [orText, some]
      rw [List.foldl_cons, if_neg kept, ih]

/-- The first system message is the instruction. -/
theorem systemInstruction_eq {messages : List OpenAIBodyMessage}
    (said : ∀ msg ∈ messages, msg.Said) :
    systemInstruction messages = (messages.find? (·.role == "system")).map storedText := by
  induction messages with
  | nil => rfl
  | cons msg messages ih =>
      obtain ⟨first, later⟩ := List.forall_mem_cons.mp said
      by_cases system : msg.role = "system"
      · have here : ((msg :: messages).find? (·.role == "system")) = some msg := by
          simp [system]
        rw [here, systemInstruction, List.foldl_cons, if_pos ⟨system, rfl⟩]
        exact foldl_systemInstruction first.stored
      · have there : ((msg :: messages).find? (·.role == "system")) =
            messages.find? (·.role == "system") := by simp [system]
        rw [there, ← ih later, systemInstruction, List.foldl_cons, if_neg (fun both => system both.1)]
        rfl

/-! ## Payloads -/

theorem no_system_found {body : OpenAIBody} (requestId : String) (draw : Nat → Nat → String)
    (absent : body.messages.find? (·.role == "system") = none) :
    (openaiRequestToIr requestId draw body).messages.find? (·.role == "system") = none := by
  have same := any_role "system" draw 0 body.messages
  rw [List.find?_eq_none] at absent ⊢
  have none : body.messages.any (·.role == "system") = false := by
    rw [List.any_eq_false]
    exact absent
  rw [none] at same
  rw [List.any_eq_false] at same
  exact same

section Payloads

variable {body : OpenAIBody} (said : ∀ msg ∈ body.messages, msg.Said) (requestId : String)
  (draw : Nat → Nat → String)

include said

theorem openai_texts (targetModel : String) :
    (irToOpenaiRequest (openaiRequestToIr requestId draw body) targetModel).texts =
      keptByOpenai body.messages := by
  have messages (names : Dict String String) (msgs : List OpenAIBodyMessage) (n : Nat)
      (said : ∀ msg ∈ msgs, msg.Said) :
      ((openaiMessagesToIr draw n msgs).flatMap (messageToOpenai names)).filterMap (·.content) =
        keptByOpenai msgs := by
    induction msgs generalizing n with
    | nil => rfl
    | cons msg msgs ih =>
        obtain ⟨first, later⟩ := List.forall_mem_cons.mp said
        rw [openaiMessagesToIr, List.flatMap_cons, List.filterMap_append,
          openai_message_texts first, ih (n + 1) later]
        by_cases developer : msg.role = "developer" <;> simp [keptByOpenai, developer]
  rw [OpenAIPayload.texts, irToOpenaiRequest, systemMessages_openaiRequestToIr]
  exact messages _ body.messages 0 said

theorem system_texts :
    ((openaiRequestToIr requestId draw body).systemInstruction.filter (· ≠ "")) =
      (body.messages.find? (·.role == "system")).map storedText := by
  have instruction : (openaiRequestToIr requestId draw body).systemInstruction = _ :=
    systemInstruction_eq said
  rw [instruction]
  cases found : body.messages.find? (·.role == "system") with
  | none => rfl
  | some msg =>
      have stored := (said msg (List.mem_of_find?_eq_some found)).stored
      simp [Option.filter, stored]

theorem anthropic_texts (targetModel text : String) :
    text ∈ (irToAnthropicRequest (openaiRequestToIr requestId draw body) targetModel).texts ↔
      text ∈ keptByAnthropic body.messages := by
  have messages (msgs : List OpenAIBodyMessage) (n : Nat) (said : ∀ msg ∈ msgs, msg.Said) :
      text ∈ (((openaiMessagesToIr draw n msgs).filter (·.role ≠ "system")).map
        messageToAnthropic).flatMap (·.texts) ↔
      text ∈ (msgs.filter (·.role ≠ "system")).map storedText := by
    induction msgs generalizing n with
    | nil => rfl
    | cons msg msgs ih =>
        obtain ⟨first, later⟩ := List.forall_mem_cons.mp said
        have rest := ih (n + 1) later
        by_cases system : msg.role = "system"
        · simpa [openaiMessagesToIr, openaiMessageToIr_role, system] using rest
        · have here := anthropic_message_texts first (draw n) text
          have kept : (openaiMessageToIr (draw n) msg :: openaiMessagesToIr draw (n + 1) msgs).filter
              (·.role ≠ "system") = openaiMessageToIr (draw n) msg ::
                (openaiMessagesToIr draw (n + 1) msgs).filter (·.role ≠ "system") :=
            List.filter_cons_of_pos (decide_eq_true system)
          have also : (msg :: msgs).filter (·.role ≠ "system") =
              msg :: msgs.filter (·.role ≠ "system") :=
            List.filter_cons_of_pos (decide_eq_true system)
          rw [openaiMessagesToIr, kept, also, List.map_cons, List.flatMap_cons, List.mem_append,
            here, rest, List.map_cons, List.mem_cons]
  have system : (systemToAnthropic (openaiRequestToIr requestId draw body)).toList.flatMap
      (·.texts) = (firstSystem body.messages).map storedText := by
    have texts := system_texts said requestId draw
    unfold systemToAnthropic firstSystem
    rw [texts]
    cases found : body.messages.find? (·.role == "system") with
    | none => simp [no_system_found requestId draw found]
    | some msg => rfl
  rw [AnthropicBody.texts, keptByAnthropic, List.map_append, List.mem_append, List.mem_append]
  exact or_congr (by rw [← system]; rfl) (messages body.messages 0 said)

theorem gemini_texts {text : TextFunctions} {payload : GeminiPayload}
    (sent : irToGeminiRequest text (openaiRequestToIr requestId draw body) = some payload) :
    payload.texts = keptByGemini body.messages := by
  have messages (msgs : List OpenAIBodyMessage) (n : Nat) (said : ∀ msg ∈ msgs, msg.Said) :
      ((openaiMessagesToIr draw n msgs).flatMap messageToGemini).flatMap (·.texts) =
        (msgs.filter fun msg => msg.role ≠ "system" ∧ msg.role ≠ "developer").map storedText := by
    induction msgs generalizing n with
    | nil => rfl
    | cons msg msgs ih =>
        obtain ⟨first, later⟩ := List.forall_mem_cons.mp said
        rw [openaiMessagesToIr, List.flatMap_cons, List.flatMap_append,
          gemini_message_texts first, ih (n + 1) later]
        by_cases dropped : msg.role = "system" ∨ msg.role = "developer"
        · have out : ¬(msg.role ≠ "system" ∧ msg.role ≠ "developer") := by tauto
          rw [if_pos dropped, List.filter_cons_of_neg (by simpa using out)]
          rfl
        · have kept : msg.role ≠ "system" ∧ msg.role ≠ "developer" := by tauto
          rw [if_neg dropped, List.filter_cons_of_pos (by simpa using kept)]
          rfl
  have system : payload.systemInstruction =
      (body.messages.find? (·.role == "system")).map storedText := by
    have texts := system_texts said requestId draw
    rw [systemInstruction_of_sent sent, ← texts]
    unfold effectiveSystemInstruction
    split
    · rfl
    · next none =>
      have empty : (openaiRequestToIr requestId draw body).systemInstruction.filter (· ≠ "") =
          Option.none := by
        cases instruction : (openaiRequestToIr requestId draw body).systemInstruction with
        | none => rfl
        | some text => simpa [instruction, orText, Option.filter] using none
      rw [empty] at texts ⊢
      have absent := Option.map_eq_none_iff.mp texts.symm
      rw [no_system_found requestId draw absent]
      rfl
  rw [GeminiPayload.texts, system, contents_of_sent sent, keptByGemini, List.map_append]
  congr 1
  · rw [firstSystem]
    cases body.messages.find? (·.role == "system") <;> rfl
  · exact messages body.messages 0 said

end Payloads

/-- Every text is found in each payload exactly when it is found in what the payload keeps. -/
theorem message_texts_kept_iff {body : OpenAIBody} (said : ∀ msg ∈ body.messages, msg.Said)
    {text : TextFunctions} {requestId : String} {draw : Nat → Nat → String}
    {payload : GeminiPayload}
    (sent : irToGeminiRequest text (openaiRequestToIr requestId draw body) = some payload)
    (targetModel : String) :
    (∀ msg ∈ body.messages,
      Occurs msg.saidText
        (irToOpenaiRequest (openaiRequestToIr requestId draw body) targetModel).texts ∧
      Occurs msg.saidText
        (irToAnthropicRequest (openaiRequestToIr requestId draw body) targetModel).texts ∧
      Occurs msg.saidText payload.texts) ↔
    ∀ msg ∈ body.messages,
      Occurs msg.saidText (keptByOpenai body.messages) ∧
      Occurs msg.saidText (keptByAnthropic body.messages) ∧
      Occurs msg.saidText (keptByGemini body.messages) := by
  have anthropic (said_text : String) :
      Occurs said_text
        (irToAnthropicRequest (openaiRequestToIr requestId draw body) targetModel).texts ↔
      Occurs said_text (keptByAnthropic body.messages) := by
    unfold Occurs
    simp only [anthropic_texts said requestId draw targetModel]
  simp only [openai_texts said requestId draw targetModel, anthropic,
    gemini_texts said requestId draw sent]

theorem occurs_of_mem {text : String} {texts : List String} (mem : text ∈ texts) :
    Occurs text texts := ⟨text, mem, List.infix_refl _⟩

def plainTextBody : OpenAIBody where
  messages :=
    [{ role := "system", content := some (.text "Be brief.") },
     { content := some (.parts ["Hi."] "[\x7b'type': 'text', 'text': 'Hi.'\x7d]") },
     { role := "assistant", content := some (.text "Hello.") }]

theorem plainTextBody_said : ∀ msg ∈ plainTextBody.messages, msg.Said := by
  intro msg mem
  simp only [plainTextBody, List.mem_cons, List.not_mem_nil, or_false] at mem
  obtain rfl | rfl | rfl := mem
  · exact ⟨by simp, Or.inl ⟨_, rfl⟩, by simp [OpenAIBodyMessage.saidText]⟩
  · exact ⟨by simp, Or.inr ⟨_, _, rfl, by decide⟩, by decide⟩
  · exact ⟨by simp, Or.inl ⟨_, rfl⟩, by simp [OpenAIBodyMessage.saidText]⟩

theorem message_texts_kept_plain :
    ∃ payload, irToGeminiRequest asciiFunctions
        (openaiRequestToIr "req_1" (fun _ _ => "0a1b2c3d") plainTextBody) = some payload ∧
      ∀ msg ∈ plainTextBody.messages,
        Occurs msg.saidText (irToOpenaiRequest
          (openaiRequestToIr "req_1" (fun _ _ => "0a1b2c3d") plainTextBody) "gpt-4o").texts ∧
        Occurs msg.saidText (irToAnthropicRequest
          (openaiRequestToIr "req_1" (fun _ _ => "0a1b2c3d") plainTextBody) "gpt-4o").texts ∧
        Occurs msg.saidText payload.texts := by
  have sent : irToGeminiRequest asciiFunctions
      (openaiRequestToIr "req_1" (fun _ _ => "0a1b2c3d") plainTextBody) = some _ := rfl
  refine ⟨_, sent, (message_texts_kept_iff plainTextBody_said sent "gpt-4o").mpr ?_⟩
  have stored : keptByOpenai plainTextBody.messages =
      ["Be brief.", "[\x7b'type': 'text', 'text': 'Hi.'\x7d]", "Hello."] := by decide
  have same : keptByAnthropic plainTextBody.messages = keptByOpenai plainTextBody.messages ∧
      keptByGemini plainTextBody.messages = keptByOpenai plainTextBody.messages := by decide
  have each : ∀ msg ∈ plainTextBody.messages,
      Occurs msg.saidText (keptByOpenai plainTextBody.messages) := by
    intro msg mem
    rw [stored]
    simp only [plainTextBody, List.mem_cons, List.not_mem_nil, or_false] at mem
    obtain rfl | rfl | rfl := mem
    · exact occurs_of_mem (by simp [OpenAIBodyMessage.saidText])
    · refine ⟨_, List.mem_cons_of_mem _ List.mem_cons_self, ?_⟩
      exact ⟨"[\x7b'type': 'text', 'text': '".toList, "'\x7d]".toList, by simp [OpenAIBodyMessage.saidText]⟩
    · exact occurs_of_mem (by simp [OpenAIBodyMessage.saidText])
  intro msg mem
  rw [same.1, same.2]
  exact ⟨each msg mem, each msg mem, each msg mem⟩

/-- Two system messages and one of the developer. -/
def instructedBody : OpenAIBody where
  messages :=
    [{ role := "system", content := some (.text "Be brief.") },
     { content := some (.text "Hi.") },
     { role := "system", content := some (.text "Use French.") },
     { role := "developer", content := some (.text "Use tabs.") }]

theorem instructedBody_said : ∀ msg ∈ instructedBody.messages, msg.Said := by
  intro msg mem
  simp only [instructedBody, List.mem_cons, List.not_mem_nil, or_false] at mem
  obtain rfl | rfl | rfl | rfl := mem <;>
    exact ⟨by simp, Or.inl ⟨_, rfl⟩, by simp [OpenAIBodyMessage.saidText]⟩

/-- A text is not found where one of its characters is not. -/
theorem not_occurs {text : String} {texts : List String} (c : Char) (mem : c ∈ text.toList)
    (absent : ∀ carrier ∈ texts, c ∉ carrier.toList) : ¬Occurs text texts := by
  rintro ⟨carrier, inside, found⟩
  exact absent carrier inside (found.mem mem)

/-- The text of the developer, or that of the later system message, is lost. -/
theorem instructions_lost :
    (∀ msg ∈ instructedBody.messages, msg.Said) ∧
    ∃ payload, irToGeminiRequest asciiFunctions
        (openaiRequestToIr "req_1" (fun _ _ => "0a1b2c3d") instructedBody) = some payload ∧
      ¬Occurs "Use tabs." (irToOpenaiRequest
        (openaiRequestToIr "req_1" (fun _ _ => "0a1b2c3d") instructedBody) "gpt-4o").texts ∧
      ¬Occurs "Use French." (irToAnthropicRequest
        (openaiRequestToIr "req_1" (fun _ _ => "0a1b2c3d") instructedBody) "claude-sonnet-4").texts ∧
      ¬Occurs "Use French." payload.texts := by
  have sent : irToGeminiRequest asciiFunctions
      (openaiRequestToIr "req_1" (fun _ _ => "0a1b2c3d") instructedBody) = some _ := rfl
  have openai : keptByOpenai instructedBody.messages = ["Be brief.", "Hi.", "Use French."] := by
    decide
  have anthropic : keptByAnthropic instructedBody.messages = ["Be brief.", "Hi.", "Use tabs."] := by
    decide
  have gemini : keptByGemini instructedBody.messages = ["Be brief.", "Hi."] := by decide
  refine ⟨instructedBody_said, _, sent, ?_, ?_, ?_⟩
  · rw [openai_texts instructedBody_said, openai]
    exact not_occurs 't' (by simp) (by simp)
  · rintro ⟨carrier, mem, found⟩
    rw [anthropic_texts instructedBody_said, anthropic] at mem
    exact not_occurs 'F' (by simp) (by simp) ⟨carrier, mem, found⟩
  · rw [gemini_texts instructedBody_said _ _ sent, gemini]
    exact not_occurs 'F' (by simp) (by simp)

end DuraLLM
