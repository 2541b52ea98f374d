import DuraLLM.Protocol.Anthropic
import DuraLLM.Protocol.Gemini
import DuraLLM.Protocol.OpenAIBodies
import Mathlib.Data.List.Forall2

/-! # The names of answered calls

Gemini knows a call by its name alone, so the response to a call has to carry
it.  The name is the one that the result brings along, which in Anthropic's
protocol is none, and in OpenAI's may be.
-/

namespace DuraLLM

variable {messages : List (NormalizedMessage JsonValue)}

/-- The name of the call with this id, of several the last. -/
def calledName (calls : List (NormalizedToolCall JsonValue)) (id : String) : Option String :=
  (calls.reverse.find? (·.id == id)).map (·.name)

/-- The ids that the responses to a message are for. A tool message may be no result. -/
def responseIds (m : NormalizedMessage JsonValue) : List (Option String) :=
  let ids := m.toolResults.map fun tr => some tr.toolCallId
  if m.role = "user" then ids
  else if m.role = "tool" then
    if m.toolResults = [] ∧ m.content ≠ "" then [none] else ids
  else []

/-- For each response the name of the earlier call that it answers. -/
def answeredNames (calls : List (NormalizedToolCall JsonValue)) :
    List (NormalizedMessage JsonValue) → List (Option String)
  | [] => []
  | m :: messages =>
      (responseIds m).map (·.bind (calledName calls)) ++
        answeredNames (calls ++ m.toolCalls) messages

def GeminiPart.responseName : GeminiPart → Option String
  | .functionResponse name _ => some name
  | _ => none

def responseNames (contents : List GeminiContent) : List String :=
  (contents.flatMap (·.parts)).filterMap (·.responseName)

/-- Every response that answers a call has the name of the call. -/
def NamesCalls (messages : List (NormalizedMessage JsonValue)) (contents : List GeminiContent) :
    Prop :=
  List.Forall₂ (fun answered name => ∀ called ∈ answered, name = called)
    (answeredNames [] messages) (responseNames contents)

/-- A result that is sent answers a call with this name, behind the given calls. -/
def AnswersCall (calls : List (NormalizedToolCall JsonValue))
    (messages : List (NormalizedMessage JsonValue)) (tr : NormalizedToolResult) (called : String) :
    Prop :=
  ∃ before m after, messages = before ++ m :: after ∧ (m.role = "user" ∨ m.role = "tool") ∧
    tr ∈ m.toolResults ∧ calledName (calls ++ before.flatMap (·.toolCalls)) tr.toolCallId = some called

theorem responseNames_append (first second : List GeminiContent) :
    responseNames (first ++ second) = responseNames first ++ responseNames second := by
  simp [responseNames]

theorem responseName_functionResponse (tr : NormalizedToolResult) :
    (functionResponse tr).responseName = some (orText tr.toolName "tool") := rfl

theorem responseNames_results (role : String) (results : List NormalizedToolResult) :
    responseNames (results.map fun tr => { role, parts := [functionResponse tr] }) =
      results.map fun tr => orText tr.toolName "tool" := by
  induction results with
  | nil => rfl
  | cons tr results ih =>
      rw [List.map_cons, List.map_cons, ← ih]
      rfl

theorem responseNames_partsOrEmpty (parts : List GeminiPart) :
    (partsOrEmpty parts).filterMap (·.responseName) = parts.filterMap (·.responseName) := by
  cases parts <;> rfl

theorem filterMap_functionResponse (results : List NormalizedToolResult) :
    (results.map functionResponse).filterMap (·.responseName) =
      results.map fun tr => orText tr.toolName "tool" := by
  induction results with
  | nil => rfl
  | cons tr results ih =>
      rw [List.map_cons, List.filterMap_cons, responseName_functionResponse, ih, List.map_cons]

theorem filterMap_functionCall (calls : List (NormalizedToolCall JsonValue)) :
    (calls.map fun tc => GeminiPart.functionCall tc.name tc.arguments).filterMap
      (·.responseName) = [] := by
  induction calls with
  | nil => rfl
  | cons tc calls ih => exact ih

/-- The names of the responses to one message. -/
theorem responseNames_message (m : NormalizedMessage JsonValue) :
    responseNames (messageToGemini m) =
      if m.role = "user" then m.toolResults.map fun tr => orText tr.toolName "tool"
      else if m.role = "tool" then
        if m.toolResults = [] ∧ m.content ≠ "" then [orText m.name "tool"]
        else m.toolResults.map fun tr => orText tr.toolName "tool"
      else [] := by
  have text : (if m.content ≠ "" then [GeminiPart.text m.content] else []).filterMap
      (·.responseName) = [] := by split <;> rfl
  unfold messageToGemini
  dsimp only
  by_cases system : m.role = "system"
  · simp [system, responseNames]
  · by_cases user : m.role = "user"
    · rw [if_neg system, if_pos user, if_pos user]
      simp only [responseNames, List.flatMap_cons, List.flatMap_nil, List.append_nil,
        responseNames_partsOrEmpty, List.filterMap_append, text, filterMap_functionResponse,
        List.nil_append]
    · rw [if_neg system, if_neg user, if_neg user]
      by_cases assistant : m.role = "assistant"
      · simp only [assistant, responseNames, List.flatMap_cons, List.flatMap_nil, List.append_nil,
          responseNames_partsOrEmpty, List.filterMap_append, text, filterMap_functionCall,
          if_true]
        simp
      · rw [if_neg assistant]
        by_cases tool : m.role = "tool"
        · rw [if_pos tool, if_pos tool, responseNames_append, responseNames_results]
          by_cases bare : m.toolResults = [] ∧ m.content ≠ ""
          · rw [if_pos bare, if_pos bare, bare.1]
            rfl
          · rw [if_neg bare, if_neg bare]
            exact List.append_nil _
        · rw [if_neg tool, if_neg tool]
          rfl

theorem forall₂_append_iff {α β : Type} {R : α → β → Prop} {as cs : List α} {bs ds : List β}
    (lengths : as.length = bs.length) :
    List.Forall₂ R (as ++ cs) (bs ++ ds) ↔ List.Forall₂ R as bs ∧ List.Forall₂ R cs ds := by
  induction as generalizing bs with
  | nil =>
      obtain rfl : bs = [] := List.length_eq_zero_iff.mp lengths.symm
      simp
  | cons a as ih =>
      cases bs with
      | nil => simp at lengths
      | cons b bs =>
          have rest : as.length = bs.length := by simpa using lengths
          rw [List.cons_append, List.cons_append, List.forall₂_cons, List.forall₂_cons, ih rest,
            and_assoc]

/-- There is one name for each response. -/
theorem length_responseIds (m : NormalizedMessage JsonValue) :
    (responseIds m).length = (responseNames (messageToGemini m)).length := by
  rw [responseNames_message, responseIds]
  by_cases user : m.role = "user"
  · simp [user]
  · by_cases tool : m.role = "tool"
    · by_cases bare : m.toolResults = [] ∧ m.content ≠ ""
      · simp [tool, bare]
      · simp only [tool, if_neg bare]
        simp
    · simp [user, tool]

/-- The responses to one message. -/
theorem message_names_iff (calls : List (NormalizedToolCall JsonValue))
    (m : NormalizedMessage JsonValue) :
    List.Forall₂ (fun answered name => ∀ called ∈ answered, name = called)
        ((responseIds m).map (·.bind (calledName calls))) (responseNames (messageToGemini m)) ↔
      (m.role = "user" ∨ m.role = "tool") → ∀ tr ∈ m.toolResults,
        ∀ called, calledName calls tr.toolCallId = some called →
          orText tr.toolName "tool" = called := by
  have results : List.Forall₂ (fun answered name => ∀ called ∈ answered, name = called)
      ((m.toolResults.map fun tr => some tr.toolCallId).map (·.bind (calledName calls)))
      (m.toolResults.map fun tr => orText tr.toolName "tool") ↔
      ∀ tr ∈ m.toolResults, ∀ called, calledName calls tr.toolCallId = some called →
        orText tr.toolName "tool" = called := by
    rw [List.map_map, List.forall₂_map_left_iff, List.forall₂_map_right_iff, List.forall₂_same]
    rfl
  rw [responseNames_message, responseIds]
  by_cases user : m.role = "user"
  · simp only [if_pos user, results]
    exact ⟨fun named _ => named, fun named => named (Or.inl user)⟩
  · by_cases tool : m.role = "tool"
    · by_cases bare : m.toolResults = [] ∧ m.content ≠ ""
      · simp [tool, bare]
      · simp only [if_neg user, if_pos tool, if_neg bare, results]
        exact ⟨fun named _ => named, fun named => named (Or.inr tool)⟩
    · simp [user, tool]

/-- The responses to a conversation, behind the given calls. -/
theorem names_iff (calls : List (NormalizedToolCall JsonValue)) :
    List.Forall₂ (fun answered name => ∀ called ∈ answered, name = called)
        (answeredNames calls messages) (responseNames (messages.flatMap messageToGemini)) ↔
      ∀ tr called, AnswersCall calls messages tr called → orText tr.toolName "tool" = called := by
  induction messages generalizing calls with
  | nil =>
      simp only [answeredNames, List.flatMap_nil, responseNames, List.filterMap_nil,
        List.Forall₂.nil, true_iff]
      rintro tr called ⟨before, m, after, split, -⟩
      simp at split
  | cons m messages ih =>
      have lengths : ((responseIds m).map (·.bind (calledName calls))).length =
          (responseNames (messageToGemini m)).length := by
        rw [List.length_map, length_responseIds]
      rw [answeredNames, List.flatMap_cons, responseNames_append, forall₂_append_iff lengths,
        message_names_iff, ih]
      constructor
      · rintro ⟨first, later⟩ tr called ⟨before, m', after, split, sent, mem, found⟩
        cases before with
        | nil =>
            obtain ⟨rfl, rfl⟩ := List.cons.inj split
            exact first sent tr mem called (by simpa using found)
        | cons b before =>
            obtain ⟨rfl, rest⟩ := List.cons.inj split
            exact later tr called ⟨before, m', after, rest, sent, mem, by simpa using found⟩
      · intro named
        constructor
        · intro sent tr mem called found
          exact named tr called ⟨[], m, messages, rfl, sent, mem, by simpa using found⟩
        · rintro tr called ⟨before, m', after, split, sent, mem, found⟩
          exact named tr called
            ⟨m :: before, m', after, by rw [split]; rfl, sent, mem, by simpa using found⟩

/-- Anthropic's results come without a name. -/
theorem anthropic_unnamed (draw : Nat → Nat → String) (n : Nat) (msgs : List AnthropicMessage) :
    ∀ m ∈ anthropicMessagesToIr draw n msgs, ∀ tr ∈ m.toolResults, tr.toolName = none := by
  induction msgs generalizing n with
  | nil => simp [anthropicMessagesToIr]
  | cons msg msgs ih =>
      rw [anthropicMessagesToIr, List.forall_mem_cons]
      refine ⟨?_, ih (n + 1)⟩
      intro tr mem
      unfold anthropicMessageToIr at mem
      split at mem
      · cases mem
      · cases mem
      · obtain ⟨b, -, found⟩ := List.mem_filterMap.mp mem
        unfold ContentBlock.toolResult at found
        split at found
        · rw [← Option.some.inj found]
        · rw [← Option.some.inj found]
        · cases found

/-- Every response has the name of its call exactly when the results bring these names along or,
    where they bring none, the calls have the name that stands for none. -/
theorem gemini_names_calls_iff (text : TextFunctions) (requestId : String)
    (draw : Nat → Nat → String) :
    (∀ (body : OpenAIBody) (payload : GeminiPayload),
      irToGeminiRequest text (openaiRequestToIr requestId draw body) = some payload →
      (NamesCalls (openaiRequestToIr requestId draw body).messages payload.contents ↔
        ∀ tr called, AnswersCall [] (openaiRequestToIr requestId draw body).messages tr called →
          orText tr.toolName "tool" = called)) ∧
    (∀ (body : AnthropicBody) (payload : GeminiPayload),
      irToGeminiRequest text (anthropicRequestToIr requestId draw body) = some payload →
      (NamesCalls (anthropicRequestToIr requestId draw body).messages payload.contents ↔
        ∀ tr called, AnswersCall [] (anthropicRequestToIr requestId draw body).messages tr called →
          called = "tool")) := by
  constructor
  · intro body payload sent
    rw [NamesCalls, contents_of_sent sent]
    exact names_iff []
  · intro body payload sent
    rw [NamesCalls, contents_of_sent sent, names_iff []]
    have unnamed : ∀ tr called,
        AnswersCall [] (anthropicRequestToIr requestId draw body).messages tr called →
          tr.toolName = none := by
      rintro tr called ⟨before, m, after, split, -, mem, -⟩
      have inside : m ∈ anthropicMessagesToIr draw 0 body.messages := by
        have all : anthropicMessagesToIr draw 0 body.messages = before ++ m :: after := split
        rw [all]
        simp
      exact anthropic_unnamed draw 0 body.messages m inside tr mem
    constructor
    · intro named tr called answers
      have name := named tr called answers
      rw [unnamed tr called answers] at name
      exact name.symm
    · intro named tr called answers
      rw [unnamed tr called answers, named tr called answers]
      rfl

/-- A tool use and its result. -/
def calledBody : AnthropicBody where
  messages :=
    [{ content := .text "Run the tests." },
     { role := "assistant"
       content := .blocks [{ content := .toolUse (some "toolu_1") "bash" (.object (.ofRaw (.obj []))) }] },
     { content := .blocks [{ content := .toolResult "toolu_1" (.text "3 passed") false }] }]

/-- The response is named after no tool. -/
theorem response_unnamed :
    ∃ payload, irToGeminiRequest asciiFunctions
        (anthropicRequestToIr "req_1" (fun _ _ => "0a1b2c3d") calledBody) = some payload ∧
      answeredNames []
        (anthropicRequestToIr "req_1" (fun _ _ => "0a1b2c3d") calledBody).messages =
          [some "bash"] ∧
      ¬NamesCalls (anthropicRequestToIr "req_1" (fun _ _ => "0a1b2c3d") calledBody).messages
        payload.contents := by
  have answered : answeredNames []
      (anthropicRequestToIr "req_1" (fun _ _ => "0a1b2c3d") calledBody).messages =
        [some "bash"] := by decide
  refine ⟨_, rfl, answered, fun named => ?_⟩
  rw [NamesCalls, answered] at named
  have sent : responseNames ((anthropicRequestToIr "req_1" (fun _ _ => "0a1b2c3d")
      calledBody).messages.flatMap messageToGemini) = ["tool"] := by decide
  rw [sent] at named
  obtain ⟨same, -⟩ := List.forall₂_cons.mp named
  exact absurd (same "bash" rfl) (by decide)

end DuraLLM
