import DuraLLM.Protocol.Anthropic
import DuraLLM.Protocol.OpenAI

/-! # Tool results behind tool calls

A provider of the OpenAI protocol takes a conversation only when the results of
tool calls stand directly behind the calls.  An Anthropic user message may mix
results and text; in the translation the text goes first, so the results stand
behind the calls exactly when there is no text.
-/

namespace DuraLLM

open Text

/-! ## Conversations -/

namespace AnthropicMessage

def blocks (msg : AnthropicMessage) : List ContentBlock :=
  match msg.content with
  | .blocks blocks => blocks
  | _ => []

end AnthropicMessage

def ContentBlock.toolUseId (b : ContentBlock) : Option String :=
  match b.content with
  | .toolUse id _ _ => some (id.getD "")
  | _ => none

def ContentBlock.resultId (b : ContentBlock) : Option String :=
  match b.content with
  | .toolResult toolUseId _ _ => some toolUseId
  | _ => none

namespace AnthropicMessage

def toolUseIds (msg : AnthropicMessage) : List String := msg.blocks.filterMap (·.toolUseId)

def resultIds (msg : AnthropicMessage) : List String := msg.blocks.filterMap (·.resultId)

/-- The text of a message, as it is translated. -/
def text (msg : AnthropicMessage) : String :=
  match msg.content with
  | .text text | .other text => text
  | .blocks blocks => joinLines (blocks.filterMap (·.text))

/-- An assistant message that uses tools. -/
def UsesTools (msg : AnthropicMessage) : Prop := msg.role = "assistant" ∧ msg.toolUseIds ≠ []

instance (msg : AnthropicMessage) : Decidable msg.UsesTools := inferInstanceAs (Decidable (_ ∧ _))

end AnthropicMessage

/-- Each message that uses tools is followed by a user message with one result for each use. -/
def WellFormed : List AnthropicMessage → Prop
  | [] => True
  | msg :: messages =>
      (msg.UsesTools → ∃ answer later, messages = answer :: later ∧ answer.role = "user" ∧
        answer.resultIds.Perm msg.toolUseIds) ∧
      WellFormed messages

/-- The messages begin with the results of these calls. -/
def FollowedByResults (calls : List OpenAIToolCall) (messages : List OpenAIMessage) : Prop :=
  ∃ results later, messages = results ++ later ∧ (∀ m ∈ results, m.role = "tool") ∧
    (results.map (·.toolCallId)).Perm (calls.map fun tc => some tc.id)

/-- Each message with tool calls is followed by their results. -/
def Adjacent : List OpenAIMessage → Prop
  | [] => True
  | m :: messages => (m.toolCalls ≠ [] → FollowedByResults m.toolCalls messages) ∧ Adjacent messages

/-- Tool uses have ids, and the answer to them has no text. -/
def BareAnswers : List AnthropicMessage → Prop
  | [] => True
  | msg :: messages =>
      (msg.UsesTools → "" ∉ msg.toolUseIds ∧ ∀ answer ∈ messages.head?, answer.text = "") ∧
      BareAnswers messages

/-! ## Ids -/

theorem ContentBlock.toolCall_id (hex : String) (b : ContentBlock) :
    (b.toolCall hex).map (·.id) =
      b.toolUseId.map fun id => if id = "" then "toolu_" ++ hex else id := by
  obtain ⟨content, cacheControl⟩ := b
  cases content with
  | toolUse id name input =>
      cases input <;> cases id <;> simp [ContentBlock.toolCall, ContentBlock.toolUseId, orText]
  | text | thinking | toolResult | other => rfl

/-- The id of a call is never empty, and it is that of the tool use if that has one. -/
def Identifies (call use : String) : Prop := call ≠ "" ∧ (use ≠ "" → call = use)

theorem blockToolCalls_ids (draw : Nat → String) (n : Nat) (blocks : List ContentBlock) :
    List.Forall₂ Identifies ((blockToolCalls draw n blocks).map (·.id))
      (blocks.filterMap (·.toolUseId)) := by
  induction blocks generalizing n with
  | nil => exact .nil
  | cons b blocks ih =>
      have first := b.toolCall_id (draw n)
      rw [blockToolCalls, List.map_append, List.filterMap_cons]
      cases use : b.toolUseId with
      | none =>
          rw [use, Option.map_none, Option.map_eq_none_iff] at first
          rw [first]
          exact ih (n + 1)
      | some id =>
          rw [use, Option.map_some] at first
          obtain ⟨call, same, callId⟩ := Option.map_eq_some_iff.mp first
          rw [same]
          refine .cons ?_ (ih (n + 1))
          by_cases empty : id = "" <;> simp [Identifies, callId, empty]

theorem eq_of_identifies {calls uses : List String} (ids : List.Forall₂ Identifies calls uses)
    (named : "" ∉ uses) : calls = uses := by
  induction ids with
  | nil => rfl
  | cons first _ ih =>
      simp only [List.mem_cons, not_or] at named
      rw [first.2 (Ne.symm named.1), ih named.2]

theorem not_mem_of_identifies {calls uses : List String}
    (ids : List.Forall₂ Identifies calls uses) : "" ∉ calls := by
  induction ids with
  | nil => simp
  | cons first _ ih =>
      simp only [List.mem_cons, not_or]
      exact ⟨Ne.symm first.1, ih⟩

/-! ## One message -/

theorem toIr_role (draw : Nat → String) (msg : AnthropicMessage) :
    (anthropicMessageToIr draw msg).role = msg.role := by
  unfold anthropicMessageToIr
  split <;> rfl

theorem toIr_content (draw : Nat → String) (msg : AnthropicMessage) :
    (anthropicMessageToIr draw msg).content = msg.text := by
  unfold anthropicMessageToIr AnthropicMessage.text
  cases msg.content <;> rfl

theorem toIr_toolCalls (draw : Nat → String) (msg : AnthropicMessage) :
    (anthropicMessageToIr draw msg).toolCalls = blockToolCalls draw 0 msg.blocks := by
  unfold anthropicMessageToIr AnthropicMessage.blocks
  cases msg.content <;> rfl

theorem toIr_resultIds (draw : Nat → String) (msg : AnthropicMessage) :
    (anthropicMessageToIr draw msg).toolResults.map (·.toolCallId) = msg.resultIds := by
  have one (b : ContentBlock) : b.toolResult.map (·.toolCallId) = b.resultId := by
    obtain ⟨content, cacheControl⟩ := b
    cases content with
    | toolResult id content isError => cases content <;> rfl
    | text | thinking | toolUse | other => rfl
  unfold anthropicMessageToIr AnthropicMessage.resultIds AnthropicMessage.blocks
  cases msg.content with
  | text | other => rfl
  | blocks blocks => simp [List.map_filterMap, one]

variable (names : Dict String String) (draw : Nat → Nat → String)

/-- What one message is translated to. -/
def translated (n : Nat) (msg : AnthropicMessage) : List OpenAIMessage :=
  messageToOpenai names (anthropicMessageToIr (draw n) msg)

def translatedAll (n : Nat) : List AnthropicMessage → List OpenAIMessage
  | [] => []
  | msg :: messages => translated names draw n msg ++ translatedAll (n + 1) messages

theorem translated_answer (n : Nat) {msg : AnthropicMessage} (user : msg.role = "user") :
    translated names draw n msg =
      (if msg.text ≠ "" then [{ role := "user", content := some msg.text }] else []) ++
        (anthropicMessageToIr (draw n) msg).toolResults.map (toolMessage names) := by
  simp [translated, messageToOpenai, toIr_role, toIr_content, user]

theorem translated_assistant (n : Nat) {msg : AnthropicMessage} (assistant : msg.role = "assistant") :
    ∃ m, translated names draw n msg = [m] ∧
      List.Forall₂ Identifies (m.toolCalls.map (·.id)) msg.toolUseIds := by
  have ids := blockToolCalls_ids (draw n) 0 msg.blocks
  have same : ((blockToolCalls (draw n) 0 msg.blocks).map toolCallToOpenai).map (·.id) =
      (blockToolCalls (draw n) 0 msg.blocks).map (·.id) := List.map_map
  rw [← same, ← toIr_toolCalls] at ids
  refine ⟨assistantMessage (anthropicMessageToIr (draw n) msg), ?_, ids⟩
  simp [translated, messageToOpenai, toIr_role, assistant]

theorem toolCalls_eq_nil_iff {m : OpenAIMessage} {uses : List String}
    (ids : List.Forall₂ Identifies (m.toolCalls.map (·.id)) uses) :
    m.toolCalls = [] ↔ uses = [] := by
  have lengths := ids.length_eq
  rw [List.length_map] at lengths
  rw [← List.length_eq_zero_iff, lengths, List.length_eq_zero_iff]

/-- Only messages that use tools are translated to tool calls. -/
theorem translated_other (n : Nat) {msg : AnthropicMessage} (other : ¬msg.UsesTools) :
    ∀ m ∈ translated names draw n msg, m.toolCalls = [] := by
  by_cases assistant : msg.role = "assistant"
  · have unused : msg.toolUseIds = [] := by
      by_contra used
      exact other ⟨assistant, used⟩
    obtain ⟨m, alone, ids⟩ := translated_assistant names draw n assistant
    simpa [alone] using (toolCalls_eq_nil_iff ids).mpr unused
  · intro m member
    have result (tr : NormalizedToolResult) : (toolMessage names tr).toolCalls = [] := rfl
    simp only [translated, messageToOpenai, toIr_role, if_neg assistant] at member
    split_ifs at member <;> grind

/-! ## Conversations -/

theorem adjacent_append {silent messages : List OpenAIMessage}
    (none : ∀ m ∈ silent, m.toolCalls = []) : Adjacent (silent ++ messages) ↔ Adjacent messages := by
  induction silent with
  | nil => rfl
  | cons m silent ih =>
      have first : m.toolCalls = [] := none m List.mem_cons_self
      simp only [List.cons_append, Adjacent, first, ne_eq, not_true_eq_false, false_implies, true_and]
      exact ih fun m member => none m (List.mem_cons_of_mem _ member)

/-- The results of calls stand behind them when there is no text in between, and no id was drawn. -/
theorem answered_iff {m : OpenAIMessage} {msg answer : AnthropicMessage}
    (ids : List.Forall₂ Identifies (m.toolCalls.map (·.id)) msg.toolUseIds)
    (used : msg.toolUseIds ≠ []) (user : answer.role = "user")
    (answers : answer.resultIds.Perm msg.toolUseIds) (n : Nat) (later : List OpenAIMessage) :
    FollowedByResults m.toolCalls (translated names draw n answer ++ later) ↔
      "" ∉ msg.toolUseIds ∧ answer.text = "" := by
  rw [translated_answer names draw n user]
  have resultIds : ((anthropicMessageToIr (draw n) answer).toolResults.map (toolMessage names)).map
      (·.toolCallId) = answer.resultIds.map some := by
    rw [← toIr_resultIds (draw n), List.map_map, List.map_map]
    rfl
  constructor
  · rintro ⟨results, rest, same, tools, perm⟩
    have counts : results.length = answer.resultIds.length := by
      have sent := perm.length_eq
      have told := ids.length_eq
      simp only [List.length_map] at sent told
      rw [sent, told, answers.length_eq]
    have silent : answer.text = "" := by
      by_contra spoken
      cases results with
      | nil =>
          rw [answers.length_eq] at counts
          exact used (List.length_eq_zero_iff.mp counts.symm)
      | cons first results =>
          rw [if_pos spoken, List.append_assoc, List.singleton_append, List.cons_append] at same
          have tool := tools first List.mem_cons_self
          simp [← (List.cons.inj same).1] at tool
    simp only [silent, ne_eq, not_true_eq_false, if_false, List.nil_append] at same
    have whole := congrArg List.length resultIds
    simp only [List.length_map] at whole
    obtain ⟨rfl, -⟩ := List.append_inj same (by rw [List.length_map, whole, counts])
    rw [resultIds] at perm
    refine ⟨?_, silent⟩
    intro unnamed
    have sent := (perm.mem_iff (a := some "")).mp
      (List.mem_map.mpr ⟨"", answers.mem_iff.mpr unnamed, rfl⟩)
    obtain ⟨tc, member, same⟩ := List.mem_map.mp sent
    exact not_mem_of_identifies ids (List.mem_map.mpr ⟨tc, member, Option.some.inj same⟩)
  · rintro ⟨named, silent⟩
    refine ⟨(anthropicMessageToIr (draw n) answer).toolResults.map (toolMessage names), later, ?_, ?_, ?_⟩
    · simp [silent]
    · intro m member
      obtain ⟨tr, -, rfl⟩ := List.mem_map.mp member
      rfl
    · have same := eq_of_identifies ids named
      have calls : m.toolCalls.map (fun tc => some tc.id) = msg.toolUseIds.map some := by
        rw [← same, List.map_map]
        rfl
      rw [resultIds, calls]
      exact answers.map some

theorem adjacent_iff (n : Nat) {messages : List AnthropicMessage} (formed : WellFormed messages) :
    Adjacent (translatedAll names draw n messages) ↔ BareAnswers messages := by
  induction messages generalizing n with
  | nil => rfl
  | cons msg messages ih =>
      obtain ⟨answers, formed⟩ := formed
      by_cases uses : msg.UsesTools
      · obtain ⟨m, alone, ids⟩ := translated_assistant names draw n uses.1
        have calls : m.toolCalls ≠ [] := fun none => uses.2 ((toolCalls_eq_nil_iff ids).mp none)
        obtain ⟨answer, later, rfl, user, perm⟩ := answers uses
        have step := answered_iff names draw ids uses.2 user perm (n + 1)
          (translatedAll names draw (n + 2) later)
        rw [translatedAll, alone, List.singleton_append, Adjacent, BareAnswers, ih (n + 1) formed]
        simp only [calls, ne_eq, not_false_eq_true, forall_const, uses, List.head?_cons,
          Option.mem_def, Option.some.injEq, forall_eq']
        exact and_congr_left' step
      · rw [translatedAll, adjacent_append (translated_other names draw n uses), ih (n + 1) formed,
          BareAnswers]
        simp [uses]

theorem translatedAll_eq (n : Nat) (messages : List AnthropicMessage) :
    (anthropicMessagesToIr draw n messages).flatMap (messageToOpenai names) =
      translatedAll names draw n messages := by
  induction messages generalizing n with
  | nil => rfl
  | cons msg messages ih => rw [anthropicMessagesToIr, List.flatMap_cons, ih, translatedAll, translated]

/-- In the translation of a well-formed conversation the results stand behind their calls, if and
    only if no tool use lacks an id and no user message with results has a text. -/
theorem tool_results_adjacent_iff (requestId : String) (draw : Nat → Nat → String)
    (body : AnthropicBody) (targetModel : String) (formed : WellFormed body.messages) :
    Adjacent (irToOpenaiRequest (anthropicRequestToIr requestId draw body) targetModel).messages ↔
      BareAnswers body.messages := by
  have system : ∀ m ∈ systemMessages (anthropicRequestToIr requestId draw body),
      m.toolCalls = [] := by
    intro m member
    simp only [systemMessages] at member
    split at member
    · rw [List.mem_singleton.mp member]
    · cases member
  rw [irToOpenaiRequest, adjacent_append system, anthropicRequestToIr, translatedAll_eq]
  exact adjacent_iff _ draw 0 formed

/-- A tool use, and what the user answers to it. -/
def sampleConversation (answer : List ContentBlock) : AnthropicBody where
  messages :=
    [{ role := "user", content := .text "run the tests" },
      { role := "assistant"
        content := .blocks [{ content := .toolUse (some "toolu_1") "bash" (.object (.ofRaw (.obj []))) }] },
      { role := "user", content := .blocks answer }]

def sampleResult : ContentBlock where
  content := .toolResult "toolu_1" (.text "3 passed") false

theorem sampleConversation_formed {answer : List ContentBlock}
    (ids : answer.filterMap (·.resultId) = ["toolu_1"]) :
    WellFormed (sampleConversation answer).messages := by
  have answered : ({ role := "user", content := .blocks answer } : AnthropicMessage).resultIds =
      ["toolu_1"] := ids
  refine ⟨fun uses => by simp [AnthropicMessage.UsesTools] at uses, fun _ => ?_,
    fun uses => by simp [AnthropicMessage.UsesTools] at uses, trivial⟩
  refine ⟨_, [], rfl, rfl, ?_⟩
  rw [answered]
  exact .refl _

theorem tool_results_adjacent_iff_bare :
    WellFormed (sampleConversation [sampleResult]).messages ∧
      Adjacent (irToOpenaiRequest (anthropicRequestToIr "req_1" (fun _ _ => "")
        (sampleConversation [sampleResult])) "gpt").messages := by
  have formed : WellFormed (sampleConversation [sampleResult]).messages :=
    sampleConversation_formed rfl
  refine ⟨formed, (tool_results_adjacent_iff "req_1" _ _ "gpt" formed).mpr ?_⟩
  refine ⟨fun uses => by simp [AnthropicMessage.UsesTools] at uses, fun _ => ⟨by decide, ?_⟩,
    fun uses => by simp [AnthropicMessage.UsesTools] at uses, trivial⟩
  intro answer next
  cases next
  rfl

/-- A text behind the result is put in front of it. -/
theorem text_before_tool_result :
    let body := sampleConversation [sampleResult, { content := .text "continue" }]
    WellFormed body.messages ∧
      ¬Adjacent (irToOpenaiRequest (anthropicRequestToIr "req_1" (fun _ _ => "") body)
        "gpt").messages := by
  refine ⟨sampleConversation_formed rfl, ?_⟩
  rintro ⟨-, answered, -⟩
  obtain ⟨results, later, same, tools, perm⟩ := answered (List.cons_ne_nil _ _)
  cases results with
  | nil => exact List.cons_ne_nil _ _ (List.nil_perm.mp perm)
  | cons first results =>
      have tool := tools first List.mem_cons_self
      rw [← (List.cons.inj same).1] at tool
      simp at tool

end DuraLLM
