import DuraLLM.Providers.EventReading

/-! # What a stream of events adds up to

The texts, the calls and the counts that the events of a reply stand for.  The
reading holds the same, whatever events arrive.
-/

namespace DuraLLM

open JsonRaw

/-- A tool call as its caller sees it. -/
def AdaptedToolCall.invocation (tc : AdaptedToolCall) : JsonRaw × JsonRaw × JsonRaw :=
  (tc.id, tc.name, tc.arguments)

structure ReplyTally where
  content : String := ""
  reasoning : String := ""
  calls : List (JsonRaw × JsonRaw × JsonRaw) := []
  inputTokens : Nat := 0
  outputTokens : Nat := 0
  stopReason : String := "end_turn"
  toolOpen : Bool := false
  toolId : String := ""
  toolName : String := ""
  toolInput : String := ""

namespace ReplyTally

def start (t : ReplyTally) : BlockOpening → ReplyTally
  | .thinking _ => { t with toolOpen := false, reasoning := "" }
  | .text => { t with toolOpen := false }
  | .toolUse id name => { t with toolOpen := true, toolId := id, toolName := name, toolInput := "" }

def addDelta (t : ReplyTally) (d : ReplyDelta) : ReplyTally :=
  match d.kind with
  | .thinking => { t with reasoning := t.reasoning ++ d.part }
  | .signature => t
  | .text => { t with content := t.content ++ d.part }
  | .inputJson => { t with toolInput := t.toolInput ++ d.part }

def stop (t : ReplyTally) : ReplyTally :=
  { t with
    calls :=
      if t.toolOpen then
        t.calls ++
          [(.str t.toolId, .str t.toolName,
            AnthropicAdapter.EventState.finalArguments t.toolInput)]
      else t.calls
    toolOpen := false }

def add (t : ReplyTally) : ReplyEvent → ReplyTally
  | .messageStart _ _ inputTokens _ => { t with inputTokens }
  | .blockStart _ opening => t.start opening
  | .blockDelta _ delta => t.addDelta delta
  | .blockStop _ => t.stop
  | .messageDelta stopReason outputTokens =>
      { t with stopReason := orText (some stopReason) t.stopReason, outputTokens }
  | .messageStop => t
  | .ping => t

end ReplyTally

namespace AnthropicAdapter.EventState

/-- The reading so far has come to this. -/
structure Holds (s : EventState) (t : ReplyTally) : Prop where
  content : ∃ texts : List String, s.textParts = texts.map .str ∧ String.join texts = t.content
  reasoning : s.reasoning.orElse (.str "") = .str t.reasoning
  signature : s.signature.orElse (.str "") = .str ""
  calls : s.toolCalls.map (·.invocation) = t.calls
  inputTokens : s.inputTokens = int t.inputTokens
  outputTokens : s.outputTokens = int t.outputTokens
  stopReason : s.stopReason = .str t.stopReason
  open' : s.currentBlockType.isStr "tool_use" = t.toolOpen
  toolId : s.currentToolId = .str t.toolId
  toolName : s.currentToolName = .str t.toolName
  toolInput : s.currentToolInputStr = t.toolInput

theorem fresh_holds (uuid defaultModel : String) :
    Holds { model := .str defaultModel, msgId := .str ("msg_" ++ uuid) } {} :=
  ⟨⟨[], rfl, rfl⟩, rfl, rfl, rfl, rfl, rfl, rfl, rfl, rfl, rfl, rfl⟩

theorem orElse_str (text : String) : (JsonRaw.str text).orElse (.str "") = .str text := by
  by_cases empty : text = "" <;> simp [orElse, JsonRaw.truthy, empty]

theorem data_type (e : ReplyEvent) :
    (obj (sortedMembers e.members)).get "type" null = some (.str e.name) := by
  rw [get_sorted, ReplyEvent.members, field]
  cases e <;> simp [ReplyEvent.details, field, sorted]

variable (draw : Nat → String) {s : EventState} {t : ReplyTally}

theorem messageStart_event (s : EventState) (id model : String) (inputTokens outputTokens : Nat) :
    s.messageStart (.obj (sortedMembers
        (ReplyEvent.messageStart id model inputTokens outputTokens).members)) =
      some { s with
        msgId := (JsonRaw.str id).orElse s.msgId
        model := (JsonRaw.str model).orElse s.model
        inputTokens := int inputTokens } := by
  simp [messageStart, get_sorted, ReplyEvent.members, ReplyEvent.details, replyMembers, field,
    sorted]

theorem blockStart_event (s : EventState) (index : Nat) (opening : BlockOpening) :
    s.blockStart draw (.obj (sortedMembers (ReplyEvent.blockStart index opening).members)) =
      some (match opening with
        | .thinking signed =>
            { s with
              currentBlockType := .str "thinking"
              reasoning := .str ""
              signature := if signed then .str "" else null }
        | .text =>
            { s with
              currentBlockType := .str "text"
              textParts := s.textParts ++ [.str ""] }
        | .toolUse id name =>
            { s with
              currentBlockType := .str "tool_use"
              currentToolId := .str id
              currentToolName := .str name
              currentToolInputStr := "" }) := by
  cases opening with
  | thinking signed =>
      cases signed <;>
        simp [blockStart, get_sorted, ReplyEvent.members, ReplyEvent.details, BlockOpening.members,
          field, sorted, isStr]
  | text =>
      simp [blockStart, get_sorted, ReplyEvent.members, ReplyEvent.details, BlockOpening.members,
        field, sorted, isStr]
  | toolUse id name =>
      simp [blockStart, get_sorted, ReplyEvent.members, ReplyEvent.details, BlockOpening.members,
        field, sorted, isStr]

theorem blockDelta_event (s : EventState) (index : Nat) {reasoning : String}
    (same : s.reasoning.orElse (.str "") = .str reasoning) (delta : ReplyDelta) :
    s.blockDelta (.obj (sortedMembers (ReplyEvent.blockDelta index delta).members)) =
      some (match delta.kind with
        | .thinking => { s with reasoning := .str (reasoning ++ delta.part) }
        | .signature => s
        | .text => { s with textParts := s.textParts ++ [.str delta.part] }
        | .inputJson =>
            { s with currentToolInputStr := s.currentToolInputStr ++ delta.part }) := by
  obtain ⟨kind, part⟩ := delta
  cases kind <;>
    simp [blockDelta, get_sorted, ReplyEvent.members, ReplyEvent.details, DeltaKind.type,
      DeltaKind.key, field, sorted, isStr, plus, same, asStr]

theorem messageDelta_event (s : EventState) (stopReason : String) (outputTokens : Nat) :
    s.messageDelta (.obj (sortedMembers
        (ReplyEvent.messageDelta stopReason outputTokens).members)) =
      some { s with
        stopReason := (JsonRaw.str stopReason).orElse s.stopReason
        outputTokens := int outputTokens } := by
  simp [messageDelta, get_sorted, ReplyEvent.members, ReplyEvent.details, field, sorted]

theorem Holds.start (holds : Holds s t) (index : Nat) (opening : BlockOpening) :
    ∃ s', s.blockStart draw (.obj (sortedMembers (ReplyEvent.blockStart index opening).members)) =
      some s' ∧ Holds s' (t.start opening) := by
  refine ⟨_, blockStart_event draw s index opening, ?_⟩
  cases opening with
  | thinking signed =>
      exact { holds with
        reasoning := rfl
        signature := by cases signed <;> rfl
        open' := rfl }
  | text =>
      obtain ⟨texts, same, joined⟩ := holds.content
      exact { holds with
        content := ⟨texts ++ [""], by simp [same], by simp [joined, ReplyTally.start]⟩
        open' := rfl }
  | toolUse id name =>
      exact { holds with open' := rfl, toolId := rfl, toolName := rfl, toolInput := rfl }

theorem Holds.addDelta (holds : Holds s t) (index : Nat) (delta : ReplyDelta) :
    ∃ s', s.blockDelta (.obj (sortedMembers (ReplyEvent.blockDelta index delta).members)) =
      some s' ∧ Holds s' (t.addDelta delta) := by
  refine ⟨_, blockDelta_event s index holds.reasoning delta, ?_⟩
  obtain ⟨kind, part⟩ := delta
  cases kind with
  | thinking => exact { holds with reasoning := orElse_str _ }
  | signature => exact holds
  | text =>
      obtain ⟨texts, same, joined⟩ := holds.content
      exact { holds with
        content := ⟨texts ++ [part], by simp [same], by
          simp [ReplyTally.addDelta, joined]⟩ }
  | inputJson =>
      exact { holds with toolInput := congrArg (· ++ part) holds.toolInput }

theorem Holds.stop (holds : Holds s t) : Holds s.blockStop t.stop := by
  have calls : s.blockStop.toolCalls.map (·.invocation) = t.stop.calls := by
    unfold blockStop ReplyTally.stop
    rw [holds.open', ← holds.calls]
    cases t.toolOpen with
    | false => rfl
    | true =>
        simp [AdaptedToolCall.create, AdaptedToolCall.invocation, holds.toolId, holds.toolName,
          holds.toolInput]
  exact { holds with calls := calls, open' := rfl }

/-- One event adds to the reading what it adds to the tally. -/
theorem Holds.add (holds : Holds s t) (e : ReplyEvent) :
    ∃ s', s.addEvent draw e = some s' ∧ Holds s' (t.add e) := by
  have type := data_type e
  cases e with
  | messageStart id model inputTokens outputTokens =>
      have read := messageStart_event s id model inputTokens outputTokens
      refine ⟨_, by simp [addEvent, addData, type, ReplyEvent.name, isStr, read]; rfl, ?_⟩
      exact { holds with inputTokens := rfl }
  | blockStart index opening =>
      obtain ⟨s', read, holds⟩ := holds.start draw index opening
      exact ⟨s', by simp [addEvent, addData, type, ReplyEvent.name, isStr, read], holds⟩
  | blockDelta index delta =>
      obtain ⟨s', read, holds⟩ := holds.addDelta index delta
      exact ⟨s', by simp [addEvent, addData, type, ReplyEvent.name, isStr, read], holds⟩
  | blockStop index =>
      exact ⟨_, by simp [addEvent, addData, type, ReplyEvent.name, isStr], holds.stop⟩
  | messageDelta stopReason outputTokens =>
      have read := messageDelta_event s stopReason outputTokens
      refine ⟨_, by simp [addEvent, addData, type, ReplyEvent.name, isStr, read]; rfl, ?_⟩
      have reason : (JsonRaw.str stopReason).orElse s.stopReason =
          .str (orText (some stopReason) t.stopReason) := by
        rw [holds.stopReason]
        exact orElse_optionalValue (some stopReason) t.stopReason
      exact { holds with stopReason := reason, outputTokens := rfl }
  | messageStop =>
      exact ⟨s, by simp [addEvent, addData, type, ReplyEvent.name, isStr], holds⟩
  | ping => exact ⟨s, by simp [addEvent, addData, type, ReplyEvent.name, isStr], holds⟩

theorem Holds.run (holds : Holds s t) (events : List ReplyEvent) :
    ∃ s', events.foldlM (addEvent draw) s = some s' ∧ Holds s' (events.foldl ReplyTally.add t) := by
  induction events generalizing s t with
  | nil => exact ⟨s, rfl, holds⟩
  | cons e events ih =>
      obtain ⟨s', read, holds⟩ := holds.add draw e
      rw [List.foldlM_cons, read]
      exact ih holds

end AnthropicAdapter.EventState

end DuraLLM
