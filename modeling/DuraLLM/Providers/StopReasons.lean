import DuraLLM.Providers.Adapters

/-! # Stop reasons for Anthropic clients

A client goes on to execute tools when the stop reason says so, and finds them
among the blocks.  The stop reason comes from the finish reason of the response,
the blocks from its tool calls, and on some paths the finish reason is what the
provider wrote, whatever calls it sent.
-/

namespace DuraLLM

open JsonRaw

/-! ## The encoders -/

/-- `stop_map.get(resp.finish_reason, "end_turn")`; lists and objects are no keys. -/
def anthropicStopReason : JsonRaw → Option String
  | .str finishReason => some (stopReason finishReason)
  | .arr _ | .obj _ => none
  | .scalar _ => some "end_turn"

namespace DecodedResponse

variable (resp : DecodedResponse) (requestedModel : String)

/-- The message id; only a text has a beginning. -/
def messageId : Option JsonRaw := resp.responseId.asStr.map fun id => .str (marked "msg_" id)

/-- The blocks of a message; `hex` is drawn for a call without an id. -/
def blocks (hex : Nat → String) : List JsonRaw :=
  (if resp.reasoningContent.truthy && resp.reasoningSignature.truthy then
      [.obj [("type", .str "thinking"), ("thinking", resp.reasoningContent),
        ("signature", resp.reasoningSignature)]]
    else []) ++
    (if resp.content.truthy then [.obj [("type", .str "text"), ("text", resp.content)]] else []) ++
    resp.toolCalls.mapIdx fun n tc =>
      .obj [("type", .str "tool_use"), ("id", tc.id.orElse (.str ("toolu_" ++ hex n))),
        ("name", tc.name), ("input", tc.arguments)]

def irToAnthropicResponse (hex : Nat → String) : Option JsonRaw := do
  let stopReason ← anthropicStopReason resp.finishReason
  return .obj [("id", ← resp.messageId), ("type", .str "message"), ("role", .str "assistant"),
    ("model", .str requestedModel), ("content", .arr (resp.blocks hex)),
    ("stop_reason", .str stopReason), ("stop_sequence", null),
    ("usage", .obj [("input_tokens", resp.inputTokens), ("output_tokens", resp.outputTokens)])]

/-- A block of a stream, as it opens and as it goes on. -/
structure StreamBlock where
  opening : List (String × JsonRaw)
  deltas : List (List (String × JsonRaw))

/-- The blocks with their indices. -/
def StreamBlock.events (idx : Nat) : List StreamBlock → List (String × JsonRaw)
  | [] => []
  | block :: rest =>
      blockStart idx block.opening ::
        (block.deltas.map (blockDelta idx) ++ blockStop idx :: events (idx + 1) rest)

/-- `tc.raw_arguments or json.dumps(tc.arguments, ensure_ascii=False)` -/
def sentArguments (tc : AdaptedToolCall) : String :=
  if tc.rawArguments ≠ "" then tc.rawArguments else payloadText tc.arguments

def streamBlocks : List StreamBlock :=
  (if resp.reasoningContent.truthy then
      [{ opening := [("type", .str "thinking"), ("thinking", .str "")]
         deltas :=
          [("type", .str "thinking_delta"), ("thinking", resp.reasoningContent)] ::
            if resp.reasoningSignature.truthy then
              [[("type", .str "signature_delta"), ("signature", resp.reasoningSignature)]]
            else [] }]
    else []) ++
    (if resp.content.truthy then
        [{ opening := [("type", .str "text"), ("text", .str "")]
           deltas := [[("type", .str "text_delta"), ("text", resp.content)]] }]
      else []) ++
    resp.toolCalls.map fun tc =>
      { opening :=
          [("type", .str "tool_use"), ("id", tc.id), ("name", tc.name), ("input", .obj [])]
        deltas :=
          [[("type", .str "input_json_delta"), ("partial_json", .str (sentArguments tc))]] }

/-- The events of `synthesize_anthropic_sse`, each with its payload. -/
def synthesizeAnthropicSse : Option (List (String × JsonRaw)) := do
  let stopReason ← anthropicStopReason resp.finishReason
  let start : String × JsonRaw :=
    ("message_start",
      .obj [("type", .str "message_start"),
        ("message", .obj [
          ("id", ← resp.messageId), ("type", .str "message"), ("role", .str "assistant"),
          ("model", .str requestedModel), ("content", .arr []), ("stop_reason", null),
          ("stop_sequence", null),
          ("usage", .obj [("input_tokens", resp.inputTokens), ("output_tokens", int 1)])])])
  let finish : List (String × JsonRaw) :=
    [("message_delta",
        .obj [("type", .str "message_delta"),
          ("delta", .obj [("stop_reason", .str stopReason), ("stop_sequence", null)]),
          ("usage", .obj [("output_tokens", resp.outputTokens)])]),
      ("message_stop", .obj [("type", .str "message_stop")])]
  return start :: (StreamBlock.events 0 resp.streamBlocks ++ finish)

end DecodedResponse

/-! ### The streams of checked responses -/

section Typed

/-- A response whose members have the declared types. -/
def NormalizedResponse.decoded (resp : NormalizedResponse JsonValue) : DecodedResponse where
  responseId := .str resp.responseId
  model := null
  content := optionalText resp.content
  reasoningContent := optionalText resp.reasoningContent
  reasoningSignature := optionalText resp.reasoningSignature
  toolCalls := resp.toolCalls.map fun tc =>
    ⟨.str tc.id, .str tc.name, tc.arguments.raw, tc.rawArguments⟩
  finishReason := .str resp.finishReason
  inputTokens := int resp.inputTokens
  outputTokens := int resp.outputTokens

theorem optionalText_truthy (text : Option String) :
    (optionalText text).truthy = decide (orText text "" ≠ "") := by
  cases text with
  | none => rfl
  | some text =>
      by_cases empty : text = "" <;> simp [optionalText, JsonRaw.truthy, orText, empty]

theorem optionalText_of_truthy {text : Option String} (some : orText text "" ≠ "") :
    optionalText text = .str (orText text "") := by
  cases text with
  | none => exact absurd rfl some
  | some text =>
      by_cases empty : text = "" <;> simp [optionalText, orText, empty] at some ⊢

open DecodedResponse in
theorem events_append (idx : Nat) (first second : List StreamBlock) :
    StreamBlock.events idx (first ++ second) =
      StreamBlock.events idx first ++ StreamBlock.events (idx + first.length) second := by
  induction first generalizing idx with
  | nil => rfl
  | cons block first ih =>
      simp [StreamBlock.events, ih, Nat.add_assoc, Nat.add_comm 1]

open DecodedResponse in
theorem events_toolUse (idx : Nat) (calls : List (NormalizedToolCall JsonValue)) :
    StreamBlock.events idx
        ((calls.map fun tc =>
            (⟨.str tc.id, .str tc.name, tc.arguments.raw, tc.rawArguments⟩ : AdaptedToolCall)).map
          fun tc =>
            { opening :=
                [("type", .str "tool_use"), ("id", tc.id), ("name", tc.name), ("input", .obj [])]
              deltas :=
                [[("type", .str "input_json_delta"),
                  ("partial_json", .str (sentArguments tc))]] }) =
      toolUseBlocks idx calls := by
  induction calls generalizing idx with
  | nil => rfl
  | cons tc calls ih =>
      simp only [List.map_cons, StreamBlock.events, ih, toolUseBlocks]
      rfl

/-- On a response of the declared types the events are those of the typed encoder. -/
theorem synthesizeAnthropicSse_decoded (resp : NormalizedResponse JsonValue)
    (requestedModel : String) :
    resp.decoded.synthesizeAnthropicSse requestedModel =
      some (anthropicEvents resp requestedModel) := by
  have blocks : DecodedResponse.StreamBlock.events 0 resp.decoded.streamBlocks =
      (if orText resp.reasoningContent "" ≠ "" then
          thinkingBlock 0 (orText resp.reasoningContent "") resp.reasoningSignature else []) ++
        (if orText resp.content "" ≠ "" then
            textBlock (if orText resp.reasoningContent "" ≠ "" then 1 else 0)
              (orText resp.content "") else []) ++
        toolUseBlocks
          (if orText resp.content "" ≠ "" then
              (if orText resp.reasoningContent "" ≠ "" then 1 else 0) + 1
            else if orText resp.reasoningContent "" ≠ "" then 1 else 0) resp.toolCalls := by
    simp only [DecodedResponse.streamBlocks, NormalizedResponse.decoded, events_append,
      events_toolUse, optionalText_truthy]
    by_cases thinks : orText resp.reasoningContent "" = "" <;>
      by_cases tells : orText resp.content "" = "" <;>
        by_cases signed : orText resp.reasoningSignature "" = "" <;>
          simp [thinks, tells, signed, DecodedResponse.StreamBlock.events, thinkingBlock, textBlock,
            optionalText_of_truthy]
  unfold DecodedResponse.synthesizeAnthropicSse
  rw [blocks]
  simp only [anthropicEvents, List.append_assoc]
  rfl

end Typed

/-! ## What an encoded response says -/

/-- The value of a member, if there is one. -/
def look (v : JsonRaw) (key : String) (default : JsonRaw) : JsonRaw :=
  (v.get key default).getD default

/-- The message says that it stops for tools. -/
def messageStopsForTools (message : JsonRaw) : Bool :=
  (look message "stop_reason" null).isStr "tool_use"

/-- The message has a block that uses a tool. -/
def messageUsesTools (message : JsonRaw) : Bool :=
  match look message "content" null with
  | .arr blocks => blocks.any fun b => (look b "type" null).isStr "tool_use"
  | _ => false

def eventStopsForTools (e : String × JsonRaw) : Bool :=
  e.1 == "message_delta" && (look (look e.2 "delta" null) "stop_reason" null).isStr "tool_use"

def eventUsesTools (e : String × JsonRaw) : Bool :=
  e.1 == "content_block_start" &&
    (look (look e.2 "content_block" null) "type" null).isStr "tool_use"

/-- The stream says that it stops for tools. -/
def eventsStopForTools (events : List (String × JsonRaw)) : Bool := events.any eventStopsForTools

/-- The stream has a block that uses a tool. -/
def eventsUseTools (events : List (String × JsonRaw)) : Bool := events.any eventUsesTools

/-- The response stops for tools. -/
def DecodedResponse.asksForTools (resp : DecodedResponse) : Bool :=
  resp.finishReason.isStr "tool_calls"

theorem stopReason_toolUse_iff (finishReason : String) :
    stopReason finishReason = "tool_use" ↔ finishReason = "tool_calls" := by
  unfold stopReason
  split_ifs <;> simp_all

theorem anthropicStopReason_toolUse {finishReason : JsonRaw} {stop : String}
    (mapped : anthropicStopReason finishReason = some stop) :
    (stop == "tool_use") = finishReason.isStr "tool_calls" := by
  cases finishReason with
  | scalar v =>
      cases mapped
      rfl
  | str text =>
      cases mapped
      rw [isStr, Bool.eq_iff_iff, beq_iff_eq, beq_iff_eq, stopReason_toolUse_iff]
  | arr items => cases mapped
  | obj members => cases mapped

section Encoded

variable {resp : DecodedResponse} {requestedModel : String}

theorem blocks_use_tools (hex : Nat → String) :
    ((resp.blocks hex).any fun b => (look b "type" null).isStr "tool_use") =
      !resp.toolCalls.isEmpty := by
  have typed (type : String) (rest : List (String × JsonRaw)) :
      (look (.obj (("type", .str type) :: rest)) "type" null).isStr "tool_use" =
        (type == "tool_use") := rfl
  unfold DecodedResponse.blocks
  split_ifs <;> cases resp.toolCalls <;> simp [typed, List.mapIdx_cons]

/-- The message stops for tools when the response does, and uses tools when the
    response has calls. -/
theorem irToAnthropicResponse_tools {hex : Nat → String} {message : JsonRaw}
    (encoded : resp.irToAnthropicResponse requestedModel hex = some message) :
    messageStopsForTools message = resp.asksForTools ∧
      messageUsesTools message = !resp.toolCalls.isEmpty := by
  obtain ⟨stop, mapped, encoded⟩ := Option.bind_eq_some_iff.mp encoded
  obtain ⟨id, -, encoded⟩ := Option.bind_eq_some_iff.mp encoded
  cases encoded
  constructor
  · exact anthropicStopReason_toolUse mapped
  · exact blocks_use_tools hex

theorem eventUsesTools_blockStart (idx : Nat) (opening : List (String × JsonRaw)) :
    eventUsesTools (blockStart idx opening) = (look (.obj opening) "type" null).isStr "tool_use" :=
  rfl

open DecodedResponse in
theorem events_none_stop (idx : Nat) (blocks : List StreamBlock) :
    (StreamBlock.events idx blocks).any eventStopsForTools = false := by
  have start (idx : Nat) (opening) : eventStopsForTools (blockStart idx opening) = false := rfl
  have delta (idx : Nat) (members) : eventStopsForTools (blockDelta idx members) = false := rfl
  have stop (idx : Nat) : eventStopsForTools (blockStop idx) = false := rfl
  induction blocks generalizing idx with
  | nil => rfl
  | cons block blocks ih =>
      have deltas : (block.deltas.map (blockDelta idx)).any eventStopsForTools = false := by
        rw [List.any_map, List.any_eq_false]
        exact fun members _ => by simp [delta]
      rw [StreamBlock.events, List.any_cons, List.any_append, deltas, List.any_cons, stop, start,
        ih (idx + 1)]
      rfl

open DecodedResponse in
/-- A block that opens is one that was opened. -/
theorem events_use_tools (idx : Nat) (blocks : List StreamBlock) :
    (StreamBlock.events idx blocks).any eventUsesTools =
      blocks.any fun block => (look (.obj block.opening) "type" null).isStr "tool_use" := by
  have delta (idx : Nat) (members) : eventUsesTools (blockDelta idx members) = false := rfl
  have stop (idx : Nat) : eventUsesTools (blockStop idx) = false := rfl
  induction blocks generalizing idx with
  | nil => rfl
  | cons block blocks ih =>
      have deltas : (block.deltas.map (blockDelta idx)).any eventUsesTools = false := by
        rw [List.any_map, List.any_eq_false]
        exact fun members _ => by simp [delta]
      rw [StreamBlock.events, List.any_cons, List.any_append, deltas, List.any_cons, stop,
        eventUsesTools_blockStart, ih (idx + 1), Bool.false_or, Bool.false_or, List.any_cons]

theorem streamBlocks_use_tools :
    (resp.streamBlocks.any fun block => (look (.obj block.opening) "type" null).isStr "tool_use") =
      !resp.toolCalls.isEmpty := by
  have typed (type : String) (rest : List (String × JsonRaw)) :
      (look (.obj (("type", .str type) :: rest)) "type" null).isStr "tool_use" =
        (type == "tool_use") := rfl
  unfold DecodedResponse.streamBlocks
  split_ifs <;> cases resp.toolCalls <;> simp [typed]

theorem synthesizeAnthropicSse_tools {events : List (String × JsonRaw)}
    (encoded : resp.synthesizeAnthropicSse requestedModel = some events) :
    eventsStopForTools events = resp.asksForTools ∧
      eventsUseTools events = !resp.toolCalls.isEmpty := by
  obtain ⟨stop, mapped, encoded⟩ := Option.bind_eq_some_iff.mp encoded
  obtain ⟨id, -, encoded⟩ := Option.bind_eq_some_iff.mp encoded
  obtain rfl := Option.some.inj encoded
  constructor
  · rw [DecodedResponse.asksForTools, ← anthropicStopReason_toolUse mapped, eventsStopForTools,
      List.any_cons, List.any_append, events_none_stop]
    change (false || (false || ((stop == "tool_use") || (false || false)))) = _
    simp
  · rw [eventsUseTools, List.any_cons, List.any_append, events_use_tools, streamBlocks_use_tools]
    change (false || (_ || (false || (false || false)))) = _
    simp

end Encoded

end DuraLLM
