import DuraLLM.Protocol.Anthropic
import DuraLLM.Streaming.RoundTrip

/-! # Streamed and plain responses

A client that reads the synthetic events of a response puts its content blocks
together.  They are those of the plain response but for reasoning without a
signature, which only the stream has.
-/

namespace DuraLLM

open JsonRaw Utf8 SSEStreamParser

/-! ## The plain response -/

structure AnthropicResponse where
  id : String
  model : String
  content : List BlockContent
  stopReason : String
  inputTokens : Int
  outputTokens : Int

/-- The tool uses, from the call with this number on, which gets a drawn id when it has none. -/
def toolUseContents (draw : Nat → String) (n : Nat) :
    List (NormalizedToolCall JsonValue) → List BlockContent
  | [] => []
  | tc :: calls =>
      .toolUse (some (orText (some tc.id) ("toolu_" ++ draw n))) tc.name (.object tc.arguments) ::
        toolUseContents draw (n + 1) calls

def irToAnthropicResponse (draw : Nat → String) (resp : NormalizedResponse JsonValue)
    (requestedModel : String) : AnthropicResponse :=
  let thinking := orText resp.reasoningContent ""
  let signature := orText resp.reasoningSignature ""
  let text := orText resp.content ""
  { id := marked "msg_" resp.responseId
    model := requestedModel
    content :=
      (if thinking ≠ "" ∧ signature ≠ "" then [.thinking thinking (some signature)] else []) ++
        (if text ≠ "" then [.text text] else []) ++ toolUseContents draw 0 resp.toolCalls
    stopReason := stopReason resp.finishReason
    inputTokens := resp.inputTokens
    outputTokens := resp.outputTokens }

/-! ## The client -/

/-- A block whose parts are still arriving. -/
inductive ClientBlock where
  | thinking (thinking : String) (signature : Option String)
  | text (text : String)
  | toolUse (id name partialJson : String)
  | other

namespace ClientBlock

def start (block : JsonRaw) : Option ClientBlock := do
  let type ← block.get "type" null
  if type.isStr "thinking" then
    return .thinking (← (← block.get "thinking" (.str "")).asStr) none
  else if type.isStr "text" then
    return .text (← (← block.get "text" (.str "")).asStr)
  else if type.isStr "tool_use" then
    return .toolUse (← (← block.get "id" null).asStr) (← (← block.get "name" null).asStr) ""
  else
    return .other

def add (b : ClientBlock) (delta : JsonRaw) : Option ClientBlock := do
  let type ← delta.get "type" null
  match b with
  | .thinking said signature =>
      if type.isStr "thinking_delta" then
        return .thinking (said ++ (← (← delta.get "thinking" null).asStr)) signature
      else if type.isStr "signature_delta" then
        return .thinking said (some (← (← delta.get "signature" null).asStr))
      else none
  | .text said =>
      if type.isStr "text_delta" then
        return .text (said ++ (← (← delta.get "text" null).asStr))
      else none
  | .toolUse id name partialJson =>
      if type.isStr "input_json_delta" then
        return .toolUse id name (partialJson ++ (← (← delta.get "partial_json" null).asStr))
      else none
  | .other => return .other

/-- The block that has arrived. Without a text the input is empty. -/
def content : ClientBlock → BlockContent
  | .thinking said signature => .thinking said signature
  | .text said => .text said
  | .toolUse id name partialJson =>
      .toolUse (some id) name
        (if partialJson = "" then .object (.ofRaw (.obj []))
        else ((JsonValue.loads partialJson).map ToolInput.object).getD (.other partialJson))
  | .other => .other

end ClientBlock

structure StreamClient where
  blocks : List ClientBlock := []
  stop : JsonRaw := null

namespace StreamClient

/-- A payload that breaks the protocol is an error. -/
def receive (client : StreamClient) (payload : JsonRaw) : Option StreamClient := do
  let type ← payload.get "type" null
  if type.isStr "content_block_start" then
    let block ← ClientBlock.start (← payload.get "content_block" null)
    return { client with blocks := client.blocks ++ [block] }
  else if type.isStr "content_block_delta" then
    let idx ← (← payload.get "index" null).asInt
    let block ← client.blocks[idx.toNat]?
    let block ← block.add (← payload.get "delta" null)
    return { client with blocks := client.blocks.set idx.toNat block }
  else if type.isStr "message_delta" then
    let delta ← payload.get "delta" null
    return { client with stop := ← delta.get "stop_reason" null }
  else
    return client

def receiveEvent (client : StreamClient) (event : ParsedSSEEvent JsonValue) : Option StreamClient :=
  client.receive ((event.jsonData.map (·.raw)).getD null)

/-- The content blocks and the stop reason. -/
def reassemble (events : List (ParsedSSEEvent JsonValue)) : Option (List BlockContent × JsonRaw) :=
  (events.foldlM receiveEvent {}).map fun client =>
    (client.blocks.map (·.content), client.stop)

/-! ## What the client makes of the events -/

/-- A frame of the stream reaches the client. -/
def hear (client : StreamClient) (event : String × JsonRaw) : Option StreamClient :=
  client.receiveEvent (received event.1 (payloadText event.2))

theorem hear_object (client : StreamClient) (event : String) (members : List (String × JsonRaw)) :
    client.hear (event, .obj members) = client.receive (obj members).sorted := by
  rw [hear, receiveEvent, received_object]
  rfl

section Blocks

variable (client : StreamClient) (idx : Nat)

theorem hear_blockStart (block : List (String × JsonRaw)) {started : ClientBlock}
    (start : ClientBlock.start (obj block).sorted = some started) :
    client.hear (blockStart idx block) =
      some { client with blocks := client.blocks ++ [started] } := by
  rw [blockStart, hear_object]
  simp [receive, get_sorted, field, sorted, isStr] at start ⊢
  rw [start]
  rfl

theorem hear_blockDelta (delta : List (String × JsonRaw)) {before : List ClientBlock}
    {b added : ClientBlock} (blocks : client.blocks = before ++ [b]) (here : before.length = idx)
    (add : b.add (obj delta).sorted = some added) :
    client.hear (blockDelta idx delta) = some { client with blocks := before ++ [added] } := by
  subst here
  rw [blockDelta, hear_object]
  simp [receive, get_sorted, field, sorted, isStr, asInt, blocks] at add ⊢
  rw [add]
  simp

theorem hear_blockStop : client.hear (blockStop idx) = some client := by
  rw [blockStop, hear_object]
  simp [receive, get_sorted, field, sorted, isStr]

variable {client idx}

theorem hear_thinking (here : client.blocks.length = idx) (thinking : String)
    (signature : Option String) :
    (thinkingBlock idx thinking signature).foldlM hear client =
      some { client with
        blocks := client.blocks ++ [.thinking thinking (signature.filter (· ≠ ""))] } := by
  have opened : client.hear
      (blockStart idx [("type", .str "thinking"), ("thinking", .str "")]) =
        some { client with blocks := client.blocks ++ [.thinking "" none] } :=
    hear_blockStart client idx _ rfl
  have added : hear { client with blocks := client.blocks ++ [.thinking "" none] }
      (blockDelta idx [("type", .str "thinking_delta"), ("thinking", .str thinking)]) =
        some { client with blocks := client.blocks ++ [.thinking thinking none] } :=
    hear_blockDelta _ idx _ rfl here
      (by simp [ClientBlock.add, sorted, get_sorted, field, isStr, asStr])
  have signed (signature : String) : hear
      { client with blocks := client.blocks ++ [.thinking thinking none] }
      (blockDelta idx [("type", .str "signature_delta"), ("signature", .str signature)]) =
        some { client with blocks := client.blocks ++ [.thinking thinking (some signature)] } :=
    hear_blockDelta _ idx _ rfl here
      (by simp [ClientBlock.add, sorted, get_sorted, field, isStr, asStr])
  cases signature with
  | none => simp [thinkingBlock, opened, added, hear_blockStop, orText]
  | some signature =>
      by_cases empty : signature = ""
      · simp [thinkingBlock, opened, added, hear_blockStop, orText, empty, Option.filter]
      · simp [thinkingBlock, opened, added, signed, hear_blockStop, orText, empty, Option.filter]

theorem hear_text (here : client.blocks.length = idx) (text : String) :
    (textBlock idx text).foldlM hear client =
      some { client with blocks := client.blocks ++ [.text text] } := by
  have opened : client.hear (blockStart idx [("type", .str "text"), ("text", .str "")]) =
      some { client with blocks := client.blocks ++ [.text ""] } :=
    hear_blockStart client idx _ rfl
  have added : hear { client with blocks := client.blocks ++ [.text ""] }
      (blockDelta idx [("type", .str "text_delta"), ("text", .str text)]) =
        some { client with blocks := client.blocks ++ [.text text] } :=
    hear_blockDelta _ idx _ rfl here
      (by simp [ClientBlock.add, sorted, get_sorted, field, isStr, asStr])
  simp [textBlock, opened, added, hear_blockStop]

theorem hear_toolUse (here : client.blocks.length = idx) (tc : NormalizedToolCall JsonValue) :
    (toolUseBlock idx tc).foldlM hear client =
      some { client with
        blocks := client.blocks ++ [.toolUse tc.id tc.name (argumentsText .verbatim tc)] } := by
  have opened : client.hear (blockStart idx
      [("type", .str "tool_use"), ("id", .str tc.id), ("name", .str tc.name), ("input", .obj [])]) =
        some { client with blocks := client.blocks ++ [.toolUse tc.id tc.name ""] } :=
    hear_blockStart client idx _
      (by simp [ClientBlock.start, sorted, get_sorted, field, isStr, asStr])
  have added : hear { client with blocks := client.blocks ++ [.toolUse tc.id tc.name ""] }
      (blockDelta idx [("type", .str "input_json_delta"),
        ("partial_json", .str (argumentsText .verbatim tc))]) =
        some { client with
          blocks := client.blocks ++ [.toolUse tc.id tc.name (argumentsText .verbatim tc)] } :=
    hear_blockDelta _ idx _ rfl here
      (by simp [ClientBlock.add, sorted, get_sorted, field, isStr, asStr])
  simp [toolUseBlock, opened, added, hear_blockStop]

theorem hear_toolUses (here : client.blocks.length = idx)
    (calls : List (NormalizedToolCall JsonValue)) :
    (toolUseBlocks idx calls).foldlM hear client =
      some { client with
        blocks := client.blocks ++
          calls.map fun tc => .toolUse tc.id tc.name (argumentsText .verbatim tc) } := by
  induction calls generalizing client idx with
  | nil => simp [toolUseBlocks]
  | cons tc calls ih =>
      have next : (client.blocks ++
          [ClientBlock.toolUse tc.id tc.name (argumentsText .verbatim tc)]).length = idx + 1 := by
        simp [here]
      rw [toolUseBlocks, List.foldlM_append, hear_toolUse here, Option.bind_eq_bind,
        Option.bind_some, ih next]
      simp

end Blocks

theorem hear_messageStart (client : StreamClient) (resp : NormalizedResponse JsonValue)
    (requestedModel : String) : client.hear (messageStart resp requestedModel) = some client := by
  rw [messageStart, hear_object]
  simp [receive, get_sorted, field, sorted, isStr]

theorem hear_messageEnd (client : StreamClient) (resp : NormalizedResponse JsonValue) :
    (messageEnd resp).foldlM hear client =
      some { client with stop := .str (stopReason resp.finishReason) } := by
  simp [messageEnd, hear_object, receive, get_sorted, field, sorted, isStr]

/-- The blocks of a response, as far as there is something to put in them. -/
def streamedBlocks (resp : NormalizedResponse JsonValue) : List ClientBlock :=
  (if orText resp.reasoningContent "" ≠ "" then
    [.thinking (orText resp.reasoningContent "") (resp.reasoningSignature.filter (· ≠ ""))]
  else []) ++
  (if orText resp.content "" ≠ "" then [.text (orText resp.content "")] else []) ++
  resp.toolCalls.map fun tc => .toolUse tc.id tc.name (argumentsText .verbatim tc)

theorem hear_someThinking (resp : NormalizedResponse JsonValue) :
    (if orText resp.reasoningContent "" ≠ "" then
        thinkingBlock 0 (orText resp.reasoningContent "") resp.reasoningSignature
      else []).foldlM hear {} =
      some { blocks := if orText resp.reasoningContent "" ≠ "" then
        [.thinking (orText resp.reasoningContent "") (resp.reasoningSignature.filter (· ≠ ""))]
        else [] } := by
  split
  · exact hear_thinking rfl _ _
  · rfl

theorem hear_someText {client : StreamClient} {idx : Nat} (here : client.blocks.length = idx)
    (text : String) :
    (if text ≠ "" then textBlock idx text else []).foldlM hear client =
      some { client with blocks := client.blocks ++ if text ≠ "" then [.text text] else [] } := by
  split
  · exact hear_text here text
  · simp

/-- What the client has at the end of the events of a response. -/
theorem hear_events (resp : NormalizedResponse JsonValue) (requestedModel : String) :
    (anthropicEvents resp requestedModel).foldlM hear {} =
      some { blocks := streamedBlocks resp, stop := .str (stopReason resp.finishReason) } := by
  unfold anthropicEvents
  rw [List.foldlM_cons, hear_messageStart]
  simp only [Option.bind_eq_bind, Option.bind_some, List.foldlM_append]
  rw [hear_someThinking, Option.bind_some, hear_someText, Option.bind_some, hear_toolUses,
    Option.bind_some, hear_messageEnd]
  · rfl
  · by_cases thinking : orText resp.reasoningContent "" = "" <;>
      by_cases text : orText resp.content "" = "" <;> simp [thinking, text]
  · by_cases thinking : orText resp.reasoningContent "" = "" <;> simp [thinking]

theorem foldlM_received (client : StreamClient) (events : List (String × JsonRaw)) :
    (events.map fun event => received event.1 (payloadText event.2)).foldlM receiveEvent client =
      events.foldlM hear client := by
  rw [List.foldlM_map]
  rfl

theorem reassemble_events {resp : NormalizedResponse JsonValue} {requestedModel : String}
    {chunks : List Bytes}
    (sent : chunks.flatten = (synthesizeAnthropicSse resp requestedModel).flatMap encode) :
    reassemble (parse chunks) =
      some ((streamedBlocks resp).map (·.content), .str (stopReason resp.finishReason)) := by
  have sendable := sendable_events resp requestedModel
  have events := parse_eventFrames (fun event mem => plain_eventNames _ (sendable event mem).1)
    (fun event mem => (sendable event mem).2) sent
  rw [reassemble, events, foldlM_received, hear_events, Option.map_some]

end StreamClient

/-! ## Both responses -/

theorem toolUse_content {tc : NormalizedToolCall JsonValue} (decodes : TextDecodes tc) :
    (ClientBlock.toolUse tc.id tc.name (argumentsText .verbatim tc)).content =
      .toolUse (some tc.id) tc.name (.object tc.arguments) := by
  have text := loads_argumentsText .verbatim decodes
  have filled := argumentsText_ne .verbatim decodes
  simp [ClientBlock.content, text, filled]

theorem toolUses_content {calls : List (NormalizedToolCall JsonValue)}
    (named : ∀ tc ∈ calls, tc.id ≠ "") (decodes : ∀ tc ∈ calls, TextDecodes tc)
    (draw : Nat → String) (n : Nat) :
    (calls.map fun tc => (ClientBlock.toolUse tc.id tc.name (argumentsText .verbatim tc)).content) =
      toolUseContents draw n calls := by
  induction calls generalizing n with
  | nil => rfl
  | cons tc calls ih =>
      obtain ⟨id, ids⟩ := List.forall_mem_cons.mp named
      obtain ⟨first, later⟩ := List.forall_mem_cons.mp decodes
      rw [List.map_cons, toolUse_content first, toolUseContents, ih ids later (n + 1)]
      simp [orText, id]

/-- A client has the blocks and the stop reason of the plain response exactly when the response
    has no reasoning or a signature for it. -/
theorem buffered_stream_iff {resp : NormalizedResponse JsonValue}
    (named : ∀ tc ∈ resp.toolCalls, tc.id ≠ "") (decodes : ∀ tc ∈ resp.toolCalls, TextDecodes tc)
    (draw : Nat → String) {requestedModel : String} {chunks : List Bytes}
    (sent : chunks.flatten = (synthesizeAnthropicSse resp requestedModel).flatMap encode) :
    StreamClient.reassemble (parse chunks) =
        some ((irToAnthropicResponse draw resp requestedModel).content,
          .str (irToAnthropicResponse draw resp requestedModel).stopReason) ↔
      orText resp.reasoningContent "" = "" ∨ orText resp.reasoningSignature "" ≠ "" := by
  have blocks : (StreamClient.streamedBlocks resp).map (·.content) =
      (if orText resp.reasoningContent "" ≠ "" then
        [.thinking (orText resp.reasoningContent "") (resp.reasoningSignature.filter (· ≠ ""))]
      else []) ++
      ((if orText resp.content "" ≠ "" then [.text (orText resp.content "")] else []) ++
      toolUseContents draw 0 resp.toolCalls) := by
    rw [← toolUses_content named decodes]
    by_cases thinking : orText resp.reasoningContent "" = "" <;>
      by_cases text : orText resp.content "" = "" <;>
      simp [StreamClient.streamedBlocks, ClientBlock.content, thinking, text]
  rw [StreamClient.reassemble_events sent, blocks, irToAnthropicResponse]
  simp only [Option.some.injEq, Prod.mk.injEq, and_true, List.append_assoc]
  rw [List.append_left_inj]
  by_cases thinking : orText resp.reasoningContent "" = ""
  · simp [thinking]
  · cases signature : resp.reasoningSignature with
    | none => simp [thinking, orText]
    | some text => by_cases empty : text = "" <;> simp [thinking, orText, Option.filter, empty]

def signedResponse : NormalizedResponse JsonValue where
  responseId := "msg_1"
  content := some "It is 18C."
  reasoningContent := some "Look it up."
  reasoningSignature := some "c2lnbmVk"
  toolCalls := [{ id := "toolu_1", name := "get_weather", arguments := .ofRaw (.obj []) }]
  finishReason := "tool_calls"

theorem buffered_stream_signed :
    StreamClient.reassemble
        (parse [(synthesizeAnthropicSse signedResponse "claude-sonnet-4").flatMap encode]) =
      some ([.thinking "Look it up." (some "c2lnbmVk"), .text "It is 18C.",
        .toolUse (some "toolu_1") "get_weather" (.object (.ofRaw (.obj [])))],
        .str "tool_use") := by
  have named : ∀ tc ∈ signedResponse.toolCalls, tc.id ≠ "" := by simp [signedResponse]
  have decodes : ∀ tc ∈ signedResponse.toolCalls, TextDecodes tc := by
    intro tc mem
    rw [signedResponse, List.mem_singleton] at mem
    rw [mem]
    exact Or.inl rfl
  exact (buffered_stream_iff named decodes (fun _ => "0a1b2c3d") (List.flatten_singleton)).mpr
    (by decide)

def unsignedResponse : NormalizedResponse JsonValue where
  responseId := "msg_1"
  content := some "It is 18C."
  reasoningContent := some "Look it up."

/-- Reasoning without a signature reaches the client of the stream only. -/
theorem unsigned_reasoning_streamed :
    StreamClient.reassemble
        (parse [(synthesizeAnthropicSse unsignedResponse "claude-sonnet-4").flatMap encode]) ≠
      some ((irToAnthropicResponse (fun _ => "0a1b2c3d") unsignedResponse "claude-sonnet-4").content,
        .str "end_turn") := by
  intro same
  rw [StreamClient.reassemble_events List.flatten_singleton] at same
  have lengths := congrArg (Option.map (·.1.length)) same
  exact absurd lengths (by decide)

end DuraLLM
