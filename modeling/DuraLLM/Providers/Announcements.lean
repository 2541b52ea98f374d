import DuraLLM.Providers.StopReasons

/-! # Announced tool calls

What a provider writes about its tool calls: whether its finish reason asks for
tools, and whether it sends any calls.  Read off the bodies alone, this decides
whether an Anthropic client is told the truth.
-/

namespace DuraLLM

open Text JsonRaw

structure ToolAnnouncement where
  /-- The finish reason asks for tools. -/
  asks : Bool
  /-- There are tool calls. -/
  calls : Bool

def ToolAnnouncement.Truthful (a : ToolAnnouncement) : Prop := a.asks = a.calls

/-- The announcement that a response was read from. -/
structure DecodedResponse.Follows (resp : DecodedResponse) (a : ToolAnnouncement) : Prop where
  asks : resp.asksForTools = a.asks
  calls : (!resp.toolCalls.isEmpty) = a.calls

/-- A loop over the value has something to go through. -/
def hasItems (v : JsonRaw) : Bool := (WireStreamAssembler.items v).any (!·.isEmpty)

/-- The last value that counts as true. -/
def lastTruthy (default : JsonRaw) (values : List JsonRaw) : JsonRaw :=
  values.foldl (fun last v => v.orElse last) default

theorem look_of_get {v default found : JsonRaw} {key : String}
    (get : v.get key default = some found) : look v key default = found := by
  rw [look, get, Option.getD_some]

/-- A value is one text only. -/
theorem isStr_ne {v : JsonRaw} {text other : String} (is : v.isStr text = true)
    (ne : text ≠ other) : v.isStr other = false := by
  cases v with
  | str s =>
      simp only [isStr, beq_iff_eq] at is ⊢
      simpa [is] using ne
  | scalar v => rfl
  | arr items => rfl
  | obj members => rfl

theorem hasItems_of_items {v : JsonRaw} {items : List JsonRaw}
    (found : WireStreamAssembler.items v = some items) : hasItems v = !items.isEmpty := by
  rw [hasItems, found, Option.any_some]

/-! ## Completions -/

def completionAnnouncement (openaiResp : JsonRaw) : ToolAnnouncement :=
  let firstChoice := (firstOf (look openaiResp "choices" (.arr []))).getD (.obj [])
  { asks := (look firstChoice "finish_reason" (.str "stop")).isStr "tool_calls"
    calls := hasItems (look (look firstChoice "message" (.obj [])) "tool_calls" (.arr [])) }

theorem toolCallsToIr_isEmpty {str : JsonRaw → String} {draw : Nat → String} {n : Nat}
    {calls : List JsonRaw} {read : List AdaptedToolCall}
    (decoded : OpenAIAdapter.toolCallsToIr str draw n calls = some read) :
    read.isEmpty = calls.isEmpty := by
  cases calls with
  | nil =>
      cases decoded
      rfl
  | cons tc calls =>
      obtain ⟨call, -, decoded⟩ := Option.bind_eq_some_iff.mp decoded
      obtain ⟨rest, -, decoded⟩ := Option.bind_eq_some_iff.mp decoded
      cases decoded
      rfl

theorem openaiResponseToIr_follows {str : JsonRaw → String} {draw : Nat → String} {uuid : String}
    {openaiResp : JsonRaw} {resp : DecodedResponse}
    (decoded : OpenAIAdapter.openaiResponseToIr str draw uuid openaiResp = some resp) :
    resp.Follows (completionAnnouncement openaiResp) := by
  unfold OpenAIAdapter.openaiResponseToIr at decoded
  obtain ⟨choices, choicesGet, decoded⟩ := Option.bind_eq_some_iff.mp decoded
  obtain ⟨firstChoice, first, decoded⟩ := Option.bind_eq_some_iff.mp decoded
  obtain ⟨msg, msgGet, decoded⟩ := Option.bind_eq_some_iff.mp decoded
  obtain ⟨reasoning, -, decoded⟩ := Option.bind_eq_some_iff.mp decoded
  obtain ⟨thinking, -, decoded⟩ := Option.bind_eq_some_iff.mp decoded
  obtain ⟨toolCalls, callsGet, decoded⟩ := Option.bind_eq_some_iff.mp decoded
  obtain ⟨calls, items, decoded⟩ := Option.bind_eq_some_iff.mp decoded
  obtain ⟨usage, -, decoded⟩ := Option.bind_eq_some_iff.mp decoded
  obtain ⟨id, -, decoded⟩ := Option.bind_eq_some_iff.mp decoded
  obtain ⟨model, -, decoded⟩ := Option.bind_eq_some_iff.mp decoded
  obtain ⟨content, -, decoded⟩ := Option.bind_eq_some_iff.mp decoded
  obtain ⟨read, readCalls, decoded⟩ := Option.bind_eq_some_iff.mp decoded
  obtain ⟨finishReason, finishGet, decoded⟩ := Option.bind_eq_some_iff.mp decoded
  obtain ⟨inputTokens, -, decoded⟩ := Option.bind_eq_some_iff.mp decoded
  obtain ⟨outputTokens, -, decoded⟩ := Option.bind_eq_some_iff.mp decoded
  cases decoded
  constructor
  · simp only [DecodedResponse.asksForTools, completionAnnouncement, look_of_get choicesGet, first,
      Option.getD_some, look_of_get finishGet]
  · simp only [completionAnnouncement, look_of_get choicesGet, first, Option.getD_some,
      look_of_get msgGet, look_of_get callsGet, hasItems_of_items items,
      toolCallsToIr_isEmpty readCalls]

/-! ## Streams of chunks -/

/-- The objects of the data lines in front of the end mark. -/
def chunkObjects : List String → List JsonRaw
  | [] => []
  | rawLine :: rest =>
      let line := strip rawLine
      if line = "" || (afterPrefix ":" line).isSome then chunkObjects rest
      else match (afterPrefix "data:" line).map strip with
        | none => chunkObjects rest
        | some data =>
            if data = "[DONE]" then []
            else match JsonValue.loads data with
              | some ⟨.obj members, _⟩ => .obj members :: chunkObjects rest
              | _ => chunkObjects rest

def choicesOf (chunk : JsonRaw) : List JsonRaw :=
  (WireStreamAssembler.items (look chunk "choices" (.arr []))).getD []

/-- The fragments of tool calls in a choice. -/
def carriesCalls (choice : JsonRaw) : Bool :=
  hasItems (look (look choice "delta" (.obj [])) "tool_calls" (.arr []))

def chunkAnnouncement (chunks : List JsonRaw) : ToolAnnouncement :=
  let choices := chunks.flatMap choicesOf
  { asks :=
      (lastTruthy (.str "stop") (choices.map (look · "finish_reason" null))).isStr "tool_calls"
    calls := choices.any carriesCalls }

namespace SseState

variable {draw : Int → String} {s s' : SseState}

/-- What some choices change: the finish reason, and whether there are calls. -/
structure Advances (s s' : SseState) (choices : List JsonRaw) : Prop where
  finishReason : s'.finishReason =
    lastTruthy s.finishReason (choices.map (look · "finish_reason" null))
  calls : (!s'.toolCallsMap.entries.isEmpty) =
    ((!s.toolCallsMap.entries.isEmpty) || choices.any carriesCalls)

theorem Advances.refl (s : SseState) : s.Advances s [] := ⟨rfl, by simp⟩

theorem Advances.trans {s₁ s₂ s₃ : SseState} {first second : List JsonRaw}
    (one : s₁.Advances s₂ first) (two : s₂.Advances s₃ second) :
    s₁.Advances s₃ (first ++ second) where
  finishReason := by
    rw [two.finishReason, one.finishReason, List.map_append, lastTruthy, lastTruthy, lastTruthy,
      List.foldl_append]
  calls := by rw [two.calls, one.calls, List.any_append, Bool.or_assoc]

theorem set_isEmpty (d : Dict Int StreamedToolCall) (idx : Int) (call : StreamedToolCall) :
    (d.set idx call).entries.isEmpty = false := by
  by_contra empty
  have none : (d.set idx call).entries = [] := by simpa using empty
  have found := Dict.get_set_self d idx call
  simp [Dict.get, none] at found

theorem addToolCall_keeps {tc : JsonRaw} (added : s.addToolCall draw tc = some s') :
    s'.finishReason = s.finishReason ∧ s'.toolCallsMap.entries.isEmpty = false := by
  obtain ⟨index, -, added⟩ := Option.bind_eq_some_iff.mp added
  obtain ⟨idx, -, added⟩ := Option.bind_eq_some_iff.mp added
  obtain ⟨id, -, added⟩ := Option.bind_eq_some_iff.mp added
  obtain ⟨fn, -, added⟩ := Option.bind_eq_some_iff.mp added
  dsimp only at added
  split at added <;>
  · obtain ⟨call, -, added⟩ := Option.bind_eq_some_iff.mp added
    obtain ⟨more, -, added⟩ := Option.bind_eq_some_iff.mp added
    obtain ⟨args, -, added⟩ := Option.bind_eq_some_iff.mp added
    cases added
    exact ⟨rfl, set_isEmpty _ _ _⟩

/-- The fragments of one choice. -/
theorem foldlM_addToolCall {calls : List JsonRaw}
    (added : calls.foldlM (addToolCall draw) s = some s') :
    s'.finishReason = s.finishReason ∧
      (!s'.toolCallsMap.entries.isEmpty) =
        ((!s.toolCallsMap.entries.isEmpty) || !calls.isEmpty) := by
  induction calls generalizing s with
  | nil =>
      cases added
      simp
  | cons tc calls ih =>
      obtain ⟨t, one, rest⟩ := Option.bind_eq_some_iff.mp added
      obtain ⟨finish, some⟩ := addToolCall_keeps one
      obtain ⟨later, nonempty⟩ := ih rest
      exact ⟨later.trans finish, by simp [nonempty, some]⟩

theorem addChoice_advances {choice : JsonRaw} (added : s.addChoice draw choice = some s') :
    s.Advances s' [choice] := by
  obtain ⟨fr, frGet, added⟩ := Option.bind_eq_some_iff.mp added
  obtain ⟨delta, deltaGet, added⟩ := Option.bind_eq_some_iff.mp added
  obtain ⟨content, -, added⟩ := Option.bind_eq_some_iff.mp added
  obtain ⟨reasoning, -, added⟩ := Option.bind_eq_some_iff.mp added
  obtain ⟨reasoningContent, -, added⟩ := Option.bind_eq_some_iff.mp added
  obtain ⟨toolCalls, callsGet, added⟩ := Option.bind_eq_some_iff.mp added
  obtain ⟨tcs, items, added⟩ := Option.bind_eq_some_iff.mp added
  obtain ⟨finish, nonempty⟩ := foldlM_addToolCall added
  constructor
  · rw [finish, List.map_singleton, look_of_get frGet]
    rfl
  · rw [nonempty, List.any_cons, List.any_nil, Bool.or_false, carriesCalls, look_of_get deltaGet,
      look_of_get callsGet, hasItems_of_items items]

theorem foldlM_addChoice {choices : List JsonRaw}
    (added : choices.foldlM (addChoice draw) s = some s') : s.Advances s' choices := by
  induction choices generalizing s with
  | nil =>
      cases added
      exact .refl _
  | cons choice choices ih =>
      obtain ⟨t, one, rest⟩ := Option.bind_eq_some_iff.mp added
      exact (addChoice_advances one).trans (ih rest)

theorem addUsage_keeps (s : SseState) (usage : JsonRaw) :
    (s.addUsage usage).finishReason = s.finishReason ∧
      (s.addUsage usage).toolCallsMap = s.toolCallsMap := by
  cases usage <;> exact ⟨rfl, rfl⟩

theorem addChunk_advances {chunk : JsonRaw} (added : s.addChunk draw chunk = some s') :
    s.Advances s' (choicesOf chunk) := by
  obtain ⟨id, -, added⟩ := Option.bind_eq_some_iff.mp added
  obtain ⟨model, -, added⟩ := Option.bind_eq_some_iff.mp added
  obtain ⟨usage, -, added⟩ := Option.bind_eq_some_iff.mp added
  obtain ⟨choices, choicesGet, added⟩ := Option.bind_eq_some_iff.mp added
  obtain ⟨items, found, added⟩ := Option.bind_eq_some_iff.mp added
  obtain ⟨finish, calls⟩ := foldlM_addChoice added
  obtain ⟨keptFinish, keptCalls⟩ := addUsage_keeps
    { s with responseId := id.orElse s.responseId, model := model.orElse s.model } usage
  rw [keptFinish] at finish
  rw [keptCalls] at calls
  have read : choicesOf chunk = items := by
    rw [choicesOf, look_of_get choicesGet, found, Option.getD_some]
  exact ⟨read ▸ finish, read ▸ calls⟩

/-- The lines up to the end mark. -/
theorem readLines_advances {lines : List String} (read : s.readLines draw lines = some s') :
    s.Advances s' ((chunkObjects lines).flatMap choicesOf) := by
  induction lines generalizing s with
  | nil =>
      cases read
      exact .refl _
  | cons rawLine rest ih =>
      rw [readLines] at read
      rw [chunkObjects]
      by_cases skipped : (strip rawLine = "" || (afterPrefix ":" (strip rawLine)).isSome) = true
      · rw [if_pos skipped] at read ⊢
        exact ih read
      · rw [if_neg skipped] at read ⊢
        cases field : (afterPrefix "data:" (strip rawLine)).map strip with
        | none =>
            rw [field] at read
            exact ih read
        | some data =>
            rw [field] at read
            dsimp only at read ⊢
            by_cases ended : data = "[DONE]"
            · rw [if_pos ended] at read ⊢
              cases read
              exact .refl _
            · rw [if_neg ended] at read ⊢
              cases loaded : JsonValue.loads data with
              | none =>
                  rw [loaded] at read
                  exact ih read
              | some v =>
                  rw [loaded] at read
                  obtain ⟨raw, canonical⟩ := v
                  cases raw with
                  | obj members =>
                      obtain ⟨t, one, later⟩ := Option.bind_eq_some_iff.mp read
                      exact (addChunk_advances one).trans (ih later)
                  | scalar v => exact ih read
                  | str text => exact ih read
                  | arr items => exact ih read

theorem finalToolCalls_isEmpty (s : SseState) :
    s.finalToolCalls.isEmpty = s.toolCallsMap.entries.isEmpty := by
  rw [Bool.eq_iff_iff, List.isEmpty_iff_length_eq_zero, List.isEmpty_iff_length_eq_zero]
  simp only [finalToolCalls, List.length_map, List.length_mergeSort, Dict.keys]

end SseState

theorem sseChunksToIr_follows {uuid : String} {draw : Int → String} {sseText model : String}
    {r : SseResponse} (decoded : sseChunksToIr uuid draw sseText model = some r) :
    r.decoded.Follows (chunkAnnouncement (chunkObjects (splitlines sseText))) := by
  obtain ⟨s, read, decoded⟩ := Option.bind_eq_some_iff.mp decoded
  obtain ⟨content, -, decoded⟩ := Option.bind_eq_some_iff.mp decoded
  obtain ⟨reasoning, -, decoded⟩ := Option.bind_eq_some_iff.mp decoded
  cases decoded
  obtain ⟨finish, calls⟩ := SseState.readLines_advances read
  constructor
  · exact congrArg (·.isStr "tool_calls") finish
  · have same : (!s.toolCallsMap.entries.isEmpty) =
        ((chunkObjects (splitlines sseText)).flatMap choicesOf).any carriesCalls := calls
    rw [← SseState.finalToolCalls_isEmpty] at same
    simpa only [SseResponse.decoded, List.isEmpty_map, chunkAnnouncement] using same

/-! ## Messages -/

def usesTool (b : JsonRaw) : Bool := (look b "type" null).isStr "tool_use"

def messageAnnouncement (rawJson : JsonRaw) : ToolAnnouncement where
  asks := (look rawJson "stop_reason" (.str "end_turn")).isStr "tool_use"
  calls := ((WireStreamAssembler.items (look rawJson "content" (.arr []))).getD []).any usesTool

namespace AnthropicAdapter

theorem finishReason_toolCalls {stopReason : JsonRaw} {finish : String}
    (mapped : finishReason stopReason = some finish) :
    (finish == "tool_calls") = stopReason.isStr "tool_use" := by
  cases stopReason with
  | str text =>
      by_cases asks : text = "tool_use"
      · subst asks
        cases mapped
        rfl
      · have other : (JsonRaw.str text).isStr "tool_use" = false := by simpa [isStr] using asks
        rw [other]
        unfold finishReason at mapped
        split at mapped
        · cases mapped
          rfl
        · next same => exact absurd (str.inj same) asks
        · cases mapped
          rfl
        · cases mapped
        · cases mapped
        · cases mapped
          rfl
  | scalar v =>
      cases mapped
      rfl
  | arr items => cases mapped
  | obj members => cases mapped

theorem addBlock_calls {parts parts' : MessageParts} {b : JsonRaw}
    (added : parts.addBlock b = some parts') :
    (!parts'.toolCalls.isEmpty) = ((!parts.toolCalls.isEmpty) || usesTool b) := by
  obtain ⟨type, typeGet, added⟩ := Option.bind_eq_some_iff.mp added
  rw [usesTool, look_of_get typeGet]
  split_ifs at added with text thinking tool
  · obtain ⟨value, -, added⟩ := Option.bind_eq_some_iff.mp added
    cases added
    rw [isStr_ne text (by decide), Bool.or_false]
  · obtain ⟨value, -, added⟩ := Option.bind_eq_some_iff.mp added
    obtain ⟨signature, -, added⟩ := Option.bind_eq_some_iff.mp added
    cases added
    rw [isStr_ne thinking (by decide), Bool.or_false]
  · obtain ⟨id, -, added⟩ := Option.bind_eq_some_iff.mp added
    obtain ⟨name, -, added⟩ := Option.bind_eq_some_iff.mp added
    obtain ⟨input, -, added⟩ := Option.bind_eq_some_iff.mp added
    cases added
    simp [tool]
  · cases added
    simp [tool]

theorem foldlM_addBlock {blocks : List JsonRaw} {parts parts' : MessageParts}
    (added : blocks.foldlM MessageParts.addBlock parts = some parts') :
    (!parts'.toolCalls.isEmpty) = ((!parts.toolCalls.isEmpty) || blocks.any usesTool) := by
  induction blocks generalizing parts with
  | nil =>
      cases added
      simp
  | cons b blocks ih =>
      obtain ⟨more, one, rest⟩ := Option.bind_eq_some_iff.mp added
      rw [ih rest, addBlock_calls one, List.any_cons, Bool.or_assoc]

theorem readMessage_follows {rawJson : JsonRaw} {endpointModel : String} {r : AdaptedResponse}
    (decoded : readMessage rawJson endpointModel = some r) :
    r.decoded.Follows (messageAnnouncement rawJson) := by
  obtain ⟨contentRaw, contentGet, decoded⟩ := Option.bind_eq_some_iff.mp decoded
  obtain ⟨content, items, decoded⟩ := Option.bind_eq_some_iff.mp decoded
  obtain ⟨parts, read, decoded⟩ := Option.bind_eq_some_iff.mp decoded
  obtain ⟨usage, -, decoded⟩ := Option.bind_eq_some_iff.mp decoded
  obtain ⟨stopReason, stopGet, decoded⟩ := Option.bind_eq_some_iff.mp decoded
  obtain ⟨id, -, decoded⟩ := Option.bind_eq_some_iff.mp decoded
  obtain ⟨texts, -, decoded⟩ := Option.bind_eq_some_iff.mp decoded
  obtain ⟨finish, mapped, decoded⟩ := Option.bind_eq_some_iff.mp decoded
  obtain ⟨inputTokens, -, decoded⟩ := Option.bind_eq_some_iff.mp decoded
  obtain ⟨outputTokens, -, decoded⟩ := Option.bind_eq_some_iff.mp decoded
  cases decoded
  have calls := foldlM_addBlock read
  constructor
  · rw [messageAnnouncement, look_of_get stopGet, ← finishReason_toolCalls mapped]
    rfl
  · rw [messageAnnouncement, look_of_get contentGet, items]
    exact calls

/-! ## Streams of events -/

def eventType (e : JsonRaw) (name : String) : Bool := (look e "type" null).isStr name

/-- A block that uses a tool is closed, after a block of type `current` has been opened. -/
def closesTool (current : JsonRaw) : List JsonRaw → Bool
  | [] => false
  | e :: events =>
      if eventType e "content_block_start" then
        closesTool (look (look e "content_block" (.obj [])) "type" null) events
      else if eventType e "content_block_stop" then
        current.isStr "tool_use" || closesTool null events
      else closesTool current events

/-- The stop reasons of the events. -/
def stopReasons (events : List JsonRaw) : List JsonRaw :=
  (events.filter (eventType · "message_delta")).map fun e =>
    look (look e "delta" (.obj [])) "stop_reason" null

/-- The objects of the data lines. -/
def eventObjects (lines : List String) : List JsonRaw :=
  (lines.filterMap lineObject).map .obj

def eventAnnouncement (events : List JsonRaw) : ToolAnnouncement where
  asks := (lastTruthy (.str "end_turn") (stopReasons events)).isStr "tool_use"
  calls := closesTool null events

namespace EventState

variable {draw : Nat → String} {s s' : EventState}

theorem messageStart_keeps {data : JsonRaw} (added : s.messageStart data = some s') :
    s'.stopReason = s.stopReason ∧ s'.toolCalls = s.toolCalls ∧
      s'.currentBlockType = s.currentBlockType := by
  obtain ⟨msg, -, added⟩ := Option.bind_eq_some_iff.mp added
  obtain ⟨id, -, added⟩ := Option.bind_eq_some_iff.mp added
  obtain ⟨model, -, added⟩ := Option.bind_eq_some_iff.mp added
  obtain ⟨usage, -, added⟩ := Option.bind_eq_some_iff.mp added
  obtain ⟨inputTokens, -, added⟩ := Option.bind_eq_some_iff.mp added
  cases added
  exact ⟨rfl, rfl, rfl⟩

theorem blockStart_keeps {data : JsonRaw} (added : s.blockStart draw data = some s') :
    s'.stopReason = s.stopReason ∧ s'.toolCalls = s.toolCalls ∧
      s'.currentBlockType = look (look data "content_block" (.obj [])) "type" null := by
  obtain ⟨cb, blockGet, added⟩ := Option.bind_eq_some_iff.mp added
  obtain ⟨type, typeGet, added⟩ := Option.bind_eq_some_iff.mp added
  rw [look_of_get blockGet, look_of_get typeGet]
  dsimp only at added
  split_ifs at added
  · obtain ⟨text, -, added⟩ := Option.bind_eq_some_iff.mp added
    cases added
    exact ⟨rfl, rfl, rfl⟩
  · obtain ⟨thinking, -, added⟩ := Option.bind_eq_some_iff.mp added
    obtain ⟨signature, -, added⟩ := Option.bind_eq_some_iff.mp added
    cases added
    exact ⟨rfl, rfl, rfl⟩
  · obtain ⟨id, -, added⟩ := Option.bind_eq_some_iff.mp added
    obtain ⟨name, -, added⟩ := Option.bind_eq_some_iff.mp added
    cases added
    exact ⟨rfl, rfl, rfl⟩
  · cases added
    exact ⟨rfl, rfl, rfl⟩

theorem blockDelta_keeps {data : JsonRaw} (added : s.blockDelta data = some s') :
    s'.stopReason = s.stopReason ∧ s'.toolCalls = s.toolCalls ∧
      s'.currentBlockType = s.currentBlockType := by
  obtain ⟨delta, -, added⟩ := Option.bind_eq_some_iff.mp added
  obtain ⟨type, -, added⟩ := Option.bind_eq_some_iff.mp added
  split_ifs at added
  · obtain ⟨text, -, added⟩ := Option.bind_eq_some_iff.mp added
    cases added
    exact ⟨rfl, rfl, rfl⟩
  · obtain ⟨thinking, -, added⟩ := Option.bind_eq_some_iff.mp added
    obtain ⟨reasoning, -, added⟩ := Option.bind_eq_some_iff.mp added
    cases added
    exact ⟨rfl, rfl, rfl⟩
  · obtain ⟨value, -, added⟩ := Option.bind_eq_some_iff.mp added
    obtain ⟨partialJson, -, added⟩ := Option.bind_eq_some_iff.mp added
    cases added
    exact ⟨rfl, rfl, rfl⟩
  · cases added
    exact ⟨rfl, rfl, rfl⟩

theorem messageDelta_keeps {data : JsonRaw} (added : s.messageDelta data = some s') :
    s'.stopReason = (look (look data "delta" (.obj [])) "stop_reason" null).orElse s.stopReason ∧
      s'.toolCalls = s.toolCalls ∧ s'.currentBlockType = s.currentBlockType := by
  obtain ⟨delta, deltaGet, added⟩ := Option.bind_eq_some_iff.mp added
  obtain ⟨stopReason, stopGet, added⟩ := Option.bind_eq_some_iff.mp added
  obtain ⟨usage, -, added⟩ := Option.bind_eq_some_iff.mp added
  obtain ⟨outputTokens, -, added⟩ := Option.bind_eq_some_iff.mp added
  cases added
  rw [look_of_get deltaGet, look_of_get stopGet]
  exact ⟨rfl, rfl, rfl⟩

theorem blockStop_calls (s : EventState) :
    (!s.blockStop.toolCalls.isEmpty) =
      ((!s.toolCalls.isEmpty) || s.currentBlockType.isStr "tool_use") := by
  unfold blockStop
  cases s.currentBlockType.isStr "tool_use" <;> simp

/-- What one event changes. -/
theorem addData_announces {data : JsonRaw} (added : s.addData draw data = some s') :
    s'.stopReason = lastTruthy s.stopReason (stopReasons [data]) ∧
      ∀ events, ((!s'.toolCalls.isEmpty) || closesTool s'.currentBlockType events) =
        ((!s.toolCalls.isEmpty) || closesTool s.currentBlockType (data :: events)) := by
  obtain ⟨evtType, typeGet, added⟩ := Option.bind_eq_some_iff.mp added
  have type : ∀ name, eventType data name = evtType.isStr name := fun name => by
    rw [eventType, look_of_get typeGet]
  have passed (other : evtType.isStr "message_delta" = false) : stopReasons [data] = [] := by
    simp [stopReasons, type, other]
  simp only [closesTool, type]
  split_ifs at added with start opens delta stop finish
  · obtain ⟨reason, calls, current⟩ := messageStart_keeps added
    rw [passed (isStr_ne start (by decide)), reason, calls, current,
      isStr_ne start (by decide), isStr_ne start (by decide)]
    exact ⟨rfl, fun _ => rfl⟩
  · obtain ⟨reason, calls, current⟩ := blockStart_keeps added
    rw [passed (isStr_ne opens (by decide)), reason, calls, current, opens]
    exact ⟨rfl, fun _ => rfl⟩
  · obtain ⟨reason, calls, current⟩ := blockDelta_keeps added
    rw [passed (isStr_ne delta (by decide)), reason, calls, current,
      isStr_ne delta (by decide), isStr_ne delta (by decide)]
    exact ⟨rfl, fun _ => rfl⟩
  · cases added
    have calls := s.blockStop_calls
    rw [passed (isStr_ne stop (by decide)), stop, isStr_ne stop (by decide), calls]
    exact ⟨rfl, fun events => by simp [blockStop, Bool.or_assoc]⟩
  · obtain ⟨reason, calls, current⟩ := messageDelta_keeps added
    have reasons : stopReasons [data] =
        [look (look data "delta" (.obj [])) "stop_reason" null] := by
      simp [stopReasons, type, finish]
    rw [reasons, reason, calls, current, isStr_ne finish (by decide), isStr_ne finish (by decide)]
    exact ⟨rfl, fun _ => rfl⟩
  · cases added
    simp only [Bool.not_eq_true] at opens stop finish
    rw [passed finish, opens, stop]
    exact ⟨rfl, fun _ => rfl⟩

theorem foldlM_addLine {lines : List String}
    (read : lines.foldlM (EventState.addLine draw) s = some s') :
    s'.stopReason = lastTruthy s.stopReason (stopReasons (eventObjects lines)) ∧
      (!s'.toolCalls.isEmpty) =
        ((!s.toolCalls.isEmpty) || closesTool s.currentBlockType (eventObjects lines)) := by
  induction lines generalizing s with
  | nil =>
      cases read
      exact ⟨rfl, by simp [eventObjects, closesTool]⟩
  | cons rawLine lines ih =>
      obtain ⟨t, one, rest⟩ := Option.bind_eq_some_iff.mp read
      obtain ⟨reason, calls⟩ := ih rest
      unfold addLine at one
      cases object : lineObject rawLine with
      | none =>
          rw [object] at one
          cases one
          have same : eventObjects (rawLine :: lines) = eventObjects lines := by
            simp [eventObjects, object]
          rw [same]
          exact ⟨reason, calls⟩
      | some members =>
          rw [object] at one
          obtain ⟨first, more⟩ := addData_announces one
          have same : eventObjects (rawLine :: lines) = .obj members :: eventObjects lines := by
            simp [eventObjects, object]
          have split : stopReasons (.obj members :: eventObjects lines) =
              stopReasons [.obj members] ++ stopReasons (eventObjects lines) := by
            rw [stopReasons, stopReasons, stopReasons, ← List.map_append, ← List.filter_append]
            rfl
          rw [same, split, reason, first, calls, more]
          exact ⟨(List.foldl_append ..).symm, rfl⟩

end EventState

theorem parseAnthropicSse_follows {uuid : String} {draw : Nat → String} {sseText model : String}
    {r : AdaptedResponse} (decoded : parseAnthropicSse uuid draw sseText model = some r) :
    r.decoded.Follows (eventAnnouncement (eventObjects (splitlines sseText))) := by
  obtain ⟨s, read, decoded⟩ := Option.bind_eq_some_iff.mp decoded
  obtain ⟨content, -, decoded⟩ := Option.bind_eq_some_iff.mp decoded
  obtain ⟨finish, mapped, decoded⟩ := Option.bind_eq_some_iff.mp decoded
  cases decoded
  obtain ⟨reason, calls⟩ := EventState.foldlM_addLine read
  constructor
  · rw [eventAnnouncement, ← reason, ← finishReason_toolCalls mapped]
    rfl
  · exact calls

end AnthropicAdapter

/-! ## Every adapter -/

/-- Gemini's finish reason is made from the calls. -/
theorem GeminiAdapter.asksForTools_eq {str digest : JsonRaw → String} {geminiResp : JsonRaw}
    {modelName : String} {resp : DecodedResponse}
    (decoded : geminiResponseToIr str digest geminiResp modelName = some resp) :
    resp.asksForTools = !resp.toolCalls.isEmpty := by
  obtain ⟨candidates, -, decoded⟩ := Option.bind_eq_some_iff.mp decoded
  obtain ⟨responseId, -, decoded⟩ := Option.bind_eq_some_iff.mp decoded
  split_ifs at decoded
  · obtain ⟨first, -, decoded⟩ := Option.bind_eq_some_iff.mp decoded
    obtain ⟨contentObj, -, decoded⟩ := Option.bind_eq_some_iff.mp decoded
    obtain ⟨partsRaw, -, decoded⟩ := Option.bind_eq_some_iff.mp decoded
    obtain ⟨parts, -, decoded⟩ := Option.bind_eq_some_iff.mp decoded
    obtain ⟨⟨textPieces, toolCalls⟩, -, decoded⟩ := Option.bind_eq_some_iff.mp decoded
    obtain ⟨usage, -, decoded⟩ := Option.bind_eq_some_iff.mp decoded
    obtain ⟨content, -, decoded⟩ := Option.bind_eq_some_iff.mp decoded
    obtain ⟨inputTokens, -, decoded⟩ := Option.bind_eq_some_iff.mp decoded
    obtain ⟨outputTokens, -, decoded⟩ := Option.bind_eq_some_iff.mp decoded
    cases decoded
    cases toolCalls <;> rfl
  · cases decoded
    rfl

/-- What the body of a completion or of a stream of chunks announces. -/
def OpenAIAdapter.announcement (body : String) : ToolAnnouncement :=
  let bodyText := strip body
  if isChunkStream bodyText then chunkAnnouncement (chunkObjects (splitlines bodyText))
  else completionAnnouncement (((JsonValue.loads bodyText).map (·.raw)).getD null)

/-- What the body of a message or of a stream of events announces. -/
def AnthropicAdapter.announcement (body : String) : ToolAnnouncement :=
  let bodyText := strip body
  if isEventStream bodyText then eventAnnouncement (eventObjects (splitlines bodyText))
  else messageAnnouncement (((JsonValue.loads bodyText).map (·.raw)).getD null)

/-- The finish reason that the upstream wrote agrees with the calls that it sent. -/
def ProviderAdapter.Truthful (body : String) : ProviderAdapter → Prop
  | .openai => (OpenAIAdapter.announcement body).Truthful
  | .anthropic => (AnthropicAdapter.announcement body).Truthful
  | .gemini => True

theorem OpenAIAdapter.normalizeResponse_follows {context : ReplyContext}
    {endpointModel body : String} {resp : DecodedResponse}
    (decoded : OpenAIAdapter.normalizeResponse context endpointModel body = some resp) :
    resp.Follows (announcement body) := by
  unfold OpenAIAdapter.normalizeResponse at decoded
  unfold announcement
  dsimp only at decoded ⊢
  split_ifs at decoded ⊢
  · obtain ⟨r, read, rfl⟩ := Option.map_eq_some_iff.mp decoded
    exact sseChunksToIr_follows read
  · obtain ⟨v, loaded, decoded⟩ := Option.bind_eq_some_iff.mp decoded
    rw [loaded]
    exact openaiResponseToIr_follows decoded

theorem AnthropicAdapter.normalizeResponse_follows {uuid : String} {draw : Nat → String}
    {endpointModel body : String} {r : AdaptedResponse}
    (decoded : AnthropicAdapter.normalizeResponse uuid draw endpointModel body = some r) :
    r.decoded.Follows (announcement body) := by
  unfold AnthropicAdapter.normalizeResponse at decoded
  unfold announcement
  dsimp only at decoded ⊢
  split_ifs at decoded ⊢
  · exact parseAnthropicSse_follows decoded
  · obtain ⟨v, loaded, decoded⟩ := Option.bind_eq_some_iff.mp decoded
    rw [loaded]
    exact readMessage_follows decoded

theorem DecodedResponse.Follows.truthful_iff {resp : DecodedResponse} {a : ToolAnnouncement}
    (follows : resp.Follows a) :
    resp.asksForTools = (!resp.toolCalls.isEmpty) ↔ a.Truthful := by
  rw [follows.asks, follows.calls, ToolAnnouncement.Truthful]

theorem ProviderAdapter.truthful_iff {adapter : ProviderAdapter} {context : ReplyContext}
    {endpointModel body : String} {resp : DecodedResponse}
    (decoded : adapter.normalizeResponse context endpointModel body = some resp) :
    resp.asksForTools = (!resp.toolCalls.isEmpty) ↔ adapter.Truthful body := by
  cases adapter with
  | openai => exact (OpenAIAdapter.normalizeResponse_follows decoded).truthful_iff
  | anthropic =>
      obtain ⟨r, read, rfl⟩ := Option.map_eq_some_iff.mp decoded
      exact (AnthropicAdapter.normalizeResponse_follows read).truthful_iff
  | gemini =>
      obtain ⟨v, -, decoded⟩ := Option.bind_eq_some_iff.mp decoded
      exact iff_of_true (GeminiAdapter.asksForTools_eq decoded) trivial

/-- The message and the stream for an Anthropic client stop for tools exactly when
    they use tools, if and only if the upstream's own finish reason agrees with its
    calls. -/
theorem stop_reason_matches_blocks_iff {adapter : ProviderAdapter} {context : ReplyContext}
    {endpointModel body requestedModel : String} {hex : Nat → String} {resp : DecodedResponse}
    {message : JsonRaw} {events : List (String × JsonRaw)}
    (decoded : adapter.normalizeResponse context endpointModel body = some resp)
    (answered : resp.irToAnthropicResponse requestedModel hex = some message)
    (streamed : resp.synthesizeAnthropicSse requestedModel = some events) :
    (messageStopsForTools message = true ↔ messageUsesTools message = true) ∧
        (eventsStopForTools events = true ↔ eventsUseTools events = true) ↔
      adapter.Truthful body := by
  obtain ⟨stops, uses⟩ := irToAnthropicResponse_tools answered
  obtain ⟨stop, use⟩ := synthesizeAnthropicSse_tools streamed
  rw [stops, uses, stop, use, and_self, ← Bool.eq_iff_iff]
  exact ProviderAdapter.truthful_iff decoded

/-! ### A call behind a finish reason that does not announce it -/

def plainContext : ReplyContext where
  str _ := ""
  digest _ := "0"
  uuid := "0"
  drawChunk _ := "0"
  draw _ := "0"

/-- One tool call, and the finish reason `stop`. -/
def unannouncedCall : String :=
  "\x7b\"id\":\"r\",\"choices\":[\x7b\"finish_reason\":\"stop\",\"message\":\x7b\"tool_calls\":" ++
    "[\x7b\"id\":\"c\",\"function\":\x7b\"name\":\"ls\"\x7d\x7d]\x7d\x7d]\x7d"

theorem unannouncedCall_reads :
    ∃ resp message events,
      ProviderAdapter.openai.normalizeResponse plainContext "m" unannouncedCall = some resp ∧
        resp.irToAnthropicResponse "claude" (fun _ => "0") = some message ∧
        resp.synthesizeAnthropicSse "claude" = some events ∧
        (resp.asksForTools || resp.toolCalls.isEmpty) = false := by
  have read : ((ProviderAdapter.openai.normalizeResponse plainContext "m" unannouncedCall).any
      fun resp => (resp.irToAnthropicResponse "claude" fun _ => "0").isSome &&
        (resp.synthesizeAnthropicSse "claude").isSome &&
        !(resp.asksForTools || resp.toolCalls.isEmpty)) = true := by decide +kernel
  obtain ⟨resp, decoded, facts⟩ := (Option.any_eq_true _ _).mp read
  simp only [Bool.and_eq_true, Bool.not_eq_true'] at facts
  obtain ⟨⟨answered, streamed⟩, plain⟩ := facts
  obtain ⟨message, answered⟩ := Option.isSome_iff_exists.mp answered
  obtain ⟨events, streamed⟩ := Option.isSome_iff_exists.mp streamed
  exact ⟨resp, message, events, decoded, answered, streamed, plain⟩

theorem stop_reason_matches_blocks_call :
    ∃ message events,
      (messageStopsForTools message = true ↔ messageUsesTools message = true) ∧
          (eventsStopForTools events = true ↔ eventsUseTools events = true) ↔
        ProviderAdapter.openai.Truthful unannouncedCall := by
  obtain ⟨resp, message, events, decoded, answered, streamed, -⟩ := unannouncedCall_reads
  exact ⟨message, events, stop_reason_matches_blocks_iff decoded answered streamed⟩

/-- The message has a block for the tool, and says that the turn is over. -/
theorem unannounced_call_ends_turn :
    ∃ resp message events,
      ProviderAdapter.openai.normalizeResponse plainContext "m" unannouncedCall = some resp ∧
        resp.irToAnthropicResponse "claude" (fun _ => "0") = some message ∧
        resp.synthesizeAnthropicSse "claude" = some events ∧
        ¬(messageStopsForTools message = true ↔ messageUsesTools message = true) ∧
        ¬(eventsStopForTools events = true ↔ eventsUseTools events = true) := by
  obtain ⟨resp, message, events, decoded, answered, streamed, plain⟩ := unannouncedCall_reads
  obtain ⟨asks, calls⟩ := Bool.or_eq_false_iff.mp plain
  obtain ⟨stops, uses⟩ := irToAnthropicResponse_tools answered
  obtain ⟨stop, use⟩ := synthesizeAnthropicSse_tools streamed
  refine ⟨resp, message, events, decoded, answered, streamed, ?_, ?_⟩
  · simp [stops, uses, asks, calls]
  · simp [stop, use, asks, calls]

end DuraLLM
