import DuraLLM.Streaming.Assembler
import DuraLLM.Streaming.Chunking
import DuraLLM.Streaming.Modes

/-! # Synthetic streams are read back

What the gateway writes as server-sent events is parsed into the same events,
however the bytes are cut, and the assembler recovers the response from them.
-/

namespace DuraLLM

open Utf8 Text SSEFields LineReader JsonRaw SSEStreamParser WireStreamAssembler

/-! ## Frames -/

/-- A value that survives on a line: nothing in it ends the line, and nothing at its ends
    is stripped. -/
structure Plain (text : String) : Prop where
  visible : ∀ c ∈ text.toList, 32 ≤ c.toNat
  kept : strip (" " ++ text) = text

theorem strip_blank (text : String) : strip (" " ++ text) = strip text := by
  have blank : isSpace ' ' = true := rfl
  simp [strip, blank]

theorem Plain.strip_eq {text : String} (plain : Plain text) : strip text = text := by
  rw [← strip_blank, plain.kept]

theorem plain_payload (members : List (String × JsonRaw)) : Plain (payloadText (.obj members)) := by
  constructor
  · simpa [payloadText] using write_visible .verbatim (.obj members)
  · obtain ⟨inside, same⟩ := write_obj .verbatim members
    have opens : isSpace '\x7b' = false := rfl
    have closes : ¬isSpace '\x7d' = true := by decide
    rw [strip_blank, strip, payloadText, String.toList_ofList, same,
      List.dropWhile_cons_of_neg (by simp [opens]), ← List.cons_append,
      List.rdropWhile_concat_neg _ _ _ closes]

theorem encode_control {text : String} (visible : ∀ c ∈ text.toList, 32 ≤ c.toNat) {byte : UInt8}
    (control : byte.toNat < 32) : byte ∉ encode text := by
  intro member
  obtain ⟨c, inside, same⟩ := (mem_encode (by omega) text).mp member
  have low := visible c inside
  omega

theorem chomp_encode {text : String} (visible : ∀ c ∈ text.toList, 32 ≤ c.toNat) :
    chomp (encode text) = encode text := by
  rw [chomp, if_neg]
  intro ends
  have control : (13 : UInt8).toNat < 32 := by decide
  exact encode_control visible control (List.mem_of_getLast? ends)

/-- What a client makes of a frame. -/
def received (event data : String) : ParsedSSEEvent JsonValue :=
  SSEFields.dispatch { eventType := event, dataLines := [data] }

theorem afterPrefix_append (start rest : String) : afterPrefix start (start ++ rest) = some rest := by
  have cut : (start ++ rest).toList.dropPrefix? start.toList = some rest.toList := by
    rw [List.dropPrefix?_eq_some_iff]
    exact ⟨start.toList, String.toList_append, beq_self_eq_true _⟩
  rw [afterPrefix, cut, Option.map_some, String.ofList_toList]

theorem readText_eventLine (fields : SSEFields) {event : String} (plain : Plain event) :
    fields.readText ("event: " ++ event) = { fields with eventType := event } := by
  have cut : afterPrefix "event:" ("event: " ++ event) = some (" " ++ event) := by
    simpa [← String.append_assoc] using afterPrefix_append "event:" (" " ++ event)
  have comment : afterPrefix ":" ("event: " ++ event) = none := by
    simp [afterPrefix, List.dropPrefix?]
  simp [readText, comment, cut, plain.kept]

theorem readText_dataLine (fields : SSEFields) {data : String} (plain : Plain data) :
    fields.readText ("data: " ++ data) = { fields with dataLines := fields.dataLines ++ [data] } := by
  have cut : afterPrefix "data:" ("data: " ++ data) = some (" " ++ data) := by
    simpa [← String.append_assoc] using afterPrefix_append "data:" (" " ++ data)
  obtain ⟨comment, event⟩ := afterPrefix_data cut
  simp [readText, comment, event, cut, plain.kept]

/-- A line of visible text is read as that text. -/
theorem take_text (fields : SSEFields) {line : String} (visible : ∀ c ∈ line.toList, 32 ≤ c.toNat)
    (some : line ≠ "") :
    (reader JsonValue).take fields (encode line) = .ok ([], fields.readText line) := by
  have nonempty : encode line ≠ [] := by
    intro empty
    have same := decode_encode line
    rw [empty] at same
    exact some (Option.some.inj same).symm
  have read : (fields.readLine (encode line) : Except Bytes (List (ParsedSSEEvent JsonValue) × _)) =
      .ok ([], fields.readText line) := by
    simp only [readLine, chomp_encode visible, if_neg nonempty, decode_encode]
  exact read

theorem visible_append {s t : String} (left : ∀ c ∈ s.toList, 32 ≤ c.toNat)
    (right : ∀ c ∈ t.toList, 32 ≤ c.toNat) : ∀ c ∈ (s ++ t).toList, 32 ≤ c.toNat := by
  intro c member
  rw [String.toList_append, List.mem_append] at member
  exact member.elim (left c) (right c)

/-- The lines of a frame without an event line, and what the reader makes of them. -/
theorem takeAll_dataFrame (event : String) {data : String} (plain : Plain data) (rest : Bytes) :
    (reader JsonValue).takeAll { eventType := event }
        (finishedLines 10 (encode (dataFrame data) ++ rest)) =
      (received event data :: ((reader JsonValue).takeAll {} (finishedLines 10 rest)).1,
        ((reader JsonValue).takeAll {} (finishedLines 10 rest)).2) := by
  have visible := visible_append (s := "data: ") (by simp) plain.visible
  have newlines : encode "\n\n" = [10, 10] := rfl
  have lines : encode (dataFrame data) ++ rest = encode ("data: " ++ data) ++ 10 :: ([] ++ 10 :: rest) := by
    rw [dataFrame, encode_append, newlines, List.append_assoc]
    rfl
  have filled : ("data: " ++ data : String) ≠ "" := by simp
  have blank : (reader JsonValue).take { eventType := event, dataLines := [data] } [] =
      .ok ([received event data], {}) := rfl
  rw [lines, finishedLines_line (encode_control visible (by decide)),
    finishedLines_line List.not_mem_nil]
  simp only [takeAll, take_text _ visible filled, readText_dataLine _ plain, List.nil_append, blank]
  rfl

theorem takeAll_eventFrame {event : String} (plain : Plain event) (members : List (String × JsonRaw))
    (rest : Bytes) :
    (reader JsonValue).takeAll {} (finishedLines 10 (encode (eventFrame event (.obj members)) ++ rest)) =
      (received event (payloadText (.obj members)) ::
          ((reader JsonValue).takeAll {} (finishedLines 10 rest)).1,
        ((reader JsonValue).takeAll {} (finishedLines 10 rest)).2) := by
  have visible := visible_append (s := "event: ") (by simp) plain.visible
  have newline : encode "\n" = [10] := rfl
  have lines : encode (eventFrame event (.obj members)) ++ rest =
      encode ("event: " ++ event) ++
        10 :: (encode (dataFrame (payloadText (.obj members))) ++ rest) := by
    simp [eventFrame, dataFrame, newline, List.append_assoc]
  have filled : ("event: " ++ event : String) ≠ "" := by simp
  rw [lines, finishedLines_line (encode_control visible (by decide))]
  simp only [takeAll, take_text _ visible filled, readText_eventLine _ plain,
    takeAll_dataFrame event (plain_payload members), List.nil_append]

/-- The events of a stream of frames. -/
theorem parse_eventFrames {events : List (String × JsonRaw)} {chunks : List Bytes}
    (plain : ∀ event ∈ events, Plain event.1)
    (objects : ∀ event ∈ events, ∃ members, event.2 = .obj members)
    (sent : chunks.flatten = (events.map fun event => eventFrame event.1 event.2).flatMap encode) :
    parse chunks = events.map fun event => received event.1 (payloadText event.2) := by
  have taken : (reader JsonValue).takeAll {} (finishedLines 10 chunks.flatten) =
      (events.map fun event => received event.1 (payloadText event.2), {}) := by
    rw [sent]
    clear sent
    induction events with
    | nil => rfl
    | cons event events ih =>
        obtain ⟨name, payload⟩ := event
        obtain ⟨members, rfl⟩ := objects _ List.mem_cons_self
        have later := ih (fun e member => plain e (List.mem_cons_of_mem _ member))
          fun e member => objects e (List.mem_cons_of_mem _ member)
        rw [List.map_cons, List.flatMap_cons, takeAll_eventFrame (plain _ List.mem_cons_self), later]
        rfl
  rw [parse_takeAll, taken]
  exact List.append_nil _

/-! ## Payloads -/

/-- An object that arrives as the data of an event is read back. -/
theorem received_object (event : String) (members : List (String × JsonRaw)) :
    received event (payloadText (.obj members)) =
      { event
        data := payloadText (.obj members)
        jsonData := some (.ofRaw (.obj members))
        isDone := false } := by
  have plain := plain_payload members
  obtain ⟨inside, text⟩ := write_obj .verbatim members
  have object : payloadText (.obj members) ≠ "[DONE]" ∧ payloadText (.obj members) ≠ "" := by
    constructor <;> intro same <;> have chars := congrArg String.toList same <;>
      simp [payloadText, text] at chars
  have joined : joinLines [payloadText (.obj members)] = payloadText (.obj members) := by
    simp [joinLines]
  have done : (strip (payloadText (.obj members)) == "[DONE]") = false := by
    rw [plain.strip_eq]
    exact beq_eq_false_iff_ne.mpr object.1
  have read : (JsonCodec.loads (payloadText (.obj members)) : Option JsonValue) =
      some (.ofRaw (.obj members)) := loads_write .verbatim (.obj members)
  simp [received, SSEFields.dispatch, joined, done, object.2, read]

/-- What the assembler does for an object that arrives as the data of an event. -/
theorem processEvent_received (w : WireStreamAssembler) {event : String} (named : event ≠ "")
    {members : List (String × JsonRaw)} (some : members ≠ []) :
    w.processEvent (received event (payloadText (.obj members))) = (do
      let w ←
        if event = "content_block_delta" then w.contentBlockDelta (obj members).sorted
        else if event = "content_block_start" then w.contentBlockStart (obj members).sorted
        else pure w
      w.firstChoice (obj members).sorted) := by
  have truthy := truthy_sorted some
  rw [received_object]
  simp [processEvent, JsonValue.ofRaw, truthy, named, isStr]

/-- A frame of the synthetic stream reaches the assembler. -/
def deliver (w : WireStreamAssembler) (event : String × JsonRaw) : Option WireStreamAssembler :=
  w.processEvent (received event.1 (payloadText event.2))

theorem no_choices (w : WireStreamAssembler) {members : List (String × JsonRaw)}
    (absent : field "choices" members = none) : w.firstChoice (obj members).sorted = some w := by
  simp [firstChoice, sorted, get_sorted, absent, JsonRaw.truthy]

/-! ## Tool calls -/

/-- A tool call as it was streamed. -/
def streamed (style : JsonStyle) (tc : NormalizedToolCall JsonValue) : StreamedToolCall :=
  { id := .str tc.id, name := .str tc.name, args := argumentsText style tc }

/-- The tool calls get consecutive indices. -/
def enter (style : JsonStyle) (w : WireStreamAssembler) (idx : Nat) :
    List (NormalizedToolCall JsonValue) → WireStreamAssembler
  | [] => w
  | tc :: calls => enter style (w.setEntry idx (streamed style tc)) (idx + 1) calls

/-- Only the tool calls change. -/
theorem enter_eq (style : JsonStyle) (w : WireStreamAssembler) (idx : Nat)
    (calls : List (NormalizedToolCall JsonValue)) :
    enter style w idx calls = { w with toolCalls := (enter style w idx calls).toolCalls } := by
  induction calls generalizing w idx with
  | nil => rfl
  | cons tc calls ih =>
      rw [enter, ih]
      rfl

def numbered (style : JsonStyle) (idx : Nat) :
    List (NormalizedToolCall JsonValue) → List (Int × StreamedToolCall)
  | [] => []
  | tc :: calls => ((idx : Int), streamed style tc) :: numbered style (idx + 1) calls

theorem numbered_ge {style : JsonStyle} {idx : Nat} {calls : List (NormalizedToolCall JsonValue)} :
    ∀ e ∈ numbered style idx calls, (idx : Int) ≤ e.1 := by
  induction calls generalizing idx with
  | nil => simp [numbered]
  | cons tc calls ih =>
      intro e member
      rw [numbered, List.mem_cons] at member
      rcases member with rfl | later
      · exact le_rfl
      · have above := ih e later
        push_cast at above
        omega

theorem numbered_increasing (style : JsonStyle) (idx : Nat)
    (calls : List (NormalizedToolCall JsonValue)) :
    ((numbered style idx calls).map Prod.fst).Pairwise (· < ·) := by
  induction calls generalizing idx with
  | nil => exact List.Pairwise.nil
  | cons tc calls ih =>
      rw [numbered, List.map_cons, List.pairwise_cons]
      refine ⟨?_, ih (idx + 1)⟩
      intro key member
      obtain ⟨e, inside, rfl⟩ := List.mem_map.mp member
      have above := numbered_ge e inside
      push_cast at above
      omega

theorem enter_entries (style : JsonStyle) (w : WireStreamAssembler) (idx : Nat)
    (calls : List (NormalizedToolCall JsonValue)) (below : ∀ key ∈ w.toolCalls.keys, key < idx) :
    (enter style w idx calls).toolCalls.entries =
      w.toolCalls.entries ++ numbered style idx calls := by
  induction calls generalizing w idx with
  | nil => simp [enter, numbered]
  | cons tc calls ih =>
      have absent : w.toolCalls.get idx = none :=
        Dict.get_eq_none_iff.mpr fun member => lt_irrefl _ (below _ member)
      have entries := Dict.set_entries_of_absent absent (streamed style tc)
      have below' : ∀ key ∈ (w.setEntry idx (streamed style tc)).toolCalls.keys,
          key < ((idx + 1 : Nat) : Int) := by
        intro key member
        simp only [setEntry, Dict.keys, entries, List.map_append, List.mem_append, List.map_cons,
          List.map_nil, List.mem_singleton] at member
        push_cast
        rcases member with old | rfl
        · have := below key old
          omega
        · omega
      rw [enter, ih _ _ below', numbered]
      simp only [setEntry, entries, List.append_assoc, List.singleton_append]

/-- The arguments are decoded from the streamed text. -/
def decoded (call : StreamedToolCall) : AssembledToolCall :=
  { id := call.id
    name := call.name
    arguments :=
      if call.args = "" then .ofRaw (.obj [])
      else (JsonValue.loads call.args).getD (.ofRaw (.obj [("_raw", .str call.args)])) }

theorem assembledToolCalls_of_increasing {w : WireStreamAssembler}
    (increasing : w.toolCalls.keys.Pairwise (· < ·)) :
    w.assembledToolCalls = w.toolCalls.entries.map fun e => decoded e.2 := by
  have inOrder : w.toolCalls.keys.mergeSort (· ≤ ·) = w.toolCalls.keys :=
    List.mergeSort_of_pairwise (increasing.imp fun less => by simpa using le_of_lt less)
  rw [assembledToolCalls, inOrder, Dict.keys, List.map_map]
  refine List.map_congr_left fun e member => ?_
  have found : w.toolCalls.get e.1 = some e.2 := Dict.mem_entries_iff.mp member
  simp [decoded, entry, found]

/-- The arguments of a tool call can be told from its text. -/
def TextDecodes (tc : NormalizedToolCall JsonValue) : Prop :=
  tc.rawArguments = "" ∨ JsonValue.loads tc.rawArguments = some tc.arguments

/-- A tool call as a client needs it. -/
def asAssembled (tc : NormalizedToolCall JsonValue) : AssembledToolCall :=
  { id := .str tc.id, name := .str tc.name, arguments := tc.arguments }

theorem loads_argumentsText (style : JsonStyle) {tc : NormalizedToolCall JsonValue}
    (decodes : TextDecodes tc) : JsonValue.loads (argumentsText style tc) = some tc.arguments := by
  unfold argumentsText
  split
  · next raw => exact decodes.resolve_left raw
  · exact JsonValue.loads_dumps style tc.arguments

theorem argumentsText_ne (style : JsonStyle) {tc : NormalizedToolCall JsonValue}
    (decodes : TextDecodes tc) : argumentsText style tc ≠ "" := by
  intro empty
  have text := loads_argumentsText style decodes
  have none : (JsonCodec.loads "" : Option JsonValue) = none := JsonCodec.loads_empty
  rw [empty] at text
  cases none.symm.trans text

theorem decoded_streamed (style : JsonStyle) {tc : NormalizedToolCall JsonValue}
    (decodes : TextDecodes tc) : decoded (streamed style tc) = asAssembled tc := by
  simp [decoded, streamed, asAssembled, loads_argumentsText style decodes,
    argumentsText_ne style decodes]

theorem decoded_numbered (style : JsonStyle) (idx : Nat)
    {calls : List (NormalizedToolCall JsonValue)} (decodes : ∀ tc ∈ calls, TextDecodes tc) :
    (numbered style idx calls).map (fun e => decoded e.2) = calls.map asAssembled := by
  induction calls generalizing idx with
  | nil => rfl
  | cons tc calls ih =>
      rw [numbered, List.map_cons, List.map_cons, decoded_streamed style (decodes _ List.mem_cons_self),
        ih (idx + 1) fun tc member => decodes tc (List.mem_cons_of_mem _ member)]

/-- Into an empty assembler, the tool calls are entered so that they come back in order. -/
theorem assembled_enter (style : JsonStyle) {w : WireStreamAssembler} (idx : Nat)
    {calls : List (NormalizedToolCall JsonValue)} (decodes : ∀ tc ∈ calls, TextDecodes tc)
    (empty : w.toolCalls = .empty) :
    (enter style w idx calls).assembledToolCalls = calls.map asAssembled := by
  have entries := enter_entries style w idx calls (by simp [empty, Dict.keys, Dict.empty])
  rw [empty] at entries
  have increasing : (enter style w idx calls).toolCalls.keys.Pairwise (· < ·) := by
    rw [Dict.keys, entries]
    exact numbered_increasing style idx calls
  rw [assembledToolCalls_of_increasing increasing, entries]
  exact decoded_numbered style idx decodes

/-- An optional text; the empty one counts as none. -/
def optional (text : Option String) : JsonRaw :=
  if orText text "" ≠ "" then .str (orText text "") else null

/-! ## Anthropic -/

section Anthropic

variable (w : WireStreamAssembler) (idx : Nat)

theorem deliver_blockStart (block : List (String × JsonRaw)) :
    deliver w (blockStart idx block) = w.contentBlockStart (blockStart idx block).2.sorted := by
  simp [deliver, blockStart, processEvent_received, no_choices, field]

theorem deliver_blockDelta (delta : List (String × JsonRaw)) :
    deliver w (blockDelta idx delta) = w.contentBlockDelta (blockDelta idx delta).2.sorted := by
  simp [deliver, blockDelta, processEvent_received, no_choices, field]

theorem deliver_blockStop : deliver w (blockStop idx) = some w := by
  simp [deliver, blockStop, processEvent_received, no_choices, field]

theorem start_other {kind : String} (block : List (String × JsonRaw))
    (typed : field "type" block = some (.str kind)) (other : kind ≠ "tool_use") :
    deliver w (blockStart idx block) = some w := by
  rw [deliver_blockStart]
  simp [contentBlockStart, blockStart, get_sorted, field, sorted, typed, isStr, other]

theorem deliver_thinking (thinking : String) (signature : Option String) :
    (thinkingBlock idx thinking signature).foldlM deliver w =
      some { w with
        reasoningContent := w.reasoningContent ++ thinking
        reasoningSignature :=
          if orText signature "" ≠ "" then .str (orText signature "") else w.reasoningSignature } := by
  have opened := start_other w idx [("type", .str "thinking"), ("thinking", .str "")]
    rfl (by decide)
  have delta (w : WireStreamAssembler) (thinking : String) : deliver w
      (blockDelta idx [("type", .str "thinking_delta"), ("thinking", .str thinking)]) =
        some { w with reasoningContent := w.reasoningContent ++ thinking } := by
    rw [deliver_blockDelta]
    simp [contentBlockDelta, blockDelta, get_sorted, field, sorted, isStr, asStr]
  have signed (w : WireStreamAssembler) (signature : String) : deliver w
      (blockDelta idx [("type", .str "signature_delta"), ("signature", .str signature)]) =
        some { w with reasoningSignature := .str signature } := by
    rw [deliver_blockDelta]
    simp [contentBlockDelta, blockDelta, get_sorted, field, sorted, isStr]
  by_cases empty : orText signature "" = ""
  · simp [thinkingBlock, opened, delta, deliver_blockStop, empty]
  · simp [thinkingBlock, opened, delta, signed, deliver_blockStop, empty]

theorem deliver_text (text : String) :
    (textBlock idx text).foldlM deliver w =
      some { w with textContent := w.textContent ++ text } := by
  have opened := start_other w idx [("type", .str "text"), ("text", .str "")]
    rfl (by decide)
  have delta : deliver w (blockDelta idx [("type", .str "text_delta"), ("text", .str text)]) =
      some { w with textContent := w.textContent ++ text } := by
    rw [deliver_blockDelta]
    simp [contentBlockDelta, blockDelta, get_sorted, field, sorted, isStr, asStr]
  simp [textBlock, opened, delta, deliver_blockStop]

theorem deliver_toolUse (tc : NormalizedToolCall JsonValue) :
    (toolUseBlock idx tc).foldlM deliver w = some (w.setEntry idx (streamed .verbatim tc)) := by
  have opened : deliver w (blockStart idx
      [("type", .str "tool_use"), ("id", .str tc.id), ("name", .str tc.name), ("input", .obj [])]) =
        some (w.setEntry idx { id := .str tc.id, name := .str tc.name }) := by
    rw [deliver_blockStart]
    simp [contentBlockStart, blockStart, get_sorted, field, sorted, isStr, asInt]
  have delta (w : WireStreamAssembler) (more : String) : deliver w
      (blockDelta idx [("type", .str "input_json_delta"), ("partial_json", .str more)]) =
        some (w.setEntry idx { w.entry idx with args := (w.entry idx).args ++ more }) := by
    rw [deliver_blockDelta]
    simp [contentBlockDelta, blockDelta, get_sorted, field, sorted, isStr,
      asStr, asInt]
  simp only [toolUseBlock, List.foldlM_cons, List.foldlM_nil, opened, delta, deliver_blockStop,
    Option.bind_eq_bind, Option.bind_some, Option.pure_def]
  simp [setEntry, entry, Dict.set_set, streamed]

theorem deliver_toolUses (calls : List (NormalizedToolCall JsonValue)) :
    (toolUseBlocks idx calls).foldlM deliver w = some (enter .verbatim w idx calls) := by
  induction calls generalizing w idx with
  | nil => rfl
  | cons tc calls ih =>
      rw [toolUseBlocks, List.foldlM_append, deliver_toolUse]
      exact ih _ (idx + 1)

theorem deliver_messageStart (resp : NormalizedResponse JsonValue) (requestedModel : String) :
    deliver w (messageStart resp requestedModel) = some w := by
  simp [deliver, messageStart, processEvent_received, no_choices, field]

theorem deliver_messageEnd (resp : NormalizedResponse JsonValue) :
    (messageEnd resp).foldlM deliver w = some w := by
  simp [messageEnd, deliver, processEvent_received, no_choices, field]

end Anthropic

def eventNames : List String :=
  ["message_start", "content_block_start", "content_block_delta", "content_block_stop",
    "message_delta", "message_stop"]

theorem plain_eventNames : ∀ name ∈ eventNames, Plain name := by
  have visible : ∀ name ∈ eventNames, ∀ c ∈ name.toList, 32 ≤ c.toNat := by
    simp [eventNames]
  have kept : ∀ name ∈ eventNames, strip (" " ++ name) = name := by decide +kernel
  exact fun name member => ⟨visible name member, kept name member⟩

/-- An event with one of the names, and with an object. -/
def Sendable (event : String × JsonRaw) : Prop :=
  event.1 ∈ eventNames ∧ ∃ members, event.2 = .obj members

theorem sendable_start (idx : Nat) (block : List (String × JsonRaw)) :
    Sendable (blockStart idx block) := ⟨by simp [blockStart, eventNames], _, rfl⟩

theorem sendable_delta (idx : Nat) (delta : List (String × JsonRaw)) :
    Sendable (blockDelta idx delta) := ⟨by simp [blockDelta, eventNames], _, rfl⟩

theorem sendable_stop (idx : Nat) : Sendable (blockStop idx) :=
  ⟨by simp [blockStop, eventNames], _, rfl⟩

theorem sendable_toolUses (idx : Nat) (calls : List (NormalizedToolCall JsonValue)) :
    ∀ event ∈ toolUseBlocks idx calls, Sendable event := by
  induction calls generalizing idx with
  | nil => simp [toolUseBlocks]
  | cons tc calls ih =>
      intro event member
      rw [toolUseBlocks, List.mem_append] at member
      cases member with
      | inl first =>
          simp only [toolUseBlock, List.mem_cons, List.not_mem_nil, or_false] at first
          rcases first with rfl | rfl | rfl
          · exact sendable_start idx _
          · exact sendable_delta idx _
          · exact sendable_stop idx
      | inr later => exact ih (idx + 1) event later

theorem sendable_events (resp : NormalizedResponse JsonValue) (requestedModel : String) :
    ∀ event ∈ anthropicEvents resp requestedModel, Sendable event := by
  have thinking : ∀ text signature, ∀ event ∈ thinkingBlock 0 text signature, Sendable event := by
    intro text signature
    by_cases empty : orText signature "" = "" <;>
      simp [thinkingBlock, empty, sendable_start, sendable_delta, sendable_stop]
  have text : ∀ idx text, ∀ event ∈ textBlock idx text, Sendable event := by
    simp [textBlock, sendable_start, sendable_delta, sendable_stop]
  intro event member
  simp only [anthropicEvents, List.mem_cons, List.mem_append] at member
  rcases member with rfl | ((reasoned | spoken) | called) | ended
  · exact ⟨by simp [messageStart, eventNames], _, rfl⟩
  · split at reasoned
    · exact thinking _ _ event reasoned
    · cases reasoned
  · split at spoken
    · exact text _ _ event spoken
    · cases spoken
  · exact sendable_toolUses _ _ event called
  · simp only [messageEnd, List.mem_cons, List.not_mem_nil, or_false] at ended
    rcases ended with rfl | rfl <;> exact ⟨by simp [eventNames], _, rfl⟩

/-- What the assembler holds at the end of the events of a response. -/
theorem deliver_events (resp : NormalizedResponse JsonValue) (requestedModel : String) :
    ∃ idx, (anthropicEvents resp requestedModel).foldlM deliver {} =
      some (enter .verbatim
        { textContent := orText resp.content ""
          reasoningContent := orText resp.reasoningContent ""
          reasoningSignature :=
            if orText resp.reasoningContent "" ≠ "" then optional resp.reasoningSignature
            else null } idx resp.toolCalls) := by
  simp only [anthropicEvents, List.foldlM_cons, List.foldlM_append, deliver_messageStart,
    Option.bind_eq_bind, Option.bind_some]
  by_cases thinking : orText resp.reasoningContent "" = "" <;>
    by_cases text : orText resp.content "" = "" <;>
    simp [thinking, text, deliver_thinking, deliver_text, deliver_toolUses, deliver_messageEnd,
      optional]
  all_goals exact ⟨_, rfl⟩

/-! ## OpenAI -/

/-- Nothing is entered from an index on. -/
def FreshFrom (w : WireStreamAssembler) (idx : Nat) : Prop :=
  ∀ n : Nat, idx ≤ n → w.toolCalls.get n = none

theorem appendTruthy_str (text more : String) : appendTruthy text (.str more) = some (text ++ more) := by
  by_cases empty : more = "" <;> simp [appendTruthy, JsonRaw.truthy, asStr, empty]

theorem toolCallDelta_chunk {w : WireStreamAssembler} {idx : Nat} (fresh : FreshFrom w idx)
    (tc : NormalizedToolCall JsonValue) :
    w.toolCallDelta (toolCallChunk idx tc).sorted = some (w.setEntry idx (streamed .spaced tc)) := by
  have entry : w.entry idx = {} := by rw [entry, fresh idx le_rfl]; rfl
  by_cases id : tc.id = "" <;> by_cases name : tc.name = "" <;>
    simp [toolCallDelta, toolCallChunk, sorted, get_sorted, field, asInt, entry, appendTruthy_str,
      JsonRaw.truthy, streamed, id, name]

theorem toolCallDelta_chunks {w : WireStreamAssembler} {idx : Nat} (fresh : FreshFrom w idx)
    (calls : List (NormalizedToolCall JsonValue)) :
    (sortedItems (toolCallChunks idx calls)).foldlM toolCallDelta w =
      some (enter .spaced w idx calls) := by
  induction calls generalizing w idx with
  | nil => rfl
  | cons tc calls ih =>
      have fresh' : FreshFrom (w.setEntry idx (streamed .spaced tc)) (idx + 1) := by
        intro n later
        have other : (n : Int) ≠ idx := by omega
        rw [setEntry, Dict.get_set_ne _ _ other]
        exact fresh n (by omega)
      rw [toolCallChunks, sortedItems, List.foldlM_cons, toolCallDelta_chunk fresh]
      exact ih fresh'

theorem appendTruthy_optional (text : Option String) :
    appendTruthy "" (optional text) = some (orText text "") := by
  by_cases empty : orText text "" = "" <;> simp [appendTruthy, optional, JsonRaw.truthy, asStr, empty]

/-- What the parts of the delta are read as. -/
theorem get_openaiDelta (resp : NormalizedResponse JsonValue) :
    (openaiDelta resp).sorted.get "content" null = some (optional resp.content) ∧
      (openaiDelta resp).sorted.get "reasoning_content" null =
        some (optional resp.reasoningContent) ∧
      (openaiDelta resp).sorted.get "tool_calls" (.arr []) =
        some (.arr (sortedItems (toolCallChunks 0 resp.toolCalls))) := by
  by_cases text : orText resp.content "" = "" <;>
    by_cases thinking : orText resp.reasoningContent "" = "" <;>
    by_cases called : resp.toolCalls = [] <;>
    simp [openaiDelta, sorted, get_sorted, field, optional, text, thinking, called, toolCallChunks,
      sortedItems]

theorem choiceDelta_chunk (resp : NormalizedResponse JsonValue) :
    ({} : WireStreamAssembler).choiceDelta
      (obj [("index", int 0), ("delta", openaiDelta resp),
        ("finish_reason", .str (sentFinishReason resp))]).sorted =
      some (enter .spaced
        { textContent := orText resp.content ""
          reasoningContent := orText resp.reasoningContent ""
          finishReason := optional (some (sentFinishReason resp)) } 0 resp.toolCalls) := by
  obtain ⟨text, reasoning, calls⟩ := get_openaiDelta resp
  have finish : (if (str (sentFinishReason resp)).truthy then str (sentFinishReason resp) else null) =
      optional (some (sentFinishReason resp)) := by
    by_cases empty : sentFinishReason resp = "" <;> simp [optional, orText, JsonRaw.truthy, empty]
  have fresh (w : WireStreamAssembler) (empty : w.toolCalls = .empty) : FreshFrom w 0 := by
    intro n _
    rw [empty, Dict.get_empty]
  simp [choiceDelta, sorted, get_sorted, field, items, text, reasoning, calls,
    appendTruthy_optional]
  rw [finish]
  exact toolCallDelta_chunks (fresh _ rfl) resp.toolCalls

theorem openaiChunk_delivered (resp : NormalizedResponse JsonValue) (requestedModel : String)
    (now : Int) :
    ({} : WireStreamAssembler).processEvent
        (received "message" (payloadText (openaiChunk resp requestedModel now))) =
      some (enter .spaced
        { textContent := orText resp.content ""
          reasoningContent := orText resp.reasoningContent ""
          finishReason := optional (some (sentFinishReason resp)) } 0 resp.toolCalls) := by
  rw [← choiceDelta_chunk, openaiChunk, processEvent_received _ (by decide) (by simp)]
  simp [firstChoice, sorted, get_sorted, field, sortedItems]

theorem done_ignored (w : WireStreamAssembler) :
    w.processEvent (received "message" "[DONE]") = some w := by
  have done : (received "message" "[DONE]").isDone = true := by decide +kernel
  simp [processEvent, done]

/-- The events of an OpenAI stream. -/
theorem parse_openai (resp : NormalizedResponse JsonValue) (requestedModel : String) (now : Int)
    {chunks : List Bytes}
    (sent : chunks.flatten = (synthesizeOpenaiSse resp requestedModel now).flatMap encode) :
    parse chunks =
      [received "message" (payloadText (openaiChunk resp requestedModel now)),
        received "message" "[DONE]"] := by
  have plainDone : Plain "[DONE]" := ⟨by simp, by decide +kernel⟩
  have taken : (reader JsonValue).takeAll {} (finishedLines 10 chunks.flatten) =
      ([received "message" (payloadText (openaiChunk resp requestedModel now)),
        received "message" "[DONE]"], {}) := by
    rw [sent, synthesizeOpenaiSse, List.flatMap_cons, List.flatMap_cons, List.flatMap_nil]
    have first := takeAll_dataFrame "message"
      (plain_payload _ : Plain (payloadText (openaiChunk resp requestedModel now)))
      (encode (dataFrame "[DONE]") ++ [])
    have second := takeAll_dataFrame "message" plainDone []
    rw [second] at first
    exact first
  rw [parse_takeAll, taken]
  rfl

/-! ## The response comes back -/

/-- The text, the reasoning and the tool calls of a response have come back. -/
structure Recovers (resp : NormalizedResponse JsonValue) (w : WireStreamAssembler) : Prop where
  text : w.textContent = orText resp.content ""
  reasoning : w.reasoningContent = orText resp.reasoningContent ""
  toolCalls : w.assembledToolCalls = resp.toolCalls.map asAssembled

theorem recovers_enter (style : JsonStyle) (resp : NormalizedResponse JsonValue)
    (decodes : ∀ tc ∈ resp.toolCalls, TextDecodes tc) {w : WireStreamAssembler} (idx : Nat)
    (empty : w.toolCalls = .empty) (text : w.textContent = orText resp.content "")
    (reasoning : w.reasoningContent = orText resp.reasoningContent "") :
    Recovers resp (enter style w idx resp.toolCalls) := by
  constructor
  · rw [enter_eq, text]
  · rw [enter_eq, reasoning]
  · exact assembled_enter style idx decodes empty

theorem anthropic_recovered (resp : NormalizedResponse JsonValue) (requestedModel : String)
    (decodes : ∀ tc ∈ resp.toolCalls, TextDecodes tc) {chunks : List Bytes}
    (sent : chunks.flatten = (synthesizeAnthropicSse resp requestedModel).flatMap encode) :
    ∃ w, assemble (parse chunks) = some w ∧ Recovers resp w ∧
      (orText resp.reasoningContent "" ≠ "" →
        w.reasoningSignature = optional resp.reasoningSignature) := by
  obtain ⟨idx, delivered⟩ := deliver_events resp requestedModel
  have events : assemble (parse chunks) = (anthropicEvents resp requestedModel).foldlM deliver {} := by
    rw [parse_eventFrames (fun e member => plain_eventNames _ (sendable_events _ _ e member).1)
      (fun e member => (sendable_events _ _ e member).2) sent, assemble, List.foldlM_map]
    rfl
  refine ⟨_, events.trans delivered, recovers_enter .verbatim resp decodes idx rfl rfl rfl, ?_⟩
  intro reasoned
  rw [enter_eq]
  exact if_pos reasoned

theorem openai_recovered (resp : NormalizedResponse JsonValue) (requestedModel : String) (now : Int)
    (decodes : ∀ tc ∈ resp.toolCalls, TextDecodes tc) {chunks : List Bytes}
    (sent : chunks.flatten = (synthesizeOpenaiSse resp requestedModel now).flatMap encode) :
    ∃ w, assemble (parse chunks) = some w ∧ Recovers resp w ∧
      w.finishReason = optional (some (sentFinishReason resp)) := by
  have events : assemble (parse chunks) = some (enter .spaced
      { textContent := orText resp.content ""
        reasoningContent := orText resp.reasoningContent ""
        finishReason := optional (some (sentFinishReason resp)) } 0 resp.toolCalls) := by
    rw [parse_openai resp requestedModel now sent]
    simp [assemble, openaiChunk_delivered, done_ignored]
  refine ⟨_, events, recovers_enter .spaced resp decodes 0 rfl rfl rfl, ?_⟩
  rw [enter_eq]

/-- However its stream is cut, a synthetic answer comes back: text, reasoning and tool calls on
    either protocol, the signature of the reasoning on one and the finish reason on the other,
    where tool calls have a finish reason of their own and an empty text counts as none. -/
theorem synthetic_sse_round_trip (resp : NormalizedResponse JsonValue) (requestedModel : String)
    (now : Int) (decodes : ∀ tc ∈ resp.toolCalls, TextDecodes tc) :
    (∀ chunks : List Bytes,
      chunks.flatten = (synthesizeAnthropicSse resp requestedModel).flatMap encode →
        ∃ w, assemble (parse chunks) = some w ∧ Recovers resp w ∧
          (orText resp.reasoningContent "" ≠ "" →
            w.reasoningSignature = optional resp.reasoningSignature)) ∧
    (∀ chunks : List Bytes,
      chunks.flatten = (synthesizeOpenaiSse resp requestedModel now).flatMap encode →
        ∃ w, assemble (parse chunks) = some w ∧ Recovers resp w ∧
          w.finishReason =
            optional (some (if resp.toolCalls = [] then resp.finishReason else "tool_calls"))) := by
  constructor
  · exact fun chunks => anthropic_recovered resp requestedModel decodes
  · intro chunks sent
    obtain ⟨w, assembled, recovers, finish⟩ :=
      openai_recovered resp requestedModel now decodes sent
    refine ⟨w, assembled, recovers, finish.trans ?_⟩
    by_cases none : resp.toolCalls = [] <;> simp [sentFinishReason, none]

/-- A response that breaks off after its tool calls, of which the first came with a text. -/
def sampleAnswer : NormalizedResponse JsonValue where
  responseId := "r1"
  content := some "one\ntwo"
  reasoningContent := some "data: [DONE]"
  reasoningSignature := some "sig"
  toolCalls :=
    [{ id := "call_1", name := "search", arguments := .ofRaw (.obj [("q", .str "x")]),
       rawArguments := "\x7b\"q\":\"x\"\x7d" },
      { id := "call_2", name := "list", arguments := .ofRaw (.obj []) }]
  finishReason := "length"

theorem sampleAnswer_decodes : ∀ tc ∈ sampleAnswer.toolCalls, TextDecodes tc := by
  have reads : JsonValue.loads "\x7b\"q\":\"x\"\x7d" = some (.ofRaw (.obj [("q", .str "x")])) := by
    decide +kernel
  intro tc member
  simp only [sampleAnswer, List.mem_cons, List.not_mem_nil, or_false] at member
  rcases member with rfl | rfl
  · exact .inr reads
  · exact .inl rfl

theorem synthetic_sse_round_trip_sample :
    (∃ w, assemble (parse ((synthesizeAnthropicSse sampleAnswer "m").map encode)) = some w ∧
      Recovers sampleAnswer w ∧ w.reasoningSignature = .str "sig") ∧
    (∃ w, assemble (parse ((synthesizeOpenaiSse sampleAnswer "m" 0).map encode)) = some w ∧
      Recovers sampleAnswer w ∧ w.finishReason = .str "tool_calls") := by
  obtain ⟨anthropic, openai⟩ := synthetic_sse_round_trip sampleAnswer "m" 0 sampleAnswer_decodes
  constructor
  · obtain ⟨w, assembled, recovers, signed⟩ := anthropic _ List.flatMap_def.symm
    exact ⟨w, assembled, recovers, signed (by decide)⟩
  · obtain ⟨w, assembled, recovers, finish⟩ := openai _ List.flatMap_def.symm
    exact ⟨w, assembled, recovers, finish⟩

/-- A finish reason does not come back from behind tool calls, and an empty text comes back as
    no text. -/
theorem finish_reason_replaced :
    (∃ w, assemble (parse ((synthesizeOpenaiSse sampleAnswer "m" 0).map encode)) = some w ∧
      w.finishReason ≠ .str sampleAnswer.finishReason) ∧
    (∃ w, assemble (parse ((synthesizeOpenaiSse { finishReason := "" } "m" 0).map encode)) = some w ∧
      w.finishReason ≠ .str "") ∧
    (∃ w, assemble (parse ((synthesizeAnthropicSse
        { reasoningContent := some "hm", reasoningSignature := some "" } "m").map encode)) = some w ∧
      w.reasoningSignature ≠ .str "") := by
  have none : ∀ tc ∈ ([] : List (NormalizedToolCall JsonValue)), TextDecodes tc := by simp
  refine ⟨?_, ?_, ?_⟩
  · obtain ⟨w, assembled, -, finish⟩ :=
      openai_recovered sampleAnswer "m" 0 sampleAnswer_decodes List.flatMap_def.symm
    refine ⟨w, assembled, ?_⟩
    rw [finish]
    simp [optional, orText, sentFinishReason, sampleAnswer]
  · obtain ⟨w, assembled, -, finish⟩ :=
      openai_recovered { finishReason := "" } "m" 0 none List.flatMap_def.symm
    refine ⟨w, assembled, ?_⟩
    rw [finish]
    simp [optional, orText, sentFinishReason]
  · obtain ⟨w, assembled, -, signed⟩ := anthropic_recovered
      { reasoningContent := some "hm", reasoningSignature := some "" } "m" none List.flatMap_def.symm
    refine ⟨w, assembled, ?_⟩
    rw [signed (by simp [orText])]
    simp [optional, orText]

end DuraLLM
