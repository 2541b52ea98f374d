import DuraLLM.Providers.StreamedBlocks

/-! # Replies read from a body and from a stream

A reply as one body gives what it says.  Its streams give the same exactly when
the last thought is not signed and nothing that stays is torn: the signature of
a thought is passed over by the reading of events.
-/

namespace DuraLLM

open Text JsonRaw ReplyBlock AnthropicAdapter

/-- What is written between a first and a last visible character is not stripped. -/
theorem strip_between {c d : Char} (first : isSpace c = false) (last : isSpace d = false)
    (chars : List Char) {blanks : List Char} (blankOnly : ∀ b ∈ blanks, isSpace b = true) :
    strip (String.ofList (c :: (chars ++ d :: blanks))) = String.ofList (c :: (chars ++ [d])) := by
  have begins : (c :: (chars ++ d :: blanks)).dropWhile isSpace = c :: (chars ++ d :: blanks) :=
    List.dropWhile_cons_of_neg (by simp [first])
  have ends : blanks.rdropWhile isSpace = [] := List.rdropWhile_eq_nil_iff.mpr blankOnly
  have whole := rdropWhile_visible (c :: chars) blanks last
  rw [ends] at whole
  rw [strip, String.toList_ofList, begins]
  exact congrArg String.ofList whole

/-! ## A stream as a body -/

theorem eventText_begins (e : ReplyEvent) (events : List ReplyEvent) :
    ∃ more, (eventText (e :: events)).toList = "event:".toList ++ more :=
  ⟨_, by simp [eventText, String.join_cons, ReplyEvent.frame, eventFrame]; rfl⟩

theorem eventText_ends {events : List ReplyEvent} (some : events ≠ []) :
    ∃ inside, (eventText events).toList = inside ++ '\x7d' :: ['\n', '\n'] := by
  obtain ⟨front, e, rfl⟩ := List.eq_nil_or_concat events |>.resolve_left some
  obtain ⟨inside, braces⟩ := write_obj .verbatim e.members
  refine ⟨(eventText front).toList ++
    (("event: " ++ e.name ++ "\n" ++ "data: ").toList ++ '\x7b' :: inside), ?_⟩
  simp [eventText, ReplyEvent.frame, eventFrame, payloadText, braces]

/-- The blank line at the end brings nothing. -/
theorem addText_end (draw : Nat → String) (s : EventState) (inside : List Char) :
    s.addText draw (inside ++ '\x7d' :: ['\n', '\n']) = s.addText draw (inside ++ ['\x7d']) := by
  have blank : lines ['\n'] = [[]] := by decide +kernel
  rw [EventState.addText, lines_end inside (by decide), blank, List.map_append, List.foldlM_append,
    EventState.addText]
  cases ((lines (inside ++ ['\x7d'])).map String.ofList).foldlM (EventState.addLine draw) s with
  | none => rfl
  | some s' =>
      have passed := EventState.addLine_hollow draw s' hollow_blank
      simp [passed]

/-- A stream is read as its whole events. -/
theorem normalizeResponse_events (uuid : String) (draw : Nat → String) (endpointModel : String)
    {events : List ReplyEvent} (some : events ≠ []) :
    normalizeResponse uuid draw endpointModel (eventText events) =
      ((events.filter fun e => e.Whole).foldlM (EventState.addEvent draw)
        { model := .str endpointModel, msgId := .str ("msg_" ++ uuid) }).bind
          EventState.response := by
  obtain ⟨inside, ends⟩ := eventText_ends some
  have begun : "event:".toList <+: inside ++ ['\x7d'] := by
    obtain ⟨e, events, rfl⟩ := List.exists_cons_of_ne_nil some
    obtain ⟨more, begins⟩ := eventText_begins e events
    have front : "event:".toList <+: inside ++ '\x7d' :: ['\n', '\n'] :=
      ⟨more, by rw [← ends, begins]⟩
    have whole : inside ++ ['\x7d'] <+: inside ++ '\x7d' :: ['\n', '\n'] :=
      ⟨['\n', '\n'], by simp⟩
    have close : '\x7d' ∈ inside ++ ['\x7d'] := by simp
    cases List.prefix_or_prefix_of_prefix front whole with
    | inl shorter => exact shorter
    | inr longer => exact absurd (longer.subset close) (by decide)
  obtain ⟨more, begins⟩ := begun
  have stripped : strip (eventText events) = "event:" ++ String.ofList more := by
    cases inside with
    | nil => exact absurd (List.cons.inj begins).1 (by decide)
    | cons c chars =>
        have first : 'e' = c := (List.cons.inj begins).1
        subst first
        have text : eventText events =
            String.ofList ('e' :: (chars ++ '\x7d' :: ['\n', '\n'])) := by
          rw [← String.ofList_toList (s := eventText events), ends]
          rfl
        rw [text, strip_between (by decide) (by decide) chars (by simp [isSpace]),
          ← List.cons_append, ← begins, String.ofList_append, String.ofList_toList]
  have stream : isEventStream ("event:" ++ String.ofList more) = true := by
    rw [isEventStream, afterPrefix_append]
    rfl
  have nonempty : "event:" ++ String.ofList more ≠ "" := by
    intro empty
    have chars := congrArg String.toList empty
    simp at chars
  have lines : splitlines ("event:" ++ String.ofList more) =
      (lines (inside ++ ['\x7d'])).map String.ofList := by
    rw [splitlines, ← begins]
    simp
  have all := EventState.addText_events draw
    { model := .str endpointModel, msgId := .str ("msg_" ++ uuid) } events []
  rw [List.append_nil, ends, addText_end] at all
  have last (read : Option EventState) :
      read.bind (·.addText draw []) = read := by
    cases read <;> rfl
  rw [last] at all
  rw [normalizeResponse, stripped, if_neg nonempty, if_pos stream, parseAnthropicSse, lines, ← all]
  rfl

/-! ## What a response tells -/

/-- The response tells the texts, the calls, the end and the counts, where no text is an empty
    text. -/
structure Tells (r : AdaptedResponse) (content reasoning signature : String)
    (calls : List (JsonRaw × JsonRaw × JsonRaw)) (stopReason : String)
    (inputTokens outputTokens : Nat) : Prop where
  content : orText r.content "" = content
  reasoning : r.reasoningContent.orElse (.str "") = .str reasoning
  signature : r.reasoningSignature.orElse (.str "") = .str signature
  calls : r.toolCalls.map (·.invocation) = calls
  finishReason : finishReason (.str stopReason) = some r.finishReason
  inputTokens : r.inputTokens = int inputTokens
  outputTokens : r.outputTokens = int outputTokens

theorem finishReason_str (text : String) : ∃ reason, finishReason (.str text) = some reason := by
  unfold finishReason
  split <;> simp_all

theorem AnthropicAdapter.EventState.response_tells {s : EventState} {t : ReplyTally}
    (holds : s.Holds t) :
    ∃ r, s.response = some r ∧
      Tells r t.content t.reasoning "" t.calls t.stopReason t.inputTokens t.outputTokens := by
  obtain ⟨texts, same, joined⟩ := holds.content
  obtain ⟨content, parts, text⟩ := joinParts_texts texts
  obtain ⟨reason, ended⟩ := finishReason_str t.stopReason
  refine ⟨_, by simp only [EventState.response, same, parts, holds.stopReason, ended]; rfl, ?_⟩
  exact ⟨text.trans joined, holds.reasoning, holds.signature, holds.calls, ended,
    holds.inputTokens, holds.outputTokens⟩

/-- What the whole events come to is what the stream tells. -/
theorem stream_tells (uuid : String) (draw : Nat → String) (endpointModel : String)
    {events : List ReplyEvent} (some : events ≠ []) {t : ReplyTally}
    (arrives : ReplyTally.arrive {} events = t) :
    ∃ r, normalizeResponse uuid draw endpointModel (eventText events) = .some r ∧
      Tells r t.content t.reasoning "" t.calls t.stopReason t.inputTokens t.outputTokens := by
  obtain ⟨s, read, holds⟩ := (EventState.fresh_holds uuid endpointModel).run draw
    (events.filter fun e => e.Whole)
  obtain ⟨r, given, tells⟩ := EventState.response_tells holds
  subst arrives
  refine ⟨r, ?_, tells⟩
  rw [normalizeResponse_events uuid draw endpointModel some, read]
  exact given

/-! ## One body -/

namespace AnthropicAdapter.MessageParts

/-- What the reading of the blocks so far has come to. -/
structure Holds (parts : MessageParts) (content : List String) (last : Option (String × String))
    (calls : List (JsonRaw × JsonRaw × JsonRaw)) : Prop where
  textParts : parts.textParts = content.map .str
  reasoning : parts.reasoning.orElse (.str "") = .str ((last.map Prod.fst).getD "")
  signature : parts.signature.orElse (.str "") = .str ((last.map Prod.snd).getD "")
  calls : parts.toolCalls.map (·.invocation) = calls

variable {parts : MessageParts} {content : List String} {last : Option (String × String)}
  {calls : List (JsonRaw × JsonRaw × JsonRaw)}

theorem addBlock_members (parts : MessageParts) (block : ReplyBlock) :
    parts.addBlock (.obj (sortedMembers block.members)) =
      some (match block with
        | .thinking content signature =>
            { parts with
              reasoning := .str content
              signature := optionalValue signature null }
        | .text content => { parts with textParts := parts.textParts ++ [.str content] }
        | .toolUse id name input =>
            { parts with
              toolCalls := parts.toolCalls ++
                [.create (.str id) (.str name) (.obj (sortedMembers input)) ""] }) := by
  cases block with
  | thinking content signature =>
      cases signature <;>
        simp [addBlock, get_sorted, ReplyBlock.members, optionalMember, optionalValue, field,
          sorted, isStr]
  | text content => simp [addBlock, get_sorted, ReplyBlock.members, field, sorted, isStr]
  | toolUse id name input => simp [addBlock, get_sorted, ReplyBlock.members, field, sorted, isStr]

theorem Holds.add (holds : Holds parts content last calls) (block : ReplyBlock) :
    ∃ parts', parts.addBlock (.obj (sortedMembers block.members)) = some parts' ∧
      Holds parts' (content ++ block.said.toList) (block.thought.or last)
        (calls ++ block.invoked.toList) := by
  refine ⟨_, addBlock_members parts block, ?_⟩
  cases block with
  | thinking text signature =>
      constructor
      · simpa [said] using holds.textParts
      · exact EventState.orElse_str text
      · exact orElse_optionalValue signature ""
      · simpa [invoked] using holds.calls
  | text text =>
      constructor
      · simp [said, holds.textParts]
      · exact holds.reasoning
      · exact holds.signature
      · simpa [invoked] using holds.calls
  | toolUse id name input =>
      constructor
      · simpa [said] using holds.textParts
      · exact holds.reasoning
      · exact holds.signature
      · simp [invoked, AdaptedToolCall.create, AdaptedToolCall.invocation, ← holds.calls]

theorem Holds.run (holds : Holds parts content last calls) (blocks : List ReplyBlock) :
    ∃ parts', (sortedItems (blocks.map fun block => .obj block.members)).foldlM addBlock parts =
        some parts' ∧
      Holds parts' (content ++ blocks.filterMap said) ((lastThought blocks).or last)
        (calls ++ blocks.filterMap invoked) := by
  induction blocks generalizing parts content last calls with
  | nil => exact ⟨parts, rfl, by simpa [lastThought] using holds⟩
  | cons block blocks ih =>
      obtain ⟨parts', read, holds⟩ := holds.add block
      obtain ⟨parts'', rest, holds⟩ := ih holds
      refine ⟨parts'', ?_, ?_⟩
      · rw [List.map_cons, sortedItems, sorted, List.foldlM_cons, read]
        exact rest
      · rw [filterMap_toList, filterMap_toList, lastThought, Option.or_assoc, ← List.append_assoc,
          ← List.append_assoc]
        exact holds

end AnthropicAdapter.MessageParts

/-- The texts of the last thought. -/
def lastReasoning (blocks : List ReplyBlock) : String := ((lastThought blocks).map Prod.fst).getD ""

def lastSignature (blocks : List ReplyBlock) : String := ((lastThought blocks).map Prod.snd).getD ""

/-- A JSON object is no stream. -/
theorem body_plain (style : JsonStyle) (members : List (String × JsonRaw)) :
    strip (String.ofList ((obj members).write style)) = String.ofList ((obj members).write style) ∧
      isEventStream (String.ofList ((obj members).write style)) = false ∧
      String.ofList ((obj members).write style) ≠ "" := by
  have visible := write_visible style (obj members)
  obtain ⟨inside, braces⟩ := write_obj style members
  rw [braces] at visible ⊢
  refine ⟨strip_between (by decide) (by decide) inside (by simp), ?_, ?_⟩
  · rw [isEventStream, Bool.or_eq_false_iff]
    constructor
    · simp [afterPrefix, List.dropPrefix?]
    · rw [decide_eq_false_iff_not]
      intro found
      have newline := found.subset (List.mem_cons_self : '\n' ∈ '\n' :: "event:".toList)
      rw [String.toList_ofList] at newline
      exact absurd (visible _ newline) (by decide)
  · intro empty
    have chars := congrArg String.toList empty
    simp at chars

/-- One body tells the reply. -/
theorem body_tells (uuid : String) (draw : Nat → String) (endpointModel : String)
    (style : JsonStyle) (msg : AnthropicReply) :
    ∃ p, normalizeResponse uuid draw endpointModel (msg.body style) = some p ∧
      Tells p (String.join (msg.content.filterMap said)) (lastReasoning msg.content)
        (lastSignature msg.content) (msg.content.filterMap invoked) msg.stopReason
        msg.inputTokens msg.outputTokens := by
  have begins : MessageParts.Holds {} [] none [] := ⟨rfl, rfl, rfl, rfl⟩
  obtain ⟨parts, read, holds⟩ := begins.run msg.content
  rw [Option.or_none] at holds
  obtain ⟨reason, ended⟩ := finishReason_str msg.stopReason
  obtain ⟨same, plain, nonempty⟩ := body_plain style
    (replyMembers msg.id msg.model msg.content (.str msg.stopReason) msg.inputTokens
      msg.outputTokens)
  have texts : parts.textParts.mapM asStr = some (msg.content.filterMap said) := by
    rw [holds.textParts, List.nil_append]
    exact mapM_asStr _
  have message : ∃ p, readMessage (.obj (sortedMembers (replyMembers msg.id msg.model msg.content
      (.str msg.stopReason) msg.inputTokens msg.outputTokens))) endpointModel = some p ∧
        Tells p (String.join (msg.content.filterMap said)) (lastReasoning msg.content)
          (lastSignature msg.content) (msg.content.filterMap invoked) msg.stopReason
          msg.inputTokens msg.outputTokens := by
    refine ⟨_, by
      simp [readMessage, get_sorted, replyMembers, field, sorted, WireStreamAssembler.items, read,
        ended, texts]
      rfl, ?_⟩
    exact ⟨orText_some _, holds.reasoning, holds.signature, holds.calls, ended, rfl, rfl⟩
  obtain ⟨p, given, tells⟩ := message
  refine ⟨p, ?_, tells⟩
  rw [normalizeResponse, AnthropicReply.body, same, if_neg nonempty, plain, loads_write]
  exact given

/-! ## Reading both -/

/-- The two responses say the same. -/
structure AdaptedResponse.ReadsAs (p r : AdaptedResponse) : Prop where
  content : orText p.content "" = orText r.content ""
  reasoning : p.reasoningContent.orElse (.str "") = r.reasoningContent.orElse (.str "")
  signature : p.reasoningSignature.orElse (.str "") = r.reasoningSignature.orElse (.str "")
  calls : p.toolCalls.map (·.invocation) = r.toolCalls.map (·.invocation)
  finishReason : p.finishReason = r.finishReason
  inputTokens : p.inputTokens = r.inputTokens
  outputTokens : p.outputTokens = r.outputTokens

/-- Everything that the reply says gets through its streams. -/
structure AnthropicReply.GetsThrough (msg : AnthropicReply) : Prop where
  started : JsonString.Untorn msg.id ∧ JsonString.Untorn msg.model ∨ msg.inputTokens = 0
  ended : JsonString.Untorn msg.stopReason ∨ msg.outputTokens = 0
  blocks : ∀ block ∈ msg.content, block.Safe
  thought : ∀ last ∈ lastThought msg.content, JsonString.Untorn last.1 ∧ last.2 = ""

theorem Tells.readsAs_iff {p r : AdaptedResponse} {content content' reasoning reasoning' signature
    signature' stopReason : String} {calls calls' : List (JsonRaw × JsonRaw × JsonRaw)}
    {inputTokens inputTokens' outputTokens outputTokens' : Nat}
    (one : Tells p content reasoning signature calls stopReason inputTokens outputTokens)
    (other : Tells r content' reasoning' signature' calls' stopReason inputTokens' outputTokens') :
    p.ReadsAs r ↔ content = content' ∧ reasoning = reasoning' ∧ signature = signature' ∧
      calls = calls' ∧ inputTokens = inputTokens' ∧ outputTokens = outputTokens' := by
  have counts (n k : Nat) : int n = int k ↔ n = k := by simp
  have texts (s t : String) : JsonRaw.str s = .str t ↔ s = t := by simp
  rw [← one.content, ← other.content, ← texts reasoning, ← one.reasoning, ← other.reasoning,
    ← texts signature, ← one.signature, ← other.signature, ← one.calls, ← other.calls,
    ← counts inputTokens, ← one.inputTokens, ← other.inputTokens, ← counts outputTokens,
    ← one.outputTokens, ← other.outputTokens]
  have reason := Option.some.inj (one.finishReason.symm.trans other.finishReason)
  constructor
  · intro same
    exact ⟨same.content, same.reasoning, same.signature, same.calls, same.inputTokens,
      same.outputTokens⟩
  · rintro ⟨content, reasoning, signature, calls, inputTokens, outputTokens⟩
    exact ⟨content, reasoning, signature, calls, reason, inputTokens, outputTokens⟩

namespace AnthropicReply

variable (msg : AnthropicReply)

/-- The count of a message whose start arrives. -/
def arrivedInput : Nat :=
  if JsonString.Untorn msg.id ∧ JsonString.Untorn msg.model then msg.inputTokens else 0

def arrivedOutput : Nat := if JsonString.Untorn msg.stopReason then msg.outputTokens else 0

theorem finishReason_other {stopReason : String} (noTool : stopReason ≠ "tool_use")
    (noLimit : stopReason ≠ "max_tokens") : finishReason (.str stopReason) = some "stop" := by
  unfold finishReason
  split <;> simp_all

/-- A reason that is torn is none of those with a name of their own. -/
theorem finishReason_arrived (stopReason : String) :
    finishReason (.str
        (if JsonString.Untorn stopReason then orText (some stopReason) "end_turn"
        else "end_turn")) =
      finishReason (.str stopReason) := by
  have known : JsonString.Untorn "tool_use" ∧ JsonString.Untorn "max_tokens" := by decide
  split
  · by_cases empty : stopReason = ""
    · subst empty
      rfl
    · simp [orText, empty]
  · next torn =>
    have noTool : stopReason ≠ "tool_use" := by
      rintro rfl
      exact torn known.1
    have noLimit : stopReason ≠ "max_tokens" := by
      rintro rfl
      exact torn known.2
    rw [finishReason_other noTool noLimit]
    rfl

theorem arrive_pings (t : ReplyTally) (events : List ReplyEvent) :
    t.arrive events = t.arrive (events.filter (!·.isPing)) := by
  induction events generalizing t with
  | nil => rfl
  | cons e events ih =>
      rw [ReplyTally.arrive_cons, ih]
      cases e with
      | ping => simp [ReplyEvent.isPing, ReplyTally.add]
      | _ => rw [List.filter_cons_of_pos (by simp [ReplyEvent.isPing]), ReplyTally.arrive_cons]

/-- The start of a message brings a count. -/
theorem arrive_start (outputTokens : Nat) (events : List ReplyEvent) :
    ReplyTally.arrive {}
        (.messageStart msg.id msg.model msg.inputTokens outputTokens :: events) =
      ReplyTally.arrive { inputTokens := msg.arrivedInput } events := by
  have whole : (ReplyEvent.messageStart msg.id msg.model msg.inputTokens outputTokens).Whole ↔
      JsonString.Untorn msg.id ∧ JsonString.Untorn msg.model := by
    simp [ReplyEvent.Whole, ReplyEvent.texts]
  rw [ReplyTally.arrive_cons, arrivedInput]
  by_cases untorn : JsonString.Untorn msg.id ∧ JsonString.Untorn msg.model
  · rw [if_pos (whole.mpr untorn), if_pos untorn]
    rfl
  · rw [if_neg (mt whole.mp untorn), if_neg untorn]

/-- Its end brings the other count and the reason. -/
theorem arrive_end (t : ReplyTally) :
    t.arrive [.messageDelta msg.stopReason msg.outputTokens, .messageStop] =
      { t with
        stopReason :=
          if JsonString.Untorn msg.stopReason then orText (some msg.stopReason) t.stopReason
          else t.stopReason
        outputTokens :=
          if JsonString.Untorn msg.stopReason then msg.outputTokens else t.outputTokens } := by
  by_cases untorn : JsonString.Untorn msg.stopReason <;>
    simp [untorn, ReplyTally.arrive, ReplyEvent.Whole, ReplyEvent.texts, ReplyTally.add]

/-- What a stream tells, by what arrives of its blocks. -/
theorem stream_tells_blocks (uuid : String) (draw : Nat → String) (endpointModel : String)
    {events blocks : List ReplyEvent} {outputTokens : Nat}
    (same : events.filter (!·.isPing) =
      .messageStart msg.id msg.model msg.inputTokens outputTokens ::
        (blocks ++ [.messageDelta msg.stopReason msg.outputTokens, .messageStop]))
    {said : String} {thought : Option String} {calls : List (JsonRaw × JsonRaw × JsonRaw)}
    (grown : ReplyTally.Grown { inputTokens := msg.arrivedInput }
      (ReplyTally.arrive { inputTokens := msg.arrivedInput } blocks) said thought calls) :
    ∃ r, normalizeResponse uuid draw endpointModel (eventText events) = some r ∧
      Tells r said (thought.getD "") "" calls msg.stopReason msg.arrivedInput
        msg.arrivedOutput := by
  have some : events ≠ [] := by
    rintro rfl
    cases same
  obtain ⟨r, given, tells⟩ := stream_tells uuid draw endpointModel some rfl
  refine ⟨r, given, ?_⟩
  rw [arrive_pings, same, arrive_start, ReplyTally.arrive_append, arrive_end, grown.content,
    grown.reasoning, grown.calls, grown.inputTokens, grown.stopReason, grown.outputTokens] at tells
  have reason := finishReason_arrived msg.stopReason
  exact { tells with
    content := tells.content.trans String.empty_append
    finishReason := reason.symm.trans tells.finishReason }

/-! ## Sent in whole pieces -/

/-- The stream that has every text in one piece. -/
def wholeEvents : List ReplyEvent :=
  .messageStart msg.id msg.model msg.inputTokens 0 ::
    (wholeBlocks 0 msg.content ++ [.messageDelta msg.stopReason msg.outputTokens, .messageStop])

end AnthropicReply

theorem wholeBlocks_noPing (index : Nat) (blocks : List ReplyBlock) :
    ∀ e ∈ wholeBlocks index blocks, e.isPing = false := by
  induction blocks generalizing index with
  | nil => simp [wholeBlocks]
  | cons block blocks ih =>
      intro e member
      simp only [wholeBlocks, blockEvents, List.mem_append, List.mem_cons, List.mem_map,
        List.not_mem_nil, or_false] at member
      rcases member with (rfl | ⟨d, -, rfl⟩ | rfl) | later
      · rfl
      · rfl
      · rfl
      · exact ih (index + 1) e later

theorem wholeEvents_noPing (msg : AnthropicReply) :
    msg.wholeEvents.filter (!·.isPing) = msg.wholeEvents := by
  have blocks := wholeBlocks_noPing 0 msg.content
  rw [List.filter_eq_self]
  intro e member
  simp only [AnthropicReply.wholeEvents, List.mem_cons, List.mem_append, List.not_mem_nil,
    or_false] at member
  rcases member with rfl | inside | rfl | rfl
  · rfl
  · simp [blocks e inside]
  · rfl
  · rfl

theorem AnthropicReply.wholeEvents_streamed (msg : AnthropicReply) :
    msg.Streamed msg.wholeEvents :=
  ⟨0, _, wholeBlocks_rendered 0 msg.content, wholeEvents_noPing msg⟩

theorem pieceOf_eq_iff {text : String} : pieceOf text = text ↔ JsonString.Untorn text := by
  constructor
  · intro same
    by_contra torn
    rw [pieceOf, if_neg torn] at same
    exact torn (same ▸ (by decide : JsonString.Untorn ""))
  · intro untorn
    exact if_pos untorn

theorem pieceOf_length (text : String) :
    (pieceOf text).length ≤ text.length ∧
      ((pieceOf text).length = text.length → JsonString.Untorn text) := by
  unfold pieceOf
  split
  · next untorn => exact ⟨le_rfl, fun _ => untorn⟩
  · next torn =>
    refine ⟨by simp, fun same => ?_⟩
    have empty : text = "" := by simpa using same.symm
    exact absurd (empty ▸ (by decide : JsonString.Untorn "")) torn

theorem join_pieces_length (texts : List String) :
    (String.join (texts.map pieceOf)).length ≤ (String.join texts).length := by
  induction texts with
  | nil => rfl
  | cons text texts ih =>
      have piece := (pieceOf_length text).1
      simp only [List.map_cons, String.join_cons, String.length_append]
      omega

/-- What is lost of texts is missing in all of them. -/
theorem untorn_of_pieces {texts : List String}
    (same : String.join (texts.map pieceOf) = String.join texts) :
    ∀ text ∈ texts, JsonString.Untorn text := by
  have lengths := congrArg String.length same
  clear same
  induction texts with
  | nil => simp
  | cons text texts ih =>
      simp only [List.map_cons, String.join_cons, String.length_append] at lengths
      have piece := pieceOf_length text
      have rest := join_pieces_length texts
      intro other member
      cases List.mem_cons.mp member with
      | inl same => exact same ▸ piece.2 (by omega)
      | inr later => exact ih (by omega) other later

theorem finalArguments_piece {input : List (String × JsonRaw)}
    (same : EventState.finalArguments (pieceOf (payloadText (.obj input))) =
      .obj (sortedMembers input)) :
    JsonString.Untorn (payloadText (.obj input)) := by
  by_contra torn
  rw [pieceOf, if_neg torn] at same
  cases input with
  | nil => exact torn (by decide)
  | cons member input =>
      have some := truthy_sorted (List.cons_ne_nil member input)
      rw [sorted, ← same] at some
      cases some

theorem arrivedCalls_length (blocks : List ReplyBlock) :
    (blocks.filterMap arrivedCall).length ≤ (blocks.filterMap invoked).length := by
  induction blocks with
  | nil => rfl
  | cons block blocks ih =>
      rw [filterMap_toList, filterMap_toList, List.length_append, List.length_append]
      have one : block.arrivedCall.toList.length ≤ block.invoked.toList.length := by
        cases block with
        | toolUse id name input =>
            unfold arrivedCall invoked
            split <;> simp
        | _ => simp [arrivedCall]
      omega

/-- Calls that all arrive are untorn. -/
theorem safe_of_arrived {blocks : List ReplyBlock}
    (same : blocks.filterMap arrivedCall = blocks.filterMap invoked) {id name : String}
    {input : List (String × JsonRaw)} (member : .toolUse id name input ∈ blocks) :
    (ReplyBlock.toolUse id name input).Safe := by
  induction blocks with
  | nil => cases member
  | cons block blocks ih =>
      rw [filterMap_toList, filterMap_toList] at same
      have rest := arrivedCalls_length blocks
      cases block with
      | toolUse id' name' input' =>
          have lengths := congrArg List.length same
          by_cases untorn : JsonString.Untorn id' ∧ JsonString.Untorn name'
          · simp only [arrivedCall, invoked, if_pos untorn, Option.toList_some, List.cons_append,
              List.nil_append, List.cons.injEq, Prod.mk.injEq, true_and] at same
            cases List.mem_cons.mp member with
            | inl here =>
                cases here
                exact ⟨untorn.1, untorn.2, finalArguments_piece same.1⟩
            | inr later => exact ih same.2 later
          · simp only [arrivedCall, invoked, if_neg untorn, Option.toList_some, Option.toList_none,
              List.length_append, List.length_cons, List.length_nil] at lengths
            omega
      | thinking content signature =>
          exact ih same ((List.mem_cons.mp member).resolve_left (by simp))
      | text content => exact ih same ((List.mem_cons.mp member).resolve_left (by simp))

section Through

variable {msg : AnthropicReply}

theorem AnthropicReply.GetsThrough.unsigned (through : msg.GetsThrough) :
    lastSignature msg.content = "" := by
  unfold lastSignature
  cases found : lastThought msg.content with
  | none => rfl
  | some last => exact (through.thought last found).2

theorem AnthropicReply.GetsThrough.inputTokens (through : msg.GetsThrough) :
    msg.inputTokens = msg.arrivedInput := by
  unfold AnthropicReply.arrivedInput
  split
  · rfl
  · next torn => exact through.started.resolve_left torn

theorem AnthropicReply.GetsThrough.outputTokens (through : msg.GetsThrough) :
    msg.outputTokens = msg.arrivedOutput := by
  unfold AnthropicReply.arrivedOutput
  split
  · rfl
  · next torn => exact through.ended.resolve_left torn

/-- What the whole pieces bring is all of the reply only if nothing that stays is torn. -/
theorem getsThrough_of_pieces
    (same : String.join (msg.content.filterMap said) =
        String.join ((msg.content.filterMap said).map pieceOf) ∧
      lastReasoning msg.content =
        ((lastThought msg.content).map fun last => pieceOf last.1).getD "" ∧
      lastSignature msg.content = "" ∧
      msg.content.filterMap invoked = msg.content.filterMap arrivedCall ∧
      msg.inputTokens = msg.arrivedInput ∧ msg.outputTokens = msg.arrivedOutput) :
    msg.GetsThrough := by
  obtain ⟨content, reasoning, signature, calls, inputTokens, outputTokens⟩ := same
  constructor
  · by_contra torn
    rw [not_or] at torn
    rw [AnthropicReply.arrivedInput, if_neg torn.1] at inputTokens
    exact torn.2 inputTokens
  · by_contra torn
    rw [not_or] at torn
    rw [AnthropicReply.arrivedOutput, if_neg torn.1] at outputTokens
    exact torn.2 outputTokens
  · intro block member
    cases block with
    | thinking text signature => trivial
    | text text =>
        exact untorn_of_pieces content.symm text (List.mem_filterMap.mpr ⟨_, member, rfl⟩)
    | toolUse id name input => exact safe_of_arrived calls.symm member
  · intro last found
    have last : lastThought msg.content = some last := found
    rw [lastReasoning, last] at reasoning
    rw [lastSignature, last] at signature
    exact ⟨pieceOf_eq_iff.mp reasoning.symm, signature⟩

end Through

/-- A reply is read alike from its body and from each of its streams exactly when all of it gets
    through. -/
theorem anthropic_stream_alike_iff (msg : AnthropicReply) (style : JsonStyle) :
    (∀ events, msg.Streamed events → ∀ uuid draw endpointModel,
      ∃ p r, normalizeResponse uuid draw endpointModel (msg.body style) = some p ∧
        normalizeResponse uuid draw endpointModel (eventText events) = some r ∧ p.ReadsAs r) ↔
      msg.GetsThrough := by
  constructor
  · intro alike
    obtain ⟨p, r, body, stream, same⟩ :=
      alike msg.wholeEvents msg.wholeEvents_streamed "" (fun _ => "") ""
    obtain ⟨p', body', one⟩ := body_tells "" (fun _ => "") "" style msg
    obtain ⟨r', stream', other⟩ := msg.stream_tells_blocks "" (fun _ => "") ""
      (wholeEvents_noPing msg) (wholeBlocks_grown 0 msg.content rfl)
    obtain rfl : p' = p := Option.some.inj (body'.symm.trans body)
    obtain rfl : r' = r := Option.some.inj (stream'.symm.trans stream)
    exact getsThrough_of_pieces ((one.readsAs_iff other).mp same)
  · rintro through events ⟨outputTokens, blocks, rendered, events'⟩ uuid draw endpointModel
    obtain ⟨p, body, one⟩ := body_tells uuid draw endpointModel style msg
    obtain ⟨thought, grown, thinks⟩ := blocks_grown rendered through.blocks
      (rfl : ReplyTally.toolOpen { inputTokens := msg.arrivedInput } = false)
    obtain ⟨r, stream, other⟩ := msg.stream_tells_blocks uuid draw endpointModel events' grown
    refine ⟨p, r, body, stream, (one.readsAs_iff other).mpr ⟨rfl, ?_, ?_, rfl, ?_, ?_⟩⟩
    · rw [thinks fun last found => (through.thought last found).1]
      rfl
    · exact through.unsigned
    · exact through.inputTokens
    · exact through.outputTokens

/-- A thought with a signature, and a text with a separator. -/
def signedReply : AnthropicReply where
  id := "msg_1"
  model := "claude"
  content := [.thinking "hm" (some "sig"), .text "a\u2028b"]
  stopReason := "end_turn"
  inputTokens := 3
  outputTokens := 5

/-- In the stream the signature is passed over and the text is lost. -/
theorem signature_passed_over :
    signedReply.Streamed signedReply.wholeEvents ∧
      ∃ p r, normalizeResponse "0" (fun _ => "0") "m" (signedReply.body .verbatim) = some p ∧
        normalizeResponse "0" (fun _ => "0") "m" (eventText signedReply.wholeEvents) = some r ∧
        p.reasoningSignature.orElse (.str "") = .str "sig" ∧
        r.reasoningSignature.orElse (.str "") = .str "" ∧
        orText p.content "" = "a\u2028b" ∧ orText r.content "" = "" ∧ ¬p.ReadsAs r := by
  obtain ⟨p, body, one⟩ := body_tells "0" (fun _ => "0") "m" .verbatim signedReply
  obtain ⟨r, stream, other⟩ := signedReply.stream_tells_blocks "0" (fun _ => "0") "m"
    (wholeEvents_noPing signedReply) (wholeBlocks_grown 0 signedReply.content rfl)
  have signature : p.reasoningSignature.orElse (.str "") = .str "sig" := one.signature
  have content : orText p.content "" = "a\u2028b" :=
    one.content.trans (by decide +kernel : String.join [_] = _)
  have lost : orText r.content "" = "" :=
    other.content.trans (by decide +kernel : String.join ([_].map pieceOf) = "")
  refine ⟨signedReply.wholeEvents_streamed, p, r, body, stream, signature, other.signature,
    content, lost, fun same => ?_⟩
  have signatures := same.signature
  rw [signature, other.signature] at signatures
  exact absurd (str.inj signatures) (by decide)

end DuraLLM
