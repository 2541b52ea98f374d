import DuraLLM.Protocol.OpenAIReassembly

/-! # Streams with torn lines

An answer is recovered from every stream of it exactly when no text in it holds
a line separator that a chunk may hold as it is.  Such a chunk is torn into
lines of which none counts, and what it carries is lost without an error.
-/

namespace DuraLLM

open Text JsonRaw

/-! ## The end of a reading -/

theorem finalToolCalls_range {s : SseState} {a : Reassembly} (stands : StandsFor s a) {n : Nat}
    (known : ∀ k, (a.calls k).isSome ↔ k < n) :
    s.finalToolCalls = (List.range n).map fun k =>
      SseState.finalToolCall (((a.calls k).map CallParts.streamed).getD {}) := by
  have member (key : Int) : key ∈ s.toolCallsMap.keys ↔ key ∈ (List.range n).map Int.ofNat := by
    have present : key ∈ s.toolCallsMap.keys ↔ s.toolCallsMap.get key ≠ none := by
      simp [Dict.get_eq_none_iff]
    rw [present]
    cases key with
    | negSucc k => simp [stands.indices (Int.negSucc k) (by omega)]
    | ofNat k =>
        have some := known k
        rw [Option.isSome_iff_ne_none] at some
        simp [stands.calls k, some]
  have distinct : ((List.range n).map Int.ofNat).Nodup :=
    List.nodup_range.map Int.ofNat_injective
  have increasing : ((List.range n).map Int.ofNat).Pairwise (· ≤ ·) := by
    rw [List.pairwise_map]
    exact List.pairwise_le_range.imp fun le => Int.ofNat_le.mpr le
  have inOrder : (s.toolCallsMap.keys.mergeSort (· ≤ ·)).Pairwise (· ≤ ·) := by
    have trans (i j k : Int) (first : decide (i ≤ j) = true) (second : decide (j ≤ k) = true) :
        decide (i ≤ k) = true := by
      simp only [decide_eq_true_eq] at first second ⊢
      omega
    have total (j k : Int) : (decide (j ≤ k) || decide (k ≤ j)) = true := by
      simp only [Bool.or_eq_true, decide_eq_true_eq]
      omega
    simpa using List.pairwise_mergeSort trans total s.toolCallsMap.keys
  have perm := (List.mergeSort_perm s.toolCallsMap.keys (· ≤ ·)).trans
    ((List.perm_ext_iff_of_nodup s.toolCallsMap.nodupKeys distinct).mpr member)
  have keys := perm.eq_of_pairwise (fun _ _ _ _ => Int.le_antisymm) inOrder increasing
  rw [SseState.finalToolCalls, keys, List.map_map]
  refine List.map_congr_left fun k _ => ?_
  simp only [Function.comp_apply, Int.ofNat_eq_natCast, stands.calls k]

/-- What a reading that stands for something gives. -/
theorem response_of_stands {s : SseState} {a : Reassembly} (stands : StandsFor s a) :
    ∃ r, s.response = some r ∧ orText r.content "" = a.content ∧
      orText r.reasoningContent "" = a.reasoning ∧ r.toolCalls = s.finalToolCalls ∧
      r.finishReason = .str a.finish := by
  obtain ⟨contents, sameContent, joinedContent⟩ := stands.content
  obtain ⟨reasonings, sameReasoning, joinedReasoning⟩ := stands.reasoning
  obtain ⟨content, content_eq, contentText⟩ := joinParts_texts contents
  obtain ⟨reasoning, reasoning_eq, reasoningText⟩ := joinParts_texts reasonings
  rw [← sameContent] at content_eq
  rw [← sameReasoning] at reasoning_eq
  refine ⟨_, by simp only [SseState.response, content_eq, reasoning_eq]; rfl, ?_, ?_, rfl,
    stands.finish⟩
  · rw [contentText, joinedContent]
  · rw [reasoningText, joinedReasoning]

/-! ## What the fragments add up to -/

section Sums

variable (draw : Int → String)

/-- The fragments of one tool call. -/
def fragments (deltas : List ChoiceDelta) (k : Nat) : List CallDelta :=
  (deltas.flatMap (·.calls)).filter (·.index = k)

theorem addCalls_texts (a : Reassembly) (calls : List CallDelta) :
    calls.foldl (Reassembly.addCall draw) a =
      { a with calls := (calls.foldl (Reassembly.addCall draw) a).calls } := by
  induction calls generalizing a with
  | nil => rfl
  | cons d calls ih => rw [List.foldl_cons, ih]; rfl

theorem addCalls_calls (a : Reassembly) (calls : List CallDelta) (k : Nat) :
    (calls.foldl (Reassembly.addCall draw) a).calls k =
      (calls.filter (·.index = k)).foldl (fun call d => some (CallParts.add draw d call))
        (a.calls k) := by
  induction calls generalizing a with
  | nil => rfl
  | cons d calls ih =>
      rw [List.foldl_cons, ih]
      by_cases here : d.index = k
      · subst here
        simp [Reassembly.addCall]
      · simp [Reassembly.addCall, here, Function.update_of_ne (Ne.symm here)]

theorem addChoices_content (a : Reassembly) (deltas : List ChoiceDelta) :
    (deltas.foldl (Reassembly.addChoice draw) a).content =
      a.content ++ String.join (deltas.map fun d => orText d.content "") := by
  induction deltas generalizing a with
  | nil => simp
  | cons d deltas ih =>
      rw [List.foldl_cons, ih, Reassembly.addChoice, addCalls_texts]
      simp [String.append_assoc]

theorem addChoices_reasoning (a : Reassembly) (deltas : List ChoiceDelta) :
    (deltas.foldl (Reassembly.addChoice draw) a).reasoning =
      a.reasoning ++ String.join (deltas.map fun d => orText d.reasoning "") := by
  induction deltas generalizing a with
  | nil => simp
  | cons d deltas ih =>
      rw [List.foldl_cons, ih, Reassembly.addChoice, addCalls_texts]
      simp [String.append_assoc]

theorem addChoices_finish (a : Reassembly) (deltas : List ChoiceDelta) :
    (deltas.foldl (Reassembly.addChoice draw) a).finish =
      (deltas.filterMap (·.finish)).foldl (fun kept given => orText (some given) kept)
        a.finish := by
  induction deltas generalizing a with
  | nil => rfl
  | cons d deltas ih =>
      rw [List.foldl_cons, ih, Reassembly.addChoice, addCalls_texts]
      cases finish : d.finish <;> simp [finish, orText]

theorem addChoices_calls (a : Reassembly) (deltas : List ChoiceDelta) (k : Nat) :
    (deltas.foldl (Reassembly.addChoice draw) a).calls k =
      (fragments deltas k).foldl (fun call d => some (CallParts.add draw d call)) (a.calls k) := by
  induction deltas generalizing a with
  | nil => rfl
  | cons d deltas ih =>
      rw [List.foldl_cons, ih, Reassembly.addChoice, addCalls_calls, fragments, fragments,
        List.flatMap_cons, List.filter_append, List.foldl_append]

end Sums

/-! ## Renderings -/

/-- The fragments of a tool call: the first of them has its id. -/
structure FragmentsOf (tc : NormalizedToolCall JsonValue) (parts : List CallDelta) : Prop where
  first : ∃ d rest, parts = d :: rest ∧ d.id = some tc.id ∧ ∀ other ∈ rest, other.id = none
  name : String.join (parts.map fun d => orText d.name "") = tc.name
  arguments : String.join (parts.map fun d => orText d.arguments "") = argumentsText .spaced tc

/-- The chunks of a stream carry this answer, in fragments of any size. -/
structure Renders (chunks : List StreamChunk) (resp : NormalizedResponse JsonValue) : Prop where
  content : String.join ((chunks.flatMap (·.choices)).map fun d => orText d.content "") =
    orText resp.content ""
  reasoning : String.join ((chunks.flatMap (·.choices)).map fun d => orText d.reasoning "") =
    orText resp.reasoningContent ""
  calls : ∀ k tc, resp.toolCalls[k]? = some tc →
    FragmentsOf tc (fragments (chunks.flatMap (·.choices)) k)
  indices : ∀ k, resp.toolCalls.length ≤ k → fragments (chunks.flatMap (·.choices)) k = []
  finish : (chunks.flatMap (·.choices)).filterMap (·.finish) = [resp.finishReason]

/-- A tool call as it was sent. -/
def sentCall (tc : NormalizedToolCall JsonValue) : SseToolCall :=
  { id := .str tc.id
    name := .str tc.name
    arguments := tc.arguments
    rawArguments := argumentsText .spaced tc }

/-- The answer has come back; an empty text counts as none. -/
structure Recovered (resp : NormalizedResponse JsonValue) (r : SseResponse) : Prop where
  content : orText r.content "" = orText resp.content ""
  reasoning : orText r.reasoningContent "" = orText resp.reasoningContent ""
  toolCalls : r.toolCalls = resp.toolCalls.map sentCall
  finish : r.finishReason = .str resp.finishReason

/-- No text of the answer tears a line, and it says why it ended. -/
structure LineSafe (resp : NormalizedResponse JsonValue) : Prop where
  content : JsonString.Untorn (orText resp.content "")
  reasoning : JsonString.Untorn (orText resp.reasoningContent "")
  calls : ∀ tc ∈ resp.toolCalls, JsonString.Untorn tc.id ∧ JsonString.Untorn tc.name ∧
    JsonString.Untorn (argumentsText .spaced tc)
  finish : JsonString.Untorn resp.finishReason
  ended : resp.finishReason ≠ ""

/-- The parts that a tool call is put together to. -/
def partsOf (tc : NormalizedToolCall JsonValue) : CallParts :=
  { id := tc.id, name := tc.name, args := argumentsText .spaced tc }

theorem add_rest (draw : Int → String) (call : CallParts) {rest : List CallDelta}
    (anonymous : ∀ d ∈ rest, d.id = none) :
    rest.foldl (fun call d => some (CallParts.add draw d call)) (some call) =
      some { id := call.id
             name := call.name ++ String.join (rest.map fun d => orText d.name "")
             args := call.args ++ String.join (rest.map fun d => orText d.arguments "") } := by
  induction rest generalizing call with
  | nil => simp
  | cons d rest ih =>
      have noId : d.id = none := anonymous d List.mem_cons_self
      rw [List.foldl_cons, ih _ fun other member => anonymous other (List.mem_cons_of_mem d member)]
      simp [CallParts.add, noId, orText, String.append_assoc]

theorem FragmentsOf.add {tc : NormalizedToolCall JsonValue} {parts : List CallDelta}
    (whole : FragmentsOf tc parts) (named : tc.id ≠ "") (draw : Int → String) :
    parts.foldl (fun call d => some (CallParts.add draw d call)) none = some (partsOf tc) := by
  obtain ⟨d, rest, rfl, id, anonymous⟩ := whole.first
  have name := whole.name
  have arguments := whole.arguments
  rw [List.map_cons, String.join_cons] at name arguments
  rw [List.foldl_cons, add_rest draw _ anonymous]
  simp [CallParts.add, partsOf, id, orText, named, ← name, ← arguments]

theorem finalToolCall_partsOf {tc : NormalizedToolCall JsonValue} (decodes : TextDecodes tc) :
    SseState.finalToolCall (partsOf tc).streamed = sentCall tc := by
  simp [SseState.finalToolCall, partsOf, CallParts.streamed, sentCall,
    loads_argumentsText .spaced decodes, argumentsText_ne .spaced decodes]

/-! ## Streams of whole lines -/

/-- What the chunks carry is what was sent. -/
theorem Renders.recovered {chunks : List StreamChunk} {resp : NormalizedResponse JsonValue}
    (renders : Renders chunks resp) (ids : ∀ tc ∈ resp.toolCalls, tc.id ≠ "")
    (decodes : ∀ tc ∈ resp.toolCalls, TextDecodes tc) (ended : resp.finishReason ≠ "")
    {draw : Int → String} {s : SseState}
    (stands : StandsFor s ((chunks.flatMap (·.choices)).foldl (Reassembly.addChoice draw) {})) :
    ∃ r, s.response = some r ∧ Recovered resp r := by
  obtain ⟨r, given, content, reasoning, toolCalls, finish⟩ := response_of_stands stands
  have call (k : Nat) :
      ((chunks.flatMap (·.choices)).foldl (Reassembly.addChoice draw) {}).calls k =
        resp.toolCalls[k]?.map partsOf := by
    rw [addChoices_calls]
    cases found : resp.toolCalls[k]? with
    | none => rw [renders.indices k (List.getElem?_eq_none_iff.mp found)]; rfl
    | some tc =>
        have named := ids tc (List.mem_of_getElem? found)
        exact (renders.calls k tc found).add named draw
  refine ⟨r, given, ?_, ?_, ?_, ?_⟩
  · rw [content, addChoices_content, renders.content, String.empty_append]
  · rw [reasoning, addChoices_reasoning, renders.reasoning, String.empty_append]
  · rw [toolCalls, finalToolCalls_range stands (n := resp.toolCalls.length) fun k => by simp [call]]
    apply List.ext_getElem (by simp)
    intro k inRange _
    have inside : k < resp.toolCalls.length := by simpa using inRange
    simp [call, inside, finalToolCall_partsOf (decodes _ (List.getElem_mem inside))]
  · rw [finish, addChoices_finish, renders.finish]
    simp [orText, ended]

/-- No text in the fragments tears a line. -/
structure ChoiceDelta.Safe (d : ChoiceDelta) : Prop where
  content : ∀ text ∈ d.content, JsonString.Untorn text
  reasoning : ∀ text ∈ d.reasoning, JsonString.Untorn text
  calls : ∀ call ∈ d.calls, (∀ text ∈ call.id, JsonString.Untorn text) ∧
    (∀ text ∈ call.name, JsonString.Untorn text) ∧ ∀ text ∈ call.arguments, JsonString.Untorn text
  finish : ∀ text ∈ d.finish, JsonString.Untorn text

theorem untorn_optionalMember {key : String} {text : Option String}
    (name : JsonString.Untorn key) (safe : ∀ t ∈ text, JsonString.Untorn t) :
    UntornMembers (optionalMember key text) := by
  cases text with
  | none => trivial
  | some text => exact ⟨name, safe text rfl, trivial⟩

theorem CallDelta.untorn_payload {call : CallDelta} (id : ∀ text ∈ call.id, JsonString.Untorn text)
    (name : ∀ text ∈ call.name, JsonString.Untorn text)
    (arguments : ∀ text ∈ call.arguments, JsonString.Untorn text) : call.payload.Untorn := by
  have function : UntornMembers call.function := by
    rw [CallDelta.function, untornMembers_append]
    exact ⟨untorn_optionalMember (by decide) name, untorn_optionalMember (by decide) arguments⟩
  have type : JsonString.Untorn "type" ∧ JsonString.Untorn "function" := by decide
  simp only [payload, Untorn, UntornMembers, untornMembers_append]
  refine ⟨by decide, trivial, ⟨untorn_optionalMember (by decide) id, ?_⟩, ?_⟩
  · split
    · exact ⟨type.1, type.2, trivial⟩
    · trivial
  · split
    · trivial
    · exact ⟨type.2, function, trivial⟩

theorem ChoiceDelta.Safe.untorn_payload {d : ChoiceDelta} (safe : d.Safe) : d.payload.Untorn := by
  have calls : ∀ call ∈ d.calls, call.payload.Untorn := fun call member =>
    CallDelta.untorn_payload (safe.calls call member).1 (safe.calls call member).2.1
      (safe.calls call member).2.2
  have delta : UntornMembers d.delta := by
    simp only [ChoiceDelta.delta, untornMembers_append]
    refine ⟨?_, untorn_optionalMember (by decide) safe.content,
      untorn_optionalMember (by decide) safe.reasoning, ?_⟩
    · split
      · exact ⟨by decide, (by decide : JsonString.Untorn "assistant"), trivial⟩
      · trivial
    · split
      · trivial
      · exact ⟨by decide, untornItems_map.mpr calls, trivial⟩
  have finish : ((d.finish.map JsonRaw.str).getD null).Untorn := by
    cases finish : d.finish with
    | none => trivial
    | some text => exact safe.finish text finish
  exact ⟨by decide, trivial, by decide, delta, by decide, finish, trivial⟩

theorem StreamChunk.untorn_of_safe {chunk : StreamChunk} (safe : ∀ d ∈ chunk.choices, d.Safe) :
    UntornMembers chunk.members := by
  have choices := untornItems_map.mpr fun d member => (safe d member).untorn_payload
  have usage : UntornMembers (chunk.usage.toList.map fun usage => ("usage",
      JsonRaw.obj [("prompt_tokens", int usage.1), ("completion_tokens", int usage.2)])) := by
    cases chunk.usage with
    | none => trivial
    | some usage => exact ⟨by decide, ⟨by decide, trivial, by decide, trivial, trivial⟩, trivial⟩
  rw [StreamChunk.members, untornMembers_append]
  have object : JsonString.Untorn "chat.completion.chunk" := by decide
  exact ⟨⟨by decide, chunk.wholeId, by decide, object, by decide, trivial, by decide,
    chunk.wholeModel, by decide, choices, trivial⟩, usage⟩

/-- A part of a safe text is safe. -/
theorem untorn_part {α : Type} {part : α → Option String} {parts : List α} {whole : String}
    (joined : String.join (parts.map fun d => orText (part d) "") = whole)
    (safe : JsonString.Untorn whole) {d : α} (member : d ∈ parts) :
    ∀ text ∈ part d, JsonString.Untorn text := by
  intro text given c inside
  apply safe c
  have same : orText (part d) "" = text := by
    rw [given]
    by_cases empty : text = "" <;> simp [orText, empty]
  rw [← joined, String.toList_join, List.mem_flatMap]
  exact ⟨text, List.mem_map.mpr ⟨d, member, same⟩, inside⟩

theorem Renders.safe {chunks : List StreamChunk} {resp : NormalizedResponse JsonValue}
    (renders : Renders chunks resp) (safe : LineSafe resp) :
    ∀ d ∈ chunks.flatMap (·.choices), d.Safe := by
  intro d member
  constructor
  · exact untorn_part renders.content safe.content member
  · exact untorn_part renders.reasoning safe.reasoning member
  · intro call inside
    have own : call ∈ fragments (chunks.flatMap (·.choices)) call.index := by
      simp only [fragments, List.mem_filter, List.mem_flatMap, decide_true, and_true]
      exact ⟨d, List.mem_flatMap.mp member, inside⟩
    cases found : resp.toolCalls[call.index]? with
    | none =>
        rw [renders.indices _ (List.getElem?_eq_none_iff.mp found)] at own
        cases own
    | some tc =>
        have whole := renders.calls _ tc found
        have texts := safe.calls tc (List.mem_of_getElem? found)
        refine ⟨?_, untorn_part whole.name texts.2.1 own, untorn_part whole.arguments texts.2.2 own⟩
        intro text given
        obtain ⟨first, rest, parts, id, anonymous⟩ := whole.first
        rw [parts] at own
        cases List.mem_cons.mp own with
        | inl same =>
            rw [same, id] at given
            exact Option.some.inj given ▸ texts.1
        | inr later => cases (anonymous call later).symm.trans given
  · intro text given
    have listed : text ∈ (chunks.flatMap (·.choices)).filterMap (·.finish) :=
      List.mem_filterMap.mpr ⟨d, member, given⟩
    rw [renders.finish, List.mem_singleton] at listed
    exact listed ▸ safe.finish

theorem fresh_stands (uuid defaultModel : String) :
    StandsFor { responseId := .str ("resp_" ++ uuid), model := .str defaultModel } {} :=
  ⟨⟨[], rfl, rfl⟩, ⟨[], rfl, rfl⟩, rfl, fun _ => rfl, fun _ _ => rfl⟩

/-- From whole lines the answer is recovered. -/
theorem stream_recovered {chunks : List StreamChunk} {resp : NormalizedResponse JsonValue}
    (renders : Renders chunks resp) (intact : ∀ chunk ∈ chunks, chunk.Intact)
    (ids : ∀ tc ∈ resp.toolCalls, tc.id ≠ "") (decodes : ∀ tc ∈ resp.toolCalls, TextDecodes tc)
    (ended : resp.finishReason ≠ "") (uuid : String) (draw : Int → String) (defaultModel : String) :
    ∃ r, sseChunksToIr uuid draw (streamText chunks) defaultModel = some r ∧ Recovered resp r := by
  obtain ⟨s, read, stands⟩ := readLines_stream draw intact (fresh_stands uuid defaultModel)
  obtain ⟨r, given, recovered⟩ := renders.recovered ids decodes ended stands
  refine ⟨r, ?_, recovered⟩
  rw [sseChunksToIr, read]
  exact given

/-! ## Torn streams -/

/-- None of the lines of the chunk counts. -/
def StreamChunk.Lost (chunk : StreamChunk) : Prop :=
  ∀ rest, ∃ pieces, lines (chunk.frame.toList ++ rest) = pieces ++ lines rest ∧
    ∀ piece ∈ pieces, Hollow (String.ofList piece)

/-- A lost chunk takes nothing with it but what it carries, or everything that follows. -/
theorem readLines_lost (draw : Int → String) {s : SseState} {a : Reassembly}
    {bad good : StreamChunk} (lost : bad.Lost) (intact : good.Intact) (stands : StandsFor s a) :
    ∃ s' a', s.readLines draw (splitlines (streamText [bad, good])) = some s' ∧ StandsFor s' a' ∧
      (a' = a ∨ a' = good.choices.foldl (Reassembly.addChoice draw) a) := by
  have chars : (streamText [bad, good]).toList =
      bad.frame.toList ++ (streamText [good]).toList := by
    simp [streamText_chars]
  obtain ⟨pieces, split, hollow⟩ := lost (streamText [good]).toList
  obtain ⟨s', read, stands'⟩ :=
    readLines_stream draw (show ∀ chunk ∈ [good], chunk.Intact by simpa using intact) stands
  rw [List.flatMap_cons, List.flatMap_nil, List.append_nil] at stands'
  rw [splitlines, chars, split, List.map_append]
  rcases readLines_pieces (s := s) draw hollow (splitlines (streamText [good])) with passed | ended
  · exact ⟨s', _, passed.trans read, stands', .inr rfl⟩
  · exact ⟨s, a, ended, stands, .inl rfl⟩

/-- A stream of nothing but a lost chunk leaves the reader as it was. -/
theorem readLines_only_lost (draw : Int → String) (s : SseState) {bad : StreamChunk}
    (lost : bad.Lost) : s.readLines draw (splitlines (streamText [bad])) = some s := by
  have chars : (streamText [bad]).toList = bad.frame.toList ++ (dataFrame "[DONE]").toList := by
    simp [streamText_chars]
  obtain ⟨pieces, split, hollow⟩ := lost (dataFrame "[DONE]").toList
  rw [splitlines, chars, split, List.map_append]
  rcases readLines_pieces (s := s) draw hollow _ with passed | ended
  · exact passed.trans (readLines_done draw s)
  · exact ended

/-- A chunk with one fragment of every kind. -/
def plainChunk (style : JsonStyle) (d : ChoiceDelta) : StreamChunk where
  style := style
  id := ""
  model := ""
  created := 0
  choices := [d]
  wholeId := by decide
  wholeModel := by decide

/-- The answer that is recovered from a stream with a lost chunk. -/
theorem recovered_lost {resp : NormalizedResponse JsonValue} {bad good : ChoiceDelta}
    (recovers : ∀ chunks, Renders chunks resp → ∀ uuid draw defaultModel,
      ∃ r, sseChunksToIr uuid draw (streamText chunks) defaultModel = some r ∧ Recovered resp r)
    (renders : Renders [plainChunk .verbatim bad, plainChunk .compact good] resp)
    (lost : (plainChunk .verbatim bad).Lost) :
    ∃ s a, StandsFor s a ∧ (a = {} ∨ a = Reassembly.addChoice (fun _ => "") {} good) ∧
      a.content = orText resp.content "" ∧ a.reasoning = orText resp.reasoningContent "" ∧
      a.finish = resp.finishReason ∧ s.finalToolCalls = resp.toolCalls.map sentCall := by
  obtain ⟨r, read, recovered⟩ := recovers _ renders "" (fun _ => "") ""
  obtain ⟨s, a, final, stands, cases⟩ := readLines_lost (fun _ => "") lost
    (.inl rfl : (plainChunk .compact good).Intact) (fresh_stands "" "")
  obtain ⟨r', given, content, reasoning, toolCalls, finish⟩ := response_of_stands stands
  rw [sseChunksToIr, final] at read
  obtain rfl : r' = r := Option.some.inj (given.symm.trans read)
  refine ⟨s, a, stands, cases, ?_, ?_, ?_, ?_⟩
  · rw [← content, recovered.content]
  · rw [← reasoning, recovered.reasoning]
  · exact JsonRaw.str.inj (finish.symm.trans recovered.finish)
  · rw [← toolCalls, recovered.toolCalls]

/-! ## Where the texts stand in a chunk -/

theorem plainChunk_lost {d : String → ChoiceDelta} {tail : List Char}
    (hole : Hole (fun s => (d s).payload) id fun _ => tail) (safe : (d "").Safe)
    (silent : 'd' ∉ tail) (noKey : NoKey (tail ++ [']', '\x7d'])) {s : String}
    (torn : ¬JsonString.Untorn s) : (plainChunk .verbatim (d s)).Lost := by
  have whole : Hole (fun s => obj (plainChunk .verbatim (d s)).members) id
      fun _ => tail ++ [']'] ++ ['\x7d'] :=
    hole.item.member [("id", .str ""), ("object", .str "chat.completion.chunk"),
      ("created", int 0), ("model", .str "")] "choices" fun _ => []
  have untorn : UntornMembers (plainChunk .verbatim (d "")).members :=
    StreamChunk.untorn_of_safe (by simpa [plainChunk] using safe)
  intro rest
  exact lines_torn_hole whole ⟨"", rfl, untorn⟩ (mute_of_letter (by simpa using silent))
    (by simpa using noKey) torn rest

theorem content_lost {s : String} (torn : ¬JsonString.Untorn s) :
    (plainChunk .verbatim { content := some s }).Lost := by
  have hole : Hole (fun s => ({ content := some s } : ChoiceDelta).payload) id _ :=
    ((hole_str id).member [] "content" fun _ => []).member [("index", int 0)] "delta"
      fun _ => [("finish_reason", null)]
  have safe : ({ content := some "" } : ChoiceDelta).Safe :=
    ⟨by rintro _ ⟨⟩; decide, by simp, by simp, by simp⟩
  exact plainChunk_lost hole safe (by decide) (by decide) torn

theorem reasoning_lost {s : String} (torn : ¬JsonString.Untorn s) :
    (plainChunk .verbatim { reasoning := some s }).Lost := by
  have hole : Hole (fun s => ({ reasoning := some s } : ChoiceDelta).payload) id _ :=
    ((hole_str id).member [] "reasoning_content" fun _ => []).member [("index", int 0)] "delta"
      fun _ => [("finish_reason", null)]
  have safe : ({ reasoning := some "" } : ChoiceDelta).Safe :=
    ⟨by simp, by rintro _ ⟨⟩; decide, by simp, by simp⟩
  exact plainChunk_lost hole safe (by decide) (by decide) torn

theorem finish_lost {s : String} (torn : ¬JsonString.Untorn s) :
    (plainChunk .verbatim { finish := some s }).Lost := by
  have hole : Hole (fun s => ({ finish := some s } : ChoiceDelta).payload) id _ :=
    (hole_str id).member [("index", int 0), ("delta", .obj [])] "finish_reason" fun _ => []
  have safe : ({ finish := some "" } : ChoiceDelta).Safe :=
    ⟨by simp, by simp, by simp, by rintro _ ⟨⟩; decide⟩
  exact plainChunk_lost hole safe (by decide) (by decide) torn

section Calls

variable {k : Nat} {callId s : String}

theorem call_hole {call : String → CallDelta} {tail : List Char}
    (hole : Hole (fun s => (call s).payload) id fun _ => tail) :
    Hole (fun s => ({ calls := [call s] } : ChoiceDelta).payload) id fun _ =>
      tail ++ [']'] ++ ['\x7d'] ++ writeMembers .verbatim [("finish_reason", null)] :=
  (hole.item.member [] "tool_calls" fun _ => []).member [("index", int 0)] "delta"
    fun _ => [("finish_reason", null)]

theorem id_lost (torn : ¬JsonString.Untorn s) :
    (plainChunk .verbatim { calls := [{ index := k, id := some s }] }).Lost := by
  have hole : Hole (fun s => ({ index := k, id := some s } : CallDelta).payload) id _ :=
    (hole_str id).member [("index", int k)] "id" fun _ => [("type", .str "function")]
  have safe : ({ calls := [{ index := k, id := some "" }] } : ChoiceDelta).Safe :=
    ⟨by simp, by simp, by simp; decide, by simp⟩
  exact plainChunk_lost (call_hole hole) safe (by decide) (by decide) torn

theorem name_lost (untorn : JsonString.Untorn callId) (torn : ¬JsonString.Untorn s) :
    (plainChunk .verbatim
      { calls := [{ index := k, id := some callId, name := some s }] }).Lost := by
  have hole : Hole
      (fun s => ({ index := k, id := some callId, name := some s } : CallDelta).payload) id _ :=
    ((hole_str id).member [] "name" fun _ => []).member
      [("index", int k), ("id", .str callId), ("type", .str "function")] "function" fun _ => []
  have empty : JsonString.Untorn "" := by decide
  have safe :
      ({ calls := [{ index := k, id := some callId, name := some "" }] } : ChoiceDelta).Safe :=
    ⟨by simp, by simp, by simp [untorn, empty], by simp⟩
  exact plainChunk_lost (call_hole hole) safe (by decide) (by decide) torn

theorem arguments_lost (untorn : JsonString.Untorn callId) (torn : ¬JsonString.Untorn s) :
    (plainChunk .verbatim
      { calls := [{ index := k, id := some callId, arguments := some s }] }).Lost := by
  have hole : Hole (fun s =>
      ({ index := k, id := some callId, arguments := some s } : CallDelta).payload) id _ :=
    ((hole_str id).member [] "arguments" fun _ => []).member
      [("index", int k), ("id", .str callId), ("type", .str "function")] "function" fun _ => []
  have empty : JsonString.Untorn "" := by decide
  have safe :
      ({ calls := [{ index := k, id := some callId, arguments := some "" }] } : ChoiceDelta).Safe :=
    ⟨by simp, by simp, by simp [untorn, empty], by simp⟩
  exact plainChunk_lost (call_hole hole) safe (by decide) (by decide) torn

end Calls

/-! ## Two chunks -/

/-- One fragment for each tool call. -/
def numberedCalls (part : Nat → NormalizedToolCall JsonValue → CallDelta) (idx : Nat) :
    List (NormalizedToolCall JsonValue) → List CallDelta
  | [] => []
  | tc :: calls => part idx tc :: numberedCalls part (idx + 1) calls

section Numbered

variable {part : Nat → NormalizedToolCall JsonValue → CallDelta}
  (own : ∀ idx tc, (part idx tc).index = idx)

include own

theorem numberedCalls_below (calls : List (NormalizedToolCall JsonValue)) {idx k : Nat}
    (below : k < idx) : (numberedCalls part idx calls).filter (·.index = k) = [] := by
  induction calls generalizing idx with
  | nil => rfl
  | cons tc calls ih =>
      have other : (part idx tc).index ≠ k := by
        rw [own]
        omega
      rw [numberedCalls, List.filter_cons_of_neg (by simpa using other), ih (by omega)]

theorem numberedCalls_filter (calls : List (NormalizedToolCall JsonValue)) (idx k : Nat) :
    (numberedCalls part idx calls).filter (·.index = idx + k) =
      calls[k]?.toList.map (part (idx + k)) := by
  induction calls generalizing idx k with
  | nil => rfl
  | cons tc calls ih =>
      cases k with
      | zero =>
          rw [numberedCalls, List.filter_cons_of_pos (by simp [own]),
            numberedCalls_below own calls (by omega)]
          rfl
      | succ k =>
          have other : (part idx tc).index ≠ idx + (k + 1) := by
            rw [own]
            omega
          have later := ih (idx + 1) k
          rw [show idx + 1 + k = idx + (k + 1) by omega] at later
          rw [numberedCalls, List.filter_cons_of_neg (by simpa using other), later]
          rfl

/-- The fragments of one call among those of all. -/
theorem fragments_numbered {d : ChoiceDelta} {resp : NormalizedResponse JsonValue}
    (calls : d.calls = numberedCalls part 0 resp.toolCalls) (k : Nat) :
    d.calls.filter (·.index = k) = resp.toolCalls[k]?.toList.map (part k) := by
  have all := numberedCalls_filter own resp.toolCalls 0 k
  rwa [Nat.zero_add, ← calls] at all

end Numbered

def wholeCall (idx : Nat) (tc : NormalizedToolCall JsonValue) : CallDelta :=
  { index := idx
    id := some tc.id
    name := some tc.name
    arguments := some (argumentsText .spaced tc) }

/-- All calls whole, but for one of which only a part is sent. -/
def partCall (k : Nat) (part : CallDelta) (idx : Nat) (tc : NormalizedToolCall JsonValue) :
    CallDelta :=
  if idx = k then { part with index := idx } else wholeCall idx tc

theorem fragmentsOf_whole (idx : Nat) (tc : NormalizedToolCall JsonValue) :
    FragmentsOf tc [wholeCall idx tc] :=
  ⟨⟨_, [], rfl, rfl, by simp⟩, by simp [wholeCall, orText_some], by simp [wholeCall, orText_some]⟩

theorem renders_two {resp : NormalizedResponse JsonValue} {bad good : ChoiceDelta}
    (content : orText bad.content "" ++ orText good.content "" = orText resp.content "")
    (reasoning : orText bad.reasoning "" ++ orText good.reasoning "" =
      orText resp.reasoningContent "")
    (finish : bad.finish.toList ++ good.finish.toList = [resp.finishReason])
    (calls : ∀ k tc, resp.toolCalls[k]? = some tc →
      FragmentsOf tc (bad.calls.filter (·.index = k) ++ good.calls.filter (·.index = k)))
    (indices : ∀ k, resp.toolCalls.length ≤ k →
      bad.calls.filter (·.index = k) ++ good.calls.filter (·.index = k) = []) :
    Renders [plainChunk .verbatim bad, plainChunk .compact good] resp := by
  constructor
  · simpa [plainChunk] using content
  · simpa [plainChunk] using reasoning
  · simpa [plainChunk, fragments] using calls
  · simpa [plainChunk, fragments] using indices
  · have both : ([plainChunk .verbatim bad, plainChunk .compact good].flatMap (·.choices)).filterMap
        (·.finish) = bad.finish.toList ++ good.finish.toList := by
      cases first : bad.finish <;> cases second : good.finish <;> simp [plainChunk, first, second]
    rw [both, finish]

/-- The calls are whole in the second chunk. -/
theorem renders_texts {resp : NormalizedResponse JsonValue} {bad good : ChoiceDelta}
    (content : orText bad.content "" ++ orText good.content "" = orText resp.content "")
    (reasoning : orText bad.reasoning "" ++ orText good.reasoning "" =
      orText resp.reasoningContent "")
    (finish : bad.finish.toList ++ good.finish.toList = [resp.finishReason])
    (silent : bad.calls = []) (calls : good.calls = numberedCalls wholeCall 0 resp.toolCalls) :
    Renders [plainChunk .verbatim bad, plainChunk .compact good] resp := by
  have numbered := fragments_numbered
    (fun _ _ => rfl : ∀ idx tc, (wholeCall idx tc).index = idx) calls
  apply renders_two content reasoning finish
  · intro k tc found
    rw [silent, numbered, found]
    exact fragmentsOf_whole k tc
  · intro k large
    rw [silent, numbered, List.getElem?_eq_none large]
    rfl

/-- The call is in two parts. -/
theorem renders_parts {resp : NormalizedResponse JsonValue} {k : Nat}
    {tc : NormalizedToolCall JsonValue} (found : resp.toolCalls[k]? = some tc)
    {first second : CallDelta} (index : first.index = k) (id : first.id = some tc.id)
    (anonymous : second.id = none)
    (name : orText first.name "" ++ orText second.name "" = tc.name)
    (arguments : orText first.arguments "" ++ orText second.arguments "" =
      argumentsText .spaced tc) :
    Renders [plainChunk .verbatim { calls := [first] }, plainChunk .compact
      { content := resp.content, reasoning := resp.reasoningContent
        calls := numberedCalls (partCall k second) 0 resp.toolCalls
        finish := some resp.finishReason }] resp := by
  have own (idx : Nat) (tc : NormalizedToolCall JsonValue) :
      (partCall k second idx tc).index = idx := by
    unfold partCall
    split <;> rfl
  have numbered (i : Nat) := numberedCalls_filter own resp.toolCalls 0 i
  simp only [Nat.zero_add] at numbered
  have inside : k < resp.toolCalls.length := (List.getElem?_eq_some_iff.mp found).1
  apply renders_two
  · exact String.empty_append
  · exact String.empty_append
  · rfl
  · intro i tc' found'
    rw [numbered, found']
    by_cases same : i = k
    · subst same
      obtain rfl : tc = tc' := Option.some.inj (found.symm.trans found')
      have parts : [first].filter (·.index = i) ++ (some tc).toList.map (partCall i second i) =
          [first, { second with index := i }] := by simp [index, partCall]
      rw [parts]
      exact ⟨⟨_, _, rfl, id, by simp [anonymous]⟩, by simpa using name, by simpa using arguments⟩
    · have parts : [first].filter (·.index = i) ++ (some tc').toList.map (partCall k second i) =
          [wholeCall i tc'] := by simp [index, Ne.symm same, partCall, same]
      rw [parts]
      exact fragmentsOf_whole i tc'
  · intro i large
    have other : i ≠ k := by omega
    rw [numbered, List.getElem?_eq_none large]
    simp [index, Ne.symm other]

/-! ## The answers that always come back -/

theorem addChoice_texts (draw : Int → String) (good : ChoiceDelta) :
    (Reassembly.addChoice draw {} good).content = orText good.content "" ∧
      (Reassembly.addChoice draw {} good).reasoning = orText good.reasoning "" ∧
      (Reassembly.addChoice draw {} good).finish = orText good.finish "stop" := by
  rw [Reassembly.addChoice, addCalls_texts]
  simp

section Necessity

variable {resp : NormalizedResponse JsonValue}
  (recovers : ∀ chunks, Renders chunks resp → ∀ uuid draw defaultModel,
    ∃ r, sseChunksToIr uuid draw (streamText chunks) defaultModel = some r ∧ Recovered resp r)

include recovers

theorem content_untorn : JsonString.Untorn (orText resp.content "") := by
  by_contra torn
  have renders : Renders [plainChunk .verbatim { content := some (orText resp.content "") },
      plainChunk .compact
        { reasoning := resp.reasoningContent, finish := some resp.finishReason
          calls := numberedCalls wholeCall 0 resp.toolCalls }] resp :=
    renders_texts (by rw [orText_some]; exact String.append_empty) String.empty_append rfl rfl rfl
  obtain ⟨s, a, stands, rfl | rfl, content, -⟩ :=
    recovered_lost recovers renders (content_lost torn)
  · exact torn (content ▸ (by decide : JsonString.Untorn ""))
  · rw [(addChoice_texts _ _).1] at content
    exact torn (content ▸ (by decide : JsonString.Untorn ""))

theorem reasoning_untorn : JsonString.Untorn (orText resp.reasoningContent "") := by
  by_contra torn
  have renders : Renders
      [plainChunk .verbatim { reasoning := some (orText resp.reasoningContent "") },
        plainChunk .compact
          { content := resp.content, finish := some resp.finishReason
            calls := numberedCalls wholeCall 0 resp.toolCalls }] resp :=
    renders_texts String.empty_append (by rw [orText_some]; exact String.append_empty) rfl rfl rfl
  obtain ⟨s, a, stands, rfl | rfl, -, reasoning, -⟩ :=
    recovered_lost recovers renders (reasoning_lost torn)
  · exact torn (reasoning ▸ (by decide : JsonString.Untorn ""))
  · rw [(addChoice_texts _ _).2.1] at reasoning
    exact torn (reasoning ▸ (by decide : JsonString.Untorn ""))

theorem finish_untorn : JsonString.Untorn resp.finishReason := by
  by_contra torn
  have renders : Renders [plainChunk .verbatim { finish := some resp.finishReason },
      plainChunk .compact
        { content := resp.content, reasoning := resp.reasoningContent
          calls := numberedCalls wholeCall 0 resp.toolCalls }] resp :=
    renders_texts String.empty_append String.empty_append rfl rfl rfl
  obtain ⟨s, a, stands, rfl | rfl, -, -, finish, -⟩ :=
    recovered_lost recovers renders (finish_lost torn)
  · exact torn (finish ▸ (by decide : JsonString.Untorn "stop"))
  · rw [(addChoice_texts _ _).2.2] at finish
    exact torn (finish ▸ (by decide : JsonString.Untorn "stop"))

/-- Of a call whose first part is lost only the second comes back, under a drawn id. -/
theorem part_recovered {k : Nat} {tc : NormalizedToolCall JsonValue}
    (found : resp.toolCalls[k]? = some tc) {first second : CallDelta} (index : first.index = k)
    (id : first.id = some tc.id) (anonymous : second.id = none)
    (name : orText first.name "" ++ orText second.name "" = tc.name)
    (arguments : orText first.arguments "" ++ orText second.arguments "" =
      argumentsText .spaced tc)
    (lost : (plainChunk .verbatim { calls := [first] }).Lost) :
    tc.id = "call_" ∧ tc.name = orText second.name "" ∧
      argumentsText .spaced tc = orText second.arguments "" := by
  have renders := renders_parts found index id anonymous name arguments
  obtain ⟨s, a, stands, came, -, -, -, calls⟩ := recovered_lost recovers renders lost
  have own (idx : Nat) (tc : NormalizedToolCall JsonValue) :
      (partCall k second idx tc).index = idx := by
    unfold partCall
    split <;> rfl
  have inside : k < resp.toolCalls.length := (List.getElem?_eq_some_iff.mp found).1
  rcases came with rfl | came
  · rw [finalToolCalls_range stands (n := 0) (by simp)] at calls
    have none : resp.toolCalls = [] := by simpa using calls.symm
    simp [none] at inside
  · have call (i : Nat) : a.calls i =
        (resp.toolCalls[i]?.toList.map (partCall k second i)).foldl
          (fun call d => some (CallParts.add (fun _ => "") d call)) none := by
      have numbered := numberedCalls_filter own resp.toolCalls 0 i
      rw [Nat.zero_add] at numbered
      rw [came, ← numbered]
      exact addCalls_calls (fun _ => "") _ _ i
    have known (i : Nat) : (a.calls i).isSome ↔ i < resp.toolCalls.length := by
      rw [call]
      by_cases less : i < resp.toolCalls.length <;> simp [less]
    rw [finalToolCalls_range stands known] at calls
    have same := congrArg (fun calls => calls[k]?) calls
    simp only [List.getElem?_map, List.getElem?_range inside, found, call, Option.map_some,
      Option.toList_some, List.map_cons, List.map_nil, List.foldl_cons, List.foldl_nil,
      Option.getD_some, Option.some.injEq, partCall, if_true, CallParts.add, CallParts.streamed,
      SseState.finalToolCall, sentCall, SseToolCall.mk.injEq, JsonRaw.str.injEq, anonymous] at same
    obtain ⟨drawn, called, -, sent⟩ := same
    exact ⟨drawn.symm, called.symm, sent.symm⟩

theorem call_untorn {tc : NormalizedToolCall JsonValue} (member : tc ∈ resp.toolCalls) :
    JsonString.Untorn tc.id ∧ JsonString.Untorn tc.name ∧
      JsonString.Untorn (argumentsText .spaced tc) := by
  obtain ⟨k, found⟩ := List.mem_iff_getElem?.mp member
  have empty : JsonString.Untorn "" := by decide
  have drawn : JsonString.Untorn "call_" := by decide
  have kept (text : String) : orText none "" ++ orText (some text) "" = text := by
    rw [orText_some]
    exact String.empty_append
  have first (text : String) : orText (some text) "" ++ orText none "" = text := by
    rw [orText_some]
    exact String.append_empty
  have id : JsonString.Untorn tc.id := by
    by_contra torn
    let part : CallDelta := { index := k, id := some tc.id }
    let rest : CallDelta :=
      { index := k, name := some tc.name, arguments := some (argumentsText .spaced tc) }
    have came := part_recovered recovers found (show part.index = k from rfl) rfl
      (show rest.id = none from rfl) (kept _) (kept _) (id_lost torn)
    exact torn (came.1 ▸ drawn)
  refine ⟨id, ?_, ?_⟩
  · by_contra torn
    let part : CallDelta := { index := k, id := some tc.id, name := some tc.name }
    let rest : CallDelta := { index := k, arguments := some (argumentsText .spaced tc) }
    have came := part_recovered recovers found (show part.index = k from rfl) rfl
      (show rest.id = none from rfl) (first _) (kept _) (name_lost id torn)
    exact torn (came.2.1 ▸ empty)
  · by_contra torn
    let part : CallDelta :=
      { index := k, id := some tc.id, arguments := some (argumentsText .spaced tc) }
    let rest : CallDelta := { index := k, name := some tc.name }
    have came := part_recovered recovers found (show part.index = k from rfl) rfl
      (show rest.id = none from rfl) (kept _) (first _) (arguments_lost id torn)
    exact torn (came.2.2 ▸ empty)

/-- An empty reason to stop is replaced. -/
theorem finishReason_ne : resp.finishReason ≠ "" := by
  intro empty
  let good : ChoiceDelta :=
    { content := resp.content, reasoning := resp.reasoningContent
      calls := numberedCalls wholeCall 0 resp.toolCalls, finish := some resp.finishReason }
  have renders : Renders [plainChunk .verbatim {}, plainChunk .compact good] resp :=
    renders_texts String.empty_append String.empty_append rfl rfl rfl
  have intact : ∀ chunk ∈ [plainChunk .verbatim {}, plainChunk .compact good], chunk.Intact := by
    have silent : ∀ d ∈ (plainChunk .verbatim {}).choices, d.Safe := by
      simp only [plainChunk, List.mem_singleton, forall_eq]
      exact ⟨by simp, by simp, by simp, by simp⟩
    simp only [List.mem_cons, List.not_mem_nil, or_false, forall_eq_or_imp, forall_eq]
    exact ⟨.inr (StreamChunk.untorn_of_safe silent), .inl rfl⟩
  obtain ⟨s, read, stands⟩ := readLines_stream (fun _ => "") intact (fresh_stands "" "")
  obtain ⟨r, given, recovered⟩ := recovers _ renders "" (fun _ => "") ""
  obtain ⟨r', answer, -, -, -, finish⟩ := response_of_stands stands
  rw [sseChunksToIr, read] at given
  obtain rfl : r' = r := Option.some.inj (answer.symm.trans given)
  have replaced := finish.symm.trans recovered.finish
  rw [addChoices_finish, renders.finish, empty] at replaced
  exact absurd (JsonRaw.str.inj replaced) (by decide)

end Necessity

/-- An answer comes back from every stream of it, however it is cut and written, exactly when none
    of its texts holds a separator and its reason to stop is not empty. -/
theorem openai_stream_recovered_iff (resp : NormalizedResponse JsonValue)
    (ids : ∀ tc ∈ resp.toolCalls, tc.id ≠ "") (decodes : ∀ tc ∈ resp.toolCalls, TextDecodes tc) :
    (∀ chunks, Renders chunks resp → ∀ uuid draw defaultModel,
      ∃ r, sseChunksToIr uuid draw (streamText chunks) defaultModel = some r ∧
        Recovered resp r) ↔ LineSafe resp := by
  constructor
  · intro recovers
    exact ⟨content_untorn recovers, reasoning_untorn recovers,
      fun tc member => call_untorn recovers member, finish_untorn recovers,
      finishReason_ne recovers⟩
  · intro safe chunks renders uuid draw defaultModel
    have intact : ∀ chunk ∈ chunks, chunk.Intact := fun chunk member =>
      .inr (StreamChunk.untorn_of_safe fun d inside =>
        renders.safe safe d (List.mem_flatMap.mpr ⟨chunk, member, inside⟩))
    exact stream_recovered renders intact ids decodes safe.ended uuid draw defaultModel

theorem openai_stream_recovered_sample :
    ∃ r, sseChunksToIr "0" (fun _ => "0") (streamText
        [plainChunk .verbatim { content := some "one\ntwo" },
          plainChunk .compact
            { reasoning := some "data: [DONE]", finish := some "length"
              calls := numberedCalls wholeCall 0 sampleAnswer.toolCalls }]) "m" = some r ∧
      Recovered sampleAnswer r := by
  have ids : ∀ tc ∈ sampleAnswer.toolCalls, tc.id ≠ "" := by simp [sampleAnswer]
  have safe : LineSafe sampleAnswer := by
    constructor
    · decide
    · decide
    · simp only [sampleAnswer, List.mem_cons, List.not_mem_nil, or_false, forall_eq_or_imp,
        forall_eq]
      exact ⟨⟨by decide, by decide, by decide +kernel⟩, by decide, by decide, by decide +kernel⟩
    · decide
    · decide
  exact (openai_stream_recovered_iff sampleAnswer ids sampleAnswer_decodes).mpr safe _
    (renders_texts rfl rfl rfl rfl rfl) "0" (fun _ => "0") "m"

/-- A separator takes the content of its chunk with it. -/
theorem separator_lost :
    Renders [plainChunk .verbatim { content := some "a\u2028b", finish := some "stop" }]
        { content := some "a\u2028b" } ∧
      ∃ r, sseChunksToIr "0" (fun _ => "0") (streamText
          [plainChunk .verbatim { content := some "a\u2028b", finish := some "stop" }]) "m" =
        some r ∧ r.content = none ∧ ¬Recovered { content := some "a\u2028b" } r := by
  constructor
  · constructor
    · simp [plainChunk, orText]
    · rfl
    · simp
    · intro k _
      rfl
    · rfl
  · have hole : Hole (fun s => ({ content := some s, finish := some "stop" } : ChoiceDelta).payload)
        id _ :=
      ((hole_str id).member [] "content" fun _ => []).member [("index", int 0)] "delta"
        fun _ => [("finish_reason", .str "stop")]
    have safe : ({ content := some "", finish := some "stop" } : ChoiceDelta).Safe :=
      ⟨by rintro _ ⟨⟩; decide, by simp, by simp, by rintro _ ⟨⟩; decide⟩
    have torn : ¬JsonString.Untorn "a\u2028b" := by decide +kernel
    have lost : (plainChunk .verbatim { content := some "a\u2028b", finish := some "stop" }).Lost :=
      plainChunk_lost hole safe (by decide) (by decide +kernel) torn
    -- The line breaks inside the text leave nothing that counts before the end of the stream.
    have read := readLines_only_lost (fun _ => "0")
      { responseId := .str ("resp_" ++ "0"), model := .str "m" } lost
    refine ⟨_, by rw [sseChunksToIr, read]; rfl, rfl, fun recovered => ?_⟩
    have content := recovered.content
    simp [orText] at content

/-! ## Synthesized streams -/

theorem wholeCall_payload (idx : Nat) (calls : List (NormalizedToolCall JsonValue)) :
    (numberedCalls wholeCall idx calls).map CallDelta.payload = toolCallChunks idx calls := by
  induction calls generalizing idx with
  | nil => rfl
  | cons tc calls ih =>
      rw [numberedCalls, List.map_cons, ih, toolCallChunks]
      rfl

/-- A text that is left out when it is empty. -/
def present (text : Option String) : Option String :=
  if orText text "" ≠ "" then some (orText text "") else none

theorem optionalMember_present (key : String) (text : Option String) :
    optionalMember key (present text) =
      if orText text "" ≠ "" then [(key, .str (orText text ""))] else [] := by
  unfold present
  split <;> rfl

theorem orText_present (text : Option String) : orText (present text) "" = orText text "" := by
  unfold present
  split
  · exact orText_some _
  · next empty => exact (not_not.mp empty).symm

/-- The fragment that is synthesized for an answer. -/
def synthesizedChoice (resp : NormalizedResponse JsonValue) : ChoiceDelta where
  role := true
  content := present resp.content
  reasoning := present resp.reasoningContent
  calls := numberedCalls wholeCall 0 resp.toolCalls
  finish := some (sentFinishReason resp)

theorem synthesizedChoice_delta (resp : NormalizedResponse JsonValue) :
    obj (synthesizedChoice resp).delta = openaiDelta resp := by
  have none : (numberedCalls wholeCall 0 resp.toolCalls).isEmpty = resp.toolCalls.isEmpty := by
    cases resp.toolCalls <;> rfl
  rw [ChoiceDelta.delta, synthesizedChoice, optionalMember_present, optionalMember_present,
    wholeCall_payload, none, openaiDelta, List.append_assoc]
  cases resp.toolCalls <;> rfl

/-- The chunk that is synthesized for an answer. -/
def synthesizedChunk (resp : NormalizedResponse JsonValue) (requestedModel : String) (now : Int)
    (wholeId : JsonString.Untorn (marked "chatcmpl-" resp.responseId))
    (wholeModel : JsonString.Untorn requestedModel) : StreamChunk where
  style := .verbatim
  id := marked "chatcmpl-" resp.responseId
  model := requestedModel
  created := now
  choices := [synthesizedChoice resp]
  wholeId := wholeId
  wholeModel := wholeModel

/-- What the gateway synthesizes is a stream of the answer, with the finish reason it sends. -/
theorem synthesized_renders (resp : NormalizedResponse JsonValue) (requestedModel : String)
    (now : Int) (wholeId : JsonString.Untorn (marked "chatcmpl-" resp.responseId))
    (wholeModel : JsonString.Untorn requestedModel) :
    String.join (synthesizeOpenaiSse resp requestedModel now) =
        streamText [synthesizedChunk resp requestedModel now wholeId wholeModel] ∧
      Renders [synthesizedChunk resp requestedModel now wholeId wholeModel]
        { resp with finishReason := sentFinishReason resp } := by
  constructor
  · have payload : (synthesizedChoice resp).payload = .obj [("index", int 0),
        ("delta", openaiDelta resp), ("finish_reason", .str (sentFinishReason resp))] := by
      rw [ChoiceDelta.payload, synthesizedChoice_delta]
      rfl
    have chunk : obj (synthesizedChunk resp requestedModel now wholeId wholeModel).members =
        openaiChunk resp requestedModel now := by
      simp [StreamChunk.members, synthesizedChunk, payload, openaiChunk]
    rw [synthesizeOpenaiSse, streamText, ← chunk]
    simp [StreamChunk.frame, payloadText, synthesizedChunk]
  · have numbered := fragments_numbered
      (fun _ _ => rfl : ∀ idx tc, (wholeCall idx tc).index = idx)
      (rfl : (synthesizedChoice resp).calls = _)
    constructor
    · simp [synthesizedChunk, synthesizedChoice, orText_present]
    · simp [synthesizedChunk, synthesizedChoice, orText_present]
    · intro k tc found
      have own : resp.toolCalls[k]? = some tc := found
      have parts := numbered k
      rw [own] at parts
      simpa [fragments, synthesizedChunk, parts] using fragmentsOf_whole k tc
    · intro k large
      have parts := numbered k
      rw [List.getElem?_eq_none large] at parts
      simpa [fragments, synthesizedChunk] using parts
    · rfl

end DuraLLM
