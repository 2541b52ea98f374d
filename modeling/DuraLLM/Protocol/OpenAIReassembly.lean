import DuraLLM.Protocol.OpenAIStream

/-! # What a stream is put together to

A stream of fragments stands for texts and tool calls, whatever it is cut into.
Reading the stream gives these, as long as every chunk stays on its line.
-/

namespace DuraLLM

open Text JsonRaw

/-! ## What the fragments stand for -/

structure CallParts where
  id : String
  name : String
  args : String

structure Reassembly where
  content : String := ""
  reasoning : String := ""
  finish : String := "stop"
  calls : Nat → Option CallParts := fun _ => none

namespace CallParts

/-- A call that begins without an id gets a drawn one. -/
def add (draw : Int → String) (d : CallDelta) : Option CallParts → CallParts
  | none =>
      { id := orText d.id ("call_" ++ draw d.index)
        name := orText d.name ""
        args := orText d.arguments "" }
  | some call =>
      { id := orText d.id call.id
        name := call.name ++ orText d.name ""
        args := call.args ++ orText d.arguments "" }

def streamed (call : CallParts) : StreamedToolCall :=
  { id := .str call.id, name := .str call.name, args := call.args }

end CallParts

namespace Reassembly

variable (draw : Int → String)

def addCall (a : Reassembly) (d : CallDelta) : Reassembly :=
  { a with
    calls := Function.update a.calls d.index (some (CallParts.add draw d (a.calls d.index))) }

def addChoice (a : Reassembly) (d : ChoiceDelta) : Reassembly :=
  d.calls.foldl (addCall draw)
    { a with
      content := a.content ++ orText d.content ""
      reasoning := a.reasoning ++ orText d.reasoning ""
      finish := orText d.finish a.finish }

end Reassembly

/-- The reading so far stands for these texts and calls. -/
structure StandsFor (s : SseState) (a : Reassembly) : Prop where
  content : ∃ texts : List String, s.contentParts = texts.map .str ∧ String.join texts = a.content
  reasoning : ∃ texts : List String, s.reasoningParts = texts.map .str ∧
    String.join texts = a.reasoning
  finish : s.finishReason = .str a.finish
  calls : ∀ k : Nat, s.toolCallsMap.get k = (a.calls k).map CallParts.streamed
  indices : ∀ key < 0, s.toolCallsMap.get key = none

/-! ## Optional members -/

/-- What `get` gives for a member that may be missing. -/
def optionalValue (text : Option String) (default : JsonRaw) : JsonRaw :=
  (text.map JsonRaw.str).getD default

theorem field_append (key : String) (front back : List (String × JsonRaw)) :
    field key (front ++ back) = (field key back).or (field key front) := by
  induction front with
  | nil => simp [field]
  | cons member front ih => rw [List.cons_append, field, field, ih, Option.or_assoc]

theorem field_optionalMember (key name : String) (text : Option String) :
    field key (optionalMember name text) = if key = name then text.map .str else none := by
  cases text <;> simp [optionalMember, field, sorted]

theorem orElse_optionalValue (text : Option String) (default : String) :
    (optionalValue text null).orElse (.str default) = .str (orText text default) := by
  cases text with
  | none => rfl
  | some text =>
      by_cases empty : text = "" <;> simp [optionalValue, orElse, JsonRaw.truthy, orText, empty]

theorem appendTruthy_optionalValue (before : String) (text : Option String) :
    WireStreamAssembler.appendTruthy before (optionalValue text null) =
      some (before ++ orText text "") := by
  cases text with
  | none => simp [optionalValue, WireStreamAssembler.appendTruthy, JsonRaw.truthy, orText]
  | some text =>
      by_cases empty : text = "" <;> simp [optionalValue, appendTruthy_str, orText, empty]

theorem addText_optionalValue (before : String) (text : Option String) :
    SseState.addText (.str before) (optionalValue text null) =
      some (.str (before ++ orText text "")) := by
  cases text with
  | none => simp [optionalValue, SseState.addText, JsonRaw.truthy, orText]
  | some text =>
      by_cases empty : text = "" <;>
        simp [optionalValue, SseState.addText, JsonRaw.truthy, asStr, orText, empty]

theorem addPart_optionalValue (texts : List String) (text : Option String) :
    ∃ more : List String,
      SseState.addPart (texts.map .str) (optionalValue text null) = more.map .str ∧
        String.join more = String.join texts ++ orText text "" := by
  cases text with
  | none => exact ⟨texts, rfl, by simp [orText]⟩
  | some text =>
      by_cases empty : text = ""
      · exact ⟨texts, by simp [optionalValue, SseState.addPart, JsonRaw.truthy, empty],
          by simp [orText, empty]⟩
      · refine ⟨texts ++ [text], ?_, ?_⟩
        · simp [optionalValue, SseState.addPart, JsonRaw.truthy, empty]
        · simp [orText, empty, String.join_append]

theorem orText_some (text : String) : orText (some text) "" = text := by
  by_cases empty : text = "" <;> simp [orText, empty]

theorem mapM_asStr (texts : List String) : (texts.map JsonRaw.str).mapM asStr = some texts := by
  induction texts with
  | nil => rfl
  | cons text texts ih => simp [List.mapM_cons, asStr, ih]

theorem joinParts_texts (texts : List String) :
    ∃ joined, SseState.joinParts (texts.map .str) = some joined ∧
      orText joined "" = String.join texts := by
  have each := mapM_asStr texts
  cases texts with
  | nil => exact ⟨none, rfl, rfl⟩
  | cons text texts =>
      refine ⟨some (String.join (text :: texts)), ?_, ?_⟩
      · rw [List.map_cons] at each ⊢
        simp [SseState.joinParts, each]
      · by_cases empty : String.join (text :: texts) = "" <;> simp [orText, empty]

theorem sortedItems_map {α : Type} (f : α → JsonRaw) (items : List α) :
    sortedItems (items.map f) = items.map fun item => (f item).sorted := by
  induction items with
  | nil => rfl
  | cons item items ih => rw [List.map_cons, sortedItems, ih, List.map_cons]

/-! ## One fragment -/

section Step

variable (draw : Int → String) {s : SseState} {a : Reassembly}

theorem CallDelta.get_function (d : CallDelta) (key : String) (default : JsonRaw) :
    (obj (sortedMembers d.function)).get key default =
      some ((if key = "arguments" then d.arguments.map JsonRaw.str
        else if key = "name" then d.name.map JsonRaw.str else none).getD default) := by
  rw [get_sorted, CallDelta.function, field_append, field_optionalMember, field_optionalMember]
  by_cases arguments : key = "arguments"
  · subst arguments
    simp
  · simp [arguments]

theorem CallDelta.get_payload (d : CallDelta) :
    d.payload.sorted.get "index" (int 0) = some (int d.index) ∧
      d.payload.sorted.get "id" null = some (optionalValue d.id null) ∧
      d.payload.sorted.get "function" (.obj []) = some (obj (sortedMembers d.function)) := by
  have typed (key : String) (other : key ≠ "type") : field key
      (if d.id.isSome then [("type", JsonRaw.str "function")] else []) = none := by
    split <;> simp [field, other]
  have called (key : String) : field key
      (if d.function = [] then [] else [("function", .obj d.function)]) =
        if key = "function" ∧ d.function ≠ [] then some (obj (sortedMembers d.function))
        else none := by
    cases d.function <;> simp [field, sorted]
  refine ⟨?_, ?_, ?_⟩
  · simp [payload, sorted, get_sorted, field, field_append, field_optionalMember, typed, called]
  · simp [payload, sorted, get_sorted, field, field_append, field_optionalMember, typed, called,
      optionalValue]
  · simp only [payload, sorted, get_sorted, field, field_append, field_optionalMember,
      List.isEmpty_iff, called, typed "function" (by decide)]
    cases d.function <;> simp [sortedMembers]

theorem startCall_function (d : CallDelta) (id : JsonRaw) :
    SseState.startCall id (obj (sortedMembers d.function)) =
      some { id, name := .str (orText d.name "") } := by
  cases named : d.name with
  | none => simp [SseState.startCall, d.get_function, named, orText]
  | some name => by_cases empty : name = "" <;>
      simp [SseState.startCall, d.get_function, named, orText, empty]

theorem continueCall_function (d : CallDelta) (call : CallParts) :
    SseState.continueCall call.streamed (optionalValue d.id null) (obj (sortedMembers d.function)) =
      some { id := .str (orText d.id call.id), name := .str (call.name ++ orText d.name ""),
             args := call.args } := by
  have name : (obj (sortedMembers d.function)).get "name" null =
      some (optionalValue d.name null) := by
    simp [d.get_function, optionalValue]
  simp [SseState.continueCall, name, CallParts.streamed, orElse_optionalValue,
    addText_optionalValue]

theorem StandsFor.addToolCall (stands : StandsFor s a) (d : CallDelta) :
    ∃ s', s.addToolCall draw d.payload.sorted = some s' ∧ StandsFor s' (a.addCall draw d) := by
  obtain ⟨index, id, function⟩ := d.get_payload
  have args : (obj (sortedMembers d.function)).get "arguments" null =
      some (optionalValue d.arguments null) := by
    simp [d.get_function, optionalValue]
  have entered : s.addToolCall draw d.payload.sorted =
      some { s with toolCallsMap :=
        s.toolCallsMap.set d.index (CallParts.add draw d (a.calls d.index)).streamed } := by
    have known := stands.calls d.index
    cases before : a.calls d.index with
    | none =>
        rw [before] at known
        simp [SseState.addToolCall, index, id, function, asInt, known, orElse_optionalValue,
          startCall_function, args, appendTruthy_optionalValue, CallParts.add, CallParts.streamed]
    | some call =>
        have continued := continueCall_function d call
        rw [before] at known
        simp only [SseState.addToolCall, index, id, function, asInt, known, Option.map_some,
          continued, args, appendTruthy_optionalValue, Option.bind_eq_bind, Option.bind_some,
          Option.pure_def]
        rfl
  refine ⟨_, entered, stands.content, stands.reasoning, stands.finish, ?_, ?_⟩
  · intro k
    rw [Dict.get_set]
    by_cases same : k = d.index
    · subst same
      simp [Reassembly.addCall]
    · have other : (k : Int) ≠ (d.index : Int) := by exact_mod_cast same
      simp [Reassembly.addCall, other, same, stands.calls k]
  · intro key negative
    rw [Dict.get_set_ne _ _ (by omega), stands.indices key negative]

theorem StandsFor.addToolCalls (stands : StandsFor s a) (calls : List CallDelta) :
    ∃ s', (calls.map fun d => d.payload.sorted).foldlM (SseState.addToolCall draw) s = some s' ∧
      StandsFor s' (calls.foldl (Reassembly.addCall draw) a) := by
  induction calls generalizing s a with
  | nil => exact ⟨s, rfl, stands⟩
  | cons d calls ih =>
      obtain ⟨s₁, first, stands₁⟩ := stands.addToolCall draw d
      obtain ⟨s₂, rest, stands₂⟩ := ih stands₁
      refine ⟨s₂, ?_, stands₂⟩
      rw [List.map_cons, List.foldlM_cons, first]
      exact rest

theorem ChoiceDelta.get_payload (d : ChoiceDelta) :
    d.payload.sorted.get "finish_reason" null = some (optionalValue d.finish null) ∧
      d.payload.sorted.get "delta" (.obj []) = some (obj (sortedMembers d.delta)) := by
  cases finish : d.finish <;> simp [payload, sorted, get_sorted, field, finish, optionalValue]

theorem ChoiceDelta.get_delta (d : ChoiceDelta) :
    (obj (sortedMembers d.delta)).get "content" null = some (optionalValue d.content null) ∧
      (obj (sortedMembers d.delta)).get "reasoning" null = some null ∧
      (obj (sortedMembers d.delta)).get "reasoning_content" null =
        some (optionalValue d.reasoning null) ∧
      (obj (sortedMembers d.delta)).get "tool_calls" (.arr []) =
        some (.arr (d.calls.map fun call => call.payload.sorted)) := by
  have role (key : String) (other : key ≠ "role") : field key
      (if d.role then [("role", JsonRaw.str "assistant")] else []) = none := by
    split <;> simp [field, other]
  have called (key : String) : field key
      (if d.calls = [] then [] else [("tool_calls", .arr (d.calls.map CallDelta.payload))]) =
        if key = "tool_calls" ∧ d.calls ≠ [] then
          some (.arr (d.calls.map fun call => call.payload.sorted)) else none := by
    cases d.calls <;> simp [field, sorted, sortedItems, sortedItems_map]
  have all (key : String) (other : key ≠ "role") (default : JsonRaw) :
      (obj (sortedMembers d.delta)).get key default =
        some ((((if key = "tool_calls" ∧ d.calls ≠ [] then
            some (JsonRaw.arr (d.calls.map fun call => call.payload.sorted)) else none).or
          (if key = "reasoning_content" then d.reasoning.map JsonRaw.str else none)).or
          (if key = "content" then d.content.map JsonRaw.str else none)).getD default) := by
    simp only [get_sorted, delta, field_append, field_optionalMember, List.isEmpty_iff, called key,
      role key other, Option.or_none]
  refine ⟨?_, ?_, ?_, ?_⟩
  · simp [all, optionalValue]
  · simp [all]
  · simp [all, optionalValue]
  · cases calls : d.calls <;> simp [all, calls]

theorem StandsFor.addChoice (stands : StandsFor s a) (d : ChoiceDelta) :
    ∃ s', s.addChoice draw d.payload.sorted = some s' ∧ StandsFor s' (a.addChoice draw d) := by
  obtain ⟨finish, delta⟩ := d.get_payload
  obtain ⟨content, reasoning, reasoningContent, calls⟩ := d.get_delta
  obtain ⟨contents, sameContent, joinedContent⟩ := stands.content
  obtain ⟨reasonings, sameReasoning, joinedReasoning⟩ := stands.reasoning
  have some : StandsFor
      { s with
        finishReason := (optionalValue d.finish null).orElse s.finishReason
        contentParts := SseState.addPart s.contentParts (optionalValue d.content null)
        reasoningParts := SseState.addPart s.reasoningParts (optionalValue d.reasoning null) }
      { a with
        content := a.content ++ orText d.content ""
        reasoning := a.reasoning ++ orText d.reasoning ""
        finish := orText d.finish a.finish } := by
    constructor
    · obtain ⟨more, added, joined⟩ := addPart_optionalValue contents d.content
      exact ⟨more, by rw [← added, sameContent], by rw [joined, joinedContent]⟩
    · obtain ⟨more, added, joined⟩ := addPart_optionalValue reasonings d.reasoning
      exact ⟨more, by rw [← added, sameReasoning], by rw [joined, joinedReasoning]⟩
    · rw [stands.finish, orElse_optionalValue]
    · exact stands.calls
    · exact stands.indices
  obtain ⟨s', folded, stands'⟩ := some.addToolCalls draw d.calls
  refine ⟨s', ?_, stands'⟩
  have silent : null.orElse (optionalValue d.reasoning null) = optionalValue d.reasoning null := rfl
  simp only [SseState.addChoice, finish, delta, content, reasoning, reasoningContent, calls, silent,
    WireStreamAssembler.items, Option.bind_eq_bind, Option.bind_some]
  exact folded

theorem StandsFor.addChoices (stands : StandsFor s a) (choices : List ChoiceDelta) :
    ∃ s', (choices.map fun d => d.payload.sorted).foldlM (SseState.addChoice draw) s = some s' ∧
      StandsFor s' (choices.foldl (Reassembly.addChoice draw) a) := by
  induction choices generalizing s a with
  | nil => exact ⟨s, rfl, stands⟩
  | cons d choices ih =>
      obtain ⟨s₁, first, stands₁⟩ := stands.addChoice draw d
      obtain ⟨s₂, rest, stands₂⟩ := ih stands₁
      refine ⟨s₂, ?_, stands₂⟩
      rw [List.map_cons, List.foldlM_cons, first]
      exact rest

theorem addUsage_eq (s : SseState) (usage : JsonRaw) :
    ∃ promptTokens completionTokens,
      s.addUsage usage = { s with promptTokens, completionTokens } := by
  cases usage with
  | obj members => exact ⟨_, _, rfl⟩
  | _ => exact ⟨_, _, rfl⟩

theorem StandsFor.addChunk (stands : StandsFor s a) (chunk : StreamChunk) :
    ∃ s', s.addChunk draw (obj (sortedMembers chunk.members)) = some s' ∧
      StandsFor s' (chunk.choices.foldl (Reassembly.addChoice draw) a) := by
  have used (key : String) (other : key ≠ "usage") : field key (chunk.usage.toList.map fun usage =>
      ("usage", JsonRaw.obj [("prompt_tokens", int usage.1), ("completion_tokens", int usage.2)])) =
        none := by
    cases chunk.usage <;> simp [field, other]
  have choices : (obj (sortedMembers chunk.members)).get "choices" (.arr []) =
      some (.arr (chunk.choices.map fun d => d.payload.sorted)) := by
    simp [StreamChunk.members, get_sorted, used, field, sorted, sortedItems_map]
  generalize chunk.members = members at choices
  simp only [SseState.addChunk, get_sorted] at choices ⊢
  obtain ⟨prompt, completion, counted⟩ := addUsage_eq
    { s with
      responseId := ((field "id" members).getD null).orElse s.responseId
      model := ((field "model" members).getD null).orElse s.model }
    ((field "usage" members).getD null)
  have kept : StandsFor
      { s with
        responseId := ((field "id" members).getD null).orElse s.responseId
        model := ((field "model" members).getD null).orElse s.model
        promptTokens := prompt
        completionTokens := completion } a :=
    ⟨stands.content, stands.reasoning, stands.finish, stands.calls, stands.indices⟩
  obtain ⟨s', folded, stands'⟩ := kept.addChoices draw chunk.choices
  refine ⟨s', ?_, stands'⟩
  simp only [Option.bind_eq_bind, Option.bind_some, choices, WireStreamAssembler.items, counted]
  exact folded

/-! ## Reading the lines -/

theorem addChunk_empty (s : SseState) : s.addChunk draw (.obj []) = some s := rfl

theorem readLines_cons (s : SseState) (rawLine : String) (rest : List String) :
    s.readLines draw (rawLine :: rest) =
      match lineData rawLine with
      | none => s.readLines draw rest
      | some data =>
          if data = "[DONE]" then some s
          else match JsonValue.loads data with
            | some ⟨.obj members, _⟩ => do (← s.addChunk draw (.obj members)).readLines draw rest
            | _ => s.readLines draw rest := by
  rw [SseState.readLines, lineData]
  cases cut : afterPrefix "data:" (strip rawLine) with
  | none => simp
  | some text =>
      have filled : strip rawLine ≠ "" := by
        intro empty
        rw [empty] at cut
        cases cut
      have noComment := (SSEStreamParser.afterPrefix_data cut).1
      simp only [filled, noComment, Option.map_some, decide_false, Option.isSome_none, Bool.or_self,
        Bool.false_eq_true, if_false] <;> rfl

theorem readLines_object {rawLine : String} {members : List (String × JsonRaw)}
    (found : lineObject rawLine = some members) (rest : List String) :
    s.readLines draw (rawLine :: rest) =
      (s.addChunk draw (.obj members)).bind fun s => s.readLines draw rest := by
  unfold lineObject at found
  split at found
  · next others canonical loaded =>
    obtain rfl := Option.some.inj found
    obtain ⟨data, line, loads⟩ := Option.bind_eq_some_iff.mp loaded
    have going : data ≠ "[DONE]" := by
      rintro rfl
      have none : JsonValue.loads "[DONE]" = none := by decide +kernel
      cases none.symm.trans loads
    simp only [readLines_cons, line, if_neg going, loads]
    rfl
  · cases found

/-- A hollow line is passed over, if it does not end the reading. -/
theorem readLines_hollow {rawLine : String} (hollow : Hollow rawLine) (rest : List String) :
    s.readLines draw (rawLine :: rest) = s.readLines draw rest ∨
      s.readLines draw (rawLine :: rest) = some s := by
  cases found : lineObject rawLine with
  | some members =>
      obtain rfl := hollow members found
      exact .inl (readLines_object draw found rest)
  | none =>
      rw [readLines_cons]
      unfold lineObject at found
      split
      · exact .inl rfl
      · next data line =>
        rw [line, Option.bind_some] at found
        split
        · exact .inr rfl
        · split
          · next members canonical loads =>
            rw [loads] at found
            cases found
          · exact .inl rfl

theorem readLines_pieces {pieces : List (List Char)}
    (hollow : ∀ piece ∈ pieces, Hollow (String.ofList piece)) (rest : List String) :
    s.readLines draw (pieces.map String.ofList ++ rest) = s.readLines draw rest ∨
      s.readLines draw (pieces.map String.ofList ++ rest) = some s := by
  induction pieces with
  | nil => exact .inl rfl
  | cons piece pieces ih =>
      rw [List.map_cons, List.cons_append]
      rcases readLines_hollow draw (hollow piece List.mem_cons_self) _ with passed | ended
      · rw [passed]
        exact ih fun other member => hollow other (List.mem_cons_of_mem piece member)
      · exact .inr ended

/-- Every payload stays on its line. -/
def StreamChunk.Intact (chunk : StreamChunk) : Prop :=
  chunk.style.ascii = true ∨ (obj chunk.members).Untorn

theorem readLines_intact {chunk : StreamChunk} (intact : chunk.Intact) (stands : StandsFor s a)
    (rest : List Char) :
    ∃ s', StandsFor s' (chunk.choices.foldl (Reassembly.addChoice draw) a) ∧
      s.readLines draw ((lines (chunk.frame.toList ++ rest)).map String.ofList) =
        s'.readLines draw ((lines rest).map String.ofList) := by
  obtain ⟨s', added, stands'⟩ := stands.addChunk draw chunk
  refine ⟨s', stands', ?_⟩
  have one := write_oneLine (obj chunk.members) intact
  have found := lineObject_write chunk.style chunk.members
  have blank (s : SseState) :
      s.readLines draw (String.ofList [] :: (lines rest).map String.ofList) =
        s.readLines draw ((lines rest).map String.ofList) := by
    have nothing : lineData (String.ofList []) = none := rfl
    rw [readLines_cons, nothing]
  rw [StreamChunk.frame, lines_frame one, List.map_cons,
    readLines_object draw found, added, Option.bind_some, List.map_cons, blank]

theorem readLines_frames {chunks : List StreamChunk} (intact : ∀ chunk ∈ chunks, chunk.Intact)
    (stands : StandsFor s a) (rest : List Char) :
    ∃ s', StandsFor s' ((chunks.flatMap (·.choices)).foldl (Reassembly.addChoice draw) a) ∧
      s.readLines draw
          ((lines ((chunks.flatMap fun chunk => chunk.frame.toList) ++ rest)).map String.ofList) =
        s'.readLines draw ((lines rest).map String.ofList) := by
  induction chunks generalizing s a with
  | nil => exact ⟨s, stands, rfl⟩
  | cons chunk chunks ih =>
      obtain ⟨s₁, stands₁, first⟩ := readLines_intact draw (intact chunk List.mem_cons_self) stands
        ((chunks.flatMap fun chunk => chunk.frame.toList) ++ rest)
      obtain ⟨s₂, stands₂, later⟩ :=
        ih (fun other member => intact other (List.mem_cons_of_mem chunk member)) stands₁
      refine ⟨s₂, ?_, ?_⟩
      · rw [List.flatMap_cons, List.foldl_append]
        exact stands₂
      · rw [List.flatMap_cons, List.append_assoc, first, later]

theorem readLines_done (s : SseState) :
    s.readLines draw ((lines (dataFrame "[DONE]").toList).map String.ofList) = some s := by
  have one : OneLine "[DONE]".toList := by simp [OneLine, isLineBreak]
  have split : lines ((dataFrame "[DONE]").toList ++ []) = _ := lines_frame one []
  have data : lineData (String.ofList ("data: ".toList ++ "[DONE]".toList)) = some "[DONE]" := by
    decide +kernel
  rw [List.append_nil] at split
  rw [split, List.map_cons, readLines_cons, data]
  rfl

theorem streamText_chars (chunks : List StreamChunk) :
    (streamText chunks).toList =
      (chunks.flatMap fun chunk => chunk.frame.toList) ++ (dataFrame "[DONE]").toList := by
  simp [streamText, List.flatMap_def, String.toList_join, Function.comp_def]

/-- The loop over a stream whose payloads stay on their lines. -/
theorem readLines_stream {chunks : List StreamChunk} (intact : ∀ chunk ∈ chunks, chunk.Intact)
    (stands : StandsFor s a) :
    ∃ s', s.readLines draw (splitlines (streamText chunks)) = some s' ∧
      StandsFor s' ((chunks.flatMap (·.choices)).foldl (Reassembly.addChoice draw) a) := by
  obtain ⟨s', stands', read⟩ := readLines_frames draw intact stands (dataFrame "[DONE]").toList
  refine ⟨s', ?_, stands'⟩
  rw [splitlines, streamText_chars, read, readLines_done]

end Step

end DuraLLM
