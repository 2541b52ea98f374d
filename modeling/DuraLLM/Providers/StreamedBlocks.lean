import DuraLLM.Providers.ReplyTally

/-! # Blocks that arrive in part

What is left of a block when the torn ones of its events have been lost: of a
text and of a thought the fragments that arrived, of a call either nothing or
the call with what arrived of its input.
-/

namespace DuraLLM

open JsonRaw

/-! ## What a block says -/

namespace ReplyBlock

def said : ReplyBlock → Option String
  | text content => some content
  | _ => none

/-- A thought and its signature. -/
def thought : ReplyBlock → Option (String × String)
  | thinking content signature => some (content, orText signature "")
  | _ => none

def invoked : ReplyBlock → Option (JsonRaw × JsonRaw × JsonRaw)
  | toolUse id name input => some (.str id, .str name, .obj (sortedMembers input))
  | _ => none

/-- The last of the thoughts is the one that stays. -/
def lastThought : List ReplyBlock → Option (String × String)
  | [] => none
  | block :: blocks => (lastThought blocks).or block.thought

/-- All of the block arrives that is not replaced by a later block. -/
def Safe : ReplyBlock → Prop
  | thinking _ _ => True
  | text content => JsonString.Untorn content
  | toolUse id name input =>
      JsonString.Untorn id ∧ JsonString.Untorn name ∧
        JsonString.Untorn (payloadText (.obj input))

end ReplyBlock

/-! ## Fragments -/

theorem untorn_append {s t : String} :
    JsonString.Untorn (s ++ t) ↔ JsonString.Untorn s ∧ JsonString.Untorn t := by
  simp [JsonString.Untorn, or_imp, forall_and]

/-- The fragments that arrive. -/
def arrived (deltas : List ReplyDelta) : List ReplyDelta :=
  deltas.filter fun d => JsonString.Untorn d.part

theorem carried_cons (kind : DeltaKind) (d : ReplyDelta) (deltas : List ReplyDelta) :
    carried kind (d :: deltas) = (if d.kind = kind then d.part else "") ++ carried kind deltas := by
  by_cases same : d.kind = kind <;> simp [carried, same, String.join_cons]

theorem carried_other {kind other : DeltaKind} {deltas : List ReplyDelta}
    (only : ∀ d ∈ deltas, d.kind = kind) (different : kind ≠ other) :
    carried other deltas = "" := by
  have none : deltas.filter (·.kind = other) = [] := by
    rw [List.filter_eq_nil_iff]
    intro d member
    simpa [only d member] using different
  rw [carried, none]
  rfl

/-- Of a text without a separator every fragment arrives. -/
theorem carried_arrived {kind : DeltaKind} {deltas : List ReplyDelta}
    (untorn : JsonString.Untorn (carried kind deltas)) :
    carried kind (arrived deltas) = carried kind deltas := by
  induction deltas with
  | nil => rfl
  | cons d deltas ih =>
      rw [carried_cons, untorn_append] at untorn
      have rest := ih untorn.2
      by_cases own : d.kind = kind
      · have part : JsonString.Untorn d.part := by simpa [own] using untorn.1
        have kept : arrived (d :: deltas) = d :: arrived deltas := by simp [arrived, part]
        rw [kept, carried_cons, carried_cons, rest]
      · have skipped : carried kind (arrived (d :: deltas)) = carried kind (arrived deltas) := by
          by_cases part : JsonString.Untorn d.part
          · have kept : arrived (d :: deltas) = d :: arrived deltas := by simp [arrived, part]
            simp [kept, carried_cons, own]
          · simp [arrived, part]
        rw [skipped, rest, carried_cons]
        simp [own]

/-! ## Blocks -/

/-- What some events have added. -/
structure ReplyTally.Grown (t t' : ReplyTally) (said : String) (thought : Option String)
    (calls : List (JsonRaw × JsonRaw × JsonRaw)) : Prop where
  content : t'.content = t.content ++ said
  reasoning : t'.reasoning = thought.getD t.reasoning
  calls : t'.calls = t.calls ++ calls
  inputTokens : t'.inputTokens = t.inputTokens
  outputTokens : t'.outputTokens = t.outputTokens
  stopReason : t'.stopReason = t.stopReason
  closed : t'.toolOpen = false

namespace ReplyTally

theorem Grown.trans {t t₁ t₂ : ReplyTally} {said said' : String} {thought thought' : Option String}
    {calls calls' : List (JsonRaw × JsonRaw × JsonRaw)} (first : Grown t t₁ said thought calls)
    (second : Grown t₁ t₂ said' thought' calls') :
    Grown t t₂ (said ++ said') (thought'.or thought) (calls ++ calls') where
  content := by rw [second.content, first.content, String.append_assoc]
  reasoning := by rw [second.reasoning, first.reasoning]; cases thought' <;> rfl
  calls := by rw [second.calls, first.calls, List.append_assoc]
  inputTokens := second.inputTokens.trans first.inputTokens
  outputTokens := second.outputTokens.trans first.outputTokens
  stopReason := second.stopReason.trans first.stopReason
  closed := second.closed

/-- What the whole events come to. -/
def arrive (t : ReplyTally) (events : List ReplyEvent) : ReplyTally :=
  (events.filter fun e => e.Whole).foldl add t

theorem arrive_cons (t : ReplyTally) (e : ReplyEvent) (events : List ReplyEvent) :
    t.arrive (e :: events) = (if e.Whole then t.add e else t).arrive events := by
  by_cases whole : e.Whole <;> simp [arrive, whole]

theorem arrive_append (t : ReplyTally) (front back : List ReplyEvent) :
    t.arrive (front ++ back) = (t.arrive front).arrive back := by
  simp [arrive]

theorem arrive_deltas (t : ReplyTally) (index : Nat) (deltas : List ReplyDelta) :
    t.arrive (deltas.map (.blockDelta index)) =
      { t with
        content := t.content ++ carried .text (arrived deltas)
        reasoning := t.reasoning ++ carried .thinking (arrived deltas)
        toolInput := t.toolInput ++ carried .inputJson (arrived deltas) } := by
  induction deltas generalizing t with
  | nil => simp [arrive, arrived, carried]
  | cons d deltas ih =>
      have same : (ReplyEvent.blockDelta index d).Whole ↔ JsonString.Untorn d.part := by
        simp [ReplyEvent.Whole, ReplyEvent.texts]
      rw [List.map_cons, arrive_cons, ih]
      by_cases whole : JsonString.Untorn d.part
      · have kept : arrived (d :: deltas) = d :: arrived deltas := by simp [arrived, whole]
        obtain ⟨kind, part⟩ := d
        rw [if_pos (same.mpr whole), kept, carried_cons, carried_cons, carried_cons]
        cases kind <;> simp [add, addDelta, String.append_assoc]
      · have lost : arrived (d :: deltas) = arrived deltas := by simp [arrived, whole]
        rw [if_neg (mt same.mp whole), lost]

theorem arrive_block (t : ReplyTally) (index : Nat) (opening : BlockOpening)
    (deltas : List ReplyDelta) :
    t.arrive (blockEvents index opening deltas) =
      ((if (ReplyEvent.blockStart index opening).Whole then t.start opening else t).arrive
        (deltas.map (.blockDelta index))).stop := by
  have last (t : ReplyTally) : t.arrive [.blockStop index] = t.stop := by
    simp [arrive, ReplyEvent.Whole, ReplyEvent.texts, add]
  rw [blockEvents, arrive_cons, arrive_append, last]
  rfl

variable {t : ReplyTally} {index : Nat} {deltas : List ReplyDelta}

theorem text_grown (t : ReplyTally) (index : Nat) (only : ∀ d ∈ deltas, d.kind = .text) :
    Grown t (t.arrive (blockEvents index .text deltas)) (carried .text (arrived deltas)) none
      [] := by
  have only : ∀ d ∈ arrived deltas, d.kind = .text := fun d member =>
    only d (List.mem_of_mem_filter member)
  have thinking := carried_other only (by decide : DeltaKind.text ≠ .thinking)
  have whole : (ReplyEvent.blockStart index .text).Whole := by
    simp [ReplyEvent.Whole, ReplyEvent.texts]
  rw [arrive_block, if_pos whole, arrive_deltas, thinking]
  constructor <;> simp [stop, start]

theorem thinking_grown (t : ReplyTally) (index : Nat) (signed : Bool)
    (only : ∀ d ∈ deltas, d.kind = .thinking ∨ d.kind = .signature) :
    Grown t (t.arrive (blockEvents index (.thinking signed) deltas)) ""
      (some (carried .thinking (arrived deltas))) [] := by
  have text : carried .text (arrived deltas) = "" := by
    have none : (arrived deltas).filter (·.kind = .text) = [] := by
      rw [List.filter_eq_nil_iff]
      intro d member
      rcases only d (List.mem_of_mem_filter member) with kind | kind <;> simp [kind]
    rw [carried, none]
    rfl
  have whole : (ReplyEvent.blockStart index (.thinking signed)).Whole := by
    simp [ReplyEvent.Whole, ReplyEvent.texts]
  rw [arrive_block, if_pos whole, arrive_deltas, text]
  constructor <;> simp [stop, start]

/-- A call whose start is lost is not made at all. -/
theorem toolUse_grown (closed : t.toolOpen = false) (index : Nat) (id name : String)
    (only : ∀ d ∈ deltas, d.kind = .inputJson) :
    Grown t (t.arrive (blockEvents index (.toolUse id name) deltas)) "" none
      (if JsonString.Untorn id ∧ JsonString.Untorn name then
        [(.str id, .str name, AnthropicAdapter.EventState.finalArguments
          (carried .inputJson (arrived deltas)))]
      else []) := by
  have only : ∀ d ∈ arrived deltas, d.kind = .inputJson := fun d member =>
    only d (List.mem_of_mem_filter member)
  have text := carried_other only (by decide : DeltaKind.inputJson ≠ .text)
  have thinking := carried_other only (by decide : DeltaKind.inputJson ≠ .thinking)
  have whole : (ReplyEvent.blockStart index (.toolUse id name)).Whole ↔
      JsonString.Untorn id ∧ JsonString.Untorn name := by
    simp [ReplyEvent.Whole, ReplyEvent.texts]
  rw [arrive_block, arrive_deltas, text, thinking]
  by_cases untorn : JsonString.Untorn id ∧ JsonString.Untorn name
  · rw [if_pos (whole.mpr untorn), if_pos untorn]
    constructor <;> simp [stop, start]
  · rw [if_neg (mt whole.mp untorn), if_neg untorn]
    constructor <;> simp [stop, closed]

end ReplyTally

/-! ## The arguments of a call -/

open AnthropicAdapter.EventState in
theorem finalArguments_payload (input : List (String × JsonRaw)) :
    finalArguments (payloadText (.obj input)) = .obj (sortedMembers input) := by
  have some : payloadText (.obj input) ≠ "" := by
    obtain ⟨inside, braces⟩ := write_obj .verbatim input
    intro empty
    have chars := congrArg String.toList empty
    simp [payloadText, braces] at chars
  have loads : JsonValue.loads (payloadText (.obj input)) = .some (.ofRaw (.obj input)) :=
    loads_write .verbatim (.obj input)
  rw [finalArguments, if_neg some, loads]
  rfl

/-! ## All blocks -/

open ReplyBlock ReplyTally

/-- From the events of a safe block everything comes, but for a thought that is torn. -/
theorem block_grown {block : ReplyBlock} {deltas : List ReplyDelta} (safe : block.Safe)
    (fragments : block.Fragments deltas) (index : Nat) (signed : Bool) {t : ReplyTally}
    (closed : t.toolOpen = false) :
    ∃ thought, Grown t (t.arrive (blockEvents index (block.opening signed) deltas))
        (String.join block.said.toList) thought block.invoked.toList ∧
      ((∀ last ∈ block.thought, JsonString.Untorn last.1) →
        thought = block.thought.map Prod.fst) := by
  cases block with
  | thinking content signature =>
      obtain ⟨only, joined, -⟩ := fragments
      refine ⟨_, thinking_grown t index signed only, fun untorn => ?_⟩
      have whole : JsonString.Untorn (carried .thinking deltas) := joined ▸ untorn _ rfl
      rw [carried_arrived whole, joined]
      rfl
  | text content =>
      obtain ⟨only, joined⟩ := fragments
      have grown := text_grown t index only
      rw [carried_arrived (joined ▸ safe), joined] at grown
      exact ⟨none, by simpa [said, invoked, opening] using grown, fun _ => rfl⟩
  | toolUse id name input =>
      obtain ⟨only, joined⟩ := fragments
      have grown := toolUse_grown closed index id name only
      rw [if_pos ⟨safe.1, safe.2.1⟩] at grown
      have arguments : AnthropicAdapter.EventState.finalArguments
          (carried .inputJson (arrived deltas)) = .obj (sortedMembers input) := by
        rcases joined with whole | ⟨empty, rfl⟩
        · rw [carried_arrived (whole ▸ safe.2.2), whole, finalArguments_payload]
        · rw [carried_arrived (empty ▸ by decide), empty]
          rfl
      rw [arguments] at grown
      exact ⟨none, grown, fun _ => rfl⟩

theorem filterMap_toList {α β : Type} (f : α → Option β) (a : α) (as : List α) :
    (a :: as).filterMap f = (f a).toList ++ as.filterMap f := by
  cases found : f a <;> simp [found]

theorem blocks_grown {index : Nat} {blocks : List ReplyBlock} {events : List ReplyEvent}
    (rendered : BlocksRendered index blocks events) (safe : ∀ block ∈ blocks, block.Safe)
    {t : ReplyTally} (closed : t.toolOpen = false) :
    ∃ thought, Grown t (t.arrive events) (String.join (blocks.filterMap said)) thought
        (blocks.filterMap invoked) ∧
      ((∀ last ∈ lastThought blocks, JsonString.Untorn last.1) →
        thought = (lastThought blocks).map Prod.fst) := by
  induction rendered generalizing t with
  | nil index =>
      have nothing : Grown t (t.arrive []) "" none [] :=
        ⟨by simp [arrive], rfl, by simp [arrive], rfl, rfl, rfl, closed⟩
      exact ⟨none, nothing, fun _ => rfl⟩
  | @cons index block signed deltas blocks events fragments rest ih =>
      obtain ⟨thought, grown, thinks⟩ :=
        block_grown (safe block List.mem_cons_self) fragments index signed closed
      obtain ⟨later, grown', thinks'⟩ :=
        ih (fun other member => safe other (List.mem_cons_of_mem block member)) grown.closed
      have both := grown.trans grown'
      rw [← arrive_append, ← String.join_append, ← filterMap_toList, ← filterMap_toList] at both
      refine ⟨later.or thought, both, fun untorn => ?_⟩
      rw [lastThought] at untorn ⊢
      cases found : lastThought blocks with
      | none =>
          have same : later = none := by simpa [found] using thinks'
          rw [same, Option.none_or, Option.none_or]
          exact thinks (by simpa [found] using untorn)
      | some last =>
          have same : later = some last.1 := by
            rw [thinks' (by simpa [found] using untorn), found]
            rfl
          rw [same]
          rfl

/-! ## Blocks in one fragment -/

/-- Every text in one piece, a signature if there is one. -/
def wholeDeltas : ReplyBlock → List ReplyDelta
  | .thinking content signature =>
      ⟨.thinking, content⟩ :: signature.toList.map fun text => ⟨.signature, text⟩
  | .text content => [⟨.text, content⟩]
  | .toolUse _ _ input => [⟨.inputJson, payloadText (.obj input)⟩]

def wholeBlocks (index : Nat) : List ReplyBlock → List ReplyEvent
  | [] => []
  | block :: blocks =>
      blockEvents index (block.opening true) (wholeDeltas block) ++ wholeBlocks (index + 1) blocks

/-- What arrives of a text that is sent in one piece. -/
def pieceOf (text : String) : String := if JsonString.Untorn text then text else ""

def ReplyBlock.arrivedCall : ReplyBlock → Option (JsonRaw × JsonRaw × JsonRaw)
  | toolUse id name input =>
      if JsonString.Untorn id ∧ JsonString.Untorn name then
        some (.str id, .str name,
          AnthropicAdapter.EventState.finalArguments (pieceOf (payloadText (.obj input))))
      else none
  | _ => none

theorem orText_eq (signature : Option String) :
    orText signature "" = String.join signature.toList := by
  cases signature with
  | none => rfl
  | some text => by_cases empty : text = "" <;> simp [orText, empty]

theorem wholeBlocks_rendered (index : Nat) (blocks : List ReplyBlock) :
    BlocksRendered index blocks (wholeBlocks index blocks) := by
  induction blocks generalizing index with
  | nil => exact .nil index
  | cons block blocks ih =>
      apply BlocksRendered.cons true _ (ih (index + 1))
      cases block with
      | thinking content signature =>
          refine ⟨?_, ?_, ?_⟩
          · simp [wholeDeltas]
          · cases signature <;> simp [wholeDeltas, carried]
          · rw [orText_eq]
            cases signature <;> simp [wholeDeltas, carried]
      | text content => exact ⟨by simp [wholeDeltas], by simp [wholeDeltas, carried]⟩
      | toolUse id name input => exact ⟨by simp [wholeDeltas], by simp [wholeDeltas, carried]⟩

theorem carried_piece (kind : DeltaKind) (text : String) :
    carried kind (arrived [⟨kind, text⟩]) = pieceOf text := by
  by_cases untorn : JsonString.Untorn text <;> simp [arrived, carried, pieceOf, untorn]

theorem wholeBlocks_grown (index : Nat) (blocks : List ReplyBlock) {t : ReplyTally}
    (closed : t.toolOpen = false) :
    Grown t (t.arrive (wholeBlocks index blocks))
      (String.join ((blocks.filterMap said).map pieceOf))
      ((lastThought blocks).map fun last => pieceOf last.1) (blocks.filterMap arrivedCall) := by
  induction blocks generalizing index t with
  | nil =>
      exact ⟨by simp [arrive, wholeBlocks], rfl, by simp [arrive, wholeBlocks], rfl, rfl, rfl,
        closed⟩
  | cons block blocks ih =>
      have first : Grown t (t.arrive (blockEvents index (block.opening true) (wholeDeltas block)))
          (String.join (block.said.toList.map pieceOf))
          (block.thought.map fun last => pieceOf last.1) block.arrivedCall.toList := by
        cases block with
        | thinking content signature =>
            have only : ∀ d ∈ wholeDeltas (.thinking content signature),
                d.kind = .thinking ∨ d.kind = .signature := by simp [wholeDeltas]
            have piece : carried .thinking (arrived (wholeDeltas (.thinking content signature))) =
                pieceOf content := by
              have own := carried_piece .thinking content
              by_cases untorn : JsonString.Untorn content <;>
                cases signature with
                | none => exact own
                | some text =>
                    by_cases other : JsonString.Untorn text <;>
                      simpa [wholeDeltas, arrived, carried, untorn, other] using own
            have grown := thinking_grown t index true only
            rw [piece] at grown
            exact grown
        | text content =>
            have only : ∀ d ∈ wholeDeltas (.text content), d.kind = .text := by simp [wholeDeltas]
            have grown := text_grown t index only
            rw [wholeDeltas, carried_piece] at grown
            simpa [said, arrivedCall, thought, opening, wholeDeltas] using grown
        | toolUse id name input =>
            have only : ∀ d ∈ wholeDeltas (.toolUse id name input), d.kind = .inputJson := by
              simp [wholeDeltas]
            have grown := toolUse_grown closed index id name only
            rw [wholeDeltas, carried_piece] at grown
            by_cases untorn : JsonString.Untorn id ∧ JsonString.Untorn name <;>
              simpa [said, arrivedCall, thought, opening, wholeDeltas, untorn] using grown
      have both := first.trans (ih (index + 1) first.closed)
      rw [← arrive_append, ← String.join_append, ← List.map_append, ← filterMap_toList,
        ← filterMap_toList] at both
      have last : ((lastThought blocks).map fun last => pieceOf last.1).or
          (block.thought.map fun last => pieceOf last.1) =
            (lastThought (block :: blocks)).map fun last => pieceOf last.1 := by
        rw [lastThought]
        cases lastThought blocks <;> rfl
      rw [last] at both
      exact both

end DuraLLM
