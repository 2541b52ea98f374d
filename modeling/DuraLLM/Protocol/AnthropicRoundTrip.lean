import DuraLLM.Protocol.Anthropic
import Mathlib.Data.List.Forall2

/-! # Anthropic round trips

A messages body in normal form comes back from the neutral request as it was
exactly when the neutral request can tell what was in it.  It forgets the order
of the blocks of a message, so that results and text of one user turn change
places.
-/

namespace DuraLLM

open Text

/-! ## Normal form -/

structure SignedThinking where
  thinking : String
  signature : String
  signed : signature ≠ ""

structure ToolUse where
  id : Option String
  name : String
  input : JsonValue

structure TextResult where
  toolUseId : String
  content : String
  isError : Bool

def SignedThinking.block (t : SignedThinking) : ContentBlock where
  content := .thinking t.thinking (some t.signature)

def ToolUse.block (u : ToolUse) : ContentBlock where
  content := .toolUse u.id u.name (.object u.input)

def TextResult.block (r : TextResult) : ContentBlock where
  content := .toolResult r.toolUseId (.text r.content) r.isError

def spokenBlock (text : String) : ContentBlock where
  content := .text text

structure AssistantTurn where
  thinking : Option SignedThinking := none
  text : Option String := none
  toolUses : List ToolUse := []
  spoken : text ≠ some "" := by decide
  /-- The marker of the last block. -/
  cacheControl : Option JsonValue := none

structure UserTurn where
  results : List TextResult := []
  text : Option String := none
  spoken : text ≠ some "" := by decide
  /-- The marker of the last block. -/
  cacheControl : Option JsonValue := none

inductive Turn where
  | assistant (turn : AssistantTurn)
  | user (turn : UserTurn)

def AssistantTurn.blocks (t : AssistantTurn) : List ContentBlock :=
  t.thinking.toList.map (·.block) ++ (t.text.toList.map spokenBlock ++ t.toolUses.map (·.block))

def UserTurn.blocks (t : UserTurn) : List ContentBlock :=
  t.results.map (·.block) ++ t.text.toList.map spokenBlock

def Turn.message : Turn → AnthropicMessage
  | .assistant turn =>
      { role := "assistant", content := .blocks (markBlocks turn.cacheControl turn.blocks) }
  | .user turn => { role := "user", content := .blocks (markBlocks turn.cacheControl turn.blocks) }

structure NormalBody where
  model : String
  system : Option String := none
  tools : List AnthropicTool := []
  marked : ∀ t ∈ tools, ∀ marker ∈ t.cacheControl, marker.raw.truthy = true
  turns : List Turn
  toolChoice : Option JsonValue := none
  maxTokens : Option Int := none
  temperature : Option ℚ := none
  stream : Bool := false

def NormalBody.body (b : NormalBody) : AnthropicBody where
  model := b.model
  system := b.system.map .text
  tools := b.tools
  messages := b.turns.map (·.message)
  toolChoice := b.toolChoice
  maxTokens := b.maxTokens
  temperature := b.temperature
  stream := b.stream

/-! ## What is kept -/

structure AssistantTurn.Kept (t : AssistantTurn) : Prop where
  some : t.blocks ≠ []
  reasoned : ∀ thinking ∈ t.thinking, thinking.thinking ≠ ""
  identified : ∀ use ∈ t.toolUses, orText use.id "" ≠ ""

structure UserTurn.Kept (t : UserTurn) : Prop where
  some : t.blocks ≠ []
  apart : t.results = [] ∨ t.text = none

def Turn.Kept : Turn → Prop
  | .assistant turn => turn.Kept
  | .user turn => turn.Kept

def KnownChoice (toolChoice : JsonRaw) : Prop :=
  ∃ members kind, toolChoice = .obj members ∧ members.lookup "type" = some (.str kind) ∧
    kind ∈ ["auto", "any", "tool", "none"]

structure NormalBody.Kept (b : NormalBody) : Prop where
  system : b.system ≠ some ""
  turns : ∀ t ∈ b.turns, t.Kept
  toolChoice : ∀ choice ∈ b.toolChoice, b.tools ≠ [] ∧ KnownChoice choice.raw
  maxTokens : b.maxTokens ≠ some 0

/-! ## Markers -/

def Unmarked (blocks : List ContentBlock) : Prop := ∀ b ∈ blocks, b.cacheControl = none

/-- The blocks differ in their markers only. -/
abbrev SameContents : List ContentBlock → List ContentBlock → Prop :=
  List.Forall₂ fun a b => a.content = b.content

theorem sameContents_refl (blocks : List ContentBlock) : SameContents blocks blocks :=
  List.forall₂_same.mpr fun _ _ => rfl

theorem sameContents_markLast (marker : JsonValue) (blocks : List ContentBlock) :
    SameContents (markLast marker blocks) blocks := by
  induction blocks using markLast.induct with
  | case1 => exact .nil
  | case2 b => exact .cons rfl .nil
  | case3 b blocks more ih =>
      rw [markLast]
      · exact .cons rfl ih
      · exact more

theorem sameContents_markBlocks (marker : Option JsonValue) (blocks : List ContentBlock) :
    SameContents (markBlocks marker blocks) blocks := by
  unfold markBlocks
  split
  · exact sameContents_markLast _ blocks
  · exact sameContents_refl blocks

theorem SameContents.unique {as bs cs : List ContentBlock} (left : SameContents cs as)
    (right : SameContents cs bs) (bare : Unmarked as) (plain : Unmarked bs) : as = bs := by
  induction left generalizing bs with
  | nil => exact (List.forall₂_nil_left_iff.mp right).symm
  | @cons c a cs as first rest ih =>
      cases right with
      | @cons _ b _ bs other later =>
          obtain ⟨unmarked, bare⟩ := List.forall_mem_cons.mp bare
          obtain ⟨clean, plain⟩ := List.forall_mem_cons.mp plain
          have equal : a = b := by
            cases a
            cases b
            simp_all
          rw [equal, ih later bare plain]

theorem SameContents.filterMap_eq {α : Type} {f : ContentBlock → Option α}
    {as bs : List ContentBlock} (same : SameContents as bs)
    (blind : ∀ a b : ContentBlock, a.content = b.content → f a = f b) :
    as.filterMap f = bs.filterMap f := by
  induction same with
  | nil => rfl
  | @cons a b as bs first rest ih =>
      rw [List.filterMap_cons, List.filterMap_cons, blind a b first, ih]

theorem SameContents.blockToolCalls_eq {as bs : List ContentBlock} (same : SameContents as bs)
    (draw : Nat → String) (n : Nat) : blockToolCalls draw n as = blockToolCalls draw n bs := by
  induction same generalizing n with
  | nil => rfl
  | @cons a b as bs first rest ih =>
      have call : a.toolCall (draw n) = b.toolCall (draw n) := by
        simp only [ContentBlock.toolCall, first]
      rw [blockToolCalls, blockToolCalls, call, ih (n + 1)]

/-- The markers of blocks are not in the blocks that come back. -/
theorem SameContents.contentBlocks_eq {as bs : List ContentBlock} (same : SameContents as bs)
    (role : String) (draw : Nat → String) :
    contentBlocks (anthropicMessageToIr draw { role, content := .blocks as }) =
      contentBlocks (anthropicMessageToIr draw { role, content := .blocks bs }) := by
  have texts : as.filterMap (·.text) = bs.filterMap (·.text) :=
    same.filterMap_eq fun a b first => by simp only [ContentBlock.text, first]
  have thoughts : as.filterMap (·.thinking) = bs.filterMap (·.thinking) :=
    same.filterMap_eq fun a b first => by simp only [ContentBlock.thinking, first]
  have signatures : as.filterMap (·.signature) = bs.filterMap (·.signature) :=
    same.filterMap_eq fun a b first => by simp only [ContentBlock.signature, first]
  have results : as.filterMap (·.toolResult) = bs.filterMap (·.toolResult) :=
    same.filterMap_eq fun a b first => by simp only [ContentBlock.toolResult, first]
  have message : anthropicMessageToIr draw { role, content := .blocks as } =
      { anthropicMessageToIr draw { role, content := .blocks bs } with
        cacheControl := (as.filterMap (·.cacheControl)).getLast? } := by
    simp only [anthropicMessageToIr, texts, thoughts, signatures, results, same.blockToolCalls_eq]
  rw [message]
  rfl

theorem marker_markLast (marker : JsonValue) {blocks : List ContentBlock}
    (plain : Unmarked blocks) (some : blocks ≠ []) :
    (markLast marker blocks).filterMap (·.cacheControl) = [marker] := by
  induction blocks using markLast.induct with
  | case1 => exact absurd rfl some
  | case2 b => rfl
  | case3 b blocks more ih =>
      obtain ⟨first, rest⟩ := List.forall_mem_cons.mp plain
      rw [markLast, List.filterMap_cons, first]
      · exact ih rest more
      · exact more

theorem marker_markBlocks (marker : Option JsonValue) {blocks : List ContentBlock}
    (plain : Unmarked blocks) (some : blocks ≠ []) :
    ((markBlocks marker blocks).filterMap (·.cacheControl)).getLast? =
      marker.filter (·.raw.truthy) := by
  unfold markBlocks
  cases marker.filter (·.raw.truthy) with
  | none =>
      have none : blocks.filterMap (·.cacheControl) = [] := List.filterMap_eq_nil_iff.mpr plain
      rw [none]
      rfl
  | some marker =>
      rw [marker_markLast marker plain some]
      rfl

theorem unmarked_contentBlocks (m : NormalizedMessage JsonValue) : Unmarked (contentBlocks m) := by
  intro b mem
  unfold contentBlocks at mem
  simp only [List.mem_append, List.mem_map] at mem
  obtain ((thought | text) | ⟨tc, -, rfl⟩) | ⟨tr, -, rfl⟩ := mem
  · split at thought
    · rw [List.mem_singleton.mp thought]
    · cases thought
  · split at text
    · rw [List.mem_singleton.mp text]
    · cases text
  · rfl
  · rfl

/-! ## Messages -/

theorem messageToAnthropic_eq (m : NormalizedMessage JsonValue) :
    messageToAnthropic m =
      { role := m.role
        content :=
          if contentBlocks m = [] then .text m.content
          else .blocks (markBlocks m.cacheControl (contentBlocks m)) } := by
  unfold messageToAnthropic
  cases contentBlocks m <;> rfl

theorem markBlocks_filter (marker : Option JsonValue) (blocks : List ContentBlock) :
    markBlocks (marker.filter (·.raw.truthy)) blocks = markBlocks marker blocks := by
  unfold markBlocks
  rw [Option.filter_filter]
  simp only [Bool.and_self]

/-- A message comes back when there is a block in it and its blocks come back. -/
theorem message_back_iff (role : String) (marker : Option JsonValue) {blocks : List ContentBlock}
    (plain : Unmarked blocks) (draw : Nat → String) :
    messageToAnthropic
        (anthropicMessageToIr draw { role, content := .blocks (markBlocks marker blocks) }) =
      { role, content := .blocks (markBlocks marker blocks) } ↔
    blocks ≠ [] ∧
      contentBlocks (anthropicMessageToIr draw { role, content := .blocks blocks }) = blocks := by
  have same := sameContents_markBlocks marker blocks
  have sent := same.contentBlocks_eq role draw
  generalize decode : anthropicMessageToIr draw
    { role, content := .blocks (markBlocks marker blocks) } = m at sent
  have role_eq : m.role = role := by rw [← decode]; rfl
  have marked : m.cacheControl =
      ((markBlocks marker blocks).filterMap (·.cacheControl)).getLast? := by rw [← decode]; rfl
  have unmarked := unmarked_contentBlocks m
  rw [messageToAnthropic_eq, role_eq, ← sent]
  by_cases some : blocks = []
  · have none : contentBlocks m = [] := by rw [sent, some]; rfl
    simp [none, some]
  · rw [marked, marker_markBlocks marker plain some, markBlocks_filter]
    constructor
    · intro back
      have content := congrArg AnthropicMessage.content back
      dsimp only at content
      split at content
      · cases content
      · have blocks_eq := MessageContent.blocks.inj content
        have contents := sameContents_markBlocks marker (contentBlocks m)
        rw [blocks_eq] at contents
        exact ⟨some, contents.unique same unmarked plain⟩
    · rintro ⟨-, back⟩
      rw [back, if_neg some]

/-! ## Turns -/

theorem SignedThinking.thinking_block (t : SignedThinking) : t.block.thinking = some t.thinking := rfl

theorem SignedThinking.signature_block (t : SignedThinking) :
    t.block.signature = some t.signature := by
  simp [ContentBlock.signature, block, t.signed]

/-- The tool uses of blocks that come after others. -/
theorem blockToolCalls_append (draw : Nat → String) (n : Nat) {others : List ContentBlock}
    (none : ∀ b ∈ others, ∀ hex, b.toolCall hex = none) (blocks : List ContentBlock) :
    blockToolCalls draw n (others ++ blocks) = blockToolCalls draw (n + others.length) blocks := by
  induction others generalizing n with
  | nil => rfl
  | cons b others ih =>
      obtain ⟨first, later⟩ := List.forall_mem_cons.mp none
      rw [List.cons_append, blockToolCalls, first, ih (n + 1) later, List.length_cons]
      simp only [Option.toList_none, List.nil_append]
      congr 1
      omega

/-- The call of a tool use; `hex` is drawn for its id when it has none. -/
def ToolUse.call (use : ToolUse) (hex : String) : NormalizedToolCall JsonValue where
  id := orText use.id ("toolu_" ++ hex)
  name := use.name
  arguments := use.input
  rawArguments := use.input.dumps .verbatim

theorem ToolUse.toolCall_block (use : ToolUse) (hex : String) :
    use.block.toolCall hex = some (use.call hex) := rfl

/-- A tool use comes back when it had an id. -/
theorem use_back_iff (use : ToolUse) (hex : String) :
    toolUseToAnthropic (use.call hex) = use.block ↔ orText use.id "" ≠ "" := by
  obtain ⟨id, name, input⟩ := use
  cases id with
  | none => simp [ToolUse.block, ToolUse.call, toolUseToAnthropic, orText]
  | some id =>
      by_cases empty : id = ""
      · simp [ToolUse.block, ToolUse.call, toolUseToAnthropic, orText, empty]
      · simp [ToolUse.block, ToolUse.call, toolUseToAnthropic, orText, empty]

theorem uses_back_iff (draw : Nat → String) (n : Nat) (uses : List ToolUse) :
    (blockToolCalls draw n (uses.map (·.block))).map toolUseToAnthropic = uses.map (·.block) ↔
      ∀ use ∈ uses, orText use.id "" ≠ "" := by
  induction uses generalizing n with
  | nil => simp [blockToolCalls]
  | cons use uses ih =>
      rw [List.map_cons, blockToolCalls, use.toolCall_block, Option.toList_some,
        List.singleton_append, List.map_cons, List.cons.injEq, use_back_iff, ih (n + 1),
        List.forall_mem_cons]

theorem length_blockToolCalls (draw : Nat → String) (n : Nat) (uses : List ToolUse) :
    (blockToolCalls draw n (uses.map (·.block))).length = uses.length := by
  induction uses generalizing n with
  | nil => rfl
  | cons use uses ih =>
      rw [List.map_cons, blockToolCalls, use.toolCall_block, Option.toList_some,
        List.singleton_append, List.length_cons, ih (n + 1), List.length_cons]

theorem results_back (results : List TextResult) :
    (results.filterMap fun r => r.block.toolResult).map toolResultToAnthropic =
      results.map (·.block) := by
  induction results with
  | nil => rfl
  | cons r results ih =>
      have first : r.block.toolResult =
          some { toolCallId := r.toolUseId, content := r.content, isError := r.isError } := rfl
      rw [List.filterMap_cons, first, List.map_cons, List.map_cons, ih]
      rfl

theorem texts_back {text : Option String} (spoken : text ≠ some "") :
    (if joinLines text.toList ≠ "" then
      [({ content := .text (joinLines text.toList) } : ContentBlock)] else []) =
        text.toList.map spokenBlock := by
  cases text with
  | none => rfl
  | some text =>
      have nonempty : text ≠ "" := fun empty => spoken (congrArg some empty)
      simp [joinLines, spokenBlock, nonempty]

/-- What an assistant turn comes back as. -/
theorem assistant_back (t : AssistantTurn) (draw : Nat → String) :
    contentBlocks (anthropicMessageToIr draw { role := "assistant", content := .blocks t.blocks }) =
      (t.thinking.filter (·.thinking ≠ "")).toList.map (·.block) ++
        (t.text.toList.map spokenBlock ++
          (blockToolCalls draw (t.thinking.toList.length + t.text.toList.length)
            (t.toolUses.map (·.block))).map toolUseToAnthropic) := by
  have uses : blockToolCalls draw 0 t.blocks =
      blockToolCalls draw (t.thinking.toList.length + t.text.toList.length)
        (t.toolUses.map (·.block)) := by
    have others : ∀ b ∈ t.thinking.toList.map (·.block) ++ t.text.toList.map spokenBlock,
        ∀ hex, b.toolCall hex = none := by
      intro b mem hex
      simp only [List.mem_append, List.mem_map] at mem
      obtain ⟨thinking, -, rfl⟩ | ⟨text, -, rfl⟩ := mem <;> rfl
    rw [AssistantTurn.blocks, ← List.append_assoc, blockToolCalls_append draw 0 others]
    simp
  have texts : t.blocks.filterMap (·.text) = t.text.toList := by
    simp [AssistantTurn.blocks, List.filterMap_map, Function.comp_def, SignedThinking.block,
      ToolUse.block, spokenBlock, ContentBlock.text]
  have thoughts : t.blocks.filterMap (·.thinking) = t.thinking.toList.map (·.thinking) := by
    simp [AssistantTurn.blocks, List.filterMap_map, Function.comp_def, SignedThinking.block,
      ToolUse.block, spokenBlock, ContentBlock.thinking]
  have signatures : t.blocks.filterMap (·.signature) = t.thinking.toList.map (·.signature) := by
    simp [AssistantTurn.blocks, List.filterMap_map, Function.comp_def, SignedThinking.block,
      ToolUse.block, spokenBlock, ContentBlock.signature, SignedThinking.signed, Option.filter]
  have results : t.blocks.filterMap (·.toolResult) = [] := by
    simp [AssistantTurn.blocks, List.filterMap_map, Function.comp_def, SignedThinking.block,
      ToolUse.block, spokenBlock, ContentBlock.toolResult]
  have spoken := texts_back t.spoken
  unfold contentBlocks
  simp only [anthropicMessageToIr, uses, texts, thoughts, signatures, results, spoken,
    List.map_nil, List.append_nil, List.append_assoc]
  congr 1
  cases t.thinking with
  | none => rfl
  | some thinking =>
      have signed := thinking.signed
      by_cases empty : thinking.thinking = ""
      · simp [orText, joinLines, empty]
      · simp [orText, joinLines, SignedThinking.block, Option.filter, signed, empty]

/-- What a user turn comes back as. -/
theorem user_back (t : UserTurn) (draw : Nat → String) :
    contentBlocks (anthropicMessageToIr draw { role := "user", content := .blocks t.blocks }) =
      t.text.toList.map spokenBlock ++ t.results.map (·.block) := by
  have uses : blockToolCalls draw 0 t.blocks = [] := by
    have others : ∀ b ∈ t.blocks, ∀ hex, b.toolCall hex = none := by
      intro b mem hex
      simp only [UserTurn.blocks, List.mem_append, List.mem_map] at mem
      obtain ⟨result, -, rfl⟩ | ⟨text, -, rfl⟩ := mem <;> rfl
    have none := blockToolCalls_append draw 0 others []
    rwa [List.append_nil] at none
  have texts : t.blocks.filterMap (·.text) = t.text.toList := by
    simp [UserTurn.blocks, List.filterMap_map, Function.comp_def, TextResult.block,
      spokenBlock, ContentBlock.text]
  have thoughts : t.blocks.filterMap (·.thinking) = [] := by
    simp [UserTurn.blocks, List.filterMap_map, Function.comp_def, TextResult.block,
      spokenBlock, ContentBlock.thinking]
  have results : (t.blocks.filterMap (·.toolResult)).map toolResultToAnthropic =
      t.results.map (·.block) := by
    have none : (t.text.toList.map spokenBlock).filterMap (·.toolResult) = [] := by
      simp [List.filterMap_map, Function.comp_def, spokenBlock, ContentBlock.toolResult]
    rw [UserTurn.blocks, List.filterMap_append, none, List.append_nil, List.filterMap_map]
    exact results_back t.results
  unfold contentBlocks
  simp only [anthropicMessageToIr, uses, texts, thoughts, results, texts_back t.spoken]
  simp [orText]

theorem unmarked_assistant (t : AssistantTurn) : Unmarked t.blocks := by
  intro b mem
  simp only [AssistantTurn.blocks, List.mem_append, List.mem_map] at mem
  obtain ⟨thinking, -, rfl⟩ | ⟨text, -, rfl⟩ | ⟨use, -, rfl⟩ := mem <;> rfl

theorem unmarked_user (t : UserTurn) : Unmarked t.blocks := by
  intro b mem
  simp only [UserTurn.blocks, List.mem_append, List.mem_map] at mem
  obtain ⟨result, -, rfl⟩ | ⟨text, -, rfl⟩ := mem <;> rfl

/-- The thinking of an assistant turn is dropped when it is empty. -/
theorem assistant_back_iff (t : AssistantTurn) (draw : Nat → String) :
    contentBlocks (anthropicMessageToIr draw { role := "assistant", content := .blocks t.blocks }) =
        t.blocks ↔
      (∀ thinking ∈ t.thinking, thinking.thinking ≠ "") ∧
        ∀ use ∈ t.toolUses, orText use.id "" ≠ "" := by
  rw [assistant_back, AssistantTurn.blocks]
  cases t.thinking with
  | none => simp [uses_back_iff]
  | some thinking =>
      by_cases empty : thinking.thinking = ""
      · have dropped : (Option.filter (fun t : SignedThinking => t.thinking ≠ "")
            (some thinking)).toList = [] := by simp [Option.filter, empty]
        rw [dropped]
        constructor
        · intro same
          have lengths := congrArg List.length same
          simp only [List.map_nil, List.nil_append, List.length_append, List.length_map,
            length_blockToolCalls, Option.toList_some, List.length_cons, List.length_nil] at lengths
          omega
        · rintro ⟨reasoned, -⟩
          exact absurd empty (reasoned thinking rfl)
      · simp [Option.filter, empty, uses_back_iff]

/-- Results and text of a user turn change places. -/
theorem user_back_iff (t : UserTurn) (draw : Nat → String) :
    contentBlocks (anthropicMessageToIr draw { role := "user", content := .blocks t.blocks }) =
        t.blocks ↔ t.results = [] ∨ t.text = none := by
  rw [user_back, UserTurn.blocks]
  cases t.text with
  | none => simp
  | some text =>
      cases t.results with
      | nil => simp
      | cons result results => simp [spokenBlock, TextResult.block]

theorem turn_back_iff (t : Turn) (draw : Nat → String) :
    messageToAnthropic (anthropicMessageToIr draw t.message) = t.message ↔ t.Kept := by
  cases t with
  | assistant t =>
      rw [Turn.message, message_back_iff _ _ (unmarked_assistant t), assistant_back_iff]
      constructor
      · rintro ⟨some, reasoned, identified⟩
        exact ⟨some, reasoned, identified⟩
      · rintro ⟨some, reasoned, identified⟩
        exact ⟨some, reasoned, identified⟩
  | user t =>
      rw [Turn.message, message_back_iff _ _ (unmarked_user t), user_back_iff]
      constructor
      · rintro ⟨some, apart⟩
        exact ⟨some, apart⟩
      · rintro ⟨some, apart⟩
        exact ⟨some, apart⟩

theorem turns_back_iff (turns : List Turn) (draw : Nat → Nat → String) (n : Nat) :
    (anthropicMessagesToIr draw n (turns.map (·.message))).map messageToAnthropic =
        turns.map (·.message) ↔ ∀ t ∈ turns, t.Kept := by
  induction turns generalizing n with
  | nil => simp [anthropicMessagesToIr]
  | cons t turns ih =>
      rw [List.map_cons, anthropicMessagesToIr, List.map_cons, List.cons.injEq, turn_back_iff,
        ih (n + 1), List.forall_mem_cons]

/-! ## The whole body -/

theorem isStr_iff {v : JsonRaw} {text : String} : v.isStr text = true ↔ v = .str text := by
  cases v <;> simp [JsonRaw.isStr]

theorem getD_isStr {found : Option JsonRaw} {text : String}
    (is : (found.getD .null).isStr text = true) : found = some (.str text) := by
  cases found with
  | none => simp [JsonRaw.isStr] at is
  | some v => exact congrArg some (isStr_iff.mp is)

theorem KnownChoice.toolChoiceToAnthropic_eq {choice : JsonRaw} (known : KnownChoice choice) :
    toolChoiceToAnthropic choice = some choice := by
  obtain ⟨members, kind, rfl, typed, kinds⟩ := known
  simp only [List.mem_cons, List.not_mem_nil, or_false] at kinds
  obtain rfl | rfl | rfl | rfl := kinds <;> simp [toolChoiceToAnthropic, typed, JsonRaw.isStr]

/-- What is sent is the choice itself, or the object of a mode or of a function. -/
theorem toolChoiceToAnthropic_cases {choice sent : JsonRaw}
    (chosen : toolChoiceToAnthropic choice = some sent) :
    (KnownChoice choice ∧ sent = choice) ∨
    (∃ mode members, choice = .str mode ∧ sent = .obj members) ∨
    (∃ members name, choice = .obj members ∧ members.lookup "type" = some (.str "function") ∧
      sent = .obj [("type", .str "tool"), ("name", name)]) := by
  unfold toolChoiceToAnthropic at chosen
  split at chosen
  · next mode =>
    right
    left
    split at chosen
    · exact ⟨mode, _, rfl, (Option.some.inj chosen).symm⟩
    · split at chosen
      · exact ⟨mode, _, rfl, (Option.some.inj chosen).symm⟩
      · split at chosen
        · exact ⟨mode, _, rfl, (Option.some.inj chosen).symm⟩
        · cases chosen
  · next members =>
    dsimp only at chosen
    split at chosen
    · next kinds =>
      left
      simp only [Bool.or_eq_true] at kinds
      have same : sent = .obj members := (Option.some.inj chosen).symm
      obtain ((auto | any) | tool) | none := kinds
      · exact ⟨⟨members, "auto", rfl, getD_isStr auto, by simp⟩, same⟩
      · exact ⟨⟨members, "any", rfl, getD_isStr any, by simp⟩, same⟩
      · exact ⟨⟨members, "tool", rfl, getD_isStr tool, by simp⟩, same⟩
      · exact ⟨⟨members, "none", rfl, getD_isStr none, by simp⟩, same⟩
    · split at chosen
      · next function =>
        right
        right
        split at chosen
        · split at chosen
          · exact ⟨members, _, rfl, getD_isStr function, (Option.some.inj chosen).symm⟩
          · cases chosen
        · cases chosen
      · cases chosen
  · cases chosen

/-- A choice that is not known is sent in another form. -/
theorem choice_back_iff (choice : JsonValue) :
    (toolChoiceToAnthropic choice.raw).map JsonValue.ofRaw = some choice ↔
      KnownChoice choice.raw := by
  constructor
  · intro same
    obtain ⟨sent, chosen, back⟩ := Option.map_eq_some_iff.mp same
    have raw : choice.raw = sent.sorted := by rw [← back]; rfl
    obtain ⟨known, -⟩ | ⟨mode, members, given, rfl⟩ | ⟨members, name, given, typed, rfl⟩ :=
      toolChoiceToAnthropic_cases chosen
    · exact known
    · rw [given] at raw
      cases raw
    · rw [given, JsonRaw.sorted, JsonRaw.obj.injEq] at raw
      have type := JsonRaw.lookup_sortedMembers "type" [("type", .str "tool"), ("name", name)]
      rw [← raw, typed] at type
      simp [JsonRaw.field, JsonRaw.sorted] at type
  · intro known
    rw [known.toolChoiceToAnthropic_eq]
    exact congrArg some (JsonValue.ext choice.canonical.sorted_eq)

theorem tool_back {t : AnthropicTool}
    (marked : ∀ marker ∈ t.cacheControl, marker.raw.truthy = true) :
    toolToAnthropic
      { name := t.name
        description := t.description
        parameters := t.inputSchema
        cacheControl := t.cacheControl } = t := by
  have same : t.cacheControl.filter (·.raw.truthy) = t.cacheControl := by
    cases marker : t.cacheControl with
    | none => rfl
    | some marker' => simp [marked marker' marker]
  simp only [toolToAnthropic, same]

theorem turns_spoken (turns : List Turn) (draw : Nat → Nat → String) (n : Nat) :
    ∀ m ∈ anthropicMessagesToIr draw n (turns.map (·.message)), m.role ≠ "system" := by
  induction turns generalizing n with
  | nil => simp [anthropicMessagesToIr]
  | cons t turns ih =>
      rw [List.map_cons, anthropicMessagesToIr, List.forall_mem_cons]
      constructor
      · cases t <;> simp [Turn.message, anthropicMessageToIr]
      · exact ih (n + 1)

namespace NormalBody

variable (b : NormalBody) (requestId : String) (draw : Nat → Nat → String)

theorem system_back_iff :
    systemToAnthropic (anthropicRequestToIr requestId draw b.body) = b.system.map .text ↔
      b.system ≠ some "" := by
  have none : (anthropicMessagesToIr draw 0 (b.turns.map (·.message))).find?
      (·.role == "system") = none := by
    rw [List.find?_eq_none]
    intro m mem
    simpa using turns_spoken b.turns draw 0 m mem
  cases system : b.system with
  | none => simp [systemToAnthropic, anthropicRequestToIr, body, system, systemText, none]
  | some text =>
      by_cases empty : text = ""
      · simp [systemToAnthropic, anthropicRequestToIr, body, system, systemText, none, empty]
      · simp [systemToAnthropic, anthropicRequestToIr, body, system, systemText,
          systemCacheControl, Option.filter, empty]

theorem tools_back :
    ((anthropicRequestToIr requestId draw b.body).tools).map toolToAnthropic = b.tools := by
  have all : ∀ t ∈ b.tools, toolToAnthropic
      { name := t.name
        description := t.description
        parameters := t.inputSchema
        cacheControl := t.cacheControl } = t := fun t mem => tool_back (b.marked t mem)
  have same := List.map_congr_left all
  rw [List.map_id'] at same
  rw [anthropicRequestToIr, List.map_map]
  exact same

theorem toolChoice_back_iff :
    (if (anthropicRequestToIr requestId draw b.body).tools = [] then none
      else ((b.toolChoice.map (·.raw)).bind toolChoiceToAnthropic).map .ofRaw) = b.toolChoice ↔
      ∀ choice ∈ b.toolChoice, b.tools ≠ [] ∧ KnownChoice choice.raw := by
  have tools : (anthropicRequestToIr requestId draw b.body).tools = [] ↔ b.tools = [] := by
    simp [anthropicRequestToIr, body]
  simp only [tools]
  cases b.toolChoice with
  | none => simp
  | some choice =>
      have known := choice_back_iff choice
      by_cases none : b.tools = []
      · simp [none]
      · simpa [none] using known

theorem messages_back_iff :
    ((anthropicRequestToIr requestId draw b.body).messages.filter (·.role ≠ "system")).map
        messageToAnthropic = b.turns.map (·.message) ↔ ∀ t ∈ b.turns, t.Kept := by
  have all : (anthropicRequestToIr requestId draw b.body).messages.filter (·.role ≠ "system") =
      anthropicMessagesToIr draw 0 (b.turns.map (·.message)) := by
    rw [List.filter_eq_self.mpr]
    · rfl
    · intro m mem
      simpa using turns_spoken b.turns draw 0 m mem
  rw [all, turns_back_iff]

theorem maxTokens_back_iff : b.maxTokens.filter (· ≠ 0) = b.maxTokens ↔ b.maxTokens ≠ some 0 := by
  cases b.maxTokens with
  | none => simp
  | some n => by_cases zero : n = 0 <;> simp [Option.filter, zero]

end NormalBody

/-- A user turn that answers a tool use and goes on talking. -/
def answeredBody : NormalBody where
  model := "claude-sonnet-4"
  turns :=
    [.user { text := some "Run the tests." },
     .assistant { toolUses := [⟨some "toolu_1", "bash", .ofRaw (.obj [])⟩] },
     .user { results := [⟨"toolu_1", "3 passed", false⟩], text := some "Go on." }]
  marked := by simp

/-- The text of the first block. -/
def MessageContent.leadingText : MessageContent → Option String
  | .blocks (b :: _) => b.text
  | _ => none

end DuraLLM
