import DuraLLM.Providers.AnthropicAdapter

/-! # Anthropic replies and their streams

A reply of the provider, and the events that stream it: every block is opened
empty, filled by fragments and closed.  The events are written with their
characters as they are, so an event with a separator in one of its texts does
not arrive.  What is read is what the other events carry.
-/

namespace DuraLLM

open Text JsonRaw

/-! ## Replies -/

inductive ReplyBlock where
  | thinking (content : String) (signature : Option String)
  | text (content : String)
  | toolUse (id name : String) (input : List (String × JsonRaw))

structure AnthropicReply where
  id : String
  model : String
  content : List ReplyBlock
  stopReason : String
  inputTokens : Nat
  outputTokens : Nat

def ReplyBlock.members : ReplyBlock → List (String × JsonRaw)
  | .thinking content signature =>
      [("type", .str "thinking"), ("thinking", .str content)] ++
        optionalMember "signature" signature
  | .text content => [("type", .str "text"), ("text", .str content)]
  | .toolUse id name input =>
      [("type", .str "tool_use"), ("id", .str id), ("name", .str name), ("input", .obj input)]

/-- A message with its content and its end, if it has come to that. -/
def replyMembers (id model : String) (content : List ReplyBlock) (stopReason : JsonRaw)
    (inputTokens outputTokens : Nat) : List (String × JsonRaw) :=
  [("id", .str id), ("type", .str "message"), ("role", .str "assistant"), ("model", .str model),
    ("content", .arr (content.map fun block => .obj block.members)), ("stop_reason", stopReason),
    ("stop_sequence", null),
    ("usage", .obj [("input_tokens", int inputTokens), ("output_tokens", int outputTokens)])]

/-- The reply as one body. -/
def AnthropicReply.body (style : JsonStyle) (msg : AnthropicReply) : String :=
  String.ofList ((obj (replyMembers msg.id msg.model msg.content (.str msg.stopReason)
    msg.inputTokens msg.outputTokens)).write style)

/-! ## Events -/

inductive DeltaKind where
  | thinking
  | signature
  | text
  | inputJson
  deriving DecidableEq

namespace DeltaKind

def type : DeltaKind → String
  | thinking => "thinking_delta"
  | signature => "signature_delta"
  | text => "text_delta"
  | inputJson => "input_json_delta"

def key : DeltaKind → String
  | thinking => "thinking"
  | signature => "signature"
  | text => "text"
  | inputJson => "partial_json"

end DeltaKind

structure ReplyDelta where
  kind : DeltaKind
  part : String

/-- The start of a block.  A thinking block may start with an empty signature. -/
inductive BlockOpening where
  | thinking (signed : Bool)
  | text
  | toolUse (id name : String)

def BlockOpening.members : BlockOpening → List (String × JsonRaw)
  | thinking signed =>
      [("type", .str "thinking"), ("thinking", .str "")] ++
        (if signed then [("signature", .str "")] else [])
  | text => [("type", .str "text"), ("text", .str "")]
  | toolUse id name =>
      [("type", .str "tool_use"), ("id", .str id), ("name", .str name), ("input", .obj [])]

def ReplyBlock.opening (signed : Bool) : ReplyBlock → BlockOpening
  | thinking _ _ => .thinking signed
  | text _ => .text
  | toolUse id name _ => .toolUse id name

inductive ReplyEvent where
  | messageStart (id model : String) (inputTokens outputTokens : Nat)
  | blockStart (index : Nat) (opening : BlockOpening)
  | blockDelta (index : Nat) (delta : ReplyDelta)
  | blockStop (index : Nat)
  | messageDelta (stopReason : String) (outputTokens : Nat)
  | messageStop
  | ping

namespace ReplyEvent

def name : ReplyEvent → String
  | messageStart .. => "message_start"
  | blockStart .. => "content_block_start"
  | blockDelta .. => "content_block_delta"
  | blockStop .. => "content_block_stop"
  | messageDelta .. => "message_delta"
  | messageStop => "message_stop"
  | ping => "ping"

/-- What an event says beside its type. -/
def details : ReplyEvent → List (String × JsonRaw)
  | messageStart id model inputTokens outputTokens =>
      [("message", .obj (replyMembers id model [] null inputTokens outputTokens))]
  | blockStart index opening => [("index", int index), ("content_block", .obj opening.members)]
  | blockDelta index delta =>
      [("index", int index),
        ("delta", .obj [("type", .str delta.kind.type), (delta.kind.key, .str delta.part)])]
  | blockStop index => [("index", int index)]
  | messageDelta stopReason outputTokens =>
      [("delta", .obj [("stop_reason", .str stopReason), ("stop_sequence", null)]),
        ("usage", .obj [("output_tokens", int outputTokens)])]
  | messageStop => []
  | ping => []

def members (e : ReplyEvent) : List (String × JsonRaw) := ("type", .str e.name) :: e.details

def frame (e : ReplyEvent) : String := eventFrame e.name (.obj e.members)

/-- The texts that an event carries. -/
def texts : ReplyEvent → List String
  | messageStart id model _ _ => [id, model]
  | blockStart _ (.toolUse id name) => [id, name]
  | blockDelta _ delta => [delta.part]
  | messageDelta stopReason _ => [stopReason]
  | _ => []

/-- The event stays on its line. -/
def Whole (e : ReplyEvent) : Prop := ∀ text ∈ e.texts, JsonString.Untorn text

instance (e : ReplyEvent) : Decidable e.Whole :=
  inferInstanceAs (Decidable (∀ text ∈ e.texts, JsonString.Untorn text))

def isPing : ReplyEvent → Bool
  | ping => true
  | _ => false

end ReplyEvent

/-! ## Streams -/

def eventText (events : List ReplyEvent) : String := String.join (events.map ReplyEvent.frame)

/-- What the fragments of one kind add up to. -/
def carried (kind : DeltaKind) (deltas : List ReplyDelta) : String :=
  String.join ((deltas.filter (·.kind = kind)).map (·.part))

/-- The fragments of a block, cut anywhere.  An empty input may be sent as no text. -/
def ReplyBlock.Fragments : ReplyBlock → List ReplyDelta → Prop
  | thinking content signature, deltas =>
      (∀ d ∈ deltas, d.kind = .thinking ∨ d.kind = .signature) ∧
        carried .thinking deltas = content ∧ carried .signature deltas = orText signature ""
  | text content, deltas => (∀ d ∈ deltas, d.kind = .text) ∧ carried .text deltas = content
  | toolUse _ _ input, deltas =>
      (∀ d ∈ deltas, d.kind = .inputJson) ∧
        (carried .inputJson deltas = payloadText (.obj input) ∨
          carried .inputJson deltas = "" ∧ input = [])

/-- A block from its start to its stop. -/
def blockEvents (index : Nat) (opening : BlockOpening) (deltas : List ReplyDelta) :
    List ReplyEvent :=
  .blockStart index opening :: (deltas.map (.blockDelta index) ++ [.blockStop index])

/-- The events of the blocks, one block after the other. -/
inductive BlocksRendered : Nat → List ReplyBlock → List ReplyEvent → Prop
  | nil (index : Nat) : BlocksRendered index [] []
  | cons {index : Nat} {block : ReplyBlock} (signed : Bool) {deltas : List ReplyDelta}
      {blocks : List ReplyBlock} {events : List ReplyEvent} (fragments : block.Fragments deltas)
      (rest : BlocksRendered (index + 1) blocks events) :
      BlocksRendered index (block :: blocks)
        (blockEvents index (block.opening signed) deltas ++ events)

/-- The events stream the reply, with pings anywhere. -/
def AnthropicReply.Streamed (msg : AnthropicReply) (events : List ReplyEvent) : Prop :=
  ∃ outputTokens blocks, BlocksRendered 0 msg.content blocks ∧
    events.filter (!·.isPing) =
      .messageStart msg.id msg.model msg.inputTokens outputTokens ::
        (blocks ++ [.messageDelta msg.stopReason msg.outputTokens, .messageStop])

end DuraLLM
