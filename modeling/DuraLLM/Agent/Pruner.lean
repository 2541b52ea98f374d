import DuraLLM.Agent.Compaction
import DuraLLM.Lib.JsonAccess

/-! # Pruning OpenAI payloads

The pruner works on a deep copy of the payload itself: it shortens texts in the
messages, and evicts messages behind the first one or two.  Messages are
objects; what raises is `none`.
-/

namespace DuraLLM

open Text Eviction

/-- The members of a message or of a part of its content. -/
abbrev ChatMessage := List (String × JsonRaw)

/-- The order of the members does not change the length of the payload. -/
structure ChatPayload where
  rest : List (String × JsonRaw) := []
  tools : Option JsonRaw := none
  messages : Option (List ChatMessage) := none

namespace ChatPayload

def raw (payload : ChatPayload) : JsonRaw :=
  .obj (payload.rest ++ (payload.tools.map fun tools => ("tools", tools)).toList ++
    (payload.messages.map fun messages => ("messages", .arr (messages.map .obj))).toList)

def tokens (payload : ChatPayload) : Nat :=
  tokensOfLength (payload.raw.write .verbatim).length

/-- `payload.get("messages", [])` -/
def history (payload : ChatPayload) : List ChatMessage := payload.messages.getD []

/-- Whether the payload with these messages is over the target. -/
def exceeds (target : Int) (payload : ChatPayload) (messages : List ChatMessage) : Bool :=
  target < ({ payload with messages := some messages } : ChatPayload).tokens

def withMessages (payload : ChatPayload) (messages : List ChatMessage) : ChatPayload :=
  { payload with messages := some messages }

end ChatPayload

namespace ChatMessage

/-- `message.get("role") == role` -/
def isRole (m : ChatMessage) (role : String) : Bool := (m.lookup "role").any (·.isStr role)

def isType (m : ChatMessage) (type : String) : Bool := (m.lookup "type").any (·.isStr type)

end ChatMessage

/-! ## Texts that are shortened in place -/

section Texts

variable (libraries : Libraries)

/-- The text under a key, if it is one and too long. -/
def condenseText (key : String) (limit maxChars : Nat) (m : ChatMessage) : ChatMessage :=
  match m.lookup key with
  | some (.str text) =>
      if limit < text.length then
        JsonMembers.assign key (.str (extractDiagnosticSummary libraries maxChars text)) m
      else m
  | _ => m

/-- The same without a look at the type: `len` raises, or what follows it does. -/
def condenseSized (key : String) (limit maxChars : Nat) (m : ChatMessage) : Option ChatMessage :=
  match m.lookup key with
  | some (.scalar _) => none
  | some (.arr items) => if limit < items.length then none else some m
  | some (.obj members) => if limit < members.length then none else some m
  | some (.str _) | none => some (condenseText libraries key limit maxChars m)

def mapObj (f : ChatMessage → ChatMessage) : JsonRaw → JsonRaw
  | .obj members => .obj (f members)
  | value => value

/-- The parts of a content that is a list. -/
def mapParts (f : ChatMessage → ChatMessage) (m : ChatMessage) : ChatMessage :=
  match m.lookup "content" with
  | some (.arr parts) =>
      JsonMembers.assign "content" (.arr (parts.map (mapObj f))) m
  | _ => m

def condenseToolPart (limit maxChars : Nat) (part : ChatMessage) : ChatMessage :=
  if ChatMessage.isType part "tool_result" then condenseText libraries "content" limit maxChars part
  else part

/-! ## `prune_openai_request` -/

/-- What becomes of the messages of a history of one or two. -/
def condenseShortHistory (m : ChatMessage) : ChatMessage :=
  if ChatMessage.isRole m "tool" || ChatMessage.isRole m "user" then
    mapParts (condenseToolPart libraries 1000 800) (condenseText libraries "content" 2000 1500 m)
  else m

def startIdx (messages : List ChatMessage) : Nat :=
  (if messages.head?.any (ChatMessage.isRole · "system") then 1 else 0) + 1

def condenseTools (start : Nat) (messages : List ChatMessage) : List ChatMessage :=
  let tailCutoff := max start (messages.length - 2)
  messages.mapIdx fun idx m =>
    if start ≤ idx ∧ ChatMessage.isRole m "tool" then
      if idx < tailCutoff then condenseText libraries "content" 400 300 m
      else condenseText libraries "content" 1200 800 m
    else m

def condenseReasoning (start : Nat) (messages : List ChatMessage) : List ChatMessage :=
  messages.mapIdx fun idx m =>
    if start ≤ idx ∧ idx + 1 < messages.length ∧ ChatMessage.isRole m "assistant" then
      condenseText libraries "content" 400 300 m
    else m

/-- The tail gives way two messages at a time. -/
def shrinkTail (tooLarge : List ChatMessage → Bool) (start : Nat) (minPreserveTail : Int) :
    Nat → Int → List ChatMessage → Option (List ChatMessage)
  | 0, _, messages => some messages
  | fuel + 1, preserveTail, messages =>
      if minPreserveTail < preserveTail ∧ tooLarge messages then do
        let messages ← evict tooLarge (start + (preserveTail - 2)) start (messages.length + 1) messages
        shrinkTail tooLarge start minPreserveTail fuel (preserveTail - 2) messages
      else some messages

structure PruneLimits where
  maxContextTokens : Int
  safetyMarginTokens : Int := 2048
  minPreserveTail : Int := 2

def PruneLimits.targetTokens (limits : PruneLimits) : Int :=
  max 512 (limits.maxContextTokens - limits.safetyMarginTokens)

/-- A history of three or more messages. -/
def pruneHistory (target minPreserveTail : Int) (request : ChatPayload)
    (messages : List ChatMessage) : Option ChatPayload :=
  let tooLarge := request.exceeds target
  let start := startIdx messages
  let messages := condenseTools libraries start messages
  if !tooLarge messages then some (request.withMessages messages)
  else
    match evict tooLarge (start + 6) start (messages.length + 1) messages with
    | none => none
    | some messages =>
        if !tooLarge messages then some (request.withMessages messages)
        else
          match shrinkTail tooLarge start minPreserveTail (6 - minPreserveTail).toNat 6 messages with
          | none => none
          | some messages =>
              some (request.withMessages
                (if tooLarge messages then condenseReasoning libraries start messages else messages))

def pruneOpenaiRequest (request : ChatPayload) (limits : PruneLimits) : Option ChatPayload :=
  let messages := request.history
  if request.tokens ≤ limits.targetTokens ∨ messages.isEmpty then some request
  else if messages.length ≤ 2 then
    some (request.withMessages (messages.map (condenseShortHistory libraries)))
  else pruneHistory libraries limits.targetTokens limits.minPreserveTail request messages

/-! ## `prune_for_groq_tpm` -/

/-- The function of a tool definition. -/
def compactFunction (fn : ChatMessage) : ChatMessage :=
  let fn : ChatMessage := match fn.lookup "description" with
    | some (.str description) =>
        JsonMembers.assign "description" (.str (condenseDescription 150 description)) fn
    | _ => fn
  match fn.lookup "parameters" with
  | some (.obj params) =>
      match params.lookup "properties" with
      | some (.obj properties) =>
          let properties : ChatMessage := properties.map fun p => (p.1, condenseProperty 60 p.2)
          JsonMembers.assign "parameters"
            (.obj (JsonMembers.assign "properties" (.obj properties) params)) fn
      | _ => fn
  | _ => fn

def compactToolDefinition : JsonRaw → JsonRaw
  | .obj tool =>
      match tool.lookup "function" with
      | some (.obj fn) => .obj (JsonMembers.assign "function" (.obj (compactFunction fn)) tool)
      | _ => .obj tool
  | tool => tool

/-- `compact_tool_definitions` of a list with something in it. -/
def compactTools (payload : ChatPayload) : ChatPayload :=
  match payload.tools with
  | some (.arr tools) => { payload with tools := some (.arr (tools.map compactToolDefinition)) }
  | _ => payload

def compactedPromptMark : String :=
  "\n... [System prompt formatting rules compacted for Groq execution] ..."

def condenseSystemPrompt (m : ChatMessage) : ChatMessage :=
  match m.lookup "content" with
  | some (.str content) =>
      if 1500 < content.length then
        let condensed := joinLines (visibleLines (splitlines content))
        JsonMembers.assign "content" (.str (if 1800 < condensed.length then
          clip 1800 condensed ++ compactedPromptMark else condensed)) m
      else m
  | _ => m

/-- Only a first message of the system. -/
def condenseFirst : List ChatMessage → List ChatMessage
  | [] => []
  | m :: messages =>
      (if ChatMessage.isRole m "system" then condenseSystemPrompt m else m) :: messages

def mapObjM (f : ChatMessage → Option ChatMessage) : JsonRaw → Option JsonRaw
  | .obj members => (f members).map .obj
  | value => some value

/-- A list of parts, where one may raise. -/
def mapPartsM (f : ChatMessage → Option ChatMessage) (m : ChatMessage) : Option ChatMessage :=
  match m.lookup "content" with
  | some (.arr parts) =>
      (parts.mapM (mapObjM f)).map fun parts => JsonMembers.assign "content" (.arr parts) m
  | _ => some m

/-- A tool result among the parts, whose content is a text or again a list. -/
def condenseResultPart (part : ChatMessage) : Option ChatMessage :=
  if ChatMessage.isType part "tool_result" then
    mapPartsM (condenseSized libraries "text" 600 500) (condenseText libraries "content" 600 500 part)
  else some part

def condenseToolResults (m : ChatMessage) : Option ChatMessage :=
  if ChatMessage.isRole m "tool" then some (condenseText libraries "content" 600 500 m)
  else if ChatMessage.isRole m "user" then
    mapPartsM (condenseResultPart libraries) (condenseText libraries "content" 2000 1500 m)
  else some m

def condenseAnyPart (part : ChatMessage) : Option ChatMessage :=
  if ChatMessage.isType part "text" then condenseSized libraries "text" 1000 800 part
  else some (condenseToolPart libraries 400 300 part)

/-- The last resort before messages go. -/
def condenseAggressively (m : ChatMessage) : Option ChatMessage :=
  if ChatMessage.isRole m "tool" || ChatMessage.isRole m "user" then
    mapPartsM (condenseAnyPart libraries) (condenseText libraries "content" 1000 800 m)
  else some m

/-- Edits of the messages, where there are any. -/
def ChatPayload.edit (f : List ChatMessage → Option (List ChatMessage)) (payload : ChatPayload) :
    Option ChatPayload :=
  match payload.messages with
  | some messages => (f messages).map payload.withMessages
  | none => some payload

/-- From the sliding window on. -/
def pruneGroqWindow (maxInputTokens : Int) (req : ChatPayload) : Option ChatPayload := do
  let req ← pruneOpenaiRequest libraries req ⟨maxInputTokens, 150, 2⟩
  if req.tokens ≤ maxInputTokens then return req
  else
    let req ← req.edit (·.mapM (condenseAggressively libraries))
    req.edit fun messages =>
      evict (req.exceeds maxInputTokens) (startIdx messages + 2) (startIdx messages)
        (messages.length + 1) messages

def pruneForGroqTpm (payload : ChatPayload) (maxInputTokens : Int) : Option ChatPayload :=
  if payload.tokens ≤ maxInputTokens then some payload
  else
    let req := compactTools payload
    if req.tokens ≤ maxInputTokens then some req
    else do
      let req ← req.edit fun messages => some (condenseFirst messages)
      if req.tokens ≤ maxInputTokens then return req
      else
        let req ← req.edit (·.mapM (condenseToolResults libraries))
        if req.tokens ≤ maxInputTokens then return req
        else pruneGroqWindow libraries maxInputTokens req

end Texts

end DuraLLM
