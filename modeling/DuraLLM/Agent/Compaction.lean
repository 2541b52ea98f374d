import DuraLLM.Agent.Diagnostics
import DuraLLM.Lib.Eviction
import DuraLLM.Lib.JsonValue

/-! # Compacting a request

`ContextManager.compact` works on a deep copy, phase by phase, and returns the
copy as soon as it fits the input budget of the model.  The phases shorten tool
results and contents in place, take messages out behind the first user message,
and at last shorten the tools and the system instruction.
-/

namespace DuraLLM

abbrev AgentMessage := NormalizedMessage JsonValue

abbrev AgentRequest := NormalizedRequest JsonValue

inductive CompactionError where
  | contextOverflow (requiredTokens : Nat) (availableBudget : Int)
  | attributeError
  | indexError
  deriving DecidableEq

structure ContextManager where
  preserveTailTurns : Int := 6

/-! ## Texts that are shortened in place -/

section Messages

variable (libraries : Libraries)

def condenseResult (limit : Nat) (r : NormalizedToolResult) : NormalizedToolResult :=
  if limit < r.content.length then
    { r with content := extractDiagnosticSummary libraries limit r.content }
  else r

def condenseResults (limit : Nat) (m : AgentMessage) : AgentMessage :=
  { m with toolResults := m.toolResults.map (condenseResult libraries limit) }

/-- `m.content = extract_diagnostic_summary(m.content, maxChars)` where it is too long. -/
def condenseContent (limit maxChars : Nat) (m : AgentMessage) : AgentMessage :=
  if limit < m.content.length then
    { m with content := extractDiagnosticSummary libraries maxChars m.content }
  else m

/-- Neither the first user message nor all of the last one is dropped. -/
def diagnoseMessage (firstUserIdx : Option Nat) (count idx : Nat) (m : AgentMessage) :
    AgentMessage :=
  let m := condenseResults libraries 400 m
  if firstUserIdx = some idx then m
  else if idx + 1 = count then condenseContent libraries 1000 1200 m
  else condenseContent libraries 1000 600 m

def priorReasoningMark : String := "\n... [Prior assistant reasoning compacted by DuraLLM] ...\n"

def condenseTurn (m : AgentMessage) : AgentMessage :=
  let m := condenseResults libraries 300 m
  if 600 < m.content.length ∧ m.role = "assistant" then
    { m with content := clip 300 m.content ++ priorReasoningMark ++ clipEnd 300 m.content }
  else m

def condenseTailMessage (firstUserIdx : Option Nat) (idx : Nat) (m : AgentMessage) : AgentMessage :=
  if firstUserIdx = some idx then m
  else condenseContent libraries 500 400 (condenseResults libraries 250 m)

end Messages

/-! ## Tools and the system instruction -/

/-- `text.split(". ")[0]` -/
def firstSentence : List Char → List Char
  | [] => []
  | '.' :: ' ' :: _ => []
  | c :: rest => c :: firstSentence rest

def condenseDescription (limit : Nat) (description : String) : String :=
  if limit < description.length then
    let firstSent := String.ofList (firstSentence description.toList) ++ "."
    if firstSent.length ≤ limit then firstSent else clip limit description
  else description

/-- The description of one parameter. -/
def condenseProperty (limit : Nat) : JsonRaw → JsonRaw
  | .obj members =>
      match members.lookup "description" with
      | some (.str description) =>
          if limit < description.length then
            .obj (JsonMembers.assign "description" (.str (clip limit description)) members)
          else .obj members
      | _ => .obj members
  | value => value

/-- Only objects have values: other `properties` raise. -/
def condenseParameters (parameters : JsonValue) : Except CompactionError JsonValue :=
  match parameters.raw with
  | .obj members =>
      match members.lookup "properties" with
      | none => .ok parameters
      | some (.obj properties) =>
          .ok (.ofRaw (.obj (JsonMembers.assign "properties"
            (.obj (properties.map fun p => (p.1, condenseProperty 50 p.2))) members)))
      | some _ => .error .attributeError
  | _ => .ok parameters

def condenseTool (tool : NormalizedToolDefinition JsonValue) :
    Except CompactionError (NormalizedToolDefinition JsonValue) := do
  return { tool with
    description := condenseDescription 120 tool.description
    parameters := ← condenseParameters tool.parameters }

def condensedMark : String := "\n... [System instruction condensed by ContextManager] ..."

def condenseInstruction (instruction : String) : String :=
  if 2000 < instruction.length then clip 2000 instruction ++ condensedMark else instruction

/-! ## The phases -/

/-- Whether something is left over when the budget is used up. -/
def exceeds (targetTokens : Int) (request : AgentRequest) : Bool :=
  targetTokens < estimateTokens request

def firstUserIdx (messages : List AgentMessage) : Option Nat :=
  messages.findIdx? fun m => m.role == "user"

def protectedPrefixCount (messages : List AgentMessage) : Nat :=
  match firstUserIdx messages with
  | some idx => idx + 1
  | none => 1

inductive CompactionPhase where
  | diagnose
  | condenseMiddle
  | evictMiddle
  | condenseTail
  | condenseFrame
  | evictTail
  deriving DecidableEq

/-- What the phases of one call read. -/
structure Compaction where
  libraries : Libraries
  preserveTailTurns : Int
  targetTokens : Int
  firstUserIdx : Option Nat
  protectedPrefixCount : Nat

namespace Compaction

variable (c : Compaction)

def diagnose (compacted : AgentRequest) : AgentRequest :=
  { compacted with
    messages := compacted.messages.mapIdx
      (diagnoseMessage c.libraries c.firstUserIdx compacted.messages.length) }

/-- With a negative tail the turns go on behind the last message. -/
def condenseMiddle (compacted : AgentRequest) : Except CompactionError AgentRequest :=
  let cutoffIdx := compacted.messages.length - c.preserveTailTurns
  if c.protectedPrefixCount < cutoffIdx ∧ compacted.messages.length < cutoffIdx then
    .error .indexError
  else
    .ok { compacted with
      messages := compacted.messages.mapIdx fun idx m =>
        if c.protectedPrefixCount ≤ idx ∧ idx < cutoffIdx then condenseTurn c.libraries m else m }

def evictDownTo (tail : Int) (compacted : AgentRequest) : Except CompactionError AgentRequest :=
  match Eviction.evict (fun messages => exceeds c.targetTokens { compacted with messages })
      (tail + c.protectedPrefixCount) c.protectedPrefixCount (compacted.messages.length + 1)
      compacted.messages with
  | some messages => .ok { compacted with messages }
  | none => .error .indexError

def condenseTail (compacted : AgentRequest) : AgentRequest :=
  { compacted with
    messages := compacted.messages.mapIdx (condenseTailMessage c.libraries c.firstUserIdx) }

def condenseTools (compacted : AgentRequest) : Except CompactionError AgentRequest :=
  if exceeds c.targetTokens compacted then
    (compacted.tools.mapM condenseTool).map fun tools => { compacted with tools }
  else .ok compacted

def condenseSystem (compacted : AgentRequest) : AgentRequest :=
  if exceeds c.targetTokens compacted then
    { compacted with systemInstruction := compacted.systemInstruction.map condenseInstruction }
  else compacted

def condenseFrame (compacted : AgentRequest) : Except CompactionError AgentRequest :=
  (c.condenseTools compacted).map c.condenseSystem

def apply : CompactionPhase → AgentRequest → Except CompactionError AgentRequest
  | .diagnose, compacted => .ok (c.diagnose compacted)
  | .condenseMiddle, compacted => c.condenseMiddle compacted
  | .evictMiddle, compacted => c.evictDownTo c.preserveTailTurns compacted
  | .condenseTail, compacted => .ok (c.condenseTail compacted)
  | .condenseFrame, compacted => c.condenseFrame compacted
  | .evictTail, compacted => c.evictDownTo 2 compacted

/-- The copy is returned by the first phase after which it fits. -/
def run : List CompactionPhase → AgentRequest → Except CompactionError AgentRequest
  | [], compacted => .error (.contextOverflow (estimateTokens compacted) c.targetTokens)
  | phase :: later, compacted => do
      let compacted ← c.apply phase compacted
      if exceeds c.targetTokens compacted then run later compacted else return compacted

end Compaction

/-- When a call ends: what the object of the caller holds, and what it gets. -/
structure CompactCall where
  request : AgentRequest
  outcome : Except CompactionError (AgentRequest × Bool)

def compactionPhases : List CompactionPhase :=
  [.diagnose, .condenseMiddle, .evictMiddle, .condenseTail, .condenseFrame, .evictTail]

namespace ContextManager

variable (manager : ContextManager) (libraries : Libraries)

def compaction (request : AgentRequest) (budget : ContextBudget) : Compaction where
  libraries := libraries
  preserveTailTurns := manager.preserveTailTurns
  targetTokens := budget.availableInputBudget
  firstUserIdx := firstUserIdx request.messages
  protectedPrefixCount := protectedPrefixCount request.messages

/-- The phases write to a copy of the request. -/
def compact (request : AgentRequest) (budget : ContextBudget) : CompactCall where
  request := request
  outcome :=
    if exceeds budget.availableInputBudget request then do
      let compacted ← (manager.compaction libraries request budget).run compactionPhases request
      return (compacted, true)
    else .ok (request, false)

end ContextManager

end DuraLLM
