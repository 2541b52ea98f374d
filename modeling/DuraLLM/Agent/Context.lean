import DuraLLM.Lib.Json
import DuraLLM.Protocol.Ir
import Mathlib.Data.List.DropRight

/-! # Context sizing

The conservative token estimate and the budget a request must fit in.
-/

namespace DuraLLM

/-- `text[:n]` -/
def clip (n : Nat) (text : String) : String := String.ofList (text.toList.take n)

/-- `text[-n:]` for a positive `n` -/
def clipEnd (n : Nat) (text : String) : String := String.ofList (text.toList.rtake n)

theorem length_clip (n : Nat) (text : String) : (clip n text).length = min n text.length := by
  simp only [clip, String.length_ofList, List.length_take, String.length_toList]

theorem length_clipEnd (n : Nat) (text : String) : (clipEnd n text).length = min n text.length := by
  simp only [clipEnd, List.rtake, String.length_ofList, List.length_drop, String.length_toList]
  omega

/-- Four characters to a token, and at least one token. -/
def tokensOfLength (textLen : Nat) : Nat := max 1 ((textLen + 3) / 4)

def estimateText (text : String) : Nat := tokensOfLength text.length

section Requests

variable {Json : Type} [JsonCodec Json]

/-- The order of the keys does not change the length of the dumped arguments. -/
def NormalizedToolCall.text (call : NormalizedToolCall Json) : String :=
  if call.rawArguments = "" then JsonCodec.dumps .spaced call.arguments else call.rawArguments

def NormalizedMessage.parts (message : NormalizedMessage Json) : List String :=
  [message.content, message.reasoningContent.getD ""] ++ message.toolCalls.map (·.text) ++
    message.toolResults.map (·.content)

def NormalizedRequest.parts (request : NormalizedRequest Json) : List String :=
  request.systemInstruction.getD "" :: request.messages.flatMap (·.parts)

def estimateTokens (request : NormalizedRequest Json) : Nat :=
  tokensOfLength (request.parts.foldl (fun length part => length + part.length) 0)

end Requests

structure ContextBudget where
  modelContextWindow : Int
  desiredOutputTokens : Int
  safetyMarginTokens : Int
  deriving DecidableEq

/-- What is left for the input. -/
def ContextBudget.availableInputBudget (budget : ContextBudget) : Int :=
  max 512 (budget.modelContextWindow - budget.desiredOutputTokens - budget.safetyMarginTokens)

end DuraLLM
