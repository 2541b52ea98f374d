import DuraLLM.Agent.Trimming
import Mathlib.Algebra.Order.BigOperators.Group.List

/-! # Whether compaction makes a request smaller

A summary has a header, a marker or both, so a text that is barely too long
grows when it is shortened.  The estimate of a request never goes up in a run
whose texts are clear of these ranges.
-/

namespace DuraLLM

open Eviction

/-! ## The length of a request -/

def NormalizedMessage.textLength (m : AgentMessage) : Nat := (m.parts.map String.length).sum

def NormalizedRequest.textLength (request : AgentRequest) : Nat :=
  (request.systemInstruction.getD "").length + (request.messages.map (·.textLength)).sum

theorem foldl_length (parts : List String) (start : Nat) :
    parts.foldl (fun length part => length + part.length) start =
      start + (parts.map String.length).sum := by
  induction parts generalizing start with
  | nil => rfl
  | cons part parts ih =>
      rw [List.foldl_cons, ih, List.map_cons, List.sum_cons, Nat.add_assoc]

theorem estimateTokens_eq (request : AgentRequest) :
    estimateTokens request = tokensOfLength request.textLength := by
  have messages : ∀ messages : List AgentMessage,
      ((messages.flatMap (·.parts)).map String.length).sum =
        (messages.map (·.textLength)).sum := by
    intro messages
    induction messages with
    | nil => rfl
    | cons m messages ih =>
        rw [List.flatMap_cons, List.map_append, List.sum_append, ih]
        rfl
  rw [estimateTokens, foldl_length, NormalizedRequest.parts, List.map_cons, List.sum_cons, messages,
    Nat.zero_add, NormalizedRequest.textLength]

theorem estimateTokens_le {request shorter : AgentRequest}
    (less : shorter.textLength ≤ request.textLength) :
    estimateTokens shorter ≤ estimateTokens request := by
  rw [estimateTokens_eq, estimateTokens_eq, tokensOfLength, tokensOfLength]
  omega

theorem NormalizedMessage.textLength_eq (m : AgentMessage) :
    m.textLength = m.content.length + (m.reasoningContent.getD "").length +
      ((m.toolCalls.map (·.text)).map String.length).sum +
      (m.toolResults.map (·.content.length)).sum := by
  simp only [textLength, parts, List.map_append, List.map_cons, List.map_nil, List.sum_append,
    List.sum_cons, List.sum_nil, List.map_map, Function.comp_def]
  omega

/-- Shorter messages make a shorter request, and so do fewer. -/
theorem textLength_le {s : AgentRequest} {messages : List AgentMessage}
    (shorter : List.Forall₂ (fun m m' => NormalizedMessage.textLength m' ≤ m.textLength) s.messages
      messages) : NormalizedRequest.textLength { s with messages } ≤ s.textLength := by
  have sums : (messages.map (·.textLength)).sum ≤ (s.messages.map (·.textLength)).sum := by
    apply List.Forall₂.sum_le_sum
    rw [List.forall₂_map_left_iff, List.forall₂_map_right_iff]
    exact shorter.flip
  exact Nat.add_le_add_left sums _

theorem textLength_without (s : AgentRequest) (start k : Nat) :
    NormalizedRequest.textLength { s with messages := without start k s.messages } ≤ s.textLength :=
  Nat.add_le_add_left (((without_sublist start k s.messages).map _).sum_le_sum
    fun _ _ => Nat.zero_le _) _

/-! ## One message -/

section Messages

variable {libraries : Libraries}

/-- The results are clear of the range where a summary is longer. -/
def SlimResults (libraries : Libraries) (maxChars : Nat) (m : AgentMessage) : Prop :=
  ∀ r ∈ m.toolResults, Shortens libraries maxChars r.content

theorem condenseResults_le {limit : Nat} {m : AgentMessage} (slim : SlimResults libraries limit m) :
    (condenseResults libraries limit m).textLength ≤ m.textLength := by
  have results : ((m.toolResults.map (condenseResult libraries limit)).map
      (·.content.length)).sum ≤ (m.toolResults.map (·.content.length)).sum := by
    rw [List.map_map]
    apply List.sum_le_sum
    intro r member
    simp only [Function.comp_apply, condenseResult]
    split
    · exact (extract_length_le_iff libraries limit r.content).mpr (slim r member)
    · exact Nat.le_refl _
  rw [NormalizedMessage.textLength_eq, NormalizedMessage.textLength_eq]
  exact Nat.add_le_add_left results _

/-- Another content that is not longer. -/
theorem replaced_le {m : AgentMessage} {content : String} (le : content.length ≤ m.content.length) :
    NormalizedMessage.textLength { m with content } ≤ m.textLength := by
  rw [NormalizedMessage.textLength_eq, NormalizedMessage.textLength_eq]
  dsimp only
  omega

theorem condenseContent_le {limit maxChars : Nat} {m : AgentMessage}
    (slim : limit < m.content.length → Shortens libraries maxChars m.content) :
    (condenseContent libraries limit maxChars m).textLength ≤ m.textLength := by
  unfold condenseContent
  split
  · next long => exact replaced_le ((extract_length_le_iff libraries maxChars _).mpr (slim long))
  · exact Nat.le_refl _

/-- A text that is much too long is always shortened. -/
theorem shortens_of_long {limit maxChars : Nat} {text : String} (long : limit < text.length)
    (apart : max (maxChars + 28) 188 ≤ limit) : Shortens libraries maxChars text := by
  rw [← extract_length_le_iff]
  have short := extract_length_le libraries maxChars text
  omega

end Messages

/-! ## One phase -/

namespace Compaction

variable {c : Compaction}

/-- The condition on the copy that a phase finds. -/
def Slims (c : Compaction) : CompactionPhase → AgentRequest → Prop
  | .diagnose, s => ∀ idx m, s.messages[idx]? = some m → SlimResults c.libraries 400 m ∧
      (idx + 1 = s.messages.length → c.firstUserIdx ≠ some idx → 1000 < m.content.length →
        Shortens c.libraries 1200 m.content)
  | .condenseMiddle, s => ∀ idx m, s.messages[idx]? = some m → c.protectedPrefixCount ≤ idx →
      (idx : Int) < s.messages.length - c.preserveTailTurns → SlimResults c.libraries 300 m ∧
        (m.role = "assistant" → 600 < m.content.length → 658 ≤ m.content.length)
  | .condenseTail, s => ∀ idx m, s.messages[idx]? = some m → c.firstUserIdx ≠ some idx →
      SlimResults c.libraries 250 m
  | .condenseFrame, s => ∀ text, s.systemInstruction = some text → 2000 < text.length →
      2057 ≤ text.length
  | .evictMiddle, _ | .evictTail, _ => True

theorem diagnose_le {s : AgentRequest} (slims : c.Slims .diagnose s) :
    (c.diagnose s).textLength ≤ s.textLength := by
  apply textLength_le
  apply forall₂_mapIdx
  intro idx m found
  obtain ⟨results, content⟩ := slims idx m found
  have first := condenseResults_le results
  simp only [diagnoseMessage]
  split
  · exact first
  · next other =>
    split
    · next last =>
      have slim := condenseContent_le (m := condenseResults c.libraries 400 m) fun long =>
        content last other long
      exact slim.trans first
    · exact (condenseContent_le fun long => shortens_of_long long (by decide)).trans first

theorem condenseTurn_le {m : AgentMessage} (results : SlimResults c.libraries 300 m)
    (content : m.role = "assistant" → 600 < m.content.length → 658 ≤ m.content.length) :
    (condenseTurn c.libraries m).textLength ≤ m.textLength := by
  have first := condenseResults_le results
  have mark : priorReasoningMark.length = 58 := by decide +kernel
  simp only [condenseTurn]
  split
  · next long =>
    refine (replaced_le ?_).trans first
    have large := content long.2 long.1
    simp only [String.length_append, length_clip, length_clipEnd, mark, condenseResults]
    omega
  · exact first

theorem condenseMiddle_le {s t : AgentRequest} (slims : c.Slims .condenseMiddle s)
    (done : c.condenseMiddle s = .ok t) : t.textLength ≤ s.textLength := by
  unfold condenseMiddle at done
  dsimp only at done
  split at done
  · cases done
  · injection done with same
    subst same
    apply textLength_le
    apply forall₂_mapIdx
    intro idx m found
    split
    · next inside =>
      obtain ⟨results, content⟩ := slims idx m found inside.1 inside.2
      exact condenseTurn_le results content
    · exact Nat.le_refl _

theorem condenseTail_le {s : AgentRequest} (slims : c.Slims .condenseTail s) :
    (c.condenseTail s).textLength ≤ s.textLength := by
  apply textLength_le
  apply forall₂_mapIdx
  intro idx m found
  unfold condenseTailMessage
  split
  · exact Nat.le_refl _
  · next other =>
    exact (condenseContent_le fun long => shortens_of_long long (by decide)).trans
      (condenseResults_le (slims idx m found other))

theorem condenseInstruction_le {text : String} (slim : 2000 < text.length → 2057 ≤ text.length) :
    (condenseInstruction text).length ≤ text.length := by
  have mark : condensedMark.length = 57 := by decide +kernel
  unfold condenseInstruction
  split
  · next long =>
    have large := slim long
    rw [String.length_append, length_clip, mark]
    omega
  · exact Nat.le_refl _

theorem condenseFrame_le {s t : AgentRequest} (slims : c.Slims .condenseFrame s)
    (done : c.condenseFrame s = .ok t) : t.textLength ≤ s.textLength := by
  obtain ⟨tools, rfl⟩ := condenseFrame_ok done
  unfold condenseSystem
  split
  · apply Nat.add_le_add_right
    cases found : s.systemInstruction with
    | none => exact Nat.le_refl _
    | some text => exact condenseInstruction_le (slims text found)
  · exact Nat.le_refl _

theorem apply_le {phase : CompactionPhase} {s t : AgentRequest} (slims : c.Slims phase s)
    (done : c.apply phase s = .ok t) : estimateTokens t ≤ estimateTokens s := by
  apply estimateTokens_le
  cases phase with
  | diagnose =>
      injection done with same
      exact same ▸ diagnose_le slims
  | condenseMiddle => exact condenseMiddle_le slims done
  | condenseTail =>
      injection done with same
      exact same ▸ condenseTail_le slims
  | condenseFrame => exact condenseFrame_le slims done
  | evictMiddle | evictTail =>
      obtain ⟨k, messages, rfl, evicted⟩ := evictDownTo_ok done
      exact evicted.eq ▸ textLength_without s _ k

/-- What follows for each phase holds throughout the run. -/
theorem Throughout.imp {P Q : CompactionPhase → AgentRequest → Prop}
    (each : ∀ phase s, P phase s → Q phase s) {later : List CompactionPhase} {s : AgentRequest}
    (all : c.Throughout P later s) : c.Throughout Q later s := by
  induction later generalizing s with
  | nil => trivial
  | cons phase later ih =>
      exact ⟨each phase s all.1, fun t done large => ih (all.2 t done large)⟩

end Compaction

def lineResult (question line : String) : AgentRequest where
  requestId := "r"
  messages := [{ role := "user", content := question },
    { role := "tool", toolResults := [{ toolCallId := "c", content := line }] }]

theorem lineResult_grows {question line : String} (long : question.length = 2100)
    (barely : line.length = 401)
    (grows : (extractDiagnosticSummary .ascii 400 line).length = 428) :
    estimateTokens (lineResult question line) <
      estimateTokens (((⟨6⟩ : ContextManager).compaction .ascii (lineResult question line)
        ⟨2048, 1024, 512⟩).diagnose (lineResult question line)) := by
  have tokens : ∀ text, estimateTokens (lineResult question text) =
      tokensOfLength (2100 + text.length) := by
    intro text
    rw [estimateTokens_eq]
    simp [NormalizedRequest.textLength, NormalizedMessage.textLength, NormalizedMessage.parts,
      lineResult, long]
  have diagnosed : (((⟨6⟩ : ContextManager).compaction .ascii (lineResult question line)
      ⟨2048, 1024, 512⟩).diagnose (lineResult question line)) =
      lineResult question (extractDiagnosticSummary .ascii 400 line) := by
    have first : firstUserIdx [({ role := "user", content := question } : AgentMessage),
      { role := "tool", toolResults := [{ toolCallId := "c", content := line }] }] = some 0 := rfl
    simp [Compaction.diagnose, ContextManager.compaction, lineResult, first, diagnoseMessage,
      condenseResults, condenseResult, condenseContent, barely]
  rw [diagnosed, tokens, tokens, barely, grows]
  decide

/-- A text of letters is no JSON. -/
theorem letters_undecoded (n : Nat) :
    JsonTree.decode Libraries.ascii.number (String.ofList (List.replicate (n + 1) 'x')) = none := by
  have start : JsonRaw.skip ('x' :: List.replicate n 'x') = 'x' :: List.replicate n 'x' := rfl
  have unread : ∀ fuel, JsonTree.read Libraries.ascii.number (fuel + 1)
      ('x' :: List.replicate n 'x') = none := by
    intro fuel
    have token : ('x' :: List.replicate n 'x').takeWhile JsonScalar.tokenChar =
        'x' :: (List.replicate n 'x').takeWhile JsonScalar.tokenChar := rfl
    simp [JsonTree.read, token, JsonTree.words, Libraries.ascii]
  rw [JsonTree.decode, String.toList_ofList, List.replicate_succ, start, unread]

/-- Both ends are kept of a text of a few lines that is no JSON. -/
theorem extract_few_lines {libraries : Libraries} {maxChars : Nat} {text : String}
    (long : maxChars < text.length) (undecoded : JsonTree.decode libraries.number text = none)
    (few : (Text.splitlines text).length ≤ 4) :
    extractDiagnosticSummary libraries maxChars text = halves (halfOf maxChars) text := by
  have unsummarized : summaryOf libraries text = none := by
    rw [summaryOf, undecoded]
    exact if_pos few
  rw [extractDiagnosticSummary, if_neg (Nat.not_le.mpr long), unsummarized]

theorem line_grows :
    (extractDiagnosticSummary .ascii 400 (String.ofList (List.replicate 401 'x'))).length = 428 := by
  have long : (String.ofList (List.replicate 401 'x')).length = 401 := by
    rw [String.length_ofList, List.length_replicate]
  have few : (Text.splitlines (String.ofList (List.replicate 401 'x'))).length ≤ 4 := by
    rw [Text.splitlines, String.toList_ofList, List.length_map]
    decide +kernel
  rw [extract_few_lines (long ▸ by decide) (letters_undecoded 400) few, length_halves, long]
  rfl

end DuraLLM
