import DuraLLM.Agent.Trimming
import DuraLLM.Lib.Pairing

/-! # Calls and results under compaction

Messages are evicted one by one until the rest fits, whatever they are.  The
calls and results of what is left are matched exactly if the block that is gone
severs none of them.
-/

namespace DuraLLM

open Eviction CallEntry

/-- The calls of an assistant message, and the results of any. -/
def callEntry (m : AgentMessage) : CallEntry String where
  calls := if m.role = "assistant" then m.toolCalls.map (·.id) else []
  results := m.toolResults.map (·.toolCallId)

def callEntries (messages : List AgentMessage) : List (CallEntry String) := messages.map callEntry

theorem SameTurn.callEntry {m m' : AgentMessage} (same : SameTurn m m') :
    callEntry m' = callEntry m := by
  simp only [DuraLLM.callEntry, same.role, same.toolCalls, same.resultIds]

theorem callEntries_of_turns {xs ys : List AgentMessage} (turns : List.Forall₂ SameTurn xs ys) :
    callEntries ys = callEntries xs := by
  induction turns with
  | nil => rfl
  | cons same _ ih =>
      simp only [callEntries, List.map_cons, same.callEntry] at ih ⊢
      rw [ih]

theorem callEntries_without (start k : Nat) (messages : List AgentMessage) :
    callEntries (without start k messages) = without start k (callEntries messages) := by
  simp [callEntries, without]

namespace Compaction

variable {c : Compaction}

/-- The run takes `k` messages out. -/
def Takes (c : Compaction) : List CompactionPhase → AgentRequest → Nat → Prop
  | [], _, k => k = 0
  | phase :: later, s, k => ∃ i j, k = i + j ∧ c.Pops phase s i ∧
      ∀ t, c.apply phase s = .ok t →
        if exceeds c.targetTokens t = true then c.Takes later t j else j = 0

theorem Pops.unique {phase : CompactionPhase} {s : AgentRequest} {k j : Nat}
    (first : c.Pops phase s k) (second : c.Pops phase s j) : k = j := by
  cases phase with
  | evictMiddle | evictTail =>
      unfold Pops at first second
      exact first.unique second
  | diagnose | condenseMiddle | condenseTail | condenseFrame => exact first.trans second.symm

theorem run_step {later : List CompactionPhase} {phase : CompactionPhase} {s out : AgentRequest}
    (done : c.run (phase :: later) s = .ok out) :
    ∃ t, c.apply phase s = .ok t ∧
      (exceeds c.targetTokens t = true ∧ c.run later t = .ok out ∨
        exceeds c.targetTokens t = false ∧ t = out) := by
  cases applied : c.apply phase s with
  | error e =>
      rw [run, applied] at done
      cases done
  | ok t =>
      rw [run, applied] at done
      refine ⟨t, rfl, ?_⟩
      cases large : exceeds c.targetTokens t with
      | true =>
          simp only [bind, Except.bind, large, if_true] at done
          exact .inl ⟨rfl, done⟩
      | false =>
          simp only [bind, Except.bind, large, Bool.false_eq_true, if_false] at done
          exact .inr ⟨rfl, Except.ok.inj done⟩

theorem run_takes (guards : c.Guards) {later : List CompactionPhase} {s out : AgentRequest}
    (done : c.run later s = .ok out) : ∃ k, c.Takes later s k ∧ c.Trims k s out := by
  induction later generalizing s with
  | nil => cases done
  | cons phase later ih =>
      obtain ⟨t, applied, rest⟩ := run_step done
      obtain ⟨i, pops, step⟩ := apply_trims guards applied
      rcases rest with ⟨large, done⟩ | ⟨small, rfl⟩
      · obtain ⟨j, takes, trims⟩ := ih done
        refine ⟨i + j, ⟨i, j, rfl, pops, fun u again => ?_⟩, step.trans trims⟩
        obtain rfl := Except.ok.inj (applied.symm.trans again)
        rwa [if_pos large]
      · refine ⟨i, ⟨i, 0, rfl, pops, fun u again => ?_⟩, step⟩
        obtain rfl := Except.ok.inj (applied.symm.trans again)
        rw [if_neg (by simp [small])]

theorem takes_unique {later : List CompactionPhase} {s out : AgentRequest} {k l : Nat}
    (done : c.run later s = .ok out) (first : c.Takes later s k) (second : c.Takes later s l) :
    k = l := by
  induction later generalizing s k l with
  | nil => cases done
  | cons phase later ih =>
      obtain ⟨t, applied, rest⟩ := run_step done
      obtain ⟨i, j, rfl, pops, behind⟩ := first
      obtain ⟨i', j', rfl, pops', behind'⟩ := second
      have here := behind t applied
      have here' := behind' t applied
      rw [pops.unique pops']
      rcases rest with ⟨large, done⟩ | ⟨small, -⟩
      · rw [if_pos large] at here here'
        rw [ih done here here']
      · rw [if_neg (by simp [small])] at here here'
        omega

end Compaction

namespace ContextManager

variable (manager : ContextManager) (libraries : Libraries)

/-- The number of messages that a call takes out. -/
def Evicts (request : AgentRequest) (budget : ContextBudget) (k : Nat) : Prop :=
  if exceeds budget.availableInputBudget request = true then
    (manager.compaction libraries request budget).Takes compactionPhases request k
  else k = 0

/-- A call that returns takes a definite number of messages out. -/
theorem evicts_of_returned {request out : AgentRequest} {budget : ContextBudget} {flag : Bool}
    (returned : (manager.compact libraries request budget).outcome = .ok (out, flag)) :
    ∃ k, (∀ l, manager.Evicts libraries request budget l ↔ l = k) ∧
      callEntries out.messages =
        without (protectedPrefixCount request.messages) k (callEntries request.messages) := by
  rw [compact] at returned
  cases large : exceeds budget.availableInputBudget request with
  | false =>
      rw [large, if_neg (by decide)] at returned
      obtain ⟨rfl, -⟩ := Prod.mk.inj (Except.ok.inj returned)
      refine ⟨0, fun l => ?_, (without_zero _ _).symm⟩
      rw [Evicts, large, if_neg (by decide)]
  | true =>
      rw [large, if_pos rfl] at returned
      cases ended : (manager.compaction libraries request budget).run compactionPhases request with
      | error e =>
          rw [ended] at returned
          cases returned
      | ok other =>
          rw [ended] at returned
          obtain ⟨rfl, -⟩ := Prod.mk.inj (Except.ok.inj returned)
          obtain ⟨k, takes, trims⟩ := Compaction.run_takes (manager.guards libraries request budget) ended
          refine ⟨k, fun l => ?_, ?_⟩
          · rw [Evicts, large, if_pos rfl]
            exact ⟨fun other => Compaction.takes_unique ended other takes, fun same => same ▸ takes⟩
          · rw [callEntries_of_turns trims.turns, callEntries_without]
            rfl

/-- A matched conversation stays matched exactly if the messages that are taken
    out sever no call from its result. -/
theorem compact_matched_iff {request out : AgentRequest} {budget : ContextBudget} {flag : Bool}
    (matched : Matched (callEntries request.messages))
    (returned : (manager.compact libraries request budget).outcome = .ok (out, flag)) :
    Matched (callEntries out.messages) ↔ ∃ k, manager.Evicts libraries request budget k ∧
      CutsClean (protectedPrefixCount request.messages) (callEntries request.messages) k := by
  obtain ⟨k, evicts, same⟩ := manager.evicts_of_returned libraries returned
  rw [same, matched_without_iff matched]
  simp only [evicts, exists_eq_left]

/-! A question, a call with some text, and its result. -/

def searchCall : NormalizedToolCall JsonValue where
  id := "c"
  name := "search"
  arguments := .ofRaw (.obj [])
  rawArguments := "\x7b\x7d"

def callAndResult (question answer : String) : AgentRequest where
  requestId := "r"
  messages := [{ role := "user", content := question },
    { role := "assistant", content := answer, toolCalls := [searchCall] },
    { role := "tool", toolResults := [{ toolCallId := "c", content := "ok" }] }]

theorem callAndResult_matched (question answer : String) :
    Matched (callEntries (callAndResult question answer).messages) := by
  intro front x back split
  have entries : callEntries (callAndResult question answer).messages =
    [⟨[], []⟩, ⟨["c"], []⟩, ⟨[], ["c"]⟩] := rfl
  rw [entries] at split
  rcases front with _ | ⟨a, _ | ⟨b, _ | ⟨d, front⟩⟩⟩ <;> simp_all
  · obtain ⟨rfl, -⟩ := split
    simp
  · obtain ⟨-, rfl, rfl⟩ := split
    simp
  · obtain ⟨-, rfl, rfl, -⟩ := split
    simp

def resultAlone (question answer : String) : AgentRequest :=
  { callAndResult question answer with
    messages := [{ role := "user", content := question },
      { role := "tool", toolResults := [{ toolCallId := "c", content := "ok" }] }] }

/-- One message is evicted, and it is the one with the call. -/
theorem callAndResult_compacted {question answer : String} (long : question.length = 1500)
    (middle : answer.length = 600) :
    ((⟨1⟩ : ContextManager).compact .ascii (callAndResult question answer)
      ⟨2048, 1024, 512⟩).outcome = .ok (resultAlone question answer, true) := by
  have call : searchCall.text.length = 2 := by decide
  have ok : ("ok" : String).length = 2 := by decide
  have large : exceeds 512 (callAndResult question answer) = true := by
    simp [exceeds, estimateTokens, NormalizedRequest.parts, NormalizedMessage.parts,
      callAndResult, tokensOfLength, long, middle, call, ok]
  have small : exceeds 512 (resultAlone question answer) = false := by
    simp [exceeds, estimateTokens, NormalizedRequest.parts, NormalizedMessage.parts,
      callAndResult, resultAlone, tokensOfLength, long, ok]
  generalize made : (⟨1⟩ : ContextManager).compaction .ascii (callAndResult question answer)
    ⟨2048, 1024, 512⟩ = c
  have target : c.targetTokens = 512 := made ▸ rfl
  have first : c.firstUserIdx = some 0 := made ▸ rfl
  have count : c.protectedPrefixCount = 1 := made ▸ rfl
  have tail : c.preserveTailTurns = 1 := made ▸ rfl
  have diagnosed : c.apply .diagnose (callAndResult question answer) =
      .ok (callAndResult question answer) := by
    simp [Compaction.apply, Compaction.diagnose, callAndResult, diagnoseMessage, condenseResults,
      condenseResult, condenseContent, first, middle, ok]
  have turned : c.apply .condenseMiddle (callAndResult question answer) =
      .ok (callAndResult question answer) := by
    simp [Compaction.apply, Compaction.condenseMiddle, callAndResult, condenseTurn,
      condenseResults, count, tail, middle]
  have evicted : c.apply .evictMiddle (callAndResult question answer) =
      .ok (resultAlone question answer) := by
    have more : exceeds c.targetTokens (callAndResult question answer) = true := target ▸ large
    simp only [callAndResult] at more
    simp [Compaction.apply, Compaction.evictDownTo, callAndResult, evict, count, tail, more,
      resultAlone]
  rw [compact, made]
  have budget : (⟨2048, 1024, 512⟩ : ContextBudget).availableInputBudget = 512 := rfl
  rw [budget, if_pos large, compactionPhases]
  simp only [Compaction.run, diagnosed, turned, evicted, target, bind, Except.bind, large, small,
    if_true, Bool.false_eq_true, if_false]
  rfl

theorem resultAlone_orphan (question answer : String) :
    ¬Matched (callEntries (resultAlone question answer).messages) := by
  intro matched
  have entries : callEntries (resultAlone question answer).messages =
    [⟨[], []⟩] ++ ⟨[], ["c"]⟩ :: [] := rfl
  obtain ⟨y, member, made⟩ := (matched _ _ _ entries).1 "c" List.mem_cons_self
  obtain rfl := List.mem_singleton.mp member
  cases made

end ContextManager

end DuraLLM
