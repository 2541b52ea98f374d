import DuraLLM.Agent.Trimming

/-! # What a compacted request keeps

A request that is returned fits the budget, and it has the first user message
with its content, everything in front of it and the last message.  A request
that does not fit raises an overflow.  The one other way out is a tool whose
`properties` is no object: the phase that shortens descriptions raises there.
-/

namespace DuraLLM

open Eviction

/-! ## Tools that raise -/

/-- The properties of the parameters, if any, are an object. -/
def HasProperties (parameters : JsonValue) : Prop :=
  ∀ properties, parameters.field "properties" = some properties →
    ∃ members, properties = .obj members

theorem condenseParameters_error_iff (parameters : JsonValue) :
    condenseParameters parameters = .error .attributeError ↔ ¬HasProperties parameters := by
  unfold condenseParameters HasProperties JsonValue.field
  cases parameters.raw with
  | scalar | str | arr => simp
  | obj members =>
      dsimp only
      cases members.lookup "properties" with
      | none => simp
      | some properties => cases properties <;> simp

theorem condenseParameters_error {parameters : JsonValue} {e : CompactionError}
    (raised : condenseParameters parameters = .error e) : e = .attributeError := by
  unfold condenseParameters at raised
  split at raised
  · split at raised
    · cases raised
    · cases raised
    · injection raised with same
      exact same.symm
  · cases raised

theorem condenseTool_eq (tool : NormalizedToolDefinition JsonValue) :
    condenseTool tool = (condenseParameters tool.parameters).map fun parameters =>
      { tool with description := condenseDescription 120 tool.description, parameters } := by
  unfold condenseTool
  cases condenseParameters tool.parameters <;> rfl

/-- The tools are shortened one by one, and one of them is enough to raise. -/
theorem mapM_condenseTool_error_iff (tools : List (NormalizedToolDefinition JsonValue)) :
    tools.mapM condenseTool = .error .attributeError ↔
      ∃ tool ∈ tools, ¬HasProperties tool.parameters := by
  induction tools with
  | nil => simp [pure, Except.pure]
  | cons tool tools ih =>
      rw [List.mapM_cons, condenseTool_eq]
      cases first : condenseParameters tool.parameters with
      | error e =>
          obtain rfl := condenseParameters_error first
          have raises := (condenseParameters_error_iff _).mp first
          constructor
          · intro _
            exact ⟨tool, List.mem_cons_self, raises⟩
          · intro _
            rfl
      | ok parameters =>
          have has : HasProperties tool.parameters := by
            by_contra lacks
            rw [(condenseParameters_error_iff _).mpr lacks] at first
            cases first
          have rest : (∃ t ∈ tool :: tools, ¬HasProperties t.parameters) ↔
              ∃ t ∈ tools, ¬HasProperties t.parameters := by
            simp [has]
          rw [rest, ← ih]
          cases later : tools.mapM condenseTool with
          | error e => rfl
          | ok condensed => simp [Except.map, bind, Except.bind, pure, Except.pure]

theorem mapM_condenseTool_error {tools : List (NormalizedToolDefinition JsonValue)}
    {e : CompactionError} (raised : tools.mapM condenseTool = .error e) : e = .attributeError := by
  induction tools with
  | nil => cases raised
  | cons tool tools ih =>
      rw [List.mapM_cons, condenseTool_eq] at raised
      cases first : condenseParameters tool.parameters with
      | error f =>
          rw [first] at raised
          injection raised with same
          exact same ▸ condenseParameters_error first
      | ok parameters =>
          rw [first] at raised
          cases later : tools.mapM condenseTool with
          | error f =>
              rw [later] at raised
              injection raised with same
              exact ih (same ▸ later)
          | ok condensed =>
              rw [later] at raised
              cases raised

namespace Compaction

variable {c : Compaction}

theorem condenseFrame_error_iff {current : AgentRequest}
    (large : exceeds c.targetTokens current = true) :
    c.condenseFrame current = .error .attributeError ↔
      ∃ tool ∈ current.tools, ¬HasProperties tool.parameters := by
  rw [← mapM_condenseTool_error_iff, condenseFrame, condenseTools, if_pos large]
  cases current.tools.mapM condenseTool <;> simp [Except.map]

/-- With a tail to preserve, this is the only phase that raises. -/
theorem apply_error (tail : 0 < c.preserveTailTurns) {phase : CompactionPhase}
    {current : AgentRequest} {e : CompactionError} (raised : c.apply phase current = .error e) :
    phase = .condenseFrame ∧ e = .attributeError := by
  have evicts : ∀ bound : Int, 0 ≤ bound → c.evictDownTo bound current ≠ .error e := by
    intro bound above failed
    have some : (evict (fun messages => exceeds c.targetTokens { current with messages })
        (bound + c.protectedPrefixCount) c.protectedPrefixCount (current.messages.length + 1)
        current.messages).isSome := evict_isSome (by omega) _ _
    unfold evictDownTo at failed
    split at failed
    · cases failed
    · next none =>
      rw [none] at some
      cases some
  cases phase with
  | diagnose => cases raised
  | condenseMiddle =>
      simp only [apply, condenseMiddle] at raised
      split at raised
      · omega
      · cases raised
  | evictMiddle => exact absurd raised (evicts _ (Int.le_of_lt tail))
  | condenseTail => cases raised
  | condenseFrame =>
      refine ⟨rfl, ?_⟩
      simp only [apply, condenseFrame, condenseTools] at raised
      split at raised
      · cases condensed : current.tools.mapM condenseTool with
        | error f =>
            rw [condensed] at raised
            injection raised with same
            exact same ▸ mapM_condenseTool_error condensed
        | ok tools =>
            rw [condensed] at raised
            cases raised
      · cases raised
  | evictTail => exact absurd raised (evicts 2 (by decide))

theorem apply_tools {phase : CompactionPhase} {current next : AgentRequest}
    (done : c.apply phase current = .ok next) (other : phase ≠ .condenseFrame) :
    next.tools = current.tools := by
  cases phase with
  | diagnose | condenseTail =>
      injection done with same
      rw [← same]
      rfl
  | condenseMiddle =>
      simp only [apply, condenseMiddle] at done
      split at done
      · cases done
      · injection done with same
        rw [← same]
  | condenseFrame => exact absurd rfl other
  | evictMiddle | evictTail =>
      obtain ⟨_, _, rfl, _⟩ := evictDownTo_ok done
      rfl

theorem Reached.tools {request s : AgentRequest} {done : List CompactionPhase}
    (reached : c.Reached request done s) (before : .condenseFrame ∉ done) :
    s.tools = request.tools := by
  induction reached with
  | start _ => rfl
  | next _ _ applied _ ih =>
      rw [List.mem_append, List.mem_singleton, not_or] at before
      rw [apply_tools applied (Ne.symm before.2), ih before.1]

end Compaction

/-! ## The whole call -/

/-- The phases in front of the one that shortens tools. -/
def earlyPhases : List CompactionPhase := [.diagnose, .condenseMiddle, .evictMiddle, .condenseTail]

theorem early_split : compactionPhases = earlyPhases ++ .condenseFrame :: [.evictTail] := rfl

theorem early_of_split {more rest : List CompactionPhase}
    (split : compactionPhases = more ++ .condenseFrame :: rest) : more = earlyPhases := by
  rcases more with _ | ⟨a, _ | ⟨b, _ | ⟨d, _ | ⟨e, _ | ⟨f, _ | ⟨g, more⟩⟩⟩⟩⟩⟩ <;>
    simp_all [compactionPhases, earlyPhases]

/-- A first user message without results is left alone until the tools come. -/
theorem Compaction.reached_early {c : Compaction} {request : AgentRequest} {m : AgentMessage}
    (single : request.messages = [m]) (plain : m.toolResults = [])
    (first : c.firstUserIdx = some 0) (count : c.protectedPrefixCount = 1)
    (tail : 0 ≤ c.preserveTailTurns) (large : exceeds c.targetTokens request = true) :
    c.Reached request earlyPhases request := by
  have same : { request with messages := [m] } = request := by rw [← single]
  have results : ∀ limit, condenseResults c.libraries limit m = m := by
    intro limit
    rw [condenseResults, plain, List.map_nil, ← plain]
  have diagnosed : c.apply .diagnose request = .ok request := by
    simp [apply, diagnose, diagnoseMessage, single, first, results, same]
  have middle : c.apply .condenseMiddle request = .ok request := by
    have short : ¬((1 : Int) < 1 - c.preserveTailTurns) := by omega
    simp [apply, condenseMiddle, single, count, short, same]
  have evicted : c.apply .evictMiddle request = .ok request := by
    have short : ¬(c.preserveTailTurns + 1 < 1) := by omega
    simp [apply, evictDownTo, evict, single, count, short, same]
  have ended : c.apply .condenseTail request = .ok request := by
    simp [apply, condenseTail, condenseTailMessage, single, first, same]
  exact .next .condenseTail (.next .evictMiddle (.next .condenseMiddle
    (.next .diagnose (.start large) diagnosed large) middle large) evicted large) ended large

/-- `kept` are the original messages of what is left in `out`. -/
structure Postconditions (request : AgentRequest) (budget : ContextBudget) (out : AgentRequest)
    (kept : List AgentMessage) : Prop where
  fits : estimateTokens out ≤ budget.availableInputBudget
  sublist : kept.Sublist request.messages
  turns : List.Forall₂ SameTurn kept out.messages
  front : ∀ idx, firstUserIdx request.messages = some idx →
    kept.take (idx + 1) = request.messages.take (idx + 1)
  root : ∀ idx, firstUserIdx request.messages = some idx →
    out.messages[idx]?.map (·.content) = request.messages[idx]?.map (·.content)
  last : kept.getLast? = request.messages.getLast?

namespace ContextManager

variable (manager : ContextManager) (libraries : Libraries)

theorem exceeds_eq_false {target : Int} {request : AgentRequest} :
    exceeds target request = false ↔ estimateTokens request ≤ target := by
  simp [exceeds]

/-- What has been trimmed and fits is as it should be. -/
theorem postconditions_of_trims {request out : AgentRequest} {budget : ContextBudget} {k : Nat}
    (tail : 0 < manager.preserveTailTurns)
    (trims : (manager.compaction libraries request budget).Trims k request out)
    (fits : estimateTokens out ≤ budget.availableInputBudget) :
    Postconditions request budget out
      (without (protectedPrefixCount request.messages) k request.messages) where
  fits := fits
  sublist := without_sublist _ k _
  turns := trims.turns
  front idx found := by
    have count : protectedPrefixCount request.messages = idx + 1 := by
      rw [protectedPrefixCount, found]
    apply List.ext_getElem?
    intro i
    rw [count]
    by_cases early : i < idx + 1
    · rw [List.getElem?_take_of_lt early, List.getElem?_take_of_lt early, getElem?_without early]
    · rw [List.getElem?_take_eq_none (by omega), List.getElem?_take_eq_none (by omega)]
  root := trims.root
  last := by
    by_cases none : k = 0
    · rw [none, without_zero]
    · exact getLast?_without (trims.last tail none)

/-- The object of the caller is as it was, and what does not overflow is a
    request as it should be. -/
structure Compacts (request : AgentRequest) (budget : ContextBudget) : Prop where
  input : (manager.compact libraries request budget).request = request
  overflow : ∀ e, (manager.compact libraries request budget).outcome = .error e →
    ∃ required available, e = .contextOverflow required available
  output : ∀ out flag, (manager.compact libraries request budget).outcome = .ok (out, flag) →
    ∃ kept, Postconditions request budget out kept

/-- Compaction does what it promises exactly if it does not come to the tools
    while the properties of one of them are no object. -/
theorem compacts_iff (request : AgentRequest) (budget : ContextBudget)
    (tail : 0 < manager.preserveTailTurns) :
    manager.Compacts libraries request budget ↔
      ((∃ s, (manager.compaction libraries request budget).Reached request earlyPhases s) →
        ∀ tool ∈ request.tools, HasProperties tool.parameters) := by
  have before : CompactionPhase.condenseFrame ∉ earlyPhases := by decide
  have ended := manager.compact_ended libraries request budget
  constructor
  · rintro compacts ⟨s, reached⟩
    by_contra lacks
    have some : ∃ tool ∈ s.tools, ¬HasProperties tool.parameters := by
      rw [reached.tools before]
      simpa using lacks
    have raised := (Compaction.condenseFrame_error_iff reached.exceeds).mpr some
    obtain ⟨_, _, same⟩ := compacts.overflow _
      (compact_raised manager libraries early_split reached raised)
    cases same
  · intro tools
    refine ⟨rfl, ?_, ?_⟩
    · intro e raised
      rw [raised] at ended
      cases ended with
      | raised split reached applied =>
          obtain ⟨rfl, rfl⟩ := Compaction.apply_error tail applied
          obtain rfl := early_of_split split
          obtain ⟨tool, member, lacks⟩ := (Compaction.condenseFrame_error_iff reached.exceeds).mp applied
          rw [reached.tools before] at member
          exact absurd (tools ⟨_, reached⟩ tool member) lacks
      | overflowed _ => exact ⟨_, _, rfl⟩
    · intro out flag returned
      rw [returned] at ended
      cases ended with
      | fits small =>
          have unchanged : (manager.compaction libraries request budget).Trims 0 request request :=
            .refl request
          exact ⟨_, postconditions_of_trims manager libraries tail unchanged
            (exceeds_eq_false.mp small)⟩
      | returned split reached applied small =>
          have guards := manager.guards libraries request budget
          obtain ⟨k, trims⟩ := reached.trims guards
          obtain ⟨j, -, step⟩ := Compaction.apply_trims guards applied
          exact ⟨_, postconditions_of_trims manager libraries tail (trims.trans step)
            (exceeds_eq_false.mp small)⟩

/-! A question, and a tool whose parameters have a list of properties. -/

def listedProperties (question : String) : AgentRequest where
  requestId := "r"
  messages := [{ role := "user", content := question }]
  tools := [{ name := "search", parameters := .ofRaw (.obj [("properties", .arr [])]) }]

def smallBudget : ContextBudget := ⟨2048, 1024, 512⟩

theorem listedProperties_reached {question : String} (long : question.length = 2100) :
    ((⟨6⟩ : ContextManager).compaction .ascii (listedProperties question) smallBudget).Reached
      (listedProperties question) earlyPhases (listedProperties question) := by
  apply Compaction.reached_early rfl rfl rfl rfl (Int.le_of_lt (by decide : (0 : Int) < 6))
  have tokens : estimateTokens (listedProperties question) = 525 := by
    simp only [estimateTokens, NormalizedRequest.parts, NormalizedMessage.parts, listedProperties,
      tokensOfLength, Option.getD_none, List.map_nil, List.append_nil, List.flatMap_cons,
      List.flatMap_nil, List.foldl_cons, List.foldl_nil, String.length_empty, long]
    rfl
  have target : ((⟨6⟩ : ContextManager).compaction .ascii (listedProperties question)
    smallBudget).targetTokens = 512 := rfl
  rw [exceeds, tokens, target]
  rfl

theorem listedProperties_raises {question : String} (long : question.length = 2100) :
    ¬(⟨6⟩ : ContextManager).Compacts .ascii (listedProperties question) smallBudget := by
  intro compacts
  have reached := listedProperties_reached long
  have lacks : ∃ tool ∈ (listedProperties question).tools, ¬HasProperties tool.parameters := by
    refine ⟨_, List.mem_cons_self, fun has => ?_⟩
    obtain ⟨members, same⟩ := has _ rfl
    cases same
  have raised := compact_raised ⟨6⟩ .ascii early_split reached
    ((Compaction.condenseFrame_error_iff reached.exceeds).mpr lacks)
  obtain ⟨_, _, same⟩ := compacts.overflow _ raised
  cases same

theorem long_question_raises :
    ¬(⟨6⟩ : ContextManager).Compacts .ascii
      (listedProperties (String.ofList (List.replicate 2100 'x'))) smallBudget :=
  listedProperties_raises (by rw [String.length_ofList, List.length_replicate])

/-- Without the tool, every question fits or overflows. -/
theorem compacts_without_tools :
    (⟨6⟩ : ContextManager).Compacts .ascii { listedProperties "" with tools := [] } smallBudget :=
  (compacts_iff ⟨6⟩ .ascii _ _ (by decide)).mpr fun _ _ none => absurd none List.not_mem_nil

end ContextManager

end DuraLLM
