import DuraLLM.Agent.Compaction

/-! # What compaction leaves of a conversation

Every phase leaves the messages without a block behind the first user message,
in their order, with their roles and their tool calls; only texts may change,
and the content of the first user message does not.  A call that returns has
done so after some of the phases, and each of them began with a copy that did
not fit.
-/

namespace DuraLLM

open Eviction

/-! ## One message -/

def SameResult (r r' : NormalizedToolResult) : Prop := r' = { r with content := r'.content }

/-- The same turn, perhaps with other texts. -/
structure SameTurn (m m' : AgentMessage) : Prop where
  rest : m' = { m with content := m'.content, toolResults := m'.toolResults }
  results : List.Forall₂ SameResult m.toolResults m'.toolResults

theorem SameResult.trans {r s t : NormalizedToolResult} (first : SameResult r s)
    (second : SameResult s t) : SameResult r t := by
  unfold SameResult at *
  rw [second, first]

namespace SameTurn

theorem refl (m : AgentMessage) : SameTurn m m :=
  ⟨rfl, List.forall₂_same.mpr fun _ _ => rfl⟩

theorem trans {m n o : AgentMessage} (first : SameTurn m n) (second : SameTurn n o) :
    SameTurn m o where
  rest := by
    rw [second.rest, first.rest]
  results := by
    exact forall₂_comp (fun _ _ _ left right => left.trans right) first.results second.results

theorem role {m m' : AgentMessage} (same : SameTurn m m') : m'.role = m.role := by
  rw [same.rest]

theorem toolCalls {m m' : AgentMessage} (same : SameTurn m m') : m'.toolCalls = m.toolCalls := by
  rw [same.rest]

/-- The calls that the results are for. -/
theorem resultIds {m m' : AgentMessage} (same : SameTurn m m') :
    m'.toolResults.map (·.toolCallId) = m.toolResults.map (·.toolCallId) := by
  have results := same.results
  generalize m.toolResults = xs at results
  generalize m'.toolResults = ys at results
  induction results with
  | nil => rfl
  | cons same _ ih => rw [List.map_cons, List.map_cons, ih, same]

variable (libraries : Libraries) (limit maxChars : Nat) (m : AgentMessage)

theorem condenseResults : SameTurn m (condenseResults libraries limit m) where
  rest := rfl
  results := by
    rw [DuraLLM.condenseResults, List.forall₂_map_right_iff, List.forall₂_same]
    intro r _
    unfold condenseResult
    split <;> rfl

theorem condenseContent : SameTurn m (condenseContent libraries limit maxChars m) := by
  unfold DuraLLM.condenseContent
  split
  · exact ⟨rfl, (refl m).results⟩
  · exact refl m

theorem diagnoseMessage (first : Option Nat) (count idx : Nat) :
    SameTurn m (diagnoseMessage libraries first count idx m) := by
  have results := condenseResults libraries 400 m
  simp only [DuraLLM.diagnoseMessage]
  split
  · exact results
  · split <;> exact results.trans (condenseContent ..)

theorem condenseTurn : SameTurn m (condenseTurn libraries m) := by
  have results := condenseResults libraries 300 m
  simp only [DuraLLM.condenseTurn]
  split
  · exact results.trans ⟨rfl, (refl _).results⟩
  · exact results

theorem condenseTailMessage (first : Option Nat) (idx : Nat) :
    SameTurn m (condenseTailMessage libraries first idx m) := by
  unfold DuraLLM.condenseTailMessage
  split
  · exact refl m
  · exact (condenseResults libraries 250 m).trans (condenseContent ..)

end SameTurn

/-! ## One phase -/

namespace Compaction

/-- The first user message is in the protected part. -/
def Guards (c : Compaction) : Prop :=
  ∀ idx, c.firstUserIdx = some idx → idx < c.protectedPrefixCount

/-- `next` is what is left of `current` without a block of `k` messages behind
    the protected ones. -/
structure Trims (c : Compaction) (k : Nat) (current next : AgentRequest) : Prop where
  turns : List.Forall₂ SameTurn (without c.protectedPrefixCount k current.messages) next.messages
  root : ∀ idx, c.firstUserIdx = some idx →
    next.messages[idx]?.map (·.content) = current.messages[idx]?.map (·.content)
  last : 0 < c.preserveTailTurns → k ≠ 0 →
    c.protectedPrefixCount + k < current.messages.length

/-- The phase takes `k` messages out. -/
def Pops (c : Compaction) (phase : CompactionPhase) (s : AgentRequest) (k : Nat) : Prop :=
  match phase with
  | .evictMiddle => Stops (fun messages => exceeds c.targetTokens { s with messages })
      (c.preserveTailTurns + c.protectedPrefixCount) c.protectedPrefixCount s.messages k
  | .evictTail => Stops (fun messages => exceeds c.targetTokens { s with messages })
      (2 + c.protectedPrefixCount) c.protectedPrefixCount s.messages k
  | _ => k = 0

variable {c : Compaction}

theorem Trims.refl (s : AgentRequest) : c.Trims 0 s s where
  turns := by
    rw [without_zero]
    exact List.forall₂_same.mpr fun m _ => SameTurn.refl m
  root _ _ := rfl
  last _ some := absurd rfl some

theorem Trims.trans {k j : Nat} {r s t : AgentRequest} (first : c.Trims k r s)
    (second : c.Trims j s t) : c.Trims (k + j) r t where
  turns := by
    rw [← without_without]
    exact forall₂_comp (fun _ _ _ left right => left.trans right)
      (forall₂_without first.turns _ j) second.turns
  root idx found := (second.root idx found).trans (first.root idx found)
  last tail some := by
    have count := first.turns.length_eq
    by_cases none : k = 0
    · subst none
      rw [without_zero] at count
      have room := second.last tail (by omega)
      omega
    · have inside := first.last tail none
      rw [length_without (by omega)] at count
      by_cases more : j = 0
      · omega
      · have room := second.last tail more
        omega

/-- Messages that are edited in place. -/
theorem Trims.edit {current : AgentRequest} {f : Nat → AgentMessage → AgentMessage}
    (same : ∀ idx m, SameTurn m (f idx m))
    (spared : ∀ idx m, c.firstUserIdx = some idx → (f idx m).content = m.content) :
    c.Trims 0 current { current with messages := current.messages.mapIdx f } where
  turns := by
    rw [without_zero]
    exact forall₂_mapIdx fun idx m _ => same idx m
  root idx found := by
    simp only [List.getElem?_mapIdx]
    cases current.messages[idx]? with
    | none => rfl
    | some m => exact congrArg some (spared idx m found)
  last _ some := absurd rfl some

theorem diagnose_trims (current : AgentRequest) : c.Trims 0 current (c.diagnose current) := by
  apply Trims.edit
  · intro idx m
    exact SameTurn.diagnoseMessage ..
  · intro idx m found
    simp only [diagnoseMessage, if_pos found]
    rfl

theorem condenseMiddle_trims (guards : c.Guards) {current next : AgentRequest}
    (done : c.condenseMiddle current = .ok next) : c.Trims 0 current next := by
  unfold condenseMiddle at done
  dsimp only at done
  split at done
  · cases done
  · injection done with same
    subst same
    apply Trims.edit
    · intro idx m
      split
      · exact SameTurn.condenseTurn ..
      · exact SameTurn.refl m
    · intro idx m found
      have inside := guards idx found
      rw [if_neg (by omega)]

theorem condenseTail_trims (current : AgentRequest) : c.Trims 0 current (c.condenseTail current) := by
  apply Trims.edit
  · intro idx m
    exact SameTurn.condenseTailMessage ..
  · intro idx m found
    rw [condenseTailMessage, if_pos found]

/-- What an eviction leaves, with the number of the messages it has taken. -/
theorem evictDownTo_ok {tail : Int} {current next : AgentRequest}
    (done : c.evictDownTo tail current = .ok next) :
    ∃ k messages, next = { current with messages } ∧
      Evicted (fun messages => exceeds c.targetTokens { current with messages })
        (tail + c.protectedPrefixCount) c.protectedPrefixCount current.messages messages k := by
  unfold evictDownTo at done
  split at done
  · next messages ended =>
    injection done with same
    obtain ⟨k, evicted⟩ := evict_evicted (Nat.lt_succ_self _) ended
    exact ⟨k, messages, same.symm, evicted⟩
  · cases done

theorem evictDownTo_trims (guards : c.Guards) {tail : Int} {current next : AgentRequest}
    (some : 0 < c.preserveTailTurns → 0 < tail) (done : c.evictDownTo tail current = .ok next) :
    ∃ k, Stops (fun messages => exceeds c.targetTokens { current with messages })
      (tail + c.protectedPrefixCount) c.protectedPrefixCount current.messages k ∧
      c.Trims k current next := by
  obtain ⟨k, messages, rfl, evicted⟩ := evictDownTo_ok done
  refine ⟨k, evicted.stops, ?_, ?_, ?_⟩
  · rw [← evicted.eq]
    exact List.forall₂_same.mpr fun m _ => SameTurn.refl m
  · intro idx found
    simp only [evicted.eq, getElem?_without (guards idx found)]
  · intro positive taken
    have room := some positive
    exact evicted.room (by omega) taken

/-- Nothing but the tools changes. -/
theorem condenseTools_ok {current next : AgentRequest} (done : c.condenseTools current = .ok next) :
    ∃ tools, next = { current with tools } := by
  unfold condenseTools at done
  split at done
  · cases condensed : current.tools.mapM condenseTool with
    | error e =>
        rw [condensed] at done
        cases done
    | ok tools =>
        rw [condensed] at done
        injection done with same
        exact ⟨tools, same.symm⟩
  · injection done with same
    exact ⟨current.tools, same.symm⟩

theorem condenseFrame_ok {current next : AgentRequest}
    (done : c.condenseFrame current = .ok next) :
    ∃ tools, next = c.condenseSystem { current with tools } := by
  unfold condenseFrame at done
  cases condensed : c.condenseTools current with
  | error e =>
      rw [condensed] at done
      cases done
  | ok middle =>
      rw [condensed] at done
      injection done with same
      obtain ⟨tools, rfl⟩ := condenseTools_ok condensed
      exact ⟨tools, same.symm⟩

theorem condenseSystem_messages (current : AgentRequest) :
    (c.condenseSystem current).messages = current.messages := by
  unfold condenseSystem
  split <;> rfl

theorem apply_trims (guards : c.Guards) {phase : CompactionPhase} {current next : AgentRequest}
    (done : c.apply phase current = .ok next) :
    ∃ k, c.Pops phase current k ∧ c.Trims k current next := by
  cases phase with
  | diagnose =>
      injection done with same
      exact ⟨0, rfl, same ▸ diagnose_trims current⟩
  | condenseMiddle => exact ⟨0, rfl, condenseMiddle_trims guards done⟩
  | evictMiddle => exact evictDownTo_trims guards (fun positive => positive) done
  | condenseTail =>
      injection done with same
      exact ⟨0, rfl, same ▸ condenseTail_trims current⟩
  | condenseFrame =>
      obtain ⟨tools, rfl⟩ := condenseFrame_ok done
      have same : (c.condenseSystem { current with tools }).messages = current.messages :=
        condenseSystem_messages _
      refine ⟨0, rfl, ?_, ?_, fun _ some => absurd rfl some⟩
      · rw [without_zero, same]
        exact List.forall₂_same.mpr fun m _ => SameTurn.refl m
      · intro idx _
        rw [same]
  | evictTail => exact evictDownTo_trims guards (fun _ => by decide) done

/-! ## Runs -/

/-- These phases have been gone through, and the copy did not fit after any. -/
inductive Reached (c : Compaction) (request : AgentRequest) :
    List CompactionPhase → AgentRequest → Prop
  | start : exceeds c.targetTokens request = true → Reached c request [] request
  | next {done : List CompactionPhase} (phase : CompactionPhase) {s t : AgentRequest} :
      Reached c request done s → c.apply phase s = .ok t → exceeds c.targetTokens t = true →
        Reached c request (done ++ [phase]) t

theorem Reached.exceeds {request s : AgentRequest} {done : List CompactionPhase}
    (reached : c.Reached request done s) : exceeds c.targetTokens s = true := by
  cases reached with
  | start large => exact large
  | next _ _ _ large => exact large

theorem Reached.trims (guards : c.Guards) {request s : AgentRequest}
    {done : List CompactionPhase} (reached : c.Reached request done s) :
    ∃ k, c.Trims k request s := by
  induction reached with
  | start _ => exact ⟨0, .refl request⟩
  | next _ _ applied _ ih =>
      obtain ⟨k, before⟩ := ih
      obtain ⟨j, -, step⟩ := apply_trims guards applied
      exact ⟨k + j, before.trans step⟩

/-- What has been gone through is behind the run. -/
theorem Reached.run_eq {request s : AgentRequest} {done : List CompactionPhase}
    (reached : c.Reached request done s) (later : List CompactionPhase) :
    c.run (done ++ later) request = c.run later s := by
  induction reached generalizing later with
  | start _ => rfl
  | next _ _ applied large ih =>
      rw [List.append_assoc, ih, List.singleton_append, run, applied]
      simp only [bind, Except.bind, large, if_true]

/-- A run ends in a phase that makes the copy fit, in one that raises, or with
    an overflow behind the last one. -/
theorem run_ends (later : List CompactionPhase) {request s : AgentRequest}
    {done : List CompactionPhase} (reached : c.Reached request done s) :
    (∃ more phase rest t out, later = more ++ phase :: rest ∧ c.Reached request (done ++ more) t ∧
        c.apply phase t = .ok out ∧ DuraLLM.exceeds c.targetTokens out = false ∧
        c.run later s = .ok out) ∨
      (∃ more phase rest t e, later = more ++ phase :: rest ∧ c.Reached request (done ++ more) t ∧
        c.apply phase t = .error e ∧ c.run later s = .error e) ∨
      ∃ t, c.Reached request (done ++ later) t ∧
        c.run later s = .error (.contextOverflow (estimateTokens t) c.targetTokens) := by
  induction later generalizing done s with
  | nil => exact .inr (.inr ⟨s, by simpa using reached, rfl⟩)
  | cons phase later ih =>
      cases applied : c.apply phase s with
      | error e =>
          refine .inr (.inl ⟨[], phase, later, s, e, rfl, by simpa using reached, applied, ?_⟩)
          rw [run, applied]
          rfl
      | ok t =>
          have unfolded : c.run (phase :: later) s =
              if DuraLLM.exceeds c.targetTokens t then c.run later t else .ok t := by
            rw [run, applied]
            rfl
          cases large : DuraLLM.exceeds c.targetTokens t with
          | false =>
              refine .inl ⟨[], phase, later, s, t, rfl, by simpa using reached, applied, large, ?_⟩
              rw [unfolded, large]
              rfl
          | true =>
              rw [unfolded, large, if_pos rfl]
              have append : done ++ phase :: later = done ++ [phase] ++ later := by simp
              rcases ih (reached.next phase applied large) with
                ⟨more, p, rest, u, out, rfl, there, ended⟩ |
                ⟨more, p, rest, u, e, rfl, there, ended⟩ | ⟨u, there, ended⟩
              · exact .inl ⟨phase :: more, p, rest, u, out, rfl, by simpa using there, ended⟩
              · exact .inr (.inl ⟨phase :: more, p, rest, u, e, rfl, by simpa using there, ended⟩)
              · exact .inr (.inr ⟨u, append ▸ there, ended⟩)

theorem Reached.started {request s : AgentRequest} {done : List CompactionPhase}
    (reached : c.Reached request done s) : DuraLLM.exceeds c.targetTokens request = true := by
  induction reached with
  | start large => exact large
  | next _ _ _ _ ih => exact ih

/-- Every phase that the run comes to finds a copy with the property. -/
def Throughout (c : Compaction) (property : CompactionPhase → AgentRequest → Prop) :
    List CompactionPhase → AgentRequest → Prop
  | [], _ => True
  | phase :: later, s =>
      property phase s ∧ ∀ t, c.apply phase s = .ok t → DuraLLM.exceeds c.targetTokens t = true →
        c.Throughout property later t

/-- How a call ends. -/
inductive Ended (c : Compaction) (request : AgentRequest) :
    Except CompactionError (AgentRequest × Bool) → Prop
  | fits : DuraLLM.exceeds c.targetTokens request = false → Ended c request (.ok (request, false))
  | returned {done later : List CompactionPhase} {phase : CompactionPhase} {s out : AgentRequest} :
      compactionPhases = done ++ phase :: later → c.Reached request done s →
        c.apply phase s = .ok out → DuraLLM.exceeds c.targetTokens out = false →
        Ended c request (.ok (out, true))
  | raised {done later : List CompactionPhase} {phase : CompactionPhase} {s : AgentRequest}
      {e : CompactionError} :
      compactionPhases = done ++ phase :: later → c.Reached request done s →
        c.apply phase s = .error e → Ended c request (.error e)
  | overflowed {s : AgentRequest} :
      c.Reached request compactionPhases s →
        Ended c request (.error (.contextOverflow (estimateTokens s) c.targetTokens))

end Compaction

namespace ContextManager

variable (manager : ContextManager) (libraries : Libraries)

theorem guards (request : AgentRequest) (budget : ContextBudget) :
    (manager.compaction libraries request budget).Guards := by
  intro idx found
  simp only [compaction] at found ⊢
  rw [protectedPrefixCount, found]
  exact Nat.lt_succ_self idx

theorem compact_ended (request : AgentRequest) (budget : ContextBudget) :
    (manager.compaction libraries request budget).Ended request
      (manager.compact libraries request budget).outcome := by
  unfold compact
  cases large : exceeds budget.availableInputBudget request with
  | false => exact .fits large
  | true =>
      rw [if_pos rfl]
      have begun := Compaction.Reached.start
        (c := manager.compaction libraries request budget) large
      rcases Compaction.run_ends compactionPhases begun with
        ⟨more, phase, rest, s, out, split, reached, applied, small, ended⟩ |
        ⟨more, phase, rest, s, e, split, reached, applied, ended⟩ | ⟨s, reached, ended⟩
      · rw [ended]
        exact .returned split reached applied small
      · rw [ended]
        exact .raised split reached applied
      · rw [ended]
        exact .overflowed reached

/-- A phase that raises ends the call. -/
theorem compact_raised {request s : AgentRequest} {budget : ContextBudget}
    {done later : List CompactionPhase} {phase : CompactionPhase} {e : CompactionError}
    (split : compactionPhases = done ++ phase :: later)
    (reached : (manager.compaction libraries request budget).Reached request done s)
    (applied : (manager.compaction libraries request budget).apply phase s = .error e) :
    (manager.compact libraries request budget).outcome = .error e := by
  have large : exceeds budget.availableInputBudget request = true := reached.started
  have ahead := reached.run_eq (phase :: later)
  rw [← split, Compaction.run, applied] at ahead
  rw [compact, if_pos large, ahead]
  rfl

end ContextManager

end DuraLLM
