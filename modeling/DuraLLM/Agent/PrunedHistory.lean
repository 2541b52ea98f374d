import DuraLLM.Agent.Pruner

/-! # What the pruner leaves of a history

The loops that evict messages add up to one eviction with the lowest tail that
they come to, and all other changes are to contents.
-/

namespace DuraLLM

open Eviction

/-! ## The loops -/

section Loops

variable {tooLarge : List ChatMessage → Bool} {start : Nat} {minPreserveTail : Int}

/-- The tail at which the loop ends. -/
def lowestTail (minPreserveTail preserveTail : Int) : Int :=
  if preserveTail ≤ minPreserveTail then preserveTail
  else preserveTail - 2 * ((preserveTail - minPreserveTail + 1) / 2)

theorem lowestTail_le (minPreserveTail preserveTail : Int) :
    lowestTail minPreserveTail preserveTail ≤ preserveTail := by
  unfold lowestTail
  split <;> omega

theorem lowestTail_step {preserveTail : Int} (more : minPreserveTail < preserveTail) :
    lowestTail minPreserveTail (preserveTail - 2) = lowestTail minPreserveTail preserveTail := by
  unfold lowestTail
  split <;> split <;> omega

theorem shrinkTail_some {fuel : Nat} {preserveTail : Int} {messages out : List ChatMessage}
    (enough : preserveTail - minPreserveTail ≤ fuel)
    (stopped : (messages.length : Int) ≤ start + preserveTail ∨ tooLarge messages = false)
    (done : shrinkTail tooLarge start minPreserveTail fuel preserveTail messages = some out) :
    ∃ k, Evicted tooLarge (start + lowestTail minPreserveTail preserveTail) start messages out k := by
  induction fuel generalizing preserveTail messages with
  | zero =>
      have low : lowestTail minPreserveTail preserveTail = preserveTail := if_pos (by omega)
      injection done with same
      subst same
      rw [low]
      exact ⟨0, (without_zero _ _).symm, fun some => absurd rfl some, stopped, fun _ _ => by omega⟩
  | succ fuel ih =>
      rw [shrinkTail] at done
      split at done
      · next more =>
        cases evicted : evict tooLarge (start + (preserveTail - 2)) start (messages.length + 1)
            messages with
        | none =>
            rw [evicted] at done
            cases done
        | some rest =>
            rw [evicted] at done
            obtain ⟨k, first⟩ := evict_evicted (Nat.lt_succ_self _) evicted
            obtain ⟨j, second⟩ := ih (by omega) first.done done
            rw [lowestTail_step more.1] at second
            have below := lowestTail_le minPreserveTail (preserveTail - 2)
            rw [lowestTail_step more.1] at below
            exact ⟨k + j, first.trans (by omega) second⟩
      · next ends =>
        injection done with same
        subst same
        by_cases low : preserveTail ≤ minPreserveTail
        · rw [lowestTail, if_pos low]
          exact ⟨0, (without_zero _ _).symm, fun some => absurd rfl some, stopped, fun _ _ => by omega⟩
        · exact ⟨0, .none (Bool.eq_false_iff.mpr fun large => ends ⟨by omega, large⟩)⟩

theorem shrinkTail_none {fuel : Nat} {preserveTail : Int} {messages : List ChatMessage}
    (inside : start ≤ messages.length)
    (failed : shrinkTail tooLarge start minPreserveTail fuel preserveTail messages = none) :
    Taken tooLarge (start + lowestTail minPreserveTail preserveTail) start messages
      (messages.length - start) := by
  induction fuel generalizing preserveTail messages with
  | zero => cases failed
  | succ fuel ih =>
      rw [shrinkTail] at failed
      split at failed
      · next more =>
        have below := lowestTail_le minPreserveTail (preserveTail - 2)
        rw [lowestTail_step more.1] at below
        cases evicted : evict tooLarge (start + (preserveTail - 2)) start (messages.length + 1)
            messages with
        | none => exact (evict_none (Nat.lt_succ_self _) inside evicted).lower (by omega)
        | some rest =>
            rw [evicted] at failed
            obtain ⟨k, first⟩ := evict_evicted (Nat.lt_succ_self _) evicted
            have count := first.length_eq
            have room : k ≠ 0 → start + k ≤ messages.length := first.inside
            have last := ih (by omega) failed
            rw [lowestTail_step more.1] at last
            have whole := Taken.behind (by omega) first last
            rwa [show k + (rest.length - start) = messages.length - start by omega] at whole
      · cases failed

end Loops

/-! ## Edits of one message -/

/-- The same message but for its content. -/
def SameBut (m m' : ChatMessage) : Prop := ∀ key, key ≠ "content" → m'.lookup key = m.lookup key

theorem SameBut.refl (m : ChatMessage) : SameBut m m := fun _ _ => rfl

theorem SameBut.trans {m n o : ChatMessage} (first : SameBut m n) (second : SameBut n o) :
    SameBut m o := fun key other => (second key other).trans (first key other)

theorem SameBut.symm {m n : ChatMessage} (same : SameBut m n) : SameBut n m :=
  fun key other => (same key other).symm

theorem SameBut.isRole {m m' : ChatMessage} (same : SameBut m m') (role : String) :
    ChatMessage.isRole m' role = ChatMessage.isRole m role := by
  rw [ChatMessage.isRole, ChatMessage.isRole, same "role" (by decide)]

theorem sameBut_assign (v : JsonRaw) (m : ChatMessage) :
    SameBut m (JsonMembers.assign "content" v m) :=
  fun _ other => JsonMembers.lookup_assign_ne other v m

section Edits

variable (libraries : Libraries) (limit maxChars : Nat) (m : ChatMessage)

theorem sameBut_condenseText : SameBut m (condenseText libraries "content" limit maxChars m) := by
  unfold condenseText
  split
  · split
    · exact sameBut_assign _ m
    · exact .refl m
  · exact .refl m

theorem sameBut_mapParts (f : ChatMessage → ChatMessage) : SameBut m (mapParts f m) := by
  unfold mapParts
  split
  · exact sameBut_assign _ m
  · exact .refl m

theorem sameBut_condenseShortHistory : SameBut m (condenseShortHistory libraries m) := by
  unfold condenseShortHistory
  split
  · exact (sameBut_condenseText libraries _ _ m).trans (sameBut_mapParts _ _)
  · exact .refl m

/-- Another content only for messages of some roles. -/
def EditedIf (roles : List String) (m m' : ChatMessage) : Prop :=
  SameBut m m' ∧ (m' = m ∨ ∃ role ∈ roles, ChatMessage.isRole m role = true)

theorem EditedIf.trans {roles others : List String} {m n o : ChatMessage}
    (first : EditedIf roles m n) (second : EditedIf others n o) : EditedIf (roles ++ others) m o := by
  obtain ⟨same, here⟩ := first
  obtain ⟨again, there⟩ := second
  refine ⟨same.trans again, ?_⟩
  rcases here with rfl | ⟨role, member, is⟩
  · rcases there with rfl | ⟨role, member, is⟩
    · exact .inl rfl
    · exact .inr ⟨role, List.mem_append_right _ member, is⟩
  · exact .inr ⟨role, List.mem_append_left _ member, is⟩

theorem condenseTools_edited (start : Nat) (messages : List ChatMessage) :
    List.Forall₂ (EditedIf ["tool"]) messages (condenseTools libraries start messages) := by
  apply forall₂_mapIdx
  intro idx m _
  split
  · next tool =>
    have role : ∃ role ∈ ["tool"], ChatMessage.isRole m role = true :=
      ⟨"tool", List.mem_cons_self, tool.2⟩
    split <;> exact ⟨sameBut_condenseText libraries _ _ m, .inr role⟩
  · exact ⟨.refl m, .inl rfl⟩

theorem condenseReasoning_edited (start : Nat) (messages : List ChatMessage) :
    List.Forall₂ (EditedIf ["assistant"]) messages (condenseReasoning libraries start messages) := by
  apply forall₂_mapIdx
  intro idx m _
  split
  · next assistant =>
    exact ⟨sameBut_condenseText libraries _ _ m, .inr ⟨"assistant", List.mem_cons_self, assistant.2.2⟩⟩
  · exact ⟨.refl m, .inl rfl⟩

end Edits

/-! ## A history of three messages or more -/

/-- What is popped of the history: the loops run on the messages with their tool
    results shortened. -/
def historyTaken (libraries : Libraries) (target minPreserveTail : Int) (request : ChatPayload)
    (messages : List ChatMessage) (j : Nat) : Prop :=
  Taken (request.exceeds target) (startIdx messages + lowestTail minPreserveTail 6)
    (startIdx messages) (condenseTools libraries (startIdx messages) messages) j

section History

variable {libraries : Libraries} {target minPreserveTail : Int} {request : ChatPayload}
  {messages : List ChatMessage}

theorem startIdx_le (some : 2 ≤ messages.length) : startIdx messages ≤ messages.length := by
  unfold startIdx
  split <;> omega

theorem pruneHistory_some {out : ChatPayload}
    (done : pruneHistory libraries target minPreserveTail request messages = some out) :
    ∃ k pruned, out = request.withMessages pruned ∧
      (∀ j, historyTaken libraries target minPreserveTail request messages j ↔ j < k) ∧
      (k ≠ 0 → startIdx messages + k ≤ messages.length) ∧
      List.Forall₂ (EditedIf ["tool", "assistant"])
        (without (startIdx messages) k messages) pruned := by
  have edited := condenseTools_edited libraries (startIdx messages) messages
  have widen : ∀ m m', EditedIf ["tool"] m m' → EditedIf ["tool", "assistant"] m m' := by
    rintro m m' ⟨same, rfl | ⟨role, member, is⟩⟩
    · exact ⟨same, .inl rfl⟩
    · exact ⟨same, .inr ⟨role, List.mem_append_left ["assistant"] member, is⟩⟩
  have result : ∀ {k rest}, Evicted (request.exceeds target)
      (startIdx messages + lowestTail minPreserveTail 6) (startIdx messages)
      (condenseTools libraries (startIdx messages) messages) rest k →
      (∀ j, historyTaken libraries target minPreserveTail request messages j ↔ j < k) ∧
      (k ≠ 0 → startIdx messages + k ≤ messages.length) ∧
      List.Forall₂ (EditedIf ["tool"]) (without (startIdx messages) k messages) rest := by
    intro k rest evicted
    refine ⟨evicted.taken_iff, fun some => ?_, evicted.eq ▸ forall₂_without edited _ k⟩
    have inside := evicted.inside some
    rwa [← edited.length_eq] at inside
  have below := lowestTail_le minPreserveTail 6
  unfold pruneHistory at done
  dsimp only at done
  split at done
  · next small =>
    injection done with same
    obtain ⟨taken, room, turns⟩ := result (.none (by simpa using small))
    exact ⟨0, _, same.symm, taken, room, turns.imp widen⟩
  · split at done
    · cases done
    · next rest evicted =>
      obtain ⟨k, first⟩ := evict_evicted (Nat.lt_succ_self _) evicted
      split at done
      · next small =>
        injection done with same
        have small : request.exceeds target rest = false := by simpa using small
        obtain ⟨taken, room, turns⟩ := result (first.trans (by omega) (.none small))
        exact ⟨_, _, same.symm, taken, room, turns.imp widen⟩
      · split at done
        · cases done
        · next shrunk ended =>
          injection done with same
          obtain ⟨j, second⟩ := shrinkTail_some (by omega) first.done ended
          obtain ⟨taken, room, turns⟩ := result (first.trans (by omega) second)
          refine ⟨_, _, same.symm, taken, room, ?_⟩
          split
          · exact forall₂_comp (fun _ _ _ left right => left.trans right) turns
              (condenseReasoning_edited libraries _ shrunk)
          · exact turns.imp widen

theorem pruneHistory_none (some : 2 ≤ messages.length)
    (failed : pruneHistory libraries target minPreserveTail request messages = none) :
    historyTaken libraries target minPreserveTail request messages
      (messages.length - startIdx messages) := by
  have count : (condenseTools libraries (startIdx messages) messages).length = messages.length :=
    List.length_mapIdx
  have inside : startIdx messages ≤
      (condenseTools libraries (startIdx messages) messages).length := count ▸ startIdx_le some
  have below := lowestTail_le minPreserveTail 6
  unfold historyTaken
  rw [← count]
  unfold pruneHistory at failed
  dsimp only at failed
  split at failed
  · cases failed
  · split at failed
    · next none => exact (evict_none (Nat.lt_succ_self _) inside none).lower (by omega)
    · next rest evicted =>
      obtain ⟨k, first⟩ := evict_evicted (Nat.lt_succ_self _) evicted
      split at failed
      · cases failed
      · split at failed
        · next none =>
          have size := first.length_eq
          have room := first.inside
          have last := shrinkTail_none (by omega) none
          have whole := Taken.behind (by omega) first last
          rwa [show k + (rest.length - startIdx messages) =
            (condenseTools libraries (startIdx messages) messages).length - startIdx messages by
            omega] at whole
        · cases failed

end History

end DuraLLM
