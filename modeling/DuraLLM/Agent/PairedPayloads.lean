import DuraLLM.Agent.Anchors
import DuraLLM.Agent.PairedCalls

/-! # Calls and results in pruned payloads

In an OpenAI payload a call has its result in a message of the role `tool`.  The
pruners edit contents only, so whether calls and results are still matched is a
matter of the block of messages that is gone.
-/

namespace DuraLLM

open Eviction CallEntry ChatMessage

def chatEntry (m : ChatMessage) : CallEntry String where
  calls :=
    if isRole m "assistant" then
      match m.lookup "tool_calls" with
      | some (.arr calls) => calls.filterMap fun call =>
          (call.get "id" .null).bind JsonRaw.asStr
      | _ => []
    else []
  results :=
    if isRole m "tool" then ((m.lookup "tool_call_id").bind JsonRaw.asStr).toList else []

def chatEntries (messages : List ChatMessage) : List (CallEntry String) := messages.map chatEntry

theorem SameBut.chatEntry {m m' : ChatMessage} (same : SameBut m m') :
    chatEntry m' = chatEntry m := by
  simp only [DuraLLM.chatEntry, same.isRole, same "tool_calls" (by decide),
    same "tool_call_id" (by decide)]

theorem chatEntries_of_same {xs ys : List ChatMessage} (turns : List.Forall₂ SameBut xs ys) :
    chatEntries ys = chatEntries xs := by
  induction turns with
  | nil => rfl
  | cons same _ ih =>
      simp only [chatEntries, List.map_cons, same.chatEntry] at ih ⊢
      rw [ih]

theorem chatEntries_without (start k : Nat) (messages : List ChatMessage) :
    chatEntries (without start k messages) = without start k (chatEntries messages) := by
  simp [chatEntries, without]

/-! ## The protected position -/

theorem startIdx_of_same {xs ys : List ChatMessage} (turns : List.Forall₂ SameBut xs ys) :
    startIdx ys = startIdx xs := by
  cases turns with
  | nil => rfl
  | @cons x y xs ys same _ =>
      have heads : (y :: ys).head?.any (isRole · "system") = (x :: xs).head?.any (isRole · "system") :=
        same.isRole "system"
      rw [startIdx, startIdx, heads]

theorem startIdx_without (k : Nat) (xs : List ChatMessage) :
    startIdx (without (startIdx xs) k xs) = startIdx xs := by
  have first := getElem?_without (startIdx_pos xs) k xs
  rw [← List.head?_eq_getElem?, ← List.head?_eq_getElem?] at first
  unfold startIdx at first ⊢
  rw [first]

/-! ## The OpenAI pruner -/

/-- The message at this distance behind the protected ones is evicted. -/
def Gone (libraries : Libraries) (request : ChatPayload) (limits : PruneLimits) (j : Nat) : Prop :=
  ¬(request.tokens : Int) ≤ limits.targetTokens ∧ 2 < request.history.length ∧
    historyTaken libraries limits.targetTokens limits.minPreserveTail request request.history j

section Openai

variable {libraries : Libraries} {request out : ChatPayload} {limits : PruneLimits}

/-- What is left of the history, with the number of the messages that are gone. -/
theorem pruneOpenaiRequest_some (returned : pruneOpenaiRequest libraries request limits = some out) :
    ∃ k, (∀ j, Gone libraries request limits j ↔ j < k) ∧
      List.Forall₂ SameBut (without (startIdx request.history) k request.history) out.history := by
  have untouched : (¬∃ j, Gone libraries request limits j) →
      ∀ j, Gone libraries request limits j ↔ j < 0 := by
    intro none j
    exact ⟨fun gone => absurd ⟨j, gone⟩ none, fun early => by omega⟩
  unfold pruneOpenaiRequest at returned
  dsimp only at returned
  split at returned
  · next unchanged =>
    injection returned with same
    subst same
    refine ⟨0, untouched ?_, ?_⟩
    · rintro ⟨j, large, long, -⟩
      rcases unchanged with fits | none
      · exact large fits
      · rw [List.isEmpty_iff] at none
        simp [none] at long
    · rw [without_zero]
      exact List.forall₂_same.mpr fun m _ => .refl m
  · next changed =>
    split at returned
    · next short =>
      injection returned with same
      subst same
      refine ⟨0, untouched ?_, ?_⟩
      · rintro ⟨j, -, long, -⟩
        omega
      · rw [without_zero]
        show List.Forall₂ SameBut request.history (request.history.map _)
        rw [List.forall₂_map_right_iff, List.forall₂_same]
        exact fun m _ => sameBut_condenseShortHistory libraries m
    · next long =>
      obtain ⟨k, pruned, rfl, taken, -, edited⟩ := pruneHistory_some returned
      have large : ¬(request.tokens : Int) ≤ limits.targetTokens := fun fits => changed (.inl fits)
      refine ⟨k, fun j => ?_, edited.imp fun _ _ edit => edit.1⟩
      rw [← taken]
      exact ⟨fun gone => gone.2.2, fun gone => ⟨large, by omega, gone⟩⟩

end Openai

/-! ## The pruner for Groq -/

section Groq

variable (libraries : Libraries)

theorem sameBut_mapPartsM {f : ChatMessage → Option ChatMessage} {m m' : ChatMessage}
    (done : mapPartsM f m = some m') : SameBut m m' := by
  unfold mapPartsM at done
  split at done
  · obtain ⟨parts, _, rfl⟩ := Option.map_eq_some_iff.mp done
    exact sameBut_assign _ m
  · exact Option.some.inj done ▸ .refl m

theorem sameBut_condenseToolResults {m m' : ChatMessage}
    (done : condenseToolResults libraries m = some m') : SameBut m m' := by
  unfold condenseToolResults at done
  split at done
  · exact Option.some.inj done ▸ sameBut_condenseText libraries 600 500 m
  · split at done
    · exact (sameBut_condenseText libraries 2000 1500 m).trans (sameBut_mapPartsM done)
    · exact Option.some.inj done ▸ .refl m

theorem sameBut_condenseAggressively {m m' : ChatMessage}
    (done : condenseAggressively libraries m = some m') : SameBut m m' := by
  unfold condenseAggressively at done
  split at done
  · exact (sameBut_condenseText libraries 1000 800 m).trans (sameBut_mapPartsM done)
  · exact Option.some.inj done ▸ .refl m

theorem sameBut_mapM {f : ChatMessage → Option ChatMessage}
    (each : ∀ m m', f m = some m' → SameBut m m') {xs ys : List ChatMessage}
    (done : xs.mapM f = some ys) : List.Forall₂ SameBut xs ys := by
  induction xs generalizing ys with
  | nil =>
      obtain rfl : [] = ys := Option.some.inj done
      exact .nil
  | cons x xs ih =>
      rw [List.mapM_cons] at done
      obtain ⟨y, first, rest⟩ := Option.bind_eq_some_iff.mp done
      obtain ⟨zs, others, same⟩ := Option.bind_eq_some_iff.mp rest
      obtain rfl : y :: zs = ys := Option.some.inj same
      exact .cons (each x y first) (ih others)

theorem sameBut_condenseFirst (messages : List ChatMessage) :
    List.Forall₂ SameBut messages (condenseFirst messages) := by
  cases messages with
  | nil => exact .nil
  | cons m messages =>
      refine .cons ?_ (List.forall₂_same.mpr fun m _ => .refl m)
      split
      · unfold condenseSystemPrompt
        split
        · split
          · exact sameBut_assign _ m
          · exact .refl m
        · exact .refl m
      · exact .refl m

theorem edit_some {f : List ChatMessage → Option (List ChatMessage)} {payload out : ChatPayload}
    (done : payload.edit f = some out) :
    out.history = payload.history ∧ payload.messages = none ∨ f payload.history = some out.history := by
  unfold ChatPayload.edit at done
  unfold ChatPayload.history
  split at done
  · next messages found =>
    obtain ⟨edited, same, rfl⟩ := Option.map_eq_some_iff.mp done
    rw [found]
    exact .inr same
  · next none =>
    obtain rfl := Option.some.inj done
    exact .inl ⟨rfl, none⟩

theorem edit_same {f : List ChatMessage → Option (List ChatMessage)} {payload out : ChatPayload}
    (each : ∀ xs ys, f xs = some ys → List.Forall₂ SameBut xs ys)
    (done : payload.edit f = some out) : List.Forall₂ SameBut payload.history out.history := by
  rcases edit_some done with ⟨same, -⟩ | edited
  · rw [same]
    exact List.forall₂_same.mpr fun m _ => .refl m
  · exact each _ _ edited

/-- The payload that the sliding window is given, if the steps before it do not
    make it fit. -/
def groqWindowInput (payload : ChatPayload) (maxInputTokens : Int) : Option ChatPayload :=
  if payload.tokens ≤ maxInputTokens then none
  else
    let req := compactTools payload
    if req.tokens ≤ maxInputTokens then none
    else do
      let req ← req.edit fun messages => some (condenseFirst messages)
      if req.tokens ≤ maxInputTokens then none
      else
        let req ← req.edit (·.mapM (condenseToolResults libraries))
        if req.tokens ≤ maxInputTokens then none else return req

/-- The sliding window takes `k` messages out: first those that the OpenAI
    pruner evicts, then those of the last loop, which runs on what is left with
    its texts shortened once more. -/
def WindowEvicts (maxInputTokens : Int) (req : ChatPayload) (k : Nat) : Prop :=
  ∃ i j pruned, k = i + j ∧ (∀ d, Gone libraries req ⟨maxInputTokens, 150, 2⟩ d ↔ d < i) ∧
    pruneOpenaiRequest libraries req ⟨maxInputTokens, 150, 2⟩ = some pruned ∧
    ((pruned.tokens : Int) ≤ maxInputTokens ∧ j = 0 ∨
      ¬(pruned.tokens : Int) ≤ maxInputTokens ∧ ∃ shortened,
        pruned.edit (·.mapM (condenseAggressively libraries)) = some shortened ∧
        Stops (shortened.exceeds maxInputTokens) (startIdx shortened.history + 2)
          (startIdx shortened.history) shortened.history j)

def GroqEvicts (payload : ChatPayload) (maxInputTokens : Int) (k : Nat) : Prop :=
  match groqWindowInput libraries payload maxInputTokens with
  | some req => WindowEvicts libraries maxInputTokens req k
  | none => k = 0

variable {libraries : Libraries}

theorem WindowEvicts.unique {maxInputTokens : Int} {req : ChatPayload} {k l : Nat}
    (first : WindowEvicts libraries maxInputTokens req k)
    (second : WindowEvicts libraries maxInputTokens req l) : k = l := by
  obtain ⟨i, j, pruned, rfl, gone, pruning, rest⟩ := first
  obtain ⟨i', j', pruned', rfl, gone', pruning', rest'⟩ := second
  obtain rfl := Option.some.inj (pruning.symm.trans pruning')
  have same : i = i' := by
    have left := (gone i).symm.trans (gone' i)
    have right := (gone i').symm.trans (gone' i')
    omega
  rcases rest with ⟨fits, none⟩ | ⟨large, shortened, edited, stops⟩
  · rcases rest' with ⟨_, none'⟩ | ⟨large', _⟩
    · omega
    · exact absurd fits large'
  · rcases rest' with ⟨fits', _⟩ | ⟨_, shortened', edited', stops'⟩
    · exact absurd fits' large
    · obtain rfl := Option.some.inj (edited.symm.trans edited')
      rw [same, stops.unique stops']

theorem pruneGroqWindow_some {maxInputTokens : Int} {req out : ChatPayload}
    (returned : pruneGroqWindow libraries maxInputTokens req = some out) :
    ∃ k, WindowEvicts libraries maxInputTokens req k ∧
      chatEntries out.history = without (startIdx req.history) k (chatEntries req.history) := by
  obtain ⟨pruned, pruning, rest⟩ := Option.bind_eq_some_iff.mp returned
  obtain ⟨i, gone, turns⟩ := pruneOpenaiRequest_some pruning
  have entries := chatEntries_of_same turns
  rw [chatEntries_without] at entries
  split at rest
  · next fits =>
    obtain rfl := Option.some.inj rest
    exact ⟨i, ⟨i, 0, pruned, rfl, gone, pruning, .inl ⟨fits, rfl⟩⟩, entries⟩
  · next large =>
    obtain ⟨shortened, edited, rest⟩ := Option.bind_eq_some_iff.mp rest
    have same := edit_same (fun xs ys => sameBut_mapM fun m m' =>
      sameBut_condenseAggressively libraries) edited
    have start : startIdx shortened.history = startIdx req.history := by
      rw [startIdx_of_same same, startIdx_of_same turns, startIdx_without]
    have before : chatEntries shortened.history =
        without (startIdx req.history) i (chatEntries req.history) :=
      (chatEntries_of_same same).trans entries
    rcases edit_some rest with ⟨kept, none⟩ | evicted
    · have empty : shortened.history = [] := by rw [ChatPayload.history, none]; rfl
      refine ⟨i, ⟨i, 0, pruned, rfl, gone, pruning, .inr ⟨large, shortened, edited, ?_⟩⟩, ?_⟩
      · refine ⟨fun j early => by omega, .inl ?_⟩
        rw [without_zero, empty]
        exact Int.add_nonneg (Int.natCast_nonneg _) (by decide)
      · rw [kept, before]
    · obtain ⟨j, ended⟩ := evict_evicted (Nat.lt_succ_self _) evicted
      refine ⟨i + j, ⟨i, j, pruned, rfl, gone, pruning,
        .inr ⟨large, shortened, edited, ended.stops⟩⟩, ?_⟩
      rw [ended.eq, chatEntries_without, before, start, without_without]

/-- The steps before the window change contents only, and then either the
    payload fits or the window is given what they leave. -/
theorem pruneForGroqTpm_cases {payload out : ChatPayload} {maxInputTokens : Int}
    (returned : pruneForGroqTpm libraries payload maxInputTokens = some out) :
    (groqWindowInput libraries payload maxInputTokens = none ∧
        List.Forall₂ SameBut payload.history out.history) ∨
      ∃ req, groqWindowInput libraries payload maxInputTokens = some req ∧
        List.Forall₂ SameBut payload.history req.history ∧
        pruneGroqWindow libraries maxInputTokens req = some out := by
  have tools : (compactTools payload).history = payload.history := by
    unfold compactTools
    split <;> rfl
  have refl : ∀ xs : List ChatMessage, List.Forall₂ SameBut xs xs := fun xs =>
    List.forall₂_same.mpr fun m _ => .refl m
  unfold pruneForGroqTpm at returned
  unfold groqWindowInput
  dsimp only at returned ⊢
  split at returned
  · next fits =>
    obtain rfl := Option.some.inj returned
    exact .inl ⟨if_pos fits, refl _⟩
  · next large =>
    rw [if_neg large]
    split at returned
    · next fits =>
      obtain rfl := Option.some.inj returned
      exact .inl ⟨if_pos fits, tools ▸ refl _⟩
    · next large =>
      rw [if_neg large]
      obtain ⟨prompted, edited, rest⟩ := Option.bind_eq_some_iff.mp returned
      have first : List.Forall₂ SameBut payload.history prompted.history := by
        rw [← tools]
        refine edit_same (fun xs ys done => ?_) edited
        exact Option.some.inj done ▸ sameBut_condenseFirst xs
      simp only [edited, Option.bind_eq_bind, Option.bind_some]
      split at rest
      · next fits =>
        obtain rfl := Option.some.inj rest
        exact .inl ⟨if_pos fits, first⟩
      · next large =>
        rw [if_neg large]
        obtain ⟨shortened, again, rest⟩ := Option.bind_eq_some_iff.mp rest
        have second := edit_same (fun xs ys => sameBut_mapM fun m m' =>
          sameBut_condenseToolResults libraries) again
        have whole : List.Forall₂ SameBut payload.history shortened.history :=
          forall₂_comp (fun _ _ _ left right => left.trans right) first second
        simp only [again, Option.bind_some]
        split at rest
        · next fits =>
          obtain rfl := Option.some.inj rest
          exact .inl ⟨if_pos fits, whole⟩
        · next large => exact .inr ⟨shortened, if_neg large, whole, rest⟩

theorem pruneForGroqTpm_some {payload out : ChatPayload} {maxInputTokens : Int}
    (returned : pruneForGroqTpm libraries payload maxInputTokens = some out) :
    ∃ k, (∀ l, GroqEvicts libraries payload maxInputTokens l ↔ l = k) ∧
      chatEntries out.history =
        without (startIdx payload.history) k (chatEntries payload.history) := by
  rcases pruneForGroqTpm_cases returned with ⟨none, same⟩ | ⟨req, window, same, rest⟩
  · refine ⟨0, fun l => ?_, ?_⟩
    · rw [GroqEvicts, none]
    · rw [without_zero, chatEntries_of_same same]
  · obtain ⟨k, evicts, entries⟩ := pruneGroqWindow_some rest
    refine ⟨k, fun l => ?_, ?_⟩
    · rw [GroqEvicts, window]
      exact ⟨fun other => other.unique evicts, fun same => same ▸ evicts⟩
    · rw [entries, startIdx_of_same same, chatEntries_of_same same]

end Groq

/-! ## Matched histories -/

end DuraLLM
