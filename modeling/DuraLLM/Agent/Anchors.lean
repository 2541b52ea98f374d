import DuraLLM.Agent.PrunedHistory

/-! # The anchors of a pruned history

The pruner means to keep the first system message, the first user message and
the last message.  It keeps what stands in front of a position that it computes
from the role of the first message alone, and everything that the loops do not
come to; and in a history of one or two messages it shortens the question.
-/

namespace DuraLLM

open Eviction ChatMessage

/-- When a call ends: what the object of the caller holds, and what it gets. -/
structure PruneCall where
  request : ChatPayload
  output : Option ChatPayload

def pruneCall (libraries : Libraries) (request : ChatPayload) (limits : PruneLimits) : PruneCall where
  request := request
  output := pruneOpenaiRequest libraries request limits

/-- What the output owes to the input. -/
structure Protects (request out : ChatPayload) : Prop where
  system : ∀ m, request.history.find? (isRole · "system") = some m → m ∈ out.history
  user : ∀ m, request.history.find? (isRole · "user") = some m → m ∈ out.history
  last : ∀ m, request.history.getLast? = some m →
    ∃ m', out.history.getLast? = some m' ∧ SameBut m m'
  subsequence : ∃ kept, kept.Sublist request.history ∧ List.Forall₂ SameBut kept out.history

theorem Protects.refl (request : ChatPayload) : Protects request request where
  system _ found := List.mem_of_find?_eq_some found
  user _ found := List.mem_of_find?_eq_some found
  last m found := ⟨m, found, .refl m⟩
  subsequence := ⟨_, List.Sublist.refl _, List.forall₂_same.mpr fun m _ => .refl m⟩

theorem isRole_of_find? {messages : List ChatMessage} {m : ChatMessage} {role : String}
    (found : messages.find? (isRole · role) = some m) : isRole m role = true := by
  have holds := List.find?_some found
  exact holds

/-! ## One or two messages -/

/-- A content that is shortened in a short history. -/
def Oversized (m : ChatMessage) : Prop :=
  (∃ text, m.lookup "content" = some (.str text) ∧ 2000 < text.length) ∨
    ∃ parts, m.lookup "content" = some (.arr parts) ∧ ∃ part, .obj part ∈ parts ∧
      isType part "tool_result" = true ∧ ∃ text, part.lookup "content" = some (.str text) ∧
        1000 < text.length

section Short

variable (libraries : Libraries)

theorem assign_lookup {key : String} {v : JsonRaw} {m : ChatMessage}
    (found : m.lookup key = some v) : JsonMembers.assign key v m = m := by
  induction m with
  | nil => cases found
  | cons e m ih =>
      obtain ⟨name, w⟩ := e
      rw [JsonMembers.assign]
      by_cases same : key = name
      · subst same
        obtain rfl : w = v := by simpa using found
        rw [if_pos rfl]
      · rw [List.lookup_cons, beq_eq_false_iff_ne.mpr same] at found
        rw [if_neg same, ih found]

/-- A text that has been looked after is not too long any more. -/
theorem condenseText_short {key : String} {limit maxChars : Nat} {m : ChatMessage} {text : String}
    (apart : max (maxChars + 28) 188 ≤ limit)
    (found : (condenseText libraries key limit maxChars m).lookup key = some (.str text)) :
    text.length ≤ limit := by
  unfold condenseText at found
  split at found
  · next old here =>
    split at found
    · rw [JsonMembers.lookup_assign_self] at found
      have bound := extract_length_le libraries maxChars old
      obtain rfl : extractDiagnosticSummary libraries maxChars old = text := by simpa using found
      omega
    · next short =>
      rw [here] at found
      obtain rfl : old = text := by simpa using found
      omega
  · next other => exact absurd found (other text)

theorem condenseText_eq_self {key : String} {limit maxChars : Nat} {m : ChatMessage}
    (short : ∀ text, m.lookup key = some (.str text) → text.length ≤ limit) :
    condenseText libraries key limit maxChars m = m := by
  unfold condenseText
  split
  · next text found => exact if_neg (Nat.not_lt.mpr (short text found))
  · rfl

theorem isType_condenseToolPart (limit maxChars : Nat) (part : ChatMessage) (type : String) :
    isType (condenseToolPart libraries limit maxChars part) type = isType part type := by
  unfold condenseToolPart
  split
  · rw [isType, isType, sameBut_condenseText libraries limit maxChars part "type" (by decide)]
  · rfl

/-- In a short history, nothing oversized comes out of the edit of a message. -/
theorem not_oversized {m : ChatMessage} (edited : isRole m "tool" || isRole m "user") :
    ¬Oversized (condenseShortHistory libraries m) := by
  rw [condenseShortHistory, if_pos edited]
  rintro (⟨text, found, long⟩ | ⟨parts, found, part, member, result, text, content, long⟩)
  · have inner : (condenseText libraries "content" 2000 1500 m).lookup "content" =
        some (.str text) := by
      unfold mapParts at found
      split at found
      · rw [JsonMembers.lookup_assign_self] at found
        cases found
      · exact found
    have short := condenseText_short libraries (by decide) inner
    omega
  · unfold mapParts at found
    split at found
    · next old _ =>
      rw [JsonMembers.lookup_assign_self] at found
      obtain rfl : _ = parts := by simpa using found
      obtain ⟨before, _, same⟩ := List.mem_map.mp member
      cases before with
      | obj inside =>
          obtain rfl : condenseToolPart libraries 1000 800 inside = part := by
            simpa [mapObj] using same
          rw [isType_condenseToolPart] at result
          rw [condenseToolPart, if_pos result] at content
          have short := condenseText_short libraries (by decide) content
          omega
      | scalar | str | arr => cases same
    · next none => exact absurd found (none parts)

theorem condenseShortHistory_eq_self {m : ChatMessage} (small : ¬Oversized m) :
    condenseShortHistory libraries m = m := by
  simp only [Oversized, not_or, not_exists, not_and, Nat.not_lt] at small
  obtain ⟨texts, parts⟩ := small
  unfold condenseShortHistory
  split
  · rw [condenseText_eq_self libraries texts, mapParts]
    split
    · next old found =>
      have same : old.map (mapObj (condenseToolPart libraries 1000 800)) = old := by
        refine (List.map_congr_left fun part member => ?_).trans (List.map_id old)
        cases part with
        | obj part =>
            rw [mapObj, condenseToolPart]
            split
            · next result =>
              rw [condenseText_eq_self libraries (parts old found part member result)]
              rfl
            · rfl
        | scalar | str | arr => rfl
      rw [same, assign_lookup found]
    · rfl
  · rfl

/-- A question comes through a short history exactly if it is not oversized. -/
theorem mem_map_short_iff {messages : List ChatMessage} {m : ChatMessage} (member : m ∈ messages)
    (question : isRole m "user" = true) :
    m ∈ messages.map (condenseShortHistory libraries) ↔ ¬Oversized m := by
  constructor
  · intro edited large
    obtain ⟨old, _, rfl⟩ := List.mem_map.mp edited
    have same := sameBut_condenseShortHistory libraries old
    rw [same.isRole] at question
    exact not_oversized libraries (by simp [question]) large
  · intro small
    exact List.mem_map.mpr ⟨m, member, condenseShortHistory_eq_self libraries small⟩

end Short

/-! ## Longer histories -/

/-- The message at this place of the history is evicted. -/
def Popped (libraries : Libraries) (request : ChatPayload) (limits : PruneLimits) (idx : Nat) :
    Prop :=
  ∃ j, idx = startIdx request.history + j ∧
    historyTaken libraries limits.targetTokens limits.minPreserveTail request request.history j

/-- The loops spare the anchors, or something that is the same, and do not come
    to the end of the history. -/
structure SparesAnchors (libraries : Libraries) (request : ChatPayload) (limits : PruneLimits) :
    Prop where
  system : ∀ m, request.history.find? (isRole · "system") = some m →
    ∃ idx, request.history[idx]? = some m ∧ ¬Popped libraries request limits idx
  user : ∀ m, request.history.find? (isRole · "user") = some m →
    ∃ idx, request.history[idx]? = some m ∧ ¬Popped libraries request limits idx
  last : Popped libraries request limits (request.history.length - 1) →
    ∀ m, request.history.getLast? = some m →
      ∃ m', request.history[startIdx request.history - 1]? = some m' ∧ SameBut m m'
  ends : ¬Popped libraries request limits request.history.length

section Long

variable {libraries : Libraries} {request : ChatPayload} {limits : PruneLimits}

/-- Messages of other roles than the edited ones come through edits. -/
theorem mem_edited_iff {roles : List String} {xs ys : List ChatMessage}
    (edited : List.Forall₂ (EditedIf roles) xs ys) {m : ChatMessage}
    (other : ∀ role ∈ roles, isRole m role = false) : m ∈ ys ↔ m ∈ xs := by
  induction edited with
  | nil => rfl
  | @cons x y xs ys here _ ih =>
      rw [List.mem_cons, List.mem_cons, ih]
      obtain ⟨same, rfl | ⟨role, member, is⟩⟩ := here
      · rfl
      · have apart : m ≠ x ∧ m ≠ y := by
          constructor
          · rintro rfl
            rw [other role member] at is
            cases is
          · rintro rfl
            rw [← same.isRole, other role member] at is
            cases is
        simp [apart]

theorem isRole_ne {m : ChatMessage} {role other : String} (is : isRole m role = true)
    (ne : role ≠ other) : isRole m other = false := by
  unfold isRole at *
  cases found : m.lookup "role" with
  | none => rfl
  | some v =>
      rw [found] at is
      cases v with
      | str s =>
          obtain rfl : s = role := by simpa [JsonRaw.isStr] using is
          simpa [JsonRaw.isStr] using ne
      | scalar | arr | obj => cases is

/-- The last message that is left behind an eviction to the end. -/
theorem getLast?_take {start : Nat} {xs : List ChatMessage} (some : 0 < start)
    (inside : start ≤ xs.length) : (xs.take start).getLast? = xs[start - 1]? := by
  rw [List.getLast?_eq_getElem?, List.length_take, Nat.min_eq_left inside,
    List.getElem?_take_of_lt (by omega)]

theorem startIdx_pos (messages : List ChatMessage) : 0 < startIdx messages := Nat.succ_pos _

theorem pruneHistory_protects_iff (long : 2 < request.history.length) :
    (∃ out, pruneHistory libraries limits.targetTokens limits.minPreserveTail request
        request.history = some out ∧ Protects request out) ↔
      SparesAnchors libraries request limits := by
  have inside := startIdx_le (by omega : 2 ≤ request.history.length)
  have first := startIdx_pos request.history
  cases ended : pruneHistory libraries limits.targetTokens limits.minPreserveTail request
      request.history with
  | none =>
      have taken := pruneHistory_none (by omega) ended
      constructor
      · rintro ⟨out, none, -⟩
        cases none
      · intro spares
        exact absurd ⟨_, by omega, taken⟩ spares.ends
  | some out =>
      obtain ⟨k, pruned, rfl, taken, room, edited⟩ := pruneHistory_some ended
      have popped : ∀ idx, Popped libraries request limits idx ↔
          startIdx request.history ≤ idx ∧ idx < startIdx request.history + k := by
        intro idx
        simp only [Popped, taken]
        constructor
        · rintro ⟨j, rfl, early⟩
          omega
        · rintro ⟨behind, early⟩
          exact ⟨idx - startIdx request.history, by omega, by omega⟩
      have members : ∀ m role, isRole m role = true → role ≠ "tool" → role ≠ "assistant" →
          (m ∈ pruned ↔ ∃ idx, request.history[idx]? = some m ∧
            ¬Popped libraries request limits idx) := by
        intro m role is tool assistant
        have other : ∀ r ∈ ["tool", "assistant"], isRole m r = false := by
          intro r member
          have ne : role ≠ r := by
            rcases List.mem_cons.mp member with rfl | member
            · exact tool
            · exact List.mem_singleton.mp member ▸ assistant
          exact isRole_ne is ne
        rw [mem_edited_iff edited other, mem_without_iff]
        simp only [popped]
      have lastPopped : Popped libraries request limits (request.history.length - 1) ↔
          k ≠ 0 ∧ startIdx request.history + k = request.history.length := by
        rw [popped]
        constructor
        · intro between
          have bound := room (by omega)
          exact ⟨by omega, by omega⟩
        · intro all
          omega
      have ends : k ≠ 0 → startIdx request.history + k = request.history.length →
          (without (startIdx request.history) k request.history).getLast? =
            request.history[startIdx request.history - 1]? := by
        intro _ whole
        rw [without, whole, List.drop_length, List.append_nil, getLast?_take first inside]
      simp only [Option.some.injEq, exists_eq_left']
      constructor
      · intro protects
        refine ⟨fun m found => ?_, fun m found => ?_, fun gone m found => ?_, fun beyond => ?_⟩
        · exact (members m "system" (isRole_of_find? found) (by decide) (by decide)).mp
            (protects.system m found)
        · exact (members m "user" (isRole_of_find? found) (by decide) (by decide)).mp
            (protects.user m found)
        · obtain ⟨some, whole⟩ := lastPopped.mp gone
          obtain ⟨m', final, same⟩ := protects.last m found
          have present : request.history[startIdx request.history - 1]? ≠ none := by
            rw [ne_eq, List.getElem?_eq_none_iff]
            omega
          obtain ⟨old, here⟩ := Option.ne_none_iff_exists'.mp present
          obtain ⟨new, there, edit⟩ := forall₂_getLast? edited ((ends some whole).trans here)
          obtain rfl : new = m' := Option.some.inj (there.symm.trans final)
          exact ⟨old, here, same.trans edit.1.symm⟩
        · obtain ⟨behind, early⟩ := (popped _).mp beyond
          have bound := room (by omega)
          omega
      · intro spares
        refine ⟨fun m found => ?_, fun m found => ?_, fun m found => ?_, ?_⟩
        · exact (members m "system" (isRole_of_find? found) (by decide) (by decide)).mpr
            (spares.system m found)
        · exact (members m "user" (isRole_of_find? found) (by decide) (by decide)).mpr
            (spares.user m found)
        · by_cases gone : Popped libraries request limits (request.history.length - 1)
          · obtain ⟨some, whole⟩ := lastPopped.mp gone
            obtain ⟨old, here, same⟩ := spares.last gone m found
            obtain ⟨new, there, edit⟩ := forall₂_getLast? edited ((ends some whole).trans here)
            exact ⟨new, there, same.trans edit.1⟩
          · have kept : (without (startIdx request.history) k request.history).getLast? =
                request.history.getLast? := by
              by_cases none : k = 0
              · rw [none, without_zero]
              · have bound := room none
                rw [lastPopped] at gone
                exact getLast?_without (by omega)
            obtain ⟨new, there, edit⟩ := forall₂_getLast? edited (kept.trans found)
            exact ⟨new, there, edit.1⟩
        · exact ⟨_, without_sublist _ k _, edited.imp fun _ _ edit => edit.1⟩

end Long

/-! ## The whole call -/

/-- The payload fits; or the history has one or two messages, and the question
    is not oversized; or the loops spare the anchors of a longer one. -/
def Anchored (libraries : Libraries) (request : ChatPayload) (limits : PruneLimits) : Prop :=
  (request.tokens : Int) ≤ limits.targetTokens ∨
    (request.history.length ≤ 2 ∧
      ∀ m, request.history.find? (isRole · "user") = some m → ¬Oversized m) ∨
    2 < request.history.length ∧ SparesAnchors libraries request limits

/-- A short history keeps everything but long contents. -/
theorem short_protects_iff (libraries : Libraries) (request : ChatPayload) :
    Protects request (request.withMessages (request.history.map (condenseShortHistory libraries))) ↔
      ∀ m, request.history.find? (isRole · "user") = some m → ¬Oversized m := by
  have turns : List.Forall₂ SameBut request.history
      (request.history.map (condenseShortHistory libraries)) := by
    rw [List.forall₂_map_right_iff, List.forall₂_same]
    exact fun m _ => sameBut_condenseShortHistory libraries m
  constructor
  · intro protects m found
    exact (mem_map_short_iff libraries (List.mem_of_find?_eq_some found)
      (isRole_of_find? found)).mp (protects.user m found)
  · intro small
    refine ⟨fun m found => ?_, fun m found => ?_, fun m found => ?_, ?_⟩
    · have role : isRole m "system" = true := isRole_of_find? found
      have other : ¬(isRole m "tool" || isRole m "user") = true := by
        simp [isRole_ne role (by decide : "system" ≠ "tool"),
          isRole_ne role (by decide : "system" ≠ "user")]
      refine List.mem_map.mpr ⟨m, List.mem_of_find?_eq_some found, ?_⟩
      rw [condenseShortHistory, if_neg other]
    · exact (mem_map_short_iff libraries (List.mem_of_find?_eq_some found)
        (isRole_of_find? found)).mpr (small m found)
    · exact forall₂_getLast? turns found
    · exact ⟨_, List.Sublist.refl _, turns⟩

/-- The pruner keeps its anchors exactly under this condition. -/
theorem prune_protects_iff (libraries : Libraries) (request : ChatPayload) (limits : PruneLimits) :
    ((pruneCall libraries request limits).request = request ∧
      ∃ out, (pruneCall libraries request limits).output = some out ∧ Protects request out) ↔
    Anchored libraries request limits := by
  have input : (pruneCall libraries request limits).request = request := rfl
  simp only [input, true_and]
  unfold Anchored pruneCall pruneOpenaiRequest
  dsimp only
  by_cases fits : (request.tokens : Int) ≤ limits.targetTokens
  · simp only [fits, true_or, if_true, Option.some.injEq, exists_eq_left', iff_true]
    exact .refl request
  · cases none : request.history.isEmpty with
    | true =>
        have empty : request.history = [] := List.isEmpty_iff.mp none
        simp [empty, fits, Protects.refl request]
    | false =>
        by_cases short : request.history.length ≤ 2
        · have bound : ¬2 < request.history.length := Nat.not_lt.mpr short
          simp [fits, short, bound, short_protects_iff libraries request]
        · have long : 2 < request.history.length := by omega
          simp [fits, short, long, pruneHistory_protects_iff long]

/-! A question alone, and longer than the pruner lets it be. -/

def question (text : String) : ChatPayload where
  messages := some [[("role", .str "user"), ("content", .str text)]]

theorem length_le_write (text : String) : text.length ≤ (JsonString.write false text).length := by
  have each : ∀ chars : List Char, chars.length ≤ (chars.flatMap (JsonString.escape false)).length := by
    intro chars
    induction chars with
    | nil => exact Nat.le_refl 0
    | cons c chars ih =>
        have some : 0 < (JsonString.escape false c).length := by
          unfold JsonString.escape
          split_ifs <;> simp [JsonString.units]
          split <;> simp
        rw [List.flatMap_cons, List.length_append, List.length_cons]
        omega
  have inside := each text.toList
  rw [String.length_toList] at inside
  simp only [JsonString.write, List.length_cons, List.length_append]
  omega

theorem question_large {text : String} (long : text.length = 2100) :
    ¬((question text).tokens : Int) ≤ (⟨600, 2048, 2⟩ : PruneLimits).targetTokens := by
  have target : (⟨600, 2048, 2⟩ : PruneLimits).targetTokens = 512 := rfl
  have whole : 2100 ≤ ((question text).raw.write .verbatim).length := by
    have inside := length_le_write text
    simp only [question, ChatPayload.raw, Option.map_none, Option.toList_none, Option.map_some,
      Option.toList_some, List.nil_append, List.map_cons, List.map_nil, JsonRaw.write,
      JsonRaw.writeItems, JsonRaw.writeMembers, JsonStyle.ascii, List.length_cons,
      List.length_append]
    omega
  rw [target, ChatPayload.tokens, tokensOfLength]
  omega

theorem question_lost {text : String} (long : text.length = 2100) :
    ¬((pruneCall .ascii (question text) ⟨600, 2048, 2⟩).request = question text ∧
      ∃ out, (pruneCall .ascii (question text) ⟨600, 2048, 2⟩).output = some out ∧
        Protects (question text) out) := by
  rintro ⟨-, out, returned, protects⟩
  have one : (question text).history = [[("role", .str "user"), ("content", .str text)]] := rfl
  have pruned : out = (question text).withMessages
      ((question text).history.map (condenseShortHistory .ascii)) := by
    unfold pruneCall pruneOpenaiRequest at returned
    have short : (question text).history.length ≤ 2 := Nat.le_succ 1
    have some : (question text).history.isEmpty = false := rfl
    simp only [question_large long, some, Bool.false_eq_true, or_self, if_false, short, if_true,
      Option.some.injEq] at returned
    exact returned.symm
  subst pruned
  have small := (short_protects_iff .ascii (question text)).mp protects
  refine small _ rfl (.inl ⟨text, rfl, ?_⟩)
  omega

theorem question_shortened :
    ¬((pruneCall .ascii (question (String.ofList (List.replicate 2100 'x'))) ⟨600, 2048, 2⟩).request =
        question (String.ofList (List.replicate 2100 'x')) ∧
      ∃ out, (pruneCall .ascii (question (String.ofList (List.replicate 2100 'x')))
        ⟨600, 2048, 2⟩).output = some out ∧
        Protects (question (String.ofList (List.replicate 2100 'x'))) out) :=
  question_lost (by rw [String.length_ofList, List.length_replicate])

end DuraLLM
