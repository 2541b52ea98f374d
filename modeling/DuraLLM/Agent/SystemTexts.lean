import DuraLLM.Agent.Trimming

/-! # System texts under compaction

No phase looks at the role of a message before it shortens its content or takes
it out, except that the middle turns of other roles than the assistant keep
their contents, and no phase but one looks at the system instruction.  So the
system texts come through exactly where every phase that is come to happens to
spare them.
-/

namespace DuraLLM

open Eviction

def systemContents (messages : List AgentMessage) : List String :=
  (messages.filter fun m => m.role == "system").map (·.content)

structure SystemIntact (request out : AgentRequest) : Prop where
  instruction : out.systemInstruction = request.systemInstruction
  messages : systemContents out.messages = systemContents request.messages

theorem systemContents_append (xs ys : List AgentMessage) :
    systemContents (xs ++ ys) = systemContents xs ++ systemContents ys := by
  simp [systemContents]

/-! ## Single texts -/

section Texts

variable (libraries : Libraries)

theorem condenseContent_content (limit maxChars : Nat) (m : AgentMessage) :
    (condenseContent libraries limit maxChars m).content =
      if limit < m.content.length then extractDiagnosticSummary libraries maxChars m.content
      else m.content := by
  unfold condenseContent
  split <;> rfl

/-- A summary is not the text where it may not come near its length. -/
theorem extract_ne {limit maxChars : Nat} {text : String} (long : limit < text.length)
    (apart : max (maxChars + 28) 188 ≤ limit) :
    extractDiagnosticSummary libraries maxChars text ≠ text := by
  intro same
  have short := extract_length_le libraries maxChars text
  rw [same] at short
  omega

theorem length_condensedMark : condensedMark.length = 57 := by decide +kernel

theorem condenseInstruction_eq_self_iff (text : String) :
    condenseInstruction text = text ↔
      (2000 < text.length → text = clip 2000 text ++ condensedMark) := by
  unfold condenseInstruction
  split
  · next long =>
    constructor
    · intro same _
      exact same.symm
    · intro same
      exact (same long).symm
  · next short =>
    constructor
    · intro _ long
      exact absurd long short
    · intro _
      rfl

theorem condenseInstruction_idem (text : String) :
    condenseInstruction (condenseInstruction text) = condenseInstruction text := by
  rw [condenseInstruction_eq_self_iff]
  intro long
  by_cases large : 2000 < text.length
  · have count : (text.toList.take 2000).length = 2000 := by
      rw [List.length_take, String.length_toList]
      omega
    have front : clip 2000 (clip 2000 text ++ condensedMark) = clip 2000 text := by
      simp only [clip, String.toList_append, String.toList_ofList]
      rw [List.take_append_of_le_length (by omega), List.take_of_length_le (by omega)]
    rw [condenseInstruction, if_pos large, front]
  · rw [condenseInstruction, if_neg large] at long
    exact absurd long large

end Texts

/-! ## The texts of a conversation -/

theorem systemContents_cons (m : AgentMessage) (xs : List AgentMessage) :
    systemContents (m :: xs) =
      if m.role = "system" then m.content :: systemContents xs else systemContents xs := by
  by_cases system : m.role = "system" <;> simp [systemContents, system]

theorem forall₂_systemContents {R : String → String → Prop} {xs ys : List AgentMessage}
    (related : List.Forall₂ (fun m m' => m'.role = m.role ∧
      (m.role = "system" → R m.content m'.content)) xs ys) :
    List.Forall₂ R (systemContents xs) (systemContents ys) := by
  induction related with
  | nil => exact .nil
  | @cons m m' xs ys here _ ih =>
      rw [systemContents_cons, systemContents_cons, here.1]
      split
      · next system => exact .cons (here.2 system) ih
      · exact ih

/-- An edit that keeps the roles leaves the system texts alone if it does so
    one by one. -/
theorem systemContents_mapIdx_iff {f : Nat → AgentMessage → AgentMessage} {xs : List AgentMessage}
    (roles : ∀ idx m, (f idx m).role = m.role) :
    systemContents (xs.mapIdx f) = systemContents xs ↔
      ∀ idx m, xs[idx]? = some m → m.role = "system" → (f idx m).content = m.content := by
  induction xs generalizing f with
  | nil => simp
  | cons x xs ih =>
      have later := ih fun idx m => roles (idx + 1) m
      have places : (∀ idx m, (x :: xs)[idx]? = some m → m.role = "system" →
          (f idx m).content = m.content) ↔
          (x.role = "system" → (f 0 x).content = x.content) ∧
            ∀ idx m, xs[idx]? = some m → m.role = "system" → (f (idx + 1) m).content = m.content := by
        constructor
        · intro each
          exact ⟨each 0 x rfl, fun idx m found => each (idx + 1) m (by simpa using found)⟩
        · intro each idx m found
          cases idx with
          | zero =>
              obtain rfl : x = m := by simpa using found
              exact each.1
          | succ idx => exact each.2 idx m (by simpa using found)
      rw [places, ← later, List.mapIdx_cons, systemContents_cons, systemContents_cons, roles]
      split
      · next system => simp [system]
      · next other => simp [other]

/-- Taking out a block takes out system texts unless it has none. -/
theorem systemContents_without_iff (start k : Nat) (xs : List AgentMessage) :
    systemContents (without start k xs) = systemContents xs ↔
      ∀ j < k, ∀ m, xs[start + j]? = some m → m.role ≠ "system" := by
  have parts : xs = xs.take start ++ ((xs.drop start).take k ++ xs.drop (start + k)) := by
    rw [← List.drop_drop, List.take_append_drop, List.take_append_drop]
  have whole := congrArg systemContents parts
  rw [systemContents_append, systemContents_append] at whole
  have block : systemContents ((xs.drop start).take k) = [] ↔
      ∀ j < k, ∀ m, xs[start + j]? = some m → m.role ≠ "system" := by
    simp only [systemContents, List.map_eq_nil_iff, List.filter_eq_nil_iff, beq_iff_eq]
    constructor
    · intro clear j early m found
      refine clear m (List.mem_iff_getElem?.mpr ⟨j, ?_⟩)
      rw [List.getElem?_take_of_lt early, List.getElem?_drop, found]
    · intro clear m member
      obtain ⟨j, found⟩ := List.mem_iff_getElem?.mp member
      have early : j < k := by
        by_contra late
        rw [List.getElem?_take_eq_none (by omega)] at found
        cases found
      rw [List.getElem?_take_of_lt early, List.getElem?_drop] at found
      exact clear j early m found
  rw [← block, without, systemContents_append, whole]
  constructor
  · intro same
    have lengths := congrArg List.length same
    simp only [List.length_append] at lengths
    exact List.length_eq_zero_iff.mp (by omega)
  · intro none
    rw [none, List.nil_append]

/-! ## Aging -/

/-- A text that is not as it was is an old one that was long. -/
def Aged (original text : String) : Prop := text = original ∨ 500 < original.length

/-- Nothing that was lost can come back: what is left of the system texts is too
    short for it. -/
structure Aging (c : Compaction) (request s : AgentRequest) : Prop where
  texts : ∃ kept, kept.Sublist (systemContents request.messages) ∧
    List.Forall₂ Aged kept (systemContents s.messages)
  instruction : s.systemInstruction = request.systemInstruction ∨
    s.systemInstruction = request.systemInstruction.map condenseInstruction
  user : ∀ idx m, c.firstUserIdx = some idx → s.messages[idx]? = some m → m.role = "user"

/-- What becomes of a system text in the tail. -/
def Condensed (libraries : Libraries) (text short : String) : Prop :=
  short = if 500 < text.length then extractDiagnosticSummary libraries 400 text else text

theorem Aged.condensed {libraries : Libraries} {original text short : String}
    (aged : Aged original text) (condensed : Condensed libraries text short) :
    Aged original short := by
  unfold Condensed at condensed
  rcases aged with rfl | long
  · split at condensed
    · next long => exact .inr long
    · exact .inl condensed
  · exact .inr long

/-- A text that is as it was behind the phase was so before it, and short. -/
theorem Aged.of_condensed {libraries : Libraries} {original text : String}
    (aged : Aged original text) (condensed : Condensed libraries text original) :
    text = original ∧ text.length ≤ 500 := by
  unfold Condensed at condensed
  split at condensed
  · next long =>
    have short := extract_length_le libraries 400 text
    rw [← condensed] at short
    rcases aged with rfl | large <;> omega
  · exact ⟨condensed.symm, by omega⟩

theorem eq_of_condensed {libraries : Libraries} {originals texts : List String}
    (aged : List.Forall₂ Aged originals texts)
    (condensed : List.Forall₂ (Condensed libraries) texts originals) :
    texts = originals ∧ ∀ text ∈ texts, text.length ≤ 500 := by
  induction aged with
  | nil => simp
  | cons here _ ih =>
      obtain ⟨first, rest⟩ := List.forall₂_cons.mp condensed
      obtain ⟨rfl, short⟩ := here.of_condensed first
      obtain ⟨rfl, others⟩ := ih rest
      exact ⟨rfl, List.forall_mem_cons.mpr ⟨short, others⟩⟩

theorem condensed_eq_self {libraries : Libraries} {texts shorter : List String}
    (condensed : List.Forall₂ (Condensed libraries) texts shorter)
    (short : ∀ text ∈ texts, text.length ≤ 500) : shorter = texts := by
  induction condensed with
  | nil => rfl
  | cons here _ ih =>
      obtain ⟨first, rest⟩ := List.forall_mem_cons.mp short
      rw [ih rest, here, if_neg (by omega)]

theorem mem_systemContents {messages : List AgentMessage} {text : String} :
    text ∈ systemContents messages ↔ ∃ m ∈ messages, m.role = "system" ∧ m.content = text := by
  simp [systemContents, and_assoc]

theorem forall₂_refl_aged (texts : List String) : List.Forall₂ Aged texts texts :=
  List.forall₂_same.mpr fun _ _ => .inl rfl

/-- Who is the first user message is not forgotten. -/
theorem Aging.edited {c : Compaction} {request s : AgentRequest} (aging : Aging c request s)
    {f : Nat → AgentMessage → AgentMessage} (roles : ∀ idx m, (f idx m).role = m.role) :
    ∀ idx m, c.firstUserIdx = some idx → (s.messages.mapIdx f)[idx]? = some m → m.role = "user" := by
  intro idx m first found
  rw [List.getElem?_mapIdx, Option.map_eq_some_iff] at found
  obtain ⟨old, found, rfl⟩ := found
  rw [roles]
  exact aging.user idx old first found

namespace Compaction

variable {c : Compaction}

/-- The condition on the copy that a phase finds. -/
def Spares (c : Compaction) : CompactionPhase → AgentRequest → Prop
  | .diagnose, s => ∀ idx m, s.messages[idx]? = some m → m.role = "system" →
      1000 < m.content.length → idx + 1 = s.messages.length ∧
        extractDiagnosticSummary c.libraries 1200 m.content = m.content
  | .condenseMiddle, _ => True
  | .evictMiddle, s => ∀ j m,
      Taken (fun messages => exceeds c.targetTokens { s with messages })
        (c.preserveTailTurns + c.protectedPrefixCount) c.protectedPrefixCount s.messages j →
      s.messages[c.protectedPrefixCount + j]? = some m → m.role ≠ "system"
  | .condenseTail, s => ∀ m ∈ s.messages, m.role = "system" → m.content.length ≤ 500
  | .condenseFrame, s => ∀ text, s.systemInstruction = some text → 2000 < text.length →
      text = clip 2000 text ++ condensedMark
  | .evictTail, s => ∀ j m,
      Taken (fun messages => exceeds c.targetTokens { s with messages })
        (2 + c.protectedPrefixCount) c.protectedPrefixCount s.messages j →
      s.messages[c.protectedPrefixCount + j]? = some m → m.role ≠ "system"

theorem diagnose_intact_iff {s : AgentRequest}
    (user : ∀ idx m, c.firstUserIdx = some idx → s.messages[idx]? = some m → m.role = "user") :
    systemContents (c.diagnose s).messages = systemContents s.messages ↔ c.Spares .diagnose s := by
  rw [diagnose, systemContents_mapIdx_iff fun idx m => (SameTurn.diagnoseMessage ..).role]
  refine forall_congr' fun idx => forall_congr' fun m => forall_congr' fun found =>
    forall_congr' fun system => ?_
  have other : c.firstUserIdx ≠ some idx := by
    intro first
    have role := user idx m first found
    rw [system] at role
    exact absurd role (by decide)
  simp only [diagnoseMessage, if_neg other]
  by_cases last : idx + 1 = s.messages.length
  · rw [if_pos last, condenseContent_content]
    by_cases long : 1000 < m.content.length <;> simp [condenseResults, long, last]
  · rw [if_neg last, condenseContent_content]
    by_cases long : 1000 < m.content.length
    · have lost := extract_ne c.libraries long (by decide : max (600 + 28) 188 ≤ 1000)
      simp [condenseResults, long, last, lost]
    · simp [condenseResults, long]

theorem condenseTail_texts {s : AgentRequest}
    (user : ∀ idx m, c.firstUserIdx = some idx → s.messages[idx]? = some m → m.role = "user") :
    List.Forall₂ (Condensed c.libraries) (systemContents s.messages)
      (systemContents (c.condenseTail s).messages) := by
  apply forall₂_systemContents
  apply forall₂_mapIdx
  intro idx m found
  refine ⟨(SameTurn.condenseTailMessage ..).role, fun system => ?_⟩
  have other : c.firstUserIdx ≠ some idx := by
    intro first
    have role := user idx m first found
    rw [system] at role
    exact absurd role (by decide)
  rw [condenseTailMessage, if_neg other, condenseContent_content]
  rfl

theorem condenseMiddle_aging {request s t : AgentRequest} (aging : Aging c request s)
    (done : c.condenseMiddle s = .ok t) :
    Aging c request t ∧ (SystemIntact request t ↔ SystemIntact request s) := by
  unfold condenseMiddle at done
  dsimp only at done
  split at done
  · cases done
  · injection done with same
    subst same
    have roles : ∀ idx m, (if c.protectedPrefixCount ≤ idx ∧
        (idx : Int) < s.messages.length - c.preserveTailTurns then condenseTurn c.libraries m
        else m).role = m.role := by
      intro idx m
      split
      · exact (SameTurn.condenseTurn ..).role
      · rfl
    have texts : systemContents (s.messages.mapIdx fun idx m =>
        if c.protectedPrefixCount ≤ idx ∧ (idx : Int) < s.messages.length - c.preserveTailTurns then
          condenseTurn c.libraries m else m) = systemContents s.messages := by
      rw [systemContents_mapIdx_iff roles]
      intro idx m _ system
      split
      · have other : ¬m.role = "assistant" := by rw [system]; decide
        simp [condenseTurn, condenseResults, other]
      · rfl
    refine ⟨⟨texts ▸ aging.texts, aging.instruction, aging.edited roles⟩, ?_⟩
    constructor
    · intro intact
      exact ⟨intact.instruction, texts ▸ intact.messages⟩
    · intro intact
      exact ⟨intact.instruction, texts.trans intact.messages⟩

theorem condenseTail_aging {request s : AgentRequest} (aging : Aging c request s) :
    Aging c request (c.condenseTail s) ∧
      (SystemIntact request (c.condenseTail s) ↔
        SystemIntact request s ∧ c.Spares .condenseTail s) := by
  have condensed := condenseTail_texts aging.user
  obtain ⟨kept, sub, aged⟩ := aging.texts
  have short : c.Spares .condenseTail s ↔ ∀ text ∈ systemContents s.messages, text.length ≤ 500 := by
    constructor
    · intro spares text member
      obtain ⟨m, inside, system, rfl⟩ := mem_systemContents.mp member
      exact spares m inside system
    · intro short m inside system
      exact short _ (mem_systemContents.mpr ⟨m, inside, system, rfl⟩)
  refine ⟨⟨⟨kept, sub, ?_⟩, aging.instruction, ?_⟩, ?_⟩
  · exact forall₂_comp (fun _ _ _ left right => left.condensed right) aged condensed
  · exact aging.edited fun idx m => (SameTurn.condenseTailMessage ..).role
  · rw [short]
    constructor
    · intro intact
      have count := aged.length_eq.trans condensed.length_eq
      rw [intact.messages] at count condensed
      rw [sub.eq_of_length count] at aged
      obtain ⟨texts, short⟩ := eq_of_condensed aged condensed
      exact ⟨⟨intact.instruction, texts⟩, short⟩
    · rintro ⟨intact, short⟩
      exact ⟨intact.instruction, (condensed_eq_self condensed short).trans intact.messages⟩

theorem evictDownTo_aging {request s t : AgentRequest} {tail : Int} (guards : c.Guards)
    (aging : Aging c request s) (done : c.evictDownTo tail s = .ok t) :
    Aging c request t ∧ (SystemIntact request t ↔ SystemIntact request s ∧
      ∀ j m, Taken (fun messages => exceeds c.targetTokens { s with messages })
        (tail + c.protectedPrefixCount) c.protectedPrefixCount s.messages j →
        s.messages[c.protectedPrefixCount + j]? = some m → m.role ≠ "system") := by
  obtain ⟨k, messages, rfl, evicted⟩ := evictDownTo_ok done
  obtain ⟨kept, sub, aged⟩ := aging.texts
  have shorter : (systemContents messages).Sublist (systemContents s.messages) := by
    rw [evicted.eq]
    exact ((without_sublist _ _ _).filter _).map _
  have spares : (∀ j m, Taken (fun messages => exceeds c.targetTokens { s with messages })
        (tail + c.protectedPrefixCount) c.protectedPrefixCount s.messages j →
        s.messages[c.protectedPrefixCount + j]? = some m → m.role ≠ "system") ↔
      systemContents messages = systemContents s.messages := by
    simp only [evicted.taken_iff]
    rw [evicted.eq, systemContents_without_iff]
    constructor
    · intro each j early m
      exact each j m early
    · intro each j m early
      exact each j early m
  refine ⟨⟨?_, aging.instruction, ?_⟩, ?_⟩
  · obtain ⟨some, inside, same⟩ := forall₂_of_sublist aged shorter
    exact ⟨some, inside.trans sub, same⟩
  · intro idx m first found
    dsimp only at found
    rw [evicted.eq, getElem?_without (guards idx first)] at found
    exact aging.user idx m first found
  · rw [spares]
    constructor
    · intro intact
      have count := sub.length_le
      have fewer := shorter.length_le
      rw [aged.length_eq] at count
      rw [← intact.messages] at count
      have same := shorter.eq_of_length (Nat.le_antisymm fewer count)
      exact ⟨⟨intact.instruction, same ▸ intact.messages⟩, same⟩
    · rintro ⟨intact, same⟩
      exact ⟨intact.instruction, same.trans intact.messages⟩

theorem condenseFrame_aging {request s t : AgentRequest} (aging : Aging c request s)
    (large : exceeds c.targetTokens s = true) (done : c.condenseFrame s = .ok t) :
    Aging c request t ∧ (SystemIntact request t ↔
      SystemIntact request s ∧ c.Spares .condenseFrame s) := by
  obtain ⟨tools, rfl⟩ := condenseFrame_ok done
  have still : exceeds c.targetTokens { s with tools } = true := large
  rw [condenseSystem, if_pos still]
  have spares : c.Spares .condenseFrame s ↔
      s.systemInstruction.map condenseInstruction = s.systemInstruction := by
    simp only [Spares, ← condenseInstruction_eq_self_iff]
    cases s.systemInstruction <;> simp
  have idem : (request.systemInstruction.map condenseInstruction).map condenseInstruction =
      request.systemInstruction.map condenseInstruction := by
    cases request.systemInstruction <;> simp [condenseInstruction_idem]
  refine ⟨⟨aging.texts, .inr ?_, aging.user⟩, ?_⟩
  · rcases aging.instruction with same | same
    · exact congrArg (Option.map condenseInstruction) same
    · exact (congrArg (Option.map condenseInstruction) same).trans idem
  · rw [spares]
    constructor
    · intro intact
      have instruction : s.systemInstruction.map condenseInstruction = request.systemInstruction :=
        intact.instruction
      rcases aging.instruction with same | same
      · exact ⟨⟨same, intact.messages⟩, instruction.trans same.symm⟩
      · rw [same, idem] at instruction
        rw [instruction] at same
        exact ⟨⟨same, intact.messages⟩, by rw [same, instruction]⟩
    · rintro ⟨intact, same⟩
      exact ⟨same.trans intact.instruction, intact.messages⟩

/-- What a phase does to the system texts, behind the first phase. -/
theorem apply_aging {request s t : AgentRequest} {phase : CompactionPhase} (guards : c.Guards)
    (later : phase ≠ .diagnose) (aging : Aging c request s)
    (large : exceeds c.targetTokens s = true) (done : c.apply phase s = .ok t) :
    Aging c request t ∧ (SystemIntact request t ↔ SystemIntact request s ∧ c.Spares phase s) := by
  cases phase with
  | diagnose => exact absurd rfl later
  | condenseMiddle =>
      obtain ⟨after, same⟩ := condenseMiddle_aging aging done
      exact ⟨after, same.trans (and_iff_left trivial).symm⟩
  | evictMiddle | evictTail => exact evictDownTo_aging guards aging done
  | condenseTail =>
      injection done with same
      exact same ▸ condenseTail_aging aging
  | condenseFrame => exact condenseFrame_aging aging large done

/-- Behind the first phase, the system texts are intact at the end exactly if
    they are now and every phase that is come to spares them. -/
theorem run_intact {request s out : AgentRequest} (guards : c.Guards)
    {later : List CompactionPhase} (behind : .diagnose ∉ later) (aging : Aging c request s)
    (large : exceeds c.targetTokens s = true) (done : c.run later s = .ok out) :
    SystemIntact request out ↔ SystemIntact request s ∧ c.Throughout c.Spares later s := by
  induction later generalizing s with
  | nil => cases done
  | cons phase later ih =>
      rw [List.mem_cons, not_or] at behind
      cases applied : c.apply phase s with
      | error e =>
          rw [run, applied] at done
          cases done
      | ok t =>
          rw [run, applied] at done
          obtain ⟨after, step⟩ := apply_aging guards (Ne.symm behind.1) aging large applied
          have rest : c.Throughout c.Spares (phase :: later) s ↔ c.Spares phase s ∧
              (exceeds c.targetTokens t = true → c.Throughout c.Spares later t) := by
            simp [Throughout, applied]
          rw [rest, ← and_assoc, ← step]
          cases more : exceeds c.targetTokens t with
          | false =>
              simp only [bind, Except.bind, more, Bool.false_eq_true, if_false, pure, Except.pure,
                Except.ok.injEq] at done
              simp [done]
          | true =>
              simp only [bind, Except.bind, more, if_true] at done
              simpa using ih behind.2 after more done

/-- The first phase finds the request. -/
theorem diagnose_aging {request : AgentRequest}
    (user : ∀ idx m, c.firstUserIdx = some idx → request.messages[idx]? = some m →
      m.role = "user") : Aging c request (c.diagnose request) where
  texts := by
    refine ⟨_, List.Sublist.refl _, forall₂_systemContents (forall₂_mapIdx ?_)⟩
    intro idx m _
    refine ⟨(SameTurn.diagnoseMessage ..).role, fun _ => ?_⟩
    simp only [diagnoseMessage]
    split
    · exact .inl rfl
    · have long : ∀ maxChars, Aged m.content
          (condenseContent c.libraries 1000 maxChars (condenseResults c.libraries 400 m)).content := by
        intro maxChars
        rw [condenseContent_content]
        split
        · next large =>
          exact .inr (Nat.lt_trans (by decide : 500 < 1000) large)
        · exact .inl rfl
      split
      · exact long 1200
      · exact long 600
  instruction := .inl rfl
  user := by
    intro idx m first found
    rw [diagnose, List.getElem?_mapIdx, Option.map_eq_some_iff] at found
    obtain ⟨old, found, rfl⟩ := found
    rw [(SameTurn.diagnoseMessage ..).role]
    exact user idx old first found

end Compaction

namespace ContextManager

variable (manager : ContextManager) (libraries : Libraries)

theorem firstUser_role {messages : List AgentMessage} {idx : Nat} {m : AgentMessage}
    (first : firstUserIdx messages = some idx) (found : messages[idx]? = some m) :
    m.role = "user" := by
  obtain ⟨inside, role, -⟩ := List.findIdx?_eq_some_iff_getElem.mp first
  obtain ⟨-, rfl⟩ := List.getElem?_eq_some_iff.mp found
  exact eq_of_beq role

def longInstructions (instructions : String) : AgentRequest where
  requestId := "r"
  messages := [{ role := "system", content := instructions }, { role := "user", content := "?" }]

theorem longInstructions_lost {instructions : String} (long : instructions.length = 3000) :
    ∃ out, ((⟨6⟩ : ContextManager).compact .ascii (longInstructions instructions)
        ⟨2048, 1024, 512⟩).outcome = .ok (out, true) ∧
      ¬SystemIntact (longInstructions instructions) out := by
  have tokens : ∀ text, estimateTokens (longInstructions text) =
      tokensOfLength (text.length + 1) := by
    intro text
    have mark : ("?" : String).length = 1 := by decide
    simp only [estimateTokens, NormalizedRequest.parts, NormalizedMessage.parts, longInstructions,
      Option.getD_none, List.map_nil, List.append_nil, List.flatMap_cons, List.flatMap_nil,
      List.cons_append, List.nil_append, List.foldl_cons, List.foldl_nil, String.length_empty, mark]
    congr 1
    omega
  have budget : (⟨2048, 1024, 512⟩ : ContextBudget).availableInputBudget = 512 := rfl
  have large : exceeds 512 (longInstructions instructions) = true := by
    rw [exceeds, tokens, long]
    rfl
  have short := extract_length_le .ascii 600 instructions
  have diagnosed : (((⟨6⟩ : ContextManager).compaction .ascii (longInstructions instructions)
      ⟨2048, 1024, 512⟩).diagnose (longInstructions instructions)) =
      longInstructions (extractDiagnosticSummary .ascii 600 instructions) := by
    have huge : 1000 < instructions.length := by omega
    have first : firstUserIdx [{ role := "system", content := instructions },
      { role := "user", content := "?" }] = some 1 := rfl
    simp [Compaction.diagnose, compaction, first, longInstructions, diagnoseMessage,
      condenseResults, condenseContent, huge]
  refine ⟨longInstructions (extractDiagnosticSummary .ascii 600 instructions), ?_, ?_⟩
  · have small : exceeds 512 (longInstructions (extractDiagnosticSummary .ascii 600 instructions)) =
        false := by
      rw [exceeds, tokens, tokensOfLength, decide_eq_false_iff_not]
      omega
    have target : ((⟨6⟩ : ContextManager).compaction .ascii (longInstructions instructions)
      ⟨2048, 1024, 512⟩).targetTokens = 512 := rfl
    rw [compact, budget, if_pos large, compactionPhases, Compaction.run, Compaction.apply, diagnosed]
    simp only [bind, Except.bind, target, small, Bool.false_eq_true, if_false]
    rfl
  · intro intact
    have texts := intact.messages
    have one : ∀ text, systemContents (longInstructions text).messages = [text] := fun _ => rfl
    rw [one, one] at texts
    have lengths := congrArg String.length (List.cons.inj texts).1
    omega

end ContextManager

end DuraLLM
