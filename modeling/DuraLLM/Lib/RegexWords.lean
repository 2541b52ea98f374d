import Mathlib.Computability.Language
import DuraLLM.Lib.Regex

/-! # The words of a pattern

A pattern that looks at no word edge matches a word or does not, whatever stands
around it.  Its words are a language, built up as the pattern is, and a match at a
place ends exactly where one of these words does.
-/

namespace Regex

/-- The pattern looks at nothing but the characters it reads. -/
def EdgeFree : Regex → Prop
  | .empty | .char _ => True
  | .wordEdge => False
  | .seq first second | .either first second => first.EdgeFree ∧ second.EdgeFree
  | .star r => r.EdgeFree

def words (table : CharTable) : Regex → Language Char
  | .empty => 1
  | .char accepts => {w | ∃ c, accepts table c = true ∧ w = [c]}
  | .wordEdge => 0
  | .seq first second => first.words table * second.words table
  | .either first second => first.words table + second.words table
  | .star r => KStar.kstar (r.words table)

/-- A match that begins at the place can leave this text. -/
def Leaves (table : CharTable) (r : Regex) (place : Place) (rest : List Char) : Prop :=
  ∃ before, ⟨before, rest⟩ ∈ ends table r place

section Words

variable {table : CharTable} {place : Place} {rest : List Char}

/-- Repetition, of a step that reads the words of `L` but the empty one. -/
theorem repeated_iff {step : Place → List Place} {L : Language Char}
    (reads : ∀ place rest, (∃ before, ⟨before, rest⟩ ∈ step place) ↔
      ∃ w ∈ L, w ≠ [] ∧ place.rest = w ++ rest)
    (n : Nat) (long : place.rest.length ≤ n) :
    (∃ before, ⟨before, rest⟩ ∈ repeated step n place) ↔
      ∃ w ∈ (KStar.kstar L : Language Char), place.rest = w ++ rest := by
  induction n generalizing place with
  | zero =>
      have empty : place.rest = [] := List.length_eq_zero_iff.mp (Nat.le_zero.mp long)
      simp only [repeated, List.mem_singleton, empty, List.nil_eq_append_iff]
      constructor
      · rintro ⟨before, same⟩
        exact ⟨[], Language.nil_mem_kstar L, rfl, by rw [← empty, ← same]⟩
      · rintro ⟨w, _, _, rfl⟩
        exact ⟨place.before, by rw [← empty]⟩
  | succ n ih =>
      simp only [repeated, List.mem_cons, List.mem_flatMap]
      constructor
      · rintro ⟨before, same | ⟨mid, one, more⟩⟩
        · exact ⟨[], Language.nil_mem_kstar L, by rw [← same]; rfl⟩
        · obtain ⟨w, word, some, split⟩ := (reads place mid.rest).mp ⟨mid.before, one⟩
          have shorter : mid.rest.length ≤ n := by
            have positive := List.length_pos_iff.mpr some
            rw [split, List.length_append] at long
            omega
          obtain ⟨v, later, split'⟩ := (ih shorter).mp ⟨before, more⟩
          obtain ⟨pieces, rfl, each⟩ := later
          refine ⟨w ++ pieces.flatten, ⟨w :: pieces, rfl, ?_⟩, ?_⟩
          · exact List.forall_mem_cons.mpr ⟨word, each⟩
          · rw [split, split', List.append_assoc]
      · rintro ⟨w, star, split⟩
        rw [Language.kstar_def_nonempty] at star
        obtain ⟨pieces, rfl, each⟩ := star
        cases pieces with
        | nil => exact ⟨place.before, .inl (by rw [show rest = place.rest from split.symm])⟩
        | cons y pieces =>
            obtain ⟨⟨word, some⟩, each⟩ := List.forall_mem_cons.mp each
            rw [List.flatten_cons, List.append_assoc] at split
            obtain ⟨before, one⟩ := (reads place _).mpr ⟨y, word, some, split⟩
            have shorter : (pieces.flatten ++ rest).length ≤ n := by
              have positive := List.length_pos_iff.mpr some
              rw [split, List.length_append] at long
              omega
            have starred : pieces.flatten ∈ (KStar.kstar L : Language Char) :=
              Language.join_mem_kstar fun y member => (each y member).1
            obtain ⟨before', more⟩ :=
              (@ih ⟨before, pieces.flatten ++ rest⟩ shorter).mpr ⟨_, starred, rfl⟩
            exact ⟨before', .inr ⟨_, one, more⟩⟩

/-- A match ends where one of the words ends. -/
theorem leaves_iff {r : Regex} (free : r.EdgeFree) :
    r.Leaves table place rest ↔ ∃ w ∈ r.words table, place.rest = w ++ rest := by
  induction r generalizing place rest with
  | empty =>
      simp only [Leaves, ends, List.mem_singleton, words, Language.mem_one, exists_eq_left,
        List.nil_append]
      constructor
      · rintro ⟨before, same⟩
        rw [← same]
      · intro same
        exact ⟨place.before, by rw [← same]⟩
  | char accepts =>
      simp only [Leaves, ends, words]
      cases here : place.rest with
      | nil =>
          refine iff_of_false (by simp) ?_
          rintro ⟨w, ⟨d, _, rfl⟩, split⟩
          cases split
      | cons c text =>
          by_cases accepted : accepts table c = true
          · simp only [accepted, if_true, List.mem_singleton]
            constructor
            · rintro ⟨before, same⟩
              cases same
              exact ⟨[c], ⟨c, accepted, rfl⟩, rfl⟩
            · rintro ⟨w, ⟨d, _, rfl⟩, split⟩
              cases split
              exact ⟨some c, rfl⟩
          · simp only [accepted, Bool.false_eq_true, if_false, List.not_mem_nil, exists_false,
              false_iff]
            rintro ⟨w, ⟨d, accepted', rfl⟩, split⟩
            cases split
            exact accepted accepted'
  | wordEdge => exact free.elim
  | seq first second ihFirst ihSecond =>
      simp only [Leaves, ends, words, List.mem_flatMap]
      constructor
      · rintro ⟨before, mid, one, two⟩
        obtain ⟨u, word, split⟩ := (ihFirst free.1).mp ⟨mid.before, one⟩
        obtain ⟨v, word', split'⟩ := (ihSecond free.2).mp ⟨before, two⟩
        refine ⟨u ++ v, Language.append_mem_mul word word', ?_⟩
        rw [split, split', List.append_assoc]
      · rintro ⟨w, ⟨u, word, v, word', rfl⟩, split⟩
        rw [List.append_assoc] at split
        obtain ⟨before, one⟩ := (ihFirst free.1).mpr ⟨u, word, split⟩
        obtain ⟨before', two⟩ := (@ihSecond ⟨before, v ++ rest⟩ rest free.2).mpr ⟨v, word', rfl⟩
        exact ⟨before', _, one, two⟩
  | either first second ihFirst ihSecond =>
      simp only [Leaves, ends, words, List.mem_append, Language.mem_add, exists_or,
        or_and_right]
      exact or_congr (ihFirst free.1) (ihSecond free.2)
  | star r ih =>
      refine repeated_iff (fun place rest => ?_) _ le_rfl
      simp only [List.mem_filter, decide_eq_true_eq]
      constructor
      · rintro ⟨before, one, shorter⟩
        obtain ⟨w, word, split⟩ := (ih free).mp ⟨before, one⟩
        refine ⟨w, word, ?_, split⟩
        rintro rfl
        rw [split] at shorter
        exact lt_irrefl _ shorter
      · rintro ⟨w, word, some, split⟩
        obtain ⟨before, one⟩ := (ih free).mpr ⟨w, word, split⟩
        have positive := List.length_pos_iff.mpr some
        refine ⟨before, one, ?_⟩
        rw [split, List.length_append]
        omega

/-! ### The building blocks -/

variable {w : List Char}

@[simp] theorem mem_words_seq {first second : Regex} :
    w ∈ (seq first second).words table ↔
      ∃ u v, w = u ++ v ∧ u ∈ first.words table ∧ v ∈ second.words table := by
  constructor
  · rintro ⟨u, one, v, two, rfl⟩
    exact ⟨u, v, rfl, one, two⟩
  · rintro ⟨u, v, rfl, one, two⟩
    exact ⟨u, one, v, two, rfl⟩

@[simp] theorem mem_words_either {first second : Regex} :
    w ∈ (either first second).words table ↔
      w ∈ first.words table ∨ w ∈ second.words table := Iff.rfl

@[simp] theorem mem_words_empty : w ∈ empty.words table ↔ w = [] := Iff.rfl

@[simp] theorem mem_words_char {accepts : CharTable → Char → Bool} :
    w ∈ (char accepts).words table ↔ ∃ c, accepts table c = true ∧ w = [c] := Iff.rfl

theorem mem_words_any (r : Regex) (more : List Regex) :
    w ∈ (any r more).words table ↔ ∃ s ∈ r :: more, w ∈ s.words table := by
  induction more generalizing r with
  | nil => simp [any]
  | cons s more ih =>
      rw [any, List.foldl_cons]
      change w ∈ (any (either r s) more).words table ↔ _
      rw [ih]
      simp [or_assoc]

/-- One character after another. -/
theorem mem_words_chars {accepts : Char → CharTable → Char → Bool} (cs : List Char) :
    w ∈ (all (cs.map fun c => .char (accepts c))).words table ↔
      List.Forall₂ (fun c d => accepts c table d = true) cs w := by
  induction cs generalizing w with
  | nil => simp [all]
  | cons c cs ih =>
      have rest : (all ((c :: cs).map fun c => .char (accepts c))) =
          seq (.char (accepts c)) (all (cs.map fun c => .char (accepts c))) := rfl
      rw [rest, mem_words_seq, List.forall₂_cons_left_iff]
      constructor
      · rintro ⟨u, v, rfl, ⟨d, accepted, rfl⟩, later⟩
        exact ⟨d, v, accepted, ih.mp later, rfl⟩
      · rintro ⟨d, v, accepted, later, rfl⟩
        exact ⟨[d], v, rfl, ⟨d, accepted, rfl⟩, ih.mpr later⟩

theorem mem_words_literal (text : String) :
    w ∈ (literal text).words table ↔ w = text.toList := by
  rw [literal, mem_words_chars]
  simp only [decide_eq_true_eq]
  constructor
  · intro same
    exact (List.forall₂_eq_eq_eq ▸ same.imp fun c d same => same.symm : text.toList = w).symm
  · rintro rfl
    exact List.forall₂_same.mpr fun _ _ => rfl

theorem mem_words_folded (text : String) :
    w ∈ (folded text).words table ↔
      List.Forall₂ (fun c d => table.lower d = table.lower c) text.toList w := by
  rw [folded, mem_words_chars]
  simp only [decide_eq_true_eq]

/-- At least one of a set of characters. -/
theorem mem_words_plus {accepts : CharTable → Char → Bool} :
    w ∈ (plus (.char accepts)).words table ↔ w ≠ [] ∧ ∀ c ∈ w, accepts table c = true := by
  have many : ∀ w, w ∈ (star (.char accepts)).words table ↔ ∀ c ∈ w, accepts table c = true := by
    intro w
    constructor
    · rintro ⟨pieces, rfl, each⟩ c member
      obtain ⟨piece, place, member⟩ := List.mem_flatten.mp member
      obtain ⟨d, accepted, rfl⟩ := each piece place
      rwa [List.mem_singleton.mp member]
    · intro each
      refine ⟨w.map fun c => [c], ?_, fun piece place => ?_⟩
      · induction w with
        | nil => rfl
        | cons c w ih => simpa using ih (List.forall_mem_cons.mp each).2
      · obtain ⟨c, member, rfl⟩ := List.mem_map.mp place
        exact ⟨c, each c member, rfl⟩
  rw [plus, mem_words_seq]
  constructor
  · rintro ⟨u, v, rfl, ⟨c, accepted, rfl⟩, later⟩
    exact ⟨List.cons_ne_nil _ _, List.forall_mem_cons.mpr ⟨accepted, (many v).mp later⟩⟩
  · rintro ⟨some, each⟩
    cases w with
    | nil => exact absurd rfl some
    | cons c v =>
        obtain ⟨accepted, later⟩ := List.forall_mem_cons.mp each
        exact ⟨[c], v, rfl, ⟨c, accepted, rfl⟩, (many v).mpr later⟩

/-- A match of all of the text, or of all but a last line break. -/
theorem fillsText_iff {r : Regex} (free : r.EdgeFree) (text : String) :
    fillsText table r text = true ↔
      text.toList ∈ r.words table ∨ ∃ w ∈ r.words table, text.toList = w ++ ['\n'] := by
  have ends : fillsText table r text = true ↔
      r.Leaves table ⟨none, text.toList⟩ [] ∨ r.Leaves table ⟨none, text.toList⟩ ['\n'] := by
    simp only [fillsText, List.any_eq_true, Bool.or_eq_true, decide_eq_true_eq, Leaves,
      ← exists_or]
    constructor
    · rintro ⟨⟨before, rest⟩, place, rfl | rfl⟩
      · exact ⟨before, .inl place⟩
      · exact ⟨before, .inr place⟩
    · rintro ⟨before, place | place⟩
      · exact ⟨_, place, .inl rfl⟩
      · exact ⟨_, place, .inr rfl⟩
  rw [ends, leaves_iff free, leaves_iff free]
  simp

end Words

end Regex
