import Mathlib.Data.List.Infix

/-! # The words of a text

The longest parts of a text without blanks, in their order, and how a text is cut at
one of them.
-/

section Words

variable {α : Type} (blank : α → Bool)

/-- `text.split()` -/
def textWords (text : List α) : List (List α) :=
  (text.splitOnP blank).filter fun word => !word.isEmpty

/-- The text has these words. -/
inductive Worded : List α → List (List α) → Prop where
  | nil : Worded [] []
  | gap {c : α} {text : List α} {words : List (List α)} (here : blank c = true)
      (rest : Worded text words) : Worded (c :: text) words
  | word {w text : List α} {words : List (List α)} (some : w ≠ [])
      (solid : ∀ c ∈ w, blank c = false) (apart : ∀ c ∈ text.head?, blank c = true)
      (rest : Worded text words) : Worded (w ++ text) (w :: words)

variable {blank} {text : List α} {words : List (List α)}

/-- The longest front without blanks. -/
theorem exists_solid (text : List α) :
    ∃ w rest, text = w ++ rest ∧ (∀ c ∈ w, blank c = false) ∧ ∀ c ∈ rest.head?, blank c = true := by
  induction text with
  | nil => exact ⟨[], [], rfl, by simp, by simp⟩
  | cons c text ih =>
      cases here : blank c with
      | true => exact ⟨[], c :: text, rfl, by simp, by simpa using here⟩
      | false =>
          obtain ⟨w, rest, rfl, solid, apart⟩ := ih
          exact ⟨c :: w, rest, rfl, List.forall_mem_cons.mpr ⟨here, solid⟩, apart⟩

theorem exists_worded (text : List α) : ∃ words, Worded blank text words := by
  induction long : text.length using Nat.strong_induction_on generalizing text with
  | _ n ih =>
    obtain ⟨w, rest, rfl, solid, apart⟩ := @exists_solid α blank text
    cases w with
    | cons c w =>
        have shorter : rest.length < n := by
          rw [← long, List.cons_append, List.length_cons, List.length_append]
          omega
        obtain ⟨words, worded⟩ := ih _ shorter rest rfl
        exact ⟨_, .word (List.cons_ne_nil c w) solid apart worded⟩
    | nil =>
        cases rest with
        | nil => exact ⟨[], .nil⟩
        | cons c rest =>
            obtain ⟨words, worded⟩ := ih rest.length (by simp [← long]) rest rfl
            exact ⟨words, .gap (apart c rfl) worded⟩

theorem Worded.textWords_eq (worded : Worded blank text words) : textWords blank text = words := by
  induction worded with
  | nil => rfl
  | gap here rest ih =>
      rw [textWords, List.splitOnP_cons_eq_if_modifyHead, if_pos here]
      exact ih
  | @word w text words some solid apart rest ih =>
      have kept : (!w.isEmpty) = true := by simpa using some
      cases text with
      | nil =>
          have none : words = [] := ih.symm
          rw [textWords, List.append_nil, List.splitOnP_eq_singleton solid, none]
          simp [some]
      | cons c text =>
          have here : blank c = true := apart c rfl
          rw [textWords, List.splitOnP_append_cons_of_forall_mem solid c here, List.filter_cons,
            if_pos kept]
          rw [textWords, List.splitOnP_cons_eq_if_modifyHead, if_pos here] at ih
          exact congrArg (w :: ·) ih

theorem worded_iff : Worded blank text words ↔ textWords blank text = words := by
  refine ⟨Worded.textWords_eq, ?_⟩
  rintro rfl
  obtain ⟨words, worded⟩ := @exists_worded α blank text
  rwa [worded.textWords_eq]

/-- What is in a word is in the text, and is no blank. -/
theorem Worded.mem (worded : Worded blank text words) {w : List α} (place : w ∈ words) :
    w ≠ [] ∧ ∀ c ∈ w, c ∈ text ∧ blank c = false := by
  induction worded with
  | nil => cases place
  | gap here rest ih =>
      obtain ⟨some, each⟩ := ih place
      exact ⟨some, fun c member => ⟨List.mem_cons_of_mem _ (each c member).1, (each c member).2⟩⟩
  | @word v text words some solid apart rest ih =>
      rcases List.mem_cons.mp place with rfl | place
      · exact ⟨some, fun c member => ⟨List.mem_append_left _ member, solid c member⟩⟩
      · obtain ⟨some, each⟩ := ih place
        exact ⟨some, fun c member =>
          ⟨List.mem_append_right _ (each c member).1, (each c member).2⟩⟩

/-- What is no blank is in a word. -/
theorem Worded.exists_word (worded : Worded blank text words) {c : α} (member : c ∈ text)
    (solid : blank c = false) : ∃ w ∈ words, c ∈ w := by
  induction worded with
  | nil => cases member
  | @gap d text words here rest ih =>
      rcases List.mem_cons.mp member with rfl | member
      · rw [here] at solid
        cases solid
      · exact ih member
  | word some solid' apart rest ih =>
      rcases List.mem_append.mp member with member | member
      · exact ⟨_, List.mem_cons_self, member⟩
      · obtain ⟨w, place, inside⟩ := ih member
        exact ⟨w, List.mem_cons_of_mem _ place, inside⟩

theorem Worded.map {β : Type} {blank' : β → Bool} {f : α → β} (agrees : ∀ c, blank' (f c) = blank c)
    (worded : Worded blank text words) : Worded blank' (text.map f) (words.map (·.map f)) := by
  induction worded with
  | nil => exact .nil
  | gap here _ ih => exact .gap (by rw [agrees, here]) ih
  | word some solid apart _ ih =>
      rw [List.map_append]
      refine .word (by simpa using some) (fun c member => ?_) (fun c first => ?_) ih
      · obtain ⟨d, inside, rfl⟩ := List.mem_map.mp member
        rw [agrees, solid d inside]
      · rw [List.head?_map] at first
        obtain ⟨d, here, rfl⟩ := Option.map_eq_some_iff.mp first
        rw [agrees, apart d here]

theorem Worded.blank_of_nil (worded : Worded blank text []) : ∀ c ∈ text, blank c = true := by
  intro c member
  cases here : blank c with
  | true => rfl
  | false =>
      obtain ⟨w, place, _⟩ := worded.exists_word member here
      cases place

/-! ### Cutting a text -/

theorem Worded.blanks {gap : List α} (blanks : ∀ c ∈ gap, blank c = true)
    (worded : Worded blank text words) : Worded blank (gap ++ text) words := by
  induction gap with
  | nil => exact worded
  | cons c gap ih =>
      obtain ⟨here, blanks⟩ := List.forall_mem_cons.mp blanks
      exact .gap here (ih blanks)

/-- A gap separates words. -/
theorem Worded.append {front : List α} {words' : List (List α)} (worded : Worded blank front words')
    (apart : ∀ c ∈ text.head?, blank c = true) (rest : Worded blank text words) :
    Worded blank (front ++ text) (words' ++ words) := by
  induction worded with
  | nil => exact rest
  | gap here _ ih => exact .gap here ih
  | @word w front words' some solid apart' _ ih =>
      rw [List.append_assoc]
      refine .word some solid (fun c first => ?_) ih
      cases front with
      | nil => exact apart c first
      | cons d front => exact apart' c first

/-- As `append`, where the front ends with a blank. -/
theorem Worded.append_of_last {front : List α} {words' : List (List α)}
    (worded : Worded blank front words') (ends : ∀ c ∈ front.getLast?, blank c = true)
    (rest : Worded blank text words) : Worded blank (front ++ text) (words' ++ words) := by
  induction worded with
  | nil => exact rest
  | @gap c front words' here _ ih =>
      refine .gap here (ih fun d last => ends d ?_)
      cases front with
      | nil => cases last
      | cons e front => rwa [List.getLast?_cons_cons]
  | @word w front words' some solid apart _ ih =>
      cases front with
      | nil =>
          rw [List.append_nil] at ends
          have last := ends _ (List.getLast?_eq_some_getLast some)
          rw [solid _ (List.getLast_mem some)] at last
          cases last
      | cons d front =>
          rw [List.append_assoc]
          refine .word some solid apart (ih fun c last => ends c ?_)
          rwa [List.getLast?_append_of_ne_nil _ (List.cons_ne_nil d front)]

/-- The longest end without blanks. -/
theorem exists_solid_end (text : List α) :
    ∃ front w, text = front ++ w ∧ (∀ c ∈ w, blank c = false) ∧
      ∀ c ∈ front.getLast?, blank c = true := by
  obtain ⟨w, rest, same, solid, apart⟩ := @exists_solid α blank text.reverse
  refine ⟨rest.reverse, w.reverse, ?_, fun c member => solid c (List.mem_reverse.mp member), ?_⟩
  · rw [← List.reverse_append, ← same, List.reverse_reverse]
  · rwa [List.getLast?_reverse]

/-- The last word of a text that ends with `x`. -/
theorem Worded.last {x : List α} (worded : Worded blank (text ++ x) words) (some : x ≠ [])
    (solid : ∀ c ∈ x, blank c = false) : ∃ front w, words = front ++ [w] ∧ x <:+ w := by
  obtain ⟨before, w, rfl, solid', ends⟩ := @exists_solid_end α blank text
  obtain ⟨front, worded'⟩ := @exists_worded α blank before
  have word : Worded blank (w ++ x ++ []) [w ++ x] :=
    .word (by simp [some]) (List.forall_mem_append.mpr ⟨solid', solid⟩) (by simp) .nil
  have whole := worded'.append_of_last ends word
  rw [List.append_nil, ← List.append_assoc] at whole
  exact ⟨front, w ++ x, by rw [← worded.textWords_eq, whole.textWords_eq], List.suffix_append w x⟩

/-- The words are front, `t` and what follows: where `t` stands in the text. -/
theorem Worded.cut {front back : List (List α)} {t : List α}
    (worded : Worded blank text (front ++ t :: back)) :
    ∃ before after, text = before ++ t ++ after ∧ Worded blank before front ∧
      Worded blank after back ∧ (∀ c ∈ t, blank c = false) ∧ t ≠ [] ∧
      (∀ c ∈ after.head?, blank c = true) ∧ (∀ c ∈ before.getLast?, blank c = true) := by
  generalize same : front ++ t :: back = words at worded
  induction worded generalizing front with
  | nil => simp at same
  | gap here _ ih =>
      obtain ⟨before, after, rfl, left, right, solid, some, apart, ends⟩ := ih same
      refine ⟨_ :: before, after, rfl, .gap here left, right, solid, some, apart, ?_⟩
      cases before with
      | nil => simpa using here
      | cons d before => simpa [List.getLast?_cons_cons] using ends
  | @word w text words some' solid' apart' rest ih =>
      cases front with
      | nil =>
          obtain ⟨rfl, rfl⟩ := List.cons.inj same
          exact ⟨[], text, rfl, .nil, rest, solid', some', apart', by simp⟩
      | cons u front =>
          obtain ⟨rfl, later⟩ := List.cons.inj same
          obtain ⟨before, after, rfl, left, right, solid, some, apart, ends⟩ := ih later
          have first : ∀ c ∈ before.head?, blank c = true := by
            intro c member
            cases before with
            | nil => cases member
            | cons d before => exact apart' c member
          refine ⟨u ++ before, after, by simp, .word some' solid' first left, right, solid, some, apart,
            ?_⟩
          cases before with
          | nil =>
              obtain ⟨c, t', rfl⟩ := List.exists_cons_of_ne_nil some
              have blankHere := apart' c rfl
              rw [solid c List.mem_cons_self] at blankHere
              cases blankHere
          | cons d before =>
              rw [List.getLast?_append_of_ne_nil _ (List.cons_ne_nil d before)]
              exact ends

/-- The first word of a text. -/
theorem Worded.first {w : List α} (worded : Worded blank text (w :: words)) :
    ∃ gap rest, text = gap ++ (w ++ rest) ∧ (∀ c ∈ gap, blank c = true) ∧ w ≠ [] ∧
      (∀ c ∈ w, blank c = false) ∧ (∀ c ∈ rest.head?, blank c = true) ∧ Worded blank rest words := by
  obtain ⟨gap, rest, rfl, left, right, solid, some, apart, -⟩ := Worded.cut (show Worded blank text ([] ++ w :: words) from worded)
  exact ⟨gap, rest, List.append_assoc gap w rest, left.blank_of_nil, some, solid, apart, right⟩

end Words
