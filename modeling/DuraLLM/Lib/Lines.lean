import DuraLLM.Lib.Text
import Mathlib.Data.List.Infix

/-! # Lines at every line boundary

A text library may break lines at more than `\n`: at the other vertical
controls, at the separators of the ASCII alphabet and at those of Unicode.  A
text that holds one of these is torn, although its writer took it for one line.
-/

namespace Text

/-- Where a line may end. -/
def isLineBreak (c : Char) : Bool :=
  let n := c.toNat
  (0x0a ≤ n && n ≤ 0x0d) || (0x1c ≤ n && n ≤ 0x1e) || n == 0x85 || n == 0x2028 || n == 0x2029

/-- Nothing in the text ends a line. -/
def OneLine (text : List Char) : Prop := ∀ c ∈ text, isLineBreak c = false

/-- The lines without their ends; no line follows the last end. -/
def lines : List Char → List (List Char)
  | [] => []
  | '\r' :: '\n' :: rest => [] :: lines rest
  | c :: rest =>
      if isLineBreak c then [] :: lines rest
      else match lines rest with
        | [] => [[c]]
        | line :: more => (c :: line) :: more

/-- `text.splitlines()` -/
def splitlines (text : String) : List String := (lines text.toList).map String.ofList

example : splitlines "a\r\n\nb" = ["a", "", "b"] := by decide +kernel

theorem OneLine.append {s t : List Char} (left : OneLine s) (right : OneLine t) :
    OneLine (s ++ t) := by
  intro c member
  exact (List.mem_append.mp member).elim (left c) (right c)

theorem OneLine.of_append {s t : List Char} (whole : OneLine (s ++ t)) : OneLine s ∧ OneLine t :=
  ⟨fun c member => whole c (List.mem_append_left t member),
    fun c member => whole c (List.mem_append_right s member)⟩

theorem lines_break {c : Char} {rest : List Char} (ends : isLineBreak c = true)
    (single : ∀ later, c = '\r' → rest = '\n' :: later → False) :
    lines (c :: rest) = [] :: lines rest := by
  rw [lines]
  · simp [ends]
  · exact single

theorem lines_cons {c : Char} (inside : isLineBreak c = false) (rest : List Char) :
    lines (c :: rest) =
      match lines rest with
      | [] => [[c]]
      | line :: more => (c :: line) :: more := by
  rw [lines]
  · simp [inside]
  · rintro rest rfl
    cases inside

/-- The text in front of a line end is the first line. -/
theorem lines_append {line : List Char} (clean : OneLine line) {c : Char}
    (ends : isLineBreak c = true) (single : c ≠ '\r') (rest : List Char) :
    lines (line ++ c :: rest) = line :: lines rest := by
  induction line with
  | nil => exact lines_break ends fun _ same => absurd same single
  | cons d line ih =>
      have later := ih fun e member => clean e (List.mem_cons_of_mem d member)
      rw [List.cons_append, lines_cons (clean d List.mem_cons_self), later]

theorem lines_ne_nil {text : List Char} (some : text ≠ []) : lines text ≠ [] := by
  cases text using lines.induct_unfolding with
  | case1 => exact absurd rfl some
  | _ => simp

/-- A visible character is added to the first line, whatever follows. -/
theorem lines_cons_append {c : Char} (inside : isLineBreak c = false) {text rest : List Char}
    {later : List (List Char)} (some : text ≠ []) (split : lines rest = lines text ++ later) :
    lines (c :: rest) = lines (c :: text) ++ later := by
  obtain ⟨line, more, same⟩ := List.exists_cons_of_ne_nil (lines_ne_nil some)
  simp [lines_cons inside, split, same]

/-- A line end behind a visible character ends its line. -/
theorem lines_end (text : List Char) {d : Char} (inside : isLineBreak d = false)
    (rest : List Char) :
    lines (text ++ d :: '\n' :: rest) = lines (text ++ [d]) ++ lines rest := by
  have newline : isLineBreak '\n' = true ∧ '\n' ≠ '\r' := by decide
  induction text using lines.induct with
  | case1 =>
      have one : OneLine [d] := by simpa [OneLine] using inside
      have first := lines_append one newline.1 newline.2 rest
      rw [List.nil_append, List.nil_append, lines_cons inside []]
      exact first
  | case2 text ih => rw [List.cons_append, List.cons_append, lines, ih]; rfl
  | case3 c text crlf ends ih =>
      have single (tail later : List Char) :
          c = '\r' → text ++ d :: tail = '\n' :: later → False := by
        intro same begins
        cases text with
        | nil =>
            obtain ⟨rfl, -⟩ := List.cons.inj begins
            cases inside
        | cons e text =>
            obtain ⟨rfl, -⟩ := List.cons.inj begins
            exact crlf text same rfl
      rw [List.cons_append, lines_break ends (single _), ih, List.cons_append,
        lines_break ends (single _)]
      rfl
  | case4 c text _ visible _ ih => exact lines_cons_append (by simpa using visible) (by simp) ih
  | case5 c text _ visible _ _ _ ih =>
      exact lines_cons_append (by simpa using visible) (by simp) ih

/-- A text that is not one line has a first line end. -/
theorem exists_break {text : List Char} (torn : ¬OneLine text) :
    ∃ line c rest, text = line ++ c :: rest ∧ OneLine line ∧ isLineBreak c = true := by
  induction text with
  | nil => simp [OneLine] at torn
  | cons c text ih =>
      by_cases ends : isLineBreak c = true
      · exact ⟨[], c, text, rfl, by simp [OneLine], ends⟩
      · have later : ¬OneLine text := by
          intro one
          apply torn
          intro d member
          cases List.mem_cons.mp member with
          | inl same => simpa [same] using ends
          | inr member => exact one d member
        obtain ⟨line, d, rest, rfl, one, breaks⟩ := ih later
        refine ⟨c :: line, d, rest, rfl, ?_, breaks⟩
        intro e member
        cases List.mem_cons.mp member with
        | inl same => simpa [same] using ends
        | inr member => exact one e member

/-- What is written as one line comes back in pieces. -/
theorem lines_pieces {text : List Char} (single : '\r' ∉ text) (rest : List Char) :
    ∃ pieces, lines (text ++ '\n' :: rest) = pieces ++ lines rest ∧
      ∀ piece ∈ pieces, piece <:+: text := by
  by_cases one : OneLine text
  · refine ⟨[text], lines_append one rfl (by decide) rest, ?_⟩
    rintro piece member
    rw [List.mem_singleton.mp member]
  · obtain ⟨line, c, more, rfl, clean, ends⟩ := exists_break one
    have other : c ≠ '\r' := by
      rintro rfl
      simp at single
    have inside : more <:+: line ++ c :: more := ⟨line ++ [c], [], by simp⟩
    obtain ⟨pieces, same, parts⟩ :=
      lines_pieces (fun member => single (inside.subset member)) rest
    refine ⟨line :: pieces, ?_, ?_⟩
    · rw [List.append_assoc, List.cons_append, lines_append clean ends other, same]
      rfl
    · intro piece member
      cases List.mem_cons.mp member with
      | inl first => exact first ▸ (List.prefix_append line (c :: more)).isInfix
      | inr later => exact (parts piece later).trans inside
termination_by text.length
decreasing_by
  subst_vars
  simp only [List.length_append, List.length_cons]
  omega

end Text
