import Mathlib.Data.List.Basic

/-! # Substitution in a text

Every match of a pattern is replaced, from left to right and without overlap.  A
match says how much of its front stays in place and how long it is; the marker
stands for the rest.  The characters may carry more than the pattern looks at.
-/

section Substitution

variable {α β : Type}

/-- `skip` characters belong to the last match. -/
def substitute (matchAt : List α → Option (Nat × Nat)) (marker : List α) : Nat → List α → List α
  | _, [] => []
  | skip + 1, _ :: rest => substitute matchAt marker skip rest
  | 0, c :: rest =>
      match matchAt (c :: rest) with
      | some (kept, length + 1) =>
          (c :: rest).take kept ++ marker ++ substitute matchAt marker length rest
      | _ => c :: substitute matchAt marker 0 rest

variable {matchAt : List α → Option (Nat × Nat)} {marker : List α}

@[simp] theorem substitute_nil (skip : Nat) : substitute matchAt marker skip [] = [] := by
  cases skip <;> rfl

theorem substitute_skip (skip : Nat) (text : List α) :
    substitute matchAt marker skip text = substitute matchAt marker 0 (text.drop skip) := by
  induction skip generalizing text with
  | zero => rfl
  | succ skip ih =>
      cases text with
      | nil => rfl
      | cons c rest => exact ih rest

theorem substitute_match {text : List α} {kept length : Nat}
    (found : matchAt text = some (kept, length)) (some : text ≠ []) (positive : 0 < length) :
    substitute matchAt marker 0 text =
      text.take kept ++ marker ++ substitute matchAt marker 0 (text.drop length) := by
  obtain ⟨c, rest, rfl⟩ := List.exists_cons_of_ne_nil some
  obtain ⟨length, rfl⟩ := Nat.exists_eq_add_of_lt positive
  rw [Nat.zero_add] at found ⊢
  rw [substitute, found]
  dsimp only
  rw [substitute_skip]
  rfl

theorem substitute_none {c : α} {rest : List α} (none : matchAt (c :: rest) = none) :
    substitute matchAt marker 0 (c :: rest) = c :: substitute matchAt marker 0 rest := by
  rw [substitute, none]

/-- What the pattern does not look at is carried along. -/
theorem substitute_map {matchAt' : List β → Option (Nat × Nat)} {f : α → β}
    (agrees : ∀ text, matchAt' (text.map f) = matchAt text) (skip : Nat) (text : List α) :
    (substitute matchAt marker skip text).map f =
      substitute matchAt' (marker.map f) skip (text.map f) := by
  induction text generalizing skip with
  | nil => simp
  | cons c rest ih =>
      cases skip with
      | succ skip => exact ih skip
      | zero =>
          have same := agrees (c :: rest)
          rw [List.map_cons] at same ⊢
          rw [substitute, substitute, same]
          cases found : matchAt (c :: rest) with
          | none => simp [ih]
          | some hit =>
              obtain ⟨kept, length⟩ := hit
              cases length with
              | zero => simp [ih]
              | succ length => simp [ih, List.map_take]

/-- What is left comes from the text or from the marker. -/
theorem mem_substitute {skip : Nat} {text : List α} {x : α}
    (member : x ∈ substitute matchAt marker skip text) : x ∈ text ∨ x ∈ marker := by
  induction text generalizing skip with
  | nil => simp at member
  | cons c rest ih =>
      have later : ∀ skip, x ∈ substitute matchAt marker skip rest → x ∈ c :: rest ∨ x ∈ marker :=
        fun skip member => (ih member).imp_left (List.mem_cons_of_mem c)
      cases skip with
      | succ skip => exact later skip member
      | zero =>
          rw [substitute] at member
          split at member
          · rcases List.mem_append.mp member with front | back
            · rcases List.mem_append.mp front with taken | here
              · exact .inl (List.mem_of_mem_take taken)
              · exact .inr here
            · exact later _ back
          · rcases List.mem_cons.mp member with rfl | back
            · exact .inl List.mem_cons_self
            · exact later _ back

end Substitution
