import Mathlib.Data.Finset.Card
import Mathlib.Data.List.Infix

/-! # Visits that are remembered

Places are visited one after the other.  The visits are remembered in their order,
until places are forgotten: then every visit to them is dropped.  A place may be
visited that was visited last, or of which no visit is remembered.

In a permitted log a place is not left and visited again unless it, or each place
visited in between, was forgotten (`Permitted.forgets`).
-/

inductive Visit (α : Type) where
  | visit (a : α)
  | forget (places : List α)
  deriving DecidableEq

namespace Visit

variable {α : Type} {a b : α} {memory : List α} {log later : List (Visit α)}

/-- `a` is forgotten in the log. -/
def Forgets (log : List (Visit α)) (a : α) : Prop :=
  ∃ places, forget places ∈ log ∧ a ∈ places

/-- `a` was visited last, or no visit to it is remembered. -/
def Permits (memory : List α) (a : α) : Prop := memory.getLast? = some a ∨ a ∉ memory

/-- No place is left and visited again. -/
def Steady (memory : List α) : Prop := ∀ a b, a ≠ b → ¬[a, b, a].Sublist memory

theorem concat_sublist_concat {l : List α} :
    (l ++ [a]).Sublist (memory ++ [b]) ↔ (l ++ [a]).Sublist memory ∨ a = b ∧ l.Sublist memory := by
  rw [← List.reverse_sublist, List.reverse_concat, List.reverse_concat, List.sublist_cons_iff,
    ← List.reverse_concat, List.reverse_sublist]
  constructor
  · rintro (whole | ⟨rest, same, sublist⟩)
    · exact .inl whole
    · rw [List.reverse_concat] at same
      cases same
      exact .inr ⟨rfl, List.reverse_sublist.mp sublist⟩
  · rintro (whole | ⟨rfl, sublist⟩)
    · exact .inl whole
    · exact .inr ⟨l.reverse, List.reverse_concat .., List.reverse_sublist.mpr sublist⟩

theorem Steady.mono (steady : Steady memory) {fewer : List α} (sublist : fewer.Sublist memory) :
    Steady fewer :=
  fun a b different back => steady a b different (back.trans sublist)

theorem Steady.visit (steady : Steady memory) (permits : Permits memory a) :
    Steady (memory ++ [a]) := by
  intro x y different back
  rcases (concat_sublist_concat (l := [x, y])).mp back with old | ⟨rfl, front⟩
  · exact steady x y different old
  · rcases permits with ended | absent
    · -- The visit before was to the same place, which closes the turn already.
      obtain ⟨earlier, rfl⟩ := List.getLast?_eq_some_iff.mp ended
      rcases (concat_sublist_concat (l := [x])).mp front with front | ⟨same, -⟩
      · exact steady x y different (front.append (List.Sublist.refl [x]))
      · exact different same.symm
    · exact absent (front.subset List.mem_cons_self)

variable [DecidableEq α]

def remember (memory : List α) : Visit α → List α
  | visit a => memory ++ [a]
  | forget places => memory.filter fun a => a ∉ places

/-- What is remembered after the log. -/
def recalled (memory : List α) (log : List (Visit α)) : List α := log.foldl remember memory

@[simp] theorem recalled_nil : recalled memory [] = memory := rfl

@[simp] theorem recalled_cons (v : Visit α) : recalled memory (v :: log) = recalled (remember memory v) log :=
  rfl

theorem recalled_append : recalled memory (log ++ later) = recalled (recalled memory log) later :=
  List.foldl_append

theorem recalled_replicate (n : Nat) :
    recalled memory (List.replicate n (visit a)) = memory ++ List.replicate n a := by
  induction n generalizing memory with
  | zero => simp
  | succ n ih => rw [List.replicate_succ, recalled_cons, ih, remember, List.append_assoc]; rfl

/-! ## Memory -/

/-- What is not forgotten stays, in its order. -/
theorem sublist_recalled {kept : List α} (kept_sublist : kept.Sublist memory)
    (unforgotten : ∀ a ∈ kept, ¬Forgets log a) : kept.Sublist (recalled memory log) := by
  induction log generalizing memory with
  | nil => exact kept_sublist
  | cons v log ih =>
      have rest : ∀ a ∈ kept, ¬Forgets log a := by
        rintro a member ⟨places, later, inside⟩
        exact unforgotten a member ⟨places, List.mem_cons_of_mem _ later, inside⟩
      refine ih ?_ rest
      cases v with
      | visit a => exact kept_sublist.trans (List.sublist_append_left _ _)
      | forget places =>
          have free : kept.filter (fun a => a ∉ places) = kept := by
            rw [List.filter_eq_self]
            intro a member
            have outside : a ∉ places :=
              fun inside => unforgotten a member ⟨places, List.mem_cons_self, inside⟩
            simpa using outside
          exact free ▸ kept_sublist.filter _

/-! ## Permitted visits -/

/-- Every visit of the log was permitted when it was made. -/
def Permitted (memory : List α) : List (Visit α) → Prop
  | [] => True
  | visit a :: log => Permits memory a ∧ Permitted (memory ++ [a]) log
  | forget places :: log => Permitted (memory.filter fun a => a ∉ places) log

theorem permitted_append :
    Permitted memory (log ++ later) ↔ Permitted memory log ∧ Permitted (recalled memory log) later := by
  induction log generalizing memory with
  | nil => simp [Permitted]
  | cons v log ih =>
      cases v with
      | visit a => simp only [List.cons_append, Permitted, recalled_cons, remember, ih, and_assoc]
      | forget places => simp only [List.cons_append, Permitted, recalled_cons, remember, ih]

theorem Permitted.steady (permitted : Permitted memory log) (start : Steady memory) :
    Steady (recalled memory log) := by
  induction log generalizing memory with
  | nil => exact start
  | cons v log ih =>
      cases v with
      | visit a => exact ih permitted.2 (start.visit permitted.1)
      | forget places => exact ih permitted (start.mono List.filter_sublist)

/-- A place that is left and visited again was forgotten, or the place visited in
    between was. -/
theorem Permitted.forgets {front between behind : List (Visit α)} (different : a ≠ b)
    (permitted : Permitted []
      (front ++ visit a :: (between ++ visit b :: (behind ++ visit a :: later)))) :
    Forgets (between ++ behind) a ∨ Forgets behind b := by
  by_contra kept
  obtain ⟨first, second⟩ := not_or.mp kept
  have cut : front ++ visit a :: (between ++ visit b :: (behind ++ visit a :: later)) =
      (front ++ visit a :: (between ++ visit b :: behind)) ++ visit a :: later := by
    simp only [List.append_assoc, List.cons_append]
  rw [cut, permitted_append] at permitted
  obtain ⟨before, here, -⟩ := permitted
  have steady := before.steady fun _ _ _ back => by cases back
  rw [recalled_append, recalled_cons, recalled_append, recalled_cons] at steady here
  have one : [a].Sublist (recalled (remember (recalled [] front) (visit a)) between) :=
    sublist_recalled (List.sublist_append_right _ _) fun c member => by
      rw [List.mem_singleton.mp member]
      rintro ⟨places, inside, named⟩
      exact first ⟨places, List.mem_append_left _ inside, named⟩
  generalize recalled (remember (recalled [] front) (visit a)) between = memory at one steady here
  have two : [a, b].Sublist (recalled (remember memory (visit b)) behind) :=
    sublist_recalled (one.append (List.Sublist.refl [b])) fun c member => by
      rcases List.mem_cons.mp member with rfl | member
      · rintro ⟨places, inside, named⟩
        exact first ⟨places, List.mem_append_right _ inside, named⟩
      · rw [List.mem_singleton.mp member]
        exact second
  rcases here with ended | absent
  · obtain ⟨earlier, same⟩ := List.getLast?_eq_some_iff.mp ended
    rw [same] at two steady
    rcases (concat_sublist_concat (l := [a])).mp two with front | ⟨met, -⟩
    · exact steady a b different (front.append (List.Sublist.refl [a]))
    · exact different met.symm
  · exact absent (two.subset List.mem_cons_self)

/-- Whoever is returned to was forgotten in between, or what was visited then was. -/
def NoReturn (log : List (Visit α)) : Prop :=
  ∀ a b, a ≠ b → ∀ front between behind later : List (Visit α),
    log = front ++ visit a :: (between ++ visit b :: (behind ++ visit a :: later)) →
      Forgets (between ++ behind) a ∨ Forgets behind b

theorem Permitted.noReturn (permitted : Permitted [] log) : NoReturn log := by
  rintro a b different front between behind later rfl
  exact permitted.forgets different

/-! ## Stretches -/

/-- The places visited before anything is forgotten, and those between one loss of
    memory and the next. -/
def stretches : List (Visit α) → List (List α)
  | [] => [[]]
  | visit a :: log =>
      match stretches log with
      | [] => [[a]]
      | first :: rest => (a :: first) :: rest
  | forget _ :: log => [] :: stretches log

omit [DecidableEq α] in
theorem exists_stretches (log : List (Visit α)) : ∃ first rest, stretches log = first :: rest := by
  cases log with
  | nil => exact ⟨[], [], rfl⟩
  | cons v log =>
      cases v with
      | forget places => exact ⟨[], stretches log, rfl⟩
      | visit a =>
          rw [stretches]
          split
          · exact ⟨_, _, rfl⟩
          · exact ⟨_, _, rfl⟩

omit [DecidableEq α] in
theorem stretches_replicate {first : List α} {rest : List (List α)} (n : Nat)
    (later : stretches log = first :: rest) :
    stretches (List.replicate n (visit a) ++ log) = (List.replicate n a ++ first) :: rest := by
  induction n with
  | zero => exact later
  | succ n ih => rw [List.replicate_succ, List.cons_append, stretches, ih]; rfl

/-- Whether visiting `a` changes the place. -/
def leaving : Option α → α → Nat
  | none, _ => 0
  | some b, a => if b = a then 0 else 1

/-- How often the place changes, from `current` on. -/
def changes : Option α → List α → Nat
  | _, [] => 0
  | current, a :: rest => leaving current a + changes (some a) rest

theorem changes_replicate (n : Nat) (current : Option α) (visited : List α) :
    changes current (List.replicate (n + 1) a ++ visited) =
      leaving current a + changes (some a) visited := by
  induction n generalizing current with
  | zero => rfl
  | succ n ih =>
      rw [List.replicate_succ, List.cons_append, changes, ih]
      simp [leaving]

theorem changes_none_le (visited : List α) (current : Option α) :
    changes none visited ≤ changes current visited := by
  cases visited with
  | nil => exact Nat.le_refl _
  | cons a rest => exact Nat.add_le_add_right (Nat.zero_le _) _

/-- Each place other than the current one takes a change. -/
theorem card_erase_le_changes (visited : List α) :
    (visited.toFinset.erase a).card ≤ changes (some a) visited := by
  induction visited generalizing a with
  | nil => simp
  | cons b rest ih =>
      have later := @ih b
      rw [List.toFinset_cons, changes, leaving]
      split
      next same =>
        rw [same, Finset.erase_insert_eq_erase]
        omega
      next other =>
        have inside : (insert b rest.toFinset).erase a ⊆ insert b (rest.toFinset.erase b) := by
          intro c member
          obtain ⟨-, member⟩ := Finset.mem_erase.mp member
          by_cases same : c = b
          · exact same ▸ Finset.mem_insert_self _ _
          · have old := (Finset.mem_insert.mp member).resolve_left same
            exact Finset.mem_insert_of_mem (Finset.mem_erase.mpr ⟨same, old⟩)
        have counted := (Finset.card_le_card inside).trans (Finset.card_insert_le _ _)
        omega

/-- As many places at most as changes, and the first. -/
theorem card_le_changes (visited : List α) : visited.toFinset.card ≤ changes none visited + 1 := by
  cases visited with
  | nil => simp
  | cons a rest =>
      have others := card_erase_le_changes (a := a) rest
      have first := Finset.card_erase_add_one (Finset.mem_insert_self a rest.toFinset)
      rw [Finset.erase_insert_eq_erase] at first
      rw [List.toFinset_cons, changes, leaving]
      omega

end Visit
