import DuraLLM.Lib.Eviction

/-! # Calls and their results

A history is matched when every result is for a call in front of it and every
call has a result behind it.  A history that loses a block of its entries stays
matched unless the block severs a call from its result.
-/

/-- The calls an entry makes and the calls it has results for. -/
structure CallEntry (Id : Type*) where
  calls : List Id
  results : List Id

namespace CallEntry

open Eviction

variable {Id : Type*}

def Matched (xs : List (CallEntry Id)) : Prop :=
  ∀ front x back, xs = front ++ x :: back →
    (∀ id ∈ x.results, ∃ y ∈ front, id ∈ y.calls) ∧ ∀ id ∈ x.calls, ∃ y ∈ back, id ∈ y.results

/-- Behind the block there is a result for calls of the block only, or in front
    of it a call whose results are all in the block. -/
def Severs (front block back : List (CallEntry Id)) : Prop :=
  (∃ early x late, back = early ++ x :: late ∧ ∃ id ∈ x.results,
      (∃ y ∈ block, id ∈ y.calls) ∧ ∀ y ∈ front ++ early, id ∉ y.calls) ∨
    ∃ early x late, front = early ++ x :: late ∧ ∃ id ∈ x.calls,
      (∃ y ∈ block, id ∈ y.results) ∧ ∀ y ∈ late ++ back, id ∉ y.results

variable {front block back : List (CallEntry Id)}

theorem Matched.not_severs (matched : Matched (front ++ back)) : ¬Severs front block back := by
  rintro (⟨early, x, late, rfl, id, result, -, apart⟩ | ⟨early, x, late, rfl, id, call, -, apart⟩)
  · obtain ⟨y, member, made⟩ := (matched (front ++ early) x late (by simp)).1 id result
    exact apart y member made
  · obtain ⟨y, member, answered⟩ := (matched early x (late ++ back) (by simp)).2 id call
    exact apart y member answered

/-- An entry behind the block keeps its pairs. -/
theorem matched_behind (matched : Matched (front ++ block ++ back)) (whole : ¬Severs front block back)
    {early late : List (CallEntry Id)} {x : CallEntry Id} (split : back = early ++ x :: late) :
    (∀ id ∈ x.results, ∃ y ∈ front ++ early, id ∈ y.calls) ∧
      ∀ id ∈ x.calls, ∃ y ∈ late, id ∈ y.results := by
  subst split
  obtain ⟨results, calls⟩ := matched (front ++ block ++ early) x late (by simp)
  refine ⟨fun id result => ?_, calls⟩
  by_contra none
  obtain ⟨y, member, made⟩ := results id result
  simp only [not_exists, not_and] at none
  have inside : y ∈ block := by
    by_contra outside
    refine none y ?_ made
    simp only [List.mem_append] at member ⊢
    tauto
  exact whole (.inl ⟨early, x, late, rfl, id, result, ⟨y, inside, made⟩, none⟩)

/-- An entry in front of the block keeps its pairs. -/
theorem matched_before (matched : Matched (front ++ block ++ back)) (whole : ¬Severs front block back)
    {early late : List (CallEntry Id)} {x : CallEntry Id} (split : front = early ++ x :: late) :
    (∀ id ∈ x.results, ∃ y ∈ early, id ∈ y.calls) ∧
      ∀ id ∈ x.calls, ∃ y ∈ late ++ back, id ∈ y.results := by
  subst split
  obtain ⟨results, calls⟩ := matched early x (late ++ block ++ back) (by simp)
  refine ⟨results, fun id call => ?_⟩
  by_contra none
  obtain ⟨y, member, answered⟩ := calls id call
  simp only [not_exists, not_and] at none
  have inside : y ∈ block := by
    by_contra outside
    refine none y ?_ answered
    simp only [List.mem_append] at member ⊢
    tauto
  exact whole (.inr ⟨early, x, late, rfl, id, call, ⟨y, inside, answered⟩, none⟩)

theorem matched_append_iff (matched : Matched (front ++ block ++ back)) :
    Matched (front ++ back) ↔ ¬Severs front block back := by
  constructor
  · exact Matched.not_severs
  · intro whole f x b split
    rcases List.append_eq_append_iff.mp split with ⟨early, rfl, there⟩ | ⟨late, here, there⟩
    · exact matched_behind matched whole there
    · cases late with
      | nil =>
          have first : back = [] ++ x :: b := there.symm
          have behind := matched_behind matched whole first
          rw [List.append_nil] at behind here
          exact here ▸ behind
      | cons y late =>
          obtain ⟨rfl, rfl⟩ := List.cons.inj there
          exact matched_before matched whole here

/-- The block of `k` entries behind the first `start` severs no call from its
    result. -/
def CutsClean (start : Nat) (xs : List (CallEntry Id)) (k : Nat) : Prop :=
  ¬Severs (xs.take start) ((xs.drop start).take k) (xs.drop (start + k))

/-- What evicting a block of `k` entries does to a matched history. -/
theorem matched_without_iff {xs : List (CallEntry Id)} (matched : Matched xs) (start k : Nat) :
    Matched (without start k xs) ↔ CutsClean start xs k := by
  have parts : xs = xs.take start ++ (xs.drop start).take k ++ xs.drop (start + k) := by
    rw [List.append_assoc, ← List.drop_drop, List.take_append_drop, List.take_append_drop]
  rw [parts] at matched
  exact matched_append_iff matched

end CallEntry
