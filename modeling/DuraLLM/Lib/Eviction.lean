import Mathlib.Data.List.Basic
import Mathlib.Data.List.Forall2

/-! # Eviction from the middle of a list

A list that is too large loses the entry at one fixed position, again and
again, until it is small enough or has come down to a bound.  What is left is
the list without a block of entries that begins at the position.
-/

namespace Eviction

variable {α : Type*}

/-- Pop at `start` while the list is longer than `bound` and too large; `none`
    where there is no entry to pop. -/
def evict (tooLarge : List α → Bool) (bound : Int) (start : Nat) :
    Nat → List α → Option (List α)
  | 0, xs => some xs
  | fuel + 1, xs =>
      if bound < xs.length ∧ tooLarge xs then
        if start < xs.length then evict tooLarge bound start fuel (xs.eraseIdx start) else none
      else some xs

/-- The list without `k` entries from `start` on. -/
def without (start k : Nat) (xs : List α) : List α := xs.take start ++ xs.drop (start + k)

@[simp] theorem without_zero (start : Nat) (xs : List α) : without start 0 xs = xs := by
  simp [without]

theorem length_without {start k : Nat} {xs : List α} (inside : start + k ≤ xs.length) :
    (without start k xs).length = xs.length - k := by
  simp only [without, List.length_append, List.length_take, List.length_drop]
  omega

theorem eraseIdx_eq_without (start : Nat) (xs : List α) : xs.eraseIdx start = without start 1 xs :=
  List.eraseIdx_eq_take_drop_succ xs start

theorem without_of_short {start : Nat} {xs : List α} (short : xs.length ≤ start) (k : Nat) :
    without start k xs = xs := by
  rw [without, List.take_of_length_le short, List.drop_eq_nil_of_le (by omega), List.append_nil]

theorem without_without (start k j : Nat) (xs : List α) :
    without start j (without start k xs) = without start (k + j) xs := by
  by_cases inside : start ≤ xs.length
  · have front : (xs.take start).length = start := by rw [List.length_take, Nat.min_eq_left inside]
    simp only [without]
    congr 1
    · rw [List.take_append_of_le_length (Nat.le_of_eq front.symm), List.take_take, Nat.min_self]
    · rw [List.drop_append, List.drop_eq_nil_of_le (by omega), front, List.nil_append,
        List.drop_drop]
      congr 1
      omega
  · have short : xs.length ≤ start := by omega
    rw [without_of_short short, without_of_short short, without_of_short short]

/-- Nothing changes in front of the block. -/
theorem getElem?_without {start i : Nat} (early : i < start) (k : Nat) (xs : List α) :
    (without start k xs)[i]? = xs[i]? := by
  by_cases inside : i < (xs.take start).length
  · rw [without, List.getElem?_append_left inside, List.getElem?_take_of_lt early]
  · have beyond : xs.length ≤ i := by
      rw [List.length_take] at inside
      omega
    rw [without_of_short (by omega)]

theorem getLast?_without {start k : Nat} {xs : List α} (inside : start + k < xs.length) :
    (without start k xs).getLast? = xs.getLast? := by
  have some : xs.drop (start + k) ≠ [] := by
    rw [List.ne_nil_iff_length_pos, List.length_drop]
    omega
  rw [without, List.getLast?_append_of_ne_nil _ some, List.getLast?_drop, if_neg (by omega)]

theorem mem_without_iff {start k : Nat} {xs : List α} {x : α} :
    x ∈ without start k xs ↔ ∃ i, xs[i]? = some x ∧ ¬(start ≤ i ∧ i < start + k) := by
  rw [without, List.mem_append]
  simp only [List.mem_iff_getElem?]
  constructor
  · rintro (⟨i, found⟩ | ⟨i, found⟩)
    · have early : i < start := by
        by_contra late
        rw [List.getElem?_take_eq_none (by omega)] at found
        cases found
      rw [List.getElem?_take_of_lt early] at found
      exact ⟨i, found, by omega⟩
    · rw [List.getElem?_drop] at found
      exact ⟨start + k + i, found, by omega⟩
  · rintro ⟨i, found, outside⟩
    by_cases early : i < start
    · exact .inl ⟨i, by rw [List.getElem?_take_of_lt early, found]⟩
    · exact .inr ⟨i - (start + k), by rw [List.getElem?_drop, ← found]; congr 1; omega⟩

theorem without_sublist (start k : Nat) (xs : List α) : (without start k xs).Sublist xs := by
  calc xs.take start ++ xs.drop (start + k)
      |>.Sublist (xs.take start ++ xs.drop start) := by
        apply List.Sublist.append_left
        rw [← List.drop_drop]
        exact List.drop_sublist k _
    _ = xs := List.take_append_drop start xs

/-- Lists that agree place by place still do without the same block. -/
theorem forall₂_without {β : Type*} {R : α → β → Prop} {xs : List α} {ys : List β}
    (related : List.Forall₂ R xs ys) (start k : Nat) :
    List.Forall₂ R (without start k xs) (without start k ys) :=
  List.rel_append (List.forall₂_take start related) (List.forall₂_drop (start + k) related)

theorem forall₂_comp {β γ : Type*} {R : α → β → Prop} {S : β → γ → Prop} {T : α → γ → Prop}
    (compose : ∀ x y z, R x y → S y z → T x z) {xs : List α} {ys : List β} {zs : List γ}
    (left : List.Forall₂ R xs ys) (right : List.Forall₂ S ys zs) : List.Forall₂ T xs zs := by
  induction left generalizing zs with
  | nil =>
      rw [List.forall₂_nil_left_iff] at right
      exact right ▸ .nil
  | cons related _ ih =>
      obtain ⟨z, rest, again, others, rfl⟩ := List.forall₂_cons_left_iff.mp right
      exact .cons (compose _ _ _ related again) (ih others)

theorem forall₂_getLast? {β : Type*} {R : α → β → Prop} {xs : List α} {ys : List β}
    (related : List.Forall₂ R xs ys) {x : α} (last : xs.getLast? = some x) :
    ∃ y, ys.getLast? = some y ∧ R x y := by
  have backwards := List.forall₂_reverse_iff.mpr related
  rw [List.getLast?_eq_head?_reverse] at last
  rw [List.getLast?_eq_head?_reverse]
  generalize xs.reverse = front at backwards last
  generalize ys.reverse = back at backwards
  cases backwards with
  | nil => cases last
  | cons here _ =>
      obtain rfl := Option.some.inj last
      exact ⟨_, rfl, here⟩

theorem forall₂_of_sublist {β : Type*} {R : α → β → Prop} {xs : List α} {ys some : List β}
    (related : List.Forall₂ R xs ys) (sub : some.Sublist ys) :
    ∃ kept, kept.Sublist xs ∧ List.Forall₂ R kept some := by
  induction sub generalizing xs with
  | slnil => exact ⟨[], List.nil_sublist xs, .nil⟩
  | cons y _ ih =>
      obtain ⟨x, rest, -, others, rfl⟩ := List.forall₂_cons_right_iff.mp related
      obtain ⟨kept, sub, same⟩ := ih others
      exact ⟨kept, sub.cons x, same⟩
  | cons_cons y _ ih =>
      obtain ⟨x, rest, here, others, rfl⟩ := List.forall₂_cons_right_iff.mp related
      obtain ⟨kept, sub, same⟩ := ih others
      exact ⟨x :: kept, sub.cons_cons x, .cons here same⟩

theorem forall₂_mapIdx {R : α → α → Prop} {f : Nat → α → α} {xs : List α}
    (each : ∀ i x, xs[i]? = some x → R x (f i x)) : List.Forall₂ R xs (xs.mapIdx f) := by
  induction xs generalizing f with
  | nil => exact .nil
  | cons x xs ih =>
      rw [List.mapIdx_cons]
      refine .cons (each 0 x rfl) (ih fun i y found => each (i + 1) y ?_)
      rwa [List.getElem?_cons_succ]

/-- The outcome of an eviction: the first list in the row that is not too large,
    or that has come down to the bound. -/
structure Evicted (tooLarge : List α → Bool) (bound : Int) (start : Nat) (xs ys : List α)
    (k : Nat) : Prop where
  eq : ys = without start k xs
  inside : k ≠ 0 → start + k ≤ xs.length
  done : (ys.length : Int) ≤ bound ∨ tooLarge ys = false
  before : ∀ j < k, bound < (without start j xs).length ∧ tooLarge (without start j xs) = true

theorem evict_evicted {tooLarge : List α → Bool} {bound : Int} {start fuel : Nat} {xs ys : List α}
    (enough : xs.length < fuel) (ended : evict tooLarge bound start fuel xs = some ys) :
    ∃ k, Evicted tooLarge bound start xs ys k := by
  induction fuel generalizing xs with
  | zero => omega
  | succ fuel ih =>
      rw [evict] at ended
      split at ended
      · next more =>
        split at ended
        · next inside =>
          have shorter : (xs.eraseIdx start).length = xs.length - 1 :=
            List.length_eraseIdx_of_lt inside
          obtain ⟨k, same, room, done, before⟩ := ih (by omega) ended
          rw [eraseIdx_eq_without] at same room before shorter
          have steps : ∀ j, without start j (without start 1 xs) = without start (j + 1) xs := by
            intro j
            rw [without_without, Nat.add_comm]
          refine ⟨k + 1, same.trans (steps k), ?_, done, ?_⟩
          · intro _
            by_cases none : k = 0
            · omega
            · have bounded := room none
              omega
          · intro j early
            cases j with
            | zero => rw [without_zero]; exact more
            | succ j =>
                have earlier := before j (by omega)
                rw [steps] at earlier
                exact earlier
        · cases ended
      · next done =>
        obtain rfl : xs = ys := Option.some.inj ended
        refine ⟨0, (without_zero start xs).symm, fun some => absurd rfl some, ?_, fun j early => ?_⟩
        · by_cases long : bound < xs.length
          · exact .inr (Bool.eq_false_iff.mpr fun large => done ⟨long, large⟩)
          · exact .inl (by omega)
        · omega

/-- Where the bound is not below the position there is always an entry to pop. -/
theorem evict_isSome {tooLarge : List α → Bool} {bound : Int} {start : Nat}
    (above : (start : Int) ≤ bound) (fuel : Nat) (xs : List α) :
    (evict tooLarge bound start fuel xs).isSome := by
  induction fuel generalizing xs with
  | zero => rfl
  | succ fuel ih =>
      rw [evict]
      split
      · next more =>
        rw [if_pos (by omega)]
        exact ih _
      · rfl

/-- Every eviction stopped short of the last entries that the bound leaves. -/
theorem Evicted.room {tooLarge : List α → Bool} {bound : Int} {start k : Nat} {xs ys : List α}
    (evicted : Evicted tooLarge bound start xs ys k) (above : (start : Int) < bound)
    (some : k ≠ 0) : start + k < xs.length := by
  have whole := evicted.inside some
  have long := (evicted.before (k - 1) (by omega)).1
  rw [length_without (by omega)] at long
  omega

/-- The entry at this distance behind the position is popped: with every row of
    pops that does not come to it, too much is left. -/
def Taken (tooLarge : List α → Bool) (bound : Int) (start : Nat) (xs : List α) (j : Nat) : Prop :=
  ∀ i ≤ j, bound < (without start i xs).length ∧ tooLarge (without start i xs) = true

theorem Evicted.taken_iff {tooLarge : List α → Bool} {bound : Int} {start k : Nat} {xs ys : List α}
    (evicted : Evicted tooLarge bound start xs ys k) (j : Nat) :
    Taken tooLarge bound start xs j ↔ j < k := by
  constructor
  · intro taken
    by_contra late
    obtain ⟨long, large⟩ := taken k (by omega)
    rw [← evicted.eq] at long large
    rcases evicted.done with short | small
    · omega
    · rw [small] at large
      cases large
  · intro early i le
    exact evicted.before i (by omega)

/-- The number of entries after which an eviction stops. -/
def Stops (tooLarge : List α → Bool) (bound : Int) (start : Nat) (xs : List α) (k : Nat) : Prop :=
  (∀ j < k, bound < (without start j xs).length ∧ tooLarge (without start j xs) = true) ∧
    ((without start k xs).length ≤ bound ∨ tooLarge (without start k xs) = false)

theorem Evicted.stops {tooLarge : List α → Bool} {bound : Int} {start k : Nat} {xs ys : List α}
    (evicted : Evicted tooLarge bound start xs ys k) : Stops tooLarge bound start xs k :=
  ⟨evicted.before, evicted.eq ▸ evicted.done⟩

theorem Stops.unique {tooLarge : List α → Bool} {bound : Int} {start k j : Nat} {xs : List α}
    (first : Stops tooLarge bound start xs k) (second : Stops tooLarge bound start xs j) :
    k = j := by
  have later : ∀ {k j}, Stops tooLarge bound start xs k → Stops tooLarge bound start xs j →
      ¬k < j := by
    intro k j stops goes less
    obtain ⟨long, large⟩ := goes.1 k less
    rcases stops.2 with short | small
    · omega
    · rw [small] at large
      cases large
  have one := later first second
  have two := later second first
  omega

section Loops

variable {tooLarge : List α → Bool} {bound low : Int} {start k j : Nat} {xs ys zs : List α}

theorem Evicted.length_eq (evicted : Evicted tooLarge bound start xs ys k) :
    ys.length = xs.length - k := by
  rw [evicted.eq]
  by_cases none : k = 0
  · rw [none, without_zero, Nat.sub_zero]
  · exact length_without (evicted.inside none)

/-- Nothing is popped from a list that is small. -/
theorem Evicted.none (small : tooLarge xs = false) : Evicted tooLarge bound start xs xs 0 where
  eq := (without_zero start xs).symm
  inside some := absurd rfl some
  done := .inr small
  before j early := by omega

/-- An eviction goes on where one with a higher bound has stopped. -/
theorem Evicted.trans (below : low ≤ bound) (first : Evicted tooLarge bound start xs ys k)
    (second : Evicted tooLarge low start ys zs j) :
    Evicted tooLarge low start xs zs (k + j) where
  eq := by rw [second.eq, first.eq, without_without]
  inside _ := by
    have count := first.length_eq
    by_cases here : k = 0
    · by_cases there : j = 0
      · omega
      · have inside := second.inside there
        omega
    · have inside := first.inside here
      by_cases there : j = 0
      · omega
      · have room := second.inside there
        omega
  done := second.done
  before i early := by
    by_cases soon : i < k
    · obtain ⟨long, large⟩ := first.before i soon
      exact ⟨by omega, large⟩
    · have step := second.before (i - k) (by omega)
      rwa [first.eq, without_without, show k + (i - k) = i by omega] at step

/-- What is popped later on is popped by the whole. -/
theorem Taken.behind (below : low ≤ bound) (first : Evicted tooLarge bound start xs ys k)
    (taken : Taken tooLarge low start ys j) : Taken tooLarge low start xs (k + j) := by
  intro i le
  by_cases soon : i < k
  · obtain ⟨long, large⟩ := first.before i soon
    exact ⟨by omega, large⟩
  · have step := taken (i - k) (by omega)
    rwa [first.eq, without_without, show k + (i - k) = i by omega] at step

theorem Taken.lower (below : low ≤ bound) (taken : Taken tooLarge bound start xs j) :
    Taken tooLarge low start xs j := by
  intro i le
  obtain ⟨long, large⟩ := taken i le
  exact ⟨by omega, large⟩

/-- An eviction that finds no entry to pop has come to the end of the list. -/
theorem evict_none {fuel : Nat} (enough : xs.length < fuel) (inside : start ≤ xs.length)
    (failed : evict tooLarge bound start fuel xs = .none) :
    Taken tooLarge bound start xs (xs.length - start) := by
  induction fuel generalizing xs with
  | zero => omega
  | succ fuel ih =>
      rw [evict] at failed
      split at failed
      · next more =>
        split at failed
        · next room =>
          have shorter : (xs.eraseIdx start).length = xs.length - 1 :=
            List.length_eraseIdx_of_lt room
          have rest := ih (by omega) (by omega) failed
          rw [eraseIdx_eq_without] at rest shorter
          intro i le
          cases i with
          | zero =>
              rw [without_zero]
              exact more
          | succ i =>
              have step := rest i (by omega)
              rwa [without_without, Nat.add_comm] at step
        · intro i le
          obtain rfl : i = 0 := by omega
          rw [without_zero]
          exact more
      · cases failed

end Loops

end Eviction
