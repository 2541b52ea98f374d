import Mathlib.Data.List.Basic

/-! # Going around in a circle

A cursor goes around `n` places, each time to the next one that is free, and
gives up after so many places.  It starts before the first place.  A place
that is always free is reached in no more stops than there are places,
whichever others are free when the cursor gets there.
-/

namespace RoundRobin

def advance (n : Nat) (i : Int) : Int := (i + 1) % n

/-- Look at up to `fuel` places after `i`. -/
def seek (n : Nat) (free : Nat → Int → Bool) : Nat → Nat → Int → Option Int × Int
  | 0, _, i => (none, i)
  | fuel + 1, attempt, i =>
      if free attempt (advance n i) then (some (advance n i), advance n i)
      else seek n free fuel (attempt + 1) (advance n i)

/-- Where a cursor may stand. -/
structure Inside (n : Nat) (i : Int) : Prop where
  lower : -1 ≤ i
  upper : i < n

/-- How many places on the place `k` comes. -/
def distance (n : Nat) (i k : Int) : Int := if i < k then k - i else k - i + n

variable {n : Nat} {i j k : Int}

theorem Inside.advance_eq (inside : Inside n i) :
    advance n i = if i + 1 < n then i + 1 else 0 := by
  obtain ⟨lower, upper⟩ := inside
  unfold advance
  split_ifs with next
  · exact Int.emod_eq_of_lt (by omega) next
  · rw [show i + 1 = (n : Int) by omega, Int.emod_self]

theorem Inside.advance (inside : Inside n i) (some_place : 0 < n) :
    Inside n (advance n i) := by
  rw [inside.advance_eq]
  obtain ⟨lower, upper⟩ := inside
  constructor <;> split_ifs <;> omega

theorem advance_nonneg (some_place : 0 < n) (i : Int) : 0 ≤ advance n i :=
  Int.emod_nonneg _ (by omega)

theorem Inside.distance_pos (inside : Inside n i) (place : 0 ≤ k) : 1 ≤ distance n i k := by
  obtain ⟨lower, upper⟩ := inside
  unfold distance
  split_ifs <;> omega

theorem Inside.distance_le (inside : Inside n i) (bound : k < n) : distance n i k ≤ n := by
  obtain ⟨lower, upper⟩ := inside
  unfold distance
  split_ifs <;> omega

/-- One place on, the place `k` is reached or one place nearer. -/
theorem Inside.distance_advance (inside : Inside n i) (place : 0 ≤ k) (bound : k < n) :
    RoundRobin.advance n i = k ∨
      distance n (RoundRobin.advance n i) k + 1 = distance n i k := by
  rw [inside.advance_eq]
  obtain ⟨lower, upper⟩ := inside
  unfold distance
  split_ifs <;> omega

/-- The cursor moves from `i` to `j` and does not pass by `k`. -/
structure Nears (n : Nat) (k i j : Int) : Prop where
  inside : Inside n j
  nearer : j = k ∨ distance n j k < distance n i k

/-- While `k` is free, a search that is long enough stops there or before. -/
theorem seek_nears {free : Nat → Int → Bool} (place : 0 ≤ k) (bound : k < n)
    (here : ∀ attempt, free attempt k = true) {fuel : Nat} (attempt : Nat) (inside : Inside n i)
    (enough : distance n i k ≤ fuel) :
    ∃ j, seek n free fuel attempt i = (some j, j) ∧ Nears n k i j := by
  induction fuel generalizing attempt i with
  | zero =>
      have := inside.distance_pos (k := k) place
      omega
  | succ fuel ih =>
      have next := inside.advance (by omega)
      rw [seek]
      rcases inside.distance_advance place bound with reached | nearer
      · rw [reached, if_pos (here attempt)]
        exact ⟨k, rfl, reached ▸ next, .inl rfl⟩
      · split_ifs
        · exact ⟨_, rfl, next, .inr (by omega)⟩
        · obtain ⟨j, found, stop, last⟩ := ih (attempt + 1) next (by omega)
          exact ⟨j, found, stop, last.imp_right fun less => by omega⟩

theorem seek_inside {free : Nat → Int → Bool} (some_place : 0 < n) (fuel attempt : Nat)
    (inside : Inside n i) : Inside n (seek n free fuel attempt i).2 := by
  induction fuel generalizing attempt i with
  | zero => exact inside
  | succ fuel ih =>
      rw [seek]
      split_ifs
      · exact inside.advance some_place
      · exact ih (attempt + 1) (inside.advance some_place)

/-- What a search finds is free, and the cursor stays there. -/
theorem seek_some {free : Nat → Int → Bool} {fuel attempt : Nat}
    (found : (seek n free fuel attempt i).1 = some j) :
    (seek n free fuel attempt i).2 = j ∧ ∃ later, free later j = true := by
  induction fuel generalizing attempt i with
  | zero => cases found
  | succ fuel ih =>
      rw [seek] at found ⊢
      split_ifs at found ⊢ with free_here
      · obtain rfl := Option.some.inj found
        exact ⟨rfl, attempt, free_here⟩
      · exact ih found

/-- The stops of a cursor that never passes by `k`. -/
def Rounds (n : Nat) (k : Int) : Int → List Int → Prop
  | _, [] => True
  | i, j :: stops => Nears n k i j ∧ Rounds n k j stops

/-- It stops at `k` before it has gone around once. -/
theorem Rounds.mem {stops : List Int} (rounds : Rounds n k i stops) (place : 0 ≤ k)
    (inside : Inside n i) (enough : distance n i k ≤ stops.length) : k ∈ stops := by
  induction stops generalizing i with
  | nil =>
      have := inside.distance_pos place
      simp only [List.length_nil] at enough
      omega
  | cons j stops ih =>
      obtain ⟨⟨stop, nearer⟩, rest⟩ := rounds
      rcases nearer with rfl | nearer
      · exact List.mem_cons_self
      · simp only [List.length_cons] at enough
        exact List.mem_cons_of_mem _ (ih rest stop (by omega))

end RoundRobin
