import Mathlib.Data.List.Basic
import Mathlib.Data.List.Nodup

/-! # Keyed events in the order of their last occurrence

A store of limited size keeps the newer end of that order: what is missing from
it has expired, or enough newer keys have come up since.
-/

namespace Recency

variable {K V : Type*} [DecidableEq K]

/-- The key moves to the newer end. -/
def touch (k : K) (v : V) (l : List (K × V)) : List (K × V) :=
  l.filter (fun e => e.1 ≠ k) ++ [(k, v)]

/-- Every key once, with its last value, in the order of the last occurrences. -/
def order (events : List (K × V)) : List (K × V) :=
  events.foldl (fun l e => touch e.1 e.2 l) []

/-- The newer end. -/
def newest (n : Nat) (l : List (K × V)) : List (K × V) := l.drop (l.length - n)

theorem order_snoc (events : List (K × V)) (k : K) (v : V) :
    order (events ++ [(k, v)]) = touch k v (order events) := by
  rw [order, List.foldl_append]
  rfl

/-- A key that is not there is added. -/
theorem touch_of_absent {k : K} {l : List (K × V)} (absent : k ∉ l.map Prod.fst) (v : V) :
    touch k v l = l ++ [(k, v)] := by
  rw [touch, List.filter_eq_self.mpr]
  intro e member
  have other : e.1 ≠ k := fun same => absent (same ▸ List.mem_map_of_mem member)
  simpa using other

theorem touch_append (k : K) (v : V) (older newer : List (K × V)) :
    touch k v (older ++ newer) = older.filter (fun e => e.1 ≠ k) ++ touch k v newer := by
  rw [touch, touch, List.filter_append, List.append_assoc]

theorem touch_nodup {l : List (K × V)} (distinct : (l.map Prod.fst).Nodup) (k : K) (v : V) :
    ((touch k v l).map Prod.fst).Nodup := by
  rw [touch, List.map_append, List.nodup_append]
  refine ⟨distinct.sublist (List.filter_sublist.map Prod.fst), by simp, ?_⟩
  intro key member other single
  obtain ⟨e, kept, same⟩ := List.mem_map.mp member
  have away := (List.mem_filter.mp kept).2
  simp only [List.map_cons, List.map_nil, List.mem_singleton] at single
  rw [← same, single]
  simpa using away

/-- With distinct keys at most one entry makes room. -/
theorem length_filter_ge {k : K} {l : List (K × V)} (distinct : (l.map Prod.fst).Nodup) :
    l.length ≤ (l.filter fun e => e.1 ≠ k).length + 1 := by
  induction l with
  | nil => simp
  | cons e l ih =>
      rw [List.map_cons, List.nodup_cons] at distinct
      by_cases same : e.1 = k
      · have absent : k ∉ l.map Prod.fst := same ▸ distinct.1
        have kept : (l.filter fun e => e.1 ≠ k) = l := by
          rw [List.filter_eq_self]
          intro other member
          have different : other.1 ≠ k := fun same => absent (same ▸ List.mem_map_of_mem member)
          simpa using different
        have longer := @List.length_cons _ e l
        rw [List.filter_cons_of_neg (by simpa using same), kept]
        omega
      · have rest := ih distinct.2
        rw [List.filter_cons_of_pos (by simpa using same), List.length_cons, List.length_cons]
        omega

/-- The store has the newer end of what there was.  What is missing has expired, or
    `n` keys are newer. -/
structure Retains (n : Nat) (expired : V → Prop) (all kept : List (K × V)) : Prop where
  distinct : (all.map Prod.fst).Nodup
  missing : ∃ gone, all = gone ++ kept ∧
    ∀ older e newer, gone = older ++ e :: newer → expired e.2 ∨ n ≤ newer.length + kept.length

namespace Retains

variable {n : Nat} {expired : V → Prop} {all kept : List (K × V)} {k : K}

omit [DecidableEq K] in
theorem nil : Retains n expired ([] : List (K × V)) [] where
  distinct := List.nodup_nil
  missing := ⟨[], rfl, by simp⟩

omit [DecidableEq K] in
theorem imp {later : V → Prop} (retains : Retains n expired all kept)
    (expires : ∀ v, expired v → later v) : Retains n later all kept := by
  obtain ⟨gone, split, reasons⟩ := retains.missing
  refine ⟨retains.distinct, gone, split, fun older e newer here => ?_⟩
  exact (reasons older e newer here).imp_left (expires e.2)

/-- A key that is not in the store comes in at the newer end. -/
theorem store (retains : Retains n expired all kept) (absent : k ∉ kept.map Prod.fst) (v : V) :
    Retains n expired (touch k v all) (kept ++ [(k, v)]) := by
  obtain ⟨gone, split, reasons⟩ := retains.missing
  have distinct := retains.distinct
  rw [split, List.map_append] at distinct
  refine ⟨touch_nodup retains.distinct k v, gone.filter fun e => e.1 ≠ k, ?_, ?_⟩
  · rw [split, touch_append, touch_of_absent absent]
  · intro older e newer here
    obtain ⟨before, behind, same, front, back⟩ := List.filter_eq_append_iff.mp here
    obtain ⟨skipped, after, parts, none, _, rest⟩ := List.filter_eq_cons_iff.mp back
    have inside : gone = (before ++ skipped) ++ e :: after := by
      rw [same, parts, List.append_assoc]
    have room : after.length ≤ newer.length + 1 := by
      rw [← rest]
      apply length_filter_ge
      have all := distinct.sublist (List.sublist_append_left _ _)
      rw [inside, List.map_append, List.map_cons] at all
      exact (List.nodup_append.mp all).2.1.of_cons
    refine (reasons _ e after inside).imp_right fun enough => ?_
    rw [List.length_append, List.length_singleton]
    omega

/-- The newest key of the store stays where it is. -/
theorem renew {front : List (K × V)} {old : V} (retains : Retains n expired all kept)
    (last : kept = front ++ [(k, old)]) (v : V) :
    Retains n expired (touch k v all) (front ++ [(k, v)]) := by
  obtain ⟨gone, split, reasons⟩ := retains.missing
  have distinct := retains.distinct
  have inside : all = (gone ++ front) ++ [(k, old)] := by rw [split, last, List.append_assoc]
  rw [inside, List.map_append, List.nodup_append] at distinct
  have absent : k ∉ (gone ++ front).map Prod.fst :=
    fun member => distinct.2.2 k member k (by simp) rfl
  refine ⟨touch_nodup retains.distinct k v, gone, ?_, ?_⟩
  · rw [inside, touch_append, touch, ← List.append_assoc]
    have others : ((gone ++ front).filter fun e => e.1 ≠ k) = gone ++ front := by
      rw [List.filter_eq_self]
      intro e member
      have different : e.1 ≠ k := fun same => absent (same ▸ List.mem_map_of_mem member)
      simpa using different
    rw [others, List.filter_cons_of_neg (by simp)]
    simp
  · intro older e newer here
    have reason := reasons older e newer here
    rw [last] at reason
    simpa using reason

omit [DecidableEq K] in
/-- Entries may go for two reasons. -/
theorem shrink {less dropped : List (K × V)} (retains : Retains n expired all kept)
    (split : kept = dropped ++ less)
    (reason : ∀ older e newer, dropped = older ++ e :: newer →
      expired e.2 ∨ n ≤ newer.length + less.length) : Retains n expired all less := by
  obtain ⟨gone, whole, reasons⟩ := retains.missing
  refine ⟨retains.distinct, gone ++ dropped, by rw [whole, split, List.append_assoc], ?_⟩
  intro older e newer here
  cases List.append_eq_append_iff.mp here with
  | inl behind =>
      obtain ⟨rest, _, same⟩ := behind
      exact reason rest e newer same
  | inr before =>
      obtain ⟨rest, front, same⟩ := before
      cases rest with
      | nil => exact reason [] e newer (by simpa using same.symm)
      | cons first rest =>
          rw [List.cons_append] at same
          obtain ⟨rfl, back⟩ := List.cons.inj same
          refine (reasons older e rest front).imp_right fun enough => ?_
          rw [split, List.length_append] at enough
          rw [back, List.length_append]
          omega

omit [DecidableEq K] in
theorem dropWhile {p : K × V → Bool} (retains : Retains n expired all kept)
    (old : ∀ e ∈ kept, p e = true → expired e.2) :
    Retains n expired all (kept.dropWhile p) := by
  apply retains.shrink List.takeWhile_append_dropWhile.symm
  intro older e newer here
  have member : e ∈ kept.takeWhile p := by simp [here]
  have passed := List.all_takeWhile (p := p) (l := kept)
  exact .inl (old e ((List.takeWhile_sublist p).mem member) (List.all_eq_true.mp passed e member))

omit [DecidableEq K] in
/-- Only the newest `n` stay. -/
theorem cut (retains : Retains n expired all kept) : Retains n expired all (newest n kept) := by
  apply retains.shrink (List.take_append_drop (kept.length - n) kept).symm
  intro older e newer here
  have counted := congrArg List.length here
  simp only [List.length_take, List.length_append, List.length_cons] at counted
  refine .inr ?_
  rw [List.length_drop]
  omega

omit [DecidableEq K] in
/-- One of the newest `n` is there until it expires. -/
theorem mem {e : K × V} (retains : Retains n expired all kept) (recent : e ∈ newest n all)
    (young : ¬expired e.2) : e ∈ kept := by
  obtain ⟨gone, split, reasons⟩ := retains.missing
  obtain ⟨front, back, parts⟩ := List.append_of_mem recent
  have few : back.length < n := by
    have counted := congrArg List.length parts
    simp only [newest, List.length_drop, List.length_append, List.length_cons] at counted
    omega
  have whole : all = (all.take (all.length - n) ++ front) ++ e :: back := by
    rw [List.append_assoc, ← parts, newest, List.take_append_drop]
  by_contra absent
  rw [split] at whole
  cases List.append_eq_append_iff.mp whole with
  | inl behind =>
      obtain ⟨rest, _, same⟩ := behind
      exact absent (by simp [same])
  | inr before =>
      obtain ⟨rest, inside, same⟩ := before
      cases rest with
      | nil =>
          rw [List.nil_append] at same
          exact absent (same ▸ List.mem_cons_self)
      | cons first rest =>
          rw [List.cons_append] at same
          obtain ⟨rfl, behind⟩ := List.cons.inj same
          cases reasons _ e rest inside with
          | inl old => exact young old
          | inr enough =>
              rw [behind, List.length_append] at few
              omega

end Retains

end Recency
