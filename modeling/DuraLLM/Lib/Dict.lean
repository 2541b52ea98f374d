import Mathlib.Data.List.Nodup
import Mathlib.Data.List.Basic

/-! # Insertion-ordered dictionaries

The associative store of a scripting language: a list of entries in insertion
order whose keys are distinct.  Assigning to a present key replaces the value
in place, assigning to an absent key appends, and the oldest entries are the
ones at the front.  A keyed database table is the same object, with `modify`
and `filter` in the place of `UPDATE` and `DELETE`.

Everything below is stated through `get`, so that later developments never
look at the entry list unless the order itself matters.
-/

structure Dict (K V : Type) where
  entries : List (K × V)
  nodupKeys : (entries.map Prod.fst).Nodup
  deriving DecidableEq

namespace Dict

variable {K V : Type}

@[ext] theorem ext {d e : Dict K V} (same : d.entries = e.entries) : d = e := by
  cases d
  cases e
  simpa using same

def keys (d : Dict K V) : List K := d.entries.map Prod.fst

def values (d : Dict K V) : List V := d.entries.map Prod.snd

def size (d : Dict K V) : Nat := d.entries.length

def empty : Dict K V := ⟨[], by simp⟩

/-- Keep any sublist of the entries. Every removal is an instance of it. -/
def restrict (d : Dict K V) (kept : List (K × V)) (sub : kept.Sublist d.entries) : Dict K V :=
  ⟨kept, (sub.map Prod.fst).nodup d.nodupKeys⟩

def filter (d : Dict K V) (p : K → V → Bool) : Dict K V :=
  d.restrict (d.entries.filter fun e => p e.1 e.2) List.filter_sublist

theorem filter_filter (d : Dict K V) (p q : K → V → Bool) :
    (d.filter p).filter q = d.filter fun k v => q k v && p k v := by
  apply ext
  simp only [filter, restrict, List.filter_filter]

/-- Drop entries from the old end while they satisfy `p`. -/
def dropOldWhile (d : Dict K V) (p : V → Bool) : Dict K V :=
  d.restrict (d.entries.dropWhile fun e => p e.2) (List.dropWhile_sublist _)

/-- Keep at most the `n` newest entries. -/
def keepNewest (d : Dict K V) (n : Nat) : Dict K V :=
  d.restrict (d.entries.drop (d.entries.length - n)) (List.drop_sublist _ _)

/-- Apply `f` to every value; the keys and their order stay. -/
def mapValues (d : Dict K V) (f : K → V → V) : Dict K V :=
  ⟨d.entries.map fun e => (e.1, f e.1 e.2), by
    simpa only [List.map_map, Function.comp_def] using d.nodupKeys⟩

/-- An entry that `p` spares keeps everything newer than it. -/
theorem dropOldWhile_split {d : Dict K V} {p : V → Bool} {older newer : List (K × V)} {k : K} {v : V}
    (split : d.entries = older ++ (k, v) :: newer) (spared : p v = false) :
    ∃ rest, (d.dropOldWhile p).entries = rest ++ (k, v) :: newer := by
  simp only [dropOldWhile, restrict, split]
  clear split
  induction older with
  | nil => exact ⟨[], by simp [spared]⟩
  | cons e rest ih =>
      by_cases dropped : p e.2 = true
      · simpa [List.dropWhile_cons, dropped] using ih
      · exact ⟨e :: rest, by simp [dropped]⟩

theorem keepNewest_split {d : Dict K V} {n : Nat} {older newer : List (K × V)} {k : K} {v : V}
    (split : d.entries = older ++ (k, v) :: newer) (room : newer.length < n) :
    ∃ rest, (d.keepNewest n).entries = rest ++ (k, v) :: newer := by
  simp only [keepNewest, restrict, split]
  refine ⟨older.drop (older.length + (newer.length + 1) - n), ?_⟩
  rw [List.drop_append_of_le_length (by simp only [List.length_append, List.length_cons]; omega)]
  simp only [List.length_append, List.length_cons]

theorem newer_lt_size {d : Dict K V} {older newer : List (K × V)} {e : K × V}
    (split : d.entries = older ++ e :: newer) : newer.length < d.size := by
  simp only [size, split, List.length_append, List.length_cons]
  omega

theorem size_keepNewest_le (d : Dict K V) (n : Nat) : (d.keepNewest n).size ≤ n := by
  simp only [size, keepNewest, restrict, List.length_drop]
  omega

variable [DecidableEq K]

def get (d : Dict K V) (k : K) : Option V := d.entries.lookup k

def contains (d : Dict K V) (k : K) : Bool := (d.get k).isSome

def erase (d : Dict K V) (k : K) : Dict K V := d.filter fun key _ => key ≠ k

/-- Apply `f` to the value under `k`, when there is one. -/
def modify (d : Dict K V) (k : K) (f : V → V) : Dict K V :=
  d.mapValues fun key v => if key = k then f v else v

private theorem lookup_none {l : List (K × V)} {k : K} (absent : k ∉ l.map Prod.fst) :
    l.lookup k = none := by
  induction l with
  | nil => rfl
  | cons e rest ih =>
      obtain ⟨key, value⟩ := e
      simp only [List.map_cons, List.mem_cons, not_or] at absent
      simp only [List.lookup_cons, beq_eq_false_iff_ne.mpr absent.1, ih absent.2]

theorem get_eq_none_iff {d : Dict K V} {k : K} : d.get k = none ↔ k ∉ d.keys := by
  constructor
  · intro missing member
    obtain ⟨e, inside, rfl⟩ := List.mem_map.mp member
    have found : (d.entries.lookup e.1).isSome := by
      rw [List.lookup_isSome_iff]
      exact ⟨e, inside, by simp⟩
    simp only [get] at missing
    rw [missing] at found
    cases found
  · exact lookup_none

/-- Assign `v` to `k`: in place when `k` is present, at the end otherwise. -/
def set (d : Dict K V) (k : K) (v : V) : Dict K V :=
  if absent : k ∉ d.keys then
    ⟨d.entries ++ [(k, v)], by
      simpa only [List.map_append, List.map_cons, List.map_nil, List.nodup_append,
        List.nodup_singleton, List.mem_singleton] using
        ⟨d.nodupKeys, trivial, fun a ha b hb => by
          subst hb
          exact fun same => absent (same ▸ ha)⟩⟩
  else
    d.modify k fun _ => v

/-- Assign `v` to `k` unless `k` is present, as `INSERT OR IGNORE` does. -/
def insertNew (d : Dict K V) (k : K) (v : V) : Dict K V :=
  if d.contains k then d else d.set k v

@[simp] theorem get_empty (k : K) : (empty : Dict K V).get k = none := rfl

theorem get_mapValues (d : Dict K V) (f : K → V → V) (k : K) :
    (d.mapValues f).get k = (d.get k).map (f k) := by
  simp only [get, mapValues]
  induction d.entries with
  | nil => rfl
  | cons e rest ih =>
      obtain ⟨key, value⟩ := e
      simp only [List.map_cons, List.lookup_cons]
      by_cases same : k = key
      · subst same
        simp
      · simp only [beq_eq_false_iff_ne.mpr same, ih]

theorem get_filter (d : Dict K V) (p : K → V → Bool) (k : K) :
    (d.filter p).get k = (d.get k).filter (p k) := by
  obtain ⟨l, nodup⟩ := d
  simp only [get, filter, restrict]
  induction l with
  | nil => rfl
  | cons e rest ih =>
      obtain ⟨key, value⟩ := e
      simp only [List.map_cons, List.nodup_cons] at nodup
      by_cases same : k = key
      · subst same
        by_cases kept : p k value = true
        · simp [kept, Option.filter]
        · have missing : rest.lookup k = none := lookup_none nodup.1
          simp [kept, ih nodup.2, missing, Option.filter]
      · have ne : (k == key) = false := beq_eq_false_iff_ne.mpr same
        by_cases kept : p key value = true
        · simp only [List.filter_cons, kept, if_true, List.lookup_cons, ne, ih nodup.2]
        · simp only [List.filter_cons, kept, Bool.false_eq_true, if_false, List.lookup_cons, ne,
            ih nodup.2]

@[simp] theorem get_modify_self (d : Dict K V) (k : K) (f : V → V) :
    (d.modify k f).get k = (d.get k).map f := by
  simp [modify, get_mapValues]

theorem get_modify_ne (d : Dict K V) {k other : K} (f : V → V) (ne : other ≠ k) :
    (d.modify k f).get other = d.get other := by
  simp [modify, get_mapValues, ne]

theorem get_modify (d : Dict K V) (k other : K) (f : V → V) :
    (d.modify k f).get other = if other = k then (d.get k).map f else d.get other := by
  split
  next same => rw [same, get_modify_self]
  next ne => exact get_modify_ne d f ne

theorem get_erase_ne (d : Dict K V) {k other : K} (ne : other ≠ k) :
    (d.erase k).get other = d.get other := by
  cases found : d.get other <;> simp [erase, get_filter, found, ne]

theorem get_set (d : Dict K V) (k other : K) (v : V) :
    (d.set k v).get other = if other = k then some v else d.get other := by
  unfold set
  split
  next absent =>
    simp only [get, List.lookup_append]
    split
    next same =>
      subst same
      simp [lookup_none (l := d.entries) absent]
    next ne => simp [beq_eq_false_iff_ne.mpr ne, List.lookup_cons]
  next present =>
    rw [get_modify]
    split
    next same =>
      have known : d.get k ≠ none := fun missing => present (get_eq_none_iff.mp missing)
      cases found : d.get k with
      | none => exact absurd found known
      | some old => rfl
    next => rfl

@[simp] theorem get_set_self (d : Dict K V) (k : K) (v : V) : (d.set k v).get k = some v := by
  simp [get_set]

theorem get_set_ne (d : Dict K V) {k other : K} (v : V) (ne : other ≠ k) :
    (d.set k v).get other = d.get other := by
  simp [get_set, ne]

@[simp] theorem get_insertNew_self (d : Dict K V) (k : K) (v : V) :
    (d.insertNew k v).get k = some ((d.get k).getD v) := by
  unfold insertNew contains
  cases found : d.get k <;> simp [found]

theorem get_insertNew_ne (d : Dict K V) {k other : K} (v : V) (ne : other ≠ k) :
    (d.insertNew k v).get other = d.get other := by
  unfold insertNew
  split
  · rfl
  · exact get_set_ne d v ne

/-- What is present stays. -/
theorem get_insertNew_of_some {d : Dict K V} {k other : K} {v old : V}
    (found : d.get other = some old) : (d.insertNew k v).get other = some old := by
  by_cases same : other = k
  · subst same
    simp [found]
  · rw [get_insertNew_ne d v same, found]

/-- With distinct keys an entry and a successful lookup are the same thing. -/
theorem mem_entries_iff {d : Dict K V} {k : K} {v : V} :
    (k, v) ∈ d.entries ↔ d.get k = some v := by
  obtain ⟨l, nodup⟩ := d
  simp only [get]
  induction l with
  | nil => simp
  | cons e rest ih =>
      obtain ⟨key, value⟩ := e
      simp only [List.map_cons, List.nodup_cons] at nodup
      simp only [List.mem_cons, List.lookup_cons]
      by_cases same : k = key
      · subst same
        simp only [beq_self_eq_true, Option.some.injEq, Prod.mk.injEq, true_and]
        constructor
        · rintro (here | there)
          · exact here.symm
          · exact absurd (List.mem_map.mpr ⟨_, there, rfl⟩) nodup.1
        · intro here
          exact .inl here.symm
      · simp only [beq_eq_false_iff_ne.mpr same, ih nodup.2]
        constructor
        · rintro (here | there)
          · exact absurd (congrArg Prod.fst here) same
          · exact there
        · exact .inr

theorem mem_values_iff {d : Dict K V} {v : V} : v ∈ d.values ↔ ∃ k, d.get k = some v := by
  constructor
  · intro member
    obtain ⟨⟨k, value⟩, inside, rfl⟩ := List.mem_map.mp member
    exact ⟨k, mem_entries_iff.mp inside⟩
  · rintro ⟨k, found⟩
    exact List.mem_map.mpr ⟨(k, v), mem_entries_iff.mpr found, rfl⟩

theorem get_of_split {d : Dict K V} {older newer : List (K × V)} {k : K} {v : V}
    (split : d.entries = older ++ (k, v) :: newer) : d.get k = some v :=
  mem_entries_iff.mp (split ▸ List.mem_append_right _ List.mem_cons_self)

theorem exists_split {d : Dict K V} {k : K} {v : V} (found : d.get k = some v) :
    ∃ older newer, d.entries = older ++ (k, v) :: newer :=
  List.append_of_mem (mem_entries_iff.mpr found)

theorem set_entries_of_absent {d : Dict K V} {k : K} (absent : d.get k = none) (v : V) :
    (d.set k v).entries = d.entries ++ [(k, v)] := by
  simp only [set, dif_pos (get_eq_none_iff.mp absent)]

/-- A key that is there keeps its place. -/
theorem set_entries_of_split {d : Dict K V} {older newer : List (K × V)} {k : K} {old : V}
    (split : d.entries = older ++ (k, old) :: newer) (v : V) :
    (d.set k v).entries = older ++ (k, v) :: newer := by
  have distinct := d.nodupKeys
  rw [split, List.map_append, List.map_cons, List.nodup_append, List.nodup_cons] at distinct
  obtain ⟨_, ⟨later, _⟩, apart⟩ := distinct
  have unchanged : ∀ l : List (K × V), k ∉ l.map Prod.fst →
      l.map (fun e => (e.1, if e.1 = k then v else e.2)) = l := by
    intro l absent
    refine (List.map_congr_left fun e inside => ?_).trans (List.map_id _)
    have other : e.1 ≠ k := fun same => absent (same ▸ List.mem_map_of_mem (f := Prod.fst) inside)
    simp [other]
  have present : k ∈ d.keys := by simp [keys, split]
  have overwritten : d.set k v = d.modify k fun _ => v := dif_neg (not_not.mpr present)
  simp only [overwritten, modify, mapValues, split, List.map_append, List.map_cons, if_true]
  rw [unchanged older fun member => apart k member k List.mem_cons_self rfl, unchanged newer later]

theorem values_set_of_absent {d : Dict K V} {k : K} (absent : d.get k = none) (v : V) :
    (d.set k v).values = d.values ++ [v] := by
  simp only [values, set_entries_of_absent absent, List.map_append, List.map_cons, List.map_nil]

/-- The last assignment counts. -/
theorem set_set (d : Dict K V) (k : K) (v w : V) : (d.set k v).set k w = d.set k w := by
  have present : k ∈ (d.set k v).keys := by
    rw [← not_not (a := k ∈ _), ← get_eq_none_iff]
    simp
  have again : (d.set k v).set k w = (d.set k v).modify k fun _ => w := dif_neg (not_not.mpr present)
  rw [again]
  by_cases absent : k ∉ d.keys
  · ext1
    have none : d.get k = none := get_eq_none_iff.mpr absent
    rw [set_entries_of_absent none]
    have others : ∀ e ∈ d.entries, e.1 ≠ k := fun e inside same =>
      absent (List.mem_map.mpr ⟨e, inside, same⟩)
    simp only [modify, mapValues, set_entries_of_absent none, List.map_append, List.map_cons,
      List.map_nil, if_true]
    congr 1
    refine (List.map_congr_left fun e inside => ?_).trans (List.map_id _)
    simp [others e inside]
  · have first : ∀ u, d.set k u = d.modify k fun _ => u := fun u => dif_neg absent
    rw [first, first]
    ext1
    simp only [modify, mapValues, List.map_map]
    refine List.map_congr_left fun e inside => ?_
    by_cases same : e.1 = k <;> simp [same]

@[simp] theorem get_erase_self (d : Dict K V) (k : K) : (d.erase k).get k = none := by
  cases found : d.get k <;> simp [erase, get_filter, found, Option.filter]

theorem erase_of_absent {d : Dict K V} {k : K} (absent : d.get k = none) : d.erase k = d := by
  apply ext
  simp only [erase, filter, restrict, List.filter_eq_self]
  intro e inside
  have apart : e.1 ≠ k := fun same =>
    get_eq_none_iff.mp absent (same ▸ List.mem_map_of_mem (f := Prod.fst) inside)
  simp [apart]

/-- A key that passes is assigned alike before and after. -/
theorem filter_set_of_kept (d : Dict K V) {p : K → Bool} {k : K} (v : V) (kept : p k = true) :
    (d.set k v).filter (fun key _ => p key) = (d.filter fun key _ => p key).set k v := by
  have lookup : (d.filter fun key _ => p key).get k = d.get k := by
    rw [get_filter]
    cases d.get k <;> simp [kept]
  by_cases absent : d.get k = none
  · apply ext
    rw [set_entries_of_absent (lookup.trans absent)]
    simp [filter, restrict, set_entries_of_absent absent, kept]
  · have present : ∀ e : Dict K V, e.get k ≠ none → e.set k v = e.modify k fun _ => v :=
      fun e found => dif_neg fun missing => found (get_eq_none_iff.mpr missing)
    rw [present d absent, present _ (lookup.trans_ne absent)]
    apply ext
    simp only [filter, restrict, modify, mapValues, List.filter_map]
    rfl

/-- A key that does not pass is assigned in vain. -/
theorem filter_set_of_dropped (d : Dict K V) {p : K → Bool} {k : K} (v : V)
    (dropped : p k = false) :
    (d.set k v).filter (fun key _ => p key) = d.filter fun key _ => p key := by
  apply ext
  by_cases absent : d.get k = none
  · simp [filter, restrict, set_entries_of_absent absent, dropped]
  · have present : d.set k v = d.modify k fun _ => v :=
      dif_neg fun missing => absent (get_eq_none_iff.mpr missing)
    rw [present]
    simp only [filter, restrict, modify, mapValues, List.filter_map]
    refine (List.map_congr_left fun e inside => ?_).trans (List.map_id _)
    have passes : p e.1 = true := by simpa using (List.mem_filter.mp inside).2
    have apart : e.1 ≠ k := fun same => by simp [same, dropped] at passes
    simp [apart]

/-- What is erased is all that goes. -/
theorem values_perm_erase {d : Dict K V} {k : K} {v : V} (found : d.get k = some v) :
    d.values.Perm (v :: (d.erase k).values) := by
  obtain ⟨older, newer, split⟩ := exists_split found
  have distinct := d.nodupKeys
  simp only [split, List.map_append, List.map_cons, List.nodup_append, List.nodup_cons] at distinct
  have keeps : ∀ side : List (K × V), k ∉ side.map Prod.fst →
      (side.filter fun e => !decide (e.1 = k)) = side := by
    intro side missing
    refine List.filter_eq_self.mpr fun e inside => ?_
    have apart : e.1 ≠ k := fun same => missing (same ▸ List.mem_map_of_mem (f := Prod.fst) inside)
    simp [apart]
  have before : k ∉ older.map Prod.fst := fun inside => distinct.2.2 k inside k (by simp) rfl
  have remaining : (d.erase k).entries = older ++ newer := by
    simp [erase, filter, restrict, split, keeps older before, keeps newer distinct.2.1.1]
  simp only [values, split, remaining, List.map_append, List.map_cons]
  exact List.perm_middle

@[simp] theorem size_modify (d : Dict K V) (k : K) (f : V → V) : (d.modify k f).size = d.size := by
  simp only [size, modify, mapValues, List.length_map]

private theorem get_restrict {d : Dict K V} {kept : List (K × V)} {sub : kept.Sublist d.entries}
    {k : K} {v : V} (found : (d.restrict kept sub).get k = some v) : d.get k = some v :=
  mem_entries_iff.mp (sub.subset (mem_entries_iff.mpr found))

theorem get_of_dropOldWhile {d : Dict K V} {p : V → Bool} {k : K} {v : V}
    (found : (d.dropOldWhile p).get k = some v) : d.get k = some v :=
  get_restrict found

theorem get_of_keepNewest {d : Dict K V} {n : Nat} {k : K} {v : V}
    (found : (d.keepNewest n).get k = some v) : d.get k = some v :=
  get_restrict found

end Dict
