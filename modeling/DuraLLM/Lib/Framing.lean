import Mathlib.Data.List.Basic
import Mathlib.Data.List.Infix

/-! # Cutting a stream into frames

A stream arrives in chunks, and whoever reads it cuts frames off the front of
what has arrived so far.  A cutter that goes by what it has seen, and does not
think otherwise when more arrives, cuts the same frames however the stream came
in.  Of any other cutter as much can be said on the streams where it agrees
with one that does.
-/

/-- How long the first frame is, once it has arrived. -/
structure Cutter (α : Type*) where
  cut : List α → Option Nat
  positive : ∀ {buffer n}, cut buffer = some n → 0 < n ∧ n ≤ buffer.length

namespace Cutter

variable {α : Type*} (c : Cutter α)

/-- Cut frames off as long as there are any; the rest stays. -/
def drain (buffer : List α) : List (List α) × List α :=
  match _cut : c.cut buffer with
  | none => ([], buffer)
  | some n =>
      let later := drain (buffer.drop n)
      (buffer.take n :: later.1, later.2)
termination_by buffer.length
decreasing_by
  have inside := c.positive _cut
  rw [List.length_drop]
  omega

/-- Each chunk is put behind what is left of those before it. -/
def feedAll (buffer : List α) : List (List α) → List (List α) × List α
  | [] => ([], buffer)
  | chunk :: chunks =>
      let first := c.drain (buffer ++ chunk)
      let later := feedAll first.2 chunks
      (first.1 ++ later.1, later.2)

/-- What is left over is the last frame. -/
def close (cut : List (List α) × List α) : List (List α) :=
  cut.1 ++ if cut.2 = [] then [] else [cut.2]

/-- The frames of a whole stream. -/
def frames (stream : List α) : List (List α) := close (c.drain stream)

/-- More that arrives does not change where the first frame ends. -/
def Steady : Prop := ∀ {buffer n}, c.cut buffer = some n → ∀ more, c.cut (buffer ++ more) = some n

theorem drain_none {buffer : List α} (none : c.cut buffer = none) : c.drain buffer = ([], buffer) := by
  rw [drain]
  split
  · rfl
  · next n cut => cases none.symm.trans cut

theorem drain_some {buffer : List α} {n : Nat} (first : c.cut buffer = some n) :
    c.drain buffer =
      (buffer.take n :: (c.drain (buffer.drop n)).1, (c.drain (buffer.drop n)).2) := by
  rw [drain]
  split
  · next cut => cases first.symm.trans cut
  · next m cut =>
    obtain rfl := Option.some.inj (first.symm.trans cut)
    rfl

/-- One frame after another, and what is left in the end. -/
theorem drain_induction {motive : List α → Prop}
    (idle : ∀ buffer, c.cut buffer = none → motive buffer)
    (frame : ∀ buffer n, c.cut buffer = some n → motive (buffer.drop n) → motive buffer)
    (buffer : List α) : motive buffer := by
  cases first : c.cut buffer with
  | none => exact idle buffer first
  | some n => exact frame buffer n first (drain_induction idle frame (buffer.drop n))
termination_by buffer.length
decreasing_by
  have inside := c.positive first
  rw [List.length_drop]
  omega

theorem frames_some {buffer : List α} {n : Nat} (first : c.cut buffer = some n) :
    c.frames buffer = buffer.take n :: c.frames (buffer.drop n) := by
  simp only [frames, close, c.drain_some first, List.cons_append]

/-! ## Nothing is lost -/

theorem drain_flatten (buffer : List α) :
    (c.drain buffer).1.flatten ++ (c.drain buffer).2 = buffer := by
  induction buffer using c.drain_induction with
  | idle buffer none => rw [c.drain_none none]; rfl
  | frame buffer n first ih =>
      rw [c.drain_some first]
      simp only [List.flatten_cons, List.append_assoc, ih, List.take_append_drop]

theorem feedAll_flatten (buffer : List α) (chunks : List (List α)) :
    (c.feedAll buffer chunks).1.flatten ++ (c.feedAll buffer chunks).2 =
      buffer ++ chunks.flatten := by
  induction chunks generalizing buffer with
  | nil => simp [feedAll]
  | cons chunk chunks ih =>
      rw [feedAll, List.flatten_append, List.append_assoc, ih, ← List.append_assoc, drain_flatten]
      simp

theorem close_flatten (cut : List (List α) × List α) : (close cut).flatten = cut.1.flatten ++ cut.2 := by
  unfold close
  split
  · next empty => simp [empty]
  · simp

/-! ## Chunks -/

/-- Nothing more can be cut off what is left. -/
theorem drain_idle (buffer : List α) : c.cut (c.drain buffer).2 = none := by
  induction buffer using c.drain_induction with
  | idle buffer none => rw [c.drain_none none]; exact none
  | frame buffer n first ih => rw [c.drain_some first]; exact ih

variable {c}

theorem Steady.drain_append (steady : c.Steady) (before after : List α) :
    c.drain (before ++ after) =
      ((c.drain before).1 ++ (c.drain ((c.drain before).2 ++ after)).1,
        (c.drain ((c.drain before).2 ++ after)).2) := by
  induction before using c.drain_induction with
  | idle before none => rw [c.drain_none none]; rfl
  | frame before n first ih =>
      have inside := (c.positive first).2
      rw [c.drain_some (steady first after), c.drain_some first, List.take_append_of_le_length inside,
        List.drop_append_of_le_length inside, ih]
      rfl

/-- The frames do not depend on where the stream was cut. -/
theorem Steady.feedAll (steady : c.Steady) (chunks : List (List α)) {buffer : List α}
    (idle : c.cut buffer = none) :
    c.feedAll buffer chunks = c.drain (buffer ++ chunks.flatten) := by
  induction chunks generalizing buffer with
  | nil => rw [Cutter.feedAll, List.flatten_nil, List.append_nil, c.drain_none idle]
  | cons chunk chunks ih =>
      rw [Cutter.feedAll, ih (c.drain_idle _), List.flatten_cons, ← List.append_assoc,
        steady.drain_append (buffer ++ chunk)]

/-! ## Cutters that agree -/

section Agreement

variable {other : Cutter α} {fine : List α → Prop}
  (part : ∀ {whole part}, fine whole → part <:+: whole → fine part)
  (agree : ∀ {buffer}, fine buffer → other.cut buffer = c.cut buffer)

include part agree

theorem drain_agree {buffer : List α} (good : fine buffer) : other.drain buffer = c.drain buffer := by
  induction buffer using c.drain_induction with
  | idle buffer none => rw [c.drain_none none, other.drain_none ((agree good).trans none)]
  | frame buffer n first ih =>
      rw [c.drain_some first, other.drain_some ((agree good).trans first),
        ih (part good (List.drop_suffix n buffer).isInfix)]

/-- Where two cutters agree on every part of a stream, they cut the same frames. -/
theorem feedAll_agree (chunks : List (List α)) {buffer : List α}
    (good : fine (buffer ++ chunks.flatten)) :
    other.feedAll buffer chunks = c.feedAll buffer chunks := by
  induction chunks generalizing buffer with
  | nil => rfl
  | cons chunk chunks ih =>
      rw [List.flatten_cons, ← List.append_assoc] at good
      have here : fine (buffer ++ chunk) := part good (List.infix_append' [] _ _)
      have rest : (c.drain (buffer ++ chunk)).2 <:+ buffer ++ chunk :=
        ⟨(c.drain (buffer ++ chunk)).1.flatten, c.drain_flatten _⟩
      have later : fine ((c.drain (buffer ++ chunk)).2 ++ chunks.flatten) := by
        obtain ⟨front, same⟩ := rest
        rw [← same, List.append_assoc] at good
        exact part good (List.suffix_append front _).isInfix
      rw [feedAll, feedAll, drain_agree part agree here, ih later]

end Agreement

end Cutter
