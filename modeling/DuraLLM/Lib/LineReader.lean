import Mathlib.Data.List.Basic
import Mathlib.Data.List.TakeWhile

/-! # Reading lines from chunks

A stream arrives in chunks that are cut anywhere.  A reader keeps what follows
the last line end in a buffer, and takes the lines in front of it one by one.
It may refuse a line: then it puts the line back, perhaps trimmed, and waits
for more.  A line that was put back is refused again whenever it is met, so
the events and the state do not depend on where the stream was cut.
-/

/-- How a reader takes one line, without its end. -/
structure LineReader (α σ ε : Type*) where
  newline : α
  take : σ → List α → Except (List α) (List ε × σ)
  putBack : ∀ {s line back}, take s line = .error back → newline ∉ line →
    newline ∉ back ∧ ∃ again, take s back = .error again

namespace LineReader

variable {α σ ε : Type*} [DecidableEq α]

/-- What a reader has given so far, and what it holds on to. -/
structure Reading (α σ ε : Type*) where
  events : List ε
  state : σ
  buffer : List α

variable (r : LineReader α σ ε)

/-- As long as there is a line end in the buffer, take the line in front of it. -/
def drain (s : σ) (buffer : List α) : Reading α σ ε :=
  match _cut : buffer.dropWhile (· ≠ r.newline) with
  | [] => ⟨[], s, buffer⟩
  | _ :: tail =>
      match r.take s (buffer.takeWhile (· ≠ r.newline)) with
      | .error back => ⟨[], s, back ++ r.newline :: tail⟩
      | .ok (events, s') =>
          let later := drain s' tail
          { later with events := events ++ later.events }
termination_by buffer.length
decreasing_by
  have shorter := (List.dropWhile_suffix (l := buffer) (· ≠ r.newline)).length_le
  rw [_cut, List.length_cons] at shorter
  omega

/-- Each chunk is put behind what is left of those before it. -/
def feedAll (s : σ) (buffer : List α) : List (List α) → Reading α σ ε
  | [] => ⟨[], s, buffer⟩
  | chunk :: chunks =>
      let first := r.drain s (buffer ++ chunk)
      let later := feedAll first.state first.buffer chunks
      { later with events := first.events ++ later.events }

/-- What can be seen of a reading: the events, and the state they leave. -/
def Reading.outcome (reading : Reading α σ ε) : List ε × σ := (reading.events, reading.state)

/-! ## Line by line -/

theorem lines_induction (newline : α) {motive : List α → Prop}
    (unfinished : ∀ buffer, newline ∉ buffer → motive buffer)
    (line : ∀ line tail, newline ∉ line → motive tail → motive (line ++ newline :: tail))
    (buffer : List α) : motive buffer := by
  by_cases ends : newline ∈ buffer
  · obtain ⟨first, tail, rfl, clean⟩ := List.eq_append_cons_of_mem ends
    exact line first tail clean (lines_induction newline unfinished line tail)
  · exact unfinished buffer ends
termination_by buffer.length

theorem drain_unfinished (s : σ) {buffer : List α} (unfinished : r.newline ∉ buffer) :
    r.drain s buffer = ⟨[], s, buffer⟩ := by
  have inside : ∀ x ∈ buffer, decide (x ≠ r.newline) = true := fun x member =>
    decide_eq_true fun same => unfinished (same ▸ member)
  rw [drain]
  split
  · rfl
  · next other tail cut =>
    have none : buffer.dropWhile (· ≠ r.newline) = [] := List.dropWhile_eq_nil_iff.mpr inside
    cases none.symm.trans cut

theorem drain_line (s : σ) {line : List α} (tail : List α) (clean : r.newline ∉ line) :
    r.drain s (line ++ r.newline :: tail) =
      match r.take s line with
      | .error back => ⟨[], s, back ++ r.newline :: tail⟩
      | .ok (events, s') =>
          { r.drain s' tail with events := events ++ (r.drain s' tail).events } := by
  have inside : ∀ x ∈ line, decide (x ≠ r.newline) = true := fun x member =>
    decide_eq_true fun same => clean (same ▸ member)
  have rest : (line ++ r.newline :: tail).dropWhile (· ≠ r.newline) = r.newline :: tail := by
    rw [List.dropWhile_append_of_pos inside, List.dropWhile_cons_of_neg (by simp)]
  have first : (line ++ r.newline :: tail).takeWhile (· ≠ r.newline) = line := by
    rw [List.takeWhile_append_of_pos inside, List.takeWhile_cons_of_neg (by simp),
      List.append_nil]
  rw [drain]
  split
  · next cut => cases rest.symm.trans cut
  · next other tail' cut =>
    obtain ⟨-, rfl⟩ := List.cons.inj (rest.symm.trans cut)
    rw [first]

/-- Reading may stop anywhere and go on later. -/
theorem drain_resume (s : σ) (before after : List α) :
    (r.drain s (before ++ after)).outcome =
      ((r.drain s before).events ++
          (r.drain (r.drain s before).state ((r.drain s before).buffer ++ after)).events,
        (r.drain (r.drain s before).state ((r.drain s before).buffer ++ after)).state) := by
  induction before using lines_induction r.newline generalizing s with
  | unfinished before unfinished => rw [r.drain_unfinished s unfinished]; rfl
  | line line tail clean ih =>
      rw [List.append_assoc, List.cons_append, r.drain_line s _ clean, r.drain_line s _ clean]
      cases taken : r.take s line with
      | error back =>
          obtain ⟨cleanBack, again, refused⟩ := r.putBack taken clean
          simp only [List.append_assoc, List.cons_append, r.drain_line s _ cleanBack, refused]
          rfl
      | ok out =>
          obtain ⟨events, s'⟩ := out
          have later := ih s'
          simp only [Reading.outcome, Prod.mk.injEq] at later ⊢
          simp only [later, List.append_assoc, and_self]

/-- Nothing more comes out of what a reading has left in the buffer. -/
theorem drain_idle (s : σ) (buffer : List α) :
    (r.drain (r.drain s buffer).state (r.drain s buffer).buffer).outcome =
      ([], (r.drain s buffer).state) := by
  have whole := r.drain_resume s buffer []
  simp only [List.append_nil, Reading.outcome, Prod.mk.injEq, List.self_eq_append_right] at whole
  simp only [Reading.outcome, Prod.mk.injEq]
  exact ⟨whole.1, whole.2.symm⟩

/-- However the stream was cut, the reader gives what it gives for the whole. -/
theorem feedAll_outcome (chunks : List (List α)) (s : σ) (buffer : List α)
    (idle : (r.drain s buffer).outcome = ([], s)) :
    (r.feedAll s buffer chunks).outcome = (r.drain s (buffer ++ chunks.flatten)).outcome := by
  induction chunks generalizing s buffer with
  | nil => simpa [feedAll, Reading.outcome, eq_comm] using idle
  | cons chunk chunks ih =>
      have later := ih _ _ (r.drain_idle s (buffer ++ chunk))
      rw [List.flatten_cons, ← List.append_assoc, r.drain_resume]
      simp only [Reading.outcome, Prod.mk.injEq] at later
      simp only [feedAll, Reading.outcome, later.1, later.2]

/-! ## The lines of a stream -/

/-- The lines that have ended. -/
def finishedLines (newline : α) (stream : List α) : List (List α) :=
  (stream.splitOn newline).dropLast

/-- What follows the last line end. -/
def unfinishedLine (newline : α) (stream : List α) : List α :=
  (stream.splitOn newline).getLastD []

theorem finishedLines_line {newline : α} {line : List α} (clean : newline ∉ line) (tail : List α) :
    finishedLines newline (line ++ newline :: tail) = line :: finishedLines newline tail := by
  obtain ⟨next, lines, same⟩ := List.exists_cons_of_ne_nil (List.splitOn_ne_nil newline tail)
  simp only [finishedLines, List.splitOn_append_cons_self, List.splitOn_eq_singleton clean, same,
    List.singleton_append, List.dropLast_cons_cons]

/-- Take the lines in turn, up to the first that is refused. -/
def takeAll (s : σ) : List (List α) → List ε × σ
  | [] => ([], s)
  | line :: lines =>
      match r.take s line with
      | .error _ => ([], s)
      | .ok (events, s') =>
          let later := takeAll s' lines
          (events ++ later.1, later.2)

theorem drain_takeAll (s : σ) (stream : List α) :
    (r.drain s stream).outcome = r.takeAll s (finishedLines r.newline stream) := by
  induction stream using lines_induction r.newline generalizing s with
  | unfinished stream unfinished =>
      rw [r.drain_unfinished s unfinished, finishedLines, List.splitOn_eq_singleton unfinished]
      rfl
  | line line tail clean ih =>
      rw [finishedLines_line clean, takeAll, r.drain_line s tail clean]
      cases r.take s line with
      | error back => rfl
      | ok out =>
          have later := ih out.2
          simp only [Reading.outcome] at later ⊢
          simp only [← later]

/-- From an empty buffer, the chunks give what their finished lines give. -/
theorem feedAll_takeAll (s : σ) (chunks : List (List α)) :
    (r.feedAll s [] chunks).outcome = r.takeAll s (finishedLines r.newline chunks.flatten) := by
  have idle : (r.drain s []).outcome = ([], s) := by
    rw [r.drain_unfinished s List.not_mem_nil]
    rfl
  rw [r.feedAll_outcome chunks s [] idle, List.nil_append, drain_takeAll]

end LineReader
