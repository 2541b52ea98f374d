import Mathlib.Data.List.Basic
import Mathlib.Data.Nat.ModEq

/-! # Ring buffers

Entry number `n` of a history is kept in cell `n` modulo the number of cells,
where it stays until the history has gone once round.  What can be read back is
the end of the history.
-/

namespace RingBuffer

variable {α : Type*}

/-- The cells hold what the history ends with. -/
def Recent (cells history : List α) : Prop :=
  ∀ n < history.length, history.length ≤ n + cells.length →
    cells[n % cells.length]? = history[n]?

theorem recent_nil (cells : List α) : Recent cells [] := by
  intro n inside
  cases inside

/-- The next entry takes the place of the oldest. -/
theorem Recent.push {cells history : List α} (recent : Recent cells history) (x : α) :
    Recent (cells.set (history.length % cells.length) x) (history ++ [x]) := by
  intro n inside kept
  simp only [List.length_append, List.length_singleton, List.length_set] at inside kept ⊢
  have room : 0 < cells.length := by omega
  by_cases newest : n = history.length
  · subst newest
    rw [List.getElem?_set_self (Nat.mod_lt _ room), List.getElem?_concat_length]
  · have older : n < history.length := by omega
    have apart : history.length % cells.length ≠ n % cells.length := by
      intro same
      have divides := (Nat.modEq_iff_dvd' older.le).mp same.symm
      have far := Nat.le_of_dvd (by omega) divides
      omega
    rw [List.getElem?_set_ne apart, List.getElem?_append_left older]
    exact recent n older (by omega)

end RingBuffer
