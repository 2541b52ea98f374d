import Mathlib.Data.List.Basic

/-! # Rows of fields

A table written as one text: a mark between the fields of a row and another
mark after every row.  Where no field holds either mark the rows can be read
back, whatever they are long.
-/

namespace Separators

variable {α : Type}

def writeRow (between closing : α) (row : List (List α)) : List α :=
  [between].intercalate row ++ [closing]

def writeRows (between closing : α) (rows : List (List (List α))) : List α :=
  rows.flatMap (writeRow between closing)

/-- Every row has a field, and no field holds a mark. -/
def Clean (between closing : α) (rows : List (List (List α))) : Prop :=
  ∀ row ∈ rows, row ≠ [] ∧ ∀ field ∈ row, between ∉ field ∧ closing ∉ field

theorem mem_intercalate {sep c : α} (fields : List (List α))
    (member : c ∈ [sep].intercalate fields) :
    c = sep ∨ ∃ field ∈ fields, c ∈ field := by
  induction fields with
  | nil => cases member
  | cons field fields ih =>
      cases fields with
      | nil => exact .inr ⟨field, List.mem_cons_self, by simpa using member⟩
      | cons next later =>
          rw [List.intercalate_cons_cons, List.mem_append, List.mem_append] at member
          rcases member with (here | mark) | rest
          · exact .inr ⟨field, List.mem_cons_self, here⟩
          · exact .inl (List.mem_singleton.mp mark)
          · exact (ih rest).imp_right fun ⟨other, place, inside⟩ =>
              ⟨other, List.mem_cons_of_mem _ place, inside⟩

/-- The last row is followed by nothing. -/
theorem writeRows_eq_intercalate (between closing : α) (rows : List (List (List α))) :
    writeRows between closing rows =
      [closing].intercalate (rows.map ([between].intercalate ·) ++ [[]]) := by
  induction rows with
  | nil => rfl
  | cons row rows ih =>
      rw [List.map_cons, List.cons_append, List.intercalate_cons_of_ne_nil (by simp), ← ih,
        writeRows, List.flatMap_cons, writeRow, writeRows]

variable [DecidableEq α]

theorem splitOn_writeRows {between closing : α} (distinct : closing ≠ between)
    {rows : List (List (List α))} (clean : Clean between closing rows) :
    (writeRows between closing rows).splitOn closing =
      rows.map ([between].intercalate ·) ++ [[]] := by
  rw [writeRows_eq_intercalate]
  refine List.splitOn_intercalate closing (fun line place held => ?_) (by simp)
  rcases List.mem_append.mp place with place | last
  · obtain ⟨row, inTable, rfl⟩ := List.mem_map.mp place
    rcases mem_intercalate row held with mark | ⟨field, inRow, inside⟩
    · exact distinct mark
    · exact ((clean row inTable).2 field inRow).2 inside
  · obtain rfl := List.mem_singleton.mp last
    cases held

theorem map_splitOn {between closing : α} {rows : List (List (List α))}
    (clean : Clean between closing rows) :
    (rows.map ([between].intercalate ·)).map (List.splitOn between) = rows := by
  rw [List.map_map]
  calc rows.map (List.splitOn between ∘ ([between].intercalate ·)) = rows.map id :=
        List.map_congr_left fun row inTable =>
          List.splitOn_intercalate between
            (fun field inRow => ((clean row inTable).2 field inRow).1) (clean row inTable).1
    _ = rows := List.map_id rows

/-- Clean tables with the same text have the same rows. -/
theorem writeRows_injective {between closing : α} (distinct : closing ≠ between)
    {rows rows' : List (List (List α))} (clean : Clean between closing rows)
    (clean' : Clean between closing rows')
    (same : writeRows between closing rows = writeRows between closing rows') : rows = rows' := by
  have lines : rows.map ([between].intercalate ·) ++ [[]] =
      rows'.map ([between].intercalate ·) ++ [[]] := by
    rw [← splitOn_writeRows distinct clean, ← splitOn_writeRows distinct clean', same]
  rw [← map_splitOn clean, ← map_splitOn clean', List.append_cancel_right lines]

end Separators
