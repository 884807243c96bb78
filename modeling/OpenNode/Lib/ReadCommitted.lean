import Mathlib

namespace ReadCommitted

variable {α β κ : Type*} [DecidableEq κ]

/-- A column as a statement leaves it: only a column that the transaction
changed is set. -/
def column [DecidableEq β] (seen mine current : β) : β :=
  if mine = seen then current else mine

@[simp] theorem column_self [DecidableEq β] (seen mine : β) : column seen mine seen = mine := by
  unfold column
  split
  · rename_i same
    exact same.symm
  · rfl

/-- The rows of a table after a transaction that saw `seen` and made `mine` of
it: rows that it inserted, rows that it saw and kept, with the columns it set,
and rows that others have inserted since. -/
def mergeRows (key : α → κ) (columns : α → α → α → α) (seen mine current : List α) : List α :=
  (mine.filterMap fun row =>
    match seen.find? (key · = key row) with
    | none => some row
    | some old => (current.find? (key · = key row)).map (columns old row)) ++
  current.filter fun row => (seen.find? (key · = key row)).isNone

theorem mergeRows_self {key : α → κ} {columns : α → α → α → α} (sets : ∀ seen mine, columns seen mine seen = mine)
    (seen mine : List α) : mergeRows key columns seen mine seen = mine := by
  have written : (mine.filterMap fun row =>
      match seen.find? (key · = key row) with
      | none => some row
      | some old => (seen.find? (key · = key row)).map (columns old row)) = mine.filterMap some := by
    refine List.filterMap_congr fun row _ => ?_
    cases found : seen.find? (key · = key row) with
    | none => rfl
    | some old => exact congrArg some (sets old row)
  have nothing : seen.filter (fun row => (seen.find? (key · = key row)).isNone) = [] := by
    refine List.filter_eq_nil_iff.mpr fun row here => ?_
    have found : (seen.find? (key · = key row)).isSome := List.find?_isSome.mpr ⟨row, here, decide_eq_true rfl⟩
    simp [Option.isSome_iff_ne_none.mp found]
  unfold mergeRows
  rw [written, nothing, List.append_nil, List.filterMap_some]

end ReadCommitted
