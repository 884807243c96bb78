import Mathlib

namespace Rows

open Function List

variable {α κ : Type*}

/-- `UPDATE ... SET ... WHERE ...`. -/
def update (selects : α → Bool) (set : α → α) (rows : List α) : List α :=
  rows.map fun row => if selects row then set row else row

section Update
variable {selects : α → Bool} {set : α → α} {rows : List α}

variable {row : α}

theorem mem_update (here : row ∈ update selects set rows) :
    ∃ old ∈ rows, (selects old = true ∧ row = set old) ∨ (selects old = false ∧ row = old) := by
  obtain ⟨old, before, rfl⟩ := List.mem_map.mp here
  refine ⟨old, before, ?_⟩
  cases selected : selects old with
  | true => exact Or.inl ⟨rfl, if_pos rfl⟩
  | false => exact Or.inr ⟨rfl, if_neg nofun⟩

theorem update_selected (here : row ∈ rows) (selected : selects row = true) : set row ∈ update selects set rows :=
  List.mem_map.mpr ⟨row, here, if_pos selected⟩

theorem update_other (here : row ∈ rows) (other : selects row = false) : row ∈ update selects set rows :=
  List.mem_map.mpr ⟨row, here, by rw [other]; rfl⟩

variable {key : α → κ}

theorem keys_update (keeps : ∀ row, key (set row) = key row) :
    (update selects set rows).map key = rows.map key := by
  rw [update, map_map]
  refine map_congr_left fun row _ => ?_
  simp only [comp_apply]
  split
  · exact keeps row
  · rfl

theorem nodup_update (keeps : ∀ row, key (set row) = key row) (distinct : (rows.map key).Nodup) :
    ((update selects set rows).map key).Nodup := by
  rw [keys_update keeps]
  exact distinct

variable {p : α → Bool}

theorem filter_update_le (drops : ∀ row, selects row = true → p (set row) = true → p row = true) :
    ((update selects set rows).filter p).length ≤ (rows.filter p).length := by
  rw [update, filter_map, length_map]
  refine (monotone_filter_right rows fun row kept => ?_).length_le
  simp only [comp_apply] at kept
  split at kept
  · rename_i selected
    exact drops row selected kept
  · exact kept

theorem filter_update_lt (drops : ∀ row, selects row = true → p (set row) = true → p row = true) (here : row ∈ rows)
    (selected : selects row = true) (was : p row = true) (gone : p (set row) = false) :
    ((update selects set rows).filter p).length < (rows.filter p).length := by
  induction rows with
  | nil => exact absurd here not_mem_nil
  | cons head rows ih =>
    have rest : ((update selects set rows).filter p).length ≤ (rows.filter p).length := filter_update_le drops
    have kept : p (if selects head = true then set head else head) = true → p head = true := by
      split
      · exact drops head ‹_›
      · exact id
    simp only [update, map_cons, filter_cons] at rest ih ⊢
    rcases List.mem_cons.mp here with rfl | later
    · simp only [selected, was, gone, if_true, Bool.false_eq_true, if_false, length_cons]
      omega
    · have fewer := ih later
      by_cases after : p (if selects head = true then set head else head) = true
      · rw [if_pos after, if_pos (kept after), length_cons, length_cons]
        omega
      · rw [if_neg after]
        split
        · rw [length_cons]
          omega
        · exact fewer

theorem filter_update_out (out : ∀ row ∈ rows, selects row = true → p row = false ∧ p (set row) = false) :
    (update selects set rows).filter p = rows.filter p := by
  induction rows with
  | nil => rfl
  | cons head rows ih =>
    have rest := ih fun row here => out row (mem_cons_of_mem head here)
    rw [update, map_cons, filter_cons, filter_cons]
    by_cases selected : selects head = true
    · obtain ⟨before, after⟩ := out head mem_cons_self selected
      rw [if_pos selected, before, after]
      exact rest
    · rw [if_neg selected]
      split
      · exact congrArg (head :: ·) rest
      · exact rest

theorem filter_update_only (only : rows.filter selects = [row])
    (others : ∀ other ∈ rows, selects other = false → p other = false) :
    (update selects set rows).filter p = if p (set row) then [set row] else [] := by
  have here : ∀ other ∈ rows, selects other = true → other = row := fun other member selected =>
    List.mem_singleton.mp (only ▸ List.mem_filter.mpr ⟨member, selected⟩)
  have selected : selects row = true := (List.mem_filter.mp (only ▸ mem_cons_self : row ∈ rows.filter selects)).2
  rw [update, filter_map]
  cases kind : p (set row) with
  | true =>
    have same : rows.filter (p ∘ fun other => if selects other then set other else other) =
        rows.filter selects := by
      refine filter_congr fun other member => ?_
      cases held : selects other with
      | true => rw [comp_apply, held, if_pos rfl, here other member held, kind]
      | false => rw [comp_apply, held, if_neg nofun, others other member held]
    rw [same, only, map_singleton, selected]
    rfl
  | false =>
    have none : rows.filter (p ∘ fun other => if selects other then set other else other) = [] := by
      refine List.filter_eq_nil_iff.mpr fun other member => ?_
      cases held : selects other with
      | true => rw [comp_apply, held, if_pos rfl, here other member held, kind]; exact nofun
      | false => rw [comp_apply, held, if_neg nofun, others other member held]; exact nofun
    rw [none]
    rfl

theorem update_same (same : ∀ row ∈ rows, selects row = true → set row = row) : update selects set rows = rows := by
  rw [update, map_congr_left (g := id) fun row here => ?_, map_id]
  split
  · exact same row here ‹_›
  · rfl

theorem length_filter_update (keeps : ∀ row, p (set row) = p row) :
    ((update selects set rows).filter p).length = (rows.filter p).length := by
  rw [update, filter_map, length_map]
  congr 2
  funext row
  simp only [comp_apply]
  split
  · exact keeps row
  · rfl

theorem update_update {set' : α → α} (keeps : ∀ row, selects (set row) = selects row) :
    update selects set' (update selects set rows) = update selects (set' ∘ set) rows := by
  unfold update
  rw [map_map]
  refine map_congr_left fun row _ => ?_
  simp only [comp_apply]
  by_cases selected : selects row = true
  · rw [if_pos selected, if_pos ((keeps row).trans selected), if_pos selected]
  · rw [if_neg selected, if_neg selected, if_neg selected]

theorem find?_update [DecidableEq κ] (selects : α → Bool) (set : α → α) (rows : List α) (key : α → κ)
    (keeps : ∀ row, key (set row) = key row) (k : κ) :
    (update selects set rows).find? (key · == k) =
      (rows.find? (key · == k)).map fun row => if selects row then set row else row := by
  rw [update, List.find?_map]
  congr 2
  funext row
  simp only [comp_apply]
  split
  · rw [keeps row]
  · rfl

end Update

variable {key : α → κ} {rows : List α} {row : α}

theorem nodup_append (distinct : (rows.map key).Nodup) (new : ∀ other ∈ rows, key other ≠ key row) :
    ((rows ++ [row]).map key).Nodup := by
  rw [map_append]
  refine distinct.append (nodup_singleton _) fun k old mine => ?_
  obtain ⟨other, here, rfl⟩ := List.mem_map.mp old
  exact new other here (by simpa using mine)

theorem unique (distinct : (rows.map key).Nodup) {row' : α} (here : row ∈ rows) (here' : row' ∈ rows)
    (same : key row = key row') : row = row' :=
  inj_on_of_nodup_map distinct here here' same

theorem pick_perm [DecidableEq κ] (distinct : (rows.map key).Nodup) (here : row ∈ rows) :
    (row :: rows.filter fun other => !(key row = key other)).Perm rows := by
  induction rows with
  | nil => cases here
  | cons head rest ih =>
    rw [map_cons, nodup_cons] at distinct
    rcases List.mem_cons.mp here with rfl | later
    · rw [filter_cons_of_neg (by simp), List.filter_eq_self.mpr]
      intro other inside
      rw [Bool.not_eq_true', decide_eq_false_iff_not]
      exact fun same => distinct.1 (same ▸ mem_map_of_mem inside)
    · have differs : key row ≠ key head := fun same => distinct.1 (same ▸ mem_map_of_mem later)
      rw [filter_cons_of_pos (by simpa using differs)]
      exact (List.Perm.swap head row _).trans ((ih distinct.2 later).cons head)

theorem sum_map_row {M : Type*} [AddCommMonoid M] [DecidableEq κ] {f : α → M} {set : α → α}
    (distinct : (rows.map key).Nodup) (here : row ∈ rows) {gain : M} (grown : f (set row) = f row + gain) :
    ((rows.map fun other => if key other = key row then set other else other).map f).sum =
      (rows.map f).sum + gain := by
  induction rows with
  | nil => exact absurd here not_mem_nil
  | cons head rows ih =>
    rw [map_cons, nodup_cons] at distinct
    simp only [map_cons, sum_cons]
    rcases List.mem_cons.mp here with rfl | later
    · have others : (rows.map fun other => if key other = key row then set other else other) = rows := by
        rw [map_congr_left (g := id), map_id]
        intro other member
        refine if_neg fun same => ?_
        exact distinct.1 (List.mem_map.mpr ⟨other, member, same⟩)
      rw [if_pos rfl, others, grown, add_right_comm]
    · have other : key head ≠ key row := fun same => distinct.1 (List.mem_map.mpr ⟨row, later, same.symm⟩)
      rw [if_neg other, ih distinct.2 later, add_assoc]

end Rows
