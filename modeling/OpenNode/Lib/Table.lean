import Mathlib

namespace Table

open List

variable {α : Type*}

variable {rows : List α} {f : α → α} {i : Nat}

theorem modify_row {j : Nat} {b : α} (atRow : (rows.modify i f)[j]? = some b) :
    ∃ a, rows[j]? = some a ∧ b = if i = j then f a else a := by
  rw [List.getElem?_modify] at atRow
  obtain ⟨a, old, value⟩ := Option.map_eq_some_iff.mp atRow
  exact ⟨a, old, value.symm⟩

variable {a : α}

theorem modify_self (atRow : rows[i]? = some a) : (rows.modify i f)[i]? = some (f a) := by
  simp [atRow]

theorem modify_other {j : Nat} (other : i ≠ j) : (rows.modify i f)[j]? = rows[j]? := by
  rw [List.getElem?_modify]
  simp [other]

theorem modify_eq_set (atRow : rows[i]? = some a) : rows.modify i f = rows.set i (f a) := by
  rw [modify_eq_set_getElem?, atRow]
  rfl

theorem set_same (atRow : rows[i]? = some a) : rows.set i a = rows := by
  obtain ⟨bound, rfl⟩ := List.getElem?_eq_some_iff.mp atRow
  exact set_getElem_self bound

theorem foldl_modify_row {ids : List Nat} (distinct : ids.Nodup) (i : Nat) :
    (ids.foldl (fun rows id => rows.modify id f) rows)[i]? =
      (rows[i]?).map fun a => if i ∈ ids then f a else a := by
  induction ids generalizing rows with
  | nil => simp
  | cons id rest ih =>
    obtain ⟨absent, distinct⟩ := List.nodup_cons.mp distinct
    rw [foldl_cons, ih distinct]
    by_cases same : id = i
    · subst same
      cases here : rows[id]? <;> simp [absent, here]
    · rw [modify_other same]
      simp [Ne.symm same]

theorem append_row {b : α} (atRow : (rows ++ [a])[i]? = some b) : rows[i]? = some b ∨ i = rows.length ∧ b = a := by
  by_cases old : i < rows.length
  · left
    rwa [List.getElem?_append_left old] at atRow
  · right
    rw [List.getElem?_append_right (by omega)] at atRow
    have first : i - rows.length = 0 := by
      by_contra positive
      simp [List.getElem?_eq_none (show [a].length ≤ i - rows.length by simp; omega)] at atRow
    rw [first] at atRow
    exact ⟨by omega, (Option.some.inj atRow).symm⟩

theorem append_old {b : α} (atRow : rows[i]? = some b) : (rows ++ [a])[i]? = some b := by
  obtain ⟨bound, _⟩ := List.getElem?_eq_some_iff.mp atRow
  rw [List.getElem?_append_left bound, atRow]

theorem row_lt (atRow : rows[i]? = some a) : i < rows.length :=
  (List.getElem?_eq_some_iff.mp atRow).1

theorem length_positions (p : α → Bool) (rows : List α) :
    ((List.range rows.length).filter fun i => rows[i]?.any p).length = rows.countP p := by
  induction rows using List.reverseRecOn with
  | nil => rfl
  | append_singleton rows a ih =>
    have same : ((List.range rows.length).filter fun i => (rows ++ [a])[i]?.any p) =
        (List.range rows.length).filter fun i => rows[i]?.any p := by
      refine filter_congr fun i member => ?_
      rw [List.getElem?_append_left (List.mem_range.mp member)]
    rw [length_append, length_singleton, range_succ, filter_append, length_append, same, ih, countP_append]
    by_cases holds : p a = true <;> simp [holds]

theorem forall₂_row {β : Type*} {R : α → β → Prop} {rows' : List β} (related : List.Forall₂ R rows rows')
    (atRow : rows[i]? = some a) :
    ∃ b, rows'[i]? = some b ∧ R a b := by
  induction related generalizing i with
  | nil => simp at atRow
  | @cons x y _ _ head _ ih =>
    cases i with
    | zero =>
      simp only [List.getElem?_cons_zero, Option.some.injEq] at atRow
      exact ⟨y, by simp, atRow ▸ head⟩
    | succ i => simpa using ih (by simpa using atRow)

theorem forall₂_mem {β : Type*} {R : α → β → Prop} {rows' : List β} (related : List.Forall₂ R rows rows')
    (member : a ∈ rows) : ∃ b ∈ rows', R a b := by
  obtain ⟨i, atRow⟩ := mem_iff_getElem?.mp member
  obtain ⟨b, atRow', holds⟩ := forall₂_row related atRow
  exact ⟨b, mem_of_getElem? atRow', holds⟩

theorem range'_split {a b c : Nat} (low : a ≤ b) (high : b ≤ c) :
    List.range' a (c - a) = List.range' a (b - a) ++ List.range' b (c - b) := by
  obtain ⟨k, rfl⟩ := Nat.exists_eq_add_of_le low
  obtain ⟨m, rfl⟩ := Nat.exists_eq_add_of_le high
  have total : a + k + m - a = k + m := by omega
  rw [total, Nat.add_sub_cancel_left, Nat.add_sub_cancel_left, List.range'_append_1]

end Table
