import Mathlib

namespace FirstCopies

open List

variable {α : Type*} [DecidableEq α]

theorem eraseDups_sublist (items : List α) : items.eraseDups.Sublist items := by
  induction h : items.length using Nat.strongRecOn generalizing items with
  | _ n ih =>
    cases items with
    | nil => exact .slnil
    | cons a rest =>
      rw [eraseDups_cons]
      have shorter : (rest.filter fun b => !b == a).length < n :=
        h ▸ Nat.lt_succ_of_le (length_filter_le _ _)
      exact ((ih _ shorter _ rfl).trans filter_sublist).cons_cons a

theorem nodup_eraseDups (items : List α) : items.eraseDups.Nodup := by
  induction h : items.length using Nat.strongRecOn generalizing items with
  | _ n ih =>
    cases items with
    | nil => exact nodup_nil
    | cons a rest =>
      rw [eraseDups_cons, nodup_cons, mem_eraseDups]
      have shorter : (rest.filter fun b => !b == a).length < n :=
        h ▸ Nat.lt_succ_of_le (length_filter_le _ _)
      exact ⟨fun member => by simp at member, ih _ shorter _ rfl⟩

variable {items : List α}

theorem eraseDups_of_nodup (distinct : items.Nodup) : items.eraseDups = items := by
  induction items with
  | nil => rfl
  | cons a rest ih =>
    obtain ⟨fresh, distinct⟩ := List.nodup_cons.mp distinct
    have all : rest.filter (fun b => !b == a) = rest :=
      List.filter_eq_self.mpr fun b member => by
        rw [Bool.not_eq_true', beq_eq_false_iff_ne]
        exact fun same => fresh (same ▸ member)
    rw [eraseDups_cons, all, ih distinct]

theorem eraseDups_append_of_nodup {others : List α} (distinct : items.Nodup) :
    (items ++ others).eraseDups = items ++ (others.removeAll items).eraseDups := by
  rw [eraseDups_append, eraseDups_of_nodup distinct]

/-- Elements are added at the end, unless they are there. -/
def add (found items : List α) : List α :=
  items.foldl (fun found a => if a ∈ found then found else found ++ [a]) found

theorem add_cons (found : List α) (a : α) (items : List α) :
    add found (a :: items) = add (if a ∈ found then found else found ++ [a]) items := rfl

variable {found : List α}

theorem mem_add {a : α} : a ∈ add found items ↔ a ∈ found ∨ a ∈ items := by
  induction items generalizing found with
  | nil => exact ⟨.inl, fun here => here.elim id fun never => absurd never not_mem_nil⟩
  | cons b items ih =>
    rw [add_cons, ih, mem_cons]
    split
    · rename_i here
      exact ⟨fun old => old.imp_right .inr, by
        rintro (old | rfl | later) <;> [exact .inl old; exact .inl here; exact .inr later]⟩
    · rw [mem_append, mem_singleton, or_assoc]

theorem nodup_add (distinct : found.Nodup) : (add found items).Nodup := by
  induction items generalizing found with
  | nil => exact distinct
  | cons b items ih =>
    rw [add_cons]
    split
    · exact ih distinct
    · rename_i fresh
      exact ih (distinct.append (nodup_singleton b) fun c old new => fresh (List.mem_singleton.mp new ▸ old))

theorem add_of_nodup (distinct : (found ++ items).Nodup) : add found items = found ++ items := by
  induction items generalizing found with
  | nil => rw [append_nil]; rfl
  | cons b items ih =>
    have fresh : b ∉ found := fun old => (List.nodup_append.mp distinct).2.2 b old b mem_cons_self rfl
    rw [add_cons, if_neg fresh, ih] <;> rw [append_assoc, singleton_append]
    exact distinct

end FirstCopies
