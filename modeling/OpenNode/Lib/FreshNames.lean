import Mathlib

namespace FreshNames

/-- The first number from this one on that is not taken, within so many tries. -/
def firstFree (taken : Nat → Bool) : Nat → Nat → Option Nat
  | 0, _ => none
  | tries + 1, n => if taken n then firstFree taken tries (n + 1) else some n

variable {taken : Nat → Bool}

theorem firstFree_eq_some {tries n m : Nat} (found : firstFree taken tries n = some m) :
    n ≤ m ∧ taken m = false ∧ ∀ k, n ≤ k → k < m → taken k = true := by
  induction tries generalizing n with
  | zero => cases found
  | succ tries ih =>
    rw [firstFree] at found
    by_cases held : taken n = true
    · rw [if_pos held] at found
      obtain ⟨low, free, before⟩ := ih found
      refine ⟨Nat.le_of_succ_le low, free, fun k first last => ?_⟩
      rcases Nat.eq_or_lt_of_le first with rfl | later
      · exact held
      · exact before k later last
    · rw [if_neg held] at found
      obtain rfl := Option.some.inj found
      exact ⟨le_rfl, Bool.eq_false_iff.mpr held, fun k first last => absurd last (Nat.not_lt.mpr first)⟩

theorem firstFree_eq_none {tries n : Nat} (none : firstFree taken tries n = none) :
    ∀ k, n ≤ k → k < n + tries → taken k = true := by
  induction tries generalizing n with
  | zero => exact fun k first last => absurd last (Nat.not_lt.mpr first)
  | succ tries ih =>
    rw [firstFree] at none
    by_cases held : taken n = true
    · rw [if_pos held] at none
      intro k first last
      rcases Nat.eq_or_lt_of_le first with rfl | later
      · exact held
      · exact ih none k later (by omega)
    · rw [if_neg held] at none
      cases none

theorem firstFree_isSome {β : Type*} {obstacles : List β} {blocks : β → Nat → Prop} {tries n : Nat}
    (covers : ∀ k, n ≤ k → taken k = true → ∃ o ∈ obstacles, blocks o k)
    (only : ∀ o ∈ obstacles, ∀ k k', n ≤ k → n ≤ k' → blocks o k → blocks o k' → k = k')
    (enough : obstacles.length < tries) : ∃ m, firstFree taken tries n = some m := by
  classical
  rcases found : firstFree taken tries n with _ | m
  · exfalso
    have all := firstFree_eq_none found
    have blocked : ∀ k ∈ Finset.Ico n (n + tries), ∃ o ∈ obstacles, blocks o k := fun k member =>
      covers k (Finset.mem_Ico.mp member).1 (all k (Finset.mem_Ico.mp member).1 (Finset.mem_Ico.mp member).2)
    obtain ⟨some, -⟩ := blocked n (Finset.mem_Ico.mpr ⟨le_rfl, by omega⟩)
    have : Nonempty β := ⟨some⟩
    choose! blocker listed blocking using blocked
    have few : obstacles.toFinset.card < (Finset.Ico n (n + tries)).card := by
      rw [Nat.card_Ico, Nat.add_sub_cancel_left]
      exact Nat.lt_of_le_of_lt (List.toFinset_card_le obstacles) enough
    obtain ⟨k, first, k', second, differs, same⟩ := Finset.exists_ne_map_eq_of_card_lt_of_maps_to few
      fun k member => List.mem_toFinset.mpr (listed k member)
    refine differs (only _ (listed k first) k k' (Finset.mem_Ico.mp first).1 (Finset.mem_Ico.mp second).1
      (blocking k first) ?_)
    exact same ▸ blocking k' second
  · exact ⟨m, rfl⟩

end FreshNames
