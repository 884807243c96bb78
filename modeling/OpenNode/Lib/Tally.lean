import Mathlib

namespace Tally

open Function

variable {κ α : Type*} [DecidableEq κ]

def tally (keys : List κ) : κ → Option Int :=
  fun k => if keys.count k = 0 then none else some (keys.count k)

theorem getD_tally (keys : List κ) (k : κ) : (tally keys k).getD 0 = keys.count k := by
  unfold tally
  split
  · rename_i absent
    simp [absent]
  · rfl

theorem tally_nil : tally ([] : List κ) = fun _ => none := by
  funext k
  simp [tally]

theorem tally_perm {keys keys' : List κ} (same : keys.Perm keys') : tally keys = tally keys' := by
  funext k
  simp only [tally, same.count_eq]

theorem tally_cons (k : κ) (keys : List κ) :
    tally (k :: keys) = update (tally keys) k (some ((tally keys k).getD 0 + 1)) := by
  funext j
  by_cases same : j = k
  · subst same
    rw [update_self, getD_tally]
    simp [tally]
  · have other : (k :: keys).count j = keys.count j := List.count_cons_of_ne (Ne.symm same)
    rw [update_of_ne same]
    simp only [tally, other]

theorem tally_remove (k : κ) (keys : List κ) : tally keys = update (tally (k :: keys)) k
      (if (tally (k :: keys) k).getD 0 - 1 ≤ 0 then none else some ((tally (k :: keys) k).getD 0 - 1)) := by
  funext j
  by_cases same : j = k
  · subst same
    rw [update_self, getD_tally, List.count_cons_self]
    unfold tally
    by_cases absent : keys.count j = 0
    · simp [absent]
    · have positive : ¬ ((keys.count j + 1 : Nat) : Int) - 1 ≤ 0 := by omega
      rw [if_neg absent, if_neg positive]
      congr 1
      omega
  · have other : (k :: keys).count j = keys.count j := List.count_cons_of_ne (Ne.symm same)
    rw [update_of_ne same]
    simp only [tally, other]

/-- The map after some assignments, the last of a key first. -/
def assign (f : κ → Option α) (entry : κ × α) : κ → Option α :=
  update f entry.1 (some entry.2)

theorem foldl_assign {entries : List (κ × α)} (distinct : (entries.map Prod.fst).Nodup) {f : κ → Option α}
    {k : κ} {a : α} : entries.foldl assign f k = some a ↔
      (k, a) ∈ entries ∨ k ∉ entries.map Prod.fst ∧ f k = some a := by
  induction entries generalizing f with
  | nil => simp
  | cons entry rest ih =>
    obtain ⟨absent, distinct⟩ := List.nodup_cons.mp distinct
    rw [List.foldl_cons, ih distinct]
    by_cases same : k = entry.1
    · subst same
      have missing : (entry.1, a) ∉ rest := fun member => absent (List.mem_map.mpr ⟨_, member, rfl⟩)
      simp only [assign, update_self, Option.some.injEq, List.mem_cons, List.map_cons, true_or, not_true,
        false_and, or_false, missing, false_or]
      constructor
      · rintro ⟨_, rfl⟩
        rfl
      · intro eq
        exact ⟨absent, (congrArg Prod.snd eq).symm⟩
    · have differs : (k, a) ≠ entry := fun eq => same (congrArg Prod.fst eq)
      simp [assign, same, differs]

end Tally
