import Mathlib

/-- A dictionary, its entries in the order of insertion. -/
structure Dict (κ α : Type*) where
  entries : List (κ × α) := []
  nodup : (entries.map Prod.fst).Nodup := by first | exact List.nodup_nil | simp

namespace Dict

open List

variable {κ α : Type*} [DecidableEq κ]

/-- The value of `d.get(key)`. -/
def get? (d : Dict κ α) (key : κ) : Option α :=
  d.entries.lookup key

def keys (d : Dict κ α) : List κ :=
  d.entries.map Prod.fst

variable {key : κ}

theorem lookup_eq_some {entries : List (κ × α)} (nodup : (entries.map Prod.fst).Nodup) {a : α} :
    entries.lookup key = some a ↔ (key, a) ∈ entries := by
  induction entries with
  | nil => simp
  | cons entry rest ih =>
    obtain ⟨k, b⟩ := entry
    simp only [map_cons, nodup_cons] at nodup
    rw [lookup_cons]
    by_cases same : key = k
    · subst same
      have absent : (key, a) ∉ rest := fun member => nodup.1 (mem_map_of_mem member)
      simp [absent, eq_comm]
    · have other : (key == k) = false := by simpa using same
      rw [other, mem_cons, ih nodup.2]
      simp [same]

variable {d : Dict κ α}

theorem get?_eq_some {a : α} : d.get? key = some a ↔ (key, a) ∈ d.entries :=
  lookup_eq_some d.nodup

theorem get?_eq_none : d.get? key = none ↔ key ∉ d.keys := by
  simp only [get?, keys, lookup_eq_none_iff, mem_map, not_exists, not_and, Prod.forall, bne_iff_ne, ne_eq]
  constructor
  · intro none k a member same
    exact none k a member same.symm
  · intro absent k a member same
    exact absent k a member same.symm

theorem sum_entries {M : Type*} [AddCommMonoid M] (d : Dict κ α) (f : κ → α → M) {keys : Finset κ}
    (covered : ∀ key ∈ d.keys, key ∈ keys) :
    (d.entries.map fun entry => f entry.1 entry.2).sum = ∑ key ∈ keys, (d.get? key).elim 0 (f key) := by
  have same : (d.entries.map fun entry => f entry.1 entry.2) =
      d.keys.map fun key => (d.get? key).elim 0 (f key) := by
    rw [Dict.keys, map_map]
    refine map_congr_left fun entry member => ?_
    rw [Function.comp_apply, get?_eq_some.mpr member, Option.elim_some]
  have distinct : d.keys.Nodup := d.nodup
  rw [same, ← sum_toFinset _ distinct]
  refine Finset.sum_subset (fun key member => covered key (List.mem_toFinset.mp member)) ?_
  intro key _ absent
  rw [get?_eq_none.mpr (fun member => absent (List.mem_toFinset.mpr member)), Option.elim_none]

end Dict
