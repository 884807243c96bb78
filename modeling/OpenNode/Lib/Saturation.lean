import Mathlib

namespace Saturation

section Rounds

variable {V α : Type*} {p : List V → α → Bool} {f : α → V} {found : List V} {items : List α}

/-- What one round adds; each addition sees the earlier ones of its round. -/
def gather (p : List V → α → Bool) (f : α → V) (found : List V) (items : List α) : List V :=
  items.foldl (fun found item => if p found item then found ++ [f item] else found) found

theorem gather_cons (item : α) :
    gather p f found (item :: items) = gather p f (if p found item then found ++ [f item] else found) items :=
  rfl

theorem subset_gather : found ⊆ gather p f found items := by
  induction items generalizing found with
  | nil => exact List.Subset.refl _
  | cons item items ih =>
    rw [gather_cons]
    refine List.Subset.trans ?_ ih
    split
    · exact List.subset_append_left _ _
    · exact List.Subset.refl _

theorem gather_induction {S : V → Prop} (start : ∀ v ∈ found, S v)
    (keeps : ∀ found, (∀ v ∈ found, S v) → ∀ item ∈ items, p found item → S (f item)) :
    ∀ v ∈ gather p f found items, S v := by
  induction items generalizing found with
  | nil => exact start
  | cons item items ih =>
    rw [gather_cons]
    refine ih ?_ fun found inside other here => keeps found inside other (.tail _ here)
    split
    · rename_i holds
      intro v inside
      rcases List.mem_append.mp inside with old | new
      · exact start v old
      · exact List.mem_singleton.mp new ▸ keeps found start item (.head _) holds
    · exact start

theorem mem_gather (mono : ∀ found found', found ⊆ found' → ∀ item, p found item → p found' item) {item : α}
    (here : item ∈ items) (holds : p found item) : f item ∈ gather p f found items := by
  induction items generalizing found with
  | nil => cases here
  | cons first items ih =>
    rw [gather_cons]
    rcases List.mem_cons.mp here with rfl | later
    · rw [if_pos holds]
      exact subset_gather (List.mem_append_right _ (.head _))
    · refine ih later (mono _ _ ?_ item holds)
      split
      · exact List.subset_append_left _ _
      · exact List.Subset.refl _

end Rounds

variable {V ε : Type*} [DecidableEq V] {step : List V → Except ε (List V)}

/-- The rounds, as many as the fuel; nothing while the set still grows. -/
def saturate (step : List V → Except ε (List V)) : Nat → List V → Option (Except ε (List V))
  | 0, _ => none
  | fuel + 1, known =>
    match step known with
    | .error error => some (.error error)
    | .ok found => if found ⊆ known then some (.ok known) else saturate step fuel (known ∪ found)

/-- What a bound still leaves to be found. -/
def missing (bound known : List V) : List V :=
  bound.filter fun v => decide (v ∉ known)

variable {known : List V}

theorem missing_union {bound found : List V} (inside : found ⊆ bound) (grows : ¬ found ⊆ known) :
    (missing bound (known ∪ found)).length < (missing bound known).length := by
  obtain ⟨v, here, new⟩ : ∃ v ∈ found, v ∉ known := by
    by_contra none
    exact grows fun v here => by_contra fun new => none ⟨v, here, new⟩
  have fewer : missing bound (known ∪ found) = (missing bound known).filter fun v => decide (v ∉ found) := by
    unfold missing
    rw [List.filter_filter]
    refine List.filter_congr fun v _ => ?_
    simp only [List.mem_union_iff, not_or, Bool.decide_and, Bool.and_comm]
  rw [fewer]
  exact List.length_filter_lt_length_iff_exists.mpr
    ⟨v, List.mem_filter.mpr ⟨inside here, decide_eq_true new⟩, by simpa using here⟩

variable {fuel : Nat}

theorem saturate_ne_none {bound : List V} (bounded : ∀ known found, step known = .ok found → found ⊆ bound)
    (enough : (missing bound known).length < fuel) : saturate step fuel known ≠ none := by
  induction fuel generalizing known with
  | zero => exact absurd enough (Nat.not_lt_zero _)
  | succ fuel ih =>
    unfold saturate
    split
    · exact nofun
    · rename_i found here
      split
      · exact nofun
      · rename_i grows
        have fewer := missing_union (bounded known found here) grows
        exact ih (by omega)

/-- The result contains the start, the step finds nothing more in it, and it
lies in every set that has the start and keeps to what the step finds. -/
theorem saturate_ok {result : List V} (done : saturate step fuel known = some (.ok result)) :
    known ⊆ result ∧ (∃ found, step result = .ok found ∧ found ⊆ result) ∧
    ∀ S : V → Prop, (∀ v ∈ known, S v) →
      (∀ known found, (∀ v ∈ known, S v) → step known = .ok found → ∀ v ∈ found, S v) → ∀ v ∈ result, S v := by
  induction fuel generalizing known with
  | zero => cases done
  | succ fuel ih =>
    unfold saturate at done
    split at done
    · cases done
    · rename_i found here
      split at done
      · rename_i ended
        cases done
        exact ⟨List.Subset.refl _, ⟨found, here, ended⟩, fun _ start _ => start⟩
      · obtain ⟨start, closed, least⟩ := ih done
        refine ⟨fun v inside => start (List.mem_union_iff.mpr (.inl inside)), closed, fun S inside keeps => ?_⟩
        refine least S (fun v member => ?_) keeps
        rcases List.mem_union_iff.mp member with old | new
        · exact inside v old
        · exact keeps known found inside here v new

end Saturation
