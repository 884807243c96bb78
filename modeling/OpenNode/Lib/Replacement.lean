import Mathlib

namespace Replacement

open List

variable {α β : Type*} [DecidableEq β]

/-- What `replace` does to a text, once it has `skip` elements of an occurrence to pass. -/
def replaceFrom (view : α → β) (old : List β) (new : List α) : Nat → List α → List α
  | _, [] => []
  | skip + 1, _ :: rest => replaceFrom view old new skip rest
  | 0, a :: rest =>
    if old.isPrefixOf ((a :: rest).map view) then new ++ replaceFrom view old new (old.length - 1) rest
    else a :: replaceFrom view old new 0 rest

/-- The occurrences that are replaced. -/
def occurrencesFrom (view : α → β) (old : List β) : Nat → List α → List (List α)
  | _, [] => []
  | skip + 1, _ :: rest => occurrencesFrom view old skip rest
  | 0, a :: rest =>
    if old.isPrefixOf ((a :: rest).map view) then
      (a :: rest).take old.length :: occurrencesFrom view old (old.length - 1) rest
    else occurrencesFrom view old 0 rest

def replace (view : α → β) (old : List β) (new : List α) (text : List α) : List α :=
  replaceFrom view old new 0 text

def occurrences (view : α → β) (old : List β) (text : List α) : List (List α) :=
  occurrencesFrom view old 0 text

variable {view : α → β} {old : List β} {new : List α}

theorem replaceFrom_skip (skip : Nat) (text : List α) :
    replaceFrom view old new skip text = replace view old new (text.drop skip) := by
  induction text generalizing skip with
  | nil =>
    rw [drop_nil]
    cases skip <;> rfl
  | cons a rest ih =>
    cases skip with
    | zero => rfl
    | succ skip => exact ih skip

theorem occurrencesFrom_skip (skip : Nat) (text : List α) :
    occurrencesFrom view old skip text = occurrences view old (text.drop skip) := by
  induction text generalizing skip with
  | nil =>
    rw [drop_nil]
    cases skip <;> rfl
  | cons a rest ih =>
    cases skip with
    | zero => rfl
    | succ skip => exact ih skip

theorem replace_cons (a : α) (rest : List α) :
    replace view old new (a :: rest) = if old.isPrefixOf ((a :: rest).map view) then
      new ++ replace view old new (rest.drop (old.length - 1)) else a :: replace view old new rest := by
  rw [← replaceFrom_skip]
  rfl

theorem occurrences_cons (a : α) (rest : List α) :
    occurrences view old (a :: rest) = if old.isPrefixOf ((a :: rest).map view) then
      (a :: rest).take old.length :: occurrences view old (rest.drop (old.length - 1))
        else occurrences view old rest := by
  rw [← occurrencesFrom_skip]
  rfl

variable {rest : List α}

theorem replace_cons_other {a : α} (other : ¬ old <+: (a :: rest).map view) :
    replace view old new (a :: rest) = a :: replace view old new rest ∧
    occurrences view old (a :: rest) = occurrences view old rest := by
  have missed : ¬ old.isPrefixOf ((a :: rest).map view) = true :=
    fun here => other (List.isPrefixOf_iff_prefix.mp here)
  rw [replace_cons, occurrences_cons, if_neg missed, if_neg missed]
  exact ⟨rfl, rfl⟩

theorem replace_occurrence {here : List α} (same : here.map view = old) (nonempty : old ≠ []) :
    replace view old new (here ++ rest) = new ++ replace view old new rest ∧
    occurrences view old (here ++ rest) = here :: occurrences view old rest := by
  subst same
  cases here with
  | nil => exact absurd rfl nonempty
  | cons a tail =>
    have found : ((a :: tail).map view).isPrefixOf ((a :: (tail ++ rest)).map view) = true :=
      List.isPrefixOf_iff_prefix.mpr ⟨rest.map view, by simp⟩
    have behind : (tail ++ rest).drop (((a :: tail).map view).length - 1) = rest := by simp
    have taken : (a :: (tail ++ rest)).take ((a :: tail).map view).length = a :: tail := by simp
    rw [cons_append, replace_cons, occurrences_cons, if_pos found, if_pos found, behind, taken]
    exact ⟨rfl, rfl⟩

theorem replace_append {part : List α}
    (apart : ∀ tail, tail <:+ part → tail ≠ [] → ¬ old <+: (tail ++ rest).map view) :
    replace view old new (part ++ rest) = part ++ replace view old new rest ∧
    occurrences view old (part ++ rest) = occurrences view old rest := by
  induction part with
  | nil => exact ⟨rfl, rfl⟩
  | cons a tail ih =>
    obtain ⟨kept, same⟩ := ih fun other suffix => apart other (suffix.trans (suffix_cons a tail))
    have first : replace view old new (a :: (tail ++ rest)) = _ ∧ _ :=
      replace_cons_other (apart (a :: tail) suffix_rfl (cons_ne_nil a tail))
    exact ⟨first.1.trans (congrArg (a :: ·) kept), first.2.trans same⟩

private theorem length_drop_lt {n : Nat} (a : α) (rest : List α) : (rest.drop n).length < (a :: rest).length := by
  rw [length_drop, length_cons]
  exact Nat.lt_succ_of_le (Nat.sub_le _ n)

theorem map_replace {γ : Type*} (f : α → γ) (seen : γ → β) (same : ∀ a, seen (f a) = view a) (text : List α) :
    (replace view old new text).map f = replace seen old (new.map f) (text.map f) := by
  have views : ∀ part : List α, (part.map f).map seen = part.map view := by
    intro part
    rw [map_map]
    exact map_congr_left fun a _ => same a
  induction h : text.length using Nat.strongRecOn generalizing text with
  | ind n ih =>
    subst h
    cases text with
    | nil => rfl
    | cons a rest =>
      have shown : (f a :: rest.map f).map seen = (a :: rest).map view := views (a :: rest)
      rw [show (a :: rest).map f = f a :: rest.map f from rfl, replace_cons, replace_cons, shown]
      split
      · rw [map_append, ih _ (length_drop_lt a rest) _ rfl, map_drop]
      · rw [map_cons, ih _ (by simp) _ rfl]

theorem countP_replace {p : α → Bool} (nonempty : old ≠ []) (foreign : new.countP p = 0) (text : List α) :
    (replace view old new text).countP p + ((occurrences view old text).map (List.countP p)).sum =
      text.countP p := by
  induction h : text.length using Nat.strongRecOn generalizing text with
  | ind n ih =>
    subst h
    cases text with
    | nil => rfl
    | cons a rest =>
      rw [replace_cons, occurrences_cons]
      split
      · rename_i found
        have later := ih _ (length_drop_lt a rest) (rest.drop (old.length - 1)) rfl
        have whole : (a :: rest).countP p = ((a :: rest).take old.length).countP p +
            (rest.drop (old.length - 1)).countP p := by
          obtain ⟨b, old, rfl⟩ := exists_cons_of_ne_nil nonempty
          conv_lhs => rw [← take_append_drop (b :: old).length (a :: rest), countP_append]
          rfl
        rw [countP_append, foreign, map_cons, sum_cons]
        omega
      · have later := ih _ (by simp) rest rfl
        rw [countP_cons, countP_cons]
        omega

theorem mem_of_occurrence {text occurrence : List α} (found : occurrence ∈ occurrences view old text) {a : α}
    (here : a ∈ occurrence) : a ∈ text := by
  induction h : text.length using Nat.strongRecOn generalizing text with
  | ind n ih =>
    subst h
    cases text with
    | nil => cases found
    | cons b rest =>
      rw [occurrences_cons] at found
      split at found
      · rcases List.mem_cons.mp found with rfl | later
        · exact mem_of_mem_take here
        · exact mem_cons_of_mem b (mem_of_mem_drop (ih _ (length_drop_lt b rest) later rfl))
      · exact mem_cons_of_mem b (ih _ (by simp) found rfl)

end Replacement
