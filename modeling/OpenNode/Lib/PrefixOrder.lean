import Mathlib

namespace PrefixOrder

open Bool List

variable {α : Type*} {le : α → α → Bool}

/-- A comparison of a linear order. -/
structure IsOrder (le : α → α → Bool) : Prop where
  trans : ∀ a b c, le a b = true → le b c = true → le a c = true
  total : ∀ a b, (le a b || le b a) = true
  antisymm : ∀ a b, le a b = true → le b a = true → a = b

theorem IsOrder.refl (order : IsOrder le) (a : α) : le a a = true := by
  simpa using order.total a a

/-- The lexicographic order of lists. -/
def lexLe (le : α → α → Bool) : List α → List α → Bool
  | [], _ => true
  | _ :: _, [] => false
  | a :: as, b :: bs => le a b && (!le b a || lexLe le as bs)

theorem lexLe_cons {a b : α} {as bs : List α} :
    lexLe le (a :: as) (b :: bs) = true ↔ le a b = true ∧ (le b a = true → lexLe le as bs = true) := by
  rw [lexLe, and_eq_true, or_eq_true, not_eq_true']
  cases le b a <;> simp

theorem IsOrder.lex (order : IsOrder le) : IsOrder (lexLe le) where
  trans as := by
    induction as with
    | nil => exact fun _ _ _ _ => rfl
    | cons a as ih =>
      intro bs cs first second
      cases bs with
      | nil => cases first
      | cons b bs =>
        cases cs with
        | nil => cases second
        | cons c cs =>
          rw [lexLe_cons] at first second ⊢
          refine ⟨order.trans a b c first.1 second.1, fun back => ih bs cs (first.2 ?_) (second.2 ?_)⟩
          · exact order.trans b c a second.1 back
          · exact order.trans c a b back first.1
  total as := by
    induction as with
    | nil => exact fun _ => rfl
    | cons a as ih =>
      intro bs
      cases bs with
      | nil => rfl
      | cons b bs =>
        rw [or_eq_true, lexLe_cons, lexLe_cons]
        have heads := order.total a b
        have tails := ih bs
        rw [or_eq_true] at heads tails
        rcases heads with low | high
        · by_cases back : le b a = true
          · rcases tails with tail | tail
            · exact .inl ⟨low, fun _ => tail⟩
            · exact .inr ⟨back, fun _ => tail⟩
          · exact .inl ⟨low, fun other => absurd other back⟩
        · by_cases back : le a b = true
          · rcases tails with tail | tail
            · exact .inl ⟨back, fun _ => tail⟩
            · exact .inr ⟨high, fun _ => tail⟩
          · exact .inr ⟨high, fun other => absurd other back⟩
  antisymm as := by
    induction as with
    | nil =>
      intro bs _ back
      cases bs with
      | nil => rfl
      | cons b bs => cases back
    | cons a as ih =>
      intro bs low back
      cases bs with
      | nil => cases low
      | cons b bs =>
        rw [lexLe_cons] at low back
        rw [order.antisymm a b low.1 back.1, ih bs (low.2 back.1) (back.2 low.1)]

theorem IsOrder.le_of_prefix (order : IsOrder le) {as bs : List α} (begins : as <+: bs) :
    lexLe le as bs = true := by
  induction as generalizing bs with
  | nil => rfl
  | cons a as ih =>
    obtain ⟨tail, rfl⟩ := begins
    exact lexLe_cons.mpr ⟨order.refl a, fun _ => ih (prefix_append as tail)⟩

theorem IsOrder.prefix_of_between (order : IsOrder le) {as bs cs : List α} (low : lexLe le as bs = true)
    (high : lexLe le bs cs = true) (begins : as <+: cs) : as <+: bs := by
  induction as generalizing bs cs with
  | nil => exact nil_prefix
  | cons a as ih =>
    obtain ⟨tail, rfl⟩ := begins
    cases bs with
    | nil => cases low
    | cons b bs =>
      rw [cons_append, lexLe_cons] at high
      rw [lexLe_cons] at low
      rw [order.antisymm a b low.1 high.1]
      exact (prefix_cons_inj b).mpr (ih (low.2 high.1) (high.2 low.1) (prefix_append as tail))

/-- Whether no list of a sorted one begins with the list before it. -/
def apart [DecidableEq α] : List (List α) → Bool
  | a :: b :: rest => !a.isPrefixOf b && apart (b :: rest)
  | _ => true

theorem IsOrder.apart_iff [DecidableEq α] (order : IsOrder le) {lists : List (List α)}
    (sorted : lists.Pairwise fun a b => lexLe le a b = true) :
    apart lists = true ↔ lists.Pairwise fun a b => ¬ a <+: b := by
  induction lists with
  | nil => exact iff_of_true rfl .nil
  | cons a rest ih =>
    cases rest with
    | nil => exact iff_of_true rfl (pairwise_singleton _ _)
    | cons b rest =>
      rw [pairwise_cons] at sorted
      rw [apart, and_eq_true, not_eq_true', ih sorted.2, pairwise_cons (a := a)]
      refine and_congr_left fun _ => ?_
      rw [eq_false_iff, ne_eq, isPrefixOf_iff_prefix]
      constructor
      · intro next c member begins
        rcases List.mem_cons.mp member with rfl | later
        · exact next begins
        · exact next (order.prefix_of_between (sorted.1 b mem_cons_self)
            ((List.pairwise_cons.mp sorted.2).1 c later) begins)
      · exact fun all => all b mem_cons_self

/-- Lists of which none begins with another, in whatever order they stand. -/
def Unrelated (lists : List (List α)) : Prop :=
  lists.Pairwise fun a b => ¬ a <+: b ∧ ¬ b <+: a

/-- The lists in lexicographic order. -/
def sort (le : α → α → Bool) (lists : List (List α)) : List (List α) :=
  lists.mergeSort (lexLe le)

theorem IsOrder.unrelated_sort [DecidableEq α] (order : IsOrder le) (lists : List (List α)) :
    apart (sort le lists) = true ↔ Unrelated lists := by
  have sorted : (sort le lists).Pairwise fun a b => lexLe le a b = true :=
    pairwise_mergeSort order.lex.trans order.lex.total lists
  have same : Unrelated (sort le lists) ↔ Unrelated lists :=
    (mergeSort_perm lists (lexLe le)).pairwise_iff fun apart => ⟨apart.2, apart.1⟩
  rw [order.apart_iff sorted, ← same]
  constructor
  · -- An earlier list begins with a later one only where both are one.
    intro apart
    refine (sorted.and apart).imp fun {a b} pair => ⟨pair.2, fun back => pair.2 ?_⟩
    have same : b = a := order.lex.antisymm b a (order.le_of_prefix back) pair.1
    exact same ▸ prefix_rfl
  · exact fun unrelated => unrelated.imp fun pair => pair.1

end PrefixOrder
