import Mathlib

namespace Loops

open List

variable {α β ε : Type*}

variable {f : β → α → Except ε β}

theorem foldlM_cons_ok {a : α} {rest : List α} {start final : β} :
    (a :: rest).foldlM f start = .ok final ↔ ∃ next, f start a = .ok next ∧ rest.foldlM f next = .ok final := by
  rw [foldlM_cons]
  cases f start a with
  | error error =>
    constructor
    · exact nofun
    · rintro ⟨_, ⟨⟩, _⟩
  | ok next =>
    constructor
    · exact fun rest => ⟨next, rfl, rest⟩
    · rintro ⟨_, ⟨⟩, rest⟩
      exact rest

theorem foldlM_append_ok {past rest : List α} {start final : β} :
    (past ++ rest).foldlM f start = .ok final ↔ ∃ middle, past.foldlM f start = .ok middle ∧
      rest.foldlM f middle = .ok final := by
  induction past generalizing start with
  | nil =>
    constructor
    · exact fun run => ⟨start, rfl, run⟩
    · rintro ⟨_, ⟨⟩, run⟩
      exact run
  | cons a past ih =>
    rw [cons_append, foldlM_cons_ok]
    constructor
    · rintro ⟨next, step, run⟩
      obtain ⟨middle, first, last⟩ := ih.mp run
      exact ⟨middle, foldlM_cons_ok.mpr ⟨next, step, first⟩, last⟩
    · rintro ⟨middle, first, last⟩
      obtain ⟨next, step, first⟩ := foldlM_cons_ok.mp first
      exact ⟨next, step, ih.mpr ⟨middle, first, last⟩⟩

variable {items : List α} {results : List β}

theorem mapM_ok {f : α → Except ε β} (mapped : items.mapM f = .ok results) :
    List.Forall₂ (fun a b => f a = .ok b) items results := by
  induction items generalizing results with
  | nil =>
    cases mapped
    exact .nil
  | cons a rest ih =>
    rw [mapM_cons] at mapped
    cases first : f a with
    | error error =>
      rw [first] at mapped
      nomatch mapped
    | ok b =>
      rw [first] at mapped
      cases others : rest.mapM f with
      | error error =>
        rw [others] at mapped
        nomatch mapped
      | ok bs =>
        rw [others] at mapped
        cases mapped
        exact .cons first (ih others)

theorem mapM_exists {f : α → Except ε β} (each : ∀ a ∈ items, ∃ b, f a = .ok b) :
    ∃ results, items.mapM f = .ok results := by
  induction items with
  | nil => exact ⟨[], rfl⟩
  | cons a rest ih =>
    obtain ⟨b, first⟩ := each a mem_cons_self
    obtain ⟨bs, others⟩ := ih fun a member => each a (mem_cons_of_mem _ member)
    exact ⟨b :: bs, by rw [mapM_cons, first, others]; rfl⟩

theorem mapM_some {f : α → Option β} (mapped : items.mapM f = some results) :
    List.Forall₂ (fun a b => f a = some b) items results := by
  induction items generalizing results with
  | nil =>
    cases mapped
    exact .nil
  | cons a rest ih =>
    rw [mapM_cons, Option.bind_eq_bind, Option.bind_eq_some_iff] at mapped
    obtain ⟨b, first, mapped⟩ := mapped
    obtain ⟨bs, others, mapped⟩ := Option.bind_eq_some_iff.mp mapped
    cases mapped
    exact .cons first (ih others)

theorem forM_ok {check : α → Except ε Unit} (ok : items.forM check = .ok ()) : ∀ a ∈ items, check a = .ok () := by
  induction items with
  | nil => exact fun _ here => absurd here not_mem_nil
  | cons a rest ih =>
    change (check a >>= fun _ => rest.forM check) = .ok () at ok
    cases first : check a with
    | error error =>
      rw [first] at ok
      cases ok
    | ok u =>
      rw [first] at ok
      intro b here
      rcases List.mem_cons.mp here with rfl | here
      · exact first
      · exact ih ok b here

theorem anyM_ok_false {p : α → Except ε Bool} (none : items.anyM p = .ok false) : ∀ a ∈ items, p a = .ok false := by
  induction items with
  | nil => exact fun _ here => absurd here not_mem_nil
  | cons a rest ih =>
    rw [List.anyM] at none
    cases first : p a with
    | error error =>
      rw [first] at none
      cases none
    | ok found =>
      rw [first] at none
      cases found with
      | true => cases none
      | false =>
        intro b here
        rcases List.mem_cons.mp here with rfl | later
        · exact first
        · exact ih none b later

variable {xs : List α}

theorem forall₂_trans {R S T : α → α → Prop} (compose : ∀ a b c, R a b → S b c → T a c) {ys zs : List α}
    (first : List.Forall₂ R xs ys) (second : List.Forall₂ S ys zs) : List.Forall₂ T xs zs := by
  induction first generalizing zs with
  | nil =>
    cases second
    exact .nil
  | cons here _ ih =>
    cases second with
    | cons there rest => exact .cons (compose _ _ _ here there) (ih rest)

variable {R : α → β → Prop} {ys : List β}

theorem forall₂_exists (all : List.Forall₂ R xs ys) {a : α} (member : a ∈ xs) : ∃ b ∈ ys, R a b := by
  induction all with
  | nil => nomatch member
  | cons here _ ih =>
    rcases List.mem_cons.mp member with rfl | member
    · exact ⟨_, mem_cons_self, here⟩
    · obtain ⟨b, inside, related⟩ := ih member
      exact ⟨b, mem_cons_of_mem _ inside, related⟩

theorem forall₂_both {S : α → β → Prop} (first : List.Forall₂ R xs ys) (second : List.Forall₂ S xs ys) :
    List.Forall₂ (fun a b => R a b ∧ S a b) xs ys := by
  induction first with
  | nil => exact .nil
  | cons here _ ih =>
    cases second with
    | cons there rest => exact .cons ⟨here, there⟩ (ih rest)

theorem forall₂_imp_mem {S : α → β → Prop} (all : List.Forall₂ R xs ys) (same : ∀ a ∈ xs, ∀ b, R a b → S a b) :
    List.Forall₂ S xs ys := by
  induction all with
  | nil => exact .nil
  | cons here _ ih =>
    exact .cons (same _ mem_cons_self _ here) (ih fun a member => same a (mem_cons_of_mem _ member))

end Loops
