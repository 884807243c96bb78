import Mathlib

namespace Assoc

open List

variable {κ α : Type*} [DecidableEq κ]

/-- `d[key] = a`: a key keeps its place, and a new one comes last. -/
def put (key : κ) (a : α) : List (κ × α) → List (κ × α)
  | [] => [(key, a)]
  | (k, b) :: rest => if k = key then (key, a) :: rest else (k, b) :: put key a rest

/-- `d.update(additions)`. -/
def update (entries additions : List (κ × α)) : List (κ × α) :=
  additions.foldl (fun entries addition => put addition.1 addition.2 entries) entries

/-- `d.setdefault(key, a)`, without its value. -/
def putDefault (key : κ) (a : α) (entries : List (κ × α)) : List (κ × α) :=
  if (entries.lookup key).isSome then entries else put key a entries

theorem lookup_cons_eq (key other : κ) (a : α) (entries : List (κ × α)) :
    ((key, a) :: entries).lookup other = if other = key then some a else entries.lookup other := by
  rw [lookup_cons]
  by_cases same : other = key
  · rw [if_pos same, beq_iff_eq.mpr same]
  · rw [if_neg same, beq_eq_false_iff_ne.mpr same]

variable {entries : List (κ × α)} {key : κ} {a : α}

theorem lookup_of_mem (distinct : (entries.map Prod.fst).Nodup) (member : (key, a) ∈ entries) :
    entries.lookup key = some a := by
  induction entries with
  | nil => cases member
  | cons entry rest ih =>
    obtain ⟨k, b⟩ := entry
    obtain ⟨fresh, distinct⟩ := List.nodup_cons.mp distinct
    rw [lookup_cons_eq]
    rcases List.mem_cons.mp member with same | later
    · cases same
      exact if_pos rfl
    · have listed : key ∈ rest.map Prod.fst := mem_map_of_mem (f := Prod.fst) later
      have differs : key ≠ k := fun same => fresh (same ▸ listed)
      rw [if_neg differs]
      exact ih distinct later

theorem lookup_eq_none (absent : key ∉ entries.map Prod.fst) : entries.lookup key = none := by
  refine List.lookup_eq_none_iff.mpr fun entry member => ?_
  rw [bne_iff_ne]
  exact fun same => absent (same ▸ mem_map_of_mem member)

theorem lookup_put (key other : κ) (a : α) (entries : List (κ × α)) :
    (put key a entries).lookup other = if other = key then some a else entries.lookup other := by
  induction entries with
  | nil => exact lookup_cons_eq key other a []
  | cons entry rest ih =>
    obtain ⟨k, b⟩ := entry
    unfold put
    by_cases here : k = key
    · subst here
      rw [if_pos rfl, lookup_cons_eq, lookup_cons_eq]
      by_cases same : other = k
      · rw [if_pos same, if_pos same]
      · rw [if_neg same, if_neg same, if_neg same]
    · rw [if_neg here, lookup_cons_eq, lookup_cons_eq, ih]
      by_cases same : other = k
      · rw [if_pos same, if_neg (same ▸ here), if_pos same]
      · rw [if_neg same, if_neg same]

@[simp] theorem lookup_put_self (key : κ) (a : α) (entries : List (κ × α)) :
    (put key a entries).lookup key = some a := by
  rw [lookup_put, if_pos rfl]

theorem lookup_put_other {other : κ} (differs : other ≠ key) (a : α) (entries : List (κ × α)) :
    (put key a entries).lookup other = entries.lookup other := by
  rw [lookup_put, if_neg differs]

theorem lookup_filter (keep : κ → Bool) (key : κ) (entries : List (κ × α)) :
    (entries.filter fun entry => keep entry.1).lookup key = if keep key then entries.lookup key else none := by
  induction entries with
  | nil => exact (ite_self none).symm
  | cons entry rest ih =>
    obtain ⟨k, a⟩ := entry
    rw [filter_cons, lookup_cons_eq]
    by_cases same : key = k
    · subst same
      rw [if_pos rfl]
      cases kept : keep key with
      | true => rw [if_pos rfl, if_pos rfl, lookup_cons_eq, if_pos rfl]
      | false => rw [if_neg nofun, if_neg nofun, ih, kept, if_neg nofun]
    · rw [if_neg same, ← ih]
      cases keep k with
      | true => rw [if_pos rfl, lookup_cons_eq, if_neg same]
      | false => rw [if_neg nofun]

theorem put_put (key : κ) (a b : α) (entries : List (κ × α)) :
    put key b (put key a entries) = put key b entries := by
  induction entries with
  | nil => simp [put]
  | cons entry rest ih =>
    obtain ⟨k, c⟩ := entry
    by_cases here : k = key
    · simp [put, here]
    · simp [put, here, ih]

theorem put_of_lookup (here : entries.lookup key = some a) : put key a entries = entries := by
  induction entries with
  | nil => cases here
  | cons entry rest ih =>
    obtain ⟨k, b⟩ := entry
    rw [lookup_cons_eq] at here
    unfold put
    split
    · rename_i same
      rw [if_pos same.symm] at here
      rw [Option.some.inj here, same]
    · rename_i differs
      rw [if_neg (Ne.symm differs)] at here
      rw [ih here]

theorem lookup_putDefault (key other : κ) (a : α) (entries : List (κ × α)) :
    (putDefault key a entries).lookup other =
      if other = key then some ((entries.lookup key).getD a) else entries.lookup other := by
  unfold putDefault
  cases found : entries.lookup key with
  | none =>
    rw [if_neg (by simp), lookup_put]
    rfl
  | some old =>
    rw [if_pos (by simp)]
    by_cases same : other = key
    · rw [if_pos same, same, found]
      rfl
    · rw [if_neg same]

theorem mem_keys_put {other : κ} (member : other ∈ (put key a entries).map Prod.fst) :
    other = key ∨ other ∈ entries.map Prod.fst := by
  induction entries with
  | nil => exact .inl (List.mem_singleton.mp member)
  | cons entry rest ih =>
    obtain ⟨k, b⟩ := entry
    unfold put at member
    split at member
    · exact (List.mem_cons.mp member).imp_right (mem_cons_of_mem _)
    · rcases List.mem_cons.mp member with here | later
      · exact .inr (here ▸ mem_cons_self)
      · exact (ih later).imp_right (mem_cons_of_mem _)

variable {value : List (κ × α) → κ → α} {keys : List κ}

theorem lookup_foldl_put {p : α → Prop} (each : ∀ entries key, p (value entries key))
    (named : key ∈ keys ∨ ∃ a, entries.lookup key = some a ∧ p a) :
    ∃ a, (keys.foldl (fun entries key => put key (value entries key) entries) entries).lookup key =
      some a ∧ p a := by
  induction keys generalizing entries with
  | nil => exact named.resolve_left not_mem_nil
  | cons first rest ih =>
    refine ih ?_
    by_cases same : key = first
    · exact .inr ⟨value entries first, by rw [same, lookup_put_self], each entries first⟩
    · rcases named with listed | ⟨a, found, kept⟩
      · exact .inl ((List.mem_cons.mp listed).resolve_left same)
      · exact .inr ⟨a, (lookup_put_other same _ _).trans found, kept⟩

theorem mem_keys_foldl_put
    (member : key ∈ (keys.foldl (fun entries key => put key (value entries key) entries) entries).map Prod.fst) :
    key ∈ keys ∨ key ∈ entries.map Prod.fst := by
  induction keys generalizing entries with
  | nil => exact .inr member
  | cons first rest ih =>
    rcases ih member with listed | kept
    · exact .inl (mem_cons_of_mem _ listed)
    · rcases mem_keys_put kept with rfl | kept
      · exact .inl mem_cons_self
      · exact .inr kept

theorem put_nodup (distinct : (entries.map Prod.fst).Nodup) (key : κ) (a : α) :
    ((put key a entries).map Prod.fst).Nodup := by
  induction entries with
  | nil => exact nodup_singleton key
  | cons entry rest ih =>
    obtain ⟨k, b⟩ := entry
    rw [map_cons, nodup_cons] at distinct
    unfold put
    split
    · rename_i same
      rw [map_cons, nodup_cons]
      exact ⟨same ▸ distinct.1, distinct.2⟩
    · rename_i differs
      rw [map_cons, nodup_cons]
      refine ⟨fun member => ?_, ih distinct.2⟩
      exact (mem_keys_put member).elim differs distinct.1

variable {entry : κ × α}

theorem mem_put {k : κ} (unique : (entries.map Prod.fst).Nodup) :
    entry ∈ put k a entries ↔ entry = (k, a) ∨ k ≠ entry.1 ∧ entry ∈ entries := by
  induction entries with
  | nil => simp [put]
  | cons first rest ih =>
    obtain ⟨j, b⟩ := first
    rw [map_cons, nodup_cons] at unique
    unfold put
    split
    · rename_i same
      subst same
      rw [mem_cons, mem_cons]
      constructor
      · rintro (rfl | member)
        · exact .inl rfl
        · refine .inr ⟨fun same => unique.1 ?_, .inr member⟩
          dsimp only at same ⊢
          rw [same]
          exact mem_map_of_mem member
      · rintro (rfl | ⟨differs, rfl | member⟩)
        · exact .inl rfl
        · exact absurd rfl differs
        · exact .inr member
    · rename_i differs
      rw [mem_cons, mem_cons, ih unique.2]
      constructor
      · rintro (rfl | rfl | ⟨apart, member⟩)
        · exact .inr ⟨fun same => differs same.symm, .inl rfl⟩
        · exact .inl rfl
        · exact .inr ⟨apart, .inr member⟩
      · rintro (rfl | ⟨apart, rfl | member⟩)
        · exact .inr (.inl rfl)
        · exact .inl rfl
        · exact .inr (.inr ⟨apart, member⟩)

theorem mem_put_cases {k : κ} (member : entry ∈ put k a entries) : entry = (k, a) ∨ entry ∈ entries := by
  induction entries with
  | nil => exact .inl (List.mem_singleton.mp member)
  | cons first rest ih =>
    obtain ⟨j, b⟩ := first
    unfold put at member
    split at member
    · exact (List.mem_cons.mp member).imp_right (mem_cons_of_mem _)
    · rcases List.mem_cons.mp member with rfl | later
      · exact .inr mem_cons_self
      · exact (ih later).imp_right (mem_cons_of_mem _)

theorem keys_prefix_put (key : κ) (a : α) (entries : List (κ × α)) :
    entries.map Prod.fst <+: (put key a entries).map Prod.fst := by
  induction entries with
  | nil => exact nil_prefix
  | cons entry rest ih =>
    obtain ⟨k, b⟩ := entry
    unfold put
    split
    · rename_i same
      have keys : ((k, b) :: rest).map Prod.fst = ((key, a) :: rest).map Prod.fst := by
        rw [map_cons, map_cons, same]
      exact keys ▸ prefix_refl _
    · exact (prefix_cons_inj k).mpr ih

theorem length_put_le (key : κ) (a : α) (entries : List (κ × α)) :
    (put key a entries).length ≤ entries.length + 1 := by
  induction entries with
  | nil => exact Nat.le_refl _
  | cons entry rest ih =>
    rw [put]
    split
    · exact Nat.le_succ _
    · exact Nat.succ_le_succ ih

theorem length_update_le (entries additions : List (κ × α)) :
    (update entries additions).length ≤ entries.length + additions.length := by
  induction additions generalizing entries with
  | nil => exact Nat.le_refl _
  | cons addition rest ih =>
    have more := length_put_le addition.1 addition.2 entries
    have others := ih (put addition.1 addition.2 entries)
    rw [length_cons]
    exact Nat.le_trans others (by omega)

theorem lookup_update_other {additions : List (κ × α)} (absent : key ∉ additions.map Prod.fst) :
    (update entries additions).lookup key = entries.lookup key := by
  induction additions generalizing entries with
  | nil => rfl
  | cons addition rest ih =>
    rw [map_cons, mem_cons, not_or] at absent
    show (update (put addition.1 addition.2 entries) rest).lookup key = _
    rw [ih absent.2, lookup_put_other absent.1]

theorem lookup_update {additions : List (κ × α)} (distinct : (additions.map Prod.fst).Nodup)
    (member : (key, a) ∈ additions) : (update entries additions).lookup key = some a := by
  induction additions generalizing entries with
  | nil => cases member
  | cons addition rest ih =>
    rw [map_cons, nodup_cons] at distinct
    rcases List.mem_cons.mp member with here | later
    · subst here
      show (update (put key a entries) rest).lookup key = _
      rw [lookup_update_other distinct.1, lookup_put_self]
    · exact ih distinct.2 later

end Assoc
