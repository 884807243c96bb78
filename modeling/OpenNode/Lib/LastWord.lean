import OpenNode.Lib.Assoc

namespace LastWord

open List

section Last

variable {α κ : Type*} (key : α → κ)

/-- An item of a list with no later one of its key. -/
def IsLast (items : List α) (item : α) : Prop :=
  ∃ past later, items = past ++ item :: later ∧ ∀ other ∈ later, key other ≠ key item

variable {key} {items : List α}

theorem IsLast.mem {item : α} (last : IsLast key items item) : item ∈ items := by
  obtain ⟨past, later, rfl, _⟩ := last
  exact mem_append_right _ mem_cons_self

theorem isLast_snoc {newest item : α} :
    IsLast key (items ++ [newest]) item ↔ item = newest ∨ key newest ≠ key item ∧ IsLast key items item := by
  constructor
  · rintro ⟨past, later, split, apart⟩
    rcases eq_nil_or_concat later with rfl | ⟨before, last, rfl⟩
    · exact .inl (append_inj_right' split rfl |> List.singleton_inj.mp).symm
    · rw [concat_eq_append, ← cons_append, ← append_assoc] at split
      have here := append_inj_left' split rfl
      have there := List.singleton_inj.mp (append_inj_right' split rfl)
      subst there
      refine .inr ⟨apart newest (by simp), past, before, here, fun other member => apart other ?_⟩
      rw [concat_eq_append]
      exact mem_append_left _ member
  · rintro (rfl | ⟨differs, past, later, rfl, apart⟩)
    · exact ⟨items, [], rfl, nofun⟩
    · refine ⟨past, later ++ [newest], by simp, fun other member => ?_⟩
      rcases List.mem_append.mp member with before | last
      · exact apart other before
      · rw [List.mem_singleton.mp last]
        exact differs

end Last

section Dictionaries

variable {α κ : Type*} [DecidableEq κ] (key : α → κ)

/-- The items as a dictionary by their keys. -/
def byKey (items : List α) : List (κ × α) :=
  items.foldl (fun entries item => Assoc.put (key item) item entries) []

variable {key} {items : List α}

theorem byKey_snoc (items : List α) (newest : α) :
    byKey key (items ++ [newest]) = Assoc.put (key newest) newest (byKey key items) := by
  rw [byKey, foldl_append]
  rfl

theorem byKey_nodup : ((byKey key items).map Prod.fst).Nodup := by
  induction items using List.reverseRecOn with
  | nil => exact nodup_nil
  | append_singleton items newest ih =>
    rw [byKey_snoc]
    exact Assoc.put_nodup ih _ _

theorem mem_byKey {entry : κ × α} : entry ∈ byKey key items ↔ IsLast key items entry.2 ∧ entry.1 = key entry.2 := by
  induction items using List.reverseRecOn with
  | nil =>
    constructor
    · exact nofun
    · rintro ⟨last, _⟩
      nomatch last.mem
  | append_singleton items newest ih =>
    obtain ⟨k, a⟩ := entry
    rw [byKey_snoc, Assoc.mem_put byKey_nodup, isLast_snoc, ih]
    constructor
    · rintro (same | ⟨differs, last, own⟩)
      · cases same
        exact ⟨.inl rfl, rfl⟩
      · exact ⟨.inr ⟨fun same => differs (same.trans own.symm), last⟩, own⟩
    · rintro ⟨rfl | ⟨differs, last⟩, own⟩
      · exact .inl (Prod.ext own rfl)
      · exact .inr ⟨fun same => differs (same.trans own), last, own⟩

end Dictionaries

section Members

variable {α : Type*}

/-- The members after words that let one in or put it out: the last word on a member decides. -/
def Members (start : α → Prop) (words : List (α × Bool)) (a : α) : Prop :=
  IsLast Prod.fst words (a, true) ∨ start a ∧ ∀ word ∈ words, word.1 ≠ a

variable {start : α → Prop} {words : List (α × Bool)} {a : α}

@[simp] theorem members_nil : Members start [] a ↔ start a := by
  refine ⟨?_, fun here => .inr ⟨here, nofun⟩⟩
  rintro (last | ⟨here, _⟩)
  · nomatch last.mem
  · exact here

theorem members_snoc {newest : α × Bool} :
    Members start (words ++ [newest]) a ↔ newest = (a, true) ∨ newest.1 ≠ a ∧ Members start words a := by
  rw [Members, Members, isLast_snoc]
  constructor
  · rintro ((same | ⟨differs, last⟩) | ⟨here, none⟩)
    · exact .inl same.symm
    · exact .inr ⟨differs, .inl last⟩
    · exact .inr ⟨none newest (by simp), .inr ⟨here, fun word member => none word (mem_append_left _ member)⟩⟩
  · rintro (same | ⟨differs, last | ⟨here, none⟩⟩)
    · exact .inl (.inl same.symm)
    · exact .inl (.inr ⟨differs, last⟩)
    · refine .inr ⟨here, fun word member => ?_⟩
      rcases List.mem_append.mp member with before | last
      · exact none word before
      · rw [List.mem_singleton.mp last]
        exact differs

theorem members_append {later : List (α × Bool)} :
    Members start (words ++ later) a ↔ Members (Members start words) later a := by
  induction later using List.reverseRecOn generalizing a with
  | nil => rw [append_nil, members_nil]
  | append_singleton later newest ih => rw [← append_assoc, members_snoc, members_snoc, ih]

theorem members_congr {other : α → Prop} (same : ∀ a, start a ↔ other a) : Members start words a ↔
    Members other words a := by
  rw [Members, Members, same]

end Members

end LastWord
