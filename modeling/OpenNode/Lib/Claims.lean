import Mathlib

namespace Claims

open List

variable {ρ κ χ η : Type*} (owner : ρ → κ) (keys : ρ → List χ) (form : χ → η)

/-- No two owners share a key. -/
def Apart (rows : List ρ) : Prop :=
  ∀ row ∈ rows, ∀ other ∈ rows, owner row ≠ owner other → ∀ key ∈ keys row, ∀ key' ∈ keys other,
    form key ≠ form key'

/-- No claim is for a key of another owner. -/
def Clear (rows : List ρ) (claims : List (κ × χ)) : Prop :=
  ∀ row ∈ rows, ∀ claim ∈ claims, owner row ≠ claim.1 → ∀ key ∈ keys row, form key ≠ form claim.2

/-- No two owners claim one key. -/
def Compatible (claims : List (κ × χ)) : Prop :=
  ∀ claim ∈ claims, ∀ other ∈ claims, form claim.2 = form other.2 → claim.1 = other.1

/-- The owner that a dictionary has for a form, the last that was stored. -/
def owner? [DecidableEq η] (stored : List (η × κ)) (key : η) : Option κ :=
  (stored.reverse.find? (·.1 = key)).map (·.2)

/-- A pass over claims, each against what is stored and against those before it. -/
def collides [DecidableEq κ] [DecidableEq η] (stored incoming : List (η × κ)) : List (κ × χ) → Bool
  | [] => false
  | (claimant, key) :: claims =>
    (owner? incoming (form key)).any (· ≠ claimant) || (owner? stored (form key)).any (· ≠ claimant) ||
      collides stored (incoming ++ [(form key, claimant)]) claims

/-- The keys of a table with their owners. -/
def stored (rows : List ρ) : List (η × κ) :=
  rows.flatMap fun row => (keys row).map fun key => (form key, owner row)

variable {owner keys form}

theorem owner?_some [DecidableEq η] {stored : List (η × κ)} {key : η} {holder : κ}
    (known : owner? stored key = some holder) :
    (key, holder) ∈ stored := by
  obtain ⟨pair, found, rfl⟩ := Option.map_eq_some_iff.mp known
  have here := List.mem_reverse.mp (mem_of_find?_eq_some found)
  have same : pair.1 = key := by simpa using List.find?_some found
  exact same ▸ here

theorem owner?_isSome [DecidableEq η] {stored : List (η × κ)} {key : η} {holder : κ}
    (here : (key, holder) ∈ stored) :
    ∃ other, owner? stored key = some other := by
  have found : (stored.reverse.find? (·.1 = key)).isSome :=
    List.find?_isSome.mpr ⟨_, List.mem_reverse.mpr here, decide_eq_true rfl⟩
  obtain ⟨pair, known⟩ := Option.isSome_iff_exists.mp found
  exact ⟨pair.2, by rw [owner?, known, Option.map_some]⟩

theorem mem_stored {rows : List ρ} {pair : η × κ} :
    pair ∈ stored owner keys form rows ↔ ∃ row ∈ rows, owner row = pair.2 ∧ ∃ key ∈ keys row,
      form key = pair.1 := by
  simp only [stored, mem_flatMap, mem_map]
  constructor
  · rintro ⟨row, here, key, mine, rfl⟩
    exact ⟨row, here, rfl, key, mine, rfl⟩
  · rintro ⟨row, here, holds, key, mine, same⟩
    exact ⟨row, here, key, mine, by rw [same, holds]⟩

section Pass

variable [DecidableEq κ] [DecidableEq η]

theorem collides_false {stored incoming : List (η × κ)} {claims : List (κ × χ)}
    (agrees : ∀ pair ∈ incoming, ∀ pair' ∈ incoming, pair.1 = pair'.1 → pair.2 = pair'.2)
    (accepted : collides form stored incoming claims = false) :
    Compatible form claims ∧ (∀ claim ∈ claims, ∀ pair ∈ incoming, pair.1 = form claim.2 → pair.2 = claim.1) ∧
      ∀ claim ∈ claims, ∀ holder, owner? stored (form claim.2) = some holder → holder = claim.1 := by
  induction claims generalizing incoming with
  | nil => exact ⟨fun _ here => absurd here not_mem_nil, fun _ here => absurd here not_mem_nil,
      fun _ here => absurd here not_mem_nil⟩
  | cons claim claims ih =>
    obtain ⟨claimant, key⟩ := claim
    simp only [collides, Bool.or_eq_false_iff] at accepted
    obtain ⟨⟨earlier, held⟩, rest⟩ := accepted
    have before : ∀ pair ∈ incoming, pair.1 = form key → pair.2 = claimant := by
      intro pair here same
      obtain ⟨other, known⟩ := owner?_isSome (same ▸ here : (form key, pair.2) ∈ incoming)
      rw [known, Option.any_some, decide_eq_false_iff_not, not_not] at earlier
      exact (agrees pair here _ (owner?_some known) same).trans earlier
    have wider : ∀ pair ∈ incoming ++ [(form key, claimant)], ∀ pair' ∈ incoming ++ [(form key, claimant)],
        pair.1 = pair'.1 → pair.2 = pair'.2 := by
      intro pair here pair' here' same
      rcases List.mem_append.mp here with old | mine
      · rcases List.mem_append.mp here' with old' | mine'
        · exact agrees pair old pair' old' same
        · obtain rfl := List.mem_singleton.mp mine'
          exact before pair old same
      · obtain rfl := List.mem_singleton.mp mine
        rcases List.mem_append.mp here' with old' | mine'
        · exact (before pair' old' same.symm).symm
        · obtain rfl := List.mem_singleton.mp mine'
          rfl
    obtain ⟨compatible, clear, unheld⟩ := ih wider rest
    have mine (claim : κ × χ) (here : claim ∈ claims) (same : form key = form claim.2) : claimant = claim.1 :=
      clear claim here (form key, claimant) (mem_append_right _ (mem_singleton_self _)) same
    refine ⟨?_, ?_, ?_⟩
    · intro one here other there same
      rcases List.mem_cons.mp here with rfl | later
      · rcases List.mem_cons.mp there with rfl | later'
        · rfl
        · exact mine other later' same
      · rcases List.mem_cons.mp there with rfl | later'
        · exact (mine one later same.symm).symm
        · exact compatible one later other later' same
    · intro one here pair there same
      rcases List.mem_cons.mp here with rfl | later
      · exact before pair there same
      · exact clear one later pair (mem_append_left _ there) same
    · intro one here holder known
      rcases List.mem_cons.mp here with rfl | later
      · rw [known, Option.any_some, decide_eq_false_iff_not, not_not] at held
        exact held
      · exact unheld one later holder known

theorem Apart.accepted {rows : List ρ} {claims : List (κ × χ)} (apart : Apart owner keys form rows)
    (accepted : collides form (stored owner keys form rows) [] claims = false) :
    Clear owner keys form rows claims ∧ Compatible form claims := by
  obtain ⟨compatible, _, unheld⟩ := collides_false (fun _ here => absurd here not_mem_nil) accepted
  refine ⟨fun row here claim claimed other key mine same => ?_, compatible⟩
  have listed : (form claim.2, owner row) ∈ stored owner keys form rows :=
    mem_stored.mpr ⟨row, here, rfl, key, mine, same⟩
  obtain ⟨holder, known⟩ := owner?_isSome listed
  obtain ⟨row', there, holds, key', its, same'⟩ := mem_stored.mp (owner?_some known)
  have owns : holder = claim.1 := unheld claim claimed holder known
  exact apart row here row' there (fun equal => other (equal.trans (holds.trans owns))) key mine key' its
    (same.trans same'.symm)

end Pass

section Writes

variable {rows rows' : List ρ} {claims : List (κ × χ)}

theorem Apart.write (apart : Apart owner keys form rows) (clear : Clear owner keys form rows claims)
    (compatible : Compatible form claims)
    (each : ∀ row ∈ rows', row ∈ rows ∨ ∀ key ∈ keys row, (owner row, key) ∈ claims) :
    Apart owner keys form rows' := by
  intro row here other there different key mine key' its
  rcases each row here with old | claimed
  · rcases each other there with old' | claimed'
    · exact apart row old other old' different key mine key' its
    · exact clear row old _ (claimed' key' its) different key mine
  · rcases each other there with old' | claimed'
    · exact (clear other old' _ (claimed key mine) different.symm key' its).symm
    · exact fun same => different (compatible _ (claimed key mine) _ (claimed' key' its) same)

theorem Clear.write (clear : Clear owner keys form rows claims) (compatible : Compatible form claims)
    (each : ∀ row ∈ rows', row ∈ rows ∨ ∀ key ∈ keys row, (owner row, key) ∈ claims) :
    Clear owner keys form rows' claims := by
  intro row here claim claimed different key mine
  rcases each row here with old | held
  · exact clear row old claim claimed different key mine
  · exact fun same => different (compatible _ (held key mine) claim claimed same)

theorem Apart.mono (apart : Apart owner keys form rows)
    (each : ∀ row ∈ rows', ∃ old ∈ rows, owner old = owner row ∧ ∀ key ∈ keys row, key ∈ keys old) :
    Apart owner keys form rows' := by
  intro row here other there different key mine key' its
  obtain ⟨old, before, same, held⟩ := each row here
  obtain ⟨old', before', same', held'⟩ := each other there
  exact apart old before old' before' (by rwa [same, same']) key (held key mine) key' (held' key' its)

end Writes

end Claims
