import Mathlib

namespace OpenNode.Edits

open List

section Results

universe u

variable {ε : Type*} {α β : Type u}

variable {x : Except ε α} {f : α → Except ε β}

theorem bind_eq_ok {b : β} (result : (x >>= f) = .ok b) : ∃ a, x = .ok a ∧ f a = .ok b := by
  cases x with
  | error _ => exact (nomatch result)
  | ok a => exact ⟨a, rfl, result⟩

theorem bind_ok {a : α} (first : x = .ok a) : (x >>= f) = f a := by
  rw [first]; rfl

/-- A check in front of the rest of a computation. -/
def require (holds : Prop) [Decidable holds] (error : ε) : Except ε PUnit.{u + 1} :=
  if holds then .ok ⟨⟩ else .error error

theorem require_ok {holds : Prop} [Decidable holds] {error : ε} {done : PUnit.{u + 1}}
    (passed : require holds error = .ok done) : holds := by
  by_contra fails
  exact nomatch (if_neg fails).symm.trans passed

theorem foldlM_keeps {γ : Type u} {P : β → Prop} {f : β → γ → Except ε β} {items : List γ}
    (step : ∀ item ∈ items, ∀ s t, P s → f s item = .ok t → P t) {s t : β} (start : P s)
    (done : items.foldlM f s = .ok t) : P t := by
  induction items generalizing s with
  | nil => exact Except.ok.inj done ▸ start
  | cons item items ih =>
    rw [foldlM_cons] at done
    obtain ⟨next, first, rest⟩ := bind_eq_ok done
    exact ih (fun other later => step other (mem_cons_of_mem item later))
      (step item mem_cons_self s next start first) rest

end Results

variable {α : Type*} {p : α → Bool} {a : α}

variable {entries : List α} {index : Nat}

theorem filter_eraseIdx (at_index : entries[index]? = some a) (out : p a = false) :
    (entries.eraseIdx index).filter p = entries.filter p := by
  induction entries generalizing index with
  | nil => rfl
  | cons head entries ih =>
    cases index with
    | zero =>
      obtain rfl : head = a := by simpa using at_index
      simp [out]
    | succ index =>
      rw [eraseIdx_cons_succ, filter_cons, filter_cons, ih (by simpa using at_index)]

theorem filter_insertIdx (out : p a = false) : (entries.insertIdx index a).filter p = entries.filter p := by
  induction entries generalizing index with
  | nil => cases index <;> simp [out]
  | cons head entries ih =>
    cases index with
    | zero => simp [out]
    | succ index => rw [insertIdx_succ_cons, filter_cons, filter_cons, ih]

theorem length_filter_eraseIdx (at_index : entries[index]? = some a) (selected : p a = true) :
    ((entries.eraseIdx index).filter p).length + 1 = (entries.filter p).length := by
  induction entries generalizing index with
  | nil => simp at at_index
  | cons head entries ih =>
    cases index with
    | zero =>
      obtain rfl : head = a := by simpa using at_index
      simp [selected]
    | succ index =>
      have := ih (show entries[index]? = some a by simpa using at_index)
      rw [eraseIdx_cons_succ, filter_cons, filter_cons]
      split
      · rw [length_cons, length_cons, this]
      · exact this

theorem length_filter_insertIdx_le (entries : List α) (index : Nat) :
    ((entries.insertIdx index a).filter p).length ≤ (entries.filter p).length + 1 := by
  induction entries generalizing index with
  | nil => cases index <;> simp [filter_cons]; split <;> simp
  | cons head entries ih =>
    cases index with
    | zero =>
      rw [insertIdx_zero, filter_cons]
      split <;> simp
    | succ index =>
      have := ih index
      rw [insertIdx_succ_cons, filter_cons, filter_cons]
      split
      · simpa using this
      · exact this

end OpenNode.Edits
