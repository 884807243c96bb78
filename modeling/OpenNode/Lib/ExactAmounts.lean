import Mathlib

/-- The amounts that a rounding arithmetic adds, subtracts (down to zero) and
multiplies without rounding: the multiples of a unit up to a limit. For doubles
the unit is a power of two, and the limit is `2 ^ 53`. -/
structure ExactAmounts (W : Type*) [Zero W] [Add W] [Sub W] [SMul ℕ W] where
  limit : ℕ
  amount : ℕ → W
  zero : amount 0 = 0
  add : ∀ {m n}, m + n ≤ limit → amount m + amount n = amount (m + n)
  sub : ∀ {m n}, m ≤ limit → n ≤ limit → amount m - amount n = amount (m - n)
  smul : ∀ {n w}, n * w ≤ limit → n • amount w = amount (n * w)

namespace ExactAmounts

/-- Whole numbers in exact arithmetic. -/
def whole (limit : ℕ) : ExactAmounts ℕ where
  limit := limit
  amount := id
  zero := rfl
  add _ := rfl
  sub _ _ := rfl
  smul _ := rfl

variable {W α : Type*} [Zero W] [Add W] [Sub W] [SMul ℕ W] (exact : ExactAmounts W)

def amounts (pair : ℕ × ℕ) : W × W := (exact.amount pair.1, exact.amount pair.2)

/-- Both amounts are within the limit. -/
def Within (pair : ℕ × ℕ) : Prop := pair.1 ≤ exact.limit ∧ pair.2 ≤ exact.limit

instance (pair : ℕ × ℕ) : Decidable (exact.Within pair) :=
  inferInstanceAs (Decidable (_ ∧ _))

variable {exact} {m n : ℕ × ℕ}

theorem Within.le (within : exact.Within n) (le : m ≤ n) : exact.Within m :=
  ⟨le.1.trans within.1, le.2.trans within.2⟩

theorem amounts_add (within : exact.Within (m + n)) : exact.amounts m + exact.amounts n = exact.amounts (m + n) :=
  Prod.ext (exact.add within.1) (exact.add within.2)

theorem amounts_sum (f : α → ℕ × ℕ) (items : List α) (within : exact.Within (items.map f).sum) :
    (items.map fun item => exact.amounts (f item)).sum = exact.amounts (items.map f).sum := by
  induction items with
  | nil => exact Prod.ext exact.zero.symm exact.zero.symm
  | cons item rest ih =>
    simp only [List.map_cons, List.sum_cons] at within ⊢
    rw [ih (within.le le_add_self), amounts_add within]

end ExactAmounts
