import Mathlib

namespace OpenNode.ReplayWindow

/-- The bitmap after the highest number grows by `shift`. -/
def slide (width bitmap shift : Nat) : Nat :=
  if width ≤ shift then 0 else (bitmap <<< shift) &&& (1 <<< width - 1)

theorem testBit_slide (width bitmap shift d : Nat) :
    (slide width bitmap shift).testBit d = (decide (d < width) && decide (shift ≤ d) &&
      bitmap.testBit (d - shift)) := by
  unfold slide
  split
  · by_cases below : d < width
    · have : ¬ shift ≤ d := by omega
      simp [this]
    · simp [below]
  · rw [Nat.one_shiftLeft, Nat.testBit_and, Nat.testBit_shiftLeft, Nat.testBit_two_pow_sub_one]
    by_cases below : d < width <;> simp [below]

theorem testBit_mark (bitmap d i : Nat) :
    (bitmap ||| 1 <<< d).testBit i = (bitmap.testBit i || decide (i = d)) := by
  rw [Nat.testBit_or, Nat.one_shiftLeft, Nat.testBit_two_pow]
  by_cases same : d = i
  · simp [same]
  · simp [same, Ne.symm same]

theorem and_bit_eq_zero (bitmap d : Nat) : bitmap &&& 1 <<< d = 0 ↔ bitmap.testBit d = false := by
  constructor
  · intro clear
    have bit := congrArg (fun n => n.testBit d) clear
    simpa [Nat.one_shiftLeft, Nat.testBit_two_pow_self] using bit
  · intro clear
    apply Nat.eq_of_testBit_eq
    intro i
    rw [Nat.testBit_and, Nat.one_shiftLeft, Nat.testBit_two_pow, Nat.zero_testBit]
    by_cases same : d = i
    · simp [← same, clear]
    · simp [same]

/-- What a window says of the numbers accepted so far, each of which is positive. -/
structure Denotes (width highest bitmap : Nat) (accepted : List Nat) : Prop where
  once : accepted.Nodup
  positive : ∀ s ∈ accepted, 0 < s
  bound : ∀ s ∈ accepted, s ≤ highest
  reached : highest ∈ accepted ∨ highest = 0 ∧ accepted = []
  bits : ∀ d, bitmap.testBit d = true ↔ d < width ∧ d ≤ highest ∧ highest - d ∈ accepted

theorem Denotes.start (width : Nat) : Denotes width 0 0 [] := by
  constructor <;> simp

variable {width highest bitmap : Nat} {accepted : List Nat}

section

variable (denotes : Denotes width highest bitmap accepted)
include denotes

theorem Denotes.lt : bitmap < 2 ^ width := by
  apply Nat.lt_pow_two_of_testBit
  intro d beyond
  by_contra set
  have := (denotes.bits d).mp (by simpa using set)
  omega

theorem Denotes.testBit_below {s : Nat} (below : s ≤ highest) (recent : highest - s < width) :
    bitmap.testBit (highest - s) = true ↔ s ∈ accepted := by
  rw [denotes.bits]
  have back : highest - (highest - s) = s := by omega
  rw [back]
  constructor
  · exact fun h => h.2.2
  · exact fun h => ⟨recent, by omega, h⟩

theorem Denotes.advance {s : Nat} (wide : 0 < width) (above : highest < s) :
    Denotes width s (slide width bitmap (s - highest) ||| 1) (s :: accepted) where
  once := List.nodup_cons.mpr ⟨fun old => absurd (denotes.bound s old) (by omega), denotes.once⟩
  positive := by
    intro x member
    rcases List.mem_cons.mp member with rfl | old
    · omega
    · exact denotes.positive x old
  bound := by
    intro x member
    rcases List.mem_cons.mp member with rfl | old
    · exact Nat.le_refl x
    · have := denotes.bound x old
      omega
  reached := .inl List.mem_cons_self
  bits d := by
    have marked := testBit_mark (slide width bitmap (s - highest)) 0 d
    rw [Nat.shiftLeft_zero] at marked
    rw [marked, testBit_slide, List.mem_cons]
    simp only [Bool.or_eq_true, Bool.and_eq_true, decide_eq_true_eq]
    constructor
    · rintro (⟨⟨recent, moved⟩, set⟩ | rfl)
      · obtain ⟨_, below, member⟩ := (denotes.bits (d - (s - highest))).mp set
        have place : highest - (d - (s - highest)) = s - d := by omega
        exact ⟨recent, by omega, .inr (place ▸ member)⟩
      · exact ⟨wide, Nat.zero_le s, .inl (by omega)⟩
    · rintro ⟨recent, below, same | old⟩
      · exact .inr (by omega)
      · have under := denotes.bound _ old
        have place : highest - (d - (s - highest)) = s - d := by omega
        exact .inl ⟨⟨recent, by omega⟩, (denotes.bits _).mpr ⟨by omega, by omega, place ▸ old⟩⟩

theorem Denotes.mark {s : Nat} (positive : 0 < s)
    (below : s ≤ highest) (recent : highest - s < width) (fresh : s ∉ accepted) :
    Denotes width highest (bitmap ||| 1 <<< (highest - s)) (s :: accepted) where
  once := List.nodup_cons.mpr ⟨fresh, denotes.once⟩
  positive := by
    intro x member
    rcases List.mem_cons.mp member with rfl | old
    · exact positive
    · exact denotes.positive x old
  bound := by
    intro x member
    rcases List.mem_cons.mp member with rfl | old
    · exact below
    · exact denotes.bound x old
  reached := by
    rcases denotes.reached with old | ⟨zero, _⟩
    · exact .inl (List.mem_cons_of_mem s old)
    · omega
  bits d := by
    rw [testBit_mark, List.mem_cons, Bool.or_eq_true, decide_eq_true_eq, denotes.bits]
    constructor
    · rintro (⟨near, under, old⟩ | rfl)
      · exact ⟨near, under, .inr old⟩
      · exact ⟨recent, Nat.sub_le highest s, .inl (by omega)⟩
    · rintro ⟨near, under, same | old⟩
      · exact .inr (by omega)
      · exact .inl ⟨near, under, old⟩

end

end OpenNode.ReplayWindow
