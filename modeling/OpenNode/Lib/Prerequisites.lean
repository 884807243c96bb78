import Mathlib

namespace Prerequisites

variable {ι : Type*} (parent : ι → Option ι)

/-- `Above p i`: `p` is the prerequisite of `i`, or of one of its prerequisites. -/
abbrev Above : ι → ι → Prop :=
  Relation.TransGen fun p i => parent i = some p

variable {parent}

theorem above_succeeded (started succeeded : ι → Prop) (ready : ∀ i p, parent i = some p → started i → succeeded p)
    (ran : ∀ i, succeeded i → started i) {p i : ι} (above : Above parent p i)
    (begun : started i) : succeeded p := by
  induction above using Relation.TransGen.head_induction_on with
  | single link => exact ready _ _ link begun
  | head link _ ih => exact ready _ _ link (ran _ ih)

end Prerequisites
