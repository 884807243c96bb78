import Mathlib

namespace Obligations

variable {π : Type*} {owes owes' : π → Prop} {processes : List π} {process next : π} {i : Nat}

/-- Some process owes. -/
def Owed (owes : π → Prop) (processes : List π) : Prop :=
  ∃ process ∈ processes, owes process

/-- Some process other than the one at a position owes. -/
def OwedByOther (owes : π → Prop) (processes : List π) (i : Nat) : Prop :=
  ∃ j ∈ List.range processes.length, j ≠ i ∧ ∃ process ∈ processes[j]?, owes process

instance [DecidablePred owes] : Decidable (OwedByOther owes processes i) :=
  inferInstanceAs (Decidable (∃ j ∈ List.range processes.length, j ≠ i ∧ ∃ process ∈ processes[j]?, owes process))

theorem Owed.cases (owed : Owed owes processes) (here : processes[i]? = some process) :
    owes process ∨ OwedByOther owes processes i := by
  obtain ⟨other, listed, due⟩ := owed
  obtain ⟨j, inside, rfl⟩ := List.getElem_of_mem listed
  by_cases same : j = i
  · subst same
    rw [List.getElem?_eq_getElem inside] at here
    exact .inl (Option.some.inj here ▸ due)
  · exact .inr ⟨j, List.mem_range.mpr inside, same, _, List.getElem?_eq_getElem inside, due⟩

theorem OwedByOther.set (owed : OwedByOther owes processes i) (next : π) : Owed owes (processes.set i next) := by
  obtain ⟨j, _, other, process, here, due⟩ := owed
  refine ⟨process, ?_, due⟩
  refine List.mem_of_getElem? (i := j) ?_
  rw [List.getElem?_set_ne (Ne.symm other)]
  exact here

theorem Owed.set_self (here : processes[i]? = some process) (due : owes next) :
    Owed owes (processes.set i next) := by
  obtain ⟨inside, _⟩ := List.getElem?_eq_some_iff.mp here
  exact ⟨next, List.mem_set inside next, due⟩

theorem Owed.append (owed : Owed owes processes) (new : π) : Owed owes (processes ++ [new]) := by
  obtain ⟨process, listed, due⟩ := owed
  exact ⟨process, List.mem_append_left _ listed, due⟩

theorem Owed.new (due : owes next) : Owed owes (processes ++ [next]) :=
  ⟨next, List.mem_append_right _ List.mem_cons_self, due⟩

theorem Owed.mono (implies : ∀ process ∈ processes, owes process → owes' process) (owed : Owed owes processes) :
    Owed owes' processes := by
  obtain ⟨process, listed, due⟩ := owed
  exact ⟨process, listed, implies process listed due⟩

end Obligations
