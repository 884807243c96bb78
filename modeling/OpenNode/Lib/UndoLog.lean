import Mathlib

namespace UndoLog

variable {κ υ : Type*} [DecidableEq κ]

/-- Each entry replaces the value of its key. -/
def putAll (entries : List (κ × υ)) (m : κ → υ) : κ → υ :=
  entries.foldl (fun m entry => Function.update m entry.1 entry.2) m

@[simp] theorem putAll_nil (m : κ → υ) : putAll [] m = m := rfl

@[simp] theorem putAll_cons (entry : κ × υ) (entries : List (κ × υ)) (m : κ → υ) :
    putAll (entry :: entries) m = putAll entries (Function.update m entry.1 entry.2) := rfl

theorem putAll_other {entries : List (κ × υ)} {m : κ → υ} {key : κ} (other : key ∉ entries.map Prod.fst) :
    putAll entries m key = m key := by
  induction entries generalizing m with
  | nil => rfl
  | cons entry rest ih =>
    rw [List.map_cons, List.mem_cons, not_or] at other
    rw [putAll_cons, ih other.2, Function.update_of_ne other.1]

theorem putAll_undo {keys : List κ} {m before : κ → υ} (others : ∀ key, key ∉ keys → m key = before key) :
    putAll (keys.map fun key => (key, before key)) m = before := by
  induction keys generalizing m with
  | nil => exact funext fun key => others key List.not_mem_nil
  | cons key rest ih =>
    rw [List.map_cons, putAll_cons]
    refine ih fun other outside => ?_
    by_cases same : other = key
    · rw [same, Function.update_self]
    · rw [Function.update_of_ne same]
      exact others other fun here => (List.mem_cons.mp here).elim same outside

end UndoLog
