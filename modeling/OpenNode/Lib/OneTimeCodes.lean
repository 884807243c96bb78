import Mathlib

namespace OneTimeCodes

variable {C : Type*}

/-- What a code stands for: a stored recovery code, or the code that a secret
shows at a time step. -/
structure Scheme (C : Type*) where
  recovery : String → C → Option Nat
  shows : Nat → Int → C → Bool

structure Factor where
  secret : Option Nat := none
  lastStep : Int := -1
  recovery : List Nat := []
deriving DecidableEq, Repr

/-- What was accepted of an owner. -/
inductive Proof where
  | step (owner : String) (secret : Nat) (step : Int)
  | recovery (owner : String) (code : Nat)
deriving DecidableEq, Repr

def Proof.owner : Proof → String
  | .step owner _ _ => owner
  | .recovery owner _ => owner

/-- The secret or the recovery code of a proof. -/
def Proof.number : Proof → Nat
  | .step _ secret _ => secret
  | .recovery _ code => code

/-- Codes that are drawn in a row. -/
def codesFrom (serial count : Nat) : List Nat :=
  (List.range count).map (serial + ·)

/-- The time steps around a time in seconds. -/
def stepsAt (now : Nat) : List Int :=
  let counter : Int := now / 30
  [counter + 1, counter, counter - 1]

/-- The step at which a secret shows the code, after the last one. -/
def findStep (scheme : Scheme C) (now : Nat) (secret : Nat) (code : C) (lastStep : Int) : Option Int :=
  (stepsAt now).find? fun step => decide (lastStep < step) && scheme.shows secret step code

/-- A code is accepted, and what it stands for cannot be accepted again. -/
def verify (scheme : Scheme C) (now : Nat) (owner : String) (code : C) (factor : Factor) :
    Option (Factor × Proof) :=
  match scheme.recovery owner code with
  | some stored =>
    if stored ∈ factor.recovery then
      some ({ factor with recovery := factor.recovery.filter (· != stored) }, .recovery owner stored)
    else none
  | none =>
    match factor.secret with
    | none => none
    | some secret =>
      match findStep scheme now secret code factor.lastStep with
      | none => none
      | some step => some ({ factor with lastStep := step }, .step owner secret step)

/-- The codes that a factor can still accept are not in the log. -/
structure Unused (log : List Proof) (owner : String) (factor : Factor) : Prop where
  step : ∀ secret step, factor.secret = some secret → Proof.step owner secret step ∈ log → step ≤ factor.lastStep
  recovery : ∀ code ∈ factor.recovery, Proof.recovery owner code ∉ log

/-- A log of what was accepted, once each, of secrets and codes that were drawn before a number. -/
structure Ledger (log : List Proof) (serial : Nat) : Prop where
  nodup : log.Nodup
  below : ∀ proof ∈ log, proof.number < serial

/-- A factor of drawn numbers, whose codes are not in the log. -/
structure Fresh (log : List Proof) (serial : Nat) (owner : String) (factor : Factor) : Prop where
  secret : ∀ secret, factor.secret = some secret → secret < serial
  recovery : ∀ code ∈ factor.recovery, code < serial
  unused : Unused log owner factor

/-- A drawn secret that is not yet in use. -/
structure Pending (log : List Proof) (serial : Nat) (owner : String) (factor : Factor) (secret : Nat) : Prop where
  below : secret < serial
  other : factor.secret ≠ some secret
  unused : ∀ step, Proof.step owner secret step ∉ log

variable {scheme : Scheme C} {now : Nat} {owner : String} {code : C} {factor factor' : Factor} {proof : Proof}
variable {log : List Proof}

variable {secret : Nat} {lastStep : Int}

theorem findStep_eq_some {step : Int} (found : findStep scheme now secret code lastStep = some step) :
    lastStep < step ∧ scheme.shows secret step code = true := by
  have holds := List.find?_some found
  simpa using holds

section

variable (ok : verify scheme now owner code factor = some (factor', proof))
include ok

theorem verify_proof : (∃ secret step, factor.secret = some secret ∧ proof = .step owner secret step) ∨
      ∃ stored ∈ factor.recovery, proof = .recovery owner stored := by
  unfold verify at ok
  split at ok
  · rename_i stored _
    split at ok
    · rename_i left
      cases ok
      exact Or.inr ⟨stored, left, rfl⟩
    · cases ok
  · split at ok
    · cases ok
    · rename_i secret known
      split at ok
      · cases ok
      · rename_i step _
        cases ok
        exact Or.inl ⟨secret, step, known, rfl⟩

theorem verify_owner : proof.owner = owner := by
  rcases verify_proof ok with ⟨secret, step, -, rfl⟩ | ⟨stored, -, rfl⟩
  · rfl
  · rfl

theorem verify_secret : factor'.secret = factor.secret ∧
    (∀ stored ∈ factor'.recovery, stored ∈ factor.recovery) := by
  unfold verify at ok
  split at ok
  · split at ok
    · cases ok
      exact ⟨rfl, fun stored member => (List.mem_filter.mp member).1⟩
    · cases ok
  · split at ok
    · cases ok
    · split at ok
      · cases ok
      · cases ok
        exact ⟨rfl, fun stored => id⟩

end

theorem Unused.verify (unused : Unused log owner factor)
    (ok : OneTimeCodes.verify scheme now owner code factor = some (factor', proof)) :
    proof ∉ log ∧ Unused (proof :: log) owner factor' := by
  unfold OneTimeCodes.verify at ok
  split at ok
  · rename_i stored _
    split at ok
    · rename_i here
      cases ok
      refine ⟨unused.recovery stored here, ⟨fun secret step known member => ?_, fun left member used => ?_⟩⟩
      · exact unused.step secret step known ((List.mem_cons.mp member).resolve_left nofun)
      · obtain ⟨before, differs⟩ := List.mem_filter.mp member
        rcases List.mem_cons.mp used with same | earlier
        · cases same
          simp at differs
        · exact unused.recovery left before earlier
    · cases ok
  · split at ok
    · cases ok
    · rename_i secret known
      split at ok
      · cases ok
      · rename_i step found
        cases ok
        have after := (findStep_eq_some found).1
        refine ⟨fun used => ?_, ⟨fun other earlier same member => ?_, fun left member used => ?_⟩⟩
        · have before := unused.step secret step known used
          omega
        · rcases List.mem_cons.mp member with now | used
          · cases now
            exact Int.le_refl _
          · have before := unused.step other earlier same used
            show earlier ≤ step
            omega
        · exact unused.recovery left member ((List.mem_cons.mp used).resolve_left nofun)

theorem Unused.cons_other (unused : Unused log owner factor) (other : proof.owner ≠ owner) :
    Unused (proof :: log) owner factor where
  step secret step known member := by
    rcases List.mem_cons.mp member with here | earlier
    · exact absurd (congrArg Proof.owner here.symm) other
    · exact unused.step secret step known earlier
  recovery stored left used := by
    rcases List.mem_cons.mp used with here | earlier
    · exact absurd (congrArg Proof.owner here.symm) other
    · exact unused.recovery stored left earlier

theorem Unused.cleared : Unused log owner {} :=
  ⟨nofun, nofun⟩

theorem Unused.enrolled {codes : List Nat} (fresh : ∀ step, Proof.step owner secret step ∈ log → step ≤ lastStep)
    (new : ∀ stored ∈ codes, Proof.recovery owner stored ∉ log) :
    Unused log owner ⟨some secret, lastStep, codes⟩ where
  step other step same member := by
    cases same
    exact fresh step member
  recovery := new

section Numbers
variable {serial bound secret stored : Nat}

theorem mem_codesFrom {count : Nat} (here : stored ∈ codesFrom serial count) : serial ≤ stored ∧
    stored < serial + count := by
  obtain ⟨index, small, rfl⟩ := List.mem_map.mp here
  rw [List.mem_range] at small
  omega

theorem Ledger.later (ledger : Ledger log serial) (drawn : serial ≤ bound) : Ledger log bound where
  nodup := ledger.nodup
  below proof here := Nat.lt_of_lt_of_le (ledger.below proof here) drawn

theorem Ledger.cons (ledger : Ledger log serial) (new : proof ∉ log) (drawn : proof.number < serial) :
    Ledger (proof :: log) serial where
  nodup := List.nodup_cons.mpr ⟨new, ledger.nodup⟩
  below other here := by
    rcases List.mem_cons.mp here with rfl | before
    · exact drawn
    · exact ledger.below other before

theorem Ledger.notMem (ledger : Ledger log serial) (drawn : serial ≤ proof.number) : proof ∉ log := by
  intro used
  have before := ledger.below proof used
  omega

theorem Fresh.later (fresh : Fresh log serial owner factor) (drawn : serial ≤ bound) :
    Fresh log bound owner factor where
  secret secret here := Nat.lt_of_lt_of_le (fresh.secret secret here) drawn
  recovery code here := Nat.lt_of_lt_of_le (fresh.recovery code here) drawn
  unused := fresh.unused

theorem Fresh.cleared : Fresh log serial owner {} :=
  ⟨nofun, nofun, Unused.cleared⟩

theorem Fresh.cons_other (fresh : Fresh log serial owner factor) (other : proof.owner ≠ owner) :
    Fresh (proof :: log) serial owner factor :=
  { fresh with unused := fresh.unused.cons_other other }

theorem Fresh.renewed (fresh : Fresh log serial owner factor) (ledger : Ledger log serial) (count : Nat) :
    Fresh log (serial + count) owner { factor with recovery := codesFrom serial count } where
  secret secret here := Nat.lt_of_lt_of_le (fresh.secret secret here) (Nat.le_add_right _ _)
  recovery _ here := (mem_codesFrom here).2
  unused := ⟨fresh.unused.step, fun stored here => ledger.notMem (by exact (mem_codesFrom here).1)⟩

theorem Fresh.verify (fresh : Fresh log serial owner factor) (ledger : Ledger log serial)
    (ok : OneTimeCodes.verify scheme now owner code factor = some (factor', proof)) :
    Ledger (proof :: log) serial ∧ Fresh (proof :: log) serial owner factor' := by
  have ⟨new, unused⟩ := fresh.unused.verify ok
  have ⟨secret, recovery⟩ := verify_secret ok
  refine ⟨ledger.cons new ?_, fun known same => ?_, fun stored left => ?_, unused⟩
  · rcases verify_proof ok with ⟨known, step, same, rfl⟩ | ⟨stored, left, rfl⟩
    · exact fresh.secret known same
    · exact fresh.recovery stored left
  · exact fresh.secret known (secret ▸ same)
  · exact fresh.recovery stored (recovery stored left)

section

variable (pending : Pending log serial owner factor secret)
include pending

theorem Pending.later (drawn : serial ≤ bound) :
    Pending log bound owner factor secret :=
  { pending with below := Nat.lt_of_lt_of_le pending.below drawn }

theorem Pending.cons_other (other : proof.owner ≠ owner) : Pending (proof :: log) serial owner factor secret :=
  { pending with
    unused := fun step used => by
      rcases List.mem_cons.mp used with rfl | earlier
      · exact other rfl
      · exact pending.unused step earlier }

theorem Pending.verify (ok : OneTimeCodes.verify scheme now owner code factor = some (factor', proof)) :
    Pending (proof :: log) serial owner factor' secret where
  below := pending.below
  other := (verify_secret ok).1 ▸ pending.other
  unused step used := by
    rcases List.mem_cons.mp used with rfl | earlier
    · rcases verify_proof ok with ⟨known, _, here, same⟩ | ⟨stored, _, same⟩
      · cases same
        exact pending.other here
      · cases same
    · exact pending.unused step earlier

theorem Pending.enrolled (ledger : Ledger log serial) (step : Int)
    (count : Nat) : Ledger (.step owner secret step :: log) serial ∧
      Fresh (.step owner secret step :: log)
        (serial + count) owner ⟨some secret, step, codesFrom serial count⟩ := by
  refine ⟨ledger.cons (pending.unused step) pending.below, fun other same => ?_, fun _ drawn =>
    (mem_codesFrom drawn).2,
    Unused.enrolled (fun other used => ?_) fun stored drawn used => ?_⟩
  · cases same
    exact Nat.lt_of_lt_of_le pending.below (Nat.le_add_right _ _)
  · rcases List.mem_cons.mp used with same | earlier
    · cases same
      exact Int.le_refl _
    · exact absurd earlier (pending.unused other)
  · have new : Proof.recovery owner stored ∉ log := ledger.notMem (by exact (mem_codesFrom drawn).1)
    exact new ((List.mem_cons.mp used).resolve_left nofun)

end

theorem verify_lastStep (ok : OneTimeCodes.verify scheme now owner code factor = some (factor', proof)) :
    factor.lastStep ≤ factor'.lastStep := by
  unfold OneTimeCodes.verify at ok
  split at ok
  · split at ok
    · cases ok
      exact Int.le_refl _
    · cases ok
  · split at ok
    · cases ok
    · split at ok
      · cases ok
      · rename_i found
        cases ok
        exact Int.le_of_lt (findStep_eq_some found).1

theorem Fresh.verify_all (fresh : ∀ name, Fresh log serial name factor) (ledger : Ledger log serial)
    (ok : OneTimeCodes.verify scheme now owner code factor = some (factor', proof)) :
    Ledger (proof :: log) serial ∧ ∀ name, Fresh (proof :: log) serial name factor' := by
  obtain ⟨ledger, mine⟩ := (fresh owner).verify ledger ok
  have ⟨secret, recovery⟩ := verify_secret ok
  refine ⟨ledger, fun name => ?_⟩
  by_cases same : name = owner
  · exact same ▸ mine
  · have earlier : ∀ used, used.owner = name → used ∈ proof :: log → used ∈ log := by
      intro used here member
      refine (List.mem_cons.mp member).resolve_left fun hit => same ?_
      rw [← here, hit, verify_owner ok]
    refine ⟨mine.secret, mine.recovery, fun known step here used => ?_, fun stored left used => ?_⟩
    · have before := (fresh name).unused.step known step (secret ▸ here) (earlier _ rfl used)
      have moved := verify_lastStep ok
      omega
    · exact (fresh name).unused.recovery stored (recovery stored left) (earlier _ rfl used)

theorem Pending.verify_all (pending : ∀ name, Pending log serial name factor secret)
    (ok : OneTimeCodes.verify scheme now owner code factor = some (factor', proof)) :
    ∀ name, Pending (proof :: log) serial name factor' secret := by
  intro name
  by_cases same : name = owner
  · exact same ▸ (pending owner).verify ok
  · have left := (pending name).cons_other fun hit => same (hit.symm.trans (verify_owner ok))
    exact { left with other := (verify_secret ok).1 ▸ left.other }

theorem Pending.enrolled_all (pending : ∀ name, Pending log serial name factor secret) (ledger : Ledger log serial)
    (owner : String) (step : Int) (count : Nat) : Ledger (.step owner secret step :: log) serial ∧
      ∀ name, Fresh (.step owner secret step :: log)
        (serial + count) name ⟨some secret, step, codesFrom serial count⟩ := by
  obtain ⟨ledger, mine⟩ := (pending owner).enrolled ledger step count
  refine ⟨ledger, fun name => ?_⟩
  by_cases same : name = owner
  · exact same ▸ mine
  · refine ⟨mine.secret, mine.recovery, fun known first here used => ?_, fun stored drawn used => ?_⟩
    · cases here
      have earlier := (List.mem_cons.mp used).resolve_left fun hit => same (by cases hit; rfl)
      exact absurd earlier ((pending name).unused first)
    · have earlier := (List.mem_cons.mp used).resolve_left nofun
      have before := ledger.below _ (List.mem_cons_of_mem _ earlier)
      have new := (mem_codesFrom drawn).1
      simp only [Proof.number] at before
      omega

end Numbers

end OneTimeCodes
