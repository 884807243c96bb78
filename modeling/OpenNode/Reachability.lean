import OpenNode.Rollback

namespace OpenNode

open Inventory

namespace Inventory

variable {env : Env} {s t u : Inventory} {now : Time}

theorem map_prod_fst_ok {α β : Type} {x : Except Refusal (α × β)} {y : α}
    (mapped : x.map Prod.fst = .ok y) : ∃ z, x = .ok (y, z) := by
  cases x with
  | error refusal => cases mapped
  | ok w => exact ⟨w.2, by cases mapped; rfl⟩

theorem transact_keeps {operation : Operation} (invariant : s.SystemInvariant)
    (run : s.transact env now operation = .ok t) : Keeps env now operation s t := by
  have access := invariant.framework.ownership.access
  cases operation with
  | createServer federated =>
    cases Except.ok.inj run
    exact ⟨invariant.other_tables rfl rfl rfl access, .of_length (.of_commands rfl) rfl rfl,
      .quiet (.of_commands rfl)⟩
  | registerAgent server capabilities =>
    cases Except.ok.inj run
    exact ⟨invariant.other_tables rfl rfl rfl access, .of_length (.of_commands rfl) rfl rfl,
      .quiet (.of_commands rfl)⟩
  | createSequence server payloads => exact createCommandSequence_keeps invariant run
  | createChangeSet rollbackOnFailure steps => exact createChangeSetModel_keeps invariant run
  | dispatch change pending =>
    obtain ⟨ids, run⟩ := map_prod_fst_ok run
    exact dispatchModel_keeps invariant run
  | rollback change pending reason =>
    obtain ⟨ids, run⟩ := map_prod_fst_ok run
    exact rollback_keeps invariant run
  | accept change reason => exact accept_keeps invariant run
  | claim command view =>
    obtain ⟨granted, run⟩ := map_prod_fst_ok run
    exact (claimCommandLease_keeps invariant run).1
  | capabilityLoss command => exact reconcileCommandCapabilityLoss_keeps invariant run
  | releaseLease command attempts => exact releaseCommandLease_keeps invariant run
  | result command result => exact applyCommandResult_keeps invariant run
  | trackAccess username server =>
    cases Except.ok.inj run
    refine ⟨invariant.other_tables rfl rfl rfl ?_, .of_length (.of_commands rfl) rfl rfl, .quiet (.of_commands rfl)⟩
    intro row member id link
    rcases List.mem_append.mp member with old | fresh
    · exact access row old id link
    · cases List.mem_singleton.mp fresh
      cases link
  | reconcile rows view force timeoutMs =>
    obtain ⟨system, progress, quiet⟩ := reconcile_keeps invariant run
    exact ⟨system, progress, .quiet quiet⟩

theorem step_keeps (env : Env) (invariant : s.SystemInvariant) (now : Time) (operation : Operation) :
    Keeps env now operation s (s.step env now operation) := by
  unfold step
  split
  · rename_i t run
    exact transact_keeps invariant run
  · exact .refl invariant

theorem empty_system : SystemInvariant {} where
  framework :=
    { queue := by constructor <;> simp [Idle]
      ownership := by constructor <;> simp [Owns]
      locks := by constructor <;> simp }
  changes := by simp

end Inventory

section Runs

variable {env : Env} {s t : Inventory}

theorem Run.keeps (run : Run env s t) (invariant : s.SystemInvariant) : t.SystemInvariant ∧ s.Progress t := by
  induction run with
  | refl => exact ⟨invariant, .refl s⟩
  | step now operation _ ih =>
    have keeps := step_keeps env ih.1 now operation
    exact ⟨keeps.system, ih.2.trans keeps.progress⟩

theorem Reachable.system (reach : Reachable env s) : s.SystemInvariant :=
  (Run.keeps reach empty_system).1

/-- No sequence of operations leaves the invariant. -/
theorem perform_system (env : Env) (operations : List (Time × Operation)) :
    (Inventory.perform env {} operations).SystemInvariant :=
  (reachable_perform env operations).system

theorem Run.progress (run : Run env s t) (reach : Reachable env s) : s.Progress t :=
  (run.keeps reach.system).2

end Runs

namespace Inventory

variable {env : Env} {s t : Inventory} {now : Time} {k : CommandId}

/-- The attempts of a command, zero before it exists. -/
def attemptsOf (s : Inventory) (id : CommandId) : Nat :=
  ((s.commands[id]?).map Command.attempts).getD 0

/-- Between the two states the command was handed to an Agent. -/
def LeaseGranted (s t : Inventory) (id : CommandId) : Prop :=
  s.attemptsOf id < t.attemptsOf id

/-- The command was handed to an Agent for the first time. -/
def FirstLease (s t : Inventory) (id : CommandId) : Prop :=
  s.attemptsOf id = 0 ∧ s.LeaseGranted t id

variable {a : Command}

theorem attemptsOf_row (atRow : s.commands[k]? = some a) : s.attemptsOf k = a.attempts := by
  simp [attemptsOf, atRow]

theorem attemptsOf_none (absent : s.commands[k]? = none) : s.attemptsOf k = 0 := by
  simp [attemptsOf, absent]

theorem Quiet.attemptsOf (quiet : s.Quiet t) (id : CommandId) : t.attemptsOf id = s.attemptsOf id := by
  cases atRow : s.commands[id]? with
  | some a =>
    obtain ⟨b, atNew, change⟩ := quiet.old id a atRow
    rw [attemptsOf_row atRow, attemptsOf_row atNew, change.attempts_eq]
  | none =>
    rw [attemptsOf_none atRow]
    cases atNew : t.commands[id]? with
    | none => exact attemptsOf_none atNew
    | some b =>
      have fresh := quiet.fresh id b (List.getElem?_eq_none_iff.mp atRow) atNew
      simp only [Command.attempted, Bool.or_eq_false_iff, decide_eq_false_iff_not, Nat.not_lt, Nat.le_zero] at fresh
      rw [attemptsOf_row atNew, fresh.1.1]

theorem modifyCommand_attemptsOf {f : Command → Command} (atRow : s.commands[k]? = some a)
    (same : (f a).attempts = a.attempts) (id : CommandId) :
    (s.modifyCommand k f).attemptsOf id = s.attemptsOf id := by
  by_cases here : k = id
  · subst here
    rw [attemptsOf_row atRow, attemptsOf_row (Table.modify_self atRow), same]
  · simp only [attemptsOf, modifyCommand_commands, Table.modify_other here]

theorem Effect.leaseGranted {operation : Operation} (effect : Effect env now operation s t)
    (granted : s.LeaseGranted t k) :
    ∃ a, s.commands[k]? = some a ∧ a.isLeaseCandidate now = true ∧ s.canLease k a = true ∧
      t = s.grantLease k now := by
  unfold LeaseGranted at granted
  cases effect with
  | quiet quiet =>
    rw [quiet.attemptsOf] at granted
    omega
  | @lease j a _ _ atRow candidate allowed result =>
    by_cases same : j = k
    · subst same
      exact ⟨a, atRow, candidate, allowed, result⟩
    · rw [result] at granted
      simp only [attemptsOf, grantLease, modifyCommand_commands, Table.modify_other same] at granted
      omega
  | release atRow _ result =>
    rw [result, modifyCommand_attemptsOf atRow rfl] at granted
    omega
  | conclude _ atRow concludes _ _ quiet =>
    rw [quiet.attemptsOf, modifyCommand_attemptsOf atRow concludes.attempts] at granted
    omega
  | terminalize _ atRow concludes _ _ quiet =>
    rw [quiet.attemptsOf, modifyCommand_attemptsOf atRow concludes.attempts] at granted
    omega

end Inventory

end OpenNode
