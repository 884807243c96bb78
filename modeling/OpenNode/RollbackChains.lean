import OpenNode.Ownership

namespace OpenNode

open Inventory List

namespace Inventory

variable {s t : Inventory} {stoppable : CommandId → Prop} {previous : Option CommandId} {p : CommandId}
  {steps : List ChangeStep}

/-- A finished command that failed or was skipped. -/
def Lost (s : Inventory) (id : CommandId) : Prop :=
  ∃ a, s.commands[id]? = some a ∧ (a.status = .failed ∨ a.status = .skipped)

variable {id : CommandId}

theorem Lost.finished (lost : s.Lost id) : s.Finished id := by
  obtain ⟨a, atRow, status⟩ := lost
  refine ⟨a, atRow, ?_⟩
  rcases status with h | h <;> simp [h, CommandStatus.terminal]

theorem Lost.not_succeeded (lost : s.Lost id) : ¬ s.Succeeded id := by
  intro succeeded
  obtain ⟨a, atRow, status⟩ := lost
  obtain ⟨b, atRow', done⟩ := statusOf_eq.mp succeeded
  cases atRow.symm.trans atRow'
  rcases status with h | h <;> simp [h] at done

theorem Finished.cases {id : CommandId} (finished : s.Finished id) : s.Succeeded id ∨ s.Lost id := by
  obtain ⟨a, atRow, done⟩ := finished
  cases status : a.status <;> simp [status, CommandStatus.terminal] at done
  case succeeded => exact .inl (statusOf_eq.mpr ⟨a, atRow, status⟩)
  case failed => exact .inr ⟨a, atRow, .inl status⟩
  case skipped => exact .inr ⟨a, atRow, .inr status⟩

variable {a : Command}

theorem QueueUpTo.behind_lost (queue : s.QueueUpTo stoppable []) (lost : s.Lost p)
    (atRow : s.commands[id]? = some a)
    (link : a.dependsOn = some p) :
    a.status = .skipped := by
  by_contra kept
  by_cases waiting : a.status = .waiting
  · obtain ⟨q, link', live⟩ := queue.waits_live atRow waiting
    cases link.symm.trans link'
    exact live.not_finished lost.finished
  · exact lost.not_succeeded (queue.ready atRow link waiting kept)

theorem RollbackChain.covered (chain : s.RollbackChain previous steps) {step : ChangeStep}
    (member : step ∈ steps) {id : CommandId} (rollback : step.rollbackCommandId = some id) :
    s.compensated step = true := by
  induction chain with
  | nil => simp at member
  | pass uncovered missing _ ih =>
    rcases List.mem_cons.mp member with rfl | tail
    · simp [missing] at rollback
    · exact ih tail
  | link covered _ _ _ _ _ ih =>
    rcases List.mem_cons.mp member with rfl | tail
    · exact covered
    · exact ih tail

variable {step : ChangeStep}

theorem RollbackChain.exists_rollback (chain : s.RollbackChain previous steps) (member : step ∈ steps)
    (covered : s.compensated step = true) :
    ∃ id, step.rollbackCommandId = some id := by
  induction chain with
  | nil => simp at member
  | pass uncovered missing _ ih =>
    rcases List.mem_cons.mp member with rfl | tail
    · simp [covered] at uncovered
    · exact ih tail
  | @link _ _ _ id _ _ atId _ _ _ _ ih =>
    rcases List.mem_cons.mp member with rfl | tail
    · exact ⟨id, atId⟩
    · exact ih tail

theorem RollbackChain.row (chain : s.RollbackChain previous steps) (member : step ∈ steps)
    (rollback : step.rollbackCommandId = some id) :
    ∃ a, s.commands[id]? = some a ∧ a.serverId = step.serverId := by
  induction chain with
  | nil => simp at member
  | pass uncovered missing _ ih =>
    rcases List.mem_cons.mp member with rfl | tail
    · simp [missing] at rollback
    · exact ih tail
  | @link _ _ _ _ a _ atId atRow server _ _ ih =>
    rcases List.mem_cons.mp member with rfl | tail
    · cases atId.symm.trans rollback
      exact ⟨a, atRow, server⟩
    · exact ih tail

theorem RollbackChain.previous_succeeded (queue : s.QueueUpTo stoppable []) (chain : s.RollbackChain (some p) steps)
    (member : step ∈ steps) (rollback : step.rollbackCommandId = some id) (atRow : s.commands[id]? = some a)
    (started : a.status ≠ .waiting) (kept : a.status ≠ .skipped) :
    s.Succeeded p := by
  generalize start : some p = previous at chain
  induction chain generalizing p with
  | nil => simp at member
  | pass uncovered missing _ ih =>
    rcases List.mem_cons.mp member with rfl | tail
    · simp [missing] at rollback
    · exact ih tail start
  | @link _ _ _ q b _ atId atB _ prior _ ih =>
    subst start
    rcases List.mem_cons.mp member with rfl | tail
    · cases atId.symm.trans rollback
      cases atB.symm.trans atRow
      exact queue.ready atRow prior started kept
    · obtain ⟨c, atC, status⟩ := statusOf_eq.mp (ih tail rfl)
      cases atB.symm.trans atC
      exact queue.ready atB prior (by simp [status]) (by simp [status])

theorem RollbackChain.before_succeeded (queue : s.QueueUpTo stoppable []) {front back : List ChangeStep}
    (chain : s.RollbackChain previous (front ++ step :: back)) (rollback : step.rollbackCommandId = some id)
    (atRow : s.commands[id]? = some a) (started : a.status ≠ .waiting) (kept : a.status ≠ .skipped) {x : ChangeStep}
    (member : x ∈ front) (covered : s.compensated x = true) : ∃ q, x.rollbackCommandId = some q ∧
      s.Succeeded q := by
  induction front generalizing previous with
  | nil => simp at member
  | cons y front ih =>
    cases chain with
    | pass uncovered missing rest =>
      rcases List.mem_cons.mp member with rfl | tail
      · simp [covered] at uncovered
      · exact ih rest tail
    | @link _ _ _ q _ _ atId _ _ _ rest =>
      rcases List.mem_cons.mp member with rfl | tail
      · exact ⟨q, atId, rest.previous_succeeded queue (by simp) rollback atRow started kept⟩
      · exact ih rest tail

theorem RollbackChain.below_lost (queue : s.QueueUpTo stoppable []) (lost : s.Lost p)
    (chain : s.RollbackChain (some p) steps) : Rollbacks s.Lost steps := by
  generalize start : some p = previous at chain
  induction chain generalizing p with
  | nil => simp [Rollbacks]
  | pass uncovered missing _ ih =>
    intro x member id rollback
    rcases List.mem_cons.mp member with rfl | tail
    · simp [missing] at rollback
    · exact ih lost start x tail id rollback
  | @link _ _ _ q b _ atId atB _ prior _ ih =>
    subst start
    have skipped : s.Lost q := ⟨b, atB, .inr (queue.behind_lost lost atB prior)⟩
    intro x member id rollback
    rcases List.mem_cons.mp member with rfl | tail
    · cases atId.symm.trans rollback
      exact skipped
    · exact ih skipped rfl x tail id rollback

theorem RollbackChain.previous_finished (queue : s.QueueUpTo stoppable [])
    (plain : Rollbacks (fun id => ¬ stoppable id) steps) (chain : s.RollbackChain (some p) steps)
    (member : step ∈ steps) (rollback : step.rollbackCommandId = some id) (finished : s.Finished id) :
    s.Finished p := by
  generalize start : some p = previous at chain
  induction chain generalizing p with
  | nil => simp at member
  | pass uncovered missing _ ih =>
    rcases List.mem_cons.mp member with rfl | tail
    · simp [missing] at rollback
    · exact ih (fun x member => plain x (mem_cons_of_mem _ member)) tail start
  | @link _ y _ q b _ atId atB _ prior _ ih =>
    subst start
    have mine : s.Finished q := by
      rcases List.mem_cons.mp member with rfl | tail
      · cases atId.symm.trans rollback
        exact finished
      · exact ih (fun x member => plain x (mem_cons_of_mem _ member)) tail rfl
    obtain ⟨c, atC, done⟩ := mine
    cases atB.symm.trans atC
    by_cases skipped : b.status = .skipped
    · rcases queue.dropped atB prior skipped with h | h
      · exact h
      · exact absurd h (plain y (mem_cons_self ..) q atId)
    · refine finished_of_statusOf (queue.ready atB prior ?_ skipped) rfl
      intro waiting
      simp [waiting, CommandStatus.terminal] at done

theorem RollbackChain.all_finished (queue : s.QueueUpTo stoppable [])
    (plain : Rollbacks (fun id => ¬ stoppable id) steps) (chain : s.RollbackChain previous steps)
    (member : step ∈ steps) (rollback : step.rollbackCommandId = some id) (lost : s.Lost id) :
    Rollbacks s.Finished steps := by
  induction chain with
  | nil => simp at member
  | pass uncovered missing _ ih =>
    intro x atX q found
    rcases List.mem_cons.mp atX with rfl | tail
    · simp [missing] at found
    · rcases List.mem_cons.mp member with rfl | below
      · simp [missing] at rollback
      · exact ih (fun x member => plain x (mem_cons_of_mem _ member)) below x tail q found
  | @link _ _ _ r _ _ atId _ _ _ rest ih =>
    have tailPlain : Rollbacks (fun id => ¬ stoppable id) _ :=
      fun x member => plain x (mem_cons_of_mem _ member)
    intro x atX q found
    rcases List.mem_cons.mp member with rfl | below
    · cases atId.symm.trans rollback
      rcases List.mem_cons.mp atX with rfl | tail
      · cases rollback.symm.trans found
        exact lost.finished
      · exact (rest.below_lost queue lost x tail q found).finished
    · rcases List.mem_cons.mp atX with rfl | tail
      · cases atId.symm.trans found
        exact rest.previous_finished queue tailPlain below rollback lost.finished
      · exact ih tailPlain below x tail q found

section Retry

variable {step : ChangeStep}

theorem retryStep_none (missing : step.rollbackCommandId = none) : s.retryStep step = step := by
  simp [retryStep, missing]

variable {id : CommandId}

theorem retryStep_succeeded (rollback : step.rollbackCommandId = some id) (succeeded : s.Succeeded id) :
    s.retryStep step = step := by
  obtain ⟨a, atRow, status⟩ := statusOf_eq.mp succeeded
  simp [retryStep, rollback, commandAt, atRow, status]

theorem retryStep_lost (rollback : step.rollbackCommandId = some id) (lost : s.Lost id) : s.retryStep step =
      { step with rollbackHistoryIds := step.rollbackHistoryIds ++ [id], rollbackCommandId := none } := by
  obtain ⟨a, atRow, status⟩ := lost
  simp [retryStep, rollback, commandAt, atRow, status]

theorem retryStep_cases (step : ChangeStep) : s.retryStep step = step ∨
    ∃ id, step.rollbackCommandId = some id ∧ s.Lost id ∧ s.retryStep step =
      { step with rollbackHistoryIds := step.rollbackHistoryIds ++ [id], rollbackCommandId := none } := by
  cases rollback : step.rollbackCommandId with
  | none => exact .inl (retryStep_none rollback)
  | some id =>
    cases atRow : s.commands[id]? with
    | none => simp [retryStep, rollback, commandAt, atRow]
    | some a =>
      by_cases status : a.status = .failed ∨ a.status = .skipped
      · exact .inr ⟨id, rfl, ⟨a, atRow, status⟩, retryStep_lost rollback ⟨a, atRow, status⟩⟩
      · simp [retryStep, rollback, commandAt, atRow, status]

@[simp] theorem retryStep_forwardCommandId (step : ChangeStep) :
    (s.retryStep step).forwardCommandId = step.forwardCommandId := by
  rcases s.retryStep_cases step with h | ⟨_, _, _, h⟩ <;> rw [h]

@[simp] theorem retryStep_serverId (step : ChangeStep) : (s.retryStep step).serverId = step.serverId := by
  rcases s.retryStep_cases step with h | ⟨_, _, _, h⟩ <;> rw [h]

@[simp] theorem retryStep_rollback (step : ChangeStep) : (s.retryStep step).rollback = step.rollback := by
  rcases s.retryStep_cases step with h | ⟨_, _, _, h⟩ <;> rw [h]

@[simp] theorem compensated_retryStep (step : ChangeStep) :
    t.compensated (s.retryStep step) = t.compensated step := by
  simp [compensated]

theorem retryStep_grows (step : ChangeStep) : step.Grows (s.retryStep step) := by
  rcases s.retryStep_cases step with h | ⟨id, rollback, _, h⟩
  · rw [h]
    exact .refl step
  · rw [h]
    refine ⟨rfl, rfl, rfl, fun _ sent => sent, fun q member => ?_⟩
    simp only [ChangeStep.compensators, rollback, Option.toList_some, mem_append, mem_singleton] at member
    simp only [ChangeStep.compensators, Option.toList_none, nil_append, mem_append, mem_singleton]
    exact member.symm

theorem retryStep_commandIds (step : ChangeStep) : (s.retryStep step).commandIds.Perm step.commandIds := by
  rcases s.retryStep_cases step with h | ⟨id, rollback, _, h⟩
  · rw [h]
  · rw [h]
    simp only [ChangeStep.commandIds, rollback, Option.toList_none, Option.toList_some, append_nil, append_assoc]
    have swap : (step.rollbackHistoryIds ++ [id]).Perm ([id] ++ step.rollbackHistoryIds) :=
      perm_append_comm
    exact swap.append_left _

theorem retrySteps_commandIds (steps : List ChangeStep) :
    (commandIds (s.retrySteps steps)).Perm (commandIds steps) := by
  induction steps with
  | nil => exact .refl _
  | cons step rest ih => exact (s.retryStep_commandIds step).append ih

theorem RollbackChain.resumes (queue : s.QueueUpTo stoppable []) (chain : s.RollbackChain previous steps)
    (finished : Rollbacks s.Finished steps) : s.Resumes previous (s.retrySteps steps) := by
  induction chain with
  | nil => exact .fresh (by simp [retrySteps])
  | pass uncovered missing _ ih =>
    refine .pass (by simpa using uncovered) (by rw [retryStep_none missing, missing])
      (ih fun x member => finished x (mem_cons_of_mem _ member))
  | @link _ step rest id a covered atId atRow server prior chain ih =>
    rcases (finished step (mem_cons_self ..) id atId).cases with succeeded | lost
    · obtain ⟨b, atB, status⟩ := statusOf_eq.mp succeeded
      cases atRow.symm.trans atB
      refine .link (by simpa using covered) ?_ atRow status (by simpa using server) prior
        (ih fun x member => finished x (mem_cons_of_mem _ member))
      rw [retryStep_succeeded atId succeeded, atId]
    · refine .fresh fun x member => ?_
      obtain ⟨y, atY, rfl⟩ := List.mem_map.mp member
      cases rollback : y.rollbackCommandId with
      | none => rw [retryStep_none rollback, rollback]
      | some q =>
        have dropped : s.Lost q := by
          rcases List.mem_cons.mp atY with rfl | tail
          · cases atId.symm.trans rollback
            exact lost
          · exact chain.below_lost queue lost y tail q rollback
        rw [retryStep_lost rollback dropped]

theorem History.retrySteps (history : s.History steps) (covered : ∀ step ∈ steps, ∀ id,
    step.rollbackCommandId = some id → s.compensated step = true) : s.History (s.retrySteps steps) := by
  intro x member id old
  obtain ⟨y, atY, rfl⟩ := List.mem_map.mp member
  rw [compensated_retryStep]
  rcases s.retryStep_cases y with h | ⟨q, rollback, lost, h⟩
  · rw [h] at old
    exact history y atY id old
  · simp only [h, mem_append, mem_singleton] at old
    rcases old with before | rfl
    · exact history y atY id before
    · exact ⟨lost, covered y atY id rollback⟩

end Retry

end Inventory

end OpenNode
