import OpenNode.Dispatch

namespace OpenNode

open Inventory

namespace Inventory

variable {env : Env} {s t u : Inventory} {now : Time} {operation : Operation} {c : ChangeSetId} {a b : ChangeSet}

theorem retrySteps_grows (steps : List ChangeStep) : List.Forall₂ ChangeStep.Grows steps (s.retrySteps steps) := by
  induction steps with
  | nil => exact .nil
  | cons step rest ih => exact .cons (s.retryStep_grows step) ih

theorem retrySteps_reverse (steps : List ChangeStep) :
    (s.retrySteps steps).reverse = s.retrySteps steps.reverse := by
  simp [retrySteps, List.map_reverse]

theorem ChangeInvariant.requeued (invariant : s.ChangeInvariant a) (queue : s.QueueInvariant)
    (dispatched : a.status ≠ .planned ∧ a.status ≠ .cancelled ∧ a.status ≠ .rolledBack ∧ a.status ≠ .accepted)
    (version : b.coordinationVersion = 1) (kept : b.archivedSteps = false)
    (status : b.status = .rollbackQueued)
    (steps : b.steps = if a.status = .rollbackFailed then s.retrySteps a.steps else a.steps) :
    s.Queued b := by
  have stands := invariant.stands
  unfold Stands at stands
  by_cases retry : a.status = .rollbackFailed
  · simp only [retry] at stands
    obtain ⟨chain, begun, finished⟩ := stands
    rw [if_pos retry] at steps
    have covered : ∀ step ∈ a.steps, ∀ id, step.rollbackCommandId = some id →
        s.compensated step = true :=
      fun step member id rollback => begun.chain.covered (List.mem_reverse.mpr member) rollback
    refine ⟨version, kept, status, ?_, ?_, .inr ⟨?_, .inr ?_⟩⟩
    · rw [steps]
      exact invariant.history.retrySteps covered
    · rw [steps]
      exact chain.congr (s.retrySteps_grows a.steps)
    · rw [steps]
      intro x member id sent
      obtain ⟨y, atY, rfl⟩ := List.mem_map.mp member
      exact begun.forwards y atY id (by simpa using sent)
    · rw [steps, retrySteps_reverse]
      exact begun.chain.resumes queue fun x member => finished x (List.mem_reverse.mp member)
  · rw [if_neg retry] at steps
    have plain : s.ForwardChain none a.steps ∧ (Unbegun a.steps ∨ s.Begun a.steps) := by
      cases old : a.status <;> simp only [old] at stands
      case planned => exact absurd old dispatched.1
      case cancelled => exact absurd old dispatched.2.1
      case rolledBack => exact absurd old dispatched.2.2.1
      case accepted => exact absurd old dispatched.2.2.2
      case rollbackFailed => exact absurd old retry
      case dispatched => exact ⟨stands.1, .inl stands.2⟩
      case failed => exact ⟨stands.1, .inl stands.2.1⟩
      case succeeded => exact ⟨stands.1, .inl stands.2.1⟩
      case rollbackQueued => exact ⟨stands.1, stands.2.2⟩
      case rollbackIncomplete => exact ⟨stands.1, .inr stands.2.1⟩
    refine ⟨version, kept, status, ?_, ?_, ?_⟩
    · rw [steps]
      exact invariant.history
    · rw [steps]
      exact plain.1
    · rw [steps]
      exact plain.2.imp (fun h => h) fun begun => ⟨begun.forwards, .inl begun.chain⟩

variable {pending : ServerId → Bool} {reason : String}

theorem rollbackDispatched_rewrites (invariant : s.SystemInvariant) (atChange : s.changes[c]? = some a)
    (dispatched : a.status ≠ .planned ∧ a.status ≠ .cancelled ∧ a.status ≠ .rolledBack ∧ a.status ≠ .accepted)
    (run : s.rollbackDispatched env pending c a reason now = .ok t) :
    ∃ d, s.Rewrites t c a d ∧ t.ChangeInvariant d ∧ t.LockInvariant := by
  unfold rollbackDispatched at run
  split at run
  · cases run
  · split at run
    · cases run
    · rename_i v reserved
      obtain ⟨rows, frame, single, members⟩ := reserve_locks invariant.framework.locks reserved
      subst frame
      dsimp only at run
      split at run
      · cases run
      · generalize taken : (if a.status = ChangeSetStatus.rollbackFailed then
          { s with locks := rows }.retrySteps a.steps else a.steps) = steps at run
        generalize given : (fun change : ChangeSet =>
          { change with
            steps := steps
            status := .rollbackQueued
            rollbackReason := if change.rollbackReason = "" then reason else change.rollbackReason }) = f at run
        have mine := invariant.changes atChange
        have shape : (f a).steps = steps ∧ (f a).status = .rollbackQueued ∧
            (f a).coordinationVersion = a.coordinationVersion ∧ (f a).archivedSteps = a.archivedSteps := by
          rw [← given]
          exact ⟨rfl, rfl, rfl, rfl⟩
        have retried : (f a).steps = if a.status = .rollbackFailed then s.retrySteps a.steps else a.steps :=
          shape.1.trans taken.symm
        have grows : List.Forall₂ ChangeStep.Grows a.steps (f a).steps := by
          rw [retried]
          split
          · exact s.retrySteps_grows a.steps
          · exact List.forall₂_same.mpr fun x _ => .refl x
        have changes : ({ s with locks := rows }.modifyChange c f).changes = s.changes.set c (f a) :=
          Table.modify_eq_set atChange
        have first : s.Rewrites ({ s with locks := rows }.modifyChange c f) c a (f a) := by
          refine ⟨atChange, changes, rfl, .of_commands rfl, ?_, ?_, grows, ?_⟩
          · have settled := invariant.framework.queue.mono fun id => isForward_set atChange changes grows
            exact settled.of_commands rfl
          · rw [retried]
            split
            · simpa using s.retrySteps_commandIds a.steps
            · simp
          · intro id x p bound atRow
            exact absurd (Table.row_lt atRow) (Nat.not_lt.mpr bound)
        have locks : ({ s with locks := rows }.modifyChange c f).LockInvariant :=
          invariant.framework.locks.reserve atChange changes (targets_grows grows)
            (by rw [shape.2.1]; rfl) single members
        have queued := (mine.requeued invariant.framework.queue dispatched
          (shape.2.2.1.trans mine.version) (shape.2.2.2.trans mine.kept) shape.2.1 retried).evolves
          first.quiet.evolves
        obtain ⟨d, second, stands, last⟩ := advance_rewrites
          (first.framework invariant.framework.ownership locks) first.self (.inr queued) run
        exact ⟨d, first.trans second, stands, last⟩

theorem touchChange_rewrites (now : Time) (queue : s.QueueInvariant) (locks : s.LockInvariant)
    (atChange : s.changes[c]? = some a) (invariant : s.ChangeInvariant a) :
    ∃ d, s.Rewrites (s.touchChange c now) c a d ∧ (s.touchChange c now).ChangeInvariant d ∧
      (s.touchChange c now).LockInvariant := by
  have rewrites : s.Rewrites (s.touchChange c now) c a { a with updatedAt := now } :=
    .columns atChange queue rfl (Table.modify_eq_set atChange) rfl rfl
  have kept := invariant.evolves rewrites.quiet.evolves
  exact ⟨_, rewrites, ⟨kept.version, kept.kept, kept.history, kept.stands⟩,
    locks.same atChange rewrites.changes rfl rfl rfl⟩

theorem rollback_keeps {ids : List CommandId} (invariant : s.SystemInvariant)
    (run : s.rollback env pending c reason now = .ok (t, ids)) :
    Keeps env now operation s t := by
  unfold rollback at run
  split at run
  · cases run
  · rename_i change atChange
    split at run
    · cases run
    · split at run
      · cases run
      · have mine := invariant.changes atChange
        dsimp only at run
        split at run
        · cases run
        · rename_i u moved
          cases Except.ok.inj run
          have settled : ∃ d, s.Rewrites u c change d ∧ u.ChangeInvariant d ∧ u.LockInvariant := by
            have same : (Except.ok s : Except Refusal Inventory) = .ok u →
                ∃ d, s.Rewrites u c change d ∧ u.ChangeInvariant d ∧ u.LockInvariant := by
              intro eq
              cases Except.ok.inj eq
              exact ⟨change, .columns atChange invariant.framework.queue rfl (Table.set_same atChange).symm rfl rfl,
                mine, invariant.framework.locks⟩
            split at moved
            · rename_i planned
              cases Except.ok.inj moved
              have rewrites : s.Rewrites (s.modifyChange c fun change => { change with status := .cancelled })
                  c change { change with status := .cancelled } :=
                .columns atChange invariant.framework.queue rfl (Table.modify_eq_set atChange) rfl rfl
              have stands := mine.stands
              simp only [Stands, planned] at stands
              refine ⟨_, rewrites, ⟨mine.version, mine.kept, rewrites.quiet.evolves.history mine.history,
                stands⟩, ?_⟩
              exact invariant.framework.locks.same atChange rewrites.changes rfl rfl (by rw [planned]; rfl)
            · exact same moved
            · exact same moved
            · cases moved
            · rename_i h1 h2 h3 h4
              exact rollbackDispatched_rewrites invariant atChange ⟨h1, h2, h3, h4⟩ moved
          obtain ⟨d, first, stands, locks⟩ := settled
          have frame := first.framework invariant.framework.ownership locks
          obtain ⟨e, second, last, held⟩ := touchChange_rewrites now frame.queue locks first.self stands
          have rewrites := first.trans second
          exact ⟨rewrites.system invariant.framework.ownership held (fun _ atD => invariant.changes atD) last,
            rewrites.progress, .quiet rewrites.quiet⟩

end Inventory

end OpenNode
