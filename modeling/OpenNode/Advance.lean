import OpenNode.RollbackLoop

namespace OpenNode

open Inventory List Table

namespace Inventory

variable {env : Env} {s t u : Inventory} {now : Time} {stoppable : CommandId → Prop}
  {c : ChangeSetId} {a b : ChangeSet}

/-- A quiet change of the commands that leaves a settled queue and adds none. -/
structure Tidy (stoppable : CommandId → Prop) (s t : Inventory) : Prop where
  frame : ∃ commands, t = { s with commands := commands }
  quiet : s.Quiet t
  queue : t.QueueUpTo stoppable []
  length : t.commands.length = s.commands.length

theorem Tidy.refl (queue : s.QueueUpTo stoppable []) : s.Tidy stoppable s :=
  ⟨⟨_, rfl⟩, .refl s, queue, rfl⟩

theorem Tidy.trans (first : s.Tidy stoppable t) (second : t.Tidy stoppable u) : s.Tidy stoppable u where
  frame := by
    obtain ⟨_, rfl⟩ := first.frame
    obtain ⟨commands, frame⟩ := second.frame
    exact ⟨commands, frame⟩
  quiet := first.quiet.trans second.quiet
  queue := second.queue
  length := second.length.trans first.length

theorem Tidy.changes (tidy : s.Tidy stoppable t) : t.changes = s.changes := by
  obtain ⟨_, rfl⟩ := tidy.frame
  rfl

theorem Tidy.locks (tidy : s.Tidy stoppable t) : t.locks = s.locks := by
  obtain ⟨_, rfl⟩ := tidy.frame
  rfl

theorem Tidy.access (tidy : s.Tidy stoppable t) : t.access = s.access := by
  obtain ⟨_, rfl⟩ := tidy.frame
  rfl

@[simp] theorem advanceLoop_length (now : Time) (fuel : Nat) (stack : List CommandId) (s : Inventory) :
    (advanceLoop now fuel stack s).commands.length = s.commands.length := by
  induction fuel generalizing stack s with
  | zero => rfl
  | succ fuel ih =>
    cases stack with
    | nil => rfl
    | cons p rest =>
      rw [advanceLoop, ih]
      simp [advanceChildren]

theorem finishCommand_length (id : CommandId) (f : Command → Command) :
    (s.finishCommand id now f).commands.length = s.commands.length := by
  simp [finishCommand, advanceCommandDependents]

variable {x : Command}

theorem unsent_iff : x.unsent = true ↔ (x.status = .waiting ∨ x.status = .pending) ∧ x.attempts = 0 := by
  simp [Command.unsent]

theorem stoppedCommand_moves (unsent : x.unsent = true) : x.Moves (stoppedCommand now x) := by
  obtain ⟨source, idle⟩ := unsent_iff.mp unsent
  exact ⟨rfl, rfl, rfl, idle, idle, source, .inl rfl⟩

variable {id : CommandId}

theorem finish_stopped_tidy (queue : s.QueueUpTo stoppable []) (atRow : s.commands[id]? = some x)
    (unsent : x.unsent = true) (forward : stoppable id) :
    s.Tidy stoppable (s.finishCommand id now (stoppedCommand now)) where
  frame := finishCommand_frame ..
  quiet := by
    have stopped : s.Quiet (s.modifyCommand id (stoppedCommand now)) := by
      refine quiet_modifyCommand fun y atY => ?_
      cases atRow.symm.trans atY
      exact stoppedCommand_moves unsent
    exact stopped.trans (advanceCommandDependents_quiet (stopped.idle queue.idle) id now)
  queue := by
    refine queue.finishCommand atRow ?_ rfl rfl (.inr ⟨rfl, forward⟩)
    rcases (unsent_iff.mp unsent).1 with h | h <;> simp [h, CommandStatus.terminal]
  length := finishCommand_length ..

theorem finishCommand_row {f : Command → Command} (idle : (s.modifyCommand id f).Idle)
    (atRow : s.commands[id]? = some x) (ended : (f x).status.terminal = true) :
    (s.finishCommand id now f).commands[id]? = some (f x) :=
  (advanceCommandDependents_quiet idle id now).evolves.terminal (modify_self atRow) ended

variable {step : ChangeStep}

theorem stopUnsentStep_tidy (now : Time) (queue : s.QueueUpTo stoppable [])
    (forward : ∀ id, step.forwardCommandId = some id → stoppable id) :
    s.Tidy stoppable (stopUnsentStep now s step) := by
  unfold stopUnsentStep
  split
  · exact .refl queue
  · rename_i id sent
    split
    · rename_i unsent
      obtain ⟨x, atRow, unsent⟩ := (Option.any_eq_true _ _).mp unsent
      exact finish_stopped_tidy queue atRow unsent (forward id sent)
    · exact .refl queue

theorem stopUnsentStep_settling (queue : s.QueueUpTo stoppable []) (sent : step.forwardCommandId = some id)
    (present : id < s.commands.length) :
    (stopUnsentStep now s step).Settling id := by
  obtain ⟨x, atRow⟩ : ∃ x, s.commands[id]? = some x := ⟨_, List.getElem?_eq_getElem present⟩
  simp only [stopUnsentStep, sent, atRow, Option.any_some]
  split
  · rename_i unsent
    have stopped : s.Quiet (s.modifyCommand id (stoppedCommand now)) := by
      refine quiet_modifyCommand fun y atY => ?_
      cases atRow.symm.trans atY
      exact stoppedCommand_moves unsent
    exact ⟨_, finishCommand_row (stopped.idle queue.idle) atRow rfl, .inl rfl⟩
  · rename_i started
    refine ⟨x, atRow, ?_⟩
    by_cases sent : 0 < x.attempts
    · exact .inr sent
    · left
      have idle : x.attempts = 0 := by omega
      cases status : x.status with
      | waiting => exact absurd (unsent_iff.mpr ⟨.inl status, idle⟩) started
      | pending => exact absurd (unsent_iff.mpr ⟨.inr status, idle⟩) started
      | leased => exact absurd (queue.leased atRow status) sent
      | succeeded => rfl
      | failed => rfl
      | skipped => rfl

variable {steps : List ChangeStep}

theorem stopUnsent_tidy (now : Time) (queue : s.QueueUpTo stoppable []) (forwards : Forwards stoppable steps)
    (present : Forwards (· < s.commands.length) steps) :
    s.Tidy stoppable (s.stopUnsent steps now) ∧ Forwards (s.stopUnsent steps now).Settling steps := by
  induction steps generalizing s with
  | nil => exact ⟨.refl queue, by simp [Forwards]⟩
  | cons step rest ih =>
    have turn := stopUnsentStep_tidy now queue (forwards step (mem_cons_self ..))
    have later := ih turn.queue (fun x member => forwards x (mem_cons_of_mem _ member))
      (fun x member id sent => by
        rw [turn.length]; exact present x (mem_cons_of_mem _ member) id sent)
    refine ⟨turn.trans later.1, ?_⟩
    intro x member id sent
    rcases List.mem_cons.mp member with rfl | tail
    · exact later.1.quiet.evolves.settling
        (stopUnsentStep_settling queue sent (present x (mem_cons_self ..) id sent))
    · exact later.2 x tail id sent

variable {previous : Option CommandId}

theorem ForwardChain.row (chain : s.ForwardChain previous steps) (member : step ∈ steps)
    (sent : step.forwardCommandId = some id) :
    ∃ x, s.commands[id]? = some x ∧ x.serverId = step.serverId := by
  induction chain with
  | nil => simp at member
  | @link _ _ _ _ x first atRow server _ _ ih =>
    rcases List.mem_cons.mp member with rfl | tail
    · cases first.symm.trans sent
      exact ⟨x, atRow, server⟩
    · exact ih tail

theorem ForwardChain.present (chain : s.ForwardChain previous steps) : Forwards (· < s.commands.length) steps := by
  intro step member id sent
  obtain ⟨x, atRow, _⟩ := chain.row member sent
  exact row_lt atRow

theorem forwards_isForward (atChange : s.changes[c]? = some a) : Forwards s.IsForward a.steps :=
  fun step member _ sent => ⟨c, a, atChange, step, member, sent⟩

theorem ForwardChain.congr {steps' : List ChangeStep} (chain : s.ForwardChain previous steps)
    (grows : List.Forall₂ ChangeStep.Grows steps steps') :
    s.ForwardChain previous steps' := by
  induction chain generalizing steps' with
  | nil =>
    cases grows
    exact .nil
  | link sent atRow server prior _ ih =>
    cases grows with
    | cons head tail =>
      exact .link (head.forwardCommandId _ sent) atRow (server.trans head.serverId.symm) prior (ih tail)

theorem Tidy.rewrites (tidy : s.Tidy s.IsForward t) (atChange : s.changes[c]? = some a)
    (steps : b.steps = a.steps) (changes : u.changes = s.changes.set c b)
    (commands : u.commands = t.commands) (access : u.access = s.access) : s.Rewrites u c a b where
  atChange := atChange
  changes := changes
  access := access
  quiet := tidy.quiet.trans (.of_commands commands)
  queue := by
    refine (tidy.queue.of_commands commands).mono fun id => isForward_set atChange changes ?_
    rw [steps]
    exact List.forall₂_same.mpr fun x _ => .refl x
  steps := by
    rw [steps]
    exact List.forall₂_same.mpr fun x _ => .refl x
  ids := by simp [steps, commands, tidy.length]
  linked bound atRow := by
    have present := row_lt atRow
    rw [commands, tidy.length] at present
    exact absurd present (Nat.not_lt.mpr bound)

theorem advanceForward_rewrites (now : Time) (frame : s.Framework)
    (atChange : s.changes[c]? = some a) (invariant : s.ChangeInvariant a) :
    ∃ b, s.Rewrites (s.advanceForward c a now) c a b ∧ b.steps = a.steps ∧
      (s.advanceForward c a now).ChangeInvariant b ∧ (s.advanceForward c a now).LockInvariant := by
  have same : ∃ b, s.Rewrites s c a b ∧ b.steps = a.steps ∧ s.ChangeInvariant b ∧ s.LockInvariant := by
    refine ⟨a, .columns atChange frame.queue rfl ?_ rfl rfl, rfl, invariant, frame.locks⟩
    exact (set_same atChange).symm
  unfold advanceForward
  split
  · rename_i dispatched
    have stands := invariant.stands
    simp only [Stands, dispatched] at stands
    obtain ⟨chain, unbegun⟩ := stands
    dsimp only
    split
    · rename_i failed found
      obtain ⟨tidy, settling⟩ := stopUnsent_tidy now frame.queue (forwards_isForward atChange) chain.present
      have atSame : (s.stopUnsent a.steps now).changes[c]? = some a := by rw [tidy.changes, atChange]
      have rewrites := tidy.rewrites (b := { a with
          status := if a.rollbackOnFailure then .rollbackQueued else .failed
          rollbackReason := s!"Forward command {failed} failed" })
        (u := (s.stopUnsent a.steps now).modifyChange c fun change =>
          { change with
            status := if change.rollbackOnFailure then .rollbackQueued else .failed
            rollbackReason := s!"Forward command {failed} failed" }) atChange rfl
        (by rw [modifyChange_changes, modify_eq_set atSame, tidy.changes]) rfl tidy.access
      have evolves := rewrites.quiet.evolves
      refine ⟨_, rewrites, rfl, ⟨invariant.version, invariant.kept, ?_, ?_⟩, ?_⟩
      · exact evolves.history invariant.history
      · cases policy : a.rollbackOnFailure
        · exact ⟨evolves.forwardChain chain, unbegun, settling⟩
        · exact ⟨evolves.forwardChain chain, settling, .inl unbegun⟩
      · refine frame.locks.same atChange rewrites.changes tidy.locks rfl ?_
        rw [dispatched]
        cases policy : a.rollbackOnFailure <;> rfl
    · split
      · rename_i all
        have rewrites : s.Rewrites ((s.modifyChange c fun change =>
            { change with status := .succeeded }).release c) c a { a with status := .succeeded } :=
          .columns atChange frame.queue rfl (modify_eq_set atChange) rfl rfl
        have evolves := rewrites.quiet.evolves
        have succeeded : Forwards s.Succeeded a.steps := by
          intro step member id sent
          have mem : id ∈ a.steps.filterMap ChangeStep.forwardCommandId :=
            List.mem_filterMap.mpr ⟨step, member, sent⟩
          simpa [Succeeded] using List.all_eq_true.mp all id mem
        exact ⟨_, rewrites, rfl, ⟨invariant.version, invariant.kept, evolves.history invariant.history,
          evolves.forwardChain chain, unbegun, succeeded.imp fun _ => evolves.succeeded⟩,
          frame.locks.release rewrites.changes rfl rfl⟩
      · exact same
  · exact same

/-- What a change set needs for the compensation block: its compensators are
complete, or can be completed. -/
structure Queued (s : Inventory) (a : ChangeSet) : Prop where
  version : a.coordinationVersion = 1
  kept : a.archivedSteps = false
  status : a.status = .rollbackQueued
  history : s.History a.steps
  chain : s.ForwardChain none a.steps
  rollbacks : Unbegun a.steps ∨ Forwards s.Finished a.steps ∧
    (s.RollbackChain none a.steps.reverse ∨ s.Resumes none a.steps.reverse)

theorem ChangeInvariant.queued (invariant : s.ChangeInvariant a) (status : a.status = .rollbackQueued) :
    s.Queued a := by
  have stands := invariant.stands
  simp only [Stands, status] at stands
  obtain ⟨chain, _, unbegun | begun⟩ := stands
  · exact ⟨invariant.version, invariant.kept, status, invariant.history, chain, .inl unbegun⟩
  · exact ⟨invariant.version, invariant.kept, status, invariant.history, chain,
      .inr ⟨begun.forwards, .inl begun.chain⟩⟩

theorem RollbackChain.no_creations (chain : s.RollbackChain none steps.reverse) :
    s.rollbackCreations steps false = [] := by
  rw [rollbackCreations, filterMap_eq_nil_iff]
  intro step member
  split
  · rename_i tried
    cases plan : step.rollback with
    | none => rfl
    | some payload =>
      have covered : s.compensated step = true := by simp [compensated, tried, plan]
      obtain ⟨id, rollback⟩ := chain.exists_rollback member covered
      obtain ⟨x, atRow, _⟩ := chain.row member rollback
      simp [rollback, commandAt, atRow]
  · rfl

theorem settleRollback_rewrites (rollbacks : List CommandId) (missing : Bool)
    (queue : s.QueueInvariant) (locks : s.LockInvariant)
    (atChange : s.changes[c]? = some b) (status : b.status = .rollbackQueued)
    (version : b.coordinationVersion = 1) (kept : b.archivedSteps = false)
    (history : s.History b.steps) (forward : s.ForwardChain none b.steps) (begun : s.Begun b.steps)
    (plain : Rollbacks (fun id => ¬ s.IsForward id) b.steps)
    (members : ∀ id, id ∈ rollbacks ↔ ∃ step ∈ b.steps, step.rollbackCommandId = some id)
    (flag : missing = b.steps.any s.uncovered) :
    ∃ d, s.Rewrites (s.settleRollback c rollbacks missing) c b d ∧
      (s.settleRollback c rollbacks missing).ChangeInvariant d ∧
      (s.settleRollback c rollbacks missing).LockInvariant := by
  unfold settleRollback
  split
  · rename_i any
    have rewrites : s.Rewrites (s.modifyChange c fun change => { change with status := .rollbackFailed })
        c b { b with status := .rollbackFailed } :=
      .columns atChange queue rfl (modify_eq_set atChange) rfl rfl
    have evolves := rewrites.quiet.evolves
    obtain ⟨id, member, status'⟩ := List.any_eq_true.mp any
    obtain ⟨step, atStep, rollback⟩ := (members id).mp member
    have lost : s.Lost id := by
      simp only [Bool.or_eq_true, beq_iff_eq] at status'
      rcases status' with h | h
      · obtain ⟨x, atRow, h⟩ := statusOf_eq.mp h
        exact ⟨x, atRow, .inl h⟩
      · obtain ⟨x, atRow, h⟩ := statusOf_eq.mp h
        exact ⟨x, atRow, .inr h⟩
    have finished : Rollbacks s.Finished b.steps := by
      have all := begun.chain.all_finished queue
        (fun x member => plain x (List.mem_reverse.mp member)) (List.mem_reverse.mpr atStep) rollback lost
      exact fun x member => all x (List.mem_reverse.mpr member)
    refine ⟨_, rewrites, ⟨version, kept, evolves.history history, ?_⟩, ?_⟩
    · exact ⟨evolves.forwardChain forward, evolves.begun begun, finished.imp fun _ => evolves.finished⟩
    · exact locks.same atChange rewrites.changes rfl rfl (by rw [status]; rfl)
  · split
    · rename_i all
      have succeeded : Rollbacks s.Succeeded b.steps := by
        intro step member id rollback
        simpa [Succeeded] using List.all_eq_true.mp all id ((members id).mpr ⟨step, member, rollback⟩)
      split
      · have rewrites : s.Rewrites
            (s.modifyChange c fun change => { change with status := .rollbackIncomplete })
            c b { b with status := .rollbackIncomplete } :=
          .columns atChange queue rfl (modify_eq_set atChange) rfl rfl
        have evolves := rewrites.quiet.evolves
        refine ⟨_, rewrites, ⟨version, kept, evolves.history history, ?_⟩, ?_⟩
        · exact ⟨evolves.forwardChain forward, evolves.begun begun, succeeded.imp fun _ => evolves.succeeded⟩
        · exact locks.same atChange rewrites.changes rfl rfl (by rw [status]; rfl)
      · rename_i covered
        have rewrites : s.Rewrites
            ((s.modifyChange c fun change => { change with status := .rolledBack }).release c)
            c b { b with status := .rolledBack } :=
          .columns atChange queue rfl (modify_eq_set atChange) rfl rfl
        have evolves := rewrites.quiet.evolves
        refine ⟨_, rewrites, ⟨version, kept, evolves.history history, ?_⟩, locks.release rewrites.changes rfl rfl⟩
        refine ⟨evolves.forwardChain forward, evolves.begun begun, succeeded.imp fun _ => evolves.succeeded, ?_⟩
        intro step member tried
        rw [evolves.commandAt_finished (begun.forwards step member)] at tried
        by_contra plan
        refine covered ?_
        rw [flag, any_eq_true]
        exact ⟨step, member, by simpa [uncovered, tried] using plan⟩
    · have rewrites : s.Rewrites s c b b :=
        .columns atChange queue rfl (set_same atChange).symm rfl rfl
      refine ⟨b, rewrites, ⟨version, kept, history, ?_⟩, locks⟩
      simp only [Stands, status]
      exact ⟨forward, begun.forwards.imp fun _ => Finished.settling, .inr begun⟩

theorem commandIds_reverse (steps : List ChangeStep) : (commandIds steps.reverse).Perm (commandIds steps) :=
  steps.reverse_perm.flatMap_right _

variable {pass : RollbackPass}

theorem Compensates.rewrites {done : List ChangeStep} (atChange : s.changes[c]? = some b)
    (loop : Compensates s.IsForward { inventory := s } b.steps.reverse pass done) :
    s.Rewrites (pass.inventory.modifyChange c fun change => { change with steps := pass.steps }) c b
      { b with steps := pass.steps } := by
  obtain ⟨commands, frame⟩ := loop.frame
  have rewritten : pass.steps = done.reverse := by simpa using loop.rewritten
  have grows : List.Forall₂ ChangeStep.Grows b.steps pass.steps := by
    rw [rewritten, ← forall₂_reverse_iff, reverse_reverse]
    exact loop.assigned.imp fun _ _ => ChangeStep.Assigned.grows
  have ids : (commandIds pass.steps).Perm (commandIds done) := by
    rw [rewritten]
    exact commandIds_reverse done
  have changes : (pass.inventory.modifyChange c fun change => { change with steps := pass.steps }).changes =
      s.changes.set c { b with steps := pass.steps } := by
    rw [modifyChange_changes, frame]
    exact modify_eq_set atChange
  refine ⟨atChange, changes, by rw [frame]; rfl, loop.quiet.trans (.of_commands rfl), ?_, ?_, grows, ?_⟩
  · have settled := loop.queue.mono fun id => isForward_set atChange changes grows
    exact settled.of_commands rfl
  · exact ids.trans (loop.ids.trans ((commandIds_reverse b.steps).append_right _))
  · intro id x p bound atRow link
    rcases loop.linked bound atRow link with first | member
    · cases first
    · exact ids.mem_iff.mpr member

theorem Queued.evolves (queued : s.Queued b) (evolves : s.Evolves t) : t.Queued b where
  version := queued.version
  kept := queued.kept
  status := queued.status
  history := evolves.history queued.history
  chain := evolves.forwardChain queued.chain
  rollbacks := queued.rollbacks.imp id fun ⟨finished, chain⟩ =>
    ⟨finished.imp fun _ => evolves.finished, chain.imp (evolves.rollbackChain finished.reverse)
      (evolves.resumes finished.reverse)⟩

theorem forwards_finished (settling : Forwards s.Settling steps)
    (landed : ¬ (steps.any fun step => (s.commandAt step.forwardCommandId).any Command.inFlight) = true) :
    Forwards s.Finished steps := by
  intro step member id sent
  obtain ⟨x, atRow, done | attempted⟩ := settling step member id sent
  · exact ⟨x, atRow, done⟩
  · refine ⟨x, atRow, ?_⟩
    by_contra live
    refine landed (List.any_eq_true.mpr ⟨step, member, commandAt_any.mpr ⟨id, x, sent, atRow, ?_⟩⟩)
    simp [Command.inFlight, attempted, Bool.eq_false_iff.mpr live]

theorem compensate {skipError : Option String} (frame : s.Framework) (queued : s.Queued b)
    (finished : Forwards s.Finished b.steps) {error : Option String}
    (preflight : s.capabilityError (s.rollbackCreations b.steps false) = .ok error)
    (skip : skipError = error.map ("Automatic rollback not queued: " ++ ·))
    (loop : rollbackLoop env now skipError b.steps.reverse { inventory := s } = .ok pass) :
    ∃ done, Compensates s.IsForward { inventory := s } b.steps.reverse pass done := by
  have fresh : s.Resumes none b.steps.reverse → ∃ done,
      Compensates s.IsForward { inventory := s } b.steps.reverse pass done :=
    fun resumes => rollbackLoop_resumes loop frame.queue finished.reverse resumes (by simp)
  rcases queued.rollbacks with unbegun | ⟨_, chain | resumes⟩
  · exact fresh (.fresh fun x member => (unbegun x (List.mem_reverse.mp member)).1)
  · rw [chain.no_creations] at preflight
    cases preflight
    subst skip
    exact rollbackLoop_chain loop frame.queue finished.reverse chain
  · exact fresh resumes

theorem advanceRollback_rewrites (frame : s.Framework) (atChange : s.changes[c]? = some b)
    (queued : s.Queued b) (run : s.advanceRollback env c b.steps now = .ok u) :
    ∃ d, s.Rewrites u c b d ∧ u.ChangeInvariant d ∧ u.LockInvariant := by
  unfold advanceRollback at run
  obtain ⟨tidy, settling⟩ := stopUnsent_tidy now frame.queue (forwards_isForward atChange) queued.chain.present
  generalize stopped : s.stopUnsent b.steps now = v at run tidy settling
  have atV : v.changes[c]? = some b := by rw [tidy.changes, atChange]
  have first : s.Rewrites v c b b := tidy.rewrites atChange rfl
    (by rw [tidy.changes, set_same atChange]) rfl tidy.access
  have locks : v.LockInvariant := frame.locks.of_same tidy.changes tidy.locks
  have frameV : v.Framework := first.framework frame.ownership locks
  have queuedV := queued.evolves tidy.quiet.evolves
  dsimp only at run
  split at run
  · rename_i flying
    cases Except.ok.inj run
    refine ⟨b, first, ⟨queued.version, queued.kept, queuedV.history, ?_⟩, locks⟩
    simp only [Stands, queued.status]
    refine ⟨queuedV.chain, settling, ?_⟩
    rcases queuedV.rollbacks with unbegun | ⟨finished, _⟩
    · exact .inl unbegun
    · obtain ⟨step, member, inFlight⟩ := List.any_eq_true.mp flying
      obtain ⟨id, x, sent, atRow, inFlight⟩ := commandAt_any.mp inFlight
      obtain ⟨y, atY, done⟩ := finished step member id sent
      cases atRow.symm.trans atY
      simp [Command.inFlight, done] at inFlight
  · rename_i landed
    have finished := forwards_finished settling landed
    split at run
    · cases run
    · rename_i error preflight
      split at run
      · cases run
      · rename_i pass loop
        cases Except.ok.inj run
        obtain ⟨done, compensates⟩ := compensate frameV queuedV finished preflight rfl loop
        have second := compensates.rewrites atV
        have evolves := second.quiet.evolves
        have ownership := second.ownership frameV.ownership
        have rewritten : pass.steps = done.reverse := by simpa using compensates.rewritten
        have assigned : List.Forall₂ ChangeStep.Assigned b.steps pass.steps := by
          rw [rewritten, ← forall₂_reverse_iff, reverse_reverse]
          exact compensates.assigned
        have source : ∀ y ∈ pass.steps, ∃ x ∈ b.steps, x.Assigned y := by
          intro y member
          obtain ⟨x, atX, related⟩ := forall₂_mem (R := fun y x => ChangeStep.Assigned x y) assigned.flip member
          exact ⟨x, atX, related⟩
        have forwards : Forwards v.Finished pass.steps := by
          intro y member id sent
          obtain ⟨x, atX, related⟩ := source y member
          exact finished x atX id (related.forwardCommandId ▸ sent)
        have settled := settleRollback_rewrites
          (s := pass.inventory.modifyChange c fun change => { change with steps := pass.steps })
          (b := { b with steps := pass.steps }) pass.rollbacks pass.missing
          second.queue ?locks second.self queued.status queued.version queued.kept ?history
          (evolves.forwardChain (queuedV.chain.congr second.steps)) ?begun ?plain ?members ?flag
        case locks =>
          obtain ⟨commands, frame⟩ := compensates.frame
          refine frameV.locks.same atV second.changes ?_ (targets_grows second.steps) rfl
          rw [modifyChange_locks, frame]
        case history =>
          intro y member id old
          obtain ⟨x, atX, related⟩ := source y member
          rw [compensated_assigned related]
          exact evolves.history queuedV.history x atX id (related.rollbackHistoryIds ▸ old)
        case begun =>
          refine ⟨forwards.imp fun _ => evolves.finished, ?_⟩
          have chain : pass.inventory.RollbackChain none pass.steps.reverse := by
            rw [rewritten, reverse_reverse]
            exact compensates.chain
          have columns : pass.inventory.Evolves (pass.inventory.modifyChange c fun change =>
              { change with steps := pass.steps }) := .of_commands rfl
          exact columns.rollbackChain (forwards.imp fun _ => compensates.quiet.evolves.finished).reverse chain
        case plain =>
          exact fun y member id rollback => ownership.rollback_not_forward second.self member rollback
        case members =>
          intro id
          rw [compensates.rollbacks, nil_append, mem_filterMap, rewritten]
          simp
        case flag =>
          have verdict : ∀ {x y : ChangeStep}, x ∈ b.steps → x.Assigned y →
              (pass.inventory.modifyChange c fun change => { change with steps := pass.steps }).uncovered y =
                v.uncovered x := by
            intro x y member related
            rw [← evolves.uncovered_eq (finished x member)]
            simp only [uncovered, related.forwardCommandId, related.grows.rollback]
          rw [compensates.missing, Bool.false_or, any_reverse, Bool.eq_iff_iff, any_eq_true, any_eq_true]
          constructor
          · rintro ⟨x, atX, gap⟩
            obtain ⟨y, atY, related⟩ := forall₂_mem assigned atX
            exact ⟨y, atY, (verdict atX related).trans gap⟩
          · rintro ⟨y, atY, gap⟩
            obtain ⟨x, atX, related⟩ := source y atY
            exact ⟨x, atX, (verdict atX related).symm.trans gap⟩
        obtain ⟨d, third, stands, locksU⟩ := settled
        exact ⟨d, first.trans (second.trans third), stands, locksU⟩

theorem advance_rewrites (frame : s.Framework) (atChange : s.changes[c]? = some a)
    (ready : s.ChangeInvariant a ∨ s.Queued a) (run : s.advance env c now = .ok t) :
    ∃ d, s.Rewrites t c a d ∧ t.ChangeInvariant d ∧ t.LockInvariant := by
  -- The block for dispatched change sets leaves a queued one alone.
  have forward : ∃ b, s.Rewrites (s.advanceForward c a now) c a b ∧
      ((s.advanceForward c a now).ChangeInvariant b ∨ (s.advanceForward c a now).Queued b) ∧
      (s.advanceForward c a now).LockInvariant := by
    rcases ready with invariant | queued
    · obtain ⟨b, rewrites, _, stands, locks⟩ := advanceForward_rewrites now frame atChange invariant
      exact ⟨b, rewrites, .inl stands, locks⟩
    · have idle : s.advanceForward c a now = s := by simp [advanceForward, queued.status]
      rw [idle]
      exact ⟨a, .columns atChange frame.queue rfl (set_same atChange).symm rfl rfl, .inr queued, frame.locks⟩
  obtain ⟨b, first, stands, locks⟩ := forward
  simp only [advance, atChange, first.self] at run
  have touched : ∀ {v : Inventory} {d : ChangeSet}, v.Framework → v.changes[c]? = some d →
      v.ChangeInvariant d → ∃ e, v.Rewrites (v.touchChange c now) c d e ∧
        (v.touchChange c now).ChangeInvariant e ∧ (v.touchChange c now).LockInvariant := by
    intro v d frame atD invariant
    have rewrites : v.Rewrites (v.touchChange c now) c d { d with updatedAt := now } :=
      .columns atD frame.queue rfl (modify_eq_set atD) rfl rfl
    have kept := invariant.evolves rewrites.quiet.evolves
    exact ⟨_, rewrites, ⟨kept.version, kept.kept, kept.history, kept.stands⟩,
      frame.locks.same atD rewrites.changes rfl rfl rfl⟩
  split at run
  · rename_i status
    split at run
    · cases run
    · rename_i u compensated
      cases Except.ok.inj run
      have queued : (s.advanceForward c a now).Queued b := by
        rcases stands with invariant | queued
        · exact invariant.queued status
        · exact queued
      obtain ⟨d, second, invariant, locksU⟩ := advanceRollback_rewrites
        (first.framework frame.ownership locks) first.self queued compensated
      obtain ⟨e, third, stands, last⟩ := touched
        (second.framework (first.ownership frame.ownership) locksU) second.self invariant
      exact ⟨e, first.trans (second.trans third), stands, last⟩
  · rename_i status
    cases Except.ok.inj run
    have invariant : (s.advanceForward c a now).ChangeInvariant b := by
      rcases stands with invariant | queued
      · exact invariant
      · exact absurd queued.status status
    obtain ⟨e, second, stands, last⟩ := touched (first.framework frame.ownership locks) first.self invariant
    exact ⟨e, first.trans second, stands, last⟩

end Inventory

end OpenNode
