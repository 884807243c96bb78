import OpenNode.Reservation

namespace OpenNode

open Inventory List

/-- `y` is `x` with its forward command. -/
def ChangeStep.Sent (x y : ChangeStep) : Prop :=
  ∃ id, y = { x with forwardCommandId := some id }

theorem ChangeStep.Sent.grows {x y : ChangeStep} (unsent : x.forwardCommandId = none)
    (sent : x.Sent y) : x.Grows y := by
  obtain ⟨id, rfl⟩ := sent
  exact ⟨rfl, rfl, rfl, fun q link => by simp [unsent] at link, fun _ member => member⟩

namespace Inventory

variable {env : Env} {s t u : Inventory} {now : Time} {operation : Operation} {c : ChangeSetId} {a b : ChangeSet}
  {stoppable : CommandId → Prop}

/-- What the loop of `dispatch_model` does: `done` are the steps with the
forward commands that it created. -/
structure Dispatches (stoppable : CommandId → Prop) (s : Inventory) (previous : Option CommandId)
    (steps : List ChangeStep) (u : Inventory) (done : List ChangeStep) : Prop where
  frame : ∃ commands, u = { s with commands := commands }
  quiet : s.Quiet u
  queue : u.QueueUpTo stoppable []
  chain : u.ForwardChain previous done
  sent : List.Forall₂ ChangeStep.Sent steps done
  ids : (commandIds done).Perm (commandIds steps ++
    List.range' s.commands.length (u.commands.length - s.commands.length))
  linked : ∀ {id : CommandId} {x : Command} {p : CommandId}, s.commands.length ≤ id →
    u.commands[id]? = some x → x.dependsOn = some p → previous = some p ∨ p ∈ commandIds done

theorem dispatchSteps_dispatches {previous : Option CommandId} {steps done : List ChangeStep}
    (queue : s.QueueUpTo stoppable [])
    (unsent : ∀ step ∈ steps, step.forwardCommandId = none)
    (behind : ∀ p, previous = some p → s.Succeeded p ∨ s.Live p)
    (run : s.dispatchSteps env now previous steps = .ok (u, done)) :
    Dispatches stoppable s previous steps u done := by
  induction steps generalizing s previous u done with
  | nil =>
    cases Except.ok.inj run
    exact
      { frame := ⟨_, rfl⟩
        quiet := .refl _
        queue := queue
        chain := .nil
        sent := .nil
        ids := by simp [commandIds]
        linked := fun bound atRow => absurd (Table.row_lt atRow) (Nat.not_lt.mpr bound) }
  | cons step rest ih =>
    rw [dispatchSteps] at run
    split at run
    · cases run
    · rename_i t created
      split at run
      · cases run
      · rename_i v tail later
        cases Except.ok.inj run
        have fresh := createCommandModel_ok created
        subst fresh
        have first := s.newCommandModel_quiet step.serverId step.forward now previous none
        obtain ⟨x, atRow, server, prior, live⟩ := s.newCommandModel_row step.serverId step.forward now previous none
        have settled : (s.newCommandModel step.serverId step.forward now previous).QueueUpTo stoppable [] := by
          refine queue.newCommandModel _ _ _ fun p link => ?_
          exact behind p link
        have last := ih settled (fun y member => unsent y (mem_cons_of_mem _ member))
          (fun p same => .inr ⟨x, Option.some.inj same ▸ atRow, by simpa using live⟩) later
        have length := s.newCommandModel_length step.serverId step.forward now previous none
        have mine := unsent step (mem_cons_self ..)
        refine ⟨?_, first.trans last.quiet, last.queue, ?_, .cons ⟨_, rfl⟩ last.sent, ?_, ?_⟩
        · obtain ⟨commands, frame⟩ := last.frame
          exact ⟨commands, frame⟩
        · obtain ⟨y, atNew, change⟩ := last.quiet.evolves _ _ atRow
          exact .link rfl atNew (change.serverId.trans server) (change.dependsOn.trans prior) last.chain
        · have grown := last.quiet.evolves.length_le
          rw [length] at grown
          have ids := last.ids
          rw [length] at ids
          have range : List.range' s.commands.length (u.commands.length - s.commands.length) =
              s.commands.length :: List.range' (s.commands.length + 1)
                (u.commands.length - (s.commands.length + 1)) := by
            rw [show u.commands.length - s.commands.length =
              u.commands.length - (s.commands.length + 1) + 1 by omega, List.range'_succ]
          rw [commandIds_cons, commandIds_cons, range]
          have here : ChangeStep.commandIds { step with forwardCommandId := some s.commands.length } =
              s.commands.length :: step.commandIds := by
            simp [ChangeStep.commandIds, mine]
          rw [here, cons_append]
          refine (List.Perm.cons _ (ids.append_left _)).trans ?_
          rw [← append_assoc]
          exact List.perm_middle.symm
        · intro id y p bound atY link
          rw [commandIds_cons]
          by_cases same : id = s.commands.length
          · subst same
            obtain ⟨z, atNew, change⟩ := last.quiet.evolves _ _ atRow
            cases atY.symm.trans atNew
            exact .inl (by rw [← prior, ← change.dependsOn, link])
          · right
            have beyond : s.commands.length + 1 ≤ id := Nat.lt_of_le_of_ne bound (Ne.symm same)
            rcases last.linked (by rw [length]; exact beyond) atY link with before | member
            · cases Option.some.inj before
              exact mem_append_left _ (by simp [ChangeStep.commandIds])
            · exact mem_append_right _ member

theorem sent_grows {xs ys : List ChangeStep} (unsent : ∀ x ∈ xs, x.forwardCommandId = none)
    (sent : List.Forall₂ ChangeStep.Sent xs ys) : List.Forall₂ ChangeStep.Grows xs ys := by
  induction sent with
  | nil => exact .nil
  | @cons x y _ _ head _ ih =>
    have grows : x.Grows y := ChangeStep.Sent.grows (unsent x (mem_cons_self ..)) head
    exact .cons grows (ih fun z member => unsent z (mem_cons_of_mem _ member))

theorem dispatchModel_keeps {pending : ServerId → Bool} {ids : List CommandId}
    (invariant : s.SystemInvariant) (run : s.dispatchModel env pending c now = .ok (t, ids)) :
    Keeps env now operation s t := by
  unfold dispatchModel at run
  split at run
  · cases run
  · rename_i change atChange
    split at run
    · cases run
    · split at run
      · rename_i planned
        split at run
        · cases run
        · split at run
          · cases run
          · rename_i v reserved
            split at run
            · cases run
            · rename_i w done dispatched
              cases Except.ok.inj run
              have mine := invariant.changes atChange
              have stands := mine.stands
              simp only [Stands, planned] at stands
              obtain ⟨unsent, unbegun⟩ := stands
              obtain ⟨rows, frame, single, members⟩ := reserve_locks invariant.framework.locks reserved
              subst frame
              have queue : { s with locks := rows }.QueueUpTo s.IsForward [] :=
                invariant.framework.queue.of_commands rfl
              have loop := dispatchSteps_dispatches queue unsent (by simp) dispatched
              obtain ⟨commands, frame⟩ := loop.frame
              have grows := sent_grows unsent loop.sent
              have changes : (w.modifyChange c fun change =>
                  { change with steps := done, status := .dispatched, updatedAt := now }).changes =
                  s.changes.set c { change with steps := done, status := .dispatched, updatedAt := now } := by
                rw [modifyChange_changes, frame]
                exact Table.modify_eq_set atChange
              have rewrites : s.Rewrites (w.modifyChange c fun change =>
                  { change with steps := done, status := .dispatched, updatedAt := now }) c change
                  { change with steps := done, status := .dispatched, updatedAt := now } := by
                have locked : s.Quiet { s with locks := rows } := .of_commands rfl
                have quiet := locked.trans loop.quiet
                refine ⟨atChange, changes, by rw [frame]; rfl, quiet.trans (.of_commands rfl), ?_, loop.ids,
                  grows, ?_⟩
                · have settled := loop.queue.mono fun id => isForward_set atChange changes grows
                  exact settled.of_commands rfl
                · intro id x p bound atRow link
                  rcases loop.linked bound atRow link with before | member
                  · cases before
                  · exact member
              have columns : w.Evolves (w.modifyChange c fun change =>
                  { change with steps := done, status := .dispatched, updatedAt := now }) := .of_commands rfl
              have none : ∀ y ∈ done, y.rollbackCommandId = none ∧ y.rollbackHistoryIds = [] := by
                intro y member
                obtain ⟨x, atX, id, rfl⟩ := Table.forall₂_mem
                  (R := fun y x => ChangeStep.Sent x y) loop.sent.flip member
                exact unbegun x atX
              refine ⟨rewrites.system invariant.framework.ownership ?_ (fun _ atD => invariant.changes atD)
                ⟨mine.version, mine.kept, ?_, columns.forwardChain loop.chain, none⟩, rewrites.progress,
                .quiet rewrites.quiet⟩
              · refine invariant.framework.locks.reserve atChange changes (targets_grows grows) rfl ?_ ?_
                · rw [modifyChange_locks, frame]
                  exact single
                · intro lock
                  rw [modifyChange_locks, frame]
                  exact members lock
              · intro y member id old
                simp [(none y member).2] at old
      · split at run
        · cases Except.ok.inj run
          exact .refl invariant
        · cases run

end Inventory

end OpenNode
