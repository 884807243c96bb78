import OpenNode.Transactions

namespace OpenNode

open Inventory

namespace Inventory

variable {env : Env} {s t u : Inventory} {now : Time} {k : CommandId} {a : Command}

/-- What a transaction does to the commands. One command may be leased,
released or ended; the others change quietly. -/
inductive Effect (env : Env) (now : Time) (operation : Operation) (s t : Inventory) : Prop
  | quiet : s.Quiet t → Effect env now operation s t
  | lease {k : CommandId} {a : Command} {view : AccessView} :
      operation = .claim k view → s.commands[k]? = some a → a.isLeaseCandidate now = true →
      s.canLease k a = true → t = s.grantLease k now → Effect env now operation s t
  | release {k : CommandId} {a : Command} :
      s.commands[k]? = some a → a.status = .leased →
      (t = s.modifyCommand k fun command =>
        { command with status := .pending, leasedAt := none, updatedAt := now }) →
      Effect env now operation s t
  | conclude {k : CommandId} {a : Command} {f : Command → Command} :
      ((∃ result, operation = .result k result) ∨
        ∃ view server error, operation = .claim k view ∧ a.isLeaseCandidate now = true ∧
          s.canLease k a = true ∧ s.servers[a.serverId]? = some server ∧
          accessCanLease env view server k a = .skip error) →
      s.commands[k]? = some a → Concludes a (f a) → (f a).leasedAt = a.leasedAt →
      ((f a).status = .skipped ∨ 0 < a.attempts ∨
        s.lock? a.serverId = none ∧ ∀ c, ¬ s.Owns c k) →
      (s.modifyCommand k f).Quiet t → Effect env now operation s t
  | terminalize {k : CommandId} {a : Command} {error : String} {resultStatus : Nat} :
      (operation = .capabilityLoss k ∨ s.canLease k a = true ∧ ∃ view, operation = .claim k view) →
      s.commands[k]? = some a → Concludes a (terminalizedCommand now error resultStatus a) →
      ((∃ server, s.servers[a.serverId]? = some server ∧ (server.leaseError a.payload).isSome = true) ∨
        (∃ view, operation = .claim k view) ∧ (a.payload.wireError env).isSome = true) →
      a.isLeaseCandidate now = true →
      (s.modifyCommand k (terminalizedCommand now error resultStatus)).Quiet t →
      Effect env now operation s t

/-- The invariant and the bounds of a transaction. -/
structure Keeps (env : Env) (now : Time) (operation : Operation) (s t : Inventory) : Prop where
  system : t.SystemInvariant
  progress : s.Progress t
  effect : Effect env now operation s t

variable {operation : Operation}

theorem Keeps.refl (invariant : s.SystemInvariant) :
    Keeps env now operation s s :=
  ⟨invariant, .refl s, .quiet (.refl s)⟩

theorem candidate_running (candidate : a.isLeaseCandidate now = true) : a.status = .pending ∨
    a.status = .leased := by
  simp only [Command.isLeaseCandidate, Bool.or_eq_true, Bool.and_eq_true, beq_iff_eq] at candidate
  exact candidate.imp (fun h => h) And.left

theorem running_live (running : a.status = .pending ∨ a.status = .leased) : a.status.terminal = false := by
  rcases running with h | h <;> simp [h, CommandStatus.terminal]

theorem finish_advance {f : Command → Command} (invariant : s.SystemInvariant)
    (atRow : s.commands[k]? = some a) (concludes : Concludes a (f a))
    (sent : (∃ c, s.Owns c k) → (f a).status = .skipped ∨ 0 < a.attempts)
    (run : (s.finishCommand k now f).advanceAfterResult env k now = .ok t) :
    t.SystemInvariant ∧ s.Progress t ∧ (s.modifyCommand k f).Quiet t := by
  obtain ⟨system, progress, quiet⟩ :=
    advanceAfterResult_system (finishCommand_system now invariant atRow concludes sent) run
  have finished : s.Progress (s.finishCommand k now f) :=
    .of_length (finishCommand_evolves now invariant atRow concludes) (finishCommand_changes ..)
      (finishCommand_length ..)
  refine ⟨system, finished.trans progress, ?_⟩
  exact (advanceCommandDependents_quiet (concludes.idle invariant atRow) k now).trans quiet

variable {view : AccessView} {error : String}

theorem skip_keeps {server : Server} (invariant : s.SystemInvariant) (atRow : s.commands[k]? = some a)
    (candidate : a.isLeaseCandidate now = true) (allowed : s.canLease k a = true)
    (atServer : s.servers[a.serverId]? = some server) (verdict : accessCanLease env view server k a = .skip error)
    (run : s.skip env k now error = .ok t) : Keeps env now (.claim k view) s t := by
  have running := candidate_running candidate
  have concludes : Concludes a { a with
      status := .skipped, resultError := some error, completedAt := some now, updatedAt := now } :=
    ⟨running, rfl, rfl, rfl, rfl, rfl⟩
  obtain ⟨system, progress, quiet⟩ := finish_advance (f := fun command => { command with
      status := .skipped, resultError := some error, completedAt := some now, updatedAt := now })
    invariant atRow concludes (fun _ => .inl rfl) run
  exact ⟨system, progress, .conclude (.inr ⟨view, server, error, rfl, candidate, allowed, atServer, verdict⟩)
    atRow concludes rfl (.inl rfl) quiet⟩

variable {resultStatus : Nat}

theorem terminalized_concludes (running : a.status = .pending ∨ a.status = .leased) :
    Concludes a (terminalizedCommand now error resultStatus a) := by
  refine ⟨running, ?_, rfl, rfl, rfl, rfl⟩
  simp only [terminalizedCommand]
  split <;> rfl

theorem terminalize_keeps (invariant : s.SystemInvariant)
    (asked : operation = .capabilityLoss k ∨ s.canLease k a = true ∧ ∃ view, operation = .claim k view)
    (atRow : s.commands[k]? = some a) (candidate : a.isLeaseCandidate now = true)
    (refused : (∃ server, s.servers[a.serverId]? = some server ∧ (server.leaseError a.payload).isSome = true) ∨
      (∃ view, operation = .claim k view) ∧ (a.payload.wireError env).isSome = true)
    (run : s.terminalizeUnleaseableCommand env k now error resultStatus = .ok t) : Keeps env now operation s t := by
  have concludes : Concludes a (terminalizedCommand now error resultStatus a) :=
    terminalized_concludes (candidate_running candidate)
  obtain ⟨system, progress, quiet⟩ := finish_advance (f := terminalizedCommand now error resultStatus)
    invariant atRow concludes (fun _ => by simp only [terminalizedCommand]; split <;> simp [*]) run
  exact ⟨system, progress, .terminalize asked atRow concludes refused candidate quiet⟩

theorem map_fst_ok {α β : Type} {x : Except Refusal α} {y : β} {z : α × β}
    (mapped : x.map (·, y) = .ok z) : ∃ w, x = .ok w ∧ z = (w, y) := by
  cases x with
  | error refusal => cases mapped
  | ok w => exact ⟨w, rfl, (Except.ok.inj mapped).symm⟩

theorem claimCommandLease_keeps {granted : Bool} (invariant : s.SystemInvariant)
    (run : s.claimCommandLease env view k now = .ok (t, granted)) :
    Keeps env now (.claim k view) s t ∧ (granted = true → ∃ a, s.commands[k]? = some a ∧
      a.isLeaseCandidate now = true ∧ s.canLease k a = true ∧ t = s.grantLease k now) := by
  unfold claimCommandLease at run
  split at run
  · cases run
  · rename_i a atRow
    split at run
    · cases run
    · rename_i server atServer
      have same : ∀ {x}, (Except.ok (s, false) : Except Refusal _) = .ok (t, x) → t = s ∧ x = false := by
        intro x eq
        cases eq
        exact ⟨rfl, rfl⟩
      split at run
      · obtain ⟨rfl, rfl⟩ := same run
        exact ⟨.refl invariant, by simp⟩
      · rename_i candidate
        have candidate : a.isLeaseCandidate now = true := by simpa using candidate
        split at run
        · obtain ⟨rfl, rfl⟩ := same run
          exact ⟨.refl invariant, by simp⟩
        · rename_i allowed
          have allowed : s.canLease k a = true := by simpa using allowed
          split at run
          · obtain ⟨rfl, rfl⟩ := same run
            exact ⟨.refl invariant, by simp⟩
          · rename_i error verdict
            obtain ⟨w, skipped, eq⟩ := map_fst_ok run
            cases eq
            exact ⟨skip_keeps invariant atRow candidate allowed atServer verdict skipped, by simp⟩
          · split at run
            · rename_i error refused
              obtain ⟨w, ended, eq⟩ := map_fst_ok run
              cases eq
              exact ⟨terminalize_keeps invariant (.inr ⟨allowed, view, rfl⟩) atRow candidate
                (.inl ⟨server, atServer, by simp [refused]⟩) ended, by simp⟩
            · split at run
              · rename_i error refused
                obtain ⟨w, ended, eq⟩ := map_fst_ok run
                cases eq
                exact ⟨terminalize_keeps invariant (.inr ⟨allowed, view, rfl⟩) atRow candidate
                  (.inr ⟨⟨view, rfl⟩, by simp [refused]⟩) ended, by simp⟩
              · cases run
                have evolves : a.Evolves
                    { a with
                      status := .leased
                      attempts := a.attempts + 1
                      leasedAt := some now
                      updatedAt := now } :=
                  ⟨rfl, rfl, rfl, Nat.le_succ _, by simp [running_live (candidate_running candidate)], by simp⟩
                obtain ⟨system, all⟩ := modifyCommand_system (f := fun command =>
                    { command with
                      status := .leased
                      attempts := command.attempts + 1
                      leasedAt := some now
                      updatedAt := now })
                  invariant atRow evolves (candidate_running candidate) (.inr ⟨rfl, Nat.succ_pos _⟩)
                exact ⟨⟨system, .of_length all rfl (List.length_modify ..), .lease rfl atRow candidate allowed rfl⟩,
                  fun _ => ⟨a, atRow, candidate, allowed, rfl⟩⟩

theorem reconcileCommandCapabilityLoss_keeps (invariant : s.SystemInvariant)
    (run : s.reconcileCommandCapabilityLoss env k now = .ok t) :
    Keeps env now (.capabilityLoss k) s t := by
  unfold reconcileCommandCapabilityLoss at run
  split at run
  · cases run
  · rename_i a atRow
    split at run
    · cases run
    · rename_i server atServer
      split at run
      · rename_i candidate
        split at run
        · rename_i error refused
          exact terminalize_keeps invariant (.inl rfl) atRow candidate
            (.inl ⟨server, atServer, by simp [refused]⟩) run
        · cases Except.ok.inj run
          exact .refl invariant
      · cases Except.ok.inj run
        exact .refl invariant

theorem releaseCommandLease_keeps {attempts : Nat} (invariant : s.SystemInvariant)
    (run : s.releaseCommandLease k attempts now = .ok t) : Keeps env now operation s t := by
  unfold releaseCommandLease at run
  split at run
  · cases run
  · rename_i a atRow
    split at run
    · rename_i held
      cases Except.ok.inj run
      have evolves : a.Evolves { a with status := .pending, leasedAt := none, updatedAt := now } :=
        ⟨rfl, rfl, rfl, le_rfl, by simp [held.1, CommandStatus.terminal], by simp⟩
      obtain ⟨system, all⟩ := modifyCommand_system (f := fun command =>
          { command with status := .pending, leasedAt := none, updatedAt := now })
        invariant atRow evolves (.inr held.1) (.inl rfl)
      exact ⟨system, .of_length all rfl (List.length_modify ..), .release atRow held.1 rfl⟩
    · cases Except.ok.inj run
      exact .refl invariant

theorem newCommandModel_first {server : ServerId} {payload : CommandPayload} :
    s.Progress (s.newCommandModel server payload now none) := by
  refine .of_links (s.newCommandModel_quiet server payload now none none).evolves rfl ?_
  intro id b p bound atRow link
  rcases newCommandModel_cases atRow with old | ⟨_, _, prior⟩
  · exact absurd (Table.row_lt old) (Nat.not_lt.mpr bound)
  · rw [link] at prior
    cases prior

variable {result : CommandResult}

theorem queueXraySnapshotRefresh_quiet {command : Command} (invariant : s.SystemInvariant)
    (run : s.queueXraySnapshotRefresh env command result now = .ok t) :
    t.SystemInvariant ∧ s.Progress t ∧ s.Quiet t := by
  have same : (Except.ok s : Except Refusal Inventory) = .ok t →
      t.SystemInvariant ∧ s.Progress t ∧ s.Quiet t := by
    intro eq
    cases Except.ok.inj eq
    exact ⟨invariant, .refl s, .refl s⟩
  unfold queueXraySnapshotRefresh at run
  split at run
  · exact same run
  · split at run
    · exact same run
    · split at run
      · exact same run
      · split at run
        · exact same run
        · have fresh := createCommandModel_ok run
          subst fresh
          have quiet := s.newCommandModel_quiet command.serverId snapshotRefresh now none none
          exact ⟨newCommandModel_system now _ _ none invariant (by simp), newCommandModel_first, quiet⟩

theorem completed_concludes {error : Option String} (running : a.status = .pending ∨ a.status = .leased) :
    Concludes a (completedCommand result error now a) := by
  refine ⟨running, ?_, rfl, rfl, rfl, rfl⟩
  simp only [completedCommand]
  split <;> rfl

theorem applyCommandResult_keeps (invariant : s.SystemInvariant)
    (run : s.applyCommandResult env k result now = .ok t) :
    Keeps env now (.result k result) s t := by
  unfold applyCommandResult at run
  split at run
  · cases run
  · rename_i a atRow
    split at run
    · cases Except.ok.inj run
      exact .refl invariant
    · rename_i live
      have live : a.status.terminal = false := by simpa using live
      split at run
      · cases run
      · rename_i awake
        split at run
        · cases run
        · rename_i valid
          have running : a.status = .pending ∨ a.status = .leased := by
            cases status : a.status <;> simp_all [CommandStatus.terminal]
          have place : 0 < a.attempts ∨ s.lock? a.serverId = none ∧ ∀ c, ¬ s.Owns c k := by
            by_cases idle : a.attempts = 0
            · right
              simp only [validateResult, idle, beq_self_eq_true, Bool.true_and, Bool.not_not,
                Bool.or_eq_true, Bool.not_eq_true', not_or, Option.isSome_iff_ne_none, ne_eq,
                not_not] at valid
              refine ⟨by simpa using valid.1.2, fun c mine => ?_⟩
              have owner := invariant.owner_of_owns mine ⟨a, atRow, live⟩
              simp [owner] at valid
            · exact .inl (Nat.pos_of_ne_zero idle)
          have concludes : Concludes a (completedCommand result (resultError env a result) now a) :=
            completed_concludes running
          have sent : (∃ c, s.Owns c k) →
              (completedCommand result (resultError env a result) now a).status = .skipped ∨ 0 < a.attempts := by
            rintro ⟨c, mine⟩
            rcases place with positive | ⟨_, free⟩
            · exact .inr positive
            · exact absurd mine (free c)
          have finished := finishCommand_system now invariant atRow concludes sent
          have cascade := advanceCommandDependents_quiet (concludes.idle invariant atRow) k now
          have first : s.Progress (s.finishCommand k now
              (completedCommand result (resultError env a result) now)) :=
            .of_length (finishCommand_evolves now invariant atRow concludes) (finishCommand_changes ..)
              (finishCommand_length ..)
          dsimp only at run
          split at run
          · cases run
          · rename_i u refreshed
            have second : u.SystemInvariant ∧ (s.finishCommand k now
                (completedCommand result (resultError env a result) now)).Progress u ∧
                (s.finishCommand k now (completedCommand result (resultError env a result) now)).Quiet u := by
              split at refreshed
              · cases Except.ok.inj refreshed
                exact ⟨finished, .refl _, .refl _⟩
              · exact queueXraySnapshotRefresh_quiet finished refreshed
            obtain ⟨system, progress, quiet⟩ := advanceAfterResult_system second.1 run
            exact ⟨system, first.trans (second.2.1.trans progress),
              .conclude (.inl ⟨result, rfl⟩) atRow concludes rfl (.inr place)
                (cascade.trans (second.2.2.trans quiet))⟩

end Inventory

end OpenNode
