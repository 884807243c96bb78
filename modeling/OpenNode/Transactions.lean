import OpenNode.Advance
import OpenNode.Lib.Loops
import OpenNode.Operations

namespace OpenNode

open Inventory

namespace Inventory

variable {env : Env} {s t u : Inventory} {now : Time} {k : CommandId} {a : Command}

/-- What no transaction takes back: rows of finished commands, attempts, the
references of a change set, and that only new commands are added to them. A
new command outside the change sets stands behind new commands only. -/
structure Progress (s t : Inventory) : Prop where
  evolves : s.Evolves t
  changes : ∀ {c : ChangeSetId} {a : ChangeSet}, s.changes[c]? = some a →
    ∃ b, t.changes[c]? = some b ∧ List.Forall₂ ChangeStep.Grows a.steps b.steps ∧
      ∀ id ∈ commandIds b.steps, id ∈ commandIds a.steps ∨ s.commands.length ≤ id
  fresh : ∀ {id : CommandId} {b : Command} {p : CommandId}, s.commands.length ≤ id →
    t.commands[id]? = some b → b.dependsOn = some p → s.commands.length ≤ p ∨ ∃ c, t.Owns c id

theorem Progress.of_links (evolves : s.Evolves t) (changes : t.changes = s.changes)
    (links : ∀ {id : CommandId} {b : Command} {p : CommandId}, s.commands.length ≤ id →
      t.commands[id]? = some b → b.dependsOn = some p → s.commands.length ≤ p) : s.Progress t where
  evolves := evolves
  changes {_ a} atChange :=
    ⟨a, changes ▸ atChange, List.forall₂_same.mpr fun x _ => .refl x, fun _ member => .inl member⟩
  fresh bound atRow link := .inl (links bound atRow link)

theorem Progress.of_length (evolves : s.Evolves t) (changes : t.changes = s.changes)
    (length : t.commands.length = s.commands.length) : s.Progress t := by
  refine .of_links evolves changes fun bound atRow _ => ?_
  exact absurd (Table.row_lt atRow) (Nat.not_lt.mpr (length ▸ bound))

theorem Progress.refl (s : Inventory) : s.Progress s :=
  .of_length (.refl s) rfl rfl

variable {id : CommandId}

theorem commandIds_grows {steps steps' : List ChangeStep} (grows : List.Forall₂ ChangeStep.Grows steps steps')
    (member : id ∈ commandIds steps) : id ∈ commandIds steps' := by
  obtain ⟨x, atX, place⟩ := commandIds_mem.mp member
  obtain ⟨y, atY, change⟩ := Table.forall₂_mem grows atX
  refine commandIds_mem.mpr ⟨y, atY, ?_⟩
  have compensators : id ∈ x.compensators → y.rollbackCommandId = some id ∨ id ∈ y.rollbackHistoryIds := by
    intro old
    simpa [ChangeStep.compensators] using change.compensators id old
  rcases place with sent | rollback | old
  · exact .inl (change.forwardCommandId id sent)
  · exact .inr (compensators (by simp [ChangeStep.compensators, rollback]))
  · exact .inr (compensators (by simp [ChangeStep.compensators, old]))

variable {c : ChangeSetId}

theorem Progress.owns (progress : s.Progress t) (mine : s.Owns c id) : t.Owns c id := by
  obtain ⟨change, atChange, member⟩ := mine
  obtain ⟨b, atNew, grows, _⟩ := progress.changes atChange
  exact ⟨b, atNew, commandIds_grows grows member⟩

theorem Progress.trans (first : s.Progress t) (second : t.Progress u) : s.Progress u where
  evolves := first.evolves.trans second.evolves
  changes := by
    intro c a atChange
    obtain ⟨b, atMid, early, fresh⟩ := first.changes atChange
    obtain ⟨d, atEnd, late, later⟩ := second.changes atMid
    refine ⟨d, atEnd, Loops.forall₂_trans (fun _ _ _ before after => before.trans after) early late, ?_⟩
    intro id member
    rcases later id member with old | beyond
    · exact fresh id old
    · exact .inr (Nat.le_trans first.evolves.length_le beyond)
  fresh := by
    intro id b p bound atRow link
    by_cases old : id < t.commands.length
    · obtain ⟨b', atNew, change⟩ := second.evolves _ _ (List.getElem?_eq_getElem old)
      cases atNew.symm.trans atRow
      rcases first.fresh bound (List.getElem?_eq_getElem old) (change.dependsOn ▸ link) with
        beyond | ⟨c, mine⟩
      · exact .inl beyond
      · exact .inr ⟨c, second.owns mine⟩
    · rcases second.fresh (Nat.le_of_not_lt old) atRow link with beyond | mine
      · exact .inl (Nat.le_trans first.evolves.length_le beyond)
      · exact .inr mine

theorem Rewrites.progress {x y : ChangeSet} (rewrites : s.Rewrites t c x y) : s.Progress t where
  evolves := rewrites.quiet.evolves
  changes := by
    intro d z atD
    by_cases same : d = c
    · subst same
      cases rewrites.atChange.symm.trans atD
      refine ⟨y, rewrites.self, rewrites.steps, fun id member => ?_⟩
      exact (rewrites.member.mp member).imp (fun h => h) And.left
    · exact ⟨z, (rewrites.other same).trans atD, List.forall₂_same.mpr fun x _ => .refl x,
        fun _ member => .inl member⟩
  fresh bound atRow _ := .inr ⟨c, rewrites.owns_self.mpr (.inr ⟨bound, Table.row_lt atRow⟩)⟩

theorem SystemInvariant.of_evolves (invariant : s.SystemInvariant) (evolves : s.Evolves t)
    (changes : t.changes = s.changes) (locks : t.locks = s.locks)
    (queue : t.QueueUpTo s.IsForward [])
    (access : ∀ row ∈ t.access, ∀ id, row.commandId = some id → ∃ a, t.commands[id]? = some a ∧ a.dependsOn = none)
    (fresh : ∀ {id a p}, s.commands.length ≤ id → t.commands[id]? = some a → a.dependsOn = some p →
      (∀ c, ¬ s.Owns c p) ∧ ∃ b, t.commands[p]? = some b ∧ b.serverId = a.serverId)
    (sent : ∀ {c id a}, s.Owns c id → t.commands[id]? = some a →
      a.status = .succeeded ∨ a.status = .failed → 0 < a.attempts) : t.SystemInvariant where
  framework :=
    { queue := by rw [QueueInvariant, isForward_congr changes]; exact queue
      ownership := invariant.framework.ownership.of_evolves evolves changes access fresh sent
      locks := invariant.framework.locks.of_same changes locks }
  changes {_ change} atChange :=
    (invariant.changes (changes ▸ atChange)).evolves evolves

theorem Ownership.access_evolves (ownership : s.Ownership) (evolves : s.Evolves t)
    (same : t.access = s.access) : ∀ row ∈ t.access, ∀ id, row.commandId = some id →
      ∃ a, t.commands[id]? = some a ∧ a.dependsOn = none := by
  intro row member id link
  obtain ⟨x, atRow, first⟩ := ownership.access row (same ▸ member) id link
  obtain ⟨y, atNew, change⟩ := evolves id x atRow
  exact ⟨y, atNew, change.dependsOn.trans first⟩

section Finish

variable {f : Command → Command}

/-- A command that was ready for an Agent ends. -/
structure Concludes (a b : Command) : Prop where
  running : a.status = .pending ∨ a.status = .leased
  ended : b.status.terminal = true
  serverId : b.serverId = a.serverId
  payload : b.payload = a.payload
  dependsOn : b.dependsOn = a.dependsOn
  attempts : b.attempts = a.attempts

theorem Concludes.evolves {a b : Command} (concludes : Concludes a b) : a.Evolves b where
  serverId := concludes.serverId
  payload := concludes.payload
  dependsOn := concludes.dependsOn
  attempts := concludes.attempts.ge
  terminal done := by
    rcases concludes.running with h | h <;> simp [h, CommandStatus.terminal] at done
  waiting idle := by
    have ended := concludes.ended
    simp [idle, CommandStatus.terminal] at ended

theorem Concludes.live {a b : Command} (concludes : Concludes a b) : a.status.terminal = false := by
  rcases concludes.running with h | h <;> simp [h, CommandStatus.terminal]

theorem Concludes.idle (invariant : s.SystemInvariant) (atRow : s.commands[k]? = some a)
    (concludes : Concludes a (f a)) : (s.modifyCommand k f).Idle := by
  intro id b atB waiting
  rcases modifyCommand_row atRow atB with ⟨rfl, rfl⟩ | ⟨_, old⟩
  · have ended := concludes.ended
    simp [waiting, CommandStatus.terminal] at ended
  · exact invariant.framework.queue.idle id b old waiting

theorem finishCommand_evolves (now : Time) (invariant : s.SystemInvariant)
    (atRow : s.commands[k]? = some a) (concludes : Concludes a (f a)) : s.Evolves (s.finishCommand k now f) := by
  have assigned : s.Evolves (s.modifyCommand k f) := by
    refine evolves_modifyCommand fun x atX => ?_
    cases atRow.symm.trans atX
    exact concludes.evolves
  exact assigned.trans (advanceCommandDependents_quiet (concludes.idle invariant atRow) k now).evolves

theorem finishCommand_system (now : Time) (invariant : s.SystemInvariant)
    (atRow : s.commands[k]? = some a) (concludes : Concludes a (f a))
    (sent : (∃ c, s.Owns c k) → (f a).status = .skipped ∨ 0 < a.attempts) :
    (s.finishCommand k now f).SystemInvariant := by
  have evolves := finishCommand_evolves now invariant atRow concludes
  have cascade := advanceCommandDependents_quiet (concludes.idle invariant atRow) k now
  have ownership := invariant.framework.ownership
  refine invariant.of_evolves evolves (finishCommand_changes ..) (finishCommand_locks ..) ?_
    (ownership.access_evolves evolves (finishCommand_access ..)) ?_ ?_
  · refine invariant.framework.queue.finishCommand atRow concludes.live concludes.dependsOn
      concludes.ended (.inl ?_)
    rcases concludes.running with h | h <;> simp [h]
  · intro id x p bound atX
    have present := Table.row_lt atX
    rw [finishCommand_length] at present
    exact absurd present (Nat.not_lt.mpr bound)
  · intro c id x mine atX outcome
    have present := ownership.placed mine
    obtain ⟨y, atY⟩ : ∃ y, (s.modifyCommand k f).commands[id]? = some y :=
      ⟨_, List.getElem?_eq_getElem (by simpa using present)⟩
    obtain ⟨x', atX', change⟩ := cascade.old id y atY
    cases atX'.symm.trans atX
    rcases change with rfl | moves
    · rcases modifyCommand_row atRow atY with ⟨rfl, rfl⟩ | ⟨_, old⟩
      · rcases sent ⟨c, mine⟩ with skipped | positive
        · simp [skipped] at outcome
        · exact concludes.attempts ▸ positive
      · exact ownership.sent mine old outcome
    · rcases moves.target with h | ⟨_, h⟩ <;> simp [h] at outcome

end Finish

theorem modifyCommand_system {f : Command → Command} (invariant : s.SystemInvariant)
    (atRow : s.commands[k]? = some a) (evolves : a.Evolves (f a))
    (running : a.status = .pending ∨ a.status = .leased)
    (runs : (f a).status = .pending ∨ (f a).status = .leased ∧ 0 < (f a).attempts) :
    (s.modifyCommand k f).SystemInvariant ∧ s.Evolves (s.modifyCommand k f) := by
  have all : s.Evolves (s.modifyCommand k f) := by
    refine evolves_modifyCommand fun x atX => ?_
    cases atRow.symm.trans atX
    exact evolves
  refine ⟨invariant.of_evolves all rfl rfl ?_ (invariant.framework.ownership.access_evolves all rfl) ?_ ?_, all⟩
  · exact invariant.framework.queue.modify_running atRow running evolves.dependsOn runs
  · intro id x p bound atX
    have present := Table.row_lt atX
    rw [modifyCommand_commands, List.length_modify] at present
    exact absurd present (Nat.not_lt.mpr bound)
  · intro c id x mine atX outcome
    rcases modifyCommand_row atRow atX with ⟨rfl, rfl⟩ | ⟨_, old⟩
    · rcases runs with h | ⟨h, _⟩ <;> simp [h] at outcome
    · exact invariant.framework.ownership.sent mine old outcome

theorem newCommandModel_system (now : Time) (server : ServerId) (payload : CommandPayload)
    (dependsOn : Option CommandId) (invariant : s.SystemInvariant)
    (behind : ∀ p, dependsOn = some p → (s.Succeeded p ∨ s.Live p) ∧ (∀ c, ¬ s.Owns c p) ∧
      ∃ b, s.commands[p]? = some b ∧ b.serverId = server) :
    (s.newCommandModel server payload now dependsOn).SystemInvariant := by
  have quiet := s.newCommandModel_quiet server payload now dependsOn none
  refine invariant.of_evolves quiet.evolves rfl rfl ?_
    (invariant.framework.ownership.access_evolves quiet.evolves rfl) ?_ ?_
  · refine invariant.framework.queue.newCommandModel server payload now fun p link => ?_
    exact (behind p link).1
  · intro id x p bound atX link
    rcases newCommandModel_cases atX with old | ⟨_, addressee, prior⟩
    · exact absurd (Table.row_lt old) (Nat.not_lt.mpr bound)
    · obtain ⟨_, free, b, atP, server⟩ := behind p (prior ▸ link)
      exact ⟨free, b, Table.append_old atP, server.trans addressee.symm⟩
  · intro c id x mine atX outcome
    exact quiet.sent invariant.framework.ownership mine atX outcome

theorem advanceAfterResult_system (invariant : s.SystemInvariant) (run : s.advanceAfterResult env k now = .ok t) :
    t.SystemInvariant ∧ s.Progress t ∧ s.Quiet t := by
  unfold advanceAfterResult at run
  split at run
  · cases Except.ok.inj run
    exact ⟨invariant, .refl s, .refl s⟩
  · rename_i c owner
    split at run
    · rename_i coordinated
      obtain ⟨change, atChange, _⟩ := (Option.any_eq_true _ _).mp coordinated
      obtain ⟨d, rewrites, stands, locks⟩ := advance_rewrites invariant.framework atChange
        (.inl (invariant.changes atChange)) run
      exact ⟨rewrites.system invariant.framework.ownership locks
        (fun _ atD => invariant.changes atD) stands, rewrites.progress, rewrites.quiet⟩
    · cases Except.ok.inj run
      exact ⟨invariant, .refl s, .refl s⟩

theorem owner_eq_none (free : s.owner id = none) {change : ChangeSet} (atChange : s.changes[c]? = some change)
    {step : ChangeStep} (member : step ∈ change.steps) :
    step.refers id = false := by
  have none := List.findIdx?_eq_none_iff.mp free change (List.mem_of_getElem? atChange)
  simpa using List.any_eq_false.mp none step member

theorem SystemInvariant.owner_of_owns (invariant : s.SystemInvariant) (mine : s.Owns c id) (live : s.Live id) :
    s.owner id = some c := by
  have refers : ∀ {d}, s.Owns d id → ∃ change, s.changes[d]? = some change ∧
      (change.steps.any fun step => step.refers id) = true := by
    rintro d ⟨change, atChange, member⟩
    obtain ⟨step, atStep, place⟩ := commandIds_mem.mp member
    refine ⟨change, atChange, List.any_eq_true.mpr ⟨step, atStep, ?_⟩⟩
    rcases place with forward | rollback | old
    · simp [ChangeStep.refers, forward]
    · simp [ChangeStep.refers, rollback]
    · obtain ⟨lost, _⟩ := (invariant.changes atChange).history step atStep id old
      exact absurd (Lost.finished lost) live.not_finished
  obtain ⟨change, atChange, found⟩ := refers mine
  cases owner : s.owner id with
  | none =>
    obtain ⟨step, member, refers⟩ := List.any_eq_true.mp found
    simp [owner_eq_none owner atChange member] at refers
  | some d =>
    obtain ⟨bound, hit, _⟩ := List.findIdx?_eq_some_iff_getElem.mp owner
    obtain ⟨step, member, refers⟩ := List.any_eq_true.mp hit
    have theirs : s.Owns d id := by
      refine ⟨s.changes[d], List.getElem?_eq_getElem bound, commandIds_mem.mpr ⟨step, member, ?_⟩⟩
      simp only [ChangeStep.refers, Bool.or_eq_true, beq_iff_eq] at refers
      exact refers.imp (fun h => h) .inl
    rw [invariant.framework.ownership.exclusive theirs mine]

end Inventory

end OpenNode
