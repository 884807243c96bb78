import OpenNode.QueueTransactions

namespace OpenNode

open Inventory List Table

namespace Inventory

variable {env : Env} {s t u : Inventory} {now : Time} {operation : Operation} {c : ChangeSetId} {a b : ChangeSet}
  {stoppable : CommandId → Prop}

variable {server : ServerId}

theorem lock?_eq_none (free : s.lock? server = none) : server ∉ s.locks.map ServerLock.serverId := by
  intro member
  obtain ⟨lock, atLock, rfl⟩ := List.mem_map.mp member
  simpa using List.find?_eq_none.mp free lock atLock

theorem lock?_eq_some {lock : ServerLock} (found : s.lock? server = some lock) :
    lock ∈ s.locks ∧ lock.serverId = server :=
  ⟨mem_of_find?_eq_some found, by simpa using List.find?_some found⟩

theorem LockInvariant.lock? (locks : s.LockInvariant) {lock : ServerLock} (member : lock ∈ s.locks) :
    s.lock? lock.serverId = some lock := by
  cases found : s.lock? lock.serverId with
  | none => exact absurd (mem_map_of_mem member) (lock?_eq_none found)
  | some other =>
    obtain ⟨atOther, same⟩ := lock?_eq_some found
    rw [inj_on_of_nodup_map locks.single atOther member same]

variable {pending : ServerId → Bool}

theorem reserveServers_locks {servers : List ServerId} (single : (s.locks.map ServerLock.serverId).Nodup)
    (run : reserveServers pending c servers s = .ok t) :
    ∃ locks, t = { s with locks := locks } ∧ (locks.map ServerLock.serverId).Nodup ∧
      ∀ lock, lock ∈ locks ↔ lock ∈ s.locks ∨ lock.changeSetId = c ∧ lock.serverId ∈ servers := by
  induction servers generalizing s with
  | nil =>
    cases Except.ok.inj run
    exact ⟨_, rfl, single, by simp⟩
  | cons server rest ih =>
    rw [reserveServers] at run
    split at run
    · cases run
    · split at run
      · cases run
      · split at run
        · rename_i free
          have grown : ((s.locks ++ [(⟨server, c⟩ : ServerLock)]).map ServerLock.serverId).Nodup := by
            rw [map_append, map_singleton]
            refine List.Nodup.append single (by simp) ?_
            simpa using lock?_eq_none free
          obtain ⟨locks, frame, nodup, members⟩ := ih (s := { s with locks := s.locks ++ [⟨server, c⟩] }) grown run
          refine ⟨locks, frame, nodup, fun lock => ?_⟩
          rw [members lock]
          simp only [mem_append, mem_cons, not_mem_nil, or_false]
          constructor
          · rintro ((old | rfl) | later)
            · exact .inl old
            · exact .inr ⟨rfl, .inl rfl⟩
            · exact .inr ⟨later.1, .inr later.2⟩
          · rintro (old | ⟨mine, same | later⟩)
            · exact .inl (.inl old)
            · exact .inl (.inr (by cases lock; simp_all))
            · exact .inr ⟨mine, later⟩
        · rename_i lock held
          split at run
          · rename_i mine
            obtain ⟨member, same⟩ := lock?_eq_some held
            obtain ⟨locks, frame, nodup, members⟩ := ih single run
            refine ⟨locks, frame, nodup, fun other => ?_⟩
            rw [members other]
            simp only [mem_cons]
            constructor
            · rintro (old | later)
              · exact .inl old
              · exact .inr ⟨later.1, .inr later.2⟩
            · rintro (old | ⟨theirs, here | later⟩)
              · exact .inl old
              · left
                have eq : other = lock := by
                  cases other
                  cases lock
                  simp_all
                exact eq ▸ member
              · exact .inr ⟨theirs, later⟩
          · cases run

theorem reserve_locks {steps : List ChangeStep} (locks : s.LockInvariant)
    (run : s.reserve pending c steps = .ok t) :
    ∃ rows, t = { s with locks := rows } ∧ (rows.map ServerLock.serverId).Nodup ∧
      ∀ lock, lock ∈ rows ↔ lock ∈ s.locks ∨ lock.changeSetId = c ∧ lock.serverId ∈ targets steps := by
  unfold reserve at run
  dsimp only at run
  split at run
  · cases run
  · obtain ⟨rows, frame, nodup, members⟩ := reserveServers_locks locks.single run
    refine ⟨rows, frame, nodup, fun lock => ?_⟩
    rw [members lock, mem_insertionSort, mem_dedup]

theorem LockInvariant.reserve (locks : s.LockInvariant) (atChange : s.changes[c]? = some a)
    (changes : t.changes = s.changes.set c b) (servers : targets b.steps = targets a.steps)
    (holds : b.status.holds = true) (single : (t.locks.map ServerLock.serverId).Nodup)
    (members : ∀ lock, lock ∈ t.locks ↔
      lock ∈ s.locks ∨ lock.changeSetId = c ∧ lock.serverId ∈ targets a.steps) : t.LockInvariant where
  single := single
  held := by
    intro server d
    rw [members, locks.held, changes]
    by_cases mine : c = d
    · subst mine
      rw [List.getElem?_set_self (row_lt atChange), atChange]
      simp only [Option.some.injEq, exists_eq_left', holds, servers, true_and]
      constructor
      · rintro (⟨_, member⟩ | member)
        · exact member
        · exact member
      · exact .inr
    · rw [List.getElem?_set_ne mine]
      simp [Ne.symm mine]

section Create

theorem createChangeSetModel_keeps {rollbackOnFailure : Bool} {steps : List StepCreate}
    (invariant : s.SystemInvariant)
    (run : s.createChangeSetModel env rollbackOnFailure steps now = .ok t) : Keeps env now operation s t := by
  unfold createChangeSetModel at run
  split at run
  · cases run
  · split at run
    · cases run
    · cases Except.ok.inj run
      have oldChange : ∀ {d : ChangeSetId} {x y : ChangeSet}, (s.changes ++ [x])[d]? = some y →
          s.changes[d]? = some y ∨ d = s.changes.length ∧ y = x := append_row
      generalize fresh : ({ rollbackOnFailure := rollbackOnFailure, steps := _, updatedAt := now } :
        ChangeSet) = x at oldChange
      have unsent : ∀ step ∈ x.steps, step.forwardCommandId = none ∧ step.rollbackCommandId = none ∧
          step.rollbackHistoryIds = [] := by
        intro step member
        rw [← fresh] at member
        obtain ⟨_, _, rfl⟩ := List.mem_map.mp member
        exact ⟨rfl, rfl, rfl⟩
      have none : commandIds x.steps = [] := by
        rw [commandIds, flatMap_eq_nil_iff]
        intro step member
        obtain ⟨h1, h2, h3⟩ := unsent step member
        simp [ChangeStep.commandIds, h1, h2, h3]
      have status : x.status = .planned := by rw [← fresh]
      have owns : ∀ {d id}, ({ s with changes := s.changes ++ [x] } : Inventory).Owns d id ↔ s.Owns d id := by
        intro d id
        constructor
        · rintro ⟨change, atD, member⟩
          rcases append_row atD with old | ⟨_, rfl⟩
          · exact ⟨change, old, member⟩
          · simp [none] at member
        · rintro ⟨change, atD, member⟩
          exact ⟨change, append_old atD, member⟩
      have evolves : s.Evolves { s with changes := s.changes ++ [x] } := .of_commands rfl
      have ownership := invariant.framework.ownership
      refine ⟨⟨⟨?_, ?_, ?_⟩, ?_⟩, ⟨evolves, ?_, ?_⟩, .quiet (.of_commands rfl)⟩
      · refine QueueUpTo.mono (invariant.framework.queue.of_commands rfl) ?_
        rintro id ⟨d, change, atD, place⟩
        exact ⟨d, change, append_old atD, place⟩
      · constructor
        · intro d change atD
          rcases append_row atD with old | ⟨_, rfl⟩
          · exact ownership.distinct old
          · simp [none]
        · exact fun mine theirs => ownership.exclusive (owns.mp mine) (owns.mp theirs)
        · exact fun mine => ownership.placed (owns.mp mine)
        · intro id y p atRow link
          simp only [owns]
          exact ownership.linked atRow link
        · exact fun mine => ownership.sent (owns.mp mine)
        · exact ownership.access
      · refine ⟨invariant.framework.locks.single, fun {server d} => ?_⟩
        rw [invariant.framework.locks.held]
        constructor
        · rintro ⟨change, atD, holds⟩
          exact ⟨change, append_old atD, holds⟩
        · rintro ⟨change, atD, holds, member⟩
          rcases append_row atD with old | ⟨_, rfl⟩
          · exact ⟨change, old, holds, member⟩
          · simp [status, ChangeSetStatus.holds] at holds
      · intro d change atD
        rcases append_row atD with old | ⟨_, rfl⟩
        · exact (invariant.changes old).evolves evolves
        · refine ⟨by rw [← fresh], by rw [← fresh], ?_, ?_⟩
          · intro step member id old
            simp [(unsent step member).2.2] at old
          · simp only [Stands, status]
            exact ⟨fun step member => (unsent step member).1, fun step member => (unsent step member).2⟩
      · intro d change atD
        exact ⟨change, append_old atD, List.forall₂_same.mpr fun y _ => .refl y, fun _ member => .inl member⟩
      · intro id y p bound atRow
        exact absurd (row_lt atRow) (Nat.not_lt.mpr bound)

end Create

section Accept

theorem accept_keeps {reason : String} (invariant : s.SystemInvariant)
    (run : s.accept c reason now = .ok t) : Keeps env now operation s t := by
  unfold accept at run
  split at run
  · cases run
  · rename_i change atChange
    split at run
    · cases run
    · rename_i review
      split at run
      · cases run
      · rename_i landed
        cases Except.ok.inj run
        have mine := invariant.changes atChange
        have rewrites : s.Rewrites ((s.modifyChange c fun change =>
            { change with status := .accepted, resolutionReason := reason, updatedAt := now }).release c)
            c change { change with status := .accepted, resolutionReason := reason, updatedAt := now } :=
          .columns atChange invariant.framework.queue rfl (modify_eq_set atChange) rfl rfl
        have evolves := rewrites.quiet.evolves
        have returned : ∀ id ∈ commandIds change.steps, s.Settling id → s.Finished id := by
          rintro id member ⟨x, atRow, done | sent⟩
          · exact ⟨x, atRow, done⟩
          · refine ⟨x, atRow, ?_⟩
            by_contra live
            refine landed (List.any_eq_true.mpr ⟨id, member, ?_⟩)
            simp [atRow, Command.inFlight, Bool.eq_false_iff.mpr live, sent]
        have finished : Forwards s.Settling change.steps → Forwards s.Finished change.steps :=
          fun settling step member id sent => returned id
            (commandIds_mem.mpr ⟨step, member, .inl sent⟩) (settling step member id sent)
        have stands : s.ForwardChain none change.steps ∧ Forwards s.Finished change.steps ∧
            (Unbegun change.steps ∨ s.Begun change.steps) ∧ Rollbacks s.Finished change.steps := by
          have stands := mine.stands
          unfold Stands at stands
          cases status : change.status <;> simp only [status] at stands <;>
            simp [ChangeSetStatus.review, status] at review
          case failed =>
            obtain ⟨chain, unbegun, settling⟩ := stands
            refine ⟨chain, finished settling, .inl unbegun, fun step member id rollback => ?_⟩
            simp [(unbegun step member).1] at rollback
          case rollbackFailed =>
            obtain ⟨chain, begun, rollbacks⟩ := stands
            exact ⟨chain, begun.forwards, .inr begun, rollbacks⟩
          case rollbackIncomplete =>
            obtain ⟨chain, begun, rollbacks⟩ := stands
            exact ⟨chain, begun.forwards, .inr begun, rollbacks.imp fun _ => Succeeded.finished⟩
        obtain ⟨chain, forwards, begun, rollbacks⟩ := stands
        refine ⟨rewrites.system invariant.framework.ownership
          (invariant.framework.locks.release rewrites.changes rfl rfl)
          (fun _ atD => invariant.changes atD) ⟨mine.version, mine.kept, evolves.history mine.history, ?_⟩,
          rewrites.progress, .quiet rewrites.quiet⟩
        exact ⟨evolves.forwardChain chain, forwards.imp fun _ => evolves.finished,
          begun.imp (fun h => h) evolves.begun, rollbacks.imp fun _ => evolves.finished⟩

end Accept

end Inventory

end OpenNode
