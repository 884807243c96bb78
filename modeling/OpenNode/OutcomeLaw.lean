import OpenNode.Reachability

namespace OpenNode

open Inventory

namespace Inventory

variable {env : Env} {s t u : Inventory} {now : Time} {operation : Operation}

variable {id : CommandId} {a : Command}

theorem Progress.terminal (progress : s.Progress t) (atRow : s.commands[id]? = some a)
    (done : a.status.terminal = true) : t.commands[id]? = some a :=
  progress.evolves.terminal atRow done

theorem Effect.waiting_not_leased (effect : Effect env now operation s t) (atRow : s.commands[id]? = some a)
    (waiting : a.status = .waiting) : ¬ s.LeaseGranted t id := by
  intro granted
  obtain ⟨b, atB, candidate, _⟩ := effect.leaseGranted granted
  cases atRow.symm.trans atB
  rcases candidate_running candidate with h | h <;> simp [waiting] at h

theorem Effect.finished_not_leased (effect : Effect env now operation s t) (finished : s.Finished id) :
    ¬ s.LeaseGranted t id := by
  intro granted
  obtain ⟨a, atRow, done⟩ := finished
  obtain ⟨b, atB, candidate, _⟩ := effect.leaseGranted granted
  cases atRow.symm.trans atB
  rcases candidate_running candidate with h | h <;> simp [h, CommandStatus.terminal] at done

theorem waiting_result_refused (atRow : s.commands[id]? = some a) (waiting : a.status = .waiting)
    (result : CommandResult) :
    ∃ refusal, s.transact env now (.result id result) = .error refusal := by
  refine ⟨.commandNotReady s!"command is waiting for prerequisite: {id}", ?_⟩
  simp only [transact, applyCommandResult, atRow, waiting, CommandStatus.terminal, Bool.false_eq_true,
    if_false, if_true]

theorem live_of_statusOf {status : CommandStatus} (atStatus : s.statusOf id = some status)
    (undone : status.terminal = false) : s.Live id := by
  obtain ⟨a, atRow, rfl⟩ := statusOf_eq.mp atStatus
  exact ⟨a, atRow, undone⟩

theorem lost_of_statusOf (atStatus : s.statusOf id = some .failed ∨ s.statusOf id = some .skipped) : s.Lost id := by
  rcases atStatus with h | h <;> obtain ⟨a, atRow, status⟩ := statusOf_eq.mp h
  · exact ⟨a, atRow, .inl status⟩
  · exact ⟨a, atRow, .inr status⟩

theorem Evolves.prerequisite (evolves : s.Evolves t) {p : CommandId} (link : s.prerequisite id = some p) :
    ∃ b, t.commands[id]? = some b ∧ b.dependsOn = some p := by
  obtain ⟨a, atRow, prior⟩ := Option.bind_eq_some_iff.mp link
  obtain ⟨b, atNew, change⟩ := evolves id a atRow
  exact ⟨b, atNew, change.dependsOn.trans prior⟩

theorem QueueUpTo.between_waiting (queue : s.QueueUpTo (fun _ => True) []) {k m : CommandId} (live : s.Live k)
    (above : Prerequisites.Above s.prerequisite k m) (atRow : s.commands[m]? = some a)
    (undone : a.status.terminal = false) : a.status = .waiting := by
  by_contra started
  have kept : a.status ≠ .skipped := by
    intro skipped
    simp [skipped, CommandStatus.terminal] at undone
  have succeeded := queue.above_succeeded atRow started kept above
  exact live.not_finished (finished_of_statusOf succeeded rfl)

theorem dependents_skipped (before : s.QueueInvariant) (after : t.QueueInvariant)
    (evolves : s.Evolves t) {k d : CommandId} (live : s.Live k) (lost : t.Lost k)
    (above : Prerequisites.Above s.prerequisite k d) (waited : s.statusOf d = some .waiting) :
    t.statusOf d = some .skipped := by
  induction above with
  | single link =>
    obtain ⟨b, atNew, prior⟩ := evolves.prerequisite link
    exact statusOf_eq.mpr ⟨b, atNew, after.behind_lost lost atNew prior⟩
  | @tail m d above link ih =>
    obtain ⟨a, atD, waiting⟩ := statusOf_eq.mp waited
    obtain ⟨p, prior, x, atM, undone⟩ := before.waits_live atD waiting
    rw [prerequisite_eq atD] at link
    cases link.symm.trans prior
    have idle := (before.mono fun _ _ => trivial).between_waiting live above atM undone
    obtain ⟨b, atB, skipped⟩ := statusOf_eq.mp (ih (statusOf_eq.mpr ⟨x, atM, idle⟩))
    obtain ⟨y, atNew, prior⟩ := evolves.prerequisite (by rw [prerequisite_eq atD]; exact prior)
    exact statusOf_eq.mpr ⟨y, atNew, after.behind_lost ⟨b, atB, .inr skipped⟩ atNew prior⟩

end Inventory

variable {env : Env} {s : Inventory}

/-- The outcome law of the queue. A finished command keeps its row, a waiting
one is neither leased nor answered, a pending one has a successful
prerequisite, and a failure or a stop reaches everything that waited for the
command in the same transaction. -/
theorem Reachable.outcome_law (reach : Reachable env s) :
    (∀ (id : CommandId) (a : Command), s.commands[id]? = some a → a.status.terminal = true →
      ∀ t, Run env s t → t.commands[id]? = some a) ∧
    (∀ id, s.statusOf id = some .waiting → ∀ now operation, ¬ s.LeaseGranted (s.step env now operation) id) ∧
    (∀ id, s.statusOf id = some .waiting → ∀ now result,
      ∃ refusal, s.transact env now (.result id result) = .error refusal) ∧
    (∀ id p, s.statusOf id = some .pending → s.prerequisite id = some p → s.statusOf p = some .succeeded) ∧
    (∀ id now operation, s.Live id → (s.step env now operation).Lost id →
      ∀ d, Prerequisites.Above s.prerequisite id d → s.statusOf d = some .waiting →
        (s.step env now operation).statusOf d = some .skipped ∧
        ∀ t, Run env (s.step env now operation) t → ∀ later next, ¬ t.LeaseGranted (t.step env later next) d) := by
  have invariant := reach.system
  have queue := invariant.framework.queue
  refine ⟨?_, ?_, ?_, ?_, ?_⟩
  · intro id a atRow done t run
    exact (run.progress reach).terminal atRow done
  · intro id waits now operation
    obtain ⟨a, atRow, waiting⟩ := statusOf_eq.mp waits
    exact (step_keeps env invariant now operation).effect.waiting_not_leased atRow waiting
  · intro id waits now result
    obtain ⟨a, atRow, waiting⟩ := statusOf_eq.mp waits
    exact waiting_result_refused atRow waiting result
  · intro id p ready link
    obtain ⟨a, atRow, pending⟩ := statusOf_eq.mp ready
    rw [prerequisite_eq atRow] at link
    exact queue.ready atRow link (by simp [pending]) (by simp [pending])
  · intro id now operation live lost d above waited
    have keeps := step_keeps env invariant now operation
    have skipped := dependents_skipped queue keeps.system.framework.queue keeps.progress.evolves live
      lost above waited
    refine ⟨skipped, fun t run later next => ?_⟩
    obtain ⟨system, progress⟩ := run.keeps keeps.system
    exact (step_keeps env system later next).effect.finished_not_leased
      (progress.evolves.finished (finished_of_statusOf skipped rfl))

/-- A sequence of three commands whose first one is with the Agent. -/
def startedSequence : Inventory :=
  Inventory.perform .unbounded {}
    [(0, .createServer false), (1, .registerAgent 0 []),
     (2, .createSequence 0
      [{ method := .post, path := "/api/child/inbounds" },
       { method := .post, path := "/api/child/outbounds" },
       { method := .post, path := "/api/child/routing" }]),
     (3, .claim 0 {})]

/-- The last command of the sequence is skipped when the first one fails. -/
theorem startedSequence_outcome_law :
    (startedSequence.step .unbounded 4 (.result 0 { status := 500 })).statusOf 2 = some .skipped :=
  have law := Reachable.outcome_law (reachable_perform .unbounded
    [(0, .createServer false), (1, .registerAgent 0 []),
     (2, .createSequence 0
      [{ method := .post, path := "/api/child/inbounds" },
       { method := .post, path := "/api/child/outbounds" },
       { method := .post, path := "/api/child/routing" }]),
     (3, .claim 0 {})])
  (law.2.2.2.2 0 4 (.result 0 { status := 500 })
    (live_of_statusOf (by decide : startedSequence.statusOf 0 = some .leased) rfl)
    (lost_of_statusOf (by decide)) 2
    (.tail (b := 1) (.single (by decide)) (by decide)) (by decide)).1

end OpenNode
