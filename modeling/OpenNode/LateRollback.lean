import OpenNode.Exclusion

namespace OpenNode

open Inventory

/-- A late rollback is refused once a command outside the change set, other
than an allowed read, was handed to an Agent of a target server at or after
the completion of the forward commands, whatever happened since. -/
def LateRollbackSafe (env : Env) : Prop :=
  ∀ (s t : Inventory) (now : Time) (operation : Operation) (k : CommandId) (c : ChangeSetId)
    (change : ChangeSet) (a : Command),
    Reachable env s → s.LeaseGranted (s.step env now operation) k →
    Run env (s.step env now operation) t → t.changes[c]? = some change →
    change.status = .succeeded → t.commands[k]? = some a → ¬ t.Owns c k →
    a.serverId ∈ targets change.steps → a.payload.readOnly = false →
    t.endedAt change.steps ≤ now →
    ∀ later pending reason, ∃ refusal,
      t.transact env later (.rollback c pending reason) = .error refusal

namespace Inventory

variable {env : Env} {s t : Inventory} {now since : Time} {operation : Operation} {c : ChangeSetId}
  {k : CommandId} {change : ChangeSet}

/-- The transaction keeps the time at which a command was handed out: the
command is not ended as one that can no longer be sent, its result does not
arrive between a released lease and the next one, and the clock of its next
lease has not gone back. -/
def KeepsRecord (env : Env) (since : Time) (k : CommandId) (s : Inventory) (now : Time) :
    Operation → Prop
  | .claim j view => j = k → since ≤ now ∧ ∀ a, s.commands[k]? = some a →
      a.isLeaseCandidate now = true → s.canLease k a = true → a.payload.wireError env = none ∧
        ∀ server, s.servers[a.serverId]? = some server → server.leaseError a.payload = none ∧
          (a.leasedAt = none → ∀ error, accessCanLease env view server k a ≠ .skip error)
  | .capabilityLoss j => j = k → ∀ a server, s.commands[k]? = some a →
      s.servers[a.serverId]? = some server → a.isLeaseCandidate now = true →
      server.leaseError a.payload = none
  | .result j _ => j = k → ∀ a, s.commands[k]? = some a → a.status.terminal = false →
      a.leasedAt.isSome = true
  | _ => True

/-- The evidence that the guard of a late rollback finds: the command is under
way, or its row shows that it was leased at `since` or later. -/
structure Recorded (s : Inventory) (since : Time) (k : CommandId) (a : Command) : Prop where
  atRow : s.commands[k]? = some a
  sent : 0 < a.attempts
  leased : ∀ time, a.leasedAt = some time → since ≤ time
  kept : a.status.terminal = true → a.leasedAt.isSome = true

variable {a : Command}

theorem Quiet.sent_row (quiet : s.Quiet t) (atRow : s.commands[k]? = some a) (sent : 0 < a.attempts) :
    t.commands[k]? = some a := by
  obtain ⟨b, atNew, same | moves⟩ := quiet.old k a atRow
  · rw [atNew, same]
  · have idle := moves.attempts
    omega

theorem Recorded.same (recorded : s.Recorded since k a) (atRow : t.commands[k]? = some a) :
    ∃ b, t.Recorded since k b :=
  ⟨a, atRow, recorded.sent, recorded.leased, recorded.kept⟩

theorem Recorded.concluded {f : Command → Command} (recorded : s.Recorded since k a) (concludes : Concludes a (f a))
    (same : (f a).leasedAt = a.leasedAt) (present : a.leasedAt.isSome = true)
    (quiet : (s.modifyCommand k f).Quiet t) :
    ∃ b, t.Recorded since k b := by
  have sent : 0 < (f a).attempts := by
    rw [concludes.attempts]
    exact recorded.sent
  have atNew := quiet.sent_row (Table.modify_self recorded.atRow) sent
  refine ⟨f a, atNew, sent, ?_, fun _ => ?_⟩
  · rw [same]
    exact recorded.leased
  · rw [same]
    exact present

theorem Effect.recorded (effect : Effect env now operation s t)
    (keeps : KeepsRecord env since k s now operation) {a : Command} (recorded : s.Recorded since k a) :
    ∃ b, t.Recorded since k b := by
  have atOld := recorded.atRow
  have elsewhere : ∀ {j f}, j ≠ k → (s.modifyCommand j f).Quiet t → ∃ b, t.Recorded since k b := by
    intro j f other quiet
    have atMid : (s.modifyCommand j f).commands[k]? = some a := by
      rw [modifyCommand_commands, Table.modify_other other, atOld]
    exact recorded.same (quiet.sent_row atMid recorded.sent)
  cases effect with
  | quiet quiet => exact recorded.same (quiet.sent_row atOld recorded.sent)
  | @lease j x view asked atRow _ _ result =>
    by_cases here : j = k
    · subst here asked
      have later := (keeps rfl).1
      refine ⟨_, by rw [result]; exact Table.modify_self atOld, Nat.succ_pos _, ?_, fun _ => rfl⟩
      intro time at'
      cases at'
      exact later
    · exact elsewhere here (.of_commands (by rw [result]; rfl))
  | @release j x atRow leased result =>
    by_cases here : j = k
    · subst here
      refine ⟨{ a with status := .pending, leasedAt := none, updatedAt := now },
        by rw [result]; exact Table.modify_self atOld, recorded.sent, ?_, ?_⟩
      · intro time at'
        cases at'
      · intro done
        cases done
    · exact elsewhere here (.of_commands (by rw [result]))
  | @conclude j x f asked atRow concludes same _ quiet =>
    by_cases here : j = k
    · subst here
      cases atOld.symm.trans atRow
      refine recorded.concluded concludes same ?_ quiet
      rcases asked with ⟨result, rfl⟩ | ⟨view, server, error, rfl, candidate, allowed, atServer, skipped⟩
      · exact keeps rfl a atOld concludes.live
      · by_contra lost
        have none : a.leasedAt = none := by simpa using lost
        exact (((keeps rfl).2 a atOld candidate allowed).2 server atServer).2 none error skipped
    · exact elsewhere here quiet
  | @terminalize j x error resultStatus asked atRow concludes refused candidate quiet =>
    by_cases here : j = k
    · -- The condition rules out the transactions that erase the lease time.
      subst here
      cases atOld.symm.trans atRow
      exfalso
      rcases asked with rfl | ⟨allowed, view, rfl⟩
      · rcases refused with ⟨server, atServer, missing⟩ | ⟨⟨view, claim⟩, _⟩
        · simp [keeps rfl a server atOld atServer candidate] at missing
        · cases claim
      · rcases refused with ⟨server, atServer, missing⟩ | ⟨_, oversized⟩
        · simp [(((keeps rfl).2 a atOld candidate allowed).2 server atServer).1] at missing
        · simp [((keeps rfl).2 a atOld candidate allowed).1] at oversized
    · exact elsewhere here quiet

theorem Recorded.guarded {steps : List ChangeStep} (recorded : s.Recorded since k a)
    (outside : k ∉ commandIds steps)
    (target : a.serverId ∈ targets steps) (mutating : a.payload.readOnly = false)
    (ended : s.endedAt steps ≤ since) :
    ∃ refusal, s.guardLateRollback steps = .error refusal := by
  have atRow := recorded.atRow
  have seen : (handedSince steps (s.endedAt steps) k a || s.blocks steps k a) = true := by
    cases live : a.status.terminal with
    | true =>
      obtain ⟨time, leased⟩ := Option.isSome_iff_exists.mp (recorded.kept live)
      have late := Nat.le_trans ended (recorded.leased time leased)
      simp [handedSince, target, outside, recorded.sent, leased, late]
    | false => simp [blocks, draining, Command.inFlight, target, outside, recorded.sent, live]
  have found : k ∈ (List.range s.commands.length).filter fun id =>
      s.commands[id]?.any fun command =>
        handedSince steps (s.endedAt steps) id command || s.blocks steps id command := by
    refine List.mem_filter.mpr ⟨List.mem_range.mpr (Table.row_lt atRow), ?_⟩
    simp only [atRow, Option.any_some, seen]
  unfold guardLateRollback
  rw [if_pos]
  · exact ⟨_, rfl⟩
  · refine List.any_eq_true.mpr ⟨k, found, ?_⟩
    simp [atRow, mutating]

theorem rollback_guarded {pending : ServerId → Bool} {reason : String} (invariant : s.SystemInvariant)
    (atChange : s.changes[c]? = some change) (status : change.status = .succeeded) (recorded : s.Recorded since k a)
    (foreign : ¬ s.Owns c k) (target : a.serverId ∈ targets change.steps) (mutating : a.payload.readOnly = false)
    (ended : s.endedAt change.steps ≤ since) :
    ∃ refusal, s.transact env now (.rollback c pending reason) = .error refusal := by
  have outside : k ∉ commandIds change.steps := fun member => foreign ⟨change, atChange, member⟩
  cases outcome : s.transact env now (.rollback c pending reason) with
  | error refusal => exact ⟨refusal, rfl⟩
  | ok t =>
    exfalso
    obtain ⟨ids, run⟩ := map_prod_fst_ok outcome
    have mine := invariant.changes atChange
    have version : change.coordinationVersion ≠ 0 := by
      rw [mine.version]
      exact Nat.one_ne_zero
    simp only [rollback, atChange, mine.kept, status, Bool.false_eq_true, if_false, if_neg version] at run
    split at run
    · cases run
    · rename_i u moved
      unfold rollbackDispatched at moved
      split at moved
      · cases moved
      · split at moved
        · cases moved
        · rename_i v reserved
          obtain ⟨rows, rfl, _, _⟩ := reserve_locks invariant.framework.locks reserved
          have still : { s with locks := rows }.Recorded since k a :=
            ⟨recorded.atRow, recorded.sent, recorded.leased, recorded.kept⟩
          obtain ⟨refusal, refused⟩ := still.guarded outside target mutating ended
          simp [status, refused] at moved

end Inventory

/-- The runs in which every transaction keeps the record of a command. -/
inductive RecordedRun (env : Env) (since : Time) (k : CommandId) (start : Inventory) : Inventory → Prop
  | refl : RecordedRun env since k start start
  | step {s : Inventory} (now : Time) (operation : Operation) :
      RecordedRun env since k start s → KeepsRecord env since k s now operation →
      RecordedRun env since k start (s.step env now operation)

section Guard

variable {env : Env} {s t : Inventory} {now since : Time} {operation : Operation} {c : ChangeSetId}
  {k : CommandId} {change : ChangeSet}

theorem RecordedRun.recorded (run : RecordedRun env since k s t) (invariant : s.SystemInvariant)
    {a : Command} (recorded : s.Recorded since k a) :
    t.SystemInvariant ∧ ∃ b, t.Recorded since k b := by
  induction run with
  | refl => exact ⟨invariant, a, recorded⟩
  | step now operation _ keeps ih =>
    obtain ⟨system, b, recorded⟩ := ih
    have next := step_keeps env system now operation
    exact ⟨next.system, next.effect.recorded keeps recorded⟩

/-- While the record of a hand-over is kept, a late rollback of a change set
that was finished by then is refused. -/
theorem Reachable.late_rollback_refused (reach : Reachable env s)
    (granted : s.LeaseGranted (s.step env now operation) k)
    (run : RecordedRun env now k (s.step env now operation) t)
    (atChange : t.changes[c]? = some change) (status : change.status = .succeeded) {a : Command}
    (atRow : t.commands[k]? = some a) (foreign : ¬ t.Owns c k)
    (target : a.serverId ∈ targets change.steps) (mutating : a.payload.readOnly = false)
    (ended : t.endedAt change.steps ≤ now) (later : Time) (pending : ServerId → Bool) (reason : String) :
    ∃ refusal, t.transact env later (.rollback c pending reason) = .error refusal := by
  have keeps := step_keeps env reach.system now operation
  obtain ⟨x, atX, _, _, leased⟩ := keeps.effect.leaseGranted granted
  have start : ∃ b, (s.step env now operation).Recorded now k b := by
    refine ⟨_, by rw [leased]; exact Table.modify_self atX, Nat.succ_pos _, ?_, fun _ => rfl⟩
    intro time at'
    cases at'
    exact le_rfl
  obtain ⟨b, first⟩ := start
  obtain ⟨system, d, recorded⟩ := run.recorded keeps.system first
  cases recorded.atRow.symm.trans atRow
  exact rollback_guarded system atChange status recorded foreign target mutating ended

/-- A change set that succeeded, and an ordinary limiter command that was
queued on its server afterwards. -/
def finishedOperations : List (Time × Operation) :=
  [(0, .createServer false), (1, .registerAgent 0 [.nativeLimiter]),
   (2, .createChangeSet true
    [{ serverId := 0
       forward := { method := .post, path := "/api/child/nginx/config" }
       rollback := some { method := .post, path := "/api/child/nginx/config" } }]),
   (3, .dispatch 0 fun _ => false), (4, .claim 0 {}), (5, .result 0 { status := 200 }),
   (6, .createSequence 0 [{ method := .post, path := "/api/child/limiter" }])]

def finishedServer : Inventory :=
  Inventory.perform .unbounded {} finishedOperations

theorem finishedServer_reachable : Reachable .unbounded finishedServer :=
  reachable_perform .unbounded finishedOperations

/-- The limiter command is with the Agent. -/
def limitedServer : Inventory :=
  finishedServer.step .unbounded 7 (.claim 1 {})

theorem limitedServer_granted : finishedServer.LeaseGranted limitedServer 1 := by
  unfold LeaseGranted
  decide +kernel

theorem foreign_work {t : Inventory}
    (finished : ((t.changes[0]?).map fun change => (change.status, targets change.steps,
      commandIds change.steps, t.endedAt change.steps)) = some (.succeeded, [0], [0], 5))
    (work : ((t.commands[1]?).map fun a => (a.serverId, a.payload.readOnly)) = some (0, false)) :
    ∃ change a, t.changes[0]? = some change ∧ change.status = .succeeded ∧ t.commands[1]? = some a ∧
      ¬ t.Owns 0 1 ∧ a.serverId ∈ targets change.steps ∧ a.payload.readOnly = false ∧
      t.endedAt change.steps ≤ 7 := by
  obtain ⟨change, atChange, columns⟩ := Option.map_eq_some_iff.mp finished
  obtain ⟨a, atRow, row⟩ := Option.map_eq_some_iff.mp work
  simp only [Prod.mk.injEq] at columns row
  obtain ⟨status, servers, ids, ended⟩ := columns
  refine ⟨change, a, atChange, status, atRow, ?_, by simp [servers, row.1], row.2, by simp [ended]⟩
  rintro ⟨other, atOther, member⟩
  cases atChange.symm.trans atOther
  simp [ids] at member

/-- The limiter command returns, and the rollback that follows is refused. -/
theorem limitedServer_late_rollback_refused : ∃ refusal,
    (limitedServer.step .unbounded 8 (.result 1 { status := 200 })).transact .unbounded 9
      (.rollback 0 (fun _ => false) "") = .error refusal := by
  have leased : (limitedServer.commands[1]?).map Command.leasedAt = some (some 7) := by decide +kernel
  have kept : KeepsRecord .unbounded 7 1 limitedServer 8 (.result 1 { status := 200 }) := by
    intro _ a atRow _
    rw [atRow, Option.map_some, Option.some.injEq] at leased
    rw [leased]
    rfl
  obtain ⟨change, a, atChange, status, atRow, foreign, target, mutating, ended⟩ :=
    foreign_work (t := limitedServer.step .unbounded 8 (.result 1 { status := 200 })) (by decide +kernel)
      (by decide +kernel)
  exact Reachable.late_rollback_refused finishedServer_reachable limitedServer_granted
    (.step 8 (.result 1 { status := 200 }) .refl kept) atChange status atRow foreign target mutating ended 9
    (fun _ => false) ""

/-- The Agent loses the limiter while the command is with it. -/
def lostOperations : List (Time × Operation) :=
  [(8, .registerAgent 0 []), (30000007, .capabilityLoss 1)]

/-- The command that its Agent can no longer confirm ends without the time of
its lease, and the rollback is accepted. -/
theorem lateRollback_unsafe : ¬ LateRollbackSafe .unbounded := by
  intro safe
  obtain ⟨change, a, atChange, status, atRow, foreign, target, mutating, ended⟩ :=
    foreign_work (t := limitedServer.perform .unbounded lostOperations) (by decide +kernel) (by decide +kernel)
  obtain ⟨refusal, refused⟩ := safe finishedServer (limitedServer.perform .unbounded lostOperations) 7
    (.claim 1 {}) 1 0 change a finishedServer_reachable limitedServer_granted (Run.perform .refl lostOperations)
    atChange status atRow foreign target mutating ended 30000008 (fun _ => false) ""
  have accepted : ((limitedServer.perform .unbounded lostOperations).transact .unbounded 30000008
      (.rollback 0 (fun _ => false) "")).toBool = true := by decide +kernel
  rw [refused] at accepted
  cases accepted

end Guard

end OpenNode
