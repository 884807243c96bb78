import OpenNode.Admission

namespace OpenNode

open Inventory

namespace Inventory

variable {env : Env} {s t : Inventory} {now : Time} {operation : Operation} {c : ChangeSetId}

/-- The change set holds a lock. -/
def Holds (s : Inventory) (c : ChangeSetId) : Prop :=
  ∃ server, ⟨server, c⟩ ∈ s.locks

variable {change : ChangeSet}

theorem LockInvariant.locked (locks : s.LockInvariant) (holds : s.Holds c) (atChange : s.changes[c]? = some change)
    {server : ServerId} (target : server ∈ targets change.steps) :
    s.lock? server = some ⟨server, c⟩ := by
  obtain ⟨_, member⟩ := holds
  obtain ⟨other, atOther, held, _⟩ := locks.held.mp member
  cases atChange.symm.trans atOther
  exact locks.lock? (locks.held.mpr ⟨change, atChange, held, target⟩)

theorem Effect.fresh (effect : Effect env now operation s t) : s.FreshCommands t := by
  have grown : ∀ {k f}, (s.modifyCommand k f).Quiet t → s.FreshCommands t :=
    fun quiet id b bound atRow => quiet.fresh id b (by simpa using bound) atRow
  have same : ∀ {k f}, t = s.modifyCommand k f → s.FreshCommands t := by
    intro k f eq id b bound atRow
    rw [eq] at atRow
    have present := Table.row_lt atRow
    rw [modifyCommand_commands, List.length_modify] at present
    exact absurd present (Nat.not_lt.mpr bound)
  cases effect with
  | quiet quiet => exact quiet.fresh
  | lease _ _ _ _ result => exact same result
  | release _ _ result => exact same result
  | conclude _ _ _ _ _ quiet => exact grown quiet
  | terminalize _ _ _ _ _ quiet => exact grown quiet

theorem Effect.becomes_attempted (effect : Effect env now operation s t) (invariant : s.SystemInvariant)
    {q : CommandId} {a b : Command} (atOld : s.commands[q]? = some a) (untried : a.attempted = false)
    (atNew : t.commands[q]? = some b) (tried : b.attempted = true) :
    s.LeaseGranted t q ∨ s.lock? a.serverId = none ∧ ∀ c, ¬ s.Owns c q := by
  have still : ∀ {u : Inventory}, u.commands[q]? = some a → ¬ u.Quiet t := by
    intro u atU quiet
    obtain ⟨b', atB, change⟩ := quiet.old q a atU
    cases atB.symm.trans atNew
    rw [change.attempted tried] at untried
    cases untried
  have idle : a.attempts = 0 := by
    simp only [Command.attempted, Bool.or_eq_false_iff, decide_eq_false_iff_not] at untried
    omega
  cases effect with
  | quiet quiet => exact absurd quiet (still atOld)
  | @lease k x _ _ atRow _ _ result =>
    by_cases here : k = q
    · subst here
      left
      rw [LeaseGranted, attemptsOf_row atOld, result, attemptsOf_row (Table.modify_self atOld)]
      exact Nat.lt_succ_self _
    · exact absurd (.of_commands (by rw [result])) (still (u := s.grantLease k now)
        ((Table.modify_other here).trans atOld))
  | @release k x atRow leased result =>
    by_cases here : k = q
    · subst here
      cases atOld.symm.trans atRow
      have positive := invariant.framework.queue.leased atRow leased
      omega
    · rw [result] at atNew
      rw [modifyCommand_commands, Table.modify_other here, atOld] at atNew
      cases Option.some.inj atNew
      rw [tried] at untried
      cases untried
  | @conclude k x f _ atRow concludes _ place quiet =>
    by_cases here : k = q
    · subst here
      cases atOld.symm.trans atRow
      rcases place with skipped | positive | free
      · obtain ⟨b', atB, change⟩ := quiet.old k _ (Table.modify_self atOld)
        cases atB.symm.trans atNew
        have before := change.attempted tried
        simp [Command.attempted, concludes.attempts, idle, skipped] at before
      · omega
      · exact .inr free
    · exact absurd quiet (still ((Table.modify_other here).trans atOld))
  | @terminalize k x error resultStatus _ atRow concludes _ _ quiet =>
    by_cases here : k = q
    · subst here
      cases atOld.symm.trans atRow
      obtain ⟨b', atB, change⟩ := quiet.old k _ (Table.modify_self atOld)
      cases atB.symm.trans atNew
      have before := change.attempted tried
      simp [Command.attempted, terminalizedCommand, idle] at before
    · exact absurd quiet (still ((Table.modify_other here).trans atOld))

theorem Evolves.above (evolves : s.Evolves t) (queue : s.QueueInvariant) {q m : CommandId}
    (above : Prerequisites.Above t.prerequisite q m) (old : m < s.commands.length) :
    Prerequisites.Above s.prerequisite q m := by
  have link : ∀ {p i}, i < s.commands.length → t.prerequisite i = some p → s.prerequisite i = some p := by
    intro p i old prior
    obtain ⟨b, atNew, change⟩ := evolves _ _ (List.getElem?_eq_getElem old)
    rw [prerequisite_eq atNew, change.dependsOn] at prior
    rw [prerequisite_eq (List.getElem?_eq_getElem old), prior]
  induction above with
  | single prior => exact .single (link old prior)
  | tail _ prior ih =>
    have before := link old prior
    exact (ih (Nat.lt_trans (queue.above_lt (.single before)) old)).tail before

theorem Progress.fresh_above (progress : s.Progress t) (ownership : t.Ownership) {q m : CommandId}
    (above : Prerequisites.Above t.prerequisite q m) (new : s.commands.length ≤ m)
    (free : ∀ c, ¬ t.Owns c m) : s.commands.length ≤ q := by
  have link : ∀ {p i}, s.commands.length ≤ i → (∀ c, ¬ t.Owns c i) → t.prerequisite i = some p →
      s.commands.length ≤ p := by
    intro p i new free prior
    obtain ⟨b, atRow, prior⟩ := Option.bind_eq_some_iff.mp prior
    rcases progress.fresh new atRow prior with beyond | ⟨c, mine⟩
    · exact beyond
    · exact absurd mine (free c)
  induction above with
  | single prior => exact link new free prior
  | tail _ prior ih =>
    refine ih (link new free prior) ?_
    rcases ownership.above (.single prior) with ⟨c, mine, _⟩ | ⟨both, _⟩
    · exact absurd mine (free c)
    · exact fun c => (both c).2

theorem Exclusive.keeps {change : ChangeSet} (exclusive : s.Exclusive c (targets change.steps))
    (invariant : s.SystemInvariant) (atChange : s.changes[c]? = some change) (holds : s.Holds c)
    (keeps : Keeps env now operation s t) (still : t.Holds c) : t.Exclusive c (targets change.steps) := by
  obtain ⟨change', atNew, grows, _⟩ := keeps.progress.changes atChange
  have evolves := keeps.progress.evolves
  have lockedS : ∀ {server}, server ∈ targets change.steps → s.lock? server = some ⟨server, c⟩ :=
    fun target => invariant.framework.locks.locked holds atChange target
  have lockedT : ∀ {server}, server ∈ targets change.steps → t.lock? server = some ⟨server, c⟩ :=
    fun target => keeps.system.framework.locks.locked still atNew (by rw [targets_grows grows]; exact target)
  -- No foreign command on a target server is leased by this transaction.
  have unleased : ∀ {k a}, s.commands[k]? = some a → a.serverId ∈ targets change.steps →
      ¬ s.Owns c k → ¬ s.LeaseGranted t k := by
    intro k a atRow target foreign granted
    obtain ⟨a', atRow', candidate, allowed, _⟩ := keeps.effect.leaseGranted granted
    cases atRow.symm.trans atRow'
    exact exclusive.not_leased invariant atRow target (lockedS target) foreign candidate allowed
  intro m b atRow target foreign live
  by_cases old : m < s.commands.length
  · obtain ⟨a, atOld⟩ : ∃ a, s.commands[m]? = some a := ⟨_, List.getElem?_eq_getElem old⟩
    obtain ⟨b', atB, moved⟩ := evolves m a atOld
    cases atB.symm.trans atRow
    have targetS : a.serverId ∈ targets change.steps := moved.serverId ▸ target
    have foreignS : ¬ s.Owns c m := fun mine => foreign (keeps.progress.owns mine)
    have liveS : a.status.terminal = false := by
      by_contra done
      have same := moved.terminal (by simpa using done)
      rw [same] at live
      exact done live
    obtain ⟨idle, ahead⟩ := exclusive m a atOld targetS foreignS liveS
    constructor
    · by_contra positive
      refine unleased atOld targetS foreignS ?_
      rw [LeaseGranted, attemptsOf_row atOld, attemptsOf_row atRow, idle]
      exact Nat.pos_of_ne_zero positive
    · rintro ⟨q, x, above, atQ, tried⟩
      have aboveS := evolves.above invariant.framework.queue above old
      have oldQ := Nat.lt_trans (invariant.framework.queue.above_lt aboveS) old
      obtain ⟨y, atY⟩ : ∃ y, s.commands[q]? = some y := ⟨_, List.getElem?_eq_getElem oldQ⟩
      have untried : y.attempted = false := by
        by_contra before
        exact ahead ⟨q, y, aboveS, atY, by simpa using before⟩
      rcases invariant.framework.ownership.above aboveS with ⟨d, mine, _⟩ | ⟨free, server⟩
      · have lock := invariant.live_locked mine atOld liveS
        rw [lockedS targetS] at lock
        cases lock
        exact foreignS mine
      · have same : y.serverId = a.serverId := by simpa [atY, atOld] using server
        have targetQ : y.serverId ∈ targets change.steps := same ▸ targetS
        rcases keeps.effect.becomes_attempted invariant atY untried atQ tried with granted | ⟨none, _⟩
        · exact unleased atY targetQ (free c).2 granted
        · rw [lockedS targetQ] at none
          cases none
  · have fresh := keeps.effect.fresh
    have new := Nat.le_of_not_lt old
    constructor
    · have untried := fresh m b new atRow
      simp only [Command.attempted, Bool.or_eq_false_iff, decide_eq_false_iff_not] at untried
      omega
    · rintro ⟨q, x, above, atQ, tried⟩
      rcases keeps.system.framework.ownership.above above with ⟨d, mine, _⟩ | ⟨free, _⟩
      · have lock := keeps.system.live_locked mine atRow live
        rw [lockedT target] at lock
        cases lock
        exact foreign mine
      · have beyond := keeps.progress.fresh_above keeps.system.framework.ownership above new
          fun d => (free d).1
        rw [fresh q x beyond atQ] at tried
        cases tried

theorem SystemInvariant.first_lease (invariant : s.SystemInvariant) (keeps : Keeps env now operation s t)
    {k : CommandId} (mine : s.Owns c k) (first : s.FirstLease t k) (atChange : s.changes[c]? = some change) :
    s.Holds c ∧ s.Exclusive c (targets change.steps) := by
  obtain ⟨a, atRow, candidate, allowed, _⟩ := keeps.effect.leaseGranted first.2
  have live := running_live (candidate_running candidate)
  have lock := invariant.live_locked mine atRow live
  have idle : a.attempts = 0 := by
    have none := first.1
    rwa [attemptsOf_row atRow] at none
  refine ⟨⟨_, (lock?_eq_some lock).1⟩, ?_⟩
  rcases invariant.canLease_cases atRow live allowed with
    ⟨free, _⟩ | ⟨d, change', held, atD, _, drained⟩ | ⟨d, _, held, _, foreign, _⟩
  · rw [lock] at free
    cases free
  · rw [lock] at held
    cases held
    cases atChange.symm.trans atD
    rcases drained with flying | drained
    · simp [Command.inFlight, idle] at flying
    · exact invariant.exclusive_of_idle atChange drained
  · rw [lock] at held
    cases held
    exact absurd mine foreign

end Inventory

/-- The states of a run throughout which the change set holds locks. -/
inductive HeldRun (env : Env) (c : ChangeSetId) (start : Inventory) : Inventory → Prop
  | refl : start.Holds c → HeldRun env c start start
  | step {s : Inventory} (now : Time) (operation : Operation) :
      HeldRun env c start s → (s.step env now operation).Holds c →
      HeldRun env c start (s.step env now operation)

section Laws

variable {env : Env} {s t : Inventory} {c : ChangeSetId}

theorem HeldRun.holds (run : HeldRun env c s t) : t.Holds c := by
  cases run with
  | refl holds => exact holds
  | step _ _ _ holds => exact holds

theorem HeldRun.exclusive (run : HeldRun env c s t) (invariant : s.SystemInvariant) {change : ChangeSet}
    (atChange : s.changes[c]? = some change) (exclusive : s.Exclusive c (targets change.steps)) :
    t.SystemInvariant ∧ ∃ change', t.changes[c]? = some change' ∧
      targets change'.steps = targets change.steps ∧ t.Exclusive c (targets change.steps) := by
  induction run with
  | refl _ => exact ⟨invariant, change, atChange, rfl, exclusive⟩
  | step now operation before holds ih =>
    obtain ⟨system, change', atNew, same, exclusive⟩ := ih
    have keeps := step_keeps env system now operation
    obtain ⟨change'', atNext, grows, _⟩ := keeps.progress.changes atNew
    rw [← same] at exclusive
    have next := exclusive.keeps system atNew before.holds keeps holds
    rw [same] at next
    exact ⟨keeps.system, change'', atNext, (targets_grows grows).trans same, next⟩

/-- Reserved servers execute one change set. When a command of the change
set is leased for the first time, no foreign command on its servers is under
way or continues attempted work, and until its locks are deleted every lease
on its servers goes to one of its commands. -/
theorem Reachable.exclusive_execution (reach : Reachable env s) {change : ChangeSet} {k : CommandId}
    (atChange : s.changes[c]? = some change) (owned : s.Owns c k) (now : Time) (operation : Operation)
    (first : s.FirstLease (s.step env now operation) k) :
    (∀ m a, s.commands[m]? = some a → a.serverId ∈ targets change.steps → ¬ s.Owns c m →
      a.status.terminal = false → a.attempts = 0 ∧ ¬ s.BehindAttempted m) ∧
    ∀ t, HeldRun env c (s.step env now operation) t → ∀ later next m a,
      t.commands[m]? = some a → a.serverId ∈ targets change.steps →
      t.LeaseGranted (t.step env later next) m → t.Owns c m := by
  have invariant := reach.system
  have keeps := step_keeps env invariant now operation
  obtain ⟨holds, exclusive⟩ := invariant.first_lease keeps owned first atChange
  refine ⟨exclusive, fun t run later next m a atRow target granted => ?_⟩
  have start : (s.step env now operation).Holds c := by
    clear granted target atRow
    induction run with
    | refl holds => exact holds
    | step _ _ _ _ ih => exact ih
  obtain ⟨change', atNew, grows, _⟩ := keeps.progress.changes atChange
  have after := exclusive.keeps invariant atChange holds keeps start
  rw [← targets_grows grows] at after
  obtain ⟨system, change'', atT, same, still⟩ := run.exclusive keeps.system atNew after
  by_contra foreign
  have last := step_keeps env system later next
  obtain ⟨a', atRow', candidate, allowed, _⟩ := last.effect.leaseGranted granted
  cases atRow.symm.trans atRow'
  have targetT : a.serverId ∈ targets change'.steps := by rw [targets_grows grows]; exact target
  exact still.not_leased system atRow targetT
    (system.framework.locks.locked run.holds atT (by rw [same]; exact targetT)) foreign candidate allowed

/-- A change set of two steps on one server, dispatched before an ordinary
command was queued there. -/
def reservedOperations : List (Time × Operation) :=
  [(0, .createServer false), (1, .registerAgent 0 []),
   (2, .createChangeSet true
    [{ serverId := 0
       forward := { method := .post, path := "/api/child/inbounds" }
       rollback := some { method := .post, path := "/api/child/inbounds" } },
     { serverId := 0
       forward := { method := .post, path := "/api/child/outbounds" }
       rollback := some { method := .post, path := "/api/child/outbounds" } }]),
   (3, .dispatch 0 fun _ => false),
   (4, .createSequence 0 [{ method := .post, path := "/api/child/routing" }])]

def reservedServer : Inventory :=
  Inventory.perform .unbounded {} reservedOperations

theorem reservedServer_reachable : Reachable .unbounded reservedServer :=
  reachable_perform .unbounded reservedOperations

/-- The ordinary command is not leased between the commands of the change set. -/
theorem reservedServer_exclusive_execution : ¬ (reservedServer.step .unbounded 5 (.claim 0 {})).LeaseGranted
      ((reservedServer.step .unbounded 5 (.claim 0 {})).step .unbounded 6 (.claim 2 {})) 2 := by
  intro granted
  obtain ⟨change, atChange⟩ : ∃ change, reservedServer.changes[0]? = some change :=
    Option.isSome_iff_exists.mp (by decide)
  have target : (reservedServer.changes[0]?).all (fun change => (targets change.steps).contains 0) = true := by
    decide
  have owned : ((reservedServer.changes[0]?).map fun change => commandIds change.steps) = some [0, 1] := by
    decide
  rw [atChange] at target owned
  simp only [Option.map_some, Option.some.injEq] at owned
  obtain ⟨a, atRow⟩ : ∃ a, (reservedServer.step .unbounded 5 (.claim 0 {})).commands[2]? = some a :=
    Option.isSome_iff_exists.mp (by decide)
  have server : ((reservedServer.step .unbounded 5 (.claim 0 {})).commands[2]?).map Command.serverId =
      some 0 := by decide
  rw [atRow] at server
  obtain ⟨_, later⟩ := Reachable.exclusive_execution (k := 0) reservedServer_reachable atChange ⟨change,
    atChange, by simp [owned]⟩
    5 (.claim 0 {}) ⟨by decide, by unfold LeaseGranted; decide⟩
  obtain ⟨change', atNew, member⟩ := later _ (.refl ⟨0, by decide⟩) 6 (.claim 2 {}) 2 a atRow
    (by rw [Option.some.inj server]; simpa using target) granted
  have still : (((reservedServer.step .unbounded 5 (.claim 0 {})).changes[0]?).map fun change =>
      commandIds change.steps) = some [0, 1] := by decide
  rw [atNew] at still
  simp [Option.some.inj still] at member

/-- The reservation invariant, and that a refused dispatch or rollback leaves
every table. -/
theorem Reachable.reservation (reach : Reachable env s) :
    (∀ server c d, ⟨server, c⟩ ∈ s.locks → ⟨server, d⟩ ∈ s.locks → c = d) ∧
    (s.locks.map ServerLock.serverId).Nodup ∧
    (∀ c change, s.changes[c]? = some change → ∀ server, ⟨server, c⟩ ∈ s.locks ↔
      change.status ∈ [.dispatched, .failed, .rollbackQueued, .rollbackFailed, .rollbackIncomplete] ∧
        server ∈ targets change.steps) ∧
    (∀ lock ∈ s.locks, (s.changes[lock.changeSetId]?).isSome = true) ∧
    (∀ now c pending refusal, s.transact env now (.dispatch c pending) = .error refusal →
      s.step env now (.dispatch c pending) = s) ∧
    ∀ now c pending reason refusal, s.transact env now (.rollback c pending reason) = .error refusal →
      s.step env now (.rollback c pending reason) = s := by
  have locks := reach.system.framework.locks
  refine ⟨?_, locks.single, ?_, ?_, ?_, ?_⟩
  · intro server c d first second
    have same := List.inj_on_of_nodup_map locks.single first second rfl
    exact congrArg ServerLock.changeSetId same
  · intro c change atChange server
    rw [locks.held]
    have statuses : change.status.holds = true ↔ change.status ∈ [.dispatched, .failed,
        .rollbackQueued, .rollbackFailed, .rollbackIncomplete] := by
      cases change.status <;> simp [ChangeSetStatus.holds]
    simp only [atChange, Option.some.injEq, exists_eq_left', statuses]
  · intro lock member
    obtain ⟨change, atChange, _⟩ := locks.held.mp member
    simp [atChange]
  · intro now c pending refusal refused
    simp only [step, refused]
  · intro now c pending reason refusal refused
    simp only [step, refused]

/-- The dispatched change set holds its server. -/
theorem reservedServer_reservation : (⟨0, 0⟩ : ServerLock) ∈ reservedServer.locks := by
  obtain ⟨change, atChange⟩ : ∃ change, reservedServer.changes[0]? = some change :=
    Option.isSome_iff_exists.mp (by decide)
  have status : (reservedServer.changes[0]?).map (fun change => (change.status, targets change.steps)) =
      some (.dispatched, [0, 0]) := by decide
  rw [atChange] at status
  simp only [Option.map_some, Option.some.injEq, Prod.mk.injEq] at status
  obtain ⟨_, _, held, _⟩ := Reachable.reservation reservedServer_reachable
  exact (held 0 change atChange 0).mpr ⟨by simp [status.1], by simp [status.2]⟩

end Laws

end OpenNode
