import OpenNode.BackupExclusion

namespace OpenNode.BackupCoordination

open FileLock Host

variable {s t : Host} {process : Nat}

/-- The barriers after their start. -/
structure Host.Initial (s : Host) : Prop where
  locks : s.locks = []
  barrier : ∀ process, ∃ anchored, s.barriers process = { anchored := anchored }

theorem Host.Initial.sound (initial : s.Initial) : s.Sound where
  exclusive := by
    rw [initial.locks]
    exact ⟨List.nodup_nil, fun _ here => absurd here List.not_mem_nil⟩
  below := by
    rw [initial.locks]
    exact fun _ here => absurd here List.not_mem_nil
  barrier process := by
    obtain ⟨anchored, start⟩ := initial.barrier process
    rw [start]
    exact ⟨fun _ here => absurd here List.not_mem_nil, List.nodup_nil, rfl, rfl, rfl, rfl⟩

theorem Host.Sound.reaches (sound : s.Sound) (reach : Reaches s t) : t.Sound := by
  induction reach with
  | refl => exact sound
  | step process event _ before => exact before.apply process event

/-- The attempt of a process has been granted the exclusive lock and holds it. -/
def Host.Locked (process : Nat) (s : Host) : Prop :=
  ∃ fd, Held s.locks (process, fd) (some .exclusive)

theorem Host.Sound.permitted (sound : s.Sound) (permit : (s.barriers process).permit.isSome = true) :
    (s.barriers process).Quiet ∧ s.Locked process := by
  have reached := (sound.barrier process).reached
  have denied : (s.barriers process).permit ≠ none := Option.isSome_iff_ne_none.mp permit
  generalize (s.barriers process).attempt = attempt at reached
  rcases attempt with - | _ | _ | _ | fd | fd | fd | fd | (_ | fd)
  · exact absurd reached.1 denied
  · exact absurd reached.1 denied
  · exact absurd reached.1 denied
  · exact absurd reached.1 denied
  · exact absurd reached.1 denied
  · exact absurd reached.1 denied
  · exact absurd reached.1 denied
  · exact ⟨reached.1, fd, reached.2⟩
  · exact absurd reached.1 denied
  · exact ⟨reached.1, fd, reached.2⟩

theorem Host.Sound.alone (sound : s.Sound) (locked : s.Locked process) {description : Description (Nat × Nat)}
    (here : description ∈ s.locks) (isOpen : description.isOpen = true) (held : description.mode ≠ none) :
    description.id.1 = process ∧ description.mode = some .exclusive := by
  obtain ⟨fd, exclusive⟩ := locked
  have same := sound.exclusive.of_held exclusive here isOpen held
  obtain ⟨first, there, same', -, mode⟩ := exclusive
  have equal := List.inj_on_of_nodup_map sound.exclusive.unique here there (same.trans same'.symm)
  exact ⟨congrArg Prod.fst same, equal ▸ mode⟩

variable {other : Nat}

theorem Host.Sound.held_off (sound : s.Sound) (locked : s.Locked process) (differs : other ≠ process)
    (anchored : (s.barriers other).anchored = true) (kind : OperationKind) (context : Option Nat) (intact : Bool) :
    ∃ error, s.enter other kind context intact = (.error error, s) := by
  obtain refused | ⟨record, active, -, -⟩ | ⟨-, granted, -⟩ := s.enter_cases other kind context intact
  · exact refused
  · -- a live lease would hold a shared lock
    obtain ⟨here, -, -⟩ := BackupWriteBarrier.activeRecord_some active
    obtain ⟨-, -, descriptor, held⟩ := (sound.barrier other).record record here
    obtain ⟨description, there, same, owned, mode⟩ := held (descriptor.trans anchored)
    have isOpen : description.isOpen = true := by rw [Description.isOpen, owned, Bool.true_or]
    have mine := (sound.alone locked there isOpen (mode ▸ Option.some_ne_none _)).1
    exact absurd ((congrArg Prod.fst same).symm.trans mine) differs
  · -- the exclusive lock excludes a shared one
    obtain ⟨fd, description, there, same, owned, mode⟩ := locked
    have free := List.all_eq_true.mp (granted anchored) description there
    have mine : description.id ≠ (other, s.serial) := fun equal =>
      differs ((congrArg Prod.fst (same.symm.trans equal)).symm)
    simp [mine, Description.isOpen, owned, mode, LockMode.excludes] at free

@[simp] theorem Host.setBarrier_self (barrier : BackupWriteBarrier) (s : Host) :
    (s.setBarrier process barrier).barriers process = barrier :=
  Function.update_self ..

variable {barrier : BackupWriteBarrier}

theorem Host.setBarrier_of_ne (differs : other ≠ process) :
    (s.setBarrier process barrier).barriers other = s.barriers other :=
  Function.update_of_ne differs ..

theorem Host.setBarrier_paused (keeps : (s.barriers process).agentPaused = true → barrier.agentPaused = true)
    (paused : (s.barriers other).agentPaused = true) :
    ((s.setBarrier process barrier).barriers other).agentPaused = true := by
  by_cases same : other = process
  · subst same
    rw [setBarrier_self]
    exact keeps paused
  · rw [setBarrier_of_ne same]
    exact paused

@[simp] theorem Host.close?_barriers (fd : Option Nat) (s : Host) :
    (s.close? process fd).barriers = s.barriers := by
  cases fd <;> rfl

theorem Host.apply_paused (paused : (s.barriers other).agentPaused = true) (process : Nat) (event : BarrierEvent) :
    ((s.apply process event).2.barriers other).agentPaused = true ∨ process = other ∧ event = .finish := by
  cases event with
  | enter kind context intact =>
    left
    rw [Host.apply]
    obtain ⟨error, same⟩ | ⟨record, -, -, same⟩ | ⟨-, -, same⟩ := s.enter_cases process kind context intact
    · rw [same]
      exact paused
    · rw [same]
      exact setBarrier_paused id paused
    · rw [same]
      exact setBarrier_paused id paused
  | exit id lease =>
    left
    change ((s.exit process id lease).2.barriers other).agentPaused = true
    unfold Host.exit
    dsimp only
    split
    · exact paused
    · split
      · rw [close?_barriers]
        exact setBarrier_paused (fun same => same) paused
      · exact setBarrier_paused (fun same => same) paused
  | spawn id lease =>
    left
    change ((s.spawn process id lease).2.barriers other).agentPaused = true
    unfold Host.spawn
    dsimp only
    split
    · exact paused
    · split
      · exact paused
      · dsimp only
        split <;> exact paused
  | childExit id => exact Or.inl paused
  | snapshot context intact =>
    left
    change ((s.snapshot process context intact).2.barriers other).agentPaused = true
    unfold Host.snapshot
    dsimp only
    split
    · exact paused
    · split
      · exact paused
      · split
        · exact paused
        · exact setBarrier_paused id paused
  | advance =>
    left
    change ((s.advance process).2.barriers other).agentPaused = true
    unfold Host.advance
    dsimp only
    split
    · split
      · exact paused
      · exact setBarrier_paused (fun _ => rfl) paused
    · split
      · exact paused
      · exact setBarrier_paused id paused
    · exact setBarrier_paused id paused
    · split
      · exact setBarrier_paused id paused
      · exact paused
    · exact setBarrier_paused id paused
    · exact setBarrier_paused id paused
    · exact paused
  | abandon =>
    left
    change ((s.abandon process).2.barriers other).agentPaused = true
    unfold Host.abandon
    dsimp only
    split
    · exact setBarrier_paused id paused
    · exact setBarrier_paused id paused
    · exact setBarrier_paused id paused
    · rw [close?_barriers]
      exact setBarrier_paused id paused
    · rw [close?_barriers]
      exact setBarrier_paused id paused
    · exact setBarrier_paused id paused
    · exact setBarrier_paused id paused
    · exact paused
  | finish =>
    by_cases same : process = other
    · exact Or.inr ⟨same, rfl⟩
    · left
      change ((s.finish process).2.barriers other).agentPaused = true
      unfold Host.finish
      dsimp only
      split
      · rw [close?_barriers, setBarrier_of_ne (Ne.symm same)]
        exact paused
      · exact paused
  | close =>
    left
    change ((s.close process).2.barriers other).agentPaused = true
    unfold close
    dsimp only
    split
    · exact paused
    · split
      · exact paused
      · exact setBarrier_paused id paused

/-- Neither pause is on, and another attempt may begin. -/
structure BackupWriteBarrier.Lifted (barrier : BackupWriteBarrier) : Prop where
  work : barrier.workPaused = false
  agent : barrier.agentPaused = false
  ticket : barrier.snapshotTicket = none

theorem Host.Sound.lifted (sound : s.Sound) (idle : (s.barriers process).attempt = none) :
    (s.barriers process).Lifted := by
  have reached := (sound.barrier process).reached
  have ticket := (sound.barrier process).ticket
  rw [idle] at reached ticket
  exact ⟨reached.2.1, reached.2.2, by simpa using ticket⟩

/-- How the snapshots exclude the writers. -/
structure Excluded (s : Host) : Prop where
  /-- While a permit is active, its process has no lease, no shared lock is held, and there is no other permit. -/
  permit : ∀ process, (s.barriers process).permit.isSome = true →
    (s.barriers process).records = [] ∧
    (∀ description ∈ s.locks, description.isOpen = true → description.mode ≠ some .shared) ∧
    ∀ other, (s.barriers other).permit.isSome = true → other = process
  /-- The agents of the process of a permit are paused, and its attempt holds the exclusive lock. -/
  stage : ∀ process, (s.barriers process).permit.isSome = true →
    (s.barriers process).agentPaused = true ∧ s.Locked process
  /-- From the pause of the agents to the end of the attempt, its process only admits into a live
  lease of the same kind. -/
  admitted : ∀ process kind context intact, (s.barriers process).agentPaused = true →
    (s.enter process kind context intact).1 = .ok () →
    ∃ record ∈ (s.barriers process).records, context = some record.id ∧ record.kind = kind ∧ record.holders ≠ [] ∧
      s.enter process kind context intact = (.ok (), s.join process record)
  paused : ∀ other process event, (s.barriers other).agentPaused = true →
    ((s.apply process event).2.barriers other).agentPaused = true ∨ process = other ∧ event = .finish
  /-- The exclusive lock holds the other processes off. -/
  held_off : ∀ process other kind context intact, s.Locked process → other ≠ process →
    (s.barriers other).anchored = true → ∃ error, s.enter other kind context intact = (.error error, s)
  /-- An attempt that is refused at its start leaves everything as it was. -/
  refused : ∀ process context intact error, (s.snapshot process context intact).1 = .error error →
    (s.snapshot process context intact).2 = s
  /-- One that has begun can be ended wherever it stands, and its end lifts the pauses. -/
  ended : ∀ process, (s.barriers process).attempt ≠ none →
    (∃ fd, (s.barriers process).attempt = some (.ending fd)) ∨
    (s.abandon process).1 = .ok () ∧ ∃ fd, ((s.abandon process).2.barriers process).attempt = some (.ending fd)
  lifted : ∀ process fd, (s.barriers process).attempt = some (.ending fd) →
    (s.finish process).1 = .ok () ∧ ((s.finish process).2.barriers process).Lifted
  idle : ∀ process, (s.barriers process).attempt = none → (s.barriers process).Lifted

theorem Host.Sound.admitted (sound : s.Sound) {kind : OperationKind} {context : Option Nat} {intact : Bool}
    (paused : (s.barriers process).agentPaused = true) (ok : (s.enter process kind context intact).1 = .ok ()) :
    ∃ record ∈ (s.barriers process).records, context = some record.id ∧ record.kind = kind ∧ record.holders ≠ [] ∧
      s.enter process kind context intact = (.ok (), s.join process record) := by
  obtain ⟨error, same⟩ | ⟨record, active, kind_, same⟩ | ⟨unpaused, -, -⟩ :=
    s.enter_cases process kind context intact
  · rw [same] at ok
    cases ok
  · obtain ⟨here, joined, holders⟩ := BackupWriteBarrier.activeRecord_some active
    exact ⟨record, here, joined, kind_, holders, same⟩
  · cases kind with
    | work => exact absurd (unpaused.symm.trans ((sound.barrier process).paused paused)) nofun
    | agent => exact absurd (unpaused.symm.trans paused) nofun

theorem Host.snapshot_refused (s : Host) (process : Nat) (context : Option Nat) (intact : Bool) :
    (s.snapshot process context intact).1 = .ok () ∨ (s.snapshot process context intact).2 = s := by
  unfold Host.snapshot
  dsimp only
  split
  · exact Or.inr rfl
  · split
    · exact Or.inr rfl
    · split
      · exact Or.inr rfl
      · exact Or.inl rfl

theorem Host.abandon_ending (under : (s.barriers process).attempt ≠ none) :
    (∃ fd, (s.barriers process).attempt = some (.ending fd)) ∨
    (s.abandon process).1 = .ok () ∧ ∃ fd, ((s.abandon process).2.barriers process).attempt =
      some (.ending fd) := by
  unfold Host.abandon
  cases stage : (s.barriers process).attempt with
  | none => exact absurd stage under
  | some attempt =>
    cases attempt with
    | ending fd => exact Or.inl ⟨fd, rfl⟩
    | _ => simp [stage]

theorem Host.finish_lifted {fd : Option Nat} (stage : (s.barriers process).attempt = some (.ending fd)) :
    (s.finish process).1 = .ok () ∧ ((s.finish process).2.barriers process).Lifted := by
  simp only [Host.finish, stage, close?_barriers, setBarrier_self, true_and]
  exact ⟨rfl, rfl, rfl⟩

/-- The snapshots exclude the writers in every run. -/
theorem Reaches.excluded (initial : s.Initial) (reach : Reaches s t) : Excluded t := by
  have sound : t.Sound := initial.sound.reaches reach
  refine ⟨fun process permit => ?_, fun process permit => ?_, fun _ _ _ _ paused ok => sound.admitted paused ok,
    fun _ process event paused => apply_paused paused process event,
    fun _ _ kind context intact locked differs anchored =>
      sound.held_off locked differs anchored kind context intact,
    fun _ context intact _ refused => (t.snapshot_refused _ context intact).resolve_left (refused ▸ nofun),
      fun _ under => abandon_ending under,
    fun _ _ stage => finish_lifted stage, fun _ idle => sound.lifted idle⟩
  · obtain ⟨quiet, locked⟩ := sound.permitted permit
    refine ⟨quiet.records, fun description here isOpen shared => ?_, fun other permit' => ?_⟩
    · have mode := (sound.alone locked here isOpen (shared ▸ Option.some_ne_none _)).2
      rw [shared] at mode
      cases mode
    · obtain ⟨-, fd, description, here, same, owned, mode⟩ := sound.permitted permit'
      have isOpen : description.isOpen = true := by rw [Description.isOpen, owned, Bool.true_or]
      have mine := (sound.alone locked here isOpen (mode ▸ Option.some_ne_none _)).1
      exact (congrArg Prod.fst same).symm.trans mine
  · obtain ⟨quiet, locked⟩ := sound.permitted permit
    exact ⟨quiet.agent, locked⟩

section Example

/-- Every process uses the lock file. -/
def idleHost : Host where
  barriers _ := {}

/-- The first process has paused its agents. -/
def pausingHost : Host :=
  ((idleHost.apply 0 (.snapshot none true)).2.apply 0 .advance).2

def permittedHost : Host :=
  ((((pausingHost.apply 0 .advance).2.apply 0 .advance).2.apply 0 .advance).2.apply 0 .advance).2.apply
    0 .advance |>.2

theorem pausingHost_reached : Reaches idleHost pausingHost :=
  .step 0 .advance (.step 0 (.snapshot none true) .refl)

theorem permittedHost_excluded : (permittedHost.barriers 0).permit = some 0 ∧ Excluded permittedHost :=
  ⟨by decide, Reaches.excluded ⟨rfl, fun _ => ⟨true, rfl⟩⟩
    (.step 0 .advance (.step 0 .advance
      (.step 0 .advance (.step 0 .advance (.step 0 .advance pausingHost_reached)))))⟩

/-- Another process admits, and a second attempt ends with the pauses of the first. -/
theorem pausingHost_contended : idleHost.Initial ∧ Reaches idleHost pausingHost ∧
    (pausingHost.barriers 0).agentPaused = true ∧
    (pausingHost.enter 1 .work none true).1 = .ok () ∧ (pausingHost.barriers 1).records = [] ∧
    (pausingHost.snapshot 0 none true).1 = .error .busy ∧
    ((pausingHost.snapshot 0 none true).2.barriers 0).workPaused = true ∧
    ((pausingHost.snapshot 0 none true).2.barriers 0).agentPaused = true ∧
    ((pausingHost.snapshot 0 none true).2.barriers 0).snapshotTicket = some 0 :=
  ⟨⟨rfl, fun _ => ⟨true, rfl⟩⟩, pausingHost_reached, by
    decide, by decide, by decide, by decide, by decide, by decide,
    by decide⟩

end Example

end OpenNode.BackupCoordination
