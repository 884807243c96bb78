import OpenNode.BackupCoordination

namespace OpenNode.BackupCoordination

open FileLock List

variable {s t : Host} {process : Nat}

namespace BackupWriteBarrier

/-- Nothing is under way, and nothing is admitted. -/
structure Quiet (barrier : BackupWriteBarrier) : Prop where
  work : barrier.workPaused = true
  agent : barrier.agentPaused = true
  records : barrier.records = []

/-- What an attempt has reached. -/
def Reached (locks : List (Description (Nat × Nat))) (process : Nat) (barrier : BackupWriteBarrier) :
    Option Attempt → Prop
  | none => barrier.permit = none ∧ barrier.workPaused = false ∧ barrier.agentPaused = false
  | some .work => barrier.permit = none ∧ barrier.workPaused = true ∧ barrier.agentPaused = false
  | some .agent =>
    barrier.permit = none ∧ barrier.workPaused = true ∧ barrier.agentPaused = true ∧ barrier.has .work = false
  | some .acquire => barrier.permit = none ∧ barrier.Quiet
  | some (.opened fd) => barrier.permit = none ∧ barrier.Quiet ∧ Held locks (process, fd) none
  | some (.granted fd) | some (.locked fd) =>
    barrier.permit = none ∧ barrier.Quiet ∧ Held locks (process, fd) (some .exclusive)
  | some (.permitted fd) => barrier.Quiet ∧ Held locks (process, fd) (some .exclusive)
  | some (.ending none) => barrier.permit = none ∧ (barrier.agentPaused = true → barrier.workPaused = true)
  | some (.ending (some fd)) => barrier.Quiet ∧ Held locks (process, fd) (some .exclusive)

/-- What holds of the barrier of a process at any time. -/
structure Sound (locks : List (Description (Nat × Nat))) (serial process : Nat)
    (barrier : BackupWriteBarrier) : Prop where
  record : ∀ record ∈ barrier.records, record.id < serial ∧ record.holders ≠ [] ∧
    record.descriptor = barrier.anchored ∧
      (record.descriptor = true → Held locks (process, record.id) (some .shared))
  distinct : (barrier.records.map LeaseRecord.id).Nodup
  ticket : barrier.snapshotTicket.isSome = barrier.attempt.isSome
  reached : barrier.Reached locks process barrier.attempt

variable {locks locks' : List (Description (Nat × Nat))} {serial serial' : Nat} {barrier : BackupWriteBarrier}

variable {attempt : Option Attempt}

theorem Reached.frame (reached : barrier.Reached locks process attempt)
    (held : ∀ fd mode, Held locks (process, fd) mode → Held locks' (process, fd) mode) :
    barrier.Reached locks' process attempt := by
  rcases attempt with - | _ | _ | _ | fd | fd | fd | fd | (_ | fd)
  · exact reached
  · exact reached
  · exact reached
  · exact reached
  · exact ⟨reached.1, reached.2.1, held fd _ reached.2.2⟩
  · exact ⟨reached.1, reached.2.1, held fd _ reached.2.2⟩
  · exact ⟨reached.1, reached.2.1, held fd _ reached.2.2⟩
  · exact ⟨reached.1, held fd _ reached.2⟩
  · exact reached
  · exact ⟨reached.1, held fd _ reached.2⟩

theorem Sound.frame (sound : barrier.Sound locks serial process) (later : serial ≤ serial')
    (held : ∀ fd mode, Held locks (process, fd) mode → Held locks' (process, fd) mode) :
    barrier.Sound locks' serial' process where
  record record here := by
    obtain ⟨below, holders, anchored, descriptor⟩ := sound.record record here
    exact ⟨Nat.lt_of_lt_of_le below later, holders, anchored, fun has => held _ _ (descriptor has)⟩
  distinct := sound.distinct
  ticket := sound.ticket
  reached := sound.reached.frame held

theorem Sound.paused (sound : barrier.Sound locks serial process) (agent : barrier.agentPaused = true) :
    barrier.workPaused = true := by
  have reached := sound.reached
  generalize barrier.attempt = attempt at reached
  rcases attempt with - | _ | _ | _ | fd | fd | fd | fd | (_ | fd)
  · rw [reached.2.2] at agent
    cases agent
  · exact reached.2.1
  · exact reached.2.1
  · exact reached.2.work
  · exact reached.2.1.work
  · exact reached.2.1.work
  · exact reached.2.1.work
  · exact reached.1.work
  · exact reached.2 agent
  · exact reached.1.work

theorem Reached.records {attempt : Option Attempt} (reached : barrier.Reached locks process attempt)
    {records : List LeaseRecord} {closed : Bool}
    (known : ∀ record ∈ records, ∃ old ∈ barrier.records, old.kind = record.kind) :
    ({ barrier with records := records, closed := closed } : BackupWriteBarrier).Reached locks process attempt := by
  have none_ : barrier.records = [] → records = [] := by
    intro empty
    refine List.eq_nil_iff_forall_not_mem.mpr fun record here => ?_
    obtain ⟨old, there, -⟩ := known record here
    rw [empty] at there
    cases there
  have quiet : barrier.Quiet → Quiet { barrier with records := records, closed := closed } :=
    fun quiet => ⟨quiet.work, quiet.agent, none_ quiet.records⟩
  rcases attempt with - | _ | _ | _ | fd | fd | fd | fd | (_ | fd)
  · exact reached
  · exact reached
  · refine ⟨reached.1, reached.2.1, reached.2.2.1, ?_⟩
    refine List.any_eq_false.mpr fun record here working => ?_
    obtain ⟨old, there, same⟩ := known record here
    exact List.any_eq_false.mp reached.2.2.2 old there (same ▸ working)
  · exact ⟨reached.1, quiet reached.2⟩
  · exact ⟨reached.1, quiet reached.2.1, reached.2.2⟩
  · exact ⟨reached.1, quiet reached.2.1, reached.2.2⟩
  · exact ⟨reached.1, quiet reached.2.1, reached.2.2⟩
  · exact ⟨quiet reached.1, reached.2⟩
  · exact reached
  · exact ⟨quiet reached.1, reached.2⟩

theorem Reached.busy (reached : barrier.Reached locks process attempt) {record : LeaseRecord}
    (here : record ∈ barrier.records) : barrier.Reached locks' process attempt := by
  have loud : ¬ barrier.Quiet := fun quiet => by
    rw [quiet.records] at here
    cases here
  rcases attempt with - | _ | _ | _ | fd | fd | fd | fd | (_ | fd)
  · exact reached
  · exact reached
  · exact reached
  · exact reached
  · exact absurd reached.2.1 loud
  · exact absurd reached.2.1 loud
  · exact absurd reached.2.1 loud
  · exact absurd reached.1 loud
  · exact reached
  · exact absurd reached.1 loud

theorem Sound.admitted (sound : barrier.Sound locks serial process) {kind : OperationKind}
    (open_ : barrier.paused kind = false) (record : LeaseRecord) (same : record.kind = kind) :
    ({ barrier with records := record :: barrier.records } : BackupWriteBarrier).Reached locks process
      barrier.attempt := by
  have reached := sound.reached
  have agents : barrier.agentPaused = false := by
    cases paused : barrier.agentPaused with
    | false => rfl
    | true =>
      have work := sound.paused paused
      cases kind with
      | work => exact absurd (open_.symm.trans work) nofun
      | agent => exact absurd (open_.symm.trans paused) nofun
  have loud : ¬ barrier.Quiet := fun quiet => by
    rw [quiet.agent] at agents
    cases agents
  generalize barrier.attempt = attempt at reached ⊢
  rcases attempt with - | _ | _ | _ | fd | fd | fd | fd | (_ | fd)
  · exact reached
  · exact reached
  · rw [reached.2.2.1] at agents
    cases agents
  · exact absurd reached.2 loud
  · exact absurd reached.2.1 loud
  · exact absurd reached.2.1 loud
  · exact absurd reached.2.1 loud
  · exact absurd reached.1 loud
  · exact reached
  · exact absurd reached.1 loud

end BackupWriteBarrier

/-- What holds of all processes at any time. -/
structure Host.Sound (s : Host) : Prop where
  exclusive : Exclusive s.locks
  below : ∀ description ∈ s.locks, description.id.2 < s.serial
  barrier : ∀ process, (s.barriers process).Sound s.locks s.serial process

namespace Host.Sound

variable {barrier : BackupWriteBarrier} {serial : Nat}

theorem update (sound : s.Sound) {locks : List (Description (Nat × Nat))} (later : s.serial ≤ serial)
    (exclusive : Exclusive locks) (below : ∀ description ∈ locks, description.id.2 < serial)
    (others : ∀ other fd mode, other ≠ process → Held s.locks (other, fd) mode → Held locks (other, fd) mode)
    (mine : barrier.Sound locks serial process) :
    Host.Sound { s.setBarrier process barrier with locks := locks, serial := serial } where
  exclusive := exclusive
  below := below
  barrier other := by
    by_cases same : other = process
    · subst same
      simpa only [Host.setBarrier, Function.update_self] using mine
    · simp only [Host.setBarrier, Function.update_of_ne same]
      exact (sound.barrier other).frame later fun fd mode => others other fd mode same

theorem quiet (sound : s.Sound) (later : s.serial ≤ serial) (mine : barrier.Sound s.locks serial process) :
    Host.Sound { s.setBarrier process barrier with serial := serial } :=
  sound.update later sound.exclusive (fun description here =>
    Nat.lt_of_lt_of_le (sound.below description here) later)
    (fun _ _ _ _ held => held) mine

theorem edit_below (sound : s.Sound) {id : Nat × Nat} {change : Description (Nat × Nat) → Description (Nat × Nat)}
    (keeps : ∀ description, (change description).id = description.id) :
    ∀ description ∈ FileLock.edit id change s.locks, description.id.2 < s.serial := by
  intro description here
  obtain ⟨old, before, ⟨-, rfl⟩ | ⟨-, rfl⟩⟩ := mem_edit here
  · exact keeps old ▸ sound.below old before
  · exact sound.below description before

theorem fresh (sound : s.Sound) (process : Nat) : (process, s.serial) ∉ s.locks.map Description.id := by
  intro here
  obtain ⟨old, before, same⟩ := List.mem_map.mp here
  have below := sound.below old before
  rw [same] at below
  exact Nat.lt_irrefl _ below

end Host.Sound

variable {barrier : BackupWriteBarrier} {record : LeaseRecord}

theorem BackupWriteBarrier.activeRecord_some {context : Option Nat}
    (active : barrier.activeRecord context = some record) :
    record ∈ barrier.records ∧ context = some record.id ∧ record.holders ≠ [] := by
  have holds := List.find?_some active
  rw [Bool.and_eq_true, beq_iff_eq, Bool.not_eq_true', isEmpty_eq_false_iff] at holds
  exact ⟨mem_of_find?_eq_some active, holds⟩

theorem BackupWriteBarrier.recordOf_some {id lease : Nat} (held : barrier.recordOf id lease = some record) :
    record ∈ barrier.records ∧ record.id = id := by
  have holds := List.find?_some held
  rw [Bool.and_eq_true, beq_iff_eq] at holds
  exact ⟨mem_of_find?_eq_some held, holds.1⟩

theorem Host.enter_cases (s : Host) (process : Nat) (kind : OperationKind) (context : Option Nat) (intact : Bool) :
    (∃ error, s.enter process kind context intact = (.error error, s)) ∨
    (∃ record, (s.barriers process).activeRecord context = some record ∧ record.kind = kind ∧
      s.enter process kind context intact = (.ok (), s.join process record)) ∨
    (s.barriers process).paused kind = false ∧
      ((s.barriers process).anchored = true → grants (process, s.serial) .shared s.locks = true) ∧
      s.enter process kind context intact = (.ok (), s.newLease process kind (s.barriers process).anchored) := by
  unfold Host.enter
  dsimp only
  split
  · exact Or.inl ⟨_, rfl⟩
  · split
    · rename_i record joined
      obtain ⟨active, same⟩ := Option.filter_eq_some_iff.mp joined
      exact Or.inr (Or.inl ⟨record, active, by simpa using same, rfl⟩)
    · split
      · exact Or.inl ⟨_, rfl⟩
      · rename_i unpaused
        have unpaused : (s.barriers process).paused kind = false := by simpa using unpaused
        cases (s.barriers process).anchored with
        | false => exact Or.inr (Or.inr ⟨unpaused, nofun, rfl⟩)
        | true =>
          simp only [Bool.not_true, Bool.false_eq_true, if_false]
          split
          · rename_i granted
            exact Or.inr (Or.inr ⟨unpaused, fun _ => granted, rfl⟩)
          · exact Or.inl ⟨_, rfl⟩

namespace Host.Sound

variable {serial : Nat}

section

variable (sound : s.Sound)
include sound

theorem edited {change : LeaseRecord → LeaseRecord} (later : s.serial ≤ serial)
    (keeps : ∀ record, (change record).id = record.id ∧ (change record).kind = record.kind ∧
      (change record).descriptor = record.descriptor)
    (holds : ∀ record ∈ (s.barriers process).records, (change record).holders ≠ []) :
    Host.Sound { s.setBarrier process { s.barriers process with
      records := (s.barriers process).records.map change } with serial := serial } := by
  have barrier := sound.barrier process
  refine sound.quiet later ⟨fun record here => ?_, ?_, barrier.ticket, ?_⟩
  · obtain ⟨old, before, rfl⟩ := List.mem_map.mp here
    obtain ⟨below, -, anchored, held⟩ := barrier.record old before
    obtain ⟨id, -, descriptor⟩ := keeps old
    rw [id, descriptor]
    exact ⟨Nat.lt_of_lt_of_le below later, holds old before, anchored, held⟩
  · have ids : ((s.barriers process).records.map change).map LeaseRecord.id =
        (s.barriers process).records.map LeaseRecord.id := by
      rw [map_map]
      exact map_congr_left fun record _ => (keeps record).1
    rw [ids]
    exact barrier.distinct
  · refine barrier.reached.records fun record here => ?_
    obtain ⟨old, before, rfl⟩ := List.mem_map.mp here
    exact ⟨old, before, (keeps old).2.1.symm⟩

theorem join (record : LeaseRecord) : (s.join process record).Sound := by
  refine sound.edited (Nat.le_succ _) (fun other => ?_) fun other here => ?_
  · split <;> exact ⟨rfl, rfl, rfl⟩
  · split
    · exact cons_ne_nil _ _
    · exact ((sound.barrier process).record other here).2.1

theorem newLease {kind : OperationKind} (unpaused : (s.barriers process).paused kind = false)
    (granted : (s.barriers process).anchored = true → grants (process, s.serial) .shared s.locks = true) :
    (s.newLease process kind (s.barriers process).anchored).Sound := by
  have barrier := sound.barrier process
  have fresh : ∀ record ∈ (s.barriers process).records, record.id ≠ s.serial := by
    intro record here same
    have below := (barrier.record record here).1
    omega
  have distinct : (((⟨s.serial, kind, (s.barriers process).anchored, [s.serial + 1]⟩ : LeaseRecord) ::
      (s.barriers process).records).map
      LeaseRecord.id).Nodup := by
    refine List.nodup_cons.mpr ⟨fun here => ?_, barrier.distinct⟩
    obtain ⟨old, before, same⟩ := List.mem_map.mp here
    exact fresh old before same
  cases anchored : (s.barriers process).anchored with
  | false =>
    rw [anchored] at distinct
    refine sound.quiet (Nat.le_add_right _ 2) ⟨fun record here => ?_, distinct, barrier.ticket, ?_⟩
    · rcases List.mem_cons.mp here with rfl | before
      · exact ⟨Nat.lt_add_of_pos_right (by decide), nofun, anchored.symm, nofun⟩
      · obtain ⟨below, holders, descriptor, held⟩ := barrier.record record before
        exact ⟨Nat.lt_add_right 2 below, holders, descriptor, held⟩
    · exact barrier.admitted unpaused _ rfl
  | true =>
    rw [anchored] at distinct
    have opened := sound.exclusive.openFile (sound.fresh process)
    have grants_ : grants (process, s.serial) .shared (openFile (process, s.serial) s.locks) = true := by
      rw [openFile, grants, all_cons, Bool.and_eq_true]
      exact ⟨by simp, granted anchored⟩
    have kept : ∀ id mode, id ≠ (process, s.serial) → Held s.locks id mode →
        Held (lock (process, s.serial) .shared (openFile (process, s.serial) s.locks)) id mode :=
      fun id mode differs held => held.openFile.edit (Or.inl (Ne.symm differs))
    refine sound.update (Nat.le_add_right _ 2) (opened.lock grants_) (fun description here => ?_)
      (fun other fd mode differs held => kept _ mode (fun same => differs (congrArg Prod.fst same)) held)
      ⟨fun record here => ?_, distinct, barrier.ticket, ?_⟩
    · obtain ⟨old, before, ⟨-, rfl⟩ | ⟨-, rfl⟩⟩ := mem_edit here
      · rcases List.mem_cons.mp before with rfl | before
        · exact Nat.lt_add_of_pos_right (by decide)
        · exact Nat.lt_add_right 2 (sound.below old before)
      · rcases List.mem_cons.mp before with rfl | before
        · exact Nat.lt_add_of_pos_right (by decide)
        · exact Nat.lt_add_right 2 (sound.below description before)
    · rcases List.mem_cons.mp here with rfl | before
      · exact ⟨Nat.lt_add_of_pos_right (by decide), nofun, anchored.symm, fun _ => held_openFile.lock_self .shared⟩
      · obtain ⟨below, holders, descriptor, held⟩ := barrier.record record before
        exact ⟨Nat.lt_add_right 2 below, holders, descriptor, fun has =>
          kept _ _ (fun same => fresh record before (congrArg Prod.snd same)) (held has)⟩
    · refine BackupWriteBarrier.Reached.frame (barrier.admitted unpaused _ rfl) fun fd mode held => ?_
      refine kept _ mode (fun same => ?_) held
      exact sound.fresh process (same ▸ held.mem_ids)

theorem locks {change : Description (Nat × Nat) → Description (Nat × Nat)} {id : Nat × Nat}
    (exclusive : Exclusive (FileLock.edit id change s.locks))
    (keeps : ∀ description, (change description).id = description.id)
    (held : ∀ id' mode, Held s.locks id' mode → Held (FileLock.edit id change s.locks) id' mode) :
    Host.Sound { s with locks := FileLock.edit id change s.locks } where
  exclusive := exclusive
  below := sound.edit_below keeps
  barrier process := (sound.barrier process).frame (Nat.le_refl _) fun fd mode => held (process, fd) mode

theorem spawn (id lease : Nat) : (s.spawn process id lease).2.Sound := by
  unfold Host.spawn
  dsimp only
  split
  · exact sound
  · split
    · exact sound
    · dsimp only
      split
      · exact sound.locks sound.exclusive.inherit (by intro; split <;> rfl) fun _ _ held => held.inherit
      · exact sound

theorem childExit (id : Nat × Nat) : Host.Sound { s with locks := FileLock.childExit id s.locks } :=
  sound.locks sound.exclusive.childExit (fun _ => rfl) fun _ _ held => held.childExit

end

variable {barrier : BackupWriteBarrier}

section

variable (sound : s.Sound)
include sound

theorem closed (fd : Option Nat)
    (mine : barrier.Sound ((s.setBarrier process barrier).close? process fd).locks s.serial process) :
    ((s.setBarrier process barrier).close? process fd).Sound := by
  cases fd with
  | none => exact sound.quiet (Nat.le_refl _) mine
  | some fd =>
    refine sound.update (Nat.le_refl _) sound.exclusive.closeFile (sound.edit_below fun _ => rfl) ?_ mine
    intro other fd' mode differs held
    exact held.edit (Or.inl fun same => differs (congrArg Prod.fst same).symm)

theorem exit (id lease : Nat) : (s.exit process id lease).2.Sound := by
  have barrier := sound.barrier process
  unfold Host.exit
  dsimp only
  split
  · exact sound
  · rename_i record found
    obtain ⟨here, same⟩ := BackupWriteBarrier.recordOf_some found
    split
    · -- the last holder: its descriptor is that of no other lease, and no attempt has one yet
      refine sound.closed _ ⟨fun other there => ?_, ?_, barrier.ticket, ?_⟩
      · rw [mem_filter, bne_iff_ne] at there
        obtain ⟨there, differs⟩ := there
        obtain ⟨below, holders, anchored, held⟩ := barrier.record other there
        refine ⟨below, holders, anchored, fun has => ?_⟩
        split
        · exact (held has).edit (Or.inl fun same => differs (congrArg Prod.snd same).symm)
        · exact held has
      · exact barrier.distinct.sublist (List.filter_sublist.map LeaseRecord.id)
      · exact BackupWriteBarrier.Reached.records (barrier.reached.busy here)
          fun other there => ⟨other, (List.mem_filter.mp there).1, rfl⟩
    · rename_i holders
      refine sound.edited (Nat.le_refl _) (fun other => ?_) fun other there => ?_
      · split <;> exact ⟨rfl, rfl, rfl⟩
      · split
        · simpa using holders
        · exact (barrier.record other there).2.1

theorem staged (later : s.serial ≤ serial) (records : barrier.records = (s.barriers process).records)
    (anchored : barrier.anchored = (s.barriers process).anchored)
    (ticket : barrier.snapshotTicket.isSome = barrier.attempt.isSome)
    (reached : barrier.Reached s.locks process barrier.attempt) :
    Host.Sound { s.setBarrier process barrier with serial := serial } := by
  have before := (sound.barrier process).frame later fun _ _ held => held
  refine sound.quiet later ⟨?_, ?_, ticket, reached⟩
  · rw [records, anchored]
    exact before.record
  · rw [records]
    exact before.distinct

theorem snapshot (context : Option Nat) (intact : Bool) : (s.snapshot process context intact).2.Sound := by
  have barrier := sound.barrier process
  unfold Host.snapshot
  dsimp only
  split
  · exact sound
  · split
    · exact sound
    · rename_i free
      split
      · exact sound
      · have idle : (s.barriers process).attempt = none := by
          have ticket := barrier.ticket
          simp only [Bool.or_eq_true, not_or, Bool.not_eq_true] at free
          rw [free.1] at ticket
          exact Option.isNone_iff_eq_none.mp (by simpa using ticket.symm)
        have reached := barrier.reached
        rw [idle] at reached
        exact sound.staged (Nat.le_succ _) rfl rfl rfl ⟨reached.1, rfl, reached.2.2⟩

theorem advance : (s.advance process).2.Sound := by
  have barrier := sound.barrier process
  have reached := barrier.reached
  have ticket := barrier.ticket
  unfold Host.advance
  dsimp only
  split <;> rename_i stage <;> try rw [stage] at reached ticket
  · split
    · exact sound
    · rename_i idle
      exact sound.staged (Nat.le_refl _) rfl rfl ticket ⟨reached.1, reached.2.1, rfl, Bool.eq_false_iff.mpr idle⟩
  · split
    · exact sound
    · rename_i idle
      refine sound.staged (Nat.le_refl _) rfl rfl ticket ⟨reached.1, reached.2.1, reached.2.2.1, ?_⟩
      -- a lease is one of the work or of an agent
      refine List.eq_nil_iff_forall_not_mem.mpr fun record here => ?_
      have work := List.any_eq_false.mp reached.2.2.2 record here
      have agent := List.any_eq_false.mp (Bool.eq_false_iff.mpr idle) record here
      cases known : record.kind <;> simp [known] at work agent
  · have records := reached.2.records
    refine sound.update (Nat.le_succ _) (sound.exclusive.openFile (sound.fresh process)) (fun description here =>
      ?_)
      (fun _ _ _ _ held => held.openFile) ⟨?_, ?_, ticket, reached.1, ?_, held_openFile⟩
    · rcases List.mem_cons.mp here with rfl | before
      · exact Nat.lt_succ_self _
      · exact Nat.lt_succ_of_lt (sound.below description before)
    · rw [records]
      exact fun record here => absurd here not_mem_nil
    · rw [records]
      exact nodup_nil
    · exact ⟨reached.2.work, reached.2.agent, records⟩
  · split
    · rename_i fd _ granted
      have records := reached.2.1.records
      refine sound.update (Nat.le_refl _) (sound.exclusive.lock granted) (sound.edit_below fun _ => rfl)
        (fun other fd' mode differs held => held.edit (Or.inl fun same => differs (congrArg Prod.fst same).symm))
        ⟨?_, ?_, ticket, reached.1, ?_, reached.2.2.lock_self .exclusive⟩
      · rw [records]
        exact fun record here => absurd here not_mem_nil
      · rw [records]
        exact nodup_nil
      · exact ⟨reached.2.1.work, reached.2.1.agent, records⟩
    · exact sound
  · exact sound.staged (Nat.le_refl _) rfl rfl ticket ⟨reached.1,
      ⟨reached.2.1.work, reached.2.1.agent, reached.2.1.records⟩, reached.2.2⟩
  · exact sound.staged (Nat.le_refl _) rfl rfl ticket ⟨⟨reached.2.1.work, reached.2.1.agent, reached.2.1.records⟩,
      reached.2.2⟩
  · exact sound

theorem released (fd : Nat) (records : barrier.records = [])
    (ticket : barrier.snapshotTicket.isSome = barrier.attempt.isSome)
    (reached : ∀ locks, barrier.Reached locks process barrier.attempt) :
    ((s.setBarrier process barrier).close? process (some fd)).Sound := by
  refine sound.closed (some fd) ⟨?_, ?_, ticket, reached _⟩
  · rw [records]
    exact fun record here => absurd here not_mem_nil
  · rw [records]
    exact nodup_nil

theorem abandon : (s.abandon process).2.Sound := by
  have barrier := sound.barrier process
  have reached := barrier.reached
  have ticket := barrier.ticket
  unfold Host.abandon
  dsimp only
  split <;> rename_i stage <;> try rw [stage] at reached ticket
  · exact sound.staged (Nat.le_refl _) rfl rfl ticket ⟨reached.1, barrier.paused⟩
  · exact sound.staged (Nat.le_refl _) rfl rfl ticket ⟨reached.1, barrier.paused⟩
  · exact sound.staged (Nat.le_refl _) rfl rfl ticket ⟨reached.1, barrier.paused⟩
  · exact sound.released _ reached.2.1.records ticket fun _ => ⟨reached.1, barrier.paused⟩
  · exact sound.released _ reached.2.1.records ticket fun _ => ⟨reached.1, barrier.paused⟩
  · have quiet := reached.2.1
    exact sound.staged (Nat.le_refl _) rfl rfl ticket ⟨⟨quiet.work, quiet.agent, quiet.records⟩, reached.2.2⟩
  · have quiet := reached.1
    exact sound.staged (Nat.le_refl _) rfl rfl ticket ⟨⟨quiet.work, quiet.agent, quiet.records⟩, reached.2⟩
  · exact sound

theorem finish : (s.finish process).2.Sound := by
  have reached := (sound.barrier process).reached
  unfold Host.finish
  dsimp only
  split
  · rename_i fd stage
    rw [stage] at reached
    cases fd with
    | none => exact sound.staged (Nat.le_refl _) rfl rfl rfl ⟨rfl, rfl, rfl⟩
    | some fd => exact sound.released fd reached.1.records rfl fun _ => ⟨rfl, rfl, rfl⟩
  · exact sound

theorem close : (s.close process).2.Sound := by
  have barrier := sound.barrier process
  unfold Host.close
  dsimp only
  split
  · exact sound
  · split
    · exact sound
    · exact sound.staged (Nat.le_refl _) rfl rfl barrier.ticket
        (barrier.reached.records fun record here => ⟨record, here, rfl⟩)

end

end Host.Sound

theorem Host.Sound.apply (sound : s.Sound) (process : Nat) (event : BarrierEvent) :
    (s.apply process event).2.Sound := by
  cases event with
  | enter kind context intact =>
    rw [Host.apply]
    obtain ⟨error, same⟩ | ⟨record, -, -, same⟩ | ⟨unpaused, granted, same⟩ :=
      s.enter_cases process kind context intact
    · rw [same]
      exact sound
    · rw [same]
      exact sound.join record
    · rw [same]
      exact sound.newLease unpaused granted
  | exit id lease => exact sound.exit id lease
  | spawn id lease => exact sound.spawn id lease
  | childExit id => exact sound.childExit (process, id)
  | snapshot context intact => exact sound.snapshot context intact
  | advance => exact sound.advance
  | abandon => exact sound.abandon
  | finish => exact sound.finish
  | close => exact sound.close

end OpenNode.BackupCoordination
