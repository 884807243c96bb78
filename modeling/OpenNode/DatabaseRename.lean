import OpenNode.BrowserRestore

namespace OpenNode.Restore

open AList Interruption Program RestoreState

variable {E D : Type}

/-- How far the two renames are. -/
inductive RenameProgress where
  | untouched | oldRenamed | bothRenamed
deriving DecidableEq, Repr

/-- The three names and the two databases of an activation. -/
structure Renaming (D : Type) where
  current : String
  stage : String
  rollback : String
  stage_ne : stage ≠ current
  rollback_ne : rollback ≠ current
  rollback_ne_stage : rollback ≠ stage
  old : D
  staged : D

namespace Renaming

variable (r : Renaming D)

/-- The databases under the three names. -/
def at_ : RenameProgress → String → Option D
  | .untouched, name => if name = r.current then some r.old else if name = r.stage then some r.staged else none
  | .oldRenamed, name => if name = r.rollback then some r.old else if name = r.stage then some r.staged else none
  | .bothRenamed, name => if name = r.rollback then some r.old else if name = r.current then some r.staged else none

def done : RenameProgress → List (String × String)
  | .untouched => []
  | .oldRenamed => [(r.current, r.rollback)]
  | .bothRenamed => [(r.current, r.rollback), (r.stage, r.current)]

/-- Each database has one of the three names, and each rename was done at most once. -/
structure Arranged (progress : RenameProgress) (s : RestoreState E D) : Prop where
  databases : ∀ name ∈ [r.current, r.stage, r.rollback], s.databases.lookup name = r.at_ progress name
  renames : s.renames = r.done progress

/-- The recorded phase may lag behind the renames. -/
def Lags : RestorePhase → RenameProgress → Prop
  | .prepared, progress => progress ≠ .bothRenamed
  | .databaseOldRenamed, progress => progress ≠ .untouched
  | .databaseActivated, progress => progress = .bothRenamed
  | _, _ => False

/-- The marker of the activation is recorded, in a phase. -/
def Records (host : RestoreHost E) (phase : RestorePhase) (s : RestoreState E D) : Prop :=
  ∃ value, s.root.lookup activationMarker = some (.marker value none) ∧ value.phase = phase ∧
    host.currentDatabase = r.current ∧ value.stageDatabase = r.stage ∧
    rollbackDatabase r.current value.requestId = r.rollback

/-- A phase and the renames that it may be recorded with. -/
structure Stands (host : RestoreHost E) (phase : RestorePhase) (progress : RenameProgress) (s : RestoreState E D) :
    Prop where
  records : r.Records host phase s
  arranged : r.Arranged progress s
  lags : Lags phase progress

/-- What holds wherever a run is interrupted. -/
def Held (host : RestoreHost E) (s : RestoreState E D) : Prop :=
  ∃ phase progress, r.Stands host phase progress s

variable {r} {host : RestoreHost E} {phase phase' : RestorePhase} {progress progress' : RenameProgress}
variable {s t : RestoreState E D}

theorem Arranged.congr (arranged : r.Arranged progress s) (databases : t.databases = s.databases)
    (renames : t.renames = s.renames) : r.Arranged progress t where
  databases name member := databases ▸ arranged.databases name member
  renames := renames.trans arranged.renames

theorem Records.congr (records : r.Records host phase s)
    (same : t.root.lookup activationMarker = s.root.lookup activationMarker) : r.Records host phase t := by
  obtain ⟨value, found, facts⟩ := records
  exact ⟨value, same.trans found, facts⟩

theorem Stands.created (stands : r.Stands host phase progress s) :
    r.Stands host phase progress (createTemporary s) where
  records := stands.records.congr (lookup_createTemporary s _)
  arranged := stands.arranged.congr rfl rfl
  lags := stands.lags

theorem Stands.unlinked (stands : r.Stands host phase progress s) (serial : Nat) :
    r.Stands host phase progress (unlinkTemporary serial s) where
  records := by
    obtain ⟨value, found, facts⟩ := stands.records
    refine ⟨value, ?_, facts⟩
    rw [unlinkTemporary_single found]
    exact (lookup_erase_ne (by simp [activationMarker])).trans found
  arranged := stands.arranged.congr (unlinkTemporary_databases serial s).1 (unlinkTemporary_databases serial s).2
  lags := stands.lags

/-- The recorded marker with another phase. -/
structure Moves (host : RestoreHost E) (r : Renaming D) (value : Marker) (phase : RestorePhase) : Prop where
  phase : value.phase = phase
  current : host.currentDatabase = r.current
  stage : value.stageDatabase = r.stage
  rollback : rollbackDatabase r.current value.requestId = r.rollback

variable {value : Marker}

theorem Stands.replaced (stands : r.Stands host phase progress s) (moves : Moves host r value phase')
    (lags : Lags phase' progress) (serial : Nat) :
    r.Stands host phase' progress (replaceMarker serial value s) where
  records := ⟨value, lookup_insert _, moves.phase, moves.current, moves.stage, moves.rollback⟩
  arranged := stands.arranged.congr rfl rfl
  lags := lags

theorem Stands.renameOld (stands : r.Stands host .prepared .untouched s) :
    ∃ t, renameDatabase r.current r.rollback s = .ok t ∧ r.Stands host .prepared .oldRenamed t := by
  have atCurrent : s.databases.lookup r.current = some r.old := by
    rw [stands.arranged.databases _ (by simp), at_, if_pos rfl]
  have atRollback : s.databases.lookup r.rollback = none := by
    rw [stands.arranged.databases _ (by simp), at_, if_neg r.rollback_ne, if_neg r.rollback_ne_stage]
  have atStage : s.databases.lookup r.stage = some r.staged := by
    rw [stands.arranged.databases _ (by simp), at_, if_neg r.stage_ne, if_pos rfl]
  unfold renameDatabase
  rw [atCurrent, atRollback]
  refine ⟨_, rfl, stands.records.congr rfl, ⟨?_, ?_⟩, by simp [Lags]⟩
  · intro name member
    simp only [List.mem_cons, List.not_mem_nil, or_false] at member
    rcases member with rfl | rfl | rfl
    · rw [lookup_insert_ne r.rollback_ne.symm, lookup_erase, at_, if_neg r.rollback_ne.symm,
        if_neg r.stage_ne.symm]
    · rw [lookup_insert_ne r.rollback_ne_stage.symm, lookup_erase_ne r.stage_ne, atStage, at_,
        if_neg r.rollback_ne_stage.symm, if_pos rfl]
    · rw [lookup_insert, at_, if_pos rfl]
  · show s.renames ++ _ = _
    rw [stands.arranged.renames]
    rfl

theorem Stands.renameStage (stands : r.Stands host .databaseOldRenamed .oldRenamed s) :
    ∃ t, renameDatabase r.stage r.current s = .ok t ∧ r.Stands host .databaseOldRenamed .bothRenamed t := by
  have atCurrent : s.databases.lookup r.current = none := by
    rw [stands.arranged.databases _ (by simp), at_, if_neg r.rollback_ne.symm, if_neg r.stage_ne.symm]
  have atRollback : s.databases.lookup r.rollback = some r.old := by
    rw [stands.arranged.databases _ (by simp), at_, if_pos rfl]
  have atStage : s.databases.lookup r.stage = some r.staged := by
    rw [stands.arranged.databases _ (by simp), at_, if_neg r.rollback_ne_stage.symm, if_pos rfl]
  unfold renameDatabase
  rw [atCurrent, atStage]
  refine ⟨_, rfl, stands.records.congr rfl, ⟨?_, ?_⟩, by simp [Lags]⟩
  · intro name member
    simp only [List.mem_cons, List.not_mem_nil, or_false] at member
    rcases member with rfl | rfl | rfl
    · rw [lookup_insert, at_, if_neg r.rollback_ne.symm, if_pos rfl]
    · rw [lookup_insert_ne r.stage_ne, lookup_erase, at_, if_neg r.rollback_ne_stage.symm,
        if_neg r.stage_ne]
    · rw [lookup_insert_ne r.rollback_ne, lookup_erase_ne r.rollback_ne_stage, atRollback, at_,
        if_pos rfl]
  · show s.renames ++ _ = _
    rw [stands.arranged.renames]
    rfl

theorem Arranged.names (arranged : r.Arranged progress s) : databaseNames r.current r.stage r.rollback s =
    match progress with
    | .untouched => ⟨true, true, false⟩
    | .oldRenamed => ⟨false, true, true⟩
    | .bothRenamed => ⟨true, false, true⟩ := by
  have atCurrent := arranged.databases r.current (by simp)
  have atStage := arranged.databases r.stage (by simp)
  have atRollback := arranged.databases r.rollback (by simp)
  unfold databaseNames
  rw [atCurrent, atStage, atRollback]
  cases progress <;>
    simp [at_, r.stage_ne, r.stage_ne.symm, r.rollback_ne, r.rollback_ne.symm, r.rollback_ne_stage,
      r.rollback_ne_stage.symm]

/-- The end of an activation. -/
abbrev Activated (host : RestoreHost E) (r : Renaming D) (s : RestoreState E D) : Prop :=
  r.Stands host .databaseActivated .bothRenamed s

/-- Interrupted anywhere, the program leaves a state that stands; it ends with the
activated database, and without interruption it comes to its end. -/
abbrev Converges (host : RestoreHost E) (r : Renaming D) (P : RestoreState E D → Prop)
    (p : Program (RestoreState E D)) : Prop :=
  Resumes (r.Held host) P p (Activated host r)

theorem Stands.held (stands : r.Stands host phase progress s) : r.Held host s :=
  ⟨phase, progress, stands⟩

theorem converges_done : Converges host r (Activated host r) .done :=
  .done (fun _ => Stands.held) fun _ => id

theorem converges_write {p : Program (RestoreState E D)} (moves : Moves host r value phase')
    (lags : Lags phase' progress) (next : Converges host r (r.Stands host phase' progress) p) :
    Converges host r (r.Stands host phase progress) (atomicJson value true p) := by
  refine atomicJson_resumes (fun _ => Stands.held) (fun _ stands => stands.created.held)
    (fun _ stands => (stands.created.unlinked _).held) (fun _ stands =>
      stands.created.replaced moves lags _) ?_ next
  exact fun _ stands => ((stands.created.replaced moves lags _).unlinked _).held

theorem Moves.of_records (records : Moves host r value phase) (phase' : RestorePhase) :
    Moves host r { value with phase := phase' } phase' :=
  ⟨rfl, records.current, records.stage, records.rollback⟩

theorem renameStage_converges (moves : Moves host r value phase)
    (lags : phase = .databaseOldRenamed ∨ phase = .databaseActivated) :
    Converges host r (r.Stands host phase progress)
      (Restore.renameStage r.current r.stage r.rollback value fun _ => .done) := by
  unfold Restore.renameStage
  rcases lags with rfl | rfl
  · rw [if_pos moves.phase]
    refine .read fun s stands => ?_
    rw [stands.arranged.names]
    cases progress with
    | untouched => exact absurd rfl stands.lags
    | oldRenamed =>
      rw [if_neg (by simp), if_neg (by simp)]
      exact .call (fun _ => Stands.held) (.step (fun _ => Stands.held) (fun _ => Stands.renameStage)
        (converges_write (moves.of_records _) rfl converges_done))
    | bothRenamed =>
      rw [if_pos rfl]
      exact converges_write (moves.of_records _) rfl converges_done
  · rw [if_neg (by simp [moves.phase]), if_pos moves.phase]
    refine ⟨fun effects s stands => ?_, fun s stands => ?_⟩
    · cases stands.lags
      exact converges_done.safe effects s stands
    · cases stands.lags
      exact converges_done.completes s stands

theorem activatePostgresDatabase_converges (moves : Moves host r value phase) (postgres : r.current ≠ "postgres")
    (lags : Lags phase progress) :
    Converges host r (r.Stands host phase progress) (activatePostgresDatabase host value fun _ => .done) := by
  unfold activatePostgresDatabase
  dsimp only
  rw [moves.current, moves.stage, moves.rollback, if_neg (by simp [postgres, r.stage_ne])]
  cases phase with
  | prepared =>
    rw [if_pos moves.phase]
    have renamed : Moves host r { value with phase := .databaseOldRenamed, stageDatabase := r.stage }
        .databaseOldRenamed := ⟨rfl, moves.current, rfl, moves.rollback⟩
    have written : ∀ progress, progress ≠ .untouched →
        Converges host r (r.Stands host .prepared progress) (atomicJson
          { value with phase := .databaseOldRenamed, stageDatabase := r.stage } true
          (Restore.renameStage r.current r.stage r.rollback
            { value with phase := .databaseOldRenamed, stageDatabase := r.stage } fun _ => .done)) :=
      fun progress begun => converges_write renamed begun (renameStage_converges renamed (.inl rfl))
    refine .read fun s stands => ?_
    rw [stands.arranged.names]
    cases progress with
    | untouched =>
      rw [if_neg (by simp), if_neg (by simp), if_neg (by simp)]
      exact .call (fun _ => Stands.held) (.step (fun _ => Stands.held) (fun _ =>
        Stands.renameOld) (written .oldRenamed nofun))
    | oldRenamed =>
      rw [if_pos rfl]
      exact written .oldRenamed nofun
    | bothRenamed => exact absurd rfl stands.lags
  | databaseOldRenamed =>
    rw [if_neg (by simp [moves.phase])]
    exact renameStage_converges moves (.inl rfl)
  | databaseActivated =>
    rw [if_neg (by simp [moves.phase])]
    exact renameStage_converges moves (.inr rfl)
  | movingOld => exact lags.elim
  | movingNew => exact lags.elim
  | activated => exact lags.elim

theorem Held.recorded (held : r.Held host s) : ∃ value, recordedMarker s = some value ∧
    ∃ phase progress, r.Stands host phase progress s ∧ Moves host r value phase := by
  obtain ⟨phase, progress, stands⟩ := held
  obtain ⟨value, found, atPhase, current, stage, rollback⟩ := stands.records
  exact ⟨value, by rw [recordedMarker, found], phase, progress, stands, atPhase, current, stage, rollback⟩

theorem resumeDatabase_safe : Safe (r.Held host) (r.Held host) (resumeDatabase host) (Activated host r) := by
  refine .read fun s held => ?_
  obtain ⟨value, found, phase, progress, stands, moves⟩ := held.recorded
  rw [found]
  by_cases postgres : r.current = "postgres"
  · refine Safe.weaken (P := r.Held host) ?_ (fun _ same => same ▸ held) fun _ => id
    unfold activatePostgresDatabase
    dsimp only
    rw [if_pos (.inl (moves.current.trans postgres))]
    exact .fail fun _ => id
  · exact (activatePostgresDatabase_converges moves postgres stands.lags).safe.weaken (fun _ same => same ▸ stands)
      fun _ => id

theorem resumeDatabase_completes (postgres : r.current ≠ "postgres") :
    Completes (r.Held host) (resumeDatabase host) (Activated host r) := by
  refine .read fun s held => ?_
  obtain ⟨value, found, phase, progress, stands, moves⟩ := held.recorded
  rw [found]
  exact (activatePostgresDatabase_converges moves postgres stands.lags).completes.weaken (fun _ same =>
    same ▸ stands)
    fun _ => id

/-- What happens to the databases of an activation: runs of
`_activate_postgres_database` that are interrupted anywhere, and new lists of
entries that the activation writes into the journal before it. -/
inductive Run (host : RestoreHost E) (r : Renaming D) : RestoreState E D → Prop
  | start {s : RestoreState E D} : r.Stands host .prepared .untouched s → Run host r s
  | resume {s : RestoreState E D} (effects : Nat → Effect) : Run host r s →
      Run host r ((resumeDatabase host).run effects s).1
  | list {s : RestoreState E D} {value : Marker} (old new : List EntryName) : Run host r s →
      recordedMarker s = some value →
      Run host r (replaceMarker s.serial { value with oldEntries := old, newEntries := new } s)

theorem Run.held (run : Run host r s) : r.Held host s := by
  induction run with
  | start stands => exact ⟨_, _, stands⟩
  | resume effects _ ih => exact (resumeDatabase_safe effects _ ih).1
  | @list s value old new _ found ih =>
    obtain ⟨recorded, same, phase, progress, stands, moves⟩ := ih.recorded
    cases found.symm.trans same
    have listed : Moves host r { value with oldEntries := old, newEntries := new } phase :=
      ⟨moves.phase, moves.current, moves.stage, moves.rollback⟩
    exact ⟨phase, progress, stands.replaced listed stands.lags s.serial⟩

/-- What the renames promise of a state in which they may have been interrupted. -/
structure Convergent (host : RestoreHost E) (r : Renaming D) (s : RestoreState E D) : Prop where
  /-- Both databases exist, under two of the three names, and no rename was done twice. -/
  arranged : ∃ progress, r.Arranged progress s
  /-- A run that comes to its end records `database_activated`, after each rename was done once. -/
  ends : ∀ effects t, (resumeDatabase host).run effects s = (t, none) → Activated host r t
  /-- A run that is not interrupted comes to its end. -/
  completes : r.current ≠ "postgres" → ((resumeDatabase host).run quiet s).2 = none

theorem Run.convergent (run : Run host r s) : Convergent host r s := by
  obtain ⟨phase, progress, stands⟩ := run.held
  refine ⟨⟨progress, stands.arranged⟩, fun effects t ended => ?_, fun postgres => ?_⟩
  · have last := (resumeDatabase_safe effects s run.held).2
    rw [ended] at last
    exact last rfl
  · exact (resumeDatabase_completes postgres s run.held).1

section Example

def panelMarker : Marker where
  requestId := "c0ffee00-0000-4000-8000-000000000000"
  restoreId := "c0ffee00-0000-4000-8000-000000000001"
  pendingDir := ".open-node-restore-pending-c0ffee00-0000-4000-8000-000000000000"
  databaseEngine := .postgresql
  stageDatabase := "panel_stage"

def panelHost : RestoreHost Unit where
  markerBytes _ := 1000
  stageOf _ := none
  currentDatabase := "panel"

def panelRenaming : Renaming Nat where
  current := "panel"
  stage := "panel_stage"
  rollback := "panel_rollback_c0ffee0000004000"
  stage_ne := by decide
  rollback_ne := by decide
  rollback_ne_stage := by decide
  old := 0
  staged := 1

def panelPrepared : RestoreState Unit Nat where
  root := (∅ : Directory (Node Unit)).insert activationMarker (.marker panelMarker none)
  databases := ((∅ : AList fun _ : String => Nat).insert "panel" 0).insert "panel_stage" 1

theorem panelPrepared_stands : panelRenaming.Stands panelHost .prepared .untouched panelPrepared where
  records := ⟨panelMarker, rfl, rfl, rfl, rfl, by decide⟩
  arranged := ⟨by decide, rfl⟩
  lags := nofun

/-- A crash right after the first rename. -/
theorem panelCrashed_convergent : Convergent panelHost panelRenaming
    ((resumeDatabase panelHost).run (fun n => if n = 1 then .kept "crash" else .done) panelPrepared).1 :=
  Run.convergent (.resume _ (.start panelPrepared_stands))

end Example

end Renaming

end OpenNode.Restore
