import OpenNode.Lib.Interruption

namespace OpenNode.Restore

open Interruption Program

/-- A name in a directory. The temporary files of the journal have random names
that nothing else bears. -/
inductive EntryName where
  | text (name : String)
  | temporary (serial : Nat)
deriving DecidableEq, Repr

abbrev Directory (α : Type) := AList fun _ : EntryName => α

inductive RestorePhase where
  | prepared | databaseOldRenamed | databaseActivated | movingOld | movingNew | activated
deriving DecidableEq, Repr

inductive DatabaseEngine where
  | sqlite | postgresql
deriving DecidableEq, Repr

/-- The journal of an activation. -/
structure Marker where
  requestId : String
  restoreId : String
  pendingDir : String
  phase : RestorePhase := .prepared
  oldEntries : List EntryName := []
  newEntries : List EntryName := []
  databaseEngine : DatabaseEngine
  stageDatabase : String := ""
deriving DecidableEq, Repr

/-- What is moved as a whole: a file or a directory with its content, or a
temporary file that was left behind. -/
inductive Entry (E : Type) where
  | data (content : E)
  | temporary
deriving DecidableEq

/-- An entry of the state directory. A private directory whose entries the
switch touches is a `directory`; the marker may have a second name, a temporary
one. -/
inductive Node (E : Type) where
  | entry (entry : Entry E)
  | directory (entries : Directory (Entry E))
  | marker (value : Marker) (twin : Option Nat)

/-- The state directory, the number of temporary files made so far, the
databases of the server and the renames that were done to them. -/
structure RestoreState (E D : Type) where
  root : Directory (Node E)
  serial : Nat := 0
  databases : AList fun _ : String => D
  renames : List (String × String) := []

/-- What the activation reads elsewhere: the size of the encoded marker, the
staging database that an entry of the pending directory names, and the
configured database. -/
structure RestoreHost (E : Type) where
  markerBytes : Marker → Nat
  stageOf : Entry E → Option String
  currentDatabase : String

def activationMarker : EntryName := .text ".open-node-browser-restore.json"
def pendingPrefix : String := ".open-node-restore-pending-"
def rollbackPrefix : String := ".open-node-restore-rollback-"
def postgresRestoreMetadata : EntryName := .text ".open-node-postgres-restore.json"
def maxTopLevelEntries : Nat := 256
def maxMarkerBytes : Nat := 65536

/-- The text after a prefix. -/
def removePrefix? (start text : String) : Option String :=
  if start.toList.isPrefixOf text.toList then some (String.ofList (text.toList.drop start.toList.length)) else none

def isHex (c : Char) : Bool :=
  ('0' ≤ c && c ≤ '9') || ('a' ≤ c && c ≤ 'f')

/-- `_IDENTIFIER`. -/
def isIdentifier (text : String) : Bool :=
  text.toList.length == 36 && (text.toList.zipIdx.all fun entry =>
    if entry.2 ∈ [8, 13, 18, 23] then entry.1 == '-' else isHex entry.1)

/-- `_TEMPORARY_RESTORE`. -/
def isTemporaryRestore (text : String) : Bool :=
  match removePrefix? ".open-node-restore-" text with
  | some rest => rest.toList.length == 32 && rest.toList.all isHex
  | none => false

def orphanRestoreName : EntryName → Bool
  | .text name => isTemporaryRestore name || (removePrefix? pendingPrefix name).any isIdentifier
  | .temporary _ => false

def entryName : EntryName → Bool
  | .text name => name != "" && name != "." && name != ".." && !name.toList.contains '/' &&
      !name.toList.contains (Char.ofNat 0) && (removePrefix? rollbackPrefix name).isNone
  | .temporary _ => true

/-- The name of a rollback directory, with what follows its prefix. -/
def rollbackOf : EntryName → Option String
  | .text name => removePrefix? rollbackPrefix name
  | .temporary _ => none

/-- The text by which a listing is sorted. -/
def EntryName.sortKey : EntryName → String
  | .text name => name
  | .temporary serial => ".restore-json-" ++ toString serial

def sortNames (names : List EntryName) : List EntryName :=
  names.mergeSort fun a b => decide (a.sortKey ≤ b.sortKey)

def Marker.pendingName (value : Marker) : EntryName := .text value.pendingDir

def Marker.rollbackName (value : Marker) : EntryName := .text (rollbackPrefix ++ value.requestId)

/-- The phases before any entry is moved. -/
def RestorePhase.unswitched : RestorePhase → Bool
  | .prepared | .databaseOldRenamed | .databaseActivated => true
  | _ => false

/-- The name of a staging database: `[a-z_][a-z0-9_]{0,62}`. -/
def isDatabaseName (name : String) : Bool :=
  match name.toList with
  | [] => false
  | first :: rest => (('a' ≤ first && first ≤ 'z') || first == '_') && rest.length ≤ 62 &&
      rest.all fun c => ('a' ≤ c && c ≤ 'z') || ('0' ≤ c && c ≤ '9') || c == '_'

/-- What `_marker` checks of a value. -/
def Marker.valid (value : Marker) : Bool :=
  isIdentifier value.requestId && isIdentifier value.restoreId &&
    value.pendingDir == pendingPrefix ++ value.requestId &&
    value.oldEntries.length ≤ maxTopLevelEntries && value.newEntries.length ≤ maxTopLevelEntries &&
    decide value.oldEntries.Nodup && decide value.newEntries.Nodup &&
    (value.oldEntries ++ value.newEntries).all entryName &&
    (match value.databaseEngine with
      | .sqlite => value.stageDatabase == "" &&
          value.phase != .databaseOldRenamed && value.phase != .databaseActivated
      | .postgresql => isDatabaseName value.stageDatabase)

variable {E D : Type}

def failed : String := "restore_prepare_failed"

/-- `_marker`. -/
def readMarker (host : RestoreHost E) (s : RestoreState E D) : Except String (Option Marker) :=
  match s.root.lookup activationMarker with
  | none => .ok none
  | some (.marker value none) =>
    if 1 < host.markerBytes value ∧ host.markerBytes value ≤ maxMarkerBytes ∧ value.valid then .ok (some value)
    else .error failed
  | some _ => .error failed

namespace RestoreState

def withRoot (s : RestoreState E D) (root : Directory (Node E)) : RestoreState E D :=
  { s with root := root }

/-- The creation of a temporary file. -/
def createTemporary (s : RestoreState E D) : RestoreState E D :=
  { s with root := s.root.insert (.temporary s.serial) (.entry .temporary), serial := s.serial + 1 }

/-- `os.unlink` of a temporary file, which may be the second name of the marker. -/
def unlinkTemporary (serial : Nat) (s : RestoreState E D) : RestoreState E D :=
  let root := s.root.erase (.temporary serial)
  match root.lookup activationMarker with
  | some (.marker value (some other)) =>
    if other = serial then s.withRoot (root.insert activationMarker (.marker value none)) else s.withRoot root
  | _ => s.withRoot root

/-- `os.replace` of the marker by a temporary file. -/
def replaceMarker (serial : Nat) (value : Marker) (s : RestoreState E D) : RestoreState E D :=
  s.withRoot ((s.root.erase (.temporary serial)).insert activationMarker (.marker value none))

/-- `os.link` of a temporary file to the marker. -/
def linkMarker (serial : Nat) (value : Marker) (s : RestoreState E D) : Except String (RestoreState E D) :=
  if (s.root.lookup activationMarker).isSome then .error failed
  else .ok (s.withRoot (s.root.insert activationMarker (.marker value (some serial))))

/-- `ALTER DATABASE … RENAME TO …`. -/
def renameDatabase (source target : String) (s : RestoreState E D) : Except String (RestoreState E D) :=
  match s.databases.lookup source, s.databases.lookup target with
  | some database, none =>
    .ok { s with databases := (s.databases.erase source).insert target database
                 renames := s.renames ++ [(source, target)] }
  | _, _ => .error failed

end RestoreState

open RestoreState

def atomicJson (value : Marker) (replace : Bool) (rest : Program (RestoreState E D)) : Program (RestoreState E D) :=
  .read fun s =>
    .step (write createTemporary) <|
    call <|
    .attempt
      (if replace then .step (write (replaceMarker s.serial value)) (call .done)
        else .step (linkMarker s.serial value) <| .step (write (unlinkTemporary s.serial)) <| call .done)
      (.step (write (unlinkTemporary s.serial)) .done)
      rest

/-- The databases among the three that exist. -/
structure DatabaseNames where
  current : Bool
  stage : Bool
  rollback : Bool
deriving DecidableEq, Repr

def databaseNames (current stage rollback : String) (s : RestoreState E D) : DatabaseNames where
  current := (s.databases.lookup current).isSome
  stage := (s.databases.lookup stage).isSome
  rollback := (s.databases.lookup rollback).isSome

/-- The name the old database gets, cut to the length of an identifier. -/
def rollbackDatabase (current requestId : String) : String :=
  let suffix := "_rollback_" ++ String.ofList ((requestId.toList.filter (· != '-')).take 16)
  String.ofList (current.toList.take (63 - suffix.toList.length)) ++ suffix

/-- The part of `_activate_postgres_database` that renames the staging database. -/
def renameStage (current stage rollback : String) (value : Marker) (rest : Marker → Program (RestoreState E D)) :
    Program (RestoreState E D) :=
  if value.phase = .databaseOldRenamed then
    .read fun s =>
      let activated := { value with phase := .databaseActivated }
      if databaseNames current stage rollback s = ⟨true, false, true⟩ then
        atomicJson activated true (rest activated)
      else if databaseNames current stage rollback s ≠ ⟨false, true, true⟩ then fail failed
      else
        call <|
        .step (renameDatabase stage current) <|
        atomicJson activated true (rest activated)
  else if value.phase = .databaseActivated then rest value
  else fail failed

def activatePostgresDatabase (host : RestoreHost E) (value : Marker) (rest : Marker → Program (RestoreState E D)) :
    Program (RestoreState E D) :=
  let current := host.currentDatabase
  let stage := value.stageDatabase
  let rollback := rollbackDatabase current value.requestId
  if current = "postgres" ∨ stage = current then fail failed
  else if value.phase = .prepared then
    .read fun s =>
      let renamed := { value with phase := .databaseOldRenamed }
      let activated := { value with phase := .databaseActivated }
      if databaseNames current stage rollback s = ⟨false, true, true⟩ then
        atomicJson renamed true (renameStage current stage rollback renamed rest)
      else if databaseNames current stage rollback s = ⟨true, false, true⟩ then
        atomicJson activated true (renameStage current stage rollback activated rest)
      else if databaseNames current stage rollback s ≠ ⟨true, true, false⟩ then fail failed
      else
        call <|
        .step (renameDatabase current rollback) <|
        atomicJson renamed true (renameStage current stage rollback renamed rest)
  else renameStage current stage rollback value rest

/-- The marker on the disk. -/
def recordedMarker (s : RestoreState E D) : Option Marker :=
  match s.root.lookup activationMarker with
  | some (.marker value _) => some value
  | _ => none

/-- The call of `_activate_postgres_database` with the recorded marker. -/
def resumeDatabase (host : RestoreHost E) : Program (RestoreState E D) :=
  .read fun s =>
    match recordedMarker s with
    | some value => activatePostgresDatabase host value fun _ => .done
    | none => fail failed

/-- `_safe_entries`. The entries of a rollback directory are not looked at. -/
def checkEntries {α : Type} (isDirectory : α → Bool) (directory : Directory α) (excluded : List EntryName)
    (preserveRollbacks : Bool) : List EntryName → Except String (List EntryName)
  | [] => .ok []
  | name :: rest =>
    if name ∈ excluded then checkEntries isDirectory directory excluded preserveRollbacks rest
    else
      match (if preserveRollbacks then rollbackOf name else none) with
      | some identifier =>
        if isIdentifier identifier && (directory.lookup name).any isDirectory then
          checkEntries isDirectory directory excluded preserveRollbacks rest
        else .error failed
      | none =>
        if !entryName name then .error failed
        else (checkEntries isDirectory directory excluded preserveRollbacks rest).map (name :: ·)

def safeEntries {α : Type} (isDirectory : α → Bool) (directory : Directory α) (excluded : List EntryName)
    (preserveRollbacks : Bool) : Except String (List EntryName) :=
  let names := sortNames directory.keys
  if names.length > maxTopLevelEntries then .error failed
  else checkEntries isDirectory directory excluded preserveRollbacks names

def Node.isDirectory : Node E → Bool
  | .directory _ => true
  | _ => false

namespace RestoreState

/-- The entries of a private directory of the state directory. -/
def directory? (s : RestoreState E D) (name : EntryName) : Option (Directory (Entry E)) :=
  match s.root.lookup name with
  | some (.directory entries) => some entries
  | _ => none

def eraseEntry (name : EntryName) (s : RestoreState E D) : RestoreState E D :=
  s.withRoot (s.root.erase name)

/-- `os.mkdir`, where a directory that exists is kept. -/
def makeDirectory (name : EntryName) (s : RestoreState E D) : RestoreState E D :=
  if (s.root.lookup name).isSome then s else s.withRoot (s.root.insert name (.directory ∅))

/-- The turn of `moving_old` for a name. Only entries are listed, never the
marker or a directory of the switch. -/
def moveOld (rollbackName name : EntryName) (s : RestoreState E D) : Except String (RestoreState E D) :=
  match s.directory? rollbackName with
  | none => .error failed
  | some entries =>
    match s.root.lookup name, entries.lookup name with
    | some (.entry entry), none =>
      .ok (s.withRoot ((s.root.erase name).insert rollbackName (.directory (entries.insert name entry))))
    | none, some _ => .ok s
    | _, _ => .error failed

/-- The turn of `moving_new` for a name. -/
def moveNew (pendingName name : EntryName) (s : RestoreState E D) : Except String (RestoreState E D) :=
  match s.root.lookup name, s.directory? pendingName with
  | none, some entries =>
    match entries.lookup name with
    | some entry =>
      .ok (s.withRoot ((s.root.insert name (.entry entry)).insert pendingName (.directory (entries.erase name))))
    | none => .error failed
  | some _, some entries => if (entries.lookup name).isSome then .error failed else .ok s
  | some _, none => .ok s
  | none, none => .error failed

/-- `os.rmdir`. -/
def removeDirectory (name : EntryName) (s : RestoreState E D) : Except String (RestoreState E D) :=
  match s.directory? name with
  | some entries => if entries.keys.isEmpty then .ok (s.eraseEntry name) else .error failed
  | none => .error failed

/-- The database that an abandoned directory names is dropped. -/
def dropStage (host : RestoreHost E) (name : EntryName) (s : RestoreState E D) : Except String (RestoreState E D) :=
  match s.directory? name with
  | none => .error failed
  | some entries =>
    match entries.lookup postgresRestoreMetadata with
    | none => .ok s
    | some metadata =>
      match host.stageOf metadata with
      | none => .error failed
      | some stage => .ok { s with databases := s.databases.erase stage }

/-- What an interrupted `shutil.rmtree` leaves of a directory. -/
def clearDirectory (name : EntryName) (s : RestoreState E D) : RestoreState E D :=
  s.withRoot (s.root.insert name (.directory ∅))

end RestoreState

/-- The loop of `_cleanup_orphan_restores`. -/
def removeOrphans (host : RestoreHost E) : List EntryName → Program (RestoreState E D)
  | [] => .done
  | name :: rest =>
    .step (dropStage host name) <|
    .step (write (clearDirectory name)) <|
    .step (write (eraseEntry name)) <|
    call <| removeOrphans host rest

def cleanupOrphanRestores (host : RestoreHost E) (preserve : List EntryName) (rest : Program (RestoreState E D)) :
    Program (RestoreState E D) :=
  .read fun s =>
    (removeOrphans host ((sortNames s.root.keys).filter fun name =>
      !preserve.contains name && orphanRestoreName name)).seq rest

/-- The pending directory may be missing only once its entries were moved. -/
def pendingOpens (value : Marker) (s : RestoreState E D) : Prop :=
  match s.root.lookup value.pendingName with
  | some node => node.isDirectory = true
  | none => value.phase = .movingNew ∨ value.phase = .activated

instance (value : Marker) : DecidablePred (pendingOpens (E := E) (D := D) value) := fun s => by
  unfold pendingOpens
  split <;> infer_instance

/-- The staging database that the pending directory names is the recorded one;
the file that names it is removed. -/
def dropMetadata (host : RestoreHost E) (value : Marker) (s : RestoreState E D) :
    Except String (RestoreState E D) :=
  match s.directory? value.pendingName with
  | none => .ok s
  | some entries =>
    match entries.lookup postgresRestoreMetadata with
    | none => .ok s
    | some metadata =>
      if value.databaseEngine = .postgresql ∧ value.phase.unswitched = true then
        if host.stageOf metadata = some value.stageDatabase then
          .ok (s.withRoot (s.root.insert value.pendingName (.directory (entries.erase postgresRestoreMetadata))))
        else .error failed
      else .ok s

/-- The entries that a restored directory must have. -/
def requiredEntries : DatabaseEngine → List EntryName
  | .sqlite => [.text ".open-node-restore.json", .text "restore.env", .text "open-node.db"]
  | .postgresql => [.text ".open-node-restore.json", .text "restore.env"]

/-- The lists of the switch are recorded before anything is moved. -/
def listEntries (value : Marker) (rest : Marker → Program (RestoreState E D)) : Program (RestoreState E D) :=
  if value.phase.unswitched then
    .read fun s =>
      match safeEntries Node.isDirectory s.root [activationMarker, value.pendingName, value.rollbackName] true,
        s.directory? value.pendingName with
      | .ok old, some pending =>
        match safeEntries (fun _ => false) pending [] false with
        | .ok new =>
          if (requiredEntries value.databaseEngine).all new.contains then
            atomicJson { value with oldEntries := old, newEntries := new } true
              (rest { value with oldEntries := old, newEntries := new })
          else fail failed
        | .error error => fail error
      | .error error, _ => fail error
      | _, none => fail failed
  else rest value

def moveOldEntries (value : Marker) (rest : Marker → Program (RestoreState E D)) : Program (RestoreState E D) :=
  if value.phase = .movingOld then
    (each (moveOld value.rollbackName) value.oldEntries).seq <|
    call <| call <|
    atomicJson { value with phase := .movingNew } true (rest { value with phase := .movingNew })
  else rest value

def removePending (value : Marker) (rest : Program (RestoreState E D)) : Program (RestoreState E D) :=
  .read fun s =>
    if (s.directory? value.pendingName).isSome then
      call <| .step (removeDirectory value.pendingName) rest
    else rest

def moveNewEntries (value : Marker) (rest : Marker → Program (RestoreState E D)) : Program (RestoreState E D) :=
  if value.phase = .movingNew then
    (each (moveNew value.pendingName) value.newEntries).seq <|
    removePending value <|
    call <|
    atomicJson { value with phase := .activated } true (rest { value with phase := .activated })
  else rest value

/-- The part of `activate_pending_restore` after the database. -/
def switchEntries (value : Marker) : Program (RestoreState E D) :=
  let moving (value : Marker) : Program (RestoreState E D) :=
    moveOldEntries value fun value =>
    moveNewEntries value fun value =>
      if value.phase = .activated then .step (write (eraseEntry activationMarker)) (call .done) else .done
  if value.phase = .prepared ∨ value.phase = .databaseActivated then
    atomicJson { value with phase := .movingOld } true (moving { value with phase := .movingOld })
  else moving value

def activatePendingRestore (host : RestoreHost E) : Program (RestoreState E D) :=
  .read fun s =>
    match readMarker host s with
    | .error error => fail error
    | .ok none => cleanupOrphanRestores host [] .done
    | .ok (some value) =>
      cleanupOrphanRestores host [value.pendingName] <|
      .step (check (pendingOpens value) failed) <|
      .step (dropMetadata host value) <|
      .step (write (makeDirectory value.rollbackName)) <|
      call <|
      .step (check (fun s => (s.directory? value.rollbackName).isSome = true) failed) <|
      listEntries value fun value =>
        if value.databaseEngine = .postgresql ∧ value.phase.unswitched then
          activatePostgresDatabase host value switchEntries
        else switchEntries value

/-- The end of `prepare`: the marker is published, and when that fails the
pending directory is discarded. -/
def publishMarker (value : Marker) : Program (RestoreState E D) :=
  .attempt (atomicJson value false .done)
    (.step (write (clearDirectory value.pendingName)) <| .step (write (eraseEntry value.pendingName)) .done)
    .done

theorem lookup_createTemporary (s : RestoreState E D) (name : String) :
    (createTemporary s).root.lookup (.text name) = s.root.lookup (.text name) :=
  AList.lookup_insert_ne (by simp)

theorem unlinkTemporary_databases (serial : Nat) (s : RestoreState E D) :
    (unlinkTemporary serial s).databases = s.databases ∧ (unlinkTemporary serial s).renames = s.renames := by
  unfold unlinkTemporary
  dsimp only
  split
  · split <;> exact ⟨rfl, rfl⟩
  · exact ⟨rfl, rfl⟩

theorem unlinkTemporary_single {serial : Nat} {s : RestoreState E D} {value : Marker}
    (single : s.root.lookup activationMarker = some (.marker value none)) :
    unlinkTemporary serial s = s.withRoot (s.root.erase (.temporary serial)) := by
  have same : (s.root.erase (.temporary serial)).lookup activationMarker = some (.marker value none) :=
    (AList.lookup_erase_ne (by simp [activationMarker])).trans single
  unfold unlinkTemporary
  dsimp only
  rw [same]

section AtomicJson

variable {C P M Q : RestoreState E D → Prop} {value : Marker} {rest : Program (RestoreState E D)}

theorem atomicJson_safe (start : ∀ s, P s → C s) (created : ∀ s, P s → C (createTemporary s))
    (undone : ∀ s, P s → C (unlinkTemporary s.serial (createTemporary s)))
    (replaced : ∀ s, P s → M (replaceMarker s.serial value (createTemporary s)))
    (settled : ∀ s, P s → C (unlinkTemporary s.serial (replaceMarker s.serial value (createTemporary s))))
    (next : Safe C M rest Q) : Safe C P (atomicJson value true rest) Q := by
  refine .read fun s before => ?_
  have here : ∀ t, t = s → C t := fun _ same => same ▸ start s before
  have made : ∀ t, t = createTemporary s → C t := fun _ same => same ▸ created s before
  have after : M (replaceMarker s.serial value (createTemporary s)) := replaced s before
  refine .write (M := (· = createTemporary s)) here (fun t same => same ▸ rfl) (.call made ?_)
  refine .attempt (M := M) (B := fun t => t = createTemporary s ∨
    t = replaceMarker s.serial value (createTemporary s))
    (R := fun _ => True) ?_ ?_ next
  · rw [if_pos rfl]
    refine .write (M := (· = replaceMarker s.serial value (createTemporary s))) (fun _ => .inl)
      (fun t same => same ▸ rfl) (.call (fun _ => .inr) ?_)
    exact .done (fun _ => .inr) fun _ same => same ▸ after
  · refine .write (M := C) ?_ ?_ (.done (fun _ => id) fun _ _ => trivial)
    · rintro t (rfl | rfl)
      · exact made _ rfl
      · exact next.start _ after
    · rintro t (rfl | rfl)
      · exact undone s before
      · exact settled s before

theorem atomicJson_completes (replaced : ∀ s, P s → M (replaceMarker s.serial value (createTemporary s)))
    (next : Completes M rest Q) : Completes P (atomicJson value true rest) Q := by
  refine .read fun s before => ?_
  refine .write (M := (· = createTemporary s)) (fun t same => same ▸ rfl) (.call ?_)
  intro t same
  rw [run_attempt]
  exact next _ (same ▸ replaced s before)

theorem atomicJson_resumes (start : ∀ s, P s → C s) (created : ∀ s, P s → C (createTemporary s))
    (undone : ∀ s, P s → C (unlinkTemporary s.serial (createTemporary s)))
    (replaced : ∀ s, P s → M (replaceMarker s.serial value (createTemporary s)))
    (settled : ∀ s, P s → C (unlinkTemporary s.serial (replaceMarker s.serial value (createTemporary s))))
    (next : Resumes C M rest Q) : Resumes C P (atomicJson value true rest) Q :=
  ⟨atomicJson_safe start created undone replaced settled next.safe, atomicJson_completes replaced next.completes⟩

end AtomicJson

end OpenNode.Restore
