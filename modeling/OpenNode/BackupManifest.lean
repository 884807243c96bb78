import OpenNode.Json
import OpenNode.Lib.Calendar
import OpenNode.Lib.Loops
import OpenNode.Lib.PrefixOrder

namespace OpenNode.BackupManifest

open List Loops PrefixOrder

/-- The Unicode tables that a path is checked with, and the normal form `NFC`. -/
structure UnicodeData where
  category : Char → String
  nfc : String → String
  space : Char → Bool

/-- `raw.decode`, and `json.loads` with hooks that refuse a repeated key, a float and
a constant. -/
structure Reader where
  decode : List UInt8 → Option String
  loads : String → Option Json

inductive FileRole where
  | database
  | certificateState
  | externalState
  | federationState
  | notificationState
  | agentIdentity
deriving DecidableEq, Repr

inductive CoverageStatus where
  | included
  | notConfigured
  | unknown
deriving DecidableEq, Repr

inductive Engine where
  | sqlite
  | postgresql
deriving DecidableEq, Repr

structure FileEntry where
  path : String
  role : FileRole
  size : Nat
  sha256 : String
deriving DecidableEq

structure Source where
  gitRevision : Option String
  imageId : Option String
  imageRevision : Option String

/-- The layout follows the engine. -/
structure Database where
  engine : Engine
  schemaFingerprint : Option String

structure Coverage where
  certificates : CoverageStatus
  externalSubscriptions : CoverageStatus
  notifications : CoverageStatus
  agentIdentity : CoverageStatus
  federation : CoverageStatus

structure Manifest where
  createdAt : String
  source : Source
  database : Database
  coverage : Coverage
  requiredConfiguration : List String
  files : List FileEntry

def maxManifestBytes : Nat := 1024 * 1024
def maxFiles : Nat := 4096
def maxFileBytes : Nat := 1024 * 1024 * 1024
def maxTotalFileBytes : Nat := 1024 * 1024 * 1024
def maxPathBytes : Nat := 1024
def maxComponentBytes : Nat := 255
def maxJsonDepth : Nat := 12
def maxJsonNodes : Nat := 80000

def certificateKeys : List String := ["data/certificates/vault.key", "data/certificates/vault.initialized"]
def externalKeys : List String :=
  ["data/external-subscriptions/vault.key", "data/external-subscriptions/vault.initialized"]
def federationKeys : List String := ["data/federation/vault.key", "data/federation/vault.initialized"]
def notificationKeys : List String := ["data/notifications/telegram.key", "data/notifications/telegram.initialized"]
def identityFiles : List String := ["secrets/agent-identity.seed"]

/-- `path.split("/")`. -/
def components (path : String) : List (List Char) :=
  path.toList.splitOn '/'

section

variable (unicode : UnicodeData)

def strip (text : List Char) : List Char :=
  (text.dropWhile unicode.space).rdropWhile unicode.space

def validComponent (component : List Char) : Bool :=
  component ≠ [] && component ≠ ['.'] && component ≠ ['.', '.'] && strip unicode component = component &&
    component.getLast? ≠ some '.' && (String.ofList component).utf8ByteSize ≤ maxComponentBytes

/-- `validate_backup_path`. -/
def validPath (path : String) : Bool :=
  path ≠ "" && !path.toList.any (fun c => c = '\\' || c = ':') &&
    !path.toList.any (fun c => ["Cc", "Cf", "Cs", "Zl", "Zp"].contains (unicode.category c)) &&
    path.utf8ByteSize ≤ maxPathBytes && unicode.nfc path = path && (components path).all (validComponent unicode)

/-- The depth of the containers of a JSON text, where brackets in strings do not count. -/
structure DepthState where
  depth : Nat
  inString : Bool
  escaped : Bool

def depthStep (state : DepthState) (c : Char) : Option DepthState :=
  if state.inString then
    if state.escaped then some { state with escaped := false }
    else if c = '\\' then some { state with escaped := true }
    else if c = '"' then some { state with inString := false }
    else some state
  else if c = '"' then some { state with inString := true }
  else if c = '[' ∨ c = '\x7b' then
    if maxJsonDepth < state.depth + 1 then none else some { state with depth := state.depth + 1 }
  else if c = ']' ∨ c = '\x7d' then
    if state.depth = 0 then none else some { state with depth := state.depth - 1 }
  else some state

def checkJsonDepth (text : String) : Bool :=
  match text.toList.foldlM depthStep { depth := 0, inString := false, escaped := false } with
  | some state => !state.inString && state.depth = 0
  | none => false

/-- A text without control characters. -/
def cleanText (text : String) : Bool :=
  !text.toList.any fun c => ["Cc", "Cs"].contains (unicode.category c)

mutual

/-- The nodes of a value, or nothing where one of its texts is not clean. -/
def treeNodes : Json → Option Nat
  | .obj fields => do
    let inner ← fieldNodes fields
    some (inner + 1)
  | .arr items => do
    let inner ← itemNodes items
    some (inner + 1)
  | .str text => if cleanText unicode text then some 1 else none
  | _ => some 1

def itemNodes : List Json → Option Nat
  | [] => some 0
  | item :: rest => do
    let first ← treeNodes item
    let others ← itemNodes rest
    some (first + others)

def fieldNodes : List (String × Json) → Option Nat
  | [] => some 0
  | (key, value) :: rest =>
    if cleanText unicode key then do
      let first ← treeNodes value
      let others ← fieldNodes rest
      some (first + others)
    else none

end

def checkJsonTree (value : Json) : Bool :=
  (treeNodes unicode value).any (· ≤ maxJsonNodes)

/-- Lower-case hexadecimal digits of this number. -/
def isHex (digits : Nat) (text : List Char) : Bool :=
  text.length = digits && text.all fun c => c.isDigit || ('a' ≤ c && c ≤ 'f')

/-- `_hex` that may be null. -/
def hexOrNull (form : String → Bool) : Json → Option (Option String)
  | .null => some none
  | .str text => if form text then some (some text) else none
  | _ => none

def isImageId (text : String) : Bool :=
  match text.toList with
  | 's' :: 'h' :: 'a' :: '2' :: '5' :: '6' :: ':' :: rest => isHex 64 rest
  | _ => false

/-- `_source`. -/
def readSource (value : Json) : Option Source :=
  if !value.hasExactly ["git_revision", "image_id", "image_revision"] then none
  else do
    let git ← hexOrNull (fun text => isHex 40 text.toList) (value.get "git_revision")
    let image ← hexOrNull isImageId (value.get "image_id")
    let revision ← hexOrNull (fun text => isHex 40 text.toList) (value.get "image_revision")
    if git.isSome && revision.isSome && git ≠ revision then none
    else some { gitRevision := git, imageId := image, imageRevision := revision }

def readEngine (value : Json) : Option Engine :=
  match value.get "engine", value.get "layout" with
  | .str "sqlite", .str "standalone" => some .sqlite
  | .str "postgresql", .str "custom_dump" => some .postgresql
  | _, _ => none

/-- `_database`. -/
def readDatabase (value : Json) : Option Database :=
  if !value.hasExactly ["engine", "layout", "schema_fingerprint"] then none
  else do
    let engine ← readEngine value
    let fingerprint ← hexOrNull (fun text => isHex 64 text.toList) (value.get "schema_fingerprint")
    some { engine := engine, schemaFingerprint := fingerprint }

def readStatus : Json → Option CoverageStatus
  | .str "included" => some .included
  | .str "not_configured" => some .notConfigured
  | .str "unknown" => some .unknown
  | _ => none

/-- `_coverage`. -/
def readCoverage (value : Json) : Option Coverage :=
  if !value.hasExactly ["certificates", "external_subscriptions", "notifications", "agent_identity",
    "federation"] then none
  else do
    let certificates ← readStatus (value.get "certificates")
    let externalSubscriptions ← readStatus (value.get "external_subscriptions")
    let notifications ← readStatus (value.get "notifications")
    let agentIdentity ← readStatus (value.get "agent_identity")
    let federation ← readStatus (value.get "federation")
    some {
      certificates := certificates, externalSubscriptions := externalSubscriptions, notifications := notifications,
      agentIdentity := agentIdentity, federation := federation }

/-- `_configuration`. -/
def readConfiguration (value : Json) : Option (List String) := do
  let items ← value.items?
  let names ← items.mapM Json.str?
  if names.all (["deployment_settings", "subscriber_totp_key"].contains ·) && names.Nodup &&
    names.contains "deployment_settings"
    then some names else none

def readRole : Json → Option FileRole
  | .str "database" => some .database
  | .str "certificate_state" => some .certificateState
  | .str "external_state" => some .externalState
  | .str "federation_state" => some .federationState
  | .str "notification_state" => some .notificationState
  | .str "agent_identity" => some .agentIdentity
  | _ => none

/-- The path of the database file. -/
def Engine.path : Engine → String
  | .sqlite => "data/open-node.db"
  | .postgresql => "database/postgres.dump"

def rolePath (engine : Engine) (role : FileRole) (path : String) : Bool :=
  match role with
  | .database => path = engine.path
  | .certificateState => "data/certificates/".toList.isPrefixOf path.toList
  | .externalState => externalKeys.contains path
  | .federationState => federationKeys.contains path
  | .notificationState => notificationKeys.contains path
  | .agentIdentity => identityFiles.contains path

/-- A file of the manifest on its own. -/
def readFile (engine : Engine) (value : Json) : Option FileEntry :=
  if !value.hasExactly ["path", "role", "size", "sha256"] then none
  else
    match value.get "path", readRole (value.get "role"), value.get "size", value.get "sha256" with
    | .str path, some role, .int size, .str sha256 =>
      if validPath unicode path && 0 ≤ size && size ≤ maxFileBytes && rolePath engine role path &&
        isHex 64 sha256.toList then
        some { path := path, role := role, size := size.toNat, sha256 := sha256 }
      else none
    | _, _, _, _ => none

/-- The loop of `_files`. -/
def addFile (engine : Engine) (state : List FileEntry × Nat) (value : Json) : Option (List FileEntry × Nat) := do
  let file ← readFile unicode engine value
  if (state.1.map FileEntry.path).contains file.path then none
  else if maxTotalFileBytes < state.2 + file.size then none
  else some (state.1 ++ [file], state.2 + file.size)

def charLe (a b : Char) : Bool :=
  a.toNat ≤ b.toNat

/-- The test of neighbours among the paths, sorted by their components. -/
def pathsApart (paths : List String) : Bool :=
  apart (sort (lexLe charLe) (paths.map components))

def pathsOf (role : FileRole) (files : List FileEntry) : List String :=
  (files.filter fun file => file.role = role).map FileEntry.path

/-- The files of a role that its coverage allows. -/
def roleCovered (status : CoverageStatus) (role : FileRole) (required : List String)
    (files : List FileEntry) : Bool :=
  let present := pathsOf role files
  if status ≠ .included then present.isEmpty
  else required.all (present.contains ·) && (role = .certificateState || present.all (required.contains ·))

/-- The parts of a coverage with their roles and the files that each asks for. -/
def Coverage.parts (coverage : Coverage) : List (CoverageStatus × FileRole × List String) :=
  [(coverage.certificates, .certificateState, certificateKeys),
   (coverage.externalSubscriptions, .externalState, externalKeys),
   (coverage.federation, .federationState, federationKeys),
   (coverage.notifications, .notificationState, notificationKeys),
   (coverage.agentIdentity, .agentIdentity, identityFiles)]

/-- The roles at the end of `_files`. -/
def rolesCovered (coverage : Coverage) (database : Database) (files : List FileEntry) : Bool :=
  let databases := pathsOf .database files
  databases ≠ [] && databases.all (· = database.engine.path) &&
    coverage.parts.all fun (status, role, required) => roleCovered status role required files

/-- `_files`. -/
def readFiles (value : Json) (coverage : Coverage) (database : Database) : Option (List FileEntry) := do
  let items ← value.items?
  if items.length < 1 ∨ maxFiles < items.length then none
  else do
    let state ← items.foldlM (addFile unicode database.engine) ([], 0)
    if pathsApart (state.1.map FileEntry.path) && rolesCovered coverage database state.1 then some state.1 else none

def number (digits : List Char) : Nat :=
  Nat.ofDigitChars 10 digits 0

/-- A time in the form of `_UTC_SECONDS` that a `datetime` can hold. -/
def isUtcSeconds (text : String) : Bool :=
  match text.toList with
  | [y1, y2, y3, y4, '-', m1, m2, '-', d1, d2, 'T', h1, h2, ':', n1, n2, ':', s1, s2, 'Z'] =>
    [y1, y2, y3, y4, m1, m2, d1, d2, h1, h2, n1, n2, s1, s2].all Char.isDigit &&
      let year := number [y1, y2, y3, y4]
      let month := number [m1, m2]
      let day := number [d1, d2]
      1 ≤ year && 1 ≤ month && month ≤ 12 && 1 ≤ day && day ≤ Calendar.monthLength (12 * year + (month - 1)) &&
        number [h1, h2] ≤ 23 && number [n1, n2] ≤ 59 && number [s1, s2] ≤ 59
  | _ => false

def readManifest (value : Json) : Option Manifest :=
  if !value.hasExactly ["format", "version", "created_at", "source", "database", "coverage",
    "required_configuration", "files"]
  then none
  else
    match value.get "format", value.get "version", value.get "created_at" with
    | .str "open-node-control-plane-backup", .int 1, .str created =>
      if !isUtcSeconds created then none
      else do
        let coverage ← readCoverage (value.get "coverage")
        let database ← readDatabase (value.get "database")
        let source ← readSource (value.get "source")
        let configuration ← readConfiguration (value.get "required_configuration")
        let files ← readFiles unicode (value.get "files") coverage database
        some { createdAt := created, source := source, database := database, coverage := coverage,
               requiredConfiguration := configuration, files := files }
    | _, _, _ => none

def parseBackupManifest (reader : Reader) (raw : List UInt8) : Option Manifest :=
  if raw = [] ∨ maxManifestBytes < raw.length then none
  else do
    let text ← reader.decode raw
    if !checkJsonDepth text then none
    else do
      let value ← reader.loads text
      if !checkJsonTree unicode value then none else readManifest unicode value

end

theorem charLe_isOrder : IsOrder charLe where
  trans a b c first second := by
    rw [charLe, decide_eq_true_eq] at *
    exact first.trans second
  total a b := by
    rw [charLe, charLe, Bool.or_eq_true, decide_eq_true_eq, decide_eq_true_eq]
    exact Nat.le_total a.toNat b.toNat
  antisymm a b low back := by
    rw [charLe, decide_eq_true_eq] at low back
    exact Char.ext (UInt32.toNat_inj.mp (Nat.le_antisymm low back))

theorem pathsApart_iff (paths : List String) :
    pathsApart paths = true ↔ paths.Pairwise fun a b => ¬ components a <+: components b ∧
      ¬ components b <+: components a := by
  rw [pathsApart, charLe_isOrder.lex.unrelated_sort, Unrelated, pairwise_map]

section

variable {unicode : UnicodeData} {engine : Engine}

variable {after : List FileEntry × Nat} {value : Json}

theorem addFile_eq_some {state : List FileEntry × Nat} : addFile unicode engine state value = some after ↔
      ∃ file, readFile unicode engine value = some file ∧ file.path ∉ state.1.map FileEntry.path ∧
        state.2 + file.size ≤ maxTotalFileBytes ∧ after = (state.1 ++ [file], state.2 + file.size) := by
  rw [addFile, Option.bind_eq_bind, Option.bind_eq_some_iff]
  refine exists_congr fun file => and_congr_right fun _ => ?_
  by_cases known : file.path ∈ state.1.map FileEntry.path
  · rw [if_pos (List.contains_iff_mem.mpr known)]
    exact iff_of_false nofun fun all => all.1 known
  · rw [if_neg fun held => known (List.contains_iff_mem.mp held)]
    by_cases large : maxTotalFileBytes < state.2 + file.size
    · rw [if_pos large]
      exact iff_of_false nofun fun all => absurd all.2.1 (Nat.not_le.mpr large)
    · rw [if_neg large, Option.some.injEq]
      exact ⟨fun same => ⟨known, Nat.not_lt.mp large, same.symm⟩, fun all => all.2.2.symm⟩

/-- The sizes of files together. -/
def totalSize (files : List FileEntry) : Nat :=
  (files.map FileEntry.size).sum

variable {items : List Json} {files : List FileEntry}

theorem foldlM_addFile {total : Nat} (distinct : (files.map FileEntry.path).Nodup)
    (small : total ≤ maxTotalFileBytes) :
    items.foldlM (addFile unicode engine) (files, total) = some after ↔
      ∃ added, List.Forall₂ (fun value file => readFile unicode engine value = some file) items added ∧
        ((files ++ added).map FileEntry.path).Nodup ∧ total + totalSize added ≤ maxTotalFileBytes ∧
        after = (files ++ added, total + totalSize added) := by
  induction items generalizing files total with
  | nil =>
    rw [foldlM_nil, Option.pure_def, Option.some.injEq]
    constructor
    · intro same
      exact ⟨[], .nil, by rwa [append_nil], small, by rw [← same, append_nil]; rfl⟩
    · rintro ⟨added, all, -, -, rfl⟩
      cases all
      rw [append_nil]
      rfl
  | cons value rest ih =>
    rw [foldlM_cons, Option.bind_eq_bind, Option.bind_eq_some_iff]
    constructor
    · rintro ⟨middle, first, others⟩
      obtain ⟨file, read, fresh, fits, rfl⟩ := addFile_eq_some.mp first
      have kept : ((files ++ [file]).map FileEntry.path).Nodup := by
        rw [map_append, nodup_append]
        refine ⟨distinct, pairwise_singleton _ _, fun p member q single same => ?_⟩
        rw [map_singleton, mem_singleton] at single
        exact fresh (single ▸ same ▸ member)
      obtain ⟨added, all, apart, bound, rfl⟩ := (ih kept fits).mp others
      have sum : total + totalSize (file :: added) = total + file.size + totalSize added := by
        simp only [totalSize, map_cons, sum_cons]
        omega
      refine ⟨file :: added, .cons read all, ?_, sum ▸ bound, ?_⟩
      · rwa [append_cons]
      · rw [sum, ← append_cons]
    · rintro ⟨added, all, apart, bound, rfl⟩
      cases all with
      | @cons _ file _ added read all =>
        have sum : total + totalSize (file :: added) = total + file.size + totalSize added := by
          simp only [totalSize, map_cons, sum_cons]
          omega
        rw [sum] at bound
        rw [append_cons] at apart
        have kept : ((files ++ [file]).map FileEntry.path).Nodup := by
          rw [map_append] at apart
          exact (List.nodup_append.mp apart).1
        have fresh : file.path ∉ files.map FileEntry.path := by
          rw [map_append, nodup_append] at kept
          exact fun member => kept.2.2 _ member _ mem_cons_self rfl
        have fits : total + file.size ≤ maxTotalFileBytes := by omega
        refine ⟨_, addFile_eq_some.mpr ⟨file, read, fresh, fits, rfl⟩,
          (ih kept fits).mpr ⟨added, all, apart, bound, ?_⟩⟩
        rw [sum, ← append_cons]

theorem collected : items.foldlM (addFile unicode engine) ([], 0) = some after ↔
      ∃ added, List.Forall₂ (fun value file => readFile unicode engine value = some file) items added ∧
        (added.map FileEntry.path).Nodup ∧ totalSize added ≤ maxTotalFileBytes ∧
          after = (added, totalSize added) := by
  have distinct : (([] : List FileEntry).map FileEntry.path).Nodup := nodup_nil
  rw [foldlM_addFile distinct (Nat.zero_le _)]
  simp only [nil_append, Nat.zero_add]

/-- A file list that is well-formed in its files one by one and as a whole, but for the
relation of the paths. -/
structure WellFormed (unicode : UnicodeData) (coverage : Coverage) (database : Database) (items : List Json)
    (files : List FileEntry) : Prop where
  nonempty : 1 ≤ items.length
  few : items.length ≤ maxFiles
  each : List.Forall₂ (fun value file => readFile unicode database.engine value = some file) items files
  small : totalSize files ≤ maxTotalFileBytes
  covered : rolesCovered coverage database files = true

/-- Neither path is the other or is above it. -/
def Apart (a b : String) : Prop :=
  ¬ components a <+: components b ∧ ¬ components b <+: components a

theorem Apart.ne {a b : String} (apart : Apart a b) : a ≠ b := fun same =>
  apart.1 (same ▸ prefix_rfl)

theorem readings_unique {others : List FileEntry}
    (first : List.Forall₂ (fun value file => readFile unicode engine value = some file) items files)
    (second : List.Forall₂ (fun value file => readFile unicode engine value = some file) items others) :
    files = others := by
  induction first generalizing others with
  | nil =>
    cases second
    rfl
  | cons read _ ih =>
    cases second with
    | cons again rest => rw [Option.some.inj (read.symm.trans again), ih rest]

variable {coverage : Coverage} {database : Database}

theorem readFiles_eq_some : readFiles unicode value coverage database = some files ↔
      ∃ items, value.items? = some items ∧ WellFormed unicode coverage database items files ∧
        (files.map FileEntry.path).Pairwise Apart := by
  rw [readFiles, Option.bind_eq_bind, Option.bind_eq_some_iff]
  refine exists_congr fun items => and_congr_right fun _ => ?_
  by_cases size : items.length < 1 ∨ maxFiles < items.length
  · rw [if_pos size]
    refine iff_of_false nofun fun all => ?_
    have low := all.1.nonempty
    have high := all.1.few
    omega
  rw [if_neg size, Option.bind_eq_bind, Option.bind_eq_some_iff]
  constructor
  · rintro ⟨after, run, rest⟩
    obtain ⟨added, each, -, small, rfl⟩ := collected.mp run
    by_cases accepted : (pathsApart (added.map FileEntry.path) && rolesCovered coverage database added) = true
    · rw [if_pos accepted, Option.some.injEq] at rest
      rw [Bool.and_eq_true, pathsApart_iff] at accepted
      rw [← rest]
      exact ⟨⟨by omega, by omega, each, small, accepted.2⟩, accepted.1⟩
    · rw [if_neg accepted] at rest
      cases rest
  · rintro ⟨formed, apart⟩
    have distinct : (files.map FileEntry.path).Nodup := apart.imp Apart.ne
    refine ⟨(files, totalSize files), collected.mpr ⟨files, formed.each, distinct, formed.small, rfl⟩, ?_⟩
    rw [if_pos]
    rw [Bool.and_eq_true, pathsApart_iff]
    exact ⟨apart, formed.covered⟩

/-- Two files of which one has the path of the other or lies below it. -/
def Conflict (paths : List String) : Prop :=
  ∃ i j : Nat, ∃ a b, i < j ∧ paths[i]? = some a ∧ paths[j]? = some b ∧
    (components a <+: components b ∨ components b <+: components a)

variable {paths : List String}

theorem conflict_iff : Conflict paths ↔ ¬ paths.Pairwise Apart := by
  rw [pairwise_iff_getElem]
  constructor
  · rintro ⟨i, j, a, b, before, left, right, related⟩ apart
    obtain ⟨inside, rfl⟩ := List.getElem?_eq_some_iff.mp left
    obtain ⟨within, rfl⟩ := List.getElem?_eq_some_iff.mp right
    have pair := apart i j inside within before
    exact related.elim pair.1 pair.2
  · intro broken
    by_contra none
    refine broken fun i j inside within before => ⟨fun above => none ?_, fun above => none ?_⟩
    · exact ⟨i, j, _, _, before, List.getElem?_eq_getElem inside, List.getElem?_eq_getElem within, .inl above⟩
    · exact ⟨i, j, _, _, before, List.getElem?_eq_getElem inside, List.getElem?_eq_getElem within, .inr above⟩

theorem pathsApart_eq_false : pathsApart paths = false ↔ Conflict paths := by
  rw [conflict_iff, ← Bool.not_eq_true, pathsApart_iff]
  rfl

/-- A name that sorts between a directory and a file in it does not hide the pair. -/
example : pathsApart ["a", "a-other", "a/child"] = false :=
  pathsApart_eq_false.mpr ⟨0, 2, "a", "a/child", by decide, rfl, rfl, .inl ⟨[['c', 'h', 'i', 'l', 'd']], by decide⟩⟩

theorem WellFormed.readFiles_eq_none (list : value.items? = some items)
    (formed : WellFormed unicode coverage database items files) :
    readFiles unicode value coverage database = none ↔ Conflict (files.map FileEntry.path) := by
  rw [conflict_iff, Option.eq_none_iff_forall_not_mem]
  constructor
  · exact fun refused apart => refused files (readFiles_eq_some.mpr ⟨items, list, formed, apart⟩)
  · intro broken others accepted
    obtain ⟨same, listed, other, apart⟩ := readFiles_eq_some.mp accepted
    obtain rfl : items = same := Option.some.inj (list.symm.trans listed)
    obtain rfl : files = others := readings_unique formed.each other.each
    exact broken apart

/-- The files of a role are exactly the ones that its status allows. -/
def Allowed (status : CoverageStatus) (role : FileRole) (required : List String) (files : List FileEntry) : Prop :=
  if status = .included then
    (∀ key ∈ required, key ∈ pathsOf role files) ∧
      (role ≠ .certificateState → ∀ path ∈ pathsOf role files, path ∈ required)
  else pathsOf role files = []

variable {role : FileRole}

theorem allowed_of_roleCovered {status : CoverageStatus} {required : List String}
    (covered : roleCovered status role required files = true) : Allowed status role required files := by
  rw [roleCovered] at covered
  rw [Allowed]
  by_cases included : status = .included
  · rw [if_neg (not_not.mpr included), Bool.and_eq_true, Bool.or_eq_true, all_eq_true, all_eq_true,
      decide_eq_true_eq] at covered
    rw [if_pos included]
    refine ⟨fun key asked => List.contains_iff_mem.mp (covered.1 key asked), fun other path present => ?_⟩
    exact List.contains_iff_mem.mp (covered.2.resolve_left other path present)
  · rw [if_pos included, List.isEmpty_iff] at covered
    rw [if_neg included]
    exact covered

variable {path : String}

theorem eq_singleton (distinct : paths.Nodup) (nonempty : paths ≠ []) (all : ∀ other ∈ paths, other = path) :
    paths = [path] := by
  cases paths with
  | nil => exact absurd rfl nonempty
  | cons first rest =>
    have head : first = path := all first mem_cons_self
    cases rest with
    | nil => rw [head]
    | cons second rest =>
      have next : second = path := all second (mem_cons_of_mem _ mem_cons_self)
      exact absurd (head.trans next.symm) ((List.nodup_cons.mp distinct).1 ∘ fun same => same ▸ mem_cons_self)

/-- What holds of the files of every manifest. -/
structure FilesLaw (coverage : Coverage) (database : Database) (files : List FileEntry) : Prop where
  apart : (files.map FileEntry.path).Pairwise Apart
  literal : ∀ file ∈ files, ∀ component ∈ components file.path, component ≠ [] ∧ component ≠ ['.'] ∧
    component ≠ ['.', '.']
  roles : ∀ part ∈ coverage.parts, Allowed part.1 part.2.1 part.2.2 files
  certificates : ∀ path ∈ pathsOf .certificateState files, "data/certificates/".toList <+: path.toList
  database : pathsOf .database files = [database.engine.path]

theorem validPath_components (valid : validPath unicode path = true) :
    ∀ component ∈ components path, component ≠ [] ∧ component ≠ ['.'] ∧ component ≠ ['.', '.'] := by
  intro component member
  rw [validPath, Bool.and_eq_true, all_eq_true] at valid
  have single := valid.2 component member
  simp only [validComponent, Bool.and_eq_true, decide_eq_true_eq] at single
  exact ⟨single.1.1.1.1.1, single.1.1.1.1.2, single.1.1.1.2⟩

theorem readFile_valid {file : FileEntry} (read : readFile unicode engine value = some file) :
    validPath unicode file.path = true ∧ rolePath engine file.role file.path = true := by
  rw [readFile] at read
  split at read
  · cases read
  · split at read
    · split at read
      · rename_i accepted
        simp only [Bool.and_eq_true] at accepted
        obtain rfl := Option.some.inj read
        exact ⟨accepted.1.1.1.1, accepted.1.2⟩
      · cases read
    · cases read

theorem mem_pathsOf : path ∈ pathsOf role files ↔ ∃ file ∈ files, file.role = role ∧ file.path = path := by
  simp only [pathsOf, mem_map, mem_filter, decide_eq_true_eq, and_assoc]

theorem WellFormed.law (formed : WellFormed unicode coverage database items files)
    (apart : (files.map FileEntry.path).Pairwise Apart) :
    FilesLaw coverage database files := by
  have each : ∀ file ∈ files, validPath unicode file.path = true ∧
      rolePath database.engine file.role file.path = true := by
    intro file member
    obtain ⟨value, -, read⟩ := forall₂_exists (List.Forall₂.flip formed.each) member
    exact readFile_valid read
  have covered := formed.covered
  simp only [rolesCovered, Bool.and_eq_true, decide_eq_true_eq, all_eq_true] at covered
  refine ⟨apart, fun file member => validPath_components (each file member).1,
    fun part member => allowed_of_roleCovered (covered.2 part member), fun path present => ?_, ?_⟩
  · obtain ⟨file, member, role, rfl⟩ := mem_pathsOf.mp present
    have allowed := (each file member).2
    rw [role] at allowed
    exact List.isPrefixOf_iff_prefix.mp allowed
  · have distinct : (pathsOf .database files).Nodup :=
      (apart.imp Apart.ne).sublist ((filter_sublist).map FileEntry.path)
    exact eq_singleton distinct covered.1.1 covered.1.2

variable {manifest : Manifest}

theorem readManifest_law (read : readManifest unicode value = some manifest) :
    FilesLaw manifest.coverage manifest.database manifest.files := by
  rw [readManifest] at read
  split at read
  · cases read
  split at read
  · split at read
    · cases read
    · simp only [Option.bind_eq_bind, Option.bind_eq_some_iff, Option.some.injEq] at read
      obtain ⟨coverage, -, database, -, source, -, configuration, -, files, listed, rfl⟩ := read
      obtain ⟨items, -, formed, apart⟩ := readFiles_eq_some.mp listed
      exact formed.law apart
  · cases read

theorem parseBackupManifest_law {reader : Reader} {raw : List UInt8}
    (accepted : parseBackupManifest unicode reader raw = some manifest) :
    FilesLaw manifest.coverage manifest.database manifest.files := by
  rw [parseBackupManifest] at accepted
  split at accepted
  · cases accepted
  obtain ⟨text, -, rest⟩ := Option.bind_eq_some_iff.mp accepted
  split at rest
  · cases rest
  obtain ⟨value, -, checked⟩ := Option.bind_eq_some_iff.mp rest
  split at checked
  · cases checked
  · exact readManifest_law checked

end

/-- The paths of an accepted manifest are unrelated and literal and its roles follow the
coverage, and a list of well-formed files is refused for its paths only where two of them
are related: the test of neighbours finds every such pair. -/
theorem backupPaths_law (unicode : UnicodeData) (reader : Reader) :
    (∀ raw manifest, parseBackupManifest unicode reader raw = some manifest →
      FilesLaw manifest.coverage manifest.database manifest.files) ∧
    (∀ value coverage database items files, value.items? = some items →
      WellFormed unicode coverage database items files →
      (readFiles unicode value coverage database = none ↔ Conflict (files.map FileEntry.path))) ∧
    ∀ paths, pathsApart paths = false ↔ Conflict paths :=
  ⟨fun _ _ => parseBackupManifest_law, fun _ _ _ _ _ list formed =>
    formed.readFiles_eq_none list, fun _ => pathsApart_eq_false⟩

section Example

def databaseFile : Json :=
  .obj [("path", .str "data/open-node.db"), ("role", .str "database"), ("size", .int 0),
    ("sha256", .str "e3b0c44298fc1c149afbf4c8996fb92427ae41e4649b934ca495991b7852b855")]

def databaseManifest : Json :=
  .obj [
    ("format", .str "open-node-control-plane-backup"), ("version", .int 1),
    ("created_at", .str "2026-01-01T00:00:00Z"), ("source", .obj [("git_revision", .null), ("image_id", .null),
    ("image_revision", .null)]), ("database", .obj [("engine", .str "sqlite"), ("layout", .str "standalone"),
    ("schema_fingerprint", .null)]), ("coverage", .obj [("certificates", .str "not_configured"),
    ("external_subscriptions", .str "not_configured"), ("notifications", .str "not_configured"),
    ("agent_identity", .str "not_configured"), ("federation", .str "not_configured")]),
    ("required_configuration", .arr [.str "deployment_settings"]),
    ("files", .arr [databaseFile])]

def databaseText : List Char :=
  "\x7b\"format\":\"open-node-control-plane-backup\",\"".toList ++
  "version\":1,\"created_at\":\"2026-01-01T00:00:00".toList ++
  "Z\",\"source\":\x7b\"git_revision\":null,\"image_id\":".toList ++
  "null,\"image_revision\":null\x7d,\"database\":\x7b\"eng".toList ++
  "ine\":\"sqlite\",\"layout\":\"standalone\",\"schema_".toList ++
  "fingerprint\":null\x7d,\"coverage\":\x7b\"certificates".toList ++
  "\":\"not_configured\",\"external_subscriptions\":".toList ++
  "\"not_configured\",\"notifications\":\"not_config".toList ++
  "ured\",\"agent_identity\":\"not_configured\",\"fed".toList ++
  "eration\":\"not_configured\"\x7d,\"required_configu".toList ++
  "ration\":[\"deployment_settings\"],\"files\":[\x7b\"p".toList ++
  "ath\":\"data/open-node.db\",\"role\":\"database\",\"".toList ++
  "size\":0,\"sha256\":\"e3b0c44298fc1c149afbf4c899".toList ++
  "6fb92427ae41e4649b934ca495991b7852b855\"\x7d]\x7d".toList

/-- A reader of one manifest. -/
def databaseReader : Reader where
  decode raw := some (String.ofList (raw.map fun byte => Char.ofNat byte.toNat))
  loads text := if text = String.ofList databaseText then some databaseManifest else none

def databaseRaw : List UInt8 :=
  databaseText.map fun c => UInt8.ofNat c.toNat

def plainData : UnicodeData where
  category _ := "Ll"
  nfc := id
  space c := c.isWhitespace

theorem databaseRaw_accepted : (parseBackupManifest plainData databaseReader databaseRaw).isSome = true := by
  have size : ¬ (databaseRaw = [] ∨ maxManifestBytes < databaseRaw.length) := by decide +kernel
  have text : databaseReader.decode databaseRaw = some (String.ofList databaseText) :=
    congrArg (some ∘ String.ofList) (by decide +kernel)
  have depth : checkJsonDepth (String.ofList databaseText) = true := by
    rw [checkJsonDepth, String.toList_ofList]
    decide +kernel
  have value : databaseReader.loads (String.ofList databaseText) = some databaseManifest := by
    simp only [databaseReader, if_true]
  have read : (readManifest plainData databaseManifest).isSome = true := by decide +kernel
  have tree : checkJsonTree plainData databaseManifest = true := by decide +kernel
  rw [parseBackupManifest, if_neg size, text, Option.bind_eq_bind, Option.bind_some, depth, Bool.not_true,
    if_neg Bool.false_ne_true, value, Option.bind_eq_bind, Option.bind_some, tree, Bool.not_true,
    if_neg Bool.false_ne_true]
  exact read

def uncovered : Coverage :=
  ⟨.notConfigured, .notConfigured, .notConfigured, .notConfigured, .notConfigured⟩

/-- A manifest with the database alone, and the list of its files. -/
theorem backupPaths_law_database :
    (∃ manifest, parseBackupManifest plainData databaseReader databaseRaw = some manifest ∧
      FilesLaw manifest.coverage manifest.database manifest.files) ∧
    (readFiles plainData (.arr [databaseFile]) uncovered ⟨.sqlite, none⟩ = none ↔
      Conflict ["data/open-node.db"]) := by
  obtain ⟨accepted, alone, -⟩ := backupPaths_law plainData databaseReader
  obtain ⟨manifest, done⟩ := Option.isSome_iff_exists.mp databaseRaw_accepted
  have formed : WellFormed plainData uncovered ⟨.sqlite, none⟩ [databaseFile] [⟨"data/open-node.db", .database, 0,
      "e3b0c44298fc1c149afbf4c8996fb92427ae41e4649b934ca495991b7852b855"⟩] :=
    ⟨by decide, by decide, .cons (by decide +kernel) .nil, by decide, by decide +kernel⟩
  exact ⟨⟨manifest, done, accepted _ manifest done⟩, alone (.arr [databaseFile]) _ _ _ _ rfl formed⟩

end Example

end OpenNode.BackupManifest
