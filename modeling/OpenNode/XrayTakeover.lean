import OpenNode.Json
import OpenNode.Lib.Interruption
import OpenNode.SecureChannel

namespace OpenNode.Agent

open Interruption Program

/-- The phases of a takeover; `pending` is the set `PENDING`. -/
inductive TakeoverPhase where
  | prepared
  | stopping
  | writing
  | activating
  | restoring
  | complete
  | rolledBack
deriving DecidableEq, Repr

def TakeoverPhase.pending : TakeoverPhase → Bool
  | .complete | .rolledBack => false
  | _ => true

def maxConfigBytes : Nat := 2 * 1024 * 1024

/-- `EMPTY`, the bytes of an empty object and a line feed. -/
def emptyObject : Bytes := [0x7b, 0x7d, 0x0a]

/-- What `inspect` reads of the unit: its identity, and the layout of its
configuration files, which `config_layout` has checked. -/
structure Binding where
  identity : String
  argv : List String
  files : List String
  target : String
  distinct : files.Nodup
  covers : target ∈ files

/-- The host: the unit, its configuration files and its running service. -/
structure Service where
  binding : Binding
  disk : String → Bytes
  running : Bool

/-- The state of a takeover as its journal keeps it, apart from the phase. -/
structure Takeover where
  target : String
  identity : String
  files : List (String × Bytes)
  merged : Bytes
  running : Bool
  desired : Bool
  distinct : (files.map Prod.fst).Nodup
  covers : target ∈ files.map Prod.fst

/-- The host, the journals and the memory of the agent. Two fields are about
the past: `edited` says that the host was changed from elsewhere since the last
takeover, and every start of the service adds the files it saw to `starts`. -/
structure TakeoverState where
  service : Service
  desiredRunning : Option Bool := none
  journal : Option (Takeover × TakeoverPhase) := none
  memory : Option (Takeover × TakeoverPhase) := none
  pendingTakeover : Bool := false
  edited : Bool := false
  starts : List (Takeover × List (String × Bytes)) := []

/-- What the takeover calls: the agent's settings, the native Xray core on the
files of a layout and on the candidate file, and the two encoders. -/
structure TakeoverHost (Config : Type) where
  enabled : Bool
  autoStart : Bool
  dump : (argv : List String) → List (String × Bytes) → Except String Config
  test : (argv : List String) → List (String × Bytes) → Bool
  candidate : Config → Except String Config
  encode : Config → Bytes
  isObject : Bytes → Bool
  digest : (identity : String) → List (String × Bytes) → Config → String

namespace Takeover

/-- What consolidation makes of a file. -/
def replacement (record : Takeover) (name : String) : Bytes :=
  if name = record.target then record.merged else emptyObject

def replaced (record : Takeover) : List (String × Bytes) :=
  record.files.map fun file => (file.1, record.replacement file.1)

end Takeover

namespace Service

def snapshot (service : Service) : List (String × Bytes) :=
  service.binding.files.map fun name => (name, service.disk name)

theorem snapshot_names (service : Service) : service.snapshot.map Prod.fst = service.binding.files := by
  rw [snapshot, List.map_map]
  exact List.map_id _

def fits (service : Service) : Prop :=
  (service.snapshot.map fun file => file.2.length).sum ≤ maxConfigBytes

instance (service : Service) : Decidable service.fits :=
  inferInstanceAs (Decidable (_ ≤ _))

/-- The identity and the layout of two inspections agree. -/
def sameBinding (service : Service) (binding : Binding) : Prop :=
  service.binding.identity = binding.identity ∧ service.binding.argv = binding.argv ∧
    service.binding.files = binding.files

instance (service : Service) (binding : Binding) : Decidable (service.sameBinding binding) :=
  inferInstanceAs (Decidable (_ ∧ _))

/-- `atomic_write`. -/
def writeFile (name : String) (raw : Bytes) (service : Service) : Service :=
  { service with disk := fun other => if other = name then raw else service.disk other }

/-- Each file holds its original or its replacement. -/
def known (service : Service) (record : Takeover) : Prop :=
  ∀ file ∈ service.snapshot, record.files.lookup file.1 = some file.2 ∨ file.2 = record.replacement file.1

instance (service : Service) (record : Takeover) : Decidable (service.known record) :=
  inferInstanceAs (Decidable (∀ _ ∈ _, _))

end Service

namespace TakeoverState

/-- The assignment of the phase in memory. -/
def enter (phase : TakeoverPhase) (s : TakeoverState) : TakeoverState :=
  { s with memory := s.memory.map fun (record, _) => (record, phase) }

/-- The journal file takes the state in memory. -/
def store (s : TakeoverState) : TakeoverState :=
  { s with journal := s.memory, edited := false }

def setPending (pending : Bool) (s : TakeoverState) : TakeoverState :=
  { s with pendingTakeover := pending }

def setDesiredRunning (running : Bool) (s : TakeoverState) : TakeoverState :=
  { s with desiredRunning := some running }

/-- `self.state = {..}`. -/
def begin (record : Takeover) (s : TakeoverState) : TakeoverState :=
  { s with memory := some (record, .prepared) }

/-- The effect of `systemctl`. -/
def control (record : Takeover) (start : Bool) (s : TakeoverState) : TakeoverState :=
  { s with
    service := { s.service with running := start }
    starts := if start then s.starts ++ [(record, s.service.snapshot)] else s.starts }

/-- A write of one file that is guarded by the bytes it expects. -/
def replaceFile (error : String) (name : String) (expected raw : Bytes) (s : TakeoverState) :
    Except String TakeoverState :=
  if s.service.disk name ≠ expected then .error error
  else .ok { s with service := s.service.writeFile name raw }

end TakeoverState

open TakeoverState

/-- `save`; the backup of a finished takeover is written first. -/
def save (phase : TakeoverPhase) : Program TakeoverState :=
  .step (write (enter phase)) <|
  (if phase.pending then .done else call .done).seq <|
  .step (write store) <|
  .step (write (setPending phase.pending)) .done

/-- The size check of `snapshot`. -/
def checkSize : TakeoverState → Except String TakeoverState :=
  check (fun s => s.service.fits) "Combined Xray input files exceed 2 MiB"

def changedError : String :=
  "External Xray binding or source files changed during takeover"

def unchanged (binding : Binding) (values : List (String × Bytes)) : Program TakeoverState :=
  call <|
  .step (check (fun s => s.service.sameBinding binding) changedError) <|
  .step checkSize <|
  .step (check (fun s => s.service.snapshot = values) changedError) .done

def nativeError : String :=
  "Native Xray merge or validation failed; source files were retained"

variable {Config : Type}

/-- `native` with `-test`. -/
def native (host : TakeoverHost Config) (argv : List String) : Program TakeoverState :=
  .step (check (fun s => host.test argv s.service.snapshot = true) nativeError) .done

/-- `control`, which waits until the service is in the desired state. -/
def controlService (record : Takeover) (start : Bool) : Program TakeoverState :=
  call <|
  .step (write (control record start)) .done

/-- `control` under a condition. -/
def controlIf (condition : Bool) (record : Takeover) (start : Bool) : Program TakeoverState :=
  if condition then controlService record start else .done

/-- `restore` of the takeover in memory. -/
def restoreTakeover (host : TakeoverHost Config) (record : Takeover) : Program TakeoverState :=
  call <|
  .step (check (fun s => s.service.binding.identity = record.identity ∧
    s.service.binding.files = record.files.map Prod.fst)
    "Xray takeover recovery found a changed service binding") <|
  .step checkSize <|
  .step (check (fun s => s.service.known record)
    "Xray takeover recovery found an independently modified config file") <|
  .read fun current =>
  (save .restoring).seq <|
  (controlIf current.service.running record false).seq <|
  (unchanged current.service.binding current.service.snapshot).seq <|
  (Program.each (fun file => replaceFile "Xray config changed during recovery"
    file.1 (current.service.disk file.1) file.2) record.files).seq <|
  (native host current.service.binding.argv).seq <|
  (controlIf record.running record true).seq <|
  .step (write (setDesiredRunning record.desired)) <|
  save .rolledBack

def restore (host : TakeoverHost Config) : Program TakeoverState :=
  .read fun s =>
    match s.memory with
    | none => fail "'NoneType' object is not subscriptable"
    | some (record, _) => restoreTakeover host record

def enableError : String :=
  "The host owner must enable allow_xray_takeover for a bound systemd runtime"

/-- `recover`, which leaves a failure of `restore` for the next start. -/
def recoverTakeover (host : TakeoverHost Config) : Program TakeoverState :=
  .read fun s =>
    if !s.pendingTakeover then .done
    else
      .step (check (fun _ => host.enabled = true) enableError) <|
      restore host

/-- `native` with `-dump`, which must give a configuration. -/
def dumps [DecidableEq Config] (host : TakeoverHost Config) (argv : List String) (merged : Config)
    (s : TakeoverState) : Except String TakeoverState :=
  match host.dump argv s.service.snapshot with
  | .error error => .error error
  | .ok again => if again = merged then .ok s else .error "Consolidated Xray layout differs from the native merge"

/-- The part of `handle` that is undone when it fails. -/
def activate [DecidableEq Config] (host : TakeoverHost Config) (binding : Binding) (record : Takeover)
    (merged : Config) : Program TakeoverState :=
  (unchanged binding record.files).seq <|
  (save .stopping).seq <|
  (controlIf record.running record false).seq <|
  (unchanged binding record.files).seq <|
  (save .writing).seq <|
  (Program.each (fun file => replaceFile "Xray config changed during takeover"
    file.1 file.2 (record.replacement file.1)) record.files).seq <|
  (unchanged binding record.replaced).seq <|
  .step (dumps host binding.argv merged) <|
  (native host binding.argv).seq <|
  (save .activating).seq <|
  (controlIf record.running record true).seq <|
  (unchanged binding record.replaced).seq <|
  .step (write (setDesiredRunning record.running)) <|
  save .complete

/-- The part of `handle` from the new state on. -/
def consolidate [DecidableEq Config] (host : TakeoverHost Config) (binding : Binding) (record : Takeover)
    (merged : Config) : Program TakeoverState :=
  .step (write (begin record)) <|
  (save .prepared).seq <|
  .attempt (activate host binding record merged) (restore host) .done

/-- A validated body of a takeover request. -/
structure TakeoverRequest where
  preview : Bool
  expected : Json

def takeoverRequest (body : Json) : Except String TakeoverRequest :=
  match body with
  | .obj fields =>
    if fields.any fun field => field.1 ∉ ["preview", "confirm", "expected_sha256"] then
      .error "Invalid Xray takeover request"
    else
      match ((body.find? "preview").getD (.bool false)).bool? with
      | none => .error "Explicit Xray takeover confirmation is required"
      | some preview =>
        if !preview ∧ (body.get "confirm").bool? ≠ some true then
          .error "Explicit Xray takeover confirmation is required"
        else .ok { preview := preview, expected := body.get "expected_sha256" }
  | _ => .error "Invalid Xray takeover request"

/-- The digest of the preview, when the request gives one. -/
def TakeoverRequest.accepts (request : TakeoverRequest) (digest : String) : Bool :=
  match request.expected with
  | .null => true
  | .str expected => expected = digest
  | _ => false

/-- `strip` of a byte string. -/
def stripBytes (raw : Bytes) : Bytes :=
  let blank := fun byte : UInt8 => byte ∈ [0x20, 0x09, 0x0a, 0x0d, 0x0b, 0x0c]
  ((raw.dropWhile blank).reverse.dropWhile blank).reverse

/-- The target is one object and the other files are empty objects. -/
def consolidated (host : TakeoverHost Config) (service : Service) : Bool :=
  host.isObject (service.disk service.binding.target) &&
    service.snapshot.all fun file => file.1 = service.binding.target || stripBytes file.2 = [0x7b, 0x7d]

/-- The state that `handle` builds of the files and the service it found. -/
def newTakeover (host : TakeoverHost Config) (s : TakeoverState) (merged : Config) : Takeover where
  target := s.service.binding.target
  identity := s.service.binding.identity
  files := s.service.snapshot
  merged := host.encode merged
  running := s.service.running
  desired := s.desiredRunning.getD host.autoStart
  distinct := by
    rw [Service.snapshot_names]
    exact s.service.binding.distinct
  covers := by
    rw [Service.snapshot_names]
    exact s.service.binding.covers

/-- `handle` once `prepare` has the merged configuration. -/
def confirmTakeover [DecidableEq Config] (host : TakeoverHost Config) (request : TakeoverRequest)
    (s : TakeoverState)
    (merged : Config) : Program TakeoverState :=
  if request.preview then .done
  else if !request.accepts (host.digest s.service.binding.identity s.service.snapshot merged) then
    fail "Xray takeover preview is stale; inspect the source files again"
  else if consolidated host s.service then .done
  else if (host.encode merged).length > maxConfigBytes then fail "Consolidated Xray configuration exceeds 2 MiB"
  else consolidate host s.service.binding (newTakeover host s merged) merged

/-- `handle` of a validated request, with `prepare`. -/
def prepareTakeover [DecidableEq Config] (host : TakeoverHost Config) (request : TakeoverRequest) :
    Program TakeoverState :=
  .step (check (fun _ => host.enabled = true) enableError) <|
  .step (check (fun s => s.pendingTakeover = false)
    "Xray takeover recovery is pending; retry after recovery or review the host") <|
  call <|
  .step checkSize <|
  .read fun s =>
    match host.dump s.service.binding.argv s.service.snapshot with
    | .error error => fail error
    | .ok merged =>
      (native host s.service.binding.argv).seq <|
      match host.candidate merged with
      | .error error => fail error
      | .ok again =>
        .step (check (fun _ => again = merged)
          "Native merged config cannot round-trip without changing its meaning") <|
        (unchanged s.service.binding s.service.snapshot).seq <|
        confirmTakeover host request s merged

/-- `handle`. -/
def handleTakeover [DecidableEq Config] (host : TakeoverHost Config) (body : Json) : Program TakeoverState :=
  match takeoverRequest body with
  | .error error => fail error
  | .ok request => prepareTakeover host request

/-- `load` at the start of the agent. -/
def TakeoverState.restart (s : TakeoverState) : TakeoverState :=
  { s with
    memory := s.journal
    pendingTakeover := s.journal.any fun (_, phase) => phase.pending }

end OpenNode.Agent
