import OpenNode.Lib.Interruption

namespace OpenNode.Agent

open Interruption

/-- The three stores that a cleanup changes: the Xray configuration, the limiter
document and the journal of suspended inbounds. -/
structure Stores (Config Limits Suspended : Type) where
  config : Config
  limits : Limits
  suspended : Suspended
deriving DecidableEq

/-- `CleanupRequest`, validated. -/
inductive CleanupAction where
  | preview
  | apply (operationId expectedRevision : String)
  | status (operationId : String)
deriving DecidableEq

structure CleanupRequest where
  action : CleanupAction
  inboundTags : List String := []
  outboundTags : List String := []
deriving DecidableEq

/-- A row of `node_cleanup_jobs` in the phase `prepared`. -/
structure CleanupJob (Config Limits Suspended : Type) where
  id : String
  fingerprint : String
  original : Stores Config Limits Suspended
  desired : Stores Config Limits Suspended

/-- What the cleanup calls: the candidate stores of a request, the check that
protected records are preserved, the size check of the recovery record, the
native validation, and two digests. -/
structure CleanupHost (Config Limits Suspended : Type) where
  candidate : Stores Config Limits Suspended → CleanupRequest → Except String (Stores Config Limits Suspended)
  preserves : Config → Config → Bool
  fits : (original desired : Stores Config Limits Suspended) → Bool
  validates : Config → Bool
  revision : Stores Config Limits Suspended → CleanupRequest → String
  fingerprint : CleanupRequest → String

/-- The stores and the table `node_cleanup_jobs`, of which at most one row is
prepared. Every completion adds to `completed`. -/
structure CleanupState (Config Limits Suspended : Type) where
  stores : Stores Config Limits Suspended
  prepared : Option (CleanupJob Config Limits Suspended) := none
  completed : List (String × String) := []

variable {Config Limits Suspended : Type} [DecidableEq Config] [DecidableEq Limits] [DecidableEq Suspended]

namespace CleanupState

/-- The row of an operation: its fingerprint, and whether it is still prepared. -/
def previous (s : CleanupState Config Limits Suspended) (operationId : String) : Option (String × Bool) :=
  match s.prepared.filter fun job => job.id = operationId with
  | some job => some (job.fingerprint, true)
  | none => (s.completed.lookup operationId).map fun fingerprint => (fingerprint, false)

/-- `atomic_write` of the limiter policy. -/
def writeLimits (limits : Limits) (s : CleanupState Config Limits Suspended) :
    CleanupState Config Limits Suspended :=
  { s with stores := { s.stores with limits := limits } }

/-- `runtime.write`, guarded by the configuration that it expects. -/
def writeConfig (host : CleanupHost Config Limits Suspended) (config expected : Config)
    (s : CleanupState Config Limits Suspended) : Except String (CleanupState Config Limits Suspended) :=
  if !host.validates config then .error "Xray validation failed"
  else if s.stores.config ≠ expected then .error "Xray configuration changed during the guarded update"
  else .ok { s with stores := { s.stores with config := config } }

/-- The final transaction of `recover`. -/
def complete (job : CleanupJob Config Limits Suspended) (s : CleanupState Config Limits Suspended) :
    CleanupState Config Limits Suspended :=
  { stores := { s.stores with suspended := job.desired.suspended }
    prepared := none
    completed := s.completed ++ [(job.id, job.fingerprint)] }

/-- The insertion of a prepared job. -/
def prepare (job : CleanupJob Config Limits Suspended) (s : CleanupState Config Limits Suspended) :
    CleanupState Config Limits Suspended :=
  { s with prepared := some job }

end CleanupState

open CleanupState Program

def protectedError : String :=
  "Managed egress entries and WARP outbounds must be changed through the dedicated server egress workflow " ++
    "or WARP workflow"

/-- Each store is the original or the desired one. -/
def CleanupJob.known (job : CleanupJob Config Limits Suspended) (stores : Stores Config Limits Suspended) : Prop :=
  (stores.config = job.original.config ∨ stores.config = job.desired.config) ∧
    (stores.limits = job.original.limits ∨ stores.limits = job.desired.limits) ∧
    (stores.suspended = job.original.suspended ∨ stores.suspended = job.desired.suspended)

instance (job : CleanupJob Config Limits Suspended) (stores : Stores Config Limits Suspended) :
    Decidable (job.known stores) :=
  inferInstanceAs (Decidable (_ ∧ _))

/-- The part of `recover` that retires the old limits, once the desired
configuration is in force. -/
def retireLimits (host : CleanupHost Config Limits Suspended) (running : Bool)
    (job : CleanupJob Config Limits Suspended) (limits : Limits) : Program (CleanupState Config Limits Suspended) :=
  if limits ≠ job.desired.limits then
    .step (write (writeLimits job.desired.limits)) <|
      if running then
        .step (writeConfig host job.desired.config job.desired.config) <|
        .step (check (fun s => host.preserves job.original.config s.stores.config) protectedError) .done
      else .done
  else .done

/-- The last part of `recover`. -/
def commitCleanup (job : CleanupJob Config Limits Suspended) (suspended : Suspended) :
    Program (CleanupState Config Limits Suspended) :=
  .step (check (fun s => s.stores.config = job.desired.config ∧ s.stores.limits = job.desired.limits ∧
    s.stores.suspended = suspended) "Host state changed during node cleanup; review is required") <|
  .step (write (complete job)) .done

/-- `recover` of a prepared job. -/
def recoverJob (host : CleanupHost Config Limits Suspended) (running : Bool)
    (job : CleanupJob Config Limits Suspended) : Program (CleanupState Config Limits Suspended) :=
  .step (check (fun _ => host.fits job.original job.desired)
    "Node cleanup recovery record exceeds its size limit") <|
  call <|
  .read fun current =>
  .step (check (fun _ => host.preserves job.original.config job.desired.config) protectedError) <|
  .step (check (fun s => job.known s.stores)
    "Interrupted node cleanup conflicts with host edits; review is required") <|
  .step (write fun s =>
    if current.stores.config ≠ job.desired.config ∧ current.stores.limits ≠ job.original.limits then
      s.writeLimits job.original.limits
    else s) <|
  .step (writeConfig host job.desired.config current.stores.config) <|
  .step (check (fun s => host.preserves job.original.config s.stores.config) protectedError) <|
  .step (check (fun s => s.stores.config = job.desired.config)
    "Host configuration changed during cleanup; review is required") <|
  .step (check (fun s => s.stores.limits = job.original.limits ∨ s.stores.limits = job.desired.limits)
    "Host limiter state changed during cleanup; review is required") <|
  .read fun written =>
  (retireLimits host running job written.stores.limits).seq <|
  commitCleanup job current.stores.suspended

/-- `recover`. -/
def recoverCleanup (host : CleanupHost Config Limits Suspended) (running : Bool) :
    Program (CleanupState Config Limits Suspended) :=
  .read fun s =>
    match s.prepared with
    | none => .done
    | some job => recoverJob host running job

/-- The part of `handle` for a request without a row. -/
def prepareCleanup (host : CleanupHost Config Limits Suspended) (running : Bool) (request : CleanupRequest) :
    Program (CleanupState Config Limits Suspended) :=
  .step (check (fun s => s.prepared.isNone)
    "An earlier node cleanup must finish before another preview or operation") <|
  call <|
  .read fun s =>
    match host.candidate s.stores request with
    | .error error => fail error
    | .ok desired =>
      if !host.preserves s.stores.config desired.config then fail protectedError
      else
        match request.action with
        | .apply operationId expectedRevision =>
          let job : CleanupJob Config Limits Suspended :=
            { id := operationId, fingerprint := host.fingerprint request, original := s.stores, desired := desired }
          .step (check (fun _ => host.revision s.stores request = expectedRevision)
            "Runtime resources changed; preview node cleanup again") <|
          .step (check (fun _ => host.validates desired.config)
            "Xray rejected the node cleanup configuration") <|
          .step (check (fun now => now.stores = s.stores)
            "Host state changed during cleanup validation; preview again") <|
          .step (check (fun _ => host.fits job.original job.desired)
            "Node cleanup recovery record exceeds its size limit") <|
          .step (write (CleanupState.prepare job)) <|
          recoverCleanup host running
        | _ => .done

/-- `handle`. -/
def handleCleanup (host : CleanupHost Config Limits Suspended) (running : Bool) (request : CleanupRequest) :
    Program (CleanupState Config Limits Suspended) :=
  match request.action with
  | .status _ => .done
  | .preview => prepareCleanup host running request
  | .apply operationId _ =>
    .read fun s =>
      match s.previous operationId with
      | some (fingerprint, prepared) =>
        if fingerprint ≠ host.fingerprint request then
          fail "Node cleanup identity was reused with different content"
        else if prepared then recoverCleanup host running
        else .done
      | none => prepareCleanup host running request

end OpenNode.Agent
