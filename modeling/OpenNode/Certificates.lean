import OpenNode.Inventory
import OpenNode.Lib.Edits
import OpenNode.Lib.ReadCommitted
import OpenNode.Lib.Rows

namespace OpenNode.Certificates

open Edits

section Tables

/-- The leaf of a certificate chain, in place of its SHA-256. -/
structure Leaf where
  serial : String
  content : String
deriving DecidableEq, Repr

/-- What `material` returns: a chain with its key. -/
structure Material where
  leaf : Leaf
  chain : String := ""
  keyPem : String := ""
  domains : List String := []
  selfSigned : Bool := false
deriving DecidableEq, Repr

def fingerprint (data : Material) : Leaf :=
  data.leaf

inductive CertificateStatus where
  | idle | queued | issuing | renewing | updatingAccount | revoking | issued | failed
  | revocationPending | revocationUnknown | revoked
deriving DecidableEq, Repr

structure ManagedCertificate where
  id : Nat
  name : String
  domains : List String
  email : Option String := none
  accountEmail : Option String := none
  validationServerId : Option String := none
  directoryUrl : Option String := none
  eab : Option String := none
  autoRenew : Bool := true
  status : CertificateStatus := .idle
  activeJobId : Option Nat := none
  versionId : Option Nat := none
  lastError : Option String := none
deriving DecidableEq, Repr

inductive JobKind where
  | issue | renew | account | revoke
deriving DecidableEq, Repr

inductive JobStatus where
  | queued | running | succeeded | skipped | failed | interrupted
deriving DecidableEq, Repr

inductive EabAction where
  | keep | replace | clear
deriving DecidableEq, Repr

structure RevocationParameters where
  versionId : Nat
  fingerprint : Leaf
  directoryUrl : String
  reason : Nat
deriving DecidableEq, Repr

inductive Parameters where
  | none
  | account (email : String) (eabAction : EabAction) (eab : Option String)
  | revocation (parameters : RevocationParameters)
deriving DecidableEq, Repr

/-- `CertificateJob`; the table is in the order of `created_at`. -/
structure CertificateJob where
  id : Nat
  certificateId : Nat
  kind : JobKind
  force : Bool := false
  status : JobStatus := .queued
  message : Option String := .none
  parameters : Parameters := .none
deriving DecidableEq, Repr

/-- `CertificateVersion`; `details` is the material without its texts. An older
release stored no fingerprint. -/
structure CertificateVersion where
  id : Nat
  certificateId : Nat
  material : Material
  fingerprint : Option Leaf
deriving DecidableEq, Repr

inductive RevocationStatus where
  | pending | unknown | revoked
deriving DecidableEq, Repr

structure CertificateRevocation where
  fingerprint : Leaf
  status : RevocationStatus
  directoryUrl : String
  reason : Nat
  jobId : Nat
deriving DecidableEq, Repr

structure CertificateTarget where
  id : Nat
  certificateId : Nat
  serverId : String
  domain : String
  certName : String
  reload : String := ""
  autoDeploy : Bool := false
  versionId : Option Nat := none
  commandId : Option Nat := none
  lastError : Option String := none
deriving DecidableEq, Repr

structure DeployBody where
  domain : String
  material : Material
  certPath : String
  keyPath : String
  reload : String
deriving DecidableEq, Repr

/-- `CommandModel`. `deploy` is the body of a command to `/api/child/cert/deploy`
whose certificate can be read, and `byStore` says who created it. -/
structure Command where
  id : Nat
  serverId : String
  status : CommandStatus := .pending
  deploy : Option DeployBody
  byStore : Bool
deriving DecidableEq, Repr

/-- The tables that the store reads and writes. `managed` is the certificate
directory of a server with an owned scan, `leases` the certificates with a
remote challenge that is not released. -/
structure Db where
  certificates : List ManagedCertificate := []
  jobs : List CertificateJob := []
  versions : List CertificateVersion := []
  revocations : List CertificateRevocation := []
  targets : List CertificateTarget := []
  commands : List Command := []
  servers : List String := []
  managed : List (String × String) := []
  leases : List Nat := []
deriving DecidableEq, Repr

/-- What the store takes from its host and from its libraries. -/
structure Host where
  directories : List String
  posix : Bool
  /-- `require_issuer` and `check_challenge` accept the profile. -/
  issuer : ManagedCertificate → Bool
  /-- `material` accepts the texts for the domains. -/
  valid : Material → List String → Bool
  /-- `signing_key` knows the key. -/
  signs : String → Bool
  covers : List String → String → Bool
  /-- The profile's account is registered at its directory. -/
  registered : ManagedCertificate → Bool

end Tables

section Rows

def RevocationStatus.certificateStatus : RevocationStatus → CertificateStatus
  | .pending => .revocationPending
  | .unknown => .revocationUnknown
  | .revoked => .revoked

/-- A job that waits or runs. -/
def CertificateJob.live (job : CertificateJob) : Bool :=
  job.status == .queued || job.status == .running

def CertificateJob.administration (job : CertificateJob) : Bool :=
  job.kind == .account || job.kind == .revoke

/-- The statuses `pending`, `waiting` and `leased`. -/
def Command.unfinished (command : Command) : Bool :=
  command.status == .pending || command.status == .waiting || command.status == .leased

/-- A command that could bring the leaf to an Agent. -/
def Command.carries (command : Command) (leaf : Leaf) : Bool :=
  command.unfinished && command.deploy.any fun body => fingerprint body.material == leaf

variable (db : Db)

def notFound : String := "Certificate resource not found"

/-- `get`, for a row that may be missing. -/
def found {α : Type} : Option α → Except String α
  | some row => .ok row
  | none => .error notFound

def Db.certificate? (id : Nat) : Option ManagedCertificate :=
  db.certificates.find? (·.id == id)

def Db.job? (id : Nat) : Option CertificateJob :=
  db.jobs.find? (·.id == id)

def Db.version? (id : Nat) : Option CertificateVersion :=
  db.versions.find? (·.id == id)

def Db.revocation? (leaf : Leaf) : Option CertificateRevocation :=
  db.revocations.find? (·.fingerprint == leaf)

def Db.target? (id : Nat) : Option CertificateTarget :=
  db.targets.find? (·.id == id)

/-- The command that a target waits for. -/
def Db.deploying (target : CertificateTarget) : Bool :=
  (target.commandId.bind fun id => db.commands.find? (·.id == id)).any (·.unfinished)

def Db.setCertificate (id : Nat) (set : ManagedCertificate → ManagedCertificate) : Db :=
  { db with certificates := Rows.update (·.id == id) set db.certificates }

def Db.setJob (id : Nat) (set : CertificateJob → CertificateJob) : Db :=
  { db with jobs := Rows.update (·.id == id) set db.jobs }

def Db.setTarget (id : Nat) (set : CertificateTarget → CertificateTarget) : Db :=
  { db with targets := Rows.update (·.id == id) set db.targets }

/-- `revocation`: the record of a version, by its stored fingerprint. -/
def Db.revocation (version : CertificateVersion) : Option CertificateRevocation :=
  version.fingerprint.bind db.revocation?

def Db.requireUsable (version : CertificateVersion) : Except String Unit :=
  require (db.revocation version = none) "This certificate has a pending, unconfirmed or completed revocation"

def Db.state (row : ManagedCertificate) (default : Option CertificateStatus) : CertificateStatus :=
  let version := row.versionId.bind db.version?
  match version.bind db.revocation with
  | some entry => entry.status.certificateStatus
  | none => default.getD (if version.isSome then .issued else .idle)

end Rows

section Profiles

structure CreatePayload where
  name : String
  domains : List String
  email : Option String
  directoryUrl : String
  validationServerId : Option String := none
  autoRenew : Bool := true
  eab : Option String := none
deriving DecidableEq, Repr

variable (host : Host) (db : Db) (fresh : Nat)

def create (payload : CreatePayload) : Except String Db := do
  let row : ManagedCertificate :=
    { id := fresh
      name := payload.name
      domains := payload.domains
      email := payload.email
      validationServerId := payload.validationServerId
      directoryUrl := some payload.directoryUrl
      eab := payload.eab
      autoRenew := payload.autoRenew }
  require (host.issuer row = true) "Certificate challenge type is not enabled by the host administrator"
  require (payload.directoryUrl ∈ host.directories) "ACME directory is not enabled by the host administrator"
  .ok { db with certificates := db.certificates ++ [row] }

/-- The check of `edit` on the current version of a profile that is to renew. -/
def checkRenewal (row : ManagedCertificate) (autoRenew : Bool) : Except String Unit :=
  match row.versionId, autoRenew with
  | some id, true => do
    let version ← found (db.version? id)
    db.requireUsable version
  | _, _ => .ok ()

def edit (identifier : Nat) (name : String) (autoRenew : Bool) : Except String Db := do
  let row ← found (db.certificate? identifier)
  require (autoRenew = true →
    row.directoryUrl.isSome) "Imported certificates cannot renew without ACME configuration"
  checkRenewal db row autoRenew
  .ok (db.setCertificate row.id fun row => { row with name := name, autoRenew := autoRenew })

def delete (identifier : Nat) : Except String Db := do
  let row ← found (db.certificate? identifier)
  require (row.activeJobId = none) "Wait for the active certificate job before deletion"
  require (row.id ∉ db.leases) "Wait for remote HTTP challenge cleanup before deletion"
  .ok { db with
    jobs := db.jobs.filter (·.certificateId != row.id)
    versions := db.versions.filter (·.certificateId != row.id)
    targets := db.targets.filter (·.certificateId != row.id)
    certificates := db.certificates.filter (·.id != row.id) }

def publish (db : Db) (identifier : Nat) (data : Material) : Except String Db := do
  require (db.revocation? (fingerprint data) = none) "This certificate is already subject to revocation"
  let version : CertificateVersion :=
    { id := fresh, certificateId := identifier, material := data, fingerprint := some (fingerprint data) }
  .ok ({ db with versions := db.versions ++ [version] }.setCertificate identifier fun row =>
    { row with versionId := some version.id, status := .issued, lastError := none })

/-- `_import_material`, for imported and for self-signed certificates. -/
def importMaterial (name : String) (data : Material) : Except String Db :=
  let row : ManagedCertificate := { id := fresh, name := name, domains := data.domains, autoRenew := false }
  publish fresh { db with certificates := db.certificates ++ [row] } row.id data

def activate (identifier versionId : Nat) : Except String Db := do
  let row ← found (db.certificate? identifier)
  let version ← found (db.version? versionId)
  require (row.activeJobId = none ∧ version.certificateId = row.id)
    "An idle certificate and matching version are required"
  db.requireUsable version
  require (host.valid version.material row.domains = true) "Certificate material is invalid"
  .ok (db.setCertificate row.id fun row =>
    { row with versionId := some version.id, status := .issued, lastError := none })

end Profiles

section Jobs

variable (host : Host) (db : Db) (fresh : Nat)

/-- `claim`: the profile's update, and the job. -/
def claim (row : ManagedCertificate) (kind : JobKind) (force : Bool) (parameters : Parameters) :
    Except String Db := do
  require (row.activeJobId = none) "A certificate job is already active"
  .ok { db.setCertificate row.id fun row =>
          { row with activeJobId := some fresh, status := .queued, lastError := none } with
    jobs := db.jobs ++
      [{ id := fresh, certificateId := row.id, kind := kind, force := force, parameters := parameters }] }

/-- `queue`, for the operator and for `_schedule`. -/
def queue (identifier : Nat) (renew : Bool) (force : Bool) : Except String Db := do
  let row ← found (db.certificate? identifier)
  require (host.issuer row = true) "ACME issuance client is unavailable on the control-plane host"
  require (row.directoryUrl.isSome = true) "Imported certificates do not have ACME configuration"
  require (renew = row.versionId.isSome)
    (if renew then "Issue the certificate before requesting renewal"
      else "Use renewal for an already issued certificate")
  match row.versionId with
  | none => claim db fresh row .issue force .none
  | some id =>
    let version ← found (db.version? id)
    claim db fresh row .renew (force || (db.revocation version).isSome) .none

def queueAccount (identifier : Nat) (email : String) (eabAction : EabAction) (eab : Option String) :
    Except String Db := do
  require (host.posix = true) "ACME account management requires a POSIX host"
  let row ← found (db.certificate? identifier)
  require (row.directoryUrl.isSome = true) "Imported certificates do not have an ACME account"
  require (∃ url ∈ host.directories,
    row.directoryUrl = some url) "ACME directory is not enabled by the host administrator"
  require (eabAction ≠ .keep → host.registered row = false) "An established EAB binding cannot be changed"
  claim db fresh row .account false (.account email eabAction eab)

def retryAccount (identifier jobId : Nat) : Except String Db := do
  require (host.posix = true) "ACME account management requires a POSIX host"
  let row ← found (db.certificate? identifier)
  match (db.jobs.filter fun job => job.certificateId == row.id && job.kind == .account).getLast? with
  | none => .error "Only the latest failed account update can be retried"
  | some latest =>
    require (latest.id = jobId ∧ (latest.status = .failed ∨ latest.status = .interrupted))
      "Only the latest failed account update can be retried"
    require (∃ url ∈ host.directories, row.directoryUrl = some url)
      "ACME directory is not enabled by the host administrator"
    claim db fresh row .account false latest.parameters

/-- The versions that `matching_versions` reads: those of the fingerprint, and
those without one that have its serial. -/
def CertificateVersion.candidate (data : Material) (version : CertificateVersion) : Bool :=
  version.fingerprint == some (Certificates.fingerprint data) ||
    (version.fingerprint == none && version.material.leaf.serial == data.leaf.serial)

/-- `matching_versions`, which stores the fingerprints it had to compute. -/
def Db.fingerprinted (db : Db) (data : Material) : Db :=
  let fill (version : CertificateVersion) : CertificateVersion :=
    { version with fingerprint := some (version.fingerprint.getD (fingerprint version.material)) }
  { db with versions := Rows.update (·.candidate data) fill db.versions }

def Db.matchingVersions (db : Db) (data : Material) : List CertificateVersion :=
  (db.fingerprinted data).versions.filter (·.fingerprint == some (fingerprint data))

def Db.setRevocation (db : Db) (leaf : Leaf) (status : RevocationStatus) : Db :=
  let set (entry : CertificateRevocation) : CertificateRevocation := { entry with status := status }
  { db with revocations := Rows.update (·.fingerprint == leaf) set db.revocations }

/-- The turn of `mark_revocation` for a profile. -/
def Db.markProfile (db : Db) (leaf : Leaf) (jobId : Nat) (row : ManagedCertificate) : ManagedCertificate :=
  if (row.versionId.bind db.version?).bind (·.fingerprint) = some leaf then
    { row with
      autoRenew := false
      status := if row.activeJobId = none ∨ row.activeJobId = some jobId then db.state row none else row.status }
  else row

def markRevocation (db : Db) (leaf : Leaf) (jobId : Nat) (status : RevocationStatus) : Except String Db := do
  let entry ← found (db.revocation? leaf)
  require (entry.jobId = jobId) "A newer revocation attempt owns this certificate"
  let marked := db.setRevocation leaf status
  .ok { marked with certificates := marked.certificates.map (marked.markProfile leaf jobId) }

/-- The record of a revocation, new or taken up again by another job. -/
def Db.record (db : Db) (entry : CertificateRevocation) : Db :=
  match db.revocation? entry.fingerprint with
  | none => { db with revocations := db.revocations ++ [entry] }
  | some _ =>
    let take (_ : CertificateRevocation) : CertificateRevocation := entry
    { db with revocations := Rows.update (·.fingerprint == entry.fingerprint) take db.revocations }

def queueRevocation (identifier versionId : Nat) (directoryUrl : Option String) (reason : Nat) :
    Except String Db := do
  require (host.posix = true) "ACME revocation requires a POSIX host"
  let row ← found (db.certificate? identifier)
  let version ← found (db.version? versionId)
  require (version.certificateId = row.id) "Certificate version does not belong to this certificate"
  require (version.material.selfSigned = false) "Self-signed certificates cannot be revoked through ACME"
  require (row.directoryUrl = none ∨ directoryUrl = none ∨ directoryUrl = row.directoryUrl)
    "Use the certificate profile's original ACME directory"
  match row.directoryUrl.or directoryUrl with
  | none => .error "Select an ACME directory enabled by the host administrator"
  | some directory =>
    require (directory ∈ host.directories) "Select an ACME directory enabled by the host administrator"
    let data := version.material
    require (host.signs data.keyPem = true) "Unsupported ACME signing key type"
    let leaf := fingerprint data
    let versions := db.matchingVersions data
    let db := db.fingerprinted data
    require (∀ entry ∈ (db.revocation? leaf).toList, entry.status = .unknown)
      "Certificate revocation is already pending or confirmed"
    require (∀ item ∈ versions, (db.certificate? item.certificateId).isSome = true) notFound
    require (∀ item ∈ versions, ∀ profile ∈ (db.certificate? item.certificateId).toList, profile.activeJobId = none)
      "Wait for active jobs on all copies of this certificate"
    require (∀ target ∈ db.targets, (∃ item ∈ versions, target.versionId = some item.id) →
      db.deploying target = false)
      "Wait for pending certificate deployments before revocation"
    require (∀ command ∈ db.commands, command.carries leaf = false)
      "Wait for pending certificate deployments before revocation"
    let claimed ← claim db fresh row .revoke false
      (.revocation { versionId := version.id, fingerprint := leaf, directoryUrl := directory, reason := reason })
    markRevocation (claimed.record
      { fingerprint := leaf, status := .pending, directoryUrl := directory, reason := reason, jobId := fresh }) leaf
        fresh .pending

end Jobs

section Targets

structure TargetPayload where
  serverId : String
  domain : String
  certName : String
  reload : String := ""
  autoDeploy : Bool := false
deriving DecidableEq, Repr

variable (host : Host) (db : Db) (fresh : Nat)

def saveTarget (identifier : Nat) (payload : TargetPayload) : Except String Db := do
  let row ← found (db.certificate? identifier)
  require (payload.serverId ∈ db.servers) notFound
  require (host.covers row.domains payload.domain = true) "Deployment hostname is not covered by this certificate"
  match db.targets.find? fun target => target.serverId == payload.serverId && target.certName ==
    payload.certName with
  | none =>
    .ok { db with targets := db.targets ++
      [{ id := fresh
         certificateId := row.id
         serverId := payload.serverId
         domain := payload.domain
         certName := payload.certName
         reload := payload.reload
         autoDeploy := payload.autoDeploy }] }
  | some target =>
    require (target.certificateId = row.id) "A different certificate already owns this target filename"
    .ok (db.setTarget target.id fun target =>
      { target with domain := payload.domain, reload := payload.reload, autoDeploy := payload.autoDeploy })

def deleteTarget (identifier targetId : Nat) : Except String Db := do
  let target ← found (db.target? targetId)
  require (target.certificateId = identifier) "Certificate target not found"
  require (db.deploying target = false) "Wait for the pending deployment before removing its target"
  .ok { db with targets := db.targets.filter (·.id != target.id) }

def deploy (identifier targetId : Nat) : Except String Db := do
  let row ← found (db.certificate? identifier)
  let target ← found (db.target? targetId)
  match row.versionId with
  | none => .error "An issued certificate and matching deployment target are required"
  | some versionId =>
    require (target.certificateId = row.id) "An issued certificate and matching deployment target are required"
    require (db.deploying target = false) "The preceding certificate deployment is still pending"
    let version ← found (db.version? versionId)
    db.requireUsable version
    let data := version.material
    require (host.valid data row.domains = true) "Certificate material is invalid"
    require (target.serverId ∈ db.servers) notFound
    match db.managed.find? (·.1 == target.serverId) with
    | none => .error "Read an owned Agent scan before certificate deployment"
    | some (_, directory) =>
      let command : Command :=
        { id := fresh
          serverId := target.serverId
          deploy := some
            { domain := target.domain
              material := data
              certPath := directory ++ "/" ++ target.certName ++ ".pem"
              keyPath := directory ++ "/" ++ target.certName ++ ".key"
              reload := target.reload }
          byStore := true }
      .ok ({ db with commands := db.commands ++ [command] }.setTarget target.id fun target =>
        { target with commandId := some command.id, versionId := some versionId, lastError := none })

/-- What `_deploy_pending` keeps of a deployment that was refused. -/
def noteRefusal (targetId : Nat) (message : String) : Except String Db :=
  .ok (db.setTarget targetId fun target => { target with lastError := some message })

end Targets

section Worker

/-- What the work of a job came back with. -/
inductive Result where
  | account (email storageEmail : String) (registered : Bool)
  | revoked (leaf : Leaf) (already : Bool)
  | issued (data : Material)
  | unchanged
deriving DecidableEq, Repr

/-- The one worker. While it works it holds the profile and the job as it took them. -/
inductive Worker where
  | down
  | idle
  | busy (row : ManagedCertificate) (job : CertificateJob) (result : Option Result)
deriving DecidableEq, Repr

/-- The result that the work of a job checks before it returns it. -/
def Result.fits (job : CertificateJob) : Result → Bool
  | .account .. => job.kind == .account
  | .revoked leaf _ =>
    match job.parameters with
    | .revocation parameters => job.kind == .revoke && parameters.fingerprint == leaf
    | _ => false
  | .issued _ | .unchanged => job.kind == .issue || job.kind == .renew

def interrupted : String := "ACME execution was interrupted; retry after inspecting the certificate"

/-- The turn of `_recover` for a job that was running. -/
def recoverJob (db : Db) (job : CertificateJob) : Db :=
  match (db.certificate? job.certificateId).filter (·.activeJobId == some job.id) with
  | some row =>
    if job.administration || row.validationServerId.isSome then
      (db.setJob job.id fun job =>
        { job with status := .queued, message := some "Resuming reconciliation with the CA" }).setCertificate row.id
          fun row => { row with status := .queued }
    else
      (db.setJob job.id fun job =>
        { job with status := .interrupted, message := some interrupted }).setCertificate row.id
        fun row => { row with activeJobId := none, status := .failed, lastError := some interrupted }
  | none => db.setJob job.id fun job => { job with status := .interrupted, message := some interrupted }

def recover (db : Db) : Db :=
  (db.jobs.filter (·.status == .running)).foldl recoverJob db

def JobKind.working : JobKind → CertificateStatus
  | .issue => .issuing
  | .renew => .renewing
  | .account => .updatingAccount
  | .revoke => .revoking

/-- The first transaction of `_run_one`, with what the worker then holds. -/
def start (db : Db) : Except String (Db × Worker) := do
  let job ← found (db.jobs.find? (·.status == .queued))
  let row ← found (db.certificate? job.certificateId)
  .ok ((db.setJob job.id fun job => { job with status := .running }).setCertificate row.id
      fun row => { row with status := job.kind.working },
    .busy { row with status := job.kind.working } { job with status := .running } none)

/-- The end of a job in the transaction that records its result. -/
def close (db : Db) (identifier : Nat) (job : CertificateJob) (status : JobStatus) (message : Option String) : Db :=
  (db.setJob job.id fun job => { job with status := status, message := message }).setCertificate identifier
    fun row => { row with activeJobId := none }

def applyAccount (db : Db) (identifier : Nat) (job : CertificateJob) (email storageEmail : String)
    (registered : Bool) :
    Except String Db :=
  match job.parameters with
  | .account wanted eabAction eab => do
    require (email = wanted) "ACME account result does not match the requested contact"
    require (eabAction ≠ .keep → registered = false) "An established EAB binding cannot be changed"
    .ok (db.setCertificate identifier fun row =>
      { row with
        email := some email
        accountEmail := some storageEmail
        eab := if eabAction = .keep then row.eab else eab })
  | _ => .error "email"

/-- The status of a profile as `state` has it. -/
def settle (db : Db) (identifier : Nat) (default : Option CertificateStatus) (lastError : Option String) : Db :=
  db.setCertificate identifier fun row => { row with status := db.state row default, lastError := lastError }

/-- The transaction of `_run_one` that records a result. -/
def succeed (fresh : Nat) (db : Db) (row : ManagedCertificate) (job : CertificateJob) (result : Result) :
    Except String Db := do
  let current ← found (db.certificate? row.id)
  let active ← found (db.job? job.id)
  match result with
  | .account email storageEmail registered =>
    let applied ← applyAccount db current.id job email storageEmail registered
    .ok (close (settle applied current.id none none) current.id active .succeeded none)
  | .revoked leaf already =>
    let marked ← markRevocation db leaf job.id .revoked
    .ok (close (settle marked current.id none none) current.id active .succeeded
      (if already then some "CA reports this certificate is already revoked" else none))
  | .issued data =>
    let published ← publish fresh db current.id data
    .ok (close published current.id active .succeeded active.message)
  | .unchanged =>
    .ok (close (db.setCertificate current.id fun row => { row with status := .issued }) current.id active .skipped
      (some "The certificate is not due for renewal"))

/-- The transaction of `_run_one` after an exception. -/
def fail (db : Db) (row : ManagedCertificate) (job : CertificateJob) (cancelled : Bool) (message : String) :
    Except String Db := do
  let current ← found (db.certificate? row.id)
  let active ← found (db.job? job.id)
  if (job.administration || row.validationServerId.isSome) && cancelled then
    .ok ((db.setJob active.id fun job =>
      { job with status := .queued, message := some "Operation paused; reconciliation resumes after restart"
        }).setCertificate
        current.id fun row => { row with status := .queued })
  else
    let closed := close db current.id active (if cancelled then .interrupted else .failed) (some message)
    match job.parameters with
    | .revocation parameters =>
      let marked ← markRevocation closed parameters.fingerprint job.id .unknown
      .ok (settle marked current.id none (some message))
    | _ => .ok (settle closed current.id (if job.administration then none else some .failed) (some message))

end Worker

section Transactions

/-- A transaction of `write`. -/
inductive Operation where
  | create (payload : CreatePayload)
  | edit (identifier : Nat) (name : String) (autoRenew : Bool)
  | delete (identifier : Nat)
  | importMaterial (name : String) (data : Material)
  | activate (identifier versionId : Nat)
  | queue (identifier : Nat) (renew force : Bool)
  | queueAccount (identifier : Nat) (email : String) (eabAction : EabAction) (eab : Option String)
  | retryAccount (identifier jobId : Nat)
  | queueRevocation (identifier versionId : Nat) (directoryUrl : Option String) (reason : Nat)
  | saveTarget (identifier : Nat) (payload : TargetPayload)
  | deleteTarget (identifier targetId : Nat)
  | deploy (identifier targetId : Nat)
  | noteRefusal (targetId : Nat) (message : String)
  | recover
  | start
  | succeed
  | fail (cancelled : Bool) (message : String)
deriving DecidableEq, Repr

/-- The steps that the worker takes one after another. -/
def Operation.byWorker : Operation → Bool
  | .recover | .start | .succeed | .fail .. => true
  | _ => false

/-- What a transaction makes of the tables that it saw. -/
def perform (host : Host) (worker : Worker) (operation : Operation) (fresh : Nat) (db : Db) :
    Except String (Db × Worker) :=
  match operation, worker with
  | .create payload, _ => (create host db fresh payload).map (·, worker)
  | .edit identifier name autoRenew, _ => (edit db identifier name autoRenew).map (·, worker)
  | .delete identifier, _ => (delete db identifier).map (·, worker)
  | .importMaterial name data, _ => (importMaterial db fresh name data).map (·, worker)
  | .activate identifier versionId, _ => (activate host db identifier versionId).map (·, worker)
  | .queue identifier renew force, _ => (queue host db fresh identifier renew force).map (·, worker)
  | .queueAccount identifier email eabAction eab, _ =>
    (queueAccount host db fresh identifier email eabAction eab).map (·, worker)
  | .retryAccount identifier jobId, _ => (retryAccount host db fresh identifier jobId).map (·, worker)
  | .queueRevocation identifier versionId directoryUrl reason, _ =>
    (queueRevocation host db fresh identifier versionId directoryUrl reason).map (·, worker)
  | .saveTarget identifier payload, _ => (saveTarget host db fresh identifier payload).map (·, worker)
  | .deleteTarget identifier targetId, _ => (deleteTarget db identifier targetId).map (·, worker)
  | .deploy identifier targetId, _ => (deploy host db fresh identifier targetId).map (·, worker)
  | .noteRefusal targetId message, _ => (noteRefusal db targetId message).map (·, worker)
  | .recover, .down => .ok (Certificates.recover db, .idle)
  | .start, .idle => Certificates.start db
  | .succeed, .busy row job (some result) => (Certificates.succeed fresh db row job result).map (·, .idle)
  | .fail cancelled message, .busy row job _ => (Certificates.fail db row job cancelled message).map (·, .idle)
  | _, _ => .error "The worker is elsewhere"

/-- The conditions of `UPDATE` statements, which the rows of the commit have to meet. -/
def Operation.guard (seen current : Db) : Operation → Bool
  | .queue identifier .. | .queueAccount identifier .. | .retryAccount identifier _ | .queueRevocation
      identifier .. =>
    (current.certificate? identifier).any (·.activeJobId == none)
  | .deploy _ targetId =>
    (current.target? targetId).any fun target => (seen.target? targetId).any (·.commandId == target.commandId)
  | _ => true

open ReadCommitted in
/-- The tables after the commit of a transaction that saw `seen` and made `mine` of it. -/
def Db.merge (seen mine current : Db) : Db :=
  { certificates := mergeRows (·.id)
      (fun seen mine current =>
        { id := mine.id
          name := column seen.name mine.name current.name
          domains := column seen.domains mine.domains current.domains
          email := column seen.email mine.email current.email
          accountEmail := column seen.accountEmail mine.accountEmail current.accountEmail
          validationServerId := column seen.validationServerId mine.validationServerId current.validationServerId
          directoryUrl := column seen.directoryUrl mine.directoryUrl current.directoryUrl
          eab := column seen.eab mine.eab current.eab
          autoRenew := column seen.autoRenew mine.autoRenew current.autoRenew
          status := column seen.status mine.status current.status
          activeJobId := column seen.activeJobId mine.activeJobId current.activeJobId
          versionId := column seen.versionId mine.versionId current.versionId
          lastError := column seen.lastError mine.lastError current.lastError })
      seen.certificates mine.certificates current.certificates
    jobs := mergeRows (·.id)
      (fun seen mine current =>
        { mine with
          status := column seen.status mine.status current.status
          message := column seen.message mine.message current.message })
      seen.jobs mine.jobs current.jobs
    versions := mergeRows (·.id)
      (fun seen mine current =>
        { mine with fingerprint := column seen.fingerprint mine.fingerprint current.fingerprint })
      seen.versions mine.versions current.versions
    revocations := mergeRows (·.fingerprint)
      (fun seen mine current =>
        { fingerprint := mine.fingerprint
          status := column seen.status mine.status current.status
          directoryUrl := column seen.directoryUrl mine.directoryUrl current.directoryUrl
          reason := column seen.reason mine.reason current.reason
          jobId := column seen.jobId mine.jobId current.jobId })
      seen.revocations mine.revocations current.revocations
    targets := mergeRows (·.id)
      (fun seen mine current =>
        { mine with
          domain := column seen.domain mine.domain current.domain
          reload := column seen.reload mine.reload current.reload
          autoDeploy := column seen.autoDeploy mine.autoDeploy current.autoDeploy
          versionId := column seen.versionId mine.versionId current.versionId
          commandId := column seen.commandId mine.commandId current.commandId
          lastError := column seen.lastError mine.lastError current.lastError })
      seen.targets mine.targets current.targets
    commands := mergeRows (·.id)
      (fun seen mine current => { mine with status := column seen.status mine.status current.status })
      seen.commands mine.commands current.commands
    servers := current.servers
    managed := current.managed
    leases := current.leases }

/-- A transaction that has read its rows and has not committed. -/
structure Transaction where
  operation : Operation
  fresh : Nat
  view : Db
deriving DecidableEq, Repr

/-- The tables, the transactions under way, the worker, and the revocations
that the CA has confirmed to a job. -/
structure System where
  db : Db := {}
  next : Nat := 0
  transactions : List Transaction := []
  worker : Worker := .down
  confirmed : List (Nat × Leaf) := []
deriving DecidableEq, Repr

/-- What happens, in any order. SQLite locks at the start of a transaction, so
that no other commit comes between its start and its own. -/
inductive Event where
  | start (operation : Operation)
  | commit (index : Nat)
  | rollback (index : Nat)
  /-- The work of the current job returns. -/
  | receive (result : Result)
  | crash
  /-- A command that is not finished goes on. -/
  | command (identifier : Nat) (status : CommandStatus)
  /-- A command that something else creates. -/
  | foreign (command : Command)
  | inventory (servers : List String) (managed : List (String × String)) (leases : List Nat)
deriving DecidableEq, Repr

def System.commit (host : Host) (s : System) (transaction : Transaction) : System :=
  match perform host s.worker transaction.operation transaction.fresh transaction.view with
  | .ok (mine, worker) =>
    if transaction.operation.guard transaction.view s.db then
      { s with db := transaction.view.merge mine s.db, worker := worker }
    else s
  | .error _ => s

def System.step (host : Host) (s : System) : Event → System
  | .start operation =>
    if operation.byWorker && s.transactions.any (·.operation.byWorker) then s
    else
      { s with
        transactions := s.transactions ++ [{ operation := operation, fresh := s.next, view := s.db }]
        next := s.next + 1 }
  | .commit index =>
    match s.transactions[index]? with
    | none => s
    | some transaction => { s with transactions := s.transactions.eraseIdx index }.commit host transaction
  | .rollback index => { s with transactions := s.transactions.eraseIdx index }
  | .receive result =>
    match s.worker with
    | .busy row job none =>
      if result.fits job then
        { s with
          worker := .busy row job (some result)
          confirmed :=
            match result with
            | .revoked leaf _ => s.confirmed ++ [(job.id, leaf)]
            | _ => s.confirmed }
      else s
    | _ => s
  | .crash =>
    { s with worker := .down, transactions := s.transactions.filter fun transaction =>
      !transaction.operation.byWorker }
  | .command identifier status =>
    let proceeds (command : Command) : Bool := command.id == identifier && command.unfinished
    let proceed (command : Command) : Command := { command with status := status }
    { s with db.commands := Rows.update proceeds proceed s.db.commands }
  | .foreign command => { s with db.commands := s.db.commands ++ [{ command with byStore := false }] }
  | .inventory servers managed leases =>
    { s with db.servers := servers, db.managed := managed, db.leases := leases }

def System.run (host : Host) (s : System) (events : List Event) : System :=
  events.foldl (System.step host) s

end Transactions

end OpenNode.Certificates
