import OpenNode.Inventory
import OpenNode.Lib.Edits
import OpenNode.Lib.GraphSearch

namespace OpenNode.ServerRemoval

open Edits GraphSearch

section Tables

/-- `ServerModel`, with the fields of `PROFILE_FIELDS`. -/
structure ServerModel where
  id : String
  name : String
  ipAddress : Option String := none
  ipAddressV6 : Option String := none
  domain : Option String := none
  domainV6 : Option String := none
  ipv6Enabled : Bool := false
deriving DecidableEq

structure ManagedNodeModel where
  id : String
  name : String
  serverId : Option String
  parentId : Option String := none
  targetNodeId : Option String := none
  updatedAt : Nat := 0
deriving DecidableEq

/-- `NodeTopologyModel`; the row of a virtual node, by the id of that node. -/
structure NodeTopologyModel where
  id : String
  stages : List (List String)
deriving DecidableEq

structure SubscriptionPlanModel where
  id : String
  name : String
  nodeIds : List String
  nodeMultipliers : List (String × Json) := []
  nodeSpeedLimits : List (String × Json) := []
  nodeDeviceLimits : List (String × Json) := []
  nodeNameOverrides : List (String × Json) := []
  updatedAt : Nat := 0

structure ProductUserModel where
  username : String
  nodeSpeedLimitOverrides : List (String × Json) := []
  nodeDeviceLimitOverrides : List (String × Json) := []
  updatedAt : Nat := 0

structure SubscriptionProfileModel where
  id : String
  nodeIds : List String
deriving DecidableEq

structure TemporarySubscriptionModel where
  id : String
  nodeIds : List String
deriving DecidableEq

structure SubscriptionCredentialModel where
  id : String
  username : String
  nodeId : String
  serverId : String
deriving DecidableEq

structure AccessBinding where
  tag : String
  nodeIds : List String
deriving DecidableEq

structure SubscriptionAccessModel where
  id : String
  username : String
  serverId : String
  bindings : List AccessBinding := []
  commandId : Option String := none
deriving DecidableEq

/-- `SubscriptionTrafficLedgerModel`, with the columns that a removal reads. -/
structure TrafficLedgerRow where
  username : String
  serverId : String
deriving DecidableEq

structure CommandModel where
  id : String
  serverId : String
  status : CommandStatus
  dependsOnCommandId : Option String := none
  attempts : Nat := 0
deriving DecidableEq

structure AgentChangeSetStepModel where
  id : String
  changeSetId : String
  sequence : Nat
  serverId : String
  forwardCommandId : Option String := none
  rollbackCommandId : Option String := none
deriving DecidableEq

/-- `AgentChangeSetStepRead`, as it is archived. -/
structure ArchivedStep where
  id : String
  sequence : Nat
  serverId : String
  serverName : Option String := none
  archived : Bool := false
deriving DecidableEq

structure AgentChangeSetModel where
  id : String
  name : String
  status : ChangeSetStatus
  archivedSteps : List ArchivedStep := []
  updatedAt : Nat := 0
deriving DecidableEq

structure ManagedCertificate where
  id : String
  name : String
  validationServerId : Option String := none
  activeJobId : Option String := none
  autoRenew : Bool := true
  lastError : Option String := none
deriving DecidableEq

structure CertificateTarget where
  id : String
  certificateId : String
  serverId : String
deriving DecidableEq

structure CertificateHTTPLease where
  id : String
  serverId : String
  releasedAt : Option Nat := none
deriving DecidableEq

/-- `ProductUserRemovalModel` and `ManagedNodeRemovalModel`: what is left of
them is the servers that the fingerprints or the steps name. -/
structure RemovalJob where
  id : String
  serverIds : List String
  completedAt : Option Nat := none
deriving DecidableEq

/-- The tables that a removal reads and writes. -/
structure Database where
  servers : List ServerModel := []
  federated : List String := []
  nodes : List ManagedNodeModel := []
  topologies : List NodeTopologyModel := []
  plans : List SubscriptionPlanModel := []
  users : List ProductUserModel := []
  profiles : List SubscriptionProfileModel := []
  temporaries : List TemporarySubscriptionModel := []
  credentials : List SubscriptionCredentialModel := []
  access : List SubscriptionAccessModel := []
  ledgers : List TrafficLedgerRow := []
  telemetry : List String := []
  commands : List CommandModel := []
  changes : List AgentChangeSetModel := []
  steps : List AgentChangeSetStepModel := []
  locks : List String := []
  userRemovals : List RemovalJob := []
  nodeRemovals : List RemovalJob := []
  certificates : List ManagedCertificate := []
  targets : List CertificateTarget := []
  leases : List CertificateHTTPLease := []

end Tables

section Preview

inductive ServerManagementError where
  /-- `ServerNotFoundError`. -/
  | notFound (message : String)
  /-- `ServerManagementConflict`. -/
  | conflict (message : String)
deriving DecidableEq

/-- What the revision of a preview is a digest of. -/
structure RevisionRecord where
  server : String
  userRemovals : List String
  nodes : List (String × Nat)
  plans : List (String × List String × Nat)
  changes : List (String × ChangeSetStatus × Nat)
  commands : List (String × CommandStatus × Nat)
  dependents : List (String × CommandStatus)
  users : List String
  validations : List (String × Option String × Bool)
  targets : List (String × String)
  leases : List String
  blockers : List String

/-- What a removal takes from elsewhere: the digests, and the managed egress
that the snapshots of all runtimes still show. -/
structure Panel where
  settingsRevision : ServerModel → String
  digest : RevisionRecord → String
  managedEgressReferences : ServerModel → List String

structure ServerRemovalPreview where
  serverId : String
  serverName : String
  revision : String
  nodes : List (String × String)
  plans : List (String × String)
  changeSets : List (String × String)
  certificates : List (String × String)
  commandCount : Nat
  unfinishedCommandCount : Nat
  telemetryCount : Nat
  userCount : Nat
  blockers : List String

def settledChanges : List ChangeSetStatus :=
  [.succeeded, .rolledBack, .cancelled, .accepted]

def finishedCommands : List CommandStatus :=
  [.succeeded, .failed, .skipped]

variable (db : Database)

def Database.server (identifier : String) : Except ServerManagementError ServerModel :=
  match db.servers.find? (·.id == identifier) with
  | some server => .ok server
  | none => .error (.notFound ("server not found: " ++ identifier))

def Database.nodesOf (server : String) : List ManagedNodeModel :=
  db.nodes.filter (·.serverId == some server)

def Database.nodeIdsOf (server : String) : List String :=
  (db.nodesOf server).map (·.id)

/-- The set of node ids meets a list. -/
def meets (identifiers listed : List String) : Bool :=
  listed.any (· ∈ identifiers)

def Database.plansOf (server : String) : List SubscriptionPlanModel :=
  db.plans.filter fun plan => meets (db.nodeIdsOf server) plan.nodeIds

def Database.changesOf (server : String) : List AgentChangeSetModel :=
  db.changes.filter fun change => db.steps.any fun step => step.serverId == server && step.changeSetId == change.id

def Database.commandsOf (server : String) : List CommandModel :=
  db.commands.filter (·.serverId == server)

def Database.usersOf (server : String) : List String :=
  (((db.credentials.filter (·.serverId == server)).map (·.username)) ++
    ((db.ledgers.filter (·.serverId == server)).map (·.username))).dedup

/-- Each command after the one it waits for. -/
def dependencies (commands : List CommandModel) : List (String × String) :=
  commands.filterMap fun command => command.dependsOnCommandId.map fun id => (id, command.id)

/-- The `dependents` of a server: who waits for its commands, directly or not. -/
def Database.dependentsOf (server : String) : List CommandModel :=
  let own := (db.commandsOf server).map (·.id)
  let seen := followers (dependencies db.commands) own
  db.commands.filter fun command => decide (command.id ∈ seen) && decide (command.id ∉ own)

/-- The blockers of `_impact`, in its order. -/
def Database.blockers (panel : Panel) (server : ServerModel) : List String :=
  ((db.changesOf server.id).filter (·.status ∉ settledChanges)).map
      (fun change => "Resolve or cancel change set: " ++ change.name) ++
    (if db.userRemovals.any fun job => job.completedAt.isNone && decide (server.id ∈ job.serverIds) then
      ["Complete pending user removals before removing this server"] else []) ++
    (if db.nodeRemovals.any fun job => job.completedAt.isNone && decide (server.id ∈ job.serverIds) then
      ["Complete pending node removals before removing this server"] else []) ++
    (if server.id ∈ db.locks then ["A change set still holds this server"] else []) ++
    (if panel.managedEgressReferences server ≠ [] then
      ["Disconnect managed server egress before removing this server"] else []) ++
    (db.certificates.filter fun row => row.validationServerId == some server.id && row.activeJobId.isSome).map
      (fun row => "Certificate validation is active: " ++ row.name) ++
    (if db.leases.any fun lease => lease.serverId == server.id && lease.releasedAt.isNone then
      ["Remote certificate challenges still need cleanup"] else []) ++
    (if (db.dependentsOf server.id).any (·.status ∉ finishedCommands) then
      ["Unfinished commands on another server depend on this server"] else [])

def Database.impact (panel : Panel) (server : ServerModel) : ServerRemovalPreview :=
  let nodes := db.nodesOf server.id
  let plans := db.plansOf server.id
  let changes := db.changesOf server.id
  let commands := db.commandsOf server.id
  let users := db.usersOf server.id
  let validations := db.certificates.filter (·.validationServerId == some server.id)
  let targets := db.targets.filter (·.serverId == server.id)
  let leases := db.leases.filter fun lease => lease.serverId == server.id && lease.releasedAt.isNone
  let certificateIds := (validations.map (·.id) ++ targets.map (·.certificateId)).dedup
  let blockers := db.blockers panel server
  { serverId := server.id
    serverName := server.name
    revision := panel.digest
      { server := panel.settingsRevision server
        userRemovals := (db.userRemovals.filter fun job =>
          job.completedAt.isNone && decide (server.id ∈ job.serverIds)).map (·.id)
        nodes := nodes.map fun row => (row.id, row.updatedAt)
        plans := plans.map fun row => (row.id, row.nodeIds, row.updatedAt)
        changes := changes.map fun row => (row.id, row.status, row.updatedAt)
        commands := commands.map fun row => (row.id, row.status, row.attempts)
        dependents := (db.dependentsOf server.id).map fun row => (row.id, row.status)
        users := users
        validations := validations.map fun row => (row.id, row.activeJobId, row.autoRenew)
        targets := targets.map fun row => (row.id, row.certificateId)
        leases := leases.map (·.id)
        blockers := blockers }
    nodes := nodes.map fun row => (row.id, row.name)
    plans := plans.map fun row => (row.id, row.name)
    changeSets := changes.map fun row => (row.id, row.name)
    certificates := certificateIds.filterMap fun id =>
      (db.certificates.find? (·.id == id)).map fun row => (row.id, row.name)
    commandCount := commands.length
    unfinishedCommandCount := (commands.filter (·.status ∉ finishedCommands)).length
    telemetryCount := (db.telemetry.filter (· == server.id)).length
    userCount := users.length
    blockers := blockers }

end Preview

section Removal

/-- `{key: value for key, value in entries if key not in identifiers}`. -/
def without (identifiers : List String) (entries : List (String × Json)) : List (String × Json) :=
  entries.filter (·.1 ∉ identifiers)

/-- A plan that lists a removed node, without these nodes. -/
def SubscriptionPlanModel.prune (identifiers : List String) (now : Nat) (plan : SubscriptionPlanModel) :
    SubscriptionPlanModel :=
  if meets identifiers plan.nodeIds then
    { plan with
      nodeIds := plan.nodeIds.filter (· ∉ identifiers)
      nodeMultipliers := without identifiers plan.nodeMultipliers
      nodeSpeedLimits := without identifiers plan.nodeSpeedLimits
      nodeDeviceLimits := without identifiers plan.nodeDeviceLimits
      nodeNameOverrides := without identifiers plan.nodeNameOverrides
      updatedAt := now }
  else plan

/-- `prune_node_overrides`, and the time of a user that it changed. -/
def ProductUserModel.prune (identifiers : List String) (now : Nat) (user : ProductUserModel) : ProductUserModel :=
  let speed := without identifiers user.nodeSpeedLimitOverrides
  let device := without identifiers user.nodeDeviceLimitOverrides
  { user with
    nodeSpeedLimitOverrides := speed
    nodeDeviceLimitOverrides := device
    updatedAt :=
      if speed.length ≠ user.nodeSpeedLimitOverrides.length ∨
        device.length ≠ user.nodeDeviceLimitOverrides.length then
        now
      else user.updatedAt }

/-- The steps of `_change_set_read`: the rows, and the ones archived before. -/
def Database.readSteps (db : Database) (change : AgentChangeSetModel) : List ArchivedStep :=
  (((db.steps.filter (·.changeSetId == change.id)).map fun step =>
      ({ id := step.id, sequence := step.sequence, serverId := step.serverId } : ArchivedStep)) ++
    change.archivedSteps).insertionSort fun step other => step.sequence ≤ other.sequence

/-- A change set of the server keeps its steps as an archive. -/
def Database.archiveSteps (db : Database) (now : Nat) (change : AgentChangeSetModel) : AgentChangeSetModel :=
  { change with
    archivedSteps := (db.readSteps change).map fun step =>
      { step with
        archived := true
        serverName := ((db.servers.find? (·.id == step.serverId)).map (·.name)).or step.serverName }
    updatedAt := now }

/-- The declared actions of the keys into `servers`, `managed_nodes` and
`agent_commands`, when a server is deleted. -/
def Database.deleteServer (db : Database) (server : String) : Database :=
  let nodes := db.nodeIdsOf server
  let commands := followers (dependencies db.commands) ((db.commandsOf server).map (·.id))
  let live : Option String → Option String := fun link => link.filter (· ∉ nodes)
  let waiting : Option String → Option String := fun link => link.filter (· ∉ commands)
  { db with
    servers := db.servers.filter (·.id != server)
    nodes := (db.nodes.filter (·.serverId != some server)).map fun node =>
      { node with parentId := live node.parentId, targetNodeId := live node.targetNodeId }
    topologies := db.topologies.filter (·.id ∉ nodes)
    credentials := db.credentials.filter fun row => row.serverId != server && decide (row.nodeId ∉ nodes)
    access := (db.access.filter (·.serverId != server)).map fun row =>
      { row with commandId := waiting row.commandId }
    ledgers := db.ledgers.filter (·.serverId != server)
    telemetry := db.telemetry.filter (· != server)
    commands := db.commands.filter (·.id ∉ commands)
    steps := (db.steps.filter (·.serverId != server)).map fun step =>
      { step with
        forwardCommandId := waiting step.forwardCommandId
        rollbackCommandId := waiting step.rollbackCommandId }
    locks := db.locks.filter (· != server) }

structure ServerRemovalRequest where
  expectedRevision : String
  confirmName : String

structure ServerRemovalResponse where
  serverId : String
  removedNodeCount : Nat
  updatedPlanCount : Nat
deriving DecidableEq

/-- A command of another server waits no longer for one of the server. -/
def CommandModel.release (server : String) (commands : List String) (command : CommandModel) : CommandModel :=
  if command.serverId ≠ server ∧ command.dependsOnCommandId.any (· ∈ commands) then
    { command with dependsOnCommandId := none }
  else command

/-- What a removal writes before it deletes the server. -/
def Database.detach (db : Database) (server : String) (now : Nat) : Database :=
  let nodes := db.nodeIdsOf server
  let changes := (db.changesOf server).map (·.id)
  let commands := (db.commandsOf server).map (·.id)
  { db with
    plans := db.plans.map (·.prune nodes now)
    users := db.users.map (·.prune nodes now)
    changes := db.changes.map fun change => if change.id ∈ changes then db.archiveSteps now change else change
    steps := db.steps.filter (·.changeSetId ∉ changes)
    certificates := db.certificates.map fun row =>
      if row.validationServerId = some server then
        { row with
          autoRenew := false
          lastError := some "Validation server removed; choose a new validation server" }
      else row
    targets := db.targets.filter (·.serverId != server)
    commands := db.commands.map (·.release server commands) }

/-- `ServerManagement.remove`, without the archived traffic. -/
def Database.remove (panel : Panel) (db : Database) (identifier : String) (payload : ServerRemovalRequest)
    (now : Nat) :
    Except ServerManagementError (Database × ServerRemovalResponse) := do
  let server ← db.server identifier
  require (server.id ∉ db.federated) (.conflict "Shared servers must be changed or removed from server sharing")
  let preview := db.impact panel server
  require (preview.revision = payload.expectedRevision ∧ server.name = payload.confirmName)
    (.conflict "Removal details changed; review a fresh preview")
  require (preview.blockers = []) (.conflict ("; ".intercalate preview.blockers))
  .ok ((db.detach server.id now).deleteServer server.id,
    { serverId := server.id
      removedNodeCount := (db.nodesOf server.id).length
      updatedPlanCount := (db.plansOf server.id).length })

/-- The transaction: what is refused is rolled back. -/
def Database.transact (panel : Panel) (db : Database) (identifier : String) (payload : ServerRemovalRequest)
    (now : Nat) :
    Database :=
  match db.remove panel identifier payload now with
  | .ok (removed, _) => removed
  | .error _ => db

end Removal

end OpenNode.ServerRemoval
