import OpenNode.Json

namespace OpenNode

abbrev ServerId := Nat
abbrev CommandId := Nat
abbrev ChangeSetId := Nat

/-- Microseconds since the epoch. -/
abbrev Time := Nat

inductive CommandStatus where
  | waiting | pending | leased | succeeded | failed | skipped
deriving DecidableEq, Repr

/-- The set `TERMINAL` of command statuses. -/
def CommandStatus.terminal : CommandStatus → Bool
  | .succeeded | .failed | .skipped => true
  | _ => false

inductive Method where
  | get | post | put | patch | delete
deriving DecidableEq, Repr

/-- `AgentCommandCreate`, whose validators have normalised the method. -/
structure CommandPayload where
  method : Method := .get
  path : String
  query : String := ""
  body : Json := .null
  timeoutMs : Nat := 30000
  stream : Bool := false

/-- `CommandModel`. -/
structure Command where
  serverId : ServerId
  payload : CommandPayload
  status : CommandStatus
  dependsOn : Option CommandId := none
  attempts : Nat := 0
  resultStatus : Option Nat := none
  resultBody : Json := .null
  resultError : Option String := none
  createdAt : Time
  leasedAt : Option Time := none
  completedAt : Option Time := none
  updatedAt : Time

/-- `in_flight` of the change-set module. -/
def Command.inFlight (command : Command) : Bool :=
  !command.status.terminal && 0 < command.attempts

/-- `attempted` of the change-set module. -/
def Command.attempted (command : Command) : Bool :=
  0 < command.attempts || command.status == .succeeded || command.status == .failed

inductive ChangeSetStatus where
  | planned | dispatched | rollbackQueued | succeeded | failed | rolledBack
  | rollbackFailed | rollbackIncomplete | cancelled | accepted | needsReview
deriving DecidableEq, Repr

/-- `AgentChangeSetStepModel`. A change set holds its steps by `sequence`. -/
structure ChangeStep where
  serverId : ServerId
  forward : CommandPayload
  rollback : Option CommandPayload := none
  forwardCommandId : Option CommandId := none
  rollbackCommandId : Option CommandId := none
  rollbackHistoryIds : List CommandId := []

/-- `AgentChangeSetModel` with the steps of `_change_set_steps`. -/
structure ChangeSet where
  status : ChangeSetStatus := .planned
  rollbackOnFailure : Bool := true
  rollbackReason : String := ""
  resolutionReason : String := ""
  coordinationVersion : Nat := 1
  archivedSteps : Bool := false
  steps : List ChangeStep
  updatedAt : Time

/-- `ChangeSetServerLockModel`. -/
structure ServerLock where
  serverId : ServerId
  changeSetId : ChangeSetId
deriving DecidableEq, Repr

/-- The Agent capabilities that a command may require. -/
inductive Capability where
  | nativeLimiter | userAutoSpeedRules | subscriptionAccess | nodeCleanup
  | xrayConfigWorkspace | agentSwitchXrayMode | agentSwitchListenPort
  | agentProbeMasterUrl | agentUpdateMasterUrl | managedProtocols
deriving DecidableEq, Repr

def Capability.name : Capability → String
  | .nativeLimiter => "native_limiter"
  | .userAutoSpeedRules => "user_auto_speed_rules"
  | .subscriptionAccess => "subscription_access"
  | .nodeCleanup => "node_cleanup"
  | .xrayConfigWorkspace => "xray_config_workspace"
  | .agentSwitchXrayMode => "agent_switch_xray_mode"
  | .agentSwitchListenPort => "agent_switch_listen_port"
  | .agentProbeMasterUrl => "agent_probe_master_url"
  | .agentUpdateMasterUrl => "agent_update_master_url"
  | .managedProtocols => "managed_protocols"

/-- `required_capability.replace("_", " ")`. -/
def Capability.words (capability : Capability) : String :=
  capability.name.map fun c => if c = '_' then ' ' else c

/-- The part of a `ServerModel` that admission reads: whether it is the local
projection of a shared server, and the registered Agent's capabilities. -/
structure Server where
  federated : Bool := false
  agent : Option (List Capability) := none

/-- The row of `SubscriptionAccessModel`, reduced to its link into the queue. -/
structure AccessRow where
  username : String
  serverId : ServerId
  commandId : Option CommandId := none

structure Inventory where
  servers : List Server := []
  commands : List Command := []
  changes : List ChangeSet := []
  locks : List ServerLock := []
  access : List AccessRow := []

/-- Exceptions that abort a transaction. -/
inductive Refusal where
  | serverNotFound (id : ServerId)
  | commandNotFound (id : CommandId)
  | changeSetNotFound (id : ChangeSetId)
  | agentCommandPayload (message : String)
  | agentCapabilityUnavailable (message : String)
  | changeSetConflict (message : String)
  | commandNotReady (message : String)
deriving DecidableEq, Repr

/-- Library functions the services call: the digest of a canonical JSON list,
and the size of the encoded wire message, `none` when it cannot be encoded. -/
structure Env where
  revision : List Json → String
  wireBytes : CommandPayload → Option Nat

namespace Inventory

def modifyCommand (s : Inventory) (id : CommandId) (f : Command → Command) : Inventory :=
  { s with commands := s.commands.modify id f }

def addCommand (s : Inventory) (command : Command) : Inventory :=
  { s with commands := s.commands ++ [command] }

def modifyChange (s : Inventory) (id : ChangeSetId) (f : ChangeSet → ChangeSet) : Inventory :=
  { s with changes := s.changes.modify id f }

/-- `session.get(ChangeSetServerLockModel, server_id)`. -/
def lock? (s : Inventory) (server : ServerId) : Option ServerLock :=
  s.locks.find? fun lock => lock.serverId == server

section

variable (s : Inventory)
include s

@[simp] theorem modifyCommand_commands (id : CommandId) (f : Command → Command) :
    (s.modifyCommand id f).commands = s.commands.modify id f := rfl

@[simp] theorem addCommand_commands (command : Command) :
    (s.addCommand command).commands = s.commands ++ [command] := rfl

@[simp] theorem modifyChange_commands (id : ChangeSetId) (f : ChangeSet → ChangeSet) :
    (s.modifyChange id f).commands = s.commands := rfl

@[simp] theorem modifyChange_locks (id : ChangeSetId) (f : ChangeSet → ChangeSet) :
    (s.modifyChange id f).locks = s.locks := rfl

@[simp] theorem modifyChange_changes (id : ChangeSetId) (f : ChangeSet → ChangeSet) :
    (s.modifyChange id f).changes = s.changes.modify id f := rfl

end

end Inventory

end OpenNode
