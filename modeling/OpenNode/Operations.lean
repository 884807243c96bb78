import OpenNode.CommandLease

namespace OpenNode

/-- The transactions that act on the queue. Each carries the time it reads
and what it reads from tables outside the queue. Both transports claim a
command by `claim`; a poll of several commands is several claims. The commands
queued when an Agent registers are a `createSequence`. -/
inductive Operation where
  | createServer (federated : Bool)
  | registerAgent (server : ServerId) (capabilities : List Capability)
  | createSequence (server : ServerId) (payloads : List CommandPayload)
  | createChangeSet (rollbackOnFailure : Bool) (steps : List Inventory.StepCreate)
  | dispatch (change : ChangeSetId) (pending : ServerId → Bool)
  | rollback (change : ChangeSetId) (pending : ServerId → Bool) (reason : String)
  | accept (change : ChangeSetId) (reason : String)
  | claim (command : CommandId) (view : AccessView)
  | capabilityLoss (command : CommandId)
  | releaseLease (command : CommandId) (attempts : Nat)
  | result (command : CommandId) (result : CommandResult)
  | trackAccess (username : String) (server : ServerId)
  | reconcile (rows : List Nat) (view : Nat → Inventory.RowView) (force : Bool) (timeoutMs : Nat)

namespace Inventory

variable (env : Env)

/-- `create_command_sequence`, of which `create_command` is the case of one payload. -/
def createCommandSequence (s : Inventory) (server : ServerId) (payloads : List CommandPayload)
    (now : Time) : Except Refusal Inventory :=
  if (s.servers[server]?).isNone then .error (.serverNotFound server)
  else s.createSequence env server now none payloads

/-- One transaction; a refusal aborts it. -/
def transact (s : Inventory) (now : Time) : Operation → Except Refusal Inventory
  | .createServer federated => .ok { s with servers := s.servers ++ [{ federated := federated }] }
  | .registerAgent server capabilities =>
    .ok { s with servers := s.servers.modify server fun model =>
      { model with agent := some capabilities } }
  | .createSequence server payloads => s.createCommandSequence env server payloads now
  | .createChangeSet rollbackOnFailure steps =>
    s.createChangeSetModel env rollbackOnFailure steps now
  | .dispatch change pending => (s.dispatchModel env pending change now).map Prod.fst
  | .rollback change pending reason => (s.rollback env pending change reason now).map Prod.fst
  | .accept change reason => s.accept change reason now
  | .claim command view => (s.claimCommandLease env view command now).map Prod.fst
  | .capabilityLoss command => s.reconcileCommandCapabilityLoss env command now
  | .releaseLease command attempts => s.releaseCommandLease command attempts now
  | .result command result => s.applyCommandResult env command result now
  | .trackAccess username server =>
    .ok { s with access := s.access ++ [{ username := username, serverId := server }] }
  | .reconcile rows view force timeoutMs => reconcile env view force timeoutMs now rows s

/-- The state after an operation: a refused transaction leaves every table. -/
def step (s : Inventory) (now : Time) (operation : Operation) : Inventory :=
  match s.transact env now operation with
  | .ok t => t
  | .error _ => s

end Inventory

/-- The states of a run that starts in `start`. -/
inductive Run (env : Env) (start : Inventory) : Inventory → Prop where
  | refl : Run env start start
  | step {s : Inventory} (now : Time) (operation : Operation) :
      Run env start s → Run env start (s.step env now operation)

/-- The states reachable from an empty installation. -/
abbrev Reachable (env : Env) : Inventory → Prop := Run env {}

/-- The state after a list of transactions. -/
def Inventory.perform (env : Env) (s : Inventory) (operations : List (Time × Operation)) : Inventory :=
  operations.foldl (fun s entry => s.step env entry.1 entry.2) s

theorem Run.perform {env : Env} {start s : Inventory} (run : Run env start s)
    (operations : List (Time × Operation)) : Run env start (s.perform env operations) := by
  induction operations generalizing s with
  | nil => exact run
  | cons entry rest ih => exact ih (.step entry.1 entry.2 run)

theorem reachable_perform (env : Env) (operations : List (Time × Operation)) :
    Reachable env (Inventory.perform env {} operations) :=
  Run.perform .refl operations

/-- An environment whose Agents accept every message. -/
def Env.unbounded : Env :=
  { revision := fun _ => "", wireBytes := fun _ => some 0 }

end OpenNode
