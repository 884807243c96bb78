import OpenNode.Inventory

namespace OpenNode

open Inventory

def agentSettingsCapabilities : List (String × Capability) :=
  [("/api/child/agent/switch-xray-mode", .agentSwitchXrayMode),
   ("/api/child/agent/switch-listen-port", .agentSwitchListenPort),
   ("/api/child/agent/probe-master-url", .agentProbeMasterUrl),
   ("/api/child/agent/update-master-url", .agentUpdateMasterUrl)]

def xrayConfigWorkspacePaths : List String :=
  ["/api/child/xray/config-files", "/api/child/xray/system-config"]

/-- The users whose rules a limiter command carries: `users` of a limiter
command, the `user` of each entry of a batch. -/
def ruleUsers (path : String) (body : Json) : List Json :=
  if path = "/api/child/limiter" then (body.get "users").items?.getD []
  else if path = "/api/child/batch-apply" then
    (((body.get "limiter_users").items?.getD []).filter Json.isObj).map fun item => item.get "user"
  else []

/-- `required_command_capabilities`, in the order in which they are checked. -/
def requiredCommandCapabilities (path : String) (body : Json) : List Capability :=
  let needsLimiter := path == "/api/child/limiter" ||
    (path == "/api/child/batch-apply" && (body.get "limiter_users").truthy)
  let needsUserRules := (ruleUsers path body).any fun user =>
    user.isObj && (user.get "auto_speed_rules").truthy
  (if needsLimiter then [.nativeLimiter] else []) ++
  (if needsUserRules then [.userAutoSpeedRules] else []) ++
  (if path = "/api/child/node-cleanup" then [.nodeCleanup] else []) ++
  (if path ∈ xrayConfigWorkspacePaths then [.xrayConfigWorkspace] else []) ++
  (agentSettingsCapabilities.lookup path).toList ++
  (if path = "/api/child/managed-protocols" then [.managedProtocols] else [])

def maxAgentMessageBytes : Nat := 4 * 1024 * 1024

/-- `AgentCommandCreate.validate_wire_payload`: the error it raises. -/
def CommandPayload.wireError (env : Env) (payload : CommandPayload) : Option String :=
  match env.wireBytes payload with
  | none => some "Command must contain valid UTF-8 JSON"
  | some size =>
    if size > maxAgentMessageBytes then some "Agent command exceeds the 4 MiB wire limit" else none

/-- The operations a shared server takes from its consumer. -/
def CommandPayload.federationScope (payload : CommandPayload) : Bool :=
  payload.method == .post &&
    (payload.path == "/api/child/inbounds" || payload.path == "/api/child/subscription-access") &&
    payload.query == "" && !payload.stream

def Server.has (server : Server) (capability : Capability) : Bool :=
  match server.agent with
  | some capabilities => capabilities.contains capability
  | none => false

/-- `_validate_command_capabilities`: the error it raises. Only the newly
introduced surfaces are checked before a command is queued. -/
def Server.createError (server : Server) (payload : CommandPayload) : Option String :=
  if server.federated then
    if payload.federationScope then none
    else some "Shared servers are controlled through the owner's federation interface"
  else
    let required := (requiredCommandCapabilities payload.path payload.body).filter fun capability =>
      capability == .xrayConfigWorkspace ||
        (agentSettingsCapabilities.map Prod.snd).contains capability
    match required.filter (!server.has ·) with
    | [] => none
    | capability :: _ =>
      if capability = .xrayConfigWorkspace then
        some ("Upgrade the Open Node Agent on this server before using Xray system " ++
          "configuration or config files (missing xray_config_workspace capability)")
      else
        some ("This Agent cannot execute the requested operation (missing " ++
          capability.name ++ " capability)")

/-- `_required_capability_error`, checked again when a lease is claimed. -/
def Server.leaseError (server : Server) (payload : CommandPayload) : Option String :=
  if server.federated && payload.federationScope then none
  else
    match (requiredCommandCapabilities payload.path payload.body).filter (!server.has ·) with
    | [] => none
    | capability :: _ =>
      some ("Not sent: this command requires an Open Node Agent with " ++ capability.words ++ " support")

namespace Inventory

variable (env : Env)

def statusOf (s : Inventory) (id : CommandId) : Option CommandStatus :=
  s.commands[id]?.map Command.status

/-- The status `_new_command_model` gives an unskipped command. -/
def initialStatus (s : Inventory) (dependsOn : Option CommandId) : CommandStatus :=
  match dependsOn with
  | none => .pending
  | some previous => if s.statusOf previous = some .succeeded then .pending else .waiting

/-- `_new_command_model`; the new command's identifier is the length of the table. -/
def newCommandModel (s : Inventory) (server : ServerId) (payload : CommandPayload) (now : Time)
    (dependsOn : Option CommandId) (skippedError : Option String := none) : Inventory :=
  s.addCommand
    { serverId := server
      payload := payload
      status := if skippedError.isSome then .skipped else s.initialStatus dependsOn
      dependsOn := dependsOn
      resultStatus := if skippedError.isSome then some 501 else none
      resultError := skippedError
      completedAt := if skippedError.isSome then some now else none
      createdAt := now
      updatedAt := now }

def createCommandModel (s : Inventory) (server : ServerId) (payload : CommandPayload) (now : Time)
    (dependsOn : Option CommandId := none) : Except Refusal Inventory :=
  match payload.wireError env with
  | some message => .error (.agentCommandPayload message)
  | none =>
    match s.servers[server]? with
    | none => .error (.serverNotFound server)
    | some model =>
      match model.createError payload with
      | some message => .error (.agentCapabilityUnavailable message)
      | none => .ok (s.newCommandModel server payload now dependsOn)

def createSkippedCommandModel (s : Inventory) (server : ServerId) (payload : CommandPayload)
    (now : Time) (error : String) (dependsOn : Option CommandId) : Except Refusal Inventory :=
  match payload.wireError env with
  | some message => .error (.agentCommandPayload message)
  | none => .ok (s.newCommandModel server payload now dependsOn (some error))

/-- The loop of `create_command_sequence`: each command waits for the one before. -/
def createSequence (s : Inventory) (server : ServerId) (now : Time) :
    Option CommandId → List CommandPayload → Except Refusal Inventory
  | _, [] => .ok s
  | previous, payload :: rest =>
    match s.createCommandModel env server payload now previous with
    | .error refusal => .error refusal
    | .ok t => createSequence t server now (some s.commands.length) rest

/-- The assignments `_advance_command_dependents` makes to a waiting child. -/
def advanceChild (predecessor : CommandId) (succeeded : Bool) (now : Time) (child : Command) :
    Command :=
  if succeeded then { child with status := .pending, updatedAt := now }
  else
    { child with
      status := .skipped
      completedAt := some now
      resultError := some s!"Skipped because prerequisite {predecessor} did not succeed"
      updatedAt := now }

/-- Whether a command is one of the children that the loop selects. -/
def isWaitingChild (predecessor : CommandId) (command : Command) : Bool :=
  command.dependsOn == some predecessor && command.status == .waiting

def waitingChildren (s : Inventory) (predecessor : CommandId) : List CommandId :=
  (List.range s.commands.length).filter fun id =>
    s.commands[id]?.any (isWaitingChild predecessor)

/-- One pass of the loop: every waiting child of `predecessor` is assigned. -/
def advanceChildren (s : Inventory) (predecessor : CommandId) (now : Time) : Inventory :=
  let succeeded := s.statusOf predecessor == some .succeeded
  { s with commands := s.commands.map fun command =>
      if isWaitingChild predecessor command then advanceChild predecessor succeeded now command
      else command }

/-- The work list of `_advance_command_dependents`, whose head is popped next.
Every predecessor after the first was a waiting command, so the number of
commands plus one bounds the passes. -/
def advanceLoop (now : Time) : Nat → List CommandId → Inventory → Inventory
  | 0, _, s => s
  | _ + 1, [], s => s
  | fuel + 1, predecessor :: rest, s =>
    advanceLoop now fuel
      (if s.statusOf predecessor = some .succeeded then rest
        else (s.waitingChildren predecessor).reverse ++ rest)
      (s.advanceChildren predecessor now)

def advanceCommandDependents (s : Inventory) (id : CommandId) (now : Time) : Inventory :=
  advanceLoop now (s.commands.length + 1) [id] s

/-- The shape of every termination of a command: its row is assigned and its
dependents are advanced. -/
def finishCommand (s : Inventory) (id : CommandId) (now : Time) (f : Command → Command) : Inventory :=
  (s.modifyCommand id f).advanceCommandDependents id now

def releaseCommandLease (s : Inventory) (id : CommandId) (attempts : Nat) (now : Time) :
    Except Refusal Inventory :=
  match s.commands[id]? with
  | none => .error (.commandNotFound id)
  | some command =>
    if command.status = .leased ∧ command.attempts = attempts then
      .ok (s.modifyCommand id fun command =>
        { command with status := .pending, leasedAt := none, updatedAt := now })
    else .ok s

end Inventory

def Command.leaseExpired (command : Command) (now : Time) : Bool :=
  match command.leasedAt with
  | none => true
  | some leasedAt => leasedAt + command.payload.timeoutMs * 1000 ≤ now

/-- `_command_is_lease_candidate`. -/
def Command.isLeaseCandidate (command : Command) (now : Time) : Bool :=
  command.status == .pending || (command.status == .leased && command.leaseExpired now)

end OpenNode
