import OpenNode.ChangeSets

namespace OpenNode

/-- `ENDPOINT` of the access coordinator. -/
def accessEndpoint : String := "/api/child/subscription-access"

/-- `ENDPOINT` of node cleanup. -/
def nodeCleanupEndpoint : String := "/api/child/node-cleanup"

def commandClients (payload : CommandPayload) : List Json :=
  if payload.path ≠ "/api/child/batch-apply" then []
  else
    ((payload.body.get "inbound_clients").items?.getD []).filter fun item =>
      (item.get "tag").str?.isSome && ((item.get "client").get "email").str?.isSome

def accessEntries (env : Env) (payload : CommandPayload) : Option (List Json) :=
  match (payload.body.get "entries").items? with
  | none => none
  | some entries =>
    if entries.isEmpty || entries.any fun item => (item.get "enabled").bool?.isNone then none
    else if (payload.body.get "revision").equal (.str (env.revision entries)) then some entries
    else none

/-- What the node-removal jobs say about an unattempted command. -/
inductive RemovalVerdict where
  | allow | hold | retire
deriving DecidableEq, Repr

/-- What the access and node-removal tables answer when a lease is claimed:
the decision of `NodeManagement.can_lease` for an unattempted command, that
of `UserManagement.retired_restore`, the error of a legacy batch that no
longer matches the desired access, and whether the row of an access command
desires another body. -/
structure AccessView where
  removal : CommandId → Command → RemovalVerdict := fun _ _ => .allow
  retiredRestore : Command → Bool := fun _ => false
  legacyError : Command → Option String := fun _ => none
  superseded : CommandId → Command → Bool := fun _ _ => false

/-- Outcome of `SubscriptionAccessCoordinator.can_lease`. -/
inductive AccessVerdict where
  | allow
  | hold
  | skip (error : String)
deriving DecidableEq, Repr

/-- The part of `can_lease` about an access command of a local Agent: the
error that keeps it from being sent. -/
def accessError (env : Env) (view : AccessView) (server : Server) (id : CommandId)
    (command : Command) : Option String :=
  let stale := command.attempts == 0 && view.superseded id command
  if stale then some "Not sent: subscription access changed before dispatch"
  else
    match accessEntries env command.payload with
    | none => some "Not sent: invalid subscription access payload"
    | some entries =>
      if !server.has .subscriptionAccess then
        some "Not sent: upgrade the Agent for managed subscription access"
      else if (entries.any fun entry => (entry.get "limiter").truthy) &&
          !server.has .nativeLimiter then
        some "Not sent: managed plan limits require native limiter support"
      else if (entries.any fun entry =>
            (((entry.get "limiter").get "user").get "auto_speed_rules").truthy) &&
          !server.has .userAutoSpeedRules then
        some "Not sent: upgrade the Agent for per-user automatic speed rules"
      else none

/-- `can_lease` of the access coordinator. -/
def accessCanLease (env : Env) (view : AccessView) (server : Server) (id : CommandId)
    (command : Command) : AccessVerdict :=
  let unattempted := command.attempts == 0
  if unattempted && view.removal id command == .retire then
    .skip "Not sent: node removal retired these resources"
  else if unattempted && view.removal id command == .hold then .hold
  else if unattempted && view.retiredRestore command then
    .skip "Not sent: user removal retired these credentials"
  else
    match (if !(commandClients command.payload).isEmpty && unattempted
      then view.legacyError command else none) with
    | some error => .skip error
    | none =>
      if command.payload.path ≠ accessEndpoint then .allow
      else if server.federated then
        if (accessEntries env command.payload).isNone then
          .skip "Not sent: invalid subscription access payload"
        else .allow
      else
        match accessError env view server id command with
        | none => .allow
        | some error => if unattempted then .skip error else .hold

/-- `AgentCommandResultRequest` without its token. -/
structure CommandResult where
  status : Nat
  body : Json := .null
  error : Option String := none

/-- `confirmation_error` of the access coordinator. -/
def accessConfirmationError (env : Env) (command : Command) (body : Json) : Option String :=
  if command.payload.path ≠ accessEndpoint then none
  else if command.attempts = 0 then
    some "Unleased subscription access commands cannot be confirmed"
  else
    match accessEntries env command.payload with
    | none => some "Invalid subscription access command cannot be confirmed"
    | some entries =>
      let confirmation := body.get "access"
      let enabled := entries.countP fun item => (item.get "enabled").bool? == some true
      let counts (key : String) (expected : Nat) : Bool :=
        match confirmation.get key with
        | .int value => value == expected
        | _ => false
      if (confirmation.get "applied").bool? = some true ∧
          (confirmation.get "revision").equal (command.payload.body.get "revision") = true ∧
          counts "enabled" enabled = true ∧ counts "disabled" (entries.length - enabled) = true ∧
          (body.get "restart_required").bool? ≠ some true then none
      else some "Agent did not confirm the requested subscription access state"

/-- The regular expression `[0-9a-f]{64}`. -/
def isRevision (value : Json) : Bool :=
  match value with
  | .str text => text.length == 64 &&
      text.toList.all fun c => ('0' ≤ c ∧ c ≤ '9') ∨ ('a' ≤ c ∧ c ≤ 'f')
  | _ => false

/-- `confirmation_error` of node cleanup. -/
def cleanupConfirmationError (command : Command) (body : Json) : Option String :=
  let requested := command.payload.body
  let value := body.get "node_cleanup"
  let success := (body.get "success").bool? == some true
  let restart := (body.get "restart_required").bool? == some true
  let sameOperation := (requested.get "operation_id").truthy &&
    (value.get "operation_id").equal (requested.get "operation_id")
  if command.payload.path ≠ nodeCleanupEndpoint then none
  else if (requested.get "action").str? = some "status" ∧ value.isObj ∧
      (value.get "exists").bool? = some false then
    if 0 < command.attempts ∧ success ∧ !restart ∧ sameOperation ∧
        (value.get "applied").bool? = some false ∧ (value.get "revision").equal .null ∧
        (value.get "impact").equal (.obj []) then none
    else some "Agent did not confirm the absent node cleanup operation"
  else if command.attempts = 0 ∨ !success ∨ restart ∨ !value.isObj ∨ !isRevision (value.get "revision")
      ∨ !(value.get "impact").isObj ∨ (value.get "applied").bool?.isNone ∨
      !(value.find? "exists").all (·.bool? == some true) then
    some "Agent did not confirm the native node cleanup operation"
  else
    match (requested.get "action").str? with
    | some "apply" =>
      if (value.get "applied").bool? = some true ∧
          (value.get "revision").equal (requested.get "expected_revision") ∧ sameOperation then none
      else some "Agent did not confirm the requested node cleanup identity and revision"
    | some "preview" =>
      if (value.get "applied").truthy then
        some "Node cleanup preview unexpectedly reported an applied operation"
      else none
    | some "status" =>
      if sameOperation then none else some "Node cleanup status identity does not match"
    | _ => some "Unknown node cleanup action cannot be confirmed"

/-- Whether a user of a limiter batch asks for a limit. -/
def requestsLimit (item : Json) : Bool :=
  let user := item.get "user"
  let nonzero (key : String) : Bool := (user.find? key).any fun value => !value.equal (.int 0)
  !user.isObj || nonzero "speed_limit" || nonzero "device_limit" ||
    (user.get "auto_speed_rules").truthy

/-- The confirmation that a batch with limiter users needs. -/
def limiterConfirmationError (command : Command) (body : Json) : Option String :=
  let requested :=
    match (command.payload.body.get "limiter_users").items? with
    | some users => users.any requestsLimit
    | none => true
  if command.payload.path ≠ "/api/child/batch-apply" ∨
      !(command.payload.body.get "limiter_users").truthy then none
  else
    let confirmation := body.get "limiter"
    if (confirmation.get "applied").bool? = some true ∧
        (isRevision (confirmation.get "revision") ∨
          (!requested ∧ (confirmation.get "unlimited").bool? = some true)) then none
    else some "Agent did not confirm native limiter enforcement"

/-- The error that `_apply_command_result` records, in the order of its checks. -/
def resultError (env : Env) (command : Command) (result : CommandResult) : Option String :=
  let body := if result.body.isObj then result.body else .obj []
  let given := result.error.bind fun error => if error = "" then none else some error
  let reported := if (body.get "success").bool? = some false then
    some "Agent reported an unsuccessful result" else none
  let confirmation := if result.status < 400 then
    ((accessConfirmationError env command body).or (cleanupConfirmationError command body)).or
      (limiterConfirmationError command body) else none
  let tested := if command.payload.path = "/api/child/xray/test-config" ∧
      (body.get "ok").bool? ≠ some true then
    some "Xray configuration validation did not return ok=true" else none
  ((given.or reported).or confirmation).or tested

def xrayMutatingPathPrefixes : List String :=
  ["/api/child/xray/install", "/api/child/xray/install-stream", "/api/child/xray/rollback",
   "/api/child/tunnel/deploy", "/api/child/inbounds", "/api/child/outbounds",
   "/api/child/routing", "/api/child/egress/apply", "/api/child/warp/install",
   "/api/child/warp/license", "/api/child/warp/remove", "/api/child/batch-apply",
   "/api/child/subscription-access", "/api/child/xray/config", "/api/child/xray/config-files",
   "/api/child/xray/system-config", "/api/child/external-xray/takeover"]

def shouldRefreshXraySnapshotAfter (payload : CommandPayload) : Bool :=
  let path := payload.path.toList.takeWhile (· != '?')
  if payload.method = .get then false
  else if path = nodeCleanupEndpoint.toList then
    payload.body.isObj && (payload.body.get "action").str? == some "apply"
  else
    xrayMutatingPathPrefixes.any fun known =>
      path == known.toList || (known.toList ++ ['/']).isPrefixOf path

/-- The command that `_queue_xray_snapshot_refresh_after_mutation` queues. -/
def snapshotRefresh : CommandPayload :=
  { method := .get
    path := "/api/child/xray/config"
    query := "snapshot_source=master_write"
    timeoutMs := 60000 }

/-- Whether a queued command is an unfinished snapshot refresh of a server. -/
def isSnapshotRefresh (server : ServerId) (command : Command) : Bool :=
  command.serverId == server && command.payload.method == .get &&
    command.payload.path == snapshotRefresh.path && command.payload.query == snapshotRefresh.query &&
    (command.status == .pending || command.status == .leased)

namespace Inventory

variable (env : Env)

/-- `SubscriptionAccessCoordinator.skip`. -/
def skip (s : Inventory) (id : CommandId) (now : Time) (error : String) : Except Refusal Inventory :=
  (s.finishCommand id now fun command =>
    { command with
      status := .skipped
      resultError := some error
      completedAt := some now
      updatedAt := now }).advanceAfterResult env id now

/-- The row that `_terminalize_unleaseable_command` leaves. -/
def terminalizedCommand (now : Time) (error : String) (resultStatus : Nat) (command : Command) :
    Command :=
  { command with
    status := if 0 < command.attempts then .failed else .skipped
    resultStatus := some resultStatus
    resultError :=
      if 0 < command.attempts then
        some ("Not retried after an earlier dispatch because its outcome is unknown. " ++
          (if ("Not sent: ".toList).isPrefixOf error.toList then
            String.ofList (error.toList.drop 10) else error))
      else some error
    leasedAt := none
    completedAt := some now
    updatedAt := now }

/-- `_terminalize_unleaseable_command`. The access rows it marks are not part
of the queue. -/
def terminalizeUnleaseableCommand (s : Inventory) (id : CommandId) (now : Time) (error : String)
    (resultStatus : Nat) : Except Refusal Inventory :=
  (s.finishCommand id now (terminalizedCommand now error resultStatus)).advanceAfterResult env id now

/-- The conditional update that grants a lease. Claims are serialized, so the
version it compares is the one just read. -/
def grantLease (s : Inventory) (id : CommandId) (now : Time) : Inventory :=
  s.modifyCommand id fun command =>
    { command with
      status := .leased
      attempts := command.attempts + 1
      leasedAt := some now
      updatedAt := now }

/-- `_claim_command_lease`, with whether the lease was granted. -/
def claimCommandLease (view : AccessView) (s : Inventory) (id : CommandId) (now : Time) :
    Except Refusal (Inventory × Bool) :=
  match s.commands[id]? with
  | none => .error (.commandNotFound id)
  | some command =>
    match s.servers[command.serverId]? with
    | none => .error (.serverNotFound command.serverId)
    | some server =>
      if !command.isLeaseCandidate now then .ok (s, false)
      else if !s.canLease id command then .ok (s, false)
      else
        match accessCanLease env view server id command with
        | .hold => .ok (s, false)
        | .skip error => (s.skip env id now error).map (·, false)
        | .allow =>
          match server.leaseError command.payload with
          | some error =>
            (s.terminalizeUnleaseableCommand env id now error 501).map (·, false)
          | none =>
            match command.payload.wireError env with
            | some error =>
              (s.terminalizeUnleaseableCommand env id now ("Not sent: " ++ error) 422).map (·, false)
            | none => .ok (s.grantLease id now, true)

def reconcileCommandCapabilityLoss (s : Inventory) (id : CommandId) (now : Time) :
    Except Refusal Inventory :=
  match s.commands[id]? with
  | none => .error (.commandNotFound id)
  | some command =>
    match s.servers[command.serverId]? with
    | none => .error (.serverNotFound command.serverId)
    | some server =>
      if command.isLeaseCandidate now then
        match server.leaseError command.payload with
        | some error => s.terminalizeUnleaseableCommand env id now error 501
        | none => .ok s
      else .ok s

/-- `_queue_xray_snapshot_refresh_after_mutation`. -/
def queueXraySnapshotRefresh (s : Inventory) (command : Command) (result : CommandResult)
    (now : Time) : Except Refusal Inventory :=
  if (result.error.any (· != "")) || 400 ≤ result.status then .ok s
  else if !shouldRefreshXraySnapshotAfter command.payload then .ok s
  else if (s.servers[command.serverId]?).any Server.federated then .ok s
  else if s.commands.any (isSnapshotRefresh command.serverId) then .ok s
  else s.createCommandModel env command.serverId snapshotRefresh now

/-- The row that an accepted result leaves. -/
def completedCommand (result : CommandResult) (error : Option String) (now : Time) (command : Command) :
    Command :=
  { command with
    status := if error.isSome || 400 ≤ result.status then .failed else .succeeded
    resultStatus := some result.status
    resultBody := result.body
    resultError := error.or result.error
    completedAt := some now
    updatedAt := now }

def applyCommandResult (s : Inventory) (id : CommandId) (result : CommandResult) (now : Time) :
    Except Refusal Inventory :=
  match s.commands[id]? with
  | none => .error (.commandNotFound id)
  | some command =>
    if command.status.terminal then .ok s
    else if command.status = .waiting then
      .error (.commandNotReady s!"command is waiting for prerequisite: {id}")
    else if !s.validateResult id command then
      .error (.commandNotReady "Reserved commands require a lease before result submission")
    else
      let error := resultError env command result
      let t := s.finishCommand id now (completedCommand result error now)
      let refreshed :=
        if error.isSome || 400 ≤ result.status then .ok t
        else t.queueXraySnapshotRefresh env command result now
      match refreshed with
      | .error refusal => .error refusal
      | .ok t => t.advanceAfterResult env id now

/-- What `reconcile` reads of a row besides its command: the desired body and
the columns that say whether that body was applied or may be retried. -/
structure RowView where
  desired : Json
  appliedRevision : Json := .null
  retryAt : Option Time := none

/-- Whether a batch with clients is still in flight on the row's server. -/
def legacyInFlight (s : Inventory) (server : ServerId) : Bool :=
  s.commands.any fun command =>
    command.serverId == server && command.payload.path == "/api/child/batch-apply" &&
      command.inFlight && !(commandClients command.payload).isEmpty

/-- The turn of `reconcile` for the row at a position. -/
def reconcileRow (s : Inventory) (row : Nat) (view : RowView) (force : Bool) (timeoutMs : Nat)
    (now : Time) : Except Refusal Inventory :=
  match s.access[row]? with
  | none => .ok s
  | some entry =>
    if s.legacyInFlight entry.serverId then .ok s
    else
      let previous := s.commandAt entry.commandId
      let unfinished := previous.any fun command => !command.status.terminal
      let kept := previous.any fun command =>
        0 < command.attempts || command.payload.body.equal view.desired
      if unfinished && kept then .ok s
      else
        let superseded : Except Refusal Inventory :=
          match entry.commandId with
          | some id =>
            if unfinished then
              s.skip env id now "Superseded by current subscription access state"
            else .ok s
          | none => .ok s
        match superseded with
        | .error refusal => .error refusal
        | .ok t =>
          if view.appliedRevision.equal (view.desired.get "revision") && !force then .ok t
          else if (view.retryAt.any (now < ·)) && !force &&
              previous.any (fun command => command.payload.body.equal view.desired) then .ok t
          else
            match t.createCommandModel env entry.serverId
              { method := .post, path := accessEndpoint, body := view.desired, timeoutMs := timeoutMs }
              now with
            | .error refusal => .error refusal
            | .ok u =>
              .ok { u with
                access := u.access.modify row fun entry =>
                  { entry with commandId := some t.commands.length } }

/-- The loop of `reconcile`. -/
def reconcile (view : Nat → RowView) (force : Bool) (timeoutMs : Nat) (now : Time) :
    List Nat → Inventory → Except Refusal Inventory
  | [], s => .ok s
  | row :: rest, s =>
    match s.reconcileRow env row (view row) force timeoutMs now with
    | .error refusal => .error refusal
    | .ok t => reconcile view force timeoutMs now rest t

end Inventory

end OpenNode
