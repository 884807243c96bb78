import OpenNode.CommandQueue

namespace OpenNode

/-- `READ_ONLY`. -/
def readOnlyPaths : List String :=
  ["/api/child/xray/config", "/api/child/nginx/config", "/api/child/system/info",
   "/api/child/traffic", "/api/child/speed"]

/-- A command that a late rollback may follow. -/
def CommandPayload.readOnly (payload : CommandPayload) : Bool :=
  payload.method == .get && readOnlyPaths.contains payload.path

/-- `REVIEW_STATES`. -/
def ChangeSetStatus.review : ChangeSetStatus → Bool
  | .failed | .rollbackFailed | .rollbackIncomplete | .needsReview => true
  | _ => false

def ChangeStep.refers (step : ChangeStep) (id : CommandId) : Bool :=
  step.forwardCommandId == some id || step.rollbackCommandId == some id

def ChangeStep.commandIds (step : ChangeStep) : List CommandId :=
  step.forwardCommandId.toList ++ step.rollbackCommandId.toList ++ step.rollbackHistoryIds

def commandIds (steps : List ChangeStep) : List CommandId :=
  steps.flatMap ChangeStep.commandIds

/-- Whether `stop_unsent` stops a command. -/
def Command.unsent (command : Command) : Bool :=
  (command.status == .waiting || command.status == .pending) && command.attempts == 0

def targets (steps : List ChangeStep) : List ServerId :=
  steps.map ChangeStep.serverId

/-- The row of a forward command that `stop_unsent` stops. -/
def stoppedCommand (now : Time) (command : Command) : Command :=
  { command with
    status := .skipped
    resultError := some "Stopped before execution by change-set rollback or failure"
    completedAt := some now
    updatedAt := now }

namespace Inventory

variable (env : Env)

/-- `owner`: the change set with a step that refers to the command. Replaced
compensators are kept in the history and are not looked up. -/
def owner (s : Inventory) (id : CommandId) : Option ChangeSetId :=
  s.changes.findIdx? fun change => change.steps.any (·.refers id)

/-- The walk of `draining` up the prerequisites of a command. A prerequisite
is visited once, so the number of commands plus one bounds the walk. -/
def attemptedAncestor (s : Inventory) : Nat → List CommandId → Option CommandId → Bool
  | 0, _, _ => false
  | _ + 1, _, none => false
  | fuel + 1, seen, some parent =>
    if parent ∈ seen then false
    else
      match s.commands[parent]? with
      | none => false
      | some command =>
        command.attempted || attemptedAncestor s fuel (parent :: seen) command.dependsOn

def draining (s : Inventory) (command : Command) (owned : List CommandId) : Bool :=
  command.inFlight || s.attemptedAncestor (s.commands.length + 1) owned command.dependsOn

/-- The commands that `external_in_flight` selects. -/
def blocks (s : Inventory) (steps : List ChangeStep) (id : CommandId) (command : Command) : Bool :=
  (targets steps).contains command.serverId && !(commandIds steps).contains id &&
    !command.status.terminal && s.draining command (commandIds steps)

def externalInFlight (s : Inventory) (steps : List ChangeStep) : List CommandId :=
  (List.range s.commands.length).filter fun id => s.commands[id]?.any (s.blocks steps id)

/-- Whether another change set awaits legacy review on one of the servers. -/
def legacyReview (s : Inventory) (id : ChangeSetId) (servers : List ServerId) : Bool :=
  (List.range s.changes.length).any fun other =>
    other != id && s.changes[other]?.any fun change =>
      change.status == .needsReview && change.steps.any fun step => servers.contains step.serverId

/-- The loop of `reserve`. `pending` is `NodeManagement.pending_for_server`. -/
def reserveServers (pending : ServerId → Bool) (id : ChangeSetId) :
    List ServerId → Inventory → Except Refusal Inventory
  | [], s => .ok s
  | server :: rest, s =>
    if pending server then
      .error (.changeSetConflict "A target server has a pending node removal")
    else if (s.servers[server]?).isNone then .error (.serverNotFound server)
    else
      match s.lock? server with
      | none =>
        reserveServers pending id rest { s with locks := s.locks ++ [⟨server, id⟩] }
      | some lock =>
        if lock.changeSetId = id then reserveServers pending id rest s
        else
          .error (.changeSetConflict
            s!"Server {server} is reserved by change set {lock.changeSetId}")

def reserve (pending : ServerId → Bool) (s : Inventory) (id : ChangeSetId) (steps : List ChangeStep) :
    Except Refusal Inventory :=
  let servers := (targets steps).dedup.insertionSort (· ≤ ·)
  if s.legacyReview id servers then
    .error (.changeSetConflict "A target has a legacy change set awaiting operator review")
  else reserveServers pending id servers s

def release (s : Inventory) (id : ChangeSetId) : Inventory :=
  { s with locks := s.locks.filter fun lock => lock.changeSetId != id }

/-- `can_lease` of the change-set coordinator. -/
def canLease (s : Inventory) (id : CommandId) (command : Command) : Bool :=
  let change := (s.owner id).bind fun c => s.changes[c]?
  if change.any (·.coordinationVersion == 0) then command.inFlight
  else
    let legacy := (s.changes.filter (·.status == .needsReview)).flatMap fun change =>
      change.steps.filter (·.serverId == command.serverId)
    if !legacy.isEmpty then s.draining command (commandIds legacy)
    else
      match s.lock? command.serverId with
      | none => (s.owner id).isNone
      | some lock =>
        if s.owner id = some lock.changeSetId then
          change.any (fun change =>
            (change.status == .dispatched || change.status == .rollbackQueued) &&
              (command.inFlight || (s.externalInFlight change.steps).isEmpty))
        else
          s.draining command
            (commandIds ((s.changes[lock.changeSetId]?.map ChangeSet.steps).getD []))

def validateResult (s : Inventory) (id : CommandId) (command : Command) : Bool :=
  !(command.attempts == 0 &&
    ((s.owner id).isSome || (s.lock? command.serverId).isSome || !s.canLease id command))

def capabilityError (s : Inventory) :
    List (ServerId × CommandPayload) → Except Refusal (Option String)
  | [] => .ok none
  | (server, payload) :: rest =>
    match s.servers[server]? with
    | none => .error (.serverNotFound server)
    | some model =>
      match model.createError payload with
      | some message => .ok (some message)
      | none => capabilityError s rest

def preflightCapabilities (s : Inventory) (commands : List (ServerId × CommandPayload)) :
    Except Refusal Unit :=
  match s.capabilityError commands with
  | .error refusal => .error refusal
  | .ok (some message) => .error (.changeSetConflict message)
  | .ok none => .ok ()

/-- The row a step refers to, `None` when the reference is empty. -/
def commandAt (s : Inventory) (id : Option CommandId) : Option Command :=
  id.bind fun id => s.commands[id]?

def rollbackCreations (s : Inventory) (steps : List ChangeStep) (retryFailed : Bool) :
    List (ServerId × CommandPayload) :=
  steps.reverse.filterMap fun step =>
    if (s.commandAt step.forwardCommandId).any Command.attempted then
      step.rollback.bind fun payload =>
        match s.commandAt step.rollbackCommandId with
        | none => some (step.serverId, payload)
        | some rollback =>
          if retryFailed && (rollback.status == .failed || rollback.status == .skipped) then
            some (step.serverId, payload)
          else none
    else none

/-- The loop of `dispatch_model`, with the steps that refer to the new commands. -/
def dispatchSteps (now : Time) : Option CommandId → List ChangeStep → Inventory →
    Except Refusal (Inventory × List ChangeStep)
  | _, [], s => .ok (s, [])
  | previous, step :: rest, s =>
    match s.createCommandModel env step.serverId step.forward now previous with
    | .error refusal => .error refusal
    | .ok t =>
      match dispatchSteps now (some s.commands.length) rest t with
      | .error refusal => .error refusal
      | .ok (u, steps) => .ok (u, { step with forwardCommandId := some s.commands.length } :: steps)

/-- `dispatch_model`, with the identifiers of the commands it created. -/
def dispatchModel (pending : ServerId → Bool) (s : Inventory) (id : ChangeSetId) (now : Time) :
    Except Refusal (Inventory × List CommandId) :=
  match s.changes[id]? with
  | none => .error (.changeSetNotFound id)
  | some change =>
    if change.archivedSteps then
      .error (.changeSetConflict "An archived change set cannot be dispatched")
    else if change.status = .planned then
      match s.preflightCapabilities (change.steps.map fun step => (step.serverId, step.forward)) with
      | .error refusal => .error refusal
      | .ok () =>
        match s.reserve pending id change.steps with
        | .error refusal => .error refusal
        | .ok t =>
          match t.dispatchSteps env now none change.steps with
          | .error refusal => .error refusal
          | .ok (u, steps) =>
            .ok (u.modifyChange id fun change =>
                { change with steps := steps, status := .dispatched, updatedAt := now },
              steps.filterMap ChangeStep.forwardCommandId)
    else if change.status = .dispatched then .ok (s, [])
    else .error (.changeSetConflict "Only a planned change set can be dispatched")

/-- One turn of `stop_unsent`. -/
def stopUnsentStep (now : Time) (s : Inventory) (step : ChangeStep) : Inventory :=
  match step.forwardCommandId with
  | none => s
  | some id =>
    if s.commands[id]?.any Command.unsent then
      s.finishCommand id now (stoppedCommand now)
    else s

def stopUnsent (s : Inventory) (steps : List ChangeStep) (now : Time) : Inventory :=
  steps.foldl (stopUnsentStep now) s

/-- The completion time of the last forward command. -/
def endedAt (s : Inventory) (steps : List ChangeStep) : Time :=
  (steps.filterMap fun step =>
    (s.commandAt step.forwardCommandId).bind Command.completedAt).foldl max 0

/-- Whether `guard_late_rollback` counts a command as handed out since `ended`. -/
def handedSince (steps : List ChangeStep) (ended : Time) (id : CommandId) (command : Command) : Bool :=
  (targets steps).contains command.serverId && !(commandIds steps).contains id &&
    0 < command.attempts && command.leasedAt.any (ended ≤ ·)

def guardLateRollback (s : Inventory) (steps : List ChangeStep) : Except Refusal Unit :=
  let ended := s.endedAt steps
  let later := (List.range s.commands.length).filter fun id =>
    s.commands[id]?.any fun command =>
      handedSince steps ended id command || s.blocks steps id command
  if later.any fun id => s.commands[id]?.any fun command => !command.payload.readOnly then
    .error (.changeSetConflict
      "A target received later work; create a new recovery plan from its current state")
  else .ok ()

/-- What the compensation loop of `advance` carries: the tables, the
previous compensator, the compensators met so far and the rewritten steps. -/
structure RollbackPass where
  inventory : Inventory
  previous : Option CommandId := none
  rollbacks : List CommandId := []
  missing : Bool := false
  steps : List ChangeStep := []

/-- One turn of the compensation loop. -/
def rollbackTurn (now : Time) (skipError : Option String) (pass : RollbackPass) (step : ChangeStep) :
    Except Refusal RollbackPass :=
  let s := pass.inventory
  if !(s.commandAt step.forwardCommandId).any Command.attempted then
    .ok { pass with steps := step :: pass.steps }
  else
    match step.rollback with
    | none => .ok { pass with missing := true, steps := step :: pass.steps }
    | some payload =>
      match step.rollbackCommandId, s.commandAt step.rollbackCommandId with
      | some id, some command =>
        let t :=
          match skipError with
          | some message =>
            if command.unsent then
              s.modifyCommand id fun command =>
                { command with
                  status := .skipped
                  resultStatus := some 501
                  resultError := some message
                  completedAt := some now
                  updatedAt := now }
            else s
          | none => s
        .ok { pass with
          inventory := t
          previous := some id
          rollbacks := pass.rollbacks ++ [id]
          steps := step :: pass.steps }
      | _, _ =>
        let created :=
          match skipError with
          | some message =>
            s.createSkippedCommandModel env step.serverId payload now message pass.previous
          | none => s.createCommandModel env step.serverId payload now pass.previous
        match created with
        | .error refusal => .error refusal
        | .ok t =>
          .ok { pass with
            inventory := t
            previous := some s.commands.length
            rollbacks := pass.rollbacks ++ [s.commands.length]
            steps := { step with rollbackCommandId := some s.commands.length } :: pass.steps }

def rollbackLoop (now : Time) (skipError : Option String) :
    List ChangeStep → RollbackPass → Except Refusal RollbackPass
  | [], pass => .ok pass
  | step :: rest, pass =>
    match rollbackTurn env now skipError pass step with
    | .error refusal => .error refusal
    | .ok next => rollbackLoop now skipError rest next

/-- The block of `advance` for a dispatched change set. -/
def advanceForward (s : Inventory) (id : ChangeSetId) (change : ChangeSet) (now : Time) : Inventory :=
  if change.status = .dispatched then
    let forwards := change.steps.filterMap ChangeStep.forwardCommandId
    match forwards.find? fun command =>
      s.statusOf command == some .failed || s.statusOf command == some .skipped with
    | some failed =>
      (s.stopUnsent change.steps now).modifyChange id fun change =>
        { change with
          status := if change.rollbackOnFailure then .rollbackQueued else .failed
          rollbackReason := s!"Forward command {failed} failed" }
    | none =>
      if forwards.all fun command => s.statusOf command == some .succeeded then
        (s.modifyChange id fun change => { change with status := .succeeded }).release id
      else s
  else s

/-- The end of the compensation block: the status that the compensators decide. -/
def settleRollback (s : Inventory) (id : ChangeSetId) (rollbacks : List CommandId) (missing : Bool) :
    Inventory :=
  if rollbacks.any fun command =>
    s.statusOf command == some .failed || s.statusOf command == some .skipped then
    s.modifyChange id fun change => { change with status := .rollbackFailed }
  else if rollbacks.all fun command => s.statusOf command == some .succeeded then
    if missing then s.modifyChange id fun change => { change with status := .rollbackIncomplete }
    else (s.modifyChange id fun change => { change with status := .rolledBack }).release id
  else s

/-- The block of `advance` for a change set whose rollback is queued. -/
def advanceRollback (s : Inventory) (id : ChangeSetId) (steps : List ChangeStep) (now : Time) :
    Except Refusal Inventory :=
  let s := s.stopUnsent steps now
  if steps.any fun step => (s.commandAt step.forwardCommandId).any Command.inFlight then .ok s
  else
    match s.capabilityError (s.rollbackCreations steps false) with
    | .error refusal => .error refusal
    | .ok error =>
      let skipError := error.map ("Automatic rollback not queued: " ++ ·)
      match rollbackLoop env now skipError steps.reverse { inventory := s } with
      | .error refusal => .error refusal
      | .ok pass =>
        .ok ((pass.inventory.modifyChange id fun change =>
          { change with steps := pass.steps }).settleRollback id pass.rollbacks pass.missing)

def touchChange (s : Inventory) (id : ChangeSetId) (now : Time) : Inventory :=
  s.modifyChange id fun change => { change with updatedAt := now }

/-- `advance`. The hook for private routed nodes reconciles access rows and
is a step of its own. -/
def advance (s : Inventory) (id : ChangeSetId) (now : Time) : Except Refusal Inventory :=
  match s.changes[id]? with
  | none => .ok s
  | some change =>
    let s := s.advanceForward id change now
    match s.changes[id]? with
    | none => .ok s
    | some change =>
      if change.status = .rollbackQueued then
        match s.advanceRollback env id change.steps now with
        | .error refusal => .error refusal
        | .ok t => .ok (t.touchChange id now)
      else .ok (s.touchChange id now)

def advanceAfterResult (s : Inventory) (command : CommandId) (now : Time) : Except Refusal Inventory :=
  match s.owner command with
  | none => .ok s
  | some id =>
    if (s.changes[id]?).any (·.coordinationVersion != 0) then s.advance env id now else .ok s

/-- A step as a retry leaves it: a failed or skipped compensator moves to the
history. -/
def retryStep (s : Inventory) (step : ChangeStep) : ChangeStep :=
  match step.rollbackCommandId, s.commandAt step.rollbackCommandId with
  | some id, some command =>
    if command.status = .failed ∨ command.status = .skipped then
      { step with
        rollbackHistoryIds := step.rollbackHistoryIds ++ [id]
        rollbackCommandId := none }
    else step
  | _, _ => step

def retrySteps (s : Inventory) (steps : List ChangeStep) : List ChangeStep :=
  steps.map s.retryStep

/-- The branch of `rollback` for a change set that was dispatched. -/
def rollbackDispatched (pending : ServerId → Bool) (s : Inventory) (id : ChangeSetId)
    (change : ChangeSet) (reason : String) (now : Time) : Except Refusal Inventory :=
  match s.preflightCapabilities
      (s.rollbackCreations change.steps (change.status == .rollbackFailed)) with
  | .error refusal => .error refusal
  | .ok () =>
    match s.reserve pending id change.steps with
    | .error refusal => .error refusal
    | .ok t =>
      let guarded := if change.status = .succeeded then t.guardLateRollback change.steps else .ok ()
      match guarded with
      | .error refusal => .error refusal
      | .ok () =>
        let steps :=
          if change.status = .rollbackFailed then t.retrySteps change.steps else change.steps
        (t.modifyChange id fun change =>
          { change with
            steps := steps
            status := .rollbackQueued
            rollbackReason := if change.rollbackReason = "" then reason else change.rollbackReason
          }).advance env id now

/-- `rollback`, with the identifiers of the compensators it created. -/
def rollback (pending : ServerId → Bool) (s : Inventory) (id : ChangeSetId) (reason : String)
    (now : Time) : Except Refusal (Inventory × List CommandId) :=
  match s.changes[id]? with
  | none => .error (.changeSetNotFound id)
  | some change =>
    if change.archivedSteps then
      .error (.changeSetConflict "A target server was removed; create a new recovery plan")
    else if change.coordinationVersion = 0 then
      .error (.changeSetConflict
        "Review legacy execution, accept its current state, then create a recovery plan")
    else
      let moved : Except Refusal Inventory :=
        match change.status with
        | .planned => .ok (s.modifyChange id fun change => { change with status := .cancelled })
        | .cancelled | .rolledBack => .ok s
        | .accepted =>
          .error (.changeSetConflict
            "An accepted change set cannot be rolled back; create a new plan")
        | _ => s.rollbackDispatched env pending id change reason now
      match moved with
      | .error refusal => .error refusal
      | .ok t =>
        let steps := (t.changes[id]?.map ChangeSet.steps).getD []
        .ok (t.touchChange id now,
          (steps.reverse.filterMap ChangeStep.rollbackCommandId).filter fun command =>
            !(commandIds change.steps).contains command)

def accept (s : Inventory) (id : ChangeSetId) (reason : String) (now : Time) :
    Except Refusal Inventory :=
  match s.changes[id]? with
  | none => .error (.changeSetNotFound id)
  | some change =>
    if !change.status.review then
      .error (.changeSetConflict "Only a stopped or incomplete change set can be accepted")
    else if (commandIds change.steps).any fun command =>
        s.commands[command]?.any Command.inFlight then
      .error (.changeSetConflict
        "Wait for every attempted command to return before accepting state")
    else
      .ok ((s.modifyChange id fun change =>
        { change with status := .accepted, resolutionReason := reason, updatedAt := now }).release id)

/-- A step of `AgentChangeSetCreate`. -/
structure StepCreate where
  serverId : ServerId
  forward : CommandPayload
  rollback : Option CommandPayload := none

/-- The first payload that `_create_change_set_model` refuses. -/
def stepWireError (step : StepCreate) : Option String :=
  (step.forward.wireError env).or (step.rollback.bind (·.wireError env))

def createChangeSetModel (s : Inventory) (rollbackOnFailure : Bool) (steps : List StepCreate)
    (now : Time) : Except Refusal Inventory :=
  match steps.findSome? (stepWireError env) with
  | some message => .error (.agentCommandPayload message)
  | none =>
    match steps.find? fun step => (s.servers[step.serverId]?).isNone with
    | some step => .error (.serverNotFound step.serverId)
    | none =>
      .ok { s with
        changes := s.changes ++
          [{ rollbackOnFailure := rollbackOnFailure
             steps := steps.map fun step =>
               { serverId := step.serverId, forward := step.forward, rollback := step.rollback }
             updatedAt := now }] }

end Inventory

end OpenNode
