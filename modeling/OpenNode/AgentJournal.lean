import Mathlib

namespace OpenNode.Agent

/-- `RPCCommand`. A body is a JSON object. -/
structure RPCCommand (Body : Type) where
  id : Option String := none
  requestId : String
  method : String
  path : String
  query : String := ""
  body : Option Body := none
  timeoutMs : Nat := 30000
  stream : Bool := false

/-- The payload that `begin` fingerprints. -/
structure Content (Body : Type) where
  method : String
  path : String
  query : String
  body : Option Body
  stream : Bool
deriving DecidableEq

/-- What the Agent answers to a command. -/
structure Result (Body : Type) where
  requestId : String
  status : Nat
  commandId : Option String := none
  body : Option Body := none
  error : Option String := none
deriving DecidableEq

variable {Body : Type}

namespace RPCCommand

def content (c : RPCCommand Body) : Content Body :=
  { method := c.method, path := c.path, query := c.query, body := c.body, stream := c.stream }

/-- The field constraints of `RPCCommand`. -/
def valid (c : RPCCommand Body) : Bool :=
  1 ≤ c.requestId.length && c.requestId.length ≤ 255 &&
    ["GET", "POST", "PUT", "PATCH", "DELETE"].contains c.method &&
    c.path.length ≤ 255 && "/api/child/".toList.isPrefixOf c.path.toList &&
    c.query.length ≤ 2048 && 1000 ≤ c.timeoutMs && c.timeoutMs ≤ 300000

def lifecyclePaths : List String :=
  ["/api/child/agent/upgrade", "/api/child/agent/upgrade-stream", "/api/child/agent/uninstall",
    "/api/child/agent/uninstall-stream", "/api/child/agent/rollback"]

/-- `is_lifecycle_command`. -/
def isLifecycle (c : RPCCommand Body) : Bool :=
  c.method == "POST" && lifecyclePaths.contains c.path

/-- `HTTP01_ENDPOINT` and `CLEANUP_ENDPOINT`. -/
def http01Endpoint : String := "/api/child/cert/http01"
def cleanupEndpoint : String := "/api/child/node-cleanup"

/-- Whether `execute` resumes a command that was begun before, given whether a
lifecycle socket is configured. -/
def resumable (socket : Bool) (c : RPCCommand Body) : Bool :=
  (c.isLifecycle && socket) || c.path == http01Endpoint || c.path == cleanupEndpoint

theorem resumable_content {c c' : RPCCommand Body} (same : c.content = c'.content) (socket : Bool) :
    c.resumable socket = c'.resumable socket := by
  have method : c.method = c'.method := congrArg Content.method same
  have path : c.path = c'.path := congrArg Content.path same
  rw [resumable, resumable, isLifecycle, isLifecycle, method, path]

theorem resumable_mono {c : RPCCommand Body} {socket ever : Bool} (grown : socket = true → ever = true)
    (resumed : c.resumable socket = true) : c.resumable ever = true := by
  unfold resumable at *
  cases socket with
  | true => rwa [grown rfl]
  | false =>
    rw [Bool.and_false, Bool.false_or] at resumed
    rw [Bool.or_assoc, resumed, Bool.or_true]

end RPCCommand

/-- A row of the table `commands`. -/
structure Row (Body : Type) where
  requestId : String
  fingerprint : String
  result : Option (Result Body) := none
  acknowledged : Bool := false
  createdAt : Nat

/-- The answers of `begin` that stand for no recorded result. -/
def conflict (requestId : String) : Result Body :=
  { requestId := requestId, status := 409, error := some "Request ID reused with different content" }

def interrupted (requestId : String) : Result Body :=
  { requestId := requestId
    status := 409
    error := some "Previous execution was interrupted; inspect runtime before issuing a new command" }

abbrev CommandJournal (Body : Type) := List (Row Body)

namespace CommandJournal

/-- `begin`: the journal afterwards, and the answer unless the command is to be executed. -/
def begin (fingerprint : Content Body → String) (journal : CommandJournal Body) (c : RPCCommand Body)
    (resume : Bool) (now : Nat) : CommandJournal Body × Option (Result Body) :=
  match journal.find? fun row => row.requestId == c.requestId with
  | some row =>
    if row.fingerprint ≠ fingerprint c.content then (journal, some (conflict c.requestId))
    else
      match row.result with
      | some result => (journal, some result)
      | none => if resume then (journal, none) else (journal, some (interrupted c.requestId))
  | none =>
    (journal ++ [{ requestId := c.requestId, fingerprint := fingerprint c.content, createdAt := now }], none)

def finish (journal : CommandJournal Body) (result : Result Body) : CommandJournal Body :=
  journal.map fun row =>
    if row.requestId = result.requestId ∧ row.result = none then { row with result := some result } else row

def acknowledge (journal : CommandJournal Body) (requestId : String) : CommandJournal Body :=
  journal.map fun row => if row.requestId = requestId then { row with acknowledged := true } else row

def pendingResults (journal : CommandJournal Body) : List (Result Body) :=
  ((journal.filter fun row => row.result.isSome && !row.acknowledged).mergeSort fun a b =>
    a.createdAt ≤ b.createdAt).filterMap Row.result

/-- `record_result` of the lifecycle helper. -/
def recordResult (journal : CommandJournal Body) (requestId fingerprint : String) (result : Result Body)
    (acknowledged : Bool) : CommandJournal Body :=
  journal.map fun row =>
    if row.requestId = requestId ∧ row.fingerprint = fingerprint then
      { row with
        result := some (row.result.getD result)
        acknowledged := row.acknowledged || acknowledged }
    else row

end CommandJournal

/-- How the handler of a command can end: with a value, or with one of the
exceptions that `execute` tells apart. -/
inductive Outcome (Body : Type) where
  | ok (body : Body)
  | submitted (status : Nat) (body : Option Body) (error : Option String)
  | deferred
  | timeout
  | notImplemented (text : String)
  | invalid (text : String)
  | host (text : String)
  | unexpected

/-- Whether an exception, other than the deferral by the lifecycle helper, ended the handler. -/
def Outcome.raised : Outcome Body → Bool
  | .ok _ | .submitted .. | .deferred => false
  | _ => true

/-- The result that `execute` builds, none when the helper owns the completion. -/
def Outcome.result (c : RPCCommand Body) (outcome : Outcome Body) : Option (Result Body) :=
  let failed (status : Nat) (text : String) : Option (Result Body) :=
    some
      { requestId := c.requestId
        status := status
        commandId := c.id.filter (· ≠ "")
        error := some (String.ofList (text.toList.take 2048)) }
  match outcome with
  | .ok body =>
    some { requestId := c.requestId, status := 200, commandId := c.id.filter (· ≠ ""), body := some body }
  | .submitted status body error =>
    some
      { requestId := c.requestId
        status := status
        commandId := c.id.filter (· ≠ "")
        body := body
        error := error.map fun text => String.ofList (text.toList.take 2048) }
  | .deferred => none
  | .timeout => failed 504 "Agent command timed out"
  | .notImplemented text => failed 501 text
  | .invalid text => failed 400 text
  | .host text => failed 500 ("Host operation failed: " ++ text)
  | .unexpected => failed 500 "Unexpected agent operation failure"

/-- The Agent: its journal, the command that holds the execution lock and
whether its handler has been entered, and the configuration. The rest is
history: whether a lifecycle socket was ever configured, the commands that were
begun, those whose handler was entered, the results sent to the controller, and
the recorded results whose acknowledgement was processed. -/
structure AgentState (Body : Type) where
  journal : CommandJournal Body := []
  execution : Option (RPCCommand Body × Bool) := none
  socket : Bool
  everSocket : Bool
  begun : List (RPCCommand Body) := []
  entered : List (RPCCommand Body) := []
  replies : List (Result Body) := []
  acked : List (Result Body) := []

/-- What happens to the Agent. `deliver` is a command received over either
transport once the execution lock is free; `restart` is a crash, a shutdown or
a cancelled execution followed by a start with some configuration. -/
inductive AgentEvent (Body : Type) where
  | deliver (command : RPCCommand Body) (now : Nat)
  | enter
  | complete (outcome : Outcome Body)
  | resend
  | acknowledge (requestId : String)
  | report (command : RPCCommand Body) (result : Result Body) (acknowledged : Bool)
  | restart (socket : Bool)

namespace AgentState

/-- The recorded results of a request. -/
def recorded (s : AgentState Body) (requestId : String) : List (Result Body) :=
  (s.journal.filter fun row => row.requestId == requestId).filterMap Row.result

/-- The Agent after an event, none when it cannot happen. The controller
acknowledges what it was sent, and the lifecycle helper reports on commands
that the Agent handed to it. -/
def step [DecidableEq Body] (fingerprint : Content Body → String) (s : AgentState Body) :
    AgentEvent Body → Option (AgentState Body)
  | .deliver c now =>
    if c.valid && s.execution.isNone then
      match s.journal.begin fingerprint c (c.resumable s.socket) now with
      | (_, some reply) => some { s with replies := s.replies ++ [reply] }
      | (journal, none) =>
        some { s with journal := journal, execution := some (c, false), begun := s.begun ++ [c] }
    else none
  | .enter =>
    match s.execution with
    | some (c, false) => some { s with execution := some (c, true), entered := s.entered ++ [c] }
    | _ => none
  | .complete outcome =>
    match s.execution with
    | none => none
    | some (c, entered) =>
      -- A lifecycle command first recovers a pending cleanup, which can raise.
      if entered || (c.isLifecycle && outcome.raised) then
        match outcome.result c with
        | none => some { s with execution := none }
        | some result =>
          some
            { s with
              journal := s.journal.finish result
              execution := none
              replies := s.replies ++ [result] }
      else none
  | .resend => some { s with replies := s.replies ++ s.journal.pendingResults }
  | .acknowledge requestId =>
    if s.replies.any fun reply => reply.requestId == requestId then
      some { s with journal := s.journal.acknowledge requestId, acked := s.acked ++ s.recorded requestId }
    else none
  | .report c result acknowledged =>
    if c.isLifecycle && s.everSocket && result.requestId == c.requestId &&
        s.entered.any fun e => e.requestId == c.requestId && decide (e.content = c.content) then
      let journal := s.journal.recordResult c.requestId (fingerprint c.content) result acknowledged
      some
        { s with
          journal := journal
          replies := s.replies ++ [result]
          acked := if acknowledged then s.acked ++ { s with journal := journal }.recorded c.requestId else s.acked }
    else none
  | .restart socket =>
    some { s with execution := none, socket := socket, everSocket := s.everSocket || socket }

/-- A new Agent with an empty state directory. -/
def new (socket : Bool) : AgentState Body :=
  { socket := socket, everSocket := socket }

end AgentState

inductive AgentRun [DecidableEq Body] (fingerprint : Content Body → String) (first : AgentState Body) :
    AgentState Body → Prop
  | start : AgentRun fingerprint first first
  | step {s t : AgentState Body} (event : AgentEvent Body) : AgentRun fingerprint first s →
      s.step fingerprint event = some t → AgentRun fingerprint first t

end OpenNode.Agent
