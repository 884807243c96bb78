import OpenNode.LifecycleJobs

namespace OpenNode.Lifecycle

inductive DeploymentStatus where
  | preparing
  | installed
  | removing
  | removed
  | failed
deriving DecidableEq, Repr

/-- Where the thread `worker` stands. A recovery that was entered from the first loop goes on with
what that loop has left. -/
inductive WorkerPlace (D : Type) where
  | booting
  | found (left : List (Job D))
  | recovering (job : Job D) (left : Option (List (Job D)))
  | recovered (job : Job D) (result : Json) (left : Option (List (Job D)))
  | polling
  | queued (job : Job D)
  | started (job : Job D)
  /-- the child is at the operation that was requested -/
  | running (job : Job D)
  | ended (job : Job D) (result : Json)
  | reporting
  | delivering (job : Job D)
  | delivered (job : Job D)
  | checking
  /-- has loaded the manifest -/
  | loaded
  /-- has seen that the deployment is removed -/
  | counting
  /-- has seen that every job is reported -/
  | disabling
  | stopping

/-- Where the thread stands that serves the socket. -/
inductive HandlerPlace where
  | accepting
  /-- has loaded the manifest -/
  | received (command : Json)
  /-- may submit -/
  | allowed (command : Json)

/-- A running helper. Its threads share the manifest that was loaded last. -/
structure Helper (D : Type) where
  worker : Option (WorkerPlace D) := some .booting
  handler : HandlerPlace := .accepting
  record : DeploymentStatus

/-- The host: what is durable, the helper, and the history of the operations begun and of the results delivered. -/
structure Machine (D : Type) where
  jobs : List (Job D) := []
  deployment : DeploymentStatus
  enabled : Bool := true
  helper : Option (Helper D) := none
  begun : List String := []
  acknowledged : List String := []

variable {D : Type}

namespace Machine

def worker (s : Machine D) : Option (WorkerPlace D) := s.helper.bind Helper.worker

/-- The worker goes on at a place. -/
def goTo (place : WorkerPlace D) (s : Machine D) : Machine D :=
  { s with helper := s.helper.map fun helper => { helper with worker := some place } }

def handle (place : HandlerPlace) (s : Machine D) : Machine D :=
  { s with helper := s.helper.map fun helper => { helper with handler := place } }

/-- The thread of the worker ends. -/
def halt (s : Machine D) : Machine D :=
  { s with helper := s.helper.map fun helper => { helper with worker := none } }

/-- `deployment.load()`. -/
def load (s : Machine D) : Machine D :=
  { s with helper := s.helper.map fun helper => { helper with record := s.deployment } }

/-- What follows a recovery. -/
def after (left : Option (List (Job D))) : WorkerPlace D :=
  match left with
  | some left => .found left
  | none => .reporting

/-- The answer of a child that `child` accepts. -/
def accepted (id : String) (output : Json) : Bool :=
  output.isObj && (output.get "request_id").str? == some id &&
    match output.get "status" with
    | .int status => 100 ≤ status && status ≤ 599
    | _ => false

/-- The result of a recovery without an answer. -/
def review (id : String) : Json :=
  .obj [("request_id", .str id), ("status", .int 500),
    ("error", .str "Host deployment recovery requires operator review"),
    ("body", .obj [("success", .bool false), ("recovery_required", .bool true)])]

/-- The next step of the worker, where it does not wait for a child or a delivery. -/
def work (s : Machine D) : Machine D :=
  match s.worker with
  | some .booting => s.goTo (.found (JobStore.rows (·.status == .running) s.jobs))
  | some (.found []) => s.goTo .polling
  | some (.found (job :: left)) => s.goTo (.recovering job (some left))
  | some (.recovered job result left) =>
    { s.goTo (after left) with jobs := JobStore.finish job.requestId result s.jobs }
  | some .polling =>
    match JobStore.rows (·.status == .queued) s.jobs with
    | job :: _ => s.goTo (.queued job)
    | [] => s.goTo .reporting
  | some (.queued job) => { s.goTo (.started job) with jobs := JobStore.started job.requestId s.jobs }
  | some (.started job) =>
    if (JobStore.get job.requestId s.jobs).any (·.status == .running) then
      { s.goTo (.running job) with begun := job.requestId :: s.begun }
    else s.goTo (.recovering job none)
  | some (.ended job result) => { s.goTo .reporting with jobs := JobStore.finish job.requestId result s.jobs }
  | some .reporting =>
    match JobStore.rows (fun job => job.result.isSome && !job.reported) s.jobs with
    | job :: _ => s.goTo (.delivering job)
    | [] => s.goTo .checking
  | some (.delivered job) => { s.goTo .checking with jobs := JobStore.acknowledge job.requestId s.jobs }
  | some .checking => s.load.goTo .loaded
  | some .loaded => if s.helper.any (·.record == .removed) then s.goTo .counting else s.goTo .polling
  | some .counting => if (JobStore.rows (!·.reported) s.jobs).isEmpty then s.goTo .disabling else s.goTo .polling
  | some .disabling => { s.goTo .stopping with enabled := false }
  | some .stopping => { s with helper := none }
  | _ => s

/-- The child that the worker waits for ends, with what it has printed. -/
def child (output : Json) (s : Machine D) : Machine D :=
  match s.worker with
  | some (.running job) =>
    if accepted job.requestId output then s.goTo (.ended job output) else s.goTo (.recovering job none)
  | some (.recovering job left) =>
    s.goTo (.recovered job (if accepted job.requestId output then output else review job.requestId) left)
  | _ => s

/-- The reporter answers. -/
def deliver (confirmed : Bool) (s : Machine D) : Machine D :=
  match s.worker with
  | some (.delivering job) =>
    if confirmed then { s.goTo (.delivered job) with acknowledged := job.requestId :: s.acknowledged }
      else s.goTo .checking
  | _ => s

/-- What the worker is at raises. -/
def fail (s : Machine D) : Machine D :=
  match s.worker with
  | some (.started job) | some (.running job) | some (.ended job _) => s.goTo (.recovering job none)
  | some (.recovering job left) => s.goTo (.recovered job (review job.requestId) left)
  | some (.delivering _) | some (.delivered _) => s.goTo .checking
  | _ => s.halt

/-- The manifest changes while a child is at it, or one that a dead helper has left. -/
def operate (status : DeploymentStatus) (s : Machine D) : Machine D :=
  match s.helper, s.worker with
  | none, _ | _, some (.running _) | _, some (.recovering ..) => { s with deployment := status }
  | _, _ => s

/-- A message to submit a command is read. `verify_helper` may raise. -/
def receive (command : Json) (verified : Bool) (s : Machine D) : Machine D :=
  match s.helper.map Helper.handler, verified, validateCommand command with
  | some .accepting, true, .ok _ => s.load.handle (.received command)
  | some .accepting, _, _ => s.load
  | _, _, _ => s

/-- A job that is known, or a deployment that is installed. -/
def check (s : Machine D) : Except String Unit × Machine D :=
  match s.helper with
  | some { handler := .received command, record := record, .. } =>
    if (JobStore.get (requestId command) s.jobs).isNone && record != .installed then
      (.error "Remote lifecycle requires an installed Agent", s.handle .accepting)
    else (.ok (), s.handle (.allowed command))
  | _ => (.ok (), s)

variable [DecidableEq D]

/-- `submit`, with the reply of `handle`. -/
def submit (digest : Json → D) (now : Int) (s : Machine D) : Option (Except String (Job D)) × Machine D :=
  match s.helper.map Helper.handler with
  | some (.allowed command) =>
    let outcome := JobStore.submit digest now command s.jobs
    (some outcome.1, { s.handle .accepting with jobs := outcome.2 })
  | _ => (none, s)

end Machine

inductive LifecycleEvent where
  | work
  | child (output : Json)
  | deliver (confirmed : Bool)
  | fail
  | operate (status : DeploymentStatus)
  | receive (command : Json) (verified : Bool)
  | check
  | submit (now : Int)
  | crash
  /-- the helper starts, with the manifest that `Host` loads -/
  | start

def Machine.apply [DecidableEq D] (digest : Json → D) (s : Machine D) : LifecycleEvent → Machine D
  | .work => s.work
  | .child output => s.child output
  | .deliver confirmed => s.deliver confirmed
  | .fail => s.fail
  | .operate status => s.operate status
  | .receive command verified => s.receive command verified
  | .check => s.check.2
  | .submit now => (s.submit digest now).2
  | .crash => { s with helper := none }
  | .start => if s.helper.isNone then { s with helper := some { record := s.deployment } } else s

/-- The runs of the host whose steps meet a rule. -/
inductive Reaches [DecidableEq D] (rule : Machine D → LifecycleEvent → Prop) (digest : Json → D) (s : Machine D) :
    Machine D → Prop
  | refl : Reaches rule digest s s
  | step {t : Machine D} (event : LifecycleEvent) (before : Reaches rule digest s t) (follows : rule t event) :
      Reaches rule digest s (t.apply digest event)

end OpenNode.Lifecycle
