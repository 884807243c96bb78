import OpenNode.Lib.Rows

namespace OpenNode.Ddns

abbrev ServerId := String

/-- An error as it is kept and shown; a recorded error is never empty. -/
abbrev Code := { code : String // code ≠ "" }

/-- The columns of a server that DDNS reads and writes; `requests` counts the
accepted queue requests and `urgent` says that the current attempt was handed
out for a force flag or an error (both are ghosts). -/
structure ServerRow where
  id : ServerId
  name : String
  ddnsEnabled : Bool := false
  ddnsProviderId : Option String := none
  pullAddress : Option String := none
  pullAddressV6 : Option String := none
  ipAddress : Option String := none
  ipAddressV6 : Option String := none
  ipv6Enabled : Bool := false
  ddnsRevision : Nat := 0
  ddnsForce : Bool := false
  ddnsPending : Bool := false
  ddnsAttemptId : Option Nat := none
  ddnsLeaseUntil : Option Nat := none
  ddnsNextAttemptAt : Option Nat := none
  ddnsLastIpv4 : Option String := none
  ddnsLastIpv6 : Option String := none
  ddnsLastError : Option Code := none
  ddnsLastSyncedAt : Option Nat := none
  updatedAt : Nat := 0
  requests : Nat := 0
  urgent : Bool := false
deriving DecidableEq

/-- What `claim` hands to the worker. -/
structure Job where
  serverId : ServerId
  revision : Nat
  attempt : Nat
  providerId : Option String
  pullAddress : Option String
  pullAddressV6 : Option String
  ipv4 : Option String
  ipv6 : Option String
  requests : Nat
deriving DecidableEq

structure DDNSConfig where
  enabled : Bool
  providerId : Option String
  pullAddress : Option String
  pullAddressV6 : Option String
  expectedRevision : Nat

/-- The parts outside the store: the address parser, the domain check and the
providers that DDNS can use. -/
structure Host where
  validIp4 : String → Option String
  validIp6 : String → Option String
  splitFqdn : String → Except Code Unit
  supported : String → Bool

def leaseSeconds : Nat := 75
def retrySeconds : Nat := 300

/-- The store with the clock, the attempts handed out and, for each server, the
last attempt that finished successfully (ghosts). -/
structure Store where
  now : Nat := 0
  rows : List ServerRow
  serial : Nat := 0
  jobs : List Job := []
  succeeded : ServerId → Option Job := fun _ => none

section Rows

variable (host : Host)

def ServerRow.ipv4 (row : ServerRow) : Option String :=
  row.ipAddress.bind host.validIp4

def ServerRow.ipv6 (row : ServerRow) : Option String :=
  if row.ipv6Enabled then row.ipAddressV6.bind host.validIp6 else none

/-- The addresses are not the last ones written. -/
def ServerRow.changed (row : ServerRow) : Bool :=
  row.ddnsLastIpv4 != row.ipv4 host || row.ddnsLastIpv6 != row.ipv6 host

/-- A row that `claim` hands out an attempt for when it comes to it. -/
def ServerRow.wanted (row : ServerRow) : Bool :=
  row.ddnsForce || row.ddnsLastError.isSome || row.changed host

end Rows

/-- `column IS NULL OR column <= now`. -/
def reached (now : Nat) (time : Option Nat) : Bool :=
  time.all fun time => decide (time ≤ now)

/-- The rows that the query of `claim` selects. -/
def ServerRow.due (now : Nat) (row : ServerRow) : Bool :=
  row.ddnsEnabled && reached now row.ddnsNextAttemptAt && reached now row.ddnsLeaseUntil

/-- The lease of the current attempt has not run out. -/
def ServerRow.leased (now : Nat) (row : ServerRow) : Bool :=
  row.ddnsLeaseUntil.any fun lease => decide (now < lease)

section Operations

variable (host : Host) (s : Store)

/-- The writes of `configure`. -/
def ServerRow.configured (row : ServerRow) (now : Nat) (value : DDNSConfig) : ServerRow :=
  { row with
    ddnsEnabled := value.enabled
    ddnsProviderId := value.providerId
    pullAddress := value.pullAddress
    pullAddressV6 := value.pullAddressV6
    ddnsRevision := row.ddnsRevision + 1
    ddnsPending := false
    ddnsAttemptId := none
    ddnsLeaseUntil := none
    ddnsLastError := none
    ddnsForce := value.enabled
    ddnsNextAttemptAt := if value.enabled then some now else none
    updatedAt := now }

/-- The domains of an enabled configuration are checked one after the other. -/
def checkDomains : List (Option String) → Except String Unit
  | [] => .ok ()
  | none :: domains => checkDomains domains
  | some domain :: domains =>
    match host.splitFqdn domain with
    | .ok () => checkDomains domains
    | .error code => .error code.1

def checkProvider (provider : Option String) : Except String Unit :=
  if provider.all host.supported then .ok () else .error "ddns_provider_unsupported"

/-- The checks of `configure`, those of the request among them. -/
def configureCheck (row : ServerRow) (value : DDNSConfig) : Except String Unit :=
  if value.enabled ∧ value.pullAddress = none ∧ value.pullAddressV6 = none then .error "ddns_invalid_request"
  else if row.ddnsRevision ≠ value.expectedRevision then .error "ddns_revision_conflict"
  else
    match checkProvider host value.providerId with
    | .error code => .error code
    | .ok () => if value.enabled then checkDomains host [value.pullAddress, value.pullAddressV6] else .ok ()

/-- One statement on the row of a server. -/
def Store.set (id : ServerId) (change : ServerRow → ServerRow) : Store :=
  { s with rows := Rows.update (fun row => row.id == id) change s.rows }

def Store.row? (id : ServerId) : Option ServerRow :=
  s.rows.find? fun row => row.id == id

def configure (id : ServerId) (value : DDNSConfig) : Except String Store :=
  match s.row? id with
  | none => .error "ddns_server_not_found"
  | some row =>
    match configureCheck host row value with
    | .error code => .error code
    | .ok () => .ok (s.set id fun row => row.configured s.now value)

/-- The writes of `queue`. -/
def ServerRow.queued (row : ServerRow) (now : Nat) : ServerRow :=
  { row with
    ddnsForce := true
    ddnsNextAttemptAt := some now
    ddnsLastError := none
    updatedAt := now
    requests := row.requests + 1 }

def queue (id : ServerId) : Except String Store :=
  match s.row? id with
  | none => .error "ddns_server_not_found"
  | some row =>
    if row.ddnsEnabled = false then .error "ddns_not_enabled"
    else if row.ddnsPending && row.leased s.now then .error "ddns_busy"
    else
      match checkProvider host row.ddnsProviderId with
      | .error code => .error code
      | .ok () => .ok (s.set id fun row => row.queued s.now)

/-- The order of the query: rows without a time first, then by time and name. -/
def before (a b : ServerRow) : Bool :=
  match a.ddnsNextAttemptAt, b.ddnsNextAttemptAt with
  | none, some _ => true
  | some _, none => false
  | none, none => decide (a.name ≤ b.name)
  | some x, some y => decide (x < y) || (x == y && decide (a.name ≤ b.name))

def dueRows : List ServerRow :=
  (s.rows.filter (ServerRow.due s.now)).mergeSort before

/-- The writes of `claim` for the row that it hands out. -/
def ServerRow.claimed (row : ServerRow) (now attempt : Nat) : ServerRow :=
  { row with
    ddnsAttemptId := some attempt
    ddnsPending := true
    ddnsForce := false
    ddnsLeaseUntil := some (now + leaseSeconds)
    ddnsLastError := none
    urgent := row.ddnsForce || row.ddnsLastError.isSome }

def ServerRow.job (row : ServerRow) (attempt : Nat) : Job where
  serverId := row.id
  revision := row.ddnsRevision
  attempt := attempt
  providerId := row.ddnsProviderId
  pullAddress := row.pullAddress
  pullAddressV6 := row.pullAddressV6
  ipv4 := row.ipv4 host
  ipv6 := row.ipv6 host
  requests := row.requests

def ServerRow.settled (row : ServerRow) : ServerRow :=
  { row with ddnsPending := false }

/-- The due rows that `claim` comes to before the one it hands out: nothing is
wanted for them, and they lose their pending mark. -/
def clearedRows : List ServerRow :=
  let skipped := (dueRows s).takeWhile fun row => !row.wanted host
  Rows.update (fun row => skipped.any fun other => other.id == row.id) ServerRow.settled s.rows

def claim : Store × Option Job :=
  match (dueRows s).find? (ServerRow.wanted host) with
  | none => ({ s with rows := clearedRows host s }, none)
  | some row =>
    let job := row.job host s.serial
    ({ s with
      rows := Rows.update (fun other => other.id == row.id) (fun row =>
        row.claimed s.now s.serial) (clearedRows host s)
      serial := s.serial + 1
      jobs := s.jobs ++ [job] }, some job)

/-- The answers of the DNS provider in one execution. -/
structure Answers where
  client : Except Code Unit
  upsert4 : Except Code Unit
  upsert6 : Except Code Unit

/-- The records that an execution has to write: domain, type and address. -/
def Job.records (job : Job) : List (String × String × String) :=
  (match job.pullAddress, job.ipv4 with
    | some domain, some address => [(domain, "A", address)]
    | _, _ => []) ++
  (match job.pullAddressV6.orElse (fun _ => job.pullAddress), job.ipv6 with
    | some domain, some address => [(domain, "AAAA", address)]
    | _, _ => [])

/-- `execute`: the records written, or the code of the failure that ended it. -/
def execute (answers : Answers) (job : Job) : Except Code (List (String × String × String)) := do
  if job.pullAddress = none ∧ job.pullAddressV6 = none then .error ⟨"ddns_domain_invalid", by decide⟩
  else
    answers.client
    (if job.pullAddress.isSome ∧ job.ipv4.isSome then answers.upsert4 else .ok () : Except Code Unit)
    (if job.ipv6.isSome then answers.upsert6 else .ok () : Except Code Unit)
    if job.records = [] then .error ⟨"ddns_no_public_address", by decide⟩ else .ok job.records

/-- The writes of `finish`. -/
def ServerRow.finished (row : ServerRow) (now : Nat) (job : Job) (error : Option Code) : ServerRow :=
  let row := { row with ddnsPending := false, ddnsAttemptId := none, ddnsLeaseUntil := none }
  if row.ddnsRevision ≠ job.revision ∨ row.ddnsEnabled = false then row
  else
    match error with
    | some code =>
      { row with ddnsLastError := some code, ddnsNextAttemptAt := some (now + retrySeconds), updatedAt := now }
    | none =>
      { row with
        ddnsLastError := none
        ddnsLastSyncedAt := some now
        ddnsLastIpv4 := job.ipv4
        ddnsLastIpv6 := job.ipv6
        ddnsNextAttemptAt := some now
        updatedAt := now }

def finish (job : Job) (error : Option Code) : Store :=
  match s.row? job.serverId with
  | none => s
  | some row =>
    if row.ddnsAttemptId ≠ some job.attempt then s
    else
      let recorded := row.ddnsRevision = job.revision ∧ row.ddnsEnabled = true ∧ error = none
      { s.set job.serverId (fun row => row.finished s.now job error) with
        succeeded := if recorded then Function.update s.succeeded job.serverId (some job) else s.succeeded }

/-- The error that a worker hands to `finish` after an execution. -/
def outcome (answers : Answers) (job : Job) : Option Code :=
  match execute answers job with
  | .ok _ => none
  | .error code => some code

/-- A worker that crashes does nothing more, so it is an attempt without a
`complete` action. -/
inductive Action where
  | configure (id : ServerId) (value : DDNSConfig)
  | queue (id : ServerId)
  | addresses (id : ServerId) (ipv4 ipv6 : Option String) (ipv6Enabled : Bool)
  | claim
  | complete (index : Nat) (answers : Answers)
  | pass (seconds : Nat)

def kept (s : Store) : Except String Store → Store
  | .ok t => t
  | .error _ => s

/-- An operation is one transaction, and nothing comes between its reads and its
writes. SQLite sees to that with `BEGIN IMMEDIATE`; PostgreSQL takes no lock here. -/
def Store.step : Action → Store
  | .configure id value => kept s (configure host s id value)
  | .queue id => kept s (queue host s id)
  | .addresses id ipv4 ipv6 ipv6Enabled =>
    s.set id fun row => { row with ipAddress := ipv4, ipAddressV6 := ipv6, ipv6Enabled := ipv6Enabled }
  | .claim => (claim host s).1
  | .complete index answers =>
    match s.jobs[index]? with
    | some job => finish s job (outcome answers job)
    | none => s
  | .pass seconds => { s with now := s.now + seconds }

def Store.run (actions : List Action) : Store :=
  actions.foldl (fun s action => s.step host action) s

end Operations

end OpenNode.Ddns
