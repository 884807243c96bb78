import OpenNode.SubscriptionTraffic

namespace OpenNode

/-- Raw upload and download, and the weighted ones. -/
abbrev UserTotals (W : Type) := (Nat × Nat) × (W × W)

/-- `SubscriptionArchivedTrafficModel`. -/
structure ArchivedTraffic (W : Type) where
  username : String
  serverId : ServerId
  serverName : String
  upload : Nat
  download : Nat
  weightedUpload : W
  weightedDownload : W
  updatedAt : Time

structure UserCredential extends TrafficCredential where
  username : String

/-- The columns of a server that its removal copies. -/
structure ServerName where
  id : ServerId
  name : String
deriving DecidableEq

def Ledger.totals {W : Type} (ledger : Ledger W) : UserTotals W :=
  ((ledger.upload, ledger.download), (ledger.weightedUpload, ledger.weightedDownload))

def ArchivedTraffic.totals {W : Type} (row : ArchivedTraffic W) : UserTotals W :=
  ((row.upload, row.download), (row.weightedUpload, row.weightedDownload))

/-- The row after a reset of its user. -/
def ArchivedTraffic.reset {W : Type} [Zero W] (row : ArchivedTraffic W) (now : Time) : ArchivedTraffic W :=
  { row with upload := 0, download := 0, weightedUpload := 0, weightedDownload := 0, updatedAt := now }

/-- The tables that the totals of a user are read from. `weight` is
`_subscription_billing_weight_for` of the user's plan. -/
structure Charging (W : Type) where
  accounting : Accounting W := {}
  servers : List ServerName := []
  credentials : List UserCredential := []
  archived : List (ArchivedTraffic W) := []
  weight : String → NodeId → W

namespace Charging

variable {W : Type}

def ledgersOf (s : Charging W) (username : String) : List (Ledger W) :=
  s.accounting.ledgers.filter (·.username == username)

def credentialsOf (s : Charging W) (username : String) : List UserCredential :=
  s.credentials.filter (·.username == username)

def archivedUserTraffic (s : Charging W) (username : String) : List (ArchivedTraffic W) :=
  s.archived.filter (·.username == username)

/-- The emails of `_subscription_latest_user_traffic`, each once. -/
def userEmails (s : Charging W) (username : String) : List String :=
  ((s.credentialsOf username).flatMap (·.emails)).dedup

/-- The entry of the latest telemetry of a server for an email. -/
def latestItem (s : Charging W) (server : ServerId) (email : String) : Option TrafficData :=
  (s.accounting.baseline server email).map Prod.fst

def subscriptionLatestUserTraffic (s : Charging W) (username : String) : Nat × Nat :=
  (s.servers.flatMap fun server =>
    (s.userEmails username).map fun email => ((s.latestItem server.id email).getD {}).counts).sum

section Totals

variable [Zero W] [Add W] [SMul ℕ W]

def subscriptionLatestUserWeightedTraffic (s : Charging W) (username : String) : W × W :=
  ((s.credentialsOf username).map fun credential =>
    let item := (credential.emails.findSome? (s.latestItem credential.serverId)).getD {}
    (item.uplink • s.weight username credential.nodeId, item.downlink • s.weight username credential.nodeId)).sum

def subscriptionUserTraffic (s : Charging W) (username : String) : Nat × Nat :=
  (if s.ledgersOf username = [] then s.subscriptionLatestUserTraffic username
    else ((s.ledgersOf username).map (·.totals.1)).sum) +
  ((s.archivedUserTraffic username).map (·.totals.1)).sum

def subscriptionUserWeightedTraffic (s : Charging W) (username : String) : W × W :=
  (if s.ledgersOf username = [] then s.subscriptionLatestUserWeightedTraffic username
    else ((s.ledgersOf username).map (·.totals.2)).sum) +
  ((s.archivedUserTraffic username).map (·.totals.2)).sum

/-- Both readings of a user, as the removal of a server takes them before and
after. -/
def userTotals (s : Charging W) (username : String) : UserTotals W :=
  (s.subscriptionUserTraffic username, s.subscriptionUserWeightedTraffic username)

end Totals

section Removal

/-- The `users` of `_impact`: who has a credential or a ledger on the server. -/
def usersOn (s : Charging W) (server : ServerId) : List String :=
  (((s.credentials.filter (·.serverId == server)).map (·.username)) ++
    ((s.accounting.ledgers.filter (·.serverId == server)).map (·.username))).dedup

/-- The declared cascades of a server's row, and the plans without its nodes. -/
def dropServer (s : Charging W) (server : ServerId) (weight : String → NodeId → W) : Charging W :=
  { accounting :=
      { telemetry := s.accounting.telemetry.filter (·.serverId != server)
        traffic := Function.update s.accounting.traffic server {}
        ledgers := s.accounting.ledgers.filter (·.serverId != server) }
    servers := s.servers.filter (·.id != server)
    credentials := s.credentials.filter (·.serverId != server)
    archived := s.archived
    weight := weight }

variable [Zero W] [Add W] [SMul ℕ W] [Sub W]

/-- The row that keeps what a user loses with the ledgers of a server. A
difference below zero is zero, also among the weighted totals. -/
def archive (username : String) (server : ServerName) (before after : UserTotals W) (now : Time) :
    ArchivedTraffic W :=
  { username := username
    serverId := server.id
    serverName := server.name
    upload := before.1.1 - after.1.1
    download := before.1.2 - after.1.2
    weightedUpload := before.2.1 - after.2.1
    weightedDownload := before.2.2 - after.2.2
    updatedAt := now }

/-- `ServerManagement.remove` once it is accepted. -/
def remove (s : Charging W) (server : ServerName) (weight : String → NodeId → W) (now : Time) : Charging W :=
  let removed := s.dropServer server.id weight
  { removed with
    archived := removed.archived ++ (s.usersOn server.id).map fun name =>
      archive name server (s.userTotals name) (removed.userTotals name) now }

end Removal

section Runs

variable [Zero W] [Add W] [SMul ℕ W]

/-- `record_telemetry`; a report of a server that was removed is refused. -/
def recordTelemetry (s : Charging W) (snapshot : TelemetrySnapshot)
    (attribution : String → Option (Attribution W)) : Charging W :=
  if s.servers.any (·.id == snapshot.serverId) then
    { s with accounting := s.accounting.recordTelemetry snapshot attribution }
  else s

/-- `_reset_subscription_traffic_for_user`. -/
def resetTraffic (s : Charging W) (username : String) (now : Time) : Charging W :=
  { s with
    accounting := s.accounting.resetTraffic username
      ((s.credentialsOf username).map (·.toTrafficCredential)) now
    archived := s.archived.map fun row => if row.username = username then row.reset now else row }

/-- What can happen to the totals. `assign` is whatever else changes
credentials, plans and topologies. -/
inductive Event (W : Type) where
  | telemetry (snapshot : TelemetrySnapshot) (attribution : String → Option (Attribution W))
  | reset (username : String) (now : Time)
  | remove (server : ServerId) (weight : String → NodeId → W) (now : Time)
  | assign (credentials : List UserCredential) (weight : String → NodeId → W)

variable [Sub W]

def step (s : Charging W) : Event W → Charging W
  | .telemetry snapshot attribution => s.recordTelemetry snapshot attribution
  | .reset username now => s.resetTraffic username now
  | .remove server weight now =>
    match s.servers.find? (·.id == server) with
    | none => s
    | some found => s.remove found weight now
  | .assign credentials weight => { s with credentials := credentials, weight := weight }

def run (s : Charging W) (events : List (Event W)) : Charging W :=
  events.foldl step s

end Runs

end Charging

end OpenNode
