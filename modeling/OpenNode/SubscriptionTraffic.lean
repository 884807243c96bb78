import OpenNode.ServerTraffic

namespace OpenNode

abbrev NodeId := Nat

/-- `SubscriptionTrafficLedgerModel`. The weighted totals are kept in the
arithmetic `W` of the weights. The byte columns are 64-bit: a report that would
take one to `2 ^ 63` raises and is rolled back, so it is none of the recorded ones. -/
structure Ledger (W : Type) where
  username : String
  serverId : ServerId
  email : String
  attributedNodeId : Option NodeId
  upload : Nat
  download : Nat
  weightedUpload : W
  weightedDownload : W
  lastUplink : Nat
  lastDownlink : Nat
  lastReportedAt : Option Time
  createdAt : Time
  updatedAt : Time

/-- The columns of `uq_subscription_traffic_email`. -/
structure LedgerKey where
  username : String
  serverId : ServerId
  email : String
deriving DecidableEq, Repr

def Ledger.key {W : Type} (ledger : Ledger W) : LedgerKey :=
  { username := ledger.username, serverId := ledger.serverId, email := ledger.email }

/-- The row of a key. -/
def findLedger {W : Type} (key : LedgerKey) (ledgers : List (Ledger W)) : Option (Ledger W) :=
  ledgers.find? (·.key = key)

/-- To whom `_subscription_billing_attribution_by_email` bills an email, and
at which weight. -/
structure Attribution (W : Type) where
  username : String
  nodeId : NodeId
  weight : W

/-- `SubscriptionCredentialModel`, with what a reset reads. `rawEmail` is the
non-empty email of the credential document. -/
structure TrafficCredential where
  serverId : ServerId
  nodeId : NodeId
  email : String
  rawEmail : Option String := none

/-- `_subscription_credential_emails`. -/
def TrafficCredential.emails (credential : TrafficCredential) : List String :=
  credential.email :: (credential.rawEmail.filter (· != credential.email)).toList

/-- The tables that telemetry and traffic resets write. -/
structure Accounting (W : Type) where
  telemetry : List TelemetrySnapshot := []
  traffic : ServerId → ServerTraffic := fun _ => {}
  ledgers : List (Ledger W) := []

section Ledgers

variable {W : Type} [Zero W] [Add W] [SMul ℕ W]

/-- The row that the first report of an email creates. -/
def openLedger (key : LedgerKey) (item : TrafficData) (attribution : Attribution W)
    (reportedAt now : Time) : Ledger W :=
  { username := key.username
    serverId := key.serverId
    email := key.email
    attributedNodeId := some attribution.nodeId
    upload := item.uplink
    download := item.downlink
    weightedUpload := item.uplink • attribution.weight
    weightedDownload := item.downlink • attribution.weight
    lastUplink := item.uplink
    lastDownlink := item.downlink
    lastReportedAt := some reportedAt
    createdAt := now
    updatedAt := now }

/-- The row after another report of its email. -/
def Ledger.ingest (ledger : Ledger W) (item : TrafficData) (attribution : Attribution W)
    (reportedAt now : Time) : Ledger W :=
  if ledger.lastReportedAt.any (reportedAt ≤ ·) then ledger
  else
    let uploadDelta := Counter.increase ledger.lastUplink item.uplink
    let downloadDelta := Counter.increase ledger.lastDownlink item.downlink
    { ledger with
      upload := ledger.upload + uploadDelta
      download := ledger.download + downloadDelta
      weightedUpload := ledger.weightedUpload + uploadDelta • attribution.weight
      weightedDownload := ledger.weightedDownload + downloadDelta • attribution.weight
      attributedNodeId := some attribution.nodeId
      lastUplink := item.uplink
      lastDownlink := item.downlink
      lastReportedAt := some reportedAt
      updatedAt := now }

/-- The row after a reset. -/
def Ledger.reset (ledger : Ledger W) (baseline : Option (TrafficData × Time)) (now : Time) : Ledger W :=
  let based :=
    match baseline with
    | none => ledger
    | some (item, reportedAt) =>
      { ledger with
        lastUplink := item.uplink
        lastDownlink := item.downlink
        lastReportedAt := some reportedAt }
  { based with upload := 0, download := 0, weightedUpload := 0, weightedDownload := 0, updatedAt := now }

/-- The row that a reset creates for a credential without one. -/
def baselineLedger (username : String) (credential : TrafficCredential) (email : String)
    (item : TrafficData) (reportedAt : Option Time) (now : Time) : Ledger W :=
  { username := username
    serverId := credential.serverId
    email := email
    attributedNodeId := some credential.nodeId
    upload := 0
    download := 0
    weightedUpload := 0
    weightedDownload := 0
    lastUplink := item.uplink
    lastDownlink := item.downlink
    lastReportedAt := reportedAt
    createdAt := now
    updatedAt := now }

/-- The turn of `_record_subscription_traffic_ledger` for an email. -/
def recordItem (server : ServerId) (attribution : String → Option (Attribution W)) (reportedAt now : Time)
    (ledgers : List (Ledger W)) (entry : String × TrafficData) : List (Ledger W) :=
  match attribution entry.1 with
  | none => ledgers
  | some billed =>
    let key := { username := billed.username, serverId := server, email := entry.1 }
    if ledgers.any (·.key = key) then
      ledgers.map fun ledger =>
        if ledger.key = key then ledger.ingest entry.2 billed reportedAt now else ledger
    else ledgers ++ [openLedger key entry.2 billed reportedAt now]

/-- `_record_subscription_traffic_ledger`. -/
def recordLedger (ledgers : List (Ledger W)) (snapshot : TelemetrySnapshot)
    (attribution : String → Option (Attribution W)) : List (Ledger W) :=
  match snapshot.stats with
  | none => ledgers
  | some stats =>
    stats.user.entries.foldl
      (recordItem snapshot.serverId attribution snapshot.reportedAt snapshot.receivedAt) ledgers

end Ledgers

/-- The order of `_latest_telemetry_model`, by report and then by receipt. -/
def TelemetrySnapshot.before (a b : TelemetrySnapshot) : Bool :=
  a.reportedAt < b.reportedAt || (a.reportedAt == b.reportedAt && a.receivedAt < b.receivedAt)

/-- The latest of two rows; equal ones stay in table order. -/
def latest (best : Option TelemetrySnapshot) (snapshot : TelemetrySnapshot) : Option TelemetrySnapshot :=
  match best with
  | none => some snapshot
  | some other => if other.before snapshot then some snapshot else some other

namespace Accounting

variable {W : Type}

/-- `_latest_telemetry_model`. -/
def latestTelemetry (s : Accounting W) (server : ServerId) : Option TelemetrySnapshot :=
  (s.telemetry.filter (·.serverId == server)).foldl latest none

/-- `_subscription_traffic_baseline`. -/
def baseline (s : Accounting W) (server : ServerId) (email : String) : Option (TrafficData × Time) :=
  (s.latestTelemetry server).bind fun snapshot =>
    snapshot.stats.bind fun stats =>
      (stats.user.get? email).map fun item => (item, snapshot.reportedAt)

/-- `_subscription_credential_baseline`. -/
def credentialBaseline (s : Accounting W) (credential : TrafficCredential) :
    String × TrafficData × Option Time :=
  let found := credential.emails.findSome? fun email =>
    (s.baseline credential.serverId email).map fun based => (email, based.1, some based.2)
  found.getD (credential.email, {}, none)

variable [Zero W] [Add W] [SMul ℕ W]

/-- `record_telemetry`, with the attribution that the report finds. -/
def recordTelemetry (s : Accounting W) (snapshot : TelemetrySnapshot)
    (attribution : String → Option (Attribution W)) : Accounting W :=
  { telemetry := s.telemetry ++ [snapshot]
    traffic := Function.update s.traffic snapshot.serverId
      ((s.traffic snapshot.serverId).record snapshot)
    ledgers := recordLedger s.ledgers snapshot attribution }

def resetCredential (s : Accounting W) (username : String) (now : Time) (ledgers : List (Ledger W))
    (credential : TrafficCredential) : List (Ledger W) :=
  let (email, item, reportedAt) := s.credentialBaseline credential
  let key := { username := username, serverId := credential.serverId, email := email }
  if ledgers.any (·.key = key) then ledgers
  else ledgers ++ [baselineLedger username credential email item reportedAt now]

/-- `_reset_subscription_traffic_for_user`. -/
def resetTraffic (s : Accounting W) (username : String) (credentials : List TrafficCredential)
    (now : Time) : Accounting W :=
  let ledgers := s.ledgers.map fun ledger =>
    if ledger.username = username then
      ledger.reset (s.baseline ledger.serverId ledger.email) now
    else ledger
  { s with ledgers := credentials.foldl (s.resetCredential username now) ledgers }

def ledger? (s : Accounting W) (key : LedgerKey) : Option (Ledger W) :=
  findLedger key s.ledgers

end Accounting

/-- The transactions that act on the ledgers. A due reset resets one user
after another. -/
inductive TrafficOperation (W : Type) where
  | telemetry (snapshot : TelemetrySnapshot) (attribution : String → Option (Attribution W))
  | reset (username : String) (credentials : List TrafficCredential) (now : Time)

def Accounting.step {W : Type} [Zero W] [Add W] [SMul ℕ W] (s : Accounting W) :
    TrafficOperation W → Accounting W
  | .telemetry snapshot attribution => s.recordTelemetry snapshot attribution
  | .reset username credentials now => s.resetTraffic username credentials now

end OpenNode
