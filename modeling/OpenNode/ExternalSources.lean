import OpenNode.Lib.Edits
import OpenNode.Lib.Rows

namespace OpenNode.ExternalSources

open Edits

abbrev NodeId := String

/-- Times are counted in microseconds. -/
def second : Nat := 1000000
def minute : Nat := 60 * second

def previewLifetime : Nat := 15 * minute
def receiptLifetime : Nat := 7 * 24 * 60 * minute
def maxPendingPreviews : Nat := 3
def maxSourcesPerOwner : Nat := 100
def maxSavedNodes : Nat := 2000
def leaseTime : Nat := 120 * second

def defaultUserAgent : String := "clash-meta/2.4.0"

inductive ExternalSubscriptionError where
  | notFound (message : String)
  | conflict (message : String)
  | unavailable (message : String)
  | keyError
deriving DecidableEq

def expectedError : ExternalSubscriptionError := .conflict "External source changed; reload its preview"

/-- The parts outside the store: `uuid5` of a source and a node name, which tells
the names of the lists apart, the keys at which two configurations differ, and
the order of source identifiers. -/
structure Host (Config : Type) where
  uuid5 : Nat → String → NodeId
  names : Set String
  uuid5_injective : ∀ source, Set.InjOn (uuid5 source) names
  changedFields : Option Config → Option Config → List String
  order : Nat → Nat

section Tables

variable (Config : Type)

/-- `ExternalNodeModel`; `secret` is the configuration that it seals. -/
structure Node where
  id : NodeId
  upstreamName : String
  displayName : Option String := none
  protocol : String
  enabled : Bool
  present : Bool
  reason : Option String := none
  secret : Option Config
  createdAt : Nat
  updatedAt : Nat
deriving DecidableEq

/-- `ParsedExternalNode`. -/
structure Entry where
  name : String
  protocol : String
  config : Option Config
  reason : Option String

structure Candidate where
  id : NodeId
  name : String
  protocol : String
  config : Option Config
  reason : Option String
deriving DecidableEq

end Tables

abbrev Metadata := List (String × Int)

inductive Change where
  | new
  | updated
  | unchanged
  | missing
  | unavailable
deriving DecidableEq

structure PreviewNode where
  nodeId : NodeId
  upstreamName : String
  name : String
  protocol : String
  change : Change
  existing : Bool
  selectable : Bool
  reason : Option String := none
  changedFields : List String := []
deriving DecidableEq

structure Counts where
  imported : Nat := 0
  updated : Nat := 0
  missing : Nat := 0
  newAvailable : Nat := 0
deriving DecidableEq

structure Receipt where
  sourceId : Nat
  previewId : Nat
  revision : Nat
  counts : Counts
  appliedAt : Nat
deriving DecidableEq

/-- What the digest of a selection is taken of. -/
structure Selection where
  revision : Nat
  selected : List NodeId
  accepted : Bool
deriving DecidableEq

/-- `ExternalPreviewModel`; `fetch` is the number of the fetch it was made of (a ghost). -/
structure Preview (Config : Type) where
  id : Nat
  sourceRevision : Nat
  secret : Option (List (Candidate Config) × Metadata)
  metadata : Metadata
  nodes : List PreviewNode
  selectionDigest : Option Selection := none
  receipt : Option Receipt := none
  createdAt : Nat
  expiresAt : Nat
  appliedAt : Option Nat := none
  fetch : Nat

inductive Scope where
  | savedOnly
  | all
deriving DecidableEq

/-- `ExternalRefreshModel`. -/
structure Schedule where
  enabled : Bool := false
  intervalMinutes : Nat := 60
  scope : Scope := .savedOnly
  nextRunAt : Option Nat := none
  leaseId : Option Nat := none
  leaseUntil : Option Nat := none
  lastAttemptAt : Option Nat := none
  lastFinishedAt : Option Nat := none
  lastSuccessAt : Option Nat := none
  code : String := "never"
  consecutiveFailures : Nat := 0
  counts : Counts := {}
deriving DecidableEq

/-- `ExternalSourceModel` with the rows that go with it; `merged` are the
revisions at which the merged lists were fetched (a ghost). -/
structure Source (Config : Type) where
  id : Nat
  ownerUsername : String
  name : String
  enabled : Bool
  revision : Nat := 1
  url : String
  userAgent : String
  upstreamMetadata : Metadata := []
  lastSyncedAt : Option Nat := none
  createdAt : Nat
  updatedAt : Nat
  nodes : List (Node Config) := []
  previews : List (Preview Config) := []
  schedule : Option Schedule := none
  merged : List Nat := []

structure Owner where
  username : String
  isActive : Bool
  removalId : Option String

structure RefreshClaim where
  sourceId : Nat
  leaseId : Nat
  sourceRevision : Nat
deriving DecidableEq

/-- A fetch for a preview, with the revision at which it began. -/
structure Fetch where
  sourceId : Nat
  revision : Nat
  caller : Option String
deriving DecidableEq

/-- The tables with the fetches of the operators and of the workers that have
begun, and the leases handed out (ghosts). -/
structure Store (Config : Type) where
  clock : Nat := 0
  serial : Nat := 0
  owners : List Owner
  sources : List (Source Config) := []
  fetches : List Fetch := []
  claims : List RefreshClaim := []
  resolved : List RefreshClaim := []

variable {Config : Type} [DecidableEq Config] (host : Host Config)

section Sources

variable (source : Source Config) (now : Nat)

def Source.expected (expected : Nat) : Except ExternalSubscriptionError Unit :=
  require (source.revision = expected) expectedError

/-- `_bump`, of a source at the expected revision. -/
def Source.bump : Source Config :=
  { source with revision := source.revision + 1, updatedAt := now }

def Schedule.finish (row : Schedule) (code : String) (counts : Counts) : Schedule :=
  let row :=
    { row with leaseId := none, leaseUntil := none, lastFinishedAt := some now, code := code, counts := counts }
  let row :=
    if code = "refresh_succeeded" then { row with lastSuccessAt := some now, consecutiveFailures := 0 }
    else if code ≠ "source_changed" then { row with consecutiveFailures := min (row.consecutiveFailures + 1) 32 }
    else row
  let delay := min (row.intervalMinutes * 2 ^ min (row.consecutiveFailures - 1) 6) 10080
  { row with nextRunAt := if row.enabled then some (now + delay * minute) else none }

structure RefreshUpdate where
  expectedRevision : Nat
  enabled : Bool
  intervalMinutes : Nat
  scope : Scope

def Source.updateRefresh (payload : RefreshUpdate) : Except ExternalSubscriptionError (Source Config) := do
  source.expected payload.expectedRevision
  let row := source.schedule.getD {}
  let row : Schedule := { row with
    enabled := payload.enabled
    intervalMinutes := payload.intervalMinutes
    scope := payload.scope
    nextRunAt := if payload.enabled then some (now + payload.intervalMinutes * minute) else none
    leaseId := none
    leaseUntil := none
    consecutiveFailures := 0 }
  .ok ({ source with schedule := some row }.bump now)

structure SourceUpdate where
  expectedRevision : Nat
  name : String
  enabled : Bool
  url : Option String
  userAgent : Option String

/-- Another address ends the schedule of the source. -/
def Source.move (url : String) : Source Config :=
  if source.url = url then source
  else
    { source with
      url := url
      schedule := source.schedule.map fun row =>
        { row with enabled := false, nextRunAt := none, leaseId := none, leaseUntil := none } }

/-- The configured user agent, or the default for an empty one. -/
def agentOf (userAgent : String) : String :=
  if userAgent = "" then defaultUserAgent else userAgent

/-- `update`; new secrets need the vault. -/
def Source.update (vault : Except ExternalSubscriptionError Unit) (payload : SourceUpdate) :
    Except ExternalSubscriptionError (Source Config) := do
  source.expected payload.expectedRevision
  (if payload.url.isSome ∨ payload.userAgent.isSome then vault else .ok () : Except ExternalSubscriptionError Unit)
  let source := payload.url.elim source source.move
  let source := { source with
    userAgent := payload.userAgent.elim source.userAgent agentOf
    name := payload.name
    enabled := payload.enabled }
  .ok (source.bump now)

structure NodeUpdate where
  expectedRevision : Nat
  name : String
  enabled : Bool

def Source.updateNode (id : NodeId) (payload : NodeUpdate) : Except ExternalSubscriptionError (Source Config) := do
  source.expected payload.expectedRevision
  require (id ∈ source.nodes.map Node.id) (.notFound "External node not found")
  let change (row : Node Config) : Node Config := { row with
    displayName := if payload.name = row.upstreamName then none else some payload.name
    enabled := payload.enabled
    updatedAt := now }
  .ok ({ source with nodes := Rows.update (fun row => row.id == id) change source.nodes }.bump now)

/-- `_purge_expired` takes a preview that ran out, or a receipt that is not kept any more. -/
def Preview.expired (preview : Preview Config) : Bool :=
  match preview.appliedAt with
  | none => decide (preview.expiresAt ≤ now)
  | some applied => decide (applied + receiptLifetime < now)

def Source.purge : Source Config :=
  { source with previews := source.previews.filter fun preview => !preview.expired now }

def Source.nodeNamed (name : String) : Option (Node Config) :=
  source.nodes.find? fun row => row.upstreamName == name

/-- An entry of the fetched list under the identifier of its node. -/
def Source.candidate (entry : Entry Config) : Candidate Config where
  id := (source.nodeNamed entry.name).elim (host.uuid5 source.id entry.name) Node.id
  name := entry.name
  protocol := entry.protocol
  config := entry.config
  reason := entry.reason

/-- Truth of a reason in a condition of the source. -/
def given (reason : Option String) : Bool :=
  reason.any fun reason => reason != ""

/-- A new node that can be used. -/
def Source.offers (entry : Entry Config) : Bool :=
  (source.nodeNamed entry.name).isNone && entry.config.isSome && entry.reason.isNone

def Node.differs (row : Node Config) (config : Option Config) (reason : Option String) : Bool :=
  row.secret != config || row.reason != reason || !row.present

/-- What a preview shows of an entry of the list. -/
def Source.show (entry : Entry Config) : PreviewNode :=
  let old := source.nodeNamed entry.name
  { nodeId := (source.candidate host entry).id
    upstreamName := entry.name
    name := (old.bind Node.displayName).getD entry.name
    protocol := entry.protocol
    change :=
      if entry.config = none ∨ given entry.reason then .unavailable
      else match old with
        | none => .new
        | some row => if row.differs entry.config entry.reason then .updated else .unchanged
    existing := old.isSome
    selectable := source.offers entry
    reason := entry.reason
    changedFields := match old, entry.config with
      | some row, some config => host.changedFields row.secret (some config)
      | _, _ => [] }

def missingReason : String := "Node will be unavailable until a later confirmed refresh restores it"

def Node.missing (row : Node Config) : PreviewNode where
  nodeId := row.id
  upstreamName := row.upstreamName
  name := row.displayName.getD row.upstreamName
  protocol := row.protocol
  change := .missing
  existing := true
  selectable := false
  reason := some missingReason

/-- The second transaction of `prepare_preview`, with the list that was fetched. -/
def Source.prepare (vault : Except ExternalSubscriptionError Unit) (expected fetch id : Nat)
    (parsed : List (Entry Config))
    (metadata : Metadata) : Except ExternalSubscriptionError (Source Config) := do
  source.expected expected
  let source := source.purge now
  require ((source.previews.filter fun preview => preview.appliedAt.isNone).length < maxPendingPreviews)
    (.conflict "Cancel an existing preview before fetching again")
  vault
  let gone := source.nodes.filter fun row => !(parsed.map Entry.name).contains row.upstreamName
  let preview : Preview Config := {
    id := id
    sourceRevision := source.revision
    createdAt := now
    expiresAt := now + previewLifetime
    secret := some (parsed.map (source.candidate host), metadata)
    metadata := metadata
    nodes := parsed.map (source.show host) ++ gone.map Node.missing
    fetch := fetch }
  .ok { source with previews := source.previews ++ [preview] }

def Source.preview (id : Nat) : Except ExternalSubscriptionError (Preview Config) :=
  match source.previews.find? fun preview => preview.id == id with
  | none => .error (.notFound "External subscription preview not found")
  | some preview =>
    match preview.appliedAt with
    | some applied =>
      if applied + receiptLifetime ≤ now then .error (.notFound "External subscription preview not found")
        else .ok preview
    | none =>
      if preview.expiresAt ≤ now then .error (.conflict "External subscription preview expired; fetch again")
      else .ok preview

/-- `cancel_preview`. The caller may be answered that the source has no such preview. -/
def Source.cancelPreview (strict : Bool) (id : Nat) : Except ExternalSubscriptionError (Source Config) :=
  match source.previews.find? fun preview => preview.id == id with
  | none => if strict then .error (.notFound "External subscription preview not found") else .ok source
  | some preview =>
    if preview.appliedAt.isSome then .error (.conflict "Preview is already confirmed; its receipt is retained")
    else .ok { source with previews := source.previews.filter fun preview => preview.id != id }

/-- `incoming`: of entries with one identifier the last one counts. -/
def incoming (entries : List (Candidate Config)) (id : NodeId) : Option (Candidate Config) :=
  entries.reverse.find? fun entry => entry.id == id

def Node.merge (entry : Option (Candidate Config)) (row : Node Config) : Node Config :=
  match entry with
  | none => { row with present := false, updatedAt := now }
  | some entry =>
    { row with
      protocol := entry.protocol
      present := true
      reason := entry.reason
      secret := entry.config
      updatedAt := now }

def addNodes (entries : List (Candidate Config)) : List NodeId →
    Except ExternalSubscriptionError (List (Node Config))
  | [] => .ok []
  | id :: ids =>
    match incoming entries id with
    | none => .error .keyError
    | some entry =>
      if entry.config = none ∨ given entry.reason then .error (.conflict "Selected external node is unavailable")
      else do
        let rest ← addNodes entries ids
        .ok ({
          id := id
          upstreamName := entry.name
          protocol := entry.protocol
          enabled := true
          present := true
          secret := entry.config
          createdAt := now
          updatedAt := now } :: rest)

def Source.applySnapshot (entries : List (Candidate Config)) (selected : List NodeId) :
    Except ExternalSubscriptionError (List (Node Config) × Counts) := do
  require (source.nodes.length + selected.length ≤ maxSavedNodes)
    (.conflict "External source saved-node limit reached")
  let new ← addNodes now entries (selected.mergeSort fun a b => decide (a ≤ b))
  let updated := source.nodes.filter fun row =>
    (incoming entries row.id).any fun entry => row.differs entry.config entry.reason
  let missing := source.nodes.filter fun row => (incoming entries row.id).isNone && row.present
  .ok (source.nodes.map (fun row => row.merge now (incoming entries row.id)) ++ new,
    { imported := new.length, updated := updated.length, missing := missing.length })

/-- What a merge of a list fetched at the source's revision leaves. -/
def Source.merge (nodes : List (Node Config)) (metadata : Metadata) (synced : Nat) : Source Config :=
  { source with
    nodes := nodes
    upstreamMetadata := metadata
    lastSyncedAt := some synced
    merged := source.merged ++ [source.revision] }.bump now

structure Confirm where
  expectedRevision : Nat
  selectedNodeIds : List NodeId
  acceptChanges : Bool

def Confirm.selected (payload : Confirm) : List NodeId :=
  payload.selectedNodeIds.dedup

def Confirm.digest (payload : Confirm) : Selection where
  revision := payload.expectedRevision
  selected := payload.selected.mergeSort fun a b => decide (a ≤ b)
  accepted := payload.acceptChanges

def Preview.selectable (preview : Preview Config) : List NodeId :=
  (preview.nodes.filter PreviewNode.selectable).map PreviewNode.nodeId

/-- The merge of `confirm`. -/
def Source.confirmNew (vault : Except ExternalSubscriptionError Unit) (preview : Preview Config)
    (payload : Confirm) :
    Except ExternalSubscriptionError (Source Config × Receipt) := do
  source.expected payload.expectedRevision
  require (preview.sourceRevision = source.revision) (.conflict "External source changed after this preview")
  require (∀ id ∈ payload.selected,
    id ∈ preview.selectable) (.conflict "Selection contains a node not offered by this preview")
  vault
  match preview.secret with
  | none => .error (.unavailable "External subscription credentials are unavailable; restore their original state")
  | some (entries, metadata) =>
    let (nodes, counts) ← source.applySnapshot now entries payload.selected
    let after := source.merge now nodes metadata preview.createdAt
    let receipt : Receipt := {
      sourceId := source.id
      previewId := preview.id
      revision := after.revision
      counts := counts
      appliedAt := now }
    let applied (row : Preview Config) : Preview Config := { row with
      appliedAt := some now
      selectionDigest := some payload.digest
      receipt := some receipt
      secret := none }
    .ok ({ after with previews := Rows.update (fun row => row.id == preview.id) applied after.previews }, receipt)

def Source.confirm (vault : Except ExternalSubscriptionError Unit) (previewId : Nat) (payload : Confirm) :
    Except ExternalSubscriptionError (Source Config × Receipt) := do
  let preview ← source.preview now previewId
  if preview.appliedAt.isSome then
    if preview.selectionDigest ≠
      some payload.digest then .error (.conflict "Preview was confirmed with a different selection")
    else match preview.receipt with
      | some receipt => .ok (source, receipt)
      | none => .error .keyError
  else source.confirmNew now vault preview payload

end Sources

section Operations

variable (s : Store Config) (now : Nat) (vault : Except ExternalSubscriptionError Unit)

def Store.owner? (username : String) : Option Owner :=
  s.owners.find? fun owner => owner.username == username

/-- `_owner` for a write. -/
def Store.writableOwner (username : String) : Except ExternalSubscriptionError Unit :=
  match s.owner? username with
  | none => .error (.notFound "Subscriber not found")
  | some owner => require (owner.removalId = none) (.conflict "Subscriber removal is in progress")

/-- `_source`; an account sees its own sources only. -/
def Store.source (caller : Option String) (id : Nat) : Except ExternalSubscriptionError (Source Config) :=
  match s.sources.find? fun source => source.id == id && caller.all fun caller =>
    caller == source.ownerUsername with
  | none => .error (.notFound "External source not found")
  | some source => do
    s.writableOwner source.ownerUsername
    .ok source

/-- The row of a source as one transaction leaves it. -/
def Store.put (source : Source Config) : Store Config :=
  { s with sources := Rows.update (fun row => row.id == source.id) (fun _ => source) s.sources }

/-- A transaction on one source. -/
def Store.edit (caller : Option String) (id : Nat)
    (change : Source Config → Except ExternalSubscriptionError (Source Config)) :
    Except ExternalSubscriptionError (Store Config) := do
  let source ← s.source caller id
  let after ← change source
  .ok (s.put after)

def Store.taken (source : Source Config) : Bool :=
  s.sources.any fun other => other.id != source.id && other.ownerUsername == source.ownerUsername &&
    other.url == source.url

def integrityError : ExternalSubscriptionError :=
  .conflict "External source changed or already exists; reload before retrying"

def create (owner name url userAgent : String) (enabled : Bool) :
    Except ExternalSubscriptionError (Store Config) := do
  s.writableOwner owner
  require ((s.sources.filter fun source => source.ownerUsername == owner).length < maxSourcesPerOwner)
    (.conflict "Subscriber external source limit reached")
  vault
  let source : Source Config := {
    id := s.serial
    ownerUsername := owner
    name := name
    enabled := enabled
    url := url
    userAgent := agentOf userAgent
    createdAt := now
    updatedAt := now }
  require (s.taken source = false) integrityError
  .ok { s with sources := s.sources ++ [source], serial := s.serial + 1 }

/-- `update`; an owner has no address twice. -/
def update (caller : Option String) (id : Nat) (payload : SourceUpdate) :
    Except ExternalSubscriptionError (Store Config) :=
  s.edit caller id fun source => do
    let after ← source.update now vault payload
    require (s.taken after = false) integrityError
    .ok after

/-- `delete`, with the rows that go with the source. -/
def delete (caller : Option String) (id expected : Nat) : Except ExternalSubscriptionError (Store Config) := do
  let source ← s.source caller id
  source.expected expected
  .ok { s with sources := s.sources.filter fun other => other.id != source.id }

/-- The first transaction of `prepare_preview`: the fetch begins. -/
def beginFetch (caller : Option String) (id expected : Nat) : Except ExternalSubscriptionError (Store Config) := do
  let source ← s.source caller id
  source.expected expected
  vault
  .ok { s with fetches := s.fetches ++ [⟨source.id, source.revision, caller⟩] }

/-- The second transaction of `prepare_preview`. -/
def prepare (fetch : Nat)
    (parsed : List (Entry Config)) (metadata : Metadata) : Except ExternalSubscriptionError (Store Config) :=
  match s.fetches[fetch]? with
  | none => .ok s
  | some began => do
    let t ← s.edit began.caller began.sourceId fun source =>
      source.prepare host now vault began.revision fetch s.serial parsed metadata
    .ok { t with serial := s.serial + 1 }

def confirm (caller : Option String) (id previewId : Nat) (payload : Confirm) :
    Except ExternalSubscriptionError (Store Config × Receipt) := do
  let source ← s.source caller id
  let (after, receipt) ← source.confirm now vault previewId payload
  .ok (s.put after, receipt)

/-- The selection of the query in `ExternalRefreshService.claim`. -/
def Store.due (source : Source Config) : Bool :=
  source.enabled && (s.owner? source.ownerUsername).any (fun owner => owner.isActive && owner.removalId.isNone) &&
    source.schedule.any fun row => row.enabled && row.nextRunAt.any (fun time => decide (time ≤ now)) &&
      (row.leaseId.isNone || row.leaseUntil.any fun time => decide (time ≤ now))

def earlier (a b : Source Config) : Bool :=
  let x := (a.schedule.bind Schedule.nextRunAt).getD 0
  let y := (b.schedule.bind Schedule.nextRunAt).getD 0
  decide (x < y) || (x == y && decide (host.order a.id ≤ host.order b.id))

/-- `claim`; a lease that was left behind is only closed. -/
def claim : Store Config :=
  match ((s.sources.filter (s.due now)).mergeSort (earlier host)).head? with
  | none => s
  | some source =>
    match source.schedule with
    | none => s
    | some row =>
      if row.leaseId.isSome then
        s.put { source with schedule := some (row.finish now "worker_interrupted" {}) }
      else
        { s.put { source with schedule := some { row with
            leaseId := some s.serial
            leaseUntil := some (now + leaseTime)
            lastAttemptAt := some now } } with
          serial := s.serial + 1
          claims := s.claims ++ [⟨source.id, s.serial, source.revision⟩] }

/-- The checks of `_current` on the claim's own lease. -/
def Store.current (claim : RefreshClaim) (source : Source Config) (row : Schedule) : Bool :=
  row.enabled && source.enabled && (s.owner? source.ownerUsername).any (fun owner => owner.isActive &&
    owner.removalId.isNone) &&
    source.revision == claim.sourceRevision && row.leaseUntil.any fun time => decide (now < time)

/-- `_current`, with what the transaction does next to a source that is current. -/
def withCurrent (claim : RefreshClaim)
    (next : Source Config → Schedule → Except ExternalSubscriptionError (Store Config)) : Except
      ExternalSubscriptionError (Store Config) :=
  match s.sources.find? fun source => source.id == claim.sourceId with
  | none => .ok s
  | some source =>
    match source.schedule with
    | none => .ok s
    | some row =>
      if row.leaseId ≠ some claim.leaseId then .ok s
      else if s.current now claim source row then next source row
      else .ok (s.put { source with schedule := some (row.finish now "source_changed" {}) })

def fail (claim : RefreshClaim) (code : String) : Except ExternalSubscriptionError (Store Config) :=
  withCurrent s now claim fun source row => .ok (s.put { source with schedule := some (row.finish now code {}) })

/-- The first transaction of `refresh`: the fetch begins. -/
def resolve (claim : RefreshClaim) : Except ExternalSubscriptionError (Store Config) :=
  withCurrent s now claim fun _ _ => do
    vault
    .ok { s with resolved := s.resolved ++ [claim] }

/-- The nodes of the list that could be added. -/
def Source.newIds (source : Source Config) (parsed : List (Entry Config)) : List NodeId :=
  ((parsed.filter source.offers).map fun entry => (source.candidate host entry).id).dedup

def Source.refreshSelection (source : Source Config) (scope : Scope) (parsed : List (Entry Config)) : List NodeId :=
  match scope with
  | .all => source.newIds host parsed
  | .savedOnly => []

/-- The second transaction of `refresh`, with the list that was fetched. -/
def refresh (claim : RefreshClaim) (parsed : List (Entry Config)) (metadata : Metadata) :
    Except ExternalSubscriptionError (Store Config) :=
  withCurrent s now claim fun source row => do
    vault
    let selected := source.refreshSelection host row.scope parsed
    if maxSavedNodes < source.nodes.length + selected.length then
      .ok (s.put { source with schedule := some (row.finish now "node_limit" {}) })
    else
      let (nodes, counts) ← source.applySnapshot now (parsed.map (source.candidate host)) selected
      let counts := { counts with newAvailable := (source.newIds host parsed).length - selected.length }
      let after := (source.merge now nodes metadata now).purge now
      .ok (s.put { after with schedule := some (row.finish now "refresh_succeeded" counts) })

end Operations

section Runs

inductive Action (Config : Type) where
  | create (owner name url userAgent : String) (enabled : Bool)
  | update (caller : Option String) (id : Nat) (payload : SourceUpdate)
  | delete (caller : Option String) (id expected : Nat)
  | updateNode (caller : Option String) (id : Nat) (node : NodeId) (payload : NodeUpdate)
  | updateRefresh (caller : Option String) (id : Nat) (payload : RefreshUpdate)
  | beginFetch (caller : Option String) (id expected : Nat)
  | prepare (fetch : Nat) (parsed : List (Entry Config)) (metadata : Metadata)
  | cancelPreview (caller : Option String) (id previewId : Nat)
  | confirm (caller : Option String) (id previewId : Nat) (payload : Confirm)
  | claim
  | resolve (claim : Nat)
  | refresh (resolved : Nat) (parsed : List (Entry Config)) (metadata : Metadata)
  | fail (claim : Nat) (code : String)
  | owners (owners : List Owner)

/-- The names of the lists that an action brings. -/
def Action.Lists (names : Set String) : Action Config → Prop
  | .prepare _ parsed _ | .refresh _ parsed _ => ∀ entry ∈ parsed, entry.name ∈ names
  | _ => True

/-- An action with the time since the last one and what the vault answers in it. -/
structure Event (Config : Type) where
  elapsed : Nat
  vault : Except ExternalSubscriptionError Unit := .ok ()
  action : Action Config

/-- One transaction. -/
def perform (s : Store Config) (now : Nat) (vault : Except ExternalSubscriptionError Unit) :
    Action Config → Except ExternalSubscriptionError (Store Config)
  | .create owner name url userAgent enabled => create s now vault owner name url userAgent enabled
  | .update caller id payload => update s now vault caller id payload
  | .delete caller id expected => delete s caller id expected
  | .updateNode caller id node payload => s.edit caller id fun source => source.updateNode now node payload
  | .updateRefresh caller id payload => s.edit caller id fun source => source.updateRefresh now payload
  | .beginFetch caller id expected => beginFetch s vault caller id expected
  | .prepare fetch parsed metadata => prepare host s now vault fetch parsed metadata
  | .cancelPreview caller id previewId =>
    -- without an owner only the preview of another source is refused
    let elsewhere := s.sources.any fun other => other.previews.any fun preview => preview.id == previewId
    s.edit caller id fun source => source.cancelPreview (caller.isSome || elsewhere) previewId
  | .confirm caller id previewId payload => do .ok (← confirm s now vault caller id previewId payload).1
  | .claim => .ok (claim host s now)
  | .resolve index => (s.claims[index]?).elim (.ok s) (resolve s now vault)
  | .refresh index parsed metadata =>
    (s.resolved[index]?).elim (.ok s) fun claim => refresh host s now vault claim parsed metadata
  | .fail index code => (s.claims[index]?).elim (.ok s) fun claim => fail s now claim code
  | .owners owners => .ok { s with
      owners := owners
      sources := s.sources.filter fun source => owners.any fun owner => owner.username == source.ownerUsername }

/-- A failed transaction is rolled back. -/
def Store.step (s : Store Config) (event : Event Config) : Store Config :=
  let now := s.clock + event.elapsed
  match perform host s now event.vault event.action with
  | .ok t => { t with clock := now }
  | .error _ => { s with clock := now }

def Store.run (s : Store Config) (events : List (Event Config)) : Store Config :=
  events.foldl (Store.step host) s

end Runs

end OpenNode.ExternalSources
