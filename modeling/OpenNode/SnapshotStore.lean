import OpenNode.Json
import OpenNode.Lib.Rows

namespace OpenNode.SnapshotStore

open List Rows

inductive Source where
  | masterWrite
  | agentReport
  | manualAccept
deriving DecidableEq, Repr

inductive Status where
  | current
  | pendingRecovery
  | old
deriving DecidableEq, Repr

/-- A row of `xray_config_snapshots`. -/
structure Snapshot where
  id : String
  serverId : String
  sourceCommandId : Option String
  config : String
  configHash : String
  source : Source
  status : Status
  sizeBytes : Nat
  createdAt : Int
deriving DecidableEq

/-- What the store takes from outside: the digest of a configuration, `json.dumps` where
it succeeds, and the characters that `strip` removes. -/
structure Codec where
  hash : String → String
  dumps : Json → Option String
  space : Char → Bool

structure Command where
  id : String
  path : String
  method : String
  query : Option String
  body : Json

structure CommandResult where
  status : Int
  error : Option String
  body : Json

/-- The rows of a server with this status. -/
def Snapshot.has (server : String) (status : Status) (row : Snapshot) : Bool :=
  row.serverId = server && row.status = status

/-- The row with another status. -/
def Snapshot.as (status : Status) (row : Snapshot) : Snapshot := { row with status := status }

variable {status : Status}

theorem Snapshot.as_serverId (row : Snapshot) : (row.as status).serverId = row.serverId := rfl

theorem Snapshot.as_status (row : Snapshot) : (row.as status).status = status := rfl

def withStatus (server : String) (status : Status) (rows : List Snapshot) : List Snapshot :=
  rows.filter (Snapshot.has server status)

/-- The first row by `created_at.desc()`. -/
def newest (rows : List Snapshot) : Option Snapshot :=
  (rows.mergeSort fun a b => b.createdAt ≤ a.createdAt).head?

/-- `_current_xray_config_snapshot`. -/
def currentSnapshot (server : String) (rows : List Snapshot) : Option Snapshot :=
  newest (withStatus server .current rows)

/-- `_pending_xray_config_snapshot`. -/
def pendingSnapshot (server : String) (rows : List Snapshot) : Option Snapshot :=
  newest (withStatus server .pendingRecovery rows)

/-- An added row; its `id` is the primary key. -/
def add (row : Snapshot) (rows : List Snapshot) : Option (List Snapshot) :=
  if rows.any fun other => other.id = row.id then none else some (rows ++ [row])

/-- The row as an accepted recovery. -/
def Snapshot.accepted (row : Snapshot) : Snapshot := { row with status := .current, source := .manualAccept }

/-- The current rows become old ones. -/
def demote (server : String) (rows : List Snapshot) : List Snapshot :=
  update (Snapshot.has server .current) (Snapshot.as .old) rows

/-- `_discard_pending_xray_recovery`. -/
def discardPending (server : String) (rows : List Snapshot) : List Snapshot :=
  rows.filter fun row => !row.has server .pendingRecovery

/-- `_upsert_current_xray_config_snapshot`, with the row that it would add. -/
def upsertCurrent (row : Snapshot) (rows : List Snapshot) : Option (List Snapshot) :=
  match currentSnapshot row.serverId rows with
  | none => add (row.as .current) (demote row.serverId rows)
  | some current =>
    if current.configHash = row.configHash then some rows else add (row.as .current) (demote row.serverId rows)

/-- `_upsert_agent_report_xray_config_snapshot`. -/
def upsertAgentReport (row : Snapshot) (rows : List Snapshot) : Option (List Snapshot) :=
  match currentSnapshot row.serverId rows with
  | none => upsertCurrent row rows
  | some current =>
    if current.configHash = row.configHash then some (discardPending row.serverId rows)
    else add (row.as .pendingRecovery) (discardPending row.serverId rows)

/-- `accept_xray_config_pending_recovery`; without a pending recovery it is refused. -/
def acceptPendingRecovery (server : String) (rows : List Snapshot) : Option (List Snapshot) := do
  let pending ← pendingSnapshot server rows
  some (update (fun row => row.id = pending.id) Snapshot.accepted (demote server rows))

section

variable (codec : Codec)

/-- `_xray_config_text`. -/
def configText : Json → Option String
  | .null => none
  | .str text => some text
  | value => codec.dumps value

def isTrue : Json → Bool
  | .bool value => value
  | _ => false

def isFalse : Json → Bool
  | .bool value => !value
  | _ => false

/-- `_xray_config_snapshot_source`. -/
def snapshotSource (command : Command) (payload : CommandResult) : Option String × Source :=
  if command.method.toUpper = "GET" then
    if isFalse (payload.body.get "success") then (none, .agentReport)
    else (configText codec (payload.body.get "config"),
      if command.query = some "snapshot_source=master_write" then .masterWrite else .agentReport)
  else (configText codec (command.body.get "config"), .masterWrite)

/-- The configuration that a result carries, with its source. -/
def carried (command : Command) (payload : CommandResult) : Option (String × Source) :=
  if command.path ≠ "/api/child/xray/config" ∧ command.path ≠ "/api/child/egress/apply" then none
  else if payload.error.any (· ≠ "") ∨ 400 ≤ payload.status then none
  else if command.path = "/api/child/egress/apply" ∧ isTrue (payload.body.get "diverged") then none
  else
    match snapshotSource codec command payload with
    | (some config, source) => if config.toList.all codec.space then none else some (config, source)
    | (none, _) => none

/-- A result of a command of a server, with the id and the time of a row that it may add,
or an accepted recovery. -/
inductive Event where
  | result (server : String) (command : Command) (payload : CommandResult) (id : String) (now : Int)
  | accept (server : String)

def newRow (server config id : String) (source : Source) (command : Command) (now : Int) : Snapshot where
  id := id
  serverId := server
  sourceCommandId := some command.id
  config := config
  configHash := codec.hash config
  source := source
  status := .current
  sizeBytes := config.utf8ByteSize
  createdAt := now

/-- `_record_xray_config_snapshot_from_command`. -/
def record (server : String) (command : Command) (payload : CommandResult) (id : String) (now : Int)
    (rows : List Snapshot) :
    Option (List Snapshot) :=
  match carried codec command payload with
  | none => some rows
  | some (config, .agentReport) => upsertAgentReport (newRow codec server config id .agentReport command now) rows
  | some (config, source) =>
    (upsertCurrent (newRow codec server config id source command now) rows).map (discardPending server)

def step (rows : List Snapshot) : Event → Option (List Snapshot)
  | .result server command payload id now => record codec server command payload id now rows
  | .accept server => acceptPendingRecovery server rows

/-- The store after these events, none of which was refused. -/
def run (events : List Event) : Option (List Snapshot) :=
  events.foldlM (step codec) []

/-- What the events say of a server: the configuration that was written or accepted last,
or reported first, and the one that was reported last. -/
structure History where
  base : Option String
  report : Option String

def History.next (server : String) (h : History) : Event → History
  | .result other command payload _ _ =>
    if other = server then
      match carried codec command payload with
      | none => h
      | some (config, .agentReport) => { base := h.base.or (some config), report := some config }
      | some (config, _) => { h with base := some config }
    else h
  | .accept other => if other = server then { h with base := h.report } else h

def history (server : String) (events : List Event) : History :=
  events.foldl (History.next codec server) { base := none, report := none }

end

/-- The snapshots of a server that count: a pending one stands beside a current one of
another digest. -/
structure View where
  current : Option Snapshot
  pending : Option Snapshot
  apart : ∀ row, pending = some row → ∃ other, current = some other ∧ other.configHash ≠ row.configHash

namespace View

def empty : View where
  current := none
  pending := none
  apart := nofun

/-- The row that is current, where one with its digest stays. -/
def kept (view : View) (row : Snapshot) : Snapshot :=
  match view.current with
  | some current => if current.configHash = row.configHash then current else row.as .current
  | none => row.as .current

/-- A configuration that the controller wrote. -/
def write (view : View) (row : Snapshot) : View where
  current := some (view.kept row)
  pending := none
  apart := nofun

/-- A configuration that the Agent reported. -/
def report (view : View) (row : Snapshot) : View :=
  match view.current with
  | none => { current := some (row.as .current), pending := none, apart := nofun }
  | some current =>
    if same : current.configHash = row.configHash then { current := some current, pending := none, apart := nofun }
    else
      { current := some current
        pending := some (row.as .pendingRecovery)
        apart := fun _ pending => ⟨current, rfl, Option.some.inj pending ▸ same⟩ }

/-- The accepted recovery of a pending row. -/
def accept (row : Snapshot) : View where
  current := some row.accepted
  pending := none
  apart := nofun

theorem kept_configHash (view : View) (row : Snapshot) : (view.kept row).configHash = row.configHash := by
  rw [kept]
  split
  · split
    · assumption
    · rfl
  · rfl

theorem report_current {view : View} {current : Snapshot} (row : Snapshot) (here : view.current = some current) :
    (view.report row).current = some current := by
  rw [report]
  split
  · rename_i found
    rw [here] at found
    cases found
  · rename_i found
    cases here.symm.trans found
    split <;> rfl

end View

/-- The rows of a server that count are those of the view. -/
structure Shows (server : String) (rows : List Snapshot) (view : View) : Prop where
  current : withStatus server .current rows = view.current.toList
  pending : withStatus server .pendingRecovery rows = view.pending.toList

/-- What holds of the rows of all servers. -/
structure Stored (codec : Codec) (rows : List Snapshot) : Prop where
  ids : (rows.map Snapshot.id).Nodup
  hashed : ∀ row ∈ rows, row.configHash = codec.hash row.config

variable {row : Snapshot}

theorem Snapshot.has_iff {server : String} :
    row.has server status = true ↔ row.serverId = server ∧ row.status = status := by
  rw [Snapshot.has, Bool.and_eq_true, decide_eq_true_eq, decide_eq_true_eq]

theorem newest_toList (found : Option Snapshot) : newest found.toList = found := by
  cases found with
  | none => rw [newest, Option.toList_none, mergeSort_nil]; rfl
  | some row => rw [newest, Option.toList_some, mergeSort_singleton]; rfl

theorem Shows.currentSnapshot {server : String} {rows : List Snapshot} {view : View}
    (shows : Shows server rows view) :
    currentSnapshot server rows = view.current := by
  rw [SnapshotStore.currentSnapshot, shows.current, newest_toList]

theorem Shows.pendingSnapshot {server : String} {rows : List Snapshot} {view : View}
    (shows : Shows server rows view) :
    pendingSnapshot server rows = view.pending := by
  rw [SnapshotStore.pendingSnapshot, shows.pending, newest_toList]

variable {rows after : List Snapshot}

theorem add_eq_some (added : add row rows = some after) :
    (∀ other ∈ rows, other.id ≠ row.id) ∧ after = rows ++ [row] := by
  rw [add] at added
  split at added
  · cases added
  · rename_i fresh
    refine ⟨fun other member same => fresh (List.any_eq_true.mpr ⟨other, member, by simpa using same⟩), ?_⟩
    exact (Option.some.inj added).symm

theorem withStatus_append_own {server : String} (rows : List Snapshot)
    (own : row.serverId = server) (same : row.status = status) :
    withStatus server status (rows ++ [row]) = withStatus server status rows ++ [row] := by
  rw [withStatus, filter_append, filter_singleton, Snapshot.has_iff.mpr ⟨own, same⟩]
  rfl

theorem withStatus_append_other {server : String} (rows : List Snapshot)
    (apart : row.serverId ≠ server ∨ row.status ≠ status) :
    withStatus server status (rows ++ [row]) = withStatus server status rows := by
  have foreign : row.has server status = false := by
    rw [Bool.eq_false_iff]
    intro held
    obtain ⟨own, same⟩ := Snapshot.has_iff.mp held
    exact apart.elim (· own) (· same)
  rw [withStatus, filter_append, filter_singleton, foreign]
  exact append_nil _

theorem withStatus_demote_current (server : String) (rows : List Snapshot) :
    withStatus server .current (demote server rows) = [] := by
  refine List.filter_eq_nil_iff.mpr fun row member current => ?_
  obtain ⟨old, -, ⟨-, rfl⟩ | ⟨other, rfl⟩⟩ := mem_update member
  · exact nomatch (Snapshot.has_iff.mp current).2
  · exact Bool.noConfusion (other.symm.trans current)

theorem withStatus_demote {server other : String} (rows : List Snapshot) (plain : status ≠ .old)
    (apart : other ≠ server ∨ status ≠ .current) :
    withStatus other status (demote server rows) = withStatus other status rows := by
  refine filter_update_out fun row _ selected =>
    ⟨Bool.eq_false_iff.mpr fun held => ?_, Bool.eq_false_iff.mpr fun held => ?_⟩
  · obtain ⟨here, current⟩ := Snapshot.has_iff.mp selected
    obtain ⟨there, same⟩ := Snapshot.has_iff.mp held
    rcases apart with different | different
    · exact different (there.symm.trans here)
    · exact different (same.symm.trans current)
  · exact plain (Snapshot.has_iff.mp held).2.symm

theorem withStatus_discard_pending (server : String) (rows : List Snapshot) :
    withStatus server .pendingRecovery (discardPending server rows) = [] := by
  refine List.filter_eq_nil_iff.mpr fun row member held => ?_
  have kept := (List.mem_filter.mp member).2
  rw [held] at kept
  cases kept

theorem withStatus_discard {server other : String} (rows : List Snapshot)
    (apart : other ≠ server ∨ status ≠ .pendingRecovery) :
    withStatus other status (discardPending server rows) = withStatus other status rows := by
  rw [withStatus, discardPending, filter_filter]
  refine filter_congr fun row _ => ?_
  cases held : row.has other status with
  | false => rfl
  | true =>
    rw [Bool.true_and, Bool.not_eq_true', Bool.eq_false_iff]
    intro discarded
    obtain ⟨here, pending⟩ := Snapshot.has_iff.mp discarded
    obtain ⟨there, same⟩ := Snapshot.has_iff.mp held
    rcases apart with different | different
    · exact different (there.symm.trans here)
    · exact different (same.symm.trans pending)

theorem withStatus_demote_pending (server other : String) (rows : List Snapshot) :
    withStatus other .pendingRecovery (demote server rows) = withStatus other .pendingRecovery rows :=
  withStatus_demote rows nofun (.inr nofun)

theorem withStatus_discard_current (server other : String) (rows : List Snapshot) :
    withStatus other .current (discardPending server rows) = withStatus other .current rows :=
  withStatus_discard rows (.inr nofun)

/-- The rows of other servers that count stay. -/
def Elsewhere (server : String) (rows after : List Snapshot) : Prop :=
  ∀ other status, other ≠ server → status ≠ Status.old →
    withStatus other status after = withStatus other status rows

theorem Elsewhere.shows {server other : String} {view : View} (kept : Elsewhere server rows after)
    (apart : other ≠ server) (shows : Shows other rows view) : Shows other after view where
  current := (kept other .current apart nofun).trans shows.current
  pending := (kept other .pendingRecovery apart nofun).trans shows.pending

theorem Elsewhere.discard {server : String} (kept : Elsewhere server rows after) :
    Elsewhere server rows (discardPending server after) := fun other status apart plain =>
  (withStatus_discard after (.inl apart)).trans (kept other status apart plain)

theorem elsewhere_append {server : String} (kept : Elsewhere server rows after)
    (own : row.serverId = server) : Elsewhere server rows (after ++ [row]) := by
  intro other status apart plain
  rw [withStatus_append_other after (.inl fun same => apart (same.symm.trans own)), kept other status apart plain]

theorem elsewhere_demote (server : String) (rows : List Snapshot) : Elsewhere server rows (demote server rows) :=
  fun _ _ apart plain => withStatus_demote rows plain (.inl apart)

theorem Shows.upsertCurrent {view : View} (shows : Shows row.serverId rows view)
    (done : upsertCurrent row rows = some after) :
    withStatus row.serverId .current after = [view.kept row] ∧
      withStatus row.serverId .pendingRecovery after = view.pending.toList ∧ Elsewhere row.serverId rows after := by
  rw [SnapshotStore.upsertCurrent, shows.currentSnapshot] at done
  have added (fresh : view.kept row = row.as .current)
      (done : add (row.as .current) (demote row.serverId rows) = some after) :
      withStatus row.serverId .current after = [view.kept row] ∧
        withStatus row.serverId .pendingRecovery after = view.pending.toList ∧
          Elsewhere row.serverId rows after := by
    obtain ⟨-, rfl⟩ := add_eq_some done
    refine ⟨?_, ?_, elsewhere_append (elsewhere_demote _ _) rfl⟩
    · rw [fresh, withStatus_append_own _ row.as_serverId row.as_status, withStatus_demote_current, nil_append]
    · have current : (row.as .current).status ≠ .pendingRecovery := nofun
      rw [withStatus_append_other _ (.inr current), withStatus_demote_pending, shows.pending]
  cases here : view.current with
  | none =>
    rw [here] at done
    exact added (by rw [View.kept, here]) done
  | some current =>
    rw [here] at done
    by_cases same : current.configHash = row.configHash
    · simp only [if_pos same] at done
      cases done
      refine ⟨?_, shows.pending, fun _ _ _ _ => rfl⟩
      rw [shows.current, View.kept, here]
      simp only [if_pos same, Option.toList_some]
    · simp only [if_neg same] at done
      refine added ?_ done
      rw [View.kept, here]
      exact if_neg same

theorem Shows.write {view : View} (shows : Shows row.serverId rows view)
    (done : SnapshotStore.upsertCurrent row rows = some after) :
    Shows row.serverId (discardPending row.serverId after) (view.write row) ∧
      Elsewhere row.serverId rows (discardPending row.serverId after) := by
  obtain ⟨current, -, others⟩ := shows.upsertCurrent done
  refine ⟨⟨?_, withStatus_discard_pending _ _⟩, others.discard⟩
  rw [withStatus_discard_current, current]
  rfl

theorem Shows.report {view : View} (shows : Shows row.serverId rows view)
    (done : upsertAgentReport row rows = some after) :
    Shows row.serverId after (view.report row) ∧ Elsewhere row.serverId rows after := by
  rw [upsertAgentReport, shows.currentSnapshot] at done
  cases here : view.current with
  | none =>
    rw [here] at done
    obtain ⟨current, pending, others⟩ := shows.upsertCurrent done
    have nothing : view.pending = none := by
      cases waiting : view.pending with
      | none => rfl
      | some pending =>
        obtain ⟨_, found, -⟩ := view.apart pending waiting
        exact nomatch here.symm.trans found
    refine ⟨?_, others⟩
    rw [nothing] at pending
    rw [View.kept, here] at current
    rw [View.report]
    split
    · exact ⟨current, pending⟩
    · rename_i found
      exact nomatch here.symm.trans found
  | some current =>
    rw [here] at done
    have discarded : Elsewhere row.serverId rows (discardPending row.serverId rows) :=
      Elsewhere.discard fun _ _ _ _ => rfl
    have stays : withStatus row.serverId .current (discardPending row.serverId rows) = [current] := by
      rw [withStatus_discard_current, shows.current, here, Option.toList_some]
    rw [View.report]
    split
    · rename_i found
      exact nomatch here.symm.trans found
    rename_i same found
    cases here.symm.trans found
    by_cases equal : current.configHash = row.configHash
    · simp only [if_pos equal] at done
      cases done
      rw [dif_pos equal]
      exact ⟨⟨stays, withStatus_discard_pending _ _⟩, discarded⟩
    · simp only [if_neg equal] at done
      obtain ⟨-, rfl⟩ := add_eq_some done
      rw [dif_neg equal]
      refine ⟨⟨?_, ?_⟩, elsewhere_append discarded rfl⟩
      · have pending : (row.as .pendingRecovery).status ≠ .current := nofun
        rw [withStatus_append_other _ (.inr pending), stays]
        rfl
      · rw [withStatus_append_own _ row.as_serverId row.as_status, withStatus_discard_pending]
        rfl

theorem filter_id {server : String} {rows : List Snapshot} (distinct : (rows.map Snapshot.id).Nodup)
    (pending : withStatus server .pendingRecovery rows = [row]) :
    rows.filter (fun other => other.id = row.id) = [row] ∧ row.has server .pendingRecovery = true := by
  have member : row ∈ withStatus server .pendingRecovery rows := pending ▸ mem_cons_self
  obtain ⟨inside, held⟩ := List.mem_filter.mp member
  refine ⟨?_, held⟩
  rw [← pending]
  refine filter_congr fun other present => ?_
  rw [Bool.eq_iff_iff, decide_eq_true_eq]
  constructor
  · intro same
    rwa [unique distinct present inside same]
  · intro also
    have listed : other ∈ withStatus server .pendingRecovery rows := List.mem_filter.mpr ⟨present, also⟩
    rw [pending] at listed
    rw [List.mem_singleton.mp listed]

theorem Shows.accept {server : String} {view : View} (distinct : (rows.map Snapshot.id).Nodup)
    (shows : Shows server rows view) (done : acceptPendingRecovery server rows = some after) :
    ∃ row, view.pending = some row ∧ Shows server after (View.accept row) ∧ Elsewhere server rows after := by
  rw [acceptPendingRecovery, shows.pendingSnapshot, Option.bind_eq_bind, Option.bind_eq_some_iff] at done
  obtain ⟨row, waiting, done⟩ := done
  cases done
  have ids : ((demote server rows).map Snapshot.id).Nodup := nodup_update (fun _ => rfl) distinct
  have pending : withStatus server .pendingRecovery (demote server rows) = [row] := by
    rw [withStatus_demote_pending, shows.pending, waiting, Option.toList_some]
  obtain ⟨only, held⟩ := filter_id ids pending
  obtain ⟨own, -⟩ := Snapshot.has_iff.mp held
  have current : row.accepted.has server .current = true := Snapshot.has_iff.mpr ⟨own, rfl⟩
  have gone : row.accepted.has server .pendingRecovery = false :=
    Bool.eq_false_iff.mpr fun waits => nomatch (Snapshot.has_iff.mp waits).2
  refine ⟨row, waiting, ⟨?_, ?_⟩, fun other status apart plain => ?_⟩
  · refine (filter_update_only only fun other member _ => ?_).trans ?_
    · exact Bool.eq_false_iff.mpr (List.filter_eq_nil_iff.mp (withStatus_demote_current server rows) other member)
    · rw [if_pos current]
      rfl
  · refine (filter_update_only only fun other member differs => ?_).trans ?_
    · refine Bool.eq_false_iff.mpr fun waits => ?_
      have listed : other ∈ withStatus server .pendingRecovery (demote server rows) :=
        List.mem_filter.mpr ⟨member, waits⟩
      rw [pending] at listed
      exact (decide_eq_false_iff_not.mp differs) (congrArg Snapshot.id (List.mem_singleton.mp listed))
    · rw [if_neg (Bool.eq_false_iff.mp gone)]
      rfl
  · refine (filter_update_out fun found member selected => ?_).trans (withStatus_demote rows plain (.inl apart))
    have same : found = row := by
      refine List.mem_singleton.mp (only ▸ List.mem_filter.mpr ⟨member, selected⟩)
    subst same
    exact ⟨Bool.eq_false_iff.mpr fun foreign => apart ((Snapshot.has_iff.mp foreign).1.symm.trans own),
      Bool.eq_false_iff.mpr fun foreign => apart ((Snapshot.has_iff.mp foreign).1.symm.trans own)⟩

section

variable {codec : Codec}

theorem Stored.update {selects : Snapshot → Bool} {set : Snapshot → Snapshot} {rows : List Snapshot}
    (stored : Stored codec rows) (ids : ∀ row, (set row).id = row.id)
    (hashes : ∀ row, (set row).configHash = row.configHash)
    (configs : ∀ row, (set row).config = row.config) : Stored codec (update selects set rows) where
  ids := nodup_update ids stored.ids
  hashed row member := by
    obtain ⟨old, here, ⟨-, rfl⟩ | ⟨-, rfl⟩⟩ := mem_update member
    · rw [hashes, configs, stored.hashed old here]
    · exact stored.hashed row here

theorem Stored.demote {rows : List Snapshot} (stored : Stored codec rows) (server : String) :
    Stored codec (demote server rows) :=
  stored.update (fun _ => rfl) (fun _ => rfl) fun _ => rfl

theorem Stored.discard {rows : List Snapshot} (stored : Stored codec rows) (server : String) :
    Stored codec (discardPending server rows) where
  ids := stored.ids.sublist (List.filter_sublist.map _)
  hashed row member := stored.hashed row (List.mem_filter.mp member).1

theorem Stored.add (stored : Stored codec rows)
    (hashed : row.configHash = codec.hash row.config) (done : add (row.as status) rows = some after) :
    Stored codec after := by
  obtain ⟨fresh, rfl⟩ := add_eq_some done
  refine ⟨nodup_append stored.ids fresh, fun other member => ?_⟩
  rcases List.mem_append.mp member with here | new
  · exact stored.hashed other here
  · obtain rfl := List.mem_singleton.mp new
    exact hashed

theorem Stored.upsertCurrent (stored : Stored codec rows)
    (hashed : row.configHash = codec.hash row.config) (done : upsertCurrent row rows = some after) :
    Stored codec after := by
  rw [SnapshotStore.upsertCurrent] at done
  split at done
  · exact (stored.demote _).add hashed done
  · split at done
    · exact Option.some.inj done ▸ stored
    · exact (stored.demote _).add hashed done

theorem Stored.upsertAgentReport (stored : Stored codec rows)
    (hashed : row.configHash = codec.hash row.config) (done : upsertAgentReport row rows = some after) :
    Stored codec after := by
  rw [SnapshotStore.upsertAgentReport] at done
  split at done
  · exact stored.upsertCurrent hashed done
  · split at done
    · exact Option.some.inj done ▸ stored.discard _
    · exact (stored.discard _).add hashed done

theorem Stored.accept {server : String} (stored : Stored codec rows)
    (done : acceptPendingRecovery server rows = some after) : Stored codec after := by
  rw [acceptPendingRecovery, Option.bind_eq_bind, Option.bind_eq_some_iff] at done
  obtain ⟨row, -, done⟩ := done
  rw [← Option.some.inj done]
  exact (stored.demote server).update (fun _ => rfl) (fun _ => rfl) fun _ => rfl

/-- The view is the one that the events tell of. -/
structure Tells (codec : Codec) (h : History) (view : View) : Prop where
  reported : ∀ row, view.pending = some row → h.report = some row.config
  written : view.current.map Snapshot.configHash = h.base.map codec.hash

theorem Tells.write {h : History} {view : View} (hashed : row.configHash = codec.hash row.config) :
    Tells codec { h with base := some row.config } (view.write row) where
  reported := nofun
  written := by
    rw [View.write, Option.map_some, Option.map_some, view.kept_configHash, hashed]

theorem Tells.report {h : History} {view : View} (tells : Tells codec h view)
    (hashed : row.configHash = codec.hash row.config) :
    Tells codec { base := h.base.or (some row.config), report := some row.config } (view.report row) := by
  have written := tells.written
  rw [View.report]
  split
  · rename_i found
    rw [found, Option.map_none] at written
    have base : h.base = none := Option.map_eq_none_iff.mp written.symm
    refine ⟨nofun, ?_⟩
    rw [base, Option.none_or, Option.map_some, Option.map_some, ← hashed]
    rfl
  · rename_i current found
    rw [found] at written
    have base : (h.base.or (some row.config)).map codec.hash = some current.configHash := by
      cases told : h.base with
      | none =>
        rw [told] at written
        cases written
      | some base => rw [Option.some_or, ← told, ← written, Option.map_some]
    split
    · exact ⟨nofun, base.symm⟩
    · exact ⟨fun other pending => Option.some.inj pending ▸ rfl, base.symm⟩

theorem Tells.accept {h : History} {view : View} (tells : Tells codec h view)
    (waiting : view.pending = some row) (hashed : row.configHash = codec.hash row.config) :
    Tells codec { h with base := h.report } (View.accept row) where
  reported := nofun
  written := by
    rw [tells.reported row waiting, View.accept, Option.map_some, Option.map_some, ← hashed]
    rfl

/-- What the rows and the events have in common at every point of a run. -/
structure Sound (codec : Codec) (rows : List Snapshot) (events : List Event) : Prop where
  stored : Stored codec rows
  views : ∀ server, ∃ view, Shows server rows view ∧ Tells codec (history codec server events) view

theorem sound_nil : Sound codec [] [] where
  stored := ⟨nodup_nil, nofun⟩
  views _ := ⟨View.empty, ⟨rfl, rfl⟩, nofun, rfl⟩

def Event.server : Event → String
  | .result server .. => server
  | .accept server => server

theorem next_other {server : String} {event : Event} (h : History) (apart : server ≠ event.server) :
    h.next codec server event = h := by
  cases event with
  | result other => exact if_neg apart.symm
  | accept other => exact if_neg apart.symm

theorem step_view {h : History} {view : View} {event : Event} (stored : Stored codec rows)
    (shows : Shows event.server rows view) (tells : Tells codec h view)
    (done : step codec rows event = some after) :
    Stored codec after ∧ Elsewhere event.server rows after ∧
      ∃ next, Shows event.server after next ∧ Tells codec (h.next codec event.server event) next := by
  cases event with
  | result server command payload id now =>
    rw [step, record] at done
    rw [Event.server] at shows ⊢
    rw [History.next, if_pos rfl]
    have hashed (config : String) (source : Source) :
        (newRow codec server config id source command now).configHash =
          codec.hash (newRow codec server config id source command now).config := rfl
    cases told : carried codec command payload with
    | none =>
      simp only [told, Option.some.injEq] at done
      exact done ▸ ⟨stored, fun _ _ _ _ => rfl, view, shows, tells⟩
    | some pair =>
      obtain ⟨config, source⟩ := pair
      cases source with
      | agentReport =>
        simp only [told] at done
        obtain ⟨seen, others⟩ := Shows.report shows done
        exact ⟨stored.upsertAgentReport (hashed ..) done, others, _, seen, tells.report (hashed ..)⟩
      | masterWrite =>
        simp only [told, Option.map_eq_some_iff] at done
        obtain ⟨middle, done, rfl⟩ := done
        obtain ⟨seen, others⟩ := Shows.write shows done
        exact ⟨(stored.upsertCurrent (hashed ..) done).discard _, others, _, seen,
          .write (hashed config .masterWrite)⟩
      | manualAccept =>
        simp only [told, Option.map_eq_some_iff] at done
        obtain ⟨middle, done, rfl⟩ := done
        obtain ⟨seen, others⟩ := Shows.write shows done
        exact ⟨(stored.upsertCurrent (hashed ..) done).discard _, others, _, seen,
          .write (hashed config .manualAccept)⟩
  | accept server =>
    rw [step] at done
    rw [Event.server] at shows ⊢
    rw [History.next, if_pos rfl]
    obtain ⟨row, waiting, seen, others⟩ := shows.accept stored.ids done
    have listed : row ∈ withStatus server .pendingRecovery rows := by
      rw [shows.pending, waiting]
      exact mem_singleton_self row
    exact ⟨stored.accept done, others, _, seen,
      tells.accept waiting (stored.hashed row (List.mem_filter.mp listed).1)⟩

theorem Sound.step {events : List Event} {event : Event} (sound : Sound codec rows events)
    (done : step codec rows event = some after) : Sound codec after (events ++ [event]) := by
  obtain ⟨view, shows, tells⟩ := sound.views event.server
  obtain ⟨stored, others, next, seen, told⟩ := step_view sound.stored shows tells done
  refine ⟨stored, fun server => ?_⟩
  rw [history, foldl_append, foldl_cons, foldl_nil, ← history]
  by_cases own : server = event.server
  · subst own
    exact ⟨next, seen, told⟩
  · obtain ⟨view, shows, tells⟩ := sound.views server
    rw [next_other _ own]
    exact ⟨view, others.shows own shows, tells⟩

theorem run_sound {events : List Event} {rows : List Snapshot} (done : run codec events = some rows) :
    Sound codec rows events := by
  induction events using List.reverseRecOn generalizing rows with
  | nil => exact Option.some.inj done ▸ sound_nil
  | append_singleton events event ih =>
    rw [run, foldlM_append, Option.bind_eq_bind, Option.bind_eq_some_iff] at done
    obtain ⟨before, first, last⟩ := done
    rw [foldlM_cons, Option.bind_eq_bind, Option.bind_eq_some_iff] at last
    obtain ⟨after, last, rest⟩ := last
    exact Option.some.inj rest ▸ (ih first).step last

/-- What holds of the snapshots of a server after every run. -/
structure SnapshotLaw (codec : Codec) (server : String) (rows : List Snapshot) (h : History) : Prop where
  oneCurrent : (withStatus server .current rows).length ≤ 1
  onePending : (withStatus server .pendingRecovery rows).length ≤ 1
  beside : ∀ pending ∈ withStatus server .pendingRecovery rows, ∃ current ∈ withStatus server .current rows,
    current.configHash ≠ pending.configHash
  reported : ∀ pending ∈ withStatus server .pendingRecovery rows, h.report = some pending.config
  written : (withStatus server .current rows).map Snapshot.configHash = (h.base.map codec.hash).toList
  content : Function.Injective codec.hash → (withStatus server .current rows).map Snapshot.config = h.base.toList

theorem Sound.law {rows : List Snapshot} {events : List Event} (sound : Sound codec rows events) (server : String) :
    SnapshotLaw codec server rows (history codec server events) := by
  obtain ⟨view, shows, tells⟩ := sound.views server
  have written : (withStatus server .current rows).map Snapshot.configHash =
      ((history codec server events).base.map codec.hash).toList := by
    rw [shows.current, ← tells.written]
    cases view.current <;> rfl
  constructor
  · rw [shows.current]
    cases view.current <;> simp
  · rw [shows.pending]
    cases view.pending <;> simp
  · intro pending member
    rw [shows.pending, Option.mem_toList] at member
    obtain ⟨current, here, apart⟩ := view.apart pending member
    exact ⟨current, by rw [shows.current, here]; exact mem_singleton_self current, apart⟩
  · intro pending member
    rw [shows.pending, Option.mem_toList] at member
    exact tells.reported pending member
  · exact written
  · intro injective
    have hashes : (withStatus server .current rows).map Snapshot.configHash =
        ((withStatus server .current rows).map Snapshot.config).map codec.hash := by
      rw [map_map]
      exact map_congr_left fun row member => sound.stored.hashed row (List.mem_filter.mp member).1
    have bases : ((history codec server events).base.map codec.hash).toList =
        (history codec server events).base.toList.map codec.hash := by
      cases (history codec server events).base <;> rfl
    rw [hashes, bases] at written
    exact List.map_injective_iff.mpr injective written

theorem Sound.report_keeps {events : List Event} {server : String} {command : Command}
    {payload : CommandResult} {id config : String} {now : Int} (sound : Sound codec rows events)
    (reported : carried codec command payload = some (config, .agentReport))
    (done : SnapshotStore.step codec rows (.result server command payload id now) = some after)
    (present : withStatus server .current rows ≠ []) :
    withStatus server .current after = withStatus server .current rows := by
  obtain ⟨view, shows, -⟩ := sound.views server
  rw [SnapshotStore.step, record] at done
  simp only [reported] at done
  obtain ⟨seen, -⟩ := Shows.report shows done
  cases here : view.current with
  | none =>
    rw [shows.current, here] at present
    exact absurd rfl present
  | some current =>
    have after_current : withStatus server .current after = _ := seen.current
    rw [after_current, shows.current, view.report_current _ here, here]

end

/-- In every run the snapshots of every server keep to their law, and no report of an
Agent replaces a current one. -/
theorem snapshotStore_law (codec : Codec) : (∀ events rows, run codec events = some rows →
      ∀ server, SnapshotLaw codec server rows (history codec server events)) ∧
    ∀ events rows, run codec events = some rows →
      ∀ server command payload id now config after, carried codec command payload = some (config, .agentReport) →
        step codec rows (.result server command payload id now) = some after →
        withStatus server .current rows ≠ [] →
        withStatus server .current after = withStatus server .current rows :=
  ⟨fun _ _ done server => (run_sound done).law server,
    fun _ _ done _ _ _ _ _ _ _ reported next present => (run_sound done).report_keeps reported next present⟩

def textCodec : Codec where
  hash text := text
  dumps _ := none
  space c := c.isWhitespace

def configCommand (method config : String) : Command where
  id := config
  path := "/api/child/xray/config"
  method := method
  query := none
  body := .obj [("config", .str config)]

/-- The controller writes a configuration, and the Agent reports another one. -/
def writtenReported : List Event :=
  [.result "s" (configCommand "POST" "written") ⟨200, none, .obj []⟩ "1" 1,
    .result "s" (configCommand "GET" "reported") ⟨200, none, .obj [("config", .str "reported")]⟩ "2" 2]

theorem snapshotStore_law_reported : ∃ rows, run textCodec writtenReported = some rows ∧
    (withStatus "s" .pendingRecovery rows).map Snapshot.config = ["reported"] ∧
    SnapshotLaw textCodec "s" rows (history textCodec "s" writtenReported) := by
  have done : (run textCodec writtenReported).map (fun rows =>
      (withStatus "s" .pendingRecovery rows).map Snapshot.config) =
      some ["reported"] := by
    decide +kernel
  obtain ⟨rows, run, pending⟩ := Option.map_eq_some_iff.mp done
  exact ⟨rows, run, pending, (snapshotStore_law textCodec).1 _ _ run "s"⟩

/-- Rows that wait for no recovery are kept, with another status and source at most. -/
def Preserved (rows after : List Snapshot) : Prop :=
  ∀ row ∈ rows, row.status ≠ .pendingRecovery → ∃ status source, status ≠ .pendingRecovery ∧
    { row with status := status, source := source } ∈ after

theorem Preserved.refl (rows : List Snapshot) : Preserved rows rows :=
  fun row here settled => ⟨row.status, row.source, settled, here⟩

theorem Preserved.trans (first : Preserved rows middle) (second : Preserved middle after) :
    Preserved rows after := by
  intro row here settled
  obtain ⟨_, _, still, there⟩ := first row here settled
  have last := second _ there still
  exact last

theorem Preserved.update {selects : Snapshot → Bool} {set : Snapshot → Snapshot} {status : Status}
    (plain : status ≠ .pendingRecovery)
    (keeps : ∀ row, ∃ source, set row = { row with status := status, source := source }) :
    Preserved rows (update selects set rows) := by
  intro row here settled
  cases selected : selects row with
  | true =>
    obtain ⟨source, same⟩ := keeps row
    exact ⟨status, source, plain, same ▸ update_selected here selected⟩
  | false => exact ⟨row.status, row.source, settled, update_other here selected⟩

theorem preserved_demote (server : String) (rows : List Snapshot) : Preserved rows (demote server rows) :=
  .update (by decide) fun row => ⟨row.source, rfl⟩

theorem preserved_discard (server : String) (rows : List Snapshot) :
    Preserved rows (discardPending server rows) := by
  refine fun row here settled => ⟨row.status, row.source, settled, mem_filter.mpr ⟨here, ?_⟩⟩
  rw [Bool.not_eq_true', Bool.eq_false_iff]
  exact fun held => settled (Snapshot.has_iff.mp held).2

theorem Preserved.add (kept : Preserved rows middle) (added : add row middle = some after) :
    Preserved rows after := by
  obtain ⟨-, rfl⟩ := add_eq_some added
  exact kept.trans fun row here settled => ⟨row.status, row.source, settled, mem_append_left _ here⟩

theorem upsertCurrent_preserved (done : upsertCurrent row rows = some after) : Preserved rows after := by
  unfold upsertCurrent at done
  split at done
  · exact (preserved_demote _ _).add done
  · split at done
    · cases done
      exact .refl rows
    · exact (preserved_demote _ _).add done

theorem step_preserved {codec : Codec} {event : Event} (done : step codec rows event = some after) :
    Preserved rows after := by
  cases event with
  | result server command payload id now =>
    change record codec server command payload id now rows = some after at done
    unfold record at done
    split at done
    · cases done
      exact .refl rows
    · unfold upsertAgentReport at done
      split at done
      · exact upsertCurrent_preserved done
      · split at done
        · cases done
          exact preserved_discard _ _
        · exact (preserved_discard _ _).add done
    · obtain ⟨_, written, rfl⟩ := Option.map_eq_some_iff.mp done
      exact (upsertCurrent_preserved written).trans (preserved_discard _ _)
  | accept server =>
    obtain ⟨_, _, accepted⟩ := Option.bind_eq_some_iff.mp done
    cases accepted
    exact (preserved_demote _ _).trans (.update (by decide) fun row => ⟨.manualAccept, rfl⟩)

/-- A snapshot that was current once stays in the store in every run that is not refused. -/
theorem run_preserved (codec : Codec) (rows : List Snapshot) (events : List Event) :
    (events.foldlM (step codec) rows).elim True (Preserved rows) := by
  induction events generalizing rows with
  | nil => exact .refl rows
  | cons event rest ih =>
    rw [foldlM_cons]
    cases first : step codec rows event with
    | none => trivial
    | some middle =>
      change (rest.foldlM (step codec) middle).elim True _
      have later := ih middle
      cases last : rest.foldlM (step codec) middle with
      | none => trivial
      | some after =>
        rw [last] at later
        exact (step_preserved first).trans later

end OpenNode.SnapshotStore
