import OpenNode.LedgerRows
import OpenNode.Lib.Rows
import OpenNode.TrafficArchive

namespace OpenNode

open List

/-- The counters accepted last, and when they were reported. -/
abbrev Reading := TrafficData × Option Time

def Ledger.reading {W : Type} (ledger : Ledger W) : Reading :=
  ({ uplink := ledger.lastUplink, downlink := ledger.lastDownlink }, ledger.lastReportedAt)

/-- A report that is not later than the reading is stale. -/
def Reading.stale (reading : Reading) (reportedAt : Time) : Bool :=
  reading.2.any (reportedAt ≤ ·)

/-- The reading after another report. -/
def Reading.next (last : Option Reading) (item : TrafficData) (reportedAt : Time) : Reading :=
  match last with
  | none => (item, some reportedAt)
  | some reading => if reading.stale reportedAt then reading else (item, some reportedAt)

/-- The bytes that a report adds to those already read. -/
def Reading.increase (last : Option Reading) (item : TrafficData) (reportedAt : Time) : Counts :=
  match last with
  | none => item.counts
  | some reading =>
    if reading.stale reportedAt then (0, 0)
    else (Counter.increase reading.1.uplink item.uplink, Counter.increase reading.1.downlink item.downlink)

/-- The totals of an amount of bytes at a weight. -/
def weighed {W : Type} [SMul ℕ W] (bytes : Counts) (weight : W) : UserTotals W :=
  (bytes, (bytes.1 • weight, bytes.2 • weight))

section Rows

variable {W : Type} [AddCommMonoid W] {key : LedgerKey}

theorem weighed_zero (weight : W) : weighed (0, 0) weight = 0 := by
  simp only [weighed, zero_nsmul]
  rfl

theorem openLedger_totals (item : TrafficData) (billed : Attribution W) (reportedAt now : Time) :
    (openLedger key item billed reportedAt now).totals =
      weighed (Reading.increase none item reportedAt) billed.weight :=
  rfl

theorem Ledger.ingest_totals (ledger : Ledger W) (item : TrafficData) (billed : Attribution W)
    (reportedAt now : Time) :
    (ledger.ingest item billed reportedAt now).totals =
      ledger.totals + weighed (Reading.increase (some ledger.reading) item reportedAt) billed.weight := by
  unfold Ledger.ingest Reading.increase Reading.stale Ledger.reading
  dsimp only
  split
  · rw [weighed_zero, add_zero]
  · rfl

theorem billedRow_reading (row : Option (Ledger W)) (item : TrafficData) (billed : Attribution W)
    (reportedAt now : Time) :
    (billedRow key row item billed reportedAt now).reading =
      Reading.next (row.map Ledger.reading) item reportedAt := by
  cases row with
  | none => rfl
  | some ledger =>
    unfold billedRow Ledger.ingest Reading.next Reading.stale
    dsimp only [Option.map_some]
    change _ = if Option.any _ ledger.lastReportedAt = true then _ else _
    split <;> rfl

/-- What the ledgers of a user add up to. -/
def ledgerTotals (ledgers : List (Ledger W)) (username : String) : UserTotals W :=
  ((ledgers.filter (·.username == username)).map Ledger.totals).sum

/-- The part of a ledger's totals that counts for a user. -/
def Ledger.share (username : String) (ledger : Ledger W) : UserTotals W :=
  if ledger.username = username then ledger.totals else 0

theorem ledgerTotals_eq (ledgers : List (Ledger W)) (username : String) :
    ledgerTotals ledgers username = (ledgers.map (Ledger.share username)).sum := by
  unfold ledgerTotals
  induction ledgers with
  | nil => rfl
  | cons ledger rest ih =>
    rw [map_cons, sum_cons, ← ih, filter_cons, Ledger.share]
    by_cases mine : ledger.username = username
    · rw [if_pos (by simpa using mine), if_pos mine, map_cons, sum_cons]
    · rw [if_neg (by simpa using mine), if_neg mine, zero_add]

theorem ledgerTotals_append (ledgers : List (Ledger W)) (ledger : Ledger W) (username : String) :
    ledgerTotals (ledgers ++ [ledger]) username = ledgerTotals ledgers username + ledger.share username := by
  simp only [ledgerTotals_eq, map_append, sum_append, map_cons, map_nil, sum_singleton]

end Rows

section Reports

variable {W : Type} [AddCommMonoid W] {server : ServerId} {attribution : String → Option (Attribution W)}
  {reportedAt now : Time}

/-- What an entry of a report adds to the totals of a user, by the readings
of the ledgers before it. -/
def entryIncrease (last : LedgerKey → Option Reading) (username : String) (server : ServerId)
    (attribution : String → Option (Attribution W)) (reportedAt : Time) (entry : String × TrafficData) :
    UserTotals W :=
  match attribution entry.1 with
  | none => 0
  | some billed =>
    if billed.username = username then
      let key := { username := username, serverId := server, email := entry.1 }
      weighed (Reading.increase (last key) entry.2 reportedAt) billed.weight
    else 0

def readingsOf (ledgers : List (Ledger W)) (key : LedgerKey) : Option Reading :=
  (findLedger key ledgers).map Ledger.reading

variable {ledgers : List (Ledger W)}

theorem recordItem_nodup (distinct : (ledgers.map Ledger.key).Nodup) (entry : String × TrafficData) :
    ((recordItem server attribution reportedAt now ledgers entry).map Ledger.key).Nodup := by
  unfold recordItem
  split
  · exact distinct
  · rename_i billed _
    dsimp only
    split
    · rw [map_map, map_congr_left (g := Ledger.key)]
      · exact distinct
      · intro ledger _
        simp only [Function.comp_apply]
        split
        · exact ledger.ingest_key ..
        · rfl
    · rename_i absent
      rw [map_append, nodup_append]
      refine ⟨distinct, nodup_singleton _, ?_⟩
      intro key here other new same
      obtain ⟨ledger, member, rfl⟩ := List.mem_map.mp here
      rw [map_cons, map_nil, mem_singleton] at new
      subst new
      refine absent (List.any_eq_true.mpr ⟨ledger, member, ?_⟩)
      rw [same]
      exact decide_eq_true rfl

theorem recordItem_totals (distinct : (ledgers.map Ledger.key).Nodup) (entry : String × TrafficData)
    (username : String) :
    ledgerTotals (recordItem server attribution reportedAt now ledgers entry) username =
      ledgerTotals ledgers username +
        entryIncrease (readingsOf ledgers) username server attribution reportedAt entry := by
  unfold recordItem entryIncrease
  cases attribution entry.1 with
  | none => exact (add_zero _).symm
  | some billed =>
    dsimp only
    rw [any_key_eq_isSome]
    cases row : findLedger { username := billed.username, serverId := server, email := entry.1 } ledgers with
    | none =>
      rw [if_neg (by simp), ledgerTotals_append]
      congr 1
      unfold Ledger.share
      split
      · rename_i mine
        have user : billed.username = username := mine
        subst user
        rw [if_pos rfl, readingsOf, row]
        exact openLedger_totals ..
      · rename_i other
        exact (if_neg other).symm
    | some ledger =>
      have same : ledger.key = _ := findLedger_key row
      have here : ledger ∈ ledgers := mem_of_find?_eq_some row
      rw [if_pos (by simp), ledgerTotals_eq, ledgerTotals_eq, ← same]
      refine Rows.sum_map_row distinct here ?_
      have owner : ledger.username = billed.username := congrArg LedgerKey.username same
      unfold Ledger.share
      rw [show (ledger.ingest entry.2 billed reportedAt now).username = ledger.username from
        congrArg LedgerKey.username (ledger.ingest_key ..), owner]
      split
      · rename_i mine
        subst mine
        rw [Ledger.ingest_totals, readingsOf, row, Option.map_some]
      · exact (add_zero _).symm

theorem recordItems_totals {entries : List (String × TrafficData)} (once : (entries.map Prod.fst).Nodup)
    (distinct : (ledgers.map Ledger.key).Nodup) (username : String) :
    ledgerTotals (entries.foldl (recordItem server attribution reportedAt now) ledgers) username =
      ledgerTotals ledgers username +
        (entries.map (entryIncrease (readingsOf ledgers) username server attribution reportedAt)).sum := by
  induction entries generalizing ledgers with
  | nil => exact (add_zero _).symm
  | cons entry rest ih =>
    rw [map_cons, nodup_cons] at once
    have later : rest.map (entryIncrease (readingsOf (recordItem server attribution reportedAt now ledgers entry))
          username server attribution reportedAt) =
        rest.map (entryIncrease (readingsOf ledgers) username server attribution reportedAt) := by
      refine map_congr_left fun other member => ?_
      have differ : entry.1 ≠ other.1 := fun same => once.1 (List.mem_map.mpr ⟨other, member, same.symm⟩)
      unfold entryIncrease readingsOf
      cases attribution other.1 with
      | none => rfl
      | some billed =>
        have unread : ∀ username, findLedger { username := username, serverId := server, email := other.1 }
            (recordItem server attribution reportedAt now ledgers entry) = findLedger _ ledgers :=
          fun _ => recordItem_other differ
        simp only [unread]
    rw [foldl_cons, ih once.2 (recordItem_nodup distinct entry), later, recordItem_totals distinct,
      map_cons, sum_cons, add_assoc]

theorem recordItems_nodup (entries : List (String × TrafficData)) (distinct : (ledgers.map Ledger.key).Nodup) :
    ((entries.foldl (recordItem server attribution reportedAt now) ledgers).map Ledger.key).Nodup := by
  induction entries generalizing ledgers with
  | nil => exact distinct
  | cons entry rest ih => exact ih (recordItem_nodup distinct entry)

end Reports

section Telemetry

variable {W : Type} [AddCommMonoid W]

/-- What a report adds to the totals of a user. -/
def reportIncrease (last : LedgerKey → Option Reading) (username : String) (snapshot : TelemetrySnapshot)
    (attribution : String → Option (Attribution W)) : UserTotals W :=
  match snapshot.stats with
  | none => 0
  | some stats =>
    (stats.user.entries.map
      (entryIncrease last username snapshot.serverId attribution snapshot.reportedAt)).sum

variable {ledgers : List (Ledger W)}

theorem recordLedger_totals (distinct : (ledgers.map Ledger.key).Nodup) (snapshot : TelemetrySnapshot)
    (attribution : String → Option (Attribution W)) (username : String) :
    ledgerTotals (recordLedger ledgers snapshot attribution) username =
      ledgerTotals ledgers username + reportIncrease (readingsOf ledgers) username snapshot attribution := by
  unfold recordLedger reportIncrease
  cases snapshot.stats with
  | none => exact (add_zero _).symm
  | some stats => exact recordItems_totals stats.user.nodup distinct username

theorem recordLedger_nodup (distinct : (ledgers.map Ledger.key).Nodup) (snapshot : TelemetrySnapshot)
    (attribution : String → Option (Attribution W)) :
    ((recordLedger ledgers snapshot attribution).map Ledger.key).Nodup := by
  unfold recordLedger
  cases snapshot.stats with
  | none => exact distinct
  | some stats => exact recordItems_nodup _ distinct

end Telemetry

section Resets

variable {W : Type} [AddCommMonoid W] {s : Accounting W} {username : String}

theorem Accounting.resetCredential_cases (s : Accounting W) (username : String) (now : Time)
    (ledgers : List (Ledger W)) (credential : TrafficCredential) :
    ∃ ledger : Ledger W, ledger.username = username ∧ ledger.totals = 0 ∧
      ((s.resetCredential username now ledgers credential = ledgers ∧ ledger.key ∈ ledgers.map Ledger.key) ∨
        (s.resetCredential username now ledgers credential = ledgers ++ [ledger] ∧
          ledger.key ∉ ledgers.map Ledger.key)) := by
  unfold Accounting.resetCredential
  generalize s.credentialBaseline credential = based
  obtain ⟨email, item, reportedAt⟩ := based
  refine ⟨baselineLedger username credential email item reportedAt now, rfl, rfl, ?_⟩
  dsimp only
  split
  · rename_i present
    obtain ⟨ledger, member, same⟩ := List.any_eq_true.mp present
    exact Or.inl ⟨rfl, List.mem_map.mpr ⟨ledger, member, of_decide_eq_true same⟩⟩
  · rename_i absent
    refine Or.inr ⟨rfl, fun present => ?_⟩
    obtain ⟨ledger, member, same⟩ := List.mem_map.mp present
    exact absent (List.any_eq_true.mpr ⟨ledger, member, decide_eq_true same⟩)

/-- What a reset leaves of the ledgers: those of others as they were, and
those of the user without traffic. -/
structure Cleared (username : String) (before after : List (Ledger W)) : Prop where
  distinct : (after.map Ledger.key).Nodup
  others : ∀ other, other ≠ username →
    after.filter (·.username == other) = before.filter (·.username == other)
  zero : ∀ ledger ∈ after, ledger.username = username → ledger.totals = 0
  kept : ∀ ledger ∈ before, ledger.key ∈ after.map Ledger.key

variable {before after : List (Ledger W)}

theorem Cleared.resetCredential (cleared : Cleared username before after) (now : Time)
    (credential : TrafficCredential) :
    Cleared username before (s.resetCredential username now after credential) ∧
      ∃ ledger ∈ s.resetCredential username now after credential, ledger.username = username := by
  obtain ⟨ledger, mine, empty, ⟨same, present⟩ | ⟨added, absent⟩⟩ :=
    s.resetCredential_cases username now after credential
  · rw [same]
    refine ⟨cleared, ?_⟩
    obtain ⟨old, member, key⟩ := List.mem_map.mp present
    exact ⟨old, member, (congrArg LedgerKey.username key).trans mine⟩
  · rw [added]
    refine ⟨⟨?_, ?_, ?_, ?_⟩, ledger, by simp, mine⟩
    · rw [map_append, map_cons, map_nil]
      exact cleared.distinct.append (nodup_singleton _) (by simpa using absent)
    · intro other differs
      rw [filter_append, cleared.others other differs]
      simp [mine, Ne.symm differs]
    · intro row member user
      rcases List.mem_append.mp member with old | new
      · exact cleared.zero row old user
      · rw [List.mem_singleton.mp new]
        exact empty
    · intro row member
      rw [map_append]
      exact mem_append_left _ (cleared.kept row member)

theorem Cleared.resetCredentials (now : Time) (credentials : List TrafficCredential)
    (cleared : Cleared username before after) :
    Cleared username before (credentials.foldl (s.resetCredential username now) after) := by
  induction credentials generalizing after with
  | nil => exact cleared
  | cons credential rest ih => exact ih (cleared.resetCredential now credential).1

theorem Ledger.reset_totals (ledger : Ledger W) (baseline : Option (TrafficData × Time)) (now : Time) :
    (ledger.reset baseline now).totals = 0 := by
  cases baseline <;> rfl

theorem Ledger.reset_reading (ledger : Ledger W) (baseline : Option (TrafficData × Time)) (now : Time) :
    (ledger.reset baseline now).reading =
      match baseline with
      | none => ledger.reading
      | some (item, reportedAt) => (item, some reportedAt) := by
  cases baseline <;> rfl

theorem Cleared.assigned {ledgers : List (Ledger W)} (distinct : (ledgers.map Ledger.key).Nodup)
    (baseline : Ledger W → Option (TrafficData × Time)) (now : Time) :
    Cleared username ledgers (ledgers.map fun ledger =>
      if ledger.username = username then ledger.reset (baseline ledger) now else ledger) := by
  have keys : ((ledgers.map fun ledger =>
      if ledger.username = username then ledger.reset (baseline ledger) now else ledger).map Ledger.key) =
        ledgers.map Ledger.key := by
    rw [map_map]
    refine map_congr_left fun ledger _ => ?_
    simp only [Function.comp_apply]
    split
    · exact ledger.reset_key ..
    · rfl
  refine ⟨keys ▸ distinct, ?_, ?_, ?_⟩
  · intro other differs
    have owner : ∀ ledger : Ledger W,
        (if ledger.username = username then ledger.reset (baseline ledger) now else ledger).username =
          ledger.username := by
      intro ledger
      split
      · exact congrArg LedgerKey.username (ledger.reset_key (baseline ledger) now)
      · rfl
    rw [filter_map, map_congr_left (g := id), map_id]
    · refine filter_congr fun ledger _ => ?_
      simp only [Function.comp_apply, owner]
    · intro ledger member
      have theirs := of_mem_filter member
      simp only [Function.comp_apply, owner, beq_iff_eq] at theirs
      exact if_neg fun mine => differs (theirs.symm.trans mine)
  · intro row member user
    obtain ⟨ledger, _, rfl⟩ := List.mem_map.mp member
    split
    · exact Ledger.reset_totals ..
    · rename_i other
      rw [if_neg other] at user
      exact absurd user other
  · intro row member
    rw [keys]
    exact mem_map_of_mem member

theorem resetTraffic_cleared (distinct : (s.ledgers.map Ledger.key).Nodup) (credentials : List TrafficCredential)
    (now : Time) : Cleared username s.ledgers (s.resetTraffic username credentials now).ledgers :=
  (Cleared.assigned distinct (fun ledger => s.baseline ledger.serverId ledger.email) now).resetCredentials
    now credentials

theorem resetTraffic_opened (distinct : (s.ledgers.map Ledger.key).Nodup) {credentials : List TrafficCredential}
    (some : credentials ≠ []) (now : Time) :
    ∃ ledger ∈ (s.resetTraffic username credentials now).ledgers, ledger.username = username := by
  obtain ⟨first, last, rfl⟩ := (eq_nil_or_concat credentials).resolve_left some
  have cleared : Cleared username s.ledgers (s.resetTraffic username first now).ledgers :=
    resetTraffic_cleared distinct first now
  rw [show (s.resetTraffic username (first.concat last) now).ledgers =
    s.resetCredential username now (s.resetTraffic username first now).ledgers last by
      simp [Accounting.resetTraffic]]
  exact (cleared.resetCredential now last).2

theorem Cleared.totals (cleared : Cleared username before after) (other : String) :
    ledgerTotals after other = if other = username then 0 else ledgerTotals before other := by
  unfold ledgerTotals
  split
  · rename_i mine
    subst mine
    refine sum_eq_zero fun totals member => ?_
    obtain ⟨ledger, here, rfl⟩ := List.mem_map.mp member
    obtain ⟨here, user⟩ := List.mem_filter.mp here
    exact cleared.zero ledger here (by simpa using user)
  · rename_i differs
    rw [cleared.others other differs]

end Resets

end OpenNode
