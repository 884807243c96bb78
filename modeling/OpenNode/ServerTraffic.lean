import OpenNode.Lib.Counter
import OpenNode.Telemetry

namespace OpenNode

open List

/-- A row of `ServerTrafficModel`, whose counters document depends on its source.
Its columns are 64-bit: a report that would take a total to `2 ^ 63` raises and
is rolled back, so it is none of the recorded ones. -/
structure TrafficRow (Counters : Type) where
  counters : Counters
  upload : Nat := 0
  download : Nat := 0
  baselineUpload : Nat := 0
  baselineDownload : Nat := 0
  baselineAt : Option Time := none
  lastReportedAt : Option Time := none

/-- The counters document of the system source. -/
structure HostCounters where
  values : Counts
  boot : Option Nat
deriving DecidableEq, Repr

inductive TrafficSource where
  | xray | system
deriving DecidableEq, Repr

/-- `ServerTrafficDailyModel`, with the day counted from the epoch. -/
structure DailyTraffic where
  source : TrafficSource
  day : Nat
  upload : Nat := 0
  download : Nat := 0
deriving DecidableEq, Repr

structure ServerTraffic where
  xray : TrafficRow (Dict String Counts) := { counters := {} }
  system : TrafficRow (Option HostCounters) := { counters := none }
  daily : List DailyTraffic := []

/-- Whether a row already holds a report of that time or a later one. -/
def TrafficRow.stale {γ : Type} (row : TrafficRow γ) (reportedAt : Time) : Bool :=
  row.lastReportedAt.any (reportedAt ≤ ·)

/-- What `record` writes to a row once it knows the delta. -/
def TrafficRow.book {γ : Type} (row : TrafficRow γ) (reportedAt : Time) (delta : Counts) (counters : γ) :
    TrafficRow γ :=
  let beforeReset := row.baselineAt.any fun baseline =>
    reportedAt ≤ baseline || row.lastReportedAt.isNone
  { row with
    upload := row.upload + delta.1
    download := row.download + delta.2
    baselineUpload := if beforeReset then row.baselineUpload + delta.1 else row.baselineUpload
    baselineDownload := if beforeReset then row.baselineDownload + delta.2 else row.baselineDownload
    counters := counters
    lastReportedAt := some reportedAt }

def microsecondsPerDay : Nat := 24 * 60 * 60 * 1000000

/-- The daily rows after a report. The first report of a source cannot be
dated, and an idle one has nothing to add. -/
def bookDaily {γ : Type} (daily : List DailyTraffic) (row : TrafficRow γ) (source : TrafficSource)
    (reportedAt : Time) (delta : Counts) : List DailyTraffic :=
  let day := reportedAt / microsecondsPerDay
  let mine (entry : DailyTraffic) : Bool := entry.source == source && entry.day == day
  if row.lastReportedAt.isSome && (delta.1 != 0 || delta.2 != 0) then
    if daily.any mine then
      daily.map fun entry =>
        if mine entry then
          { entry with upload := entry.upload + delta.1, download := entry.download + delta.2 }
        else entry
    else daily ++ [{ source := source, day := day, upload := delta.1, download := delta.2 }]
  else daily

/-- What one key adds to the delta of a report. -/
def keyDelta (previous : Dict String Counts) (direction : Direction) (key : String) (values : Counts) : Nat :=
  Counter.increase (((previous.get? key).getD (0, 0)).of direction) (values.of direction)

def xrayDelta (previous counters : Dict String Counts) (direction : Direction) : Nat :=
  (counters.entries.map fun entry => keyDelta previous direction entry.1 entry.2).sum

/-- The delta of the system source. A reboot or a drop gives a new baseline. -/
def systemDelta (previous : Option HostCounters) (counters : HostCounters) : Counts :=
  match previous with
  | none => (0, 0)
  | some old =>
    if old.boot = counters.boot ∧ old.values.1 ≤ counters.values.1 ∧ old.values.2 ≤ counters.values.2 then
      (counters.values.1 - old.values.1, counters.values.2 - old.values.2)
    else (0, 0)

namespace ServerTraffic

/-- The turn of `record` for the xray source. -/
def recordXray (s : ServerTraffic) (snapshot : TelemetrySnapshot) : ServerTraffic :=
  if s.xray.stale snapshot.reportedAt then s
  else
    match snapshot.stats with
    | none => s
    | some stats =>
      let delta := (xrayDelta s.xray.counters stats.counters .upload,
        xrayDelta s.xray.counters stats.counters .download)
      { s with
        xray := s.xray.book snapshot.reportedAt delta stats.counters
        daily := bookDaily s.daily s.xray .xray snapshot.reportedAt delta }

/-- The turn of `record` for the system source. -/
def recordSystem (s : ServerTraffic) (snapshot : TelemetrySnapshot) : ServerTraffic :=
  if s.system.stale snapshot.reportedAt then s
  else
    match snapshot.systemTxTotal, snapshot.systemRxTotal with
    | some tx, some rx =>
      let counters := { values := (tx, rx), boot := snapshot.systemBootTimeUnix }
      let delta := systemDelta s.system.counters counters
      { s with
        system := s.system.book snapshot.reportedAt delta (some counters)
        daily := bookDaily s.daily s.system .system snapshot.reportedAt delta }
    | _, _ => s

def record (s : ServerTraffic) (snapshot : TelemetrySnapshot) : ServerTraffic :=
  (s.recordXray snapshot).recordSystem snapshot

end ServerTraffic

def TrafficRow.total {γ : Type} (row : TrafficRow γ) : Direction → Nat
  | .upload => row.upload
  | .download => row.download

section Tags

variable (snapshots : List TelemetrySnapshot) (direction : Direction) (kind : TagKind) (tag : String)

/-- The reports that carry statistics, which are those that `record` reads. -/
def reports : List XrayStats :=
  snapshots.filterMap TelemetrySnapshot.stats

/-- The readings of a tag, one for each report, missing where the report does
not mention the tag. -/
def readings : List (Option Nat) :=
  (reports snapshots).map fun stats => ((stats.kind kind).get? tag).map (·.counts.of direction)

/-- The values reported for a tag. -/
def reported : List Nat :=
  (readings snapshots direction kind tag).reduceOption

def lastReported : Nat :=
  (reported snapshots direction kind tag).getLast?.getD 0

/-- The values before and after each absence of a tag from a report. -/
def tagAbsences : List (Nat × Nat) :=
  Counter.absences none false (readings snapshots direction kind tag)

/-- The tags that the reports mention. -/
def mentioned : Finset String :=
  ((reports snapshots).flatMap fun stats => stats.inbound.keys ++ stats.outbound.keys).toFinset

/-- What the reports of a run add to the total of the xray source for one
tag, given the counters kept before them. -/
def contribution : Dict String Counts → List XrayStats → Nat
  | _, [] => 0
  | previous, stats :: rest =>
    (stats.counters.get? (kind.key tag)).elim 0 (keyDelta previous direction (kind.key tag)) +
      contribution stats.counters rest

end Tags

namespace ServerTraffic

variable {s : ServerTraffic} {snapshot : TelemetrySnapshot} {snapshots : List TelemetrySnapshot}
  {direction : Direction} {kind : TagKind} {tag : String}

@[simp] theorem recordSystem_xray (s : ServerTraffic) (snapshot : TelemetrySnapshot) :
    (s.recordSystem snapshot).xray = s.xray := by
  unfold recordSystem
  split
  · rfl
  · split <;> rfl

theorem book_total {γ : Type} (row : TrafficRow γ) (reportedAt : Time) (delta : Counts) (counters : γ)
    (direction : Direction) :
    (row.book reportedAt delta counters).total direction = row.total direction + delta.of direction := by
  cases direction <;> rfl

variable {stats : XrayStats}

theorem record_xray (direction : Direction) (fresh : s.xray.stale snapshot.reportedAt = false)
    (present : snapshot.stats = some stats) :
    (s.record snapshot).xray.counters = stats.counters ∧
    (s.record snapshot).xray.lastReportedAt = some snapshot.reportedAt ∧
    (s.record snapshot).xray.total direction =
      s.xray.total direction + xrayDelta s.xray.counters stats.counters direction := by
  have row : (s.record snapshot).xray = s.xray.book snapshot.reportedAt
      (xrayDelta s.xray.counters stats.counters .upload,
        xrayDelta s.xray.counters stats.counters .download) stats.counters := by
    simp [record, recordXray, fresh, present]
  rw [row, book_total]
  refine ⟨rfl, rfl, ?_⟩
  cases direction <;> rfl

theorem record_xray_absent (absent : snapshot.stats = none) : (s.record snapshot).xray = s.xray := by
  simp only [record, recordSystem_xray, recordXray, absent]
  split <;> rfl

theorem mentioned_keys (member : stats ∈ reports snapshots) (kind : TagKind) :
    ∀ tag ∈ (stats.kind kind).keys, tag ∈ mentioned snapshots := by
  intro tag here
  refine List.mem_toFinset.mpr (List.mem_flatMap.mpr ⟨stats, member, ?_⟩)
  cases kind with
  | inbound => exact mem_append_left _ here
  | outbound => exact mem_append_right _ here

theorem run_total (snapshots : List TelemetrySnapshot) {tags : Finset String}
    (increasing : snapshots.Pairwise fun a b => a.reportedAt < b.reportedAt)
    (fresh : ∀ snapshot ∈ snapshots, s.xray.stale snapshot.reportedAt = false)
    (covered : ∀ stats ∈ reports snapshots, ∀ kind, ∀ tag ∈ (stats.kind kind).keys, tag ∈ tags)
    (direction : Direction) :
    (snapshots.foldl record s).xray.total direction = s.xray.total direction +
      ∑ kind : TagKind, ∑ tag ∈ tags, contribution direction kind tag s.xray.counters (reports snapshots) := by
  induction snapshots generalizing s with
  | nil => simp [reports, contribution]
  | cons snapshot rest ih =>
    obtain ⟨earlier, increasing⟩ := List.pairwise_cons.mp increasing
    rw [foldl_cons]
    cases present : snapshot.stats with
    | none =>
      have same := record_xray_absent (s := s) present
      have skipped : reports (snapshot :: rest) = reports rest := filterMap_cons_none present
      have later := ih (s := s.record snapshot) increasing
        (fun x member => by rw [same]; exact fresh x (mem_cons_of_mem _ member))
        (by rw [← skipped]; exact covered)
      rw [later, same, skipped]
    | some stats =>
      have read : reports (snapshot :: rest) = stats :: reports rest := filterMap_cons_some present
      rw [read] at covered
      obtain ⟨counters, time, total⟩ := record_xray direction (fresh snapshot (mem_cons_self ..)) present
      have later := ih (s := s.record snapshot) increasing
        (fun x member => by simp [TrafficRow.stale, time, earlier x member])
        (fun x member => covered x (mem_cons_of_mem _ member))
      have delta : xrayDelta s.xray.counters stats.counters direction = _ :=
        stats.sum_counters (keyDelta s.xray.counters direction) (covered stats (mem_cons_self ..))
      rw [later, total, counters, read, delta]
      simp only [contribution, Finset.sum_add_distrib]
      omega

theorem contribution_eq (direction : Direction) (kind : TagKind) (tag : String)
    (previous : Dict String Counts) (stats : List XrayStats) :
    contribution direction kind tag previous stats =
      Counter.gainedAfresh (((previous.get? (kind.key tag)).getD (0, 0)).of direction)
        (stats.map fun stats => ((stats.kind kind).get? tag).map (·.counts.of direction)) := by
  induction stats generalizing previous with
  | nil => rfl
  | cons stats rest ih =>
    rw [contribution, ih, stats.counters_get?, map_cons]
    cases (stats.kind kind).get? tag with
    | none => cases direction <;> simp [Counter.gainedAfresh, Counts.of]
    | some item => rfl

end ServerTraffic

section Totals

variable {snapshots : List TelemetrySnapshot}

/-- The total of the xray source after the snapshots, for a new server. -/
def xrayTotal (snapshots : List TelemetrySnapshot) (direction : Direction) : Nat :=
  (snapshots.foldl ServerTraffic.record {}).xray.total direction

/-- What the run added for a tag. -/
def tagContribution (snapshots : List TelemetrySnapshot) (direction : Direction) (kind : TagKind)
    (tag : String) : Nat :=
  contribution direction kind tag {} (reports snapshots)

theorem tagContribution_eq (direction : Direction) (kind : TagKind) (tag : String) :
    tagContribution snapshots direction kind tag = Counter.gained 0 (reported snapshots direction kind tag) +
        ((tagAbsences snapshots direction kind tag).map Counter.recounted).sum := by
  have start : (((({} : Dict String Counts).get? (kind.key tag)).getD (0, 0)).of direction) = 0 := by
    cases direction <;> rfl
  have growth := Counter.gainedAfresh_eq none false (readings snapshots direction kind tag)
  rw [tagContribution, ServerTraffic.contribution_eq, start]
  exact growth

/-- Every byte of a node is counted once: the totals are those last reported
when no counter drops, and in general no tag counts more than its growth. -/
def CountsOnce : Prop :=
  ∀ snapshots : List TelemetrySnapshot,
    (snapshots.Pairwise fun a b => a.reportedAt < b.reportedAt) → ∀ direction,
    ((∀ kind tag, (reported snapshots direction kind tag).Pairwise (· ≤ ·)) →
      xrayTotal snapshots direction =
        ∑ kind, ∑ tag ∈ mentioned snapshots, lastReported snapshots direction kind tag) ∧
    ∀ kind tag, tagContribution snapshots direction kind tag ≤
      Counter.gained 0 (reported snapshots direction kind tag)

variable {direction : Direction} {kind : TagKind} {tag : String}

theorem lastReported_eq (ascending : (reported snapshots direction kind tag).Pairwise (· ≤ ·)) :
    Counter.gained 0 (reported snapshots direction kind tag) = lastReported snapshots direction kind tag := by
  have started : (0 :: reported snapshots direction kind tag).Pairwise (· ≤ ·) :=
    List.pairwise_cons.mpr ⟨fun _ _ => Nat.zero_le _, ascending⟩
  have growth := Counter.gained_of_ascending started
  rw [Nat.zero_add] at growth
  rw [growth, lastReported]
  cases reported snapshots direction kind tag with
  | nil => rfl
  | cons value rest => rw [getLast_cons (by simp), List.getLast?_eq_some_getLast (by simp), Option.getD_some]

theorem tagContribution_ascending (ascending : (reported snapshots direction kind tag).Pairwise (· ≤ ·)) :
    tagContribution snapshots direction kind tag = lastReported snapshots direction kind tag +
      ((tagAbsences snapshots direction kind tag).map Prod.fst).sum := by
  have above : ∀ around ∈ tagAbsences snapshots direction kind tag, around.1 ≤ around.2 :=
    Counter.absences_ascending ascending
  have again : (tagAbsences snapshots direction kind tag).map Counter.recounted =
      (tagAbsences snapshots direction kind tag).map Prod.fst :=
    map_congr_left fun around member => if_pos (above around member)
  rw [tagContribution_eq, lastReported_eq ascending, again]

theorem xrayTotal_eq (increasing : snapshots.Pairwise fun a b => a.reportedAt < b.reportedAt)
    (direction : Direction) :
    xrayTotal snapshots direction =
      ∑ kind, ∑ tag ∈ mentioned snapshots, tagContribution snapshots direction kind tag := by
  have run := ServerTraffic.run_total (s := {}) snapshots increasing (fun _ _ => rfl)
    (fun stats member kind => ServerTraffic.mentioned_keys member kind) direction
  have empty : (({} : ServerTraffic).xray.total direction) = 0 := by cases direction <;> rfl
  rw [xrayTotal, run, empty, Nat.zero_add]
  rfl

/-- The exact accounting of a server. A counter that is missing from a report
and comes back is counted from zero, so that a total exceeds the values last
reported by those that preceded an absence. -/
theorem serverTraffic_totals (increasing : snapshots.Pairwise fun a b => a.reportedAt < b.reportedAt)
    (direction : Direction) :
    ((∀ kind tag, (reported snapshots direction kind tag).Pairwise (· ≤ ·)) →
      xrayTotal snapshots direction = ∑ kind, ∑ tag ∈ mentioned snapshots,
        (lastReported snapshots direction kind tag +
          ((tagAbsences snapshots direction kind tag).map Prod.fst).sum) ∧
      (xrayTotal snapshots direction =
          ∑ kind, ∑ tag ∈ mentioned snapshots, lastReported snapshots direction kind tag ↔
        ∀ kind, ∀ tag ∈ mentioned snapshots, ∀ around ∈ tagAbsences snapshots direction kind tag, around.1 = 0)) ∧
    xrayTotal snapshots direction =
      ∑ kind, ∑ tag ∈ mentioned snapshots, tagContribution snapshots direction kind tag ∧
    ∀ kind tag, tagContribution snapshots direction kind tag ≤
      Counter.gained 0 (reported snapshots direction kind tag) +
        ((tagAbsences snapshots direction kind tag).map Prod.snd).sum := by
  have total := xrayTotal_eq increasing direction
  refine ⟨fun ascending => ?_, total, fun kind tag => ?_⟩
  · have exact_total : xrayTotal snapshots direction = ∑ kind, ∑ tag ∈ mentioned snapshots,
        (lastReported snapshots direction kind tag +
          ((tagAbsences snapshots direction kind tag).map Prod.fst).sum) := by
      rw [total]
      exact Finset.sum_congr rfl fun kind _ => Finset.sum_congr rfl fun tag _ =>
        tagContribution_ascending (ascending kind tag)
    refine ⟨exact_total, ?_⟩
    have nothing : ∑ kind, ∑ tag ∈ mentioned snapshots,
          ((tagAbsences snapshots direction kind tag).map Prod.fst).sum = 0 ↔
        ∀ kind, ∀ tag ∈ mentioned snapshots, ∀ around ∈ tagAbsences snapshots direction kind tag, around.1 = 0 := by
      simp only [Finset.sum_eq_zero_iff, Finset.mem_univ, true_imp_iff, sum_eq_zero_iff,
        mem_map, forall_exists_index, and_imp, forall_apply_eq_imp_iff₂]
    rw [exact_total, ← nothing]
    simp only [Finset.sum_add_distrib]
    omega
  · have again : ((tagAbsences snapshots direction kind tag).map Counter.recounted).sum ≤
        ((tagAbsences snapshots direction kind tag).map Prod.snd).sum :=
      sum_le_sum fun around _ => Counter.recounted_le around
    rw [tagContribution_eq]
    omega

/-- One inbound that a report in the middle does not mention. -/
def absentInbound : List TelemetrySnapshot :=
  let stats : XrayStats := { inbound := { entries := [("vless", { uplink := 5, downlink := 0 })] } }
  [{ reportedAt := 1, stats := some stats }, { reportedAt := 2, stats := some {} },
   { reportedAt := 3, stats := some stats }]

theorem absentInbound_ascending (kind : TagKind) (tag : String) :
    (reported absentInbound .upload kind tag).Pairwise (· ≤ ·) := by
  cases kind with
  | outbound =>
    simp [reported, readings, reports, absentInbound, XrayStats.kind, Dict.get?, List.reduceOption]
  | inbound =>
    by_cases same : tag = "vless"
    · subst same
      simp [reported, readings, reports, absentInbound, XrayStats.kind, Dict.get?, List.reduceOption,
        TrafficData.counts, Counts.of]
    · have other : (tag == "vless") = false := by simpa using same
      simp [reported, readings, reports, absentInbound, XrayStats.kind, Dict.get?, List.reduceOption,
        lookup_cons, other]

/-- Ten bytes are counted, of which the inbound reports five. -/
theorem absentInbound_totals : xrayTotal absentInbound .upload ≠
      ∑ kind, ∑ tag ∈ mentioned absentInbound, lastReported absentInbound .upload kind tag := by
  have increasing : absentInbound.Pairwise fun a b => a.reportedAt < b.reportedAt := by
    simp [absentInbound]
  have exact_total := ((serverTraffic_totals increasing .upload).1 absentInbound_ascending).2
  intro same
  have none := exact_total.mp same .inbound "vless" (by decide +kernel) (5, 5) (by decide +kernel)
  cases none

/-- A server does not count every byte once when an inbound is away for a report. -/
theorem absentInbound_not_countsOnce : ¬ CountsOnce := by
  intro once
  have counted : xrayTotal absentInbound .upload = 10 := by decide +kernel
  have last : ∑ kind, ∑ tag ∈ mentioned absentInbound, lastReported absentInbound .upload kind tag = 5 := by
    decide +kernel
  have total := (once absentInbound (by simp [absentInbound]) .upload).1 absentInbound_ascending
  omega

end Totals

end OpenNode
