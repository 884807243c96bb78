import OpenNode.Lib.Rows
import OpenNode.ServerTraffic

namespace OpenNode

open List ServerTraffic

def DailyTraffic.total (entry : DailyTraffic) : Direction → Nat
  | .upload => entry.upload
  | .download => entry.download

namespace TrafficRow

variable {γ : Type}

def baseline (row : TrafficRow γ) : Direction → Nat
  | .upload => row.baselineUpload
  | .download => row.baselineDownload

/-- What `read_in_session` gives of a row. -/
def usage (row : TrafficRow γ) (direction : Direction) : Nat :=
  row.total direction - row.baseline direction

/-- What `_reset` writes to a row. -/
def rebase (row : TrafficRow γ) (moment : Time) : TrafficRow γ :=
  { row with baselineUpload := row.upload, baselineDownload := row.download, baselineAt := some moment }

/-- A row without its counters document. -/
def account (row : TrafficRow γ) : TrafficRow Unit :=
  { row with counters := () }

end TrafficRow

/-- A snapshot as a source took it. -/
structure TrafficReport where
  reportedAt : Time
  delta : Counts
deriving DecidableEq, Repr

/-- What the reports add in one direction. -/
def counted (reports : List TrafficReport) (direction : Direction) : Nat :=
  (reports.map fun report => report.delta.of direction).sum

inductive TrafficStep where
  | record (snapshot : TelemetrySnapshot)
  | reset (moment : Time)

def TrafficStep.IsRecord : TrafficStep → Prop
  | .record _ => True
  | .reset _ => False

namespace ServerTraffic

/-- `_reset`, less the marker of the server. -/
def reset (s : ServerTraffic) (moment : Time) : ServerTraffic :=
  { s with xray := s.xray.rebase moment, system := s.system.rebase moment }

def step (s : ServerTraffic) : TrafficStep → ServerTraffic
  | .record snapshot => s.record snapshot
  | .reset moment => s.reset moment

def run (s : ServerTraffic) (steps : List TrafficStep) : ServerTraffic :=
  steps.foldl step s

/-- The row of a source, less its counters. -/
def row (s : ServerTraffic) : TrafficSource → TrafficRow Unit
  | .xray => s.xray.account
  | .system => s.system.account

/-- The delta with which a source takes a snapshot, nothing where it leaves it. -/
def taken (s : ServerTraffic) (snapshot : TelemetrySnapshot) : TrafficSource → Option Counts
  | .xray =>
    if s.xray.stale snapshot.reportedAt then none
    else snapshot.stats.map fun stats =>
      (xrayDelta s.xray.counters stats.counters .upload, xrayDelta s.xray.counters stats.counters .download)
  | .system =>
    if s.system.stale snapshot.reportedAt then none
    else
      match snapshot.systemTxTotal, snapshot.systemRxTotal with
      | some tx, some rx =>
        some (systemDelta s.system.counters { values := (tx, rx), boot := snapshot.systemBootTimeUnix })
      | _, _ => none

/-- The report of a step, if it is one that the source takes. -/
def report (s : ServerTraffic) (source : TrafficSource) : TrafficStep → Option TrafficReport
  | .record snapshot => (s.taken snapshot source).map fun delta =>
    { reportedAt := snapshot.reportedAt, delta := delta }
  | .reset _ => none

/-- The reports that a source takes in a run. -/
def reports (s : ServerTraffic) (source : TrafficSource) : List TrafficStep → List TrafficReport
  | [] => []
  | step :: rest => (s.report source step).toList ++ (s.step step).reports source rest

/-- The sum of the daily rows of a source. -/
def dailySum (s : ServerTraffic) (source : TrafficSource) (direction : Direction) : Nat :=
  (s.daily.map fun entry => if entry.source = source then entry.total direction else 0).sum

/-- The primary key of the daily rows. -/
def DailyKeyed (s : ServerTraffic) : Prop :=
  (s.daily.map fun entry => (entry.source, entry.day)).Nodup

end ServerTraffic

section Daily

variable {γ : Type} {daily : List DailyTraffic} {row : TrafficRow γ} {source : TrafficSource} {reportedAt : Time}
  {delta : Counts}

theorem bookDaily_keyed (keyed : (daily.map fun entry => (entry.source, entry.day)).Nodup) :
    ((bookDaily daily row source reportedAt delta).map fun entry => (entry.source, entry.day)).Nodup := by
  unfold bookDaily
  dsimp only
  split
  · split
    · rw [map_map, map_congr_left (g := fun entry => (entry.source, entry.day))]
      · exact keyed
      · intro entry _
        simp only [Function.comp_apply]
        split <;> rfl
    · rename_i absent
      refine Rows.nodup_append keyed fun other here same => absent (List.any_eq_true.mpr ⟨other, here, ?_⟩)
      simpa using same
  · exact keyed

theorem bookDaily_sum (keyed : (daily.map fun entry => (entry.source, entry.day)).Nodup) (direction : Direction)
    (other : TrafficSource) :
    ((bookDaily daily row source reportedAt delta).map fun entry =>
        if entry.source = other then entry.total direction else 0).sum =
      (daily.map fun entry => if entry.source = other then entry.total direction else 0).sum +
        if source = other ∧ row.lastReportedAt.isSome then delta.of direction else 0 := by
  unfold bookDaily
  dsimp only
  split
  · rename_i booked
    rw [Bool.and_eq_true] at booked
    simp only [booked.1, and_true]
    split
    · rename_i present
      obtain ⟨entry, here, mine⟩ := List.any_eq_true.mp present
      simp only [Bool.and_eq_true, beq_iff_eq] at mine ⊢
      obtain ⟨rfl, day⟩ := mine
      rw [← day]
      simp only [← Prod.mk.injEq]
      refine Rows.sum_map_row keyed here ?_
      cases direction <;> (dsimp only; split <;> rfl)
    · simp only [map_append, sum_append, map_cons, map_nil, sum_cons, sum_nil]
      cases direction <;> rfl
  · rename_i idle
    rw [Bool.and_eq_true, not_and] at idle
    split
    · rename_i mine
      have none := idle mine.2
      simp only [Bool.or_eq_true, bne_iff_ne, ne_eq, not_or, not_not] at none
      have nothing : delta.of direction = 0 := by
        cases direction
        · exact none.1
        · exact none.2
      rw [nothing, add_zero]
    · rfl

theorem bookDaily_other {other : TrafficSource} (differs : source ≠ other) :
    (bookDaily daily row source reportedAt delta).filter (·.source = other) = daily.filter (·.source = other) := by
  unfold bookDaily
  dsimp only
  split
  · split
    · rename_i _ present
      clear present
      induction daily with
      | nil => rfl
      | cons entry rest ih =>
        rw [map_cons, filter_cons, filter_cons, ih]
        · split
          · rename_i mine
            simp only [Bool.and_eq_true, beq_iff_eq] at mine
            rw [if_neg (by simpa [mine.1] using differs), if_neg (by simpa [mine.1] using differs)]
          · rfl
    · rw [filter_append, filter_cons_of_neg (by simpa using differs), filter_nil, append_nil]
  · rfl

end Daily

namespace TrafficRow

variable {γ : Type} {row : TrafficRow γ} {direction : Direction}

/-- Whether a row has taken a report. -/
def seen (row : TrafficRow γ) : Bool := row.lastReportedAt.isSome

/-- The reports of a run that count for the cycle of a row. -/
def charged (row : TrafficRow γ) (reports : List TrafficReport) : List TrafficReport :=
  match row.baselineAt with
  | none => reports
  | some moment => (if row.seen then reports else reports.tail).filter (moment < ·.reportedAt)

theorem book_baseline_le (below : row.baseline direction ≤ row.total direction) (reportedAt : Time) (delta : Counts)
    (counters : γ) :
    (row.book reportedAt delta counters).baseline direction ≤
      (row.book reportedAt delta counters).total direction := by
  rw [book_total]
  cases direction <;> simp only [baseline, total, book, Counts.of] at below ⊢ <;> split <;> omega

theorem book_usage (below : row.baseline direction ≤ row.total direction) (reportedAt : Time) (delta : Counts)
    (counters : γ) :
    (row.book reportedAt delta counters).usage direction = row.usage direction +
      counted (row.charged [{ reportedAt := reportedAt, delta := delta }]) direction := by
  have gain : (row.book reportedAt delta counters).usage direction = row.usage direction +
      if row.baselineAt.any (fun moment => reportedAt ≤ moment || row.lastReportedAt.isNone) then 0
      else delta.of direction := by
    cases direction <;> simp only [usage, baseline, total, book, Counts.of] at below ⊢ <;> split <;> omega
  rw [gain]
  congr 1
  unfold charged seen
  cases row.baselineAt with
  | none => simp [counted]
  | some moment =>
    cases last : row.lastReportedAt with
    | none => simp [counted]
    | some last =>
      simp only [Option.any_some, Option.isNone_some, Bool.or_false, decide_eq_true_eq, Option.isSome_some, if_true]
      by_cases late : moment < reportedAt
      · rw [if_neg (Nat.not_le.mpr late), filter_cons_of_pos (by simpa using late)]
        simp [counted]
      · rw [if_pos (Nat.not_lt.mp late), filter_cons_of_neg (by simpa using late)]
        simp [counted]

theorem charged_cons (report : TrafficReport) (rest : List TrafficReport) (counters : γ) (direction : Direction) :
    counted (row.charged (report :: rest)) direction = counted (row.charged [report]) direction +
        counted ((row.book report.reportedAt report.delta counters).charged rest) direction := by
  have seen : (row.book report.reportedAt report.delta counters).seen = true := rfl
  have moment : (row.book report.reportedAt report.delta counters).baselineAt = row.baselineAt := rfl
  unfold charged
  rw [moment]
  cases row.baselineAt with
  | none => simp [counted]
  | some moment =>
    simp only [if_pos seen]
    split
    · rw [filter_cons]
      split <;> simp_all [counted]
    · simp [counted]

@[simp] theorem rebase_usage (moment : Time) : (row.rebase moment).usage direction = 0 := by
  cases direction <;> exact Nat.sub_self _

@[simp] theorem rebase_total (moment : Time) : (row.rebase moment).total direction = row.total direction := by
  cases direction <;> rfl

end TrafficRow

namespace ServerTraffic

variable {s : ServerTraffic} {snapshot : TelemetrySnapshot} {source : TrafficSource}

theorem record_row (s : ServerTraffic) (snapshot : TelemetrySnapshot) (source : TrafficSource) :
    (s.record snapshot).row source =
      (s.taken snapshot source).elim (s.row source) fun delta =>
        (s.row source).book snapshot.reportedAt delta () := by
  have first : (s.recordXray snapshot).system = s.system := by
    unfold recordXray
    split
    · rfl
    · split <;> rfl
  cases source with
  | xray =>
    simp only [record, row, recordSystem_xray, recordXray, taken]
    split
    · rfl
    · cases snapshot.stats <;> rfl
  | system =>
    simp only [record, row, recordSystem, taken, first]
    split
    · simp [first]
    · cases snapshot.systemTxTotal with
      | none => simp [first]
      | some tx =>
        cases snapshot.systemRxTotal with
        | none => simp [first]
        | some rx => rfl

theorem recordXray_keyed (keyed : s.DailyKeyed) : (s.recordXray snapshot).DailyKeyed := by
  unfold recordXray
  split
  · exact keyed
  · split
    · exact keyed
    · exact bookDaily_keyed keyed

theorem recordSystem_keyed (keyed : s.DailyKeyed) : (s.recordSystem snapshot).DailyKeyed := by
  unfold recordSystem
  split
  · exact keyed
  · split
    · exact bookDaily_keyed keyed
    · exact keyed

/-- What a report adds to the daily rows of its source. -/
def dated (s : ServerTraffic) (source : TrafficSource) (delta : Counts) (direction : Direction) : Nat :=
  if (s.row source).seen then delta.of direction else 0

theorem recordXray_daily (keyed : s.DailyKeyed) (source : TrafficSource) (direction : Direction) :
    (s.recordXray snapshot).dailySum source direction = s.dailySum source direction +
      if source = .xray then (s.taken snapshot .xray).elim 0 fun delta => s.dated .xray delta direction else 0 := by
  unfold recordXray taken
  split
  · simp
  · cases snapshot.stats with
    | none => simp
    | some stats =>
      refine (bookDaily_sum keyed direction source).trans (congrArg _ ?_)
      cases source with
      | xray => simp only [true_and, if_true, Option.map_some, Option.elim_some]; rfl
      | system => simp

theorem recordSystem_daily (keyed : s.DailyKeyed) (source : TrafficSource) (direction : Direction) :
    (s.recordSystem snapshot).dailySum source direction = s.dailySum source direction +
      if source = .system then (s.taken snapshot .system).elim 0 fun delta => s.dated .system delta direction
        else 0 := by
  unfold recordSystem taken
  split
  · simp
  · cases snapshot.systemTxTotal with
    | none => simp
    | some tx =>
      cases snapshot.systemRxTotal with
      | none => simp
      | some rx =>
        refine (bookDaily_sum keyed direction source).trans (congrArg _ ?_)
        cases source with
        | xray => simp
        | system => simp only [true_and, if_true, Option.elim_some]; rfl

theorem recordXray_taken : (s.recordXray snapshot).taken snapshot .system = s.taken snapshot .system ∧
    (s.recordXray snapshot).row .system = s.row .system := by
  unfold recordXray
  split
  · exact ⟨rfl, rfl⟩
  · split <;> exact ⟨rfl, rfl⟩

theorem record_daily (keyed : s.DailyKeyed) (source : TrafficSource) (direction : Direction) :
    (s.record snapshot).dailySum source direction = s.dailySum source direction +
      (s.taken snapshot source).elim 0 fun delta => s.dated source delta direction := by
  have keyed' : (s.recordXray snapshot).DailyKeyed := recordXray_keyed keyed
  have later : ((s.recordXray snapshot).recordSystem snapshot).dailySum source direction = _ :=
    recordSystem_daily keyed' source direction
  rw [recordXray_daily keyed, recordXray_taken.1] at later
  simp only [dated, recordXray_taken.2] at later
  rw [record, later]
  cases source <;> simp [dated]

/-- The invariant of the traffic rows of a server. -/
structure Sound (s : ServerTraffic) : Prop where
  below : ∀ source direction, (s.row source).baseline direction ≤ (s.row source).total direction
  keyed : s.DailyKeyed

theorem Sound.new : ({} : ServerTraffic).Sound where
  below := by
    intro source direction
    cases source <;> cases direction <;> exact le_rfl
  keyed := nodup_nil

theorem reset_row (s : ServerTraffic) (moment : Time) (source : TrafficSource) :
    (s.reset moment).row source = (s.row source).rebase moment := by
  cases source <;> rfl

theorem Sound.step (sound : s.Sound) (step : TrafficStep) : (s.step step).Sound := by
  cases step with
  | record snapshot =>
    refine ⟨fun source direction => ?_, recordSystem_keyed (recordXray_keyed sound.keyed)⟩
    rw [ServerTraffic.step, record_row]
    cases s.taken snapshot source with
    | none => exact sound.below source direction
    | some delta => exact TrafficRow.book_baseline_le (sound.below source direction) _ delta ()
  | reset moment =>
    refine ⟨fun source direction => ?_, sound.keyed⟩
    rw [ServerTraffic.step, reset_row]
    cases direction <;> exact le_rfl

theorem Sound.run (sound : s.Sound) (steps : List TrafficStep) : (s.run steps).Sound := by
  induction steps generalizing s with
  | nil => exact sound
  | cons step rest ih => exact ih (sound.step step)

@[simp] theorem run_cons (s : ServerTraffic) (step : TrafficStep) (rest : List TrafficStep) :
    s.run (step :: rest) = (s.step step).run rest := rfl

theorem run_append (s : ServerTraffic) (before after : List TrafficStep) :
    s.run (before ++ after) = (s.run before).run after :=
  foldl_append ..

theorem run_counted (s : ServerTraffic) (source : TrafficSource) (direction : Direction)
    (steps : List TrafficStep) :
    ((s.run steps).row source).total direction =
      (s.row source).total direction + counted (s.reports source steps) direction := by
  induction steps generalizing s with
  | nil => simp [run, reports, counted]
  | cons step rest ih =>
    rw [run_cons, ih, reports]
    cases step with
    | record snapshot =>
      rw [ServerTraffic.step, record_row, report]
      cases s.taken snapshot source with
      | none => rfl
      | some delta =>
        simp only [Option.elim_some, book_total, Option.map_some, Option.toList_some, counted, map_append, map_cons,
          map_nil, sum_append, sum_cons, sum_nil]
        omega
    | reset moment =>
      rw [ServerTraffic.step, reset_row, TrafficRow.rebase_total, report, Option.toList_none, nil_append]

theorem run_seen (s : ServerTraffic) (source : TrafficSource) (steps : List TrafficStep) :
    ((s.run steps).row source).seen = ((s.row source).seen || !(s.reports source steps).isEmpty) := by
  induction steps generalizing s with
  | nil => simp [run, reports]
  | cons step rest ih =>
    rw [run_cons, ih, reports]
    cases step with
    | record snapshot =>
      rw [ServerTraffic.step, record_row, report]
      cases s.taken snapshot source with
      | none => rfl
      | some delta => simp [TrafficRow.seen, TrafficRow.book]
    | reset moment =>
      rw [ServerTraffic.step, reset_row, report]
      rfl

theorem run_usage (sound : s.Sound) (source : TrafficSource) (direction : Direction) {steps : List TrafficStep}
    (records : ∀ step ∈ steps, step.IsRecord) :
    ((s.run steps).row source).usage direction =
      (s.row source).usage direction + counted ((s.row source).charged (s.reports source steps)) direction := by
  induction steps generalizing s with
  | nil =>
    have nothing : (s.row source).charged [] = [] := by
      unfold TrafficRow.charged
      split
      · rfl
      · split <;> rfl
    rw [reports, nothing]
    rfl
  | cons step rest ih =>
    have later := ih (sound.step step) fun other here => records other (mem_cons_of_mem _ here)
    rw [run_cons, later, reports]
    cases step with
    | reset moment => exact absurd (records _ (mem_cons_self ..)) id
    | record snapshot =>
      rw [ServerTraffic.step, record_row, report]
      cases s.taken snapshot source with
      | none => rfl
      | some delta =>
        simp only [Option.elim_some, Option.map_some, Option.toList_some, singleton_append]
        rw [TrafficRow.book_usage (sound.below source direction),
          TrafficRow.charged_cons _ ((s.record snapshot).reports source rest) ()]
        exact Nat.add_assoc ..

theorem run_daily (sound : s.Sound) (source : TrafficSource) (direction : Direction) (steps : List TrafficStep) :
    (s.run steps).dailySum source direction = s.dailySum source direction +
      counted (if (s.row source).seen then s.reports source steps else (s.reports source steps).tail)
        direction := by
  induction steps generalizing s with
  | nil => simp [run, reports, counted]
  | cons step rest ih =>
    rw [run_cons, ih (sound.step step), reports]
    cases step with
    | record snapshot =>
      rw [ServerTraffic.step, record_row, report, record_daily sound.keyed]
      cases s.taken snapshot source with
      | none => rfl
      | some delta =>
        simp only [Option.elim_some, Option.map_some, Option.toList_some, singleton_append, dated]
        split
        · simp [counted, TrafficRow.seen, TrafficRow.book]
          omega
        · simp [TrafficRow.seen, TrafficRow.book]
    | reset moment =>
      rw [ServerTraffic.step, reset_row, report]
      rfl

/-- The rows of a source are the same. -/
structure SameSource (source : TrafficSource) (s s' : ServerTraffic) : Prop where
  xray : source = .xray → s'.xray = s.xray
  system : source = .system → s'.system = s.system
  daily : s'.daily.filter (·.source = source) = s.daily.filter (·.source = source)

theorem record_stale {source : TrafficSource} (stale : (s.row source).stale snapshot.reportedAt = true) :
    SameSource source s (s.record snapshot) := by
  cases source with
  | xray =>
    have first : s.recordXray snapshot = s := if_pos stale
    rw [record, first]
    refine ⟨fun _ => recordSystem_xray s snapshot, (fun other => by cases other), ?_⟩
    unfold recordSystem
    split
    · rfl
    · split
      · exact bookDaily_other (by decide)
      · rfl
  | system =>
    have first : (s.recordXray snapshot).system = s.system := by
      unfold recordXray
      split
      · rfl
      · split <;> rfl
    have second : (s.recordXray snapshot).recordSystem snapshot = s.recordXray snapshot :=
      if_pos (by rw [first]; exact stale)
    rw [record, second]
    refine ⟨(fun other => by cases other), fun _ => first, ?_⟩
    unfold recordXray
    split
    · rfl
    · split
      · rfl
      · exact bookDaily_other (by decide)

theorem reset_charged (s : ServerTraffic) (moment : Time) (source : TrafficSource) (reports : List TrafficReport) :
    ((s.reset moment).row source).charged reports =
      (if (s.row source).seen then reports else reports.tail).filter (moment < ·.reportedAt) := by
  rw [reset_row]
  rfl

theorem run_cycle (sound : s.Sound) (source : TrafficSource) (direction : Direction)
    {before after : List TrafficStep}
    {moment : Time} (records : ∀ step ∈ after, step.IsRecord) :
    ((s.run (before ++ .reset moment :: after)).row source).usage direction =
      counted ((if ((s.run before).row source).seen then ((s.run before).reset moment).reports source after
        else (((s.run before).reset moment).reports source after).tail).filter (moment < ·.reportedAt))
          direction := by
  have cycle := run_usage ((sound.run before).step (.reset moment)) source direction records
  rw [run_append, run_cons, cycle, ServerTraffic.step, reset_charged, reset_row, TrafficRow.rebase_usage,
    Nat.zero_add]

end ServerTraffic

section Law

variable (source : TrafficSource) (direction : Direction)

/-- The traffic of a new server after the steps. -/
def trafficAfter (steps : List TrafficStep) : ServerTraffic := ({} : ServerTraffic).run steps

/-- The snapshots that the source of a new server takes. -/
def taken (steps : List TrafficStep) : List TrafficReport := ({} : ServerTraffic).reports source steps

/-- Those that it takes in the steps after others. -/
def takenAfter (before steps : List TrafficStep) : List TrafficReport := (trafficAfter before).reports source steps

/-- The usage after a reset is the sum of all deltas of snapshots that were
reported for a later time. -/
def UsageByTime : Prop :=
  ∀ (before : List TrafficStep) (moment : Time) (after : List TrafficStep), (∀ step ∈ after, step.IsRecord) →
    ((trafficAfter (before ++ .reset moment :: after)).row source).usage direction =
      counted ((if (taken source before).isEmpty then (taken source (before ++ .reset moment :: after)).tail
        else taken source (before ++ .reset moment :: after)).filter (moment < ·.reportedAt)) direction

/-- The law of totals, baselines and daily rows over any run. -/
theorem trafficAfter_law (source : TrafficSource) (direction : Direction) (steps : List TrafficStep) :
    ((trafficAfter steps).row source).baseline direction ≤ ((trafficAfter steps).row source).total direction ∧
    (∀ snapshot : TelemetrySnapshot, (∃ last, ((trafficAfter steps).row source).lastReportedAt = some last ∧
        snapshot.reportedAt ≤ last) →
      ServerTraffic.SameSource source (trafficAfter steps) ((trafficAfter steps).record snapshot)) ∧
    ((trafficAfter steps).row source).total direction = counted (taken source steps) direction ∧
    (trafficAfter steps).dailySum source direction = counted (taken source steps).tail direction ∧
    ((∀ step ∈ steps, step.IsRecord) →
      ((trafficAfter steps).row source).usage direction = counted (taken source steps) direction) ∧
    ∀ before moment after, steps = before ++ .reset moment :: after → (∀ step ∈ after, step.IsRecord) →
      ((trafficAfter steps).row source).usage direction =
        counted ((if (taken source before).isEmpty then (takenAfter source (before ++ [.reset moment]) after).tail
          else takenAfter source (before ++ [.reset moment]) after).filter (moment < ·.reportedAt)) direction := by
  have fresh : (({} : ServerTraffic).row source) = { counters := () } := by cases source <;> rfl
  have start : ((({} : ServerTraffic).row source).total direction) = 0 := by
    cases source <;> cases direction <;> rfl
  refine ⟨(ServerTraffic.Sound.new.run steps).below source direction, ?_, ?_, ?_, fun records => ?_, ?_⟩
  · rintro snapshot ⟨last, here, late⟩
    exact record_stale (by simpa [TrafficRow.stale, here] using late)
  · rw [trafficAfter, run_counted, start, Nat.zero_add, taken]
  · rw [trafficAfter, run_daily ServerTraffic.Sound.new, fresh, taken]
    exact Nat.zero_add _
  · rw [trafficAfter, run_usage ServerTraffic.Sound.new source direction records, fresh, taken]
    cases direction <;> exact Nat.zero_add _
  · rintro before moment after rfl records
    have seen : ((({} : ServerTraffic).run before).row source).seen = !(taken source before).isEmpty := by
      rw [run_seen, fresh, taken]
      rfl
    have opened : trafficAfter (before ++ [.reset moment]) = (({} : ServerTraffic).run before).reset moment := by
      rw [trafficAfter, run_append]
      rfl
    rw [trafficAfter, run_cycle ServerTraffic.Sound.new source direction records, seen, takenAfter, opened]
    cases (taken source before).isEmpty <;> rfl

/-- A host whose clock is ahead: its second snapshot comes before the reset,
with a time after it. -/
def clockAhead : List TrafficStep :=
  let stats (up : Nat) : XrayStats := { inbound := { entries := [("vless", { uplink := up, downlink := 0 })] } }
  [.record { reportedAt := 1, stats := some (stats 3) }, .record { reportedAt := 10, stats := some (stats 5) }]

/-- The reset takes the snapshot into the cycle that it closes. -/
theorem clockAhead_not_usageByTime : ¬ UsageByTime .xray .upload := by
  intro law
  have usage := law clockAhead 4 [] nofun
  exact absurd usage (by decide +kernel)

end Law

end OpenNode
