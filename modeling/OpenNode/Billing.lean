import OpenNode.LedgerRows

namespace OpenNode

open List Option

/-- A report that was charged: the growth of the counters, and the weight in
force when it was ingested. -/
structure Charge (W : Type) where
  bytes : Counts
  weight : W

/-- What the reports of one email amount to: the counters accepted last, and
what was charged since the last reset. -/
structure Account (W : Type) where
  opened : Bool := false
  last : TrafficData := {}
  lastAt : Option Time := none
  charges : List (Charge W) := []

namespace Account

variable {W : Type}

/-- The bytes charged since the last reset. -/
def raw (account : Account W) (direction : Direction) : Nat :=
  (account.charges.map (·.bytes.of direction)).sum

/-- The same sum with each charge multiplied by its weight. -/
def weighted [Zero W] [Add W] [SMul ℕ W] (account : Account W) (direction : Direction) : W :=
  account.charges.foldl (fun sum charge => sum + charge.bytes.of direction • charge.weight) 0

/-- A report is accepted when it is later than the one accepted last, and
charged by how much its counters grew. -/
def accept (account : Account W) (item : TrafficData) (weight : W) (reportedAt : Time) : Account W :=
  if account.lastAt.any (reportedAt ≤ ·) then account
  else
    { opened := true
      last := item
      lastAt := some reportedAt
      charges := account.charges ++
        [{ bytes := (Counter.increase account.last.uplink item.uplink,
            Counter.increase account.last.downlink item.downlink)
           weight := weight }] }

/-- A reset closes the charges. An email without a ledger starts from the
counters of the latest report. -/
def settle (account : Account W) (start : Option (TrafficData × Option Time)) : Account W :=
  if account.opened then { account with charges := [] }
  else
    match start with
    | none => account
    | some (item, reportedAt) => { opened := true, last := item, lastAt := reportedAt }

end Account

namespace Accounting

variable {W : Type}

/-- The account of a key after a transaction. -/
def account (s : Accounting W) (key : LedgerKey) (account : Account W) : TrafficOperation W → Account W
  | .telemetry snapshot attribution =>
    match observed key snapshot attribution with
    | none => account
    | some (item, billed) => account.accept item billed.weight snapshot.reportedAt
  | .reset username credentials _ =>
    if username = key.username then
      account.settle ((s.opener key credentials).map fun credential => (s.credentialBaseline credential).2)
    else account

/-- The bytes of a key that were charged in the periods closed by resets. -/
def settled (s : Accounting W) (key : LedgerKey) (before : Counts) : TrafficOperation W → Counts
  | .telemetry _ _ => before
  | .reset username _ _ =>
    match s.ledger? key with
    | some ledger =>
      if username = key.username then (before.1 + ledger.upload, before.2 + ledger.download) else before
    | none => before

end Accounting

section Runs

variable {W : Type} [Zero W] [Add W] [SMul ℕ W]

/-- The runs of allowed transactions, with the account of a key and the bytes
that its ledger charged before the last reset. -/
inductive Billing (allowed : Accounting W → TrafficOperation W → Prop) (key : LedgerKey) :
    Accounting W → Account W → Counts → Prop
  | start : Billing allowed key {} {} (0, 0)
  | step {s : Accounting W} {account : Account W} {before : Counts} (operation : TrafficOperation W) :
      Billing allowed key s account before → allowed s operation →
      Billing allowed key (s.step operation) (s.account key account operation)
        (s.settled key before operation)

end Runs

variable {W : Type}

def Ledger.total (ledger : Ledger W) : Direction → Nat
  | .upload => ledger.upload
  | .download => ledger.download

def Ledger.weightedTotal (ledger : Ledger W) : Direction → W
  | .upload => ledger.weightedUpload
  | .download => ledger.weightedDownload

/-- The counters a ledger compares the next report with. -/
def Ledger.last (ledger : Ledger W) : TrafficData :=
  { uplink := ledger.lastUplink, downlink := ledger.lastDownlink }

/-- A reset of the key's user leaves the counters of its ledger as they are:
the latest telemetry of the server, where it lists the email, is the report
that the ledger accepted last. -/
def BaselineKept (s : Accounting W) (key : LedgerKey) : TrafficOperation W → Prop
  | .telemetry _ _ => True
  | .reset username _ _ => username = key.username → ∀ ledger, s.ledger? key = some ledger →
      ∀ item reportedAt, s.baseline key.serverId key.email = some (item, reportedAt) →
        ledger.last = item ∧ ledger.lastReportedAt = some reportedAt

/-- The reports of an email come from meters that are read by a clock which
does not go back. -/
structure Genuine {ι : Type} [LinearOrder ι] (meter : Direction → Counter.Meter ι) (clock : ι → Time)
    (item : TrafficData) (reportedAt : Time) (i : ι) : Prop where
  clock : clock i = reportedAt
  reading : ∀ direction, item.counts.of direction = (meter direction).reading i

/-- A transaction that brings genuine counters of the key's email only. -/
def Reports {ι : Type} [LinearOrder ι] (meter : Direction → Counter.Meter ι) (clock : ι → Time)
    (key : LedgerKey) : TrafficOperation W → Prop
  | .telemetry snapshot _ => snapshot.serverId = key.serverId →
      ∀ item, snapshot.stats.bind (·.user.get? key.email) = some item →
        ∃ i, Genuine meter clock item snapshot.reportedAt i
  | .reset _ _ _ => True

/-- Exact charging of one email: a report that is not later than the last
accepted one leaves its ledger, the totals are those of the account, and no
more is ever charged than passed the meters of the reports. -/
structure ExactlyOnce [Zero W] [Add W] [SMul ℕ W] (allowed : Accounting W → TrafficOperation W → Prop)
    (key : LedgerKey) (s : Accounting W) (account : Account W) (before : Counts) : Prop where
  stale : ∀ snapshot attribution, account.lastAt.any (snapshot.reportedAt ≤ ·) = true →
    (s.recordTelemetry snapshot attribution).ledger? key = s.ledger? key
  totals : ∀ ledger, s.ledger? key = some ledger → ∀ direction,
    ledger.total direction = account.raw direction ∧
      ledger.weightedTotal direction = account.weighted direction
  transferred : ∀ {ι : Type} [LinearOrder ι] (meter : Direction → Counter.Meter ι) (clock : ι → Time),
    Monotone clock → (∀ s operation, allowed s operation → Reports meter clock key operation) →
    ∀ direction transferred, (∀ i, (meter direction).total i ≤ transferred) →
      before.of direction + ((s.ledger? key).map (·.total direction)).getD 0 ≤ transferred

section Matching

variable [AddZeroClass W] [SMul ℕ W] {account : Account W} {ledger : Ledger W} {key : LedgerKey}
  {reportedAt : Time}

/-- The row of a key is what its account says. -/
structure Account.Agrees (account : Account W) (ledger : Ledger W) : Prop where
  opened : account.opened = true
  last : ledger.last = account.last
  lastAt : ledger.lastReportedAt = account.lastAt
  total : ∀ direction, ledger.total direction = account.raw direction
  weighted : ∀ direction, ledger.weightedTotal direction = account.weighted direction

def Account.Matches (account : Account W) : Option (Ledger W) → Prop
  | none => account = {}
  | some ledger => account.Agrees ledger

omit [AddZeroClass W] [SMul ℕ W] in
theorem Account.accept_raw (fresh : account.lastAt.any (reportedAt ≤ ·) = false) (item : TrafficData)
    (weight : W) (direction : Direction) :
    (account.accept item weight reportedAt).raw direction = account.raw direction +
      Counter.increase (account.last.counts.of direction) (item.counts.of direction) := by
  simp only [accept, fresh, Bool.false_eq_true, if_false, raw, map_append, map_singleton, sum_append, sum_singleton]
  cases direction <;> rfl

theorem Account.accept_weighted (fresh : account.lastAt.any (reportedAt ≤ ·) = false) (item : TrafficData)
    (weight : W) (direction : Direction) :
    (account.accept item weight reportedAt).weighted direction = account.weighted direction +
      Counter.increase (account.last.counts.of direction) (item.counts.of direction) • weight := by
  simp only [accept, fresh, Bool.false_eq_true, if_false, weighted, foldl_append, foldl_cons, foldl_nil]
  cases direction <;> rfl

theorem Account.Matches.billed {row : Option (Ledger W)} (matching : account.Matches row)
    (item : TrafficData) (billed : Attribution W) (reportedAt now : Time) :
    (account.accept item billed.weight reportedAt).Agrees (billedRow key row item billed reportedAt now) := by
  cases row with
  | none =>
    cases matching
    refine ⟨rfl, rfl, rfl, fun direction => ?_, fun direction => ?_⟩
    · rw [accept_raw rfl]
      cases direction <;> simp [billedRow, openLedger, Ledger.total, raw, TrafficData.counts, Counts.of]
    · rw [accept_weighted rfl]
      cases direction <;>
        simp [billedRow, openLedger, Ledger.weightedTotal, weighted, TrafficData.counts, Counts.of]
  | some ledger =>
    have uplink : ledger.lastUplink = account.last.uplink := congrArg TrafficData.uplink matching.last
    have downlink : ledger.lastDownlink = account.last.downlink := congrArg TrafficData.downlink matching.last
    by_cases fresh : account.lastAt.any (reportedAt ≤ ·) = false
    · have rowFresh : ledger.lastReportedAt.any (reportedAt ≤ ·) = false := by rw [matching.lastAt, fresh]
      refine ⟨by simp [accept, fresh], ?_, ?_, fun direction => ?_, fun direction => ?_⟩
      · simp [billedRow, Ledger.ingest, rowFresh, accept, fresh, Ledger.last]
      · simp [billedRow, Ledger.ingest, rowFresh, accept, fresh]
      · rw [accept_raw fresh, ← matching.total]
        cases direction <;>
          simp [billedRow, Ledger.ingest, rowFresh, Ledger.total, uplink, downlink, TrafficData.counts, Counts.of]
      · rw [accept_weighted fresh, ← matching.weighted]
        cases direction <;>
          simp [billedRow, Ledger.ingest, rowFresh, Ledger.weightedTotal, uplink, downlink,
            TrafficData.counts, Counts.of]
    · have stale : account.lastAt.any (reportedAt ≤ ·) = true := by simpa using fresh
      have rowStale : ledger.lastReportedAt.any (reportedAt ≤ ·) = true := by rw [matching.lastAt, stale]
      simp only [accept, stale, if_true, billedRow, Ledger.ingest, rowStale]
      exact matching

theorem Account.Agrees.reset (agrees : account.Agrees ledger) {baseline : Option (TrafficData × Time)}
    (kept : ∀ item reportedAt, baseline = some (item, reportedAt) →
      ledger.last = item ∧ ledger.lastReportedAt = some reportedAt) (now : Time)
    (start : Option (TrafficData × Option Time)) :
    (account.settle start).Agrees (ledger.reset baseline now) := by
  have same : (ledger.reset baseline now).last = ledger.last ∧
      (ledger.reset baseline now).lastReportedAt = ledger.lastReportedAt := by
    cases baseline with
    | none => exact ⟨rfl, rfl⟩
    | some based =>
      obtain ⟨last, lastAt⟩ := kept based.1 based.2 rfl
      rw [last, lastAt]
      exact ⟨rfl, rfl⟩
  have closed : account.settle start = { account with charges := [] } := by
    simp [settle, agrees.opened]
  rw [closed]
  refine ⟨agrees.opened, same.1.trans agrees.last, same.2.trans agrees.lastAt, ?_, ?_⟩
  · intro direction
    cases baseline <;> cases direction <;> rfl
  · intro direction
    cases baseline <;> cases direction <;> rfl

end Matching

section Refinement

variable [AddZeroClass W] [SMul ℕ W] {s : Accounting W} {account : Account W} {key : LedgerKey}

theorem Account.Matches.step (matching : account.Matches (s.ledger? key)) {operation : TrafficOperation W}
    (kept : BaselineKept s key operation) :
    (s.account key account operation).Matches ((s.step operation).ledger? key) := by
  cases operation with
  | telemetry snapshot attribution =>
    simp only [Accounting.step, Accounting.recordTelemetry_ledger?, Accounting.account]
    cases Accounting.observed key snapshot attribution with
    | none => exact matching
    | some seen => exact matching.billed seen.1 seen.2 snapshot.reportedAt snapshot.receivedAt
  | reset username credentials now =>
    simp only [Accounting.step, Accounting.resetTraffic_ledger?, Accounting.account]
    by_cases mine : username = key.username
    · rw [if_pos mine, if_pos mine]
      cases row : s.ledger? key with
      | some ledger =>
        rw [row] at matching
        exact Account.Agrees.reset matching (fun item reportedAt based =>
          kept mine ledger row item reportedAt based) now _
      | none =>
        rw [row] at matching
        cases matching
        rw [map_none, none_or, Accounting.openedRow]
        cases s.opener key credentials with
        | none => rfl
        | some credential =>
          refine ⟨rfl, rfl, rfl, fun direction => ?_, fun direction => ?_⟩ <;> cases direction <;> rfl
    · rw [if_neg mine, if_neg mine]
      exact matching

theorem Billing.matching {allowed : Accounting W → TrafficOperation W → Prop} {before : Counts}
    (run : Billing allowed key s account before)
    (kept : ∀ s operation, allowed s operation → BaselineKept s key operation) :
    account.Matches (s.ledger? key) := by
  induction run with
  | start => rfl
  | step operation _ permitted ih => exact ih.step (kept _ operation permitted)

end Refinement

section Meters

variable {ι : Type} [LinearOrder ι] {meter : Direction → Counter.Meter ι} {clock : ι → Time}
  {s : Accounting W} {account : Account W} {before : Counts} {key : LedgerKey}

/-- No more was charged than passed the meters by the report accepted last. -/
structure Metered (meter : Direction → Counter.Meter ι) (clock : ι → Time) (account : Account W)
    (before : Counts) : Prop where
  unread : account.lastAt = none → account.last = {} ∧
    ∀ direction, before.of direction + account.raw direction = 0
  read : ∀ reportedAt, account.lastAt = some reportedAt →
    ∃ i, Genuine meter clock account.last reportedAt i ∧
      ∀ direction, before.of direction + account.raw direction ≤ (meter direction).total i

variable {item : TrafficData} {reportedAt : Time}

theorem Metered.accept (metered : Metered meter clock account before) (forward : Monotone clock) {j : ι}
    (genuine : Genuine meter clock item reportedAt j) (weight : W) :
    Metered meter clock (account.accept item weight reportedAt) before := by
  by_cases fresh : account.lastAt.any (reportedAt ≤ ·) = false
  · have columns : (account.accept item weight reportedAt).lastAt = some reportedAt ∧
        (account.accept item weight reportedAt).last = item := by
      simp [Account.accept, fresh]
    refine ⟨fun none => by simp [columns.1] at none, fun time now => ?_⟩
    cases columns.1.symm.trans now
    refine ⟨j, by rw [columns.2]; exact genuine, fun direction => ?_⟩
    rw [Account.accept_raw fresh, genuine.reading]
    cases read : account.lastAt with
    | none =>
      obtain ⟨last, nothing⟩ := metered.unread read
      have start : account.last.counts.of direction = 0 := by
        rw [last]
        cases direction <;> rfl
      have none := nothing direction
      have shown := (meter direction).reading_le j
      rw [start, Counter.increase_zero]
      omega
    | some time =>
      obtain ⟨i, previous, charged⟩ := metered.read time read
      have ordered : i ≤ j := by
        by_contra later
        have back := forward (le_of_not_ge later)
        rw [previous.clock, genuine.clock] at back
        simp [read, back] at fresh
      have passed := (meter direction).increase_le ordered
      have bound := charged direction
      rw [previous.reading]
      omega
  · have stale : account.lastAt.any (reportedAt ≤ ·) = true := by simpa using fresh
    simpa [Account.accept, stale] using metered

theorem latest_mem {rows : List TelemetrySnapshot} {best : Option TelemetrySnapshot}
    {snapshot : TelemetrySnapshot} (found : rows.foldl latest best = some snapshot) :
    best = some snapshot ∨ snapshot ∈ rows := by
  induction rows generalizing best with
  | nil => exact .inl found
  | cons row rest ih =>
    rcases ih found with chosen | later
    · unfold latest at chosen
      split at chosen
      · exact .inr (Option.some.inj chosen ▸ mem_cons_self ..)
      · split at chosen
        · exact .inr (Option.some.inj chosen ▸ mem_cons_self ..)
        · exact .inl chosen
    · exact .inr (mem_cons_of_mem _ later)

/-- Every stored report of the key's email is genuine. -/
def Stored (meter : Direction → Counter.Meter ι) (clock : ι → Time) (key : LedgerKey) (s : Accounting W) :
    Prop :=
  ∀ snapshot ∈ s.telemetry, snapshot.serverId = key.serverId →
    ∀ item, snapshot.stats.bind (·.user.get? key.email) = some item →
      ∃ i, Genuine meter clock item snapshot.reportedAt i

theorem Stored.baseline (stored : Stored meter clock key s)
    (based : s.baseline key.serverId key.email = some (item, reportedAt)) :
    ∃ i, Genuine meter clock item reportedAt i := by
  obtain ⟨snapshot, newest, based⟩ := Option.bind_eq_some_iff.mp based
  obtain ⟨stats, present, based⟩ := Option.bind_eq_some_iff.mp based
  obtain ⟨listing, listed, same⟩ := Option.map_eq_some_iff.mp based
  cases same
  have member : snapshot ∈ s.telemetry.filter (·.serverId == key.serverId) := by
    rcases latest_mem newest with none | member
    · cases none
    · exact member
  obtain ⟨member, server⟩ := List.mem_filter.mp member
  exact stored snapshot member (by simpa using server) item (by simp [present, listed])

theorem Stored.opener (stored : Stored meter clock key s) {credentials : List TrafficCredential}
    {credential : TrafficCredential} (found : s.opener key credentials = some credential) :
    (s.credentialBaseline credential).2 = ({}, none) ∨ ∃ item reportedAt i,
      (s.credentialBaseline credential).2 = (item, some reportedAt) ∧ Genuine meter clock item reportedAt i := by
  have chosen := List.find?_some found
  simp only [decide_eq_true_eq] at chosen
  obtain ⟨server, email⟩ := chosen
  unfold Accounting.credentialBaseline at email ⊢
  cases search : credential.emails.findSome? fun email =>
      (s.baseline credential.serverId email).map fun based => (email, based.1, some based.2) with
  | none => exact .inl rfl
  | some based =>
    rw [search] at email
    obtain ⟨name, _, value⟩ := exists_of_findSome?_eq_some search
    obtain ⟨entry, here, same⟩ := Option.map_eq_some_iff.mp value
    subst same
    simp only [getD_some] at email
    rw [server, email] at here
    obtain ⟨i, genuine⟩ := stored.baseline here
    exact .inr ⟨entry.1, entry.2, i, rfl, genuine⟩

section Runs

variable [AddZeroClass W] [SMul ℕ W] {allowed : Accounting W → TrafficOperation W → Prop}

variable {operation : TrafficOperation W}

theorem Stored.step (stored : Stored meter clock key s) (reports : Reports meter clock key operation) :
    Stored meter clock key (s.step operation) := by
  cases operation with
  | telemetry snapshot attribution =>
    intro row member
    rcases List.mem_append.mp member with old | fresh
    · exact stored row old
    · cases List.mem_singleton.mp fresh
      exact reports
  | reset username credentials now => exact stored

theorem Metered.step (metered : Metered meter clock account before) (stored : Stored meter clock key s)
    (forward : Monotone clock) (matching : account.Matches (s.ledger? key))
    (reports : Reports meter clock key operation) :
    Metered meter clock (s.account key account operation) (s.settled key before operation) := by
  cases operation with
  | telemetry snapshot attribution =>
    simp only [Accounting.account, Accounting.settled]
    cases seen : Accounting.observed key snapshot attribution with
    | none => exact metered
    | some seen' =>
      obtain ⟨item, billed⟩ := seen'
      simp only [Accounting.observed] at seen
      split at seen
      · rename_i item' billed' listed bills
        cases seen
        have here : snapshot.serverId = key.serverId := by
          simp only [billing, filter_eq_some_iff, decide_eq_true_eq] at bills
          exact bills.2.2
        obtain ⟨i, genuine⟩ := reports here item listed
        exact metered.accept forward genuine billed.weight
      · cases seen
  | reset username credentials now =>
    simp only [Accounting.account, Accounting.settled]
    cases row : s.ledger? key with
    | some ledger =>
      rw [row] at matching
      by_cases mine : username = key.username
      · have closed : ∀ start, account.settle start = { account with charges := [] } := by
          intro start
          simp [Account.settle, matching.opened]
        have upload := matching.total .upload
        have download := matching.total .download
        simp only [mine, if_true, closed]
        have moved : ∀ direction, Counts.of (before.1 + ledger.upload, before.2 + ledger.download) direction +
            ({ account with charges := [] } : Account W).raw direction =
              before.of direction + account.raw direction := by
          intro direction
          cases direction with
          | upload => simp only [Counts.of, Account.raw] at upload ⊢; rw [← upload]; rfl
          | download => simp only [Counts.of, Account.raw] at download ⊢; rw [← download]; rfl
        refine ⟨fun none => ?_, fun reportedAt read => ?_⟩
        · obtain ⟨last, nothing⟩ := metered.unread none
          exact ⟨last, fun direction => (moved direction).trans (nothing direction)⟩
        · obtain ⟨i, genuine, charged⟩ := metered.read reportedAt read
          exact ⟨i, genuine, fun direction => (moved direction).trans_le (charged direction)⟩
      · simp only [mine, if_false]
        exact metered
    | none =>
      rw [row] at matching
      cases matching
      by_cases mine : username = key.username
      · simp only [mine, if_true, Account.settle, Bool.false_eq_true, if_false]
        cases found : s.opener key credentials with
        | none => exact metered
        | some credential =>
          have nothing := (metered.unread rfl).2
          simp only [map_some]
          have start := stored.opener found
          generalize s.credentialBaseline credential = based at start ⊢
          obtain ⟨email, last, lastAt⟩ := based
          rcases start with zero | ⟨item, reportedAt, i, based, genuine⟩
          · cases zero
            exact ⟨fun _ => ⟨rfl, nothing⟩, fun _ read => by cases read⟩
          · cases based
            refine ⟨(fun none => by cases none), fun time now => ⟨i, ?_, fun direction => ?_⟩⟩
            · cases now
              exact genuine
            have zero := nothing direction
            simp only [Account.raw, map_nil, sum_nil] at zero ⊢
            omega
      · simp only [mine, if_false]
        exact metered

theorem Billing.metered (run : Billing allowed key s account before) (forward : Monotone clock)
    (kept : ∀ s operation, allowed s operation → BaselineKept s key operation)
    (reports : ∀ s operation, allowed s operation → Reports meter clock key operation) :
    Stored meter clock key s ∧ Metered meter clock account before := by
  induction run with
  | start =>
    refine ⟨fun snapshot member => by simp at member, ⟨fun _ => ⟨rfl, fun direction => ?_⟩, nofun⟩⟩
    cases direction <;> rfl
  | step operation past permitted ih =>
    have meters := reports _ operation permitted
    exact ⟨ih.1.step meters, ih.2.step ih.1 forward (past.matching kept) meters⟩

/-- Subscription traffic is charged exactly once in every run whose resets
leave the counters that the ledger accepted last. -/
theorem Billing.exactlyOnce (run : Billing allowed key s account before)
    (kept : ∀ s operation, allowed s operation → BaselineKept s key operation) :
    ExactlyOnce allowed key s account before := by
  have matching := run.matching kept
  refine ⟨fun snapshot attribution stale => ?_, fun ledger row direction => ?_, ?_⟩
  · rw [Accounting.recordTelemetry_ledger?]
    cases Accounting.observed key snapshot attribution with
    | none => rfl
    | some seen =>
      cases row : s.ledger? key with
      | none =>
        rw [row] at matching
        cases matching
        cases stale
      | some ledger =>
        rw [row] at matching
        have old : ledger.lastReportedAt.any (snapshot.reportedAt ≤ ·) = true := by rw [matching.lastAt, stale]
        simp only [billedRow, Ledger.ingest, old, if_true]
  · rw [row] at matching
    exact ⟨matching.total direction, matching.weighted direction⟩
  · intro ι _ meter clock forward reports direction transferred bound
    have metered := (run.metered forward kept reports).2
    have charged : before.of direction + account.raw direction ≤ transferred := by
      cases read : account.lastAt with
      | none =>
        have nothing := (metered.unread read).2 direction
        omega
      | some reportedAt =>
        obtain ⟨i, _, charged⟩ := metered.read reportedAt read
        exact (charged direction).trans (bound i)
    cases row : s.ledger? key with
    | none =>
      simp only [map_none, getD_none]
      omega
    | some ledger =>
      rw [row] at matching
      rw [map_some, getD_some, matching.total]
      exact charged

end Runs

end Meters

def ChargedExactlyOnce (W : Type) [AddZeroClass W] [SMul ℕ W] : Prop :=
  ∀ (allowed : Accounting W → TrafficOperation W → Prop) key s account before,
    Billing allowed key s account before → ExactlyOnce allowed key s account before

section Alice

/-- The ledger of one email, and reports of its upload at weight three. -/
def aliceKey : LedgerKey :=
  { username := "alice", serverId := 0, email := "alice@a" }

def aliceReport (reportedAt receivedAt uplink : Nat) : TrafficOperation ℕ :=
  .telemetry
    { reportedAt := reportedAt
      receivedAt := receivedAt
      stats := some { user := { entries := [("alice@a", { uplink := uplink })] } } }
    fun _ => some { username := "alice", nodeId := 0, weight := 3 }

def aliceReset : TrafficOperation ℕ :=
  .reset "alice" [] 4

/-- The tables, the account and the settled bytes after some transactions. -/
def billed (operations : List (TrafficOperation ℕ)) : Accounting ℕ × Account ℕ × Counts :=
  operations.foldl
    (fun entry operation =>
      (entry.1.step operation, entry.1.account aliceKey entry.2.1 operation,
        entry.1.settled aliceKey entry.2.2 operation))
    ({}, {}, (0, 0))

theorem billed_run (operations : List (TrafficOperation ℕ)) :
    Billing (fun _ _ => True) aliceKey (billed operations).1 (billed operations).2.1 (billed operations).2.2 := by
  induction operations using List.reverseRecOn with
  | nil => exact .start
  | append_singleton rest operation ih =>
    rw [billed, foldl_append]
    exact .step operation ih trivial

/-- One report before a reset and one after it: fifty bytes are charged since. -/
theorem alice_exactlyOnce : ((billed [aliceReport 1 1 100, aliceReset, aliceReport 5 5 150]).1.ledger? aliceKey).map
      (·.total .upload) = some 50 := by
  have columns : ((billed [aliceReport 1 1 100]).1.ledger? aliceKey).map
        (fun ledger => (ledger.last, ledger.lastReportedAt)) =
      ((billed [aliceReport 1 1 100]).1.baseline aliceKey.serverId aliceKey.email).map
        (fun based => (based.1, some based.2)) := by decide +kernel
  have kept : BaselineKept (billed [aliceReport 1 1 100]).1 aliceKey aliceReset := by
    intro _ ledger row item reportedAt based
    rw [row, based] at columns
    simpa using columns
  have run : Billing (fun s operation => BaselineKept s aliceKey operation) aliceKey _ _ _ :=
    .step (aliceReport 5 5 150) (.step aliceReset (.step (aliceReport 1 1 100) .start trivial) kept) trivial
  have present : ((billed [aliceReport 1 1 100, aliceReset, aliceReport 5 5 150]).1.ledger?
      aliceKey).isSome = true := by decide +kernel
  obtain ⟨ledger, row⟩ := Option.isSome_iff_exists.mp present
  have total := ((Billing.exactlyOnce run fun _ _ kept => kept).totals ledger row .upload).1
  have accepted : (billed [aliceReport 1 1 100, aliceReset, aliceReport 5 5 150]).2.1.raw .upload = 50 := by
    decide +kernel
  rw [row, map_some, total]
  exact congrArg some accepted

/-- Two reports of one time that arrive in the wrong order. -/
def reorderedReports : List (TrafficOperation ℕ) :=
  [aliceReport 1 1 100, aliceReport 1 2 50, aliceReset, aliceReport 5 5 110]

/-- The reset takes the counters that the ledger had refused for its baseline,
so that sixty bytes are charged where ten were transferred. -/
theorem reorderedReports_not_chargedExactlyOnce : ¬ ChargedExactlyOnce ℕ := by
  intro charged
  have shown : ((billed reorderedReports).1.ledger? aliceKey).map (·.total .upload) = some 60 := by
    decide +kernel
  have accepted : (billed reorderedReports).2.1.raw .upload = 10 := by decide +kernel
  obtain ⟨ledger, row, total⟩ := Option.map_eq_some_iff.mp shown
  have claimed := ((charged _ _ _ _ _ (billed_run reorderedReports)).totals ledger row .upload).1
  omega

end Alice

end OpenNode
