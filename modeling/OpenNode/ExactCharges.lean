import OpenNode.Lib.ExactAmounts
import OpenNode.TrafficRemoval

namespace OpenNode

open List

variable {W : Type} [Zero W] [Add W] [Sub W] [SMul ℕ W] (exact : ExactAmounts W)

def Ledger.inAmounts (ledger : Ledger ℕ) : Ledger W :=
  { ledger with
    weightedUpload := exact.amount ledger.weightedUpload
    weightedDownload := exact.amount ledger.weightedDownload }

def ArchivedTraffic.inAmounts (row : ArchivedTraffic ℕ) : ArchivedTraffic W :=
  { row with
    weightedUpload := exact.amount row.weightedUpload
    weightedDownload := exact.amount row.weightedDownload }

def Attribution.inAmounts (billed : Attribution ℕ) : Attribution W :=
  { billed with weight := exact.amount billed.weight }

/-- The tables whose weighted columns and weights are so many units. -/
def Charging.inAmounts (s : Charging ℕ) : Charging W where
  accounting :=
    { s.accounting with ledgers := s.accounting.ledgers.map (·.inAmounts exact) }
  servers := s.servers
  credentials := s.credentials
  archived := s.archived.map (·.inAmounts exact)
  weight username node := exact.amount (s.weight username node)

def Charging.Event.inAmounts : Charging.Event ℕ → Charging.Event W
  | .telemetry snapshot attribution => .telemetry snapshot fun email => (attribution email).map (·.inAmounts exact)
  | .reset username now => .reset username now
  | .remove server weight now => .remove server (fun username node => exact.amount (weight username node)) now
  | .assign credentials weight => .assign credentials fun username node => exact.amount (weight username node)

/-- No weighted total of a user exceeds the limit. -/
def Charging.Fits (s : Charging ℕ) : Prop :=
  ∀ username, exact.Within (s.subscriptionUserWeightedTraffic username)

variable {exact}

section Reports

variable {ledgers : List (Ledger ℕ)} {server : ServerId} {attribution : String → Option (Attribution ℕ)}
  {reportedAt now : Time} {entry : String × TrafficData}

theorem amount_charge {total bytes weight : ℕ} (within : total + bytes * weight ≤ exact.limit) :
    exact.amount total + bytes • exact.amount weight = exact.amount (total + bytes * weight) := by
  rw [exact.smul (le_add_self.trans within), exact.add within]

theorem Ledger.ingest_inAmounts {ledger : Ledger ℕ} {item : TrafficData} {billed : Attribution ℕ}
    (within : exact.Within (ledger.ingest item billed reportedAt now).totals.2) :
    (ledger.inAmounts exact).ingest item (billed.inAmounts exact) reportedAt now =
      (ledger.ingest item billed reportedAt now).inAmounts exact := by
  unfold Ledger.ingest at within ⊢
  change (if ledger.lastReportedAt.any (reportedAt ≤ ·) = true then _ else _) = _
  split
  · rfl
  · rename_i later
    rw [if_neg later] at within
    simp only [inAmounts, Attribution.inAmounts, amount_charge within.1, amount_charge within.2, smul_eq_mul]

theorem Ledger.ingest_le (ledger : Ledger ℕ) (item : TrafficData) (billed : Attribution ℕ) :
    ledger.totals.2 ≤ (ledger.ingest item billed reportedAt now).totals.2 := by
  rw [Ledger.ingest_totals]
  exact le_self_add

theorem within_of_recordItem
    (within : ∀ ledger ∈ recordItem server attribution reportedAt now ledgers entry, exact.Within ledger.totals.2) :
    ∀ ledger ∈ ledgers, exact.Within ledger.totals.2 := by
  intro ledger here
  unfold recordItem at within
  cases known : attribution entry.1 with
  | none =>
    rw [known] at within
    exact within ledger here
  | some billed =>
    rw [known] at within
    dsimp only at within
    split at within
    · have after := within _ (mem_map_of_mem here)
      split at after
      · exact after.le (ledger.ingest_le ..)
      · exact after
    · exact within ledger (mem_append_left _ here)

theorem recordItem_inAmounts
    (within : ∀ ledger ∈ recordItem server attribution reportedAt now ledgers entry, exact.Within ledger.totals.2) :
    recordItem server (fun email => (attribution email).map (·.inAmounts exact)) reportedAt now
        (ledgers.map (·.inAmounts exact)) entry =
      (recordItem server attribution reportedAt now ledgers entry).map (·.inAmounts exact) := by
  unfold recordItem at within ⊢
  beta_reduce
  cases known : attribution entry.1 with
  | none => rfl
  | some billed =>
    rw [known] at within
    dsimp only [Option.map_some] at within ⊢
    have owner : (billed.inAmounts exact).username = billed.username := rfl
    rw [any_map, owner]
    change (if ledgers.any (·.key = _) = true then _ else _) = _
    split
    · rename_i present
      rw [if_pos present] at within
      rw [map_map, map_map]
      refine map_congr_left fun ledger here => ?_
      have after := within _ (mem_map_of_mem here)
      simp only [Function.comp_apply]
      change (if ledger.key = _ then _ else _) = _
      split
      · rename_i mine
        rw [if_pos mine] at after
        exact Ledger.ingest_inAmounts after
      · rfl
    · rename_i absent
      rw [if_neg absent] at within
      have opened := within _ (mem_append_right _ (mem_singleton_self _))
      rw [map_append]
      congr 1
      simp only [map_cons, map_nil, openLedger, Ledger.inAmounts, Attribution.inAmounts]
      rw [exact.smul opened.1, exact.smul opened.2]
      rfl

theorem recordItems_inAmounts (entries : List (String × TrafficData))
    (within : ∀ ledger ∈ entries.foldl (recordItem server attribution reportedAt now) ledgers,
      exact.Within ledger.totals.2) :
    entries.foldl (recordItem server (fun email => (attribution email).map (·.inAmounts exact)) reportedAt now)
        (ledgers.map (·.inAmounts exact)) =
      (entries.foldl (recordItem server attribution reportedAt now) ledgers).map (·.inAmounts exact) ∧
    ∀ ledger ∈ ledgers, exact.Within ledger.totals.2 := by
  induction entries generalizing ledgers with
  | nil => exact ⟨rfl, within⟩
  | cons entry rest ih =>
    obtain ⟨same, earlier⟩ := ih within
    rw [foldl_cons, foldl_cons, recordItem_inAmounts earlier]
    exact ⟨same, within_of_recordItem earlier⟩

end Reports

namespace Charging

variable {s : Charging ℕ} {username : String}

theorem ledgersOf_inAmounts (s : Charging ℕ) (username : String) :
    (s.inAmounts exact).ledgersOf username = (s.ledgersOf username).map (·.inAmounts exact) :=
  filter_map

theorem archivedUserTraffic_inAmounts (s : Charging ℕ) (username : String) :
    (s.inAmounts exact).archivedUserTraffic username = (s.archivedUserTraffic username).map (·.inAmounts exact) :=
  filter_map

theorem userTotals_inAmounts (within : exact.Within (s.subscriptionUserWeightedTraffic username)) :
    (s.inAmounts exact).userTotals username =
      (s.subscriptionUserTraffic username, exact.amounts (s.subscriptionUserWeightedTraffic username)) := by
  unfold userTotals subscriptionUserTraffic subscriptionUserWeightedTraffic at *
  rw [ledgersOf_inAmounts, archivedUserTraffic_inAmounts]
  simp only [map_eq_nil_iff, map_map]
  refine congrArg₂ Prod.mk rfl ?_
  rw [← ExactAmounts.amounts_add within]
  refine congrArg₂ (· + ·) ?_ (ExactAmounts.amounts_sum _ _ (within.le le_add_self))
  have within := within.le le_self_add
  split
  · rename_i none
    rw [if_pos none] at within
    unfold subscriptionLatestUserWeightedTraffic at within ⊢
    rw [← ExactAmounts.amounts_sum _ _ within]
    refine congrArg List.sum (map_congr_left fun credential here => ?_)
    have part := within.le (List.single_le_sum (fun _ _ => zero_le) _ (mem_map_of_mem here))
    exact Prod.ext (exact.smul part.1) (exact.smul part.2)
  · rename_i some
    rw [if_neg some] at within
    exact ExactAmounts.amounts_sum _ _ within

theorem Fits.ledger (fits : s.Fits exact) {ledger : Ledger ℕ} (here : ledger ∈ s.accounting.ledgers) :
    exact.Within ledger.totals.2 := by
  have own : ledger ∈ s.ledgersOf ledger.username := mem_filter.mpr ⟨here, beq_self_eq_true _⟩
  have total := (fits ledger.username).le le_self_add
  rw [if_neg (ne_nil_of_mem own)] at total
  exact total.le (List.single_le_sum (fun _ _ => zero_le) _ (mem_map_of_mem own))

theorem recordTelemetry_inAmounts (s : Charging ℕ) (snapshot : TelemetrySnapshot)
    (attribution : String → Option (Attribution ℕ)) (after : (s.recordTelemetry snapshot attribution).Fits exact) :
    (s.inAmounts exact).recordTelemetry snapshot (fun email => (attribution email).map (·.inAmounts exact)) =
      (s.recordTelemetry snapshot attribution).inAmounts exact := by
  unfold recordTelemetry at after ⊢
  change (if s.servers.any (·.id == snapshot.serverId) = true then _ else _) = _
  split
  · rename_i here
    rw [if_pos here] at after
    have rows : recordLedger (s.accounting.ledgers.map (·.inAmounts exact)) snapshot
        (fun email => (attribution email).map (·.inAmounts exact)) =
          (recordLedger s.accounting.ledgers snapshot attribution).map (·.inAmounts exact) := by
      have within : ∀ ledger ∈ recordLedger s.accounting.ledgers snapshot attribution,
          exact.Within ledger.totals.2 :=
        fun _ here => after.ledger here
      unfold recordLedger at within ⊢
      cases stats : snapshot.stats with
      | none => rfl
      | some stats' =>
        rw [stats] at within
        exact (recordItems_inAmounts stats'.user.entries within).1
    simp only [inAmounts, Accounting.recordTelemetry, rows]
  · rfl

theorem resetTraffic_inAmounts (s : Charging ℕ) (username : String) (now : Time) :
    (s.inAmounts exact).resetTraffic username now = (s.resetTraffic username now).inAmounts exact := by
  have opened : ∀ (ledgers : List (Ledger ℕ)) (credential : TrafficCredential),
      (s.inAmounts exact).accounting.resetCredential username now (ledgers.map (·.inAmounts exact)) credential =
        (s.accounting.resetCredential username now ledgers credential).map (·.inAmounts exact) := by
    intro ledgers credential
    have same : (s.inAmounts exact).accounting.credentialBaseline credential =
      s.accounting.credentialBaseline credential := rfl
    rw [Accounting.resetCredential, same, Accounting.resetCredential]
    generalize s.accounting.credentialBaseline credential = based
    obtain ⟨email, item, reportedAt⟩ := based
    dsimp only
    rw [any_map]
    change (if ledgers.any (·.key = _) = true then _ else _) = _
    split
    · rfl
    · rw [map_append]
      simp only [map_cons, map_nil, baselineLedger, Ledger.inAmounts, exact.zero]
  have cleared : ∀ (baseline : Option (TrafficData × Time)) (ledger : Ledger ℕ),
      (ledger.inAmounts exact).reset baseline now = (ledger.reset baseline now).inAmounts exact := by
    intro baseline ledger
    cases baseline <;> simp only [Ledger.reset, Ledger.inAmounts, exact.zero]
  have loop : ∀ (credentials : List TrafficCredential) (ledgers : List (Ledger ℕ)),
      credentials.foldl ((s.inAmounts exact).accounting.resetCredential username now)
        (ledgers.map (·.inAmounts exact)) =
        (credentials.foldl (s.accounting.resetCredential username now) ledgers).map (·.inAmounts exact) := by
    intro credentials
    induction credentials with
    | nil => exact fun _ => rfl
    | cons credential rest ih =>
      intro ledgers
      rw [foldl_cons, foldl_cons, opened, ih]
  have rows : (s.accounting.ledgers.map (·.inAmounts exact)).map (fun ledger =>
      if ledger.username = username then ledger.reset (s.accounting.baseline ledger.serverId ledger.email) now
        else ledger) =
        (s.accounting.ledgers.map fun ledger => if ledger.username = username then
          ledger.reset (s.accounting.baseline ledger.serverId ledger.email) now
            else ledger).map (·.inAmounts exact) := by
    rw [map_map, map_map]
    refine map_congr_left fun ledger _ => ?_
    simp only [Function.comp_apply]
    change (if ledger.username = username then _ else _) = _
    split
    · exact cleared ..
    · rfl
  have archived : (s.archived.map (·.inAmounts exact)).map
      (fun row => if row.username = username then row.reset now else row) =
        (s.archived.map fun row => if row.username = username then row.reset now else row).map
          (·.inAmounts exact) := by
    rw [map_map, map_map]
    refine map_congr_left fun row _ => ?_
    simp only [Function.comp_apply]
    change (if row.username = username then _ else _) = _
    split
    · simp only [ArchivedTraffic.reset, ArchivedTraffic.inAmounts, exact.zero]
    · rfl
  have ledgers : ((s.inAmounts exact).resetTraffic username now).accounting.ledgers =
      (s.resetTraffic username now).accounting.ledgers.map (·.inAmounts exact) :=
    (congrArg (fun rows => foldl _ rows _) rows).trans
      (loop ((s.credentialsOf username).map (·.toTrafficCredential)) _)
  exact (Charging.mk.injEq ..).mpr ⟨(Accounting.mk.injEq ..).mpr ⟨rfl, rfl, ledgers⟩, rfl, rfl, archived, rfl⟩

section Runs

variable {server : ServerName} {weight : String → NodeId → ℕ} {now : Time} {event : Event ℕ}

theorem dropServer_inAmounts (s : Charging ℕ) (server : ServerId) (weight : String → NodeId → ℕ) :
    (s.inAmounts exact).dropServer server (fun username node => exact.amount (weight username node)) =
      (s.dropServer server weight).inAmounts exact :=
  (Charging.mk.injEq ..).mpr ⟨(Accounting.mk.injEq ..).mpr ⟨rfl, rfl, filter_map⟩, rfl, rfl, rfl, rfl⟩

theorem Fits.dropServer (after : (s.remove server weight now).Fits exact) :
    (s.dropServer server.id weight).Fits exact := by
  refine fun username => (after username).le (add_le_add (le_refl _) ?_)
  have more : (s.remove server weight now).archivedUserTraffic username =
      (s.dropServer server.id weight).archivedUserTraffic username ++ _ := filter_append ..
  rw [more, map_append, sum_append]
  exact le_self_add

theorem remove_inAmounts (before : s.Fits exact) (after : (s.remove server weight now).Fits exact) :
    (s.inAmounts exact).remove server (fun username node => exact.amount (weight username node)) now =
      (s.remove server weight now).inAmounts exact := by
  have users : (s.inAmounts exact).usersOn server.id = s.usersOn server.id := by
    unfold usersOn inAmounts
    rw [filter_map, map_map]
    rfl
  have rows : ∀ name, archive name server ((s.inAmounts exact).userTotals name)
      (((s.dropServer server.id weight).inAmounts exact).userTotals name) now =
        (archive name server (s.userTotals name) ((s.dropServer server.id weight).userTotals name) now).inAmounts
          exact := by
    intro name
    rw [userTotals_inAmounts (before name), userTotals_inAmounts (after.dropServer name)]
    simp only [archive, ArchivedTraffic.inAmounts, ExactAmounts.amounts,
      exact.sub (before name).1 (after.dropServer name).1,
      exact.sub (before name).2 (after.dropServer name).2]
    rfl
  unfold remove
  rw [dropServer_inAmounts, users]
  simp only [rows]
  refine (Charging.mk.injEq ..).mpr ⟨rfl, rfl, rfl, ?_, rfl⟩
  rw [map_append, map_map]
  rfl

theorem step_inAmounts (before : s.Fits exact) (after : (s.step event).Fits exact) :
    (s.inAmounts exact).step (event.inAmounts exact) = (s.step event).inAmounts exact := by
  cases event with
  | telemetry snapshot attribution => exact s.recordTelemetry_inAmounts snapshot attribution after
  | reset username now => exact s.resetTraffic_inAmounts username now
  | remove server weight now =>
    simp only [step, Event.inAmounts] at after ⊢
    have servers : (s.inAmounts exact).servers = s.servers := rfl
    rw [servers]
    cases here : s.servers.find? (·.id == server) with
    | none => rfl
    | some found =>
      rw [here] at after
      exact remove_inAmounts before after
  | assign credentials weight => rfl

theorem run_inAmounts {events before : List (Event ℕ)} (fits : s.Along (·.Fits exact) events)
    (run : before ++ [event] <+: events) :
    (s.inAmounts exact).run (before.map (·.inAmounts exact)) = (s.run before).inAmounts exact ∧
      (s.run before).Fits exact ∧ ((s.run before).step event).Fits exact := by
  induction before generalizing s events with
  | nil =>
    cases events with
    | nil => exact absurd run (by simp)
    | cons first rest =>
      obtain ⟨rfl, _⟩ := List.cons_prefix_cons.mp run
      exact ⟨rfl, fits.1, fits.2.head⟩
  | cons first before ih =>
    cases events with
    | nil => exact absurd run (by simp)
    | cons head rest =>
      obtain ⟨rfl, later⟩ := List.cons_prefix_cons.mp run
      have next := step_inAmounts fits.1 fits.2.head
      obtain ⟨same, here, there⟩ := ih fits.2 later
      refine ⟨?_, here, there⟩
      rw [map_cons]
      change ((s.inAmounts exact).step (first.inAmounts exact)).run _ = _
      rw [next]
      exact same

/-- In every run in which the totals of a user are recorded and no weighted total
is rounded, each event charges the user what its report adds to the readings of
its emails. A removal charges nothing and forgets no reading, and only a reset
takes something away. -/
theorem charges_kept (exact : ExactAmounts W) (s : Charging ℕ)
    (distinct : (s.accounting.ledgers.map Ledger.key).Nodup)
    (username : String) (events : List (Event ℕ)) (recorded : s.Along (·.Recorded username) events)
    (fits : s.Along (·.Fits exact) events) :
    ∀ before event, before ++ [event] <+: events →
      let counted := s.run before
      let last := s.readAlong (readingsOf s.accounting.ledgers) before
      let charged := counted.charged last username event
      let here := (s.inAmounts exact).run (before.map (·.inAmounts exact))
      here.userTotals username =
          ((counted.userTotals username).1, exact.amounts (counted.userTotals username).2) ∧
        (here.step (event.inAmounts exact)).userTotals username = (charged.1, exact.amounts charged.2) ∧
        ((∀ now, event ≠ .reset username now) → counted.userTotals username ≤ charged) := by
  intro before event run
  obtain ⟨same, here, there⟩ := run_inAmounts fits run
  obtain ⟨charges, grows⟩ := s.charges_along distinct events recorded run
  dsimp only
  rw [same, step_inAmounts here there, userTotals_inAmounts (here username), userTotals_inAmounts (there username),
    ← charges]
  exact ⟨rfl, rfl, grows⟩

end Runs

section Examples

def pair : List ServerName := [{ id := 0, name := "A" }, { id := 1, name := "B" }]

def credentialOn (server : ServerId) (email : String) : UserCredential :=
  { username := "amy", serverId := server, nodeId := server, email := email }

/-- A report of one email. -/
def report (server : ServerId) (reportedAt : Time) (email : String) (uplink : Nat) : TelemetrySnapshot :=
  { serverId := server
    reportedAt := reportedAt
    stats := some { user := { entries := [(email, { uplink := uplink, downlink := 0 })], nodup := by simp } } }

def billsTo (email : String) (node : NodeId) (reported : String) : Option (Attribution ℕ) :=
  if reported = email then some { username := "amy", nodeId := node, weight := 2 } else none

def subscribed (credentials : List UserCredential) : Charging ℕ :=
  { servers := pair, credentials := credentials, weight := fun _ _ => 2 }

/-- The user has a ledger on both servers. -/
def reportedTwice : Charging ℕ :=
  (subscribed [credentialOn 0 "amy-a", credentialOn 1 "amy-b"]).run
    [.telemetry (report 0 1 "amy-a" 100) (billsTo "amy-a" 0),
      .telemetry (report 1 2 "amy-b" 30) (billsTo "amy-b" 1)]

/-- The first server is removed, and the second one goes on. -/
def removal : Event ℕ :=
  .remove 0 (fun _ _ => 2) 3

def nextReport : Event ℕ :=
  .telemetry (report 1 4 "amy-b" 50) (billsTo "amy-b" 1)

/-- Every row is of one user. -/
def Only (s : Charging ℕ) (username : String) : Prop :=
  (∀ ledger ∈ s.accounting.ledgers, ledger.username = username) ∧ (∀ row ∈ s.archived, row.username = username) ∧
    ∀ credential ∈ s.credentials, credential.username = username

instance (s : Charging ℕ) (username : String) : Decidable (s.Only username) :=
  inferInstanceAs (Decidable (_ ∧ _ ∧ _))

theorem Only.fits (username : String) (only : s.Only username)
    (within : exact.Within (s.subscriptionUserWeightedTraffic username)) :
    s.Fits exact := by
  intro other
  by_cases named : other = username
  · rw [named]
    exact within
  · have ledgers : s.ledgersOf other = [] :=
      filter_eq_nil_iff.mpr fun ledger here => by simpa [only.1 ledger here] using Ne.symm named
    have rows : s.archivedUserTraffic other = [] :=
      filter_eq_nil_iff.mpr fun row here => by simpa [only.2.1 row here] using Ne.symm named
    have credentials : s.credentialsOf other = [] :=
      filter_eq_nil_iff.mpr fun row here => by simpa [only.2.2 row here] using Ne.symm named
    simp only [subscriptionUserWeightedTraffic, subscriptionLatestUserWeightedTraffic, ledgers, rows, credentials,
      map_nil, sum_nil, if_true]
    exact ⟨Nat.zero_le _, Nat.zero_le _⟩

/-- Whole units, as doubles hold them. -/
def units : ExactAmounts ℕ :=
  .whole (2 ^ 53)

/-- After the removal the user is charged what the second server adds. -/
theorem charges_kept_reportedTwice :
    let here := (reportedTwice.inAmounts units).run [removal.inAmounts units]
    here.userTotals "amy" = ((130, 0), (260, 0)) ∧
      (here.step (nextReport.inAmounts units)).userTotals "amy" = ((150, 0), (300, 0)) := by
  obtain ⟨before, after, _⟩ := charges_kept units reportedTwice (by decide +kernel) "amy" [removal, nextReport]
    ⟨Or.inl (ne_nil_of_length_pos (by decide +kernel)), Or.inl (ne_nil_of_length_pos (by decide +kernel)),
      Or.inl (ne_nil_of_length_pos (by decide +kernel))⟩
    ⟨Only.fits "amy" (by decide +kernel) (by decide +kernel),
      Only.fits "amy" (by decide +kernel) (by decide +kernel),
      Only.fits "amy" (by decide +kernel) (by decide +kernel)⟩ [removal] nextReport (prefix_refl _)
  exact ⟨before.trans (by decide +kernel), after.trans (by decide +kernel)⟩

/-- The second server reported the email before the user was given it, so that
no ledger holds that traffic. -/
def reportedEarly : Charging ℕ :=
  (subscribed [credentialOn 0 "amy-a"]).run
    [.telemetry (report 1 1 "amy-b" 500) (fun _ => none),
      .assign [credentialOn 0 "amy-a", credentialOn 1 "amy-b"] (fun _ _ => 2),
      .telemetry (report 0 2 "amy-a" 100) (billsTo "amy-a" 0)]

/-- With the last ledger of the user goes the charge read from ledgers: the
latest telemetry takes its place, and the removal charges 400 bytes more. -/
theorem charges_changed :
    reportedEarly.userTotals "amy" = ((100, 0), (200, 0)) ∧
      (reportedEarly.step removal).userTotals "amy" = ((500, 0), (1000, 0)) :=
  ⟨by decide +kernel, by decide +kernel⟩

end Examples

end Charging

end OpenNode
