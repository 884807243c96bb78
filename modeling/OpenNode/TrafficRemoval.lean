import OpenNode.LedgerTotals

namespace OpenNode.Charging

open List

variable {W : Type} [AddCommMonoid W] {s : Charging W} {username : String}

/-- What the archived rows of a user add up to. -/
def archivedTotals (s : Charging W) (username : String) : UserTotals W :=
  ((s.archivedUserTraffic username).map ArchivedTraffic.totals).sum

/-- The totals of a user are recorded when they are read from ledgers, or when
the latest telemetry shows no traffic under an email of the user. -/
def Recorded (s : Charging W) (username : String) : Prop :=
  s.ledgersOf username ≠ [] ∨
    ∀ credential ∈ s.credentialsOf username, ∀ email ∈ credential.emails, ∀ server item,
      s.latestItem server email = some item → item = {}

section Totals

theorem sum_pairs {α A B : Type*} [AddCommMonoid A] [AddCommMonoid B] (rows : List α) (f : α → A × B) :
    (rows.map f).sum = ((rows.map fun row => (f row).1).sum, (rows.map fun row => (f row).2).sum) := by
  induction rows with
  | nil => rfl
  | cons row rows ih => rw [map_cons, sum_cons, ih]; rfl

omit [AddCommMonoid W] in
theorem subscriptionLatestUserTraffic_eq_zero
    (quiet : ∀ credential ∈ s.credentialsOf username, ∀ email ∈ credential.emails, ∀ server item,
      s.latestItem server email = some item → item = {}) :
    s.subscriptionLatestUserTraffic username = 0 := by
  refine sum_eq_zero fun counts member => ?_
  obtain ⟨server, _, member⟩ := List.mem_flatMap.mp member
  obtain ⟨email, listed, rfl⟩ := List.mem_map.mp member
  obtain ⟨credential, own, listed⟩ := List.mem_flatMap.mp (List.mem_dedup.mp listed)
  cases item : s.latestItem server.id email with
  | none => rfl
  | some item =>
    rw [quiet credential own email listed server.id _ item]
    rfl

theorem subscriptionLatestUserWeightedTraffic_eq_zero
    (quiet : ∀ credential ∈ s.credentialsOf username, ∀ email ∈ credential.emails, ∀ server item,
      s.latestItem server email = some item → item = {}) :
    s.subscriptionLatestUserWeightedTraffic username = 0 := by
  refine sum_eq_zero fun counts member => ?_
  obtain ⟨credential, own, rfl⟩ := List.mem_map.mp member
  have empty : (credential.emails.findSome? (s.latestItem credential.serverId)).getD {} = {} := by
    cases found : credential.emails.findSome? (s.latestItem credential.serverId) with
    | none => rfl
    | some item =>
      obtain ⟨email, listed, shown⟩ := exists_of_findSome?_eq_some found
      exact quiet credential own email listed credential.serverId item shown
  dsimp only
  rw [empty, zero_nsmul]
  rfl

theorem Recorded.totals (recorded : s.Recorded username) :
    s.userTotals username = ledgerTotals s.accounting.ledgers username + s.archivedTotals username := by
  unfold userTotals subscriptionUserTraffic subscriptionUserWeightedTraffic archivedTotals
  rw [sum_pairs (s.archivedUserTraffic username) ArchivedTraffic.totals]
  change _ = ((s.ledgersOf username).map Ledger.totals).sum + _
  rw [sum_pairs (s.ledgersOf username) Ledger.totals]
  by_cases none : s.ledgersOf username = []
  · have quiet := recorded.resolve_left fun some => some none
    rw [if_pos none, if_pos none, subscriptionLatestUserTraffic_eq_zero quiet,
      subscriptionLatestUserWeightedTraffic_eq_zero quiet, none]
    rfl
  · rw [if_neg none, if_neg none]
    rfl

end Totals

section Removal

variable [PartialOrder W] [CanonicallyOrderedAdd W] [IsOrderedAddMonoid W] [Sub W] [OrderedSub W]
  {server : ServerName} {weight : String → NodeId → W} {now : Time}

omit [PartialOrder W] [CanonicallyOrderedAdd W] [IsOrderedAddMonoid W] [OrderedSub W] in
theorem remove_archivedTotals (s : Charging W) (server : ServerName) (weight : String → NodeId → W) (now : Time) :
    (s.remove server weight now).archivedTotals username = s.archivedTotals username +
        if username ∈ s.usersOn server.id then
          s.userTotals username - (s.dropServer server.id weight).userTotals username
        else 0 := by
  unfold archivedTotals archivedUserTraffic remove
  dsimp only
  rw [filter_append, map_append, sum_append]
  congr 1
  rw [filter_map]
  change (((s.usersOn server.id).filter (· == username)).map _ |>.map _).sum = _
  rw [filter_beq]
  split
  · rename_i own
    have once : (s.usersOn server.id).Nodup := nodup_dedup _
    rw [count_eq_one_of_mem once own]
    exact sum_singleton
  · rename_i foreign
    rw [count_eq_zero_of_not_mem foreign]
    rfl

omit [AddCommMonoid W] [PartialOrder W] [CanonicallyOrderedAdd W] [IsOrderedAddMonoid W] [Sub W] [OrderedSub W] in
theorem usersOn_of_ledger {ledger : Ledger W} {server : ServerId} (here : ledger ∈ s.accounting.ledgers)
    (on : ledger.serverId = server) : ledger.username ∈ s.usersOn server := by
  refine List.mem_dedup.mpr (mem_append_right _ (List.mem_map.mpr ⟨ledger, ?_, rfl⟩))
  exact List.mem_filter.mpr ⟨here, by simpa using on⟩

theorem remove_totals (recorded : s.Recorded username) (after : (s.remove server weight now).Recorded username) :
    (s.remove server weight now).userTotals username = s.userTotals username := by
  have dropped : (s.dropServer server.id weight).Recorded username := after
  have ledgers : (s.remove server weight now).accounting.ledgers =
      s.accounting.ledgers.filter (·.serverId != server.id) := rfl
  have kept : (s.dropServer server.id weight).userTotals username =
      ledgerTotals (s.accounting.ledgers.filter (·.serverId != server.id)) username + s.archivedTotals username :=
    dropped.totals
  rw [after.totals, remove_archivedTotals, kept, recorded.totals, ledgers]
  split
  · -- The ledgers that stay are some of those that were there.
    have fewer : ledgerTotals (s.accounting.ledgers.filter (·.serverId != server.id)) username ≤
        ledgerTotals s.accounting.ledgers username := by
      unfold ledgerTotals
      exact ((List.filter_sublist.filter _).map _).sum_le_sum fun _ _ => zero_le
    rw [← add_assoc]
    exact add_tsub_cancel_of_le (add_le_add_left fewer _)
  · rename_i foreign
    rw [add_zero]
    congr 1
    unfold ledgerTotals
    rw [filter_filter]
    congr 2
    refine filter_congr fun ledger here => ?_
    by_cases own : ledger.username = username
    · have elsewhere : ledger.serverId ≠ server.id := fun on => foreign (own ▸ usersOn_of_ledger here on)
      simp [own, elsewhere]
    · simp [own]

end Removal

section Reset

theorem resetTraffic_totals (distinct : (s.accounting.ledgers.map Ledger.key).Nodup) (now : Time) :
    (s.resetTraffic username now).userTotals username = 0 := by
  have archived : (s.resetTraffic username now).archivedTotals username = 0 := by
    refine sum_eq_zero fun totals member => ?_
    obtain ⟨row, here, rfl⟩ := List.mem_map.mp member
    obtain ⟨here, own⟩ := List.mem_filter.mp here
    obtain ⟨old, _, rfl⟩ := List.mem_map.mp here
    split
    · rfl
    · rename_i other
      rw [if_neg other] at own
      exact absurd (by simpa using own) other
  have recorded : (s.resetTraffic username now).Recorded username := by
    by_cases none : s.credentialsOf username = []
    · refine Or.inr fun credential own => ?_
      change credential ∈ s.credentialsOf username at own
      rw [none] at own
      exact absurd own not_mem_nil
    · obtain ⟨ledger, here, own⟩ := resetTraffic_opened (s := s.accounting) distinct
        (fun nothing => none (List.map_eq_nil_iff.mp nothing)) now
      exact Or.inl (ne_nil_of_mem (List.mem_filter.mpr ⟨here, by simpa using own⟩))
  rw [recorded.totals, archived, add_zero]
  exact ((resetTraffic_cleared distinct _ now).totals username).trans (if_pos rfl)

theorem resetTraffic_totals_other (distinct : (s.accounting.ledgers.map Ledger.key).Nodup) {other : String}
    (differs : username ≠ other) (now : Time) :
    (s.resetTraffic other now).userTotals username = s.userTotals username := by
  have ledgers : (s.resetTraffic other now).ledgersOf username = s.ledgersOf username :=
    (resetTraffic_cleared distinct _ now).others username differs
  have archived : (s.resetTraffic other now).archivedUserTraffic username = s.archivedUserTraffic username := by
    have owner : ∀ row : ArchivedTraffic W,
        (if row.username = other then row.reset now else row).username = row.username := by
      intro row
      split <;> rfl
    unfold archivedUserTraffic resetTraffic
    rw [filter_map, map_congr_left (g := id), map_id]
    · refine filter_congr fun row _ => ?_
      simp only [Function.comp_apply, owner]
    · intro row member
      have mine := of_mem_filter member
      simp only [Function.comp_apply, owner, beq_iff_eq] at mine
      exact if_neg fun theirs => differs (mine.symm.trans theirs)
  unfold userTotals subscriptionUserTraffic subscriptionUserWeightedTraffic
  rw [ledgers, archived]
  rfl

end Reset

section Charges

/-- The totals of a user after an event, by the readings of all emails so far. -/
def charged (s : Charging W) (last : LedgerKey → Option Reading) (username : String) : Event W → UserTotals W
  | .telemetry snapshot attribution =>
    if s.servers.any (·.id == snapshot.serverId) then
      s.userTotals username + reportIncrease last username snapshot attribution
    else s.userTotals username
  | .reset name _ => if name = username then 0 else s.userTotals username
  | .remove .. => s.userTotals username
  | .assign .. => s.userTotals username

/-- The readings after an event. No removal forgets one. -/
def read (s : Charging W) (last : LedgerKey → Option Reading) : Event W → LedgerKey → Option Reading
  | .telemetry snapshot attribution => fun key =>
    if s.servers.any (·.id == snapshot.serverId) then
      match Accounting.observed key snapshot attribution with
      | none => last key
      | some (item, _) => some (Reading.next (last key) item snapshot.reportedAt)
    else last key
  | .reset username _ => fun key =>
    if username = key.username then
      match last key with
      | some reading =>
        match s.accounting.baseline key.serverId key.email with
        | none => some reading
        | some (item, reportedAt) => some (item, some reportedAt)
      | none =>
        let credentials := (s.credentialsOf username).map (·.toTrafficCredential)
        (s.accounting.opener key credentials).map fun credential => (s.accounting.credentialBaseline credential).2
    else last key
  | .remove .. => last
  | .assign .. => last

/-- The ledgers of the servers that are left show the readings of their emails. -/
structure Read (s : Charging W) (last : LedgerKey → Option Reading) : Prop where
  distinct : (s.accounting.ledgers.map Ledger.key).Nodup
  last : ∀ key, s.servers.any (·.id == key.serverId) = true → last key = readingsOf s.accounting.ledgers key

variable {last : LedgerKey → Option Reading}

theorem Read.telemetry (known : s.Read last) (snapshot : TelemetrySnapshot)
    (attribution : String → Option (Attribution W)) :
    (s.recordTelemetry snapshot attribution).Read (s.read last (.telemetry snapshot attribution)) := by
  unfold recordTelemetry read
  by_cases here : s.servers.any (·.id == snapshot.serverId) = true
  · simp only [here, if_true]
    refine ⟨recordLedger_nodup known.distinct snapshot attribution, fun key live => ?_⟩
    rw [readingsOf]
    change _ = ((s.accounting.recordTelemetry snapshot attribution).ledger? key).map Ledger.reading
    rw [Accounting.recordTelemetry_ledger?, known.last key live]
    cases Accounting.observed key snapshot attribution with
    | none => rfl
    | some seen => exact congrArg some (billedRow_reading ..).symm
  · simp only [here]
    exact known

theorem Read.reset (known : s.Read last) (username : String) (now : Time) :
    (s.resetTraffic username now).Read (s.read last (.reset username now)) := by
  refine ⟨(resetTraffic_cleared known.distinct _ now).distinct, fun key live => ?_⟩
  have reading := known.last key live
  rw [readingsOf]
  change _ = ((s.accounting.resetTraffic username _ now).ledger? key).map Ledger.reading
  rw [Accounting.resetTraffic_ledger?]
  simp only [read]
  split
  · rw [reading]
    unfold readingsOf
    change _ = Option.map _ (((findLedger key s.accounting.ledgers).map _).or _)
    cases findLedger key s.accounting.ledgers with
    | none =>
      rw [Option.map_none, Option.map_none, Option.none_or, Accounting.openedRow, Option.map_map]
      rfl
    | some ledger =>
      rw [Option.map_some, Option.map_some, Option.some_or, Option.map_some, Ledger.reset_reading]
      cases s.accounting.baseline key.serverId key.email <;> rfl
  · exact reading

theorem reportIncrease_congr {last' : LedgerKey → Option Reading} {snapshot : TelemetrySnapshot}
    (same : ∀ key : LedgerKey, key.serverId = snapshot.serverId → last key = last' key) (username : String)
    (attribution : String → Option (Attribution W)) :
    reportIncrease last username snapshot attribution = reportIncrease last' username snapshot attribution := by
  unfold reportIncrease entryIncrease
  simp only [same]

variable [Sub W]

def readAlong (s : Charging W) (last : LedgerKey → Option Reading) : List (Event W) → LedgerKey → Option Reading
  | [] => last
  | event :: rest => (s.step event).readAlong (s.read last event) rest

/-- A condition holds in every state of a run. -/
def Along (P : Charging W → Prop) (s : Charging W) : List (Event W) → Prop
  | [] => P s
  | event :: rest => P s ∧ (s.step event).Along P rest

theorem Read.remove (known : s.Read last) (server : ServerName) (weight : String → NodeId → W) (now : Time) :
    (s.remove server weight now).Read last := by
  refine ⟨known.distinct.sublist (List.filter_sublist.map _), fun key live => ?_⟩
  obtain ⟨other, here, same⟩ := List.any_eq_true.mp live
  obtain ⟨here, stays⟩ := List.mem_filter.mp here
  rw [beq_iff_eq] at same
  rw [same] at stays
  rw [known.last key (List.any_eq_true.mpr ⟨other, here, by simpa using same⟩)]
  unfold readingsOf
  congr 1
  change _ = List.find? _ (s.accounting.ledgers.filter (·.serverId != server.id))
  rw [List.find?_filter]
  refine congrArg (List.find? · s.accounting.ledgers) (funext fun ledger => ?_)
  by_cases mine : ledger.key = key
  · have on : ledger.serverId = key.serverId := congrArg LedgerKey.serverId mine
    simp [mine, on, stays]
  · simp [mine]

theorem Read.step (known : s.Read last) (event : Event W) : (s.step event).Read (s.read last event) := by
  cases event with
  | telemetry snapshot attribution => exact known.telemetry snapshot attribution
  | reset username now => exact known.reset username now
  | remove server weight now =>
    simp only [Charging.step]
    split
    · exact known
    · exact known.remove _ weight now
  | assign credentials weight => exact ⟨known.distinct, known.last⟩

end Charges

section Runs

variable [PartialOrder W] [CanonicallyOrderedAdd W] [IsOrderedAddMonoid W] [Sub W] [OrderedSub W]
  {last : LedgerKey → Option Reading}

variable {event : Event W}

theorem Read.charged (known : s.Read last) (before : s.Recorded username)
    (after : (s.step event).Recorded username) :
    (s.step event).userTotals username = s.charged last username event := by
  cases event with
  | telemetry snapshot attribution =>
    simp only [Charging.charged]
    simp only [Charging.step, recordTelemetry] at after ⊢
    split
    · rename_i here
      rw [if_pos here] at after
      have live : ∀ key : LedgerKey, key.serverId = snapshot.serverId →
          readingsOf s.accounting.ledgers key = last key := by
        intro key on
        exact (known.last key (on ▸ here)).symm
      rw [after.totals, before.totals, add_right_comm, ← reportIncrease_congr live,
        ← recordLedger_totals known.distinct]
      rfl
    · rfl
  | reset name now =>
    simp only [Charging.charged]
    by_cases mine : name = username
    · subst mine
      rw [if_pos rfl]
      exact resetTraffic_totals known.distinct now
    · rw [if_neg mine]
      exact resetTraffic_totals_other known.distinct (Ne.symm mine) now
  | remove server weight now =>
    simp only [Charging.charged]
    simp only [Charging.step] at after ⊢
    split at after
    · rfl
    · exact remove_totals before after
  | assign credentials weight => exact after.totals.trans before.totals.symm

omit [IsOrderedAddMonoid W] [Sub W] [OrderedSub W] in
theorem le_charged (s : Charging W) (last : LedgerKey → Option Reading)
    (other : ∀ now, event ≠ .reset username now) :
    s.userTotals username ≤ s.charged last username event := by
  cases event with
  | telemetry snapshot attribution =>
    simp only [Charging.charged]
    split
    · exact le_self_add
    · exact le_refl _
  | reset name now =>
    simp only [Charging.charged]
    split
    · rename_i mine
      exact absurd (mine ▸ rfl) (other now)
    · exact le_refl _
  | remove server weight now => exact le_refl _
  | assign credentials weight => exact le_refl _

omit [PartialOrder W] [CanonicallyOrderedAdd W] [IsOrderedAddMonoid W] [OrderedSub W] in
theorem Along.head {P : Charging W → Prop} : ∀ {events : List (Event W)} {s : Charging W}, s.Along P events → P s
  | [], _, holds => holds
  | _ :: _, _, holds => holds.1

/-- In every run whose states record the totals of a user, each event charges
the user what its report adds to the readings of its emails. A removal charges
nothing and forgets no reading, and only a reset takes something away. -/
theorem charges_along (s : Charging W) (distinct : (s.accounting.ledgers.map Ledger.key).Nodup)
    (events : List (Event W)) (recorded : s.Along (·.Recorded username) events) {before : List (Event W)}
    (run : before ++ [event] <+: events) :
    ((s.run before).step event).userTotals username =
        (s.run before).charged (s.readAlong (readingsOf s.accounting.ledgers) before) username event ∧
      ((∀ now, event ≠ .reset username now) →
        (s.run before).userTotals username ≤ ((s.run before).step event).userTotals username) := by
  have known : s.Read (readingsOf s.accounting.ledgers) := ⟨distinct, fun _ _ => rfl⟩
  generalize readingsOf s.accounting.ledgers = last at known ⊢
  induction before generalizing s last events with
  | nil =>
    cases events with
    | nil => exact absurd run (by simp)
    | cons first rest =>
      obtain ⟨rfl, _⟩ := List.cons_prefix_cons.mp run
      have same := known.charged recorded.1 recorded.2.head
      refine ⟨same, fun other => ?_⟩
      exact le_of_le_of_eq (s.le_charged last other) same.symm
  | cons first before ih =>
    cases events with
    | nil => exact absurd run (by simp)
    | cons head rest =>
      obtain ⟨rfl, later⟩ := List.cons_prefix_cons.mp run
      exact ih (s.step first) (known.step first).distinct rest recorded.2 later _ (known.step first)

end Runs

end OpenNode.Charging
