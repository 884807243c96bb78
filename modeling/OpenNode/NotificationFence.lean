import OpenNode.NotificationChats

namespace OpenNode.Notifications

open Edits List

variable {s t : Store} {now lease : Nat} {vault : Except NotificationError Unit} {host : Host}
variable {row : Delivery} {attempt : Attempt}

section Tracking

/-- The event of an expiry delivery is the one that its key was made of. -/
def Delivery.Keyed (row : Delivery) : Prop :=
  row.kind = .packageExpiry → ∃ username createdAt planId expiresAt,
    row.eventKey = .packageExpiry username createdAt planId expiresAt ∧ row.username = some username ∧
      row.userCreatedAt = some createdAt ∧ row.planId = some planId ∧ row.expiresAt = some expiresAt

theorem Delivery.Keyed.congr (keyed : row.Keyed) {other : Delivery} (same : other.identity = row.identity) :
    other.Keyed := by
  obtain ⟨_, kind, key, username, createdAt, plan, expires⟩ : other.id = row.id ∧ other.kind = row.kind ∧
      other.eventKey = row.eventKey ∧ other.username = row.username ∧ other.userCreatedAt = row.userCreatedAt ∧
      other.planId = row.planId ∧ other.expiresAt = row.expiresAt := by
    simpa [Delivery.identity] using same
  unfold Delivery.Keyed
  rw [kind, key, username, createdAt, plan, expires]
  exact keyed

/-- The invariant of the deliveries and their attempts. -/
structure Store.Tracked (s : Store) : Prop where
  ids : (s.deliveries.map Delivery.id).Nodup
  keys : (s.deliveries.map Delivery.eventKey).Nodup
  attemptIds : (s.attempts.map Attempt.id).Nodup
  serial : ∀ row ∈ s.deliveries, row.id < s.serial
  attempts : ∀ attempt ∈ s.attempts, attempt.Sound ∧ attempt.id < s.serial ∧ attempt.deliveryId < s.serial
  deliveries : ∀ row ∈ s.deliveries, row.Sound s.attempts s.requests
  keyed : ∀ row ∈ s.deliveries, row.Keyed

variable {change : Delivery → Delivery}

theorem Store.Tracked.update (tracked : s.Tracked) {selects : Delivery → Bool}
    (deliveries : t.deliveries = Rows.update selects change s.deliveries)
    (identity : ∀ row, (change row).identity = row.identity) (later : s.serial ≤ t.serial)
    (distinct : (t.attempts.map Attempt.id).Nodup)
    (attempts : ∀ attempt ∈ t.attempts, attempt.Sound ∧ attempt.id < t.serial ∧ attempt.deliveryId < t.serial)
    (sound : ∀ row ∈ s.deliveries, (if selects row then change row else row).Sound t.attempts t.requests) :
    t.Tracked where
  ids := by
    have keeps (row : Delivery) : (change row).id = row.id := congrArg Prod.fst (identity row)
    rw [deliveries, Rows.keys_update keeps]
    exact tracked.ids
  keys := by
    have keeps (row : Delivery) : (change row).eventKey = row.eventKey :=
      congrArg (fun identity => identity.2.2.1) (identity row)
    rw [deliveries, Rows.keys_update keeps]
    exact tracked.keys
  attemptIds := distinct
  serial row here := by
    obtain ⟨old, before, ⟨_, rfl⟩ | ⟨_, rfl⟩⟩ := Rows.mem_update (deliveries ▸ here)
    · rw [show (change old).id = old.id from congrArg Prod.fst (identity old)]
      exact Nat.lt_of_lt_of_le (tracked.serial old before) later
    · exact Nat.lt_of_lt_of_le (tracked.serial row before) later
  attempts := attempts
  deliveries row here := by
    obtain ⟨old, before, ⟨selected, rfl⟩ | ⟨other, rfl⟩⟩ := Rows.mem_update (deliveries ▸ here)
    · have := sound old before
      rwa [if_pos selected] at this
    · have := sound row before
      rwa [if_neg (by simp [other])] at this
  keyed row here := by
    obtain ⟨old, before, ⟨_, rfl⟩ | ⟨_, rfl⟩⟩ := Rows.mem_update (deliveries ▸ here)
    · exact (tracked.keyed old before).congr (identity old)
    · exact tracked.keyed row before

theorem Store.Tracked.set (tracked : s.Tracked) {id : Nat} (identity : ∀ row, (change row).identity = row.identity)
    (sound : ∀ row ∈ s.deliveries, row.id = id → (change row).Sound s.attempts s.requests) :
    (s.set id change).Tracked :=
  tracked.update rfl identity (Nat.le_refl _) tracked.attemptIds tracked.attempts fun row here => by
    split
    · rename_i selected
      exact sound row here (beq_iff_eq.mp selected)
    · exact tracked.deliveries row here

theorem Store.Tracked.insert (tracked : s.Tracked) (done : s.insert row = .ok t) (id : row.id = s.serial)
    (waits : row.state = .queued) (first : row.lastAttemptId = none) (zero : row.attemptCount = 0)
    (generation : row.generation = 0) (keyed : row.Keyed) : t.Tracked ∧ t.attempts = s.attempts ∧
      t.chats = s.chats ∧ s.serial ≤ t.serial ∧ t.deliveries = s.deliveries ++ [row] := by
  rw [Store.insert] at done
  split at done
  · exact (nomatch done)
  · rename_i fresh
    cases done
    refine ⟨?_, rfl, rfl, Nat.le_succ _, rfl⟩
    exact {
      ids := by
        rw [map_append, map_singleton, nodup_append]
        refine ⟨tracked.ids, nodup_singleton _, fun earlier listed last new => ?_⟩
        obtain ⟨other, here, rfl⟩ := List.mem_map.mp listed
        rw [List.mem_singleton.mp new, id]
        exact Nat.ne_of_lt (tracked.serial other here)
      keys := by
        rw [map_append, map_singleton, nodup_append]
        refine ⟨tracked.keys, nodup_singleton _, fun earlier listed last new same => fresh ?_⟩
        rw [← List.mem_singleton.mp new, ← same]
        exact listed
      attemptIds := tracked.attemptIds
      serial := fun other here => by
        rcases List.mem_append.mp here with old | new
        · exact Nat.lt_succ_of_lt (tracked.serial other old)
        · rw [List.mem_singleton.mp new, id]
          exact Nat.lt_succ_self _
      attempts := fun attempt here => by
        obtain ⟨sound, own, delivery⟩ := tracked.attempts attempt here
        exact ⟨sound, Nat.lt_succ_of_lt own, Nat.lt_succ_of_lt delivery⟩
      deliveries := fun other here => by
        rcases List.mem_append.mp here with old | new
        · exact tracked.deliveries other old
        · rw [List.mem_singleton.mp new]
          refine .inserted waits first zero generation fun attempt listed => ?_
          rw [id]
          exact Nat.ne_of_lt (tracked.attempts attempt listed).2.2
      keyed := fun other here => by
        rcases List.mem_append.mp here with old | new
        · exact tracked.keyed other old
        · rwa [List.mem_singleton.mp new] }

theorem Store.Tracked.request (tracked : s.Tracked) (request : Request) :
    ({ s with requests := s.requests ++ [request] } : Store).Tracked :=
  { tracked with deliveries := fun row here => (tracked.deliveries row here).more request }

end Tracking

section Operations

theorem retarget_sound {settings : Settings} {attempts : List Attempt} {requests : List Request}
    (waits : row.state = .queued)
    (sound : row.Sound attempts requests) : (row.retarget now settings).Sound attempts requests := by
  unfold Delivery.retarget
  dsimp only
  split
  · exact sound.adjust rfl rfl rfl rfl rfl (.inr (.inl ⟨waits, rfl⟩))
  · split
    · exact sound.adjust rfl rfl rfl rfl rfl (.inr (.inl ⟨waits, rfl⟩))
    · exact sound.adjust rfl rfl rfl rfl rfl (.inl rfl)

theorem retarget_identity (now : Nat) (settings : Settings) (row : Delivery) :
    (row.retarget now settings).identity = row.identity := by
  unfold Delivery.retarget
  dsimp only
  split
  · rfl
  · split <;> rfl

/-- What an operation that touches no attempt leaves behind. -/
structure Untouched (s t : Store) : Prop where
  tracked : t.Tracked
  attempts : t.attempts = s.attempts
  chats : t.chats = s.chats
  serial : s.serial ≤ t.serial

section

variable (tracked : s.Tracked)
include tracked

theorem updateSettings_untouched {payload : SettingsUpdate}
    (done : updateSettings s now vault payload = .ok t) : Untouched s t := by
  rw [updateSettings] at done
  obtain ⟨_, _, done⟩ := bind_eq_ok done
  obtain ⟨token, _, done⟩ := bind_eq_ok done
  obtain ⟨_, _, done⟩ := bind_eq_ok done
  obtain ⟨_, _, done⟩ := bind_eq_ok done
  cases done
  refine ⟨tracked.update rfl (retarget_identity now _) (Nat.le_refl _) tracked.attemptIds tracked.attempts fun row
    here => ?_, rfl, rfl, Nat.le_refl _⟩
  by_cases waits : (row.state == .queued) = true
  · rw [if_pos waits]
    exact retarget_sound (beq_iff_eq.mp waits) (tracked.deliveries row here)
  · rw [if_neg waits]
    exact tracked.deliveries row here

theorem enqueueTest_untouched {revision : Nat} {requestId : String}
    (done : enqueueTest s now vault revision requestId = .ok t) : Untouched s t := by
  rw [enqueueTest] at done
  obtain ⟨existing, _, done⟩ := bind_eq_ok done
  cases existing with
  | true =>
    cases done
    exact ⟨tracked, rfl, rfl, Nat.le_refl _⟩
  | false =>
    rw [if_neg Bool.false_ne_true] at done
    obtain ⟨_, _, done⟩ := bind_eq_ok done
    obtain ⟨_, _, done⟩ := bind_eq_ok done
    obtain ⟨_, _, done⟩ := bind_eq_ok done
    obtain ⟨u, inserted, done⟩ := bind_eq_ok done
    cases done
    obtain ⟨tracked, attempts, chats, serial, _⟩ := tracked.insert inserted rfl rfl rfl rfl rfl fun kind =>
      nomatch kind
    exact ⟨tracked.request _, attempts, chats, serial⟩

theorem scanOne_untouched {entry : ProductUser × Candidate} (done : scanOne now s entry = .ok t) :
    Untouched s t := by
  unfold scanOne at done
  dsimp only at done
  split at done
  · rename_i row found
    have here := mem_of_find?_eq_some found
    split at done
    · rename_i again
      cases done
      refine ⟨tracked.set (fun _ => rfl) fun other there same => ?_, rfl, rfl, Nat.le_refl _⟩
      obtain rfl := Rows.unique tracked.ids there here same
      exact (tracked.deliveries other here).adjust rfl rfl rfl rfl rfl (.inr (.inr ⟨again.1, rfl, again.2.1⟩))
    · cases done
      exact ⟨tracked, rfl, rfl, Nat.le_refl _⟩
  · obtain ⟨tracked, attempts, chats, serial, _⟩ :=
      tracked.insert done rfl rfl rfl rfl rfl fun _ => ⟨_, _, _, _, rfl, rfl, rfl, rfl, rfl⟩
    exact ⟨tracked, attempts, chats, serial⟩

theorem scanEntries_untouched {entries : List (ProductUser × Candidate)}
    (done : entries.foldlM (scanOne now) s = .ok t) : Untouched s t := by
  induction entries generalizing s with
  | nil =>
    cases done
    exact ⟨tracked, rfl, rfl, Nat.le_refl _⟩
  | cons entry entries ih =>
    rw [foldlM_cons] at done
    obtain ⟨u, one, done⟩ := bind_eq_ok done
    have first := scanOne_untouched tracked one
    have rest := ih first.tracked done
    exact ⟨rest.tracked, rest.attempts.trans first.attempts, rest.chats.trans first.chats,
      Nat.le_trans first.serial rest.serial⟩

theorem scan_untouched (done : scan host s now vault = .ok t) : Untouched s t := by
  rw [scan] at done
  split at done
  · cases done
    exact ⟨tracked, rfl, rfl, Nat.le_refl _⟩
  · obtain ⟨_, _, done⟩ := bind_eq_ok done
    obtain ⟨_, _, done⟩ := bind_eq_ok done
    exact scanEntries_untouched tracked done

theorem recover_tracked (now : Nat) : (recover s now).Tracked := by
  have keeps (attempt : Attempt) : (attempt.recover now).id = attempt.id := rfl
  refine tracked.update rfl (fun _ => rfl) (Nat.le_refl _) ?_ (fun attempt here => ?_) fun row here =>
    (tracked.deliveries row here).recovered tracked.attemptIds
  · simp only [recover]
    rw [Rows.keys_update keeps]
    exact tracked.attemptIds
  · obtain ⟨old, before, ⟨_, rfl⟩ | ⟨_, rfl⟩⟩ := Rows.mem_update here
    · exact ⟨.recover old, (tracked.attempts old before).2⟩
    · exact tracked.attempts attempt before

theorem handOut_tracked (here : row ∈ s.deliveries) (queued : row.state = .queued) (message : String)
    (planName : Option String) : (handOut now s row message planName lease).1.Tracked := by
  have fresh : ∀ attempt ∈ s.attempts, attempt.id ≠ s.serial := fun attempt listed =>
    Nat.ne_of_lt (tracked.attempts attempt listed).2.1
  refine tracked.update rfl (fun _ => rfl) (Nat.le_succ _) ?_ (fun attempt listed => ?_) fun other there => ?_
  · simp only [handOut]
    rw [map_append, map_singleton, nodup_append]
    refine ⟨tracked.attemptIds, nodup_singleton _, fun earlier listed last new => ?_⟩
    obtain ⟨attempt, before, rfl⟩ := List.mem_map.mp listed
    rw [List.mem_singleton.mp new]
    exact fresh attempt before
  · rcases List.mem_append.mp listed with old | new
    · obtain ⟨sound, own, delivery⟩ := tracked.attempts attempt old
      exact ⟨sound, Nat.lt_succ_of_lt own, Nat.lt_succ_of_lt delivery⟩
    · obtain rfl := List.mem_singleton.mp new
      exact ⟨⟨fun _ => rfl, fun final => by rcases final with final | final <;> exact (nomatch final)⟩,
        Nat.lt_succ_self _,
        Nat.lt_succ_of_lt (tracked.serial row here)⟩
  · split
    · rename_i selected
      obtain rfl := Rows.unique tracked.ids there here (beq_iff_eq.mp selected)
      exact (tracked.deliveries other here).handedOut fresh rfl rfl rfl queued rfl rfl rfl rfl rfl rfl
    · rename_i elsewhere
      exact (tracked.deliveries other there).another fresh (fun same => elsewhere (by simp [same.symm])) rfl

end

/-- What the loop of a claim ends with: rows that were passed over, and at most
one row that an attempt is handed out for. -/
structure Passed (s mid : Store) : Prop where
  tracked : mid.Tracked
  attempts : mid.attempts = s.attempts
  requests : mid.requests = s.requests
  chats : mid.chats = s.chats
  settings : mid.settings = s.settings
  serial : mid.serial = s.serial

/-- The row of a claim and what was handed out for it. -/
def HandedOut (now lease : Nat) (rows : List Delivery) (s mid t : Store) (claimed : Option Claimed) : Prop :=
  (claimed = none ∧ t = mid) ∨ ∃ row ∈ rows, row ∈ mid.deliveries ∧ row.acceptedOnce = false ∧
    Chat.blocked now (s.chats s.settings.chatId) = false ∧ ∃ message planName given,
      handOut now mid row message planName lease = (t, given) ∧ claimed = some given

variable {rows : List Delivery}

theorem Passed.skip (tracked : s.Tracked) (here : row ∈ s.deliveries)
    (listed : ∀ other ∈ rows, other ∈ s.deliveries ∧ other.state = .queued) (apart : row.id ∉ rows.map Delivery.id)
    {change : Delivery → Delivery} (identity : ∀ row, (change row).identity = row.identity)
    (sound : (change row).Sound s.attempts s.requests) :
    Passed s (s.set row.id change) ∧ ∀ other ∈ rows, other ∈ (s.set row.id change).deliveries ∧
      other.state = .queued := by
  refine ⟨⟨tracked.set identity fun other there same => ?_, rfl, rfl, rfl, rfl, rfl⟩, fun other there => ?_⟩
  · obtain rfl := Rows.unique tracked.ids there here same
    exact sound
  · obtain ⟨member, queued⟩ := listed other there
    refine ⟨Rows.update_other member ?_, queued⟩
    rw [beq_eq_false_iff_ne]
    intro same
    exact apart (same ▸ mem_map_of_mem there)

variable {claimed : Option Claimed}

theorem claimRows_passed (tracked : s.Tracked) (listed : ∀ row ∈ rows, row ∈ s.deliveries ∧ row.state = .queued)
    (distinct : (rows.map Delivery.id).Nodup) (done : claimRows host now vault lease rows s = .ok (t, claimed)) :
    ∃ mid, Passed s mid ∧ HandedOut now lease rows s mid t claimed := by
  induction rows generalizing s with
  | nil =>
    obtain ⟨rfl, rfl⟩ := Prod.mk.inj (Except.ok.inj done)
    exact ⟨s, ⟨tracked, rfl, rfl, rfl, rfl, rfl⟩, .inl ⟨rfl, rfl⟩⟩
  | cons row rows ih =>
    obtain ⟨apart, distinct⟩ := List.nodup_cons.mp distinct
    obtain ⟨here, queued⟩ := listed row mem_cons_self
    have later (other : Delivery) (there : other ∈ rows) := listed other (mem_cons_of_mem _ there)
    have sound := tracked.deliveries row here
    have goOn {change : Delivery → Delivery}
        (done : claimRows host now vault lease rows (s.set row.id change) = .ok (t, claimed))
        (identity : ∀ row, (change row).identity = row.identity)
          (sound : (change row).Sound s.attempts s.requests) :
        ∃ mid, Passed s mid ∧ HandedOut now lease (row :: rows) s mid t claimed := by
      obtain ⟨passed, still⟩ := Passed.skip tracked here later apart identity sound
      obtain ⟨mid, rest, handed⟩ := ih passed.tracked still distinct done
      refine ⟨mid, ⟨rest.tracked, rest.attempts, rest.requests, rest.chats, rest.settings, rest.serial⟩, ?_⟩
      rcases handed with none | ⟨next, there, handed⟩
      · exact .inl none
      · exact .inr ⟨next, mem_cons_of_mem _ there, handed⟩
    have cancelled (code : String) : (row.cancel code now).Sound s.attempts s.requests :=
      sound.adjust rfl rfl rfl rfl rfl (.inr (.inl ⟨queued, rfl⟩))
    rw [claimRows] at done
    split at done
    · exact goOn done (fun _ => rfl) (cancelled _)
    · rename_i unaccepted
      split at done
      · exact goOn done (fun _ => rfl) (cancelled _)
      · split at done
        · exact goOn done (fun _ => rfl) (cancelled _)
        · rename_i message planName _
          obtain ⟨_, _, done⟩ := bind_eq_ok done
          obtain ⟨_, _, done⟩ := bind_eq_ok done
          split at done
          · refine goOn done (fun _ => rfl) ?_
            exact sound.adjust rfl rfl rfl rfl rfl (.inl rfl)
          · rename_i free
            cases done
            exact ⟨s, ⟨tracked, rfl, rfl, rfl, rfl, rfl⟩, .inr ⟨row, mem_cons_self, here, by simpa using unaccepted,
              by simpa using free, message, planName, _, rfl, rfl⟩⟩

theorem recover_queued (here : row ∈ (recover s now).deliveries) (queued : row.state = .queued) :
    row ∈ s.deliveries := by
  obtain ⟨old, before, ⟨_, rfl⟩ | ⟨_, rfl⟩⟩ := Rows.mem_update here
  · exact (nomatch queued)
  · exact before

theorem claim_passed (tracked : s.Tracked) (done : claim host s now vault lease = .ok (t, claimed)) :
    ∃ mid rows, Passed (recover s now) mid ∧ HandedOut now lease rows (recover s now) mid t claimed ∧
      ∀ row ∈ rows, row ∈ s.deliveries ∧ row.state = .queued := by
  rw [claim] at done
  obtain ⟨_, _, done⟩ := bind_eq_ok done
  have recovered := recover_tracked tracked now
  have listed : ∀ row ∈ ((recover s now).deliveries.filter (Delivery.due now)).mergeSort (oldest host),
      row ∈ (recover s now).deliveries ∧ row.state = .queued := by
    intro row here
    obtain ⟨member, due⟩ := List.mem_filter.mp ((mergeSort_perm _ _).mem_iff.mp here)
    simp only [Delivery.due, Bool.and_eq_true, beq_iff_eq] at due
    exact ⟨member, due.1⟩
  have distinct : ((((recover s now).deliveries.filter (Delivery.due now)).mergeSort (oldest host)).map
      Delivery.id).Nodup := by
    refine (((mergeSort_perm _ _).map Delivery.id).nodup_iff).mpr ?_
    exact recovered.ids.sublist (List.filter_sublist.map Delivery.id)
  obtain ⟨mid, passed, handed⟩ := claimRows_passed recovered listed distinct done
  exact ⟨mid, _, passed, handed, fun row here => ⟨recover_queued (listed row here).1 (listed row here).2,
    (listed row here).2⟩⟩

variable {id : Nat}

theorem attempt?_some (found : s.attempt? id = some attempt) : attempt ∈ s.attempts ∧ attempt.id = id :=
  ⟨mem_of_find?_eq_some found, by simpa using List.find?_some found⟩

theorem row_ok (found : s.row id = .ok row) : row ∈ s.deliveries ∧ row.id = id := by
  rw [Store.row] at found
  split at found
  · rename_i other listed
    cases found
    exact ⟨mem_of_find?_eq_some listed, by simpa using List.find?_some listed⟩
  · exact (nomatch found)

/-- The store after a receipt that was not settled. -/
def received (host : Host) (s : Store) (now : Nat) (attempt : Attempt) (receipt : Receipt) : Store :=
  let chat := (s.chats attempt.chatId).map (Chat.finish now receipt attempt)
  { s.set attempt.deliveryId (Delivery.finish host s now chat receipt attempt) with
    attempts := Rows.update (fun other => other.id == attempt.id) (Attempt.finish now receipt) s.attempts
    chats := Function.update s.chats attempt.chatId chat }

variable {attemptId : Nat}

theorem finish_ok {deliveryId : Nat} {outcome : Outcome}
    (done : finish host s now deliveryId attemptId outcome = .ok t) :
    ∃ attempt, s.attempt? attemptId = some attempt ∧ attempt.deliveryId = deliveryId ∧
      ((attempt.settled = true ∧ t = s) ∨
        (attempt.settled = false ∧ t = received host s now attempt outcome.receipt)) := by
  rw [finish] at done
  split at done
  · exact (nomatch done)
  · rename_i attempt found
    refine ⟨attempt, found, ?_⟩
    obtain ⟨_, belongs, done⟩ := bind_eq_ok done
    obtain ⟨row, at_row, done⟩ := bind_eq_ok done
    have own := require_ok belongs
    refine ⟨own, ?_⟩
    split at done
    · rename_i settled
      exact .inl ⟨settled, (Except.ok.inj done).symm⟩
    · rename_i unsettled
      refine .inr ⟨by simpa using unsettled, ?_⟩
      rw [← Except.ok.inj done, (row_ok at_row).2, ← own]
      rfl

theorem received_tracked (tracked : s.Tracked) (found : s.attempt? attemptId = some attempt)
    (unsettled : attempt.settled = false) (outcome : Outcome) :
    (received host s now attempt outcome.receipt).Tracked := by
  obtain ⟨here, _⟩ := attempt?_some found
  have keeps (attempt : Attempt) : (attempt.finish now outcome.receipt).id = attempt.id := rfl
  refine tracked.update rfl (fun row => (finish_finished host s now _ outcome.receipt attempt row).identity)
    (Nat.le_refl _) ?_
    (fun next listed => ?_) fun row there => ?_
  · simp only [received]
    rw [Rows.keys_update keeps]
    exact tracked.attemptIds
  · obtain ⟨old, before, ⟨_, rfl⟩ | ⟨_, rfl⟩⟩ := Rows.mem_update listed
    · exact ⟨.finish outcome old, (tracked.attempts old before).2⟩
    · exact tracked.attempts next before
  · split
    · rename_i selected
      exact (tracked.deliveries row there).finished here (tracked.attempts attempt here).1 tracked.attemptIds
        (beq_iff_eq.mp selected).symm unsettled (finish_finished host s now _ outcome.receipt attempt row)
    · rename_i elsewhere
      exact (tracked.deliveries row there).elsewhere here tracked.attemptIds (fun same =>
        elsewhere (by simp [same])) outcome.receipt

theorem retryTime_some {available : Nat} (found : retryTime s row = some available) :
    (row.state = .unknown ∨ row.state = .failed) ∧ ∃ latest ∈ s.attempts, row.lastAttemptId = some latest.id ∧
      (row.state = .unknown → latest.deadlineAt ≤ available) := by
  rw [retryTime] at found
  split at found
  · exact (nomatch found)
  · rename_i ended
    have ended : row.state = .unknown ∨ row.state = .failed := by
      by_contra neither
      exact ended (.inl (not_or.mp neither))
    obtain ⟨latest, last, found⟩ := Option.bind_eq_some_iff.mp found
    obtain ⟨id, held, at_id⟩ := Option.bind_eq_some_iff.mp last
    obtain ⟨here, own⟩ := attempt?_some at_id
    refine ⟨ended, latest, here, by rw [held, own], fun unknown => ?_⟩
    simp only [unknown, if_true] at found
    have wait : latest.deadlineAt ≤ max (latest.finishedAt.getD latest.startedAt) latest.deadlineAt :=
      Nat.le_max_right _ _
    split at found
    · exact Option.some.inj found ▸ wait
    · rename_i chat _
      have wait' := Nat.le_trans wait (Nat.le_max_left _ chat.nextAllowedAt)
      rw [← Option.some.inj found]
      split
      · exact Nat.le_trans wait' (Nat.le_max_left _ _)
      · exact wait'

theorem retry_ok {payload : RetryRequest} (tracked : s.Tracked) (done : retry host s now vault id payload = .ok t) :
    t = s ∨ (t.Tracked ∧ t.attempts = (recover s now).attempts ∧ t.chats = (recover s now).chats ∧
      t.serial = s.serial) := by
  rw [retry] at done
  obtain ⟨existing, _, done⟩ := bind_eq_ok done
  cases existing with
  | true => exact .inl (Except.ok.inj done).symm
  | false =>
    rw [if_neg Bool.false_ne_true] at done
    obtain ⟨_, _, done⟩ := bind_eq_ok done
    obtain ⟨row, at_row, done⟩ := bind_eq_ok done
    obtain ⟨planName, checked, done⟩ := bind_eq_ok done
    cases done
    obtain ⟨here, own⟩ := row_ok at_row
    have recovered := recover_tracked tracked now
    rw [retryCheck] at checked
    obtain ⟨_, expected, checked⟩ := bind_eq_ok checked
    have expected := require_ok expected
    split at checked
    · exact (nomatch checked)
    · rename_i available found
      obtain ⟨_, soon, checked⟩ := bind_eq_ok checked
      obtain ⟨_, risk, checked⟩ := bind_eq_ok checked
      obtain ⟨ended, latest, listed, last, deadline⟩ := retryTime_some found
      refine .inr ⟨?_, rfl, rfl, rfl⟩
      refine (recovered.request ⟨payload.requestId, payload.payload id, row.id, now⟩).set (fun _ =>
        rfl) fun other there same => ?_
      obtain rfl := Rows.unique recovered.ids there here same
      refine ((recovered.deliveries other here).more _).retry (by
        rw [own]) (mem_append_right _ (mem_singleton_self _))
        ended expected fun unknown => ⟨require_ok risk unknown, fun attempt before held => ?_⟩
      obtain rfl := Rows.unique recovered.attemptIds before listed (Option.some.inj (held.symm.trans last))
      exact Nat.le_trans (deadline unknown) (require_ok soon)

end Operations

end OpenNode.Notifications
