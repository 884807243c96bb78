import OpenNode.NotificationFence

namespace OpenNode.Notifications

open Edits List

variable {s t : Store} {now lease : Nat} {vault : Except NotificationError Unit} {host : Host}
variable {row : Delivery} {attempt : Attempt}

section Steps

/-- The invariant of the store at a time. -/
structure Store.Sound (now : Nat) (s : Store) : Prop where
  tracked : s.Tracked
  spaced : Spaced now s.attempts s.chats

theorem Store.Sound.later (sound : s.Sound now) {after : Nat} (later : now ≤ after) : s.Sound after :=
  ⟨sound.tracked, sound.spaced.later later⟩

/-- What one successful operation keeps. -/
structure Kept (now : Nat) (s t : Store) : Prop where
  sound : t.Sound now
  serial : s.serial ≤ t.serial
  settled : ∀ attempt ∈ s.attempts, attempt.settled = true → attempt ∈ t.attempts

theorem Untouched.kept (untouched : Untouched s t) (sound : s.Sound now) : Kept now s t where
  sound := ⟨untouched.tracked, untouched.attempts ▸ untouched.chats ▸ sound.spaced⟩
  serial := untouched.serial
  settled _ here _ := untouched.attempts ▸ here

theorem recover_settled (tracked : s.Tracked) (here : attempt ∈ s.attempts) (settled : attempt.settled = true) :
    attempt ∈ (recover s now).attempts := by
  refine Rows.update_other here ?_
  by_contra expired
  rw [Bool.not_eq_false] at expired
  have := ((tracked.attempts attempt here).1.expired expired).2.2
  exact (nomatch settled.symm.trans this)

theorem recover_kept (sound : s.Sound now) : Kept now s (recover s now) where
  sound := ⟨recover_tracked sound.tracked now, sound.spaced.recover⟩
  serial := Nat.le_refl _
  settled _ here settled := recover_settled sound.tracked here settled

theorem claim_kept (sound : s.Sound now) {claimed : Option Claimed}
    (done : claim host s now vault lease = .ok (t, claimed)) :
    Kept now s t := by
  obtain ⟨mid, rows, passed, handed, listed⟩ := claim_passed sound.tracked done
  have recovered := recover_kept sound
  rcases handed with ⟨_, rfl⟩ | ⟨row, member, here, _, free, message, planName, given, handed, _⟩
  · exact {
      sound := ⟨passed.tracked, passed.attempts ▸ passed.chats ▸ recovered.sound.spaced⟩
      serial := passed.serial ▸ recovered.serial
      settled := fun attempt here settled => passed.attempts ▸ recovered.settled attempt here settled }
  · obtain ⟨rfl, rfl⟩ := Prod.mk.inj handed
    have spaced := passed.attempts ▸ passed.chats ▸ recovered.sound.spaced
    exact {
      sound := ⟨handOut_tracked passed.tracked here (listed row member).2 message planName,
        spaced.handOut (by rw [passed.chats, passed.settings]; exact free) rfl⟩
      serial := Nat.le_trans recovered.serial (passed.serial ▸ Nat.le_succ _)
      settled := fun attempt here settled =>
        mem_append_left _ (passed.attempts ▸ recovered.settled attempt here settled) }

theorem finish_kept (sound : s.Sound now) {deliveryId attemptId : Nat} {outcome : Outcome}
    (done : finish host s now deliveryId attemptId outcome = .ok t) : Kept now s t := by
  obtain ⟨attempt, found, _, ⟨_, rfl⟩ | ⟨unsettled, rfl⟩⟩ := finish_ok done
  · exact ⟨sound, Nat.le_refl _, fun _ here _ => here⟩
  · obtain ⟨here, _⟩ := attempt?_some found
    exact {
      sound := ⟨received_tracked sound.tracked found unsettled outcome,
        sound.spaced.finish sound.tracked.attemptIds here (sound.tracked.attempts attempt here).1 unsettled outcome⟩
      serial := Nat.le_refl _
      settled := fun other there settled => by
        refine Rows.update_other there ?_
        rw [beq_eq_false_iff_ne]
        intro same
        obtain rfl := Rows.unique sound.tracked.attemptIds there here same
        exact (nomatch settled.symm.trans unsettled) }

theorem retry_kept (sound : s.Sound now) {id : Nat} {payload : RetryRequest}
    (done : retry host s now vault id payload = .ok t) :
    Kept now s t := by
  rcases retry_ok sound.tracked done with rfl | ⟨tracked, attempts, chats, serial⟩
  · exact ⟨sound, Nat.le_refl _, fun _ here _ => here⟩
  · have recovered := recover_kept sound
    exact {
      sound := ⟨tracked, attempts ▸ chats ▸ recovered.sound.spaced⟩
      serial := Nat.le_of_eq serial.symm
      settled := fun attempt here settled => attempts ▸ recovered.settled attempt here settled }

theorem perform_kept (sound : s.Sound now) {action : Action} (done : perform host s now vault action = .ok t) :
    Kept now s t := by
  cases action with
  | updateSettings payload => exact (updateSettings_untouched sound.tracked done).kept sound
  | inventory users plans =>
    cases done
    exact ⟨⟨{ sound.tracked with }, sound.spaced⟩, Nat.le_refl _, fun _ here _ => here⟩
  | enqueueTest revision requestId => exact (enqueueTest_untouched sound.tracked done).kept sound
  | scan => exact (scan_untouched sound.tracked done).kept sound
  | claim seconds =>
    obtain ⟨⟨u, claimed⟩, claims, done⟩ := bind_eq_ok done
    cases done
    exact claim_kept sound claims
  | finish deliveryId attemptId outcome => exact finish_kept sound done
  | recover =>
    cases done
    exact recover_kept sound
  | retry id payload => exact retry_kept sound done

theorem step_kept (host : Host) (sound : s.Sound s.clock) (event : Event) :
    (s.step host event).Sound (s.step host event).clock ∧ s.serial ≤ (s.step host event).serial ∧
      ∀ attempt ∈ s.attempts, attempt.settled = true → attempt ∈ (s.step host event).attempts := by
  have later := sound.later (Nat.le_add_right s.clock event.elapsed)
  simp only [Store.step]
  split
  · rename_i t done
    have kept := perform_kept later done
    exact ⟨⟨{ kept.sound.tracked with }, kept.sound.spaced⟩, kept.serial, kept.settled⟩
  · exact ⟨⟨{ later.tracked with }, later.spaced⟩, Nat.le_refl _, fun _ here _ => here⟩

theorem run_kept (host : Host) (sound : s.Sound s.clock) (events : List Event) :
    (s.run host events).Sound (s.run host events).clock ∧ s.serial ≤ (s.run host events).serial ∧
      ∀ attempt ∈ s.attempts, attempt.settled = true → attempt ∈ (s.run host events).attempts := by
  induction events generalizing s with
  | nil => exact ⟨sound, Nat.le_refl _, fun _ here _ => here⟩
  | cons event events ih =>
    obtain ⟨sound, serial, settled⟩ := step_kept host sound event
    obtain ⟨last, later, still⟩ := ih sound
    exact ⟨last, Nat.le_trans serial later, fun attempt here done => still attempt (settled attempt here done) done⟩

theorem createSchema_sound (users : List ProductUser) (plans : List SubscriptionPlan) :
    (createSchema users plans).Sound (createSchema users plans).clock where
  tracked := by
    refine ⟨nodup_nil, nodup_nil, nodup_nil, ?_, ?_, ?_, ?_⟩ <;> intro _ here <;> exact absurd here not_mem_nil
  spaced := by
    refine ⟨List.Pairwise.nil, ?_, ?_⟩ <;> intro _ here <;> exact absurd here not_mem_nil

end Steps

section Claims

/-- What an event's claim hands out. -/
def claimedBy (host : Host) (s : Store) (event : Event) : Option Claimed :=
  match event.action with
  | .claim leaseSeconds =>
    match claim host s (s.clock + event.elapsed) event.vault leaseSeconds with
    | .ok (_, claimed) => claimed
    | .error _ => none
  | _ => none

/-- All that the claims of a run hand out. -/
def handedOut (host : Host) : Store → List Event → List Claimed
  | _, [] => []
  | s, event :: events => (claimedBy host s event).toList ++ handedOut host (s.step host event) events

/-- What a claim says about the attempt that it hands out. -/
structure Claims (now : Nat) (s t : Store) (claimed : Claimed) : Prop where
  fresh : ∀ attempt ∈ s.attempts, attempt.id ≠ claimed.attemptId
  kept : ∃ attempt ∈ t.attempts, attempt.id = claimed.attemptId ∧ attempt.deliveryId = claimed.deliveryId ∧
    attempt.chatId = claimed.chatId ∧ attempt.startedAt = now ∧ attempt.state = .sending
  unaccepted : ∀ attempt ∈ s.attempts, attempt.deliveryId = claimed.deliveryId → attempt.state ≠ .accepted
  confirmed : ∀ row ∈ s.deliveries, row.id = claimed.deliveryId → ∀ attempt ∈ s.attempts,
    row.lastAttemptId = some attempt.id →
    attempt.state ≠ .sending ∧ (attempt.state = .unknown → Confirmed s.requests attempt)

theorem claim_claims (sound : s.Sound now) {claimed : Claimed}
    (done : claim host s now vault lease = .ok (t, some claimed)) :
    Claims now s t claimed ∧ claimed.attemptId = s.serial ∧ s.serial < t.serial := by
  obtain ⟨mid, rows, passed, ⟨none, _⟩ | ⟨row, member, _, unaccepted, _, message, planName, given, handed,
    same⟩, listed⟩ :=
    claim_passed sound.tracked done
  · exact (nomatch none)
  · cases same
    obtain ⟨rfl, rfl⟩ := Prod.mk.inj handed
    have serial : mid.serial = s.serial := passed.serial
    obtain ⟨here, queued⟩ := listed row member
    have row_sound := sound.tracked.deliveries row here
    refine ⟨{
      fresh := fun attempt there => ?_
      kept := ⟨_, mem_append_right _ (mem_singleton_self _), rfl, rfl, rfl, rfl, rfl⟩
      unaccepted := fun attempt there own accepted => ?_
      confirmed := fun other there own attempt before held => ?_ }, serial, serial ▸ Nat.lt_succ_self _⟩
    · simp only [serial]
      exact Nat.ne_of_lt (sound.tracked.attempts attempt there).2.1
    · have := row_sound.accepted attempt there own accepted
      exact (nomatch unaccepted.symm.trans this)
    · obtain rfl := Rows.unique sound.tracked.ids there here own
      have fits := (row_sound.fits attempt before held).2
      rw [Fits, if_pos (.inl queued)] at fits
      exact ⟨fits.1, fits.2.2⟩

theorem handedOut_fresh (sound : s.Sound s.clock) (events : List Event) :
    ((handedOut host s events).map Claimed.attemptId).Nodup ∧ ∀ claimed ∈ handedOut host s events,
      s.serial ≤ claimed.attemptId := by
  induction events generalizing s with
  | nil => exact ⟨nodup_nil, fun _ here => absurd here not_mem_nil⟩
  | cons event events ih =>
    obtain ⟨next, serial, _⟩ := step_kept host sound event
    obtain ⟨distinct, above⟩ := ih next
    rw [handedOut]
    cases handed : claimedBy host s event with
    | none => exact ⟨distinct, fun claimed here => Nat.le_trans serial (above claimed here)⟩
    | some claimed =>
      obtain ⟨own, more⟩ : claimed.attemptId = s.serial ∧ s.serial < (s.step host event).serial := by
        simp only [claimedBy] at handed
        split at handed
        · rename_i seconds action
          split at handed
          · rename_i t other done
            subst handed
            obtain ⟨_, own, more⟩ := claim_claims (sound.later (Nat.le_add_right s.clock event.elapsed)) done
            refine ⟨own, ?_⟩
            have performed : perform host s (s.clock + event.elapsed) event.vault event.action = .ok t := by
              rw [action, perform, done]
              rfl
            simp only [Store.step, performed]
            exact more
          · exact (nomatch handed)
        · exact (nomatch handed)
      refine ⟨?_, fun other here => ?_⟩
      · rw [Option.toList_some, singleton_append, map_cons, nodup_cons]
        refine ⟨fun again => ?_, distinct⟩
        obtain ⟨other, here, same⟩ := List.mem_map.mp again
        have := above other here
        omega
      · rcases List.mem_cons.mp here with rfl | later
        · exact Nat.le_of_eq own.symm
        · exact Nat.le_trans serial (above other later)

end Claims

section Receipts

/-- What the receipt of an attempt that its delivery has left behind may do: it
is kept with its attempt, it may mark the delivery as accepted, and the next
message to its chat may have to wait. -/
structure ReceiptOnly (attempt : Attempt) (s t : Store) : Prop where
  attempts : ∃ change : Attempt →
    Attempt, t.attempts = Rows.update (fun other => other.id == attempt.id) change s.attempts
  deliveries : ∃ accepted : Bool, t.deliveries = Rows.update (fun row => row.id == attempt.deliveryId)
    (fun row => { row with acceptedOnce := row.acceptedOnce || accepted }) s.deliveries
  chats : ∀ chat ≠ attempt.chatId, t.chats chat = s.chats chat
  chat : ∀ chat, s.chats attempt.chatId = some chat → ∃ after, t.chats attempt.chatId = some after ∧
    chat.nextAllowedAt ≤ after.nextAllowedAt ∧ (chat.inFlightAttemptId = some attempt.id ∨
      (after.inFlightAttemptId = chat.inFlightAttemptId ∧ after.deadlineAt = chat.deadlineAt))
  others : t.settings = s.settings ∧ t.requests = s.requests ∧ t.users = s.users ∧ t.plans = s.plans

variable {deliveryId : Nat} {outcome : Outcome}

theorem finish_receiptOnly {attemptId : Nat} (done : finish host s now deliveryId attemptId outcome = .ok t)
    (found : s.attempt? attemptId = some attempt)
    (left_behind : ∀ row ∈ s.deliveries, row.id = attempt.deliveryId → row.current attempt = false) :
    ReceiptOnly attempt s t := by
  obtain ⟨other, again, _, ⟨_, rfl⟩ | ⟨_, rfl⟩⟩ := finish_ok done
  · exact {
      attempts := ⟨id, (Rows.update_same fun _ _ _ => rfl).symm⟩
      deliveries := ⟨false, (Rows.update_same fun row _ _ => by rw [Bool.or_false]).symm⟩
      chats := fun _ _ => rfl
      chat := fun chat known => ⟨chat, known, Nat.le_refl _, .inr ⟨rfl, rfl⟩⟩
      others := ⟨rfl, rfl, rfl, rfl⟩ }
  · cases found.symm.trans again
    exact {
      attempts := ⟨_, rfl⟩
      deliveries := ⟨decide (outcome.receipt.state = .accepted), map_congr_left fun row here => by
        split
        · rename_i selected
          have passed : (row.accept outcome.receipt).current attempt = false :=
            left_behind row here (beq_iff_eq.mp selected)
          simp only [Delivery.finish]
          rw [if_pos passed]
          rfl
        · rfl⟩
      chats := fun chat other => Function.update_of_ne other _ _
      chat := fun chat known => by
        refine ⟨chat.finish now outcome.receipt attempt, ?_, finish_nextAllowedAt now _ _ _, ?_⟩
        · simp only [received]
          rw [Function.update_self, known]
          rfl
        · by_cases own : chat.inFlightAttemptId = some attempt.id
          · exact .inl own
          · exact .inr (finish_inFlight now _ attempt chat fun taken => absurd taken own)
      others := ⟨rfl, rfl, rfl, rfl⟩ }

theorem attempt?_of_mem (distinct : (s.attempts.map Attempt.id).Nodup) (here : attempt ∈ s.attempts) :
    s.attempt? attempt.id = some attempt := by
  cases found : s.attempt? attempt.id with
  | none =>
    have := List.find?_eq_none.mp found attempt here
    simp at this
  | some other =>
    obtain ⟨there, same⟩ := attempt?_some found
    rw [Rows.unique distinct there here same]

theorem finish_settled (distinct : (s.attempts.map Attempt.id).Nodup) (here : attempt ∈ s.attempts)
    (settled : attempt.settled = true)
    (done : finish host s now deliveryId attempt.id outcome = .ok t) : t = s := by
  obtain ⟨other, found, _, ⟨_, same⟩ | ⟨unsettled, _⟩⟩ := finish_ok done
  · exact same
  · rw [attempt?_of_mem distinct here] at found
    cases found
    exact (nomatch settled.symm.trans unsettled)

theorem finish_settles {attemptId : Nat} (done : finish host s now deliveryId attemptId outcome = .ok t) :
    ∃ attempt ∈ t.attempts, attempt.id = attemptId ∧ attempt.settled = true := by
  obtain ⟨attempt, found, _, ⟨settled, rfl⟩ | ⟨_, rfl⟩⟩ := finish_ok done
  · exact ⟨attempt, (attempt?_some found).1, (attempt?_some found).2, settled⟩
  · obtain ⟨here, own⟩ := attempt?_some found
    exact ⟨attempt.finish now outcome.receipt, Rows.update_selected here (by simp), own, settled_finish _ _⟩

end Receipts

section Scans

theorem scanOne_keys {entry : ProductUser × Candidate} (done : scanOne now s entry = .ok t) :
    (∀ row ∈ s.deliveries, ∃ other ∈ t.deliveries, other.eventKey = row.eventKey) ∧
      ∃ row ∈ t.deliveries, row.eventKey = eventKey entry.2 entry.1 := by
  unfold scanOne at done
  dsimp only at done
  split at done
  · rename_i row found
    have here := mem_of_find?_eq_some found
    have own : row.eventKey = eventKey entry.2 entry.1 := by simpa using List.find?_some found
    split at done
    · cases done
      have kept (other : Delivery) (there : other ∈ s.deliveries) : ∃ after ∈
          (s.set row.id (Delivery.requeue now s.settings entry.2.planName)).deliveries,
            after.eventKey = other.eventKey := by
        cases selected : other.id == row.id with
        | true => exact ⟨_, Rows.update_selected there selected, rfl⟩
        | false => exact ⟨other, Rows.update_other there selected, rfl⟩
      obtain ⟨after, there, same⟩ := kept row here
      exact ⟨kept, after, there, same.trans own⟩
    · cases done
      exact ⟨fun other there => ⟨other, there, rfl⟩, row, here, own⟩
  · rw [Store.insert] at done
    split at done
    · cases done
    · cases done
      exact ⟨fun other there => ⟨other, mem_append_left _ there, rfl⟩, _,
        mem_append_right _ (mem_singleton_self _), rfl⟩

theorem scanEntries_keys {entries : List (ProductUser × Candidate)}
    (done : entries.foldlM (scanOne now) s = .ok t) :
    (∀ row ∈ s.deliveries, ∃ other ∈ t.deliveries, other.eventKey = row.eventKey) ∧
      ∀ entry ∈ entries, ∃ row ∈ t.deliveries, row.eventKey = eventKey entry.2 entry.1 := by
  induction entries generalizing s with
  | nil =>
    cases done
    exact ⟨fun row here => ⟨row, here, rfl⟩, fun _ here => absurd here not_mem_nil⟩
  | cons entry entries ih =>
    rw [foldlM_cons] at done
    obtain ⟨u, one, done⟩ := bind_eq_ok done
    obtain ⟨kept, row, here, own⟩ := scanOne_keys one
    obtain ⟨still, rest⟩ := ih done
    refine ⟨fun other there => ?_, fun other there => ?_⟩
    · obtain ⟨mid, listed, same⟩ := kept other there
      obtain ⟨last, listed, same'⟩ := still mid listed
      exact ⟨last, listed, same'.trans same⟩
    · rcases List.mem_cons.mp there with rfl | later
      · obtain ⟨last, listed, same⟩ := still row here
        exact ⟨last, listed, same.trans own⟩
      · exact rest other later

theorem scan_keys (scanning : scans host s now = true) (done : scan host s now vault = .ok t) :
    ∀ entry ∈ eligible host s now, ∃ row ∈ t.deliveries, row.eventKey = eventKey entry.2 entry.1 := by
  rw [scan, if_neg (by simp [scanning])] at done
  obtain ⟨_, _, done⟩ := bind_eq_ok done
  obtain ⟨_, _, done⟩ := bind_eq_ok done
  intro entry here
  exact (scanEntries_keys done).2 entry ((mergeSort_perm _ _).mem_iff.mpr here)

end Scans

section Expiry

/-- Sending is allowed by the rows, the attempts and the throttles of a store. -/
structure Store.Allowed (s : Store) : Prop where
  events : ∀ row ∈ s.deliveries, ∀ other ∈ s.deliveries, row.kind = .packageExpiry → other.kind = .packageExpiry →
    row.username = other.username → row.userCreatedAt = other.userCreatedAt → row.planId = other.planId →
    row.expiresAt = other.expiresAt → row = other
  apart : s.attempts.Pairwise fun a b => a.chatId = b.chatId → a.startedAt + chatInterval ≤ b.startedAt
  flight : ∀ now, s.clock ≤ now → ∀ a ∈ s.attempts, ∀ b ∈ s.attempts, a.chatId = b.chatId → a.InFlight now →
    b.InFlight now → a = b
  sending : ∀ row ∈ s.deliveries, row.state = .sending ↔
    ∃ attempt ∈ s.attempts, row.lastAttemptId = some attempt.id ∧ attempt.state = .sending
  budget : ∀ row ∈ s.deliveries, (∀ request ∈ s.requests, ∀ revision requestId id confirmed,
      request.payload ≠ .retry row.id revision requestId id confirmed) →
    (s.attempts.filter fun attempt => attempt.deliveryId == row.id).length ≤ maxAutomaticAttempts

theorem Store.Sound.allowed (sound : s.Sound s.clock) : s.Allowed where
  events row here other there kind kind' username createdAt plan expires := by
    obtain ⟨u, c, p, e, key, user, created, own, until_⟩ := sound.tracked.keyed row here kind
    obtain ⟨u', c', p', e', key', user', created', own', until'⟩ := sound.tracked.keyed other there kind'
    refine Rows.unique sound.tracked.keys here there ?_
    rw [key, key', Option.some.inj (user.symm.trans (username.trans user')),
      Option.some.inj (created.symm.trans (createdAt.trans created')),
        Option.some.inj (own.symm.trans (plan.trans own')),
      Option.some.inj (until_.symm.trans (expires.trans until'))]
  apart := List.pairwise_map.mp sound.spaced.apart
  flight now later a here b there same flying flying' :=
    (sound.spaced.later later).one sound.tracked.attemptIds here there same flying flying'
  sending row here := by
    have row_sound := sound.tracked.deliveries row here
    refine ⟨fun sending => ?_, ?_⟩
    · cases last : row.lastAttemptId with
      | none => rcases row_sound.idle last with state | state <;> cases sending.symm.trans state
      | some id =>
        obtain ⟨attempt, there, rfl⟩ := row_sound.known id last
        have fits := (row_sound.fits attempt there last).2
        rw [Fits, if_neg (by simp [sending])] at fits
        refine ⟨attempt, there, rfl, ?_⟩
        have moved := fits.1.trans sending
        cases state : attempt.state with
        | sending => rfl
        | accepted | failed | unknown => rw [state] at moved; cases moved
    · rintro ⟨attempt, there, held, sending⟩
      have fits := (row_sound.fits attempt there held).2
      unfold Fits at fits
      split at fits
      · exact absurd sending fits.1
      · rw [← fits.1, sending]
        rfl
  budget row here unasked := by
    have row_sound := sound.tracked.deliveries row here
    have first : row.generation = 0 := by
      by_contra again
      obtain ⟨request, listed, revision, requestId, id, confirmed, asked⟩ := row_sound.retried again
      exact unasked request listed revision requestId id confirmed asked
    rw [← row_sound.count]
    exact (row_sound.budget first).1

/-- Notifications are sent at most as often as allowed, whatever the order of
the operations. -/
theorem Store.notifications_allowed (host : Host) (users : List ProductUser) (plans : List SubscriptionPlan)
    (events : List Event) :
    let s := (createSchema users plans).run host events
    s.Allowed ∧ ((handedOut host (createSchema users plans) events).map Claimed.attemptId).Nodup ∧
      (∀ now vault t, s.clock ≤ now → scans host s now = true → scan host s now vault = .ok t →
        ∀ entry ∈ eligible host s now, ∃ row ∈ t.deliveries, row.eventKey = eventKey entry.2 entry.1) ∧
      (∀ now vault lease t claimed, s.clock ≤ now → claim host s now vault lease = .ok (t, some claimed) →
        Claims now s t claimed) ∧
      (∀ later, ∀ attempt ∈ s.attempts, attempt.settled = true → attempt ∈ (s.run host later).attempts) ∧
      (∀ now deliveryId attemptId outcome t, s.clock ≤ now →
        finish host s now deliveryId attemptId outcome = .ok t →
        (∀ later after outcome' u, finish host (({ t with clock := now } : Store).run host later) after deliveryId
          attemptId outcome' = .ok u →
          u = ({ t with clock := now } : Store).run host later) ∧
        ∀ attempt, s.attempt? attemptId = some attempt →
          (∀ row ∈ s.deliveries, row.id = attempt.deliveryId → row.current attempt = false) →
            ReceiptOnly attempt s t) := by
  intro s
  obtain ⟨sound, _⟩ : s.Sound s.clock ∧ _ := run_kept host (createSchema_sound users plans) events
  refine ⟨sound.allowed, (handedOut_fresh (createSchema_sound users plans) events).1, ?_, ?_, ?_, ?_⟩
  · intro now vault t _ scanning done
    exact scan_keys scanning done
  · intro now vault lease t claimed later done
    exact (claim_claims (sound.later later) done).1
  · intro later
    exact (run_kept host sound later).2.2
  · intro now deliveryId attemptId outcome t later done
    refine ⟨fun events after outcome' u again => ?_, fun attempt found left_behind =>
      finish_receiptOnly done found left_behind⟩
    -- The first receipt settles its attempt, and the run keeps it so.
    have kept := finish_kept (sound.later later) done
    have start : ({ t with clock := now } : Store).Sound now := ⟨{ kept.sound.tracked with }, kept.sound.spaced⟩
    obtain ⟨attempt, here, rfl, settled⟩ := finish_settles done
    obtain ⟨last, _, still⟩ := run_kept (s := { t with clock := now }) host start events
    exact finish_settled last.tracked.attemptIds (still attempt here settled) settled again

/-- Every text of a message is empty, and the time zone is the one of the clock. -/
def plainHost : Host where
  hour _ _ := 12
  advance _ now days := now + days * 86400 * second
  message _ _ := ""
  order id := id

/-- A test message whose worker is late: its attempt is recovered and retried. -/
def lateEvents : List Event :=
  [{ elapsed := 0, action := .updateSettings ⟨0, false, "5", 7, "UTC", .replace "token"⟩ },
    { elapsed := second, action := .enqueueTest 1 "test" },
    { elapsed := second, action := .claim 20 },
    { elapsed := 30 * second, action := .retry 0 ⟨1, "retry", 1, true⟩ }]

/-- The late receipt of an attempt that is not the current one any more marks its
delivery as accepted. -/
theorem lateEvents_accepted : ¬ ∀ events deliveryId attemptId outcome attempt t,
    ((createSchema [] []).run plainHost events).attempt? attemptId = some attempt →
    attempt.recoveredAt.isSome = true →
    (∀ row ∈ ((createSchema [] []).run plainHost events).deliveries, row.id = attempt.deliveryId →
      row.current attempt = false) →
    finish plainHost ((createSchema [] []).run plainHost events) ((createSchema [] []).run plainHost events).clock
      deliveryId attemptId outcome = .ok t →
    t.deliveries = ((createSchema [] []).run plainHost events).deliveries := by
  intro only
  have found : (((createSchema [] []).run plainHost lateEvents).attempt? 1).any (fun attempt =>
      attempt.recoveredAt.isSome &&
      ((createSchema [] []).run plainHost lateEvents).deliveries.all fun row => !row.current attempt) = true := by
    decide +kernel
  have marked : (finish plainHost ((createSchema [] []).run plainHost lateEvents)
      ((createSchema [] []).run plainHost lateEvents).clock 0 1
      ⟨"accepted", "telegram_accepted", some 7, none, false⟩).toOption.any (fun t =>
        t.deliveries.all Delivery.acceptedOnce) = true := by
    decide +kernel
  have unmarked : ((createSchema [] []).run plainHost lateEvents).deliveries.all Delivery.acceptedOnce = false := by
    decide +kernel
  obtain ⟨attempt, at_id, late⟩ := (Option.any_eq_true _ _).mp found
  obtain ⟨recovered, left_behind⟩ := Bool.and_eq_true_iff.mp late
  have left_behind : ∀ row ∈ ((createSchema [] []).run plainHost lateEvents).deliveries,
      row.id = attempt.deliveryId → row.current attempt = false := fun row here _ => by
    simpa using List.all_eq_true.mp left_behind row here
  cases done : finish plainHost ((createSchema [] []).run plainHost lateEvents)
    ((createSchema [] []).run plainHost lateEvents).clock 0 1
      ⟨"accepted", "telegram_accepted", some 7, none, false⟩ with
  | error code => simp [done, Except.toOption] at marked
  | ok t =>
    have same := only lateEvents 0 1 _ attempt t at_id recovered left_behind done
    simp only [done, Except.toOption, Option.any_some, same, unmarked] at marked
    exact (nomatch marked)

end Expiry

end OpenNode.Notifications
