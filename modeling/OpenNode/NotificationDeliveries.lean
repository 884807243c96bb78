import OpenNode.Notifications

namespace OpenNode.Notifications

open Edits Rows

variable {s t : Store} {now : Nat} {vault : Except NotificationError Unit} {host : Host}
variable {attempts : List Attempt} {requests : List Request} {row : Delivery} {attempt : Attempt}

section Attempts

/-- An attempt is settled once it was accepted or has failed, and never while it
is sending. -/
structure Attempt.Sound (attempt : Attempt) : Prop where
  sending : attempt.state = .sending → attempt.settled = false
  final : attempt.state = .accepted ∨ attempt.state = .failed → attempt.settled = true

/-- The duplicate risk of the attempt was confirmed after its deadline. -/
def Confirmed (requests : List Request) (attempt : Attempt) : Prop :=
  ∃ request ∈ requests, (∃ revision requestId,
    request.payload = .retry attempt.deliveryId revision requestId attempt.id true) ∧
      attempt.deadlineAt ≤ request.createdAt

theorem Confirmed.more (confirmed : Confirmed requests attempt) (request : Request) :
    Confirmed (requests ++ [request]) attempt := by
  obtain ⟨old, here, rest⟩ := confirmed
  exact ⟨old, List.mem_append_left _ here, rest⟩

theorem receipt_state (outcome : Outcome) : outcome.receipt.state ≠ .sending := by
  unfold Outcome.receipt
  grind

theorem receipt_retryable {outcome : Outcome} (retryable : outcome.receipt.retryable = true) :
    outcome.receipt.state = .failed := by
  unfold Outcome.receipt at retryable ⊢
  grind

theorem settled_finish (receipt : Receipt) (attempt : Attempt) : (attempt.finish now receipt).settled = true := by
  unfold Attempt.settled Attempt.finish
  by_cases late : attempt.recoveredAt.isSome ∨ attempt.deadlineAt < now
  · simp [late]
  · have fresh : attempt.recoveredAt = none := by simpa using fun recovered => late (.inl recovered)
    simp [fresh]

theorem Attempt.Sound.finish (outcome : Outcome) (attempt : Attempt) :
    (attempt.finish now outcome.receipt).Sound where
  sending sending := absurd sending (receipt_state outcome)
  final _ := settled_finish _ _

theorem Attempt.Sound.recover (attempt : Attempt) : (attempt.recover now).Sound where
  sending sending := nomatch sending
  final final := by rcases final with final | final <;> exact (nomatch final)

theorem Attempt.Sound.open_state (sound : attempt.Sound) (unsettled : attempt.settled = false) :
    attempt.state = .sending ∨ attempt.state = .unknown := by
  have final := sound.final
  cases state : attempt.state with
  | sending => exact .inl rfl
  | unknown => exact .inr rfl
  | accepted => exact absurd (final (.inl state)) (by simp [unsettled])
  | failed => exact absurd (final (.inr state)) (by simp [unsettled])

end Attempts

section Deliveries

/-- What a delivery knows of its last attempt. A delivery that waits has not
gone back to an attempt of unknown outcome without a confirmed retry. -/
def Fits (requests : List Request) (row : Delivery) (attempt : Attempt) : Prop :=
  if row.state = .queued ∨ row.state = .cancelled then
    attempt.state ≠ .sending ∧ (attempt.generation = row.generation → attempt.settled = true ∧
      attempt.state ≠ .unknown) ∧
      (attempt.state = .unknown → Confirmed requests attempt)
  else attempt.state.delivery = row.state ∧ attempt.generation = row.generation

structure Delivery.Sound (attempts : List Attempt) (requests : List Request) (row : Delivery) : Prop where
  known : ∀ id, row.lastAttemptId = some id → ∃ attempt ∈ attempts, attempt.id = id
  fits : ∀ attempt ∈ attempts, row.lastAttemptId = some attempt.id → attempt.deliveryId = row.id ∧
    Fits requests row attempt
  idle : row.lastAttemptId = none → row.state = .queued ∨ row.state = .cancelled
  count : row.attemptCount = (attempts.filter fun attempt => attempt.deliveryId == row.id).length
  accepted : ∀ attempt ∈ attempts, attempt.deliveryId = row.id → attempt.state = .accepted → row.acceptedOnce = true
  budget : row.generation = 0 → row.attemptCount ≤ maxAutomaticAttempts ∧
    (row.state = .queued → row.attemptCount < maxAutomaticAttempts)
  retried : row.generation ≠ 0 → ∃ request ∈ requests, ∃ revision requestId id confirmed,
    request.payload = .retry row.id revision requestId id confirmed

theorem Delivery.Sound.adjust (sound : row.Sound attempts requests) {other : Delivery} (id : other.id = row.id)
    (last : other.lastAttemptId = row.lastAttemptId) (count : other.attemptCount = row.attemptCount)
    (accepted : other.acceptedOnce = row.acceptedOnce) (generation : other.generation = row.generation)
    (state : other.state = row.state ∨ (row.state = .queued ∧ other.state = .cancelled) ∨
      (row.state = .cancelled ∧ other.state = .queued ∧ row.attemptCount = 0)) : other.Sound attempts requests where
  known := last ▸ sound.known
  fits attempt here held := by
    obtain ⟨own, fits⟩ := sound.fits attempt here (last ▸ held)
    refine ⟨own.trans id.symm, ?_⟩
    unfold Fits at fits ⊢
    rcases state with same | ⟨was, is⟩ | ⟨was, is, _⟩
    · rw [same, generation]
      exact fits
    · rw [generation, if_pos (.inr is)]
      rwa [if_pos (.inl was)] at fits
    · rw [generation, if_pos (.inl is)]
      rwa [if_pos (.inr was)] at fits
  idle none := by
    rcases state with same | ⟨_, is⟩ | ⟨_, is, _⟩
    · exact same ▸ sound.idle (last ▸ none)
    · exact .inr is
    · exact .inl is
  count := by rw [count, id, sound.count]
  accepted := by
    rw [accepted, id]
    exact sound.accepted
  budget first := by
    obtain ⟨most, more⟩ := sound.budget (generation ▸ first)
    rw [count]
    refine ⟨most, fun queued => ?_⟩
    rcases state with same | ⟨_, is⟩ | ⟨_, _, zero⟩
    · exact more (same ▸ queued)
    · exact (nomatch is.symm.trans queued)
    · rw [zero]
      decide
  retried := by
    rw [generation, id]
    exact sound.retried

theorem Delivery.Sound.more (sound : row.Sound attempts requests) (request : Request) :
    row.Sound attempts (requests ++ [request]) :=
  { sound with
    fits := fun attempt here held => by
      obtain ⟨own, fits⟩ := sound.fits attempt here held
      refine ⟨own, ?_⟩
      unfold Fits at fits ⊢
      split
      · rename_i waits
        rw [if_pos waits] at fits
        exact ⟨fits.1, fits.2.1, fun unknown => (fits.2.2 unknown).more request⟩
      · rename_i moves
        rwa [if_neg moves] at fits
    retried := fun again => by
      obtain ⟨old, here, rest⟩ := sound.retried again
      exact ⟨old, List.mem_append_left _ here, rest⟩ }

theorem Delivery.Sound.retry (sound : row.Sound attempts requests) {settings : Settings} {planName : Option String}
    {payload : RetryRequest} {request : Request}
    (made : request.payload = payload.payload row.id) (here : request ∈ requests)
    (ended : row.state = .unknown ∨ row.state = .failed)
    (expected : row.lastAttemptId = some payload.expectedAttemptId)
    (risk : row.state = .unknown → payload.confirmDuplicateRisk = true ∧
      ∀ attempt ∈ attempts, row.lastAttemptId = some attempt.id → attempt.deadlineAt ≤ request.createdAt) :
    (row.retry now settings payload.requestId planName).Sound attempts requests where
  known := sound.known
  fits attempt listed held := by
    obtain ⟨own, fits⟩ := sound.fits attempt listed held
    refine ⟨own, ?_⟩
    unfold Fits at fits
    rw [if_neg (by rcases ended with ended | ended <;> simp [ended])] at fits
    rw [Fits, if_pos (.inl rfl)]
    obtain ⟨state, generation⟩ := fits
    refine ⟨fun sending => ?_, fun same => ?_, fun unknown => ?_⟩
    · rw [sending] at state
      rcases ended with ended | ended <;> exact (nomatch state.trans ended)
    · rw [generation] at same
      exact absurd same (Nat.ne_of_lt (Nat.lt_succ_self row.generation))
    · rw [unknown] at state
      obtain ⟨confirmed, deadline⟩ := risk state.symm
      refine ⟨request, here, ⟨payload.expectedRevision, payload.requestId, ?_⟩, deadline attempt listed held⟩
      rw [made, RetryRequest.payload, confirmed, own, Option.some.inj (expected.symm.trans held)]
  idle none := .inl rfl
  count := sound.count
  accepted := sound.accepted
  budget first := nomatch first
  retried _ := ⟨request, here, payload.expectedRevision, payload.requestId, payload.expectedAttemptId,
    payload.confirmDuplicateRisk, made⟩

theorem Delivery.Sound.inserted (waits : row.state = .queued) (first : row.lastAttemptId = none)
    (zero : row.attemptCount = 0)
    (generation : row.generation = 0) (fresh : ∀ attempt ∈ attempts, attempt.deliveryId ≠ row.id) :
    row.Sound attempts requests where
  known id held := nomatch first.symm.trans held
  fits attempt _ held := nomatch first.symm.trans held
  idle _ := .inl waits
  count := by
    rw [zero, eq_comm, List.length_eq_zero_iff, List.filter_eq_nil_iff]
    simpa using fresh
  accepted attempt here own := absurd own (fresh attempt here)
  budget _ := by
    rw [zero]
    exact ⟨Nat.zero_le _, fun _ => by decide⟩
  retried again := absurd generation again

end Deliveries

section Updates

variable {selects : Attempt → Bool} {set : Attempt → Attempt} (sound : row.Sound attempts requests)
include sound

theorem Delivery.Sound.known_update (keeps : ∀ attempt, (set attempt).id = attempt.id) (id : Nat)
    (held : row.lastAttemptId = some id) : ∃ attempt ∈ Rows.update selects set attempts, attempt.id = id := by
  obtain ⟨old, here, same⟩ := sound.known id held
  cases selected : selects old with
  | true => exact ⟨set old, update_selected here selected, (keeps old).trans same⟩
  | false => exact ⟨old, update_other here selected, same⟩

theorem Delivery.Sound.count_update (keeps : ∀ attempt, (set attempt).deliveryId = attempt.deliveryId) :
    row.attemptCount = ((Rows.update selects set attempts).filter fun attempt =>
      attempt.deliveryId == row.id).length := by
  rw [length_filter_update fun attempt => by rw [keeps], sound.count]

end Updates

section Recovery

theorem Attempt.Sound.expired (sound : attempt.Sound) (expired : attempt.expired now = true) :
    attempt.state = .sending ∧ attempt.deadlineAt ≤ now ∧ attempt.settled = false := by
  simp only [Attempt.expired, Bool.and_eq_true, beq_iff_eq, decide_eq_true_eq] at expired
  exact ⟨expired.1, expired.2, sound.sending expired.1⟩

theorem Delivery.Sound.recovered (sound : row.Sound attempts requests)
    (distinct : (attempts.map Attempt.id).Nodup) :
    (if row.overdue now attempts then row.recover now else row).Sound
      (Rows.update (Attempt.expired now) (Attempt.recover now) attempts) requests := by
  have accepted : ∀ attempt ∈ Rows.update (Attempt.expired now) (Attempt.recover now) attempts,
      attempt.deliveryId = row.id → attempt.state = .accepted → row.acceptedOnce = true := by
    intro attempt here own accepted
    obtain ⟨old, before, ⟨_, rfl⟩ | ⟨_, rfl⟩⟩ := mem_update here
    · exact (nomatch accepted)
    · exact sound.accepted attempt before own accepted
  have last : ∀ attempt ∈ attempts, row.lastAttemptId = some attempt.id →
      attempt.expired now = row.overdue now attempts := by
    intro attempt here held
    cases overdue : row.overdue now attempts with
    | true =>
      obtain ⟨other, there, current⟩ := List.any_eq_true.mp overdue
      simp only [Bool.and_eq_true, beq_iff_eq] at current
      rw [unique distinct here there (Option.some.inj (held.symm.trans current.1.2))]
      exact current.1.1
    | false =>
      -- An attempt that is sending is the one that its row is at.
      by_contra expired
      rw [Bool.not_eq_false] at expired
      have sending : attempt.state = .sending := by
        simp only [Attempt.expired, Bool.and_eq_true, beq_iff_eq] at expired
        exact expired.1
      obtain ⟨_, fits⟩ := sound.fits attempt here held
      unfold Fits at fits
      split at fits
      · exact fits.1 sending
      · have all := List.any_eq_false.mp overdue attempt here
        simp [expired, held, fits.2] at all
  split
  · rename_i overdue
    exact {
      known := sound.known_update fun _ => rfl
      fits := fun attempt here held => by
        obtain ⟨old, before, ⟨_, rfl⟩ | ⟨running, rfl⟩⟩ := mem_update here
        · obtain ⟨own, fits⟩ := sound.fits old before held
          refine ⟨own, ?_⟩
          rw [Fits, if_neg (by simp [Delivery.recover])]
          refine ⟨rfl, ?_⟩
          obtain ⟨other, there, current⟩ := List.any_eq_true.mp overdue
          simp only [Bool.and_eq_true, beq_iff_eq] at current
          obtain rfl := unique distinct before there (Option.some.inj (held.symm.trans current.1.2))
          exact current.2.symm
        · rw [last attempt before held, overdue] at running
          exact (nomatch running)
      idle := fun none => by
        obtain ⟨other, _, current⟩ := List.any_eq_true.mp overdue
        simp [show row.lastAttemptId = .none from none] at current
      count := sound.count_update fun _ => rfl
      accepted := accepted
      budget := fun first => ⟨(sound.budget first).1, fun queued => nomatch queued⟩
      retried := sound.retried }
  · rename_i current
    exact {
      known := sound.known_update fun _ => rfl
      fits := fun attempt here held => by
        obtain ⟨old, before, ⟨expired, rfl⟩ | ⟨_, rfl⟩⟩ := mem_update here
        · rw [last old before held] at expired
          exact absurd expired current
        · exact sound.fits attempt before held
      idle := sound.idle
      count := sound.count_update fun _ => rfl
      accepted := accepted
      budget := sound.budget
      retried := sound.retried }

end Recovery

section Receipts

variable {chat : Option Chat} {outcome : Outcome}

/-- What stays of a delivery from its insertion on. -/
def Delivery.identity (row : Delivery) :
    Nat × Kind × EventKey × Option String × Option Nat × Option String × Option Nat :=
  (row.id, row.kind, row.eventKey, row.username, row.userCreatedAt, row.planId, row.expiresAt)

/-- What a receipt does to the row of its attempt. -/
structure Finished (receipt : Receipt) (attempt : Attempt) (row other : Delivery) : Prop where
  identity : other.identity = row.identity
  last : other.lastAttemptId = row.lastAttemptId
  count : other.attemptCount = row.attemptCount
  generation : other.generation = row.generation
  accepted : other.acceptedOnce = (row.acceptedOnce || decide (receipt.state = .accepted))
  state : (row.current attempt = false ∧ other.state = row.state) ∨ (row.current attempt = true ∧
    (other.state = receipt.state.delivery ∨
      (other.state = .queued ∧ receipt.retryable = true ∧ row.attemptCount < maxAutomaticAttempts)))

theorem finish_finished (host : Host) (s : Store) (now : Nat) (chat : Option Chat) (receipt : Receipt)
    (attempt : Attempt)
    (row : Delivery) : Finished receipt attempt row (row.finish host s now chat receipt attempt) := by
  have same : (row.accept receipt).current attempt = row.current attempt := rfl
  unfold Delivery.finish
  dsimp only
  rw [same]
  split
  · rename_i passed
    exact ⟨rfl, rfl, rfl, rfl, rfl, .inl ⟨passed, rfl⟩⟩
  · rename_i current
    rw [Bool.not_eq_false] at current
    split
    · rename_i again
      split
      · exact ⟨rfl, rfl, rfl, rfl, rfl, .inr ⟨current, .inl rfl⟩⟩
      · exact ⟨rfl, rfl, rfl, rfl, rfl, .inr ⟨current, .inr ⟨rfl, again.1, again.2.1⟩⟩⟩
    · exact ⟨rfl, rfl, rfl, rfl, rfl, .inr ⟨current, .inl rfl⟩⟩

theorem delivery_moves (state : AttemptState) : ¬ (state.delivery = .queued ∨ state.delivery = .cancelled) := by
  cases state <;> simp [AttemptState.delivery]

theorem Delivery.Sound.elsewhere (sound : row.Sound attempts requests) (here : attempt ∈ attempts)
    (distinct : (attempts.map Attempt.id).Nodup) (other : attempt.deliveryId ≠ row.id) (receipt : Receipt) :
    row.Sound (Rows.update (fun other => other.id == attempt.id) (Attempt.finish now receipt) attempts)
      requests where
  known := sound.known_update fun _ => rfl
  fits next listed held := by
    obtain ⟨old, before, ⟨selected, rfl⟩ | ⟨_, rfl⟩⟩ := mem_update listed
    · obtain rfl := unique distinct before here (beq_iff_eq.mp selected)
      exact absurd (sound.fits old before held).1 other
    · exact sound.fits next before held
  idle := sound.idle
  count := sound.count_update fun _ => rfl
  accepted next listed own := by
    obtain ⟨old, before, ⟨selected, rfl⟩ | ⟨_, rfl⟩⟩ := mem_update listed
    · obtain rfl := unique distinct before here (beq_iff_eq.mp selected)
      exact absurd own other
    · exact sound.accepted next before own
  budget := sound.budget
  retried := sound.retried

theorem Delivery.Sound.finished (sound : row.Sound attempts requests) (here : attempt ∈ attempts)
    (known : attempt.Sound)
    (distinct : (attempts.map Attempt.id).Nodup) (own : attempt.deliveryId = row.id)
    (unsettled : attempt.settled = false)
    {other : Delivery} (finished : Finished outcome.receipt attempt row other) :
    other.Sound (Rows.update (fun other => other.id == attempt.id) (Attempt.finish now outcome.receipt) attempts)
      requests := by
  have id : other.id = row.id := congrArg Prod.fst finished.identity
  have changed (next : Attempt) (listed : next ∈ Rows.update (fun other =>
      other.id == attempt.id) (Attempt.finish now outcome.receipt) attempts) :
      next = attempt.finish now outcome.receipt ∨ (next ∈ attempts ∧ next.id ≠ attempt.id) := by
    obtain ⟨old, before, ⟨selected, rfl⟩ | ⟨elsewhere, rfl⟩⟩ := mem_update listed
    · obtain rfl := unique distinct before here (beq_iff_eq.mp selected)
      exact .inl rfl
    · exact .inr ⟨before, by simpa using elsewhere⟩
  exact {
    known := fun lastId held => sound.known_update (fun _ => by rfl) lastId (finished.last ▸ held)
    fits := fun next listed held => by
      rw [finished.last] at held
      rcases changed next listed with rfl | ⟨before, elsewhere⟩
      · obtain ⟨_, fits⟩ := sound.fits attempt here held
        refine ⟨own.trans id.symm, ?_⟩
        rcases finished.state with ⟨passed, same⟩ | ⟨current, moved⟩
        · -- A delivery that has gone on waits with its attempt unknown and the risk confirmed.
          have apart : attempt.generation ≠ row.generation := by
            intro generation
            simp [Delivery.current, show row.lastAttemptId = some attempt.id from held, generation] at passed
          unfold Fits at fits ⊢
          rw [same, finished.generation]
          split at fits
          · rename_i waits
            rw [if_pos waits]
            have unknown := (known.open_state unsettled).resolve_left fits.1
            exact ⟨receipt_state outcome, fun generation => absurd generation apart, fun _ => fits.2.2 unknown⟩
          · exact absurd fits.2 apart
        · have generation : attempt.generation = row.generation := by
            simp only [Delivery.current, Bool.and_eq_true, beq_iff_eq] at current
            exact current.2.symm
          rcases moved with state | ⟨queued, retryable, _⟩
          · rw [Fits, state, finished.generation, if_neg (delivery_moves _)]
            exact ⟨rfl, generation⟩
          · have failed : outcome.receipt.state = .failed := receipt_retryable retryable
            rw [Fits, if_pos (.inl queued)]
            refine ⟨receipt_state outcome, fun _ => ⟨settled_finish _ _, ?_⟩, fun unknown => ?_⟩
            · exact fun unknown => nomatch failed.symm.trans unknown
            · exact (nomatch failed.symm.trans unknown)
      · obtain ⟨belongs, fits⟩ := sound.fits next before held
        refine ⟨belongs.trans id.symm, ?_⟩
        rcases finished.state with ⟨_, same⟩ | ⟨current, _⟩
        · unfold Fits at fits ⊢
          rwa [same, finished.generation]
        · simp only [Delivery.current, Bool.and_eq_true, beq_iff_eq] at current
          exact absurd (Option.some.inj (held.symm.trans current.1)) elsewhere
    idle := fun none => by
      rw [finished.last] at none
      rcases finished.state with ⟨_, same⟩ | ⟨current, _⟩
      · rw [same]
        exact sound.idle none
      · simp [Delivery.current, none] at current
    count := by
      rw [finished.count, id]
      exact sound.count_update fun _ => rfl
    accepted := fun next listed belongs accepted => by
      rw [finished.accepted]
      rcases changed next listed with rfl | ⟨before, _⟩
      · rw [decide_eq_true (show outcome.receipt.state = .accepted from accepted), Bool.or_true]
      · rw [sound.accepted next before (belongs.trans id) accepted, Bool.true_or]
    budget := fun first => by
      obtain ⟨most, more⟩ := sound.budget (finished.generation ▸ first)
      rw [finished.count]
      refine ⟨most, fun queued => ?_⟩
      rcases finished.state with ⟨_, same⟩ | ⟨_, state | ⟨_, _, fewer⟩⟩
      · exact more (same ▸ queued)
      · exact absurd (.inl (state.symm.trans queued)) (delivery_moves outcome.receipt.state)
      · exact fewer
    retried := fun again => by
      rw [id]
      exact sound.retried (finished.generation ▸ again) }

end Receipts

section HandOuts

variable {next : Attempt}

theorem Delivery.Sound.another (sound : row.Sound attempts requests)
    (fresh : ∀ attempt ∈ attempts, attempt.id ≠ next.id)
    (other : next.deliveryId ≠ row.id) (state : next.state = .sending) :
    row.Sound (attempts ++ [next]) requests where
  known id held := by
    obtain ⟨old, here, same⟩ := sound.known id held
    exact ⟨old, List.mem_append_left _ here, same⟩
  fits attempt here held := by
    rcases List.mem_append.mp here with old | new
    · exact sound.fits attempt old held
    · obtain rfl := List.mem_singleton.mp new
      obtain ⟨old, listed, same⟩ := sound.known _ held
      exact absurd same (fresh old listed)
  idle := sound.idle
  count := by
    have out : (next.deliveryId == row.id) = false := by simpa using other
    rw [List.filter_append, List.length_append, sound.count, List.filter_singleton, out]
    rfl
  accepted attempt here own accepted := by
    rcases List.mem_append.mp here with old | new
    · exact sound.accepted attempt old own accepted
    · obtain rfl := List.mem_singleton.mp new
      exact (nomatch state.symm.trans accepted)
  budget := sound.budget
  retried := sound.retried

theorem Delivery.Sound.handedOut (sound : row.Sound attempts requests)
    (fresh : ∀ attempt ∈ attempts, attempt.id ≠ next.id)
    (own : next.deliveryId = row.id) (state : next.state = .sending) (generation : next.generation = row.generation)
    (queued : row.state = .queued) {other : Delivery} (id : other.id = row.id) (sending : other.state = .sending)
    (last : other.lastAttemptId = some next.id) (count : other.attemptCount = row.attemptCount + 1)
    (accepted : other.acceptedOnce = row.acceptedOnce) (same : other.generation = row.generation) :
    other.Sound (attempts ++ [next]) requests where
  known lastId held := ⟨next, by simp, Option.some.inj (last.symm.trans held)⟩
  fits attempt here held := by
    have new : attempt.id = next.id := (Option.some.inj (last.symm.trans held)).symm
    rcases List.mem_append.mp here with old | here
    · exact absurd new (fresh attempt old)
    · obtain rfl := List.mem_singleton.mp here
      refine ⟨own.trans id.symm, ?_⟩
      rw [Fits, sending, if_neg (by simp), state, generation, same]
      exact ⟨rfl, rfl⟩
  idle none := nomatch last.symm.trans none
  count := by
    have selected : (next.deliveryId == row.id) = true := by simpa using own
    rw [count, id, List.filter_append, List.length_append, ← sound.count, List.filter_singleton, selected]
    rfl
  accepted attempt here belongs wasAccepted := by
    rw [accepted]
    rcases List.mem_append.mp here with old | new
    · exact sound.accepted attempt old (belongs.trans id) wasAccepted
    · obtain rfl := List.mem_singleton.mp new
      exact (nomatch state.symm.trans wasAccepted)
  budget first := by
    obtain ⟨_, more⟩ := sound.budget (same ▸ first)
    rw [count]
    exact ⟨more queued, fun waits => nomatch sending.symm.trans waits⟩
  retried again := by
    rw [id]
    exact sound.retried (same ▸ again)

end HandOuts

end OpenNode.Notifications
