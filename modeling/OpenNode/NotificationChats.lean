import OpenNode.NotificationDeliveries

namespace OpenNode.Notifications

open Function

variable {now : Nat} {attempts : List Attempt} {chats : String → Option Chat} {attempt : Attempt}

/-- The result of an attempt is still open before its deadline. -/
def Attempt.InFlight (now : Nat) (attempt : Attempt) : Prop :=
  (attempt.state = .sending ∨ attempt.state = .unknown) ∧ now < attempt.deadlineAt

def Attempt.start (attempt : Attempt) : String × Nat :=
  (attempt.chatId, attempt.startedAt)

/-- The throttles know the last attempt of every chat and the one in flight. -/
structure Spaced (now : Nat) (attempts : List Attempt) (chats : String → Option Chat) : Prop where
  apart : (attempts.map Attempt.start).Pairwise fun a b => a.1 = b.1 → a.2 + chatInterval ≤ b.2
  allowed : ∀ attempt ∈ attempts, ∃ chat, chats attempt.chatId = some chat ∧
    attempt.startedAt + chatInterval ≤ chat.nextAllowedAt
  flight : ∀ attempt ∈ attempts, attempt.InFlight now → ∃ chat, chats attempt.chatId = some chat ∧
    chat.inFlightAttemptId = some attempt.id ∧ chat.deadlineAt = some attempt.deadlineAt

theorem Spaced.later (spaced : Spaced now attempts chats) {after : Nat} (later : now ≤ after) :
    Spaced after attempts chats :=
  { spaced with
    flight := fun attempt here flying => spaced.flight attempt here ⟨flying.1, Nat.lt_of_le_of_lt later flying.2⟩ }

theorem Spaced.one (spaced : Spaced now attempts chats) (distinct : (attempts.map Attempt.id).Nodup)
    {other : Attempt}
    (here : attempt ∈ attempts) (there : other ∈ attempts) (same : attempt.chatId = other.chatId)
    (flying : attempt.InFlight now) (flying' : other.InFlight now) : attempt = other := by
  obtain ⟨chat, known, current, _⟩ := spaced.flight attempt here flying
  obtain ⟨chat', known', current', _⟩ := spaced.flight other there flying'
  cases known.symm.trans (same ▸ known')
  exact Rows.unique distinct here there (Option.some.inj (current.symm.trans current'))

theorem recover_nextAllowedAt (now : Nat) (chat : Chat) :
    chat.nextAllowedAt ≤ (chat.recover now).nextAllowedAt := by
  unfold Chat.recover
  split
  · exact Nat.le_max_left _ _
  · exact Nat.le_refl _

theorem Spaced.recover (spaced : Spaced now attempts chats) :
    Spaced now (Rows.update (Attempt.expired now) (Attempt.recover now) attempts)
    (fun id => (chats id).map (Chat.recover now)) where
  apart := by
    have keeps (attempt : Attempt) : (attempt.recover now).start = attempt.start := rfl
    rw [Rows.keys_update keeps]
    exact spaced.apart
  allowed attempt here := by
    have listed : ∃ old ∈ attempts, attempt.chatId = old.chatId ∧ attempt.startedAt = old.startedAt := by
      obtain ⟨old, before, ⟨_, rfl⟩ | ⟨_, rfl⟩⟩ := Rows.mem_update here
      exacts [⟨old, before, rfl, rfl⟩, ⟨attempt, before, rfl, rfl⟩]
    obtain ⟨old, before, chat, start⟩ := listed
    obtain ⟨known, found, allowed⟩ := spaced.allowed old before
    refine ⟨known.recover now, by rw [chat, found]; rfl, ?_⟩
    rw [start]
    exact Nat.le_trans allowed (recover_nextAllowedAt now known)
  flight attempt here flying := by
    obtain ⟨old, before, ⟨expired, rfl⟩ | ⟨_, rfl⟩⟩ := Rows.mem_update here
    · simp only [Attempt.expired, Bool.and_eq_true, decide_eq_true_eq] at expired
      exact absurd flying.2 (Nat.not_lt.mpr expired.2)
    · obtain ⟨chat, found, current, deadline⟩ := spaced.flight attempt before flying
      have running : ¬ attempt.deadlineAt ≤ now := Nat.not_le.mpr flying.2
      refine ⟨chat, ?_, current, deadline⟩
      rw [found, Option.map_some, Chat.recover, deadline, if_neg (by simp [running])]

theorem Spaced.handOut (spaced : Spaced now attempts chats) {next : Attempt}
    (free : Chat.blocked now (chats next.chatId) = false)
    (start : next.startedAt = now) :
    Spaced now (attempts ++ [next]) (Function.update chats next.chatId (some {
      nextAllowedAt := now + chatInterval
      inFlightAttemptId := some next.id
      deadlineAt := some next.deadlineAt })) := by
  have waited : ∀ attempt ∈ attempts, attempt.chatId = next.chatId → attempt.startedAt + chatInterval ≤ now ∧
      ¬ attempt.InFlight now := by
    intro attempt here same
    obtain ⟨chat, found, allowed⟩ := spaced.allowed attempt here
    rw [same] at found
    simp only [Chat.blocked, found, Option.any_some, Bool.or_eq_false_iff, decide_eq_false_iff_not,
      Nat.not_lt] at free
    refine ⟨Nat.le_trans allowed free.2, fun flying => ?_⟩
    obtain ⟨chat', found', current, _⟩ := spaced.flight attempt here flying
    cases found.symm.trans (same ▸ found')
    simp [current] at free
  exact {
    apart := by
      rw [List.map_append, List.map_singleton, List.pairwise_append]
      refine ⟨spaced.apart, List.pairwise_singleton _ _, fun earlier listed last new same => ?_⟩
      obtain ⟨attempt, here, rfl⟩ := List.mem_map.mp listed
      obtain rfl := List.mem_singleton.mp new
      rw [Attempt.start, Attempt.start, start]
      exact (waited attempt here same).1
    allowed := fun attempt here => by
      rcases List.mem_append.mp here with old | new
      · by_cases same : attempt.chatId = next.chatId
        · rw [same, update_self]
          exact ⟨_, rfl, Nat.le_add_right_of_le (waited attempt old same).1⟩
        · rw [update_of_ne same]
          exact spaced.allowed attempt old
      · obtain rfl := List.mem_singleton.mp new
        rw [update_self]
        exact ⟨_, rfl, by rw [start]⟩
    flight := fun attempt here flying => by
      rcases List.mem_append.mp here with old | new
      · by_cases same : attempt.chatId = next.chatId
        · exact absurd flying (waited attempt old same).2
        · rw [update_of_ne same]
          exact spaced.flight attempt old flying
      · obtain rfl := List.mem_singleton.mp new
        rw [update_self]
        exact ⟨_, rfl, rfl, rfl⟩ }

theorem finish_nextAllowedAt (now : Nat) (receipt : Receipt) (attempt : Attempt) (chat : Chat) :
    chat.nextAllowedAt ≤ (chat.finish now receipt attempt).nextAllowedAt := by
  unfold Chat.finish
  dsimp only
  split <;> exact Nat.le_trans (Nat.le_max_left _ _) (Nat.le_max_left _ _)

theorem finish_inFlight (now : Nat) (receipt : Receipt) (attempt : Attempt) (chat : Chat)
    (other : chat.inFlightAttemptId = some attempt.id → receipt.state = .unknown ∧ now < attempt.deadlineAt) :
    (chat.finish now receipt attempt).inFlightAttemptId = chat.inFlightAttemptId ∧
      (chat.finish now receipt attempt).deadlineAt = chat.deadlineAt := by
  unfold Chat.finish
  dsimp only
  split
  · rename_i ended
    obtain ⟨unknown, running⟩ := other ended.1
    exact absurd ended.2 (by simp [unknown, running])
  · exact ⟨rfl, rfl⟩

theorem Spaced.finish (spaced : Spaced now attempts chats) (distinct : (attempts.map Attempt.id).Nodup)
    (here : attempt ∈ attempts)
    (known : attempt.Sound) (unsettled : attempt.settled = false) (outcome : Outcome) :
    Spaced now (Rows.update (fun other => other.id == attempt.id) (Attempt.finish now outcome.receipt) attempts)
      (Function.update chats attempt.chatId
        ((chats attempt.chatId).map (Chat.finish now outcome.receipt attempt))) where
  apart := by
    have keeps (attempt : Attempt) : (attempt.finish now outcome.receipt).start = attempt.start := rfl
    rw [Rows.keys_update keeps]
    exact spaced.apart
  allowed next listed := by
    have listed : ∃ old ∈ attempts, next.chatId = old.chatId ∧ next.startedAt = old.startedAt := by
      obtain ⟨old, before, ⟨_, rfl⟩ | ⟨_, rfl⟩⟩ := Rows.mem_update listed
      exacts [⟨old, before, rfl, rfl⟩, ⟨next, before, rfl, rfl⟩]
    obtain ⟨old, before, same, start⟩ := listed
    obtain ⟨chat, found, allowed⟩ := spaced.allowed old before
    rw [same, start]
    by_cases own : old.chatId = attempt.chatId
    · refine ⟨chat.finish now outcome.receipt attempt, ?_, Nat.le_trans allowed (finish_nextAllowedAt now _ _ _)⟩
      rw [own, update_self, ← own, found]
      rfl
    · exact ⟨chat, by rwa [update_of_ne own], allowed⟩
  flight next listed flying := by
    have before : ∃ old ∈ attempts, next.id = old.id ∧ next.chatId = old.chatId ∧ next.deadlineAt = old.deadlineAt ∧
        old.InFlight now ∧ (old.id = attempt.id → outcome.receipt.state = .unknown) := by
      obtain ⟨old, before, ⟨selected, rfl⟩ | ⟨elsewhere, rfl⟩⟩ := Rows.mem_update listed
      · obtain rfl := Rows.unique distinct before here (beq_iff_eq.mp selected)
        exact ⟨old, here, rfl, rfl, rfl, ⟨known.open_state unsettled, flying.2⟩,
          fun _ => flying.1.resolve_left (receipt_state outcome)⟩
      · exact ⟨next, before, rfl, rfl, rfl, flying, fun same => absurd same (by simpa using elsewhere)⟩
    obtain ⟨old, there, id, same, deadline, flew, unknown⟩ := before
    obtain ⟨chat, found, current, ends⟩ := spaced.flight old there flew
    rw [id, same, deadline]
    by_cases own : old.chatId = attempt.chatId
    · obtain ⟨kept, kept'⟩ := finish_inFlight now outcome.receipt attempt chat
        fun taken => by
          have self := Option.some.inj (current.symm.trans taken)
          obtain rfl := Rows.unique distinct there here self
          exact ⟨unknown rfl, flew.2⟩
      refine ⟨chat.finish now outcome.receipt attempt, ?_, kept.trans current, kept'.trans ends⟩
      rw [own, update_self, ← own, found]
      rfl
    · exact ⟨chat, by rwa [update_of_ne own], current, ends⟩

end OpenNode.Notifications
