import OpenNode.SecureChannel

namespace OpenNode

open BigEndian ReplayWindow

namespace ChannelSession

variable {session : ChannelSession} {accepted : List Nat} {sequence : Nat} {envelope : Bytes}

/-- The window fields of a session denote the accepted sequence numbers. -/
def Window (session : ChannelSession) (accepted : List Nat) : Prop :=
  Denotes 64 session.recvMax session.recvBitmap accepted

/-- A sequence number that a session can still accept. -/
def Fresh (session : ChannelSession) (accepted : List Nat) (sequence : Nat) : Prop :=
  0 < sequence ∧ sequence ∉ accepted ∧ session.recvMax < sequence + 64

theorem Window.refuses_iff (window : session.Window accepted) :
    session.refuses sequence = false ↔ session.Fresh accepted sequence := by
  unfold refuses Fresh
  simp only [Bool.or_eq_false_iff, beq_eq_false_iff_ne, decide_eq_false_iff_not, Bool.and_eq_false_iff,
    bne_eq_false_iff_eq, and_bit_eq_zero]
  by_cases below : sequence ≤ session.recvMax
  · have distance : ((session.recvMax : Int) - sequence).toNat = session.recvMax - sequence := by omega
    rw [distance]
    constructor
    · rintro ⟨⟨nonzero, recent⟩, clear⟩
      have near : session.recvMax - sequence < 64 := by omega
      have unset : session.recvBitmap.testBit (session.recvMax - sequence) = false := by
        rcases clear with behind | unset
        · omega
        · exact unset
      refine ⟨by omega, fun old => ?_, by omega⟩
      rw [(window.testBit_below below near).mpr old] at unset
      cases unset
    · rintro ⟨positive, fresh, recent⟩
      refine ⟨⟨by omega, by omega⟩, .inr ?_⟩
      by_contra set
      exact fresh ((window.testBit_below below (by omega)).mp (by simpa using set))
  · constructor
    · intro _
      exact ⟨by omega, fun old => absurd (window.bound sequence old) below, by omega⟩
    · intro _
      exact ⟨⟨by omega, by omega⟩, .inl (by omega)⟩

theorem Window.record (window : session.Window accepted) (fresh : session.Fresh accepted sequence) :
    (session.record sequence).Window (sequence :: accepted) := by
  obtain ⟨positive, unseen, recent⟩ := fresh
  unfold ChannelSession.record
  split
  · rename_i above
    exact Denotes.advance window (by omega) above
  · rename_i below
    have under : sequence ≤ session.recvMax := by omega
    have near : session.recvMax - sequence < 64 := by omega
    exact Denotes.mark window positive under near unseen

/-- What `decrypt` does: it refuses the packet and keeps the session, or it
records the number of a well-formed, unrefused packet that the cipher opens. -/
theorem decrypt_cases (session : ChannelSession) (envelope : Bytes) :
    (∃ error, session.decrypt envelope = (.error error, session) ∧
      (malformed envelope = true ∨ session.refuses (sequenceOf envelope) = true ∨
        session.recvCipher.decrypt (nonce session.recvNonce (sequenceOf envelope)) (envelope.drop 9) = none)) ∨
    ∃ plaintext, session.decrypt envelope = (.ok plaintext, session.record (sequenceOf envelope)) ∧
      malformed envelope = false ∧ session.refuses (sequenceOf envelope) = false ∧
      session.recvCipher.decrypt (nonce session.recvNonce (sequenceOf envelope)) (envelope.drop 9) =
        some plaintext := by
  unfold decrypt
  dsimp only
  split
  · rename_i bad
    exact .inl ⟨_, rfl, .inl bad⟩
  · rename_i formed
    split
    · rename_i replayed
      exact .inl ⟨_, rfl, .inr (.inl replayed)⟩
    · rename_i passed
      split
      · rename_i forged
        exact .inl ⟨_, rfl, .inr (.inr forged)⟩
      · rename_i plaintext opened
        exact .inr ⟨plaintext, rfl, by simpa using formed, by simpa using passed, opened⟩

theorem Window.decrypt_ok (window : session.Window accepted) :
    (∃ plaintext, (session.decrypt envelope).1 = .ok plaintext) ↔
      malformed envelope = false ∧ session.Fresh accepted (sequenceOf envelope) ∧
        ∃ plaintext, session.recvCipher.decrypt (nonce session.recvNonce (sequenceOf envelope))
          (envelope.drop 9) = some plaintext := by
  rw [← window.refuses_iff]
  rcases session.decrypt_cases envelope with ⟨error, failed, cause⟩ | ⟨plaintext, done, formed, passed, opened⟩
  · rw [failed]
    rcases cause with bad | replayed | forged
    · simp [bad]
    · simp [replayed]
    · simp [forged]
  · rw [done]
    simp [formed, passed, opened]

@[simp] theorem record_sendNonce : (session.record sequence).sendNonce = session.sendNonce := by
  unfold record
  split <;> rfl

@[simp] theorem record_sendSequence : (session.record sequence).sendSequence = session.sendSequence := by
  unfold record
  split <;> rfl

theorem nonce_inj {base : Bytes} {a b : Nat} (short : base.length ≤ 12) (fitsA : a ≤ maxSequence)
    (fitsB : b ≤ maxSequence) (same : nonce base a = nonce base b) : a = b := by
  have limit : maxSequence < 2 ^ 96 := by decide
  have bytes : (256 : Nat) ^ 12 = 2 ^ 96 := by decide
  have value : fromBytes base < 2 ^ 96 :=
    bytes ▸ Nat.lt_of_lt_of_le (fromBytes_lt base) (Nat.pow_le_pow_right (by omega) short)
  have inside : ∀ {n}, n ≤ maxSequence → fromBytes base ^^^ n < 256 ^ 12 := by
    intro n fits
    rw [bytes]
    exact Nat.xor_lt_two_pow value (Nat.lt_of_le_of_lt fits limit)
  exact Nat.xor_right_inj.mp (toBytes_inj (inside fitsA) (inside fitsB) same)

theorem encrypt_cases (session : ChannelSession) (plaintext : Bytes) :
    (∃ error, session.encrypt plaintext = (.error error, session)) ∨
    plaintext.length ≤ maxMessageBytes ∧ session.sendSequence < maxSequence ∧ session.encrypt plaintext =
        (.ok ([1] ++ toBytes 8 (session.sendSequence + 1) ++
          session.sendCipher.encrypt session.nextNonce plaintext),
          { session with sendSequence := session.sendSequence + 1 }) := by
  unfold encrypt
  split
  · exact .inl ⟨_, rfl⟩
  · rename_i room
    exact .inr ⟨by omega, by omega, rfl⟩

theorem envelope_wellFormed {plaintext ciphertext : Bytes} (small : plaintext.length ≤ maxMessageBytes)
    (tag : ciphertext.length = plaintext.length + 16) (n : Nat) :
    malformed ([1] ++ toBytes 8 n ++ ciphertext) = false := by
  simp only [malformed, List.length_append, List.length_singleton, length_toBytes, tag, Bool.or_eq_false_iff,
    decide_eq_false_iff_not]
  refine ⟨⟨by omega, by omega⟩, by simp⟩

end ChannelSession

/-- The runs of a channel. The cipher is ideal at every well-formed packet that
the network delivers. -/
inductive ChannelRun (first : Channel) : Channel → Prop
  | start : ChannelRun first first
  | step {channel : Channel} (event : ChannelEvent) : ChannelRun first channel →
      (∀ envelope, event = .decrypt envelope → ChannelSession.malformed envelope = false →
        channel.Authenticates envelope) →
      ChannelRun first (channel.step event)

namespace Channel

open ChannelSession

/-- What replay protection says of a channel. -/
structure ReplayProtected (channel : Channel) : Prop where
  acceptedOnce : channel.accepted.Nodup
  window : channel.session.Window channel.accepted
  bitmap : channel.session.recvBitmap < 2 ^ 64
  noncesOnce : channel.nonces.Nodup
  accepts : ∀ envelope, (malformed envelope = false → channel.Authenticates envelope) →
    ((∃ plaintext, (channel.session.decrypt envelope).1 = .ok plaintext) ↔
      (∃ plaintext, (plaintext, envelope) ∈ channel.produced) ∧
        channel.session.Fresh channel.accepted (sequenceOf envelope))
  rejects : ∀ envelope error, (channel.session.decrypt envelope).1 = .error error →
    channel.step (.decrypt envelope) = channel

/-- The invariant of a run. -/
structure Sound (channel : Channel) : Prop where
  window : channel.session.Window channel.accepted
  base : channel.session.sendNonce.length ≤ 12
  limit : channel.session.sendSequence ≤ maxSequence
  nonces : channel.nonces.Nodup
  used : ∀ used ∈ channel.nonces, ∃ n, n ≤ channel.session.sendSequence ∧
    used = nonce channel.session.sendNonce n
  tag : ∀ base plaintext, (channel.peer.sendCipher.encrypt base plaintext).length = plaintext.length + 16
  produced : ∀ entry ∈ channel.produced, malformed entry.2 = false

variable {channel : Channel}

theorem Sound.encrypt (sound : channel.Sound) (plaintext : Bytes) : (channel.step (.encrypt plaintext)).Sound := by
  rcases channel.session.encrypt_cases plaintext with ⟨error, failed⟩ | ⟨_, room, sent⟩
  · simp only [step, failed]
    exact sound
  · simp only [step, sent]
    have new : channel.session.nextNonce ∉ channel.nonces := by
      intro old
      obtain ⟨n, earlier, same⟩ := sound.used _ old
      have below : n ≤ maxSequence := Nat.le_trans earlier sound.limit
      have equal := nonce_inj sound.base room below same
      omega
    exact
      { window := sound.window
        base := sound.base
        limit := room
        nonces := List.nodup_cons.mpr ⟨new, sound.nonces⟩
        used := by
          intro used member
          rcases List.mem_cons.mp member with rfl | old
          · exact ⟨_, Nat.le_refl _, rfl⟩
          · obtain ⟨n, earlier, same⟩ := sound.used _ old
            exact ⟨n, Nat.le_succ_of_le earlier, same⟩
        tag := sound.tag
        produced := sound.produced }

theorem Sound.peerEncrypt (sound : channel.Sound) (plaintext : Bytes) :
    (channel.step (.peerEncrypt plaintext)).Sound := by
  rcases channel.peer.encrypt_cases plaintext with ⟨error, failed⟩ | ⟨small, _, sent⟩
  · simp only [step, failed]
    exact sound
  · simp only [step, sent]
    exact
      { sound with
        produced := by
          intro entry member
          rcases List.mem_cons.mp member with rfl | old
          · exact envelope_wellFormed small (sound.tag _ _) _
          · exact sound.produced _ old }

theorem Sound.decrypt (sound : channel.Sound) (envelope : Bytes) : (channel.step (.decrypt envelope)).Sound := by
  rcases channel.session.decrypt_cases envelope with ⟨error, failed, _⟩ | ⟨plaintext, done, _, passed, _⟩
  · simp only [step, failed]
    exact sound
  · simp only [step, done]
    exact
      { window := sound.window.record (sound.window.refuses_iff.mp passed)
        base := by simpa using sound.base
        limit := by simpa using sound.limit
        nonces := sound.nonces
        used := by simpa using sound.used
        tag := sound.tag
        produced := sound.produced }

theorem Sound.step (sound : channel.Sound) (event : ChannelEvent) : (channel.step event).Sound := by
  cases event with
  | encrypt plaintext => exact sound.encrypt plaintext
  | peerEncrypt plaintext => exact sound.peerEncrypt plaintext
  | decrypt envelope => exact sound.decrypt envelope

theorem Sound.replayProtected (sound : channel.Sound) : channel.ReplayProtected where
  acceptedOnce := sound.window.once
  window := sound.window
  bitmap := Denotes.lt sound.window
  noncesOnce := sound.nonces
  accepts envelope ideal := by
    rw [sound.window.decrypt_ok]
    constructor
    · rintro ⟨formed, fresh, plaintext, opened⟩
      exact ⟨⟨plaintext, (ideal formed plaintext).mp opened⟩, fresh⟩
    · rintro ⟨⟨plaintext, made⟩, fresh⟩
      have formed : malformed envelope = false := sound.produced _ made
      exact ⟨formed, fresh, plaintext, (ideal formed plaintext).mpr made⟩
  rejects envelope error failed := by
    rcases channel.session.decrypt_cases envelope with ⟨_, kept, _⟩ | ⟨plaintext, done, _⟩
    · simp only [Channel.step, kept]
    · simp [done] at failed

theorem sound_start (aesgcm : Bytes → Cipher) (hkdf : (salt shared : Bytes) → Bytes)
    (shared agentPublic masterPublic : Bytes) (isMaster : Bool)
    (tag : ∀ key base plaintext, ((aesgcm key).encrypt base plaintext).length = plaintext.length + 16) :
    (start aesgcm hkdf shared agentPublic masterPublic isMaster).Sound where
  window := .start 64
  base := by
    cases isMaster <;> exact List.length_take_le _ _
  limit := Nat.zero_le _
  nonces := List.nodup_nil
  used := by simp [start]
  tag := fun _ _ => tag _ _ _
  produced := by simp [start]

end Channel

/-- Every state of a run is protected against replay, whatever the network
delivers and in whatever order. -/
theorem ChannelRun.replay_protection {aesgcm : Bytes → Cipher} {hkdf : (salt shared : Bytes) → Bytes}
    {shared agentPublic masterPublic : Bytes} {isMaster : Bool} {channel : Channel}
    (tag : ∀ key base plaintext, ((aesgcm key).encrypt base plaintext).length = plaintext.length + 16)
    (run : ChannelRun (Channel.start aesgcm hkdf shared agentPublic masterPublic isMaster) channel) :
    channel.ReplayProtected := by
  suffices sound : channel.Sound from sound.replayProtected
  induction run with
  | start => exact Channel.sound_start aesgcm hkdf shared agentPublic masterPublic isMaster tag
  | step event _ _ ih => exact ih.step event

section Greeting

/-- A cipher whose tag is the nonce itself. -/
def nonceCipher : Cipher where
  encrypt base plaintext := plaintext ++ (base ++ List.replicate 16 0).take 16
  decrypt base ciphertext :=
    let plaintext := ciphertext.take (ciphertext.length - 16)
    if ciphertext = plaintext ++ (base ++ List.replicate 16 0).take 16 then some plaintext else none

/-- An Agent and its master after the Agent sent one message. -/
def greeted : Channel :=
  (Channel.start (fun _ => nonceCipher) (fun _ _ => List.replicate 88 7) [] [] [] true).step
    (.peerEncrypt [104, 105])

def greeting : Bytes :=
  [1] ++ toBytes 8 1 ++ nonceCipher.encrypt (ChannelSession.nonce (List.replicate 12 7) 1) [104, 105]

theorem greeted_authenticates : greeted.Authenticates greeting := by
  have made : greeted.produced = [([104, 105], greeting)] := by decide
  have opened : greeted.session.recvCipher.decrypt
      (ChannelSession.nonce greeted.session.recvNonce (ChannelSession.sequenceOf greeting)) (greeting.drop 9) =
        some [104, 105] := by decide
  intro plaintext
  rw [opened, made]
  simp [eq_comm]

/-- The message is delivered. -/
theorem greeted_replay_protection : (greeted.step (.decrypt greeting)).ReplayProtected := by
  have tag : ∀ base plaintext, (nonceCipher.encrypt base plaintext).length = plaintext.length + 16 := by
    intro base plaintext
    simp only [nonceCipher, List.length_append, List.length_take, List.length_replicate]
    omega
  have sent : ChannelRun (Channel.start (fun _ => nonceCipher) (fun _ _ => List.replicate 88 7) [] [] [] true)
      greeted := .step (.peerEncrypt [104, 105]) .start nofun
  have delivered := ChannelRun.step (.decrypt greeting) sent fun envelope delivered _ => by
    cases delivered
    exact greeted_authenticates
  exact ChannelRun.replay_protection (fun _ => tag) delivered

end Greeting

end OpenNode
