import Mathlib

namespace OpenNode.GuardedWrite

open List

/-- A file at a name. Its fingerprint tells it from every other file; it may be
something else than one regular file without a second link. -/
structure ConfigEntry (B : Type) where
  fingerprint : Nat
  regular : Bool
  content : B
deriving DecidableEq, Repr

/-- What another program puts at the target. -/
structure ExternalWrite (B : Type) where
  regular : Bool := true
  content : B
deriving DecidableEq, Repr

/-- An exchange of the two names: what it put at the target, and what it took from there. -/
structure Exchange (B : Type) where
  placed : ConfigEntry B
  displaced : ConfigEntry B
deriving DecidableEq, Repr

/-- The directory of the config: the target and the temporary name, with the
entries that other programs wrote to the target and the exchanges and unlinks of
the Agent, the latest first. -/
structure ConfigDirectory (B : Type) where
  target : ConfigEntry B
  swap : Option (ConfigEntry B) := none
  serial : Nat
  clock : Nat := 0
  written : List (ConfigEntry B) := []
  exchanges : List (Exchange B) := []
  unlinked : List (ConfigEntry B) := []
deriving DecidableEq, Repr

/-- What comes between the steps of the Agent: the writes of other programs
before each of them, and the exchanges that fail, or after which the
fingerprint cannot be read or the directory synced. -/
structure Writers (B : Type) where
  writes : Nat → List (ExternalWrite B)
  exchangeFails : Nat → Bool := fun _ => false
  readFails : Nat → Bool := fun _ => false

/-- The digest and the size of a content. -/
structure ConfigFiles (B : Type) where
  digest : B → String
  size : B → Nat

variable {B : Type}

namespace ConfigDirectory

/-- A directory in which nothing has happened yet. -/
def start (entry : ConfigEntry B) : ConfigDirectory B where
  target := entry
  serial := entry.fingerprint + 1

/-- Another program replaces the target atomically. -/
def replaceTarget (d : ConfigDirectory B) (write : ExternalWrite B) : ConfigDirectory B :=
  let entry : ConfigEntry B := ⟨d.serial, write.regular, write.content⟩
  { d with target := entry, serial := d.serial + 1, written := entry :: d.written }

/-- Other programs write before the next step. -/
def interfere (writers : Writers B) (d : ConfigDirectory B) : ConfigDirectory B :=
  (writers.writes d.clock).foldl replaceTarget { d with clock := d.clock + 1 }

/-- The temporary file is made and filled. -/
def createTemporary (writers : Writers B) (content : B) (d : ConfigDirectory B) : ConfigDirectory B :=
  let d := d.interfere writers
  { d with swap := some ⟨d.serial, true, content⟩, serial := d.serial + 1 }

/-- The exchange of the two names. One that fails has no step of its own. -/
def renameExchange (writers : Writers B) (d : ConfigDirectory B) : Except String (ConfigDirectory B) :=
  if writers.exchangeFails d.clock then .error "Input/output error"
  else
    let d := d.interfere writers
    match d.swap with
    | none => .error "No such file or directory"
    | some entry =>
      .ok { d with target := entry, swap := some d.target, exchanges := ⟨entry, d.target⟩ :: d.exchanges }

/-- The unlink of the temporary name. -/
def unlinkSwap (writers : Writers B) (d : ConfigDirectory B) : ConfigDirectory B :=
  let d := d.interfere writers
  match d.swap with
  | none => d
  | some entry => { d with swap := none, unlinked := entry :: d.unlinked }

end ConfigDirectory

open ConfigDirectory

def maxConfigBytes : Nat := 2 * 1024 * 1024

def readRegularEntry (files : ConfigFiles B) (entry : ConfigEntry B) : Except String B :=
  if !entry.regular then .error "Xray config must be one regular non-hard-linked file"
  else if files.size entry.content > maxConfigBytes then .error "Xray configuration exceeds 2 MiB"
  else .ok entry.content

/-- `_exchange_until_stable`, for so many rounds. -/
def exchangeUntilStable (writers : Writers B) : Nat → Nat → Nat → Bool → ConfigDirectory B →
    Option (Except String Bool × ConfigDirectory B)
  | 0, _, _, _, _ => none
  | rounds + 1, expectedTarget, swapFingerprint, firstExchange, d =>
    match d.renameExchange writers with
    | .error error => some (.error error, d)
    | .ok d =>
      match d.swap with
      | none => some (.error "No such file or directory", d)
      | some displaced =>
        if writers.readFails d.clock then some (.error "Input/output error", d)
        else if displaced.fingerprint = expectedTarget then some (.ok firstExchange, d)
        else exchangeUntilStable writers rounds swapFingerprint displaced.fingerprint false d

structure GuardedAtomicWrite (B : Type) where
  previous : B
  candidateFingerprint : Nat
  backupFingerprint : Nat
  closed : Bool := false
deriving DecidableEq, Repr

/-- What follows the exchange in `guarded_atomic_write`: the displaced file is
read and compared, and the directory is synced. -/
def inspectDisplaced (files : ConfigFiles B) (expectedSha256 : String) (synced : Bool) (displaced : ConfigEntry B) :
    Except String B :=
  match readRegularEntry files displaced with
  | .error error => .error error
  | .ok previous =>
    if files.digest previous ≠ expectedSha256 then .error "Xray configuration changed during the guarded update"
    else if !synced then .error "Input/output error"
    else .ok previous

def swapRecoveryFailed : String := "Guarded Xray swap recovery failed"

def guardedAtomicWrite (files : ConfigFiles B) (writers : Writers B) (rounds : Nat) (content : B)
    (expectedSha256 : String) (synced : Bool) (d : ConfigDirectory B) :
    Option (Except String (GuardedAtomicWrite B) × ConfigDirectory B) :=
  let d := d.interfere writers
  if !d.target.regular then some (.error "Xray config must be one regular non-hard-linked file", d)
  else
    let d := d.createTemporary writers content
    match d.swap with
    | none => some (.error "No such file or directory", d)
    | some candidate =>
      match d.renameExchange writers with
      | .error error => some (.error error, d.unlinkSwap writers)
      | .ok d =>
        match d.swap with
        | none => some (.error "No such file or directory", d)
        | some displaced =>
          match inspectDisplaced files expectedSha256 synced displaced with
          | .ok previous =>
            some (.ok { previous, candidateFingerprint := candidate.fingerprint,
                        backupFingerprint := displaced.fingerprint }, d)
          | .error error =>
            match exchangeUntilStable writers rounds candidate.fingerprint displaced.fingerprint true d with
            | none => none
            | some (.error _, d) => some (.error swapRecoveryFailed, d)
            | some (.ok _, d) => some (.error error, d.unlinkSwap writers)

namespace GuardedAtomicWrite

def finish (write : GuardedAtomicWrite B) (writers : Writers B) (d : ConfigDirectory B) :
    GuardedAtomicWrite B × ConfigDirectory B :=
  if write.closed then (write, d) else ({ write with closed := true }, d.unlinkSwap writers)

def commit (write : GuardedAtomicWrite B) (writers : Writers B) (d : ConfigDirectory B) :
    GuardedAtomicWrite B × ConfigDirectory B :=
  write.finish writers d

def rollback (write : GuardedAtomicWrite B) (writers : Writers B) (rounds : Nat) (d : ConfigDirectory B) :
    Option (Except String Bool × ConfigDirectory B) :=
  if write.closed then some (.error "Guarded Xray write transaction is already closed", d)
  else
    match exchangeUntilStable writers rounds write.candidateFingerprint write.backupFingerprint true d with
    | none => none
    | some (.error error, d) => some (.error error, d)
    | some (.ok restoredPrevious, d) => some (.ok restoredPrevious, (write.finish writers d).2)

end GuardedAtomicWrite

inductive Ending where
  | commit | rollback
deriving DecidableEq, Repr

/-- How a guarded write and its end came out. -/
inductive Outcome (B : Type) where
  | raised (error : String)
  | committed (write : GuardedAtomicWrite B)
  | rolledBack (write : GuardedAtomicWrite B) (restoredPrevious : Bool)
  | rollbackRaised (write : GuardedAtomicWrite B) (error : String)
deriving DecidableEq, Repr

/-- A guarded write, and its commit or rollback. -/
def guardedUpdate (files : ConfigFiles B) (writers : Writers B) (rounds : Nat) (content : B)
    (expectedSha256 : String) (synced : Bool) (ending : Ending) (d : ConfigDirectory B) :
    Option (Outcome B × ConfigDirectory B) :=
  match guardedAtomicWrite files writers rounds content expectedSha256 synced d with
  | none => none
  | some (.error error, d) => some (.raised error, d)
  | some (.ok write, d) =>
    match ending with
    | .commit => some (.committed write, (write.commit writers d).2)
    | .rollback =>
      match write.rollback writers rounds d with
      | none => none
      | some (.error error, d) => some (.rollbackRaised write error, d)
      | some (.ok restoredPrevious, d) => some (.rolledBack write restoredPrevious, d)

namespace ConfigDirectory

variable {writers : Writers B} {d d' e : ConfigDirectory B} {original : ConfigEntry B}

/-- What other programs can do between two steps. -/
structure Interfered (d d' : ConfigDirectory B) : Prop where
  swap : d'.swap = d.swap
  exchanges : d'.exchanges = d.exchanges
  unlinked : d'.unlinked = d.unlinked
  serial : d.serial ≤ d'.serial
  known : (∀ entry ∈ d.written, entry.fingerprint < d.serial) → ∀ entry ∈ d'.written, entry.fingerprint < d'.serial
  target : d'.target = d.target ∧ d'.written = d.written ∨
    d'.target.fingerprint < d'.serial ∧ ∃ newer, d'.written = d'.target :: newer ++ d.written ∧
      ∀ entry ∈ d'.target :: newer, d.serial ≤ entry.fingerprint

theorem Interfered.replaceTarget (interfered : Interfered d d') (write : ExternalWrite B) :
    Interfered d (d'.replaceTarget write) where
  swap := interfered.swap
  exchanges := interfered.exchanges
  unlinked := interfered.unlinked
  serial := Nat.le_succ_of_le interfered.serial
  known known := by
    intro entry member
    rcases List.mem_cons.mp member with rfl | before
    · exact Nat.lt_succ_self _
    · exact Nat.lt_succ_of_lt (interfered.known known entry before)
  target := by
    refine .inr ⟨Nat.lt_succ_self _, ?_⟩
    rcases interfered.target with ⟨_, written⟩ | ⟨_, newer, written, fresh⟩
    · refine ⟨[], congrArg _ written, fun entry member => ?_⟩
      rw [List.mem_singleton.mp member]
      exact interfered.serial
    · refine ⟨d'.target :: newer, congrArg _ written, fun entry member => ?_⟩
      rcases List.mem_cons.mp member with rfl | before
      · exact interfered.serial
      · exact fresh entry before

theorem interfered_foldl (writes : List (ExternalWrite B)) (interfered : Interfered d d') :
    Interfered d (writes.foldl ConfigDirectory.replaceTarget d') := by
  induction writes generalizing d' with
  | nil => exact interfered
  | cons write rest ih => exact ih (interfered.replaceTarget write)

theorem interfere_interfered (writers : Writers B) (d : ConfigDirectory B) : Interfered d (d.interfere writers) :=
  interfered_foldl _ ⟨rfl, rfl, rfl, Nat.le_refl _, id, .inl ⟨rfl, rfl⟩⟩

/-- The entry that the target should hold: the newest of the other programs, or
the one that was there at the start. -/
def latest (original : ConfigEntry B) (d : ConfigDirectory B) : ConfigEntry B :=
  d.written.head?.getD original

/-- The target holds the latest entry. -/
structure Settled (original : ConfigEntry B) (d : ConfigDirectory B) : Prop where
  target : d.target = d.latest original
  fresh : d.target.fingerprint < d.serial

theorem Settled.interfered (settled : Settled original d) (interfered : Interfered d d') : Settled original d' := by
  rcases interfered.target with ⟨target, written⟩ | ⟨below, newer, written, _⟩
  · refine ⟨?_, ?_⟩
    · rw [target, settled.target, ConfigDirectory.latest, ConfigDirectory.latest, written]
    · rw [target]
      exact Nat.lt_of_lt_of_le settled.fresh interfered.serial
  · refine ⟨?_, below⟩
    rw [ConfigDirectory.latest, written]
    rfl

/-- The two fingerprints of the exchange loop. The latest entry is at the
temporary name while the target holds the expected one; otherwise a newer entry
has reached the target. -/
structure Balanced (original : ConfigEntry B) (expected : Nat) (held : ConfigEntry B)
    (d : ConfigDirectory B) : Prop where
  swap : d.swap = some held
  expected_fresh : expected < d.serial
  held_fresh : held.fingerprint < d.serial
  target_fresh : d.target.fingerprint < d.serial
  differs : d.target.fingerprint ≠ held.fingerprint
  latest : d.target.fingerprint = expected ∧ d.latest original = held ∨
    d.target.fingerprint ≠ expected ∧ d.latest original = d.target

theorem Balanced.interfered {expected : Nat} {held : ConfigEntry B} (balanced : Balanced original expected held d)
    (interfered : Interfered d d') : Balanced original expected held d' := by
  have expected_fresh := balanced.expected_fresh
  have held_fresh := balanced.held_fresh
  have target_fresh := balanced.target_fresh
  have serial := interfered.serial
  rcases interfered.target with ⟨target, written⟩ | ⟨below, newer, written, fresh⟩
  · refine ⟨interfered.swap.trans balanced.swap, by
      omega, by omega, by rw [target]; omega, target ▸ balanced.differs, ?_⟩
    rw [target, ConfigDirectory.latest, written]
    exact balanced.latest
  · have above := fresh _ mem_cons_self
    refine ⟨interfered.swap.trans balanced.swap, by omega, by omega, below, by omega, .inr ⟨by omega, ?_⟩⟩
    rw [ConfigDirectory.latest, written]
    rfl

/-- A round of the loop ended with the latest entry at the target and an older one
at the temporary name. -/
structure Stable (original : ConfigEntry B) (d : ConfigDirectory B) (older : ConfigEntry B) : Prop where
  settled : Settled original d
  swap : d.swap = some older
  fresh : older.fingerprint < d.serial
  differs : d.target.fingerprint ≠ older.fingerprint
  exchanged : ∃ earlier, d.exchanges = ⟨d.target, older⟩ :: earlier

/-- The directory after an exchange. -/
def exchanged (writers : Writers B) (held : ConfigEntry B) (d : ConfigDirectory B) : ConfigDirectory B :=
  { d.interfere writers with
    target := held
    swap := some (d.interfere writers).target
    exchanges := ⟨held, (d.interfere writers).target⟩ :: (d.interfere writers).exchanges }

variable {held : ConfigEntry B}

theorem renameExchange_eq (swap : d.swap = some held) : d.renameExchange writers =
    if writers.exchangeFails d.clock then .error "Input/output error" else .ok (d.exchanged writers held) := by
  unfold renameExchange
  dsimp only
  rw [(interfere_interfered writers d).swap, swap]
  rfl

theorem exchangeUntilStable_succ (swap : d.swap = some held) (rounds expected fingerprint : Nat) (first : Bool) :
    exchangeUntilStable writers (rounds + 1) expected fingerprint first d =
      if writers.exchangeFails d.clock then some (.error "Input/output error", d)
      else if writers.readFails (d.exchanged writers held).clock then
        some (.error "Input/output error", d.exchanged writers held)
      else if (d.interfere writers).target.fingerprint = expected then some (.ok first, d.exchanged writers held)
      else exchangeUntilStable writers rounds fingerprint (d.interfere writers).target.fingerprint false
        (d.exchanged writers held) := by
  rw [exchangeUntilStable, renameExchange_eq swap]
  cases writers.exchangeFails d.clock <;> rfl

section Loop

variable {expected rounds : Nat} {held : ConfigEntry B}

theorem Balanced.exchange_stable (balanced : Balanced original expected held d)
    (same : (d.interfere writers).target.fingerprint = expected) :
    Stable original (d.exchanged writers held) (d.interfere writers).target := by
  have here := balanced.interfered (interfere_interfered writers d)
  refine ⟨⟨?_, here.held_fresh⟩, rfl, here.target_fresh, here.differs.symm, _, rfl⟩
  rcases here.latest with ⟨_, latest⟩ | ⟨other, _⟩
  · exact latest.symm
  · exact absurd same other

theorem Balanced.exchange_next (balanced : Balanced original expected held d)
    (other : (d.interfere writers).target.fingerprint ≠ expected) :
    Balanced original held.fingerprint (d.interfere writers).target (d.exchanged writers held) := by
  have here := balanced.interfered (interfere_interfered writers d)
  refine ⟨rfl, here.held_fresh, here.target_fresh, here.held_fresh, here.differs.symm, .inl ⟨rfl, ?_⟩⟩
  rcases here.latest with ⟨same, _⟩ | ⟨_, latest⟩
  · exact absurd same other
  · exact latest

theorem Balanced.exchanges {first : Bool} {result : Except String Bool}
    (balanced : Balanced original expected held d)
    (ended : exchangeUntilStable writers rounds expected held.fingerprint first d = some (result, d')) :
    d'.unlinked = d.unlinked ∧ (∃ later, d'.exchanges = later ++ d.exchanges) ∧
      ∀ restored, result = .ok restored → ∃ older, Stable original d' older := by
  induction rounds generalizing expected held first d with
  | zero => cases ended
  | succ rounds ih =>
    have interfered := interfere_interfered writers d
    have added : (d.exchanged writers held).exchanges = [⟨held, (d.interfere writers).target⟩] ++ d.exchanges :=
      congrArg _ interfered.exchanges
    rw [exchangeUntilStable_succ balanced.swap] at ended
    split at ended
    · cases ended
      exact ⟨rfl, ⟨[], rfl⟩, fun _ failed => by cases failed⟩
    · split at ended
      · cases ended
        exact ⟨interfered.unlinked, ⟨_, added⟩, fun _ failed => by cases failed⟩
      · split at ended
        · rename_i same
          cases ended
          exact ⟨interfered.unlinked, ⟨_, added⟩, fun _ _ => ⟨_, balanced.exchange_stable same⟩⟩
        · rename_i other
          obtain ⟨kept, ⟨later, more⟩, stable⟩ := ih (balanced.exchange_next other) ended
          refine ⟨kept.trans interfered.unlinked, ⟨later ++ [⟨held, (d.interfere writers).target⟩], ?_⟩, stable⟩
          rw [more, added, append_assoc]

variable {restored : Bool}

theorem Balanced.later_rounds {backup : ConfigEntry B} (balanced : Balanced original expected held d)
    (away : held.fingerprint ≠ backup.fingerprint) (known : backup.fingerprint < d.serial)
    (only : d.target.fingerprint = backup.fingerprint → expected = backup.fingerprint)
    (ended : exchangeUntilStable writers rounds expected held.fingerprint false d = some (.ok restored, d')) :
    restored = false ∧ d'.target.fingerprint ≠ backup.fingerprint := by
  induction rounds generalizing expected held d with
  | zero => cases ended
  | succ rounds ih =>
    have interfered := interfere_interfered writers d
    rw [exchangeUntilStable_succ balanced.swap] at ended
    repeat' split at ended
    · cases ended
    · cases ended
    · cases ended
      exact ⟨rfl, away⟩
    · rename_i other
      refine ih (balanced.exchange_next other) (fun same => ?_) (Nat.lt_of_lt_of_le known interfered.serial)
        (fun back => absurd back away) ended
      rcases interfered.target with ⟨unchanged, _⟩ | ⟨_, newer, _, fresh⟩
      · rw [unchanged] at same other
        exact other (same.trans (only same).symm)
      · have above := fresh _ mem_cons_self
        omega

theorem Balanced.restores (balanced : Balanced original expected held d)
    (ended : exchangeUntilStable writers rounds expected held.fingerprint true d = some (.ok restored, d')) :
    restored = true ↔ d'.target = held := by
  cases rounds with
  | zero => cases ended
  | succ rounds =>
    rw [exchangeUntilStable_succ balanced.swap] at ended
    repeat' split at ended
    · cases ended
    · cases ended
    · cases ended
      exact iff_of_true rfl rfl
    · rename_i other
      have next := balanced.exchange_next other
      obtain ⟨no, kept⟩ := next.later_rounds next.differs.symm next.expected_fresh (fun _ => rfl) ended
      exact iff_of_false (by simp [no]) fun back => kept (congrArg ConfigEntry.fingerprint back)

end Loop

/-- A newer entry has replaced the one that was unlinked. -/
def Superseded (entry : ConfigEntry B) (d : ConfigDirectory B) : Prop :=
  entry ∈ d.written → ∃ newer older, d.written = newer ++ entry :: older ∧ newer ≠ []

theorem Superseded.interfered {entry : ConfigEntry B} (superseded : Superseded entry d)
    (known : entry.fingerprint < d.serial) (interfered : Interfered d d') : Superseded entry d' := by
  rcases interfered.target with ⟨_, written⟩ | ⟨_, newer, written, fresh⟩
  · unfold Superseded
    rw [written]
    exact superseded
  · intro member
    rw [written] at member ⊢
    rcases List.mem_append.mp member with now | before
    · exact absurd known (Nat.not_lt.mpr (fresh entry now))
    · obtain ⟨between, older, split, _⟩ := superseded before
      refine ⟨d'.target :: newer ++ between, older, ?_, by simp⟩
      rw [split, append_assoc]

variable {older : ConfigEntry B}

theorem Stable.superseded (stable : Stable original d older) : Superseded older d := by
  intro member
  have target := stable.settled.target
  cases written : d.written with
  | nil =>
    rw [written] at member
    cases member
  | cons head rest =>
    rw [ConfigDirectory.latest, written] at target
    rw [written] at member
    rcases List.mem_cons.mp member with same | before
    · exact absurd (congrArg ConfigEntry.fingerprint (target.trans same.symm)) stable.differs
    · obtain ⟨between, older', split⟩ := append_of_mem before
      exact ⟨head :: between, older', congrArg _ split, by simp⟩

theorem Stable.unlinked (stable : Stable original d older) (writers : Writers B) :
    Settled original (d.unlinkSwap writers) ∧ (d.unlinkSwap writers).unlinked = older :: d.unlinked ∧
      (d.unlinkSwap writers).exchanges = d.exchanges ∧ Superseded older (d.unlinkSwap writers) := by
  have interfered := interfere_interfered writers d
  have swap : (d.interfere writers).swap = some older := interfered.swap.trans stable.swap
  have settled := stable.settled.interfered interfered
  have superseded := stable.superseded.interfered stable.fresh interfered
  unfold unlinkSwap
  dsimp only
  rw [swap]
  exact ⟨⟨settled.target, settled.fresh⟩, congrArg _ interfered.unlinked, interfered.exchanges, superseded⟩

/-- No exchange was made yet. -/
structure Begun (original : ConfigEntry B) (d : ConfigDirectory B) : Prop where
  settled : Settled original d
  swap : d.swap = none
  exchanges : d.exchanges = []
  unlinked : d.unlinked = []
  known : ∀ entry ∈ d.written, entry.fingerprint < d.serial

theorem start_begun (entry : ConfigEntry B) : Begun entry (start entry) :=
  ⟨⟨rfl, Nat.lt_succ_self _⟩, rfl, rfl, rfl, fun _ none => by cases none⟩

theorem Begun.interfered (begun : Begun original d) (interfered : Interfered d d') : Begun original d' :=
  ⟨begun.settled.interfered interfered, interfered.swap.trans begun.swap,
    interfered.exchanges.trans begun.exchanges,
    interfered.unlinked.trans begun.unlinked, interfered.known begun.known⟩

/-- The exchange of a guarded write. -/
structure Swapped (original candidate displaced : ConfigEntry B) (d : ConfigDirectory B) : Prop where
  balanced : Balanced original candidate.fingerprint displaced d
  exchanges : d.exchanges = [⟨candidate, displaced⟩]
  unlinked : d.unlinked = []

/-- Right before the exchange. -/
structure Prepared (original candidate : ConfigEntry B) (d : ConfigDirectory B) : Prop where
  settled : Settled original d
  swap : d.swap = some candidate
  fresh : d.target.fingerprint < candidate.fingerprint ∧ candidate.fingerprint < d.serial
  exchanges : d.exchanges = []
  unlinked : d.unlinked = []
  own : candidate ∉ d.written

theorem Begun.prepared (begun : Begun original d) (writers : Writers B) (content : B) :
    ∃ candidate, Prepared original candidate (d.createTemporary writers content) := by
  have first := begun.interfered (interfere_interfered writers d)
  exact ⟨_, ⟨first.settled.target, Nat.lt_succ_of_lt first.settled.fresh⟩, rfl,
    ⟨first.settled.fresh, Nat.lt_succ_self _⟩,
    first.exchanges, first.unlinked, fun written => Nat.lt_irrefl _ (first.known _ written)⟩

theorem Prepared.swaps {candidate : ConfigEntry B} (prepared : Prepared original candidate d)
    (writers : Writers B) :
    Swapped original candidate (d.interfere writers).target (d.exchanged writers candidate) := by
  have interfered := interfere_interfered writers d
  have after := prepared.settled.interfered interfered
  have grown := interfered.serial
  obtain ⟨older, known⟩ := prepared.fresh
  have differs : (d.interfere writers).target.fingerprint ≠ candidate.fingerprint := by
    rcases interfered.target with ⟨target, _⟩ | ⟨_, newer, _, fresh⟩
    · rw [target]
      omega
    · have above := fresh _ mem_cons_self
      omega
  have below : candidate.fingerprint < (d.interfere writers).serial := by omega
  exact ⟨⟨rfl, below, after.fresh, below, differs.symm, .inl ⟨rfl, after.target.symm⟩⟩,
    congrArg _ (interfered.exchanges.trans prepared.exchanges), interfered.unlinked.trans prepared.unlinked⟩

theorem Prepared.given (prepared : Prepared original candidate d) (writers : Writers B) :
    Settled original (d.unlinkSwap writers) ∧
      ∀ entry ∈ (d.unlinkSwap writers).unlinked, Superseded entry (d.unlinkSwap writers) := by
  have interfered := interfere_interfered writers d
  have settled := prepared.settled.interfered interfered
  have own : candidate ∉ (d.interfere writers).written := by
    rcases interfered.target with ⟨_, written⟩ | ⟨_, newer, written, fresh⟩
    · exact written ▸ prepared.own
    · rw [written]
      intro member
      rcases List.mem_append.mp member with now | before
      · exact absurd prepared.fresh.2 (Nat.not_lt.mpr (fresh _ now))
      · exact prepared.own before
  unfold unlinkSwap
  dsimp only
  rw [interfered.swap.trans prepared.swap]
  refine ⟨⟨settled.target, settled.fresh⟩, fun entry member written => ?_⟩
  rw [interfered.unlinked.trans prepared.unlinked] at member
  exact absurd (List.mem_singleton.mp member ▸ written) own

end ConfigDirectory

section Updates

variable {files : ConfigFiles B} {writers : Writers B} {rounds : Nat} {content : B} {expectedSha256 : String}
  {synced : Bool}
variable {original : ConfigEntry B} {d d' : ConfigDirectory B}

theorem inspectDisplaced_ok {displaced : ConfigEntry B} {previous : B}
    (ok : inspectDisplaced files expectedSha256 synced displaced = .ok previous) :
    previous = displaced.content ∧ files.digest displaced.content = expectedSha256 := by
  unfold inspectDisplaced at ok
  cases read : readRegularEntry files displaced with
  | error error =>
    rw [read] at ok
    cases ok
  | ok value =>
    have same : value = displaced.content := by
      unfold readRegularEntry at read
      split at read
      · cases read
      · split at read
        · cases read
        · exact (Except.ok.inj read).symm
    rw [read] at ok
    dsimp only at ok
    split at ok
    · cases ok
    · rename_i digest
      split at ok
      · cases ok
      · cases ok
        exact ⟨same, same ▸ not_not.mp digest⟩

/-- A guarded write that succeeds has displaced an entry of the expected digest;
one that raises leaves the latest entry at the target, unless its recovery fails. -/
theorem guardedAtomicWrite_cases (begun : Begun original d) {result : Except String (GuardedAtomicWrite B)}
    (ended : guardedAtomicWrite files writers rounds content expectedSha256 synced d = some (result, d')) :
    (∃ error, result = .error error ∧ (error ≠ swapRecoveryFailed → Settled original d') ∧
        ∀ entry ∈ d'.unlinked, Superseded entry d') ∨
      ∃ write candidate displaced, result = .ok write ∧ Swapped original candidate displaced d' ∧
        write.candidateFingerprint = candidate.fingerprint ∧ write.backupFingerprint = displaced.fingerprint ∧
        write.previous = displaced.content ∧ files.digest displaced.content = expectedSha256 ∧
          write.closed = false := by
  have opened := begun.interfered (interfere_interfered writers d)
  unfold guardedAtomicWrite at ended
  dsimp only at ended
  split at ended
  · cases ended
    exact .inl ⟨_, rfl, fun _ => opened.settled, by rw [opened.unlinked]; nofun⟩
  · obtain ⟨candidate, prepared⟩ := opened.prepared writers content
    generalize (d.interfere writers).createTemporary writers content = temporary at prepared ended
    rw [prepared.swap] at ended
    dsimp only at ended
    rw [renameExchange_eq prepared.swap] at ended
    by_cases fails : writers.exchangeFails temporary.clock = true
    · rw [if_pos fails] at ended
      cases ended
      obtain ⟨settled, own⟩ := prepared.given writers
      exact .inl ⟨_, rfl, fun _ => settled, own⟩
    · rw [if_neg fails] at ended
      have swapped := prepared.swaps writers
      dsimp only at ended
      rw [swapped.balanced.swap] at ended
      dsimp only at ended
      split at ended
      · rename_i previous inspected
        cases ended
        obtain ⟨same, digest⟩ := inspectDisplaced_ok inspected
        exact .inr ⟨_, candidate, _, rfl, swapped, rfl, rfl, same, digest, rfl⟩
      · rename_i error _
        split at ended
        · cases ended
        · rename_i failed
          cases ended
          obtain ⟨unlinked, _⟩ := swapped.balanced.exchanges failed
          refine .inl ⟨_, rfl, fun other => absurd rfl other, fun entry member => ?_⟩
          rw [unlinked, swapped.unlinked] at member
          cases member
        · rename_i recovered
          cases ended
          obtain ⟨unlinked, _, stable⟩ := swapped.balanced.exchanges recovered
          obtain ⟨older, stable⟩ := stable _ rfl
          obtain ⟨settled, removed, _, superseded⟩ := stable.unlinked writers
          refine .inl ⟨error, rfl, fun _ => settled, fun entry member => ?_⟩
          rw [removed, unlinked, swapped.unlinked] at member
          exact List.mem_singleton.mp member ▸ superseded

/-- The entry that a successful write displaced. -/
def Displaced (files : ConfigFiles B) (expectedSha256 : String) (write : GuardedAtomicWrite B)
    (d : ConfigDirectory B)
    (entry : ConfigEntry B) : Prop :=
  files.digest entry.content = expectedSha256 ∧ write.previous = entry.content ∧
    ∃ candidate, d.exchanges.getLast? = some ⟨candidate, entry⟩

/-- What a guarded write and its end promise of the outside writers. -/
def Preserves (files : ConfigFiles B) (expectedSha256 : String) (original : ConfigEntry B) (d : ConfigDirectory B) :
    Outcome B → Prop
  | .raised error => (error ≠ swapRecoveryFailed → d.target = d.latest original) ∧
      ∀ entry ∈ d.unlinked, Superseded entry d
  | .committed write => ∃ backup, Displaced files expectedSha256 write d backup ∧
      ∀ entry ∈ d.unlinked, Superseded entry d ∨ entry = backup
  | .rolledBack write restoredPrevious => ∃ backup, Displaced files expectedSha256 write d backup ∧
      d.target = d.latest original ∧ (∀ entry ∈ d.unlinked, Superseded entry d) ∧
      (restoredPrevious = true ↔ d.exchanges.head?.map Exchange.placed = some backup)
  | .rollbackRaised _ _ => ∀ entry ∈ d.unlinked, Superseded entry d

variable {write : GuardedAtomicWrite B}

theorem finish_open (opened : write.closed = false) : (write.finish writers d).2 = d.unlinkSwap writers := by
  unfold GuardedAtomicWrite.finish
  rw [opened, if_neg Bool.false_ne_true]

theorem commit_preserves {candidate backup : ConfigEntry B} (swapped : Swapped original candidate backup d)
    (previous : write.previous = backup.content) (digest : files.digest backup.content = expectedSha256)
    (opened : write.closed = false) :
    Preserves files expectedSha256 original (write.commit writers d).2 (.committed write) := by
  have interfered := interfere_interfered writers d
  have swap : (d.interfere writers).swap = some backup := interfered.swap.trans swapped.balanced.swap
  unfold GuardedAtomicWrite.commit
  rw [finish_open opened]
  unfold unlinkSwap
  dsimp only
  rw [swap]
  refine ⟨backup, ⟨digest, previous, candidate, ?_⟩, fun entry member => .inr ?_⟩
  · show (d.interfere writers).exchanges.getLast? = _
    rw [interfered.exchanges, swapped.exchanges]
    rfl
  · have none : (d.interfere writers).unlinked = [] := interfered.unlinked.trans swapped.unlinked
    rw [none] at member
    exact List.mem_singleton.mp member

theorem rollback_preserves {candidate backup : ConfigEntry B} {result : Except String Bool}
    (swapped : Swapped original candidate backup d)
    (atCandidate : write.candidateFingerprint = candidate.fingerprint)
    (atBackup : write.backupFingerprint = backup.fingerprint) (previous : write.previous = backup.content)
    (digest : files.digest backup.content = expectedSha256) (opened : write.closed = false)
    (ended : write.rollback writers rounds d = some (result, d')) :
    (∀ error, result = .error error → Preserves files expectedSha256 original d' (.rollbackRaised write error)) ∧
      ∀ restored, result = .ok restored →
        Preserves files expectedSha256 original d' (.rolledBack write restored) := by
  unfold GuardedAtomicWrite.rollback at ended
  rw [opened, if_neg Bool.false_ne_true, atCandidate, atBackup] at ended
  split at ended
  · cases ended
  · rename_i failed
    cases ended
    refine ⟨fun _ _ entry member => ?_, fun _ other => (by cases other)⟩
    rw [(swapped.balanced.exchanges failed).1, swapped.unlinked] at member
    cases member
  · rename_i restored after exchanged
    rw [finish_open opened] at ended
    cases ended
    obtain ⟨unlinked, ⟨later, more⟩, stable⟩ := swapped.balanced.exchanges exchanged
    obtain ⟨older, stable⟩ := stable _ rfl
    obtain ⟨settled, removed, kept, superseded⟩ := stable.unlinked writers
    refine ⟨fun _ other => (by cases other), fun _ same => ?_⟩
    cases same
    refine ⟨backup, ⟨digest, previous, candidate, ?_⟩, settled.target, fun entry member => ?_, ?_⟩
    · show (after.unlinkSwap writers).exchanges.getLast? = _
      rw [kept, more, swapped.exchanges, List.getLast?_concat]
    · change entry ∈ (after.unlinkSwap writers).unlinked at member
      rw [removed, unlinked, swapped.unlinked] at member
      exact List.mem_singleton.mp member ▸ superseded
    · obtain ⟨earlier, last⟩ := stable.exchanged
      rw [swapped.balanced.restores exchanged, kept, last]
      simp

/-- However the writes of other programs fall between the steps. -/
theorem guardedUpdate_preserves {ending : Ending} {outcome : Outcome B}
    (ended : guardedUpdate files writers rounds content expectedSha256 synced ending (start original) =
      some (outcome, d)) :
    Preserves files expectedSha256 original d outcome := by
  unfold guardedUpdate at ended
  split at ended
  · cases ended
  · rename_i raised
    cases ended
    rcases guardedAtomicWrite_cases (start_begun original) raised with ⟨_, same, settled, superseded⟩ | ⟨_,
      _, _, same, _⟩
    · cases same
      exact ⟨fun other => (settled other).target, superseded⟩
    · cases same
  · rename_i write after written
    rcases guardedAtomicWrite_cases (start_begun original) written with ⟨_, same, _⟩ | ⟨_, candidate, backup,
      same, swapped,
      atCandidate, atBackup, previous, digest, opened⟩
    · cases same
    · cases same
      cases ending with
      | commit =>
        cases ended
        exact commit_preserves swapped previous digest opened
      | rollback =>
        dsimp only at ended
        split at ended
        · cases ended
        · rename_i failed
          cases ended
          exact (rollback_preserves swapped atCandidate atBackup previous digest opened failed).1 _ rfl
        · rename_i restored
          cases ended
          exact (rollback_preserves swapped atCandidate atBackup previous digest opened restored).2 _ rfl

end Updates

section Example

def digits : ConfigFiles Nat where
  digest n := toString n
  size _ := 1

/-- One write right before the exchange, and one before the rollback. -/
def busyWriters : Writers Nat where
  writes n := if n = 2 then [{ content := 7 }] else if n = 3 then [{ content := 8 }] else []

theorem guardedUpdate_preserves_busy : Preserves digits "7" ⟨0, true, 5⟩
    { target := ⟨3, true, 8⟩, swap := none, serial := 4, clock := 6, written := [⟨3, true, 8⟩, ⟨2, true, 7⟩],
      exchanges := [⟨⟨3, true, 8⟩, ⟨2, true, 7⟩⟩, ⟨⟨2, true, 7⟩, ⟨3, true, 8⟩⟩, ⟨⟨1, true, 6⟩, ⟨2, true, 7⟩⟩],
      unlinked := [⟨2, true, 7⟩] } (.rolledBack ⟨7, 1, 2, false⟩ false) :=
  guardedUpdate_preserves (show guardedUpdate digits busyWriters 3 6 "7" true .rollback (start ⟨0, true, 5⟩) =
    _ from rfl)

/-- An outside writer that writes the expected content before the exchange: the
commit unlinks its entry, and no newer one has replaced it. -/
theorem committed_unlinks : ∃ (outcome : Outcome Nat) (d : ConfigDirectory Nat) (entry : ConfigEntry Nat),
    guardedUpdate digits { writes := fun n => if n = 2 then [{ content := 5 }] else [] } 0 6 "5" true .commit
    (start ⟨0, true, 5⟩) =
      some (outcome, d) ∧ entry ∈ d.unlinked ∧ entry ∈ d.written ∧ ¬Superseded entry d := by
  refine ⟨_, _, ⟨2, true, 5⟩, rfl, by decide, by decide, fun superseded => ?_⟩
  obtain ⟨newer, older, split, nonempty⟩ := superseded (by decide)
  have count := congrArg List.length split
  simp only [length_append, length_cons] at count
  have empty : newer.length = 0 := by
    change 1 = _ at count
    omega
  exact nonempty (List.length_eq_zero_iff.mp empty)

end Example

end OpenNode.GuardedWrite
