import Mathlib

namespace OpenNode.Security

open Function List

structure Settings where
  revision : Nat := 0
  bruteForceEnabled : Bool := true
  bruteForceMaxFailures : Nat := 5
  bruteForceWindowMinutes : Nat := 1440
  bruteForceBlockMinutes : Nat := 1440
  skipLocalIp : Bool := true

/-- A row of `security_ip_bans`. -/
structure Ban where
  reason : String
  bannedAt : Nat
  expiresAt : Option Nat
  permanent : Bool
  failCount : Nat
  releasedAt : Option Nat := none
  actor : String

/-- `str(ip_address(value))`, and `_local` of an address. -/
structure Addresses where
  canonical : String → Option String
  isLocal : String → Bool

/-- A call of `_upsert_ban` that has not written yet. -/
structure Upsert where
  ip : String
  permanent : Bool
  actor : String
  reason : String
  failCount : Nat
  expiresAt : Nat

/-- A failure at which an automatic ban was decided, with the times of the
failures of the address since its last success, unban or automatic ban. -/
structure Decision where
  settings : Settings
  now : Nat
  failures : List Nat

/-- The tables, the counters and the threads: failures that have read the
settings, those that are not blocked, those that have read the clock too, bans to
be written, and unbans that have yet to clear the counter. The rest is history: the times of the
failures of an address, the time at which the write of its automatic ban failed,
whether it has a permanent ban, the automatic bans, and the addresses of which
the next failure within the window did not try a failed ban again. -/
structure SecurityStore where
  settings : Settings := {}
  bans : String → Option Ban := fun _ => none
  attempts : String → Option (Nat × Nat) := fun _ => none
  clock : Nat := 0
  failing : List (String × Settings) := []
  admitted : List (String × Settings) := []
  passed : List (String × Settings × Nat) := []
  writing : List Upsert := []
  clearing : List String := []
  failures : String → List Nat := fun _ => []
  lost : String → Option Nat := fun _ => none
  pinned : String → Bool := fun _ => false
  decisions : List Decision := []
  forgotten : List String := []

def Settings.window (settings : Settings) : Nat := settings.bruteForceWindowMinutes * 60

/-- The addresses that are not blocked whatever the table says. -/
def Settings.exempt (addresses : Addresses) (settings : Settings) (ip : String) : Bool :=
  !settings.bruteForceEnabled || (settings.skipLocalIp && addresses.isLocal ip)

def Ban.inForce (row : Ban) (now : Nat) : Bool :=
  row.releasedAt.isNone && (row.permanent || row.expiresAt.any (now < ·))

/-- The counter of an address with one more failure. -/
def counted (settings : Settings) (attempt : Option (Nat × Nat)) (now : Nat) : Nat × Nat :=
  let (count, first) := attempt.getD (0, now)
  let (count, first) := if now - first > settings.window then (0, now) else (count, first)
  (count + 1, first)

namespace SecurityStore

/-- `is_blocked`, with the settings and the clock that it has read. -/
def isBlocked (addresses : Addresses) (s : SecurityStore) (settings : Settings) (now : Nat)
    (value : String) : Bool :=
  match addresses.canonical value with
  | none => false
  | some ip => !settings.exempt addresses ip && (s.bans ip).any (·.inForce now)

/-- The write of an automatic ban of the address failed within the window. -/
def due (s : SecurityStore) (ip : String) (settings : Settings) (now : Nat) : Bool :=
  (s.lost ip).any fun since => now - since ≤ settings.window

/-- The section of `record_probe_failure` under the lock. -/
def count (s : SecurityStore) (ip : String) (settings : Settings) (now : Nat) : SecurityStore :=
  let (count, first) := counted settings (s.attempts ip) now
  let failures := now :: s.failures ip
  if count ≥ settings.bruteForceMaxFailures then
    { s with
      attempts := update s.attempts ip none
      writing := s.writing ++ [⟨ip, false, "", "brute_force", count, now + settings.bruteForceBlockMinutes * 60⟩]
      failures := update s.failures ip []
      lost := update s.lost ip none
      decisions := ⟨settings, now, failures⟩ :: s.decisions }
  else
    { s with
      attempts := update s.attempts ip (some (count, first))
      failures := update s.failures ip failures
      lost := update s.lost ip none
      forgotten := if s.due ip settings now then ip :: s.forgotten else s.forgotten }

/-- The transaction of `_upsert_ban`. -/
def upsertBan (s : SecurityStore) (ban : Upsert) (ok : Bool) : SecurityStore :=
  if ok then
    { s with
      bans := update s.bans ban.ip (some
        { reason := ban.reason, bannedAt := s.clock, expiresAt := if ban.permanent then none else some ban.expiresAt
          permanent := ban.permanent, failCount := ban.failCount, actor :=
            String.ofList (ban.actor.toList.take 64) })
      lost := update s.lost ban.ip none
      pinned := update s.pinned ban.ip (ban.permanent || s.pinned ban.ip) }
  else if ban.reason = "brute_force" then { s with lost := update s.lost ban.ip (some s.clock) }
  else s

/-- The transaction of `unban`, which refuses an address without a ban in force. -/
def unban (s : SecurityStore) (ip actor : String) (ok : Bool) : SecurityStore :=
  match (s.bans ip).filter (·.inForce s.clock) with
  | none => s
  | some row =>
    if ok then
      { s with
        bans := update s.bans ip (some
          { row with releasedAt := some s.clock, actor := String.ofList (actor.toList.take 64) })
        clearing := s.clearing ++ [ip]
        failures := update s.failures ip []
        lost := update s.lost ip none
        pinned := update s.pinned ip false }
    else s

/-- `attempts.pop` of a success, or of an unban that is committed. -/
def pop (s : SecurityStore) (ip : String) : SecurityStore :=
  { s with attempts := update s.attempts ip none }

end SecurityStore

/-- What a thread may do next. `place` chooses one of those that stand at the
same point, and `ok` says whether a write succeeds. A `check` reads the row of
the address, after the settings and the clock. -/
inductive Event where
  | wait (seconds : Nat)
  | updateSettings (expected : Nat) (settings : Settings) (ok : Bool)
  | success (value : String)
  | failure (value : String)
  | check (place : Nat) (settings : Settings) (now : Nat)
  | time (place : Nat)
  | count (place : Nat)
  | ban (value : String) (permanent : Bool) (actor : String)
  | write (place : Nat) (ok : Bool)
  | unban (value actor : String) (ok : Bool)
  | clear (place : Nat)

variable (addresses : Addresses)

def SecurityStore.step (s : SecurityStore) : Event → SecurityStore
  | .wait seconds => { s with clock := s.clock + seconds }
  | .updateSettings expected settings ok =>
    if s.settings.revision = expected ∧ ok then { s with settings := { settings with revision := expected + 1 } }
    else s
  | .success value =>
    match addresses.canonical value with
    | none => s
    | some ip => { s.pop ip with failures := update s.failures ip [], lost := update s.lost ip none }
  | .failure value =>
    match addresses.canonical value with
    | none => s
    | some ip => if s.settings.exempt addresses ip then s else { s with failing := s.failing ++ [(ip, s.settings)] }
  | .check place settings now =>
    match s.failing[place]? with
    | none => s
    | some (ip, first) =>
      let rest := { s with failing := s.failing.eraseIdx place }
      if s.isBlocked addresses settings now ip then rest else { rest with admitted := s.admitted ++ [(ip, first)] }
  | .time place =>
    match s.admitted[place]? with
    | none => s
    | some (ip, first) =>
      { s with admitted := s.admitted.eraseIdx place, passed := s.passed ++ [(ip, first, s.clock)] }
  | .count place =>
    match s.passed[place]? with
    | none => s
    | some (ip, settings, now) => { s with passed := s.passed.eraseIdx place }.count ip settings now
  | .ban value permanent actor =>
    match addresses.canonical value with
    | none => s
    | some ip =>
      let expiresAt := s.clock + s.settings.bruteForceBlockMinutes * 60
      { s with writing := s.writing ++ [⟨ip, permanent, actor, "manual", 0, expiresAt⟩] }
  | .write place ok =>
    match s.writing[place]? with
    | none => s
    | some ban => { s with writing := s.writing.eraseIdx place }.upsertBan ban ok
  | .unban value actor ok =>
    match addresses.canonical value with
    | none => s
    | some ip => s.unban ip actor ok
  | .clear place =>
    match s.clearing[place]? with
    | none => s
    | some ip => { s with clearing := s.clearing.eraseIdx place }.pop ip

def SecurityStore.run (s : SecurityStore) (events : List Event) : SecurityStore :=
  events.foldl (SecurityStore.step addresses) s

/-- The steps at which the store does what a ban promises. A failure is counted in the order of
the clock and not between an unban and its clearing, and after the failed write of an automatic
ban only where one failure is enough; no temporary ban is written over a permanent one. -/
def SecurityStore.Keeps (s : SecurityStore) : Event → Prop
  | .count place => ∀ ip settings now, s.passed[place]? = some (ip, settings, now) →
    ip ∉ s.clearing ∧ (∀ time ∈ s.failures ip, time ≤ now) ∧
      (s.due ip settings now = true → settings.bruteForceMaxFailures ≤ 1)
  | .write place ok => ∀ ban, s.writing[place]? = some ban → ok = true → ban.permanent = false →
      s.pinned ban.ip = false
  | _ => True

def SecurityStore.Keeping (s : SecurityStore) : List Event → Prop
  | [] => True
  | event :: events => s.Keeps event ∧ (s.step addresses event).Keeping events

/-- At least the limit of failures, none of them outside the window, since the
last success, unban or automatic ban. -/
def Decision.Justified (decision : Decision) : Prop :=
  ∃ recent, recent <+: decision.failures ∧ decision.settings.bruteForceMaxFailures ≤ recent.length ∧
    ∀ time ∈ recent, time ≤ decision.now ∧ decision.now - time ≤ decision.settings.window

variable {addresses} {s : SecurityStore}

/-- A counter counts the latest failures, none of them before its first one. -/
def Counts (failures : List Nat) (count first : Nat) : Prop :=
  0 < count ∧ ∃ recent, recent <+: failures ∧ recent.length = count ∧ ∀ time ∈ recent, first ≤ time

/-- What every run keeps to; an unban may have yet to clear the counter. -/
structure SecurityStore.Sound (s : SecurityStore) : Prop where
  pinned : ∀ ip, s.pinned ip = true → ∃ row, s.bans ip = some row ∧ row.releasedAt = none ∧ row.permanent = true
  counts : ∀ ip count first, s.attempts ip = some (count, first) → ip ∉ s.clearing →
    Counts (s.failures ip) count first
  justified : ∀ decision ∈ s.decisions, decision.Justified
  tried : s.forgotten = []

theorem counted_counts {settings : Settings} {attempt : Option (Nat × Nat)} {failures : List Nat} {now : Nat}
    (ordered : ∀ time ∈ failures, time ≤ now)
    (before : ∀ count first, attempt = some (count, first) → Counts failures count first) :
    Counts (now :: failures) (counted settings attempt now).1 (counted settings attempt now).2 ∧
      now - (counted settings attempt now).2 ≤ settings.window := by
  have alone : Counts (now :: failures) 1 now ∧ now - now ≤ settings.window :=
    ⟨⟨Nat.one_pos, [now], by simp, rfl, by simp⟩, by simp⟩
  unfold counted
  rcases attempt with _ | ⟨count, first⟩
  · simpa using alone
  by_cases late : now - first > settings.window
  · simpa [late] using alone
  obtain ⟨some, recent, front, rfl, least⟩ := before count first rfl
  obtain ⟨time, here⟩ := length_pos_iff_exists_mem.mp some
  have early : first ≤ now := Nat.le_trans (least time here) (ordered time (front.subset here))
  simp only [Option.getD_some, if_neg late]
  refine ⟨⟨Nat.succ_pos _, now :: recent, by simpa using front, rfl, ?_⟩, Nat.not_lt.mp late⟩
  exact forall_mem_cons.mpr ⟨early, least⟩

namespace SecurityStore.Sound

theorem count {ip : String} {settings : Settings} {now : Nat} (sound : s.Sound) (cleared : ip ∉ s.clearing)
    (ordered : ∀ time ∈ s.failures ip, time ≤ now)
    (once : s.due ip settings now = true → settings.bruteForceMaxFailures ≤ 1) :
    (s.count ip settings now).Sound := by
  have counts : _ ∧ _ ≤ settings.window := counted_counts ordered fun count first here =>
    sound.counts ip count first here cleared
  obtain ⟨counts, window⟩ := counts
  unfold SecurityStore.count
  generalize counted settings (s.attempts ip) now = pair at counts window ⊢
  obtain ⟨count, first⟩ := pair
  dsimp only at counts window ⊢
  split
  · rename_i limit
    refine ⟨sound.pinned, fun other count' first' here uncleared => ?_, forall_mem_cons.mpr ⟨?_, sound.justified⟩,
      sound.tried⟩
    · by_cases same : other = ip
      · simp [same] at here
      · simp only [update_of_ne same] at here ⊢
        exact sound.counts other count' first' here uncleared
    · obtain ⟨_, recent, front, size, least⟩ := counts
      refine ⟨recent, front, size ▸ limit, fun time here =>
        ⟨?_, Nat.le_trans (Nat.sub_le_sub_left (least time here) now) window⟩⟩
      rcases mem_cons.mp (front.subset here) with rfl | old
      · exact Nat.le_refl _
      · exact ordered time old
  · rename_i below
    refine ⟨sound.pinned, fun other count' first' here uncleared => ?_, sound.justified, ?_⟩
    · by_cases same : other = ip
      · subst same
        simp only [update_self, Option.some.injEq, Prod.mk.injEq] at here ⊢
        exact here.1 ▸ here.2 ▸ counts
      · simp only [update_of_ne same] at here ⊢
        exact sound.counts other count' first' here uncleared
    · exact (if_neg fun due => below (Nat.le_trans (once due) counts.1)).trans sound.tried

theorem upsertBan {ban : Upsert} {ok : Bool} (sound : s.Sound)
    (apart : ok = true → ban.permanent = false → s.pinned ban.ip = false) : (s.upsertBan ban ok).Sound := by
  unfold SecurityStore.upsertBan
  split
  · rename_i written
    refine { sound with pinned := fun ip held => ?_ }
    by_cases same : ip = ban.ip
    · subst same
      simp only [update_self, Bool.or_eq_true] at held ⊢
      refine ⟨_, rfl, rfl, ?_⟩
      cases kind : ban.permanent with
      | true => rfl
      | false => simp [kind, apart written kind] at held
    · simp only [update_of_ne same] at held ⊢
      exact sound.pinned ip held
  · split <;> exact { sound with }

theorem unban {ip actor : String} {ok : Bool} (sound : s.Sound) : (s.unban ip actor ok).Sound := by
  unfold SecurityStore.unban
  split
  · exact sound
  split
  · refine ⟨fun other held => ?_, fun other count first here uncleared => ?_, sound.justified, sound.tried⟩
    · by_cases same : other = ip
      · simp [same] at held
      · simp only [update_of_ne same] at held ⊢
        exact sound.pinned other held
    · rw [mem_append, mem_singleton, not_or] at uncleared
      simp only [update_of_ne uncleared.2]
      exact sound.counts other count first here uncleared.1
  · exact sound

theorem pop {ip : String} (sound : s.Sound) {clearing : List String} {failures : String → List Nat}
    {lost : String → Option Nat} (others : ∀ other ≠ ip, other ∉ clearing →
      other ∉ s.clearing ∧ failures other = s.failures other) :
    ({ s with attempts := update s.attempts ip none, clearing := clearing, failures := failures, lost := lost } :
      SecurityStore).Sound := by
  refine ⟨sound.pinned, fun other count first here uncleared => ?_, sound.justified, sound.tried⟩
  by_cases same : other = ip
  · simp [same] at here
  · obtain ⟨before, times⟩ := others other same uncleared
    simp only [update_of_ne same, times] at here ⊢
    exact sound.counts other count first here before

theorem step {event : Event} (sound : s.Sound) (keeps : s.Keeps event) : (s.step addresses event).Sound := by
  cases event with
  | wait seconds => exact { sound with }
  | updateSettings expected settings ok =>
    rw [SecurityStore.step]
    split <;> exact { sound with }
  | success value =>
    rw [SecurityStore.step]
    split
    · exact sound
    · exact sound.pop fun other differs uncleared => ⟨uncleared, update_of_ne differs _ _⟩
  | failure value =>
    rw [SecurityStore.step]
    split
    · exact sound
    · split <;> exact { sound with }
  | check place settings now =>
    rw [SecurityStore.step]
    split
    · exact sound
    · dsimp only
      split <;> exact { sound with }
  | time place =>
    rw [SecurityStore.step]
    split <;> exact { sound with }
  | count place =>
    rw [SecurityStore.step]
    split
    · exact sound
    · rename_i ip settings now here
      obtain ⟨cleared, ordered, once⟩ := keeps ip settings now here
      exact count { sound with } cleared ordered once
  | ban value permanent actor =>
    rw [SecurityStore.step]
    split
    · exact sound
    · exact { sound with }
  | write place ok =>
    rw [SecurityStore.step]
    split
    · exact sound
    · rename_i ban here
      exact upsertBan { sound with } (keeps ban here)
  | unban value actor ok =>
    rw [SecurityStore.step]
    split
    · exact sound
    · exact sound.unban
  | clear place =>
    rw [SecurityStore.step]
    split
    · exact sound
    · rename_i ip here
      refine sound.pop fun other differs uncleared => ⟨fun inside => uncleared ?_, rfl⟩
      obtain ⟨i, there⟩ := mem_iff_getElem?.mp inside
      refine mem_eraseIdx_iff_getElem?.mpr ⟨i, fun same => differs ?_, there⟩
      rw [same] at there
      exact Option.some.inj (there.symm.trans here)

theorem run {events : List Event} (sound : s.Sound) (keeping : s.Keeping addresses events) :
    (s.run addresses events).Sound := by
  induction events generalizing s with
  | nil => exact sound
  | cons event events ih => exact ih (sound.step keeping.1) keeping.2

end SecurityStore.Sound

/-- In every run that keeps to the steps: a permanent ban stays until an unban, an automatic ban has its
failures, a failed ban is tried again, and the blocked values are those of the bans in force. -/
theorem bans_law (addresses : Addresses) (settings : Settings) (events : List Event)
    (keeping : SecurityStore.Keeping addresses { settings } events) :
    let s := SecurityStore.run addresses { settings } events
    (∀ ip, s.pinned ip = true → ∃ row, s.bans ip = some row ∧ row.releasedAt = none ∧ row.permanent = true) ∧
    (∀ decision ∈ s.decisions, decision.Justified) ∧ s.forgotten = [] ∧
    ∀ value, s.isBlocked addresses s.settings s.clock value = true ↔ ∃ ip row, addresses.canonical value = some ip ∧
      s.settings.exempt addresses ip = false ∧ s.bans ip = some row ∧ row.releasedAt = none ∧
      (row.permanent = true ∨ ∃ time, row.expiresAt = some time ∧ s.clock < time) := by
  have start : SecurityStore.Sound { settings } := ⟨nofun, nofun, nofun, rfl⟩
  have sound := start.run keeping
  refine ⟨sound.pinned, sound.justified, sound.tried, fun value => ?_⟩
  unfold SecurityStore.isBlocked
  cases addresses.canonical value with
  | none => simp
  | some ip => simp [Ban.inForce, Option.any_eq_true]

section Examples

/-- One public address in its canonical form; what is no address is local. -/
def oneAddress : Addresses where
  canonical value := if value = "8.8.8.8" then some value else none
  isLocal ip := ip != "8.8.8.8"

theorem banned_permanently :
    let s := SecurityStore.run oneAddress {} [.ban "8.8.8.8" true "admin", .write 0 true]
    (∀ ip, s.pinned ip = true → ∃ row, s.bans ip = some row ∧ row.releasedAt = none ∧ row.permanent = true) ∧
    s.forgotten = [] :=
  have law := bans_law oneAddress {} [.ban "8.8.8.8" true "admin", .write 0 true]
    ⟨trivial, (fun _ here _ temporary => by cases here; cases temporary), trivial⟩
  ⟨law.1, law.2.2.1⟩

/-- With a limit of two: a failure after the failed write of an automatic ban does not try again, and an
automatic ban decided before a permanent one is written over it. -/
theorem ban_lost :
    let settings : Settings := { bruteForceMaxFailures := 2 }
    let probe : List Event := [.failure "8.8.8.8", .check 0 settings 0, .time 0]
    let s := SecurityStore.run oneAddress { settings }
      (probe ++ [.count 0] ++ probe ++ [.count 0, .write 0 false] ++
      probe ++ [.count 0])
    let t := SecurityStore.run oneAddress { settings } (probe ++ [.count 0] ++ probe ++
      [.ban "8.8.8.8" true "admin", .write 0 true, .count 0, .write 0 true])
    s.forgotten = ["8.8.8.8"] ∧ t.pinned "8.8.8.8" = true ∧ (t.bans "8.8.8.8").map Ban.permanent = some false := by
  decide +kernel

end Examples

end OpenNode.Security
