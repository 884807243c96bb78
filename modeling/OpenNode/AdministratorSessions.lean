import OpenNode.AdministratorAuth

namespace OpenNode.Administration

open List OneTimeCodes
open Subscribers (PasswordHash AuthSettings)

variable {P H C : Type} {hasher : PasswordHash P H} {settings : AuthSettings C} {now : Nat}
variable {s t : AuthDb P H}

namespace AuthDb

section Codes
variable {username : String} {code : C} {row factor : AdministratorFactor} {proof : Proof}
variable {challenge : OperatorChallenge P H} {window : LoginWindow}

theorem verifyFactor_ok (ok : verifyFactor settings now username code row = .ok (some (factor, proof))) :
    ∃ next, OneTimeCodes.verify settings.scheme now username code row.factor = some (next, proof) ∧
      factor = { row with factor := next } := by
  unfold verifyFactor at ok
  split at ok
  · cases ok
  · split at ok
    · cases ok
    · split at ok
      · cases ok
      · rename_i next accepted found
        cases ok
        exact ⟨next, found, rfl⟩

theorem enroll_ok {secret serial : Nat}
    (ok : enroll settings now username secret code serial row = .ok (some (factor, proof))) :
    ∃ step, findStep settings.scheme now secret code (-1) = some step ∧ proof = .step username secret step ∧
      factor = { row with factor := ⟨some secret, step, newRecoveryCodes serial⟩ } := by
  unfold enroll at ok
  split at ok
  · cases ok
  · split at ok
    · cases ok
    · rename_i step found
      cases ok
      exact ⟨step, found, rfl, rfl⟩

theorem checkCode_ok (ok : checkCode settings now username challenge code s = .ok (some (factor, proof))) :
    (∃ row, s.factor = some row ∧ verifyFactor settings now username code row = .ok (some (factor, proof))) ∨
      ∃ secret, challenge.kind = .enroll ∧ challenge.pendingSecret = some secret ∧
        (s.factor.getD {}).factor.secret = none ∧
        enroll settings now username secret code s.serial (s.factor.getD {}) = .ok (some (factor, proof)) := by
  unfold checkCode at ok
  split at ok
  · cases ok
  · rename_i row _ here
    exact Or.inl ⟨row, here, ok⟩
  · rename_i kind
    dsimp only at ok
    split at ok
    · cases ok
    · rename_i secret pending
      split at ok
      · cases ok
      · rename_i without
        exact Or.inr ⟨secret, kind, pending, by simpa using without, ok⟩

theorem consumeFactorAttempt_ok (ok : s.consumeFactorAttempt now = .ok (t, window)) :
    (window = ⟨s.serial, 1, now + 60⟩ ∧ t = { s with window := some window, serial := s.serial + 1 }) ∨
      ∃ before, s.window = some before ∧ before.attempts < 10 ∧
        window = { before with attempts := before.attempts + 1 } ∧ t = { s with window := some window } := by
  unfold consumeFactorAttempt at ok
  split at ok
  · cases ok
    exact Or.inl ⟨rfl, rfl⟩
  · rename_i before here
    split at ok
    · cases ok
      exact Or.inl ⟨rfl, rfl⟩
    · split at ok
      · cases ok
      · rename_i room
        cases ok
        exact Or.inr ⟨before, here, Nat.lt_of_not_le room, rfl, rfl⟩

theorem live_some [DecidableEq H] {administrator : Administrator H}
    (ok : s.live now challenge = some administrator) :
    s.administrator = some administrator ∧ challenge.credentialHash = administrator.passwordHash ∧
      challenge.attempts < 5 := by
  unfold live at ok
  split at ok
  · cases ok
  · rename_i found here
    split at ok
    · rename_i valid
      cases ok
      exact ⟨here, valid.1, valid.2.2⟩
    · cases ok

end Codes

/-- What an operation does: nothing when it is refused, and otherwise what its guards have let through. -/
inductive Effect [DecidableEq H] (hasher : PasswordHash P H) (settings : AuthSettings C) (now : Nat)
    (s : AuthDb P H) :
    AdminEvent P H C → Except String Unit × AuthDb P H → Prop
  | refused {event} (error : String) : Effect hasher settings now s event (.error error, s)
  | read {username password hashed} (valid : hasher.verify password hashed = true) :
      Effect hasher settings now s (.read username password) (.ok (),
        { s with reads := (password, hashed) :: s.reads })
  | lockLogin {password hashed} (current : s.administrator.map Administrator.passwordHash = some hashed) :
      Effect hasher settings now s (.lockLogin password hashed) (.ok (),
        { s with holder := some (.login password hashed) })
  | lockChange {password hashed new} (current : s.administrator.map Administrator.passwordHash = some hashed) :
      Effect hasher settings now s (.lockChange password hashed new)
        (.ok (), { s with serial := s.serial + 1, holder := some (.change (hasher.hash s.serial new)) })
  /-- A statement of a transaction only reads, or records what it will change. -/
  | advance {holder} (done : s.advance = .ok { s with holder := some holder }) :
      Effect hasher settings now s .advance (.ok (), { s with holder := some holder })
  | loginChallenge {password hashed secret required}
      (holding : s.holder = some (.loginPolicy password hashed secret required)) : Effect hasher settings now
        s .loginCommit
        (.ok (), { s with holder := none }.newChallenge now .verify none password hashed)
  | loginBarred : Effect hasher settings now s .loginCommit (.ok (), { s with holder := none })
  | loginEnroll {password hashed secret required}
      (holding : s.holder = some (.loginPolicy password hashed secret required)) : Effect hasher settings now
        s .loginCommit
        (.ok (), { s with holder := none, serial := s.serial + 1 }.newChallenge now .enroll (some s.serial)
          password hashed)
  | loginCommit {password hashed} (holding : s.holder = some (.loginPolicy password hashed none false)) :
      Effect hasher settings now s .loginCommit (.ok (), { s with holder := none }.newSession settings now)
  | changeCommit {hashed sessions challenges} (clears : Bool)
      (holding : s.holder = some (.changeFactor hashed sessions challenges clears)) :
      Effect hasher settings now s .changeCommit (.ok (), { s with
        administrator := s.administrator.map fun row : Administrator H => { row with passwordHash := hashed }
        sessions := s.sessions.filter fun row : OperatorSession => !sessions.contains row.token
        challenges := s.challenges.filter fun row : OperatorChallenge P H => !challenges.contains row.token
        factor := if clears then s.factor.map AdministratorFactor.withoutPending else s.factor
        holder := none }.advanceEpoch)
  | rollback : Effect hasher settings now s .rollback (.ok (), { s with holder := none })
  | unanswered {token code} (error : String) : Effect hasher settings now s (.completeLogin token code)
      (.error error, { s with challenges := s.challenges.filter (·.token != token) })
  | attempt {token code challenge administrator t window factor} (error : String)
      (found : s.challenges.find? (·.token == token) = some challenge) (alive : s.live now challenge =
        some administrator)
      (consumed : s.consumeFactorAttempt now = .ok (t, window))
      (which : factor = t.factor ∨ factor = some (t.factor.getD {})) :
      Effect hasher settings now s (.completeLogin token code)
        (.error error, { t.count window challenge with factor := factor })
  | completeLogin {token code challenge administrator t window factor proof}
      (found : s.challenges.find? (·.token == token) = some challenge) (alive : s.live now challenge =
        some administrator)
      (consumed : s.consumeFactorAttempt now = .ok (t, window))
      (right : checkCode settings now administrator.username challenge code t = .ok (some (factor, proof))) :
      Effect hasher settings now s (.completeLogin token code)
        (.ok (), t.complete settings now challenge window factor proof)
  | expired {token} (error : String) : Effect hasher settings now s (.authenticate token)
      (.error error, { s with sessions := s.sessions.filter (·.token != token) })
  | authenticate {token} (here : ∃ row ∈ s.sessions, row.token = token) :
      Effect hasher settings now s (.authenticate token) (.ok (), { s with
        sessions := s.sessions.map fun row => if row.token = token then { row with lastSeen := now } else row })
  | logout {token} : Effect hasher settings now s (.logout token)
      (.ok (), { s with sessions := s.sessions.filter (·.token != token) })
  | beginTotp {session password} (without : (s.factor.getD {}).factor.secret = none) :
      Effect hasher settings now s (.beginTotp session password) (.ok (), { s with
        factor := some { s.factor.getD {} with
          pendingSecret := some s.serial, pendingExpires := now + 600, pendingSession := some session }
        serial := s.serial + 1 }.advanceEpoch)
  | confirmTotp {session code username row secret factor proof} (here : s.factor = some row)
      (pending : row.pendingSecret = some secret)
      (enrolled : enroll settings now username secret code s.serial row.withoutPending =
        .ok (some (factor, proof))) :
      Effect hasher settings now s (.confirmTotp session code) (.ok (), ({ s with
        factor := some factor, accepted := proof :: s.accepted, serial :=
          s.serial + 10 }.keepOnly session).advanceEpoch)
  | updateTotp {session password code disable username row next proof} {factor : AdministratorFactor}
      (here : s.factor = some row) (verified : verifyFactor settings now username code row =
        .ok (some (next, proof)))
      (which : factor = {} ∨ factor =
        { next with factor := { next.factor with recovery := newRecoveryCodes s.serial } }) :
      Effect hasher settings now s (.updateTotp session password code disable) (.ok (), ({ s with
        factor := some factor, accepted := proof :: s.accepted, serial :=
          s.serial + 10 }.keepOnly session).advanceEpoch)
  | relaxPolicy {session password code required} : Effect hasher settings now s
      (.updatePolicy session password code required)
      (.ok (), ({ s with requireTotp := required }.keepOnly session).advanceEpoch)
  | updatePolicy {session password code required username row factor proof} (here : s.factor = some row)
      (verified : verifyFactor settings now username code row = .ok (some (factor, proof))) :
      Effect hasher settings now s (.updatePolicy session password code required) (.ok (), ({ s with
        factor := some factor, accepted := proof :: s.accepted, requireTotp :=
          required }.keepOnly session).advanceEpoch)
  | setAdministrator {username password reset} (absent : s.administrator = none) :
      Effect hasher settings now s (.setAdministrator username password reset) (.ok (), { s with
        administrator := some ⟨username, hasher.hash s.serial password⟩, serial := s.serial + 1 }.advanceEpoch)
  | resetAdministrator {username password reset} :
      Effect hasher settings now s (.setAdministrator username password reset) (.ok (), { s with
        administrator := some ⟨username, hasher.hash s.serial password⟩, sessions := [], challenges :=
          [], factor := none
        window := none, requireTotp := false, serial := s.serial + 1 }.advanceEpoch)
  | sweepWindow : Effect hasher settings now s .sweepWindow (.ok (), s.sweepWindow now)

section Requests
variable [DecidableEq H] {username : String} {password new : P} {hashed : H} {token session : Nat} {code : C}
variable {disable required reset : Bool}

theorem read_effect {name : Option String} :
    Effect hasher settings now s (.read name password)
      (s.apply hasher settings now (.read name password)) := by
  rw [AuthDb.apply, AuthDb.read]
  split
  · exact .refused _
  · split
    · rename_i valid
      exact .read valid.2
    · exact .refused _

theorem lockLogin_effect :
    Effect hasher settings now s (.lockLogin password hashed)
      (s.apply hasher settings now (.lockLogin password hashed)) := by
  rw [AuthDb.apply, AuthDb.lock]
  split
  · exact .refused _
  · split
    · rename_i current
      exact .lockLogin current
    · exact .refused _

theorem lockChange_effect :
    Effect hasher settings now s (.lockChange password hashed new)
      (s.apply hasher settings now (.lockChange password hashed new)) := by
  rw [AuthDb.apply, AuthDb.lock]
  split
  · exact .refused _
  · split
    · rename_i current
      exact .lockChange current
    · exact .refused _

theorem advance_effect :
    Effect hasher settings now s .advance (s.apply hasher settings now .advance) := by
  rw [AuthDb.apply]
  cases done : s.advance with
  | error error => exact .refused error
  | ok t =>
    obtain ⟨holder, rfl⟩ : ∃ holder, t = { s with holder := some holder } := by
      unfold AuthDb.advance at done
      split at done
      all_goals first
        | exact ⟨_, (Except.ok.inj done).symm⟩
        | cases done
    exact .advance done

theorem loginCommit_effect :
    Effect hasher settings now s .loginCommit (s.apply hasher settings now .loginCommit) := by
  rw [AuthDb.apply, AuthDb.loginCommit]
  split
  · rename_i password hashed secret required holding
    split
    · exact .loginChallenge holding
    · rename_i without
      split
      · split
        · exact .loginBarred
        · exact .loginEnroll holding
      · rename_i optional
        obtain rfl : secret = none := by simpa using without
        obtain rfl : required = false := by simpa using optional
        exact .loginCommit holding
  · exact .refused _

theorem changeCommit_effect :
    Effect hasher settings now s .changeCommit (s.apply hasher settings now .changeCommit) := by
  rw [AuthDb.apply, AuthDb.changeCommit]
  split
  · rename_i holding
    exact .changeCommit _ holding
  · exact .refused _

theorem completeLogin_effect :
    Effect hasher settings now s (.completeLogin token code)
      (s.apply hasher settings now (.completeLogin token code)) := by
  rw [AuthDb.apply, AuthDb.completeLogin]
  split
  · exact .refused _
  · rename_i challenge found
    split
    · exact .unanswered _
    · rename_i administrator alive
      split
      · exact .refused _
      · rename_i t window consumed
        split
        · exact .refused _
        · refine .attempt _ found alive consumed ?_
          cases challenge.kind with
          | verify => exact Or.inl rfl
          | enroll => exact Or.inr rfl
        · rename_i factor proof right
          exact .completeLogin found alive consumed right

theorem authenticate_effect :
    Effect hasher settings now s (.authenticate token) (s.apply hasher settings now (.authenticate token)) := by
  rw [AuthDb.apply, AuthDb.authenticate]
  split
  · exact .refused _
  · rename_i row found
    split
    · exact .refused _
    · split
      · exact .expired _
      · exact .authenticate ⟨row, mem_of_find?_eq_some found, by simpa using List.find?_some found⟩

theorem beginTotp_effect :
    Effect hasher settings now s (.beginTotp session password)
      (s.apply hasher settings now (.beginTotp session password)) := by
  rw [AuthDb.apply, AuthDb.beginTotp]
  split
  · exact .refused _
  · dsimp only
    split
    · exact .refused _
    · rename_i without
      split
      · exact .refused _
      · exact .beginTotp (by simpa using without)

theorem confirmTotp_effect :
    Effect hasher settings now s (.confirmTotp session code)
      (s.apply hasher settings now (.confirmTotp session code)) := by
  rw [AuthDb.apply, AuthDb.confirmTotp]
  split
  · rename_i administrator device row _ _ here
    split
    · exact .refused _
    · rename_i secret pending
      split
      · exact .refused _
      · split
        · exact .refused _
        · exact .refused _
        · rename_i factor proof accepted
          exact .confirmTotp here pending accepted
  · exact .refused _

theorem updateTotp_effect :
    Effect hasher settings now s (.updateTotp session password code disable)
      (s.apply hasher settings now (.updateTotp session password code disable)) := by
  rw [AuthDb.apply, AuthDb.updateTotp, securityProof]
  split
  · exact .refused _
  · rename_i t next proved
    split at proved
    · rename_i administrator row _ here
      split at proved
      · cases proved
      · cases proved
      · rename_i verified
        cases proved
        split
        · exact .refused _
        · cases disable with
          | true => exact .updateTotp here verified (Or.inl rfl)
          | false => exact .updateTotp here verified (Or.inr rfl)
    · cases proved

theorem updatePolicy_effect :
    Effect hasher settings now s (.updatePolicy session password code required)
      (s.apply hasher settings now (.updatePolicy session password code required)) := by
  rw [AuthDb.apply, AuthDb.updatePolicy]
  split
  · exact .refused _
  · split
    · split
      · exact .refused _
      · exact .relaxPolicy
    · rename_i row here
      split
      · split
        · exact .refused _
        · exact .relaxPolicy
      · split
        · exact .refused _
        · exact .refused _
        · rename_i factor proof verified
          exact .updatePolicy here verified

theorem setAdministrator_effect :
    Effect hasher settings now s (.setAdministrator username password reset)
      (s.apply hasher settings now (.setAdministrator username password reset)) := by
  rw [AuthDb.apply, AuthDb.setAdministrator]
  split
  · rename_i absent
    exact .setAdministrator absent
  · split
    · exact .resetAdministrator
    · exact .refused _

end Requests

theorem apply_effect [DecidableEq H] (hasher : PasswordHash P H) (settings : AuthSettings C) (now : Nat)
    (s : AuthDb P H) (event : AdminEvent P H C) :
    Effect hasher settings now s event (s.apply hasher settings now event) := by
  cases event with
  | read => exact read_effect
  | lockLogin => exact lockLogin_effect
  | lockChange => exact lockChange_effect
  | advance => exact advance_effect
  | loginCommit => exact loginCommit_effect
  | changeCommit => exact changeCommit_effect
  | rollback => exact .rollback
  | completeLogin => exact completeLogin_effect
  | authenticate => exact authenticate_effect
  | logout token => exact .logout
  | beginTotp => exact beginTotp_effect
  | confirmTotp => exact confirmTotp_effect
  | updateTotp => exact updateTotp_effect
  | updatePolicy => exact updatePolicy_effect
  | setAdministrator => exact setAdministrator_effect
  | sweepWindow => exact .sweepWindow

end AuthDb

/-- The codes that were tried in a window, and against a challenge. -/
def triedIn (tried : List (Nat × Nat)) (window : Nat) : Nat :=
  (tried.filter fun entry => entry.1 == window).length

def triedAgainst (tried : List (Nat × Nat)) (challenge : Nat) : Nat :=
  (tried.filter fun entry => entry.2 == challenge).length

/-- The windows and the challenges count the codes that are tried. -/
structure Budget (s : AuthDb P H) : Prop where
  window : ∀ window, s.window = some window → window.id < s.serial ∧ window.attempts = triedIn s.tried window.id
  challenge : ∀ row ∈ s.challenges, row.token < s.serial ∧ row.attempts = triedAgainst s.tried row.token
  known : ∀ entry ∈ s.tried, entry.1 < s.serial ∧ entry.2 < s.serial
  windows : ∀ window, triedIn s.tried window ≤ 10
  challenges : ∀ challenge, triedAgainst s.tried challenge ≤ 5

theorem Budget.triedIn_new (budget : Budget s) {window : Nat} (drawn : s.serial ≤ window) :
    triedIn s.tried window = 0 := by
  rw [triedIn, length_eq_zero_iff, filter_eq_nil_iff]
  intro entry here same
  have before := (budget.known entry here).1
  rw [beq_iff_eq] at same
  omega

theorem Budget.triedAgainst_new (budget : Budget s) {challenge : Nat} (drawn : s.serial ≤ challenge) :
    triedAgainst s.tried challenge = 0 := by
  rw [triedAgainst, length_eq_zero_iff, filter_eq_nil_iff]
  intro entry here same
  have before := (budget.known entry here).2
  rw [beq_iff_eq] at same
  omega

theorem Budget.untried (budget : Budget s) (serial : s.serial ≤ t.serial) (tried : t.tried = s.tried)
    (window : ∀ window, t.window = some window → s.window = some window)
    (challenge : ∀ row ∈ t.challenges, row ∈ s.challenges ∨
      s.serial ≤ row.token ∧ row.token < t.serial ∧ row.attempts = 0) : Budget t where
  window row here := by
    have ⟨before, count⟩ := budget.window row (window row here)
    exact ⟨Nat.lt_of_lt_of_le before serial, tried ▸ count⟩
  challenge row here := by
    rcases challenge row here with old | ⟨drawn, below, fresh⟩
    · have ⟨before, count⟩ := budget.challenge row old
      exact ⟨Nat.lt_of_lt_of_le before serial, tried ▸ count⟩
    · refine ⟨below, ?_⟩
      rw [fresh, tried, budget.triedAgainst_new drawn]
  known entry here := by
    have ⟨window, challenge⟩ := budget.known entry (tried ▸ here)
    exact ⟨Nat.lt_of_lt_of_le window serial, Nat.lt_of_lt_of_le challenge serial⟩
  windows := tried ▸ budget.windows
  challenges := tried ▸ budget.challenges

theorem triedIn_cons (entry : Nat × Nat) (tried : List (Nat × Nat)) (window : Nat) :
    triedIn (entry :: tried) window = triedIn tried window + if entry.1 = window then 1 else 0 := by
  unfold triedIn
  rw [filter_cons]
  by_cases same : entry.1 = window
  · simp [same]
  · simp [same]

theorem triedAgainst_cons (entry : Nat × Nat) (tried : List (Nat × Nat)) (challenge : Nat) :
    triedAgainst (entry :: tried) challenge = triedAgainst tried challenge + if entry.2 = challenge then 1
      else 0 := by
  unfold triedAgainst
  rw [filter_cons]
  by_cases same : entry.2 = challenge
  · simp [same]
  · simp [same]

theorem Budget.tried (budget : Budget s) {challenge : OperatorChallenge P H} {window : LoginWindow}
    (here : challenge ∈ s.challenges) (room : challenge.attempts < 5)
    (consumed : s.consumeFactorAttempt now = .ok (t, window)) : Budget (t.count window challenge) := by
  have ⟨below, counted⟩ := budget.challenge challenge here
  -- the window before this try
  have facts : s.serial ≤ t.serial ∧ t.challenges = s.challenges ∧ t.tried = s.tried ∧ t.window = some window ∧
      window.id < t.serial ∧ window.attempts = triedIn s.tried window.id + 1 ∧ window.attempts ≤ 10 := by
    rcases AuthDb.consumeFactorAttempt_ok consumed with ⟨rfl, rfl⟩ | ⟨before, running, less, rfl, rfl⟩
    · refine ⟨Nat.le_succ _, rfl, rfl, rfl, Nat.lt_succ_self _, ?_, Nat.succ_le_of_lt (by omega)⟩
      rw [budget.triedIn_new (Nat.le_refl _)]
    · have ⟨known, count⟩ := budget.window before running
      exact ⟨Nat.le_refl _, rfl, rfl, rfl, known, by dsimp only; rw [count], less⟩
  obtain ⟨later, rows, tried, running, drawn, count, most⟩ := facts
  refine
    { window := fun other same => ?_
      challenge := fun row there => ?_
      known := fun entry there => ?_
      windows := fun id => ?_
      challenges := fun token => ?_ }
  · cases running.symm.trans same
    refine ⟨drawn, ?_⟩
    show window.attempts = triedIn ((window.id, challenge.token) :: t.tried) window.id
    rw [triedIn_cons, if_pos rfl, tried, count]
  · obtain ⟨old, before, rfl⟩ := List.mem_map.mp there
    rw [rows] at before
    have ⟨low, same⟩ := budget.challenge old before
    show _ < t.serial ∧ _ = triedAgainst ((window.id, challenge.token) :: t.tried) _
    rw [triedAgainst_cons, tried]
    by_cases hit : old.token = challenge.token
    · rw [if_pos hit]
      rw [if_pos hit.symm, same]
      exact ⟨Nat.lt_of_lt_of_le low later, rfl⟩
    · rw [if_neg hit, if_neg (Ne.symm hit), same]
      exact ⟨Nat.lt_of_lt_of_le low later, rfl⟩
  · rcases List.mem_cons.mp there with rfl | before
    · exact ⟨drawn, Nat.lt_of_lt_of_le below later⟩
    · have ⟨first, second⟩ := budget.known entry (tried ▸ before)
      exact ⟨Nat.lt_of_lt_of_le first later, Nat.lt_of_lt_of_le second later⟩
  · show triedIn ((window.id, challenge.token) :: t.tried) id ≤ 10
    have limit := budget.windows id
    rw [triedIn_cons, tried]
    split
    · rename_i same
      rw [← same]
      dsimp only
      omega
    · omega
  · show triedAgainst ((window.id, challenge.token) :: t.tried) token ≤ 5
    have limit := budget.challenges token
    rw [triedAgainst_cons, tried]
    split
    · rename_i same
      rw [← same]
      dsimp only
      omega
    · omega

namespace AuthDb

/-- The row of the second factor, with its defaults. -/
def factorRow (s : AuthDb P H) : AdministratorFactor :=
  s.factor.getD {}

end AuthDb

/-- The codes that can still be accepted are not in the log of those that were, under any name. -/
structure Coded (s : AuthDb P H) : Prop where
  ledger : Ledger s.accepted s.serial
  factor : ∀ owner, Fresh s.accepted s.serial owner s.factorRow.factor
  pending : ∀ secret, s.factorRow.pendingSecret = some secret →
    ∀ owner, Pending s.accepted s.serial owner s.factorRow.factor secret
  challenge : ∀ row ∈ s.challenges, ∀ secret, row.pendingSecret = some secret →
    (∀ owner, Pending s.accepted s.serial owner s.factorRow.factor secret) ∧ s.factorRow.pendingSecret ≠ some secret

theorem Coded.unaccepted (coded : Coded s) (serial : s.serial ≤ t.serial) (accepted : t.accepted = s.accepted)
    (factor : t.factorRow.factor = s.factorRow.factor ∨ t.factorRow.factor = {})
    (pending : t.factorRow.pendingSecret = s.factorRow.pendingSecret ∨ t.factorRow.pendingSecret = none)
    (challenge : ∀ row ∈ t.challenges, ∀ secret, row.pendingSecret = some secret →
      (∃ old ∈ s.challenges, old.pendingSecret = some secret) ∨ s.serial ≤ secret ∧
        secret < t.serial) : Coded t := by
  have moved : ∀ secret, (∀ owner, Pending s.accepted s.serial owner s.factorRow.factor secret) →
      ∀ owner, Pending t.accepted t.serial owner t.factorRow.factor secret := by
    intro secret before owner
    have ⟨below, other, unused⟩ := (before owner).later serial
    refine ⟨below, ?_, accepted ▸ unused⟩
    rcases factor with same | cleared
    · rw [same]
      exact other
    · rw [cleared]
      exact nofun
  refine
    { ledger := accepted ▸ coded.ledger.later serial
      factor := fun owner => ?_
      pending := fun secret here => ?_
      challenge := fun row here secret same => ?_ }
  · rcases factor with same | cleared
    · rw [same, accepted]
      exact (coded.factor owner).later serial
    · rw [cleared]
      exact Fresh.cleared
  · rcases pending with same | none_
    · exact moved secret (coded.pending secret (same ▸ here))
    · rw [none_] at here
      cases here
  · rcases challenge row here secret same with ⟨old, before, known⟩ | ⟨drawn, below⟩
    · obtain ⟨unused, differs⟩ := coded.challenge old before secret known
      refine ⟨moved secret unused, ?_⟩
      rcases pending with same' | none_
      · exact same' ▸ differs
      · rw [none_]
        exact nofun
    · refine ⟨fun owner => ⟨below, ?_, fun step => accepted ▸ coded.ledger.notMem drawn⟩, ?_⟩
      · rcases factor with same' | cleared
        · rw [same']
          intro hit
          have before := (coded.factor owner).secret secret hit
          omega
        · rw [cleared]
          exact nofun
      · rcases pending with same' | none_
        · rw [same']
          intro hit
          have before := (coded.pending secret hit "").below
          omega
        · rw [none_]
          exact nofun

variable {username : String} {factor : AdministratorFactor} {proof : Proof}

theorem Coded.verified (coded : Coded s) {code : C}
    (ok : AuthDb.verifyFactor settings now username code s.factorRow = .ok (some (factor, proof)))
    (serial : s.serial ≤ t.serial) (accepted : t.accepted = proof :: s.accepted) (row : t.factor = some factor)
    (challenge : ∀ row ∈ t.challenges, row ∈ s.challenges) : Coded t := by
  obtain ⟨next, found, rfl⟩ := AuthDb.verifyFactor_ok ok
  have ⟨ledger, fresh⟩ := Fresh.verify_all coded.factor coded.ledger found
  have same : t.factorRow = { s.factorRow with factor := next } := by rw [AuthDb.factorRow, row, Option.getD_some]
  refine
    { ledger := accepted ▸ ledger.later serial
      factor := fun owner => ?_
      pending := fun secret here owner => ?_
      challenge := fun row here secret known => ?_ }
  · rw [accepted, same]
    exact (fresh owner).later serial
  · rw [accepted, same]
    rw [same] at here
    exact (Pending.verify_all (coded.pending secret here) found owner).later serial
  · obtain ⟨unused, differs⟩ := coded.challenge row (challenge row here) secret known
    rw [accepted, same]
    exact ⟨fun owner => (Pending.verify_all unused found owner).later serial, differs⟩

theorem Coded.enrolled (coded : Coded s) {code : C} {secret : Nat} {row : AdministratorFactor}
    (ok : AuthDb.enroll settings now username secret code s.serial row = .ok (some (factor, proof)))
    (unused : ∀ owner, Pending s.accepted s.serial owner s.factorRow.factor secret)
    (pending : row.pendingSecret = none ∨ row.pendingSecret = s.factorRow.pendingSecret ∧
      s.factorRow.pendingSecret ≠ some secret)
    (serial : s.serial + 10 ≤ t.serial) (accepted : t.accepted = proof :: s.accepted)
    (stored : t.factor = some factor) (challenge : t.challenges = []) : Coded t := by
  obtain ⟨step, found, rfl, rfl⟩ := AuthDb.enroll_ok ok
  have ⟨ledger, fresh⟩ := Pending.enrolled_all unused coded.ledger username step 10
  have same : t.factorRow = { row with factor := ⟨some secret, step, AuthDb.newRecoveryCodes s.serial⟩ } := by
    rw [AuthDb.factorRow, stored, Option.getD_some]
  refine
    { ledger := accepted ▸ ledger.later (Nat.le_trans (Nat.le_add_right _ _) serial)
      factor := fun owner => ?_
      pending := fun other here owner => ?_
      challenge := fun row here => ?_ }
  · rw [accepted, same]
    exact (fresh owner).later serial
  · rw [accepted, same]
    rw [same] at here
    rcases pending with none_ | ⟨kept, differs⟩
    · exact absurd here (by rw [none_]; exact nofun)
    · have here' : s.factorRow.pendingSecret = some other := kept ▸ here
      have other_ne : other ≠ secret := fun hit => differs (hit ▸ here')
      obtain ⟨below, -, unlogged⟩ := coded.pending other here' owner
      refine ⟨by omega, fun hit => other_ne (Option.some.inj hit).symm, fun first used => ?_⟩
      rcases List.mem_cons.mp used with hit | earlier
      · cases hit
        exact other_ne rfl
      · exact unlogged first earlier
  · rw [challenge] at here
    cases here

/-- What the transaction that holds the lock relies on: a login on the hash that it has checked, and a change of the
password on having seen every session and every challenge. -/
def Holder.Sound (hasher : PasswordHash P H) (s : AuthDb P H) : Holder P H → Prop
  | .login password hashed | .loginFactor password hashed _ | .loginPolicy password hashed _ _ =>
    hasher.verify password hashed = true ∧ s.administrator.map Administrator.passwordHash = some hashed
  | .change _ => True
  | .changeSessions _ sessions => ∀ row ∈ s.sessions, row.token ∈ sessions
  | .changeChallenges _ sessions challenges | .changeFactor _ sessions challenges _ =>
    (∀ row ∈ s.sessions, row.token ∈ sessions) ∧ ∀ row ∈ s.challenges, row.token ∈ challenges

/-- The passwords that were checked, and the transaction under way. -/
structure Guarded (hasher : PasswordHash P H) (s : AuthDb P H) : Prop where
  read : ∀ read ∈ s.reads, hasher.verify read.1 read.2 = true
  challenge : ∀ row ∈ s.challenges, hasher.verify row.password row.credentialHash = true
  session : ∀ row ∈ s.sessions, row.token < s.serial
  holder : ∀ holder, s.holder = some holder → holder.Sound hasher s

theorem Holder.Sound.keeps {holder : Holder P H} (sound : holder.Sound hasher s)
    (administrator : t.administrator = s.administrator)
    (session : ∀ row ∈ t.sessions, ∃ old ∈ s.sessions, old.token = row.token)
    (challenge : ∀ row ∈ t.challenges, ∃ old ∈ s.challenges, old.token = row.token) : holder.Sound hasher t := by
  have sessions : ∀ {tokens : List Nat}, (∀ row ∈ s.sessions, row.token ∈ tokens) →
      ∀ row ∈ t.sessions, row.token ∈ tokens := by
    intro tokens seen row here
    obtain ⟨old, before, same⟩ := session row here
    exact same ▸ seen old before
  have challenges : ∀ {tokens : List Nat}, (∀ row ∈ s.challenges, row.token ∈ tokens) →
      ∀ row ∈ t.challenges, row.token ∈ tokens := by
    intro tokens seen row here
    obtain ⟨old, before, same⟩ := challenge row here
    exact same ▸ seen old before
  cases holder with
  | login password hashed => exact ⟨sound.1, administrator ▸ sound.2⟩
  | loginFactor password hashed secret => exact ⟨sound.1, administrator ▸ sound.2⟩
  | loginPolicy password hashed secret required => exact ⟨sound.1, administrator ▸ sound.2⟩
  | change hashed => trivial
  | changeSessions hashed tokens => exact sessions sound
  | changeChallenges hashed tokens others => exact ⟨sessions sound.1, challenges sound.2⟩
  | changeFactor hashed tokens others clears => exact ⟨sessions sound.1, challenges sound.2⟩

theorem Guarded.keeps (guarded : Guarded hasher s) (admits : s.Admits t) (serial : s.serial ≤ t.serial)
    (reads : t.reads = s.reads) (holder : t.holder = s.holder)
    (session : ∀ row ∈ t.sessions, ∃ old ∈ s.sessions, old.token = row.token)
    (challenge : ∀ row ∈ t.challenges, ∃ old ∈ s.challenges, old.token = row.token ∧ old.password = row.password ∧
      old.credentialHash = row.credentialHash) : Guarded hasher t where
  read := reads ▸ guarded.read
  challenge row here := by
    obtain ⟨old, before, -, password, hashed⟩ := challenge row here
    exact password ▸ hashed ▸ guarded.challenge old before
  session row here := by
    obtain ⟨old, before, same⟩ := session row here
    exact same ▸ Nat.lt_of_lt_of_le (guarded.session old before) serial
  holder which here := by
    have holding := holder ▸ here
    refine (guarded.holder which holding).keeps (admits which holding).1 session fun row there => ?_
    obtain ⟨old, before, same, -⟩ := challenge row there
    exact ⟨old, before, same⟩

theorem Guarded.advance (guarded : Guarded hasher s) (ok : s.advance = .ok t) : Guarded hasher t := by
  have holder := guarded.holder
  unfold AuthDb.advance at ok
  split at ok
  · rename_i password hashed holding
    cases ok
    exact { guarded with holder := fun _ same => by cases same; exact holder _ holding }
  · rename_i password hashed secret holding
    cases ok
    exact { guarded with holder := fun _ same => by cases same; exact holder _ holding }
  · rename_i hashed holding
    cases ok
    exact { guarded with holder := fun _ same => by cases same; exact fun row here => mem_map_of_mem here }
  · rename_i hashed sessions holding
    cases ok
    exact { guarded with
      holder := fun _ same => by cases same; exact ⟨holder _ holding, fun row here => mem_map_of_mem here⟩ }
  · rename_i hashed sessions challenges holding
    cases ok
    exact { guarded with holder := fun _ same => by cases same; exact holder _ holding }
  · cases ok

/-- What holds of the database at any time of an orderly run. -/
structure Sound (hasher : PasswordHash P H) (s : AuthDb P H) : Prop where
  budget : Budget s
  coded : Coded s
  guarded : Guarded hasher s

end OpenNode.Administration
