import OpenNode.SubscriberAuth

namespace OpenNode.Subscribers

open OneTimeCodes AuthState Function

variable {P H C : Type} {hasher : PasswordHash P H} {settings : AuthSettings C} {now : Nat}
variable {s t : AuthState P H}

namespace AuthState

section Accounts
variable {username other : String}

@[simp] theorem accounts_setAccount_self (account : Option (Account H)) :
    (s.setAccount username account).accounts username = account := by
  simp only [setAccount, update_self]

theorem accounts_setAccount_of_ne (differs : other ≠ username) (account : Option (Account H)) :
    (s.setAccount username account).accounts other = s.accounts other := by
  simp only [setAccount, update_of_ne differs]

@[simp] theorem accounts_accept_self (account : Account H) (proof : Option Proof) :
    (s.accept username account proof).accounts username = some account := by
  simp only [accept, update_self]

theorem accounts_accept_of_ne (differs : other ≠ username) (account : Account H) (proof : Option Proof) :
    (s.accept username account proof).accounts other = s.accounts other := by
  simp only [accept, update_of_ne differs]

@[simp] theorem accounts_revoke_self (keep : Option Nat) :
    (s.revoke username keep).accounts username = (s.accounts username).map fun account =>
      { account with version := s.serial, pendingSecret := none, pendingSession := none, pendingExpires := 0 } :=
  update_self username _ s.accounts

theorem accounts_revoke_of_ne (differs : other ≠ username) (keep : Option Nat) :
    (s.revoke username keep).accounts other = s.accounts other :=
  update_of_ne differs _ s.accounts

end Accounts

section Guards
variable {username : String} {account account' : Account H} {request : Identity}
  {verified : Verified P H} {code : C}
variable {proof : Option Proof}

theorem account_ok (ok : s.account username = .ok account) :
    s.accounts username = some account ∧ ∃ user, s.users username = some user ∧ user.active = true ∧
      user.removing = false := by
  unfold AuthState.account at ok
  split at ok
  · rename_i user found here there
    split at ok
    · rename_i enabled
      cases ok
      simp only [Bool.and_eq_true, Bool.not_eq_true'] at enabled
      exact ⟨there, user, here, enabled⟩
    · cases ok
  · cases ok

theorem identity_ok (ok : s.identity settings now request = .ok account) :
    s.account request.username = .ok account ∧ account.version = request.version ∧
      ∃ device ∈ s.sessions, device.id = request.session ∧ device.username = request.username := by
  unfold AuthState.identity at ok
  split at ok
  · cases ok
  · rename_i found here
    split at ok
    · cases ok
    · rename_i device live
      split at ok
      · cases ok
      · rename_i refused
        cases ok
        rw [not_or, not_or, not_not, not_not] at refused
        have same := List.find?_some live
        exact ⟨here, refused.2.1, device, List.mem_of_find?_eq_some live, by simpa using same, refused.1⟩

theorem factor_ok (ok : factor settings now username code account = .ok (some (account', proof))) :
    (account.factor.secret = none ∧ account' = account ∧ proof = none) ∨
      ∃ next accepted, OneTimeCodes.verify settings.scheme now username code account.factor =
        some (next, accepted) ∧
        account' = { account with factor := next } ∧ proof = some accepted := by
  unfold AuthState.factor at ok
  split at ok
  · rename_i without
    cases ok
    exact Or.inl ⟨without, rfl, rfl⟩
  · split at ok
    · cases ok
    · split at ok
      · cases ok
      · rename_i next accepted found
        cases ok
        exact Or.inr ⟨next, accepted, found, rfl, rfl⟩

theorem factor_version (ok : factor settings now username code account = .ok (some (account', proof))) :
    account'.version = account.version ∧ account'.passwordHash = account.passwordHash ∧
      account'.factor.secret = account.factor.secret := by
  rcases factor_ok ok with ⟨-, rfl, -⟩ | ⟨next, accepted, found, rfl, -⟩
  · exact ⟨rfl, rfl, rfl⟩
  · exact ⟨rfl, rfl, (verify_secret found).1⟩

theorem checkProof_ok (ok : s.checkProof settings now request verified code = .ok (t, account')) :
    ∃ account proof, s.identity settings now request = .ok account ∧ verified.version = account.version ∧
      factor settings now request.username code account = .ok (some (account', proof)) ∧
      t = s.accept request.username account' proof := by
  unfold checkProof at ok
  split at ok
  · cases ok
  · rename_i account here
    split at ok
    · cases ok
    · rename_i same
      split at ok
      · cases ok
      · cases ok
      · rename_i next proof accepted
        cases ok
        exact ⟨account, proof, here, not_not.mp same, accepted, rfl⟩

end Guards

/-- What an operation does: nothing when it is refused, and otherwise what its guards have let through. -/
inductive Effect (hasher : PasswordHash P H) (settings : AuthSettings C) (now : Nat) (s : AuthState P H) :
    AuthEvent P H C → Except String Unit × AuthState P H → Prop
  | refused {event} (error : String) : Effect hasher settings now s event (.error error, s)
  | verify {username password account} (here : s.accounts username = some account)
      (accepted : hasher.verify password account.passwordHash = true) :
      Effect hasher settings now s (.verify username password) (.ok (), { s with
        verified := ⟨username, password, account.passwordHash, account.version⟩ :: s.verified })
  | unhashed {verified} : Effect hasher settings now s (.rehash verified) (.ok (), s)
  | rehash {verified account} (here : s.accounts verified.username = some account)
      (hashed : account.passwordHash = verified.hashed) :
      Effect hasher settings now s (.rehash verified) (.ok (), { s.setAccount verified.username (some { account with
        passwordHash := hasher.hash s.serial verified.password }) with serial := s.serial + 1 })
  | login {verified account} (signed : s.account verified.username = .ok account)
      (version : account.version = verified.version) (without : account.factor.secret = none) :
      Effect hasher settings now s (.login verified) (.ok (), s.newSession settings now verified.username)
  | challenge {verified account} (signed : s.account verified.username = .ok account)
      (version : account.version = verified.version) :
      Effect hasher settings now s (.login verified) (.ok (), { s with
        challenges := (s.challenges.filter fun row => row.username != verified.username &&
          decide (now < row.expires)) ++
          [{ token := s.serial, username := verified.username, version := verified.version, expires := now + 300,
             verified }]
        serial := s.serial + 1 })
  | attempt {token code} (error : String) :
      Effect hasher settings now s (.completeLogin token code) (.error error, { s with
        challenges := s.challenges.map fun row =>
          if row.token = token then { row with attempts := row.attempts + 1 } else row })
  | completeLogin {token code row account account' proof} (found : s.challenges.find? (·.token == token) = some row)
      (signed : s.account row.username = .ok account) (version : row.version = account.version)
      (accepted : factor settings now row.username code account = .ok (some (account', proof))) :
      Effect hasher settings now s (.completeLogin token code) (.ok (), { s.accept row.username account' proof with
        challenges := (s.accept row.username account' proof).challenges.filter (·.token != token) }.newSession
          settings now row.username)
  | authenticate {token device account} (here : device ∈ s.sessions) (same : device.token = token)
      (signed : s.account device.username = .ok account) :
      Effect hasher settings now s (.authenticate token) (.ok (), { s with
        sessions := s.sessions.map fun row => if row.token = token then { row with lastSeen := now } else row
        identities := ⟨device.username, device.id, account.version⟩ :: s.identities })
  | logout {token} :
      Effect hasher settings now s (.logout token) (.ok (),
        { s with sessions := s.sessions.filter (·.token != token) })
  | register {username password} (free : s.accounts username = none) :
      Effect hasher settings now s (.register username password) (.ok (),
        { (s.setUser username (some ⟨true, false⟩)).setAccount username
          (some { passwordHash := hasher.hash s.serial password, version := s.serial }) with serial :=
            s.serial + 1 })
  | setPassword {username revision password reset} (account : Account H)
      (hashed : account.passwordHash = hasher.hash s.serial password)
      (which : account.factor = {} ∨ ∃ old, s.accounts username = some old ∧ account.factor = old.factor) :
      Effect hasher settings now s (.setPassword username revision password reset)
        (.ok (), (s.setAccount username (some account)).revoke username none)
  | changePassword {request verified code password checked account}
      (proved : s.checkProof settings now request verified code = .ok (checked, account)) :
      Effect hasher settings now s (.changePassword request verified code password)
        (.ok (), (checked.setAccount request.username (some { account with
          passwordHash := hasher.hash checked.serial password })).revoke request.username none)
  | prove {request verified code checked account}
      (proved : s.checkProof settings now request verified code = .ok (checked, account)) :
      Effect hasher settings now s (.prove request verified code) (.ok (), checked)
  | revokeDevice {request device account} (known : s.identity settings now request = .ok account)
      (kept : Session → Bool) :
      Effect hasher settings now s (.revokeDevice request device) (.ok (),
        { s with sessions := s.sessions.filter kept })
  | beginTotp {request verified account} (known : s.identity settings now request = .ok account)
      (version : account.version = verified.version) (without : account.factor.secret = none) :
      Effect hasher settings now s (.beginTotp request verified)
        (.ok (), { s.setAccount request.username (some { account with
            pendingSecret := some s.serial, pendingExpires := now + 600, pendingSession :=
              some request.session }) with
          serial := s.serial + 1 })
  | confirmTotp {request code account secret step} (known : s.identity settings now request = .ok account)
      (pending : account.pendingSecret = some secret) (found : findStep settings.scheme now secret code (-1) =
        some step) :
      Effect hasher settings now s (.confirmTotp request code) (.ok (), (AuthState.accept request.username
        { account with factor := ⟨some secret, step, recoveryCodes s.serial⟩ }
        (some (.step request.username secret step)) { s with serial := s.serial + 10 }).revoke request.username
          (some request.session))
  | updateTotp {request verified code disable checked account} {factor : Factor}
      (proved : s.checkProof settings now request verified code = .ok (checked, account))
      (which : factor = {} ∨ factor = { account.factor with recovery := recoveryCodes checked.serial }) :
      Effect hasher settings now s (.updateTotp request verified code disable)
        (.ok (), (({ checked with serial := checked.serial + 10 }).setAccount request.username
          (some { account with factor := factor })).revoke request.username (some request.session))
  | activate {username} (user : ProductUser) :
      Effect hasher settings now s (.setActive username true) (.ok (), s.setUser username (some user))
  | deactivate {username} (user : ProductUser) :
      Effect hasher settings now s (.setActive username false)
        (.ok (), (s.setUser username (some user)).revoke username none)
  | removing {username} : Effect hasher settings now s (.remove username) (.ok (), s)
  | remove {username} : Effect hasher settings now s (.remove username)
      (.ok (), (s.setUser username (some ⟨false, true⟩)).revoke username none)
  | purge {username} : Effect hasher settings now s (.purge username)
      (.ok (), ((s.revoke username none).setAccount username none).setUser username none)

section Requests
variable [DecidableEq H] {username : String} {password : P} {verified : Verified P H} {token : Nat}
variable {code : C} {revision device : Option Nat} {reset disable active : Bool} {request : Identity}

theorem verify_effect :
    Effect hasher settings now s (.verify username password)
      (s.apply hasher settings now (.verify username password)) := by
  rw [AuthState.apply, AuthState.verify]
  split
  · exact .refused _
  · rename_i account here
    split
    · rename_i accepted
      exact .verify here accepted
    · exact .refused _

theorem rehash_effect :
    Effect hasher settings now s (.rehash verified) (s.apply hasher settings now (.rehash verified)) := by
  rw [AuthState.apply, AuthState.rehash]
  split
  · exact .unhashed
  · rename_i account here
    split
    · rename_i due
      exact .rehash here due.2.1
    · exact .unhashed

theorem login_effect :
    Effect hasher settings now s (.login verified) (s.apply hasher settings now (.login verified)) := by
  rw [AuthState.apply, AuthState.login]
  split
  · exact .refused _
  · rename_i account signed
    split
    · exact .refused _
    · rename_i same
      split
      · exact .challenge signed (not_not.mp same)
      · rename_i without
        exact .login signed (not_not.mp same) (by simpa using without)

theorem completeLogin_effect :
    Effect hasher settings now s (.completeLogin token code)
      (s.apply hasher settings now (.completeLogin token code)) := by
  rw [AuthState.apply, AuthState.completeLogin]
  split
  · exact .refused _
  · rename_i row found
    split
    · exact .refused _
    · rename_i account signed
      split
      · exact .refused _
      · rename_i open_
        rw [not_or, not_or, not_not] at open_
        split
        · exact .refused _
        · exact .attempt _
        · rename_i account' proof accepted
          exact .completeLogin found signed open_.2.1 accepted

theorem authenticate_effect :
    Effect hasher settings now s (.authenticate token) (s.apply hasher settings now (.authenticate token)) := by
  rw [AuthState.apply, AuthState.authenticate]
  split
  · exact .refused _
  · rename_i device found
    split
    · exact .refused _
    · rename_i account signed
      split
      · exact .refused _
      · exact .authenticate (List.mem_of_find?_eq_some found) (by simpa using List.find?_some found) signed

theorem register_effect :
    Effect hasher settings now s (.register username password)
      (s.apply hasher settings now (.register username password)) := by
  rw [AuthState.apply, AuthState.register]
  split
  · exact .refused _
  · rename_i free
    exact .register (by simpa using (not_or.mp free).2)

theorem setPassword_effect :
    Effect hasher settings now s (.setPassword username revision password reset)
      (s.apply hasher settings now (.setPassword username revision password reset)) := by
  rw [AuthState.apply, AuthState.setPassword]
  split
  · exact .refused _
  · split
    · exact .refused _
    · split
      · exact .refused _
      · refine .setPassword _ ?_ ?_
        · cases reset <;> rfl
        · cases reset with
          | true => exact Or.inl rfl
          | false =>
            cases here : s.accounts username with
            | none => exact Or.inl rfl
            | some old => exact Or.inr ⟨old, rfl, rfl⟩

theorem changePassword_effect :
    Effect hasher settings now s (.changePassword request verified code password)
      (s.apply hasher settings now (.changePassword request verified code password)) := by
  rw [AuthState.apply, AuthState.changePassword]
  split
  · exact .refused _
  · rename_i checked account proved
    exact .changePassword proved

theorem prove_effect :
    Effect hasher settings now s (.prove request verified code)
      (s.apply hasher settings now (.prove request verified code)) := by
  rw [AuthState.apply, AuthState.prove]
  split
  · exact .refused _
  · rename_i checked account proved
    exact .prove proved

theorem revokeDevice_effect :
    Effect hasher settings now s (.revokeDevice request device)
      (s.apply hasher settings now (.revokeDevice request device)) := by
  rw [AuthState.apply, AuthState.revokeDevice]
  split
  · exact .refused _
  · rename_i account known
    exact .revokeDevice known _

theorem beginTotp_effect :
    Effect hasher settings now s (.beginTotp request verified)
      (s.apply hasher settings now (.beginTotp request verified)) := by
  rw [AuthState.apply, AuthState.beginTotp]
  split
  · exact .refused _
  · rename_i account known
    split
    · exact .refused _
    · rename_i same
      split
      · exact .refused _
      · rename_i without
        split
        · exact .refused _
        · exact .beginTotp known (not_not.mp same) (by simpa using without)

theorem confirmTotp_effect :
    Effect hasher settings now s (.confirmTotp request code)
      (s.apply hasher settings now (.confirmTotp request code)) := by
  rw [AuthState.apply, AuthState.confirmTotp]
  split
  · exact .refused _
  · rename_i account known
    split
    · exact .refused _
    · rename_i secret pending
      split
      · exact .refused _
      · split
        · exact .refused _
        · split
          · exact .refused _
          · rename_i step found
            exact .confirmTotp known pending found

theorem updateTotp_effect :
    Effect hasher settings now s (.updateTotp request verified code disable)
      (s.apply hasher settings now (.updateTotp request verified code disable)) := by
  rw [AuthState.apply, AuthState.updateTotp]
  split
  · exact .refused _
  · rename_i checked account proved
    split
    · exact .refused _
    · cases disable with
      | true => exact .updateTotp proved (Or.inl rfl)
      | false => exact .updateTotp proved (Or.inr rfl)

theorem setActive_effect :
    Effect hasher settings now s (.setActive username active)
      (s.apply hasher settings now (.setActive username active)) := by
  rw [AuthState.apply, AuthState.setActive]
  split
  · exact .refused _
  · split
    · exact .refused _
    · cases active with
      | true => exact .activate _
      | false => exact .deactivate _

theorem remove_effect :
    Effect hasher settings now s (.remove username) (s.apply hasher settings now (.remove username)) := by
  rw [AuthState.apply, AuthState.remove]
  split
  · exact .refused _
  · split
    · exact .removing
    · exact .remove

theorem purge_effect :
    Effect hasher settings now s (.purge username) (s.apply hasher settings now (.purge username)) := by
  rw [AuthState.apply, AuthState.purge]
  split
  · exact .refused _
  · split
    · exact .purge
    · exact .refused _

end Requests

theorem apply_effect [DecidableEq H] (hasher : PasswordHash P H) (settings : AuthSettings C) (now : Nat)
    (s : AuthState P H) (event : AuthEvent P H C) :
    Effect hasher settings now s event (s.apply hasher settings now event) := by
  cases event with
  | verify => exact verify_effect
  | rehash => exact rehash_effect
  | login => exact login_effect
  | completeLogin => exact completeLogin_effect
  | authenticate => exact authenticate_effect
  | logout token => exact .logout
  | register => exact register_effect
  | setPassword => exact setPassword_effect
  | changePassword => exact changePassword_effect
  | prove => exact prove_effect
  | revokeDevice => exact revokeDevice_effect
  | beginTotp => exact beginTotp_effect
  | confirmTotp => exact confirmTotp_effect
  | updateTotp => exact updateTotp_effect
  | setActive => exact setActive_effect
  | remove => exact remove_effect
  | purge => exact purge_effect

end AuthState

/-- Numbers are only drawn, and what is not taken over carries a number that was drawn. -/
structure Onward (s t : AuthState P H) : Prop where
  serial : s.serial ≤ t.serial
  session : ∀ row ∈ t.sessions, (s.serial ≤ row.id ∧ s.serial ≤ row.token) ∨
    ∃ old ∈ s.sessions, old.id = row.id ∧ old.token = row.token ∧ old.username = row.username
  challenge : ∀ row ∈ t.challenges, s.serial ≤ row.token ∨
    ∃ old ∈ s.challenges, old.token = row.token ∧ old.username = row.username
  account : ∀ username account, t.accounts username = some account →
    s.serial ≤ account.version ∨ ∃ old, s.accounts username = some old ∧ old.version = account.version

namespace Onward

theorem refl (s : AuthState P H) : Onward s s where
  serial := Nat.le_refl _
  session row here := Or.inr ⟨row, here, rfl, rfl, rfl⟩
  challenge row here := Or.inr ⟨row, here, rfl, rfl⟩
  account _ account here := Or.inr ⟨account, here, rfl⟩

theorem trans {r : AuthState P H} (before : Onward r s) (after : Onward s t) : Onward r t where
  serial := Nat.le_trans before.serial after.serial
  session row here := by
    rcases after.session row here with ⟨id, token⟩ | ⟨old, there, id, token, username⟩
    · exact Or.inl ⟨Nat.le_trans before.serial id, Nat.le_trans before.serial token⟩
    · rcases before.session old there with ⟨fresh, drawn⟩ | ⟨older, first, id', token', username'⟩
      · exact Or.inl ⟨id ▸ fresh, token ▸ drawn⟩
      · exact Or.inr ⟨older, first, id'.trans id, token'.trans token, username'.trans username⟩
  challenge row here := by
    rcases after.challenge row here with fresh | ⟨old, there, token, username⟩
    · exact Or.inl (Nat.le_trans before.serial fresh)
    · rcases before.challenge old there with fresh | ⟨older, first, token', username'⟩
      · exact Or.inl (token ▸ fresh)
      · exact Or.inr ⟨older, first, token'.trans token, username'.trans username⟩
  account username account here := by
    rcases after.account username account here with fresh | ⟨old, there, same⟩
    · exact Or.inl (Nat.le_trans before.serial fresh)
    · rcases before.account username old there with fresh | ⟨older, first, same'⟩
      · exact Or.inl (same ▸ fresh)
      · exact Or.inr ⟨older, first, same'.trans same⟩

variable {username : String} {account account' : Account H}

theorem drawn (amount : Nat) : Onward s { s with serial := s.serial + amount } :=
  { refl s with serial := Nat.le_add_right _ _ }

theorem setUser (user : Option ProductUser) : Onward s (s.setUser username user) :=
  { refl s with }

theorem setAccount {account : Option (Account H)}
    (known : ∀ account', account = some account' → s.serial ≤ account'.version ∨
      ∃ old, s.accounts username = some old ∧ old.version = account'.version) :
    Onward s (s.setAccount username account) :=
  { refl s with
    account := fun other account' here => by
      by_cases same : other = username
      · subst same
        rw [accounts_setAccount_self] at here
        exact known account' here
      · rw [accounts_setAccount_of_ne same] at here
        exact Or.inr ⟨account', here, rfl⟩ }

theorem setAccount_same (here : s.accounts username = some account) (same : account'.version = account.version) :
    Onward s (s.setAccount username (some account')) :=
  setAccount fun _ now => by
    cases now
    exact Or.inr ⟨account, here, same.symm⟩

theorem accept {proof : Option Proof} (here : s.accounts username = some account)
    (same : account'.version = account.version) : Onward s (s.accept username account' proof) :=
  { setAccount_same here same with }

theorem revoke (keep : Option Nat) : Onward s (s.revoke username keep) where
  serial := Nat.le_succ _
  session row here := Or.inr ⟨row, (List.mem_filter.mp here).1, rfl, rfl, rfl⟩
  challenge row here := Or.inr ⟨row, (List.mem_filter.mp here).1, rfl, rfl⟩
  account other account' here := by
    by_cases same : other = username
    · subst same
      rw [accounts_revoke_self, Option.map_eq_some_iff] at here
      obtain ⟨_, -, rfl⟩ := here
      exact Or.inl (Nat.le_refl _)
    · rw [accounts_revoke_of_ne same] at here
      exact Or.inr ⟨account', here, rfl⟩

theorem setAccount_revoke (account : Account H) (keep : Option Nat) :
    Onward s ((s.setAccount username (some account)).revoke username keep) :=
  { revoke keep with
    account := fun other account' here => by
      by_cases same : other = username
      · subst same
        rw [accounts_revoke_self, Option.map_eq_some_iff] at here
        obtain ⟨_, -, rfl⟩ := here
        exact Or.inl (Nat.le_refl _)
      · rw [accounts_revoke_of_ne same, accounts_setAccount_of_ne same] at here
        exact Or.inr ⟨account', here, rfl⟩ }

theorem filtered (kept : Session → Bool) : Onward s { s with sessions := s.sessions.filter kept } :=
  { refl s with session := fun row here => Or.inr ⟨row, (List.mem_filter.mp here).1, rfl, rfl, rfl⟩ }

theorem fewer (kept : Challenge P H → Bool) : Onward s { s with challenges := s.challenges.filter kept } :=
  { refl s with challenge := fun row here => Or.inr ⟨row, (List.mem_filter.mp here).1, rfl, rfl⟩ }

theorem newSession : Onward s (s.newSession settings now username) where
  serial := Nat.le_add_right _ _
  session row here := by
    rcases List.mem_append.mp here with before | new
    · exact Or.inr ⟨row, (List.mem_filter.mp (List.mem_filter.mp before).1).1, rfl, rfl, rfl⟩
    · rw [List.mem_singleton] at new
      subst new
      exact Or.inl ⟨Nat.le_refl _, Nat.le_succ _⟩
  challenge row here := Or.inr ⟨row, (List.mem_filter.mp here).1, rfl, rfl⟩
  account _ account here := Or.inr ⟨account, here, rfl⟩

variable {request : Identity} {verified : Verified P H} {code : C}

theorem checkProof (ok : s.checkProof settings now request verified code = .ok (t, account')) : Onward s t := by
  obtain ⟨account, proof, known, -, accepted, rfl⟩ := checkProof_ok ok
  exact accept (account_ok (identity_ok known).1).1 (factor_version accepted).1

end Onward

theorem Onward.apply [DecidableEq H] (event : AuthEvent P H C) :
    Onward s (s.apply hasher settings now event).2 := by
  have effect := apply_effect hasher settings now s event
  generalize s.apply hasher settings now event = result at effect ⊢
  cases effect with
  | refused | unhashed | removing => exact refl s
  | verify => exact { refl s with }
  | rehash here => exact (setAccount_same here (by rfl)).trans (drawn 1)
  | login => exact newSession
  | challenge =>
    exact { drawn 1 with
      challenge := fun row here => by
        rcases List.mem_append.mp here with before | new
        · exact Or.inr ⟨row, (List.mem_filter.mp before).1, rfl, rfl⟩
        · rw [List.mem_singleton] at new
          subst new
          exact Or.inl (Nat.le_refl _) }
  | attempt =>
    exact { refl s with
      challenge := fun row here => by
        obtain ⟨old, there, rfl⟩ := List.mem_map.mp here
        refine Or.inr ⟨old, there, ?_⟩
        split <;> exact ⟨rfl, rfl⟩ }
  | completeLogin found signed version accepted =>
    exact ((accept (account_ok signed).1 (factor_version accepted).1).trans (fewer _)).trans newSession
  | authenticate =>
    exact { refl s with
      session := fun row here => by
        obtain ⟨old, there, rfl⟩ := List.mem_map.mp here
        refine Or.inr ⟨old, there, ?_⟩
        split <;> exact ⟨rfl, rfl, rfl⟩ }
  | logout => exact filtered _
  | register =>
    refine (((setUser _).trans (setAccount fun account' now => ?_)).trans (drawn 1))
    cases now
    exact Or.inl (Nat.le_refl _)
  | setPassword account => exact setAccount_revoke account none
  | changePassword proved => exact (checkProof proved).trans (setAccount_revoke _ none)
  | prove proved => exact checkProof proved
  | revokeDevice known kept => exact filtered kept
  | beginTotp known => exact (setAccount_same (account_ok (identity_ok known).1).1 (by rfl)).trans (drawn 1)
  | confirmTotp known =>
    exact ((drawn 10).trans (accept (account_ok (identity_ok known).1).1 (by rfl))).trans (revoke _)
  | updateTotp proved => exact ((checkProof proved).trans (drawn 10)).trans (setAccount_revoke _ _)
  | activate => exact setUser _
  | deactivate | remove => exact (setUser _).trans (revoke none)
  | purge => exact ((revoke none).trans (setAccount fun _ now => by cases now)).trans (setUser none)

/-- What an operation was begun with has been read or checked. -/
def AuthEvent.Begun (s : AuthState P H) : AuthEvent P H C → Prop
  | .rehash verified => verified ∈ s.verified
  | .login verified => verified ∈ s.verified
  | .changePassword request verified _ _ =>
    request ∈ s.identities ∧ verified ∈ s.verified ∧ verified.username = request.username
  | .prove request verified _ => request ∈ s.identities ∧ verified ∈ s.verified ∧
      verified.username = request.username
  | .beginTotp request verified => request ∈ s.identities ∧ verified ∈ s.verified ∧
      verified.username = request.username
  | .updateTotp request verified _ _ =>
    request ∈ s.identities ∧ verified ∈ s.verified ∧ verified.username = request.username
  | .revokeDevice request _ => request ∈ s.identities
  | .confirmTotp request _ => request ∈ s.identities
  | _ => True

/-- The runs of the store: operations that have begun, in any order and at any time. -/
inductive Reaches [DecidableEq H] (hasher : PasswordHash P H) (settings : AuthSettings C) (s : AuthState P H) :
    AuthState P H → Prop
  | refl : Reaches hasher settings s s
  | step {t : AuthState P H} {event : AuthEvent P H C} (now : Nat) (before : Reaches hasher settings s t)
      (begun : event.Begun t) : Reaches hasher settings s (t.apply hasher settings now event).2

/-- Whose password or secret an operation sets, and the session that it keeps. -/
def AuthEvent.sets : AuthEvent P H C → Option (String × Option Nat)
  | .setPassword username _ _ _ => some (username, none)
  | .changePassword request _ _ _ => some (request.username, none)
  | .confirmTotp request _ => some (request.username, some request.session)
  | .updateTotp request _ _ _ => some (request.username, some request.session)
  | _ => none

/-- An operation that was begun in a state, as a subscriber, unless with the kept session. -/
def AuthEvent.Old (s : AuthState P H) (username : String) (keep : Option Nat) : AuthEvent P H C → Prop
  | .login verified => verified ∈ s.verified ∧ verified.username = username
  | .completeLogin token _ => ∃ row ∈ s.challenges, row.token = token ∧ row.username = username
  | .authenticate token => ∃ row ∈ s.sessions, row.token = token ∧ row.username = username ∧ keep ≠ some row.id
  | .changePassword request verified _ _ =>
    (request ∈ s.identities ∨ verified ∈ s.verified) ∧ request.username = username
  | .prove request verified _ => (request ∈ s.identities ∨ verified ∈ s.verified) ∧ request.username = username
  | .beginTotp request verified => (request ∈ s.identities ∨ verified ∈ s.verified) ∧ request.username = username
  | .updateTotp request verified _ _ =>
    (request ∈ s.identities ∨ verified ∈ s.verified) ∧ request.username = username
  | .revokeDevice request _ => request ∈ s.identities ∧ request.username = username
  | .confirmTotp request _ => request ∈ s.identities ∧ request.username = username
  | _ => False

theorem Reaches.onward [DecidableEq H] (reach : Reaches hasher settings s t) : Onward s t := by
  induction reach with
  | refl => exact Onward.refl s
  | step now _ begun ih => exact ih.trans (Onward.apply _)

/-- What is left of a subscriber once its sessions are revoked. -/
structure Revoked (s t : AuthState P H) (username : String) (keep : Option Nat) : Prop where
  session : ∀ row ∈ t.sessions, row.username = username → keep = some row.id
  challenge : ∀ row ∈ t.challenges, row.username ≠ username
  account : ∀ account, t.accounts username = some account → s.serial ≤ account.version

variable {username : String}

theorem Revoked.revoke (keep : Option Nat) (drawn : s.serial ≤ t.serial) :
    Revoked s (t.revoke username keep) username keep where
  session row here mine := by
    have kept := (List.mem_filter.mp here).2
    simpa [mine] using kept
  challenge row here := by
    have kept := (List.mem_filter.mp here).2
    simpa using kept
  account account here := by
    rw [accounts_revoke_self, Option.map_eq_some_iff] at here
    obtain ⟨_, -, rfl⟩ := here
    exact drawn

theorem AuthEvent.sets_revoked [DecidableEq H] {event : AuthEvent P H C} {keep : Option Nat}
    (which : event.sets = some (username, keep)) (ok : (s.apply hasher settings now event).1 = .ok ()) :
    Revoked s (s.apply hasher settings now event).2 username keep := by
  have effect := apply_effect hasher settings now s event
  generalize s.apply hasher settings now event = result at effect ok ⊢
  cases effect with
  | refused => cases ok
  | setPassword =>
    cases which
    exact Revoked.revoke none (Nat.le_refl _)
  | changePassword proved =>
    cases which
    exact Revoked.revoke none (Onward.checkProof proved).serial
  | confirmTotp =>
    cases which
    exact Revoked.revoke _ (Nat.le_add_right _ _)
  | updateTotp proved =>
    cases which
    exact Revoked.revoke _ (Nat.le_trans (Onward.checkProof proved).serial (Nat.le_add_right _ _))
  | _ => cases which

end OpenNode.Subscribers
