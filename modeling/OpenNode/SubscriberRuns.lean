import OpenNode.SubscriberSessions

namespace OpenNode.Subscribers

open OneTimeCodes AuthState

variable {P H C : Type} {hasher : PasswordHash P H} {settings : AuthSettings C} {now : Nat}
variable {s t : AuthState P H}

/-- What a hash accepts is one password, and what is made of a password accepts it. -/
structure PasswordHash.Exact (hasher : PasswordHash P H) : Prop where
  unique : ∀ password other hashed, hasher.verify password hashed = true → hasher.verify other hashed = true →
    password = other
  hash : ∀ salt password, hasher.verify password (hasher.hash salt password) = true

theorem Upgraded.verify (exact_ : hasher.Exact) {old new : H} (upgraded : Upgraded hasher old new) {password : P}
    (accepted : hasher.verify password old = true) : hasher.verify password new = true := by
  induction upgraded with
  | refl => exact accepted
  | tail _ upgrade ih =>
    obtain ⟨salt, other, verified, rfl⟩ := upgrade
    rw [exact_.unique password other _ ih verified]
    exact exact_.hash salt other

/-- The password check behind a login. -/
def AuthEvent.proven (s : AuthState P H) : AuthEvent P H C → Option (Verified P H)
  | .login verified => some verified
  | .completeLogin token _ => (s.challenges.find? (·.token == token)).map Challenge.verified
  | _ => none

def AuthState.Active (s : AuthState P H) (username : String) : Prop :=
  ∃ user, s.users username = some user ∧ user.active = true ∧ user.removing = false

/-- A login that issues a session: its password was accepted by the hash in force, or by the one that an upgrade has
replaced by it, and the code by the secret in force. -/
structure Issues (hasher : PasswordHash P H) (settings : AuthSettings C) (now : Nat) (s : AuthState P H)
    (event : AuthEvent P H C) (username : String) (verified : Verified P H) (account : Account H) : Prop where
  proven : event.proven s = some verified
  mine : verified.username = username
  here : s.accounts username = some account
  active : s.Active username
  version : account.version = verified.version
  accepted : hasher.verify verified.password verified.hashed = true
  current : Upgraded hasher verified.hashed account.passwordHash
  exact_ : hasher.Exact → hasher.verify verified.password account.passwordHash = true
  factor : account.factor.secret = none ∨ ∃ token code next proof, event = .completeLogin token code ∧
    OneTimeCodes.verify settings.scheme now username code account.factor = some (next, proof)

theorem mem_newSession {username : String} {row : Session}
    (here : row ∈ (s.newSession settings now username).sessions) :
    row ∈ s.sessions ∨ row.id = s.serial ∧ row.username = username := by
  rcases List.mem_append.mp here with before | new
  · exact Or.inl (List.mem_filter.mp (List.mem_filter.mp before).1).1
  · rw [List.mem_singleton] at new
    subst new
    exact Or.inr ⟨rfl, rfl⟩

theorem Sound.issues (sound : Sound hasher s) {event : AuthEvent P H C} {username : String}
    {verified : Verified P H}
    {account : Account H} (begun : verified ∈ s.verified) (proven : event.proven s = some verified)
    (mine : verified.username = username) (signed : s.account username = .ok account)
    (version : account.version = verified.version)
    (factor : account.factor.secret = none ∨ ∃ token code next proof, event = .completeLogin token code ∧
      OneTimeCodes.verify settings.scheme now username code account.factor = some (next, proof)) :
    Issues hasher settings now s event username verified account := by
  obtain ⟨here, user, there, enabled⟩ := account_ok signed
  have checked := sound.verified verified begun
  have current := checked.current account (mine ▸ here) version
  exact ⟨proven, mine, here, ⟨user, there, enabled⟩, version, checked.accepted, current,
    fun exact_ => current.verify exact_ checked.accepted, factor⟩

theorem Sound.apply_session [DecidableEq H] (sound : Sound hasher s) {event : AuthEvent P H C}
    (begun : event.Begun s)
    {row : Session} (here : row ∈ (s.apply hasher settings now event).2.sessions) :
    (∃ old ∈ s.sessions, old.id = row.id ∧ old.username = row.username) ∨
      s.serial ≤ row.id ∧ ∃ verified account, Issues hasher settings now s event row.username verified account := by
  have left : ∀ kept : Session → Bool, row ∈ s.sessions.filter kept →
      ∃ old ∈ s.sessions, old.id = row.id ∧ old.username = row.username :=
    fun kept here => ⟨row, (List.mem_filter.mp here).1, rfl, rfl⟩
  have effect := apply_effect hasher settings now s event
  generalize s.apply hasher settings now event = result at effect here
  cases effect with
  | login signed version without =>
    rcases mem_newSession here with before | ⟨id, username⟩
    · exact Or.inl ⟨row, before, rfl, rfl⟩
    · rw [username]
      exact Or.inr ⟨Nat.le_of_eq id.symm, _, _, sound.issues begun rfl rfl signed version (Or.inl without)⟩
  | completeLogin found signed version accepted =>
    rcases mem_newSession here with before | ⟨id, username⟩
    · exact Or.inl ⟨row, before, rfl, rfl⟩
    · obtain ⟨-, known, mine, same⟩ := sound.challenge _ (List.mem_of_find?_eq_some found)
      rw [username]
      refine Or.inr ⟨Nat.le_of_eq id.symm, _, _,
        sound.issues known (by rw [AuthEvent.proven, found, Option.map_some]) mine signed
          (version.symm.trans same.symm) ?_⟩
      rcases factor_ok accepted with ⟨without, -, -⟩ | ⟨next, used, verified, -, -⟩
      · exact Or.inl without
      · exact Or.inr ⟨_, _, next, used, rfl, verified⟩
  | authenticate =>
    obtain ⟨old, before, rfl⟩ := List.mem_map.mp here
    refine Or.inl ⟨old, before, ?_⟩
    split <;> exact ⟨rfl, rfl⟩
  | changePassword proved | updateTotp proved =>
    obtain ⟨_, _, -, -, -, rfl⟩ := checkProof_ok proved
    exact Or.inl (left _ here)
  | prove proved =>
    obtain ⟨_, _, -, -, -, rfl⟩ := checkProof_ok proved
    exact Or.inl ⟨row, here, rfl, rfl⟩
  | logout | setPassword | revokeDevice | confirmTotp | deactivate | remove | purge => exact Or.inl (left _ here)
  | _ => exact Or.inl ⟨row, here, rfl, rfl⟩

/-- What an operation keeps that does not set a password or a secret: the passwords that are accepted, up to
upgrades, and the secret. -/
def Alike (hasher : PasswordHash P H) (s t : AuthState P H) (username : String) : Prop :=
  ∀ account account', s.accounts username = some account → t.accounts username = some account' →
    Upgraded hasher account.passwordHash account'.passwordHash ∧ account'.factor.secret = account.factor.secret

namespace Alike

variable {username other : String} {account account' : Account H}

theorem same (accounts : t.accounts username = s.accounts username) : Alike hasher s t username := by
  intro account account' here there
  cases here.symm.trans (accounts.symm.trans there)
  exact ⟨Relation.ReflTransGen.refl, rfl⟩

theorem changed (here : s.accounts other = some account) (there : t.accounts other = some account')
    (others : ∀ name, name ≠ other → t.accounts name = s.accounts name)
    (upgraded : Upgraded hasher account.passwordHash account'.passwordHash)
    (secret : account'.factor.secret = account.factor.secret) : Alike hasher s t username := by
  by_cases mine : username = other
  · subst mine
    intro before after here' there'
    cases here.symm.trans here'
    cases there.symm.trans there'
    exact ⟨upgraded, secret⟩
  · exact same (others username mine)

theorem revoke (accounts : t.accounts = s.accounts) (keep : Option Nat) :
    Alike hasher s (t.revoke other keep) username := by
  by_cases mine : username = other
  · subst mine
    intro before after here there
    rw [accounts_revoke_self, accounts, here, Option.map_some] at there
    cases there
    exact ⟨Relation.ReflTransGen.refl, rfl⟩
  · exact same (by rw [accounts_revoke_of_ne mine, accounts])

theorem accept {proof : Option Proof} {code : C} (here : s.accounts other = some account)
    (ok : AuthState.factor settings now other code account = .ok (some (account', proof)))
    (accounts : t.accounts = (s.accept other account' proof).accounts) : Alike hasher s t username := by
  obtain ⟨-, hashed, secret⟩ := factor_version ok
  refine changed here (by rw [accounts, accounts_accept_self]) (fun name differs => ?_) ?_ secret
  · rw [accounts, accounts_accept_of_ne differs]
  · rw [hashed]
    exact Relation.ReflTransGen.refl

end Alike

theorem Sound.apply_alike [DecidableEq H] (sound : Sound hasher s) {event : AuthEvent P H C} (begun : event.Begun s)
    (username : String) : Alike hasher s (s.apply hasher settings now event).2 username ∨
      ∃ keep, event.sets = some (username, keep) := by
  have unchanged : Alike hasher s s username := Alike.same rfl
  -- a setting of another subscriber's password or secret
  have elsewhere : ∀ {other : String} {checked : AuthState P H} {account : Account H} {keep : Option Nat},
      username ≠ other → (∀ name, name ≠ other → checked.accounts name = s.accounts name) →
      Alike hasher s ((checked.setAccount other (some account)).revoke other keep) username := by
    intro other checked account keep differs others
    refine Alike.same ?_
    rw [accounts_revoke_of_ne differs, accounts_setAccount_of_ne differs, others username differs]
  have checkedOthers : ∀ {request : Identity} {verified : Verified P H} {code : C} {checked : AuthState P H}
      {account : Account H}, s.checkProof settings now request verified code = .ok (checked, account) →
      ∀ name, name ≠ request.username → checked.accounts name = s.accounts name := by
    intro request verified code checked account proved name differs
    obtain ⟨_, _, -, -, -, rfl⟩ := checkProof_ok proved
    exact accounts_accept_of_ne differs _ _
  have effect := apply_effect hasher settings now s event
  generalize s.apply hasher settings now event = result at effect ⊢
  cases effect with
  | @rehash verified account here hashed =>
    refine Or.inl (Alike.changed here (accounts_setAccount_self _)
      (fun name differs => accounts_setAccount_of_ne differs _) ?_ (by rfl))
    have accepted := (sound.verified verified begun).accepted
    exact Relation.ReflTransGen.single ⟨_, verified.password, hashed ▸ accepted, rfl⟩
  | completeLogin found signed version accepted => exact Or.inl (Alike.accept (account_ok signed).1 accepted rfl)
  | @register name _ free =>
    refine Or.inl ?_
    by_cases mine : username = name
    · subst mine
      intro account account' here
      cases free.symm.trans here
    · exact Alike.same (accounts_setAccount_of_ne mine _)
  | @setPassword name =>
    by_cases mine : username = name
    · exact Or.inr ⟨none, by rw [AuthEvent.sets, mine]⟩
    · exact Or.inl (elsewhere mine fun _ _ => rfl)
  | @changePassword request _ _ _ _ _ proved =>
    by_cases mine : username = request.username
    · exact Or.inr ⟨none, by rw [AuthEvent.sets, mine]⟩
    · exact Or.inl (elsewhere mine (checkedOthers proved))
  | prove proved =>
    obtain ⟨before, proof, known, -, accepted, rfl⟩ := checkProof_ok proved
    exact Or.inl (Alike.accept (account_ok (identity_ok known).1).1 accepted rfl)
  | beginTotp known =>
    exact Or.inl (Alike.changed (account_ok (identity_ok known).1).1 (accounts_setAccount_self _)
      (fun name differs => accounts_setAccount_of_ne differs _) Relation.ReflTransGen.refl (by rfl))
  | @confirmTotp request =>
    by_cases mine : username = request.username
    · exact Or.inr ⟨some request.session, by rw [AuthEvent.sets, mine]⟩
    · refine Or.inl (Alike.same ?_)
      rw [accounts_revoke_of_ne mine, accounts_accept_of_ne mine]
  | @updateTotp request _ _ _ _ _ _ proved =>
    by_cases mine : username = request.username
    · exact Or.inr ⟨some request.session, by rw [AuthEvent.sets, mine]⟩
    · exact Or.inl (elsewhere mine fun name differs => checkedOthers proved name differs)
  | deactivate | remove => exact Or.inl (Alike.revoke rfl none)
  | @purge name =>
    refine Or.inl ?_
    by_cases mine : username = name
    · subst mine
      intro account account' _ there
      rw [AuthState.setUser, accounts_setAccount_self] at there
      cases there
    · refine Alike.same ?_
      rw [AuthState.setUser, accounts_setAccount_of_ne mine, accounts_revoke_of_ne mine]
  | _ => exact Or.inl (Alike.same rfl)

theorem Revoked.version {r : AuthState P H} {username : String} {keep : Option Nat}
    (revoked : Revoked s t username keep) (first : s.serial ≤ t.serial) (later : Onward t r) {account : Account H}
    (signed : r.account username = .ok account) : s.serial ≤ account.version := by
  rcases later.account username account (account_ok signed).1 with fresh | ⟨old, here, same⟩
  · exact Nat.le_trans first fresh
  · exact same ▸ revoked.account old here

theorem Revoked.fails [DecidableEq H] {r : AuthState P H} {username : String} {keep : Option Nat}
    (sound : Sound hasher s) (revoked : Revoked s t username keep) (first : Onward s t) (later : Onward t r)
    {event : AuthEvent P H C} (begun : event.Begun r) (old : event.Old s username keep) :
    ∃ error, (r.apply hasher settings now event).1 = .error error := by
  have version := fun account => @revoked.version P H s t r username keep first.serial later account
  -- an identity or a password check of the old version
  have stale : ∀ {request : Identity} {account : Account H}, request.username = username →
      r.identity settings now request = .ok account → s.serial ≤ account.version ∧
        account.version = request.version := by
    intro request account mine known
    obtain ⟨signed, same, -⟩ := identity_ok known
    exact ⟨version account (mine ▸ signed), same⟩
  have proofs : ∀ {request : Identity} {verified : Verified P H} {account : Account H},
      (request ∈ s.identities ∨ verified ∈ s.verified) → request.username = username →
      r.identity settings now request = .ok account → verified.version = account.version → False := by
    intro request verified account old mine known same
    have ⟨drawn, version⟩ := stale mine known
    rcases old with known | checked
    · have less := sound.identity request known
      omega
    · have less := (sound.verified verified checked).version
      omega
  have checks : ∀ {request : Identity} {verified : Verified P H} {code : C} {checked : AuthState P H}
      {account : Account H}, (request ∈ s.identities ∨ verified ∈ s.verified) → request.username = username →
      r.checkProof settings now request verified code = .ok (checked, account) → False := by
    intro request verified code checked account old mine proved
    obtain ⟨account, _, known, same, -, -⟩ := checkProof_ok proved
    exact proofs old mine known same
  have effect := apply_effect hasher settings now r event
  generalize r.apply hasher settings now event = result at effect ⊢
  cases effect with
  | refused error | attempt error => exact ⟨error, rfl⟩
  | @login verified _ signed same | @challenge verified _ signed same =>
    have less := (sound.verified verified old.1).version
    have drawn := version _ (old.2 ▸ signed)
    omega
  | @completeLogin _ _ found _ _ _ there =>
    obtain ⟨row, here, known, mine⟩ := old
    have less := (sound.challenge row here).1
    have same := List.find?_some there
    rw [beq_iff_eq] at same
    rcases later.challenge found (List.mem_of_find?_eq_some there) with fresh | ⟨middle, between, token', -⟩
    · have drawn := first.serial
      omega
    · rcases first.challenge middle between with fresh | ⟨original, before, token'', username'⟩
      · omega
      · have alike : original = row := List.inj_on_of_nodup_map sound.tokens before here (by omega)
        exact absurd (username'.symm.trans (alike ▸ mine)) (revoked.challenge middle between)
  | @authenticate _ device _ there same =>
    obtain ⟨row, here, known, mine, other⟩ := old
    have numbered := sound.session row here
    rcases later.session device there with ⟨-, fresh⟩ | ⟨middle, between, id', token', -⟩
    · have drawn := first.serial
      omega
    · rcases first.session middle between with ⟨-, fresh⟩ | ⟨original, before, id'', token'', username'⟩
      · omega
      · have numbered' := sound.session original before
        have alike : original = row := List.inj_on_of_nodup_map sound.distinct before here (by omega)
        have kept := revoked.session middle between (username'.symm.trans (alike ▸ mine))
        exact absurd (kept.trans (by rw [← id'', alike])) other
  | changePassword proved | prove proved | updateTotp proved => exact (checks old.1 old.2 proved).elim
  | beginTotp known same => exact (proofs old.1 old.2 known same.symm).elim
  | @revokeDevice request _ _ known | @confirmTotp request _ _ _ _ known =>
    have ⟨drawn, same⟩ := stale old.2 known
    have less := sound.identity request old.1
    omega
  | _ => cases old

/-- Where a session comes from: a login of the run has issued it. -/
structure Origin [DecidableEq H] (hasher : PasswordHash P H) (settings : AuthSettings C) (start s : AuthState P H)
    (row : Session) (before : AuthState P H) (event : AuthEvent P H C) (now : Nat) : Prop where
  reach : Reaches hasher settings start before
  begun : event.Begun before
  absent : ∀ old ∈ before.sessions, old.id ≠ row.id
  issued : ∃ new ∈ (before.apply hasher settings now event).2.sessions, new.id = row.id ∧
    new.username = row.username
  issues : ∃ verified account, Issues hasher settings now before event row.username verified account
  later : Reaches hasher settings (before.apply hasher settings now event).2 s

theorem Reaches.origin [DecidableEq H] (initial : Initial s) (reach : Reaches hasher settings s t) :
    ∀ row ∈ t.sessions, ∃ before event now, Origin hasher settings s t row before event now := by
  induction reach with
  | refl =>
    intro row here
    rw [initial.sessions] at here
    cases here
  | @step t event now before begun ih =>
    intro row here
    have sound : Sound hasher t := initial.sound.reaches before
    rcases sound.apply_session begun here with ⟨old, there, id, username⟩ | ⟨new, verified, account, issues⟩
    · obtain ⟨first, login, time, origin⟩ := ih old there
      refine ⟨first, login, time, ?_⟩
      exact
        { reach := origin.reach
          begun := origin.begun
          absent := id ▸ origin.absent
          issued := id ▸ username ▸ origin.issued
          issues := username ▸ origin.issues
          later := origin.later.step now begun }
    · refine ⟨t, event, now, before, begun, fun old there same => ?_, ⟨row, here, rfl, rfl⟩,
        ⟨verified, account, issues⟩,
        .refl⟩
      have numbered := sound.session old there
      omega

/-- What the versions of the accounts guarantee in a state of a run. -/
structure Follows [DecidableEq H] (hasher : PasswordHash P H) (settings : AuthSettings C)
    (start s : AuthState P H) :
    Prop where
  /-- A session was issued by a login with the password, and the code, in force. -/
  issued : ∀ row ∈ s.sessions, ∃ before event now, Origin hasher settings start s row before event now
  /-- A change of the password or of the secret revokes, and gives the account a new version. -/
  revoked : ∀ (event : AuthEvent P H C) (now : Nat) (username : String) (keep : Option Nat), event.Begun s →
    event.sets = some (username, keep) → (s.apply hasher settings now event).1 = .ok () →
    Revoked s (s.apply hasher settings now event).2 username keep
  version : ∀ username account, s.accounts username = some account → account.version < s.serial
  /-- Nothing else changes the password or the secret of an account. -/
  alike : ∀ (event : AuthEvent P H C) (now : Nat) (username : String), event.Begun s →
    Alike hasher s (s.apply hasher settings now event).2 username ∨ ∃ keep, event.sets = some (username, keep)
  /-- What was begun before such a change fails at any time after it. -/
  fails : ∀ (event : AuthEvent P H C) (now : Nat) (username : String) (keep : Option Nat), event.Begun s →
    event.sets = some (username, keep) → (s.apply hasher settings now event).1 = .ok () →
    ∀ later, Reaches hasher settings (s.apply hasher settings now event).2 later →
    ∀ (old : AuthEvent P H C) (then_ : Nat), old.Begun later → old.Old s username keep →
    ∃ error, (later.apply hasher settings then_ old).1 = .error error
  /-- A step of a secret or a recovery code is accepted once. -/
  once : s.accepted.Nodup
  /-- Only an active subscriber signs in. -/
  active : ∀ (token now : Nat), (s.apply hasher settings now (.authenticate token : AuthEvent P H C)).1 = .ok () →
    ∃ device ∈ s.sessions, device.token = token ∧ s.Active device.username
  limit : ∀ username, (s.sessions.filter (·.username == username)).length ≤ 20

/-- The sessions of the subscribers follow the versions of their accounts in every run. -/
theorem Reaches.follows [DecidableEq H] (initial : Initial s) (reach : Reaches hasher settings s t) :
    Follows hasher settings s t := by
  have sound : Sound hasher t := initial.sound.reaches reach
  exact
    { issued := reach.origin initial
      revoked := fun event now username keep _ which ok => event.sets_revoked which ok
      version := fun username account here => (sound.account username account here).version
      alike := fun event now username begun => sound.apply_alike begun username
      fails := fun event now username keep begun which ok later after old then_ begun' before =>
        (event.sets_revoked which ok).fails sound (Onward.apply event) after.onward begun' before
      once := sound.ledger.nodup
      active := fun token now ok => by
        have effect := apply_effect hasher settings now t (.authenticate token)
        generalize t.apply hasher settings now (.authenticate token) = result at ok effect
        cases effect with
        | refused => cases ok
        | @authenticate _ device _ here same signed =>
          obtain ⟨-, user, there, enabled⟩ := account_ok signed
          exact ⟨device, here, same, user, there, enabled⟩
      limit := sound.limit }

section Example

/-- A hasher that keeps the salt and the password. -/
def plainHasher : PasswordHash String (Nat × String) where
  verify password hashed := password == hashed.2
  hash salt password := (salt, password)
  outdated _ := false

def plainSettings : AuthSettings Nat where
  scheme := ⟨fun _ _ => none, fun secret step code => code == secret + step.toNat⟩
  cipher := true
  sessionLifetime := 3600
  sessionIdle := 600

def oneAccount : AuthState String (Nat × String) where
  users username := if username = "alice" then some ⟨true, false⟩ else none
  accounts username :=
    if username = "alice" then some { passwordHash := (0, "correct horse"), version := 1 } else none
  serial := 2

/-- The password check and the login of the one subscriber. -/
def oneLogin : AuthState String (Nat × String) :=
  ((oneAccount.apply plainHasher plainSettings 100 (.verify "alice" "correct horse" : AuthEvent _ _ Nat)).2.apply
    plainHasher plainSettings 101 (.login ⟨"alice", "correct horse", (0, "correct horse"), 1⟩)).2

theorem oneLogin_follows : Follows plainHasher plainSettings oneAccount oneLogin := by
  refine Reaches.follows ⟨fun username account here => ?_, rfl, rfl, rfl, rfl, rfl⟩
    (.step 101 (.step 100 .refl trivial) (List.mem_singleton.mpr rfl))
  simp only [oneAccount, Option.ite_none_right_eq_some, Option.some.injEq] at here
  obtain ⟨-, rfl⟩ := here
  exact ⟨by decide, Fresh.cleared, nofun⟩

end Example

end OpenNode.Subscribers
