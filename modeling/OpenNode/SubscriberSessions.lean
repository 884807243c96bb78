import OpenNode.SubscriberVersions

namespace OpenNode.Subscribers

open OneTimeCodes AuthState List Function

variable {P H C : Type} {hasher : PasswordHash P H} {settings : AuthSettings C} {now : Nat}
variable {s t : AuthState P H}

/-- A hash, and those that have replaced it when a password that it accepts was verified. -/
def Upgraded (hasher : PasswordHash P H) : H → H → Prop :=
  Relation.ReflTransGen fun old new => ∃ salt password, hasher.verify password old = true ∧
    new = hasher.hash salt password

/-- A password check that was made, and what it still says about an account of its version. -/
structure Verified.Sound (hasher : PasswordHash P H) (accounts : String → Option (Account H)) (serial : Nat)
    (verified : Verified P H) : Prop where
  accepted : hasher.verify verified.password verified.hashed = true
  version : verified.version < serial
  current : ∀ account, accounts verified.username = some account → account.version = verified.version →
    Upgraded hasher verified.hashed account.passwordHash

structure Account.Sound (log : List Proof) (serial : Nat) (username : String) (account : Account H) : Prop where
  version : account.version < serial
  factor : Fresh log serial username account.factor
  pending : ∀ secret, account.pendingSecret = some secret → Pending log serial username account.factor secret

/-- What holds of the tables at any time. -/
structure Sound (hasher : PasswordHash P H) (s : AuthState P H) : Prop where
  account : ∀ username account, s.accounts username = some account → account.Sound s.accepted s.serial username
  ledger : Ledger s.accepted s.serial
  session : ∀ row ∈ s.sessions, row.token = row.id + 1 ∧ row.token < s.serial
  distinct : (s.sessions.map Session.id).Nodup
  limit : ∀ username, (s.sessions.filter (·.username == username)).length ≤ 20
  verified : ∀ verified ∈ s.verified, verified.Sound hasher s.accounts s.serial
  challenge : ∀ row ∈ s.challenges, row.token < s.serial ∧ row.verified ∈ s.verified ∧
    row.verified.username = row.username ∧ row.verified.version = row.version
  tokens : (s.challenges.map Challenge.token).Nodup
  identity : ∀ request ∈ s.identities, request.version < s.serial

/-- What a store starts with: its accounts, and nothing that has begun. -/
structure Initial (s : AuthState P H) : Prop where
  account : ∀ username account, s.accounts username = some account → account.Sound [] s.serial username
  sessions : s.sessions = []
  challenges : s.challenges = []
  verified : s.verified = []
  identities : s.identities = []
  accepted : s.accepted = []

theorem Initial.sound (initial : Initial s) : Sound hasher s where
  account := initial.accepted ▸ initial.account
  ledger := initial.accepted ▸ ⟨nodup_nil, nofun⟩
  session := initial.sessions ▸ nofun
  distinct := initial.sessions ▸ nodup_nil
  limit _ := initial.sessions ▸ Nat.zero_le _
  verified := initial.verified ▸ nofun
  challenge := initial.challenges ▸ nofun
  tokens := initial.challenges ▸ nodup_nil
  identity := initial.identities ▸ nofun

variable {log : List Proof} {username : String} {account : Account H}

theorem Account.Sound.later {serial later : Nat} (sound : account.Sound log serial username)
    (drawn : serial ≤ later) :
    account.Sound log later username where
  version := Nat.lt_of_lt_of_le sound.version drawn
  factor := sound.factor.later drawn
  pending secret here := (sound.pending secret here).later drawn

theorem Account.Sound.cons_other {serial : Nat} {proof : Proof} (sound : account.Sound log serial username)
    (other : proof.owner ≠ username) :
    account.Sound (proof :: log) serial username where
  version := sound.version
  factor := sound.factor.cons_other other
  pending secret here := (sound.pending secret here).cons_other other

namespace Sound

variable {username : String} {account account' : Account H}

section

variable (sound : Sound hasher s)
include sound

theorem drawn (amount : Nat) : Sound hasher { s with serial := s.serial + amount } where
  account name account here := (sound.account name account here).later (Nat.le_add_right _ _)
  ledger := sound.ledger.later (Nat.le_add_right _ _)
  session row here := ⟨(sound.session row here).1,
    Nat.lt_of_lt_of_le (sound.session row here).2 (Nat.le_add_right _ _)⟩
  distinct := sound.distinct
  limit := sound.limit
  verified verified here :=
    { sound.verified verified here with
      version := Nat.lt_of_lt_of_le (sound.verified verified here).version (Nat.le_add_right _ _) }
  challenge row here := ⟨Nat.lt_of_lt_of_le (sound.challenge row here).1 (Nat.le_add_right _ _),
    (sound.challenge row here).2⟩
  tokens := sound.tokens
  identity request here := Nat.lt_of_lt_of_le (sound.identity request here) (Nat.le_add_right _ _)

theorem setUser (user : Option ProductUser) : Sound hasher (s.setUser username user) where
  account := sound.account
  ledger := sound.ledger
  session := sound.session
  distinct := sound.distinct
  limit := sound.limit
  verified := sound.verified
  challenge := sound.challenge
  tokens := sound.tokens
  identity := sound.identity

theorem setAccount {account : Option (Account H)}
    (new : ∀ account', account = some account' → account'.Sound s.accepted s.serial username)
    (current : ∀ account' verified, account = some account' → verified ∈ s.verified → verified.username = username →
      account'.version = verified.version → Upgraded hasher verified.hashed account'.passwordHash) :
    Sound hasher (s.setAccount username account) where
  account other account' here := by
    by_cases same : other = username
    · subst same
      rw [accounts_setAccount_self] at here
      exact new account' here
    · rw [accounts_setAccount_of_ne same] at here
      exact sound.account other account' here
  ledger := sound.ledger
  session := sound.session
  distinct := sound.distinct
  limit := sound.limit
  verified verified here :=
    { sound.verified verified here with
      current := fun account' there version => by
        by_cases same : verified.username = username
        · rw [same, accounts_setAccount_self] at there
          exact current account' verified there here same version
        · rw [accounts_setAccount_of_ne same] at there
          exact (sound.verified verified here).current account' there version }
  challenge := sound.challenge
  tokens := sound.tokens
  identity := sound.identity

theorem filtered (kept : Session → Bool) : Sound hasher { s with sessions := s.sessions.filter kept } where
  account := sound.account
  ledger := sound.ledger
  session row here := sound.session row (List.mem_filter.mp here).1
  distinct := sound.distinct.sublist (List.filter_sublist.map Session.id)
  limit username := Nat.le_trans (List.filter_sublist.filter _).length_le (sound.limit username)
  verified := sound.verified
  challenge := sound.challenge
  tokens := sound.tokens
  identity := sound.identity

theorem seen (token : Nat) : Sound hasher { s with
      sessions := s.sessions.map fun row => if row.token = token then { row with lastSeen := now } else row } where
  account := sound.account
  ledger := sound.ledger
  session row here := by
    obtain ⟨old, there, rfl⟩ := List.mem_map.mp here
    have same := sound.session old there
    split <;> exact same
  distinct := by
    rw [map_map]
    have same : (Session.id ∘ fun row : Session =>
        if row.token = token then { row with lastSeen := now } else row) =
        Session.id := by
      funext row
      simp only [comp_apply]
      split <;> rfl
    rw [same]
    exact sound.distinct
  limit username := by
    rw [filter_map, length_map]
    have same : ((fun row : Session => row.username == username) ∘
        fun row : Session => if row.token = token then { row with lastSeen := now } else row) =
        fun row => row.username == username := by
      funext row
      simp only [comp_apply]
      split <;> rfl
    rw [same]
    exact sound.limit username
  verified := sound.verified
  challenge := sound.challenge
  tokens := sound.tokens
  identity := sound.identity

theorem fewer (kept : Challenge P H → Bool) : Sound hasher { s with challenges := s.challenges.filter kept } where
  account := sound.account
  ledger := sound.ledger
  session := sound.session
  distinct := sound.distinct
  limit := sound.limit
  verified := sound.verified
  challenge row here := sound.challenge row (List.mem_filter.mp here).1
  tokens := sound.tokens.sublist (List.filter_sublist.map Challenge.token)
  identity := sound.identity

end

theorem length_without_drop (rows : List Session) (n : Nat) :
    (rows.filter fun row => !((rows.drop n).map Session.id).contains row.id).length ≤ n := by
  have parts : rows.filter (fun row => !((rows.drop n).map Session.id).contains row.id) =
      (rows.take n).filter (fun row => !((rows.drop n).map Session.id).contains row.id) ++
        (rows.drop n).filter fun row => !((rows.drop n).map Session.id).contains row.id := by
    rw [← filter_append, take_append_drop]
  have none_ : (rows.drop n).filter (fun row => !((rows.drop n).map Session.id).contains row.id) = [] := by
    rw [filter_eq_nil_iff]
    intro row here
    simpa using List.mem_map.mpr ⟨row, here, rfl⟩
  rw [parts, none_, append_nil]
  exact Nat.le_trans (length_filter_le _ _) (length_take_le _ _)

section

variable (sound : Sound hasher s)
include sound

theorem appended {row : Session} (fresh : ∀ old ∈ s.sessions, old.id < row.id)
    (numbered : row.token = row.id + 1 ∧ row.token < s.serial)
    (room : (s.sessions.filter (·.username == row.username)).length ≤ 19) :
    Sound hasher { s with sessions := s.sessions ++ [row] } where
  account := sound.account
  ledger := sound.ledger
  session other here := by
    rcases List.mem_append.mp here with before | new
    · exact sound.session other before
    · rw [List.mem_singleton.mp new]
      exact numbered
  distinct := by
    rw [map_append, nodup_append]
    refine ⟨sound.distinct, nodup_singleton _, fun id before other new same => ?_⟩
    obtain ⟨old, there, rfl⟩ := List.mem_map.mp before
    rw [map_singleton, mem_singleton] at new
    have less := fresh old there
    omega
  limit username := by
    rw [filter_append, length_append]
    by_cases same : row.username = username
    · subst same
      rw [filter_cons_of_pos (by simp), filter_nil, length_singleton]
      omega
    · rw [filter_cons_of_neg (by simpa using same), filter_nil]
      exact sound.limit username
  verified := sound.verified
  challenge := sound.challenge
  tokens := sound.tokens
  identity := sound.identity

theorem newSession : Sound hasher (s.newSession settings now username) := by
  set live := s.sessions.filter fun row => decide (now < row.expires) with living
  set rows := (live.filter (·.username == username)).mergeSort AuthState.newer with sorted
  have base := (((sound.drawn 2).filtered fun row => decide (now < row.expires)).fewer
    fun row => decide (now < row.expires)).filtered fun row => !((rows.drop 19).map Session.id).contains row.id
  refine base.appended ?_ ?_ ?_
  · intro old here
    have before := (List.mem_filter.mp (List.mem_filter.mp here).1).1
    have numbered := sound.session old before
    show old.id < s.serial
    omega
  · exact ⟨rfl, Nat.lt_succ_self _⟩
  · -- the rows of the subscriber are those that were sorted
    have perm : List.Perm rows (live.filter (·.username == username)) := mergeSort_perm _ _
    rw [filter_comm, ← (perm.filter _).length_eq]
    exact length_without_drop rows 19

theorem current_same (here : s.accounts username = some account)
    (version : account'.version = account.version) (hashed : account'.passwordHash = account.passwordHash) :
    ∀ verified ∈ s.verified, verified.username = username → account'.version = verified.version →
      Upgraded hasher verified.hashed account'.passwordHash := by
  intro verified begun mine same
  rw [hashed]
  exact (sound.verified verified begun).current account (mine ▸ here) (version.symm.trans same)

theorem accept {proof : Proof} (owner : proof.owner = username)
    (ledger : Ledger (proof :: s.accepted) s.serial)
    (replaced : account'.Sound (proof :: s.accepted) s.serial username)
    (current : ∀ verified ∈ s.verified, verified.username = username → account'.version = verified.version →
      Upgraded hasher verified.hashed account'.passwordHash) :
    Sound hasher (s.accept username account' (some proof)) where
  account other account here := by
    by_cases same : other = username
    · subst same
      rw [accounts_accept_self] at here
      cases here
      exact replaced
    · rw [accounts_accept_of_ne same] at here
      exact (sound.account other account here).cons_other fun mine => same (mine.symm.trans owner)
  ledger := ledger
  session := sound.session
  distinct := sound.distinct
  limit := sound.limit
  verified verified here :=
    { sound.verified verified here with
      current := fun account there version => by
        by_cases same : verified.username = username
        · rw [same, accounts_accept_self] at there
          cases there
          exact current verified here same version
        · rw [accounts_accept_of_ne same] at there
          exact (sound.verified verified here).current account there version }
  challenge := sound.challenge
  tokens := sound.tokens
  identity := sound.identity

theorem factor {code : C} {proof : Option Proof} (here : s.accounts username = some account)
    (ok : AuthState.factor settings now username code account = .ok (some (account', proof))) :
    Sound hasher (s.accept username account' proof) := by
  rcases factor_ok ok with ⟨-, rfl, rfl⟩ | ⟨next, accepted, found, rfl, rfl⟩
  · refine sound.setAccount (fun _ same => ?_) fun _ verified same begun mine version => ?_
    · cases same
      exact sound.account username account' here
    · cases same
      exact sound.current_same here rfl rfl verified begun mine version
  · have before := sound.account username account here
    have ⟨ledger, fresh⟩ := before.factor.verify sound.ledger found
    exact sound.accept (verify_owner found) ledger
      ⟨before.version, fresh, fun secret same => (before.pending secret same).verify found⟩
        (sound.current_same here rfl rfl)

end

variable {request : Identity} {verified : Verified P H} {code : C}

theorem checkProof (sound : Sound hasher s)
    (ok : s.checkProof settings now request verified code = .ok (t, account')) :
    Sound hasher t ∧ t.accounts request.username = some account' := by
  obtain ⟨account, proof, known, -, accepted, rfl⟩ := checkProof_ok ok
  have here := (account_ok (identity_ok known).1).1
  exact ⟨sound.factor here accepted, accounts_accept_self account' proof⟩

theorem renew (sound : Sound hasher s) (keep : Option Nat)
    (factor : Fresh s.accepted s.serial username account.factor) :
    Sound hasher ((s.setAccount username (some account)).revoke username keep) := by
  have base : Sound hasher (({ s with serial := s.serial + 1 }).setAccount username (some { account with
      version := s.serial, pendingSecret := none, pendingSession := none, pendingExpires := 0 })) := by
    refine (sound.drawn 1).setAccount (fun _ same => ?_) fun account' verified same begun _ version => ?_
    · cases same
      exact ⟨Nat.lt_succ_self _, factor.later (Nat.le_succ _), nofun⟩
    · cases same
      have before := (sound.verified verified begun).version
      dsimp only at version
      omega
  have left := (base.filtered fun row => row.username != username ||
    keep == some row.id).fewer (·.username != username)
  have same : (s.setAccount username (some account)).revoke username keep =
      { ({ s with serial := s.serial + 1 }).setAccount username (some { account with
          version := s.serial, pendingSecret := none, pendingSession := none, pendingExpires := 0 }) with
        sessions := s.sessions.filter fun row => row.username != username || keep == some row.id
        challenges := s.challenges.filter (·.username != username) } := by
    simp [AuthState.revoke, AuthState.setAccount]
  rw [same]
  exact left

theorem revoke (sound : Sound hasher s) (keep : Option Nat) : Sound hasher (s.revoke username keep) := by
  cases here : s.accounts username with
  | some account =>
    have same : s.setAccount username (some account) = s := by
      rw [AuthState.setAccount, ← here, update_eq_self]
    rw [← same]
    exact sound.renew keep (sound.account username account here).factor
  | none =>
    have left := ((sound.drawn 1).filtered fun row => row.username != username || keep == some row.id).fewer
      (·.username != username)
    have same : Function.update s.accounts username ((s.accounts username).map fun account =>
        { account with version := s.serial, pendingSecret := none, pendingSession := none, pendingExpires := 0 }) =
        s.accounts := by
      rw [here, Option.map_none, ← here, update_eq_self]
    rw [AuthState.revoke, same]
    exact left

section

variable (sound : Sound hasher s)
include sound

theorem verify {password : P} (here : s.accounts username = some account)
    (accepted : hasher.verify password account.passwordHash = true) :
    Sound hasher { s with
      verified := ⟨username, password, account.passwordHash, account.version⟩ :: s.verified } := by
  refine { sound with
    verified := fun verified known => ?_
    challenge := fun row there => ?_ }
  · rcases List.mem_cons.mp known with rfl | before
    · refine ⟨accepted, (sound.account username account here).version, fun account' now _ => ?_⟩
      cases here.symm.trans now
      exact Relation.ReflTransGen.refl
    · exact sound.verified verified before
  · have ⟨token, known, same⟩ := sound.challenge row there
    exact ⟨token, mem_cons_of_mem _ known, same⟩

theorem rehash (here : s.accounts verified.username = some account) (begun : verified ∈ s.verified)
    (hashed : account.passwordHash = verified.hashed) :
    Sound hasher { s.setAccount verified.username (some { account with
      passwordHash := hasher.hash s.serial verified.password }) with serial := s.serial + 1 } := by
  refine (sound.setAccount (fun account' same => ?_) fun account' other same known mine version => ?_).drawn 1
  · cases same
    exact { sound.account verified.username account here with }
  · cases same
    have accepted := (sound.verified verified begun).accepted
    have earlier := sound.current_same here rfl rfl other known mine version
    exact earlier.tail ⟨_, verified.password, hashed ▸ accepted, rfl⟩

theorem openChallenge (begun : verified ∈ s.verified) :
    Sound hasher { s with
      challenges := (s.challenges.filter fun row => row.username != verified.username &&
        decide (now < row.expires)) ++
        [{ token := s.serial, username := verified.username, version := verified.version, expires := now + 300,
           verified }]
      serial := s.serial + 1 } := by
  have base := (sound.drawn 1).fewer fun row => row.username != verified.username && decide (now < row.expires)
  refine { base with challenge := fun row here => ?_, tokens := ?_ }
  · rcases List.mem_append.mp here with before | new
    · exact base.challenge row before
    · rw [List.mem_singleton.mp new]
      exact ⟨Nat.lt_succ_self _, begun, rfl, rfl⟩
  · show List.Nodup (List.map Challenge.token (_ ++ _))
    rw [map_append, nodup_append]
    refine ⟨base.tokens, nodup_singleton _, fun token before other new same => ?_⟩
    obtain ⟨old, there, rfl⟩ := List.mem_map.mp before
    rw [map_singleton, mem_singleton] at new
    have less := (sound.challenge old (List.mem_filter.mp there).1).1
    dsimp only at new
    omega

theorem attempt (token : Nat) :
    Sound hasher { s with
      challenges := s.challenges.map fun row =>
        if row.token = token then { row with attempts := row.attempts + 1 } else row } := by
  refine { sound with challenge := fun row here => ?_, tokens := ?_ }
  · obtain ⟨old, there, rfl⟩ := List.mem_map.mp here
    have same := sound.challenge old there
    split <;> exact same
  · show List.Nodup (List.map Challenge.token (List.map _ _))
    rw [map_map]
    have same : (Challenge.token ∘ fun row : Challenge P H =>
        if row.token = token then { row with attempts := row.attempts + 1 } else row) = Challenge.token := by
      funext row
      simp only [comp_apply]
      split <;> rfl
    rw [same]
    exact sound.tokens

theorem authenticate (token : Nat) {device : Session} (signed : s.account device.username = .ok account) :
    Sound hasher { s with
      sessions := s.sessions.map fun row => if row.token = token then { row with lastSeen := now } else row
      identities := ⟨device.username, device.id, account.version⟩ :: s.identities } := by
  refine { sound.seen token with identity := fun request here => ?_ }
  rcases List.mem_cons.mp here with rfl | before
  · exact (sound.account device.username account (account_ok signed).1).version
  · exact sound.identity request before

theorem register (user : ProductUser) (password : P) :
    Sound hasher { (s.setUser username (some user)).setAccount username
      (some { passwordHash := hasher.hash s.serial password, version := s.serial }) with serial :=
        s.serial + 1 } := by
  refine (((sound.setUser _).drawn 1).setAccount (fun account' same => ?_)
    fun account' verified same known _ version => ?_)
  · cases same
    exact ⟨Nat.lt_succ_self _, Fresh.cleared, nofun⟩
  · cases same
    have less := (sound.verified verified known).version
    dsimp only at version
    omega

theorem beginTotp (known : s.identity settings now request = .ok account)
    (without : account.factor.secret = none) {expires : Nat} {session : Option Nat} :
    Sound hasher { s.setAccount request.username (some { account with
        pendingSecret := some s.serial, pendingExpires := expires, pendingSession := session }) with
      serial := s.serial + 1 } := by
  have here := (account_ok (identity_ok known).1).1
  have before := sound.account request.username account here
  refine ((sound.drawn 1).setAccount (fun account' same => ?_) fun account' other same known mine version => ?_)
  · cases same
    refine ⟨Nat.lt_succ_of_lt before.version, before.factor.later (Nat.le_succ _), fun secret same => ?_⟩
    cases same
    refine ⟨Nat.lt_succ_self _, without ▸ nofun, fun step used => ?_⟩
    exact sound.ledger.notMem (Nat.le_refl _) used
  · cases same
    exact sound.current_same here rfl rfl other known mine version

theorem confirmTotp {secret : Nat} {step : Int} (known : s.identity settings now request = .ok account)
    (waiting : account.pendingSecret = some secret) (keep : Option Nat) :
    Sound hasher ((AuthState.accept request.username
      { account with factor := ⟨some secret, step, AuthState.recoveryCodes s.serial⟩ }
      (some (.step request.username secret step))
        { s with serial := s.serial + 10 }).revoke request.username keep) := by
  have here := (account_ok (identity_ok known).1).1
  have before := sound.account request.username account here
  have ⟨ledger, fresh⟩ := (before.pending secret waiting).enrolled sound.ledger step 10
  -- the revocation clears the pending secret, so it may be cleared first
  have same : ∀ proof keep, (AuthState.accept request.username
      { account with factor := ⟨some secret, step, AuthState.recoveryCodes s.serial⟩ } proof
        { s with serial := s.serial + 10 }).revoke request.username keep =
      (AuthState.accept request.username { account with
        factor := ⟨some secret, step, AuthState.recoveryCodes s.serial⟩
        pendingSecret := none } proof { s with serial := s.serial + 10 }).revoke request.username keep := by
    intro proof keep
    simp [AuthState.revoke, AuthState.accept]
  rw [same]
  have enrolled : Sound hasher (AuthState.accept request.username { account with
      factor := ⟨some secret, step, AuthState.recoveryCodes s.serial⟩
      pendingSecret := none } (some (.step request.username secret step)) { s with serial := s.serial + 10 }) :=
    (sound.drawn 10).accept rfl (ledger.later (Nat.le_add_right _ _))
      ⟨Nat.lt_of_lt_of_le before.version (Nat.le_add_right _ _), fresh, fun _ none_ => by cases none_⟩
      (sound.current_same here rfl rfl)
  exact enrolled.revoke _

end

end Sound

theorem Sound.apply [DecidableEq H] (sound : Sound hasher s) {event : AuthEvent P H C} (begun : event.Begun s) :
    Sound hasher (s.apply hasher settings now event).2 := by
  have effect := apply_effect hasher settings now s event
  generalize s.apply hasher settings now event = result at effect ⊢
  cases effect with
  | refused | unhashed | removing => exact sound
  | verify here accepted => exact sound.verify here accepted
  | rehash here hashed => exact sound.rehash here begun hashed
  | login => exact sound.newSession
  | challenge => exact sound.openChallenge begun
  | attempt => exact sound.attempt _
  | completeLogin found signed version accepted =>
    exact ((sound.factor (account_ok signed).1 accepted).fewer _).newSession
  | authenticate _ _ signed => exact sound.authenticate _ signed
  | logout => exact sound.filtered _
  | register => exact sound.register _ _
  | @setPassword username _ _ _ account hashed which =>
    refine sound.renew none ?_
    rcases which with cleared | ⟨old, here, same⟩
    · exact cleared ▸ Fresh.cleared
    · exact same ▸ (sound.account username old here).factor
  | changePassword proved =>
    obtain ⟨between, here⟩ := sound.checkProof proved
    exact between.renew none (between.account _ _ here).factor
  | prove proved => exact (sound.checkProof proved).1
  | revokeDevice known kept => exact sound.filtered kept
  | beginTotp known _ without => exact sound.beginTotp known without
  | confirmTotp known waiting => exact sound.confirmTotp known waiting _
  | updateTotp proved which =>
    obtain ⟨between, here⟩ := sound.checkProof proved
    refine (between.drawn 10).renew _ ?_
    rcases which with rfl | rfl
    · exact Fresh.cleared
    · exact (between.account _ _ here).factor.renewed between.ledger 10
  | activate => exact sound.setUser _
  | deactivate | remove => exact (sound.setUser _).revoke none
  | purge =>
    exact ((sound.revoke none).setAccount (fun _ same => by cases same) fun _ _ same => by cases same).setUser none

theorem Sound.reaches [DecidableEq H] (sound : Sound hasher s) (reach : Reaches hasher settings s t) :
    Sound hasher t := by
  induction reach with
  | refl => exact sound
  | step now _ begun ih => exact ih.apply begun

end OpenNode.Subscribers
