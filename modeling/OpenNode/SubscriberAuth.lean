import OpenNode.Lib.OneTimeCodes

namespace OpenNode.Subscribers

open OneTimeCodes

/-- A password hasher. A hash is made of a salt and a password. -/
structure PasswordHash (P H : Type) where
  verify : P → H → Bool
  hash : Nat → P → H
  outdated : H → Bool

/-- The second factor of a subscriber, and the limits of its sessions. -/
structure AuthSettings (C : Type) where
  scheme : Scheme C
  cipher : Bool
  sessionLifetime : Nat
  sessionIdle : Nat

structure ProductUser where
  active : Bool
  removing : Bool := false
deriving DecidableEq, Repr

/-- `SubscriberAccount`. Versions, secrets and stored recovery codes are drawn
from one supply of numbers, and so is every token. -/
structure Account (H : Type) where
  passwordHash : H
  version : Nat
  factor : Factor := {}
  pendingSecret : Option Nat := none
  pendingExpires : Nat := 0
  pendingSession : Option Nat := none
deriving DecidableEq, Repr

/-- `SubscriberSession`. -/
structure Session where
  id : Nat
  token : Nat
  username : String
  created : Nat
  lastSeen : Nat
  expires : Nat
deriving DecidableEq, Repr

/-- A password that was verified outside the lock, with the hash and the version
that were read for it. -/
structure Verified (P H : Type) where
  username : String
  password : P
  hashed : H
  version : Nat
deriving DecidableEq, Repr

/-- `SubscriberChallenge`, with what its login had verified. -/
structure Challenge (P H : Type) where
  token : Nat
  username : String
  version : Nat
  expires : Nat
  attempts : Nat := 0
  verified : Verified P H
deriving DecidableEq, Repr

/-- `SubscriberIdentity`. -/
structure Identity where
  username : String
  session : Nat
  version : Nat
deriving DecidableEq, Repr

/-- The tables, the password checks and the requests that have begun, and the codes
that were accepted so far. -/
structure AuthState (P H : Type) where
  users : String → Option ProductUser
  accounts : String → Option (Account H)
  sessions : List Session := []
  challenges : List (Challenge P H) := []
  serial : Nat
  verified : List (Verified P H) := []
  identities : List Identity := []
  accepted : List Proof := []

def signInRequired : String := "Subscriber sign-in required"
def invalidCredentials : String := "Invalid credentials"
def invalidChallenge : String := "Invalid or expired verification challenge"

variable {P H C : Type}

namespace AuthState

def setAccount (username : String) (account : Option (Account H)) (s : AuthState P H) : AuthState P H :=
  { s with accounts := Function.update s.accounts username account }

def setUser (username : String) (user : Option ProductUser) (s : AuthState P H) : AuthState P H :=
  { s with users := Function.update s.users username user }

def account (s : AuthState P H) (username : String) : Except String (Account H) :=
  match s.users username, s.accounts username with
  | some user, some account => if user.active && !user.removing then .ok account else .error signInRequired
  | _, _ => .error signInRequired

def identity (settings : AuthSettings C) (now : Nat) (s : AuthState P H) (identity : Identity) :
    Except String (Account H) :=
  match s.account identity.username with
  | .error error => .error error
  | .ok account =>
    match s.sessions.find? (·.id == identity.session) with
    | none => .error signInRequired
    | some device =>
      if device.username ≠ identity.username ∨ account.version ≠ identity.version ∨ device.expires ≤ now ∨
          device.lastSeen + settings.sessionIdle ≤ now then .error signInRequired
      else .ok account

/-- `revoke_subscriber_sessions`. -/
def revoke (username : String) (keep : Option Nat) (s : AuthState P H) : AuthState P H :=
  { s with
    sessions := s.sessions.filter fun row => row.username != username || keep == some row.id
    challenges := s.challenges.filter (·.username != username)
    serial := s.serial + 1
    accounts := Function.update s.accounts username ((s.accounts username).map fun account =>
      { account with version := s.serial, pendingSecret := none, pendingSession := none, pendingExpires := 0 }) }

/-- The order in which the sessions of a subscriber are kept: the latest first. -/
def newer (a b : Session) : Bool :=
  decide (b.created < a.created) || (a.created == b.created && decide (a.id ≤ b.id))

def newSession (settings : AuthSettings C) (now : Nat) (username : String) (s : AuthState P H) : AuthState P H :=
  let live := s.sessions.filter fun row => decide (now < row.expires)
  let rows := (live.filter (·.username == username)).mergeSort newer
  let excess := (rows.drop 19).map Session.id
  { s with
    sessions := live.filter (fun row => !excess.contains row.id) ++
      [{ id := s.serial, token := s.serial + 1, username, created := now, lastSeen := now,
         expires := now + settings.sessionLifetime }]
    challenges := s.challenges.filter fun row => decide (now < row.expires)
    serial := s.serial + 2 }

/-- What `_factor` does to an account, with what it accepted. Without a secret
nothing is asked for. -/
def factor (settings : AuthSettings C) (now : Nat) (username : String) (code : C) (account : Account H) :
    Except String (Option (Account H × Option Proof)) :=
  match account.factor.secret with
  | none => .ok (some (account, none))
  | some _ =>
    if (settings.scheme.recovery username code).isNone && !settings.cipher then
      .error "Two-factor authentication is unavailable; contact the administrator"
    else
      match OneTimeCodes.verify settings.scheme now username code account.factor with
      | none => .ok none
      | some (factor, proof) => .ok (some ({ account with factor := factor }, some proof))

/-- An account with an accepted code. -/
def accept (username : String) (account : Account H) (proof : Option Proof) (s : AuthState P H) : AuthState P H :=
  { s with
    accounts := Function.update s.accounts username (some account)
    accepted := proof.toList ++ s.accepted }

def checkProof (settings : AuthSettings C) (now : Nat) (identity : Identity) (verified : Verified P H) (code : C)
    (s : AuthState P H) : Except String (AuthState P H × Account H) :=
  match s.identity settings now identity with
  | .error error => .error error
  | .ok account =>
    if verified.version ≠ account.version then .error "Invalid credentials or verification code"
    else
      match factor settings now identity.username code account with
      | .error error => .error error
      | .ok none => .error "Invalid credentials or verification code"
      | .ok (some (account, proof)) => .ok (s.accept identity.username account proof, account)

/-- The ten recovery codes of `_recovery_codes`. -/
def recoveryCodes (serial : Nat) : List Nat :=
  codesFrom serial 10

end AuthState

open AuthState

/-- The operations of the store, and those of the administrator on a subscriber. -/
inductive AuthEvent (P H C : Type) where
  /-- The part of `_verified_version` that reads an account and checks a password. -/
  | verify (username : String) (password : P)
  /-- The part of `_verified_version` that replaces an outdated hash. -/
  | rehash (verified : Verified P H)
  | login (verified : Verified P H)
  | completeLogin (token : Nat) (code : C)
  | authenticate (token : Nat)
  | logout (token : Nat)
  | register (username : String) (password : P)
  | setPassword (username : String) (expectedRevision : Option Nat) (password : P) (resetTotp : Bool)
  | changePassword (identity : Identity) (verified : Verified P H) (code : C) (password : P)
  | prove (identity : Identity) (verified : Verified P H) (code : C)
  | revokeDevice (identity : Identity) (device : Option Nat)
  | beginTotp (identity : Identity) (verified : Verified P H)
  | confirmTotp (identity : Identity) (code : C)
  | updateTotp (identity : Identity) (verified : Verified P H) (code : C) (disable : Bool)
  | setActive (username : String) (active : Bool)
  | remove (username : String)
  | purge (username : String)

variable (hasher : PasswordHash P H) (settings : AuthSettings C) (now : Nat)

namespace AuthState

/-- `_verified_version`, up to the check of the password. -/
def verify (username : String) (password : P) (s : AuthState P H) : Except String (AuthState P H) :=
  match s.accounts username with
  | none => .error invalidCredentials
  | some account =>
    if hasher.verify password account.passwordHash then
      .ok { s with verified := ⟨username, password, account.passwordHash, account.version⟩ :: s.verified }
    else .error invalidCredentials

/-- The conditional update of `_verified_version`. -/
def rehash [DecidableEq H] (verified : Verified P H) (s : AuthState P H) : Except String (AuthState P H) :=
  match s.accounts verified.username with
  | none => .ok s
  | some account =>
    if hasher.outdated verified.hashed ∧ account.passwordHash = verified.hashed ∧
      account.version = verified.version then
      .ok { s.setAccount verified.username
          (some { account with passwordHash := hasher.hash s.serial verified.password }) with serial :=
            s.serial + 1 }
    else .ok s

/-- `login`, after the password check. -/
def login (verified : Verified P H) (s : AuthState P H) : Except String (AuthState P H) :=
  match s.account verified.username with
  | .error error => .error error
  | .ok account =>
    if account.version ≠ verified.version then .error invalidCredentials
    else if account.factor.secret.isSome then
      .ok { s with
        challenges := (s.challenges.filter fun row => row.username != verified.username &&
          decide (now < row.expires)) ++
          [{ token := s.serial, username := verified.username, version := verified.version, expires := now + 300,
             verified }]
        serial := s.serial + 1 }
    else
      .ok (s.newSession settings now verified.username)

/-- `complete_login`. An attempt is counted even when its code is not accepted. -/
def completeLogin (token : Nat) (code : C) (s : AuthState P H) : Except String Unit × AuthState P H :=
  match s.challenges.find? (·.token == token) with
  | none => (.error invalidChallenge, s)
  | some row =>
    match s.account row.username with
    | .error error => (.error error, s)
    | .ok account =>
      if row.expires ≤ now ∨ row.version ≠ account.version ∨ 5 ≤ row.attempts then (.error invalidChallenge, s)
      else
        match factor settings now row.username code account with
        | .error error => (.error error, s)
        | .ok none =>
          (.error "Invalid verification code",
            { s with challenges := s.challenges.map fun other =>
                if other.token = token then { other with attempts := other.attempts + 1 } else other })
        | .ok (some (account', proof)) =>
          let s := s.accept row.username account' proof
          let s := { s with challenges := s.challenges.filter (·.token != token) }
          (.ok (), s.newSession settings now row.username)

def authenticate (token : Nat) (s : AuthState P H) : Except String (AuthState P H) :=
  match s.sessions.find? (·.token == token) with
  | none => .error signInRequired
  | some device =>
    match s.account device.username with
    | .error error => .error error
    | .ok account =>
      if device.expires ≤ now ∨ device.lastSeen + settings.sessionIdle ≤ now then .error signInRequired
      else
        .ok { s with
          sessions := s.sessions.map fun row => if row.token = token then { row with lastSeen := now } else row
          identities := ⟨device.username, device.id, account.version⟩ :: s.identities }

def logout (token : Nat) (s : AuthState P H) : Except String (AuthState P H) :=
  .ok { s with sessions := s.sessions.filter (·.token != token) }

/-- A registration makes the user and its account. -/
def register (username : String) (password : P) (s : AuthState P H) : Except String (AuthState P H) :=
  if (s.users username).isSome ∨ (s.accounts username).isSome then .error "User already exists"
  else
    .ok { (s.setUser username (some ⟨true, false⟩)).setAccount username
        (some { passwordHash := hasher.hash s.serial password, version := s.serial }) with serial := s.serial + 1 }

/-- `set_password`. The expected revision is the version of the account. -/
def setPassword (username : String) (expectedRevision : Option Nat) (password : P) (resetTotp : Bool)
    (s : AuthState P H) : Except String (AuthState P H) :=
  match s.users username with
  | none => .error "User not found"
  | some user =>
    if user.removing then .error "User removal is in progress"
    else if (s.accounts username).map Account.version ≠ expectedRevision then
      .error "Login settings changed; reload before saving"
    else
      let account := (s.accounts username).getD
        { passwordHash := hasher.hash s.serial password, version := s.serial }
      let account := { account with passwordHash := hasher.hash s.serial password }
      let account := if resetTotp then { account with factor := {} } else account
      .ok ((s.setAccount username (some account)).revoke username none)

/-- `change_password`, after the password check. -/
def changePassword (identity : Identity) (verified : Verified P H) (code : C) (password : P)
    (s : AuthState P H) : Except String (AuthState P H) :=
  match s.checkProof settings now identity verified code with
  | .error error => .error error
  | .ok (s, account) =>
    .ok ((s.setAccount identity.username
      (some { account with passwordHash := hasher.hash s.serial password })).revoke
      identity.username none)

/-- `subscription_token` and `set_short_code`, after the password check. -/
def prove (identity : Identity) (verified : Verified P H) (code : C) (s : AuthState P H) :
    Except String (AuthState P H) :=
  match s.checkProof settings now identity verified code with
  | .error error => .error error
  | .ok (s, _) => .ok s

def revokeDevice (identity : Identity) (device : Option Nat) (s : AuthState P H) : Except String (AuthState P H) :=
  match s.identity settings now identity with
  | .error error => .error error
  | .ok _ =>
    .ok { s with sessions := s.sessions.filter fun row => row.username != identity.username ||
      match device with
      | some id => row.id != id
      | none => row.id == identity.session }

/-- `begin_totp`, after the password check. -/
def beginTotp (identity : Identity) (verified : Verified P H) (s : AuthState P H) : Except String (AuthState P H) :=
  match s.identity settings now identity with
  | .error error => .error error
  | .ok account =>
    if account.version ≠ verified.version then .error invalidCredentials
    else if account.factor.secret.isSome then .error "Two-factor authentication is already enabled"
    else if !settings.cipher then .error "Two-factor enrollment is unavailable; contact the administrator"
    else
      .ok { s.setAccount identity.username (some { account with
          pendingSecret := some s.serial, pendingExpires := now + 600, pendingSession :=
            some identity.session }) with
        serial := s.serial + 1 }

def confirmTotp (identity : Identity) (code : C) (s : AuthState P H) : Except String (AuthState P H) :=
  match s.identity settings now identity with
  | .error error => .error error
  | .ok account =>
    match account.pendingSecret with
    | none => .error "Two-factor enrollment expired; start again"
    | some secret =>
      if account.factor.secret.isSome ∨ account.pendingExpires ≤ now ∨
        account.pendingSession ≠ some identity.session then
        .error "Two-factor enrollment expired; start again"
      else if !settings.cipher then .error "Two-factor authentication is unavailable; contact the administrator"
      else
        match findStep settings.scheme now secret code (-1) with
        | none => .error "Invalid verification code"
        | some step =>
          let account := { account with factor := ⟨some secret, step, recoveryCodes s.serial⟩ }
          .ok (({ s with serial := s.serial + 10 }.accept identity.username account
            (some (.step identity.username secret step))).revoke identity.username (some identity.session))

/-- `update_totp`, after the password check. -/
def updateTotp (identity : Identity) (verified : Verified P H) (code : C) (disable : Bool) (s : AuthState P H) :
    Except String (AuthState P H) :=
  match s.checkProof settings now identity verified code with
  | .error error => .error error
  | .ok (s, account) =>
    if account.factor.secret.isNone then .error "Two-factor authentication is not enabled"
    else
      let account := if disable then { account with factor := {} }
        else { account with factor := { account.factor with recovery := recoveryCodes s.serial } }
      .ok (({ s with serial := s.serial + 10 }.setAccount identity.username (some account)).revoke identity.username
        (some identity.session))

/-- The part of an update of a user, or of `set_active`, that concerns its login. -/
def setActive (username : String) (active : Bool) (s : AuthState P H) : Except String (AuthState P H) :=
  match s.users username with
  | none => .error "User not found"
  | some user =>
    if user.removing then .error "User removal is in progress"
    else
      let s := s.setUser username (some { user with active := active })
      .ok (if active then s else s.revoke username none)

/-- The start of a removal. -/
def remove (username : String) (s : AuthState P H) : Except String (AuthState P H) :=
  match s.users username with
  | none => .error "User not found"
  | some user =>
    if user.removing then .ok s else .ok ((s.setUser username (some ⟨false, true⟩)).revoke username none)

/-- The end of a removal. -/
def purge (username : String) (s : AuthState P H) : Except String (AuthState P H) :=
  match s.users username with
  | none => .error "User not found"
  | some user =>
    if user.removing then .ok (((s.revoke username none).setAccount username none).setUser username none)
    else .error "Removal is not pending"

/-- A failed operation changes nothing. -/
def keeping (s : AuthState P H) : Except String (AuthState P H) → Except String Unit × AuthState P H
  | .ok t => (.ok (), t)
  | .error error => (.error error, s)

/-- An operation. -/
def apply [DecidableEq H] (s : AuthState P H) : AuthEvent P H C → Except String Unit × AuthState P H
  | .verify username password => s.keeping (s.verify hasher username password)
  | .rehash verified => s.keeping (s.rehash hasher verified)
  | .login verified => s.keeping (s.login settings now verified)
  | .completeLogin token code => s.completeLogin settings now token code
  | .authenticate token => s.keeping (s.authenticate settings now token)
  | .logout token => s.keeping (s.logout token)
  | .register username password => s.keeping (s.register hasher username password)
  | .setPassword username revision password reset =>
    s.keeping (s.setPassword hasher username revision password reset)
  | .changePassword identity verified code password =>
    s.keeping (s.changePassword hasher settings now identity verified code password)
  | .prove identity verified code => s.keeping (s.prove settings now identity verified code)
  | .revokeDevice identity device => s.keeping (s.revokeDevice settings now identity device)
  | .beginTotp identity verified => s.keeping (s.beginTotp settings now identity verified)
  | .confirmTotp identity code => s.keeping (s.confirmTotp settings now identity code)
  | .updateTotp identity verified code disable =>
    s.keeping (s.updateTotp settings now identity verified code disable)
  | .setActive username active => s.keeping (s.setActive username active)
  | .remove username => s.keeping (s.remove username)
  | .purge username => s.keeping (s.purge username)

end AuthState

end OpenNode.Subscribers
