import OpenNode.SubscriberAuth

namespace OpenNode.Administration

open OneTimeCodes
open Subscribers (PasswordHash AuthSettings)

structure Administrator (H : Type) where
  username : String
  passwordHash : H
deriving DecidableEq, Repr

structure AdministratorFactor where
  factor : Factor := {}
  pendingSecret : Option Nat := none
  pendingExpires : Nat := 0
  pendingSession : Option Nat := none
deriving DecidableEq, Repr

/-- A factor without an enrolment under way. -/
def AdministratorFactor.withoutPending (row : AdministratorFactor) : AdministratorFactor :=
  { row with pendingSecret := none, pendingExpires := 0, pendingSession := none }

structure OperatorSession where
  token : Nat
  expires : Nat
  lastSeen : Nat
deriving DecidableEq, Repr

inductive ChallengeKind where
  | verify
  | enroll
deriving DecidableEq, Repr

/-- `OperatorChallenge`, with the password that its login has verified. -/
structure OperatorChallenge (P H : Type) where
  token : Nat
  credentialHash : H
  kind : ChallengeKind
  expires : Nat
  attempts : Nat := 0
  pendingSecret : Option Nat := none
  password : P
deriving DecidableEq, Repr

/-- The `LoginWindow` of the second factor, with a number of its own. -/
structure LoginWindow where
  id : Nat
  attempts : Nat
  expires : Nat
deriving DecidableEq, Repr

/-- The transaction that holds the lock of the administrator's row, and what it has read and deleted. -/
inductive Holder (P H : Type) where
  | login (password : P) (hashed : H)
  | loginFactor (password : P) (hashed : H) (secret : Option Nat)
  | loginPolicy (password : P) (hashed : H) (secret : Option Nat) (required : Bool)
  | change (hashed : H)
  | changeSessions (hashed : H) (sessions : List Nat)
  | changeChallenges (hashed : H) (sessions challenges : List Nat)
  | changeFactor (hashed : H) (sessions challenges : List Nat) (clears : Bool)
deriving DecidableEq, Repr

/-- The committed tables, the transactions under way, and the codes that were tried and accepted. -/
structure AuthDb (P H : Type) where
  administrator : Option (Administrator H)
  factor : Option AdministratorFactor := none
  requireTotp : Bool := false
  sessions : List OperatorSession := []
  challenges : List (OperatorChallenge P H) := []
  window : Option LoginWindow := none
  epoch : Nat := 0
  serial : Nat
  reads : List (P × H) := []
  holder : Option (Holder P H) := none
  accepted : List Proof := []
  tried : List (Nat × Nat) := []
deriving DecidableEq, Repr

def invalidChallenge : String := "Invalid or expired verification challenge"
def invalidCredentials : String := "Invalid administrator credentials"
def factorUnavailable : String := "Administrator two-factor authentication is unavailable"
def enrollmentExpired : String := "Two-factor enrollment expired; start again"
def invalidProof : String := "Invalid administrator credentials or verification code"

variable {P H C : Type}

/-- The rows that a transaction has locked besides that of the administrator. -/
def Holder.lockedSessions : Holder P H → List Nat
  | .changeSessions _ sessions | .changeChallenges _ sessions _ | .changeFactor _ sessions _ _ => sessions
  | _ => []

def Holder.lockedChallenges : Holder P H → List Nat
  | .changeChallenges _ _ challenges | .changeFactor _ _ challenges _ => challenges
  | _ => []

def Holder.locksFactor : Holder P H → Bool
  | .changeFactor _ _ _ clears => clears
  | _ => false

namespace AuthDb

def secret (s : AuthDb P H) : Option Nat :=
  s.factor.bind fun row => row.factor.secret

/-- An operation waits for the rows that it changes. -/
def Admits (s t : AuthDb P H) : Prop :=
  ∀ holder ∈ s.holder, t.administrator = s.administrator ∧
    (∀ token ∈ holder.lockedSessions, t.sessions.find? (·.token == token) = s.sessions.find? (·.token == token)) ∧
    (∀ token ∈ holder.lockedChallenges, t.challenges.find? (·.token == token) =
      s.challenges.find? (·.token == token)) ∧
    (holder.locksFactor = true → t.factor = s.factor)

variable (hasher : PasswordHash P H) (settings : AuthSettings C) (now : Nat)

def verifyFactor (username : String) (code : C) (row : AdministratorFactor) :
    Except String (Option (AdministratorFactor × Proof)) :=
  match row.factor.secret with
  | none => .ok none
  | some _ =>
    if (settings.scheme.recovery username code).isNone && !settings.cipher then .error factorUnavailable
    else
      match OneTimeCodes.verify settings.scheme now username code row.factor with
      | none => .ok none
      | some (factor, proof) => .ok (some ({ row with factor := factor }, proof))

def newRecoveryCodes (serial : Nat) : List Nat :=
  codesFrom serial 10

/-- A pending secret becomes the secret when its code is right. -/
def enroll (username : String) (secret : Nat) (code : C) (serial : Nat) (row : AdministratorFactor) :
    Except String (Option (AdministratorFactor × Proof)) :=
  if !settings.cipher then .error factorUnavailable
  else
    match findStep settings.scheme now secret code (-1) with
    | none => .ok none
    | some step =>
      .ok (some ({ row with factor := ⟨some secret, step, newRecoveryCodes serial⟩ }, .step username secret step))

/-- The check of a code against a challenge. -/
def checkCode (username : String) (challenge : OperatorChallenge P H) (code : C) (s : AuthDb P H) :
    Except String (Option (AdministratorFactor × Proof)) :=
  match challenge.kind, s.factor with
  | .verify, none => .ok none
  | .verify, some row => verifyFactor settings now username code row
  | .enroll, row =>
    let row := row.getD {}
    match challenge.pendingSecret with
    | none => .ok none
    | some secret => if row.factor.secret.isSome then .ok none
        else enroll settings now username secret code s.serial row

def consumeFactorAttempt (s : AuthDb P H) : Except String (AuthDb P H × LoginWindow) :=
  let fresh : LoginWindow := ⟨s.serial, 1, now + 60⟩
  match s.window with
  | none => .ok ({ s with window := some fresh, serial := s.serial + 1 }, fresh)
  | some window =>
    if window.expires ≤ now then .ok ({ s with window := some fresh, serial := s.serial + 1 }, fresh)
    else if 10 ≤ window.attempts then .error "Too many verification attempts; try again shortly"
    else
      let window := { window with attempts := window.attempts + 1 }
      .ok ({ s with window := some window }, window)

/-- A challenge that may be answered. -/
def live (challenge : OperatorChallenge P H) [DecidableEq H] (s : AuthDb P H) : Option (Administrator H) :=
  match s.administrator with
  | none => none
  | some administrator =>
    if challenge.credentialHash = administrator.passwordHash ∧ now < challenge.expires ∧ challenge.attempts < 5 then
      some administrator
    else none

def newSession (s : AuthDb P H) : AuthDb P H :=
  { s with
    sessions := s.sessions.filter (fun row => decide (now < row.expires)) ++
      [⟨s.serial, now + settings.sessionLifetime, now⟩]
    serial := s.serial + 1 }

/-- `_new_challenge`. Every challenge is one of the administrator, so the others are deleted. -/
def newChallenge (kind : ChallengeKind) (pendingSecret : Option Nat) (password : P) (hashed : H) (s : AuthDb P H) :
    AuthDb P H :=
  { s with
    challenges :=
      [{ token := s.serial, credentialHash := hashed, kind, expires := now + 300, pendingSecret, password }]
    serial := s.serial + 1 }

/-- A code that was tried, in the window and against the challenge that counted it. -/
def count (window : LoginWindow) (challenge : OperatorChallenge P H) (s : AuthDb P H) : AuthDb P H :=
  { s with
    tried := (window.id, challenge.token) :: s.tried
    challenges := s.challenges.map fun row =>
      if row.token = challenge.token then { row with attempts := row.attempts + 1 } else row }

/-- `_advance_backup_epoch`. -/
def advanceEpoch (s : AuthDb P H) : AuthDb P H :=
  { s with epoch := s.serial, serial := s.serial + 1 }

/-- The sessions and challenges that a change by a session leaves. -/
def keepOnly (session : Nat) (s : AuthDb P H) : AuthDb P H :=
  { s with sessions := s.sessions.filter (·.token == session), challenges := [] }

/-- What an accepted code does: an enrolment ends the other sessions, and every challenge is deleted. -/
def complete (challenge : OperatorChallenge P H) (window : LoginWindow) (factor : AdministratorFactor)
    (proof : Proof)
    (s : AuthDb P H) : AuthDb P H :=
  let t := { s.count window challenge with
    factor := some factor, accepted := proof :: s.accepted, serial := s.serial + 10 }
  let t := match challenge.kind with
    | .verify => t
    | .enroll => { t with sessions := [] }.advanceEpoch
  { t with challenges := [] }.newSession settings now

def completeLogin [DecidableEq H] (token : Nat) (code : C) (s : AuthDb P H) : Except String Unit × AuthDb P H :=
  match s.challenges.find? (·.token == token) with
  | none => (.error invalidChallenge, s)
  | some challenge =>
    match s.live now challenge with
    | none => (.error invalidChallenge, { s with challenges := s.challenges.filter (·.token != token) })
    | some administrator =>
      match s.consumeFactorAttempt now with
      | .error error => (.error error, s)
      | .ok (t, window) =>
        match checkCode settings now administrator.username challenge code t with
        | .error error => (.error error, s)
        | .ok none =>
          (.error "Invalid verification code",
            { t.count window challenge with
              factor := match challenge.kind with
                | .verify => t.factor
                | .enroll => some (t.factor.getD {}) })
        | .ok (some (factor, proof)) => (.ok (), t.complete settings now challenge window factor proof)

/-- Whether `complete_login` accepts a code. -/
def accepts [DecidableEq H] (token : Nat) (code : C) (s : AuthDb P H) : Bool :=
  match s.challenges.find? (·.token == token) with
  | none => false
  | some challenge =>
    match s.live now challenge, s.consumeFactorAttempt now with
    | some administrator, .ok (t, _) =>
      match checkCode settings now administrator.username challenge code t with
      | .ok (some _) => true
      | _ => false
    | _, _ => false

def authenticate (token : Nat) (s : AuthDb P H) : Except String Unit × AuthDb P H :=
  match s.sessions.find? (·.token == token) with
  | none => (.error "Authentication required", s)
  | some row =>
    if row.expires ≤ now ∨ row.lastSeen + settings.sessionIdle ≤ now then (.error "Authentication required", s)
    else if s.administrator.isNone ∨ s.requireTotp = true ∧ s.secret = none then
      (.error "Authentication required", { s with sessions := s.sessions.filter (·.token != token) })
    else
      (.ok (), { s with
        sessions := s.sessions.map fun row => if row.token = token then { row with lastSeen := now } else row })

/-- The administrator behind a live session and a password. -/
def signedIn (session : Nat) (password : P) (s : AuthDb P H) : Option (Administrator H) :=
  match s.administrator, s.sessions.find? (·.token == session) with
  | some administrator, some row =>
    if row.expires ≤ now ∨ hasher.verify password administrator.passwordHash = false then none
      else some administrator
  | _, _ => none

def beginTotp (session : Nat) (password : P) (s : AuthDb P H) : Except String (AuthDb P H) :=
  match s.signedIn hasher now session password with
  | none => .error invalidCredentials
  | some _ =>
    let row := s.factor.getD {}
    if row.factor.secret.isSome then .error "Administrator two-factor authentication is already enabled"
    else if !settings.cipher then .error factorUnavailable
    else
      .ok { s with
        factor := some { row with
          pendingSecret := some s.serial, pendingExpires := now + 600, pendingSession := some session }
        serial := s.serial + 1 }.advanceEpoch

def confirmTotp (session : Nat) (code : C) (s : AuthDb P H) : Except String (AuthDb P H) :=
  match s.administrator, s.sessions.find? (·.token == session), s.factor with
  | some administrator, some device, some row =>
    match row.pendingSecret with
    | none => .error enrollmentExpired
    | some secret =>
      if device.expires ≤ now ∨ row.factor.secret.isSome ∨ row.pendingExpires ≤ now ∨
        row.pendingSession ≠ some session then
        .error enrollmentExpired
      else
        match enroll settings now administrator.username secret code s.serial
          row.withoutPending with
        | .error error => .error error
        | .ok none => .error "Invalid verification code"
        | .ok (some (row, proof)) =>
          .ok ({ s with
            factor := some row, accepted := proof :: s.accepted, serial :=
              s.serial + 10 }.keepOnly session).advanceEpoch
  | _, _, _ => .error enrollmentExpired

def securityProof (session : Nat) (password : P) (code : C) (s : AuthDb P H) :
    Except String (AuthDb P H × AdministratorFactor) :=
  match s.signedIn hasher now session password, s.factor with
  | some administrator, some row =>
    match verifyFactor settings now administrator.username code row with
    | .error error => .error error
    | .ok none => .error invalidProof
    | .ok (some (row, proof)) => .ok ({ s with factor := some row, accepted := proof :: s.accepted }, row)
  | _, _ => .error invalidProof

def updateTotp (session : Nat) (password : P) (code : C) (disable : Bool) (s : AuthDb P H) :
    Except String (AuthDb P H) :=
  match s.securityProof hasher settings now session password code with
  | .error error => .error error
  | .ok (t, row) =>
    if disable && t.requireTotp then .error "Disable the mandatory administrator 2FA policy first"
    else
      let row : AdministratorFactor :=
        if disable then {} else { row with factor := { row.factor with recovery := newRecoveryCodes t.serial } }
      .ok ({ t with factor := some row, serial := t.serial + 10 }.keepOnly session).advanceEpoch

def updatePolicy (session : Nat) (password : P) (code : C) (required : Bool) (s : AuthDb P H) :
    Except String (AuthDb P H) :=
  match s.signedIn hasher now session password with
  | none => .error invalidCredentials
  | some administrator =>
    match s.factor with
    | none =>
      if required then .error "Enable administrator two-factor authentication before requiring it"
      else .ok ({ s with requireTotp := required }.keepOnly session).advanceEpoch
    | some row =>
      if row.factor.secret.isNone then
        if required then .error "Enable administrator two-factor authentication before requiring it"
        else .ok ({ s with requireTotp := required }.keepOnly session).advanceEpoch
      else
        match verifyFactor settings now administrator.username code row with
        | .error error => .error error
        | .ok none => .error invalidProof
        | .ok (some (row, proof)) =>
          .ok ({ s with
            factor := some row, accepted := proof :: s.accepted, requireTotp :=
              required }.keepOnly session).advanceEpoch

def setAdministrator (username : String) (password : P) (reset : Bool) (s : AuthDb P H) :
    Except String (AuthDb P H) :=
  let administrator : Administrator H := ⟨username, hasher.hash s.serial password⟩
  match s.administrator with
  | none => .ok { s with administrator := some administrator, serial := s.serial + 1 }.advanceEpoch
  | some _ =>
    if reset then
      .ok { s with
        administrator := some administrator, sessions := [], challenges := [], factor := none, window := none
        requireTotp := false, serial := s.serial + 1 }.advanceEpoch
    else .error "Administrator already exists; use reset-password"

/-- The part of `allow_login_attempt` that concerns the window of the second factor. -/
def sweepWindow (s : AuthDb P H) : AuthDb P H :=
  { s with window := s.window.filter fun window => decide (now < window.expires) }

/-- The first statement of `login` and of `change_password`, with the check of the password. A login compares the
name too. -/
def read (username : Option String) (password : P) (s : AuthDb P H) : Except String (AuthDb P H) :=
  match s.administrator with
  | none => .error invalidCredentials
  | some administrator =>
    if username.all (· == administrator.username) ∧ hasher.verify password administrator.passwordHash = true then
      .ok { s with reads := (password, administrator.passwordHash) :: s.reads }
    else .error invalidCredentials

/-- The update of the administrator's row waits for the lock, and looks for the hash that was read. -/
def lock [DecidableEq H] (hashed : H) (holder : Holder P H) (s : AuthDb P H) : Except String (AuthDb P H) :=
  if s.holder.isSome then .error "The administrator is locked"
  else if s.administrator.map Administrator.passwordHash = some hashed then .ok { s with holder := some holder }
  else .error invalidCredentials

/-- The end of `login`. -/
def loginCommit (s : AuthDb P H) : Except String (AuthDb P H) :=
  match s.holder with
  | some (.loginPolicy password hashed secret required) =>
    let s := { s with holder := none }
    if secret.isSome then .ok (s.newChallenge now .verify none password hashed)
    else if required then
      if !settings.cipher then .ok s
      else .ok ({ s with serial := s.serial + 1 }.newChallenge now .enroll (some s.serial) password hashed)
    else .ok (s.newSession settings now)
  | _ => .error "No login to commit"

/-- The end of `change_password`. -/
def changeCommit (s : AuthDb P H) : Except String (AuthDb P H) :=
  match s.holder with
  | some (.changeFactor hashed sessions challenges clears) =>
    .ok { s with
      administrator := s.administrator.map fun row : Administrator H => { row with passwordHash := hashed }
      sessions := s.sessions.filter fun row : OperatorSession => !sessions.contains row.token
      challenges := s.challenges.filter fun row : OperatorChallenge P H => !challenges.contains row.token
      factor := if clears then s.factor.map AdministratorFactor.withoutPending else s.factor
      holder := none }.advanceEpoch
  | _ => .error "No change to commit"

/-- The next statement of the transaction that holds the lock, up to its commit. -/
def advance (s : AuthDb P H) : Except String (AuthDb P H) :=
  match s.holder with
  | some (.login password hashed) => .ok { s with holder := some (.loginFactor password hashed s.secret) }
  | some (.loginFactor password hashed secret) =>
    .ok { s with holder := some (.loginPolicy password hashed secret s.requireTotp) }
  | some (.change hashed) =>
    .ok { s with holder := some (.changeSessions hashed (s.sessions.map OperatorSession.token)) }
  | some (.changeSessions hashed sessions) =>
    .ok { s with holder := some (.changeChallenges hashed sessions (s.challenges.map OperatorChallenge.token)) }
  | some (.changeChallenges hashed sessions challenges) =>
    .ok { s with holder := some (.changeFactor hashed sessions challenges
      (s.factor.any fun row => row.pendingSecret.isSome || row.pendingSession.isSome || row.pendingExpires != 0)) }
  | _ => .error "Nothing to advance"

end AuthDb

/-- The statements of `login` and `change_password`, and the operations that run one at a time. -/
inductive AdminEvent (P H C : Type) where
  | read (username : Option String) (password : P)
  | lockLogin (password : P) (hashed : H)
  | lockChange (password : P) (hashed : H) (new : P)
  | advance
  | loginCommit
  | changeCommit
  | rollback
  | completeLogin (token : Nat) (code : C)
  | authenticate (token : Nat)
  | logout (token : Nat)
  | beginTotp (session : Nat) (password : P)
  | confirmTotp (session : Nat) (code : C)
  | updateTotp (session : Nat) (password : P) (code : C) (disable : Bool)
  | updatePolicy (session : Nat) (password : P) (code : C) (required : Bool)
  | setAdministrator (username : String) (password : P) (reset : Bool)
  | sweepWindow

namespace AuthDb

variable (hasher : PasswordHash P H) (settings : AuthSettings C) (now : Nat)

/-- A failed operation changes nothing. -/
def keeping (s : AuthDb P H) : Except String (AuthDb P H) → Except String Unit × AuthDb P H
  | .ok t => (.ok (), t)
  | .error error => (.error error, s)

/-- An operation, or a statement. -/
def apply [DecidableEq H] (s : AuthDb P H) : AdminEvent P H C → Except String Unit × AuthDb P H
  | .read username password => s.keeping (s.read hasher username password)
  | .lockLogin password hashed => s.keeping (s.lock hashed (.login password hashed))
  | .lockChange _ hashed new =>
    s.keeping ({ s with serial := s.serial + 1 }.lock hashed (.change (hasher.hash s.serial new)))
  | .advance => s.keeping s.advance
  | .loginCommit => s.keeping (s.loginCommit settings now)
  | .changeCommit => s.keeping s.changeCommit
  | .rollback => s.keeping (.ok { s with holder := none })
  | .completeLogin token code => s.completeLogin settings now token code
  | .authenticate token => s.authenticate settings now token
  | .logout token => s.keeping (.ok { s with sessions := s.sessions.filter (·.token != token) })
  | .beginTotp session password => s.keeping (s.beginTotp hasher settings now session password)
  | .confirmTotp session code => s.keeping (s.confirmTotp settings now session code)
  | .updateTotp session password code disable =>
    s.keeping (s.updateTotp hasher settings now session password code disable)
  | .updatePolicy session password code required =>
    s.keeping (s.updatePolicy hasher settings now session password code required)
  | .setAdministrator username password reset => s.keeping (s.setAdministrator hasher username password reset)
  | .sweepWindow => s.keeping (.ok (s.sweepWindow now))

end AuthDb

end OpenNode.Administration
