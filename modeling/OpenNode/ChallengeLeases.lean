import OpenNode.Lib.Assoc
import OpenNode.Lib.Interruption
import OpenNode.Lib.Rows

namespace OpenNode.ChallengeLeases

open Interruption Program

structure Challenge where
  domain : String
  token : String
  keyAuthorization : String
deriving DecidableEq

/-- A mode with the webroot that only `webroot` has. -/
inductive Mode where
  | standalone
  | webroot (site : String)
deriving DecidableEq

/-- A validated `Presentation`. -/
structure Presentation where
  leaseId : String
  expiresAt : Rat
  mode : Mode
  challenges : List Challenge
  distinct : (challenges.map Challenge.token).Nodup
deriving DecidableEq

inductive Status where
  | preparing
  | ready
  | releasing
  | released
deriving DecidableEq, Repr

/-- A row of `http01_leases`; a lease that was released before it was presented has no payload. -/
structure Lease where
  id : String
  payload : Option Presentation
  status : Status
  expiresAt : Rat
deriving DecidableEq

/-- A file in a challenge directory: whether it is a regular file of the Agent that nobody
else may write, and the lease that it was written under. -/
structure ChallengeFile where
  content : String
  plain : Bool
  owner : Option String

/-- The place of a file: the name in the challenge directory of a site. -/
structure Key where
  site : String
  token : String
deriving DecidableEq

structure Store where
  leases : List Lease
  roots : List String
  files : List (Key × ChallengeFile)

/-- The store of a new Agent. -/
def Store.empty : Store := ⟨[], [], []⟩

structure Config where
  standalone : Bool
  webroots : List String

def Presentation.site (p : Presentation) : Option String :=
  match p.mode with
  | .standalone => none
  | .webroot site => some site

def Lease.active (lease : Lease) : Bool := lease.status ≠ .released

def Lease.ended (lease : Lease) : Bool := lease.status = .releasing || lease.status = .released

def Store.lease (s : Store) (id : String) : Option Lease :=
  s.leases.find? fun lease => lease.id = id

/-- `INSERT` of a new lease, and `INSERT OR IGNORE`. -/
def Store.insert (lease : Lease) (s : Store) : Store :=
  if s.leases.any fun other => other.id = lease.id then s else { s with leases := s.leases ++ [lease] }

def Lease.withStatus (status : Status) (lease : Lease) : Lease := { lease with status := status }

def Store.setStatus (id : String) (status : Status) (s : Store) : Store :=
  { s with leases := Rows.update (fun lease => lease.id = id) (Lease.withStatus status) s.leases }

/-- `_root`, with `create`: an unknown directory is taken only while it is empty. -/
def createRoot (site : String) (s : Store) : Except String Store :=
  if site ∈ s.roots then .ok s
  else if s.files.any fun entry =>
    entry.1.site = site then .error "An unowned HTTP challenge directory must be empty"
  else .ok { s with roots := site :: s.roots }

/-- `_root`. -/
def openRoot (site : String) (s : Store) : Except String Store :=
  if site ∈ s.roots then .ok s else .error "An unowned HTTP challenge directory must be empty"

/-- `_file`. -/
def checkFile (site : String) (item : Challenge) (s : Store) : Except String Store :=
  match s.files.lookup ⟨site, item.token⟩ with
  | none => .ok s
  | some file =>
    if file.plain && file.content = item.keyAuthorization then .ok s
    else .error "HTTP challenge file was changed outside its lease"

/-- `_file` and `atomic_write` with `chmod`. The temporary file that a crash leaves behind is no
challenge file, and is not modelled. -/
def writeFile (id site : String) (item : Challenge) (s : Store) : Except String Store := do
  let s ← checkFile site item s
  .ok { s with files := Assoc.put ⟨site, item.token⟩ ⟨item.keyAuthorization, true, some id⟩ s.files }

def removeFile (site : String) (item : Challenge) (s : Store) : Except String Store :=
  .ok { s with files := s.files.filter fun entry => entry.1 ≠ ⟨site, item.token⟩ }

/-- The end of `_release`. -/
def finishRelease (id : String) : Program Store :=
  .step (write (Store.setStatus id .released)) .done

/-- The files of a lease in its release: all are checked before one is removed. -/
def releaseFiles (site : String) (challenges : List Challenge) : Program Store :=
  .step (openRoot site) ((each (checkFile site) challenges).seq (each (removeFile site) challenges))

def release (id : String) (expiresAt : Rat) : Program Store :=
  .read fun s =>
    match s.lease id with
    | none =>
      .step (write (Store.insert { id := id, payload := none, status := .released, expiresAt := expiresAt })) .done
    | some lease =>
      if lease.status = .released then .done
      else .step (write (Store.setStatus id .releasing))
        (match lease.payload with
          | none => fail "mode"
          | some p =>
            match p.site with
            | none => finishRelease id
            | some site => (releaseFiles site p.challenges).seq (finishRelease id))

/-- What interrupts an expiry step: the effects of the release of each lease, whether one
that fails ends the step, and the effect of its last statement. -/
structure Interruptions where
  effects : Nat → Nat → Effect
  crashes : Nat → Bool
  last : Effect

def due (now : Rat) (s : Store) : List Lease :=
  s.leases.filter fun lease => lease.active && lease.expiresAt ≤ now

/-- The loop of `_expire`: the first failure of a release is kept while the others go on.
The flag tells that the step ended in the middle. -/
def expireLoop : List Lease → (Nat → Nat → Effect) → (Nat → Bool) → Store → Option String →
    Store × Bool × Option String
  | [], _, _, s, failure => (s, false, failure)
  | lease :: rest, effects, crashes, s, failure =>
    match (release lease.id lease.expiresAt).run (effects 0) s with
    | (t, none) => expireLoop rest (fun n => effects (n + 1)) (fun n => crashes (n + 1)) t failure
    | (t, some error) =>
      if crashes 0 then (t, true, some error)
      else expireLoop rest (fun n => effects (n + 1)) (fun n => crashes (n + 1)) t (failure.or (some error))

/-- The released leases that a day has passed for are forgotten. -/
def collect (now : Rat) (s : Store) : Store :=
  { s with leases := s.leases.filter fun lease => lease.active || now - 86400 ≤ lease.expiresAt }

def expire (now : Rat) (o : Interruptions) (s : Store) : Store × Option String :=
  match expireLoop (due now s) o.effects o.crashes s none with
  | (t, true, failure) => (t, failure)
  | (t, false, failure) =>
    match o.last with
    | .done => (collect now t, failure)
    | .lost error => (t, some error)
    | .kept error => (collect now t, some error)

def writeFiles (p : Presentation) : Program Store :=
  match p.site with
  | none => .done
  | some site => each (writeFile p.leaseId site) p.challenges

/-- The end of `present`: the lease is stored, its files are written and it is made ready,
or it is released again. The call is the listener. -/
def storeLease (p : Presentation) : Program Store :=
  .step (write
      (Store.insert { id := p.leaseId, payload := some p, status := .preparing, expiresAt := p.expiresAt }))
    (.attempt
      ((writeFiles p).seq (call (.step (write (Store.setStatus p.leaseId .ready)) .done)))
      ((release p.leaseId p.expiresAt).seq (call .done))
      .done)

def sharesToken (p : Presentation) (lease : Lease) : Bool :=
  lease.payload.any fun other => p.challenges.any fun item =>
    (other.challenges.map Challenge.token).contains item.token

def occupied (site : String) (p : Presentation) (s : Store) : Bool :=
  p.challenges.any fun item => (s.files.lookup ⟨site, item.token⟩).isSome

/-- The checks of `present` on the rows, and what follows them. -/
def presentLease (p : Presentation) : Program Store :=
  .read fun s =>
    let others := s.leases.filter fun lease => lease.id ≠ p.leaseId && lease.active
    if (s.lease p.leaseId).any fun lease => lease.status = .released || lease.status = .releasing ||
      lease.payload ≠ some p then
      fail "HTTP challenge lease was released or reused with different content"
    else if 16 ≤ others.length then fail "Too many active HTTP challenge leases"
    else if others.any (sharesToken p) then fail "HTTP challenge token is already owned by another lease"
    else
      match p.site with
      | none => storeLease p
      | some site =>
        .step (createRoot site) (.read fun t =>
          if (s.lease p.leaseId).isNone && occupied site p t then fail "HTTP challenge filename is already occupied"
          else storeLease p)

def enabled (config : Config) (p : Presentation) : Bool :=
  match p.mode with
  | .standalone => config.standalone
  | .webroot site => config.webroots.contains site

/-- `present`: the deadline is checked when the request comes, before it waits for the lock. -/
def present (config : Config) (asked now : Rat) (p : Presentation) (o : Interruptions) (effects : Nat → Effect)
    (s : Store) :
    Store × Option String :=
  if ¬ (asked < p.expiresAt ∧ p.expiresAt ≤ asked + 600) then (s,
    some "HTTP challenge lease must expire within ten minutes")
  else if ¬ enabled config p then (s, some "HTTP challenge mode is not enabled by the host owner")
  else
    match expire now o s with
    | (t, some error) => (t, some error)
    | (t, none) => (presentLease p).run effects t

/-- The public `release`. -/
def releaseLease (now : Rat) (id : String) (expiresAt : Rat) (effects : Nat → Effect) (s : Store) :
    Store × Option String :=
  if now + 600 < expiresAt then (s, some "Invalid HTTP challenge lease deadline")
  else ((release id expiresAt).seq (call .done)).run effects s

/-- `_respond`, for a request that names one valid host and a token. -/
def respond (now : Rat) (domain token : String) (s : Store) : Option String :=
  (s.leases.filter fun lease => lease.status = .ready && now < lease.expiresAt).findSome? fun lease =>
    lease.payload.bind fun p =>
      if p.site.isSome then none
      else (p.challenges.find? fun item => item.token = token &&
        item.domain = domain).map Challenge.keyAuthorization

/-- Whether a file at this place would be taken for one of an active lease. -/
def claimed (s : Store) (key : Key) (file : ChallengeFile) : Bool :=
  s.leases.any fun lease => lease.active && lease.payload.any fun p =>
    p.site = some key.site && p.challenges.any fun item =>
      item.token = key.token && file.plain && file.content = item.keyAuthorization

/-- What happens to the store: a delivery that has the lock, the expiry of the loop, or a file that another
owner puts at a free place, which is not a copy of a challenge. -/
inductive Event where
  | present (asked : Rat) (p : Presentation) (o : Interruptions) (effects : Nat → Effect)
  | release (id : String) (expiresAt : Rat) (effects : Nat → Effect)
  | expire (o : Interruptions)
  | occupy (key : Key) (content : String) (plain : Bool)

def occupy (key : Key) (content : String) (plain : Bool) (s : Store) : Store :=
  let file : ChallengeFile := ⟨content, plain, none⟩
  if (s.files.lookup key).isSome || claimed s key file then s else { s with files := Assoc.put key file s.files }

def step (config : Config) (now : Rat) (event : Event) (s : Store) : Store × Option String :=
  match event with
  | .present asked p o effects => present config asked now p o effects s
  | .release id expiresAt effects => releaseLease now id expiresAt effects s
  | .expire o => expire now o s
  | .occupy key content plain => (occupy key content plain s, none)

/-- The store after events, each at its time. -/
def after (config : Config) (s : Store) (events : List (Rat × Event)) : Store :=
  events.foldl (fun s event => (step config event.1 event.2 s).1) s

end OpenNode.ChallengeLeases
