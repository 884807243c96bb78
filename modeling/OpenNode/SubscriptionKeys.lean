import OpenNode.Lib.Claims
import OpenNode.Lib.Edits
import OpenNode.Lib.Rows

namespace OpenNode.SubscriptionKeys

open Edits

section Texts

/-- `lower` and `casefold`, which agree on keys: they are ASCII. -/
def fold (key : String) : String :=
  String.ofList (key.toList.map Char.toLower)

/-- The characters that `strip` takes away. -/
def isSpace (c : Char) : Bool :=
  let n := c.toNat
  (9 ≤ n && n ≤ 13) || (28 ≤ n && n ≤ 32) || n == 133 || n == 160 || n == 5760 || (8192 ≤ n && n ≤ 8202) ||
    n == 8232 ||
    n == 8233 || n == 8239 || n == 8287 || n == 12288

def strip (text : String) : String :=
  String.ofList ((text.toList.dropWhile isSpace).reverse.dropWhile isSpace).reverse

def codeChar (c : Char) : Bool :=
  c.isAlphanum || c == '_' || c == '-'

/-- `[A-Za-z0-9_-]`, of a length in the range. -/
def isCode (least most : Nat) (text : String) : Bool :=
  text.toList.all codeChar && least ≤ text.length && text.length ≤ most

def isToken (text : String) : Bool :=
  (text.toList.all fun c => codeChar c || c == '.' || c == '~') && 8 ≤ text.length && text.length ≤ 96

def reservedShortCodes : List String :=
  ["admin", "root", "system", "api", "share", "test", "user", "guest", "null", "www", "mmw", "mmwx", "open-node",
    "opennode", "account", "subscribe", "assets", "healthz"]

/-- `SubscriptionShortCodeUpdate.validate_code`. -/
def validateCode (value : String) : Except String String := do
  let value := strip value
  require (value = "" ∨ isCode 2 16 value = true) "Use 2-16 ASCII letters, digits, underscores or hyphens"
  require (fold value ∉ reservedShortCodes) "This short code is reserved"
  .ok value

end Texts

section Tables

/-- `ProductUser`. `removing` says that a removal is in progress. -/
structure User where
  username : String
  removing : Bool := false
deriving DecidableEq, Repr

inductive BearerGeneration where
  | legacy | secure
deriving DecidableEq, Repr

/-- `ProductUserSubscriptionToken`. -/
structure Token where
  username : String
  token : String
  shortCode : String
  customShortCode : Option String := none
  bearerGeneration : BearerGeneration := .secure
  updatedAt : Nat
deriving DecidableEq, Repr

/-- `SubscriptionProfile` with its assignments. -/
structure Profile where
  id : Nat
  ownerUsername : String
  enabled : Bool := true
  proxyProvidersEnabled : Bool := false
  selectedProxyProviderIds : List Nat := []
  legacySourceId : Nat
  legacyFileShortCode : Option String
  legacyCustomShortCode : Option String
  assignedUsernames : List String
deriving DecidableEq, Repr

/-- `LegacySubscriptionPlanCode`. -/
structure PlanCode where
  code : String
  sourcePackageId : Nat
deriving DecidableEq, Repr

/-- `ProxyProvider`; `client` stands for its process mode. -/
structure ProxyProvider where
  id : Nat
  ownerUsername : String
  enabled : Bool
  client : Bool
deriving DecidableEq, Repr

/-- The tables, and the setting `short_links_enabled` of the controller. -/
structure Store where
  users : List User := []
  tokens : List Token := []
  profiles : List Profile := []
  planCodes : List PlanCode := []
  providers : List ProxyProvider := []
  shortLinksEnabled : Bool := false
  nextProfile : Nat := 0
deriving DecidableEq, Repr

variable (s : Store)

def Token.keys (row : Token) : List String :=
  row.token :: row.shortCode :: row.customShortCode.toList

def Profile.codes (profile : Profile) : List String :=
  profile.legacyFileShortCode.toList ++ profile.legacyCustomShortCode.toList

def Store.user? (username : String) : Option User :=
  s.users.find? (·.username == username)

def Store.token? (username : String) : Option Token :=
  s.tokens.find? (·.username == username)

def Store.setToken (username : String) (set : Token → Token) : Store :=
  { s with tokens := Rows.update (·.username == username) set s.tokens }

/-- `_subscription_key_in_use`. -/
def Store.keyInUse (key : String) (exceptUser : Option String) : Bool :=
  s.tokens.any fun row => exceptUser != some row.username && row.keys.any (fold · == fold key)

/-- The unique indexes of the tokens. -/
def Store.indexed : Bool :=
  decide ((s.tokens.map (·.token)).Nodup) && decide ((s.tokens.map (·.shortCode)).Nodup) &&
    decide ((s.tokens.filterMap fun row => row.customShortCode.map fold).Nodup)

def found {α : Type} (error : String) : Option α → Except String α
  | some row => .ok row
  | none => .error error

end Tables

section Links

/-- What `token_urlsafe` and `uuid4` draw, one after another. -/
structure Draws where
  tokens : List String := []
  codes : List String := []
deriving DecidableEq, Repr

variable (s : Store) (draws : Draws) (now : Nat)

/-- The loops of `_unique_subscription_token` and `_unique_subscription_short_code`. -/
def Store.unique (drawn : List String) : Except String String :=
  found "No draw is free" (drawn.find? fun key => !s.keyInUse key none)

/-- `_rotate_subscription_bearer`; the new token is flushed before the code is drawn. -/
def Store.rotate (username : String) : Except String Store := do
  let token ← s.unique draws.tokens
  let flushed := s.setToken username fun row => { row with token := token }
  let shortCode ← flushed.unique draws.codes
  .ok (flushed.setToken username fun row =>
    { row with shortCode := shortCode, customShortCode := none, bearerGeneration := .secure, updatedAt := now })

/-- `_issue_subscription_token`. -/
def Store.issue (username : String) (reset : Bool) : Except String Store := do
  require (strip username ≠ "") "username is required"
  let user ← found "user not found" (s.user? (strip username))
  require (user.removing = false) "User removal is in progress"
  match s.token? user.username with
  | none =>
    let token ← s.unique draws.tokens
    let shortCode ← s.unique draws.codes
    .ok { s with tokens := s.tokens ++
      [{ username := user.username, token := token, shortCode := shortCode, updatedAt := now }] }
  | some row =>
    if reset || (!s.shortLinksEnabled && row.bearerGeneration == .legacy) then s.rotate draws now row.username
    else .ok s

/-- The checks of `_set_subscription_short_code` on a code that is claimed. -/
def Store.checkCode (username : String) (code : String) : Except String Unit :=
  require ((∀ user ∈ s.users, user.username ≠ username → fold user.username ≠ fold code) ∧
    s.keyInUse code (some username) = false) "This short code is unavailable"

/-- The custom code that the editor saves. -/
def Store.saveCode (row : Token) (code : Option String) : Except String Store :=
  if row.customShortCode = code then .ok s
  else do
    let saved := s.setToken row.username fun row => { row with customShortCode := code, updatedAt := now }
    require (saved.indexed = true) "This short code is unavailable"
    .ok saved

/-- `_set_subscription_short_code`. A revision is a digest of the row. -/
def Store.setShortCode (username code : String) (expectedRevision : Token) : Except String Store := do
  let code ← validateCode code
  let issued ← s.issue draws now username false
  let row ← found "subscription not found" (issued.token? (strip username))
  require (row = expectedRevision) "Subscription links changed; reload before saving"
  if code = "" then issued.saveCode now row none
  else do
    issued.checkCode row.username code
    issued.saveCode now row (some code)

/-- `_rotate_legacy_subscription_bearers`. -/
def Store.rotateLegacy : Except String Store :=
  ((s.tokens.filter (·.bearerGeneration == .legacy)).map (·.username)).foldlM (fun s username =>
    s.rotate draws now username) s

/-- The key that `render_subscription` finds. -/
def Store.resolve (key : String) : Option String :=
  let key := strip key
  if key = "" then none
  else
    (s.tokens.find? fun row =>
      if s.shortLinksEnabled then decide (key ∈ row.keys) else row.token == key && row.bearerGeneration ==
        .secure).map (·.username)

end Links

section Users

variable (s : Store)

/-- `create_product_user`, and the other ways a user comes in. -/
def Store.createUser (username : String) : Except String Store := do
  require (strip username ≠ "") "username is required"
  require (s.user? (strip username) = none) "username already exists"
  .ok { s with users := s.users ++ [{ username := strip username }] }

/-- The start of a removal. -/
def Store.removeUser (username : String) : Except String Store := do
  let user ← found "user not found" (s.user? username)
  let set (user : User) : User := { user with removing := true }
  .ok { s with
    users := Rows.update (·.username == user.username) set s.users
    tokens := s.tokens.filter (·.username != user.username) }

/-- The end of a removal, with the rows that go with the user. -/
def Store.finishRemoval (username : String) : Except String Store := do
  let user ← found "user not found" (s.user? username)
  require (user.removing = true) "User removal is not in progress"
  let unassign (profile : Profile) : Profile :=
    { profile with assignedUsernames := profile.assignedUsernames.filter (· != user.username) }
  .ok { s with
    users := s.users.filter (·.username != user.username)
    tokens := s.tokens.filter (·.username != user.username)
    profiles := (s.profiles.filter (·.ownerUsername != user.username)).map unassign }

end Users

section Profiles

/-- The part of `SubscriptionProfileUpdate` that links depend on. -/
structure ProfileUpdate where
  assignedUsernames : List String
  enabled : Bool
  proxyProvidersEnabled : Bool
  selectedProxyProviderIds : List Nat
deriving DecidableEq, Repr

/-- `update` of a profile. -/
def Store.updateProfile (s : Store) (identifier : Nat) (payload : ProfileUpdate) : Except String Store := do
  let profile ← found "subscription profile not found" (s.profiles.find? (·.id == identifier))
  let usernames := (payload.assignedUsernames.map strip).dedup
  require ("" ∉ usernames) "Assigned usernames cannot be empty"
  require (∀ username ∈ usernames, (s.user? username).any (!·.removing) = true)
    "An assigned subscriber is missing or being removed"
  let set (profile : Profile) : Profile :=
    { profile with
      assignedUsernames := usernames
      enabled := payload.enabled
      proxyProvidersEnabled := payload.proxyProvidersEnabled
      selectedProxyProviderIds := payload.selectedProxyProviderIds }
  .ok { s with profiles := Rows.update (·.id == profile.id) set s.profiles }

end Profiles

section Import

/-- The keys of an identity, which come together. -/
structure LegacyLinks where
  token : String
  generatedShortCode : String
  customShortCode : Option String
deriving DecidableEq, Repr

structure LegacyIdentity where
  username : String
  links : Option LegacyLinks
deriving DecidableEq, Repr

/-- A package; `mapped` says that a plan is selected for it. -/
structure LegacyPackage where
  sourceId : Nat
  shortCode : Option String
  mapped : Bool
deriving DecidableEq, Repr

structure LegacyProfile where
  sourceId : Nat
  ownerUsername : String
  fileShortCode : String
  customShortCode : Option String
  rawOutput : Bool
  assignedUsernames : List String
deriving DecidableEq, Repr

structure Bundle where
  users : List LegacyIdentity
  packages : List LegacyPackage
  profiles : List LegacyProfile
deriving DecidableEq, Repr

def LegacyLinks.keys (links : LegacyLinks) : List String :=
  links.token :: links.generatedShortCode :: links.customShortCode.toList

def LegacyProfile.codes (entry : LegacyProfile) : List String :=
  entry.fileShortCode :: entry.customShortCode.toList

def LegacyIdentity.valid (entry : LegacyIdentity) : Bool :=
  strip entry.username == entry.username && entry.username != "" && entry.username.length ≤ 80 &&
    (entry.username.toList.all fun c => 32 ≤ c.toNat && c.toNat != 127) &&
    entry.links.all fun links =>
      isToken links.token && isCode 1 24 links.generatedShortCode && links.customShortCode.all (isCode 1 16)

def Bundle.valid (bundle : Bundle) : Bool :=
  bundle.users.all (·.valid) && bundle.packages.all (·.shortCode.all (isCode 1 24)) &&
    (bundle.profiles.all fun entry => isCode 1 24 entry.fileShortCode && entry.customShortCode.all (isCode 1 64)) &&
    decide ((bundle.users.map (·.username)).Nodup) && decide ((bundle.packages.map (·.sourceId)).Nodup) &&
    decide ((bundle.profiles.map (·.sourceId)).Nodup) &&
    bundle.profiles.all fun entry =>
      (entry.ownerUsername :: entry.assignedUsernames).all fun username => bundle.users.any (·.username == username)

variable (s : Store) (bundle : Bundle) (replaceExisting : Bool)

/-- The keys that an import would write, with their users. -/
def Store.incomingKeys : List (String × String) :=
  bundle.users.flatMap fun entry =>
    if (s.token? entry.username).isNone || replaceExisting then
      (entry.links.elim [] (·.keys)).map fun key => (entry.username, key)
    else []

def incomingPlanCodes : List (Nat × String) :=
  bundle.packages.flatMap fun package =>
    if package.mapped then package.shortCode.toList.map fun code => (package.sourceId, code) else []

def Store.incomingProfileCodes : List (Nat × String) :=
  bundle.profiles.flatMap fun entry =>
    if (s.profiles.all (·.legacySourceId != entry.sourceId)) || replaceExisting then
      entry.codes.map fun code => (entry.sourceId, code)
    else []

/-- `_analyze`: nothing stands against the import. The blockers that do not
concern keys are an input. -/
def Store.ready : Bool :=
  (bundle.users.all fun entry => (s.user? entry.username).all (!·.removing)) &&
    !Claims.collides fold (Claims.stored Token.username Token.keys fold s.tokens) []
      (s.incomingKeys bundle replaceExisting) &&
    !Claims.collides fold (Claims.stored PlanCode.sourcePackageId (fun row => [row.code]) fold s.planCodes) []
      (incomingPlanCodes bundle) &&
    !Claims.collides fold (Claims.stored Profile.legacySourceId Profile.codes fold s.profiles) []
      (s.incomingProfileCodes bundle replaceExisting)

variable (draws : Draws) (now : Nat)

/-- The row of a user before its keys are set. -/
def Store.importRow (entry : LegacyIdentity) (links : LegacyLinks) : Store :=
  let row : Token :=
    { username := entry.username
      token := links.token
      shortCode := links.generatedShortCode
      customShortCode := links.customShortCode
      bearerGeneration := .legacy
      updatedAt := now }
  match s.token? entry.username with
  | none => { s with tokens := s.tokens ++ [row] }
  | some _ => s.setToken entry.username fun _ => row

/-- The keys of one identity. -/
def Store.importLinks (entry : LegacyIdentity) (links : LegacyLinks) : Except String Store := do
  let written := s.importRow now entry links
  require (written.indexed = true) "Migration collided with current user or subscription-link state"
  if written.shortLinksEnabled then .ok written else written.rotate draws now entry.username

/-- The turn of `apply` for a user. -/
def Store.importUser (s : Store) (entry : LegacyIdentity) : Except String Store :=
  let known : Store := if (s.user? entry.username).isSome then s
    else { s with users := s.users ++ [{ username := entry.username }] }
  match entry.links with
  | none => .ok known
  | some links =>
    if (s.token? entry.username).isNone || replaceExisting then known.importLinks draws now entry links
      else .ok known

/-- The turn of `apply` for a package. -/
def Store.importPackage (s : Store) (package : LegacyPackage) : Store :=
  match package.shortCode with
  | none => s
  | some code =>
    if package.mapped then
      if s.planCodes.any (·.sourcePackageId == package.sourceId) then
        let set (row : PlanCode) : PlanCode := { row with code := code }
        { s with planCodes := Rows.update (·.sourcePackageId == package.sourceId) set s.planCodes }
      else { s with planCodes := s.planCodes ++ [{ code := code, sourcePackageId := package.sourceId }] }
    else s

/-- The turn of `apply` for a profile. -/
def Store.importProfile (s : Store) (entry : LegacyProfile) : Store :=
  if s.profiles.any (·.legacySourceId == entry.sourceId) then
    let set (profile : Profile) : Profile :=
      { profile with
        ownerUsername := entry.ownerUsername
        enabled := !entry.rawOutput
        legacyFileShortCode := some entry.fileShortCode
        legacyCustomShortCode := entry.customShortCode
        assignedUsernames := entry.assignedUsernames }
    if replaceExisting then { s with profiles := Rows.update (·.legacySourceId == entry.sourceId) set s.profiles }
    else s
  else
    { s with
      profiles := s.profiles ++
        [{ id := s.nextProfile
           ownerUsername := entry.ownerUsername
           enabled := !entry.rawOutput
           legacySourceId := entry.sourceId
           legacyFileShortCode := some entry.fileShortCode
           legacyCustomShortCode := entry.customShortCode
           assignedUsernames := entry.assignedUsernames }]
      nextProfile := s.nextProfile + 1 }

/-- `apply`. `blocked` stands for a stale preview, a wrong count and the
blockers that do not concern keys. -/
def Store.importIdentities (blocked : Bool) : Except String Store := do
  require (bundle.valid = true) "The bundle is not valid"
  require (blocked = false ∧ s.ready bundle replaceExisting = true) "Migration preview contains blockers"
  let imported ← bundle.users.foldlM (Store.importUser replaceExisting draws now) s
  .ok (bundle.profiles.foldl (Store.importProfile replaceExisting) (bundle.packages.foldl
    Store.importPackage imported))

end Import

section Runs

inductive Event where
  | createUser (username : String)
  | removeUser (username : String)
  | finishRemoval (username : String)
  | issue (username : String) (reset : Bool) (draws : Draws) (now : Nat)
  | setShortCode (username code : String) (expectedRevision : Token) (draws : Draws) (now : Nat)
  | importIdentities (bundle : Bundle) (replaceExisting blocked : Bool) (draws : Draws) (now : Nat)
  | updateProfile (identifier : Nat) (payload : ProfileUpdate)
  /-- The rows of proxy providers, which other services write. -/
  | setProviders (providers : List ProxyProvider)
  /-- The controller starts with a setting; only on SQLite it rotates the bearers of the first generation. -/
  | restart (sqlite shortLinksEnabled : Bool) (draws : Draws) (now : Nat)
deriving DecidableEq, Repr

/-- A request, in one serialized transaction. -/
def Store.request (s : Store) : Event → Except String Store
  | .createUser username => s.createUser username
  | .removeUser username => s.removeUser username
  | .finishRemoval username => s.finishRemoval username
  | .issue username reset draws now => s.issue draws now username reset
  | .setShortCode username code expectedRevision draws now => s.setShortCode draws now username code
      expectedRevision
  | .importIdentities bundle replaceExisting blocked draws now =>
    s.importIdentities bundle replaceExisting draws now blocked
  | .updateProfile identifier payload => s.updateProfile identifier payload
  | .setProviders providers => .ok { s with providers := providers }
  | .restart sqlite shortLinksEnabled draws now =>
    let started : Store := { s with shortLinksEnabled := shortLinksEnabled }
    if sqlite && !shortLinksEnabled then started.rotateLegacy draws now else .ok started

/-- A transaction that fails is rolled back. -/
def Store.step (s : Store) (event : Event) : Store :=
  match s.request event with
  | .ok t => t
  | .error _ => s

def Store.run (s : Store) (events : List Event) : Store :=
  events.foldl Store.step s

end Runs

end OpenNode.SubscriptionKeys
