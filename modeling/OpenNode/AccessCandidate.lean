import OpenNode.ManagedProtocols

namespace OpenNode.ManagedProtocols

section Entries

/-- The Xray limiter data of an entry, as far as it identifies a user. -/
structure LimitTarget where
  inboundTag : String
  email : String
deriving DecidableEq

structure AccessEntry where
  tag : String
  protocol : String
  client : Json
  enabled : Bool
  routingUserAdditions : List Json := []
  limiter : Option LimitTarget := none

/-- `a or b`. -/
def orElse (a b : Json) : Json := if a.truthy then a else b

/-- A field that is a text or `None`. -/
def optionalText : Json → Option (Option String)
  | .null => some none
  | .str text => some (some text)
  | _ => none

/-- `ManagedUser(..)`: the text of a UUID is brought to lower case. -/
def ManagedUser.modelValidate (name : String) (uuid password : Json) : Option ManagedUser := do
  let uuid ← optionalText uuid
  let password ← optionalText password
  let user : ManagedUser := ⟨name, uuid.map String.toLower, password⟩
  if user.valid then some user else none

/-- The protocols that an entry may name for a profile. -/
def expectedProtocols : Profile → List String
  | .vlessRealityVision | .vlessXhttpRealityXmux => ["vless"]
  | .anytlsShadowtls => ["anytls"]
  | .mieru => ["mieru"]
  | .socks5 => ["socks", "socks5"]

/-- The user that an entry is about, with its secret as the entry writes it. -/
structure Credential where
  user : ManagedUser
  uuid : Option String
  password : Option String
deriving DecidableEq

/-- A user with the secret of the entry. -/
def Credential.matching (credential : Credential) (user : ManagedUser) : Bool :=
  (credential.uuid.isSome && user.uuid == credential.uuid) ||
    (credential.password.isSome && user.password == credential.password)

/-- The credential of an entry for a listener of a profile. -/
def AccessEntry.credential (entry : AccessEntry) (profile : Profile) : Except String Credential :=
  let name := orElse (orElse (entry.client.get "username") (entry.client.get "user")) (entry.client.get "email")
  let uuid := if profile.isVless then entry.client.get "id" else .null
  let password := if profile.isVless then .null else orElse (entry.client.get "password") (entry.client.get "pass")
  if !(expectedProtocols profile).contains entry.protocol then .error "Access target protocol changed"
  else if !entry.routingUserAdditions.isEmpty || entry.limiter.isSome then
    .error "Mihomo access entries do not support Xray routing or limiter data"
  else
    match name.str? with
    | none => .error "Mihomo access credential requires a name"
    | some name =>
      if name = "" then .error "Mihomo access credential requires a name"
      else
        match ManagedUser.modelValidate name uuid password with
        | none => .error "Invalid Mihomo access credential"
        | some user => .ok ⟨user, uuid.str?, password.str?⟩

end Entries

section Candidates

/-- What an entry does to the users of its listener. -/
def mergeUser (credential : Credential) (enabled : Bool) (users : List ManagedUser) :
    Except String (List ManagedUser) :=
  let named := users.filter fun user => user.name == credential.user.name
  let matched := users.filter credential.matching
  if !named.isEmpty && named != matched then .error "Mihomo access credential identity changed"
  else if 1 < matched.length then .error "Mihomo access credential is ambiguous"
  else
    match matched with
    | [] =>
      if !enabled then .ok users
      else if users.any fun user => user.name == credential.user.name then
        .error "Mihomo access user name is already assigned"
      else .ok (users ++ [credential.user])
    | user :: _ =>
      if user.name ≠ credential.user.name then .error "Mihomo access credential identity changed"
      else .ok (if enabled then users else users.erase user)

/-- An entry at a listener. -/
def editUsers (profile : Profile) (users : List ManagedUser) (entry : AccessEntry) :
    Except String (List ManagedUser) :=
  match entry.credential profile with
  | .error message => .error message
  | .ok credential => mergeUser credential entry.enabled users

/-- An entry at the listeners: tags are unique. -/
def applyEntry (listeners : List ManagedListener) (entry : AccessEntry) : Except String (List ManagedListener) :=
  listeners.mapM fun listener =>
    if listener.tag = entry.tag then
      match editUsers listener.profile listener.users entry with
      | .error message => .error message
      | .ok users => .ok { listener with users }
    else .ok listener

def accessCandidate (current : Option ManagedProtocolsRequest) (entries : List AccessEntry) :
    Except String (Option ManagedProtocolsRequest) :=
  match current with
  | none => .ok none
  | some current =>
    let selected := entries.filter fun entry => current.listeners.any fun listener => listener.tag == entry.tag
    if selected.isEmpty then .ok none
    else
      match selected.foldlM applyEntry current.listeners with
      | .error message => .error message
      | .ok listeners =>
        match ManagedProtocolsRequest.modelValidate { revision := current.revision, listeners } with
        | none => .error "Mihomo access changes violate managed listener constraints"
        | some candidate => .ok (some candidate)

end Candidates

section Users

variable {credential : Credential} {enabled : Bool} {users users' : List ManagedUser}

theorem mergeUser_ok (merged : mergeUser credential enabled users = .ok users') :
    (∃ user ∈ users, user.name = credential.user.name ∧
        (∀ other ∈ users, other.name = credential.user.name ∨ credential.matching other = true → other = user) ∧
        credential.matching user = true ∧ users' = if enabled then users else users.erase user) ∨
      (∀ other ∈ users, other.name ≠ credential.user.name ∧ credential.matching other = false) ∧
        users' = if enabled then users ++ [credential.user] else users := by
  unfold mergeUser at merged
  dsimp only at merged
  split at merged
  · nomatch merged
  rename_i agreed
  split at merged
  · nomatch merged
  rename_i single
  cases matched : users.filter credential.matching with
  | nil =>
    rw [matched] at merged agreed
    have unnamed : users.filter (fun user => user.name == credential.user.name) = [] := by simpa using agreed
    refine .inr ⟨fun other member => ⟨fun same => ?_, ?_⟩, ?_⟩
    · have found : other ∈ users.filter fun user => user.name == credential.user.name := by simp [member, same]
      rw [unnamed] at found
      nomatch found
    · exact Bool.eq_false_iff.mpr fun hit => by
        have found := List.mem_filter.mpr ⟨member, hit⟩
        rw [matched] at found
        nomatch found
    · cases enabled with
      | false =>
        cases merged
        rfl
      | true =>
        simp only [Bool.not_true, Bool.false_eq_true, if_false] at merged
        split at merged
        · nomatch merged
        · cases merged
          rfl
  | cons user rest =>
    rw [matched] at merged agreed single
    have alone : rest = [] := by
      cases rest with
      | nil => rfl
      | cons _ _ => simp at single
    subst alone
    dsimp only at merged
    split at merged
    · nomatch merged
    rename_i same
    rw [not_not] at same
    cases merged
    have member : user ∈ users.filter credential.matching := by rw [matched]; exact List.mem_singleton_self user
    obtain ⟨here, hit⟩ := List.mem_filter.mp member
    have named : users.filter (fun user => user.name == credential.user.name) = [user] := by
      have found : user ∈ users.filter fun user => user.name == credential.user.name := by simp [here, same]
      have filled : (users.filter fun user => user.name == credential.user.name).isEmpty = false := by
        cases list : users.filter fun user => user.name == credential.user.name with
        | nil =>
          rw [list] at found
          nomatch found
        | cons _ _ => rfl
      simpa [filled] using agreed
    refine .inl ⟨user, here, same, fun other member way => ?_, hit, rfl⟩
    rcases way with sameName | matches'
    · have found : other ∈ users.filter fun user => user.name == credential.user.name := by simp [member, sameName]
      rw [named] at found
      exact List.mem_singleton.mp found
    · have found := List.mem_filter.mpr ⟨member, matches'⟩
      rw [matched] at found
      exact List.mem_singleton.mp found

/-- A user that a listener can have, by whether its profile is a VLESS one. -/
structure ManagedUser.Fits (vless : Bool) (user : ManagedUser) : Prop where
  canonical : ∀ id, user.uuid = some id → canonicalUuid id = true
  kind : if vless then user.password = none else user.uuid = none

theorem isHex_toLower {c : Char} (hex : (isHex c || c == '-') = true) : c.toLower = c := by
  unfold Char.toLower
  split
  · rename_i upper
    exfalso
    have low : 'A'.val ≤ c.val := upper.1
    have high : c.val ≤ 'Z'.val := upper.2
    simp only [isHex, Lifecycle.isDigit, Bool.or_eq_true, Bool.and_eq_true, decide_eq_true_eq, beq_iff_eq] at hex
    rcases hex with (⟨_, digit⟩ | ⟨letter, _⟩) | rfl
    · have bound : c.val ≤ '9'.val := digit
      exact absurd (UInt32.le_trans low bound) (by decide)
    · have bound : 'a'.val ≤ c.val := letter
      exact absurd (UInt32.le_trans bound high) (by decide)
    · exact absurd low (by decide)
  · rfl

theorem canonicalUuid_toLower {text : String} (canonical : canonicalUuid text = true) : text.toLower = text := by
  simp only [canonicalUuid, Bool.and_eq_true, List.all_eq_true] at canonical
  rw [String.toLower, String.map_eq_internal]
  have same : text.toList.map Char.toLower = text.toList := by
    conv_rhs => rw [← List.map_id text.toList]
    exact List.map_congr_left fun c member => isHex_toLower (canonical.2 c member)
  rw [same, String.ofList_toList]

variable {user : ManagedUser}

theorem ManagedListener.fits {listener : ManagedListener} (valid : listener.valid = true)
    (member : user ∈ listener.users) : user.Fits listener.profile.isVless := by
  simp only [ManagedListener.valid, Bool.and_eq_true, List.all_eq_true] at valid
  obtain ⟨⟨⟨⟨⟨_, each⟩, _⟩, _⟩, kinds⟩, _⟩ := valid.1
  have own := each user member
  have kind := kinds user member
  simp only [ManagedUser.valid, Bool.and_eq_true] at own
  refine ⟨fun id known => ?_, ?_⟩
  · have canonical := own.1.2
    rwa [known] at canonical
  · split at kind <;> rename_i vless
    · simp_all
    · simp_all

/-- What a credential has in common with the user it names. -/
structure Credential.Proper (vless : Bool) (credential : Credential) : Prop where
  fits : credential.user.Fits vless
  secret : if vless then credential.user.uuid = credential.uuid.map String.toLower ∧ credential.password = none
    else credential.uuid = none ∧ credential.user.password = credential.password

theorem optionalText_eq_some {value : Json} {text : Option String} (known : optionalText value = some text) :
    value.str? = text := by
  unfold optionalText at known
  split at known <;> cases known <;> rfl

theorem AccessEntry.credential_proper {entry : AccessEntry} {profile : Profile} {credential : Credential}
    (known : entry.credential profile = .ok credential) : credential.Proper profile.isVless := by
  unfold AccessEntry.credential at known
  dsimp only at known
  split at known
  · nomatch known
  split at known
  · nomatch known
  split at known
  · nomatch known
  split at known
  · nomatch known
  split at known
  · nomatch known
  rename_i user validated
  cases known
  unfold ManagedUser.modelValidate at validated
  simp only [Option.bind_eq_bind, Option.bind_eq_some_iff] at validated
  obtain ⟨uuid, idKnown, password, passwordKnown, validated⟩ := validated
  split at validated
  · rename_i valid
    cases validated
    simp only [ManagedUser.valid, Bool.and_eq_true] at valid
    have idSame := optionalText_eq_some idKnown
    have passwordSame := optionalText_eq_some passwordKnown
    have canonical (id : String) (known : uuid.map String.toLower = some id) : canonicalUuid id = true := by
      have each := valid.1.2
      rw [known] at each
      exact each
    cases vless : profile.isVless with
    | true =>
      simp only [vless, if_true] at idSame passwordSame ⊢
      exact ⟨⟨canonical, passwordSame.symm⟩, by rw [idSame], rfl⟩
    | false =>
      simp only [vless, Bool.false_eq_true, if_false] at idSame passwordSame ⊢
      have absent : uuid = none := idSame.symm
      subst absent
      exact ⟨⟨canonical, rfl⟩, rfl, passwordSame.symm⟩
  · nomatch validated

theorem Credential.Proper.of_matching {vless : Bool} (proper : credential.Proper vless) (fits : user.Fits vless)
    (matched : credential.matching user = true) :
    user.identity = credential.user.identity ∧ (user.name = credential.user.name → user = credential.user) := by
  obtain ⟨⟨canonical, own⟩, secret⟩ := proper
  obtain ⟨known, kind⟩ := fits
  obtain ⟨⟨name, uuid, password⟩, rawUuid, rawPassword⟩ := credential
  obtain ⟨userName, userUuid, userPassword⟩ := user
  cases vless with
  | true =>
    simp only [if_true] at own secret kind
    obtain ⟨sameUuid, noPassword⟩ := secret
    subst own kind noPassword
    simp only [Credential.matching, Option.isSome_none, Bool.false_and, Bool.or_false, Bool.and_eq_true,
      beq_iff_eq] at matched
    obtain ⟨some, same⟩ := matched
    subst same
    obtain ⟨id, rfl⟩ := Option.isSome_iff_exists.mp some
    have lower : uuid = Option.some id := by
      rw [sameUuid, Option.map_some, canonicalUuid_toLower (known id rfl)]
    subst lower
    exact ⟨rfl, fun same => by cases same; rfl⟩
  | false =>
    simp only [Bool.false_eq_true, if_false] at own secret kind
    obtain ⟨noUuid, samePassword⟩ := secret
    subst own kind noUuid samePassword
    simp only [Credential.matching, Option.isSome_none, Bool.false_and, Bool.false_or, Bool.and_eq_true,
      beq_iff_eq] at matched
    obtain ⟨_, same⟩ := matched
    subst same
    exact ⟨rfl, fun same => by cases same; rfl⟩

end Users

end OpenNode.ManagedProtocols
