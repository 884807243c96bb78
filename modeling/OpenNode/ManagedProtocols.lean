import OpenNode.LimiterConfig
import OpenNode.LifecycleJobs

namespace OpenNode.ManagedProtocols

open OpenNode.NodeLimits (isSpace)
open OpenNode.Lifecycle (isDigit isAlphanumeric matchesSha)

section Texts

/-- `_safe_text`, as a check: all the spaces that `strip` removes beyond `isSpace` are control characters. -/
def safeText (value : String) (maximum : Nat) : Bool :=
  1 ≤ value.length && value.length ≤ maximum &&
    !(value.toList.head?.any isSpace || value.toList.getLast?.any isSpace) &&
    !value.toList.any fun c => c.toNat < 0x20 || c.toNat == 0x7f

/-- `_TAG`. -/
def matchesTag (text : String) : Bool :=
  match text.toList with
  | [] => false
  | first :: rest =>
    isAlphanumeric first && rest.length ≤ 63 && rest.all fun c => isAlphanumeric c || "_.-".toList.contains c

/-- A label of `_HOST`. -/
def matchesLabel (label : List Char) : Bool :=
  label.head?.any isAlphanumeric && label.getLast?.any isAlphanumeric && label.length ≤ 63 &&
    label.all fun c => isAlphanumeric c || c == '-'

/-- `_HOST`, for a text in lower case. -/
def matchesHost (text : String) : Bool :=
  text.length ≤ 253 && (text.toList.splitOn '.').all matchesLabel && !text.toList.any Char.isUpper

/-- `_BASE64URL_KEY`. -/
def matchesKey (text : String) : Bool :=
  text.length == 43 && text.toList.all fun c => isAlphanumeric c || c == '_' || c == '-'

def isHex (c : Char) : Bool := isDigit c || ('a' ≤ c && c ≤ 'f')

/-- `_SHORT_ID`, for a text in lower case. -/
def matchesShortId (text : String) : Bool :=
  2 ≤ text.length && text.length ≤ 16 && text.length % 2 == 0 && text.toList.all isHex

/-- The text of a `UUID`. -/
def canonicalUuid (text : String) : Bool :=
  (text.toList.splitOn '-').map List.length == [8, 4, 4, 4, 12] && text.toList.all fun c => isHex c || c == '-'

/-- The paths that `VlessXhttpServerConfig` accepts. -/
def matchesPath (text : String) : Bool :=
  safeText text 256 && text.toList.head? == some '/' && !text.toList.any ("\\?#".toList.contains ·) &&
    !(text.toList.splitOn '/').any fun part => part == ['.'] || part == ['.', '.']

end Texts

/-- `ip_address`: a literal address. -/
inductive Address where
  | v4 (value : Nat)
  | v6 (value : Nat) (scope : Option String)
deriving DecidableEq, Repr

namespace Address

def version : Address → Nat
  | .v4 _ => 4
  | .v6 .. => 6

def isUnspecified : Address → Bool
  | .v4 value | .v6 value _ => value == 0

end Address

/-- Where something listens; the address may be a text that is no literal address. -/
structure Binding where
  listen : Option Address
  port : Int
deriving DecidableEq, Repr

def bindingsOverlap (left right : Binding) : Bool :=
  if left.port ≠ right.port then false
  else
    match left.listen, right.listen with
    | some a, some b =>
      if a = b then true
      else if a.isUnspecified || b.isUnspecified then a.version == b.version || a.version == 6 || b.version == 6
      else false
    | _, _ => true

/-- The overlaps that `unique_bindings` looks for. -/
def anyOverlap : List Binding → Bool
  | [] => false
  | binding :: rest => rest.any (bindingsOverlap binding) || anyOverlap rest

theorem anyOverlap_eq_false {bindings : List Binding} :
    anyOverlap bindings = false ↔ bindings.Pairwise fun a b => bindingsOverlap a b = false := by
  induction bindings with
  | nil => simp [anyOverlap]
  | cons binding rest ih => simp [anyOverlap, ih]

inductive Profile where
  | vlessRealityVision
  | vlessXhttpRealityXmux
  | anytlsShadowtls
  | mieru
  | socks5
deriving DecidableEq, Repr

/-- `_VLESS_PROFILES`. -/
def Profile.isVless : Profile → Bool
  | .vlessRealityVision | .vlessXhttpRealityXmux => true
  | _ => false

/-- `_LOOPBACK_PROFILES`. -/
def Profile.isLoopback (profile : Profile) : Bool :=
  profile.isVless || profile == .anytlsShadowtls

structure ClientConfig where
  server : Option (String ⊕ Address)
  port : Option Nat
deriving DecidableEq

inductive ServerConfig where
  | vlessRealityVision (sni privateKey shortId : String)
  | vlessXhttpRealityXmux (sni privateKey shortId path : String) (host : Option String)
  | anytlsShadowtls (sni : String)
  | mieru (tcp : Bool)
  | socks5 (udp : Bool)
deriving DecidableEq, Repr

namespace ServerConfig

def profile : ServerConfig → Profile
  | .vlessRealityVision .. => .vlessRealityVision
  | .vlessXhttpRealityXmux .. => .vlessXhttpRealityXmux
  | .anytlsShadowtls _ => .anytlsShadowtls
  | .mieru _ => .mieru
  | .socks5 _ => .socks5

def sni? : ServerConfig → Option String
  | .vlessRealityVision sni _ _ | .vlessXhttpRealityXmux sni _ _ _ _ | .anytlsShadowtls sni => some sni
  | .mieru _ | .socks5 _ => none

def valid : ServerConfig → Bool
  | .vlessRealityVision sni privateKey shortId => matchesHost sni && matchesKey privateKey && matchesShortId shortId
  | .vlessXhttpRealityXmux sni privateKey shortId path host =>
    matchesHost sni && matchesKey privateKey && matchesShortId shortId && matchesPath path && host.all matchesHost
  | .anytlsShadowtls sni => matchesHost sni
  | .mieru _ | .socks5 _ => true

end ServerConfig

structure ManagedUser where
  name : String
  uuid : Option String
  password : Option String
deriving DecidableEq, Repr

namespace ManagedUser

def valid (user : ManagedUser) : Bool :=
  safeText user.name 255 && user.uuid.all canonicalUuid && user.password.all (safeText · 255)

/-- `user.uuid or user.password`. -/
def identity (user : ManagedUser) : Option String :=
  user.uuid <|> user.password

end ManagedUser

structure ManagedListener where
  tag : String
  nodeId : String
  listen : Address
  port : Nat
  enabled : Bool
  clientConfig : ClientConfig
  serverConfig : ServerConfig
  users : List ManagedUser
deriving DecidableEq

namespace ManagedListener

def profile (listener : ManagedListener) : Profile := listener.serverConfig.profile

def binding (listener : ManagedListener) : Binding := ⟨some listener.listen, listener.port⟩

/-- The validators of a `ManagedListener`. -/
def valid (listener : ManagedListener) : Bool :=
  matchesTag listener.tag && canonicalUuid listener.nodeId && 1024 ≤ listener.port && listener.port ≤ 65535 &&
    listener.clientConfig.server.all (fun | .inl host => matchesHost host | .inr _ => true) &&
    listener.clientConfig.port.all (fun port => 1 ≤ port && port ≤ 65535) &&
    listener.users.length ≤ 10000 && listener.users.all ManagedUser.valid && listener.serverConfig.valid &&
    (!listener.profile.isLoopback || listener.listen == .v4 0x7f000001) &&
    listener.users.all (fun user =>
      if listener.profile.isVless then user.uuid.isSome && user.password.isNone
      else user.password.isSome && user.uuid.isNone) &&
    (listener.users.map ManagedUser.name).Nodup && (listener.users.map ManagedUser.identity).Nodup

end ManagedListener

/-- The fields of a `ManagedProtocolsRequest`. -/
structure Declaration where
  revision : String
  listeners : List ManagedListener
deriving DecidableEq

/-- `unique_bindings`, and the validators of the fields. -/
def Declaration.valid (declaration : Declaration) : Bool :=
  matchesSha declaration.revision && declaration.listeners.length ≤ 512 &&
    declaration.listeners.all ManagedListener.valid && (declaration.listeners.map ManagedListener.tag).Nodup &&
    (declaration.listeners.map ManagedListener.nodeId).Nodup &&
    (declaration.listeners.map ManagedListener.binding).Nodup &&
    (declaration.listeners.filterMap fun listener => listener.serverConfig.sni?).Nodup &&
    !anyOverlap (declaration.listeners.map ManagedListener.binding)

structure ManagedProtocolsRequest extends Declaration where
  isValid : toDeclaration.valid = true
deriving DecidableEq

namespace ManagedProtocolsRequest

def modelValidate (declaration : Declaration) : Option ManagedProtocolsRequest :=
  if isValid : declaration.valid then some ⟨declaration, isValid⟩ else none

theorem disjoint (request : ManagedProtocolsRequest) :
    request.listeners.Pairwise fun a b => bindingsOverlap a.binding b.binding = false := by
  have valid := request.isValid
  simp only [Declaration.valid, Bool.and_eq_true, Bool.not_eq_true'] at valid
  exact List.pairwise_map.mp (anyOverlap_eq_false.mp valid.2)

end ManagedProtocolsRequest

section Compilation

/-- What a listener of Mihomo asks of its clients, by its type. -/
inductive MihomoProtocol where
  | vless (users : List (String × Option String × Option String)) (dest privateKey : String)
      (shortIds serverNames : List String) (xhttp : Option (String × String))
  | anytls (users : List (String × Option String)) (shadowTls : List (String × Option String)) (handshake : String)
  | mieru (transport : String) (users : List (String × Option String))
  | socks (udp : Bool) (users : List (String × Option String))
deriving DecidableEq, Repr

/-- The names that can log in. -/
def MihomoProtocol.names : MihomoProtocol → List String
  | .vless users .. => users.map Prod.fst
  | .anytls users .. | .mieru _ users | .socks _ users => users.map Prod.fst

structure MihomoListener where
  name : String
  port : Nat
  listen : Address
  protocol : MihomoProtocol
deriving DecidableEq, Repr

def MihomoListener.binding (listener : MihomoListener) : Binding := ⟨some listener.listen, listener.port⟩

/-- The document of the Mihomo config file. -/
structure MihomoConfig where
  mode : String := "rule"
  logLevel : String := "warning"
  allowLan : Bool := false
  listeners : List MihomoListener
  rules : List String := ["MATCH,DIRECT"]
deriving DecidableEq, Repr

def passwords (users : List ManagedUser) : List (String × Option String) :=
  users.map fun user => (user.name, user.password)

/-- What `_listener` writes beyond the common fields. -/
def mihomoProtocol (users : List ManagedUser) : ServerConfig → MihomoProtocol
  | .vlessRealityVision sni privateKey shortId =>
    .vless (users.map fun user => (user.name, user.uuid, some "xtls-rprx-vision")) (sni ++ ":443")
      privateKey [shortId]
      [sni] none
  | .vlessXhttpRealityXmux sni privateKey shortId path host =>
    .vless (users.map fun user => (user.name, user.uuid, none)) (sni ++ ":443") privateKey [shortId] [sni]
      (some (path, host.getD sni))
  | .anytlsShadowtls sni => .anytls (passwords users) (passwords users) (sni ++ ":443")
  | .mieru tcp => .mieru (if tcp then "TCP" else "UDP") (passwords users)
  | .socks5 udp => .socks udp (passwords users)

/-- `_listener`. -/
def listenerConfig (listener : ManagedListener) : Option MihomoListener :=
  -- An empty account list would be a proxy that anyone can use.
  if !listener.enabled || listener.users.isEmpty then none
  else some ⟨listener.tag, listener.port, listener.listen, mihomoProtocol listener.users listener.serverConfig⟩

def compileConfig (declaration : Declaration) : MihomoConfig where
  listeners := declaration.listeners.filterMap listenerConfig

/-- The config without a declaration. -/
def emptyConfig : MihomoConfig := { listeners := [] }

/-- `active`, of a declaration. -/
def isActive (declaration : Declaration) : Bool := !(compileConfig declaration).listeners.isEmpty

theorem mihomoProtocol_names (users : List ManagedUser) (serverConfig : ServerConfig) :
    (mihomoProtocol users serverConfig).names = users.map ManagedUser.name := by
  cases serverConfig <;> simp [mihomoProtocol, MihomoProtocol.names, passwords]

theorem listenerConfig_eq_some {listener : ManagedListener} {value : MihomoListener}
    (listed : listenerConfig listener = some value) :
    value.protocol.names ≠ [] ∧ value.binding = listener.binding := by
  unfold listenerConfig at listed
  split at listed
  · nomatch listed
  · rename_i used
    cases listed
    rw [mihomoProtocol_names]
    refine ⟨fun none => used ?_, rfl⟩
    rw [List.map_eq_nil_iff.mp none]
    simp

/-- Every listener asks for a user, and no two overlap. -/
structure MihomoConfig.Sound (config : MihomoConfig) : Prop where
  authenticated : ∀ listener ∈ config.listeners, listener.protocol.names ≠ []
  disjoint : config.listeners.Pairwise fun a b => bindingsOverlap a.binding b.binding = false

theorem ManagedProtocolsRequest.sound (request : ManagedProtocolsRequest) :
    (compileConfig request.toDeclaration).Sound where
  authenticated := by
    intro value member
    obtain ⟨listener, _, listed⟩ := List.mem_filterMap.mp member
    exact (listenerConfig_eq_some listed).1
  disjoint := by
    refine List.Pairwise.filterMap listenerConfig ?_ request.disjoint
    intro a b apart left first right second
    rw [(listenerConfig_eq_some first).2, (listenerConfig_eq_some second).2]
    exact apart

theorem emptyConfig_sound : emptyConfig.Sound where
  authenticated := nofun
  disjoint := .nil

end Compilation

section Examples

def socksListener (port : Nat) (name : String) : ManagedListener where
  tag := "managed-0"
  nodeId := "00000000-0000-0000-0000-000000000001"
  listen := .v4 0x7f000001
  port := port
  enabled := true
  clientConfig := ⟨none, none⟩
  serverConfig := .socks5 true
  users := [⟨name, none, some "secret"⟩]

/-- A declaration of one SOCKS5 listener with one user. -/
def socksDeclaration (revision : Char) (port : Nat) (name : String) : Declaration where
  revision := String.ofList (List.replicate 64 revision)
  listeners := [socksListener port name]

def firstRequest : ManagedProtocolsRequest := ⟨socksDeclaration 'a' 2000 "alice", by decide +kernel⟩

end Examples

end OpenNode.ManagedProtocols
