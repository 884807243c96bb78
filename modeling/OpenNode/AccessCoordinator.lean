import OpenNode.AccessCandidate
import OpenNode.Inventory
import OpenNode.Lib.LastWord

namespace OpenNode.AccessCoordinator

open ManagedProtocols
open OpenNode.NodeLimits (Float64 Rule bytesPerSecond)
open OpenNode.NodeLimits.Float64 (ofInt toInt le)

variable {F : Type}

section Records

/-- `ManagedNodeModel`, as far as access and the managed listeners read it. -/
structure Node where
  id : String
  serverId : String
  parentId : Option String := none
  nodeType : String := "physical"
  protocol : String
  inboundTag : Option String := none
  enabled : Bool := true
  removalId : Option String := none
  routedRuleMarktag : Option String := none
  routedOutboundTag : Option String := none
  protocolProfile : Option Profile := none
  runtimePort : Option Nat := none
  runtimeConfig : Json := .null
  config : ClientConfig := ⟨none, none⟩

/-- `SubscriptionPlanModel`. -/
structure Plan (F : Type) where
  id : String
  nodeIds : List String
  trafficLimitBytes : Int := 0
  speedLimitMbps : F
  deviceLimit : Int := 0
  nodeSpeedLimits : List (String × F) := []
  nodeDeviceLimits : List (String × Int) := []
  autoSpeedRules : List (Rule F) := []

/-- `ProductUserModel`, with the traffic that it is charged for. -/
structure User (F : Type) where
  username : String
  currentPlanId : Option String := none
  isActive : Bool := true
  removalId : Option String := none
  planExpiresAt : Option Time := none
  chargedUsageBytes : Int := 0
  trafficLimitOverrideBytes : Option Int := none
  speedLimitOverrideMbps : Option F := none
  deviceLimitOverride : Option Int := none
  nodeSpeedLimitOverrides : List (String × F) := []
  nodeDeviceLimitOverrides : List (String × Int) := []

/-- `PrivateRoutedNodeModel`. -/
structure PrivateRoutedNode where
  id : String
  username : String
  active : Bool

/-- A binding of a row. -/
structure Binding where
  tag : String
  protocol : String
  client : Json
  nodeIds : List String

/-- `SubscriptionAccessModel`, with its user. -/
structure Row (F : Type) where
  user : User F
  serverId : String
  bindings : List Binding
  appliedRevision : Option String := none

/-- `AgentModel`. -/
structure Agent where
  capabilitySubscriptionAccess : Bool
  capabilityNativeLimiter : Bool
  capabilityUserAutoSpeedRules : Bool

/-- A routing selector, without the email of its client. -/
structure Route where
  marktag : Option String
  outboundTag : Option String
deriving DecidableEq, Repr

/-- The limiter data of an entry. -/
structure Limiter (F : Type) where
  inboundTag : String
  email : Json
  speedLimit : Int
  deviceLimit : Int
  connGroup : String
  autoSpeedRules : List (Rule F)

/-- An entry of an access command. -/
structure Entry (F : Type) where
  tag : String
  protocol : String
  client : Json
  enabled : Bool
  routingUserAdditions : List Route
  limiter : Option (Limiter F)

/-- The body of an access command. -/
structure Body (F : Type) where
  revision : String
  entries : List (Entry F)

/-- The digests, and `str` of a value. -/
structure Texts (F : Type) where
  revision : List (Entry F) → String
  connGroup : String → String → String → String
  listenersRevision : List ManagedListener → String
  str : Json → String

/-- The controller as one server's access depends on it. -/
structure Controller (F : Type) where
  now : Time
  serverId : String
  plans : List (Plan F)
  nodes : List Node
  privateNodes : List PrivateRoutedNode := []
  rows : List (Row F)
  agent : Option Agent
  /-- The server is another controller's. -/
  federated : Bool := false
  /-- A removal holds back the command of a row. -/
  withheld : Row F → Bool := fun _ => false

end Records

section Limits

def protocol (value : String) : String :=
  if value = "ss" then "shadowsocks" else if value = "hy2" || value = "hysteria2" then "hysteria" else value

/-- `_resolve`, without the source of the limit. -/
def resolve {V : Type} (userNodes : List (String × V)) (userDefault : Option V) (planNodes : List (String × V))
    (planDefault : V) (node : Node) : V :=
  let keys := node.id :: (node.parentId.filter (· != "")).toList
  ((keys.findSome? (List.lookup · userNodes) <|> userDefault) <|>
    keys.findSome? (List.lookup · planNodes)).getD planDefault

structure EffectiveLimits (F : Type) where
  speedLimitMbps : F
  deviceLimit : Int

variable [Float64 F]

def effectiveLimits (user : User F) (plan : Option (Plan F)) (node : Node) : EffectiveLimits F where
  speedLimitMbps := resolve user.nodeSpeedLimitOverrides user.speedLimitOverrideMbps
    ((plan.map Plan.nodeSpeedLimits).getD []) ((plan.map Plan.speedLimitMbps).getD (ofInt 0)) node
  deviceLimit := resolve user.nodeDeviceLimitOverrides user.deviceLimitOverride
    ((plan.map Plan.nodeDeviceLimits).getD []) ((plan.map Plan.deviceLimit).getD 0) node

/-- `min(values, default=0)`. -/
def least (values : List Int) : Int := values.min?.getD 0

/-- The speed of an entry, in bytes each second. -/
def speedLimit (limits : List (EffectiveLimits F)) : Int :=
  least ((limits.filter fun limit => !(le limit.speedLimitMbps (ofInt 0) && le (ofInt 0) limit.speedLimitMbps)).map
    fun limit => toInt (bytesPerSecond limit.speedLimitMbps))

/-- The devices of an entry. -/
def deviceLimit (limits : List (EffectiveLimits F)) : Int :=
  least ((limits.map EffectiveLimits.deviceLimit).filter (· ≠ 0))

def trafficLimit (user : User F) (plan : Option (Plan F)) : Int :=
  user.trafficLimitOverrideBytes.getD ((plan.map Plan.trafficLimitBytes).getD 0)

end Limits

section Routes

def Node.route (node : Node) : Route where
  marktag := node.routedRuleMarktag.filter (· != "")
  outboundTag := node.routedOutboundTag.filter (· != "")

def Route.selects (route : Route) : Bool :=
  route.marktag.isSome || route.outboundTag.isSome

/-- `routing_user_additions` with the selector of another node. -/
def addRoute (additions : List Route) (node : Node) : List Route :=
  if node.route.selects && !additions.contains node.route then additions ++ [node.route] else additions

def routes (nodes : List Node) : List Route :=
  nodes.foldl addRoute []

theorem addRoute_eq_nil {additions : List Route} {node : Node} :
    addRoute additions node = [] ↔ additions = [] ∧ node.route.selects = false := by
  unfold addRoute
  split
  · rename_i added
    rw [Bool.and_eq_true] at added
    simp [added.1]
  · rename_i kept
    constructor
    · rintro rfl
      simpa using kept
    · exact fun none => none.1

theorem routes_eq_nil {nodes : List Node} : routes nodes = [] ↔ ∀ node ∈ nodes, node.route.selects = false := by
  induction nodes using List.reverseRecOn with
  | nil => simp [routes]
  | append_singleton nodes node ih =>
    rw [routes, List.foldl_append, List.foldl_cons, List.foldl_nil, addRoute_eq_nil, List.forall_mem_append, ← ih,
      List.forall_mem_singleton, routes]

end Routes

section Desired

variable [Float64 F] (texts : Texts F) (c : Controller F)

namespace Controller

def plan? (user : User F) : Option (Plan F) :=
  user.currentPlanId.bind fun id => c.plans.find? fun plan => plan.id == id

def node? (id : String) : Option Node :=
  c.nodes.find? fun node => node.id == id

/-- `_subscription_quota_status`: whether a subscription is available. -/
def available (user : User F) : Bool :=
  let plan := c.plan? user
  let expired := user.planExpiresAt.any fun expires => expires < c.now
  let overQuota := plan.isSome && 0 < trafficLimit user plan && trafficLimit user plan ≤ user.chargedUsageBytes
  user.isActive && user.removalId.isNone && plan.isSome && !expired && !overQuota

def subscriptionNodeAllowed (user : User F) (plan : Option (Plan F)) (id : String) : Bool :=
  match c.privateNodes.find? fun node => node.id == id with
  | some own => own.username == user.username && own.active
  | none => plan.any fun plan => plan.nodeIds.contains id

/-- The nodes for which a binding gives access. -/
def grantedNodes (row : Row F) (binding : Binding) : List Node :=
  if c.available row.user then
    (binding.nodeIds.filterMap c.node?).filter fun node =>
      node.enabled && node.removalId.isNone && c.subscriptionNodeAllowed row.user (c.plan? row.user) node.id &&
        node.serverId == row.serverId && node.inboundTag == some binding.tag && protocol node.protocol ==
          binding.protocol
  else []

def nativeLimiter : Bool := c.agent.any Agent.capabilityNativeLimiter

/-- The limiter data of a binding that is granted for some nodes. -/
def limiter (row : Row F) (binding : Binding) (nodes : List Node) : Option (Limiter F) :=
  let limits := nodes.map (effectiveLimits row.user (c.plan? row.user))
  let rules := ((c.plan? row.user).map Plan.autoSpeedRules).getD []
  if speedLimit limits != 0 || deviceLimit limits != 0 || c.nativeLimiter || !rules.isEmpty then
    some {
      inboundTag := binding.tag
      email := binding.client.get "email"
      speedLimit := speedLimit limits
      deviceLimit := deviceLimit limits
      connGroup := texts.connGroup row.user.username row.serverId binding.tag
      autoSpeedRules := rules }
  else none

/-- The entry of a binding. -/
def entry (row : Row F) (binding : Binding) : Entry F :=
  let nodes := c.grantedNodes row binding
  { tag := binding.tag
    protocol := binding.protocol
    client := binding.client
    enabled := !nodes.isEmpty
    routingUserAdditions := routes nodes
    limiter := if nodes.isEmpty then none else c.limiter texts row binding nodes }

def desired (row : Row F) : Body F :=
  let entries := row.bindings.map (c.entry texts row)
  ⟨texts.revision entries, entries⟩

end Controller

def accessEntries (body : Body F) : Option (List (Entry F)) :=
  if body.entries.isEmpty || body.revision ≠ texts.revision body.entries then none else some body.entries

/-- `can_lease`, for the access command that is built for a row now. -/
def Controller.canLease (row : Row F) : Bool :=
  !c.withheld row &&
    match accessEntries texts (c.desired texts row) with
    | none => false
    | some entries =>
      c.federated ||
        match c.agent with
        | none => false
        | some agent =>
          agent.capabilitySubscriptionAccess &&
            (agent.capabilityNativeLimiter || entries.all fun entry => entry.limiter.isNone) &&
            (agent.capabilityUserAutoSpeedRules || entries.all fun entry => entry.limiter.all fun limit =>
              limit.autoSpeedRules.isEmpty)

/-- The access of a row is applied as it is desired. -/
def Controller.atDesired (row : Row F) : Bool :=
  row.appliedRevision == some (c.desired texts row).revision

/-- A routing selector as the Agent reads it. -/
def Route.toJson (email : Json) (route : Route) : Json :=
  .obj (("user_email", email) :: (route.marktag.toList.map fun tag => ("marktag", Json.str tag)) ++
    route.outboundTag.toList.map fun tag => ("outbound_tag", Json.str tag))

/-- An entry as the Agent reads it. -/
def Entry.toAccess (entry : Entry F) : AccessEntry where
  tag := entry.tag
  protocol := entry.protocol
  client := entry.client
  enabled := entry.enabled
  routingUserAdditions := entry.routingUserAdditions.map (Route.toJson (entry.client.get "email"))
  limiter := entry.limiter.map fun limit => ⟨limit.inboundTag, (limit.email.str?).getD ""⟩

end Desired

section Snapshots

/-- The text of a UUID in one of its forms. -/
def parseUuid (text : String) : Option String :=
  let canonical (chars : List Char) :=
    let lower := (String.ofList chars).toLower
    if canonicalUuid lower then some lower else none
  let chars := text.toList
  if chars.length = 32 then
    let part (start count : Nat) := (chars.drop start).take count
    canonical (part 0 8 ++ '-' :: part 8 4 ++ '-' :: part 12 4 ++ '-' :: part 16 4 ++ '-' :: part 20 12)
  else if chars.length = 38 && chars.head? == some '{' &&
    chars.getLast? == some '}' then canonical (chars.tail.dropLast)
  else if chars.length = 45 && "urn:uuid:".toList.isPrefixOf chars then canonical (chars.drop 9)
  else canonical chars

/-- A user as `_users_by_tag` writes it. -/
structure Draft where
  name : String
  uuid : Json := .null
  password : Json := .null

/-- The user of a client. -/
def draftUser (texts : Texts F) (username : String) (client : Json) : Draft :=
  let name := texts.str (orElse (client.get "email") (.str username))
  if (client.get "id").truthy then { name, uuid := client.get "id" }
  else if (client.get "password").truthy then
    { name := texts.str (orElse (client.get "username") (.str name)), password := client.get "password" }
  else if (client.get "pass").truthy then
    { name := texts.str (orElse (client.get "user") (.str name)), password := client.get "pass" }
  else { name }

/-- `ManagedProtocolUser.model_validate`. -/
def Draft.modelValidate (draft : Draft) : Option ManagedUser := do
  let uuid ← optionalText draft.uuid
  let password ← optionalText draft.password
  let uuid ← match uuid with
    | none => some none
    | some text => (parseUuid text).map some
  if 1 ≤ draft.name.length && draft.name.length ≤ 255 && password.all fun text => 1 ≤ text.length &&
    text.length ≤ 512 then
    some ⟨draft.name, uuid, password⟩
  else none

/-- The server config of a profile, where `runtime_config` has what it needs. -/
def serverConfig (profile : Profile) (runtime : Json) : Option ServerConfig :=
  let text (key : String) := (runtime.get key).str?
  match profile with
  | .vlessRealityVision => do
    return .vlessRealityVision (← text "sni") (← text "reality_private_key") (← text "reality_short_id")
  | .vlessXhttpRealityXmux => do
    return .vlessXhttpRealityXmux (← text "sni") (← text "reality_private_key") (← text "reality_short_id")
      (← text "xhttp_path") (← (runtime.find? "xhttp_host").bind optionalText)
  | .anytlsShadowtls => do return .anytlsShadowtls (← text "sni")
  | .mieru =>
    match ((runtime.find? "transport").getD (.str "TCP")).str? with
    | some "TCP" => some (.mieru true)
    | some "UDP" => some (.mieru false)
    | _ => none
  | .socks5 => some (.socks5 true)

variable [Float64 F] (texts : Texts F) (c : Controller F)

namespace Controller

/-- The bindings at a tag that are granted, with the users they belong to. -/
def grantedAt (tag : String) : List (Row F × Binding) :=
  (c.rows.flatMap fun row => row.bindings.map fun binding => (row, binding)).filter fun item =>
    item.2.tag == tag && !(c.grantedNodes item.1 item.2).isEmpty

/-- `_users_by_tag`, at a tag: of the users of one name, the last is kept. -/
def usersByTag (tag : String) : List Draft :=
  (LastWord.byKey Draft.name ((c.grantedAt tag).map fun item =>
    draftUser texts item.1.user.username item.2.client)).map Prod.snd

/-- The nodes that a snapshot is made of. -/
def managedNodes : List Node :=
  c.nodes.filter fun node =>
    node.serverId == c.serverId && node.protocolProfile.isSome && node.nodeType == "physical" &&
      node.removalId.isNone

/-- The listener of a node. -/
def listener (node : Node) : Option ManagedListener := do
  let profile ← node.protocolProfile
  let port ← node.runtimePort.filter (· ≠ 0)
  let tag ← node.inboundTag.filter (· ≠ "")
  let serverConfig ← serverConfig profile node.runtimeConfig
  let users ← (c.usersByTag texts tag).mapM Draft.modelValidate
  if matchesTag tag && 1024 ≤ port && port ≤ 65535 && users.length ≤ 10000 then
    some {
      tag
      nodeId := node.id
      listen := if profile.isLoopback then .v4 0x7f000001 else .v4 0
      port
      enabled := node.enabled
      clientConfig := node.config
      serverConfig
      users }
  else none

def snapshot : Option Declaration := do
  let listeners ← c.managedNodes.mapM (c.listener texts)
  if listeners.length ≤ 512 then some ⟨texts.listenersRevision listeners, listeners⟩ else none

end Controller

end Snapshots

end OpenNode.AccessCoordinator
