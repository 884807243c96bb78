import OpenNode.Lib.Edits
import OpenNode.Lib.GraphSearch

namespace OpenNode.ServerEgress

open Edits

/-- A field of a document as the code sees it: missing or `null`, a value of
another kind (with its truth), or a value of the kind expected. -/
inductive Field (α : Type) where
  | absent
  | malformed (truthy : Bool)
  | value (a : α)
deriving DecidableEq

/-- A user of an inbound; `none` where the entry has no text for an email. -/
structure Client where
  email : Option String
  credential : String
deriving DecidableEq

/-- An inbound; an entry that is no object has no tag and no settings. The
settings are the arrays of users by their key, `none` where the value is no array. -/
structure Inbound where
  tag : Option String
  protocol : String
  settings : Option (List (String × Option (List Client)))
deriving DecidableEq

structure Outbound where
  tag : Option String
  body : String
deriving DecidableEq

/-- The `inboundTag` of a rule: an entry that is no text is `none`. -/
inductive InboundSelector where
  | absent
  | other
  | tags (entries : List (Option String))
deriving DecidableEq

structure Rule where
  marktag : Option String := none
  outboundTag : Option String := none
  inboundTag : InboundSelector := .absent
  conditions : List (String × List String) := []
deriving DecidableEq

/-- A balancer; its selector is `none` where it is neither a text nor an array of texts. -/
structure Balancer where
  fallbackTag : Field String
  selector : Option (List String)
deriving DecidableEq

/-- The routing object: `none` for an array that is none, and inside the arrays
for an entry that is no object. -/
structure Routing where
  rules : Option (List (Option Rule)) := some []
  balancers : Option (List (Option Balancer)) := some []
deriving DecidableEq

/-- An Xray configuration; `sniffing` stands for the `domainsExcluded` of all
inbounds together with the ownership state kept beside them. -/
structure XrayConfig where
  inbounds : Option (List Inbound)
  outbounds : Option (List Outbound)
  routing : Field Routing := .absent
  observatory : Option String := none
  burstObservatory : Option String := none
  sniffing : String := ""
deriving DecidableEq

abbrev ServerId := String
abbrev NodeId := String

structure ManagedNode where
  id : NodeId
  serverId : ServerId
  inboundTag : Option String
  protocol : String
  physical : Bool := true
  enabled : Bool := true
  removing : Bool := false
  hasConfig : Bool := true
deriving DecidableEq

/-- `model_fields_set` with the value of a field: left alone, removed or set. -/
inductive Update (α : Type) where
  | keep
  | remove
  | set (a : α)

structure ServerEgressRoutingSelector where
  domains : List String := []
  ips : List String := []
  inboundTags : List String := []
  users : List String := []
  protocols : List String := []
  port : Option String := none
  network : Option String := none

structure ServerEgressApplyRequest where
  targetNodeId : NodeId
  promoteToDefault : Bool := false
  routing : Update ServerEgressRoutingSelector := .keep
  observatory : Update String := .keep
  burstObservatory : Update String := .keep
  pinnedPeerCertSha256 : Option String := none

/-- The control plane: its inventory, the material that it generates for an
egress (the client and the outbound with its TLS pin), the domains it reads
off an outbound and the sniffing state that it derives from them. -/
structure ControlPlane where
  servers : List ServerId
  nodes : List ManagedNode
  federated : ServerId → Bool
  material : ServerId → ManagedNode → Option String → Except String (Client × String)
  realityDomains : String → List String
  sniffing : XrayConfig → String → List String → List String → Except String String

section Entries

/-- `_protocol`. -/
def protocolOf (value : String) : String :=
  let trimmed := ((value.toList.dropWhile Char.isWhitespace).reverse.dropWhile Char.isWhitespace).reverse
  match String.ofList (trimmed.map Char.toLower) with
  | "ss" => "shadowsocks"
  | "hy2" | "hysteria2" => "hysteria"
  | "socks5" => "socks"
  | normalized => normalized

/-- `CLIENT_CONTAINERS`, whose keys are `SUPPORTED_PROTOCOLS`. -/
def clientContainer : String → Option String
  | "vless" | "vmess" | "trojan" | "shadowsocks" | "hysteria" => some "clients"
  | "anytls" | "snell" => some "users"
  | "socks" | "http" => some "accounts"
  | _ => none

/-- The first twelve digits of an id without its hyphens. -/
def short (id : String) : String :=
  String.ofList ((id.toList.filter (· != '-')).take 12)

def outboundTag (source : ServerId) (target : NodeId) : String :=
  "managed-egress:" ++ short source ++ ":" ++ short target

def marktag (source : ServerId) (target : NodeId) : String :=
  "managed-egress-rule:" ++ short source ++ ":" ++ short target

def clientEmail (source : ServerId) (target : NodeId) : String :=
  "open_node_egress__" ++ short source ++ "__" ++ short target

/-- The entries of an array that carry a key, with their places. -/
def matching {α : Type} (keyOf : α → Option String) (key : String) (entries : List α) : List (α × Nat) :=
  entries.zipIdx.filter fun entry => keyOf entry.1 == some key

/-- The body of `_tagged` and `_rule_index`. -/
def only {α : Type} (keyOf : α → Option String) (array duplicated : String) (entries : Option (List α))
    (key : String) :
    Except String (Option (α × Nat)) :=
  match entries with
  | none => .error array
  | some entries =>
    match matching keyOf key entries with
    | [] => .ok none
    | [entry] => .ok (some entry)
    | _ => .error duplicated

/-- `_tagged` of inbounds and of outbounds. -/
def tagged {α : Type} (tagOf : α → Option String) (entries : Option (List α)) (tag kind : String) :
    Except String (Option (α × Nat)) :=
  only tagOf s!"Xray {kind} must be an array" s!"Xray {kind} tag {tag} is duplicated" entries tag

/-- `entries.pop(index)` where an entry was found. -/
def popped {α : Type} (entries : List α) : Option (α × Nat) → List α
  | some (_, index) => entries.eraseIdx index
  | none => entries

def ruleMark (rule : Option Rule) : Option String :=
  rule.bind Rule.marktag

def ruleIndex (rules : Option (List (Option Rule))) (mark : String) : Except String (Option (Option Rule × Nat)) :=
  only ruleMark "Xray routing rules must be an array" s!"Xray routing marktag {mark} is duplicated" rules mark

/-- The routing of `config.get("routing") or {}`. -/
def routingOf (config : XrayConfig) : Except String Routing :=
  match config.routing with
  | .absent | .malformed false => .ok {}
  | .malformed true => .error "Xray routing must be an object"
  | .value routing => .ok routing

def array {α : Type} (error : String) : Option (List α) → Except String (List α)
  | some entries => .ok entries
  | none => .error error

/-- The rules of the routing, those entries that are objects. -/
def rulesOf (config : XrayConfig) : Except String (List Rule) := do
  let routing ← routingOf config
  let rules ← array "Xray routing rules must be an array" routing.rules
  return rules.filterMap id

/-- Whether the first outbound has a tag. -/
def isDefault (config : XrayConfig) (tag : String) : Bool :=
  match config.outbounds with
  | some (outbound :: _) => outbound.tag == some tag
  | _ => false

end Entries

section Routes

/-- The tags of the inbounds, `none` where an entry has none. -/
def inboundTags (config : XrayConfig) : Option (List (Option String)) :=
  config.inbounds.map (·.map Inbound.tag)

def collectTags : List (Option String) → List String → Except String (List String)
  | [], tags => .ok tags
  | none :: entries, tags => collectTags entries tags
  | some tag :: entries, tags =>
    if tag = "" then collectTags entries tags
    else if tag ∈ tags then .error s!"Xray inbounds tag {tag} is duplicated"
    else collectTags entries (tags ++ [tag])

def allInboundTags (inbounds : Option (List (Option String))) : Except String (List String) := do
  collectTags (← array "Xray inbounds must be an array" inbounds) []

/-- The entries of an `inboundTag` array when all are tags. -/
def selectorTags : List (Option String) → Option (List String)
  | [] => some []
  | none :: _ => none
  | some tag :: entries => if tag = "" then none else (selectorTags entries).map (tag :: ·)

/-- The loop over the tags of one rule. -/
def addSelected (inbounds : Option (List (Option String))) : List String → List String → Except String (List String)
  | [], selected => .ok selected
  | tag :: tags, selected => do
    match ← tagged id inbounds tag "inbounds" with
    | none => .error s!"Source inbound {tag} is absent from the current snapshot"
    | some _ => addSelected inbounds tags (if tag ∈ selected then selected else selected ++ [tag])

/-- The loop over the rules that lead to an outbound. -/
def selectInbounds (inbounds : Option (List (Option String))) (allTags : List String) :
    List Rule → List String → Except String (List String)
  | [], selected => .ok selected
  | rule :: rules, selected =>
    match rule.inboundTag with
    | .absent => .ok allTags
    | .other => .error "Xray routing inboundTag must be an array of tags"
    | .tags entries =>
      match selectorTags entries with
      | none => .error "Xray routing inboundTag must be an array of tags"
      | some tags => do selectInbounds inbounds allTags rules (← addSelected inbounds tags selected)

/-- The rules that lead to an outbound. -/
def rulesTo (tag : String) (rules : List Rule) : List Rule :=
  rules.filter fun rule => rule.outboundTag == some tag

def relatedSourceInbounds (config : XrayConfig) (tag : String) : Except String (List String) := do
  let allTags ← allInboundTags (inboundTags config)
  let _ ← array "Xray outbounds must be an array" config.outbounds
  if isDefault config tag then return allTags
  selectInbounds (inboundTags config) allTags (rulesTo tag (← rulesOf config)) []

/-- The loop of `_assert_same_server_route_is_safe`. -/
def sameServerRulesSafe (targetInbound : String) : List Rule → Except String Unit
  | [] => .ok ()
  | rule :: rules =>
    match rule.inboundTag with
    | .tags (entry :: entries) =>
      if some targetInbound ∈ entry :: entries then
        .error "A same-server managed egress cannot route its target inbound back to itself"
      else sameServerRulesSafe targetInbound rules
    | _ => .error "A same-server managed egress rule must select explicit source inbounds"

/-- `_assert_same_server_route_is_safe`; routing that is no object has no rules here. -/
def assertSameServerRouteIsSafe (config : XrayConfig) (tag targetInbound : String) : Except String Unit :=
  if isDefault config tag then .error "A same-server managed egress cannot be promoted to the default outbound"
  else
    match config.routing with
    | .value routing => do
      let rules ← array "Xray routing rules must be an array" routing.rules
      sameServerRulesSafe targetInbound (rulesTo tag (rules.filterMap id))
    | _ => .ok ()

/-- The check of `_prepare`, made when source and target are one server. -/
def assertSameServer (same : Prop) [Decidable same] (config : XrayConfig) (tag targetInbound : String) :
    Except String Unit :=
  if same then assertSameServerRouteIsSafe config tag targetInbound else .ok ()

/-- The body of `_assert_managed_outbound_not_balanced` for one balancer. -/
def balancerSpares (tag : String) : Option Balancer → Except String Unit
  | none => .error "Xray routing balancers must contain objects"
  | some balancer =>
    match balancer.fallbackTag, balancer.selector with
    | .malformed _, _ => .error "Xray balancer fallbackTag must be a string"
    | _, none => .error "Xray balancer selector must be a string or array"
    | fallback, some selectors =>
      if "" ∈ selectors then .error "Xray balancer selectors must not be empty"
      else if fallback = .value tag ∨ selectors.any fun selector => selector.toList.isPrefixOf tag.toList then
        .error "Managed egress outbounds cannot be selected by an Xray balancer or fallback"
      else .ok ()

def balancersSpare (tag : String) : List (Option Balancer) → Except String Unit
  | [] => .ok ()
  | balancer :: balancers => do
    balancerSpares tag balancer
    balancersSpare tag balancers

def assertManagedOutboundNotBalanced (config : XrayConfig) (tag : String) : Except String Unit := do
  let routing ← routingOf config
  balancersSpare tag (← array "Xray routing balancers must be an array" routing.balancers)

abbrev Vertex := ServerId × String

/-- The edges that one configuration gives one node in `_managed_route_graph`. -/
def managedEdges (source : ServerId) (config : XrayConfig) (node : ManagedNode) :
    Except String (List (Vertex × Vertex)) :=
  match node.physical, node.inboundTag with
  | true, some target => do
    let tag := outboundTag source node.id
    match ← tagged Outbound.tag config.outbounds tag "outbounds" with
    | none => return []
    | some _ =>
      assertManagedOutboundNotBalanced config tag
      let inbounds ← relatedSourceInbounds config tag
      return inbounds.map fun inbound => ((source, inbound), (node.serverId, target))
  | _, _ => .ok []

/-- The edges of the server that changes: here a conflict is raised. -/
def sourceEdges (source : ServerId) (config : XrayConfig) : List ManagedNode →
    Except String (List (Vertex × Vertex))
  | [] => .ok []
  | node :: nodes => do
    let edges ← managedEdges source config node
    return edges ++ (← sourceEdges source config nodes)

/-- The edges of another server: a conflict leaves the node out. -/
def savedEdges (server : ServerId) (config : XrayConfig) (nodes : List ManagedNode) : List (Vertex × Vertex) :=
  nodes.flatMap fun node => ((managedEdges server config node).toOption).getD []

/-- The snapshots that a change reads. -/
abbrev Snapshots := ServerId → Option XrayConfig

def managedRouteGraph (plane : ControlPlane) (snapshots : Snapshots) (source : ServerId) (candidate : XrayConfig) :
    Except String (List (Vertex × Vertex)) := do
  let own ← sourceEdges source candidate plane.nodes
  let others := (plane.servers.filter (· != source)).flatMap fun server =>
    match snapshots server with
    | none => []
    | some config => savedEdges server config plane.nodes
  return own ++ others

def assertManagedRouteIsAcyclic (plane : ControlPlane) (snapshots : Snapshots) (source : ServerId)
    (candidate : XrayConfig) (sourceInbounds : List String) (target : Vertex) : Except String Unit := do
  let graph ← managedRouteGraph plane snapshots source candidate
  require (∀ inbound ∈ sourceInbounds, GraphSearch.reaches graph target (source, inbound) = false)
    "The managed egress route would create a direct managed-egress cycle"

end Routes

section Mutations

/-- The array of users of an inbound under a key. -/
def clientsOf (settings : List (String × Option (List Client))) (container : String) :
    Except String (List Client) :=
  array "Target inbound clients are invalid" ((settings.lookup container).getD (some []))

/-- The inbound of a node with its settings and the container of its protocol. -/
def targetInbound (config : XrayConfig) (inboundTag : String) :
    Except String (Inbound × Nat) := do
  match ← tagged Inbound.tag config.inbounds inboundTag "inbounds" with
  | none => .error s!"Target inbound {inboundTag} is absent from the current snapshot"
  | some found => return found

def settingsOf (inbound : Inbound) : Except String (List (String × Option (List Client))) :=
  match inbound.settings with
  | some settings => .ok settings
  | none => .error "Target inbound settings are invalid"

/-- The place of the user of an egress. -/
def clientIndex (clients : List Client) (email : String) : Except String (Option (Client × Nat)) :=
  only Client.email "" "Target egress client identity is duplicated" (some clients) email

def existingClient (config : XrayConfig) (inboundTag protocol container email : String) :
    Except String (Option Client) := do
  let (inbound, _) ← targetInbound config inboundTag
  require (protocolOf inbound.protocol = protocol) "Target inbound protocol no longer matches the managed node"
  let clients ← clientsOf (← settingsOf inbound) container
  return (← clientIndex clients email).map Prod.fst

/-- The users with the user of an egress taken out or put in its place. -/
def replaceClient (clients : List Client) (found : Option (Client × Nat)) (client : Option Client) : List Client :=
  let others := popped clients found
  let place := match found with
    | some (_, index) => index
    | none => others.length
  match client with
  | some client => others.insertIdx place client
  | none => others

/-- `d[key] = value`. -/
def putClients (container : String) (clients : List Client) :
    List (String × Option (List Client)) → List (String × Option (List Client))
  | [] => [(container, some clients)]
  | entry :: entries =>
    if entry.1 = container then (container, some clients) :: entries
      else entry :: putClients container clients entries

def mutatedTargetClient (config : XrayConfig) (inboundTag container email : String) (client : Option Client) :
    Except String XrayConfig := do
  let (inbound, index) ← targetInbound config inboundTag
  let settings ← settingsOf inbound
  let clients ← clientsOf settings container
  let found ← clientIndex clients email
  let changed := { inbound with settings := some (putClients container
    (replaceClient clients found client) settings) }
  return { config with inbounds := config.inbounds.map (·.set index changed) }

def routingRule (selector : ServerEgressRoutingSelector) (tag mark : String) : Rule where
  marktag := some mark
  outboundTag := some tag
  inboundTag := if selector.inboundTags = [] then .absent else .tags (selector.inboundTags.map some)
  conditions :=
    ([("domain", selector.domains), ("ip", selector.ips), ("user", selector.users),
      ("protocol", selector.protocols)].filter
      fun condition => !condition.2.isEmpty) ++
    (selector.port.toList.map fun port => ("port", [port])) ++
    (selector.network.toList.map fun network => ("network", [network]))

def routingPriority (rule : Rule) : Int :=
  let outboundTag := rule.outboundTag.getD ""
  let mark := rule.marktag.getD ""
  if outboundTag = "nginx" then -1
  else if "tunnel-".toList.isPrefixOf outboundTag.toList then 0
  else if "routed:".toList.isPrefixOf mark.toList then if (mark.toList.filter (· = ':')).length = 3 then 1 else 2
  else if "managed-egress-rule:".toList.isPrefixOf mark.toList then 2
  else if mark = "home_broadband_warp" ∨ mark = "speedtest_warp" then 3
  else 4

/-- The place of a new rule before those of its priority or a later one. -/
def insertPlace (rules : List (Option Rule)) (rule : Rule) : Nat :=
  rules.findIdx fun existing => existing.any fun existing =>
    decide (routingPriority rule ≤ routingPriority existing)

/-- The outbounds of `_mutated_source`. -/
def mutatedOutbounds (outbounds : List Outbound) (old : Option (Outbound × Nat)) (outbound : Outbound)
    (promote : Bool) :
    List Outbound :=
  let others := popped outbounds old
  if promote then outbound :: others
  else
    match old with
    | none => others ++ [outbound]
    | some (_, index) => others.insertIdx (min index others.length) outbound

/-- The rules of `_mutated_source`. -/
def mutatedRules (rules : List (Option Rule)) (old : Option (Option Rule × Nat)) (tag mark : String) :
    Update ServerEgressRoutingSelector → List (Option Rule)
  | .keep => rules
  | .remove => popped rules old
  | .set selector =>
    let rule := routingRule selector tag mark
    let place := match old with
      | some (_, index) => min index (popped rules old).length
      | none => insertPlace rules rule
    (popped rules old).insertIdx place (some rule)

def Update.apply {α : Type} (update : Update α) (old : Option α) : Option α :=
  match update with
  | .keep => old
  | .remove => none
  | .set a => some a

/-- The routing of `candidate.get("routing")`, with `{}` only for a missing one. -/
def candidateRouting (config : XrayConfig) : Except String Routing :=
  match config.routing with
  | .absent => .ok {}
  | .malformed _ => .error "Xray routing must be an object"
  | .value routing => .ok routing

/-- The routing that `_mutated_source` leaves. -/
def writtenRouting (config : XrayConfig) (routing : Routing) (rules : List (Option Rule)) :
    Update ServerEgressRoutingSelector → Field Routing
  | .set _ => .value { routing with rules := some rules }
  | _ => if config.routing = .absent then .absent else .value { routing with rules := some rules }

def mutatedSource (config : XrayConfig) (body tag mark : String) (payload : ServerEgressApplyRequest) :
    Except String XrayConfig := do
  let old ← tagged Outbound.tag config.outbounds tag "outbounds"
  let outbounds ← array s!"Xray outbounds must be an array" config.outbounds
  let routing ← candidateRouting config
  let oldRule ← ruleIndex routing.rules mark
  let rules ← array "Xray routing rules must be an array" routing.rules
  return { config with
    outbounds := some (mutatedOutbounds outbounds old ⟨some tag, body⟩ payload.promoteToDefault)
    routing := writtenRouting config routing (mutatedRules rules oldRule tag mark payload.routing) payload.routing
    observatory := payload.observatory.apply config.observatory
    burstObservatory := payload.burstObservatory.apply config.burstObservatory }

end Mutations

section Changes

/-- A guarded write of an Agent's configuration. -/
structure Command where
  server : ServerId
  expected : XrayConfig
  candidate : XrayConfig

def Command.inverse (command : Command) : Command where
  server := command.server
  expected := command.candidate
  candidate := command.expected

/-- What `_prepare` and `_prepare_remove` hand over: the write of the source
with that of the target, if there is one. -/
structure Prepared where
  sourceStep : Command
  targetStep : Option Command

/-- `_snapshot`. -/
def snapshotOf (snapshots : Snapshots) (server : ServerId) : Except String XrayConfig :=
  match snapshots server with
  | some config => .ok config
  | none => .error s!"Server {server} needs a current Xray configuration snapshot"

def ControlPlane.server (plane : ControlPlane) (server : ServerId) : Except String Unit := do
  require (server ∈ plane.servers) s!"server not found: {server}"
  require (plane.federated server = false) "Federated servers cannot participate in managed egress changes"

def ControlPlane.node (plane : ControlPlane) (id : NodeId) : Except String ManagedNode :=
  match plane.nodes.find? (·.id == id) with
  | some node => .ok node
  | none => .error s!"managed node not found: {id}"

def ControlPlane.unavailableReason (plane : ControlPlane) (node : ManagedNode) : Option String :=
  if !node.physical then some "Only physical managed nodes can be used as an egress"
  else if !node.enabled || node.removing then some "The managed node is disabled or being removed"
  else if node.serverId ∉ plane.servers then some "The managed node points to a missing server"
  else if plane.federated node.serverId then some "Federated servers cannot participate in managed egress changes"
  else if node.inboundTag.isNone || !node.hasConfig then
    some "The managed node lacks an authenticated inbound or proxy config"
  else if (clientContainer (protocolOf node.protocol)).isNone then
    some "The managed node protocol cannot be converted to an Xray outbound"
  else none

/-- The inbound tag of a node and the container of its users. -/
def identityOf (node : ManagedNode) : Except String (String × String) :=
  match node.inboundTag, clientContainer (protocolOf node.protocol) with
  | some inboundTag, some container => .ok (inboundTag, container)
  | _, _ => .error "The target runtime identity is incomplete"

/-- `if reason: raise`. -/
def refuse : Option String → Except String Unit
  | some error => .error error
  | none => .ok ()

def prepare (plane : ControlPlane) (snapshots : Snapshots) (source : ServerId)
    (payload : ServerEgressApplyRequest) :
    Except String Prepared := do
  plane.server source
  let target ← plane.node payload.targetNodeId
  refuse (plane.unavailableReason target)
  let (targetTag, container) ← identityOf target
  let sourceConfig ← snapshotOf snapshots source
  let targetConfig ← snapshotOf snapshots target.serverId
  let tag := outboundTag source target.id
  let email := clientEmail source target.id
  let _ ← existingClient targetConfig targetTag (protocolOf target.protocol) container email
  let (client, body) ← plane.material source target payload.pinnedPeerCertSha256
  let clientCandidate ← mutatedTargetClient targetConfig targetTag container email (some client)
  let candidate ← mutatedSource (if source = target.serverId then clientCandidate else sourceConfig) body tag
    (marktag source target.id) payload
  assertManagedOutboundNotBalanced candidate tag
  assertSameServer (source = target.serverId) candidate tag targetTag
  let related ← relatedSourceInbounds candidate tag
  assertManagedRouteIsAcyclic plane snapshots source candidate related (target.serverId, targetTag)
  let sniffing ← plane.sniffing candidate tag (plane.realityDomains body) related
  return {
    sourceStep := ⟨source, sourceConfig, { candidate with sniffing := sniffing }⟩
    targetStep :=
      if source = target.serverId then none else some ⟨target.serverId, targetConfig, clientCandidate⟩ }

/-- The source of `_prepare_remove` without the outbound and the rule of an egress. -/
def withoutEgress (config : XrayConfig) (tag mark : String) (connected : Bool) : Except String XrayConfig := do
  let old ← tagged Outbound.tag config.outbounds tag "outbounds"
  let outbounds ← array "Xray outbounds must be an array" config.outbounds
  let routing ← routingOf config
  let oldRule ← ruleIndex routing.rules mark
  let rules ← array "Xray routing rules must be an array" routing.rules
  let others := popped outbounds old
  require (old.isSome ∨ oldRule.isSome ∨ connected) "The selected managed egress is not configured"
  require (old = none ∨ others ≠ []) "Disconnecting this egress would leave Xray without an outbound"
  return { config with
    outbounds := some others
    routing := match config.routing with
      | .value routing => .value { routing with rules := some (popped rules oldRule) }
      | unchanged => unchanged }

def prepareRemove (plane : ControlPlane) (snapshots : Snapshots) (source : ServerId) (targetNode : NodeId) :
    Except String Prepared := do
  plane.server source
  let target ← plane.node targetNode
  require (target.serverId ∈ plane.servers) "The target runtime identity is incomplete"
  let (targetTag, container) ← identityOf target
  plane.server target.serverId
  let sourceConfig ← snapshotOf snapshots source
  let targetConfig ← snapshotOf snapshots target.serverId
  let tag := outboundTag source target.id
  let email := clientEmail source target.id
  let oldClient ← existingClient targetConfig targetTag (protocolOf target.protocol) container email
  let candidate ← withoutEgress sourceConfig tag (marktag source target.id) oldClient.isSome
  let sniffing ← plane.sniffing candidate tag [] []
  let candidate := { candidate with sniffing := sniffing }
  let targetCandidate ←
    mutatedTargetClient (if source = target.serverId then candidate else targetConfig) targetTag
      container email none
  return {
    sourceStep := ⟨source, sourceConfig, if source = target.serverId then targetCandidate else candidate⟩
    targetStep :=
      if source ≠ target.serverId ∧ oldClient.isSome then some ⟨target.serverId, targetConfig, targetCandidate⟩
      else none }

end Changes

section Runs

/-- A request that became a change set; the snapshots it was prepared from and
the configurations that its write of the source found are ghosts. -/
structure Change where
  removal : Bool
  node : NodeId
  prepared : Prepared
  base : Snapshots
  before : Option (ServerId → XrayConfig) := none

structure System where
  configs : ServerId → XrayConfig
  snapshots : Snapshots
  changes : List Change := []

/-- The two steps of a change set. -/
inductive Part where
  | source
  | target

inductive Action where
  | refresh (server : ServerId)
  | apply (server : ServerId) (payload : ServerEgressApplyRequest)
  | remove (server : ServerId) (node : NodeId)
  | forward (change : Nat) (part : Part) (accepted : Bool)
  | rollback (change : Nat) (part : Part) (accepted : Bool)

/-- `/api/child/egress/apply` of the Agent: the candidate is written only over
the expected configuration. A rollback that finds the managed state elsewhere
leaves the file alone, as a refusal does. -/
def Command.writes (command : Command) (current : XrayConfig) : Bool :=
  current != command.candidate && current == command.expected

def Prepared.command (prepared : Prepared) : Part → Option Command
  | .source => some prepared.sourceStep
  | .target => prepared.targetStep

/-- The configurations after a guarded write; `accepted` is false where a
check of the Agent or the restart of Xray turns the write down. -/
def Command.execute (command : Command) (accepted : Bool) (configs : ServerId → XrayConfig) : ServerId →
    XrayConfig :=
  if accepted && command.writes (configs command.server) then Function.update configs command.server
    command.candidate
  else configs

/-- What a change remembers of its forward command. -/
def Change.executed (change : Change) (part : Part) (accepted : Bool) (configs : ServerId → XrayConfig) : Change :=
  match part with
  | .source =>
    if accepted && change.prepared.sourceStep.writes (configs change.prepared.sourceStep.server) then
      { change with before := some configs }
    else change
  | .target => change

/-- The command of a change for one of its parts. -/
def System.command (s : System) (change : Nat) (part : Part) : Option (Change × Command) := do
  let change ← s.changes[change]?
  let command ← change.prepared.command part
  return (change, command)

def System.step (plane : ControlPlane) (s : System) : Action → System
  | .refresh server => { s with snapshots := Function.update s.snapshots server (some (s.configs server)) }
  | .apply server payload =>
    match prepare plane s.snapshots server payload with
    | .ok prepared => { s with changes := s.changes ++
        [⟨false, payload.targetNodeId, prepared, s.snapshots, none⟩] }
    | .error _ => s
  | .remove server node =>
    match prepareRemove plane s.snapshots server node with
    | .ok prepared => { s with changes := s.changes ++ [⟨true, node, prepared, s.snapshots, none⟩] }
    | .error _ => s
  | .forward index part accepted =>
    match s.command index part with
    | some (change, command) =>
      { s with
        configs := command.execute accepted s.configs
        changes := s.changes.set index (change.executed part accepted s.configs) }
    | none => s
  | .rollback index part accepted =>
    match s.command index part with
    | some (_, command) => { s with configs := command.inverse.execute accepted s.configs }
    | none => s

def System.run (plane : ControlPlane) (s : System) (actions : List Action) : System :=
  actions.foldl (System.step plane) s

end Runs

end OpenNode.ServerEgress
