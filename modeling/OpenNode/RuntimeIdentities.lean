import OpenNode.Lib.Edits
import OpenNode.Lib.Rows

namespace OpenNode.RuntimeIdentities

open Edits

/-- The operations on texts that the labels depend on. -/
structure Texts where
  lower : String → String
  strip : String → String
  isalnum : Char → Bool
  /-- The first twelve digits of the digest of a time of creation. -/
  incarnation : Nat → String
  /-- The first ten digits of the digest of a username. -/
  ownerRef : String → String

inductive NodeType where
  | physical | routed | orchestrated
deriving DecidableEq, Repr

/-- `ManagedNode`. `removing` says that it has a removal. -/
structure Node where
  id : String
  name : String
  serverId : Nat
  protocol : String
  nodeType : NodeType := .physical
  inboundTag : Option String := none
  routedOutboundTag : Option String := none
  routedRuleMarktag : Option String := none
  enabled : Bool := true
  removing : Bool := false
deriving DecidableEq, Repr

/-- `ProductUser`. -/
structure User where
  username : String
  createdAt : Nat
  removing : Bool := false
deriving DecidableEq, Repr

/-- What `_generate_subscription_credential` makes, without the level. -/
inductive Secret where
  | id (id email : String)
  | password (password email : String)
  | psk (psk email : String)
  | mieru (username password email : String)
  | auth (auth email : String)
  | account (user pass : String)
deriving DecidableEq, Repr

/-- `SubscriptionCredential`, in the order of creation. -/
structure Credential where
  username : String
  nodeId : String
  serverId : Nat
  inboundTag : Option String
  protocol : String
  email : String
  credential : Secret
deriving DecidableEq, Repr

/-- `ManagedNodeRemoval`, with the labels of its fingerprints. -/
structure NodeRemoval where
  nodeIds : List String
  fingerprints : List (Nat × String)
  inboundTags : List (Nat × String)
  outboundTags : List (Nat × String)
  completed : Bool := false
deriving DecidableEq, Repr

/-- `ProductUserRemoval`. -/
structure UserRemoval where
  username : String
  completed : Bool := false
deriving DecidableEq, Repr

/-- The tables. `given` lists the labels that the present users have had, and
`past` those of removed ones. -/
structure Store where
  users : List User := []
  nodes : List Node := []
  credentials : List Credential := []
  nodeRemovals : List NodeRemoval := []
  userRemovals : List UserRemoval := []
  given : List (String × String) := []
  past : List (String × String) := []
deriving DecidableEq, Repr

section Labels

variable (texts : Texts)

/-- Python's `or` on texts. -/
def firstText (candidates : List (Option String)) (otherwise : String) : String :=
  ((candidates.filterMap id).find? (· != "")).getD otherwise

def stripUnderscores (chars : List Char) : List Char :=
  ((chars.dropWhile (· == '_')).reverse.dropWhile (· == '_')).reverse

def defaultClientEmail (username : String) (node : Node) : String :=
  let label := firstText [node.inboundTag, node.routedRuleMarktag, node.routedOutboundTag] node.name
  let allowed (char : Char) : Bool := texts.isalnum char || char == '-' || char == '_' || char == '.'
  let suffix := String.ofList
    (stripUnderscores ((texts.strip label).toList.map fun char => if allowed char then char else '_'))
  username ++ "__" ++ if suffix = "" then node.protocol else suffix

def safeCredentialUsername (username : String) : String :=
  let allowed (char : Char) : Bool := texts.isalnum char || char == '-' || char == '_'
  let cleaned := String.ofList (stripUnderscores (username.toList.map fun char =>
    if allowed char then char else '_'))
  if cleaned = "" then "user" else cleaned

/-- `_generate_subscription_credential`; `drawn` is the random part. -/
def generateSubscriptionCredential (protocol username email drawn : String) : Secret :=
  match texts.lower (texts.strip protocol) with
  | "vless" | "vmess" => .id drawn email
  | "trojan" | "anytls" => .password drawn email
  | "snell" => .psk drawn email
  | "mieru" => .mieru (safeCredentialUsername texts username) drawn email
  | "hysteria" | "hysteria2" | "hy2" => .auth drawn email
  | "shadowsocks" | "ss" => .password drawn email
  | "socks" | "http" => .account (safeCredentialUsername texts username) drawn
  | _ => .id drawn email

/-- The `email` of the stored credential. -/
def Secret.email? : Secret → Option String
  | .id _ email | .password _ email | .psk _ email | .mieru _ _ email | .auth _ email => some email
  | .account _ _ => none

/-- The identifier of a node without hyphens, cut to a length. -/
def compact (length : Nat) (identifier : String) : String :=
  String.ofList ((identifier.toList.filter (· != '-')).take length)

end Labels

section Credentials

variable (texts : Texts) (s : Store)

def Store.user? (username : String) : Option User :=
  s.users.find? (·.username == username)

def Store.node? (identifier : String) : Option Node :=
  s.nodes.find? (·.id == identifier)

/-- The credential of a user for a node. -/
def Store.credential? (username identifier : String) : Option Credential :=
  s.credentials.find? fun row => row.username == username && row.nodeId == identifier

/-- The label of a user on a node, with the incarnation of a user whose name was
removed before. -/
def Store.clientEmail (user : User) (node : Node) : String :=
  let email := defaultClientEmail texts user.username node
  if s.userRemovals.any fun job => job.username == user.username && job.completed then
    email ++ "--" ++ texts.incarnation user.createdAt
  else email

/-- The credential of the same label, for another node of the user. -/
def Store.shared? (user : User) (node : Node) : Option Credential :=
  s.credentials.find? fun row =>
    row.username == user.username && row.serverId == node.serverId && row.email == s.clientEmail texts user node

def Store.canShare (node : Node) (shared : Credential) : Bool :=
  (s.node? shared.nodeId).any fun source =>
    !source.removing && source.protocol == node.protocol && decide (source.nodeType = node.nodeType) &&
      source.inboundTag == node.inboundTag && source.routedOutboundTag == node.routedOutboundTag &&
      source.routedRuleMarktag == node.routedRuleMarktag

def Store.retiredLabel (user : User) (node : Node) : Bool :=
  s.nodeRemovals.any fun job => job.fingerprints.contains (node.serverId, s.clientEmail texts user node)

/-- The label has to be told apart by the identifier of the node. -/
def Store.needsSuffix (user : User) (node : Node) : Bool :=
  (s.shared? texts user node).any (fun shared => !s.canShare node shared) || s.retiredLabel texts user node

/-- The row for a node that the user has no credential for. -/
def Store.newCredential (user : User) (node : Node) (drawn : String) : Credential :=
  let suffixed := s.needsSuffix texts user node
  let email := s.clientEmail texts user node ++ if suffixed then "--" ++ compact 12 node.id else ""
  let fresh := generateSubscriptionCredential texts node.protocol user.username email drawn
  { username := user.username
    nodeId := node.id
    serverId := node.serverId
    inboundTag := node.inboundTag
    protocol := node.protocol
    email := email
    credential := if suffixed then fresh else ((s.shared? texts user node).map (·.credential)).getD fresh }

/-- `_get_or_create_subscription_credential`. -/
def Store.getOrCreate (user : User) (node : Node) (drawn : String) : Except String Store :=
  if node.nodeType = .orchestrated then .error "Node topology virtual nodes cannot own subscription credentials"
  else
    match s.credential? user.username node.id with
    | some _ =>
      let set (row : Credential) : Credential :=
        { row with serverId := node.serverId, inboundTag := node.inboundTag, protocol := node.protocol }
      .ok { s with
        credentials := Rows.update (fun row => row.username == user.username &&
          row.nodeId == node.id) set s.credentials }
    | none =>
      let row := s.newCredential texts user node drawn
      .ok { s with credentials := s.credentials ++ [row], given := s.given ++ [(user.username, row.email)] }

/-- `_subscription_billing_attribution_by_email`, up to the weight: the rows of
the server by their labels, and by the labels inside the stored credentials. -/
def Store.attribution (serverId : Nat) (email : String) : Option (String × String) :=
  let rows := s.credentials.filter (·.serverId == serverId)
  let exact := rows.reverse.find? (·.email == email)
  let aliased := rows.find? fun row => row.credential.email? == some email && email != ""
  (exact <|> aliased).map fun row => (row.username, row.nodeId)

end Credentials

section Requests

variable (texts : Texts) (s : Store)

/-- `create_product_user`. -/
def Store.createUser (username : String) (now : Nat) : Except String Store :=
  if texts.strip username = "" then .error "username is empty"
  else if (s.user? (texts.strip username)).isSome then .error "username already exists"
  else .ok { s with users := s.users ++ [{ username := texts.strip username, createdAt := now }] }

/-- `remove` of a user. `blocked` stands for a stale revision, an administrator
and a missing acknowledgement. -/
def Store.removeUser (username : String) (blocked : Bool) : Except String Store :=
  match s.user? username with
  | none => .error "user not found"
  | some user =>
    if user.removing then .ok s
    else if blocked then .error "User or credentials changed; reload before removing"
    else if s.credentials.any fun row => row.username == username && s.credentials.any fun other =>
        other.username != username && other.serverId == row.serverId && other.inboundTag == row.inboundTag &&
          other.email == row.email then
      .error "A credential label is shared with another subscriber"
    else
      let set (user : User) : User := { user with removing := true }
      .ok { s with
        users := Rows.update (·.username == username) set s.users
        userRemovals := s.userRemovals ++ [{ username := username }] }

/-- The turn of `finalize_ready` for a user; `ready` says that its credentials
are withdrawn on every server. -/
def Store.finishUserRemoval (username : String) (ready : Bool) : Except String Store :=
  match s.user? username with
  | none => .error "user not found"
  | some user =>
    if !user.removing || !ready then .ok s
    else
      let set (job : UserRemoval) : UserRemoval := { job with completed := true }
      .ok { s with
        users := s.users.filter (·.username != username)
        credentials := s.credentials.filter (·.username != username)
        userRemovals := Rows.update (·.username == username) set s.userRemovals
        given := s.given.filter (·.1 != username)
        past := s.past ++ s.given.filter (·.1 == username) }

/-- What `validate_node` checks of the names and tags. -/
def Store.validNode (node : Node) : Bool :=
  (s.nodes.all fun other => !(other.serverId == node.serverId && other.name == node.name && other.id != node.id)) &&
    s.nodeRemovals.all fun job =>
      node.inboundTag.all (fun tag => !job.inboundTags.contains (node.serverId, tag)) &&
        node.routedOutboundTag.all fun tag => !job.outboundTags.contains (node.serverId, tag)

/-- A profile's node has a tag of its own. -/
def Node.prepare (node : Node) (profile : Bool) : Node :=
  if profile then { node with inboundTag := some ("open-node-" ++ node.id) } else node

/-- `create_managed_node`. The identifier is drawn; `profile` says that the node
has a protocol profile, and `refused` stands for the checks on other fields. -/
def Store.createNode (node : Node) (profile refused : Bool) : Except String Store :=
  let node := { node.prepare profile with protocol := texts.lower node.protocol, removing := false }
  if refused || !s.validNode node then .error "The node is not valid"
  else if (s.node? node.id).isSome then .error "The identifier is taken"
  else .ok { s with nodes := s.nodes ++ [node] }

/-- `update` of a node, in the fields that labels depend on. -/
def Store.updateNode (identifier name : String) (enabled refused : Bool) : Except String Store :=
  match s.node? identifier with
  | none => .error "Node not found"
  | some node =>
    let set (node : Node) : Node := { node with name := name, enabled := enabled }
    if refused || node.removing || !s.validNode (set node) then .error "The node is not valid"
    else .ok { s with nodes := Rows.update (·.id == identifier) set s.nodes }

/-- `remove` of a node and of the nodes that go with it. The labels and tags that
the removal retires come from the access rows and from the agent. -/
def Store.removeNodes (job : NodeRemoval) (blocked : Bool) : Except String Store :=
  if blocked then .error "Nodes, plans or credentials changed; reload before removing"
  else
    let set (node : Node) : Node := { node with removing := true, enabled := false }
    .ok { s with
      nodes := Rows.update (fun node => job.nodeIds.contains node.id) set s.nodes
      nodeRemovals := s.nodeRemovals ++ [{ job with completed := false }] }

/-- The nodes and the credentials for them are deleted. -/
def Store.deleteNodes (identifiers : List String) : Store :=
  { s with
    nodes := s.nodes.filter fun node => !identifiers.contains node.id
    credentials := s.credentials.filter fun row => !identifiers.contains row.nodeId }

/-- `_finish` of the removal at a position; `ready` says that every server is done. -/
def Store.finishNodeRemoval (position : Nat) (ready : Bool) : Except String Store :=
  match s.nodeRemovals[position]? with
  | none => .error "Node removal not found"
  | some job =>
    if job.completed || !ready then .ok s
    else .ok { s.deleteNodes job.nodeIds with
      nodeRemovals := s.nodeRemovals.set position { job with completed := true } }

/-- A credential for a node, as provisioning, rendering and repair ask for it. -/
def Store.provision (username identifier drawn : String) : Except String Store :=
  match s.user? username, s.node? identifier with
  | some user, some node => s.getOrCreate texts user node drawn
  | none, _ => .error "user not found"
  | _, none => .error "Node not found"

def privateNode (user : User) (parent : Node) (identifier label : String) : Node :=
  let tag := "private:" ++ texts.ownerRef user.username ++ ":" ++ compact 16 identifier
  { id := identifier
    name := label
    serverId := parent.serverId
    protocol := parent.protocol
    nodeType := .routed
    inboundTag := parent.inboundTag
    routedOutboundTag := some tag
    routedRuleMarktag := some tag
    enabled := false }

/-- `create` of a private route; `refused` stands for its limits and for what the
change set is built from. -/
def Store.createPrivate (username parentId identifier label drawn : String) (refused : Bool) :
    Except String Store :=
  match s.user? username, s.node? parentId with
  | some user, some parent =>
    if refused then .error "Private routed nodes are disabled"
    else if (s.node? identifier).isSome then .error "The identifier is taken"
    else
      let node := privateNode texts user parent identifier label
      Store.getOrCreate texts { s with nodes := s.nodes ++ [node] } user node drawn
  | none, _ => .error "user not found"
  | _, none => .error "Node not found"

inductive Event where
  | createUser (username : String) (now : Nat)
  | removeUser (username : String) (blocked : Bool)
  | finishUserRemoval (username : String) (ready : Bool)
  | createNode (node : Node) (profile refused : Bool)
  | updateNode (identifier name : String) (enabled refused : Bool)
  | removeNodes (job : NodeRemoval) (blocked : Bool)
  | finishNodeRemoval (position : Nat) (ready : Bool)
  | provision (username identifier drawn : String)
  | createPrivate (username parentId identifier label drawn : String) (refused : Bool)
  /-- The end of a private route, after its change set. -/
  | deletePrivate (identifier : String)
deriving DecidableEq, Repr

/-- A request, in one serialized transaction. -/
def Store.request : Event → Except String Store
  | .createUser username now => s.createUser texts username now
  | .removeUser username blocked => s.removeUser username blocked
  | .finishUserRemoval username ready => s.finishUserRemoval username ready
  | .createNode node profile refused => s.createNode texts node profile refused
  | .updateNode identifier name enabled refused => s.updateNode identifier name enabled refused
  | .removeNodes job blocked => s.removeNodes job blocked
  | .finishNodeRemoval position ready => s.finishNodeRemoval position ready
  | .provision username identifier drawn => s.provision texts username identifier drawn
  | .createPrivate username parentId identifier label drawn refused =>
    s.createPrivate texts username parentId identifier label drawn refused
  | .deletePrivate identifier => .ok (s.deleteNodes [identifier])

/-- A transaction that fails is rolled back. -/
def Store.step (event : Event) : Store :=
  match s.request texts event with
  | .ok t => t
  | .error _ => s

def Store.run (events : List Event) : Store :=
  events.foldl (Store.step texts) s

end Requests

end OpenNode.RuntimeIdentities
