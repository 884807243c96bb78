import OpenNode.Lib.Obligations
import OpenNode.Lib.Rows

namespace OpenNode.SharedIngress

open Obligations

section Nodes

/-- `ManagedProtocolProfile`. -/
inductive Profile where
  | vlessRealityVision | vlessXhttpRealityXmux | anytlsShadowtls | mieru | socks5
deriving DecidableEq, Repr

/-- `SHARED_PROFILES`. -/
def Profile.shared : Profile → Bool
  | .vlessRealityVision | .vlessXhttpRealityXmux | .anytlsShadowtls => true
  | .mieru | .socks5 => false

/-- `ManagedNode`. `server` and `port` are those of its `config`; `runtime` is what
the listener takes from its `runtime_config`, if nothing is missing there. -/
structure Node where
  id : Nat
  profile : Option Profile := none
  physical : Bool := true
  enabled : Bool := true
  removing : Bool := false
  inboundTag : String := ""
  camouflageSni : Option String := none
  runtimePort : Option Nat := none
  server : Option String := none
  port : Option Nat := none
  runtime : Option String := none
deriving DecidableEq, Repr

/-- `ManagedProtocolListener`, without its users, which the access rows decide. -/
structure Listener where
  tag : String
  nodeId : Nat
  profile : Profile
  listen : String
  port : Nat
  enabled : Bool
  clientServer : Option String
  clientPort : Option Nat
  serverConfig : String
deriving DecidableEq, Repr

/-- `SharedIngressRoute`. -/
structure Route where
  nodeId : Nat
  profile : Profile
  sni : String
  upstreamAddress : String := "127.0.0.1"
  upstreamPort : Nat
deriving DecidableEq, Repr

def Node.managed (node : Node) : Bool :=
  node.profile.isSome && node.physical && !node.removing

def Node.listener? (node : Node) : Option Listener :=
  match node.profile, node.runtimePort, node.runtime with
  | some profile, some port, some runtime =>
    if port = 0 ∨ node.inboundTag = "" then none
    else some
      { tag := node.inboundTag
        nodeId := node.id
        profile := profile
        listen := if profile.shared then "127.0.0.1" else "0.0.0.0"
        port := port
        enabled := node.enabled
        clientServer := node.server
        clientPort := node.port
        serverConfig := runtime }
  | _, _, _ => none

/-- `snapshot`, which fails on a node without a runtime declaration. -/
def snapshot (nodes : List Node) : Option (List Listener) :=
  (nodes.filter Node.managed).mapM Node.listener?

def Node.routed (node : Node) : Bool :=
  node.profile.any Profile.shared && node.physical && node.enabled && !node.removing

/-- A route, if its validators accept it. -/
def Node.route? (node : Node) : Option Route :=
  match node.profile, node.camouflageSni, node.runtimePort with
  | some profile, some sni, some port =>
    if sni ≠ "" ∧ 49152 ≤ port ∧ port ≤ 65535 then
      some { nodeId := node.id, profile := profile, sni := sni, upstreamPort := port }
    else none
  | _, _, _ => none

/-- The routes that the nodes ask for. -/
def routes? (nodes : List Node) : Option (List Route) :=
  (nodes.filter Node.routed).mapM Node.route?

end Nodes

section Declaration

/-- `SharedIngressWebsite`. -/
structure Website where
  sni : String
  upstreamUrl : String
  tlsAddress : String := "127.0.0.1"
  tlsPort : Nat
  certificateName : String
  redirectHttp : Bool := true
deriving DecidableEq, Repr

/-- `SharedIngressConfiguration`. -/
structure Configuration where
  listenIpv6 : Bool
  routes : List Route
  website : Option Website
deriving DecidableEq, Repr

/-- `validate_routes`, and the limit on their number. -/
def Configuration.valid (configuration : Configuration) : Bool :=
  let routes := configuration.routes
  (routes != [] || configuration.website.isSome) && routes.length ≤ 32 && decide ((routes.map (·.sni)).Nodup) &&
    decide ((routes.map (·.upstreamPort)).Nodup) && decide ((routes.map (·.nodeId)).Nodup) &&
    configuration.website.all fun website =>
      routes.all fun route => route.sni != website.sni && route.upstreamPort != website.tlsPort

/-- What a declaration routes; without one, nothing. -/
def routesOf (configuration : Option Configuration) : List Route :=
  (configuration.map (·.routes)).getD []

def websiteOf (configuration : Option Configuration) : Option Website :=
  configuration.bind (·.website)

/-- What `reconcile_shared_ingress` comes to. -/
inductive Outcome where
  | failed
  | same
  | save (next : Option Configuration)
deriving DecidableEq, Repr

/-- The part of `reconcile_shared_ingress` after the nodes are read. -/
def reconcile (routes : Option (List Route)) (current : Option Configuration) : Outcome :=
  match routes with
  | none => .failed
  | some routes =>
    if routes = [] ∧ websiteOf current = none then
      if current = none then .same else .save none
    else
      let next : Configuration :=
        { listenIpv6 := (current.map (·.listenIpv6)).getD true, routes := routes, website := websiteOf current }
      if next.valid = false then .failed
      else if current = some next then .same
      else .save (some next)

end Declaration

section Requests

/-- Where a request stands, with what it has read.

* `changed`: its change is committed, and the snapshot is to be read next;
* `built`: the snapshot is read, and the stored declaration comes next;
* `known`: the declaration and its revision are read, and the nodes come next;
* `planned`: a declaration is to be saved, or to be disabled;
* `ready`: its commands are to be queued. -/
inductive Phase where
  | changed (reconciles : Bool)
  | built (listeners : List Listener)
  | known (listeners : List Listener) (current : Option Configuration) (revision : Nat)
  | planned (listeners : List Listener) (next : Option Configuration) (revision : Nat)
  | ready (listeners : Option (List Listener)) (ingress : Option (Nat × Option Configuration))
  | done
  | failed
deriving DecidableEq, Repr

inductive Command where
  | managedProtocols (listeners : List Listener)
  /-- `PUT` of a declaration, or `DELETE`. -/
  | sharedIngress (revision : Nat) (configuration : Option Configuration)
deriving DecidableEq, Repr

def payloads (listeners : Option (List Listener)) (ingress : Option (Nat × Option Configuration)) : List Command :=
  listeners.toList.map .managedProtocols ++ ingress.toList.map fun (revision, configuration) =>
    .sharedIngress revision configuration

/-- The rows of one server and the requests made so far. `website` is the one that
the operator saved last. -/
structure Server where
  nodes : List Node := []
  configuration : Option Configuration := none
  revision : Nat := 0
  queue : List Command := []
  requests : List Phase := []
  website : Option Website := none
deriving DecidableEq, Repr

variable (s : Server)

/-- `_validate_node_bindings`. -/
def Server.bound (configuration : Configuration) : Bool :=
  configuration.routes.all fun route =>
    (s.nodes.find? (·.id == route.nodeId)).any fun node =>
      !node.removing && node.enabled && node.physical && node.profile == some route.profile &&
        node.port == some 443 &&
        node.camouflageSni == some route.sni && route.upstreamAddress == "127.0.0.1" && node.runtimePort ==
          some route.upstreamPort

/-- `save` and `disable`, after their checks. -/
def Server.save (configuration : Option Configuration) : Server :=
  { s with configuration := configuration, revision := s.revision + 1 }

/-- The next transaction of a request. -/
def Server.advance : Phase → Server × Phase
  | .changed reconciles =>
    match snapshot s.nodes with
    | none => (s, .failed)
    | some listeners => (s, if reconciles then .built listeners else .ready (some listeners) none)
  | .built listeners => (s, .known listeners s.configuration s.revision)
  | .known listeners current revision =>
    match reconcile (routes? s.nodes) current with
    | .failed => (s, .failed)
    | .same => (s, .ready (some listeners) none)
    | .save next => (s, .planned listeners next revision)
  | .planned listeners next revision =>
    if revision = s.revision ∧ next.all s.bound = true then
      (s.save next, .ready (some listeners) (some (s.revision + 1, next)))
    else (s, .failed)
  | .ready listeners ingress => ({ s with queue := s.queue ++ payloads listeners ingress }, .done)
  | .done => (s, .done)
  | .failed => (s, .failed)

/-- What an update may set, and what `prepare` makes of it. -/
structure Prepared where
  enabled : Bool
  server : Option String
  port : Option Nat
  runtimePort : Option Nat
  runtime : Option String
deriving DecidableEq, Repr

def Node.apply (node : Node) (prepared : Prepared) : Node :=
  { node with
    enabled := prepared.enabled
    server := prepared.server
    port := prepared.port
    runtimePort := prepared.runtimePort
    runtime := prepared.runtime }

/-- `create_managed_node`; `refused` stands for the checks of the node. -/
def Server.create (node : Node) (refused : Bool) : Server :=
  if refused || s.nodes.any (·.id == node.id) then s
  else { s with
    nodes := s.nodes ++ [{ node with removing := false }]
    requests := s.requests ++ [node.profile.elim .done fun profile => .changed profile.shared] }

def Server.update (identifier : Nat) (prepared : Prepared) (refused : Bool) : Server :=
  match s.nodes.find? (·.id == identifier) with
  | none => s
  | some node =>
    if refused || node.removing then s
    else { s with
      nodes := Rows.update (·.id == identifier) (·.apply prepared) s.nodes
      requests := s.requests ++ [if node.profile.isSome then .changed true else .done] }

/-- `remove`, of a node and those that go with it. -/
def Server.remove (identifiers : List Nat) (refused : Bool) : Server :=
  let set (node : Node) : Node := { node with removing := true, enabled := false }
  if refused then s
  else { s with
    nodes := Rows.update (fun node => identifiers.contains node.id) set s.nodes
    requests := s.requests ++ [.changed true] }

/-- The end of a removal. -/
def Server.finish (identifiers : List Nat) : Server :=
  { s with nodes := s.nodes.filter fun node => !(identifiers.contains node.id && node.removing) }

/-- `apply_shared_ingress`, where only the website is changed. -/
def Server.saveWebsite (website : Option Website) (expectedRevision : Option Nat) : Server :=
  let next : Configuration :=
    { listenIpv6 := (s.configuration.map (·.listenIpv6)).getD false, routes := routesOf s.configuration,
      website := website }
  if expectedRevision.any (· != s.revision) || !next.valid || !s.bound next then s
  else { s.save (some next) with
    website := website
    requests := s.requests ++ [.ready none (some (s.revision + 1, some next))] }

inductive Event where
  | create (node : Node) (refused : Bool)
  | update (identifier : Nat) (prepared : Prepared) (refused : Bool)
  | remove (identifiers : List Nat) (refused : Bool)
  | retry
  | finish (identifiers : List Nat)
  | saveWebsite (website : Option Website) (expectedRevision : Option Nat)
  /-- The next transaction of a request. -/
  | proceed (request : Nat)
  /-- A request breaks off and reports an error. -/
  | abort (request : Nat)
deriving DecidableEq, Repr

def Server.step : Event → Server
  | .create node refused => s.create node refused
  | .update identifier prepared refused => s.update identifier prepared refused
  | .remove identifiers refused => s.remove identifiers refused
  | .retry => { s with requests := s.requests ++ [.changed true] }
  | .finish identifiers => s.finish identifiers
  | .saveWebsite website expectedRevision => s.saveWebsite website expectedRevision
  | .proceed request =>
    match s.requests[request]? with
    | none => s
    | some phase => { (s.advance phase).1 with requests := s.requests.set request (s.advance phase).2 }
  | .abort request =>
    match s.requests[request]? with
    | none | some .done => s
    | some _ => { s with requests := s.requests.set request .failed }

def Server.run (events : List Event) : Server :=
  events.foldl Server.step s

/-- What an Agent that accepts the commands has after them. -/
structure Agent where
  listeners : List Listener := []
  configuration : Option Configuration := none
deriving DecidableEq, Repr

def Agent.execute (agent : Agent) : Command → Agent
  | .managedProtocols listeners => { agent with listeners := listeners }
  | .sharedIngress _ configuration => { agent with configuration := configuration }

def Server.agent : Agent :=
  s.queue.foldl Agent.execute {}

end Requests

end OpenNode.SharedIngress
