import OpenNode.Json
import OpenNode.Lib.Assoc
import OpenNode.Lib.FirstCopies
import OpenNode.ServerEgress

namespace OpenNode.ManagedSniffing

open ServerEgress

/-- `value.strip().lower()`. -/
structure Canonical where
  key : String → String
  key_key : ∀ value, key (key value) = key value

/-- The `domainsExcluded` of a sniffing object; an entry that is no text is `none`. -/
inductive Excluded where
  | missing
  | malformed
  | entries (values : List (Option String))

structure SourceInbound where
  tag : Option String
  sniffing : ServerEgress.Field Excluded

structure SourceOutbound where
  tag : Option String
  body : Json

/-- The domains of one inbound that were added for egresses, and those that each egress needs. -/
structure Entry where
  ownedDomains : List String
  references : List (String × List String)

abbrev State := List (String × Entry)

def entryOf (state : State) (inboundTag : String) : Option Entry := state.lookup inboundTag

structure SourceConfig where
  inbounds : Option (List SourceInbound)
  outbounds : Option (List SourceOutbound)
  routing : ServerEgress.Field Routing
  state : ServerEgress.Field State

/-- What the routing code reads of the configuration. -/
def SourceConfig.xray (config : SourceConfig) : XrayConfig where
  inbounds := config.inbounds.map fun inbounds => inbounds.map fun inbound =>
    { tag := inbound.tag, protocol := "", settings := none }
  outbounds := config.outbounds.map fun outbounds => outbounds.map fun outbound =>
    { tag := outbound.tag, body := "" }
  routing := config.routing

/-- `a or b`. -/
def orElse (a b : Json) : Json := if a.truthy then a else b

def collect : Json → List String
  | .str text => [text]
  | .arr items => items.filterMap Json.str?
  | _ => []

def managedTag : List Char := "managed-egress:".toList

/-- Whether an outbound has the tag of a managed egress. -/
def SourceOutbound.managed (outbound : SourceOutbound) : Bool :=
  outbound.tag.any fun tag => managedTag.isPrefixOf tag.toList

section Canonical
variable (x : Canonical)

def isText (value : Json) (text : String) : Bool := value.str?.any fun found => x.key found = text

def extractRealitySniDomains (outbound : Json) : List String :=
  let stream := orElse (outbound.get "streamSettings") (outbound.get "stream_settings")
  let reality := orElse (stream.get "realitySettings") (stream.get "reality_settings")
  if isText x (outbound.get "protocol") "vless" && stream.isObj && isText x (stream.get "security") "reality" &&
    reality.isObj then
    let domains := collect (reality.get "serverName")
    if domains = [] then collect (reality.get "serverNames") else domains
  else []

/-- The keys of texts, without the blank ones. -/
def domainKeys (values : List String) : List String := (values.map x.key).filter (· ≠ "")

/-- `_canonical_domains` of texts. -/
def canonicalDomains (values : List String) : List String := FirstCopies.add [] (domainKeys x values)

/-- `_sniffing_domains` of the sniffing object of an inbound. -/
def sniffingDomains : ServerEgress.Field Excluded → Except String (List String)
  | .absent | .malformed false => .ok []
  | .malformed true => .error "Xray inbound sniffing must be an object"
  | .value .missing => .ok []
  | .value .malformed => .error "Xray sniffing domainsExcluded must be an array"
  | .value (.entries values) =>
    if values.all Option.isSome then .ok (values.filterMap id)
    else .error "Xray sniffing domainsExcluded entries must be strings"

/-- The exclusions of a `_tagged_inbound`. -/
def readExclusions (config : SourceConfig) (tag : String) : Except String (List String) := do
  match ← tagged SourceInbound.tag config.inbounds tag "inbounds" with
  | none => .error ("Source inbound " ++ tag ++ " is absent from the current snapshot")
  | some (inbound, _) => sniffingDomains inbound.sniffing

def writeExclusions (tag : String) (values : List String) (config : SourceConfig) : SourceConfig :=
  { config with inbounds := config.inbounds.map fun inbounds => inbounds.map fun inbound =>
      if inbound.tag = some tag then { inbound with sniffing := .value (.entries (values.map some)) } else inbound }

def managedSniState (config : SourceConfig) : Except String State :=
  match config.state with
  | .absent => .ok []
  | .malformed _ => .error "Managed egress sniffing ownership state is invalid"
  | .value state => .ok state

/-- The domains of one outbound, if the inbound can reach it. -/
def addReachable (config : SourceConfig) (inboundTag : String) (found : List String) (outbound : SourceOutbound) :
    Except String (List String) := do
  let related ← relatedSourceInbounds config.xray (outbound.tag.getD "")
  .ok (if inboundTag ∈ related then found ++ domainKeys x (extractRealitySniDomains x outbound.body) else found)

def otherManagedRealityDomains (config : SourceConfig) (outboundTag inboundTag : String) :
    Except String (List String) := do
  let outbounds ← array "Xray outbounds must be an array" config.outbounds
  (outbounds.filter fun outbound => outbound.tag ≠ some outboundTag &&
    outbound.managed).foldlM (addReachable x config inboundTag) []

/-- What is left of an entry without an outbound, and the domains that its list loses. -/
def withoutReference (outboundTag : String) (other : List String) (entry : Entry) : Entry × List String :=
  let references := entry.references.filter fun reference => reference.1 ≠ outboundTag
  let referenced := domainKeys x (references.flatMap Prod.snd)
  let owned := canonicalDomains x entry.ownedDomains
  let removable := owned.filter fun domain => domain ∉ referenced ∧ domain ∉ other
  (⟨owned.filter (· ∉ removable), references⟩, removable)

/-- The list of an inbound without the domains that it loses. -/
def withoutDomains (inboundTag : String) (removable : List String) (config : SourceConfig) :
    Except String SourceConfig :=
  if removable = [] then .ok config
  else do
    let values ← readExclusions config inboundTag
    .ok (writeExclusions inboundTag (values.filter fun value => x.key value ∉ removable) config)

/-- The loop of `_remove_managed_sniffing_reference`. -/
def removeReferences (outboundTag : String) : State → SourceConfig → Except String (SourceConfig × State)
  | [], config => .ok (config, [])
  | (inboundTag, entry) :: rest, config => do
    let other ← otherManagedRealityDomains x config outboundTag inboundTag
    let (kept, removable) := withoutReference x outboundTag other entry
    let config ← withoutDomains x inboundTag removable config
    let (config, state) ← removeReferences outboundTag rest config
    .ok (config, if kept.references = [] ∧ kept.ownedDomains = [] then state else (inboundTag, kept) :: state)

def removeManagedSniffingReference (outboundTag : String) (config : SourceConfig) : Except String SourceConfig := do
  let state ← managedSniState config
  let (config, state) ← removeReferences x outboundTag state config
  .ok { config with state := if state = [] then .absent else .value state }

/-- The domains that are added to a list and to what is owned of it. -/
def addDomains (normalized : List String) (excluded owned : List String) : List String × List String :=
  normalized.foldl (fun lists domain =>
    if domain ∈ lists.1.map x.key then lists else (lists.1 ++ [domain], lists.2 ++ [domain])) (excluded, owned)

/-- One inbound of `_apply_managed_sniffing`. -/
def addReference (outboundTag : String) (normalized : List String) (run : SourceConfig × State)
    (inboundTag : String) :
    Except String (SourceConfig × State) := do
  let values ← readExclusions run.1 inboundTag
  let entry := (entryOf run.2 inboundTag).getD ⟨[], []⟩
  let (excluded, owned) := addDomains x normalized values (canonicalDomains x entry.ownedDomains)
  .ok (writeExclusions inboundTag excluded run.1,
    Assoc.put inboundTag ⟨owned.eraseDups, Assoc.put outboundTag normalized entry.references⟩ run.2)

def applyManagedSniffing (outboundTag : String) (domains inboundTags : List String) (config : SourceConfig) :
    Except String SourceConfig := do
  let config ← removeManagedSniffingReference x outboundTag config
  let normalized := canonicalDomains x domains
  if normalized = [] ∨ inboundTags = [] then .ok config
  else do
    let state ← managedSniState config
    let (config, state) ← inboundTags.foldlM (addReference x outboundTag normalized) (config, state)
    .ok { config with state := .value state }

/-- A call, with the outbounds and the routing of the configuration that it is made on. -/
structure Call where
  outbounds : Option (List SourceOutbound)
  routing : ServerEgress.Field Routing
  tag : String
  domains : List String
  inboundTags : List String

def Call.apply (call : Call) (config : SourceConfig) : Except String SourceConfig :=
  applyManagedSniffing x call.tag call.domains call.inboundTags
    { config with outbounds := call.outbounds, routing := call.routing }

/-- The configuration after a call and the calls that were accepted; one that is refused
was made on a copy. -/
def perform (run : SourceConfig × List Call) (call : Call) : SourceConfig × List Call :=
  match call.apply x run.1 with
  | .ok config => (config, run.2 ++ [call])
  | .error _ => run

def after (start : SourceConfig) (calls : List Call) : SourceConfig × List Call :=
  calls.foldl (perform x) (start, [])

def lastCall (calls : List Call) (tag : String) : Option Call := calls.reverse.find? fun call => call.tag = tag

/-- The domains that the last call for an outbound names for an inbound. -/
def needed (calls : List Call) (inboundTag outboundTag : String) : Option (List String) :=
  (lastCall calls outboundTag).bind fun call =>
    if canonicalDomains x call.domains ≠ [] ∧
      inboundTag ∈ call.inboundTags then some (canonicalDomains x call.domains) else none

end Canonical

end OpenNode.ManagedSniffing
