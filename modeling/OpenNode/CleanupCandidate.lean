import OpenNode.Lib.Edits
import OpenNode.Lib.Saturation
import OpenNode.ManagedEgressRecords
import OpenNode.NodeCleanup

namespace OpenNode.NodeCleanup

open Assoc Agent Edits ManagedEgress Saturation

abbrev Documents := Stores Fields Fields Fields

def structureError : String :=
  "Cleanup requires structured runtime resources"

def tagError : String :=
  "Duplicate or invalid runtime tags require review"

/-- The tags that are present in a list of entries. -/
def presentTags (entries : List Fields) : List Json :=
  entries.filterMap fun item =>
    match item.lookup "tag" with
    | none | some .null => none
    | some tag => some tag

def tagged (config : Fields) (key : String) : Except String (List Fields) :=
  match objects ((config.lookup key).getD (.arr [])) with
  | none => .error structureError
  | some entries =>
    match (presentTags entries).mapM Json.str? with
    | some names => if names.Nodup then .ok entries else .error tagError
    | none => .error tagError

/-- The tag of an entry, as a label. -/
def labelOf (item : Fields) : Option String :=
  match item.lookup "tag" with
  | some (.str tag) => some tag
  | _ => none

/-- A label that is not empty. -/
def nameOf (item : Fields) : Option String :=
  (labelOf item).filter (· ≠ "")

/-- Whether the label of an entry is one of some tags. -/
def labelled (tags : List String) (item : Fields) : Bool :=
  (labelOf item).any (· ∈ tags)

def proxyTargets (outbound : Fields) : Except String (List String) :=
  match asObject ((outbound.lookup "proxySettings").getD (.obj [])),
      asObject ((outbound.lookup "streamSettings").getD (.obj [])) with
  | some proxy, some stream =>
    match asObject ((stream.lookup "sockopt").getD (.obj [])) with
    | some options =>
      let targets := [(proxy.lookup "tag").getD .null, (options.lookup "dialerProxy").getD .null]
      if targets.any fun value => !(value matches .null) && !(value matches .str _) then
        .error "Invalid outbound proxy tags require review"
      else .ok ((targets.filterMap Json.str?).filter (· ≠ ""))
    | none => .error "Invalid outbound socket options require review"
  | _, _ => .error "Invalid outbound proxy references require review"

def meets (targets tags : List String) : Bool :=
  targets.any (· ∈ tags)

/-- Whether an outbound without a name dials through one of the tags. -/
def unnamedDepends (tags : List String) : List Fields → Except String Bool
  | [] => .ok false
  | item :: rest =>
    match nameOf item with
    | some _ => unnamedDepends tags rest
    | none =>
      match proxyTargets item with
      | .error error => .error error
      | .ok targets => if meets targets tags then .ok true else unnamedDepends tags rest

/-- The names of the outbounds that dial through one of the tags. -/
def dependents (tags : List String) : List Fields → Except String (List String)
  | [] => .ok []
  | item :: rest =>
    match nameOf item with
    | none => dependents tags rest
    | some name =>
      match proxyTargets item, dependents tags rest with
      | .error error, _ => .error error
      | _, .error error => .error error
      | .ok targets, .ok others => .ok (if meets targets tags then name :: others else others)

/-- A turn of the loop over the chained outbounds. -/
def chained (outbounds : List Fields) (tags : List String) : Except String (List String) :=
  match unnamedDepends tags outbounds with
  | .error error => .error error
  | .ok true => .error "Name dependent outbounds before removing their dialer"
  | .ok false => dependents tags outbounds

/-- The loop. There are not more turns than outbounds, and one that finds no more. -/
def removedOutbounds (outbounds : List Fields) (tags : List String) : Option (Except String (List String)) :=
  saturate (chained outbounds) (outbounds.length + 1) tags

/-- `value in tags`, for a value that can be hashed. -/
def within (tags : List String) : Json → Except String Bool
  | .str text => .ok (text ∈ tags)
  | .arr _ | .obj _ => .error "unhashable type"
  | _ => .ok false

/-- What `for item in value` runs over. -/
def iterated : Json → Except String (List Json)
  | .arr items => .ok items
  | .obj fields => .ok (fields.map fun field => .str field.1)
  | .str text => .ok (text.toList.map fun c => .str (String.singleton c))
  | _ => .error "object is not iterable"

/-- `tag.startswith(start)`. -/
def startsWith (tag : String) : Json → Except String Bool
  | .str start => .ok (begins start tag)
  | _ => .error "startswith first arg must be str"

def selectsOne (tags : List String) (selector : Json) : Except String Bool :=
  tags.anyM fun tag => do
    let starts ← iterated selector
    starts.anyM (startsWith tag)

def balancerError : String :=
  "Update balancer references before removing their outbounds"

def checkBalancer (tags : List String) (balancer : Json) : Except String Unit :=
  match balancer with
  | .obj fields =>
    match within tags ((fields.lookup "fallbackTag").getD .null) with
    | .error error => .error error
    | .ok true => .error balancerError
    | .ok false =>
      match selectsOne tags ((fields.lookup "selector").getD (.arr [])) with
      | .error error => .error error
      | .ok true => .error balancerError
      | .ok false => .ok ()
  | _ => .error "object has no attribute 'get'"

/-- What becomes of a rule. -/
inductive Rewritten where
  | removed
  | changed (rule : Fields)
  | kept (rule : Fields)

def Rewritten.rule? : Rewritten → Option Fields
  | .removed => none
  | .changed rule | .kept rule => some rule

def rewriteRule (inboundTags outboundTags : List String) (rule : Json) : Except String Rewritten :=
  match rule with
  | .obj fields =>
    match within outboundTags ((fields.lookup "outboundTag").getD .null) with
    | .error error => .error error
    | .ok true => .ok .removed
    | .ok false =>
      match (fields.lookup "inboundTag").getD (.arr []) with
      | .arr items =>
        match items.mapM Json.str? with
        | none => .error "Invalid inbound routing references require review"
        | some refs =>
          if refs.any (· ∈ inboundTags) then
            let kept := refs.filter (· ∉ inboundTags)
            if kept.isEmpty then .ok .removed
            else .ok (.changed (put "inboundTag" (.arr (kept.map .str)) fields))
          else .ok (.kept fields)
      | _ => .error "Invalid inbound routing references require review"
  | _ => .error "Invalid routing rule requires review"

/-- The policies of a limiter document that stay. -/
def keepPolicies (inboundTags : List String) : List Json → Except String (List Json)
  | [] => .ok []
  | item :: rest =>
    match asObject item with
    | none => .error "string indices must be integers"
    | some fields =>
      match fields.lookup "inbound_tag" with
      | none => .error "inbound_tag"
      | some tag =>
        match within inboundTags tag, keepPolicies inboundTags rest with
        | .error error, _ => .error error
        | _, .error error => .error error
        | .ok gone, .ok others => .ok (if gone then others else item :: others)

structure Impact where
  inboundTags : List String
  outboundTags : List String
  suspendedTags : List String
  removedRules : Nat
  changedRules : Nat
  removedLimiterPolicies : Nat
  defaultOutboundChanged : Bool

def sorted (tags : List String) : List String := tags.insertionSort (· ≤ ·)

/-- `value.get("api", {}).get("tag") in inbound_tags`. -/
def apiSelected (config : Fields) (inboundTags : List String) : Except String Bool :=
  match asObject ((config.lookup "api").getD (.obj [])) with
  | none => .error "object has no attribute 'get'"
  | some api => within inboundTags ((api.lookup "tag").getD .null)

/-- The routing object and its rules. -/
def routingOf (config : Fields) : Except String (Fields × List Json) :=
  match (config.lookup "routing").getD (.obj []) with
  | .obj routing =>
    match (routing.lookup "rules").getD (.arr []) with
    | .arr rules => .ok (routing, rules)
    | _ => .error "Invalid routing configuration requires review"
  | _ => .error "Invalid routing configuration requires review"

/-- The policies of a limiter document. -/
def policiesOf (limits : Fields) : Except String (List Json) :=
  match limits.lookup "inbounds" with
  | none => .error "inbounds"
  | some value => iterated value

/-- The configuration with the kept rules; a routing object without rules stays. -/
def withRules (config routing : Fields) (rules : List Fields) : Fields :=
  if (routing.lookup "rules").isSome then put "routing" (.obj (setEntries "rules" rules routing)) config else config

variable (texts : Texts)

/-- `candidate`, once the set of outbounds to remove is known. -/
def assemble (documents : Documents) (inboundTags outboundTags : List String) (inbounds outbounds : List Fields) :
    Except String (Documents × Impact) := do
  let (routing, rules) ← routingOf documents.config
  let balancers ← iterated ((routing.lookup "balancers").getD (.arr []))
  balancers.forM (checkBalancer outboundTags)
  let rewritten ← rules.mapM (rewriteRule inboundTags outboundTags)
  let selectedInbounds := inbounds.filter (labelled inboundTags)
  let selectedOutbounds := outbounds.filter (labelled outboundTags)
  let config := setEntries "outbounds" (outbounds.filter fun item => !labelled outboundTags item)
    (setEntries "inbounds" (inbounds.filter fun item => !labelled inboundTags item)
      (withRules documents.config routing (rewritten.filterMap Rewritten.rule?)))
  require (outbounds.isEmpty ∨ ¬ (outbounds.filter fun item => !labelled outboundTags item).isEmpty)
    "At least one outbound must remain after node cleanup"
  let policies ← policiesOf documents.limits
  let kept ← keepPolicies inboundTags policies
  let after : Documents :=
    { config := config
      limits := put "inbounds" (.arr kept) documents.limits
      suspended := documents.suspended.filter fun entry => entry.1 ∉ inboundTags }
  assertPreserved texts documents.config config
  return (after,
    { inboundTags := sorted (selectedInbounds.filterMap labelOf)
      outboundTags := sorted (selectedOutbounds.filterMap labelOf)
      suspendedTags := sorted ((documents.suspended.map Prod.fst).filter (· ∈ inboundTags))
      removedRules := rewritten.countP (· matches .removed)
      changedRules := rewritten.countP (· matches .changed _)
      removedLimiterPolicies := policies.length - kept.length
      defaultOutboundChanged := outbounds.head?.any fun first =>
        selectedOutbounds.any fun item => (Json.obj first).equal (.obj item) })

/-- `candidate`. The outer layer tells whether its loop comes to an end. -/
def candidate (documents : Documents) (request : CleanupRequest) : Option (Except String (Documents × Impact)) :=
  match tagged documents.config "inbounds", tagged documents.config "outbounds" with
  | .error error, _ => some (.error error)
  | _, .error error => some (.error error)
  | .ok inbounds, .ok outbounds =>
    match apiSelected documents.config request.inboundTags with
    | .error error => some (.error error)
    | .ok true => some (.error "The runtime API listener cannot be removed as a product node")
    | .ok false =>
      match removedOutbounds outbounds request.outboundTags with
      | none => none
      | some (.error error) => some (.error error)
      | some (.ok outboundTags) =>
        some (assemble texts documents request.inboundTags outboundTags inbounds outbounds)

end OpenNode.NodeCleanup
