import OpenNode.WarpOutbounds

namespace OpenNode.ManagedEgress

open Assoc Agent Warp

def outboundPrefix : String :=
  "managed-egress:"

def rulePrefix : String :=
  "managed-egress-rule:"

def clientPrefix : String :=
  "open_node_egress__"

def sniffingKey : String :=
  "_openNodeManagedEgressSniffing"

/-- `text.startswith(start)`. -/
def begins (start text : String) : Bool :=
  start.toList.isPrefixOf text.toList

/-- What the canonical texts take from the standard library: the text of a
floating-point number, and `value.strip().lower()`. -/
structure Texts where
  float : Rat → String
  clean : String → String

def hexUnit (n : Nat) : String :=
  "\\u" ++ String.ofList ([n / 4096, n / 256, n / 16, n].map fun digit => (digit % 16).digitChar)

/-- A character of a text in ASCII. -/
def escaped (c : Char) : String :=
  let n := c.toNat
  if c = '"' then "\\\""
  else if c = '\\' then "\\\\"
  else if 32 ≤ n ∧ n ≤ 126 then String.singleton c
  else if c = '\n' then "\\n"
  else if c = '\r' then "\\r"
  else if c = '\t' then "\\t"
  else if n = 8 then "\\b"
  else if n = 12 then "\\f"
  else if n < 65536 then hexUnit n
  else hexUnit (55296 + (n - 65536) / 1024) ++ hexUnit (56320 + (n - 65536) % 1024)

def quote (text : String) : String :=
  "\"" ++ String.join (text.toList.map escaped) ++ "\""

variable (texts : Texts)

mutual

/-- `json.dumps` with sorted keys and without blanks. -/
def dumps : Json → String
  | .null => "null"
  | .bool value => if value then "true" else "false"
  | .int value => toString value
  | .float value => texts.float value
  | .str text => quote text
  | .arr items => "[" ++ ",".intercalate (dumpsItems items) ++ "]"
  | .obj fields =>
    "\x7b" ++ ",".intercalate (((dumpsFields fields).insertionSort fun a b => a.1 ≤ b.1).map fun field =>
      quote field.1 ++ ":" ++ field.2) ++ "\x7d"

def dumpsItems : List Json → List String
  | [] => []
  | item :: rest => dumps item :: dumpsItems rest

def dumpsFields : List (String × Json) → List (String × String)
  | [] => []
  | (key, value) :: rest => (key, dumps value) :: dumpsFields rest

end

def canonicalRecords (values : List Json) : List String :=
  (values.map (dumps texts)).insertionSort (· ≤ ·)

/-- The objects of an array; any other value has none. -/
def listed : Json → List Fields
  | .arr items => items.filterMap asObject
  | _ => []

/-- `d.get(key) or {}` when it is an object. -/
def subObject (key : String) (fields : Fields) : Option Fields :=
  match fields.lookup key with
  | none => some []
  | some value => if value.truthy then asObject value else some []

def isManaged (item : Fields) : Bool :=
  begins outboundPrefix (textOf "tag" item)

/-- The outbounds of the managed egress and of WARP. -/
def managedOutbounds (config : Fields) : List Fields :=
  (outbounds config).filter fun item => isManaged item || isWarp item

def managedTags (config : Fields) : List String :=
  ((outbounds config).filter isManaged).map (textOf "tag")

def routingEntries (key : String) (config : Fields) : List Fields :=
  match subObject "routing" config with
  | some routing => listed ((routing.lookup key).getD (.arr []))
  | none => []

def isManagedRule (rule : Fields) : Bool :=
  begins rulePrefix (textOf "marktag" rule) || begins outboundPrefix (textOf "outboundTag" rule)

/-- The rules of the managed egress and those that target one of its outbounds. -/
def managedRules (config : Fields) : List Fields :=
  (routingEntries "rules" config).filter isManagedRule

def containers : List String :=
  ["clients", "users", "accounts"]

def isEgressClient (client : Fields) : Bool :=
  begins clientPrefix (textOf "email" client)

/-- The egress clients of an inbound, each with its place. -/
def inboundClients (inbound : Fields) : List Fields :=
  match subObject "settings" inbound with
  | none => []
  | some settings =>
    containers.flatMap fun container =>
      ((listed ((settings.lookup container).getD (.arr []))).filter isEgressClient).map fun client =>
        [("inbound_tag", tagOf inbound), ("container", .str container), ("client", .obj client)]

def inbounds (config : Fields) : List Fields :=
  listed ((config.lookup "inbounds").getD (.arr []))

def egressClients (config : Fields) : List Fields :=
  (inbounds config).flatMap inboundClients

/-- The selectors of a balancer: a list, or one text. -/
def selectors (balancer : Fields) : List String :=
  match balancer.lookup "selector" with
  | some (.arr items) => items.filterMap Json.str?
  | some (.str text) => [text]
  | _ => []

/-- Whether a balancer selects one of the tags or falls back to managed egress. -/
def selectsManaged (tags : List String) (balancer : Fields) : Bool :=
  ((selectors balancer).any fun selector => selector ≠ "" && tags.any (begins selector)) ||
    begins outboundPrefix (textOf "fallbackTag" balancer)

/-- `_managed_balancer_records`. -/
def managedBalancers (config : Fields) : List Fields :=
  (routingEntries "balancers" config).filter (selectsManaged (managedTags config))

/-- The ownership record of the sniffing exclusions. -/
def sniffingRecord (config : Fields) : List Fields :=
  match config.lookup sniffingKey with
  | some raw => [[("value", raw)]]
  | none => []

/-- The domains of a list of texts. -/
def domainsOf : Json → List String
  | .arr items => (items.filterMap Json.str?).filterMap fun text => if texts.clean text = "" then none
      else some (texts.clean text)
  | _ => []

/-- The domains that an entry of the record requires. -/
def requiredDomains (entry : Fields) : List String :=
  domainsOf texts ((entry.lookup "ownedDomains").getD (.arr [])) ++
    match (entry.lookup "references").getD (.obj []) with
    | .obj references => references.flatMap fun reference => domainsOf texts reference.2
    | _ => []

/-- The domains that an inbound excludes. -/
def excludedOf (inbound : Fields) : List String :=
  match subObject "sniffing" inbound with
  | some sniffing => domainsOf texts ((sniffing.lookup "domainsExcluded").getD (.arr []))
  | none => []

def sortedSet (domains : List String) : Json :=
  .arr ((domains.dedup.insertionSort (· ≤ ·)).map .str)

/-- The required exclusions of one inbound, and those that are there. -/
def exclusionRecord (config : Fields) (tag : String) (entry : Fields) : Fields :=
  let found := (inbounds config).filter (has "tag" (.str tag))
  let required := requiredDomains texts entry
  let excluded :=
    match found with
    | [inbound] => excludedOf texts inbound
    | _ => []
  [("inbound_tag", .str tag), ("match_count", .int found.length), ("required_domains", sortedSet required),
    ("present_domains", sortedSet (required.filter fun domain => domain ∈ excluded))]

/-- The required exclusions with their presence, for every inbound of the record. -/
def exclusionRecords (config : Fields) : List Fields :=
  match config.lookup sniffingKey with
  | some (.obj raw) =>
    match raw.lookup "version", raw.lookup "inbounds" with
    | some version, some (.obj entries) =>
      if version.equal (.int 1) then
        entries.filterMap fun (tag, entry) => (asObject entry).map (exclusionRecord texts config tag)
      else []
    | _, _ => []
  | _ => []

/-- Whether `for client in settings.get(container, [])` runs in every inbound. -/
def iterable : Json → Bool
  | .arr _ | .obj _ | .str _ => true
  | _ => false

def clientsReadable (config : Fields) : Bool :=
  (inbounds config).all fun inbound =>
    match subObject "settings" inbound with
    | none => true
    | some settings => containers.all fun container => iterable ((settings.lookup container).getD (.arr []))

def managedEgressRecords (config : Fields) : Except String (List (List String)) :=
  if clientsReadable config then
    .ok ([managedOutbounds config, managedRules config, egressClients config, managedBalancers config,
      sniffingRecord config, exclusionRecords texts config].map fun records =>
        canonicalRecords texts (records.map .obj))
  else .error "object is not iterable"

/-- `assert_managed_egress_preserved`. -/
def assertPreserved (before after : Fields) : Except String Unit :=
  match managedEgressRecords texts before, managedEgressRecords texts after with
  | .ok records, .ok records' =>
    if records = records' then .ok ()
    else .error ("Managed egress entries and WARP outbounds must be changed through the dedicated " ++
      "server egress workflow or WARP workflow")
  | .error error, _ => .error error
  | _, .error error => .error error

/-- The same entries, in whatever order, as their canonical texts tell. -/
def SameEntries (before after : List Fields) : Prop :=
  (before.map fun entry => dumps texts (.obj entry)).Perm (after.map fun entry => dumps texts (.obj entry))

/-- The managed egress and the WARP outbounds are as before. -/
structure Frozen (before after : Fields) : Prop where
  outbounds : SameEntries texts (managedOutbounds before) (managedOutbounds after)
  rules : SameEntries texts (managedRules before) (managedRules after)
  clients : SameEntries texts (egressClients before) (egressClients after)
  balancers : SameEntries texts (managedBalancers before) (managedBalancers after)
  record : SameEntries texts (sniffingRecord before) (sniffingRecord after)
  exclusions : SameEntries texts (exclusionRecords texts before) (exclusionRecords texts after)

theorem Frozen.refl (config : Fields) : Frozen texts config config :=
  ⟨.refl _, .refl _, .refl _, .refl _, .refl _, .refl _⟩

variable {texts}

theorem Frozen.trans {a b c : Fields} (first : Frozen texts a b) (second : Frozen texts b c) : Frozen texts a c :=
  ⟨first.outbounds.trans second.outbounds, first.rules.trans second.rules, first.clients.trans second.clients,
    first.balancers.trans second.balancers, first.record.trans second.record,
      first.exclusions.trans second.exclusions⟩

theorem Frozen.symm {a b : Fields} (frozen : Frozen texts a b) : Frozen texts b a :=
  ⟨frozen.outbounds.symm, frozen.rules.symm, frozen.clients.symm, frozen.balancers.symm, frozen.record.symm,
    frozen.exclusions.symm⟩

theorem canonicalRecords_eq {before after : List Fields}
    (same : canonicalRecords texts (before.map .obj) = canonicalRecords texts (after.map .obj)) :
    SameEntries texts before after := by
  unfold canonicalRecords at same
  rw [List.map_map, List.map_map] at same
  exact ((List.perm_insertionSort _ _).symm.trans (.of_eq same)).trans (List.perm_insertionSort _ _)

theorem assertPreserved_ok {before after : Fields} (passed : assertPreserved texts before after = .ok ()) :
    Frozen texts before after := by
  unfold assertPreserved at passed
  split at passed
  · rename_i records records' read read'
    split at passed
    · rename_i same
      subst same
      unfold managedEgressRecords at read read'
      split at read <;> split at read'
      · have equal := (Except.ok.inj read).trans (Except.ok.inj read').symm
        simp only [List.map_cons, List.map_nil, List.cons.injEq, and_true] at equal
        obtain ⟨outbounds, rules, clients, balancers, record, exclusions⟩ := equal
        exact ⟨canonicalRecords_eq outbounds, canonicalRecords_eq rules, canonicalRecords_eq clients,
          canonicalRecords_eq balancers, canonicalRecords_eq record, canonicalRecords_eq exclusions⟩
      · nomatch read'
      · nomatch read
      · nomatch read
    · nomatch passed
  · nomatch passed
  · nomatch passed

end OpenNode.ManagedEgress
