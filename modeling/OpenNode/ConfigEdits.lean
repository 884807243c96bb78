import OpenNode.Json
import OpenNode.Lib.Assoc

namespace OpenNode.Agent

open Assoc

/-- The fields of an object. -/
abbrev Fields := List (String × Json)

def asObject : Json → Option Fields
  | .obj fields => some fields
  | _ => none

/-- The objects of an array. -/
def objects : Json → Option (List Fields)
  | .arr items => items.mapM asObject
  | _ => none

/-- `d.get(key, [])` as an array of objects; other values raise an
`AttributeError` where the source reads the fields of an item. -/
def entriesOf (key : String) (fields : Fields) : Except String (List Fields) :=
  match objects ((fields.lookup key).getD (.arr [])) with
  | some entries => .ok entries
  | none => .error "object has no attribute 'get'"

def setEntries (key : String) (entries : List Fields) (fields : Fields) : Fields :=
  put key (.arr (entries.map .obj)) fields

theorem objects_eq_some {value : Json} {entries : List Fields} :
    objects value = some entries ↔ value = .arr (entries.map .obj) := by
  cases value with
  | arr items =>
    rw [objects, Json.arr.injEq]
    induction items generalizing entries with
    | nil => cases entries <;> simp
    | cons item rest ih =>
      rw [List.mapM_cons]
      cases item with
      | obj fields =>
        cases found : rest.mapM asObject with
        | none =>
          cases entries with
          | nil => simp [asObject]
          | cons entry entries =>
            have other : rest ≠ entries.map .obj := fun same => by simpa [found] using ih.mpr same
            simp [asObject, other]
        | some others =>
          cases entries with
          | nil => simp [asObject]
          | cons entry entries => simp [asObject, ← ih, found]
      | _ => cases entries <;> simp [asObject]
  | _ => simp [objects]

theorem entriesOf_eq_ok {key : String} {fields : Fields} {entries : List Fields} :
    entriesOf key fields = .ok entries ↔ (fields.lookup key).getD (.arr []) = .arr (entries.map .obj) := by
  unfold entriesOf
  rw [← objects_eq_some]
  cases objects ((fields.lookup key).getD (.arr [])) with
  | none => simp
  | some found => simp

theorem entriesOf_setEntries {key : String} {entries : List Fields} {fields : Fields} :
    entriesOf key (setEntries key entries fields) = .ok entries := by
  rw [entriesOf_eq_ok, setEntries, lookup_put_self]
  rfl

theorem lookup_setEntries (key : String) (entries : List Fields) (fields : Fields) :
    (setEntries key entries fields).lookup key = some (.arr (entries.map .obj)) :=
  lookup_put_self _ _ _

theorem entriesOf_congr {key : String} {before after : Fields} (same : after.lookup key = before.lookup key) :
    entriesOf key after = entriesOf key before := by
  rw [entriesOf, entriesOf, same]

/-- Whether `entry.get(key) == value`. -/
def has (key : String) (value : Json) (entry : Fields) : Bool :=
  ((entry.lookup key).getD .null).equal value

theorem equal_str {text : String} {value : Json} : value.equal (.str text) = true ↔ value = .str text := by
  cases value <;> simp [Json.equal, Json.number?]

theorem str_equal {text : String} {value : Json} : (Json.str text).equal value = true ↔ value = .str text := by
  cases value with
  | str other =>
    rw [Json.equal, beq_iff_eq, Json.str.injEq]
    exact eq_comm
  | _ => simp [Json.equal, Json.number?]

theorem has_iff {key text : String} {entry : Fields} : has key (.str text) entry = true ↔
    entry.lookup key = some (.str text) := by
  unfold has
  rw [equal_str]
  cases entry.lookup key <;> simp

/-- A field as a text; where only the texts of the source matter, any other
value reads as the empty one. -/
def textOf (key : String) (entry : Fields) : String :=
  match entry.lookup key with
  | some (.str text) => text
  | _ => ""

def findTag (entries : List Fields) (tag : Json) : Except String Fields :=
  if !tag.truthy then .error "A tag is required"
  else
    match entries.filter (has "tag" tag) with
    | [entry] => .ok entry
    | _ => .error "Tag must identify exactly one entry"

/-- The list in which the entry that a selector identifies is another one. -/
def replaceEntry (selects : Fields → Bool) (entry : Fields) (entries : List Fields) : List Fields :=
  entries.map fun other => if selects other then entry else other

/-- The list without the entry that a selector identifies. -/
def removeEntry (selects : Fields → Bool) (entries : List Fields) : List Fields :=
  entries.filter fun other => !selects other

/-- The transport options of a Snell inbound. -/
inductive SnellOptions where
  | unshaped (mode : String)
  | obfuscated (version : Int) (mode host : String)
deriving DecidableEq, Repr

def SnellOptions.fields : SnellOptions → Fields
  | .unshaped mode => [("version", .int 6), ("v6Mode", .str mode)]
  | .obfuscated version mode host => [("version", .int version), ("obfsMode", .str mode), ("obfsHost", .str host)]

/-- `d.get(key) or default`. -/
def getOr (key : String) (default : Json) (fields : Fields) : Json :=
  match fields.lookup key with
  | some value => if value.truthy then value else default
  | none => default

/-- `snell_options` of the fields that carry the options. -/
def snellSource (source : Fields) : Except String SnellOptions :=
  match getOr "version" (.int 4) source with
  | .int 6 =>
    match getOr "v6Mode" (.str "default") source with
    | .str mode =>
      if mode ∈ ["default", "unshaped"] then .ok (.unshaped mode)
      else .error "Snell user management requires an authenticated v6 mode"
    | _ => .error "Snell user management requires an authenticated v6 mode"
  | .int version =>
    if version ∈ [4, 5] then
      match getOr "obfsMode" (.str "none") source, getOr "obfsHost" (.str "") source with
      | .str mode, .str host =>
        if mode ∈ ["none", "http", "tls"] then .ok (.obfuscated version mode host)
        else .error "Unsupported Snell obfuscation mode"
      | .str mode, _ =>
        if mode ∈ ["none", "http", "tls"] then .error "Snell obfuscation host must be text"
        else .error "Unsupported Snell obfuscation mode"
      | _, _ => .error "Unsupported Snell obfuscation mode"
    else .error "Snell user management supports versions 4, 5 and 6"
  | _ => .error "Snell user management supports versions 4, 5 and 6"

/-- `snell_options` of settings whose users are known. -/
def snellOptions (settings : Fields) (users : List Fields) : Except String SnellOptions :=
  snellSource (users.head?.getD settings)

/-- The table of containers in `edit_client`. -/
def clientContainer : String → Option String
  | "vless" | "vmess" | "trojan" | "shadowsocks" | "hysteria" => some "clients"
  | "anytls" | "snell" | "mieru" => some "users"
  | "socks" | "socks5" => some "accounts"
  | _ => none

/-- `str(inbound.get("protocol", "")).lower()`. -/
def protocolOf (inbound : Fields) : String :=
  String.ofList ((textOf "protocol" inbound).toList.map Char.toLower)

def emailOf (client : Fields) : Option String :=
  match client.lookup "email" with
  | some (.str email) => if email = "" then none else some email
  | _ => none

/-- The check that all users share the options. -/
def checkShared (options : SnellOptions) : List Fields → Except String Unit
  | [] => .ok ()
  | item :: rest =>
    match snellSource item with
    | .error error => .error error
    | .ok own =>
      if own ≠ options then .error "Snell users must share the inbound's version and transport options"
      else checkShared options rest

/-- What `edit_client` reads of an inbound. -/
structure ClientList where
  container : String
  settings : Fields
  clients : List Fields
  options : Option SnellOptions

/-- The part of `edit_client` that reads the settings. -/
def readClients (inbound : Fields) (container : String) : Except String ClientList :=
  match (inbound.lookup "settings").getD (.obj []) with
  | .obj settings =>
    match objects ((settings.lookup container).getD (.arr [])) with
    | none => .error s!"settings.{container} must be an array of user objects"
    | some clients =>
      if container ≠ "clients" ∧ ((settings.lookup "clients").getD .null).truthy then
        .error s!"This protocol uses settings.{container}, not settings.clients"
      else if protocolOf inbound = "snell" then
        match snellOptions settings clients with
        | .error error => .error error
        | .ok options =>
          match checkShared options clients with
          | .error error => .error error
          | .ok () =>
            .ok { container := container, settings := settings, clients := clients, options := some options }
      else .ok { container := container, settings := settings, clients := clients, options := none }
  | _ => .error "Inbound settings must be an object"

/-- The end of `edit_client`. -/
def writeClients (inbound : Fields) (list : ClientList) (options : Option SnellOptions) (clients : List Fields) :
    Fields :=
  put "settings" (.obj (setEntries list.container clients
    (update list.settings ((options.map SnellOptions.fields).getD [])))) inbound

/-- The client that is written, with the options that it gives the inbound. -/
def placedClient (options : Option SnellOptions) (client : Fields) : Except String (Fields × Option SnellOptions) :=
  match options with
  | none => .ok (client, none)
  | some options =>
    let replacement := update options.fields client
    match snellSource replacement with
    | .error error => .error error
    | .ok candidate => .ok (replacement, some candidate)

def editClient (inbound client : Fields) (remove : Bool) : Except String Fields :=
  match clientContainer (protocolOf inbound) with
  | none => .error "Client editing for this protocol is not implemented"
  | some container =>
    match emailOf client with
    | none => .error "Client email is required"
    | some email =>
      match readClients inbound container with
      | .error error => .error error
      | .ok list =>
        let remaining := removeEntry (has "email" (.str email)) list.clients
        if remove then .ok (writeClients inbound list list.options remaining)
        else
          match placedClient list.options client with
          | .error error => .error error
          | .ok (replacement, candidate) =>
            if remaining ≠ [] ∧ candidate ≠ list.options then
              .error "Changing one user's Snell options would change the whole inbound"
            else
              let index := (list.clients.findIdx? (has "email" (.str email))).getD remaining.length
              .ok (writeClients inbound list candidate
                (remaining.insertIdx (min index remaining.length) replacement))

/-- The values that `[*value]` unpacks. -/
def unpacked : Json → Option (List Json)
  | .arr items => some items
  | .str text => some (text.toList.map fun c => .str (String.singleton c))
  | .obj fields => some (fields.map fun field => .str field.1)
  | _ => none

def hashable : Json → Bool
  | .arr _ | .obj _ => false
  | _ => true

/-- `list(dict.fromkeys(items))`. -/
def distinctItems (items : List Json) : List Json :=
  items.foldl (fun kept item => if kept.any item.equal then kept else kept ++ [item]) []

/-- `list(dict.fromkeys([*excluded, *domains]))`. -/
def extendExcludes (excluded : Json) (domains : List Json) : Except String Json :=
  match unpacked excluded with
  | none => .error "Value after * must be an iterable"
  | some items =>
    if (items ++ domains).all hashable then .ok (.arr (distinctItems (items ++ domains)))
    else .error "unhashable type"

/-- The branch `add-sniffing-exclude`. -/
def addExcludes (inbound : Fields) (domains : Json) : Except String Fields :=
  match domains with
  | .arr items =>
    if items.any fun item => item.str?.isNone then .error "Domains must be a list of strings"
    else
      match (inbound.lookup "sniffing").getD (.obj []) with
      | .obj sniffing =>
        match extendExcludes ((sniffing.lookup "domainsExcluded").getD (.arr [])) items with
        | .error error => .error error
        | .ok excluded => .ok (put "sniffing" (.obj (put "domainsExcluded" excluded sniffing)) inbound)
      | _ => .error "object has no attribute 'setdefault'"
  | _ => .error "Domains must be a list of strings"

/-- One turn of the loop of `reorder`: the entries not yet used, and those in
their new order. -/
def reorderTurn (state : List Json × List Json) (tag : String) : List Json × List Json :=
  match state.1.findIdx? fun entry => entry.get "tag" |>.equal (.str tag) with
  | none => state
  | some index => (state.1.eraseIdx index, state.2 ++ state.1[index]?.toList)

/-- The branch `reorder`. -/
def reorderEntries (entries : List Json) (tags : Json) : Except String (List Json) :=
  match tags with
  | .arr items =>
    match items.mapM Json.str? with
    | none => .error "Reordering requires at least one valid tag"
    | some tags =>
      if tags = [] ∨ "" ∈ tags then .error "Reordering requires at least one valid tag"
      else
        let (rest, ordered) := tags.foldl reorderTurn (entries, [])
        .ok (ordered ++ rest)
  | _ => .error "Reordering requires at least one valid tag"

/-- A tagged entry of the payload, `None` for any other value. -/
def taggedItem (payload : Fields) (key : String) : Option Fields :=
  match payload.lookup key with
  | some (.obj item) => if ((item.lookup "tag").getD .null).truthy then some item else none
  | _ => none

def tagOf (entry : Fields) : Json :=
  (entry.lookup "tag").getD .null

def isTrue (key : String) (payload : Fields) : Bool :=
  match payload.lookup key with
  | some (.bool flag) => flag
  | _ => false

/-- The branch `add`. -/
def addEntry (validateTls : Fields → Option String) (key : String) (payload : Fields) (entries : List Fields) :
    Except String (List Fields) :=
  match taggedItem payload (if key = "inbounds" then "inbound" else "outbound") with
  | none => .error "A tagged entry is required"
  | some item =>
    match if key = "outbounds" then validateTls item else none with
    | some error => .error error
    | none =>
      let existing := entries.filter (has "tag" (tagOf item))
      if existing ≠ [] ∧ isTrue "allow_existing" payload ∧
          Json.equalItems (existing.map .obj) [.obj item] then .ok entries
      else if existing ≠ [] then .error "Tag already exists"
      else .ok (entries ++ [item])

/-- The branch `replace`, of the entry with the tag of the payload. -/
def replaceTagged (validateTls : Fields → Option String) (key : String) (payload : Fields) (entries : List Fields)
    (tag : Json) (current : Fields) : Except String (List Fields) :=
  match taggedItem payload (if key = "inbounds" then "inbound" else "outbound") with
  | none => .error "A tagged replacement is required"
  | some item =>
    match if key = "outbounds" then validateTls item else none with
    | some error => .error error
    | none =>
      let renamed := !(tagOf item).equal (tagOf current)
      if key = "inbounds" ∧ renamed then .error "Inbound replacement must retain its tag"
      else if renamed ∧ entries.any (has "tag" (tagOf item)) then .error "Replacement tag already exists"
      else .ok (replaceEntry (has "tag" tag) item entries)

/-- The branches of `edit_entries` that edit the entry with a tag. -/
def editTagged (validateTls : Fields → Option String) (key action : String) (payload : Fields)
    (entries : List Fields) : Except String (List Fields) :=
  let given := (payload.lookup "tag").getD .null
  let tag :=
    if action ∈ ["replace", "update"] ∧ key = "outbounds" ∧ !given.truthy then
      match payload.lookup "outbound" with
      | some (.obj item) => tagOf item
      | _ => given
    else given
  match findTag entries tag with
  | .error error => .error error
  | .ok current =>
    if action = "remove" then .ok (removeEntry (has "tag" tag) entries)
    else if action ∈ ["replace", "update"] then replaceTagged validateTls key payload entries tag current
    else if action ∈ ["add-client", "remove-client"] ∧ key = "inbounds" then
      match payload.lookup "client" with
      | some (.obj client) =>
        (editClient current client (action = "remove-client")).map fun edited =>
          replaceEntry (has "tag" tag) edited entries
      | _ =>
        (editClient current [] (action = "remove-client")).map fun edited =>
          replaceEntry (has "tag" tag) edited entries
    else if action = "add-sniffing-exclude" ∧ key = "inbounds" then
      (addExcludes current ((payload.lookup "domains").getD (.arr []))).map fun edited =>
        replaceEntry (has "tag" tag) edited entries
    else .error "Unsupported entry action"

def editEntries (validateTls : Fields → Option String) (key : String) (payload config : Fields) :
    Except String Fields :=
  let action := textOf "action" payload
  if action = "reorder" then
    match (config.lookup key).getD (.arr []) with
    | .arr entries =>
      (reorderEntries entries ((payload.lookup "tags").getD (.arr []))).map fun entries =>
        put key (.arr entries) config
    | _ => .error "object is not a list"
  else
    match entriesOf key config with
    | .error error => .error error
    | .ok entries =>
      if action = "add" then (addEntry validateTls key payload entries).map fun entries =>
        setEntries key entries config
      else if action = "remove" ∧ isTrue "ignore_missing" payload ∧
          entries.all (fun entry => !has "tag" ((payload.lookup "tag").getD .null) entry) then
        .ok (setEntries key entries config)
      else
        (editTagged validateTls key action payload entries).map fun entries => setEntries key entries config

def routingRulePriority (rule : Fields) : Int :=
  let outboundTag := textOf "outboundTag" rule
  let marktag := textOf "marktag" rule
  if outboundTag = "nginx" then -1
  else if outboundTag.startsWith "tunnel-" then 0
  else if marktag.startsWith "routed:" then
    if (marktag.splitOn ":").length = 4 then 1 else 2
  else if marktag.startsWith "managed-egress-rule:" then 2
  else if marktag ∈ ["home_broadband_warp", "speedtest_warp"] then 3
  else 4

/-- The selector of `routing_rule`. -/
def ruleSelector (payload : Fields) : Option (Fields → Bool) :=
  let marktag := (payload.lookup "marktag").getD .null
  let outboundTag := (payload.lookup "outbound_tag").getD .null
  if marktag.truthy then some (has "marktag" marktag)
  else if outboundTag.truthy then some (has "outboundTag" outboundTag)
  else none

/-- `routing_rule`, with its selector. -/
def routingRule (rules : List Fields) (payload : Fields) : Except String ((Fields → Bool) × Fields) :=
  match ruleSelector payload with
  | none => .error "A rule marktag or outbound_tag is required"
  | some selects =>
    match rules.filter selects with
    | [rule] => .ok (selects, rule)
    | _ => .error "Routing selector must identify exactly one rule"

/-- The branch `add_rule`. -/
def addRule (payload : Fields) (rules : List Fields) : Except String (List Fields) :=
  match payload.lookup "rule" with
  | some (.obj rule) =>
    let marktag := (rule.lookup "marktag").getD .null
    let existing := rules.filter (has "marktag" marktag)
    if existing ≠ [] ∧ isTrue "allow_existing" payload ∧
      Json.equalItems (existing.map .obj) [.obj rule] then .ok rules
    else if marktag.truthy ∧ existing ≠ [] then .error "Rule marktag already exists"
    else
      let index := (rules.findIdx? fun other => routingRulePriority rule ≤ routingRulePriority other).getD
        rules.length
      .ok (rules.insertIdx index rule)
  | _ => .error "Rule must be an object"

/-- `email in users`. -/
def holdsUser (users : Json) (email : String) : Except String Bool :=
  match users with
  | .arr items => .ok (items.any (Json.equal (.str email)))
  | .str text => .ok (decide (email.toList <:+: text.toList))
  | .obj fields => .ok ((fields.lookup email).isSome)
  | _ => .error "argument is not iterable"

/-- The users of a rule with one more. -/
def addUser (rule : Fields) (email : String) : Except String Fields :=
  let users := (rule.lookup "user").getD (.arr [])
  match holdsUser users email with
  | .error error => .error error
  | .ok true => .ok (putDefault "user" (.arr []) rule)
  | .ok false =>
    match users with
    | .arr items => .ok (put "user" (.arr (items ++ [.str email])) rule)
    | _ => .error "object has no attribute 'append'"

/-- The rules without a user of one of them; a rule goes with its last user. -/
def removeUser (rules : List Fields) (selects : Fields → Bool) (rule : Fields) (email : String) :
    Except String (List Fields) :=
  let users := (rule.lookup "user").getD (.arr [])
  match holdsUser users email with
  | .error error => .error error
  | .ok false => .ok (replaceEntry selects (putDefault "user" (.arr []) rule) rules)
  | .ok true =>
    match users with
    | .arr items =>
      let left := items.eraseP (Json.equal (.str email))
      if left.isEmpty then .ok (removeEntry selects rules)
      else .ok (replaceEntry selects (put "user" (.arr left) rule) rules)
    | _ => .error "object has no attribute 'remove'"

/-- The branches of `edit_routing` that edit the users of a rule. -/
def editRuleUser (action : String) (payload : Fields) (rules : List Fields) : Except String (List Fields) :=
  match routingRule rules payload with
  | .error error => .error error
  | .ok (selects, rule) =>
    match payload.lookup "user_email" with
    | some (.str email) =>
      if email = "" then .error "User email is required"
      else if action = "add_user_to_rule" then
        (addUser rule email).map fun rule => replaceEntry selects rule rules
      else removeUser rules selects rule email
    | _ => .error "User email is required"

/-- The branch `remove_rule` for a selector. -/
def removeRule (payload : Fields) (rules : List Fields) : Except String (List Fields) :=
  if isTrue "ignore_missing" payload ∧
      rules.all (fun rule => !has "marktag" ((payload.lookup "marktag").getD .null) rule) then .ok rules
  else (routingRule rules payload).map fun (selects, _) => removeEntry selects rules

/-- A value of `set` that the configuration keeps beside its routing. -/
def setObservatory (payload : Fields) (sources : List String) (target : String) (config : Fields) :
    Except String Fields :=
  match sources.filterMap fun source => payload.lookup source with
  | [] => .ok config
  | value :: others =>
    if others.any fun other => !value.equal other then .error "Conflicting burst observatory values"
    else
      match value with
      | .null => .ok (config.filter fun field => field.1 ≠ target)
      | _ => .ok (put target value config)

/-- The branch `set`. -/
def setRouting (payload config : Fields) : Except String Fields :=
  match payload.lookup "routing" with
  | some (.obj routing) =>
    match setObservatory payload ["observatory"] "observatory" (put "routing" (.obj routing) config) with
    | .error error => .error error
    | .ok config => setObservatory payload ["burstObservatory", "burst_observatory"] "burstObservatory" config
  | _ => .error "Routing must be an object"

/-- The branch `remove_rule` for an index. -/
def removeRuleAt (payload : Fields) (rules : List Json) : Except String (List Json) :=
  match (payload.lookup "index").getD .null with
  | .int index =>
    if 0 ≤ index ∧ index < rules.length then .ok (rules.eraseIdx index.toNat)
    else .error "Rule index is out of bounds"
  | .bool flag =>
    if flag.toNat < rules.length then .ok (rules.eraseIdx flag.toNat) else .error "Rule index is out of bounds"
  | _ => .error "Rule index is out of bounds"

def editRouting (payload config : Fields) : Except String Fields :=
  let action := textOf "action" payload
  match (config.lookup "routing").getD (.obj []) with
  | .obj routing =>
    let withRules := fun rules : List Fields => put "routing" (.obj (setEntries "rules" rules routing)) config
    if action = "set" then setRouting payload config
    else if action = "remove_rule" ∧ !((payload.lookup "marktag").getD .null).truthy then
      match (routing.lookup "rules").getD (.arr []) with
      | .arr rules =>
        (removeRuleAt payload rules).map fun rules => put "routing" (.obj (put "rules" (.arr rules) routing)) config
      | _ => .error "object is not a list"
    else
      match entriesOf "rules" routing with
      | .error error => .error error
      | .ok rules =>
        if action = "add_rule" then (addRule payload rules).map withRules
        else if action = "remove_rule" then (removeRule payload rules).map withRules
        else if action ∈ ["add_user_to_rule", "remove_user_from_rule"] then
          (editRuleUser action payload rules).map withRules
        else .error "Unsupported routing action"
  | _ => .error "object has no attribute 'setdefault'"

end OpenNode.Agent
