import OpenNode.ConfigEdits
import OpenNode.Lib.Rows

namespace OpenNode.Warp

open Assoc Agent List

def tags : List String :=
  ["warp-v4", "warp-v6"]

/-- The tag of an outbound when it is one of `TAGS`. -/
def warpTag (item : Fields) : Option String :=
  match item.lookup "tag" with
  | some (.str tag) => if tag ∈ tags then some tag else none
  | _ => none

/-- `item.get("tag") in TAGS`. -/
def isWarp (item : Fields) : Bool :=
  (warpTag item).isSome

structure PeerConfig where
  clientId : String
  addrV4 : String
  addrV6 : String
  peerPublicKey : String
  peerEndpoint : String
  accountType : String
deriving DecidableEq, Repr

inductive Phase where
  | registered
  | removing
deriving DecidableEq, Repr

/-- What `warp.json` holds. -/
structure WarpState where
  deviceId : String
  accessToken : String
  privateKey : String
  publicKey : String
  registeredAt : String
  phase : Phase
  config : Option PeerConfig
  ownedOutbounds : List Fields

/-- What the code takes from the standard library: `b64decode` with the length
it expects, `ip_address` of a version, the checks of an endpoint and `strip`. -/
structure Codec where
  decodeKey : String → Nat → Option (List Nat)
  address : Nat → String → Option String
  endpoint : String → Bool
  strip : String → String

variable (codec : Codec)

/-- `PeerConfig.address`. -/
def interfaceAddress (version : Nat) (value : String) : Option String :=
  if value = "" then some "" else codec.address version value

/-- `peer_config`; any value that the provider left out or that is invalid raises. -/
def peerConfig (response : Json) : Option PeerConfig := do
  let config ← response.find? "config"
  let addresses ← (← config.find? "interface").find? "addresses"
  let peer ← (← (← config.find? "peers").items?).head?
  let clientId ← (← config.find? "client_id").str?
  guard addresses.isObj
  let addrV4 ← interfaceAddress codec 4 (← ((addresses.find? "v4").getD (.str "")).str?)
  let addrV6 ← interfaceAddress codec 6 (← ((addresses.find? "v6").getD (.str "")).str?)
  let publicKey ← (← peer.find? "public_key").str?
  let endpoint ← (← (← peer.find? "endpoint").find? "host").str?
  let account := (response.find? "account").getD (.obj [])
  guard account.isObj
  let accountType ← ((account.find? "account_type").getD (.str "free")).str?
  guard ((codec.decodeKey clientId 3).isSome ∧ (codec.decodeKey publicKey 32).isSome)
  guard (endpoint.length ≤ 300 ∧ codec.endpoint endpoint ∧ accountType.length ≤ 40)
  guard (addrV4 ≠ "" ∨ addrV6 ≠ "")
  return { clientId := clientId, addrV4 := addrV4, addrV6 := addrV6, peerPublicKey := publicKey,
           peerEndpoint := endpoint, accountType := accountType }

/-- The addresses of the interface with their lengths. -/
def PeerConfig.addresses (config : PeerConfig) : List Json :=
  [(config.addrV4, "/32"), (config.addrV6, "/128")].filterMap fun (value, suffix) =>
    if value = "" then none else some (.str (value ++ suffix))

def buildOutbound (state : WarpState) (config : PeerConfig) (reserved : List Nat)
    (tag strategy : String) : Fields :=
  [("tag", .str tag), ("protocol", .str "wireguard"),
    ("settings", .obj [("secretKey", .str state.privateKey), ("address", .arr config.addresses),
      ("peers", .arr [.obj [("publicKey", .str config.peerPublicKey), ("endpoint", .str config.peerEndpoint)]]),
      ("reserved", .arr (reserved.map fun byte => .int byte)), ("mtu", .int 1280), ("noKernelTun", .bool true),
      ("domainStrategy", .str strategy)])]

def buildOutbounds (state : WarpState) : Option (List Fields) := do
  let config ← state.config
  let reserved ← codec.decodeKey config.clientId 3
  return (tags.zip ["ForceIPv4v6", "ForceIPv6v4"]).map fun (tag, strategy) =>
    buildOutbound state config reserved tag strategy

/-- Whether a key and its value choose a WARP outbound, as `walk` tells. -/
def chooses (key : String) (value : Json) : Bool :=
  (["outboundTag", "dialerProxy", "fallbackTag"].contains key && tags.any fun tag => value.equal (.str tag)) ||
  (key = "proxySettings" && tags.any fun tag => (value.get "tag").equal (.str tag)) ||
  (["selector", "subjectSelector"].contains key &&
    match value with
    | .arr items => items.any fun item =>
        match item with
        | .str start => tags.any fun tag => start.toList.isPrefixOf tag.toList
        | _ => false
    | _ => false)

mutual

/-- The `walk` of `referenced`. -/
def referenced : Json → Bool
  | .arr items => referencedItems items
  | .obj fields => referencedFields fields
  | _ => false

def referencedItems : List Json → Bool
  | [] => false
  | item :: rest => referenced item || referencedItems rest

def referencedFields : List (String × Json) → Bool
  | [] => false
  | (key, item) :: rest => chooses key item || referenced item || referencedFields rest

end

/-- The values over which `for item in entries` runs, when they are objects. -/
def outboundEntries (config : Fields) : Except String (List Fields) :=
  match (config.lookup "outbounds").getD (.arr []) with
  | .obj [] | .str "" => .ok []
  | entries =>
    match objects entries with
    | some entries => .ok entries
    | none => .error "object has no attribute 'get'"

/-- The comprehension that puts each replacement in the place of the outbound
with its tag, with the replacements that found none. -/
def place (remove : Bool) : List Fields → List Fields → List Fields × List Fields
  | left, [] => ([], left)
  | left, item :: rest =>
    if remove ∧ isWarp item then place remove left rest
    else
      match left.find? fun other => (tagOf other).equal (tagOf item) with
      | some other =>
        let (placed, left) := place remove (left.filter fun other => !(tagOf other).equal (tagOf item)) rest
        (other :: placed, left)
      | none =>
        let (placed, left) := place remove left rest
        (item :: placed, left)

/-- `Warp.candidate`. -/
def candidate (config : Fields) (state : Option WarpState) (remove : Bool) : Except String Fields :=
  match outboundEntries config with
  | .error error => .error error
  | .ok entries =>
    let current := entries.filter isWarp
    let owned := (state.map WarpState.ownedOutbounds).getD []
    if (current.any fun item => !owned.any fun other => (Json.obj item).equal (.obj other)) ∨
        ¬(current.filterMap warpTag).Nodup then
      .error "WARP tags conflict with unmanaged or edited outbounds"
    else if remove ∧ referenced (.obj config) then
      .error "Remove routing, balancer and proxy references to WARP before removal"
    else if remove ∧ (entries.head?.map isWarp).getD false then
      .error "Select a non-WARP default outbound before removal"
    else
      match if remove then some [] else (state.map (buildOutbounds codec)).getD (some []) with
      | none => .error "WARP provider configuration needs refresh"
      | some replacement =>
        if (entries.filter fun item => !(remove && isWarp item)).any fun item => !hashable (tagOf item) then
          .error "unhashable type"
        else
          let (placed, left) := place remove replacement entries
          if placed ++ left = [] then .error "WARP removal requires an explicit remaining default outbound"
          else .ok (setEntries "outbounds" (placed ++ left) config)

/-- A key with its value at any depth of a document. -/
inductive Occurs (key : String) (value : Json) : Json → Prop
  | here {fields} : (key, value) ∈ fields → Occurs key value (.obj fields)
  | field {fields other inner} : (other, inner) ∈ fields → Occurs key value inner → Occurs key value (.obj fields)
  | item {items inner} : inner ∈ items → Occurs key value inner → Occurs key value (.arr items)

/-- What the documentation of Xray lets choose an outbound with the tag: the
target of a rule, the dialer of a socket, the fallback of a balancer, the
outbound of a proxy setting, and the prefixes of a selector or an observatory. -/
inductive Chooses (tag : String) : String → Json → Prop
  | target {key} : key ∈ ["outboundTag", "dialerProxy", "fallbackTag"] → Chooses tag key (.str tag)
  | proxy {fields} : fields.lookup "tag" = some (.str tag) → Chooses tag "proxySettings" (.obj fields)
  | listed {key items start} : key ∈ ["selector", "subjectSelector"] → .str start ∈ items →
      start.toList <+: tag.toList → Chooses tag key (.arr items)

/-- Somewhere in the document an outbound with a WARP tag is chosen. -/
def Chosen (document : Json) : Prop :=
  ∃ key value tag, tag ∈ tags ∧ Occurs key value document ∧ Chooses tag key value

theorem get_eq_str {fields : Fields} {key text : String} :
    (Json.obj fields).get key = .str text ↔ fields.lookup key = some (.str text) := by
  rw [Json.get, Json.find?]
  cases fields.lookup key <;> simp

theorem chooses_iff {key : String} {value : Json} : chooses key value = true ↔
    ∃ tag ∈ tags, Chooses tag key value := by
  constructor
  · intro chosen
    simp only [chooses, Bool.or_eq_true, Bool.and_eq_true, any_eq_true, contains_iff_mem, decide_eq_true_eq,
      equal_str] at chosen
    rcases chosen with (⟨named, tag, known, rfl⟩ | ⟨rfl, tag, known, same⟩) | ⟨named, found⟩
    · exact ⟨tag, known, .target named⟩
    · cases value with
      | obj fields => exact ⟨tag, known, .proxy (get_eq_str.mp same)⟩
      | _ => nomatch same
    · cases value with
      | arr items =>
        simp only [any_eq_true] at found
        obtain ⟨item, inside, starts⟩ := found
        cases item with
        | str start =>
          obtain ⟨tag, known, starts⟩ := List.any_eq_true.mp starts
          exact ⟨tag, known, .listed named inside (List.isPrefixOf_iff_prefix.mp starts)⟩
        | _ => nomatch starts
      | _ => nomatch found
  · rintro ⟨tag, known, chosen⟩
    simp only [chooses, Bool.or_eq_true, Bool.and_eq_true, any_eq_true, contains_iff_mem, decide_eq_true_eq,
      equal_str]
    cases chosen with
    | target named => exact .inl (.inl ⟨named, tag, known, rfl⟩)
    | proxy found => exact .inl (.inr ⟨rfl, tag, known, get_eq_str.mpr found⟩)
    | listed named inside starts =>
      exact .inr ⟨named, List.any_eq_true.mpr ⟨_, inside, List.any_eq_true.mpr
        ⟨tag, known, List.isPrefixOf_iff_prefix.mpr starts⟩⟩⟩

theorem referencedItems_iff {items : List Json} : referencedItems items = true ↔
    ∃ item ∈ items, referenced item = true := by
  induction items with
  | nil => simp [referencedItems]
  | cons item rest ih => rw [referencedItems, Bool.or_eq_true, ih, exists_mem_cons_iff]

theorem referencedFields_iff {fields : List (String × Json)} :
    referencedFields fields = true ↔ ∃ field ∈ fields, chooses field.1 field.2 = true ∨
      referenced field.2 = true := by
  induction fields with
  | nil => simp [referencedFields]
  | cons field rest ih => rw [referencedFields, Bool.or_eq_true, Bool.or_eq_true, ih, exists_mem_cons_iff]

theorem Chosen.referenced {document : Json} (chosen : Chosen document) : referenced document = true := by
  obtain ⟨key, value, tag, known, occurs, chooses⟩ := chosen
  have seen := chooses_iff.mpr ⟨tag, known, chooses⟩
  induction occurs with
  | here inside => exact referencedFields_iff.mpr ⟨_, inside, .inl seen⟩
  | field inside _ ih => exact referencedFields_iff.mpr ⟨_, inside, .inr ih⟩
  | item inside _ ih => exact referencedItems_iff.mpr ⟨_, inside, ih⟩

/-- The outbounds of a configuration. -/
def outbounds (config : Fields) : List Fields :=
  match config.lookup "outbounds" with
  | some (.arr items) => items.filterMap asObject
  | _ => []

def warps (config : Fields) : List Fields :=
  (outbounds config).filter isWarp

def others (config : Fields) : List Fields :=
  (outbounds config).filter fun item => !isWarp item

variable {config : Fields} {entries : List Fields}

theorem outbounds_of_entries (read : outboundEntries config = .ok entries) : outbounds config = entries := by
  have listed : ∀ items : List Fields, (items.map Json.obj).filterMap asObject = items := by
    intro items
    rw [filterMap_map]
    exact filterMap_some
  unfold outboundEntries at read
  unfold outbounds
  cases found : config.lookup "outbounds" with
  | none =>
    rw [found] at read
    exact (Except.ok.inj read)
  | some value =>
    rw [found, Option.getD_some] at read
    split at read
    · cases read
      rfl
    · cases read
      rfl
    · split at read
      · rename_i same
        cases read
        rw [objects_eq_some.mp same]
        exact listed entries
      · nomatch read

theorem outbounds_setEntries (config : Fields) (entries : List Fields) :
    outbounds (setEntries "outbounds" entries config) = entries := by
  rw [outbounds, lookup_setEntries]
  dsimp only
  rw [filterMap_map]
  exact filterMap_some

variable {item : Fields}

theorem warpTag_eq {tag : String} : warpTag item = some tag ↔ tagOf item = .str tag ∧ tag ∈ tags := by
  unfold warpTag tagOf
  split
  · rename_i found
    rw [found]
    split
    · rename_i inside
      simp only [Option.some.injEq, Option.getD_some, Json.str.injEq]
      exact ⟨fun same => ⟨same, same ▸ inside⟩, And.left⟩
    · simp only [Option.getD_some, Json.str.injEq, reduceCtorEq, false_iff, not_and]
      rintro rfl
      assumption
  · rename_i other
    simp only [reduceCtorEq, false_iff, not_and]
    intro same
    cases found : item.lookup "tag" with
    | none => rw [found] at same; nomatch same
    | some value =>
      rw [found] at same
      exact absurd (found.trans (congrArg some same)) (other tag)

theorem equal_tag {other : Fields} (warp : isWarp other = true) :
    (tagOf other).equal (tagOf item) = true ↔ warpTag item = warpTag other := by
  obtain ⟨tag, known⟩ := Option.isSome_iff_exists.mp warp
  obtain ⟨named, inside⟩ := warpTag_eq.mp known
  rw [named, known, warpTag_eq, str_equal]
  exact ⟨fun same => ⟨same, inside⟩, And.left⟩

theorem place_remove (entries : List Fields) :
    place true [] entries = (entries.filter fun item => !isWarp item, []) := by
  induction entries with
  | nil => rfl
  | cons item rest ih =>
    unfold place
    by_cases warp : isWarp item
    · rw [if_pos ⟨rfl, warp⟩, ih, filter_cons_of_neg (by simp [warp])]
    · rw [if_neg fun both => warp both.2, filter_cons_of_pos (by simp [warp])]
      simp only [List.find?_nil, ih]

variable {left : List Fields}

theorem place_cons (warps : ∀ other ∈ left, isWarp other = true) (item : Fields) (rest : List Fields) :
    (∃ other ∈ left, warpTag item = warpTag other ∧ (place false left (item :: rest)) =
        (other :: (place false (left.filter fun other => !(warpTag item = warpTag other)) rest).1,
          (place false (left.filter fun other => !(warpTag item = warpTag other)) rest).2)) ∨
      (∀ other ∈ left, warpTag item ≠ warpTag other) ∧
        place false left (item :: rest) = (item :: (place false left rest).1, (place false left rest).2) := by
  rw [place, if_neg (by simp)]
  have kept : (left.filter fun other => !(tagOf other).equal (tagOf item)) =
      left.filter fun other => !(warpTag item = warpTag other) := by
    refine filter_congr fun other inside => ?_
    rw [Bool.eq_iff_iff, Bool.not_eq_true', Bool.not_eq_true', Bool.eq_false_iff, Bool.eq_false_iff, ne_eq, ne_eq,
      equal_tag (warps other inside), decide_eq_true_eq]
  cases found : left.find? fun other => (tagOf other).equal (tagOf item) with
  | some other =>
    have inside := mem_of_find?_eq_some found
    have same := (equal_tag (warps other inside)).mp (List.find?_some (p := fun other =>
      (tagOf other).equal (tagOf item)) found)
    refine .inl ⟨other, inside, same, ?_⟩
    rw [← kept]
  | none =>
    refine .inr ⟨fun other inside same => ?_, rfl⟩
    exact List.find?_eq_none.mp found other inside ((equal_tag (warps other inside)).mpr same)

variable {remove : Bool}

theorem place_left (here : item ∈ (place remove left entries).2) : item ∈ left := by
  induction entries generalizing left with
  | nil => exact here
  | cons head rest ih =>
    unfold place at here
    split at here
    · exact ih here
    · split at here
      · exact mem_of_mem_filter (ih here)
      · exact ih here

theorem place_others (warps : ∀ other ∈ left, isWarp other = true) (entries : List Fields) :
    ((place false left entries).1.filter fun item => !isWarp item) = entries.filter fun item => !isWarp item := by
  induction entries generalizing left with
  | nil => rfl
  | cons item rest ih =>
    rcases place_cons warps item rest with ⟨other, inside, same, step⟩ | ⟨-, step⟩
    · have warp : isWarp item = true := by rw [isWarp, same]; exact warps other inside
      rw [step, filter_cons_of_neg (by simp [warps other inside]), filter_cons_of_neg (by simp [warp])]
      exact ih fun other here => warps other (mem_of_mem_filter here)
    · rw [step, filter_cons, filter_cons, ih warps]

theorem place_first (warps : ∀ other ∈ left, isWarp other = true) (item : Fields) (rest : List Fields) :
    ∃ first placed, (place false left (item :: rest)).1 = first :: placed ∧ tagOf first = tagOf item := by
  rcases place_cons warps item rest with ⟨other, inside, same, step⟩ | ⟨-, step⟩
  · refine ⟨other, _, congrArg Prod.fst step, ?_⟩
    obtain ⟨tag, known⟩ := Option.isSome_iff_exists.mp (warps other inside)
    rw [(warpTag_eq.mp known).1, (warpTag_eq.mp (same.trans known)).1]
  · exact ⟨item, _, congrArg Prod.fst step, rfl⟩

theorem place_warps (warps : ∀ other ∈ left, isWarp other = true) (once : (left.map warpTag).Nodup)
    (distinct : (entries.filterMap warpTag).Nodup)
    (found : ∀ tag ∈ entries.filterMap warpTag, some tag ∈ left.map warpTag) :
    ((place false left entries).1.filter isWarp ++ (place false left entries).2).Perm left := by
  induction entries generalizing left with
  | nil => exact .refl _
  | cons item rest ih =>
    rcases place_cons warps item rest with ⟨other, inside, same, step⟩ | ⟨missing, step⟩
    · obtain ⟨tag, known⟩ := Option.isSome_iff_exists.mp (warps other inside)
      rw [filterMap_cons_some (same.trans known)] at distinct found
      rw [step, filter_cons_of_pos (warps other inside), cons_append, same]
      refine .trans (.cons other (ih ?_ ?_ (List.nodup_cons.mp distinct).2 ?_)) (Rows.pick_perm once inside)
      · exact fun other here => warps other (mem_of_mem_filter here)
      · exact once.sublist (List.filter_sublist.map warpTag)
      · intro later here
        obtain ⟨keeper, among, named⟩ := List.mem_map.mp (found later (mem_cons_of_mem _ here))
        have differs : later ≠ tag := fun same => (List.nodup_cons.mp distinct).1 (same ▸ here)
        refine List.mem_map.mpr ⟨keeper, List.mem_filter.mpr ⟨among, ?_⟩, named⟩
        rw [named, known, Bool.not_eq_true', decide_eq_false_iff_not, Option.some.injEq]
        exact Ne.symm differs
    · have plain : warpTag item = none := by
        cases known : warpTag item with
        | none => rfl
        | some tag =>
          obtain ⟨other, inside, named⟩ := List.mem_map.mp
            (found tag (by rw [filterMap_cons_some known]; exact mem_cons_self))
          exact absurd (known.trans named.symm) (missing other inside)
      rw [filterMap_cons_none plain] at distinct found
      rw [step, filter_cons_of_neg (by simp [isWarp, plain])]
      exact ih warps once distinct found

variable {state : WarpState} {items : List Fields}

theorem buildOutbounds_tags (built : buildOutbounds codec state = some items) :
    items.map warpTag = tags.map some := by
  simp only [buildOutbounds, Option.bind_eq_bind, Option.bind_eq_some_iff, Option.pure_def, Option.some.injEq]
    at built
  obtain ⟨config, -, reserved, -, rfl⟩ := built
  rfl

theorem buildOutbounds_warp (built : buildOutbounds codec state = some items) :
    ∀ item ∈ items, isWarp item = true := by
  intro item inside
  have named := mem_map_of_mem (f := warpTag) inside
  rw [buildOutbounds_tags codec built] at named
  obtain ⟨tag, -, same⟩ := List.mem_map.mp named
  rw [isWarp, ← same]
  rfl

/-- What a candidate makes of a configuration. -/
structure Placed (before after : Fields) (items : List Fields) : Prop where
  elsewhere : ∀ key, key ≠ "outbounds" → after.lookup key = before.lookup key
  others : others after = others before
  first : ∀ item rest, outbounds before = item :: rest → ∃ first placed, outbounds after = first :: placed ∧
    tagOf first = tagOf item
  warps : (warps after).Perm items

theorem filterMap_warps (entries : List Fields) :
    (entries.filter isWarp).filterMap warpTag = entries.filterMap warpTag := by
  rw [filterMap_filter]
  refine filterMap_congr fun item _ => ?_
  rw [isWarp]
  cases warpTag item <;> rfl

variable {after : Fields}

theorem candidate_ok {state : Option WarpState} (accepted : candidate codec config state remove = .ok after) :
    ((outbounds config).filterMap warpTag).Nodup ∧
      (remove = true → referenced (.obj config) = false ∧
        ((outbounds config).head?.map isWarp).getD false = false) ∧
      ∃ replacement, (if remove then some [] else (state.map (buildOutbounds codec)).getD (some [])) =
        some replacement ∧
        after = setEntries "outbounds"
          ((place remove replacement (outbounds config)).1 ++ (place remove replacement (outbounds config)).2)
            config := by
  unfold candidate at accepted
  split at accepted
  · nomatch accepted
  · rename_i entries read
    rw [outbounds_of_entries read]
    dsimp only at accepted
    split at accepted
    · nomatch accepted
    · rename_i fit
      have distinct := not_not.mp (not_or.mp fit).2
      split at accepted
      · nomatch accepted
      · rename_i free
        split at accepted
        · nomatch accepted
        · rename_i explicit
          split at accepted
          · nomatch accepted
          · rename_i replacement built
            split at accepted
            · nomatch accepted
            · split at accepted
              · nomatch accepted
              · refine ⟨?_, fun removes => ⟨?_, ?_⟩, replacement, built, (Except.ok.inj accepted).symm⟩
                · rw [filterMap_warps] at distinct
                  exact distinct
                · exact Bool.eq_false_iff.mpr fun seen => free ⟨removes, seen⟩
                · exact Bool.eq_false_iff.mpr fun seen => explicit ⟨removes, seen⟩

theorem candidate_placed (accepted : candidate codec config (some state) false = .ok after) :
    ∃ items, buildOutbounds codec state = some items ∧ Placed config after items := by
  obtain ⟨distinct, -, items, built, rfl⟩ := candidate_ok codec accepted
  have warp := buildOutbounds_warp codec built
  have named := buildOutbounds_tags codec built
  have left : ∀ item ∈ (place false items (outbounds config)).2, isWarp item = true := fun item here =>
    warp item (place_left here)
  refine ⟨items, built, fun key differs => ?_, ?_, fun item rest listed => ?_, ?_⟩
  · rw [setEntries, lookup_put_other differs]
  · have none_left : ((place false items (outbounds config)).2.filter fun item => !isWarp item) = [] :=
      List.filter_eq_nil_iff.mpr fun item here => by simp [left item here]
    rw [others, outbounds_setEntries, filter_append, place_others warp, none_left, append_nil]
    rfl
  · obtain ⟨first, placed, same, tag⟩ := place_first warp item rest
    refine ⟨first, placed ++ (place false items (item :: rest)).2, ?_, tag⟩
    rw [outbounds_setEntries, listed, same]
    rfl
  · rw [warps, outbounds_setEntries, filter_append, List.filter_eq_self.mpr left]
    refine place_warps warp (named ▸ by decide) distinct fun tag here => ?_
    obtain ⟨item, -, known⟩ := List.mem_filterMap.mp here
    rw [named]
    exact mem_map_of_mem (warpTag_eq.mp known).2

theorem candidate_removed {state : Option WarpState} (accepted : candidate codec config state true = .ok after) :
    ¬Chosen (.obj config) ∧ Placed config after [] := by
  obtain ⟨-, checked, items, built, rfl⟩ := candidate_ok codec accepted
  obtain ⟨free, explicit⟩ := checked rfl
  cases built
  refine ⟨fun chosen => Bool.eq_false_iff.mp free chosen.referenced, fun key differs => ?_, ?_,
    fun item rest listed => ?_, ?_⟩
  · rw [setEntries, lookup_put_other differs]
  · rw [others, outbounds_setEntries, place_remove, append_nil, filter_filter]
    simp only [Bool.and_self]
    rfl
  · rw [listed] at explicit
    refine ⟨item, (rest.filter fun item => !isWarp item), ?_, rfl⟩
    rw [outbounds_setEntries, place_remove, append_nil, listed, filter_cons_of_pos]
    simpa using explicit
  · rw [warps, outbounds_setEntries, place_remove, append_nil, filter_filter, List.filter_eq_nil_iff.mpr]
    exact fun item _ => by simp

end OpenNode.Warp
