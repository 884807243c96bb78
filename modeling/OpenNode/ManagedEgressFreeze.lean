import OpenNode.ManagedEgressRecords
import OpenNode.SystemConfig

namespace OpenNode.ManagedEgress

open Assoc Agent Warp List

/-- What the handlers call: the native validation of Xray, the listeners of other
protocols, `json.loads`, the digest of the stored file, the checks of the editors
and of the system form. -/
structure Host where
  texts : Texts
  accepts : Fields → Bool
  compatible : Fields → Bool
  loads : String → Option Json
  digest : Fields → String
  validateTls : Fields → Option String
  system : SystemChecks

/-- The stored configuration, and a cleanup that is prepared: its original and its
desired configuration. -/
structure Node where
  config : Fields
  prepared : Option (Fields × Fields)

/-- Where an access update stops: with its journal, at the restart of Xray, or at
the journal, which rolls Xray back. -/
inductive AccessEnding where
  | saved
  | restartFailed
  | journalFailed (rolledBack : Bool)
deriving DecidableEq, Repr

/-- How far a cleanup or its recovery comes. -/
inductive CleanupEnding where
  | completed
  | interrupted (written : Bool)
  | restartFailed
deriving DecidableEq, Repr

/-- The commands. An access update and a cleanup are given by the candidate that
they make of a configuration, whatever it is; `restarts` tells whether Xray comes
back with the candidate. -/
inductive Command where
  | config (body : Fields) (restarts : Bool)
  | configFile (body : Fields) (restarts : Bool)
  | systemConfig (body : Fields) (restarts : Bool)
  | readOutbounds (restarts : Bool)
  | entries (key : String) (body : Fields) (restarts : Bool)
  | routing (body : Fields) (restarts : Bool)
  | batchApply (body : Fields) (restarts : Bool)
  | access (candidate : Fields → Except String Fields) (ending : AccessEnding)
  | cleanup (candidate : Fields → Except String Fields) (ending : CleanupEnding)

def decodeConfig (host : Host) (raw : Json) : Except String Fields :=
  match raw with
  | .obj config => .ok config
  | .str text =>
    match host.loads text with
    | some (.obj config) => .ok config
    | some _ => .error "Xray configuration must be a JSON object"
    | none => .error "Expecting value"
  | _ => .error "Xray configuration must be a JSON object"

/-- The tag of an outbound without one: `while candidate in used` finds a free
number among the first that outnumber the used tags. -/
def freshTag (used : List String) (base : String) : String :=
  if base ∉ used then base
  else (((List.range (used.length + 1)).map fun n => base ++ "-" ++ toString (n + 2)).find? fun tag =>
    tag ∉ used).getD base

/-- An outbound that `promote_outbound_tags` gives a tag, with its protocol. -/
def untagged (item : Json) : Option (Fields × String) :=
  match item with
  | .obj outbound =>
    if (tagOf outbound).truthy ∨ textOf "protocol" outbound = "" then none
      else some (outbound, textOf "protocol" outbound)
  | _ => none

/-- The loop of `promote_outbound_tags`. -/
def promoteItems (index : Nat) (used : List String) : List Json → List Json
  | [] => []
  | item :: rest =>
    match untagged item with
    | none => item :: promoteItems (index + 1) used rest
    | some (outbound, protocol) =>
      let tag := freshTag used (protocol ++ "-" ++ toString index)
      .obj (put "tag" (.str tag) outbound) :: promoteItems (index + 1) (tag :: used) rest

/-- `promote_outbound_tags`: the configuration, when some outbound had no tag. -/
def promoteOutboundTags (config : Fields) : Option Fields :=
  match config.lookup "outbounds" with
  | some (.arr items) =>
    if items.any fun item => (untagged item).isSome then
      some (put "outbounds" (.arr (promoteItems 0 ((outbounds config).map (textOf "tag")) items)) config)
    else none
  | _ => none

/-- One client of `batch-apply`. -/
def addClient (config item : Fields) : Except String Fields :=
  match entriesOf "inbounds" config with
  | .error error => .error error
  | .ok entries =>
    match findTag entries (tagOf item) with
    | .error error => .error error
    | .ok inbound =>
      let client :=
        match item.lookup "client" with
        | some (.obj client) => client
        | _ => []
      (editClient inbound client false).map fun edited =>
        setEntries "inbounds" (replaceEntry (has "tag" (tagOf item)) edited entries) config

/-- The candidate of `batch-apply`. -/
def batchCandidate (body config : Fields) : Except String Fields :=
  match entriesOf "inbound_clients" body, entriesOf "routing_user_additions" body with
  | .ok clients, .ok additions =>
    match clients.foldlM addClient config with
    | .error error => .error error
    | .ok edited =>
      additions.foldlM (fun config item => editRouting (put "action" (.str "add_user_to_rule") item) config) edited
  | .error error, _ => .error error
  | _, .error error => .error error

/-- `XrayRuntime.write`: a candidate that Xray rejects, or with which it does not come
back, leaves the stored configuration. -/
def Host.write (host : Host) (restarts : Bool) (candidate config : Fields) : Fields :=
  if host.accepts candidate && restarts then candidate else config

/-- The handlers that compare the managed records before they write. -/
def Host.guarded (host : Host) (restarts : Bool) (candidate : Except String Fields) (config : Fields) : Fields :=
  match candidate with
  | .error _ => config
  | .ok candidate =>
    match assertPreserved host.texts config candidate with
    | .error _ => config
    | .ok () => if host.compatible candidate then host.write restarts candidate config else config

/-- `_prepare_xray` and `_commit_xray` of a candidate. -/
def Host.commitAccess (host : Host) (ending : AccessEnding) (candidate : Except String Fields)
    (config : Fields) : Fields :=
  match candidate with
  | .error _ => config
  | .ok candidate =>
    match assertPreserved host.texts config candidate with
    | .error _ => config
    | .ok () =>
      match ending with
      | .saved => host.write true candidate config
      | .restartFailed => config
      | .journalFailed rolledBack =>
        let written := host.write true candidate config
        match assertPreserved host.texts candidate config with
        | .error _ => written
        | .ok () => if rolledBack then config else written

/-- `recover` of a prepared cleanup. -/
def Host.recoverCleanup (host : Host) (ending : CleanupEnding) (original desired : Fields) (node : Node) : Node :=
  match assertPreserved host.texts original desired with
  | .error _ => node
  | .ok () =>
    if !((Json.obj node.config).equal (.obj original) || (Json.obj node.config).equal (.obj desired)) then node
    else
      match ending with
      | .completed =>
        if host.accepts desired then { config := desired, prepared := none } else node
      | .interrupted written =>
        { node with config := if written && host.accepts desired then desired else node.config }
      | .restartFailed => node

/-- `NodeCleanup.handle` of an application. While a cleanup is prepared it is recovered
under its own identity, and under another one refused, as if interrupted at once. -/
def Host.applyCleanup (host : Host) (ending : CleanupEnding) (candidate : Fields → Except String Fields)
    (node : Node) : Node :=
  match node.prepared with
  | some (original, desired) => host.recoverCleanup ending original desired node
  | none =>
    match candidate node.config with
    | .error _ => node
    | .ok desired =>
      match assertPreserved host.texts node.config desired with
      | .error _ => node
      | .ok () =>
        if !host.accepts desired then node
        else host.recoverCleanup ending node.config desired { node with prepared := some (node.config, desired) }

/-- The body of the system form, whose digest is that of the stored file. -/
def systemCandidate (host : Host) (body config : Fields) : Except String Fields :=
  match body.lookup "expected_sha256" with
  | some (.str expected) =>
    if expected ≠ host.digest config then .error "Xray configuration changed since it was read"
    else applySystemConfig host.system config (pop "expected_sha256" body)
  | _ => .error "Xray system config requires a prior-read expected_sha256"

/-- The handlers. -/
def Host.step (host : Host) (node : Node) : Command → Node
  | .config body restarts =>
    { node with
      config := host.guarded restarts (decodeConfig host ((body.lookup "config").getD .null)) node.config }
  | .configFile body restarts =>
    { node with
      config := host.guarded restarts
        (if (body.lookup "expected_sha256").getD .null |>.equal (.str (host.digest node.config)) then
          decodeConfig host ((body.lookup "content").getD .null)
        else .error "Xray configuration changed since it was read") node.config }
  | .systemConfig body restarts =>
    match systemCandidate host body node.config with
    | .error _ => node
    | .ok candidate =>
      { node with
        config := if host.compatible candidate then host.write restarts candidate node.config else node.config }
  | .readOutbounds restarts =>
    match promoteOutboundTags node.config with
    | none => node
    | some candidate => { node with config := host.write restarts candidate node.config }
  | .entries key body restarts =>
    { node with config := host.guarded restarts (editEntries host.validateTls key body node.config) node.config }
  | .routing body restarts =>
    { node with config := host.guarded restarts (editRouting body node.config) node.config }
  | .batchApply body restarts =>
    { node with config := host.guarded restarts (batchCandidate body node.config) node.config }
  | .access candidate ending =>
    { node with config := host.commitAccess ending (candidate node.config) node.config }
  | .cleanup candidate ending => host.applyCleanup ending candidate node

def Host.run (host : Host) (node : Node) (commands : List Command) : Node :=
  commands.foldl host.step node

/-- Two inbounds that differ at most in their port. -/
def SameView (before after : Fields) : Prop :=
  ∀ key, key ≠ "port" → after.lookup key = before.lookup key

variable {before after : Fields}

theorem subObject_congr {key : String} (same : after.lookup key = before.lookup key) :
    subObject key after = subObject key before := by
  rw [subObject, subObject, same]

theorem SameView.clients (same : SameView before after) : inboundClients after = inboundClients before := by
  rw [inboundClients, inboundClients, subObject_congr (same "settings" (by decide)), tagOf, tagOf,
    same "tag" (by decide)]

theorem SameView.tagged (same : SameView before after) (tag : Json) :
    has "tag" tag after = has "tag" tag before := by
  rw [has, has, same "tag" (by decide)]

variable {texts : Texts}

theorem SameView.exclusions (same : SameView before after) : excludedOf texts after = excludedOf texts before := by
  rw [excludedOf, excludedOf, subObject_congr (same "sniffing" (by decide))]

theorem flatMap_clients {before after : List Fields} (views : List.Forall₂ SameView before after) :
    after.flatMap inboundClients = before.flatMap inboundClients := by
  induction views with
  | nil => rfl
  | cons same _ ih => rw [flatMap_cons, flatMap_cons, same.clients, ih]

theorem filter_tagged {before after : List Fields} (views : List.Forall₂ SameView before after) (tag : Json) :
    List.Forall₂ SameView (before.filter (has "tag" tag)) (after.filter (has "tag" tag)) := by
  induction views with
  | nil => exact .nil
  | cons same _ ih =>
    rw [filter_cons, filter_cons, same.tagged]
    split
    · exact .cons same ih
    · exact ih

theorem exclusionRecord_congr (views : List.Forall₂ SameView (inbounds before) (inbounds after)) (tag : String)
    (entry : Fields) : exclusionRecord texts after tag entry = exclusionRecord texts before tag entry := by
  have found := filter_tagged views (.str tag)
  unfold exclusionRecord
  dsimp only
  rw [found.length_eq]
  revert found
  generalize (inbounds before).filter (has "tag" (.str tag)) = mine
  generalize (inbounds after).filter (has "tag" (.str tag)) = others
  intro found
  cases found with
  | nil => rfl
  | cons same rest =>
    cases rest with
    | nil =>
      have alike : excludedOf texts _ = excludedOf texts _ := same.exclusions
      simp only [alike, length_singleton]
    | cons _ _ => rfl

/-- What the managed records read of a configuration. -/
structure SameManaged (before after : Fields) : Prop where
  outbounds : managedOutbounds after = managedOutbounds before
  tags : managedTags after = managedTags before
  routing : after.lookup "routing" = before.lookup "routing"
  record : after.lookup sniffingKey = before.lookup sniffingKey
  inbounds : List.Forall₂ SameView (inbounds before) (inbounds after)

theorem SameManaged.frozen (same : SameManaged before after) : Frozen texts before after := by
  have entries : ∀ key, routingEntries key after = routingEntries key before := fun key => by
    rw [routingEntries, routingEntries, subObject_congr same.routing]
  have exclusions : exclusionRecords texts after = exclusionRecords texts before := by
    have each : ∀ pair : String × Json, (asObject pair.2).map (exclusionRecord texts after pair.1) =
        (asObject pair.2).map (exclusionRecord texts before pair.1) := fun pair => by
      cases asObject pair.2 with
      | none => rfl
      | some entry => exact congrArg some (exclusionRecord_congr same.inbounds pair.1 entry)
    unfold exclusionRecords
    rw [same.record]
    simp only [each]
  refine ⟨.of_eq ?_, .of_eq ?_, .of_eq ?_, .of_eq ?_, .of_eq ?_, .of_eq ?_⟩
  · rw [same.outbounds]
  · rw [managedRules, managedRules, entries]
  · rw [egressClients, egressClients, flatMap_clients same.inbounds]
  · rw [managedBalancers, managedBalancers, entries, same.tags]
  · rw [sniffingRecord, sniffingRecord, same.record]
  · rw [exclusions]

theorem SameView.refl (inbound : Fields) : SameView inbound inbound :=
  fun _ _ => rfl

theorem listed_views {items items' : List Json} (same : List.Forall₂ SameButPort items items') :
    List.Forall₂ SameView (items.filterMap asObject) (items'.filterMap asObject) := by
  induction same with
  | nil => exact .nil
  | @cons item item' _ _ alike _ ih =>
    rcases alike with rfl | ⟨inbound, port, rfl, rfl⟩
    · cases item with
      | obj inbound => exact .cons (.refl _) ih
      | _ => exact ih
    · exact .cons (fun key differs => lookup_put_other differs _ _) ih

theorem formWrite_managed (form : FormWrite before after) : SameManaged before after := by
  have same : after.lookup "outbounds" = before.lookup "outbounds" := form.others _ (by decide) (by decide)
  have all : outbounds after = outbounds before := by rw [outbounds, outbounds, same]
  refine ⟨by rw [managedOutbounds, managedOutbounds, all], by rw [managedTags, managedTags, all],
    form.others _ (by decide) (by decide), form.others _ (by decide) (by decide), ?_⟩
  rcases form.inbounds with unchanged | ⟨items, items', old, new, alike⟩
  · rw [inbounds, inbounds, unchanged]
    exact List.forall₂_same.mpr fun _ _ => .refl _
  · rw [inbounds, inbounds, old, new]
    exact listed_views alike

/-- Every outbound that Xray runs has a protocol of its own, none that looks like a
managed egress tag. -/
def KnowsProtocols (host : Host) : Prop :=
  ∀ config, host.accepts config = true → ∀ item ∈ outbounds config,
    begins outboundPrefix (textOf "protocol" item) = false

def tailCharacter (c : Char) : Bool :=
  c.isDigit || c = '-'

theorem toString_tail (n : Nat) : (toString n).toList.all tailCharacter = true ∧
    1 ≤ (toString n).toList.length := by
  have digits : (toString n).toList = Nat.toDigits 10 n := by simp [toString]
  rw [digits]
  refine ⟨List.all_eq_true.mpr fun c here => ?_, Nat.length_toDigits_pos⟩
  rw [tailCharacter, Nat.isDigit_of_mem_toDigits (by decide) (by decide) here]
  rfl

theorem freshTag_shape (used : List String) (protocol : String) (index : Nat) :
    ∃ tail : List Char, (freshTag used (protocol ++ "-" ++ toString index)).toList = protocol.toList ++ tail ∧
      tail.all tailCharacter = true ∧ 2 ≤ tail.length := by
  obtain ⟨digits, some_digit⟩ := toString_tail index
  have plain : ∃ tail : List Char, (protocol ++ "-" ++ toString index).toList = protocol.toList ++ tail ∧
      tail.all tailCharacter = true ∧ 2 ≤ tail.length := by
    refine ⟨'-' :: (toString index).toList, by simp, ?_, by rw [length_cons]; omega⟩
    rw [all_cons, digits]
    rfl
  unfold freshTag
  split
  · exact plain
  · cases found : ((List.range (used.length + 1)).map fun n =>
        protocol ++ "-" ++ toString index ++ "-" ++ toString (n + 2)).find? fun tag => tag ∉ used with
    | none => exact plain
    | some tag =>
      obtain ⟨n, -, rfl⟩ := List.mem_map.mp (mem_of_find?_eq_some found)
      obtain ⟨tail, shape, numeric, long⟩ := plain
      refine ⟨tail ++ '-' :: (toString (n + 2)).toList, ?_, ?_, by rw [length_append]; omega⟩
      · rw [Option.getD_some, String.toList_append, String.toList_append, shape]
        simp
      · rw [all_append, all_cons, numeric, (toString_tail (n + 2)).1]
        rfl

variable {protocol : String}

theorem freshTag_unmanaged {used : List String} {index : Nat} (known : begins outboundPrefix protocol = false) :
    begins outboundPrefix (freshTag used (protocol ++ "-" ++ toString index)) = false := by
  obtain ⟨tail, shape, numeric, -⟩ := freshTag_shape used protocol index
  rw [begins, Bool.eq_false_iff, ne_eq, isPrefixOf_iff_prefix] at known ⊢
  intro starts
  rw [shape] at starts
  rcases Nat.le_total outboundPrefix.toList.length protocol.toList.length with short | long
  · exact known (prefix_of_prefix_length_le starts (prefix_append _ _) short)
  · obtain ⟨middle, split⟩ := prefix_of_prefix_length_le (prefix_append _ _) starts long
    rw [← split, prefix_append_right_inj] at starts
    cases middle with
    | nil =>
      have whole : protocol.toList = outboundPrefix.toList := by rw [← split, append_nil]
      exact known (whole ▸ prefix_rfl)
    | cons c rest =>
      have colon : (c :: rest).getLast? = some ':' := by
        have last : outboundPrefix.toList.getLast? = some ':' := by decide
        rw [← split, List.getLast?_append_of_ne_nil _ (cons_ne_nil _ _)] at last
        exact last
      exact absurd (List.all_eq_true.mp numeric ':' (starts.subset (mem_of_getLast? colon))) (by decide)

theorem freshTag_foreign (used : List String) (protocol : String) (index : Nat) :
    freshTag used (protocol ++ "-" ++ toString index) ∉ tags := by
  obtain ⟨tail, shape, numeric, long⟩ := freshTag_shape used protocol index
  intro warp
  have version : ∃ c, ['v', c] <:+ (freshTag used (protocol ++ "-" ++ toString index)).toList := by
    rcases List.mem_cons.mp warp with same | later
    · exact ⟨'4', by rw [same]; decide⟩
    · exact ⟨'6', by rw [List.mem_singleton.mp later]; decide⟩
  obtain ⟨c, ends⟩ := version
  rw [shape] at ends
  have inside := suffix_of_suffix_length_le ends (suffix_append _ _) long
  exact absurd (List.all_eq_true.mp numeric 'v' (inside.subset mem_cons_self)) (by decide)

variable {outbound : Fields}

theorem untagged_eq {item : Json} (found : untagged item = some (outbound, protocol)) :
    item = .obj outbound ∧ (tagOf outbound).truthy = false ∧ protocol = textOf "protocol" outbound := by
  unfold untagged at found
  split at found
  · split at found
    · nomatch found
    · rename_i outbound' tagged
      cases found
      exact ⟨rfl, Bool.eq_false_iff.mpr fun truthy => tagged (.inl truthy), rfl⟩
  · nomatch found

theorem untagged_plain (plain : (tagOf outbound).truthy = false) :
    isManaged outbound = false ∧ isWarp outbound = false := by
  have warp : warpTag outbound = none := by
    cases known : warpTag outbound with
    | none => rfl
    | some tag =>
      obtain ⟨named, inside⟩ := warpTag_eq.mp known
      rw [named] at plain
      rcases List.mem_cons.mp inside with rfl | later
      · exact absurd plain (by decide)
      · exact absurd (List.mem_singleton.mp later ▸ plain) (by decide)
  refine ⟨?_, by rw [isWarp, warp]; rfl⟩
  unfold isManaged textOf
  split
  · rename_i text found
    rw [tagOf, found] at plain
    have blank : text = "" := by simpa [Json.truthy] using plain
    rw [blank]
    decide
  · decide

theorem promoted_plain (outbound : Fields) {tag : String} (unmanaged : begins outboundPrefix tag = false)
    (foreign : tag ∉ tags) :
    isManaged (put "tag" (.str tag) outbound) = false ∧ isWarp (put "tag" (.str tag) outbound) = false := by
  constructor
  · rw [isManaged, textOf, lookup_put_self]
    exact unmanaged
  · rw [isWarp, warpTag, lookup_put_self]
    dsimp only
    rw [if_neg foreign]
    rfl

theorem filterMap_obj (fields : Fields) (rest : List Json) :
    (.obj fields :: rest).filterMap asObject = fields :: rest.filterMap asObject :=
  rfl

theorem promoteItems_filter {keep : Fields → Bool} (only : ∀ item, isManaged item = false ∧ isWarp item = false →
    keep item = false)
    (items : List Json) (index : Nat) (used : List String)
    (known : ∀ item ∈ (promoteItems index used items).filterMap asObject,
      begins outboundPrefix (textOf "protocol" item) = false) :
    ((promoteItems index used items).filterMap asObject).filter keep = (items.filterMap asObject).filter keep := by
  induction items generalizing index used with
  | nil => rfl
  | cons item rest ih =>
    unfold promoteItems at known ⊢
    split
    · rename_i tagged
      rw [tagged] at known
      dsimp only at known
      cases item with
      | obj outbound =>
        have later := ih _ _ fun other here => known other (mem_cons_of_mem _ here)
        rw [filterMap_obj, filterMap_obj, filter_cons, filter_cons, later]
      | _ => exact ih _ _ known
    · rename_i outbound protocol found
      rw [found] at known
      obtain ⟨rfl, plain, rfl⟩ := untagged_eq found
      have own : begins outboundPrefix (textOf "protocol" outbound) = false := by
        have here := known _ (mem_cons_self)
        rw [textOf, lookup_put_other (by decide)] at here
        exact here
      have later := ih _ _ fun other here => known other (mem_cons_of_mem _ here)
      have before := only outbound (untagged_plain plain)
      have after := only _ (promoted_plain outbound (freshTag_unmanaged own) (freshTag_foreign used _ index))
      dsimp only
      rw [filterMap_obj, filterMap_obj, filter_cons_of_neg (by rw [after]; exact Bool.false_ne_true),
        filter_cons_of_neg (by rw [before]; exact Bool.false_ne_true)]
      exact later

theorem promoteOutboundTags_managed {host : Host} (knows : KnowsProtocols host) {config : Fields}
    (promoted : promoteOutboundTags config = some after) (accepted : host.accepts after = true) :
    SameManaged config after := by
  unfold promoteOutboundTags at promoted
  split at promoted
  · rename_i items found
    split at promoted
    · cases promoted
      have known := knows _ accepted
      rw [outbounds, lookup_put_self] at known
      have kept : ∀ keep : Fields → Bool, (∀ item, isManaged item = false ∧ isWarp item = false →
          keep item = false) →
          ((promoteItems 0 ((outbounds config).map (textOf "tag")) items).filterMap asObject).filter keep =
            (outbounds config).filter keep := by
        intro keep only
        rw [promoteItems_filter only items _ _ known, outbounds, found]
      have listed : outbounds (put "outbounds" (.arr (promoteItems 0 ((outbounds config).map (textOf "tag")) items))
          config) =
          (promoteItems 0 ((outbounds config).map (textOf "tag")) items).filterMap asObject := by
        rw [outbounds, lookup_put_self]
      refine ⟨?_, ?_, lookup_put_other (by decide) _ _, lookup_put_other (by decide) _ _, ?_⟩
      · rw [managedOutbounds, listed, kept _ fun item plain => by rw [plain.1, plain.2]; rfl]
        rfl
      · rw [managedTags, listed, kept _ fun item plain => plain.1]
        rfl
      · rw [inbounds, inbounds, lookup_put_other (by decide)]
        exact List.forall₂_same.mpr fun _ _ => .refl _
    · cases promoted
  · cases promoted

/-- A prepared cleanup whose configurations have the managed records of the stored one. -/
def Node.Settled (host : Host) (node : Node) : Prop :=
  ∀ original desired, node.prepared = some (original, desired) → Frozen host.texts node.config desired

/-- What a command leaves of the stored configuration. -/
structure Keeps (host : Host) (node after : Node) : Prop where
  frozen : Frozen host.texts node.config after.config
  settled : after.Settled host

section

variable {host : Host} {node : Node}

variable {config : Fields}

theorem Keeps.stored (settled : node.Settled host) (frozen : Frozen host.texts node.config config) :
    Keeps host node { node with config := config } :=
  ⟨frozen, fun original desired known => frozen.symm.trans (settled original desired known)⟩

theorem write_frozen (host : Host) {texts : Texts} {candidate : Fields} (frozen : Frozen texts config candidate)
    (restarts : Bool) :
    Frozen texts config (host.write restarts candidate config) := by
  unfold Host.write
  split
  · exact frozen
  · exact .refl _ _

theorem guarded_frozen (restarts : Bool) (candidate : Except String Fields) (config : Fields) :
    Frozen host.texts config (host.guarded restarts candidate config) := by
  unfold Host.guarded
  split
  · exact .refl _ _
  · split
    · exact .refl _ _
    · rename_i preserved
      split
      · exact write_frozen host (assertPreserved_ok preserved) restarts
      · exact .refl _ _

theorem commitAccess_frozen (ending : AccessEnding) (candidate : Except String Fields) (config : Fields) :
    Frozen host.texts config (host.commitAccess ending candidate config) := by
  unfold Host.commitAccess
  split
  · exact .refl _ _
  · split
    · exact .refl _ _
    · rename_i preserved
      have written := write_frozen host (assertPreserved_ok preserved) true
      split
      · exact written
      · exact .refl _ _
      · dsimp only
        split
        · exact written
        · split
          · exact .refl _ _
          · exact written

theorem recoverCleanup_keeps (settled : node.Settled host) (ending : CleanupEnding) {original desired : Fields}
    (frozen : Frozen host.texts node.config desired) : Keeps host node
    (host.recoverCleanup ending original desired node) := by
  have still : Keeps host node node := ⟨.refl _ _, settled⟩
  unfold Host.recoverCleanup
  split
  · exact still
  · split
    · exact still
    · split
      · split
        · exact ⟨frozen, nofun⟩
        · exact still
      · refine .stored settled ?_
        split
        · exact frozen
        · exact .refl _ _
      · exact still

theorem applyCleanup_keeps (settled : node.Settled host) (ending : CleanupEnding)
    (candidate : Fields → Except String Fields) : Keeps host node (host.applyCleanup ending candidate node) := by
  have still : Keeps host node node := ⟨.refl _ _, settled⟩
  unfold Host.applyCleanup
  split
  · rename_i original desired known
    exact recoverCleanup_keeps settled ending (settled original desired known)
  · split
    · exact still
    · rename_i desired _
      split
      · exact still
      · rename_i preserved
        have frozen := assertPreserved_ok preserved
        split
        · exact still
        · have prepared : Node.Settled host { node with prepared := some (node.config, desired) } := by
            rintro _ _ known
            cases known
            exact frozen
          exact ⟨(recoverCleanup_keeps prepared ending frozen).frozen,
            (recoverCleanup_keeps prepared ending frozen).settled⟩

theorem step_keeps (knows : KnowsProtocols host) (settled : node.Settled host) (command : Command) :
    Keeps host node (host.step node command) := by
  cases command with
  | config body restarts => exact .stored settled (guarded_frozen _ _ _)
  | configFile body restarts => exact .stored settled (guarded_frozen _ _ _)
  | systemConfig body restarts =>
    rw [Host.step]
    split
    · exact ⟨.refl _ _, settled⟩
    · rename_i candidate made
      refine .stored settled ?_
      unfold systemCandidate at made
      split at made
      · split at made
        · nomatch made
        · split
          · exact write_frozen host (formWrite_managed (applySystemConfig_form made)).frozen restarts
          · exact .refl _ _
      · nomatch made
  | readOutbounds restarts =>
    rw [Host.step]
    split
    · exact ⟨.refl _ _, settled⟩
    · rename_i candidate promoted
      refine .stored settled ?_
      unfold Host.write
      split
      · rename_i accepted
        exact (promoteOutboundTags_managed knows promoted (Bool.and_eq_true_iff.mp accepted).1).frozen
      · exact .refl _ _
  | entries key body restarts => exact .stored settled (guarded_frozen _ _ _)
  | routing body restarts => exact .stored settled (guarded_frozen _ _ _)
  | batchApply body restarts => exact .stored settled (guarded_frozen _ _ _)
  | access candidate ending => exact .stored settled (commitAccess_frozen _ _ _)
  | cleanup candidate ending => exact applyCleanup_keeps settled ending candidate

theorem run_keeps (knows : KnowsProtocols host) (settled : node.Settled host) (commands : List Command) :
    Keeps host node (host.run node commands) := by
  induction commands generalizing node with
  | nil => exact ⟨.refl _ _, settled⟩
  | cons command rest ih =>
    have first := step_keeps knows settled command
    have later := ih first.settled
    exact ⟨first.frozen.trans later.frozen, later.settled⟩

end

/-- Whatever commands an Agent gets outside of the two workflows, its managed egress
and WARP outbounds, the rules, clients and balancers of the managed egress, and its
sniffing exclusions stay. -/
theorem managed_frozen (host : Host) (knows : KnowsProtocols host) (config : Fields) (commands : List Command) :
    Frozen host.texts config (host.run { config := config, prepared := none } commands).config := by
  have settled : Node.Settled host { config := config, prepared := none } := fun _ _ known => by cases known
  exact (run_keeps knows settled commands).frozen

/-- The rules that target an outbound with one of the tags. -/
def rulesTo (tags : List String) (config : Fields) : List Fields :=
  (routingEntries "rules" config).filter fun rule => tags.contains (textOf "outboundTag" rule)

/-- The balancers that select an outbound with one of the tags. -/
def balancersTo (tags : List String) (config : Fields) : List Fields :=
  (routingEntries "balancers" config).filter (selectsManaged tags)

/-- A host whose Xray knows the protocol `freedom` only. -/
def plainHost : Host where
  texts := { float := fun _ => "", clean := id }
  accepts config := (outbounds config).all fun item => textOf "protocol" item = "freedom"
  compatible _ := true
  loads _ := none
  digest _ := ""
  validateTls _ := none
  system :=
    { editable := fun _ => .ok { mode := .absent, host := "127.0.0.1", port := 46736, inboundIndex := none }
      complete := fun _ => false
      loopback := fun _ => none
      endpoint := fun _ _ => ""
      fixed := fun _ => true }

def managedRule : Json :=
  .obj [("marktag", .str "managed-egress-rule:a:b"), ("outboundTag", .str "managed-egress:a:b")]

/-- Managed outbounds, a rule of theirs, and a rule and a balancer of the operator. -/
def routedConfig : Fields :=
  [("outbounds", .arr (["direct", "managed-egress:a:b", "warp-v4"].map fun tag =>
      .obj [("tag", .str tag), ("protocol", .str "freedom")])),
    ("routing", .obj [
      ("rules", .arr [managedRule,
        .obj [("marktag", .str "home_broadband_warp"), ("outboundTag", .str "warp-v4")]]),
      ("balancers", .arr [.obj [("tag", .str "pool"), ("selector", .arr [.str "warp-"])]])])]

def setRules (rules : List Json) : Command :=
  .routing [("action", .str "set"), ("routing", .obj [("rules", .arr rules)])] true

theorem plainHost_knows : KnowsProtocols plainHost := fun config accepted item here => by
  have freedom := List.all_eq_true.mp accepted item here
  rw [decide_eq_true_eq] at freedom
  rw [freedom]
  decide

/-- A command that would remove the rule of the managed egress, and one that keeps it. -/
theorem managed_frozen_rules : Frozen plainHost.texts routedConfig
      (plainHost.run { config := routedConfig, prepared := none } [setRules [], setRules [managedRule]]).config :=
  managed_frozen plainHost plainHost_knows routedConfig [setRules [], setRules [managedRule]]

/-- The rule and the balancer of an operator that lead to a WARP outbound go when the
operator takes them away. -/
theorem warp_rule_removed :
    (rulesTo Warp.tags routedConfig).length = 1 ∧ (balancersTo Warp.tags routedConfig).length = 1 ∧
      (rulesTo Warp.tags (plainHost.run { config := routedConfig, prepared := none }
        [setRules [managedRule]]).config).length = 0 ∧
      (balancersTo Warp.tags (plainHost.run { config := routedConfig, prepared := none }
        [setRules [managedRule]]).config).length = 0 := by
  decide +kernel

end OpenNode.ManagedEgress
