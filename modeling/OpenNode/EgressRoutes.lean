import OpenNode.ServerEgress

namespace OpenNode.ServerEgress

open Edits GraphSearch List

section Routes

/-- The tags that a configuration gives its outbounds. -/
def outboundTags (config : XrayConfig) : List (Option String) :=
  (config.outbounds.getD []).map Outbound.tag

/-- A route that a configuration gives traffic of its server through the
managed egress of a node. -/
structure RouteTo (server : ServerId) (config : XrayConfig) (node : ManagedNode) (u v : Vertex) : Prop where
  physical : node.physical = true
  present : some (outboundTag server node.id) ∈ outboundTags config
  related : ∃ inbounds, relatedSourceInbounds config (outboundTag server node.id) = .ok inbounds ∧ u.2 ∈ inbounds
  source : u.1 = server
  target : node.inboundTag = some v.2
  host : node.serverId = v.1

/-- The direct managed-egress edges of a set of configurations. -/
def Route (plane : ControlPlane) (configs : Snapshots) (u v : Vertex) : Prop :=
  u.1 ∈ plane.servers ∧ ∃ config, configs u.1 = some config ∧ ∃ node ∈ plane.nodes, RouteTo u.1 config node u v

/-- No two nodes share the digits that name their egress. -/
def ControlPlane.Apart (plane : ControlPlane) : Prop :=
  ∀ node ∈ plane.nodes, ∀ other ∈ plane.nodes, short node.id = short other.id → node = other

variable {server : ServerId}

theorem outboundTag_inj {a b : NodeId} (same : outboundTag server a = outboundTag server b) : short a = short b :=
  (String.append_right_inj ("managed-egress:" ++ short server ++ ":")).mp same

theorem marktag_inj {a b : NodeId} (same : marktag server a = marktag server b) : short a = short b :=
  (String.append_right_inj ("managed-egress-rule:" ++ short server ++ ":")).mp same

end Routes

section Lookups

variable {α : Type} {keyOf : α → Option String} {array duplicated key : String} {entries : List α}

theorem matching_fst (entries : List α) :
    (matching keyOf key entries).map Prod.fst = entries.filter fun entry => keyOf entry == some key := by
  have unzipped : entries.zipIdx.map Prod.fst = entries := zipIdx_map_fst ..
  conv_rhs => rw [← unzipped, filter_map]
  rfl

theorem only_none (absent : only keyOf array duplicated (some entries) key = .ok none) :
    entries.filter (fun entry => keyOf entry == some key) = [] := by
  rw [← matching_fst]
  simp only [only] at absent
  split at absent
  · rename_i empty
    rw [empty, map_nil]
  · simp at absent
  · simp at absent

theorem only_some {entry : α} {index : Nat}
    (found : only keyOf array duplicated (some entries) key = .ok (some (entry, index))) :
    entries[index]? = some entry ∧ keyOf entry = some key ∧
      (entries.filter fun entry => keyOf entry == some key).length = 1 := by
  rw [← matching_fst]
  simp only [only] at found
  split at found
  · simp at found
  · rename_i here one
    obtain rfl : here = (entry, index) := by simpa using found
    have member : (entry, index) ∈ matching keyOf key entries := one ▸ mem_singleton_self _
    have ⟨place, tagged⟩ := List.mem_filter.mp member
    refine ⟨?_, by simpa using tagged, by rw [one]; rfl⟩
    simpa using mem_zipIdx_iff_getElem?.mp place
  · simp at found

theorem only_of_single (array duplicated : String)
    (single : (entries.filter fun entry => keyOf entry == some key).length ≤ 1)
    (present : some key ∈ entries.map keyOf) : ∃ found, only keyOf array duplicated (some entries) key =
      .ok (some found) := by
  rw [← matching_fst, length_map] at single
  obtain ⟨entry, here, tagged⟩ := List.mem_map.mp present
  have member : entry ∈ (matching keyOf key entries).map Prod.fst := by
    rw [matching_fst]
    exact List.mem_filter.mpr ⟨here, by simp [tagged]⟩
  simp only [only]
  match found : matching keyOf key entries with
  | [] => simp [found] at member
  | [one] => exact ⟨one, rfl⟩
  | _ :: _ :: _ => simp [found] at single

end Lookups

section Related

variable {config : XrayConfig} {tag : String} {found all : List String}

theorem related_cases (related : relatedSourceInbounds config tag = .ok found) :
    ∃ all outbounds, allInboundTags (inboundTags config) = .ok all ∧ config.outbounds = some outbounds ∧
      ((isDefault config tag = true ∧ found = all) ∨ (isDefault config tag = false ∧
        ∃ rules, rulesOf config = .ok rules ∧ selectInbounds (inboundTags config) all (rulesTo tag rules)
          [] = .ok found)) := by
  obtain ⟨all, tags, related⟩ := bind_eq_ok related
  obtain ⟨outbounds, listed, related⟩ := bind_eq_ok related
  have listed : config.outbounds = some outbounds := by
    cases held : config.outbounds with
    | none => simp [array, held] at listed
    | some _ => simpa [array, held] using listed
  refine ⟨all, outbounds, tags, listed, ?_⟩
  split at related
  · exact .inl ⟨‹_›, (Except.ok.inj related).symm⟩
  · obtain ⟨rules, read, related⟩ := bind_eq_ok related
    exact .inr ⟨eq_false_of_ne_true ‹¬ _›, rules, read, related⟩

variable {outbounds : List Outbound}

theorem related_default (tags : allInboundTags (inboundTags config) = .ok all)
    (listed : config.outbounds = some outbounds) (first : isDefault config tag = true) :
    relatedSourceInbounds config tag = .ok all := by
  rw [relatedSourceInbounds, bind_ok tags, listed]
  exact if_pos first

variable {rules : List Rule}

theorem related_rules (tags : allInboundTags (inboundTags config) = .ok all)
    (listed : config.outbounds = some outbounds) (other : isDefault config tag = false)
    (read : rulesOf config = .ok rules) :
    relatedSourceInbounds config tag = selectInbounds (inboundTags config) all (rulesTo tag rules) [] := by
  rw [relatedSourceInbounds, bind_ok tags, listed]
  exact (if_neg (by simp [other])).trans (bind_ok read)

variable {entries : List (Option String)} {tags : List String}

theorem collectTags_mem (result : collectTags entries tags = .ok all) :
    (∀ tag ∈ tags, tag ∈ all) ∧ ∀ tag, tag ≠ "" → some tag ∈ entries → tag ∈ all := by
  induction entries generalizing tags with
  | nil =>
    cases result
    simp
  | cons entry entries ih =>
    cases entry with
    | none =>
      have ⟨kept, gathered⟩ := ih result
      exact ⟨kept, fun tag named here => gathered tag named (by simpa using here)⟩
    | some head =>
      simp only [collectTags] at result
      split at result
      · have ⟨kept, gathered⟩ := ih result
        refine ⟨kept, fun tag named here => gathered tag named ?_⟩
        rcases List.mem_cons.mp here with same | here
        · exact absurd (Option.some.inj same) (by rintro rfl; exact named ‹_›)
        · exact here
      · split at result
        · exact (nomatch result)
        · have ⟨kept, gathered⟩ := ih result
          refine ⟨fun tag here => kept tag (mem_append_left _ here), fun tag named here => ?_⟩
          rcases List.mem_cons.mp here with same | here
          · obtain rfl := Option.some.inj same
            exact kept tag (by simp)
          · exact gathered tag named here

theorem tagged_mem {entry : Option String × Nat}
    (result : tagged id (some entries) tag "inbounds" = .ok (some entry)) :
    some tag ∈ entries := by
  have ⟨place, named, _⟩ := only_some result
  exact mem_of_getElem? (place.trans (congrArg some named))

variable {inbounds : List (Option String)} {selected : List String}

theorem addSelected_mem (result : addSelected (some inbounds) tags selected = .ok found) {tag : String}
    (here : tag ∈ found) :
    tag ∈ selected ∨ (tag ∈ tags ∧ some tag ∈ inbounds) := by
  induction tags generalizing selected with
  | nil =>
    cases result
    exact .inl here
  | cons head tags ih =>
    obtain ⟨entry, listed, result⟩ := bind_eq_ok result
    cases entry with
    | none => exact (nomatch result)
    | some entry =>
      have present := tagged_mem listed
      rcases ih result with old | ⟨later, known⟩
      · split at old
        · exact .inl old
        · rcases List.mem_append.mp old with old | new
          · exact .inl old
          · obtain rfl := List.mem_singleton.mp new
            exact .inr ⟨mem_cons_self, present⟩
      · exact .inr ⟨mem_cons_of_mem _ later, known⟩

theorem selectorTags_named (result : selectorTags entries = some tags) :
    "" ∉ tags := by
  induction entries generalizing tags with
  | nil =>
    cases result
    exact not_mem_nil
  | cons entry entries ih =>
    cases entry with
    | none => exact (nomatch result)
    | some head =>
      simp only [selectorTags] at result
      split at result
      · exact (nomatch result)
      · obtain ⟨rest, read, rfl⟩ := Option.map_eq_some_iff.mp result
        simp only [mem_cons, not_or]
        exact ⟨fun same => ‹¬ _› same.symm, ih read⟩

theorem selectInbounds_subset (tags : collectTags inbounds [] = .ok all) (before : ∀ tag ∈ selected, tag ∈ all)
    (result : selectInbounds (some inbounds) all rules selected = .ok found) : ∀ tag ∈ found, tag ∈ all := by
  induction rules generalizing selected with
  | nil =>
    cases result
    exact before
  | cons rule rules ih =>
    simp only [selectInbounds] at result
    split at result
    · cases result
      exact fun _ here => here
    · exact (nomatch result)
    · split at result
      · exact (nomatch result)
      · rename_i read
        obtain ⟨more, added, result⟩ := bind_eq_ok result
        refine ih (fun tag here => ?_) result
        rcases addSelected_mem added here with old | ⟨wanted, known⟩
        · exact before tag old
        · have named : tag ≠ "" := fun empty => selectorTags_named read (empty ▸ wanted)
          exact (collectTags_mem tags).2 tag named known

theorem related_subset (tags : allInboundTags (inboundTags config) = .ok all)
    (related : relatedSourceInbounds config tag = .ok found) : ∀ inbound ∈ found, inbound ∈ all := by
  obtain ⟨all', outbounds, tags', listed, ⟨_, rfl⟩ | ⟨_, rules, read, selected⟩⟩ := related_cases related
  · cases tags.symm.trans tags'
    exact fun _ here => here
  · cases tags.symm.trans tags'
    cases held : inboundTags config with
    | none => exact (nomatch (held ▸ tags : allInboundTags none = .ok all))
    | some inbounds =>
      rw [held] at tags selected
      exact selectInbounds_subset tags (by simp) selected

end Related

section Confined

/-- The second configuration is the first one but for the egress of one tag,
and makes no other outbound the default. -/
structure Confined (config config' : XrayConfig) (tag : String) : Prop where
  inbounds : inboundTags config' = inboundTags config
  listed : ∃ outbounds, config.outbounds = some outbounds
  outbounds : ∀ other, other ≠ tag → (config'.outbounds.getD []).filter (·.tag == some other) =
    (config.outbounds.getD []).filter (·.tag == some other)
  rules : ∃ before after, rulesOf config = .ok before ∧ rulesOf config' = .ok after ∧
    ∀ other, other ≠ tag → rulesTo other after = rulesTo other before
  balancers : ∀ other, assertManagedOutboundNotBalanced config' other =
    assertManagedOutboundNotBalanced config other

variable {config config' : XrayConfig} {tag other : String} {found : List String} {server : ServerId}
  {node : ManagedNode} {u v : Vertex}

theorem mem_outboundTags : some tag ∈ outboundTags config ↔
    (config.outbounds.getD []).filter (fun outbound => outbound.tag == some tag) ≠ [] := by
  rw [outboundTags, mem_map, ne_eq, filter_eq_nil_iff]
  push Not
  simp

theorem Confined.present (confined : Confined config config' tag) (different : other ≠ tag) :
    some other ∈ outboundTags config' ↔ some other ∈ outboundTags config := by
  rw [mem_outboundTags, mem_outboundTags, confined.outbounds other different]

theorem Confined.related (confined : Confined config config' tag) (different : other ≠ tag)
    (default : isDefault config' other = true → isDefault config other = true)
    (related : relatedSourceInbounds config' other = .ok found) :
    ∃ before, relatedSourceInbounds config other = .ok before ∧ ∀ inbound ∈ found, inbound ∈ before := by
  obtain ⟨outbounds, listed⟩ := confined.listed
  obtain ⟨all, _, tags', _, shape⟩ := related_cases related
  have tags := tags'
  rw [confined.inbounds] at tags
  by_cases first : isDefault config other = true
  · exact ⟨all, related_default tags listed first, related_subset tags' related⟩
  · have second : isDefault config' other = false := eq_false_of_ne_true fun here => first (default here)
    obtain ⟨here, _⟩ | ⟨_, rules, read, selected⟩ := shape
    · simp [second] at here
    · obtain ⟨before, after, readBefore, readAfter, same⟩ := confined.rules
      cases read.symm.trans readAfter
      rw [same other different, confined.inbounds] at selected
      exact ⟨found, (related_rules tags listed (eq_false_of_ne_true first) readBefore).trans selected,
        fun _ here => here⟩

theorem Confined.route (confined : Confined config config' tag) (different : outboundTag server node.id ≠ tag)
    (default : isDefault config' (outboundTag server node.id) = true →
      isDefault config (outboundTag server node.id) = true)
    (route : RouteTo server config' node u v) : RouteTo server config node u v := by
  obtain ⟨found, related, member⟩ := route.related
  obtain ⟨before, relatedBefore, subset⟩ := confined.related different default related
  exact { route with
    present := (confined.present different).mp route.present
    related := ⟨before, relatedBefore, subset _ member⟩ }

end Confined

section Unrouted

/-- Configurations that only differ in what routes do not depend on. -/
structure SameRouting (config config' : XrayConfig) : Prop where
  inbounds : inboundTags config' = inboundTags config
  outbounds : config'.outbounds = config.outbounds
  routing : config'.routing = config.routing

variable {config config' : XrayConfig} {server : ServerId} {node : ManagedNode} {u v : Vertex}

section

variable (same : SameRouting config config')
include same

theorem SameRouting.symm : SameRouting config' config :=
  ⟨same.inbounds.symm, same.outbounds.symm, same.routing.symm⟩

theorem SameRouting.trans {config'' : XrayConfig} (next : SameRouting config' config'') :
    SameRouting config config'' :=
  ⟨next.inbounds.trans same.inbounds, next.outbounds.trans same.outbounds, next.routing.trans same.routing⟩

theorem SameRouting.related (tag : String) :
    relatedSourceInbounds config' tag = relatedSourceInbounds config tag := by
  have default : isDefault config' tag = isDefault config tag := by simp only [isDefault, same.outbounds]
  have rules : rulesOf config' = rulesOf config := by simp only [rulesOf, routingOf, same.routing]
  simp only [relatedSourceInbounds, same.inbounds, same.outbounds, default, rules]

theorem SameRouting.balanced (tag : String) :
    assertManagedOutboundNotBalanced config' tag = assertManagedOutboundNotBalanced config tag := by
  simp only [assertManagedOutboundNotBalanced, routingOf, same.routing]

theorem SameRouting.tags : outboundTags config' = outboundTags config := by
  rw [outboundTags, outboundTags, same.outbounds]

theorem SameRouting.route (route : RouteTo server config' node u v) :
    RouteTo server config node u v := by
  obtain ⟨found, related, member⟩ := route.related
  exact { route with
    present := same.tags ▸ route.present
    related := ⟨found, (same.related _).symm.trans related, member⟩ }

end

end Unrouted

section Audited

/-- What every configuration of a run has in common: rules marked as managed
lead to the egress they are named after, no managed outbound is there twice,
and none is selected by a balancer. -/
structure Audited (plane : ControlPlane) (server : ServerId) (config : XrayConfig) : Prop where
  marks : ∀ node ∈ plane.nodes, ∀ routing, config.routing = .value routing → ∀ rule ∈ routing.rules.getD [],
    ruleMark rule = some (marktag server node.id) → rule.bind Rule.outboundTag = some (outboundTag server node.id)
  single : ∀ node ∈ plane.nodes,
    ((config.outbounds.getD []).filter (·.tag == some (outboundTag server node.id))).length ≤ 1
  spared : ∀ node ∈ plane.nodes, some (outboundTag server node.id) ∈ outboundTags config →
    assertManagedOutboundNotBalanced config (outboundTag server node.id) = .ok ()

variable {plane : ControlPlane} {server : ServerId} {config config' : XrayConfig} {node : ManagedNode}
  {u v : Vertex}

theorem SameRouting.audited (same : SameRouting config config') (audited : Audited plane server config) :
    Audited plane server config' where
  marks node here routing read := audited.marks node here routing (same.routing ▸ read)
  single node here := same.outbounds ▸ audited.single node here
  spared node here present := (same.balanced _).trans (audited.spared node here (same.tags ▸ present))

theorem RouteTo.mem_edges (route : RouteTo server config node u v) {edges : List (Vertex × Vertex)}
    (result : managedEdges server config node = .ok edges) : (u, v) ∈ edges := by
  obtain ⟨found, related, member⟩ := route.related
  simp only [managedEdges, route.physical, route.target] at result
  obtain ⟨entry, tagged, result⟩ := bind_eq_ok result
  cases entry with
  | none =>
    cases held : config.outbounds with
    | none => simp [ServerEgress.tagged, only, held] at tagged
    | some outbounds =>
      rw [held] at tagged
      have absent := only_none tagged
      have present := mem_outboundTags.mp route.present
      rw [held] at present
      exact absurd absent present
  | some entry =>
    obtain ⟨_, _, result⟩ := bind_eq_ok result
    obtain ⟨inbounds, related', result⟩ := bind_eq_ok result
    cases related.symm.trans related'
    cases result
    refine List.mem_map.mpr ⟨u.2, member, ?_⟩
    rw [route.host, ← route.source]

theorem Audited.edges (audited : Audited plane server config) (here : node ∈ plane.nodes)
    (route : RouteTo server config node u v) : ∃ edges, managedEdges server config node = .ok edges := by
  obtain ⟨found, related, member⟩ := route.related
  have single := audited.single node here
  have present := route.present
  have spared := audited.spared node here present
  cases held : config.outbounds with
  | none => exact absurd present (by simp [outboundTags, held])
  | some outbounds =>
    rw [outboundTags, held, Option.getD_some] at present
    rw [held, Option.getD_some] at single
    obtain ⟨entry, tagged⟩ := only_of_single "Xray outbounds must be an array"
      s!"Xray outbounds tag {outboundTag server node.id} is duplicated" single present
    refine ⟨found.map fun inbound => ((server, inbound), (node.serverId, v.2)), ?_⟩
    simp only [managedEdges, route.physical, route.target, ServerEgress.tagged, held]
    exact (bind_ok tagged).trans ((bind_ok spared).trans (bind_ok related))

end Audited

end OpenNode.ServerEgress
