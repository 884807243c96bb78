import OpenNode.EgressRoutes
import OpenNode.Lib.Table

namespace OpenNode.ServerEgress

open Edits Function GraphSearch List

section Rules

variable {rules rules' : List (Option Rule)} {tag mark other : String} {routing : Routing}
  {config config' : XrayConfig}

/-- Whether an entry of the rules leads to an outbound. -/
def leadsTo (other : String) (rule : Option Rule) : Bool :=
  rule.bind Rule.outboundTag == some other

theorem rulesTo_filter (other : String) (rules : List (Option Rule)) :
    rulesTo other (rules.filterMap id) = (rules.filter (leadsTo other)).filterMap id := by
  induction rules with
  | nil => rfl
  | cons rule rules ih =>
    cases rule with
    | none => simpa [rulesTo, leadsTo] using ih
    | some rule =>
      by_cases leads : rule.outboundTag = some other
      · simpa [rulesTo, leadsTo, leads] using ih
      · simpa [rulesTo, leadsTo, leads] using ih

theorem rulesOf_eq (read : routingOf config = .ok routing) (listed : routing.rules = some rules) :
    rulesOf config = .ok (rules.filterMap id) := by
  rw [rulesOf, bind_ok read, listed]
  rfl

theorem balanced_congr {routing' : Routing} (read : routingOf config = .ok routing)
    (read' : routingOf config' = .ok routing')
    (same : routing'.balancers = routing.balancers) (tag : String) :
    assertManagedOutboundNotBalanced config' tag = assertManagedOutboundNotBalanced config tag := by
  rw [assertManagedOutboundNotBalanced, assertManagedOutboundNotBalanced, bind_ok read, bind_ok read', same]

theorem popped_filter {α : Type} {p : α → Bool} {keyOf : α → Option String} {array duplicated key : String}
    {entries : List α}
    {old : Option (α × Nat)} (found : only keyOf array duplicated (some entries) key = .ok old)
    (out : ∀ entry ∈ entries, keyOf entry = some key → p entry = false) :
    (popped entries old).filter p = entries.filter p := by
  cases old with
  | none => rfl
  | some entry =>
    obtain ⟨place, here, _⟩ := only_some found
    exact filter_eraseIdx place (out entry.1 (mem_of_getElem? place) here)

theorem mem_popped {α : Type} {entries : List α} {old : Option (α × Nat)} {entry : α}
    (here : entry ∈ popped entries old) :
    entry ∈ entries := by
  cases old with
  | none => exact here
  | some _ => exact mem_of_mem_eraseIdx here

variable {old : Option (Option Rule × Nat)}

theorem mutatedRules_filter {p : Option Rule → Bool} (found : ruleIndex (some rules) mark = .ok old)
    (marked : ∀ rule ∈ rules, ruleMark rule = some mark → p rule = false)
    (new : ∀ selector, p (some (routingRule selector tag mark)) = false)
    (update : Update ServerEgressRoutingSelector) :
    (mutatedRules rules old tag mark update).filter p = rules.filter p := by
  cases update with
  | keep => rfl
  | remove => exact popped_filter found marked
  | set selector => exact (filter_insertIdx (new selector)).trans (popped_filter found marked)

theorem mem_mutatedRules {update : Update ServerEgressRoutingSelector} {rule : Option Rule}
    (here : rule ∈ mutatedRules rules old tag mark update) :
    rule ∈ rules ∨ ∃ selector, rule = some (routingRule selector tag mark) := by
  cases update with
  | keep => exact .inl here
  | remove => exact .inl (mem_popped here)
  | set selector =>
    rcases eq_or_mem_of_mem_insertIdx here with new | old
    exacts [.inr ⟨selector, new⟩, .inl (mem_popped old)]

end Rules

section Outbounds

variable {outbounds : List Outbound} {tag other : String} {old : Option (Outbound × Nat)} {body : String}
  {promote : Bool}
  {config : XrayConfig}

theorem isDefault_iff : isDefault config tag = true ↔
    ∃ outbound rest, config.outbounds = some (outbound :: rest) ∧ outbound.tag = some tag := by
  rw [isDefault]
  split
  · rename_i outbound rest held
    simp [held]
  · rename_i none_first
    simp only [Bool.false_eq_true, false_iff]
    rintro ⟨outbound, rest, held, _⟩
    exact none_first outbound rest held

section

variable (found : tagged Outbound.tag (some outbounds) tag "outbounds" = .ok old)
include found

theorem popped_other (different : other ≠ tag) :
    (popped outbounds old).filter (·.tag == some other) = outbounds.filter (·.tag == some other) :=
  popped_filter found fun outbound _ here => by simpa [here] using different.symm

theorem popped_own : ((popped outbounds old).filter (·.tag == some tag)).length = 0 := by
  cases old with
  | none => exact congrArg List.length (only_none found)
  | some entry =>
    obtain ⟨place, here, one⟩ := only_some found
    have erased := length_filter_eraseIdx (p := fun outbound : Outbound => outbound.tag == some tag) place (by
      simp [here])
    rw [popped]
    omega

theorem mutatedOutbounds_filter (different : other ≠ tag) :
    (mutatedOutbounds outbounds old ⟨some tag, body⟩ promote).filter (·.tag == some other) =
      outbounds.filter (·.tag == some other) := by
  have own : (some tag == some other) = false := by simpa using different.symm
  have others := popped_other found different
  cases promote with
  | true => simpa [mutatedOutbounds, own] using others
  | false =>
    simp only [mutatedOutbounds, Bool.false_eq_true, if_false]
    cases old with
    | none => simpa [own] using others
    | some entry => exact (filter_insertIdx (p := fun outbound : Outbound =>
        outbound.tag == some other) own).trans others

theorem mutatedOutbounds_single :
    ((mutatedOutbounds outbounds old ⟨some tag, body⟩ promote).filter (·.tag == some tag)).length ≤ 1 := by
  have others := popped_own found
  cases promote with
  | true =>
    simp only [mutatedOutbounds, if_true, filter_cons]
    split
    · rw [length_cons]; omega
    · omega
  | false =>
    simp only [mutatedOutbounds, Bool.false_eq_true, if_false]
    cases old with
    | none =>
      rw [filter_append, length_append, others, Nat.zero_add]
      exact length_filter_le ..
    | some entry =>
      have inserted := length_filter_insertIdx_le (p := fun outbound : Outbound => outbound.tag == some tag)
        (a := ⟨some tag, body⟩) (popped outbounds (some entry)) (min entry.2 (popped outbounds (some entry)).length)
      dsimp only at inserted ⊢
      omega

end

theorem mutatedOutbounds_default {rest : List Outbound} {first : Outbound} (different : first.tag ≠ some tag)
    (result : mutatedOutbounds outbounds old ⟨some tag, body⟩ promote = first :: rest) :
    ∃ rest', outbounds = first :: rest' := by
  have other : first ≠ ⟨some tag, body⟩ := by rintro rfl; exact different rfl
  cases promote with
  | true => exact absurd (List.cons.inj result).1.symm other
  | false =>
    cases outbounds with
    | nil =>
      cases old with
      | none => exact absurd (List.cons.inj result).1.symm other
      | some entry => exact absurd (List.cons.inj (by simpa [mutatedOutbounds, popped] using result)).1.symm other
    | cons head tail =>
      cases old with
      | none => exact ⟨tail, by rw [(List.cons.inj result).1]⟩
      | some entry =>
        obtain ⟨outbound, index⟩ := entry
        cases index with
        | zero => exact absurd (List.cons.inj (by simpa [mutatedOutbounds, popped] using result)).1.symm other
        | succ index =>
          have rest : mutatedOutbounds (head :: tail) (some (outbound, index + 1)) ⟨some tag, body⟩ false =
              head :: (tail.eraseIdx index).insertIdx (min index (tail.eraseIdx index).length)
                ⟨some tag, body⟩ := by
            simp only [mutatedOutbounds, popped, Bool.false_eq_true, if_false, eraseIdx_cons_succ, length_cons,
              Nat.add_min_add_right, insertIdx_succ_cons]
          exact ⟨tail, by rw [(List.cons.inj (rest.symm.trans result)).1]⟩

end Outbounds

section Parts

variable {plane : ControlPlane} {source : ServerId} {config config' : XrayConfig} {node : ManagedNode}
  {rules rules' : List (Option Rule)} {routing : Routing}

/-- A change of the outbounds and rules of one egress. -/
structure Changed (source : ServerId) (config config' : XrayConfig) (node : NodeId) (routing : Routing)
    (rules rules' : List (Option Rule)) : Prop where
  inbounds : inboundTags config' = inboundTags config
  listed : ∃ outbounds, config.outbounds = some outbounds
  outbounds : ∀ other, other ≠ outboundTag source node → (config'.outbounds.getD []).filter (·.tag == some other) =
    (config.outbounds.getD []).filter (·.tag == some other)
  own : ((config'.outbounds.getD []).filter (·.tag == some (outboundTag source node))).length ≤ 1
  read : routingOf config = .ok routing
  array : routing.rules = some rules
  written : routingOf config' = .ok { routing with rules := some rules' }
  kept : ∀ other, other ≠ outboundTag source node → rules'.filter (leadsTo other) = rules.filter (leadsTo other)
  marked : ∀ rule ∈ rules', rule ∈ rules ∨
    (ruleMark rule = some (marktag source node) ∧ rule.bind Rule.outboundTag = some (outboundTag source node))

theorem Changed.confined (changed : Changed source config config' node.id routing rules rules') :
    Confined config config' (outboundTag source node.id) where
  inbounds := changed.inbounds
  listed := changed.listed
  outbounds := changed.outbounds
  rules := by
    refine ⟨_, _, rulesOf_eq changed.read changed.array, rulesOf_eq changed.written rfl, fun other different => ?_⟩
    rw [rulesTo_filter, rulesTo_filter, changed.kept other different]
  balancers := balanced_congr changed.read changed.written rfl

theorem Audited.marked (audited : Audited plane source config) (here : node ∈ plane.nodes)
    (read : routingOf config = .ok routing) (listed : routing.rules = some rules) {rule : Option Rule}
    (inside : rule ∈ rules)
    (mark : ruleMark rule = some (marktag source node.id)) :
    rule.bind Rule.outboundTag = some (outboundTag source node.id) := by
  rw [routingOf] at read
  split at read
  · cases read
    cases listed
    exact absurd inside not_mem_nil
  · cases read
    cases listed
    exact absurd inside not_mem_nil
  · cases read
  · rename_i held
    cases read
    exact audited.marks node here _ held rule (by rw [listed]; exact inside) mark

theorem Changed.audited (changed : Changed source config config' node.id routing rules rules') (apart : plane.Apart)
    (audited : Audited plane source config) (here : node ∈ plane.nodes)
    (spared : some (outboundTag source node.id) ∈ outboundTags config' →
      assertManagedOutboundNotBalanced config' (outboundTag source node.id) = .ok ()) :
    Audited plane source config' where
  marks other inside routing' held rule there mark := by
    have written := changed.written
    rw [routingOf, held] at written
    cases written
    rcases changed.marked rule there with old | ⟨own, leads⟩
    · exact audited.marked inside changed.read changed.array old mark
    · have same := marktag_inj (Option.some.inj (own.symm.trans mark))
      obtain rfl := apart node here other inside same
      exact leads
  single other inside := by
    by_cases same : outboundTag source other.id = outboundTag source node.id
    · rw [same]
      exact changed.own
    · rw [changed.outbounds _ same]
      exact audited.single other inside
  spared other inside present := by
    by_cases same : outboundTag source other.id = outboundTag source node.id
    · rw [same] at present ⊢
      exact spared present
    · rw [changed.confined.balancers]
      exact audited.spared other inside ((changed.confined.present same).mp present)

end Parts

section Mutations

variable {plane : ControlPlane} {source : ServerId} {config candidate : XrayConfig} {node : ManagedNode}
  {body : String}
  {payload : ServerEgressApplyRequest}

theorem array_eq_ok {α : Type} {error : String} {entries : Option (List α)} {found : List α}
    (result : array error entries = .ok found) : entries = some found := by
  cases entries with
  | none => exact (nomatch result)
  | some _ => exact congrArg some (Except.ok.inj result)

variable {routing : Routing}

theorem candidateRouting_read (read : candidateRouting config = .ok routing) : routingOf config = .ok routing := by
  rw [candidateRouting] at read
  rw [routingOf]
  split at read
  · rename_i held
    rw [held]
    exact read
  · cases read
  · rename_i held
    rw [held]
    exact read

variable {rules : List (Option Rule)} {old : Option (Option Rule × Nat)}

theorem writtenRouting_read {update : Update ServerEgressRoutingSelector} {tag mark : String}
    (read : candidateRouting config = .ok routing) (listed : routing.rules = some rules)
    (held : candidate.routing = writtenRouting config routing (mutatedRules rules old tag mark update) update) :
    routingOf candidate = .ok { routing with rules := some (mutatedRules rules old tag mark update) } := by
  rw [routingOf, held]
  by_cases absent : config.routing = .absent
  · rw [candidateRouting, absent] at read
    cases read
    cases listed
    cases update with
    | keep => simp [writtenRouting, absent, mutatedRules]
    | remove => cases old <;> simp [writtenRouting, absent, mutatedRules, popped]
    | set selector => rfl
  · cases update with
    | keep => simp [writtenRouting, absent]
    | remove => simp [writtenRouting, absent]
    | set selector => rfl

theorem mutatedSource_changed (audited : Audited plane source config) (here : node ∈ plane.nodes)
    (result : mutatedSource config body (outboundTag source node.id) (marktag source node.id) payload =
      .ok candidate) :
    (∃ routing rules rules', Changed source config candidate node.id routing rules rules') ∧
      ∀ other, other ≠ outboundTag source node.id → isDefault candidate other = true →
        isDefault config other = true := by
  obtain ⟨old, found, result⟩ := bind_eq_ok result
  obtain ⟨outbounds, listed, result⟩ := bind_eq_ok result
  obtain ⟨routing, read, result⟩ := bind_eq_ok result
  obtain ⟨oldRule, foundRule, result⟩ := bind_eq_ok result
  obtain ⟨rules, array, result⟩ := bind_eq_ok result
  cases result
  have listed := array_eq_ok listed
  have array := array_eq_ok array
  rw [listed] at found
  rw [array] at foundRule
  have reads := candidateRouting_read read
  refine ⟨⟨routing, rules,
    mutatedRules rules oldRule (outboundTag source node.id) (marktag source node.id) payload.routing, ?_⟩, ?_⟩
  · exact {
      inbounds := rfl
      listed := ⟨outbounds, listed⟩
      outbounds := fun other different => by rw [listed]; exact mutatedOutbounds_filter found different
      own := mutatedOutbounds_single found
      read := reads
      array := array
      written := writtenRouting_read read array rfl
      kept := fun other different => by
        refine mutatedRules_filter foundRule (fun rule inside mark => ?_) (fun selector => ?_) payload.routing
        · simpa [leadsTo, audited.marked here reads array inside mark] using different.symm
        · simpa [leadsTo, routingRule] using different.symm
      marked := fun rule inside => by
        rcases mem_mutatedRules inside with old | ⟨selector, rfl⟩
        · exact .inl old
        · exact .inr ⟨rfl, rfl⟩ }
  · intro other different default
    obtain ⟨first, rest, held, tag⟩ := isDefault_iff.mp default
    have held := Option.some.inj held
    have foreign : first.tag ≠ some (outboundTag source node.id) := by
      rw [tag]
      exact fun same => different (Option.some.inj same)
    obtain ⟨rest', before⟩ := mutatedOutbounds_default foreign held
    exact isDefault_iff.mpr ⟨first, rest', by rw [listed, before], tag⟩

theorem poppedRouting_read (read : routingOf config = .ok routing) (listed : routing.rules = some rules)
    (held : candidate.routing =
      match config.routing with
      | .value routing => .value { routing with rules := some (popped rules old) }
      | unchanged => unchanged) :
    routingOf candidate = .ok { routing with rules := some (popped rules old) } := by
  have nothing : popped ([] : List (Option Rule)) old = [] := by cases old <;> rfl
  rw [routingOf] at read ⊢
  rw [held]
  cases shape : config.routing with
  | value value =>
    rw [shape] at read
    cases read
    rfl
  | absent =>
    rw [shape] at read
    cases read
    cases listed
    rw [nothing]
  | malformed truthy =>
    cases truthy with
    | true => cases (shape ▸ read : Except.error _ = Except.ok routing)
    | false =>
      rw [shape] at read
      cases read
      cases listed
      rw [nothing]

theorem withoutEgress_changed {connected : Bool} (audited : Audited plane source config) (here : node ∈ plane.nodes)
    (result : withoutEgress config (outboundTag source node.id) (marktag source node.id)
      connected = .ok candidate) :
    (∃ routing rules rules', Changed source config candidate node.id routing rules rules') ∧
      ∃ outbounds old, config.outbounds = some outbounds ∧ candidate.outbounds = some (popped outbounds old) ∧
        tagged Outbound.tag (some outbounds) (outboundTag source node.id) "outbounds" = .ok old := by
  obtain ⟨old, found, result⟩ := bind_eq_ok result
  obtain ⟨outbounds, listed, result⟩ := bind_eq_ok result
  obtain ⟨routing, read, result⟩ := bind_eq_ok result
  obtain ⟨oldRule, foundRule, result⟩ := bind_eq_ok result
  obtain ⟨rules, array, result⟩ := bind_eq_ok result
  obtain ⟨_, _, result⟩ := bind_eq_ok result
  obtain ⟨_, _, result⟩ := bind_eq_ok result
  cases result
  have listed := array_eq_ok listed
  have array := array_eq_ok array
  rw [listed] at found
  rw [array] at foundRule
  refine ⟨⟨routing, rules, popped rules oldRule, ?_⟩, outbounds, old, listed, rfl, found⟩
  exact {
    inbounds := rfl
    listed := ⟨outbounds, listed⟩
    outbounds := fun other different => by rw [listed]; exact popped_other found different
    own := Nat.le_trans (Nat.le_of_eq (popped_own found)) (Nat.zero_le 1)
    read := read
    array := array
    written := poppedRouting_read read array rfl
    kept := fun other different => popped_filter foundRule fun rule inside mark => by
      simpa [leadsTo, audited.marked here read array inside mark] using different.symm
    marked := fun rule inside => .inl (mem_popped inside) }

theorem set_tag {inbounds : List Inbound} {index : Nat} {inbound changed : Inbound}
    (place : inbounds[index]? = some inbound)
    (same : changed.tag = inbound.tag) :
    (inbounds.set index changed).map Inbound.tag = inbounds.map Inbound.tag := by
  rw [map_set, same]
  exact Table.set_same (by rw [List.getElem?_map, place, Option.map_some])

theorem mutatedTargetClient_same {inboundTag container email : String} {client : Option Client}
    (result : mutatedTargetClient config inboundTag container email client = .ok candidate) :
    SameRouting config candidate := by
  obtain ⟨⟨inbound, index⟩, found, result⟩ := bind_eq_ok result
  obtain ⟨settings, _, result⟩ := bind_eq_ok result
  obtain ⟨clients, _, result⟩ := bind_eq_ok result
  obtain ⟨place, _, result⟩ := bind_eq_ok result
  cases result
  refine ⟨?_, rfl, rfl⟩
  obtain ⟨entry, tagged, found⟩ := bind_eq_ok found
  cases entry with
  | none => exact (nomatch found)
  | some entry =>
    cases found
    cases held : config.inbounds with
    | none => simp [inboundTags, held]
    | some inbounds =>
      rw [held] at tagged
      have ⟨here, _, _⟩ := only_some tagged
      simp only [inboundTags, held, Option.map_some]
      exact congrArg some (set_tag here rfl)

end Mutations

section Graph

variable {plane : ControlPlane} {source : ServerId} {config candidate : XrayConfig} {node : ManagedNode}
  {snapshots : Snapshots}
  {graph : List (Vertex × Vertex)} {u v : Vertex}

theorem sourceEdges_mem {nodes : List ManagedNode} (result : sourceEdges source config nodes = .ok graph)
    (here : node ∈ nodes) :
    ∃ edges, managedEdges source config node = .ok edges ∧ ∀ edge ∈ edges, edge ∈ graph := by
  induction nodes generalizing graph with
  | nil => exact absurd here not_mem_nil
  | cons head nodes ih =>
    obtain ⟨edges, own, result⟩ := bind_eq_ok result
    obtain ⟨rest, others, result⟩ := bind_eq_ok result
    cases result
    rcases List.mem_cons.mp here with rfl | later
    · exact ⟨edges, own, fun edge inside => mem_append_left _ inside⟩
    · obtain ⟨part, read, inside⟩ := ih others later
      exact ⟨part, read, fun edge there => mem_append_right _ (inside edge there)⟩

theorem managedRouteGraph_complete (audited : ∀ server config, snapshots server = some config →
    Audited plane server config)
    (result : managedRouteGraph plane snapshots source candidate = .ok graph)
    (route : Route plane (Function.update snapshots source (some candidate)) u v) : (u, v) ∈ graph := by
  obtain ⟨known, config, held, node, here, route⟩ := route
  obtain ⟨own, read, result⟩ := bind_eq_ok result
  cases result
  by_cases same : u.1 = source
  · rw [same, update_self] at held
    cases held
    obtain ⟨edges, read, inside⟩ := sourceEdges_mem read here
    rw [same] at route
    exact mem_append_left _ (inside _ (route.mem_edges read))
  · rw [update_of_ne same] at held
    obtain ⟨edges, read⟩ := (audited u.1 config held).edges here route
    refine mem_append_right _ (List.mem_flatMap.mpr ⟨u.1, List.mem_filter.mpr ⟨known, by simpa using same⟩, ?_⟩)
    simp only [held]
    refine List.mem_flatMap.mpr ⟨node, here, ?_⟩
    rw [read]
    exact route.mem_edges read

theorem assertManagedRouteIsAcyclic_unreachable {inbounds : List String} {target : Vertex}
    (audited : ∀ server config, snapshots server = some config → Audited plane server config) {done : Unit}
    (passed : assertManagedRouteIsAcyclic plane snapshots source candidate inbounds target = .ok done)
    {inbound : String}
    (here : inbound ∈ inbounds) :
    ¬ Relation.ReflTransGen (Route plane (Function.update snapshots source (some candidate))) target (source,
      inbound) := by
  obtain ⟨graph, built, passed⟩ := bind_eq_ok passed
  intro path
  have checked : ∀ u v, Route plane (Function.update snapshots source (some candidate)) u v → (u, v) ∈ graph :=
    fun u v route => managedRouteGraph_complete audited built route
  exact not_reachable (require_ok passed inbound here) (Relation.ReflTransGen.mono checked _ _ path)

end Graph

section Prepared

variable {plane : ControlPlane} {source : ServerId} {node : ManagedNode} {snapshots : Snapshots}
  {prepared : Prepared}

/-- What a prepared change says about the snapshots it was made from. -/
structure PreparedFrom (plane : ControlPlane) (snapshots : Snapshots) (source : ServerId) (node : ManagedNode)
    (prepared : Prepared) : Prop where
  here : node ∈ plane.nodes
  known : source ∈ plane.servers
  server : prepared.sourceStep.server = source
  expected : snapshots source = some prepared.sourceStep.expected
  candidate : Audited plane source prepared.sourceStep.candidate
  target : ∀ command, prepared.targetStep = some command → SameRouting command.expected command.candidate

/-- Removing the default outbound of an egress leaves another managed egress first. -/
def Promotes (plane : ControlPlane) (source : ServerId) (node : NodeId) (config : XrayConfig) : Prop :=
  ∃ removed next rest, config.outbounds = some (removed :: next :: rest) ∧
    removed.tag = some (outboundTag source node) ∧
    ∃ other ∈ plane.nodes, next.tag = some (outboundTag source other.id)

variable {config : XrayConfig}

theorem snapshotOf_ok {server : ServerId} (result : snapshotOf snapshots server = .ok config) :
    snapshots server = some config := by
  rw [snapshotOf] at result
  split at result
  · rename_i held
    rw [held, Except.ok.inj result]
  · exact (nomatch result)

theorem ControlPlane.node_ok {id : NodeId} (result : plane.node id = .ok node) : node ∈ plane.nodes ∧
    node.id = id := by
  rw [ControlPlane.node] at result
  split at result
  · rename_i found
    cases result
    exact ⟨mem_of_find?_eq_some found, by simpa using List.find?_some found⟩
  · exact (nomatch result)

theorem ControlPlane.server_ok {done : Unit} (result : plane.server source = .ok done) :
    source ∈ plane.servers := by
  obtain ⟨_, known, _⟩ := bind_eq_ok result
  exact require_ok known

/-- Every route of the candidate of an apply was there before or was checked
against the snapshots. -/
def Checked (plane : ControlPlane) (snapshots : Snapshots) (command : Command) : Prop :=
  ∀ node ∈ plane.nodes, ∀ u v, RouteTo command.server command.candidate node u v →
    RouteTo command.server command.expected node u v ∨
      ¬ Relation.ReflTransGen (Route plane (Function.update snapshots command.server (some command.candidate))) v u

theorem SameRouting.update {config' : XrayConfig} (same : SameRouting config config') {u v : Vertex}
    (route : Route plane (Function.update snapshots source (some config')) u v) :
    Route plane (Function.update snapshots source (some config)) u v := by
  obtain ⟨known, held', read, node, here, route⟩ := route
  by_cases own : u.1 = source
  · rw [own, update_self] at read
    cases read
    exact ⟨known, config, by rw [own, update_self], node, here, same.route route⟩
  · rw [update_of_ne own] at read
    exact ⟨known, held', by rw [update_of_ne own]; exact read, node, here, route⟩

theorem identityOf_ok {found : String × String} (result : identityOf node = .ok found) :
    node.inboundTag = some found.1 := by
  rw [identityOf] at result
  split at result
  · rename_i tagged _
    rw [tagged, ← Except.ok.inj result]
  · exact (nomatch result)

theorem prepare_from {payload : ServerEgressApplyRequest} (apart : plane.Apart)
    (audited : ∀ server config, snapshots server = some config → Audited plane server config)
    (result : prepare plane snapshots source payload = .ok prepared) :
    (∃ node, PreparedFrom plane snapshots source node prepared) ∧ Checked plane snapshots prepared.sourceStep := by
  obtain ⟨_, known, result⟩ := bind_eq_ok result
  obtain ⟨node, found, result⟩ := bind_eq_ok result
  obtain ⟨_, available, result⟩ := bind_eq_ok result
  obtain ⟨⟨targetTag, container⟩, identity, result⟩ := bind_eq_ok result
  obtain ⟨sourceConfig, sourceSaved, result⟩ := bind_eq_ok result
  obtain ⟨targetConfig, targetSaved, result⟩ := bind_eq_ok result
  obtain ⟨_, _, result⟩ := bind_eq_ok result
  obtain ⟨⟨client, body⟩, _, result⟩ := bind_eq_ok result
  obtain ⟨clientCandidate, clientWritten, result⟩ := bind_eq_ok result
  obtain ⟨candidate, written, result⟩ := bind_eq_ok result
  obtain ⟨_, spared, result⟩ := bind_eq_ok result
  obtain ⟨_, _, result⟩ := bind_eq_ok result
  obtain ⟨related, inbounds, result⟩ := bind_eq_ok result
  obtain ⟨_, acyclic, result⟩ := bind_eq_ok result
  obtain ⟨sniffing, _, result⟩ := bind_eq_ok result
  cases result
  have here := (ControlPlane.node_ok found).1
  have sourceSaved := snapshotOf_ok sourceSaved
  have targetSaved := snapshotOf_ok targetSaved
  have clientSame := mutatedTargetClient_same clientWritten
  have sniffed : SameRouting candidate { candidate with sniffing := sniffing } := ⟨rfl, rfl, rfl⟩
  -- What the new outbound goes into routes as the source's snapshot does.
  have based : SameRouting sourceConfig (if source = node.serverId then clientCandidate else sourceConfig) := by
    split
    · rename_i same
      rw [← same, sourceSaved] at targetSaved
      exact Option.some.inj targetSaved ▸ clientSame
    · exact ⟨rfl, rfl, rfl⟩
  have before := audited source sourceConfig sourceSaved
  obtain ⟨⟨routing, rules, rules', changed⟩, default⟩ := mutatedSource_changed (based.audited before) here written
  have after := changed.audited apart (based.audited before) here fun _ => spared
  refine ⟨⟨node, ?_⟩, ?_⟩
  · exact {
      here := here
      known := ControlPlane.server_ok known
      server := rfl
      expected := sourceSaved
      candidate := sniffed.audited after
      target := fun command step => by
        split at step
        · exact (nomatch step)
        · cases step
          exact clientSame }
  · intro other inside u v route
    have route := sniffed.route route
    by_cases own : outboundTag source other.id = outboundTag source node.id
    · obtain rfl := apart other inside node here (outboundTag_inj own)
      obtain ⟨reached, relatedOf, member⟩ := route.related
      cases inbounds.symm.trans relatedOf
      refine .inr fun path => ?_
      have target : v = (other.serverId, targetTag) :=
        Prod.ext route.host.symm (Option.some.inj (route.target.symm.trans (identityOf_ok identity)))
      have origin : u = (source, u.2) := Prod.ext route.source rfl
      rw [target, origin] at path
      refine assertManagedRouteIsAcyclic_unreachable audited acyclic member (Relation.ReflTransGen.mono ?_ _ _ path)
      exact fun u v route => sniffed.update route
    · exact .inl (based.route (changed.confined.route own (default _ own) route))

theorem popped_default {outbounds : List Outbound} {old : Option (Outbound × Nat)} {tag other : String}
    {before after : XrayConfig}
    (listed : before.outbounds = some outbounds) (left : after.outbounds = some (popped outbounds old))
    (found : tagged Outbound.tag (some outbounds) tag "outbounds" = .ok old)
    (unpromoted : ∀ removed next rest, outbounds = removed :: next :: rest → removed.tag = some tag →
      next.tag ≠ some other)
    (default : isDefault after other = true) : isDefault before other = true := by
  obtain ⟨first, rest, held, tagged⟩ := isDefault_iff.mp default
  have held := Option.some.inj (left.symm.trans held)
  cases old with
  | none => exact isDefault_iff.mpr ⟨first, rest, by rw [listed]; exact congrArg some held, tagged⟩
  | some entry =>
    obtain ⟨removed, index⟩ := entry
    obtain ⟨place, own, _⟩ := only_some found
    cases outbounds with
    | nil => exact (nomatch place)
    | cons head tail =>
      cases index with
      | zero =>
        obtain rfl : head = removed := by simpa using place
        have tail_eq : tail = first :: rest := by simpa [popped] using held
        exact absurd tagged (unpromoted head first rest (by rw [tail_eq]) own)
      | succ index =>
        have same : head = first := by
          exact (List.cons.inj held).1
        exact isDefault_iff.mpr ⟨head, tail, listed, same ▸ tagged⟩

theorem prepareRemove_from {target : NodeId} (apart : plane.Apart)
    (audited : ∀ server config, snapshots server = some config → Audited plane server config)
    (result : prepareRemove plane snapshots source target = .ok prepared) :
    (∃ node, PreparedFrom plane snapshots source node prepared) ∧
      (¬ Promotes plane source target prepared.sourceStep.expected → ∀ other ∈ plane.nodes, ∀ u v,
        RouteTo source prepared.sourceStep.candidate other u v →
          RouteTo source prepared.sourceStep.expected other u v) := by
  obtain ⟨_, known, result⟩ := bind_eq_ok result
  obtain ⟨node, found, result⟩ := bind_eq_ok result
  obtain ⟨_, _, result⟩ := bind_eq_ok result
  obtain ⟨⟨targetTag, container⟩, identity, result⟩ := bind_eq_ok result
  obtain ⟨_, _, result⟩ := bind_eq_ok result
  obtain ⟨sourceConfig, sourceSaved, result⟩ := bind_eq_ok result
  obtain ⟨targetConfig, targetSaved, result⟩ := bind_eq_ok result
  obtain ⟨oldClient, _, result⟩ := bind_eq_ok result
  obtain ⟨candidate, written, result⟩ := bind_eq_ok result
  obtain ⟨sniffing, _, result⟩ := bind_eq_ok result
  obtain ⟨targetCandidate, clientWritten, result⟩ := bind_eq_ok result
  cases result
  obtain ⟨here, rfl⟩ := ControlPlane.node_ok found
  have sourceSaved := snapshotOf_ok sourceSaved
  have clientSame := mutatedTargetClient_same clientWritten
  have sniffed : SameRouting candidate { candidate with sniffing := sniffing } := ⟨rfl, rfl, rfl⟩
  have last : SameRouting candidate
      (if source = node.serverId then targetCandidate else { candidate with sniffing := sniffing }) := by
    split
    · rename_i same
      rw [if_pos same] at clientSame
      exact sniffed.trans clientSame
    · exact sniffed
  have before := audited source sourceConfig sourceSaved
  obtain ⟨⟨routing, rules, rules', changed⟩, outbounds, old, listed, left, popped⟩ :=
    withoutEgress_changed before here written
  have gone : some (outboundTag source node.id) ∉ outboundTags candidate := by
    rw [mem_outboundTags, left, not_not]
    exact eq_nil_of_length_eq_zero (popped_own popped)
  have after := changed.audited apart before here fun present => absurd present gone
  refine ⟨⟨node, ?_⟩, ?_⟩
  · exact {
      here := here
      known := ControlPlane.server_ok known
      server := rfl
      expected := sourceSaved
      candidate := last.audited after
      target := fun command step => by
        dsimp only at step
        split at step
        · rename_i elsewhere
          cases step
          rw [if_neg elsewhere.1] at clientSame
          exact clientSame
        · exact (nomatch step) }
  · intro unpromoted other inside u v route
    have route := last.route route
    by_cases own : outboundTag source other.id = outboundTag source node.id
    · exact absurd (own ▸ route.present) gone
    · refine changed.confined.route own (popped_default listed left popped ?_) route
      rintro removed next rest shape tag same
      exact unpromoted ⟨removed, next, rest, listed.trans (congrArg some shape), tag, other, inside, same⟩

end Prepared

end OpenNode.ServerEgress
