import OpenNode.Lib.Saturation

namespace OpenNode.NodeManagement

open List Saturation

inductive ManagedNodeType where
  | physical | routed | orchestrated
deriving DecidableEq

structure ManagedNode where
  id : String
  name : String := ""
  serverId : Option String := none
  nodeType : ManagedNodeType := .physical
  parentId : Option String := none
  targetNodeId : Option String := none
  removalId : Option String := none
  inboundTag : Option String := none
  routedOutboundTag : Option String := none
deriving DecidableEq

/-- A topology with the `node_ids` of its stages. -/
structure NodeTopology where
  id : String
  stages : List (List String)

/-- A tag that is there and not empty. -/
def given (tag : Option String) : Option String :=
  tag.filter fun tag => tag ≠ ""

def ManagedNode.inbound (item : ManagedNode) : Option String × Option String :=
  (item.serverId, item.inboundTag)

def removedInbounds (nodes : List ManagedNode) (selected : List String) : List (Option String × Option String) :=
  (nodes.filter fun item => item.id ∈ selected ∧ item.nodeType = .physical ∧ (given item.inboundTag).isSome).map
    ManagedNode.inbound

def remainingInbounds (nodes : List ManagedNode) (selected : List String) : List (Option String × Option String) :=
  (nodes.filter fun item => item.id ∉ selected ∧ item.nodeType = .physical).map ManagedNode.inbound

/-- The condition of the loop over the nodes, with the difference of the two sets of inbounds. -/
def follows (retired : List (Option String × Option String)) (selected : List String) (item : ManagedNode) : Bool :=
  item.parentId.any (· ∈ selected) || item.targetNodeId.any (· ∈ selected) ||
    (item.nodeType = .routed && item.inbound ∈ retired)

/-- What one turn of `while True` adds to the selection. The inbounds are those
before the turn, the links see what the turn has added. -/
def turn (nodes : List ManagedNode) (topologies : List NodeTopology) (selected : List String) : List String :=
  let retired := (removedInbounds nodes selected).filter fun inbound => inbound ∉ remainingInbounds nodes selected
  let added := gather (fun added item => follows retired (selected ++ added) item) ManagedNode.id [] nodes
  gather (fun added topology => topology.stages.flatten.any (· ∈ selected ++ added)) NodeTopology.id
    added topologies

/-- `closure`, with the selection it stops at. -/
def closure (nodes : List ManagedNode) (topologies : List NodeTopology) (chosen : String) :
    Option (List ManagedNode) :=
  match saturate (fun selected => (.ok (turn nodes topologies selected) : Except Empty _))
    (nodes.length + topologies.length + 1) [chosen] with
  | some (.ok selected) => some (nodes.filter fun item => item.id ∈ selected)
  | _ => none

structure Credential where
  nodeId : String
  serverId : String

/-- A row of access with the nodes of its bindings. -/
structure AccessRow where
  serverId : String
  nodeIds : List String

/-- What `_view` reads. The two predicates are `pending_for_server` and the
lock or the open review of a change set. -/
structure Store where
  nodes : List ManagedNode
  topologies : List NodeTopology := []
  servers : List (String × String) := []
  credentials : List Credential := []
  rows : List AccessRow := []
  pending : String → Bool := fun _ => false
  changing : String → Bool := fun _ => false

structure Target where
  serverId : String
  serverName : String
  inboundTags : List String
  outboundTags : List String
  retainedInboundTags : List String
  retainedOutboundTags : List String

structure View where
  nodes : List (String × String)
  credentialCount : Nat
  servers : List Target
  blockers : List String
  warnings : List String

def sorted (values : List String) : List String := values.dedup.insertionSort (· ≤ ·)

/-- `sorted` of the server identifiers, of which `None` compares with no other. -/
def sortedServers (ids : List (Option String)) : Except String (List (Option String)) :=
  if none ∉ ids then .ok ((sorted (ids.filterMap fun server => server)).map some)
  else if ids.all (· = none) then .ok [none]
  else .error "'<' not supported between instances of 'NoneType' and 'str'"

def wantedIn (selected : List ManagedNode) (serverId : String) : List String :=
  (selected.filter fun item => item.serverId = some serverId ∧ item.nodeType = .physical).filterMap fun item =>
    given item.inboundTag

def wantedOut (selected : List ManagedNode) (serverId : String) : List String :=
  (selected.filter fun item => item.serverId = some serverId).filterMap fun item => given item.routedOutboundTag

/-- The tags that a remaining node of the server uses. -/
def retained (tag : ManagedNode → Option String) (remaining : List ManagedNode) (serverId : String)
    (wanted : List String) : List String :=
  wanted.filter fun value => remaining.any fun item => item.serverId = some serverId && tag item = some value

def target (selected remaining : List ManagedNode) (serverId serverName : String) : Target :=
  let wantedIn := wantedIn selected serverId
  let wantedOut := wantedOut selected serverId
  let retainedIn := retained ManagedNode.inboundTag remaining serverId wantedIn
  let retainedOut := retained ManagedNode.routedOutboundTag remaining serverId wantedOut
  { serverId, serverName
    inboundTags := sorted (wantedIn.filter (· ∉ retainedIn))
    outboundTags := sorted (wantedOut.filter (· ∉ retainedOut))
    retainedInboundTags := sorted retainedIn
    retainedOutboundTags := sorted retainedOut }

/-- The server with its identifier and name; `None` is no key. -/
def Store.server (store : Store) (serverId : Option String) : Option (String × String) :=
  serverId.bind fun serverId => store.servers.find? fun server => server.1 = serverId

def Store.blockers (store : Store) (serverId : Option String) : List String :=
  match store.server serverId with
  | none => ["A node or credential refers to a missing server"]
  | some (serverId, name) =>
    (if store.pending serverId then [name ++ ": another node removal is pending"] else []) ++
      if store.changing serverId then [name ++ ": resolve the active change set first"] else []

def warnings (item : ManagedNode) : List String :=
  (if (given item.inboundTag).isNone then
    [item.name ++ ": no managed inbound; external resources need manual cleanup"] else []) ++
  if item.nodeType = .routed ∧ (given item.routedOutboundTag).isNone then
    [item.name ++ ": no managed outbound; external routing needs manual cleanup"] else []

/-- `list(dict.fromkeys(values))`. -/
def distinct (values : List String) : List String := (values.reverse.dedup).reverse

/-- `_view`, after the closure. -/
def Store.viewOf (store : Store) (selected : List ManagedNode) : Except String View :=
  let ids := selected.map ManagedNode.id
  let remaining := store.nodes.filter fun item => item.id ∉ ids
  let credentials := store.credentials.filter fun row => row.nodeId ∈ ids
  let rows := store.rows.filter fun row => row.nodeIds.any (· ∈ ids)
  let serverIds := selected.map ManagedNode.serverId ++
    (credentials.map Credential.serverId ++ rows.map AccessRow.serverId).map some
  (sortedServers serverIds).map fun serverIds =>
    { nodes := selected.map fun item => (item.id, item.name)
      credentialCount := credentials.length
      servers := (serverIds.filterMap store.server).map fun (serverId, name) =>
        target selected remaining serverId name
      blockers := distinct ((selected.filter (·.removalId.any (· ≠ ""))).map (fun _ =>
        "Node removal is already in progress") ++ serverIds.flatMap store.blockers)
      warnings := distinct (selected.flatMap warnings) }

def Store.view (store : Store) (chosen : String) : Option (Except String View) :=
  (closure store.nodes store.topologies chosen).map store.viewOf

/-- A physical node listens on the inbound of `item`. -/
def ManagedNode.Serves (node item : ManagedNode) : Prop :=
  node.nodeType = .physical ∧ node.inbound = item.inbound ∧ given item.inboundTag ≠ none

/-- What a removal must take together: the children and the sources of a node, the routed nodes
of an inbound with its last physical node, and the topologies of a component. -/
structure Closed (nodes : List ManagedNode) (topologies : List NodeTopology) (S : String → Prop) : Prop where
  child : ∀ item ∈ nodes, ∀ parent, item.parentId = some parent → S parent → S item.id
  source : ∀ item ∈ nodes, ∀ target, item.targetNodeId = some target → S target → S item.id
  inbound : ∀ item ∈ nodes, item.nodeType = .routed → (∃ node ∈ nodes, node.Serves item) →
    (∀ node ∈ nodes, node.Serves item → S node.id) → S item.id
  topology : ∀ topology ∈ topologies, ∀ component ∈ topology.stages.flatten, S component → S topology.id

/-- The least such set with the chosen node. -/
structure Least (nodes : List ManagedNode) (topologies : List NodeTopology) (chosen : String)
    (S : String → Prop) : Prop where
  start : S chosen
  closed : Closed nodes topologies S
  least : ∀ T : String → Prop, T chosen → Closed nodes topologies T → ∀ id, S id → T id

section Closure

variable {nodes : List ManagedNode} {topologies : List NodeTopology} {selected : List String} {item : ManagedNode}

theorem mem_retired :
    item.inbound ∈ (removedInbounds nodes selected).filter (fun inbound =>
      inbound ∉ remainingInbounds nodes selected) ↔
      (∃ node ∈ nodes, node.Serves item) ∧ ∀ node ∈ nodes, node.Serves item → node.id ∈ selected := by
  rw [mem_filter, decide_eq_true_eq]
  simp only [removedInbounds, remainingInbounds, mem_filter, mem_map, decide_eq_true_eq]
  constructor
  · rintro ⟨⟨node, ⟨known, _, physical, tag⟩, same⟩, none⟩
    have tag' : given item.inboundTag ≠ Option.none := by
      rw [← show node.inboundTag = item.inboundTag from congrArg Prod.snd same]
      exact Option.isSome_iff_ne_none.mp tag
    exact ⟨⟨node, known, physical, same, tag'⟩, fun other known serves =>
      by_contra fun outside => none ⟨other, ⟨known, outside, serves.1⟩, serves.2.1⟩⟩
  · rintro ⟨⟨node, known, physical, same, tag⟩, all⟩
    refine ⟨⟨node, ⟨known, all node known ⟨physical, same, tag⟩, physical, ?_⟩, same⟩, ?_⟩
    · rw [show node.inboundTag = item.inboundTag from congrArg Prod.snd same]
      exact Option.isSome_iff_ne_none.mpr tag
    · rintro ⟨other, ⟨known, outside, physical⟩, same⟩
      exact outside (all other known ⟨physical, same, tag⟩)

theorem follows_iff {known : List String} :
    follows ((removedInbounds nodes selected).filter fun inbound =>
      inbound ∉ remainingInbounds nodes selected) known
      item ↔
    (∃ parent, item.parentId = some parent ∧ parent ∈ known) ∨
      (∃ target, item.targetNodeId = some target ∧ target ∈ known) ∨
      item.nodeType = .routed ∧ (∃ node ∈ nodes, node.Serves item) ∧
        ∀ node ∈ nodes, node.Serves item → node.id ∈ selected := by
  rw [follows, Bool.or_eq_true, Bool.or_eq_true, Bool.and_eq_true, Option.any_eq_true, Option.any_eq_true,
    decide_eq_true_eq, decide_eq_true_eq, mem_retired, or_assoc]
  simp only [decide_eq_true_eq]

theorem mem_turn {S : String → Prop} (closed : Closed nodes topologies S) (start : ∀ id ∈ selected, S id) :
    ∀ id ∈ turn nodes topologies selected, S id := by
  have known : ∀ added : List String, (∀ id ∈ added, S id) → ∀ id ∈ selected ++ added, S id :=
    fun added inside id here =>
    (List.mem_append.mp here).elim (start id) (inside id)
  refine gather_induction (gather_induction nofun fun added inside item here holds => ?_)
    fun added inside topology here holds => ?_
  · rcases (follows_iff).mp holds with ⟨parent, link, old⟩ | ⟨target, link, old⟩ | ⟨routed, served, last⟩
    · exact closed.child item here parent link (known added inside parent old)
    · exact closed.source item here target link (known added inside target old)
    · exact closed.inbound item here routed served fun node other serves => start _ (last node other serves)
  · obtain ⟨component, member, old⟩ := List.any_eq_true.mp holds
    exact closed.topology topology here component member (known added inside component (of_decide_eq_true old))

theorem closed_of_turn (ended : turn nodes topologies selected ⊆ selected) :
    Closed nodes topologies fun id => id ∈ selected := by
  have more : ∀ added added' : List String, added ⊆ added' → selected ++ added ⊆ selected ++ added' :=
    fun added added' sub => List.append_subset.mpr
      ⟨subset_append_left _ _, List.Subset.trans sub (subset_append_right _ _)⟩
  have node : ∀ item ∈ nodes, follows ((removedInbounds nodes selected).filter fun inbound =>
      inbound ∉ remainingInbounds nodes selected) selected item → item.id ∈ selected := by
    intro item here holds
    refine ended (subset_gather (mem_gather (fun added added' sub item holds => ?_) here ?_))
    · simp only [follows, Bool.or_eq_true, Option.any_eq_true, decide_eq_true_eq] at holds ⊢
      rcases holds with (⟨parent, link, old⟩ | ⟨target, link, old⟩) | inbound
      · exact .inl (.inl ⟨parent, link, more _ _ sub old⟩)
      · exact .inl (.inr ⟨target, link, more _ _ sub old⟩)
      · exact .inr inbound
    · rwa [append_nil]
  refine ⟨fun item here parent link inside => ?_, fun item here target link inside => ?_,
    fun item here routed served last => ?_, fun topology here component member inside => ?_⟩
  · exact node item here ((follows_iff).mpr (.inl ⟨parent, link, inside⟩))
  · exact node item here ((follows_iff).mpr (.inr (.inl ⟨target, link, inside⟩)))
  · exact node item here ((follows_iff).mpr (.inr (.inr ⟨routed, served, last⟩)))
  · refine ended (mem_gather (fun added added' sub topology holds => ?_) here ?_)
    · obtain ⟨component, member, old⟩ := List.any_eq_true.mp holds
      exact List.any_eq_true.mpr ⟨component, member, decide_eq_true (more _ _ sub (of_decide_eq_true old))⟩
    · exact List.any_eq_true.mpr ⟨component, member, decide_eq_true (mem_append_left _ inside)⟩

theorem closure_least (nodes : List ManagedNode) (topologies : List NodeTopology) (chosen : String) :
    ∃ (selected : List ManagedNode) (S : String → Prop), closure nodes topologies chosen = some selected ∧
      Least nodes topologies chosen S ∧ ∀ item, item ∈ selected ↔ item ∈ nodes ∧ S item.id := by
  have bounded : ∀ known found : List String, (.ok (turn nodes topologies known) : Except Empty _) = .ok found →
      found ⊆ nodes.map ManagedNode.id ++ topologies.map NodeTopology.id := by
    rintro known _ ⟨⟩
    refine gather_induction (gather_induction nofun fun _ _ item here _ => ?_) fun _ _ topology here _ => ?_
    · exact mem_append_left _ (mem_map_of_mem here)
    · exact mem_append_right _ (mem_map_of_mem here)
  have ends : saturate (fun known => (.ok (turn nodes topologies known) : Except Empty _))
      (nodes.length + topologies.length + 1) [chosen] ≠ none :=
    saturate_ne_none bounded (Nat.lt_succ_of_le (le_of_le_of_eq (length_filter_le _ _) (by simp)))
  unfold closure
  obtain ⟨error | selected, done⟩ := Option.ne_none_iff_exists'.mp ends
  · cases error
  · obtain ⟨start, ⟨_, ⟨⟩, ended⟩, least⟩ := saturate_ok done
    rw [done]
    refine ⟨_, fun id => id ∈ selected, rfl, ⟨start (.head _), closed_of_turn ended, fun T first closed => ?_⟩,
      fun item => ?_⟩
    · refine least T (fun id here => List.mem_singleton.mp here ▸ first) ?_
      rintro known _ inside ⟨⟩
      exact mem_turn closed inside
    · exact List.mem_filter.trans (and_congr_right fun _ => decide_eq_true_iff)

/-- The nodes that go with one of the selected nodes are selected with it: a removal that
starts at any of them takes no more. -/
theorem closure_trans (nodes : List ManagedNode) (topologies : List NodeTopology) (chosen : String) :
    ∃ selected, closure nodes topologies chosen = some selected ∧ ∀ item ∈ selected, ∃ inner,
      closure nodes topologies item.id = some inner ∧ item ∈ inner ∧ inner ⊆ selected := by
  obtain ⟨selected, S, found, outer, members⟩ := closure_least nodes topologies chosen
  refine ⟨selected, found, fun item here => ?_⟩
  obtain ⟨inner, T, found', least, members'⟩ := closure_least nodes topologies item.id
  obtain ⟨listed, reached⟩ := (members item).mp here
  refine ⟨inner, found', (members' item).mpr ⟨listed, least.start⟩, fun other inside => ?_⟩
  obtain ⟨known, follows⟩ := (members' other).mp inside
  exact (members other).mpr ⟨known, least.least S reached outer.closed other.id follows⟩

end Closure

theorem mem_scheduled {tag : ManagedNode → Option String} {remaining : List ManagedNode} {serverId value : String}
    {wanted : List String} :
    value ∈ sorted (wanted.filter (· ∉ retained tag remaining serverId wanted)) ↔
      value ∈ wanted ∧ ∀ item ∈ remaining, item.serverId = some serverId → tag item ≠ some value := by
  rw [sorted, mem_insertionSort, mem_dedup, mem_filter, decide_eq_true_eq, retained, mem_filter]
  refine and_congr_right fun here => ?_
  simp only [here, true_and, any_eq_true, Bool.and_eq_true, decide_eq_true_eq, not_exists, not_and, ne_eq]

theorem mem_wantedIn {selected : List ManagedNode} {serverId value : String} : value ∈ wantedIn selected serverId ↔
      ∃ item ∈ selected, item.serverId = some serverId ∧ item.nodeType = .physical ∧
        given item.inboundTag = some value := by
  simp only [wantedIn, mem_filterMap, mem_filter, decide_eq_true_eq, and_assoc]

theorem mem_wantedOut {selected : List ManagedNode} {serverId value : String} :
    value ∈ wantedOut selected serverId ↔
      ∃ item ∈ selected, item.serverId = some serverId ∧ given item.routedOutboundTag = some value := by
  simp only [wantedOut, mem_filterMap, mem_filter, decide_eq_true_eq, and_assoc]

theorem mem_sortedServers {ids found : List (Option String)} (done : sortedServers ids = .ok found)
    {serverId : Option String} : serverId ∈ found ↔ serverId ∈ ids := by
  unfold sortedServers at done
  split at done
  · rename_i named
    cases done
    simp only [mem_map, sorted, mem_insertionSort, mem_dedup, mem_filterMap]
    constructor
    · rintro ⟨server, ⟨_, here, rfl⟩, rfl⟩
      exact here
    · intro here
      obtain ⟨server, rfl⟩ := Option.ne_none_iff_exists'.mp fun missing => named (missing ▸ here)
      exact ⟨server, ⟨_, here, rfl⟩, rfl⟩
  · rename_i unnamed
    rw [not_not] at unnamed
    split at done
    · rename_i all
      cases done
      rw [mem_singleton]
      refine ⟨fun same => same ▸ unnamed, fun here => of_decide_eq_true (List.all_eq_true.mp all _ here)⟩
    · cases done

/-- `S` is the least closed set with the chosen node, the closure is made of its nodes, and a
target of the view retires the inbounds of the physical nodes and the outbounds of the nodes of
`S` that no other node of the server uses. Each server of a node of `S` has its target. -/
theorem closure_scheduled (store : Store) (chosen : String) :
    ∃ (selected : List ManagedNode) (S : String → Prop) (result : Except String View),
      closure store.nodes store.topologies chosen = some selected ∧ Least store.nodes store.topologies chosen S ∧
      (∀ item, item ∈ selected ↔ item ∈ store.nodes ∧ S item.id) ∧ store.view chosen = some result ∧
      ∀ view, result = .ok view → (∀ server ∈ store.servers, (∃ item ∈ selected, item.serverId = some server.1) →
          ∃ target ∈ view.servers, target.serverId = server.1) ∧
        ∀ target ∈ view.servers, ∀ tag, (tag ∈ target.inboundTags ↔
            (∃ item ∈ store.nodes, S item.id ∧ item.serverId = some target.serverId ∧ item.nodeType = .physical ∧
              given item.inboundTag = some tag) ∧
            ∀ item ∈ store.nodes, ¬ S item.id → item.serverId = some target.serverId → item.inboundTag ≠ some tag) ∧
          (tag ∈ target.outboundTags ↔ (∃ item ∈ store.nodes, S item.id ∧ item.serverId = some target.serverId ∧
              given item.routedOutboundTag = some tag) ∧
            ∀ item ∈ store.nodes, ¬ S item.id → item.serverId = some target.serverId →
              item.routedOutboundTag ≠ some tag) := by
  obtain ⟨selected, S, done, least, members⟩ := closure_least store.nodes store.topologies chosen
  refine ⟨selected, S, store.viewOf selected, done, least, members, by rw [Store.view, done, Option.map_some], ?_⟩
  intro view shown
  -- A remaining node is one outside the closed set.
  have remains : ∀ item, item ∈ store.nodes.filter (fun item => item.id ∉ selected.map ManagedNode.id) ↔
      item ∈ store.nodes ∧ ¬ S item.id := by
    intro item
    rw [mem_filter, decide_eq_true_eq]
    refine and_congr_right fun here => not_congr ⟨fun listed => ?_, fun inside =>
      mem_map_of_mem ((members item).mpr ⟨here, inside⟩)⟩
    obtain ⟨other, known, same⟩ := List.mem_map.mp listed
    exact same ▸ ((members other).mp known).2
  unfold Store.viewOf at shown
  cases ordered : sortedServers (selected.map ManagedNode.serverId ++
      ((store.credentials.filter fun row => row.nodeId ∈ selected.map ManagedNode.id).map Credential.serverId ++
        (store.rows.filter fun row => row.nodeIds.any (· ∈ selected.map ManagedNode.id)).map AccessRow.serverId).map
          some) with
  | error error =>
    simp only [ordered] at shown
    cases shown
  | ok serverIds =>
    simp only [ordered] at shown
    cases shown
    refine ⟨fun server here ⟨item, inside, same⟩ => ?_, fun target listed tag => ?_⟩
    · obtain ⟨found, read⟩ : ∃ found, store.servers.find? (fun other => other.1 = server.1) = some found :=
        Option.isSome_iff_exists.mp (List.find?_isSome.mpr ⟨server, here, decide_eq_true rfl⟩)
      have listed : some server.1 ∈ serverIds := (mem_sortedServers ordered).mpr
        (mem_append_left _ (List.mem_map.mpr ⟨item, inside, same⟩))
      have named : found.1 = server.1 := by simpa using List.find?_some read
      exact ⟨_, mem_map_of_mem (List.mem_filterMap.mpr ⟨_, listed, read⟩), named⟩
    · obtain ⟨⟨serverId, name⟩, _, rfl⟩ := List.mem_map.mp listed
      refine ⟨mem_scheduled.trans (and_congr ?_ ?_), mem_scheduled.trans (and_congr ?_ ?_)⟩
      · simp only [mem_wantedIn, members, and_assoc, target]
      · simp only [remains, and_imp, target]
      · simp only [mem_wantedOut, members, and_assoc, target]
      · simp only [remains, and_imp, target]

/-- A routed node on an inbound without a physical node: the tag is that of a
selected node and no other node uses it, and it is not retired. -/
theorem stray_inbound :
    let stray : ManagedNode := { id := "r", serverId := some "s", nodeType := .routed, inboundTag := some "in" }
    let store : Store := { nodes := [stray], servers := [("s", "server")] }
    closure store.nodes store.topologies "r" = some [stray] ∧
      (store.view "r").bind (fun result => result.toOption.map fun view => view.servers.map fun target =>
        (target.serverId, target.inboundTags)) = some [("s", [])] := by
  decide +kernel

end OpenNode.NodeManagement
