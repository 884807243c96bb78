import OpenNode.ServerRemoval

namespace OpenNode.ServerRemoval

open Edits GraphSearch List Relation

/-- The nodes that a plan names, in its list or as a key. -/
def SubscriptionPlanModel.mentions (plan : SubscriptionPlanModel) : List String :=
  plan.nodeIds ++ (plan.nodeMultipliers ++ plan.nodeSpeedLimits ++ plan.nodeDeviceLimits ++
    plan.nodeNameOverrides).map Prod.fst

def ProductUserModel.mentions (user : ProductUserModel) : List String :=
  (user.nodeSpeedLimitOverrides ++ user.nodeDeviceLimitOverrides).map Prod.fst

def SubscriptionAccessModel.mentions (row : SubscriptionAccessModel) : List String :=
  row.bindings.flatMap (·.nodeIds)

/-- Nothing refers to a server or to the nodes it had. -/
structure Detached (db : Database) (server : String) (nodes : List String) : Prop where
  links : ∀ node ∈ db.nodes, node.serverId ≠ some server ∧
    ∀ id, node.parentId = some id ∨ node.targetNodeId = some id → id ∉ nodes
  plans : ∀ plan ∈ db.plans, ∀ id ∈ plan.mentions, id ∉ nodes
  users : ∀ user ∈ db.users, ∀ id ∈ user.mentions, id ∉ nodes
  profiles : ∀ profile ∈ db.profiles, ∀ id ∈ profile.nodeIds, id ∉ nodes
  temporaries : ∀ row ∈ db.temporaries, ∀ id ∈ row.nodeIds, id ∉ nodes
  topologies : ∀ topology ∈ db.topologies, ∀ id ∈ topology.stages.flatten, id ∉ nodes
  access : ∀ row ∈ db.access, row.serverId ≠ server ∧ ∀ id ∈ row.mentions, id ∉ nodes
  credentials : ∀ row ∈ db.credentials, row.serverId ≠ server ∧ row.nodeId ∉ nodes
  targets : ∀ target ∈ db.targets, target.serverId ≠ server
  steps : ∀ step ∈ db.steps, step.serverId ≠ server

/-- No list that a removal leaves alone names a node of the server: profiles,
temporary subscriptions, topologies and access rows of other servers, and the
keys of a plan whose list names none of these nodes. -/
structure Unlisted (db : Database) (server : String) : Prop where
  plans : ∀ plan ∈ db.plans, meets (db.nodeIdsOf server) plan.nodeIds = false →
    ∀ id ∈ plan.mentions, id ∉ db.nodeIdsOf server
  profiles : ∀ profile ∈ db.profiles, ∀ id ∈ profile.nodeIds, id ∉ db.nodeIdsOf server
  temporaries : ∀ row ∈ db.temporaries, ∀ id ∈ row.nodeIds, id ∉ db.nodeIdsOf server
  topologies : ∀ topology ∈ db.topologies, topology.id ∉ db.nodeIdsOf server →
    ∀ id ∈ topology.stages.flatten, id ∉ db.nodeIdsOf server
  access : ∀ row ∈ db.access, row.serverId ≠ server → ∀ id ∈ row.mentions, id ∉ db.nodeIdsOf server

section Accepted

variable {panel : Panel} {db removed : Database} {identifier : String} {payload : ServerRemovalRequest} {now : Nat}
  {response : ServerRemovalResponse}

theorem remove_ok (done : db.remove panel identifier payload now = .ok (removed, response)) :
    ∃ server, db.server identifier = .ok server ∧ server.id = identifier ∧ db.blockers panel server = [] ∧
      removed = (db.detach identifier now).deleteServer identifier := by
  unfold Database.remove at done
  obtain ⟨server, found, done⟩ := bind_eq_ok done
  obtain ⟨_, _, done⟩ := bind_eq_ok done
  dsimp only at done
  obtain ⟨_, _, done⟩ := bind_eq_ok done
  obtain ⟨_, clear, done⟩ := bind_eq_ok done
  have same : server.id = identifier := by
    unfold Database.server at found
    split at found
    · rename_i row listed
      obtain rfl := Except.ok.inj found
      simpa using List.find?_some listed
    · exact nomatch found
  have result := Prod.mk.inj (Except.ok.inj done)
  rw [same] at result
  exact ⟨server, found, same, require_ok clear, result.1.symm⟩

theorem blockers_dependents {server : ServerModel} (clear : db.blockers panel server = []) :
    ∀ command ∈ db.dependentsOf server.id, command.status ∈ finishedCommands := by
  have last := (List.append_eq_nil_iff.mp clear).2
  intro command waits
  by_contra unfinished
  rw [if_pos (List.any_eq_true.mpr ⟨command, waits, decide_eq_true unfinished⟩)] at last
  exact cons_ne_nil _ _ last

end Accepted

section Commands

variable {db : Database} {server : String}

/-- The command of an id waits for another one, directly. -/
def Database.waits (db : Database) (first second : String) : Prop :=
  (first, second) ∈ dependencies db.commands

theorem mem_dependencies {commands : List CommandModel} {first second : String} :
    (first, second) ∈ dependencies commands ↔
      ∃ command ∈ commands, command.dependsOnCommandId = some first ∧ command.id = second := by
  simp [dependencies, mem_filterMap]

theorem dependentsOf_complete {own command : CommandModel} (keyed : (db.commands.map (·.id)).Nodup)
    (first : own ∈ db.commandsOf server)
    (here : command ∈ db.commands) (foreign : command.serverId ≠ server)
    (path : TransGen db.waits own.id command.id) : command ∈ db.dependentsOf server := by
  have start : own.id ∈ followers (dependencies db.commands) ((db.commandsOf server).map (·.id)) :=
    subset_followers _ _ (mem_map_of_mem first)
  have reached := (followers_closed _ _).path start path.to_reflTransGen
  refine List.mem_filter.mpr ⟨here, ?_⟩
  have outside : command.id ∉ (db.commandsOf server).map (·.id) := by
    intro listed
    obtain ⟨other, mine, same⟩ := List.mem_map.mp listed
    obtain ⟨there, on⟩ := List.mem_filter.mp mine
    obtain rfl := inj_on_of_nodup_map keyed there here same
    exact foreign (by simpa using on)
  rw [decide_eq_true reached, decide_eq_true outside]
  rfl

@[simp] theorem CommandModel.release_id (commands : List String) (command : CommandModel) :
    (command.release server commands).id = command.id := by
  unfold release
  split <;> rfl

@[simp] theorem CommandModel.release_serverId (commands : List String) (command : CommandModel) :
    (command.release server commands).serverId = command.serverId := by
  unfold release
  split <;> rfl

theorem commandsOf_detach (now : Nat) :
    ((db.detach server now).commandsOf server).map (·.id) = (db.commandsOf server).map (·.id) := by
  have released : (db.detach server now).commandsOf server =
      (db.commands.map (·.release server ((db.commandsOf server).map (·.id)))).filter
        fun command => command.serverId == server := rfl
  rw [released, filter_map, List.map_map]
  rw [filter_congr (q := fun command => command.serverId == server)]
  · exact map_congr_left fun command _ => command.release_id _
  · intro command _
    simp only [Function.comp_apply, CommandModel.release_serverId]

theorem followers_detach (now : Nat) :
    ∀ id ∈ followers (dependencies (db.detach server now).commands)
    (((db.detach server now).commandsOf server).map (·.id)),
      id ∈ (db.commandsOf server).map (·.id) := by
  rw [commandsOf_detach]
  refine followers_subset (fun first second edge mine => ?_) fun _ here => here
  obtain ⟨command, here, waits, rfl⟩ := mem_dependencies.mp edge
  obtain ⟨before, listed, rfl⟩ := List.mem_map.mp here
  rw [CommandModel.release_id]
  unfold CommandModel.release at waits
  split at waits
  · exact nomatch waits
  · rename_i own
    have on : before.serverId = server := by
      by_contra foreign
      refine own ⟨foreign, ?_⟩
      rw [waits]
      exact decide_eq_true mine
    exact mem_map_of_mem (List.mem_filter.mpr ⟨listed, by simpa using on⟩)

theorem mem_commands_removed (keyed : (db.commands.map (·.id)).Nodup) (now : Nat) {command : CommandModel} :
    command ∈ ((db.detach server now).deleteServer server).commands ↔
      ∃ before ∈ db.commands, before.serverId ≠ server ∧
        command = before.release server ((db.commandsOf server).map (·.id)) := by
  constructor
  · intro here
    obtain ⟨here, stays⟩ := List.mem_filter.mp here
    obtain ⟨before, listed, rfl⟩ := List.mem_map.mp here
    refine ⟨before, listed, fun own => ?_, rfl⟩
    have gone : before.id ∈ ((db.detach server now).commandsOf server).map (·.id) := by
      rw [commandsOf_detach]
      exact mem_map_of_mem (List.mem_filter.mpr ⟨listed, by simpa using own⟩)
    rw [decide_eq_true_iff, CommandModel.release_id] at stays
    exact stays (subset_followers _ _ gone)
  · rintro ⟨before, listed, foreign, rfl⟩
    refine List.mem_filter.mpr ⟨mem_map_of_mem listed, decide_eq_true fun gone => ?_⟩
    rw [CommandModel.release_id] at gone
    obtain ⟨own, mine, same⟩ := List.mem_map.mp (followers_detach now _ gone)
    obtain ⟨there, on⟩ := List.mem_filter.mp mine
    obtain rfl := inj_on_of_nodup_map keyed there listed same
    exact foreign (by simpa using on)

end Commands

section References

variable {db : Database} {server : String}

theorem mem_without {identifiers : List String} {entries : List (String × Json)} {entry : String × Json} :
    entry ∈ without identifiers entries ↔ entry ∈ entries ∧ entry.1 ∉ identifiers := by
  simp [without]

theorem SubscriptionPlanModel.prune_mentions (identifiers : List String) (now : Nat) (plan : SubscriptionPlanModel)
    (listed : meets identifiers plan.nodeIds = true) : ∀ id ∈ (plan.prune identifiers now).mentions,
      id ∉ identifiers := by
  intro id here
  unfold prune mentions at here
  rw [if_pos listed] at here
  rcases List.mem_append.mp here with direct | keyed
  · simpa using (List.mem_filter.mp direct).2
  · obtain ⟨entry, member, rfl⟩ := List.mem_map.mp keyed
    simp only [mem_append, mem_without] at member
    tauto

theorem ProductUserModel.prune_mentions (identifiers : List String) (now : Nat) (user : ProductUserModel) :
    ∀ id ∈ (user.prune identifiers now).mentions, id ∉ identifiers := by
  intro id here
  obtain ⟨entry, member, rfl⟩ := List.mem_map.mp here
  simp only [prune, mem_append, mem_without] at member
  tauto

theorem SubscriptionPlanModel.prune_unlisted (identifiers : List String) (now : Nat) (plan : SubscriptionPlanModel)
    (unlisted : meets identifiers plan.nodeIds = false) : plan.prune identifiers now = plan := by
  unfold prune
  rw [unlisted]
  rfl

theorem detached_iff (now : Nat) :
    Detached ((db.detach server now).deleteServer server) server (db.nodeIdsOf server) ↔ Unlisted db server := by
  constructor
  · intro detached
    refine ⟨?_, detached.profiles, detached.temporaries, ?_, ?_⟩
    · intro plan here unlisted
      refine detached.plans plan ?_
      rw [← plan.prune_unlisted _ now unlisted]
      exact mem_map_of_mem here
    · intro topology here stays
      exact detached.topologies topology (List.mem_filter.mpr ⟨here, decide_eq_true stays⟩)
    · intro row here foreign
      have kept : row ∈ db.access.filter (·.serverId != server) :=
        List.mem_filter.mpr ⟨here, by simpa using foreign⟩
      exact (detached.access _ (mem_map_of_mem kept)).2
  · intro unlisted
    refine ⟨?_, ?_, ?_, unlisted.profiles, unlisted.temporaries, ?_, ?_, ?_, ?_, ?_⟩
    · intro node here
      obtain ⟨before, kept, rfl⟩ := List.mem_map.mp here
      refine ⟨by simpa using (List.mem_filter.mp kept).2, fun id link => ?_⟩
      rcases link with link | link
      all_goals
        obtain ⟨_, stays⟩ := Option.filter_eq_some_iff.mp link
        exact of_decide_eq_true stays
    · intro plan here
      obtain ⟨before, listed, rfl⟩ := List.mem_map.mp here
      cases known : meets (db.nodeIdsOf server) before.nodeIds with
      | true => exact before.prune_mentions _ now known
      | false =>
        rw [before.prune_unlisted _ now known]
        exact unlisted.plans before listed known
    · intro user here
      obtain ⟨before, _, rfl⟩ := List.mem_map.mp here
      exact before.prune_mentions _ now
    · intro topology here
      obtain ⟨here, stays⟩ := List.mem_filter.mp here
      exact unlisted.topologies topology here (of_decide_eq_true stays)
    · intro row here
      obtain ⟨before, kept, rfl⟩ := List.mem_map.mp here
      obtain ⟨listed, foreign⟩ := List.mem_filter.mp kept
      have other : before.serverId ≠ server := by simpa using foreign
      exact ⟨other, unlisted.access before listed other⟩
    · intro row here
      obtain ⟨_, stays⟩ := List.mem_filter.mp here
      rw [Bool.and_eq_true] at stays
      exact ⟨by simpa using stays.1, of_decide_eq_true stays.2⟩
    · intro target here
      simpa using (List.mem_filter.mp here).2
    · intro step here
      obtain ⟨before, kept, rfl⟩ := List.mem_map.mp here
      simpa using (List.mem_filter.mp kept).2

end References

section Removal

/-- What an accepted removal leaves. -/
structure Removed (db removed : Database) (server : String) : Prop where
  /-- Nothing refers to the server or to its nodes exactly if no list that the
  removal leaves alone names one of them. -/
  detached : Detached removed server (db.nodeIdsOf server) ↔ Unlisted db server
  /-- Whatever waited for the server on another one is finished. -/
  finished : ∀ own ∈ db.commandsOf server, ∀ command ∈ db.commands, command.serverId ≠ server →
    TransGen db.waits own.id command.id → command.status ∈ finishedCommands
  /-- The commands of other servers stay as they were, and only finished ones
  lose what they waited for. -/
  commands : ∀ command, command ∈ removed.commands ↔
    ∃ before ∈ db.commands, before.serverId ≠ server ∧
      (command = before ∧ (∀ own ∈ db.commandsOf server, before.dependsOnCommandId ≠ some own.id) ∨
        command = { before with dependsOnCommandId := none } ∧ before.status ∈ finishedCommands ∧
          ∃ own ∈ db.commandsOf server, before.dependsOnCommandId = some own.id)

/-- A refused removal changes nothing, and an accepted one detaches the server
exactly if no list that it leaves alone names one of its nodes. -/
theorem removal_detaches (panel : Panel) (db : Database) (identifier : String)
    (payload : ServerRemovalRequest) (now : Nat)
    (keyed : (db.commands.map (·.id)).Nodup) :
    match db.remove panel identifier payload now with
    | .error _ => db.transact panel identifier payload now = db
    | .ok (removed, _) => db.transact panel identifier payload now = removed ∧ Removed db removed identifier := by
  unfold Database.transact
  cases done : db.remove panel identifier payload now with
  | error refusal => rfl
  | ok result =>
    obtain ⟨removed, response⟩ := result
    obtain ⟨server, found, rfl, clear, rfl⟩ := remove_ok done
    have finished : ∀ own ∈ db.commandsOf server.id, ∀ command ∈ db.commands, command.serverId ≠ server.id →
        TransGen db.waits own.id command.id → command.status ∈ finishedCommands :=
      fun own mine command here foreign path =>
        blockers_dependents clear command (dependentsOf_complete keyed mine here foreign path)
    refine ⟨rfl, detached_iff now, finished, fun command => (mem_commands_removed keyed now).trans ?_⟩
    refine exists_congr fun before => and_congr_right fun here => and_congr_right fun foreign => ?_
    unfold CommandModel.release
    by_cases waits : ∃ own ∈ db.commandsOf server.id, before.dependsOnCommandId = some own.id
    · obtain ⟨own, mine, link⟩ := waits
      have direct : before.serverId ≠ server.id ∧
          before.dependsOnCommandId.any (· ∈ (db.commandsOf server.id).map (·.id)) = true := by
        refine ⟨foreign, ?_⟩
        rw [link]
        exact decide_eq_true (mem_map_of_mem mine)
      have edge : db.waits own.id before.id := mem_dependencies.mpr ⟨before, here, link, rfl⟩
      rw [if_pos direct]
      constructor
      · intro same
        exact .inr ⟨same, finished own mine before here foreign (.single edge), own, mine, link⟩
      · rintro (⟨_, none⟩ | ⟨same, _⟩)
        · exact absurd link (none own mine)
        · exact same
    · push Not at waits
      have free : ¬ (before.serverId ≠ server.id ∧
          before.dependsOnCommandId.any (· ∈ (db.commandsOf server.id).map (·.id)) = true) := by
        rintro ⟨_, direct⟩
        obtain ⟨id, link, listed⟩ := (Option.any_eq_true _ _).mp direct
        obtain ⟨own, mine, same⟩ := List.mem_map.mp (of_decide_eq_true listed)
        exact waits own mine (same ▸ link)
      rw [if_neg free]
      constructor
      · intro same
        exact .inl ⟨same, waits⟩
      · rintro (⟨same, _⟩ | ⟨_, _, own, mine, link⟩)
        · exact same
        · exact absurd link (waits own mine)

section Examples

/-- Digests of one fixed value each, and no managed egress. -/
def quietPanel : Panel where
  settingsRevision := fun _ => "settings"
  digest := fun _ => "preview"
  managedEgressReferences := fun _ => []

def request : ServerRemovalRequest :=
  { expectedRevision := "preview", confirmName := "A" }

/-- Two servers with a node each, a plan with both nodes, and a finished
command of the second server that waited for the first one. -/
def paired : Database :=
  { servers := [{ id := "a", name := "A" }, { id := "b", name := "B" }]
    nodes := [{ id := "a1", name := "A1", serverId := some "a" },
      { id := "b1", name := "B1", serverId := some "b", parentId := some "a1" }]
    plans := [{ id := "plan", name := "Plan", nodeIds := ["a1", "b1"] }]
    credentials := [{ id := "c", username := "amy", nodeId := "a1", serverId := "a" }]
    commands := [{ id := "first", serverId := "a", status := .leased },
      { id := "second", serverId := "b", status := .succeeded, dependsOnCommandId := some "first" }] }

theorem removal_detaches_paired :
    (paired.remove quietPanel "a" request 1).toOption.isSome = true ∧
    match paired.remove quietPanel "a" request 1 with
    | .error _ => paired.transact quietPanel "a" request 1 = paired
    | .ok (removed, _) => paired.transact quietPanel "a" request 1 = removed ∧ Removed paired removed "a" :=
  ⟨by decide +kernel, removal_detaches quietPanel paired "a" request 1 (by decide)⟩

/-- A topology that runs through a node of the first server and ends at a node
of the second one, where its own node is kept. -/
def chained : Database :=
  { paired with
    nodes := paired.nodes ++ [{ id := "t", name := "Chain", serverId := some "b" }]
    topologies := [{ id := "t", stages := [["a1"], ["b1"]] }] }

/-- The removal of the first server leaves its node in the topology. -/
theorem removal_leaves_stage :
    ∃ removed response, chained.remove quietPanel "a" request 1 = .ok (removed, response) ∧
      ¬ Detached removed "a" (chained.nodeIdsOf "a") := by
  have accepted : (chained.remove quietPanel "a" request 1).toOption.isSome = true := by decide +kernel
  cases done : chained.remove quietPanel "a" request 1 with
  | error refusal =>
    rw [done] at accepted
    exact nomatch accepted
  | ok result =>
    obtain ⟨removed, response⟩ := result
    refine ⟨removed, response, rfl, fun detached => ?_⟩
    obtain ⟨_, _, _, _, same⟩ := remove_ok done
    rw [same] at detached
    have unlisted := (detached_iff 1).mp detached
    exact unlisted.topologies { id := "t", stages := [["a1"], ["b1"]] } (by simp [chained]) (by
      decide) "a1" (by decide)
      (by decide)

end Examples

end Removal

end OpenNode.ServerRemoval
