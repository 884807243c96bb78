import OpenNode.EgressChanges

namespace OpenNode.ServerEgress

open GraphSearch List

section Writes

variable {plane : ControlPlane} {configs : ServerId → XrayConfig} {command : Command} {now base : Snapshots}

/-- The configurations in force, as the snapshots that a refresh would save. -/
def present (configs : ServerId → XrayConfig) : Snapshots :=
  fun server => some (configs server)

theorem present_update (configs : ServerId → XrayConfig) (server : ServerId) (config : XrayConfig) :
    present (Function.update configs server config) = Function.update (present configs) server (some config) := by
  funext other
  by_cases same : other = server
  · subst same
    simp [present]
  · simp [present, same]

/-- The servers other than one have no route now that they did not have then. -/
def Within (plane : ControlPlane) (source : ServerId) (now earlier : Snapshots) : Prop :=
  ∀ u v, u.1 ≠ source → Route plane now u v → Route plane earlier u v

theorem Command.execute_cases (command : Command) (accepted : Bool) (configs : ServerId → XrayConfig) :
    command.execute accepted configs = configs ∨
      (accepted = true ∧ command.writes (configs command.server) = true ∧
        configs command.server = command.expected ∧
        command.execute accepted configs = Function.update configs command.server command.candidate) := by
  rw [Command.execute]
  split
  · rename_i wrote
    obtain ⟨accepted, writes⟩ := Bool.and_eq_true_iff.mp wrote
    have found := (Bool.and_eq_true_iff.mp writes).2
    exact .inr ⟨accepted, writes, by simpa using found, rfl⟩
  · exact .inl rfl

variable {server : ServerId} {config : XrayConfig}

theorem Route.update_cases {u v : Vertex} (route : Route plane (Function.update now server (some config)) u v) :
    (u.1 = server ∧ u.1 ∈ plane.servers ∧ ∃ node ∈ plane.nodes, RouteTo server config node u v) ∨
      (u.1 ≠ server ∧ Route plane now u v) := by
  obtain ⟨known, held, read, node, here, route⟩ := route
  by_cases own : u.1 = server
  · rw [own, Function.update_self] at read
    cases read
    rw [own] at route
    exact .inl ⟨own, known, node, here, route⟩
  · rw [Function.update_of_ne own] at read
    exact .inr ⟨own, known, held, read, node, here, route⟩

theorem RouteTo.route {server : ServerId} {config : XrayConfig} {node : ManagedNode} {u v : Vertex}
    (route : RouteTo server config node u v) (here : node ∈ plane.nodes) (known : server ∈ plane.servers)
    (held : now server = some config) : Route plane now u v := by
  obtain rfl := route.source
  exact ⟨known, config, held, node, here, route⟩

theorem acyclic_of_within {earlier : Snapshots} {config' : XrayConfig} (acyclic : Acyclic (Route plane earlier))
    (within : Within plane server now earlier) (held : earlier server = some config)
    (kept : ∀ node ∈ plane.nodes, ∀ u v, RouteTo server config' node u v → RouteTo server config node u v) :
    Acyclic (Route plane (Function.update now server (some config'))) := by
  refine acyclic.mono fun u v route => ?_
  obtain ⟨own, known, node, here, route⟩ | ⟨other, route⟩ := route.update_cases
  · exact (kept node here u v route).route here (own ▸ known) held
  · exact within u v other route

theorem Checked.acyclic (checked : Checked plane base command) (acyclic : Acyclic (Route plane now))
    (held : now command.server = some command.expected) (within : Within plane command.server now base) :
    Acyclic (Route plane (Function.update now command.server (some command.candidate))) := by
  let New (u v : Vertex) : Prop := u.1 = command.server ∧
    ¬ Relation.ReflTransGen (Route plane (Function.update base command.server (some command.candidate))) v u
  have grown : ∀ u v, Route plane (Function.update now command.server (some command.candidate)) u v →
      Route plane now u v ∨ New u v := by
    intro u v route
    obtain ⟨own, known, node, here, route⟩ | ⟨other, route⟩ := route.update_cases
    · rcases checked node here u v route with old | new
      · exact .inl (old.route here (own ▸ known) held)
      · exact .inr ⟨own, new⟩
    · exact .inl route
  have seen : ∀ u v, Route plane (Function.update now command.server (some command.candidate)) u v →
      Route plane (Function.update base command.server (some command.candidate)) u v := by
    intro u v route
    obtain ⟨own, known, node, here, route⟩ | ⟨other, route⟩ := route.update_cases
    · exact route.route here (own ▸ known) (Function.update_self ..)
    · obtain ⟨known, config, read, node, here, route⟩ := within u v other route
      exact ⟨known, config, by rw [Function.update_of_ne other]; exact read, node, here, route⟩
  exact acyclic.extend grown fun u v new path => new.2 (Relation.ReflTransGen.mono seen _ _ path)

end Writes

section Runs

variable {plane : ControlPlane} {s : System} {change : Change}

/-- A configuration without managed egress. -/
structure Unmanaged (plane : ControlPlane) (server : ServerId) (config : XrayConfig) : Prop where
  outbounds : ∀ node ∈ plane.nodes, some (outboundTag server node.id) ∉ outboundTags config
  rules : ∀ node ∈ plane.nodes, ∀ routing, config.routing = .value routing → ∀ rule ∈ routing.rules.getD [],
    ruleMark rule ≠ some (marktag server node.id)

/-- The condition on a write of the source of a change: an apply finds the other
servers with no route but those its check read, a removal promotes no other
egress, and a rollback undoes its own write while the other servers have no
route but those of that moment. -/
def Orderly (plane : ControlPlane) (s : System) : Action → Prop
  | .forward index .source accepted => ∀ change command, s.command index .source = some (change, command) →
      accepted = true → command.writes (s.configs command.server) = true →
      if change.removal then ¬ Promotes plane command.server change.node command.expected
      else Within plane command.server (present s.configs) change.base
  | .rollback index .source accepted => ∀ change command, s.command index .source = some (change, command) →
      accepted = true → command.inverse.writes (s.configs command.server) = true →
      ∃ before, change.before = some before ∧ Within plane command.server (present s.configs) (present before)
  | _ => True

def OrderlyRun (plane : ControlPlane) (s : System) : List Action → Prop
  | [] => True
  | action :: actions => Orderly plane s action ∧ OrderlyRun plane (s.step plane action) actions

/-- What a change has been checked for, with the configurations that its write found. -/
structure Change.Sound (plane : ControlPlane) (change : Change) : Prop where
  base : ∀ server config, change.base server = some config → Audited plane server config
  prepared : ∃ node, PreparedFrom plane change.base change.prepared.sourceStep.server node change.prepared
  applied : change.removal = false → Checked plane change.base change.prepared.sourceStep
  removed : change.removal = true →
    ¬ Promotes plane change.prepared.sourceStep.server change.node change.prepared.sourceStep.expected →
    ∀ other ∈ plane.nodes, ∀ u v,
      RouteTo change.prepared.sourceStep.server change.prepared.sourceStep.candidate other u v →
      RouteTo change.prepared.sourceStep.server change.prepared.sourceStep.expected other u v
  before : ∀ before, change.before = some before →
    Acyclic (Route plane (present before)) ∧ before change.prepared.sourceStep.server =
      change.prepared.sourceStep.expected

/-- The invariant of the runs. -/
structure System.Sound (plane : ControlPlane) (s : System) : Prop where
  configs : ∀ server, Audited plane server (s.configs server)
  snapshots : ∀ server config, s.snapshots server = some config → Audited plane server config
  acyclic : Acyclic (Route plane (present s.configs))
  changes : ∀ change ∈ s.changes, change.Sound plane

variable {server : ServerId} {config : XrayConfig}

theorem Unmanaged.audited (unmanaged : Unmanaged plane server config) : Audited plane server config where
  marks node here routing held rule inside mark := absurd mark (unmanaged.rules node here routing held rule inside)
  single node here := by
    have absent := unmanaged.outbounds node here
    rw [mem_outboundTags, not_not] at absent
    rw [absent]
    exact Nat.zero_le 1
  spared node here present := absurd present (unmanaged.outbounds node here)

theorem Unmanaged.acyclic {configs : ServerId → XrayConfig}
    (unmanaged : ∀ server, Unmanaged plane server (configs server)) :
    Acyclic (Route plane (present configs)) := by
  intro u cycle
  obtain ⟨v, ⟨_, config, held, node, here, route⟩, _⟩ := Relation.TransGen.head'_iff.mp cycle
  cases held
  exact (unmanaged u.1).outbounds node here route.present

variable {command : Command}

theorem System.command_eq_some {index : Nat} {part : Part} (found : s.command index part = some (change, command)) :
    s.changes[index]? = some change ∧ change.prepared.command part = some command := by
  obtain ⟨change', at_index, found⟩ := Option.bind_eq_some_iff.mp found
  obtain ⟨command', part_of, found⟩ := Option.bind_eq_some_iff.mp found
  cases found
  exact ⟨at_index, part_of⟩

theorem System.Sound.audited_update (sound : s.Sound plane) (audited : Audited plane server config)
    (other : ServerId) :
    Audited plane other (Function.update s.configs server config other) := by
  by_cases same : other = server
  · subst same
    rwa [Function.update_self]
  · rw [Function.update_of_ne same]
    exact sound.configs other

variable {accepted : Bool}

theorem System.Sound.same_write (sound : s.Sound plane) (same : SameRouting command.expected command.candidate) :
    (∀ server, Audited plane server (command.execute accepted s.configs server)) ∧
      Acyclic (Route plane (present (command.execute accepted s.configs))) := by
  rcases command.execute_cases accepted s.configs with idle | ⟨_, _, found, wrote⟩
  · rw [idle]
    exact ⟨sound.configs, sound.acyclic⟩
  · rw [wrote, present_update]
    refine ⟨sound.audited_update (same.audited (found ▸ sound.configs _)), ?_⟩
    refine acyclic_of_within sound.acyclic (fun u v _ route => route) rfl fun node here u v route => ?_
    exact found ▸ same.route route

theorem Change.Sound.forward_source (changed : change.Sound plane) (sound : s.Sound plane)
    (orderly : accepted = true →
      change.prepared.sourceStep.writes (s.configs change.prepared.sourceStep.server) = true →
        if change.removal then
          ¬ Promotes plane change.prepared.sourceStep.server change.node change.prepared.sourceStep.expected
        else Within plane change.prepared.sourceStep.server (present s.configs) change.base) :
    (∀ server, Audited plane server (change.prepared.sourceStep.execute accepted s.configs server)) ∧
      Acyclic (Route plane (present (change.prepared.sourceStep.execute accepted s.configs))) := by
  rcases change.prepared.sourceStep.execute_cases accepted s.configs with idle | ⟨accepted, writes, found, wrote⟩
  · rw [idle]
    exact ⟨sound.configs, sound.acyclic⟩
  · obtain ⟨node, prepared⟩ := changed.prepared
    have orderly := orderly accepted writes
    rw [wrote, present_update]
    refine ⟨sound.audited_update prepared.candidate, ?_⟩
    have held : present s.configs change.prepared.sourceStep.server = some change.prepared.sourceStep.expected :=
      congrArg some found
    cases kind : change.removal with
    | false =>
      rw [kind, if_neg Bool.false_ne_true] at orderly
      exact (changed.applied kind).acyclic sound.acyclic held orderly
    | true =>
      rw [kind, if_pos rfl] at orderly
      exact acyclic_of_within sound.acyclic (fun u v _ route => route) held (changed.removed kind orderly)

theorem Change.Sound.rollback_source (changed : change.Sound plane) (sound : s.Sound plane)
    (orderly : accepted = true →
      change.prepared.sourceStep.inverse.writes (s.configs change.prepared.sourceStep.server) = true →
        ∃ before, change.before = some before ∧ Within plane change.prepared.sourceStep.server (present s.configs)
          (present before)) :
    (∀ server, Audited plane server (change.prepared.sourceStep.inverse.execute accepted s.configs server)) ∧
      Acyclic (Route plane (present (change.prepared.sourceStep.inverse.execute accepted s.configs))) := by
  rcases change.prepared.sourceStep.inverse.execute_cases accepted s.configs with idle | ⟨accepted,
    writes, _, wrote⟩
  · rw [idle]
    exact ⟨sound.configs, sound.acyclic⟩
  · obtain ⟨node, prepared⟩ := changed.prepared
    obtain ⟨before, remembered, within⟩ := orderly accepted writes
    obtain ⟨acyclic, held⟩ := changed.before before remembered
    rw [wrote, present_update]
    refine ⟨sound.audited_update (changed.base _ _ prepared.expected), ?_⟩
    exact acyclic_of_within acyclic within (congrArg some held) fun node _ u v route => route

theorem Change.Sound.executed (changed : change.Sound plane) (sound : s.Sound plane) (part : Part)
    (accepted : Bool) :
    (change.executed part accepted s.configs).Sound plane := by
  cases part with
  | target => exact changed
  | source =>
    rw [Change.executed]
    split
    · rename_i wrote
      obtain ⟨_, writes⟩ := Bool.and_eq_true_iff.mp wrote
      have found := (Bool.and_eq_true_iff.mp writes).2
      exact { changed with
        before := fun before remembered => by
          cases remembered
          exact ⟨sound.acyclic, by simpa using found⟩ }
    · exact changed

theorem System.Sound.step (apart : plane.Apart) (sound : s.Sound plane) (action : Action)
    (orderly : Orderly plane s action) : (s.step plane action).Sound plane := by
  cases action with
  | refresh server =>
    refine { sound with snapshots := fun other config held => ?_ }
    by_cases same : other = server
    · subst same
      simp only [System.step, Function.update_self] at held
      exact Option.some.inj held ▸ sound.configs other
    · simp only [System.step, Function.update_of_ne same] at held
      exact sound.snapshots other config held
  | apply server payload =>
    simp only [System.step]
    cases result : prepare plane s.snapshots server payload with
    | error _ => exact sound
    | ok prepared =>
      obtain ⟨⟨node, made⟩, checked⟩ := prepare_from apart sound.snapshots result
      refine { sound with changes := fun change here => ?_ }
      rcases List.mem_append.mp here with old | new
      · exact sound.changes change old
      · obtain rfl := List.mem_singleton.mp new
        exact {
          base := sound.snapshots
          prepared := ⟨node, made.server ▸ made⟩
          applied := fun _ => checked
          removed := fun kind => absurd kind Bool.false_ne_true
          before := fun before remembered => nomatch remembered }
  | remove server target =>
    simp only [System.step]
    cases result : prepareRemove plane s.snapshots server target with
    | error _ => exact sound
    | ok prepared =>
      obtain ⟨⟨node, made⟩, kept⟩ := prepareRemove_from apart sound.snapshots result
      refine { sound with changes := fun change here => ?_ }
      rcases List.mem_append.mp here with old | new
      · exact sound.changes change old
      · obtain rfl := List.mem_singleton.mp new
        exact {
          base := sound.snapshots
          prepared := ⟨node, made.server ▸ made⟩
          applied := fun kind => absurd kind.symm Bool.false_ne_true
          removed := fun _ => made.server ▸ kept
          before := fun before remembered => nomatch remembered }
  | forward index part accepted =>
    simp only [System.step]
    cases found : s.command index part with
    | none => exact sound
    | some entry =>
      obtain ⟨change, command⟩ := entry
      obtain ⟨at_index, part_of⟩ := System.command_eq_some found
      have changed := sound.changes change (mem_of_getElem? at_index)
      have ⟨configs, acyclic⟩ : (∀ server, Audited plane server (command.execute accepted s.configs server)) ∧
          Acyclic (Route plane (present (command.execute accepted s.configs))) := by
        cases part with
        | source =>
          cases part_of
          exact changed.forward_source sound (orderly change _ found)
        | target =>
          obtain ⟨node, prepared⟩ := changed.prepared
          exact sound.same_write (prepared.target command part_of)
      refine { sound with
        configs := configs
        acyclic := acyclic
        changes := fun other here => ?_ }
      rcases mem_or_eq_of_mem_set here with old | rfl
      · exact sound.changes other old
      · exact changed.executed sound part accepted
  | rollback index part accepted =>
    simp only [System.step]
    cases found : s.command index part with
    | none => exact sound
    | some entry =>
      obtain ⟨change, command⟩ := entry
      obtain ⟨at_index, part_of⟩ := System.command_eq_some found
      have changed := sound.changes change (mem_of_getElem? at_index)
      have ⟨configs, acyclic⟩ : (∀ server,
          Audited plane server (command.inverse.execute accepted s.configs server)) ∧
          Acyclic (Route plane (present (command.inverse.execute accepted s.configs))) := by
        cases part with
        | source =>
          cases part_of
          exact changed.rollback_source sound (orderly change _ found)
        | target =>
          obtain ⟨node, prepared⟩ := changed.prepared
          exact sound.same_write (prepared.target command part_of).symm
      exact { sound with configs := configs, acyclic := acyclic }

/-- In every orderly run from configurations without managed egress, managed
egress forms no routing loop. -/
theorem System.loop_free (apart : plane.Apart) (unmanaged : ∀ server, Unmanaged plane server (s.configs server))
    (saved : ∀ server config, s.snapshots server = some config → Unmanaged plane server config)
    (fresh : s.changes = [])
    (actions : List Action) (orderly : OrderlyRun plane s actions) :
    Acyclic (Route plane (present (s.run plane actions).configs)) := by
  have start : s.Sound plane := {
    configs := fun server => (unmanaged server).audited
    snapshots := fun server config held => (saved server config held).audited
    acyclic := Unmanaged.acyclic unmanaged
    changes := by simp [fresh] }
  clear unmanaged saved fresh
  suffices (s.run plane actions).Sound plane from this.acyclic
  induction actions generalizing s with
  | nil => exact start
  | cons action actions ih => exact ih orderly.2 (start.step apart action orderly.1)

end Runs

section Loop

def entryServer : ServerId := "a0000000-0000-4000-8000-000000000001"

def exitServer : ServerId := "b0000000-0000-4000-8000-000000000002"

def firstExit : ManagedNode where
  id := "10000000-0000-4000-8000-000000000001"
  serverId := exitServer
  inboundTag := some "b1"
  protocol := "vless"

def secondExit : ManagedNode where
  id := "20000000-0000-4000-8000-000000000002"
  serverId := exitServer
  inboundTag := some "b2"
  protocol := "vless"

def entryNode : ManagedNode where
  id := "30000000-0000-4000-8000-000000000003"
  serverId := entryServer
  inboundTag := some "a1"
  protocol := "vless"

def loopPlane : ControlPlane where
  servers := [entryServer, exitServer]
  nodes := [firstExit, secondExit, entryNode]
  federated _ := false
  material source node _ :=
    .ok (⟨some (clientEmail source node.id), "b831381d-6324-4d53-ad4f-8cda48b30811"⟩, "vless")
  realityDomains _ := []
  sniffing _ _ _ _ := .ok ""

def plainConfig (tags : List String) : XrayConfig where
  inbounds := some (tags.map fun tag => ⟨some tag, "vless", some []⟩)
  outbounds := some [⟨some "direct", "freedom"⟩]

def plainConfigs (server : ServerId) : XrayConfig :=
  plainConfig (if server = entryServer then ["a1"] else ["b1", "b2"])

def loopStart : System where
  configs := plainConfigs
  snapshots := present plainConfigs

/-- A change set runs to its end and both snapshots are refreshed. -/
def dispatched (index : Nat) : List Action :=
  [.forward index .target true, .forward index .source true, .refresh entryServer, .refresh exitServer]

def promoteFirst : List Action :=
  .apply entryServer { targetNodeId := firstExit.id, promoteToDefault := true } :: dispatched 0

def promoteSecond : List Action :=
  .apply entryServer { targetNodeId := secondExit.id, promoteToDefault := true } :: dispatched 1

def returnTraffic : List Action :=
  .apply exitServer { targetNodeId := entryNode.id, routing := .set { inboundTags := ["b1"] } } :: dispatched 2

def removeSecond : List Action :=
  .remove entryServer secondExit.id :: [.forward 3 .source true, .forward 3 .target true]

theorem plainConfigs_unmanaged (server : ServerId) : Unmanaged loopPlane server (plainConfigs server) where
  outbounds node here present := by
    have tag : "managed-egress:" ++ short server ++ ":" ++ short node.id = "direct" :=
      Option.some.inj (List.mem_singleton.mp present)
    have length := congrArg String.length tag
    simp only [String.length_append] at length
    have long : "managed-egress:".length = 15 := by decide
    have short : "direct".length = 6 := by decide
    omega
  rules node here routing held := by simp [plainConfigs, plainConfig] at held

theorem loopPlane_apart : loopPlane.Apart := by
  unfold ControlPlane.Apart
  decide +kernel

/-- The system once the client of the first egress has been provided. -/
def clientProvided : System :=
  loopStart.run loopPlane [.apply entryServer { targetNodeId := firstExit.id, promoteToDefault := true },
    .forward 0 .target true]

theorem clientProvided_apply : (clientProvided.changes.all fun change =>
    !change.removal && change.prepared.sourceStep.server == entryServer) = true ∧
      outboundTags (clientProvided.configs exitServer) = [some "direct"] := by
  decide +kernel

theorem promoteFirst_orderly : OrderlyRun loopPlane loopStart promoteFirst := by
  refine ⟨trivial, trivial, ?_, trivial, trivial, trivial⟩
  change Orderly loopPlane clientProvided (.forward 0 .source true)
  intro change command found _ _
  obtain ⟨at_index, part⟩ := System.command_eq_some found
  cases part
  have shape := List.all_eq_true.mp clientProvided_apply.1 _ (mem_of_getElem? at_index)
  simp only [Bool.and_eq_true, Bool.not_eq_true', beq_iff_eq] at shape
  rw [shape.1, if_neg Bool.false_ne_true, shape.2]
  rintro u v other ⟨known, config, held, node, here, route⟩
  -- The other server still has nothing but its own outbound.
  have elsewhere : u.1 = exitServer := by
    rcases List.mem_cons.mp known with entry | rest
    · exact absurd entry other
    · exact List.mem_singleton.mp rest
  cases held
  have present := route.present
  rw [elsewhere, clientProvided_apply.2] at present
  refine absurd (List.mem_singleton.mp present) fun same =>
    (plainConfigs_unmanaged exitServer).outbounds node here ?_
  rw [same]
  exact mem_singleton_self _

theorem promoteFirst_loop_free :
    Acyclic (Route loopPlane (present (loopStart.run loopPlane promoteFirst).configs)) :=
  System.loop_free loopPlane_apart plainConfigs_unmanaged
    (fun server _ held => by obtain rfl := Option.some.inj held; exact plainConfigs_unmanaged server) rfl
      promoteFirst promoteFirst_orderly

/-- The configurations once the default egress has been removed. -/
def loopEnd : ServerId → XrayConfig :=
  (loopStart.run loopPlane (promoteFirst ++ promoteSecond ++ returnTraffic ++ removeSecond)).configs

theorem loopEnd_entry : some (outboundTag entryServer firstExit.id) ∈ outboundTags (loopEnd entryServer) ∧
    relatedSourceInbounds (loopEnd entryServer) (outboundTag entryServer firstExit.id) = .ok ["a1"] := by
  decide +kernel

theorem loopEnd_exit : some (outboundTag exitServer entryNode.id) ∈ outboundTags (loopEnd exitServer) ∧
    relatedSourceInbounds (loopEnd exitServer) (outboundTag exitServer entryNode.id) = .ok ["b1"] := by
  decide +kernel

/-- Removing the default egress makes the first one the default again, which
nothing checks, although the exit server now sends its traffic back. -/
theorem removeSecond_loops : loopPlane.Apart ∧ (∀ server, Unmanaged loopPlane server (loopStart.configs server)) ∧
    loopStart.snapshots = present loopStart.configs ∧ loopStart.changes = [] ∧
    ¬ Acyclic (Route loopPlane
      (present (loopStart.run loopPlane (promoteFirst ++ promoteSecond ++ returnTraffic ++
        removeSecond)).configs)) := by
  refine ⟨loopPlane_apart, plainConfigs_unmanaged, rfl, rfl, ?_⟩
  intro acyclic
  have out : RouteTo entryServer (loopEnd entryServer) firstExit (entryServer, "a1") (exitServer, "b1") :=
    ⟨rfl, loopEnd_entry.1, ⟨["a1"], loopEnd_entry.2, mem_singleton_self _⟩, rfl, rfl, rfl⟩
  have back : RouteTo exitServer (loopEnd exitServer) entryNode (exitServer, "b1") (entryServer, "a1") :=
    ⟨rfl, loopEnd_exit.1, ⟨["b1"], loopEnd_exit.2, mem_singleton_self _⟩, rfl, rfl, rfl⟩
  have there : Route loopPlane (present loopEnd) (entryServer, "a1") (exitServer, "b1") :=
    out.route mem_cons_self mem_cons_self rfl
  have again : Route loopPlane (present loopEnd) (exitServer, "b1") (entryServer, "a1") :=
    back.route (mem_of_mem_tail (mem_of_mem_tail mem_cons_self)) (mem_of_mem_tail mem_cons_self) rfl
  exact acyclic _ (.head there (.single again))

end Loop

end OpenNode.ServerEgress
