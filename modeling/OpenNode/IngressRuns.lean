import OpenNode.SharedIngress

namespace OpenNode.SharedIngress

open List Obligations

section Statement

/-- Once every request has reported success, the declaration and the Agent follow
the nodes, and the website is the operator's. -/
def Server.Settled (s : Server) : Prop :=
  (∀ phase ∈ s.requests, phase = .done) →
    routes? s.nodes = some (routesOf s.configuration) ∧ websiteOf s.configuration = s.website ∧
      s.agent.configuration = s.configuration ∧ snapshot s.nodes = some s.agent.listeners

/-- The request will save the routes of the nodes, or will be refused. A revision
that is not the current one is refused. -/
def Phase.Mends (revision : Nat) (routes : Option (List Route)) : Phase → Prop
  | .changed reconciles => reconciles = true
  | .built _ => True
  | .known _ current since => since = revision ∨ reconcile routes current ≠ .same
  | .planned _ next since => since ≠ revision ∨ routes = some (routesOf next)
  | .ready _ _ => False
  | .done => False
  | .failed => True

/-- The request will queue these listeners. -/
def Phase.BringsListeners (listeners : Option (List Listener)) : Phase → Prop
  | .changed _ => True
  | .built read | .known read _ _ | .planned read _ _ => listeners = some read
  | .ready carried _ => ∃ read ∈ carried, listeners = some read
  | .done => False
  | .failed => True

/-- The request will queue this declaration, or one that it saves. -/
def Phase.BringsIngress (configuration : Option Configuration) : Phase → Prop
  | .planned .. => True
  | .ready _ ingress => ∃ command ∈ ingress, command.2 = configuration
  | .failed => True
  | .changed _ | .built _ | .known .. | .done => False

/-- The next transaction of a request saves or queues what the request has read
only if that is still so, or while another request in progress will bring what is
so now. -/
def Server.Permits (s : Server) (request : Nat) : Phase → Prop
  | .planned _ next since => since = s.revision → next.all s.bound = true →
    routes? s.nodes = some (routesOf next) ∨
      OwedByOther (Phase.Mends (s.revision + 1) (routes? s.nodes)) s.requests request
  | .ready listeners ingress =>
    (∀ read ∈ listeners, snapshot s.nodes = some read ∨
      OwedByOther (Phase.BringsListeners (snapshot s.nodes)) s.requests request) ∧
    ∀ command ∈ ingress, command.2 = s.configuration ∨
      OwedByOther (Phase.BringsIngress s.configuration) s.requests request
  | .changed _ | .built _ | .known .. | .done | .failed => True

def Server.Meets (s : Server) : Event → Prop
  | .proceed request => ∀ phase ∈ s.requests[request]?, s.Permits request phase
  | _ => True

/-- Every transaction of a run meets the condition. -/
def Server.MeetsAll (s : Server) : List Event → Prop
  | [] => True
  | event :: events => s.Meets event ∧ (s.step event).MeetsAll events

instance (revision : Nat) (routes : Option (List Route)) : DecidablePred (Phase.Mends revision routes)
  | .changed reconciles => inferInstanceAs (Decidable (reconciles = true))
  | .built _ | .failed => .isTrue trivial
  | .known _ current since => inferInstanceAs (Decidable (since = revision ∨ reconcile routes current ≠ .same))
  | .planned _ next since => inferInstanceAs (Decidable (since ≠ revision ∨ routes = some (routesOf next)))
  | .ready .. | .done => .isFalse id

instance (listeners : Option (List Listener)) : DecidablePred (Phase.BringsListeners listeners)
  | .changed _ | .failed => .isTrue trivial
  | .built read | .known read _ _ | .planned read _ _ => inferInstanceAs (Decidable (listeners = some read))
  | .ready carried _ => inferInstanceAs (Decidable (∃ read ∈ carried, listeners = some read))
  | .done => .isFalse id

instance (configuration : Option Configuration) : DecidablePred (Phase.BringsIngress configuration)
  | .planned .. | .failed => .isTrue trivial
  | .ready _ ingress => inferInstanceAs (Decidable (∃ command ∈ ingress, command.2 = configuration))
  | .changed _ | .built _ | .known .. | .done => .isFalse id

instance (s : Server) (request : Nat) : DecidablePred (s.Permits request)
  | .planned _ next since => inferInstanceAs (Decidable (since = s.revision → next.all s.bound = true →
    routes? s.nodes = some (routesOf next) ∨
      OwedByOther (Phase.Mends (s.revision + 1) (routes? s.nodes)) s.requests request))
  | .ready listeners ingress => inferInstanceAs (Decidable ((∀ read ∈ listeners, snapshot s.nodes = some read ∨
      OwedByOther (Phase.BringsListeners (snapshot s.nodes)) s.requests request) ∧
    ∀ command ∈ ingress, command.2 = s.configuration ∨
      OwedByOther (Phase.BringsIngress s.configuration) s.requests request))
  | .changed _ | .built _ | .known .. | .done | .failed => .isTrue trivial

instance (s : Server) : DecidablePred s.Meets
  | .proceed request => inferInstanceAs (Decidable (∀ phase ∈ s.requests[request]?, s.Permits request phase))
  | .create .. | .update .. | .remove .. | .retry | .finish _ | .saveWebsite .. | .abort _ => .isTrue trivial

instance Server.decidableMeetsAll (s : Server) : DecidablePred s.MeetsAll
  | [] => .isTrue trivial
  | event :: events =>
    have := Server.decidableMeetsAll (s.step event) events
    inferInstanceAs (Decidable (s.Meets event ∧ (s.step event).MeetsAll events))

end Statement

section Invariant

/-- What every state of such a run has: a request that read the declaration at the
current revision knows it, and what does not hold yet is owed by some request. -/
structure Server.Sound (s : Server) : Prop where
  nodes : (s.nodes.map (·.id)).Nodup
  known : ∀ listeners current since, .known listeners current since ∈ s.requests →
    since ≤ s.revision ∧ (since = s.revision → current = s.configuration)
  planned : ∀ listeners next since, .planned listeners next since ∈ s.requests →
    since ≤ s.revision ∧ (since = s.revision → websiteOf next = s.website)
  website : websiteOf s.configuration = s.website
  routes : routes? s.nodes = some (routesOf s.configuration) ∨
    Owed (Phase.Mends s.revision (routes? s.nodes)) s.requests
  ingress : s.agent.configuration = s.configuration ∨ Owed (Phase.BringsIngress s.configuration) s.requests
  listeners : snapshot s.nodes = some s.agent.listeners ∨ Owed (Phase.BringsListeners (snapshot s.nodes)) s.requests

variable {s : Server} {phase next : Phase} {request : Nat}

theorem Server.Sound.settled (sound : s.Sound) : s.Settled := by
  intro finished
  have quiet {owes : Phase → Prop} (never : ¬ owes .done) (owed : Owed owes s.requests) : False := by
    obtain ⟨phase, listed, due⟩ := owed
    exact never (finished phase listed ▸ due)
  exact ⟨sound.routes.resolve_right (quiet id), sound.website, sound.ingress.resolve_right (quiet id),
    sound.listeners.resolve_right (quiet id)⟩

theorem Server.Sound.set (sound : s.Sound) (here : s.requests[request]? = some phase)
    (known : ∀ listeners current since, next = .known listeners current since →
      since ≤ s.revision ∧ (since = s.revision → current = s.configuration))
    (planned : ∀ listeners future since, next = .planned listeners future since →
      since ≤ s.revision ∧ (since = s.revision → websiteOf future = s.website))
    (mends : phase.Mends s.revision (routes? s.nodes) →
      routes? s.nodes = some (routesOf s.configuration) ∨ next.Mends s.revision (routes? s.nodes))
    (ingress : phase.BringsIngress s.configuration → next.BringsIngress s.configuration)
    (listeners : phase.BringsListeners (snapshot s.nodes) → next.BringsListeners (snapshot s.nodes)) :
    Server.Sound { s with requests := s.requests.set request next } where
  nodes := sound.nodes
  known read current since listed := by
    rcases mem_or_eq_of_mem_set listed with old | rfl
    · exact sound.known read current since old
    · exact known read current since rfl
  planned read future since listed := by
    rcases mem_or_eq_of_mem_set listed with old | rfl
    · exact sound.planned read future since old
    · exact planned read future since rfl
  website := sound.website
  routes := by
    refine sound.routes.elim .inl fun owed => ?_
    rcases owed.cases here with mine | others
    · exact (mends mine).imp_right (Owed.set_self here)
    · exact .inr (others.set next)
  ingress := by
    refine sound.ingress.imp_right fun owed => ?_
    rcases owed.cases here with mine | others
    · exact Owed.set_self here (ingress mine)
    · exact others.set next
  listeners := by
    refine sound.listeners.imp_right fun owed => ?_
    rcases owed.cases here with mine | others
    · exact Owed.set_self here (listeners mine)
    · exact others.set next

theorem Server.Sound.fail (sound : s.Sound) (here : s.requests[request]? = some phase) :
    Server.Sound { s with requests := s.requests.set request .failed } :=
  sound.set here (fun _ _ _ impossible => nomatch impossible) (fun _ _ _ impossible => nomatch impossible)
    (fun _ => .inr trivial) (fun _ => trivial) fun _ => trivial

theorem Server.Sound.change (sound : s.Sound) {nodes : List Node} (distinct : (nodes.map (·.id)).Nodup)
    (begins : phase = .done ∨ ∃ reconciles, phase = .changed reconciles)
    (routes : routes? nodes = routes? s.nodes ∨ phase = .changed true)
    (listeners : snapshot nodes = snapshot s.nodes ∨ ∃ reconciles, phase = .changed reconciles) :
    Server.Sound { s with nodes := nodes, requests := s.requests ++ [phase] } where
  nodes := distinct
  known read current since listed := by
    rcases List.mem_append.mp listed with old | new
    · exact sound.known read current since old
    · rcases begins with rfl | ⟨_, rfl⟩ <;> exact nomatch List.mem_singleton.mp new
  planned read future since listed := by
    rcases List.mem_append.mp listed with old | new
    · exact sound.planned read future since old
    · rcases begins with rfl | ⟨_, rfl⟩ <;> exact nomatch List.mem_singleton.mp new
  website := sound.website
  routes := by
    rcases routes with same | rfl
    · rw [same]
      exact sound.routes.imp_right fun owed => owed.append phase
    · exact .inr (Owed.new rfl)
  ingress := sound.ingress.imp_right fun owed => owed.append phase
  listeners := by
    rcases listeners with same | ⟨_, rfl⟩
    · rw [same]
      exact sound.listeners.imp_right fun owed => owed.append phase
    · exact .inr (Owed.new trivial)

end Invariant

section Reconciliation

variable {routes : Option (List Route)} {current next : Option Configuration}

theorem reconcile_same (same : reconcile routes current = .same) : routes = some (routesOf current) := by
  unfold reconcile at same
  split at same
  · exact nomatch same
  · split at same
    · rename_i empty
      split at same
      · rename_i none
        rw [none, empty.1]
        rfl
      · exact nomatch same
    · dsimp only at same
      split at same
      · exact nomatch same
      · split at same
        · rename_i equal
          rw [equal]
          rfl
        · exact nomatch same

theorem reconcile_save (saves : reconcile routes current = .save next) :
    routes = some (routesOf next) ∧ websiteOf next = websiteOf current := by
  unfold reconcile at saves
  split at saves
  · exact nomatch saves
  · split at saves
    · rename_i empty
      split at saves
      · exact nomatch saves
      · obtain rfl := Outcome.save.inj saves
        rw [empty.1, empty.2]
        exact ⟨rfl, rfl⟩
    · dsimp only at saves
      split at saves
      · exact nomatch saves
      · split at saves
        · exact nomatch saves
        · obtain rfl := Outcome.save.inj saves
          exact ⟨rfl, rfl⟩

end Reconciliation

section Changes

variable {s : Server}

theorem Node.managed_of_routed {node : Node} (routed : node.routed = true) : node.managed = true := by
  simp only [Node.routed, Node.managed, Bool.and_eq_true] at routed ⊢
  obtain ⟨⟨⟨shared, physical⟩, _⟩, kept⟩ := routed
  refine ⟨⟨?_, physical⟩, kept⟩
  cases profile : node.profile with
  | none => rw [profile] at shared; exact nomatch shared
  | some _ => rfl

theorem projections_congr {nodes nodes' : List Node}
    (same : nodes'.filter Node.managed = nodes.filter Node.managed) :
    routes? nodes' = routes? nodes ∧ snapshot nodes' = snapshot nodes := by
  have routed (nodes : List Node) : nodes.filter Node.routed = (nodes.filter Node.managed).filter Node.routed := by
    rw [filter_filter]
    refine filter_congr fun node _ => ?_
    cases known : node.routed with
    | false => rfl
    | true => rw [Node.managed_of_routed known]; rfl
  unfold routes? snapshot
  rw [routed nodes', routed nodes, same]
  exact ⟨rfl, rfl⟩

theorem create_sound (sound : s.Sound) (node : Node) (refused : Bool) : (s.create node refused).Sound := by
  unfold Server.create
  split
  · exact sound
  · rename_i accepted
    simp only [Bool.or_eq_true, any_eq_true, beq_iff_eq, not_or, not_exists, not_and] at accepted
    have distinct : ((s.nodes ++ [{ node with removing := false }]).map Node.id).Nodup :=
      Rows.nodup_append sound.nodes fun other here same => accepted.2 other here same
    generalize begins : (node.profile.elim Phase.done fun profile => .changed profile.shared) = phase
    rcases Option.eq_none_or_eq_some node.profile with profile | ⟨its, profile⟩
    · -- A node without a profile is catalogued only.
      have out : Node.managed { node with removing := false } = false := by
        rw [profile]
        rfl
      have same : (s.nodes ++ [{ node with removing := false }]).filter Node.managed =
        s.nodes.filter Node.managed := by
        rw [filter_append, filter_cons_of_neg (by rw [out]; exact nofun), filter_nil, append_nil]
      obtain ⟨routes, listeners⟩ := projections_congr same
      rw [profile] at begins
      exact sound.change distinct (.inl begins.symm) (.inl routes) (.inl listeners)
    · rw [profile] at begins
      refine sound.change distinct (.inr ⟨its.shared, begins.symm⟩) ?_ (.inr ⟨its.shared, begins.symm⟩)
      cases shared : its.shared with
      | true => exact .inr (begins.symm.trans (congrArg Phase.changed shared))
      | false =>
        have out : Node.routed { node with removing := false } = false := by
          unfold Node.routed
          rw [profile, Option.any_some, shared]
          rfl
        refine .inl ?_
        unfold routes?
        rw [filter_append, filter_cons_of_neg (by rw [out]; exact nofun), filter_nil, append_nil]

theorem update_sound (sound : s.Sound) (identifier : Nat) (prepared : Prepared) (refused : Bool) :
    (s.update identifier prepared refused).Sound := by
  unfold Server.update
  split
  · exact sound
  · rename_i node found
    split
    · exact sound
    · have distinct : ((Rows.update (·.id == identifier) (·.apply prepared) s.nodes).map (·.id)).Nodup :=
        Rows.nodup_update (fun _ => rfl) sound.nodes
      cases profile : node.profile with
      | some _ => exact sound.change distinct (.inr ⟨true, rfl⟩) (.inr rfl) (.inr ⟨true, rfl⟩)
      | none =>
        have here := mem_of_find?_eq_some found
        have its : node.id = identifier := by simpa using List.find?_some found
        have same : (Rows.update (·.id == identifier) (·.apply prepared) s.nodes).filter Node.managed =
            s.nodes.filter Node.managed := by
          refine Rows.filter_update_out fun other there selected => ?_
          have named : other.id = identifier := by simpa using selected
          obtain rfl : other = node := Rows.unique sound.nodes there here (named.trans its.symm)
          unfold Node.managed Node.apply
          rw [profile]
          exact ⟨rfl, rfl⟩
        obtain ⟨routes, listeners⟩ := projections_congr same
        exact sound.change distinct (.inl rfl) (.inl routes) (.inl listeners)

theorem remove_sound (sound : s.Sound) (identifiers : List Nat) (refused : Bool) :
    (s.remove identifiers refused).Sound := by
  unfold Server.remove
  split
  · exact sound
  · exact sound.change (Rows.nodup_update (fun _ => rfl) sound.nodes) (.inr ⟨true, rfl⟩) (.inr rfl)
      (.inr ⟨true, rfl⟩)

theorem finish_sound (sound : s.Sound) (identifiers : List Nat) : (s.finish identifiers).Sound := by
  have same : (s.finish identifiers).nodes.filter Node.managed = s.nodes.filter Node.managed := by
    unfold Server.finish
    rw [filter_filter]
    refine filter_congr fun node _ => ?_
    unfold Node.managed
    cases node.removing <;> simp
  obtain ⟨routes, listeners⟩ := projections_congr same
  have kept := sound.routes
  have carried := sound.listeners
  rw [← routes] at kept
  rw [← listeners] at carried
  exact ⟨sound.nodes.sublist (List.filter_sublist.map _), sound.known, sound.planned, sound.website, kept,
    sound.ingress, carried⟩

end Changes

section Saves

variable {s : Server} {request : Nat} {listeners : List Listener} {next : Option Configuration}

theorem Server.Sound.outdated (sound : s.Sound) (differs : routes? s.nodes ≠ some (routesOf s.configuration))
    (owed : Owed (Phase.Mends s.revision (routes? s.nodes)) s.requests) :
    Owed (Phase.Mends (s.revision + 1) (routes? s.nodes)) s.requests := by
  refine owed.mono fun phase listed due => ?_
  match phase, due with
  | .changed _, due => exact due
  | .built _, _ => trivial
  | .known read current since, due =>
    rcases due with now | other
    · obtain rfl := (sound.known read current since listed).2 now
      exact .inr fun same => differs (reconcile_same same)
    · exact .inr other
  | .planned read future since, _ =>
    have earlier := (sound.planned read future since listed).1
    exact .inl (by omega)
  | .failed, _ => trivial

theorem Server.Sound.save (sound : s.Sound) {requests : List Phase}
    (known : ∀ read current since, .known read current since ∈ requests → .known read current since ∈ s.requests)
    (planned : ∀ read future since, .planned read future since ∈ requests → .planned read future since ∈ s.requests)
    (routes : routes? s.nodes = some (routesOf next) ∨
      Owed (Phase.Mends (s.revision + 1) (routes? s.nodes)) requests)
    (ingress : Owed (Phase.BringsIngress next) requests)
    (carried : snapshot s.nodes = some s.agent.listeners ∨
      Owed (Phase.BringsListeners (snapshot s.nodes)) requests) :
    Server.Sound { s.save next with website := websiteOf next, requests := requests } where
  nodes := sound.nodes
  known read current since listed := by
    have earlier := (sound.known read current since (known read current since listed)).1
    exact ⟨Nat.le_succ_of_le earlier, fun now => absurd now (Nat.ne_of_lt (Nat.lt_succ_of_le earlier))⟩
  planned read future since listed := by
    have earlier := (sound.planned read future since (planned read future since listed)).1
    exact ⟨Nat.le_succ_of_le earlier, fun now => absurd now (Nat.ne_of_lt (Nat.lt_succ_of_le earlier))⟩
  website := rfl
  routes := routes
  ingress := .inr ingress
  listeners := carried

theorem saveWebsite_sound (sound : s.Sound) (website : Option Website) (expectedRevision : Option Nat) :
    (s.saveWebsite website expectedRevision).Sound := by
  unfold Server.saveWebsite
  dsimp only
  split
  · exact sound
  · have old {phase : Phase} {ingress : Option (Nat × Option Configuration)} (other : phase ≠ .ready none ingress)
        (listed : phase ∈ s.requests ++ [.ready none ingress]) : phase ∈ s.requests :=
      (List.mem_append.mp listed).resolve_right fun new => other (List.mem_singleton.mp new)
    refine sound.save (fun _ _ _ => old nofun) (fun _ _ _ => old nofun) ?_ (Owed.new ⟨_, rfl, rfl⟩)
      (sound.listeners.imp_right fun owed => owed.append _)
    by_cases same : routes? s.nodes = some (routesOf s.configuration)
    · exact .inl same
    · exact .inr ((sound.outdated same (sound.routes.resolve_left same)).append _)

theorem plannedSave_sound (sound : s.Sound)
    (here : s.requests[request]? = some (.planned listeners next s.revision))
    (permits : routes? s.nodes = some (routesOf next) ∨
      OwedByOther (Phase.Mends (s.revision + 1) (routes? s.nodes)) s.requests request) :
    Server.Sound { s.save next with
      requests := s.requests.set request (.ready (some listeners) (some (s.revision + 1, next))) } := by
  generalize future : Phase.ready (some listeners) (some (s.revision + 1, next)) = ready
  have old {phase : Phase} (other : phase ≠ ready) (listed : phase ∈ s.requests.set request ready) : phase ∈
      s.requests :=
    (mem_or_eq_of_mem_set listed).resolve_right other
  have ingress : ready.BringsIngress next := future ▸ ⟨_, rfl, rfl⟩
  have carried : Owed (Phase.BringsListeners (snapshot s.nodes)) s.requests →
      Owed (Phase.BringsListeners (snapshot s.nodes)) (s.requests.set request ready) := by
    intro owed
    rcases owed.cases here with mine | others
    · exact Owed.set_self here (future ▸ ⟨listeners, rfl, mine⟩)
    · exact others.set ready
  have website := (sound.planned listeners next s.revision (mem_of_getElem? here)).2 rfl
  have saved := sound.save (fun _ _ _ => old (future ▸ nofun)) (fun _ _ _ => old (future ▸ nofun))
    (permits.imp_right fun owed => owed.set ready) (Owed.set_self here ingress) (sound.listeners.imp_right carried)
  rw [website] at saved
  exact saved

end Saves

section Queueing

variable {s : Server} {request : Nat} {listeners : Option (List Listener)}
  {ingress : Option (Nat × Option Configuration)}

theorem execute_payloads (agent : Agent) : (payloads listeners ingress).foldl Agent.execute agent =
      { listeners := listeners.getD agent.listeners,
        configuration := (ingress.map (·.2)).getD agent.configuration } := by
  cases listeners <;> cases ingress <;> rfl

theorem queue_sound (sound : s.Sound) (here : s.requests[request]? = some (.ready listeners ingress))
    (permits : s.Permits request (.ready listeners ingress)) :
    Server.Sound { s with
      queue := s.queue ++ payloads listeners ingress, requests := s.requests.set request .done } := by
  have agent : (s.queue ++ payloads listeners ingress).foldl Agent.execute {} =
      { listeners := listeners.getD s.agent.listeners,
        configuration := (ingress.map (·.2)).getD s.agent.configuration } := by
    rw [foldl_append]
    exact execute_payloads s.agent
  have quiet {owes : Phase → Prop} (none : ¬ owes (.ready listeners ingress)) (owed : Owed owes s.requests) :
      Owed owes (s.requests.set request .done) :=
    ((owed.cases here).resolve_left none).set .done
  refine ⟨sound.nodes, fun read current since listed => ?_, fun read future since listed => ?_, sound.website,
    sound.routes.imp_right (quiet id), ?_, ?_⟩
  · exact sound.known read current since ((mem_or_eq_of_mem_set listed).resolve_right nofun)
  · exact sound.planned read future since ((mem_or_eq_of_mem_set listed).resolve_right nofun)
  · unfold Server.agent
    rw [agent]
    cases ingress with
    | none => exact sound.ingress.imp_right (quiet fun ⟨_, impossible, _⟩ => nomatch impossible)
    | some command => exact (permits.2 command rfl).imp_right fun owed => owed.set .done
  · unfold Server.agent
    rw [agent]
    cases listeners with
    | none => exact sound.listeners.imp_right (quiet fun ⟨_, impossible, _⟩ => nomatch impossible)
    | some read => exact (permits.1 read rfl).imp_right fun owed => owed.set .done

end Queueing

section Runs

variable {s : Server}

theorem advance_sound (sound : s.Sound) {request : Nat} {phase : Phase} (here : s.requests[request]? = some phase)
    (permits : s.Permits request phase) :
    Server.Sound { (s.advance phase).1 with requests := s.requests.set request (s.advance phase).2 } := by
  match phase, here, permits with
  | .changed reconciles, here, _ =>
    unfold Server.advance
    cases read : snapshot s.nodes with
    | none => exact sound.fail here
    | some listeners =>
      cases reconciles with
      | true =>
        refine sound.set here (fun _ _ _ impossible => nomatch impossible) (fun _ _ _ impossible =>
          nomatch impossible)
          (fun _ => .inr trivial) (fun due => due.elim) fun _ => read
      | false =>
        refine sound.set here (fun _ _ _ impossible => nomatch impossible) (fun _ _ _ impossible =>
          nomatch impossible)
          (fun due => nomatch due) (fun due => due.elim) fun _ => ⟨listeners, rfl, read⟩
  | .built listeners, here, _ =>
    refine sound.set here (fun _ _ _ same => ?_) (fun _ _ _ impossible => nomatch impossible) (fun _ =>
      .inr (.inl rfl))
      (fun due => due.elim) id
    obtain ⟨_, rfl, rfl⟩ := Phase.known.inj same
    exact ⟨Nat.le_refl _, fun _ => rfl⟩
  | .known listeners current since, here, _ =>
    obtain ⟨earlier, now⟩ := sound.known listeners current since (mem_of_getElem? here)
    unfold Server.advance
    dsimp only
    cases outcome : reconcile (routes? s.nodes) current with
    | failed => exact sound.fail here
    | same =>
      refine sound.set here (fun _ _ _ impossible =>
        nomatch impossible) (fun _ _ _ impossible => nomatch impossible)
        (fun due => ?_) (fun due => due.elim) fun carried => ⟨listeners, rfl, carried⟩
      -- At the current revision the declaration has the routes; at an earlier one this request mends nothing.
      rcases due with current | other
      · exact .inl (now current ▸ reconcile_same outcome)
      · exact absurd outcome other
    | save next =>
      obtain ⟨routes, website⟩ := reconcile_save outcome
      refine sound.set here (fun _ _ _ impossible => nomatch impossible) (fun _ _ _ same => ?_)
        (fun _ => .inr (.inr routes)) (fun due => due.elim) id
      obtain ⟨_, rfl, rfl⟩ := Phase.planned.inj same
      refine ⟨earlier, fun current => website.trans ?_⟩
      rw [now current]
      exact sound.website
  | .planned listeners next since, here, permits =>
    unfold Server.advance
    dsimp only
    split
    · rename_i passed
      obtain ⟨rfl, bound⟩ := passed
      exact plannedSave_sound sound here (permits rfl bound)
    · exact sound.fail here
  | .ready listeners ingress, here, permits => exact queue_sound sound here permits
  | .done, here, _ =>
    exact sound.set here (fun _ _ _ impossible => nomatch impossible) (fun _ _ _ impossible => nomatch impossible)
      (fun due => due.elim) id id
  | .failed, here, _ => exact sound.fail here

theorem step_sound (sound : s.Sound) {event : Event} (meets : s.Meets event) : (s.step event).Sound := by
  cases event with
  | create node refused => exact create_sound sound node refused
  | update identifier prepared refused => exact update_sound sound identifier prepared refused
  | remove identifiers refused => exact remove_sound sound identifiers refused
  | retry => exact sound.change sound.nodes (.inr ⟨true, rfl⟩) (.inr rfl) (.inr ⟨true, rfl⟩)
  | finish identifiers => exact finish_sound sound identifiers
  | saveWebsite website expectedRevision => exact saveWebsite_sound sound website expectedRevision
  | proceed request =>
    unfold Server.step
    dsimp only
    split
    · exact sound
    · rename_i phase here
      exact advance_sound sound here (meets phase here)
  | abort request =>
    unfold Server.step
    dsimp only
    split
    · exact sound
    · exact sound
    · rename_i here
      exact sound.fail here

theorem run_sound (sound : s.Sound) {events : List Event} (meets : s.MeetsAll events) : (s.run events).Sound := by
  induction events generalizing s with
  | nil => exact sound
  | cons event events ih => exact ih (step_sound sound meets.1) meets.2

theorem empty_sound : Server.Sound {} where
  nodes := nodup_nil
  known _ _ _ listed := absurd listed not_mem_nil
  planned _ _ _ listed := absurd listed not_mem_nil
  website := rfl
  routes := .inl rfl
  ingress := .inl rfl
  listeners := .inl rfl

end Runs

instance (s : Server) : Decidable s.Settled :=
  inferInstanceAs (Decidable ((∀ phase ∈ s.requests, phase = .done) →
    routes? s.nodes = some (routesOf s.configuration) ∧ websiteOf s.configuration = s.website ∧
      s.agent.configuration = s.configuration ∧ snapshot s.nodes = some s.agent.listeners))

end OpenNode.SharedIngress
