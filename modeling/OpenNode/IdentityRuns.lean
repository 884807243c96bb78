import OpenNode.RuntimeIdentities

namespace OpenNode.RuntimeIdentities

open Edits List Rows

/-- The tags that select where the traffic of a node's clients goes. -/
def Node.routing (node : Node) : Option String × Option String :=
  (node.routedOutboundTag, node.routedRuleMarktag)

section Identities

variable (texts : Texts) (s : Store)

/-- Runtime identities belong to one subscriber. -/
structure Store.Identities : Prop where
  /-- On a server, credentials of one label, up to case, are one user's. -/
  apart : ∀ row ∈ s.credentials, ∀ other ∈ s.credentials, row.serverId = other.serverId →
    texts.lower row.email = texts.lower other.email → row.username = other.username
  /-- A user's credentials of one label on an inbound agree. -/
  agree : ∀ row ∈ s.credentials, ∀ other ∈ s.credentials, row.username = other.username →
    row.serverId = other.serverId →
    row.inboundTag = other.inboundTag → row.email = other.email →
    row.protocol = other.protocol ∧ row.credential = other.credential ∧
      ∀ node ∈ s.nodes, ∀ node' ∈ s.nodes, node.id = row.nodeId → node'.id = other.nodeId →
        node.routing = node'.routing
  /-- What is counted under the label of a credential is billed to its user. -/
  billed : ∀ row ∈ s.credentials, ∃ nodeId, s.attribution row.serverId row.email = some (row.username, nodeId)
  /-- No label was one of a removed user of the same name. -/
  unused : ∀ row ∈ s.credentials, (row.username, row.email) ∉ s.past

/-- Nobody else has the label on the server, and no removed user of the name had it. -/
def Store.Free (username : String) (serverId : Nat) (email : String) : Prop :=
  (∀ row ∈ s.credentials, row.serverId = serverId → row.username ≠ username →
    texts.lower row.email ≠ texts.lower email) ∧
    (username, email) ∉ s.past

/-- The label that a user comes to on a node is free, and if the node's identifier
had to tell it apart, the user has no other credential of that label on the inbound. -/
def Store.Unclaimed (user : User) (node : Node) : Prop :=
  if s.needsSuffix texts user node then
    s.Free texts user.username node.serverId (s.clientEmail texts user node ++ "--" ++ compact 12 node.id) ∧
      ∀ row ∈ s.credentials, row.username = user.username → row.serverId = node.serverId →
        row.inboundTag = node.inboundTag →
        row.email ≠ s.clientEmail texts user node ++ "--" ++ compact 12 node.id
  else s.Free texts user.username node.serverId (s.clientEmail texts user node)

/-- The request gives no one a label that is claimed. -/
def Store.Meets : Event → Prop
  | .provision username identifier _ => ∀ user ∈ s.user? username, ∀ node ∈ s.node? identifier,
    node.nodeType ≠ .orchestrated → s.credential? user.username node.id = none → s.Unclaimed texts user node
  | .createPrivate username parentId identifier label _ refused => ∀ user ∈ s.user? username,
      ∀ parent ∈ s.node? parentId,
    refused = false → s.node? identifier = none →
      Store.Unclaimed texts { s with nodes := s.nodes ++ [privateNode texts user parent identifier label] } user
        (privateNode texts user parent identifier label)
  | _ => True

/-- Every request of a run meets the condition. -/
def Store.MeetsAll (s : Store) : List Event → Prop
  | [] => True
  | event :: events => s.Meets texts event ∧ Store.MeetsAll (s.step texts event) events

instance (username : String) (serverId : Nat) (email : String) : Decidable (s.Free texts username serverId email) :=
  inferInstanceAs (Decidable (_ ∧ _))

instance (user : User) (node : Node) : Decidable (s.Unclaimed texts user node) :=
  inferInstanceAs (Decidable (if s.needsSuffix texts user node = true then
    s.Free texts user.username node.serverId (s.clientEmail texts user node ++ "--" ++ compact 12 node.id) ∧
      ∀ row ∈ s.credentials, row.username = user.username → row.serverId = node.serverId →
        row.inboundTag = node.inboundTag →
        row.email ≠ s.clientEmail texts user node ++ "--" ++ compact 12 node.id
    else s.Free texts user.username node.serverId (s.clientEmail texts user node)))

instance : DecidablePred (s.Meets texts)
  | .provision username identifier _ =>
    inferInstanceAs (Decidable (∀ user ∈ s.user? username, ∀ node ∈ s.node? identifier,
      node.nodeType ≠ .orchestrated → s.credential? user.username node.id = none → s.Unclaimed texts user node))
  | .createPrivate username parentId identifier label _ refused =>
    inferInstanceAs (Decidable (∀ user ∈ s.user? username, ∀ parent ∈ s.node? parentId,
      refused = false → s.node? identifier = none →
        Store.Unclaimed texts { s with nodes := s.nodes ++ [privateNode texts user parent identifier label] } user
          (privateNode texts user parent identifier label)))
  | .createUser .. | .removeUser .. | .finishUserRemoval .. | .createNode .. | .updateNode .. | .removeNodes ..
  | .finishNodeRemoval .. | .deletePrivate .. => .isTrue trivial

instance Store.decidableMeetsAll (s : Store) : DecidablePred (s.MeetsAll texts)
  | [] => .isTrue trivial
  | event :: events =>
    have := Store.decidableMeetsAll (s.step texts event) events
    inferInstanceAs (Decidable (_ ∧ _))

/-- What every state of such a run has. -/
structure Store.Sound : Prop where
  nodes : (s.nodes.map (·.id)).Nodup
  linked : ∀ row ∈ s.credentials, ∃ node ∈ s.nodes, node.id = row.nodeId ∧ node.serverId = row.serverId ∧
    node.inboundTag = row.inboundTag ∧ node.protocol = row.protocol
  labelled : ∀ row ∈ s.credentials, ∀ email, row.credential.email? = some email → email = row.email
  apart : ∀ row ∈ s.credentials, ∀ other ∈ s.credentials, row.serverId = other.serverId →
    texts.lower row.email = texts.lower other.email → row.username = other.username
  agree : ∀ row ∈ s.credentials, ∀ other ∈ s.credentials, row.username = other.username →
    row.serverId = other.serverId →
    row.inboundTag = other.inboundTag → row.email = other.email →
    row.protocol = other.protocol ∧ row.credential = other.credential ∧
      ∀ node ∈ s.nodes, ∀ node' ∈ s.nodes, node.id = row.nodeId → node'.id = other.nodeId →
        node.routing = node'.routing
  unused : ∀ row ∈ s.credentials, (row.username, row.email) ∉ s.past

end Identities

section Steps

variable {texts : Texts} {s t : Store}

variable {identifier : String}

theorem node?_some {node : Node} (known : s.node? identifier = some node) : node ∈ s.nodes ∧ node.id = identifier :=
  ⟨mem_of_find?_eq_some known, by simpa using List.find?_some known⟩

theorem node?_none (unknown : s.node? identifier = none) (node : Node) (here : node ∈ s.nodes) :
    node.id ≠ identifier := by
  simpa using List.find?_eq_none.mp unknown node here

/-- What a request leaves that gives no one a credential. -/
structure Store.Follows (s t : Store) : Prop where
  nodes : (t.nodes.map (·.id)).Nodup
  credentials : ∀ row ∈ t.credentials, row ∈ s.credentials
  node : ∀ row ∈ t.credentials, ∀ node ∈ s.nodes, node.id = row.nodeId →
    ∃ node' ∈ t.nodes, node'.id = node.id ∧ node'.serverId = node.serverId ∧ node'.inboundTag = node.inboundTag ∧
      node'.protocol = node.protocol ∧ node'.routing = node.routing
  past : ∀ row ∈ t.credentials, (row.username, row.email) ∈ t.past → (row.username, row.email) ∈ s.past

theorem Store.Sound.carried (sound : s.Sound texts) (follows : s.Follows t) : t.Sound texts where
  nodes := follows.nodes
  linked := by
    intro row here
    obtain ⟨node, listed, same, server, tag, protocol⟩ := sound.linked row (follows.credentials row here)
    obtain ⟨node', listed', same', server', tag', protocol', _⟩ := follows.node row here node listed same
    exact ⟨node', listed', same'.trans same, server'.trans server, tag'.trans tag, protocol'.trans protocol⟩
  labelled row here := sound.labelled row (follows.credentials row here)
  apart row here other there :=
    sound.apart row (follows.credentials row here) other (follows.credentials other there)
  agree := by
    intro row here other there user server tag email
    obtain ⟨protocol, secret, routing⟩ :=
      sound.agree row (follows.credentials row here) other (follows.credentials other there) user server tag email
    refine ⟨protocol, secret, fun node listed node' listed' same same' => ?_⟩
    -- The nodes of the two rows are the ones they had, as far as routing goes.
    have earlier {row : Credential} (here : row ∈ t.credentials) {node : Node} (listed : node ∈ t.nodes)
        (same : node.id = row.nodeId) :
        ∃ old ∈ s.nodes, old.id = row.nodeId ∧ node.routing = old.routing := by
      obtain ⟨old, before, its, _⟩ := sound.linked row (follows.credentials row here)
      obtain ⟨new, now, kept, _, _, _, route⟩ := follows.node row here old before its
      obtain rfl : node = new := unique follows.nodes listed now (same.trans (kept.trans its).symm)
      exact ⟨old, before, its, route⟩
    obtain ⟨old, before, its, route⟩ := earlier here listed same
    obtain ⟨old', before', its', route'⟩ := earlier there listed' same'
    rw [route, route', routing old before old' before' its its']
  unused row here used := sound.unused row (follows.credentials row here) (follows.past row here used)

theorem Store.Follows.same (nodes : (s.nodes.map (·.id)).Nodup) (keeps : t.nodes = s.nodes)
    (credentials : t.credentials = s.credentials)
    (past : t.past = s.past) : s.Follows t where
  nodes := keeps ▸ nodes
  credentials _ here := credentials ▸ here
  node _ _ node listed _ := ⟨node, keeps ▸ listed, rfl, rfl, rfl, rfl, rfl⟩
  past _ _ used := past ▸ used

end Steps

section Requests

variable {texts : Texts} {s t : Store}

variable {username : String}

theorem createUser_follows (sound : s.Sound texts) {now : Nat} (done : s.createUser texts username now = .ok t) :
    s.Follows t := by
  unfold Store.createUser at done
  split at done
  · exact nomatch done
  · split at done
    · exact nomatch done
    · cases done
      exact .same sound.nodes rfl rfl rfl

variable {blocked : Bool}

theorem removeUser_follows (sound : s.Sound texts) (done : s.removeUser username blocked = .ok t) :
    s.Follows t := by
  unfold Store.removeUser at done
  split at done
  · exact nomatch done
  · split at done
    · cases done
      exact .same sound.nodes rfl rfl rfl
    · split at done
      · exact nomatch done
      · split at done
        · exact nomatch done
        · cases done
          exact .same sound.nodes rfl rfl rfl

variable {ready : Bool}

section

variable (sound : s.Sound texts)
include sound

theorem finishUserRemoval_follows (done : s.finishUserRemoval username ready = .ok t) :
    s.Follows t := by
  unfold Store.finishUserRemoval at done
  split at done
  · exact nomatch done
  · split at done
    · cases done
      exact .same sound.nodes rfl rfl rfl
    · cases done
      refine ⟨sound.nodes, fun row here => mem_of_mem_filter here,
        fun _ _ node listed _ => ⟨node, listed, rfl, rfl, rfl, rfl, rfl⟩, fun row here used => ?_⟩
      -- The labels that go to the past are the removed user's, and no credential of his is left.
      rcases List.mem_append.mp used with before | now
      · exact before
      · have removed : row.username = username := by simpa using (List.mem_filter.mp now).2
        have other : row.username ≠ username := by simpa using (List.mem_filter.mp here).2
        exact absurd removed other

theorem createNode_follows {node : Node} {profile refused : Bool}
    (done : s.createNode texts node profile refused = .ok t) : s.Follows t := by
  unfold Store.createNode at done
  dsimp only at done
  split at done
  · exact nomatch done
  · split at done
    · exact nomatch done
    · rename_i new
      cases done
      rw [Bool.not_eq_true, Option.isSome_eq_false_iff, Option.isNone_iff_eq_none] at new
      exact ⟨nodup_append sound.nodes (node?_none new), fun _ here => here,
        fun _ _ old listed _ => ⟨old, mem_append_left _ listed, rfl, rfl, rfl, rfl, rfl⟩, fun _ _ used => used⟩

theorem update_follows {selects : Node → Bool} {set : Node → Node}
    (nodes : t.nodes = Rows.update selects set s.nodes) (credentials : t.credentials = s.credentials)
    (past : t.past = s.past)
    (keeps : ∀ node, (set node).id = node.id ∧ (set node).serverId = node.serverId ∧
      (set node).inboundTag = node.inboundTag ∧
      (set node).protocol = node.protocol ∧ (set node).routing = node.routing) :
    s.Follows t where
  nodes := by
    rw [nodes]
    exact nodup_update (fun node => (keeps node).1) sound.nodes
  credentials _ here := credentials ▸ here
  node := by
    intro row _ node listed _
    rw [nodes]
    cases selected : selects node with
    | true => exact ⟨set node, update_selected listed selected, keeps node⟩
    | false => exact ⟨node, update_other listed selected, rfl, rfl, rfl, rfl, rfl⟩
  past _ _ used := past ▸ used

theorem updateNode_follows {identifier name : String} {enabled refused : Bool}
    (done : s.updateNode identifier name enabled refused = .ok t) : s.Follows t := by
  unfold Store.updateNode at done
  split at done
  · exact nomatch done
  · dsimp only at done
    split at done
    · exact nomatch done
    · cases done
      exact update_follows sound rfl rfl rfl fun _ => ⟨rfl, rfl, rfl, rfl, rfl⟩

theorem removeNodes_follows {job : NodeRemoval} (done : s.removeNodes job blocked = .ok t) :
    s.Follows t := by
  unfold Store.removeNodes at done
  split at done
  · exact nomatch done
  · cases done
    exact update_follows sound rfl rfl rfl fun _ => ⟨rfl, rfl, rfl, rfl, rfl⟩

theorem deleteNodes_follows (identifiers : List String) : s.Follows (s.deleteNodes identifiers) where
  nodes := sound.nodes.sublist (List.filter_sublist.map _)
  credentials _ here := mem_of_mem_filter here
  node := by
    intro row here node listed same
    have kept := (List.mem_filter.mp here).2
    exact ⟨node, List.mem_filter.mpr ⟨listed, by rw [same]; exact kept⟩, rfl, rfl, rfl, rfl, rfl⟩
  past _ _ used := used

theorem finishNodeRemoval_follows {position : Nat}
    (done : s.finishNodeRemoval position ready = .ok t) : s.Follows t := by
  unfold Store.finishNodeRemoval at done
  split at done
  · exact nomatch done
  · rename_i job _
    split at done
    · cases done
      exact .same sound.nodes rfl rfl rfl
    · cases done
      obtain ⟨nodes, credentials, node, past⟩ := deleteNodes_follows sound job.nodeIds
      exact ⟨nodes, credentials, node, past⟩

end

end Requests

section Credentials

variable {texts : Texts} {s t : Store} {user : User} {node : Node}

theorem generate_email? {protocol username email drawn label : String}
    (labelled : (generateSubscriptionCredential texts protocol username email drawn).email? = some label) :
    label = email := by
  unfold generateSubscriptionCredential at labelled
  split at labelled
  all_goals first
    | exact (Option.some.inj labelled).symm
    | exact nomatch labelled

variable {shared : Credential}

theorem shared?_some (found : s.shared? texts user node = some shared) :
    shared ∈ s.credentials ∧ shared.username = user.username ∧ shared.serverId = node.serverId ∧
      shared.email = s.clientEmail texts user node := by
  have matched := List.find?_some found
  simp only [Bool.and_eq_true, beq_iff_eq] at matched
  exact ⟨mem_of_find?_eq_some found, matched.1.1, matched.1.2, matched.2⟩

theorem Store.Sound.canShare (sound : s.Sound texts) (here : shared ∈ s.credentials)
    (can : s.canShare node shared = true) :
    shared.inboundTag = node.inboundTag ∧ shared.protocol = node.protocol ∧
      ∀ source ∈ s.nodes, source.id = shared.nodeId → source.routing = node.routing := by
  unfold Store.canShare at can
  cases known : s.node? shared.nodeId with
  | none =>
    rw [known] at can
    exact nomatch can
  | some source =>
  rw [known, Option.any_some] at can
  obtain ⟨listed, same⟩ := node?_some known
  simp only [Bool.and_eq_true, beq_iff_eq] at can
  obtain ⟨⟨⟨⟨⟨_, protocol⟩, _⟩, tag⟩, outbound⟩, mark⟩ := can
  obtain ⟨its, there, same', _, tag', protocol'⟩ := sound.linked shared here
  obtain rfl : its = source := unique sound.nodes there listed (same'.trans same.symm)
  refine ⟨tag'.symm.trans tag, protocol'.symm.trans protocol, fun other known same'' => ?_⟩
  obtain rfl : other = its := unique sound.nodes known there (same''.trans same'.symm)
  exact Prod.ext outbound mark

theorem newCredential_free (unclaimed : s.Unclaimed texts user node) (drawn : String) :
    s.Free texts user.username node.serverId (s.newCredential texts user node drawn).email := by
  unfold Store.Unclaimed at unclaimed
  unfold Store.newCredential
  dsimp only at unclaimed ⊢
  split at unclaimed
  · rename_i suffixed
    rw [suffixed, if_pos rfl, ← String.append_assoc]
    exact unclaimed.1
  · rename_i plain
    rw [if_neg plain, String.append_empty]
    exact unclaimed

theorem Store.Sound.newCredential_agrees (sound : s.Sound texts) (unclaimed : s.Unclaimed texts user node)
    (drawn : String)
    {other : Credential} (there : other ∈ s.credentials) (mine : other.username = user.username)
    (server : other.serverId = node.serverId) (tag : other.inboundTag = node.inboundTag)
    (email : other.email = (s.newCredential texts user node drawn).email) :
    other.protocol = node.protocol ∧ other.credential = (s.newCredential texts user node drawn).credential ∧
      ∀ source ∈ s.nodes, source.id = other.nodeId → source.routing = node.routing := by
  unfold Store.Unclaimed at unclaimed
  unfold Store.newCredential at email ⊢
  dsimp only at unclaimed email ⊢
  split at unclaimed
  · rename_i suffixed
    rw [suffixed, if_pos rfl, ← String.append_assoc] at email
    exact absurd email (unclaimed.2 other there mine server tag)
  · rename_i plain
    rw [if_neg plain, String.append_empty] at email
    have found : (s.shared? texts user node).isSome := by
      refine List.find?_isSome.mpr ⟨other, there, ?_⟩
      simp only [mine, server, email, BEq.rfl, Bool.and_self]
    obtain ⟨shared, known⟩ := Option.isSome_iff_exists.mp found
    obtain ⟨here, owner, server', email'⟩ := shared?_some known
    have can : s.canShare node shared = true := by
      rw [Bool.not_eq_true, Store.needsSuffix, known] at plain
      simpa using (Bool.or_eq_false_iff.mp plain).1
    obtain ⟨tag', protocol', routing'⟩ := sound.canShare here can
    obtain ⟨protocol, secret, routing⟩ := sound.agree other there shared here (mine.trans owner.symm)
      (server.trans server'.symm) (tag.trans tag'.symm) (email.trans email'.symm)
    refine ⟨protocol.trans protocol', ?_, fun source listed same => ?_⟩
    · rw [if_neg plain, known, Option.map_some, Option.getD_some, secret]
    · obtain ⟨its, known', same', _⟩ := sound.linked shared here
      exact (routing source listed its known' same same').trans (routing' its known' same')

theorem newCredential_labelled (sound : s.Sound texts) (drawn email : String)
    (labelled : (s.newCredential texts user node drawn).credential.email? = some email) :
    email = (s.newCredential texts user node drawn).email := by
  unfold Store.newCredential at labelled ⊢
  by_cases suffixed : s.needsSuffix texts user node = true
  · simp only [if_pos suffixed] at labelled ⊢
    exact generate_email? labelled
  · simp only [if_neg suffixed] at labelled ⊢
    cases known : s.shared? texts user node with
    | none =>
      rw [known] at labelled
      exact generate_email? labelled
    | some shared =>
      rw [known, Option.map_some, Option.getD_some] at labelled
      obtain ⟨here, _, _, same⟩ := shared?_some known
      rw [sound.labelled shared here email labelled, same, String.append_empty]

theorem getOrCreate_sound (sound : s.Sound texts) (listed : node ∈ s.nodes) {drawn : String}
    (unclaimed : node.nodeType ≠ .orchestrated → s.credential? user.username node.id = none →
      s.Unclaimed texts user node)
    (done : s.getOrCreate texts user node drawn = .ok t) : t.Sound texts := by
  unfold Store.getOrCreate at done
  split at done
  · exact nomatch done
  · rename_i concrete
    split at done
    · cases done
      -- The row has what the node has already.
      refine sound.carried (.same sound.nodes rfl (update_same fun row here selected => ?_) rfl)
      simp only [Bool.and_eq_true, beq_iff_eq] at selected
      obtain ⟨its, there, same, server, tag, protocol⟩ := sound.linked row here
      obtain rfl : its = node := unique sound.nodes there listed (same.trans selected.2)
      rw [server, tag, protocol]
    · rename_i unknown
      cases done
      have claim := unclaimed concrete unknown
      obtain ⟨others, past⟩ := newCredential_free claim drawn
      constructor
      · exact sound.nodes
      · intro row here
        rcases List.mem_append.mp here with old | new
        · exact sound.linked row old
        · obtain rfl := List.mem_singleton.mp new
          exact ⟨node, listed, rfl, rfl, rfl, rfl⟩
      · intro row here email labelled
        rcases List.mem_append.mp here with old | new
        · exact sound.labelled row old email labelled
        · obtain rfl := List.mem_singleton.mp new
          exact newCredential_labelled sound drawn email labelled
      · intro row here other there server email
        rcases List.mem_append.mp here with old | new
        · rcases List.mem_append.mp there with old' | new'
          · exact sound.apart row old other old' server email
          · obtain rfl := List.mem_singleton.mp new'
            by_contra different
            exact others row old server different email
        · obtain rfl := List.mem_singleton.mp new
          rcases List.mem_append.mp there with old' | new'
          · by_contra different
            exact others other old' server.symm (Ne.symm different) email.symm
          · obtain rfl := List.mem_singleton.mp new'
            rfl
      · intro row here other there mine server tag email
        have known : ∀ source ∈ s.nodes, source.id = node.id → source.routing = node.routing :=
          fun source there same => by rw [unique sound.nodes there listed same]
        rcases List.mem_append.mp here with old | new
        · rcases List.mem_append.mp there with old' | new'
          · exact sound.agree row old other old' mine server tag email
          · obtain rfl := List.mem_singleton.mp new'
            obtain ⟨protocol, secret, routing⟩ := sound.newCredential_agrees claim drawn old mine server tag email
            exact ⟨protocol, secret, fun source there source' there' same same' =>
              (routing source there same).trans (known source' there' same').symm⟩
        · obtain rfl := List.mem_singleton.mp new
          rcases List.mem_append.mp there with old' | new'
          · obtain ⟨protocol, secret, routing⟩ :=
              sound.newCredential_agrees claim drawn old' mine.symm server.symm tag.symm email.symm
            exact ⟨protocol.symm, secret.symm, fun source there source' there' same same' =>
              (known source there same).trans (routing source' there' same').symm⟩
          · obtain rfl := List.mem_singleton.mp new'
            exact ⟨rfl, rfl, fun source there source' there' same same' =>
              (known source there same).trans (known source' there' same').symm⟩
      · intro row here
        rcases List.mem_append.mp here with old | new
        · exact sound.unused row old
        · obtain rfl := List.mem_singleton.mp new
          exact past

end Credentials

section Runs

variable {texts : Texts} {s t : Store}

theorem provision_sound (sound : s.Sound texts) {username identifier drawn : String}
    (meets : s.Meets texts (.provision username identifier drawn))
    (done : s.provision texts username identifier drawn = .ok t) : t.Sound texts := by
  unfold Store.provision at done
  split at done
  · rename_i user node known found
    exact getOrCreate_sound sound (node?_some found).1 (meets user known node found) done
  · exact nomatch done
  · exact nomatch done

theorem createPrivate_sound (sound : s.Sound texts) {username parentId identifier label drawn : String}
    {refused : Bool}
    (meets : s.Meets texts (.createPrivate username parentId identifier label drawn refused))
    (done : s.createPrivate texts username parentId identifier label drawn refused = .ok t) : t.Sound texts := by
  unfold Store.createPrivate at done
  split at done
  · rename_i user parent known found
    split at done
    · exact nomatch done
    · rename_i allowed
      split at done
      · exact nomatch done
      · rename_i new
        rw [Bool.not_eq_true, Option.isSome_eq_false_iff, Option.isNone_iff_eq_none] at new
        have listed : Store.Sound texts { s with nodes := s.nodes ++
          [privateNode texts user parent identifier label] } :=
          sound.carried ⟨nodup_append sound.nodes (node?_none new), fun _ here => here,
            fun _ _ old listed _ => ⟨old, mem_append_left _ listed, rfl, rfl, rfl, rfl, rfl⟩, fun _ _ used => used⟩
        exact getOrCreate_sound listed (mem_append_right _ mem_cons_self)
          (fun _ _ => meets user known parent found (Bool.not_eq_true _ ▸ allowed) new) done
  · exact nomatch done
  · exact nomatch done

variable {event : Event}

theorem request_sound (sound : s.Sound texts) (meets : s.Meets texts event) (done : s.request texts event = .ok t) :
    t.Sound texts := by
  cases event with
  | createUser username now => exact sound.carried (createUser_follows sound done)
  | removeUser username blocked => exact sound.carried (removeUser_follows sound done)
  | finishUserRemoval username ready => exact sound.carried (finishUserRemoval_follows sound done)
  | createNode node profile refused => exact sound.carried (createNode_follows sound done)
  | updateNode identifier name enabled refused => exact sound.carried (updateNode_follows sound done)
  | removeNodes job blocked => exact sound.carried (removeNodes_follows sound done)
  | finishNodeRemoval position ready => exact sound.carried (finishNodeRemoval_follows sound done)
  | provision username identifier drawn => exact provision_sound sound meets done
  | createPrivate username parentId identifier label drawn refused => exact createPrivate_sound sound meets done
  | deletePrivate identifier =>
    cases done
    exact sound.carried (deleteNodes_follows sound [identifier])

theorem step_sound (sound : s.Sound texts) (meets : s.Meets texts event) : (s.step texts event).Sound texts := by
  unfold Store.step
  split
  · rename_i done
    exact request_sound sound meets done
  · exact sound

theorem run_sound (sound : s.Sound texts) {events : List Event} (meets : s.MeetsAll texts events) :
    (s.run texts events).Sound texts := by
  induction events generalizing s with
  | nil => exact sound
  | cons event events ih => exact ih (step_sound sound meets.1) meets.2

theorem empty_sound : Store.Sound texts {} where
  nodes := nodup_nil
  linked _ here := absurd here not_mem_nil
  labelled _ here := absurd here not_mem_nil
  apart _ here := absurd here not_mem_nil
  agree _ here := absurd here not_mem_nil
  unused _ here := absurd here not_mem_nil

theorem attribution_of_apart (apart : ∀ row ∈ s.credentials, ∀ other ∈ s.credentials,
    row.serverId = other.serverId →
      texts.lower row.email = texts.lower other.email → row.username = other.username)
    {row : Credential} (here : row ∈ s.credentials) :
    ∃ nodeId, s.attribution row.serverId row.email = some (row.username, nodeId) := by
  have found : ((s.credentials.filter (·.serverId == row.serverId)).reverse.find? (·.email == row.email)).isSome :=
    List.find?_isSome.mpr ⟨row, List.mem_reverse.mpr (List.mem_filter.mpr ⟨here, BEq.rfl⟩), BEq.rfl⟩
  obtain ⟨other, known⟩ := Option.isSome_iff_exists.mp found
  obtain ⟨there, server⟩ := List.mem_filter.mp (List.mem_reverse.mp (mem_of_find?_eq_some known))
  have email : other.email = row.email := by simpa using List.find?_some known
  refine ⟨other.nodeId, ?_⟩
  unfold Store.attribution
  dsimp only
  rw [known, ← apart other there row here (by simpa using server) (by rw [email])]
  rfl

theorem Store.Sound.identities (sound : s.Sound texts) : s.Identities texts :=
  ⟨sound.apart, sound.agree, fun _ here => attribution_of_apart sound.apart here, sound.unused⟩

end Runs

/-- After any requests of which each comes to labels that are not claimed,
runtime identities belong to one subscriber. -/
theorem identities_hold (texts : Texts) (events : List Event) (meets : Store.MeetsAll texts {} events) :
    (Store.run texts {} events).Identities texts :=
  (run_sound empty_sound meets).identities

/-- The operations on ASCII texts, with digests that keep what they digest. -/
def asciiTexts : Texts where
  lower text := String.ofList (text.toList.map Char.toLower)
  strip text := String.ofList ((text.toList.dropWhile (· == ' ')).reverse.dropWhile (· == ' ')).reverse
  isalnum := Char.isAlphanum
  incarnation := toString
  ownerRef := id

/-- A subscriber on two nodes of an inbound, and a private route. -/
theorem identities_hold_ann : (Store.run asciiTexts {}
      [.createUser "ann" 0,
        .createNode { id := "n1", name := "one", serverId := 0, protocol := "vless", inboundTag := some "in" }
          false false,
        .createNode { id := "n2", name := "two", serverId := 0, protocol := "vless", inboundTag := some "in" }
          false false,
        .provision "ann" "n1" "s1", .provision "ann" "n2" "s2",
        .createPrivate "ann" "n1" "p1" "home" "s3" false]).Identities asciiTexts :=
  identities_hold asciiTexts _ (by decide +kernel)

/-- The labels of `a` on `b__c` and of `a__b` on `c` are one, and what the first
uses is billed to the second. -/
theorem joined_labels_collide :
    let s := Store.run asciiTexts {}
      [.createUser "a" 0, .createUser "a__b" 1,
        .createNode { id := "n1", name := "one", serverId := 0, protocol := "vless", inboundTag := some "b__c" }
          false false,
        .createNode { id := "n2", name := "two", serverId := 0, protocol := "vless", inboundTag := some "c" }
          false false,
        .provision "a" "n1" "s1", .provision "a__b" "n2" "s2"]
    ¬ s.Identities asciiTexts ∧ s.credentials.map (fun row => (row.username, row.email)) = [("a", "a__b__c"),
      ("a__b", "a__b__c")] ∧
      s.attribution 0 "a__b__c" = some ("a__b", "n2") := by
  intro s
  have rows : s.credentials.map (fun row => (row.username, row.email)) = [("a", "a__b__c"),
      ("a__b", "a__b__c")] := by
    decide +kernel
  have billed : s.attribution 0 "a__b__c" = some ("a__b", "n2") := by decide +kernel
  refine ⟨fun identities => ?_, rows, billed⟩
  have known : s.credentials.find? (·.username == "a") = some
      { username := "a", nodeId := "n1", serverId := 0, inboundTag := some "b__c", protocol := "vless",
        email := "a__b__c",
        credential := .id "s1" "a__b__c" } := by decide +kernel
  obtain ⟨node, its⟩ := identities.billed _ (mem_of_find?_eq_some known)
  exact absurd (billed.symm.trans its) (by simp)

end OpenNode.RuntimeIdentities
