import OpenNode.EgressRoutes
import OpenNode.ManagedSniffing

namespace OpenNode.ManagedSniffing

open ServerEgress Edits List Option

variable {x : Canonical} {start config config' : SourceConfig}

variable {tag : String} {values : List String}

theorem readExclusions_ok :
    readExclusions config tag = .ok values ↔ ∃ inbounds inbound, config.inbounds = some inbounds ∧
      inbounds.filter (fun inbound => inbound.tag == some tag) = [inbound] ∧
        sniffingDomains inbound.sniffing = .ok values := by
  unfold readExclusions tagged only
  cases listed : config.inbounds with
  | none =>
    constructor
    · exact nofun
    · rintro ⟨_, _, ⟨⟩, _⟩
  | some inbounds =>
    have named : (matching SourceInbound.tag tag inbounds).map Prod.fst = _ := matching_fst inbounds
    dsimp only
    cases found : matching SourceInbound.tag tag inbounds with
    | nil =>
      rw [found, map_nil] at named
      constructor
      · exact nofun
      · rintro ⟨_, _, ⟨⟩, one, _⟩
        exact nomatch named.trans one
    | cons entry others =>
      rw [found] at named
      cases others with
      | nil =>
        constructor
        · exact fun read => ⟨inbounds, entry.1, rfl, named.symm, read⟩
        · rintro ⟨_, _, ⟨⟩, one, read⟩
          cases named.trans one
          exact read
      | cons other others =>
        constructor
        · exact nofun
        · rintro ⟨_, _, ⟨⟩, one, _⟩
          exact nomatch named.trans one

/-- The domains that are owned of the list of an inbound. -/
def owned (look : String → Option Entry) (tag : Option String) : List String :=
  ((tag.bind look).map Entry.ownedDomains).getD []

/-- The domains that an entry records for an outbound. -/
def needs (look : String → Option Entry) (inboundTag outboundTag : String) : Option (List String) :=
  (look inboundTag).bind fun entry => entry.references.lookup outboundTag

/-- An inbound as it was, with what is owned behind its list. -/
def Grown (look : String → Option Entry) (a b : SourceInbound) : Prop :=
  b.tag = a.tag ∧ sniffingDomains b.sniffing = (sniffingDomains a.sniffing).map (· ++ owned look a.tag)

/-- The entry of an inbound: what is owned was not in the operator's list, and what is needed
is in one of the two. -/
structure Sound (x : Canonical) (values : List String) (entry : Entry) : Prop where
  distinct : entry.ownedDomains.Nodup
  added : ∀ domain ∈ entry.ownedDomains, x.key domain = domain ∧ domain ≠ "" ∧ domain ∉ values.map x.key
  covered : ∀ reference ∈ entry.references, ∀ domain ∈ reference.2, x.key domain = domain ∧ domain ≠ "" ∧
    (domain ∈ values.map x.key ∨ domain ∈ entry.ownedDomains)

/-- The configuration with the entries that are looked up: the start with what is owned. -/
structure Returned (x : Canonical) (start config : SourceConfig) (look : String → Option Entry) : Prop where
  listed : config.inbounds.isSome = start.inbounds.isSome
  lists : List.Forall₂ (Grown look) (start.inbounds.getD []) (config.inbounds.getD [])
  sound : ∀ tag entry, look tag = some entry → ∃ values, readExclusions start tag = .ok values ∧
    Sound x values entry

variable {look look' : String → Option Entry}

theorem filter_grown {as bs : List SourceInbound} (grown : List.Forall₂ (Grown look) as bs) (tag : String) :
    List.Forall₂ (Grown look) (as.filter fun a => a.tag == some tag) (bs.filter fun b => b.tag == some tag) := by
  induction grown with
  | nil => exact .nil
  | cons one _ ih =>
    rw [filter_cons, filter_cons, one.1]
    split
    · exact .cons one ih
    · exact ih

theorem map_ok {α β : Type} {f : α → β} {result : Except String α} {b : β} :
    result.map f = .ok b ↔ ∃ a, result = .ok a ∧ b = f a := by
  cases result with
  | error _ => exact ⟨nofun, fun ⟨_, never, _⟩ => nomatch never⟩
  | ok a => exact ⟨fun same => ⟨a, rfl, (Except.ok.inj same).symm⟩, fun ⟨_, same,
      value⟩ => by cases same; rw [value]; rfl⟩

theorem Returned.read (returned : Returned x start config look) {tag : String} {values : List String} :
    readExclusions config tag = .ok values ↔
      ∃ operator, readExclusions start tag = .ok operator ∧ values = operator ++ owned look (some tag) := by
  obtain ⟨listed, lists, -⟩ := returned
  have tagOf {inbounds : List SourceInbound} {inbound : SourceInbound}
      (one : inbounds.filter (fun inbound => inbound.tag == some tag) = [inbound]) : inbound.tag = some tag := by
    have member : inbound ∈ inbounds.filter (fun inbound => inbound.tag == some tag) := one ▸ mem_singleton_self _
    exact eq_of_beq (List.mem_filter.mp member).2
  cases before : start.inbounds with
  | none =>
    rw [before, isSome_none, isSome_eq_false_iff, isNone_iff_eq_none] at listed
    constructor
    · intro read
      obtain ⟨_, _, here, _⟩ := readExclusions_ok.mp read
      exact nomatch listed.symm.trans here
    · rintro ⟨operator, read, -⟩
      obtain ⟨_, _, here, _⟩ := readExclusions_ok.mp read
      exact nomatch before.symm.trans here
  | some inbounds =>
    rw [before, isSome_some] at listed
    obtain ⟨inbounds', after⟩ := Option.isSome_iff_exists.mp listed
    rw [before, after] at lists
    have pairs := filter_grown lists tag
    dsimp only [getD_some] at pairs
    constructor
    · intro read
      obtain ⟨_, b, here, one, read⟩ := readExclusions_ok.mp read
      cases after.symm.trans here
      rw [one] at pairs
      obtain ⟨a, _, grown, rest, alone⟩ := List.forall₂_cons_right_iff.mp pairs
      cases rest
      rw [grown.2, map_ok, tagOf alone] at read
      obtain ⟨operator, own, same⟩ := read
      exact ⟨operator, readExclusions_ok.mpr ⟨inbounds, a, before, alone, own⟩, same⟩
    · rintro ⟨operator, read, same⟩
      obtain ⟨_, a, here, one, read⟩ := readExclusions_ok.mp read
      cases before.symm.trans here
      rw [one] at pairs
      obtain ⟨b, _, grown, rest, alone⟩ := List.forall₂_cons_left_iff.mp pairs
      cases rest
      refine readExclusions_ok.mpr ⟨inbounds', b, after, alone, ?_⟩
      rw [grown.2, map_ok, tagOf one]
      exact ⟨operator, read, same⟩

theorem sniffingDomains_texts (values : List String) :
    sniffingDomains (.value (.entries (values.map some))) = .ok values := by
  have texts : (values.map some).all Option.isSome = true := by simp
  rw [sniffingDomains, if_pos texts]
  rw [filterMap_map]
  exact congrArg Except.ok filterMap_some

theorem owned_congr {tag : Option String} (same : ∀ found, tag = some found → look' found = look found) :
    owned look' tag = owned look tag := by
  cases tag with
  | none => rfl
  | some found => simp only [owned, bind_some, same found rfl]

variable {entry : Entry}

theorem owned_some (here : look tag = some entry) : owned look (some tag) = entry.ownedDomains := by
  simp only [owned, bind_some, here, map_some, getD_some]

theorem Returned.write (returned : Returned x start config look) {operator : List String}
    (read : readExclusions start tag = .ok operator) (others : ∀ other, other ≠ tag → look' other = look other)
    (here : look' tag = some entry) (sound : Sound x operator entry) :
    Returned x start (writeExclusions tag (operator ++ entry.ownedDomains) config) look' := by
  obtain ⟨inbounds, inbound, before, alone, known⟩ := readExclusions_ok.mp read
  have single : ∀ a ∈ inbounds, a.tag = some tag → sniffingDomains a.sniffing = .ok operator := by
    intro a member own
    have selected : a ∈ inbounds.filter fun inbound => inbound.tag == some tag :=
      List.mem_filter.mpr ⟨member, beq_iff_eq.mpr own⟩
    rw [alone, mem_singleton] at selected
    exact selected ▸ known
  refine ⟨?_, ?_, fun other found known => ?_⟩
  · rw [← returned.listed, writeExclusions, isSome_map]
  · have lists := returned.lists
    rw [before] at lists ⊢
    have written : (writeExclusions tag (operator ++ entry.ownedDomains) config).inbounds.getD [] =
        (config.inbounds.getD []).map fun b =>
          if b.tag = some tag then { b with sniffing := .value (.entries
            ((operator ++ entry.ownedDomains).map some)) } else b := by
      rw [writeExclusions]
      cases config.inbounds <;> rfl
    rw [written, forall₂_map_right_iff]
    dsimp only [getD_some] at lists ⊢
    refine ((forall₂_and_left _ _).mpr ⟨single, lists⟩).imp ?_
    rintro a b ⟨known, same, grown⟩
    by_cases own : a.tag = some tag
    · rw [if_pos (same.trans own)]
      refine ⟨same, ?_⟩
      rw [sniffingDomains_texts, known own, own, owned_some here]
      rfl
    · rw [if_neg (same ▸ own)]
      refine ⟨same, grown.trans ?_⟩
      rw [owned_congr fun found named => others found fun equal => own (equal ▸ named)]
  · by_cases same : other = tag
    · subst same
      cases here.symm.trans known
      exact ⟨operator, read, sound⟩
    · exact returned.sound other found ((others other same) ▸ known)

theorem Returned.relabel (returned : Returned x start config look)
    (same : ∀ tag, owned look' (some tag) = owned look (some tag))
    (sound : ∀ tag entry, look' tag = some entry → ∃ values, readExclusions start tag = .ok values ∧
      Sound x values entry) :
    Returned x start config look' := by
  refine ⟨returned.listed, returned.lists.imp fun a b grown => ⟨grown.1, ?_⟩, sound⟩
  cases tag : a.tag with
  | none => rw [grown.2, tag]; rfl
  | some found => rw [grown.2, tag, same]

/-- Domains as the code writes them: their own keys, not blank, each once. -/
structure Canon (x : Canonical) (domains : List String) : Prop where
  distinct : domains.Nodup
  keys : ∀ domain ∈ domains, x.key domain = domain ∧ domain ≠ ""

theorem mem_domainKeys {domain : String} :
    domain ∈ domainKeys x values ↔ domain ≠ "" ∧ ∃ value ∈ values, x.key value = domain := by
  rw [domainKeys, mem_filter, List.mem_map, decide_eq_true_eq, and_comm]

theorem canonicalDomains_canon (values : List String) : Canon x (canonicalDomains x values) := by
  refine ⟨FirstCopies.nodup_add nodup_nil, fun domain member => ?_⟩
  rw [canonicalDomains, FirstCopies.mem_add, mem_domainKeys] at member
  obtain ⟨named, value, -, rfl⟩ := member.resolve_left not_mem_nil
  exact ⟨x.key_key value, named⟩

theorem canonicalDomains_same {domains : List String} (canon : Canon x domains) :
    canonicalDomains x domains = domains := by
  have keys : domainKeys x domains = domains := by
    have same : domains.map x.key = domains := by
      conv_rhs => rw [← map_id domains]
      exact map_congr_left fun domain member => (canon.keys domain member).1
    rw [domainKeys, same, filter_eq_self]
    exact fun domain member => decide_eq_true (canon.keys domain member).2
  rw [canonicalDomains, keys]
  exact FirstCopies.add_of_nodup canon.distinct

theorem Sound.canon (sound : Sound x values entry) : Canon x entry.ownedDomains :=
  ⟨sound.distinct, fun domain member => ⟨(sound.added domain member).1, (sound.added domain member).2.1⟩⟩

section Remove
variable {values : List String} {entry : Entry} {outboundTag : String} {other : List String}

theorem withoutReference_owned (outboundTag : String) (other : List String) (sound : Sound x values entry) :
    (withoutReference x outboundTag other entry).1.ownedDomains =
      entry.ownedDomains.filter (· ∉ (withoutReference x outboundTag other entry).2) := by
  rw [withoutReference, canonicalDomains_same sound.canon]

theorem removable_owned (sound : Sound x values entry) {domain : String}
    (removed : domain ∈ (withoutReference x outboundTag other entry).2) :
    domain ∈ entry.ownedDomains ∧ domain ∉ domainKeys x ((entry.references.filter fun reference =>
      reference.1 ≠ outboundTag).flatMap Prod.snd) := by
  rw [withoutReference, canonicalDomains_same sound.canon] at removed
  obtain ⟨owned, test⟩ := List.mem_filter.mp removed
  exact ⟨owned, (of_decide_eq_true test).1⟩

theorem withoutReference_sound (sound : Sound x values entry) :
    Sound x values (withoutReference x outboundTag other entry).1 := by
  have subset {domain : String} (member : domain ∈ (withoutReference x outboundTag other entry).1.ownedDomains) :
      domain ∈ entry.ownedDomains := by
    rw [withoutReference_owned _ _ sound] at member
    exact mem_of_mem_filter member
  refine ⟨?_, fun domain member => sound.added domain (subset member), fun reference member domain inside => ?_⟩
  · rw [withoutReference_owned _ _ sound]
    exact sound.distinct.filter _
  · have old : reference ∈ entry.references := mem_of_mem_filter member
    obtain ⟨key, named, covered⟩ := sound.covered reference old domain inside
    refine ⟨key, named, covered.imp_right fun own => ?_⟩
    rw [withoutReference_owned _ _ sound, mem_filter, decide_eq_true_eq]
    refine ⟨own, fun removed => (removable_owned sound removed).2 (mem_domainKeys.mpr ⟨named, domain, ?_, key⟩)⟩
    exact List.mem_flatMap.mpr ⟨reference, member, inside⟩

theorem filter_removable (outboundTag : String) (other : List String) (sound : Sound x values entry) :
    (values ++ entry.ownedDomains).filter (fun value =>
      x.key value ∉ (withoutReference x outboundTag other entry).2) =
      values ++ (withoutReference x outboundTag other entry).1.ownedDomains := by
  rw [filter_append, withoutReference_owned _ _ sound]
  congr 1
  · refine List.filter_eq_self.mpr fun value member => decide_eq_true fun removed => ?_
    exact (sound.added _ (removable_owned sound removed).1).2.2 (mem_map_of_mem member)
  · refine filter_congr fun domain member => ?_
    rw [(sound.added domain member).1]

variable {tag : String} {kept : Entry} {removable : List String}

theorem Returned.withoutReference (returned : Returned x start config look) (known : look tag = some entry)
    (split : withoutReference x outboundTag other entry = (kept, removable))
    (ok : withoutDomains x tag removable config = .ok config') :
    Returned x start config' (fun other => if other = tag then some kept else look other) ∧
      config'.outbounds = config.outbounds := by
  obtain ⟨operator, read, sound⟩ := returned.sound tag entry known
  have left : Sound x operator (ManagedSniffing.withoutReference x outboundTag other entry).1 :=
    withoutReference_sound sound
  have whole := withoutReference_owned outboundTag other sound
  have filtered := filter_removable outboundTag other sound
  rw [split] at left whole filtered
  unfold withoutDomains at ok
  split at ok
  · rename_i none
    cases ok
    refine ⟨returned.relabel (fun other => ?_) (fun other found here => ?_), rfl⟩
    · by_cases same : other = tag
      · subst same
        rw [owned_some (if_pos rfl), owned_some known, whole, none, filter_eq_self]
        exact fun _ _ => decide_eq_true not_mem_nil
      · exact owned_congr fun found named => by cases named; exact if_neg same
    · split at here
      · rename_i same
        cases here
        exact ⟨operator, same ▸ read, left⟩
      · exact returned.sound other found here
  · obtain ⟨values, reading, ok⟩ := bind_eq_ok ok
    cases ok
    obtain ⟨operator', read', rfl⟩ := returned.read.mp reading
    cases read.symm.trans read'
    rw [owned_some known, filtered]
    exact ⟨returned.write read (fun other differs => if_neg differs) (if_pos rfl) left, rfl⟩

theorem Returned.drop (returned : Returned x start config look) (bare : owned look (some tag) = []) :
    Returned x start config (fun other => if other = tag then none else look other) := by
  refine returned.relabel (fun other => ?_) fun other found here => ?_
  · by_cases same : other = tag
    · subst same
      rw [bare, owned, bind_some, if_pos rfl]
      rfl
    · exact owned_congr fun found named => by cases named; exact if_neg same
  · split at here
    · cases here
    · exact returned.sound other found here

theorem needs_withoutReference {outbound : String} (known : look tag = some entry)
    (split : withoutReference x outboundTag other entry = (kept, removable)) :
    kept.references.lookup outbound = if outbound = outboundTag then none else needs look tag outbound := by
  have references : kept.references = entry.references.filter fun reference =>
      decide (reference.1 ≠ outboundTag) := by
    have kept_eq : (ManagedSniffing.withoutReference x outboundTag other entry).1 = kept := congrArg Prod.fst split
    rw [← kept_eq, ManagedSniffing.withoutReference]
  rw [references, Assoc.lookup_filter fun key => decide (key ≠ outboundTag), needs, known, bind_some]
  by_cases same : outbound = outboundTag <;> simp [same]

theorem removeReferences_returned {rest rest' : State} (returned : Returned x start config look)
    (distinct : (rest.map Prod.fst).Nodup) (known : ∀ item ∈ rest, look item.1 = some item.2)
    (ok : removeReferences x outboundTag rest config = .ok (config', rest')) :
    ∃ look', Returned x start config' look' ∧ (∀ tag ∉ rest.map Prod.fst, look' tag = look tag) ∧
      (∀ tag ∈ rest.map Prod.fst, look' tag = rest'.lookup tag) ∧ (rest'.map Prod.fst).Sublist (rest.map Prod.fst) ∧
      (∀ tag ∈ rest.map Prod.fst, ∀ outbound, needs look' tag outbound =
        if outbound = outboundTag then none else needs look tag outbound) ∧
          config'.outbounds = config.outbounds := by
  induction rest generalizing config look rest' with
  | nil =>
    cases ok
    exact ⟨look, returned, fun _ _ => rfl, fun _ member => absurd member not_mem_nil, .slnil,
      fun _ member => absurd member not_mem_nil, rfl⟩
  | cons item rest ih =>
    obtain ⟨tag, entry⟩ := item
    obtain ⟨fresh, distinct⟩ := List.nodup_cons.mp distinct
    have here : look tag = some entry := known (tag, entry) mem_cons_self
    unfold removeReferences at ok
    obtain ⟨other, -, ok⟩ := bind_eq_ok ok
    cases split : withoutReference x outboundTag other entry with
    | mk kept removable =>
      rw [split] at ok
      dsimp only at ok
      obtain ⟨middle, written, ok⟩ := bind_eq_ok ok
      obtain ⟨⟨final, state⟩, later, ok⟩ := bind_eq_ok ok
      cases ok
      obtain ⟨first, outbounds⟩ := returned.withoutReference here split written
      have elsewhere {found : String} (member : found ∈ rest.map Prod.fst) : found ≠ tag :=
        fun same => fresh (same ▸ member)
      -- The entry that stays, if one does.
      let stays : Option Entry := if kept.references = [] ∧ kept.ownedDomains = [] then none else some kept
      have step : Returned x start middle (fun found => if found = tag then stays else look found) := by
        by_cases bare : kept.references = [] ∧ kept.ownedDomains = []
        · have dropped := first.drop ((owned_some (if_pos rfl)).trans bare.2)
          rw [show stays = none from if_pos bare]
          refine (funext fun found => ?_ : (fun found => if found = tag then none else look found) = _) ▸ dropped
          by_cases same : found = tag <;> simp [same]
        · rw [show stays = some kept from if_neg bare]
          exact first
      have needed (outbound : String) : (stays.bind fun entry => entry.references.lookup outbound) =
          if outbound = outboundTag then none else needs look tag outbound := by
        rw [← needs_withoutReference here split]
        by_cases bare : kept.references = [] ∧ kept.ownedDomains = []
        · rw [show stays = none from if_pos bare, bare.1]
          rfl
        · rw [show stays = some kept from if_neg bare]
          rfl
      obtain ⟨look', second, same, found, sub, needed', outbounds'⟩ := ih step distinct (fun item member => by
        rw [if_neg (elsewhere (mem_map_of_mem member))]
        exact known item (mem_cons_of_mem _ member)) later
      have own : look' tag = stays := (same tag fresh).trans (if_pos rfl)
      refine ⟨look', second, fun other outside => ?_, fun other inside => ?_, ?_, fun other inside outbound => ?_,
        outbounds'.trans outbounds⟩
      · rw [map_cons, mem_cons, not_or] at outside
        rw [same other outside.2, if_neg outside.1]
      · have absent : state.lookup tag = none := Assoc.lookup_eq_none fun named => fresh (sub.subset named)
        rcases List.mem_cons.mp inside with rfl | inside
        · rw [own]
          by_cases bare : kept.references = [] ∧ kept.ownedDomains = []
          · rw [if_pos bare, absent]
            exact if_pos bare
          · rw [if_neg bare, Assoc.lookup_cons_eq, if_pos rfl]
            exact if_neg bare
        · rw [found other inside]
          split
          · rfl
          · rw [Assoc.lookup_cons_eq, if_neg (elsewhere inside)]
      · split
        · exact sub.cons _
        · exact sub.cons_cons _
      · rcases List.mem_cons.mp inside with rfl | inside
        · rw [needs, own, needed]
        · rw [needed' other inside, needs, if_neg (elsewhere inside)]
          rfl

theorem removeReferences_clean {rest rest' : State}
    (alone : ∀ outbound ∈ config.outbounds.getD [], outbound.managed = true →
      outbound.tag = some outboundTag)
    (canon : ∀ item ∈ rest, Canon x item.2.ownedDomains ∧ ∀ reference ∈ item.2.references,
      reference.1 = outboundTag)
    (ok : removeReferences x outboundTag rest config = .ok (config', rest')) : rest' = [] := by
  induction rest generalizing config rest' with
  | nil =>
    cases ok
    rfl
  | cons item rest ih =>
    obtain ⟨tag, entry⟩ := item
    unfold removeReferences at ok
    obtain ⟨other, others, ok⟩ := bind_eq_ok ok
    have none_else : other = [] := by
      unfold otherManagedRealityDomains at others
      obtain ⟨outbounds, listed, others⟩ := bind_eq_ok others
      cases found : config.outbounds with
      | none =>
        rw [found] at listed
        cases listed
      | some all =>
        rw [found] at listed alone
        cases listed
        have nothing : (outbounds.filter fun outbound => outbound.tag ≠ some outboundTag &&
            outbound.managed) = [] := by
          refine List.filter_eq_nil_iff.mpr fun outbound member test => ?_
          rw [Bool.and_eq_true, decide_eq_true_eq] at test
          exact test.1 (alone outbound member test.2)
        rw [nothing] at others
        exact (Except.ok.inj others).symm
    subst none_else
    obtain ⟨canonical, only⟩ := canon (tag, entry) mem_cons_self
    have references : (entry.references.filter fun reference => decide (reference.1 ≠ outboundTag)) = [] :=
      List.filter_eq_nil_iff.mpr fun reference member test => of_decide_eq_true test (only reference member)
    have nothing : (withoutReference x outboundTag [] entry).1 = ⟨[], []⟩ := by
      unfold withoutReference
      dsimp only
      rw [references, canonicalDomains_same canonical]
      congr 1
      refine List.filter_eq_nil_iff.mpr fun domain member test => of_decide_eq_true test ?_
      exact List.mem_filter.mpr ⟨member, decide_eq_true ⟨not_mem_nil, not_mem_nil⟩⟩
    cases split : withoutReference x outboundTag [] entry with
    | mk kept removable =>
      rw [split] at ok nothing
      dsimp only at ok nothing
      obtain ⟨middle, written, ok⟩ := bind_eq_ok ok
      obtain ⟨⟨final, state⟩, later, ok⟩ := bind_eq_ok ok
      cases ok
      have outbounds : middle.outbounds = config.outbounds := by
        unfold withoutDomains at written
        split at written
        · rw [← Except.ok.inj written]
        · obtain ⟨values, -, written⟩ := bind_eq_ok written
          rw [← Except.ok.inj written]
          rfl
      rw [nothing, if_pos ⟨rfl, rfl⟩]
      exact ih (outbounds ▸ alone) (fun item member => canon item (mem_cons_of_mem _ member)) later

end Remove

section Add
variable {values : List String} {entry : Entry} {outboundTag tag : String} {normalized : List String}
  {state state' : State}

theorem addDomains_eq (canon : Canon x normalized) (excluded owned : List String) :
    addDomains x normalized excluded owned =
      (excluded ++ normalized.filter (· ∉ excluded.map x.key),
        owned ++ normalized.filter (· ∉ excluded.map x.key)) := by
  obtain ⟨distinct, keys⟩ := canon
  unfold addDomains
  induction normalized generalizing excluded owned with
  | nil => simp
  | cons domain rest ih =>
    obtain ⟨fresh, distinct⟩ := List.nodup_cons.mp distinct
    have keys_rest := fun other member => keys other (mem_cons_of_mem domain member)
    rw [foldl_cons, filter_cons]
    by_cases known : domain ∈ excluded.map x.key
    · rw [if_pos known, if_neg (by simpa using known)]
      exact ih excluded owned distinct keys_rest
    · rw [if_neg known, if_pos (decide_eq_true known)]
      have rest_same : (rest.filter fun other => decide (other ∉ (excluded ++ [domain]).map x.key)) =
          rest.filter fun other => decide (other ∉ excluded.map x.key) := by
        refine filter_congr fun other member => ?_
        have differs : other ≠ domain := fun same => fresh (same ▸ member)
        rw [map_append, map_singleton, (keys domain mem_cons_self).1]
        simp [differs]
      rw [ih _ _ distinct keys_rest, rest_same, append_assoc, append_assoc]
      rfl

theorem addReference_sound (outboundTag : String) (sound : Sound x values entry) (canon : Canon x normalized) :
    Sound x values ⟨(entry.ownedDomains ++
      normalized.filter (· ∉ (values ++ entry.ownedDomains).map x.key)).eraseDups,
      Assoc.put outboundTag normalized entry.references⟩ ∧
    (entry.ownedDomains ++ normalized.filter (· ∉ (values ++ entry.ownedDomains).map x.key)).eraseDups =
      entry.ownedDomains ++ normalized.filter (· ∉ (values ++ entry.ownedDomains).map x.key) := by
  have apart {domain : String} (new : domain ∈ normalized.filter (· ∉ (values ++ entry.ownedDomains).map x.key)) :
      domain ∈ normalized ∧ domain ∉ values.map x.key ∧ domain ∉ entry.ownedDomains := by
    obtain ⟨member, test⟩ := List.mem_filter.mp new
    have outside := of_decide_eq_true test
    rw [map_append, mem_append, not_or] at outside
    refine ⟨member, outside.1, fun own => outside.2 (List.mem_map.mpr ⟨domain, own, (sound.added domain own).1⟩)⟩
  have distinct : (entry.ownedDomains ++ normalized.filter (· ∉ (values ++ entry.ownedDomains).map x.key)).Nodup :=
    sound.distinct.append (canon.distinct.filter _) fun domain old new => (apart new).2.2 old
  rw [FirstCopies.eraseDups_of_nodup distinct]
  refine ⟨⟨distinct, fun domain member => ?_, fun reference member domain inside => ?_⟩, rfl⟩
  · rcases List.mem_append.mp member with old | new
    · exact sound.added domain old
    · obtain ⟨listed, outside, -⟩ := apart new
      exact ⟨(canon.keys domain listed).1, (canon.keys domain listed).2, outside⟩
  · rcases Assoc.mem_put_cases member with rfl | old
    · refine ⟨(canon.keys domain inside).1, (canon.keys domain inside).2, ?_⟩
      by_cases known : domain ∈ (values ++ entry.ownedDomains).map x.key
      · rw [map_append, mem_append] at known
        refine known.imp_right fun owned => mem_append_left _ ?_
        obtain ⟨other, own, key⟩ := List.mem_map.mp owned
        rw [← key, (sound.added other own).1]
        exact own
      · exact .inr (mem_append_right _ (List.mem_filter.mpr ⟨inside, decide_eq_true known⟩))
    · obtain ⟨key, named, covered⟩ := sound.covered reference old domain inside
      exact ⟨key, named, covered.imp_right (mem_append_left _)⟩

theorem addReference_returned (returned : Returned x start config (entryOf state))
    (distinct : (state.map Prod.fst).Nodup)
    (canon : Canon x normalized)
    (ok : addReference x outboundTag normalized (config, state) tag = .ok (config', state')) :
    Returned x start config' (entryOf state') ∧ (state'.map Prod.fst).Nodup ∧
      ∀ inbound outbound, needs (entryOf state') inbound outbound =
        if inbound = tag ∧ outbound = outboundTag then some normalized
          else needs (entryOf state) inbound outbound := by
  unfold addReference at ok
  obtain ⟨values, reading, ok⟩ := bind_eq_ok ok
  obtain ⟨operator, read, rfl⟩ := returned.read.mp reading
  have entry_sound : Sound x operator ((entryOf state tag).getD ⟨[], []⟩) := by
    cases known : entryOf state tag with
    | none => exact ⟨nodup_nil, fun _ member => absurd member not_mem_nil, fun _ member =>
        absurd member not_mem_nil⟩
    | some entry =>
      obtain ⟨operator', read', sound⟩ := returned.sound tag entry known
      cases read.symm.trans read'
      exact sound
  have same_owned : owned (entryOf state) (some tag) = ((entryOf state tag).getD ⟨[], []⟩).ownedDomains := by
    cases known : entryOf state tag with
    | none => simp only [owned, bind_some, known]; rfl
    | some entry => exact owned_some known
  dsimp only at ok
  rw [same_owned, canonicalDomains_same entry_sound.canon, addDomains_eq canon] at ok
  obtain ⟨sound, whole⟩ := addReference_sound outboundTag entry_sound canon
  cases ok
  refine ⟨?_, Assoc.put_nodup distinct _ _, fun inbound outbound => ?_⟩
  · have lists : operator ++ ((entryOf state tag).getD ⟨[], []⟩).ownedDomains ++
        normalized.filter (· ∉ (operator ++ ((entryOf state tag).getD ⟨[], []⟩).ownedDomains).map x.key) =
          operator ++ _ :=
      (append_assoc _ _ _).trans (congrArg (operator ++ ·) whole.symm)
    rw [lists]
    exact returned.write read (fun other differs =>
      Assoc.lookup_put_other differs _ state) (Assoc.lookup_put_self tag _ state) sound
  · by_cases own : inbound = tag
    · subst own
      rw [needs, entryOf, Assoc.lookup_put_self, bind_some, Assoc.lookup_put]
      by_cases same : outbound = outboundTag
      · rw [if_pos same, if_pos ⟨rfl, same⟩]
      · rw [if_neg same, if_neg fun both => same both.2, needs]
        cases entryOf state inbound <;> rfl
    · rw [if_neg fun both => own both.1, needs, entryOf, Assoc.lookup_put_other own, needs, entryOf]

end Add

section Calls
variable {outboundTag : String} {state : State}

/-- A configuration with its state, of which the needs are known. -/
structure Holds (x : Canonical) (start config : SourceConfig) (state : State)
    (need : String → String → Option (List String)) : Prop where
  read : managedSniState config = .ok state
  distinct : (state.map Prod.fst).Nodup
  returned : Returned x start config (entryOf state)
  needs : ∀ inbound outbound, needs (entryOf state) inbound outbound = need inbound outbound

variable {need : String → String → Option (List String)}

theorem removeManagedSniffingReference_holds (holds : Holds x start config state need)
    (ok : removeManagedSniffingReference x outboundTag config = .ok config') :
    ∃ state', Holds x start config' state' (fun inbound outbound =>
      if outbound = outboundTag then none else need inbound outbound) ∧
      ((∀ outbound ∈ config.outbounds.getD [], outbound.managed = true → outbound.tag = some outboundTag) →
        (∀ inbound outbound, outbound ≠ outboundTag → need inbound outbound = none) → config'.state = .absent) := by
  obtain ⟨read, distinct, returned, need_eq⟩ := holds
  unfold removeManagedSniffingReference at ok
  rw [bind_ok read] at ok
  obtain ⟨⟨final, state'⟩, removed, ok⟩ := bind_eq_ok ok
  cases ok
  have known : ∀ item ∈ state, entryOf state item.1 = some item.2 :=
    fun item member => Assoc.lookup_of_mem distinct member
  obtain ⟨look', kept, off, on, sub, needed, -⟩ := removeReferences_returned returned distinct known removed
  have same : look' = entryOf state' := by
    funext tag
    by_cases listed : tag ∈ state.map Prod.fst
    · exact on tag listed
    · rw [off tag listed, entryOf, entryOf, Assoc.lookup_eq_none listed, Assoc.lookup_eq_none fun named =>
        listed (sub.subset named)]
  subst same
  refine ⟨state', ⟨?_, distinct.sublist sub, ⟨kept.listed, kept.lists, kept.sound⟩, fun inbound outbound => ?_⟩,
    fun alone gone => ?_⟩
  · unfold managedSniState
    dsimp only
    split
    · rename_i empty
      split at empty
      · rw [‹state' = []›]
      · cases empty
    · rename_i invalid
      split at invalid <;> cases invalid
    · rename_i value
      split at value
      · cases value
      · cases value
        rfl
  · rw [← need_eq]
    by_cases listed : inbound ∈ state.map Prod.fst
    · exact needed inbound listed outbound
    · have absent : entryOf state inbound = none := Assoc.lookup_eq_none listed
      rw [ManagedSniffing.needs, ManagedSniffing.needs, off inbound listed, absent]
      exact (ite_self none).symm
  · have empty : state' = [] := by
      refine removeReferences_clean alone (fun item member => ?_) removed
      obtain ⟨operator, -, sound⟩ := returned.sound item.1 item.2 (known item member)
      refine ⟨sound.canon, fun reference inside => ?_⟩
      by_contra differs
      have none_needed := (need_eq item.1 reference.1).trans (gone item.1 reference.1 differs)
      rw [needs, known item member, bind_some, lookup_eq_none_iff] at none_needed
      exact absurd rfl (bne_iff_ne.mp (none_needed reference inside))
    rw [if_pos empty]

theorem addReferences_holds {normalized inboundTags : List String} (canon : Canon x normalized) {state' : State}
    (returned : Returned x start config (entryOf state)) (distinct : (state.map Prod.fst).Nodup)
    (ok : inboundTags.foldlM (addReference x outboundTag normalized) (config, state) = .ok (config', state')) :
    Returned x start config' (entryOf state') ∧ (state'.map Prod.fst).Nodup ∧
      ∀ inbound outbound, needs (entryOf state') inbound outbound =
        if inbound ∈ inboundTags ∧ outbound = outboundTag then some normalized
          else needs (entryOf state) inbound outbound := by
  induction inboundTags generalizing config state with
  | nil =>
    cases ok
    exact ⟨returned, distinct, fun inbound outbound => (if_neg fun both => not_mem_nil both.1).symm⟩
  | cons tag rest ih =>
    rw [foldlM_cons] at ok
    obtain ⟨⟨middle, between⟩, one, ok⟩ := bind_eq_ok ok
    obtain ⟨returned, distinct, first⟩ := addReference_returned returned distinct canon one
    obtain ⟨returned, distinct, later⟩ := ih returned distinct ok
    refine ⟨returned, distinct, fun inbound outbound => ?_⟩
    rw [later, first]
    by_cases same : outbound = outboundTag <;> by_cases here : inbound = tag <;> simp [same, here]

theorem Returned.setRouting (returned : Returned x start config look) (outbounds : Option (List SourceOutbound))
    (routing : ServerEgress.Field Routing) :
    Returned x start { config with outbounds := outbounds, routing := routing } look :=
  ⟨returned.listed, returned.lists, returned.sound⟩

/-- The needs after a call. -/
def needAfter (x : Canonical) (call : Call) (need : String → String → Option (List String))
    (inbound outbound : String) :
    Option (List String) :=
  if outbound = call.tag then
    if canonicalDomains x call.domains ≠ [] ∧
      inbound ∈ call.inboundTags then some (canonicalDomains x call.domains) else none
  else need inbound outbound

theorem Call.apply_holds {call : Call} (holds : Holds x start config state need)
    (ok : call.apply x config = .ok config') :
    ∃ state', Holds x start config' state' (needAfter x call need) ∧
      ((∀ outbound ∈ call.outbounds.getD [], outbound.managed = true → outbound.tag = some call.tag) →
        (∀ inbound outbound, needAfter x call need inbound outbound = none) → config'.state = .absent) := by
  unfold Call.apply applyManagedSniffing at ok
  obtain ⟨removed, first, ok⟩ := bind_eq_ok ok
  have before : Holds x start { config with outbounds := call.outbounds, routing := call.routing } state need :=
    ⟨holds.read, holds.distinct, holds.returned.setRouting call.outbounds call.routing, holds.needs⟩
  obtain ⟨state', removed_holds, clean⟩ := removeManagedSniffingReference_holds before first
  dsimp only at ok
  split at ok
  · rename_i nothing
    cases ok
    have same : needAfter x call need = fun inbound outbound => if outbound = call.tag then none
        else need inbound outbound := by
      funext inbound outbound
      unfold needAfter
      split
      · refine if_neg fun both => ?_
        rcases nothing with none | none
        · exact both.1 none
        · exact not_mem_nil (none ▸ both.2)
      · rfl
    rw [same]
    refine ⟨state', removed_holds, fun alone gone => clean alone fun inbound outbound differs => ?_⟩
    exact (if_neg differs).symm.trans (gone inbound outbound)
  · rename_i something
    rw [not_or] at something
    rw [bind_ok removed_holds.read] at ok
    obtain ⟨⟨final, last⟩, added, ok⟩ := bind_eq_ok ok
    cases ok
    obtain ⟨returned, distinct, needed⟩ :=
      addReferences_holds (canonicalDomains_canon call.domains) removed_holds.returned removed_holds.distinct added
    have same : ∀ inbound outbound, ManagedSniffing.needs (entryOf last) inbound outbound =
        needAfter x call need inbound outbound := by
      intro inbound outbound
      rw [needed, removed_holds.needs, needAfter]
      by_cases own : outbound = call.tag <;> simp [own, something.1]
    refine ⟨last, ⟨rfl, distinct, ⟨returned.listed, returned.lists, returned.sound⟩, same⟩, fun alone gone => ?_⟩
    obtain ⟨inbound, rest, tags⟩ := exists_cons_of_ne_nil something.2
    have none_needed := gone inbound call.tag
    rw [needAfter, if_pos rfl, if_pos ⟨something.1, tags ▸ mem_cons_self⟩] at none_needed
    cases none_needed

theorem lastCall_snoc (calls : List Call) (call : Call) (tag : String) :
    lastCall (calls ++ [call]) tag = if call.tag = tag then some call else lastCall calls tag := by
  rw [lastCall, reverse_append, reverse_singleton, singleton_append, List.find?_cons]
  by_cases same : call.tag = tag
  · rw [if_pos same, decide_eq_true same]
  · rw [if_neg same, decide_eq_false same]
    rfl

theorem needed_snoc (calls : List Call) (call : Call) :
    needed x (calls ++ [call]) = needAfter x call (needed x calls) := by
  funext inbound outbound
  rw [needed, lastCall_snoc, needAfter]
  by_cases same : call.tag = outbound
  · rw [if_pos same, if_pos same.symm]
    rfl
  · rw [if_neg same, if_neg fun equal => same equal.symm]
    rfl

/-- Every egress has been removed: the last call for each names nothing, and no managed
outbound is left but that of the last call. -/
def AllRemoved (x : Canonical) (calls : List Call) : Prop :=
  (∀ inbound outbound, needed x calls inbound outbound = none) ∧
    ∀ past call, calls = past ++ [call] → ∀ outbound ∈ call.outbounds.getD [], outbound.managed = true →
      outbound.tag = some call.tag

theorem after_holds (clean : start.state = .absent) (calls : List Call) :
    ∃ state, Holds x start (after x start calls).1 state (needed x (after x start calls).2) ∧
      (AllRemoved x (after x start calls).2 → (after x start calls).1.state = .absent) := by
  unfold after
  refine calls.foldlRecOn (motive := fun run => ∃ state, Holds x start run.1 state (needed x run.2) ∧
    (AllRemoved x run.2 → run.1.state = .absent)) (perform x) ?_ ?_
  · refine ⟨[], ⟨by rw [managedSniState, clean], nodup_nil, ⟨rfl, ?_, nofun⟩, fun _ _ => rfl⟩, fun _ => clean⟩
    refine List.forall₂_same.mpr fun inbound _ => ⟨rfl, ?_⟩
    have bare : owned (entryOf []) inbound.tag = [] := by
      cases inbound.tag <;> rfl
    rw [bare]
    cases sniffingDomains inbound.sniffing with
    | error _ => rfl
    | ok values => exact congrArg Except.ok (append_nil values).symm
  · rintro run ⟨state, holds, clean⟩ call -
    unfold perform
    cases ok : call.apply x run.1 with
    | error _ => exact ⟨state, holds, clean⟩
    | ok config =>
      obtain ⟨state', holds', gone⟩ := Call.apply_holds holds ok
      dsimp only
      rw [needed_snoc]
      refine ⟨state', holds', fun removed => gone (removed.2 run.2 call rfl) fun inbound outbound => ?_⟩
      rw [← needed_snoc]
      exact removed.1 inbound outbound

end Calls

/-- After every sequence of calls on a configuration without egress state: a list is the
operator's with what is owned behind it; what is owned are the keys that were added, each once
and none of them the operator's; what the last call for an outbound named is in the list of
each of its inbounds; and once every egress is removed the lists are the operator's again and
the state is gone. -/
theorem managedSniffing_law (x : Canonical) (start : SourceConfig) (clean : start.state = .absent)
    (calls : List Call) :
    ∃ state, managedSniState (after x start calls).1 = .ok state ∧
      List.Forall₂ (Grown (entryOf state)) (start.inbounds.getD []) ((after x start calls).1.inbounds.getD []) ∧
      (∀ tag entry, entryOf state tag = some entry → ∃ operator, readExclusions start tag = .ok operator ∧
        entry.ownedDomains.Nodup ∧ ∀ domain ∈ entry.ownedDomains, x.key domain = domain ∧
          domain ∉ operator.map x.key) ∧
      (∀ call outbound, lastCall (after x start calls).2 outbound = some call → ∀ tag ∈ call.inboundTags,
        ∀ domain ∈ canonicalDomains x call.domains, ∃ values,
          readExclusions (after x start calls).1 tag = .ok values ∧ domain ∈ values.map x.key) ∧
      (AllRemoved x (after x start calls).2 → (after x start calls).1.state = .absent ∧
        List.Forall₂ (fun a b => b.tag = a.tag ∧ sniffingDomains b.sniffing = sniffingDomains a.sniffing)
          (start.inbounds.getD []) ((after x start calls).1.inbounds.getD [])) := by
  obtain ⟨state, holds, gone⟩ := after_holds (x := x) clean calls
  refine ⟨state, holds.read, holds.returned.lists, fun tag entry known => ?_,
    fun call outbound last tag listed domain member => ?_,
    fun removed => ⟨gone removed, ?_⟩⟩
  · obtain ⟨operator, read, sound⟩ := holds.returned.sound tag entry known
    exact ⟨operator, read, sound.distinct, fun domain member =>
      ⟨(sound.added domain member).1, (sound.added domain member).2.2⟩⟩
  · have need := holds.needs tag outbound
    have named : canonicalDomains x call.domains ≠ [] := ne_nil_of_mem member
    rw [needed, last, bind_some, if_pos ⟨named, listed⟩] at need
    obtain ⟨entry, known, recorded⟩ := Option.bind_eq_some_iff.mp need
    obtain ⟨operator, read, sound⟩ := holds.returned.sound tag entry known
    refine ⟨_, holds.returned.read.mpr ⟨operator, read, rfl⟩, ?_⟩
    obtain ⟨front, back, references, -⟩ := List.lookup_eq_some_iff.mp recorded
    obtain ⟨key, -, covered⟩ :=
      sound.covered (outbound, _) (references ▸ mem_append_right _ mem_cons_self) domain member
    rw [owned_some known, map_append, mem_append]
    exact covered.imp_right fun own => List.mem_map.mpr ⟨domain, own, key⟩
  · have empty : state = [] := by
      have read := holds.read
      rw [managedSniState, gone removed] at read
      exact (Except.ok.inj read).symm
    refine holds.returned.lists.imp fun a b grown => ⟨grown.1, grown.2.trans ?_⟩
    have bare : owned (entryOf state) a.tag = [] := by
      rw [empty]
      cases a.tag <;> rfl
    rw [bare]
    cases sniffingDomains a.sniffing with
    | error _ => rfl
    | ok values => exact congrArg Except.ok (append_nil values)

def plainKeys : Canonical := ⟨id, fun _ => rfl⟩

def oneInbound : SourceConfig where
  inbounds := some [⟨some "source", .value (.entries [some "manual.example"])⟩]
  outbounds := some []
  routing := .absent
  state := .absent

def creation : Call where
  outbounds := some [⟨some "managed-egress:first", .null⟩]
  routing := .absent
  tag := "managed-egress:first"
  domains := ["manual.example", "shared.example"]
  inboundTags := ["source"]

/-- A created egress finds its domain in the list of its inbound. -/
theorem managedSniffing_law_creation : ∃ values,
    readExclusions (after plainKeys oneInbound [creation]).1 "source" = .ok values ∧
      "shared.example" ∈ values.map plainKeys.key := by
  obtain ⟨state, -, -, -, contains, -⟩ := managedSniffing_law plainKeys oneInbound rfl [creation]
  exact contains creation "managed-egress:first" rfl "source" mem_cons_self "shared.example" (by decide)

end OpenNode.ManagedSniffing
