import OpenNode.ConfigEdits

namespace OpenNode.RecoveryMerge

open Agent Assoc List

section Merge

variable (strip : String → String)

def textValue : Json → Option String
  | .str text => if strip text = "" then none else some (strip text)
  | _ => none

/-- The tag of an item that is an object. -/
def tagOf (item : Json) : Option String :=
  if item.isObj then textValue strip (item.get "tag") else none

/-- The state of the loop over the Agent's items. -/
structure Merging where
  items : List Json
  tags : List String
  added : Nat

/-- A turn of the loop. -/
def Merging.turn (m : Merging) (item : Json) : Merging :=
  match tagOf strip item with
  | none => m
  | some tag =>
    if tag ∈ m.tags then m
    else { items := m.items ++ [item], tags := tag :: m.tags, added := m.added + 1 }

/-- The items of a list of the base; a missing one is empty. -/
def baseItems : Json → Option (List Json)
  | .null => some []
  | .arr items => some items
  | _ => none

def valueAt (key : String) (config : Fields) : Json := (config.lookup key).getD .null

/-- A list of the base with the items that only the Agent has. -/
def mergeList (key : String) (agent : Fields) (base : Fields × Nat) : Fields × Nat :=
  match baseItems (valueAt key base.1), valueAt key agent with
  | some items, .arr offered =>
    let merged := offered.foldl (Merging.turn strip) ⟨items, items.filterMap (tagOf strip), base.2⟩
    (put key (.arr merged.items) base.1, merged.added)
  | _, _ => base

/-- The body of `merge_agent_only_inbounds_outbounds`. -/
def mergeConfigs (base agent : Fields) : Fields × Nat :=
  mergeList strip "outbounds" agent (mergeList strip "inbounds" agent (base, 0))

variable (loads : String → Option Json) (dumps : Json → String)

/-- `merge_agent_only_inbounds_outbounds`. -/
def mergeAgentOnly (baseConfig agentConfig : String) : String × Nat × List String :=
  match loads baseConfig, loads agentConfig with
  | some (.obj base), some (.obj agent) =>
    let merged := mergeConfigs strip base agent
    if merged.2 = 0 then (baseConfig, 0, []) else (dumps (.obj merged.1), merged.2, [])
  | some _, some _ => (baseConfig, 0, ["agent_only_merge_skipped_invalid_shape"])
  | _, _ => (baseConfig, 0, ["agent_only_merge_skipped_invalid_json"])

end Merge

section Lists

variable {strip : String → String} {items offered : List Json}

/-- The items that are appended: of those with a tag that the base does not have, the first of each tag. -/
structure Appended (strip : String → String) (items offered appended : List Json) : Prop where
  sublist : appended.Sublist offered
  fresh : ∀ item ∈ appended, ∃ tag, tagOf strip item = some tag ∧ tag ∉ items.filterMap (tagOf strip) ∧
    offered.find? (fun other => tagOf strip other == some tag) = some item
  distinct : (appended.map (tagOf strip)).Nodup
  complete : ∀ item ∈ offered, ∀ tag, tagOf strip item = some tag →
    tag ∈ items.filterMap (tagOf strip) ∨ ∃ other ∈ appended, tagOf strip other = some tag

/-- The loop after some items. -/
structure Merging.Holds (strip : String → String) (items offered : List Json) (start : Nat) (appended : List Json)
    (m : Merging) :
    Prop where
  items_eq : m.items = items ++ appended
  added_eq : m.added = start + appended.length
  tags_iff : ∀ tag, tag ∈ m.tags ↔ tag ∈ items.filterMap (tagOf strip) ∨ ∃ other ∈ appended,
    tagOf strip other = some tag
  appended : Appended strip items offered appended

variable {tag : String}

theorem find?_none_of_fresh (absent : ∀ other ∈ offered, tagOf strip other ≠ some tag) :
    offered.find? (fun other => tagOf strip other == some tag) = none := by
  rw [List.find?_eq_none]
  exact fun other member => by simpa using absent other member

variable {appended : List Json} {item : Json}

theorem Appended.extend (holds : Appended strip items offered appended) (named : tagOf strip item = some tag)
    (unknown : tag ∉ items.filterMap (tagOf strip)) (new : ∀ other ∈ appended, tagOf strip other ≠ some tag) :
    Appended strip items (offered ++ [item]) (appended ++ [item]) where
  sublist := holds.sublist.append (List.Sublist.refl _)
  fresh := by
    intro other member
    rcases List.mem_append.mp member with before | last
    · obtain ⟨own, ownTag, absent, first⟩ := holds.fresh other before
      exact ⟨own, ownTag, absent, by rw [List.find?_append, first]; rfl⟩
    · obtain rfl := List.mem_singleton.mp last
      refine ⟨tag, named, unknown, ?_⟩
      have earlier : ∀ other ∈ offered, tagOf strip other ≠ some tag := by
        intro other member same
        rcases holds.complete other member tag same with known | ⟨there, inside, sameTag⟩
        · exact unknown known
        · exact new there inside sameTag
      rw [List.find?_append, find?_none_of_fresh earlier]
      simp [named]
  distinct := by
    rw [map_append, nodup_append]
    refine ⟨holds.distinct, nodup_singleton _, fun a before b last => ?_⟩
    obtain ⟨other, member, rfl⟩ := List.mem_map.mp before
    rw [map_singleton, mem_singleton, named] at last
    rw [last]
    exact new other member
  complete := by
    intro other member own ownTag
    rcases List.mem_append.mp member with before | last
    · exact (holds.complete other before own ownTag).imp_right fun ⟨there, inside, same⟩ =>
        ⟨there, mem_append_left _ inside, same⟩
    · obtain rfl := List.mem_singleton.mp last
      exact .inr ⟨other, by simp, ownTag⟩

theorem Appended.skip (holds : Appended strip items offered appended)
    (covered : ∀ tag, tagOf strip item = some tag → tag ∈ items.filterMap (tagOf strip) ∨ ∃ other ∈ appended,
      tagOf strip other = some tag) :
    Appended strip items (offered ++ [item]) appended where
  sublist := holds.sublist.trans (sublist_append_left _ _)
  fresh := by
    intro other member
    obtain ⟨own, ownTag, absent, first⟩ := holds.fresh other member
    exact ⟨own, ownTag, absent, by rw [List.find?_append, first]; rfl⟩
  distinct := holds.distinct
  complete := by
    intro other member own ownTag
    rcases List.mem_append.mp member with before | last
    · exact holds.complete other before own ownTag
    · obtain rfl := List.mem_singleton.mp last
      exact covered own ownTag

theorem merging_holds (strip : String → String) (items offered : List Json) (start : Nat) :
    ∃ appended, Merging.Holds strip items offered start appended
      (offered.foldl (Merging.turn strip) ⟨items, items.filterMap (tagOf strip), start⟩) := by
  induction offered using List.reverseRecOn with
  | nil => exact ⟨[], by simp, rfl, by simp, ⟨.slnil, nofun, nodup_nil, nofun⟩⟩
  | append_singleton offered item ih =>
    obtain ⟨appended, holds⟩ := ih
    rw [foldl_append, foldl_cons, foldl_nil]
    generalize offered.foldl (Merging.turn strip) ⟨items, items.filterMap (tagOf strip), start⟩ = m at holds
    unfold Merging.turn
    cases named : tagOf strip item with
    | none => exact ⟨appended, holds.items_eq, holds.added_eq, holds.tags_iff,
        holds.appended.skip fun tag same => by simp [named] at same⟩
    | some tag =>
      dsimp only
      by_cases known : tag ∈ m.tags
      · rw [if_pos known]
        refine ⟨appended, holds.items_eq, holds.added_eq, holds.tags_iff, holds.appended.skip fun other same => ?_⟩
        cases named.symm.trans same
        exact (holds.tags_iff tag).mp known
      · rw [if_neg known]
        have apart := not_or.mp fun covered => known ((holds.tags_iff tag).mpr covered)
        refine ⟨appended ++ [item], ?_, ?_, fun other => ?_,
          holds.appended.extend named apart.1 fun there inside same =>
          apart.2 ⟨there, inside, same⟩⟩
        · rw [holds.items_eq, append_assoc]
        · simp [holds.added_eq, Nat.add_assoc]
        · rw [mem_cons, holds.tags_iff]
          constructor
          · rintro (rfl | before | ⟨there, inside, same⟩)
            · exact .inr ⟨item, by simp, named⟩
            · exact .inl before
            · exact .inr ⟨there, mem_append_left _ inside, same⟩
          · rintro (before | ⟨there, inside, same⟩)
            · exact .inr (.inl before)
            · rcases List.mem_append.mp inside with old | new
              · exact .inr (.inr ⟨there, old, same⟩)
              · rw [List.mem_singleton.mp new] at same
                exact .inl (Option.some.inj (same.symm.trans named))

theorem Appended.eq_nil (holds : Appended strip items offered appended)
    (known : ∀ item ∈ offered, ∀ tag, tagOf strip item = some tag → tag ∈ items.filterMap (tagOf strip)) :
    appended = [] := by
  cases appended with
  | nil => rfl
  | cons item rest =>
    obtain ⟨tag, named, unknown, first⟩ := holds.fresh item mem_cons_self
    exact absurd (known item (mem_of_find?_eq_some first) tag named) unknown

end Lists

section Configs

variable {strip : String → String} {key : String} {base agent : Fields}

/-- A list of the base after the merge: the items are appended, where the base has a list or none and
the Agent has one;
else it is as it was. -/
structure ListMerged (strip : String → String) (key : String) (base agent after : Fields)
    (appended : List Json) : Prop where
  taken : ∀ items offered, baseItems (valueAt key base) = some items → valueAt key agent = .arr offered →
    after.lookup key = some (.arr (items ++ appended)) ∧ Appended strip items offered appended
  left : (baseItems (valueAt key base) = none ∨ ∀ offered, valueAt key agent ≠ .arr offered) →
    after.lookup key = base.lookup key ∧ appended = []

theorem mergeList_merged (strip : String → String) (key : String) (base agent : Fields) (start : Nat) :
    ∃ appended, ListMerged strip key base agent (mergeList strip key agent (base, start)).1 appended ∧
      (mergeList strip key agent (base, start)).2 = start + appended.length := by
  unfold mergeList
  split
  · rename_i items offered own given
    obtain ⟨appended, holds⟩ := merging_holds strip items offered start
    refine ⟨appended, ⟨fun items' offered' own' given' => ?_, fun none => ?_⟩, holds.added_eq⟩
    · cases own.symm.trans own'
      cases given.symm.trans given'
      exact ⟨by rw [lookup_put_self, holds.items_eq], holds.appended⟩
    · rcases none with none | none
      · nomatch own.symm.trans none
      · exact absurd given (none offered)
  · rename_i other
    exact ⟨[], ⟨fun items offered own given => absurd given (other items offered own), fun _ => ⟨rfl, rfl⟩⟩, rfl⟩

theorem mergeList_other {other : String} (differs : other ≠ key) (start : Nat) :
    (mergeList strip key agent (base, start)).1.lookup other = base.lookup other := by
  unfold mergeList
  split
  · exact lookup_put_other differs _ _
  · rfl

variable {appended : List Json}

theorem ListMerged.congr {before after before' after' : Fields}
    (merged : ListMerged strip key before agent after appended) (same : before'.lookup key = before.lookup key)
    (same' : after'.lookup key = after.lookup key) : ListMerged strip key before' agent after' appended := by
  have value : valueAt key before' = valueAt key before := by rw [valueAt, valueAt, same]
  constructor
  · rw [value, same']
    exact merged.taken
  · rw [value, same, same']
    exact merged.left

/-- A configuration after the merge, with the number of items that are appended. -/
structure ConfigMerged (strip : String → String) (base agent after : Fields) (added : Nat) : Prop where
  lists : ∃ inbounds outbounds, ListMerged strip "inbounds" base agent after inbounds ∧
    ListMerged strip "outbounds" base agent after outbounds ∧ added = inbounds.length + outbounds.length
  others : ∀ key, key ≠ "inbounds" → key ≠ "outbounds" → after.lookup key = base.lookup key
  order : base.map Prod.fst <+: after.map Prod.fst

theorem mergeList_order (strip : String → String) (key : String) (base agent : Fields) (start : Nat) :
    base.map Prod.fst <+: (mergeList strip key agent (base, start)).1.map Prod.fst := by
  unfold mergeList
  split
  · exact keys_prefix_put _ _ _
  · exact prefix_refl _

theorem mergeConfigs_merged (strip : String → String) (base agent : Fields) :
    ConfigMerged strip base agent (mergeConfigs strip base agent).1 (mergeConfigs strip base agent).2 := by
  obtain ⟨inbounds, first, count⟩ := mergeList_merged strip "inbounds" base agent 0
  have later := mergeList_merged strip "outbounds" (mergeList strip "inbounds" agent (base, 0)).1 agent
    (mergeList strip "inbounds" agent (base, 0)).2
  obtain ⟨outbounds, second, total⟩ := later
  refine ⟨⟨inbounds, outbounds, ?_, ?_, ?_⟩, fun key inbound outbound => ?_,
    (mergeList_order strip _ _ _ 0).trans (mergeList_order strip _ _ _ _)⟩
  · exact first.congr rfl (mergeList_other (by decide) _)
  · exact second.congr (mergeList_other (by decide) _).symm rfl
  · rw [mergeConfigs, total, count, Nat.zero_add]
  · exact (mergeList_other outbound _).trans (mergeList_other inbound _)

theorem ListMerged.again {after final : Fields} {again : List Json}
    (merged : ListMerged strip key base agent after appended)
    (second : ListMerged strip key after agent final again) :
    again = [] := by
  by_cases taken : ∃ items offered, baseItems (valueAt key base) = some items ∧ valueAt key agent = .arr offered
  · obtain ⟨items, offered, own, given⟩ := taken
    obtain ⟨value, holds⟩ := merged.taken items offered own given
    have now : baseItems (valueAt key after) = some (items ++ appended) := by rw [valueAt, value]; rfl
    refine (second.taken _ offered now given).2.eq_nil fun item member tag named => ?_
    rw [filterMap_append, mem_append]
    rcases holds.complete item member tag named with known | ⟨other, inside, same⟩
    · exact .inl known
    · exact .inr (List.mem_filterMap.mpr ⟨other, inside, same⟩)
  · have untaken : baseItems (valueAt key base) = none ∨ ∀ offered, valueAt key agent ≠ .arr offered := by
      by_contra both
      obtain ⟨some, given⟩ := not_or.mp both
      obtain ⟨items, own⟩ := Option.ne_none_iff_exists'.mp some
      push Not at given
      obtain ⟨offered, given⟩ := given
      exact taken ⟨items, offered, own, given⟩
    have value : valueAt key after = valueAt key base := by rw [valueAt, valueAt, (merged.left untaken).1]
    exact (second.left (value ▸ untaken)).2

theorem mergeConfigs_again (strip : String → String) (base agent : Fields) :
    (mergeConfigs strip (mergeConfigs strip base agent).1 agent).2 = 0 := by
  obtain ⟨⟨inbounds, outbounds, first, second, _⟩, _⟩ := mergeConfigs_merged strip base agent
  obtain ⟨⟨inbounds', outbounds', first', second', total⟩, _⟩ :=
    mergeConfigs_merged strip (mergeConfigs strip base agent).1 agent
  rw [total, first.again first', second.again second']
  rfl

end Configs

section Texts

variable (strip : String → String) (loads : String → Option Json) (dumps : Json → String)

/-- Every item of the Agent with a tag that the base does not have is in the result. -/
def AppendsAll (base agent after : Fields) : Prop :=
  ∀ key ∈ ["inbounds", "outbounds"], ∀ offered, valueAt key agent = .arr offered → ∀ item ∈ offered,
    ∀ tag, tagOf strip item = some tag →
      ((baseItems (valueAt key base)).getD []).any (fun own => tagOf strip own == some tag) = false →
      ∃ items, after.lookup key = some (.arr items) ∧ ∃ new ∈ items, tagOf strip new = some tag

/-- What the merge of two texts gives. The result can be merged again where it reads as what was written. -/
structure TextsMerged (baseText agentText : String) : Prop where
  objects : ∀ base agent, loads baseText = some (.obj base) → loads agentText = some (.obj agent) →
    ∃ after added, ConfigMerged strip base agent after added ∧
      mergeAgentOnly strip loads dumps baseText agentText = (if added = 0 then baseText else dumps (.obj after),
        added, []) ∧
      (loads (dumps (.obj after)) = some (.obj after) →
        let text := (mergeAgentOnly strip loads dumps baseText agentText).1
        mergeAgentOnly strip loads dumps text agentText = (text, 0, []))
  others : (∀ base agent, ¬ (loads baseText = some (.obj base) ∧ loads agentText = some (.obj agent))) →
    (mergeAgentOnly strip loads dumps baseText agentText).1 = baseText ∧
      (mergeAgentOnly strip loads dumps baseText agentText).2.1 = 0

variable {strip loads dumps}

theorem mergeAgentOnly_objects {baseText agentText : String} {base agent : Fields}
    (readBase : loads baseText = some (.obj base))
    (readAgent : loads agentText = some (.obj agent)) :
    mergeAgentOnly strip loads dumps baseText agentText =
      if (mergeConfigs strip base agent).2 = 0 then (baseText, 0, [])
      else (dumps (.obj (mergeConfigs strip base agent).1), (mergeConfigs strip base agent).2, []) := by
  unfold mergeAgentOnly
  rw [readBase, readAgent]

variable (strip loads dumps)

/-- The merge keeps the base, appends what only the Agent has, and has nothing to add a second time. -/
theorem mergeAgentOnly_merged (baseText agentText : String) : TextsMerged strip loads dumps baseText agentText where
  objects := by
    intro base agent readBase readAgent
    have merged : mergeAgentOnly strip loads dumps baseText agentText = _ :=
      mergeAgentOnly_objects readBase readAgent
    refine ⟨_, _, mergeConfigs_merged strip base agent, ?_, fun reads => ?_⟩
    · rw [merged]
      by_cases nothing : (mergeConfigs strip base agent).2 = 0
      · rw [if_pos nothing, if_pos nothing, nothing]
      · rw [if_neg nothing, if_neg nothing]
    · by_cases nothing : (mergeConfigs strip base agent).2 = 0
      · rw [if_pos nothing] at merged
        rw [merged]
        exact merged
      · rw [if_neg nothing] at merged
        rw [merged]
        dsimp only
        rw [mergeAgentOnly_objects reads readAgent, if_pos (mergeConfigs_again strip base agent)]
  others := by
    intro other
    unfold mergeAgentOnly
    split
    · rename_i base agent readBase readAgent
      exact absurd ⟨readBase, readAgent⟩ (other base agent)
    · exact ⟨rfl, rfl⟩
    · exact ⟨rfl, rfl⟩

/-- A base whose inbounds are no list takes none. -/
theorem malformed_base_skipped :
    let base : Fields := [("inbounds", .obj [])]
    let agent : Fields := [("inbounds", .arr [.obj [("tag", .str "socks")]])]
    ¬ AppendsAll id base agent (mergeConfigs id base agent).1 := by
  intro base agent all
  obtain ⟨items, value, _⟩ := all "inbounds" mem_cons_self [.obj [("tag", .str "socks")]] rfl
    (.obj [("tag", .str "socks")]) mem_cons_self "socks" (by decide +kernel) (by decide +kernel)
  have kept : (mergeConfigs id base agent).1.lookup "inbounds" = some (.obj []) := rfl
  nomatch kept.symm.trans value

end Texts

end OpenNode.RecoveryMerge
