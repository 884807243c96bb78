import OpenNode.CleanupCandidate
import OpenNode.Lib.Loops
import OpenNode.ManagedEgressFreeze

namespace OpenNode.NodeCleanup

open Assoc Agent Edits Loops ManagedEgress Saturation List Option

/-- An outbound dials through another one, by its proxy or by its socket options. -/
def Dials (item : Fields) (target : String) : Prop :=
  target ≠ "" ∧
    ((∃ proxy, item.lookup "proxySettings" = some (.obj proxy) ∧ proxy.lookup "tag" = some (.str target)) ∨
      ∃ stream options, item.lookup "streamSettings" = some (.obj stream) ∧
        stream.lookup "sockopt" = some (.obj options) ∧
        options.lookup "dialerProxy" = some (.str target))

/-- The least set that has the requested tags and the tag of every outbound
that dials through one of the set. -/
inductive Removed (outbounds : List Fields) (requested : List String) : String → Prop
  | requested {tag : String} (here : tag ∈ requested) : Removed outbounds requested tag
  | dials {item : Fields} {tag target : String} (here : item ∈ outbounds) (label : labelOf item = some tag)
      (dials : Dials item target) (removed : Removed outbounds requested target) : Removed outbounds requested tag

/-- A key of a rule that has a tag, alone or in a list. -/
def Names (key : String) (rule : Fields) (tag : String) : Prop :=
  rule.lookup key = some (.str tag) ∨ ∃ items, rule.lookup key = some (.arr items) ∧ .str tag ∈ items

/-- A balancer that falls back to a tag or selects it. The selector is a list
of beginnings or one text, which may join several; an empty text selects nothing. -/
def Selects (balancer : Fields) (tag : String) : Prop :=
  balancer.lookup "fallbackTag" = some (.str tag) ∨
    (∃ items start, balancer.lookup "selector" = some (.arr items) ∧ .str start ∈ items ∧ begins start tag = true) ∨
      ∃ text start, balancer.lookup "selector" = some (.str text) ∧ start ≠ "" ∧ start.toList <:+: text.toList ∧
        begins start tag = true

theorem mapM_str {names : List String} {items : List Json} (read : items.mapM Json.str? = some names) :
    items = names.map .str := by
  have each := mapM_some read
  clear read
  induction each with
  | nil => rfl
  | @cons item name _ _ first _ ih =>
    cases item with
    | str other => rw [map_cons, ← ih, show other = name from Option.some.inj first]
    | _ => cases first

section Lookups

variable {fields : Fields} {key : String}

variable {found : Fields}

theorem asObject_getD (read : asObject ((fields.lookup key).getD (.obj [])) = some found) :
    fields.lookup key = some (.obj found) ∨ fields.lookup key = none ∧ found = [] := by
  cases here : fields.lookup key with
  | none =>
    rw [here] at read
    cases read
    exact .inr ⟨rfl, rfl⟩
  | some value =>
    rw [here] at read
    cases value with
    | obj other =>
      cases read
      exact .inl rfl
    | _ => cases read

theorem lookup_of_asObject (read : asObject ((fields.lookup key).getD (.obj [])) = some found) {other : String}
    {value : Json} (inside : found.lookup other = some value) : fields.lookup key = some (.obj found) := by
  rcases asObject_getD read with here | ⟨_, rfl⟩
  · exact here
  · cases inside

end Lookups

section Targets

variable {item : Fields} {targets tags : List String} {outbounds : List Fields}

theorem mem_proxyTargets (read : proxyTargets item = .ok targets) {target : String} :
    target ∈ targets ↔ Dials item target := by
  unfold proxyTargets at read
  split at read
  · rename_i proxy stream readProxy readStream
    split at read
    · rename_i options readOptions
      dsimp only at read
      split at read
      · cases read
      · cases read
        simp only [mem_filter, mem_filterMap, mem_cons, not_mem_nil, or_false, exists_eq_or_imp,
          exists_eq_left, decide_eq_true_eq, Dials]
        rw [and_comm]
        refine and_congr_right fun _ => or_congr ?_ ?_
        · constructor
          · intro named
            have here : proxy.lookup "tag" = some (.str target) := by
              cases found : proxy.lookup "tag" with
              | none => simp [found, Json.str?] at named
              | some value => cases value <;> simp_all [Json.str?]
            exact ⟨proxy, lookup_of_asObject readProxy here, here⟩
          · rintro ⟨other, here, named⟩
            rcases asObject_getD readProxy with same | ⟨absent, _⟩
            · rw [here] at same
              cases same
              simp [named, Json.str?]
            · rw [absent] at here
              cases here
        · constructor
          · intro named
            have here : options.lookup "dialerProxy" = some (.str target) := by
              cases found : options.lookup "dialerProxy" with
              | none => simp [found, Json.str?] at named
              | some value => cases value <;> simp_all [Json.str?]
            have inside := lookup_of_asObject readOptions here
            exact ⟨stream, options, lookup_of_asObject readStream inside, inside, here⟩
          · rintro ⟨stream', options', here, inside, named⟩
            rcases asObject_getD readStream with same | ⟨absent, _⟩
            · rw [here] at same
              cases same
              rcases asObject_getD readOptions with same | ⟨absent, _⟩
              · rw [inside] at same
                cases same
                simp [named, Json.str?]
              · rw [absent] at inside
                cases inside
            · rw [absent] at here
              cases here
    · cases read
  · cases read

theorem meets_iff : meets targets tags = true ↔ ∃ target ∈ targets, target ∈ tags := by
  simp [meets]

theorem unnamedDepends_false (clear : unnamedDepends tags outbounds = .ok false) :
    ∀ item ∈ outbounds, nameOf item = none → ∀ target ∈ tags, ¬ Dials item target := by
  induction outbounds with
  | nil => exact fun _ here => absurd here not_mem_nil
  | cons head rest ih =>
    intro item here unnamed target inside dials
    unfold unnamedDepends at clear
    split at clear
    · rename_i name named
      rcases List.mem_cons.mp here with rfl | later
      · rw [unnamed] at named
        cases named
      · exact ih clear item later unnamed target inside dials
    · split at clear
      · cases clear
      · rename_i targets read
        split at clear
        · cases clear
        · rename_i apart
          rcases List.mem_cons.mp here with rfl | later
          · exact apart (meets_iff.mpr ⟨target, (mem_proxyTargets read).mpr dials, inside⟩)
          · exact ih clear item later unnamed target inside dials

theorem mem_dependents {found : List String} (read : dependents tags outbounds = .ok found) {name : String} :
    name ∈ found ↔ ∃ item ∈ outbounds, nameOf item = some name ∧ ∃ target ∈ tags, Dials item target := by
  induction outbounds generalizing found with
  | nil =>
    cases read
    simp
  | cons head rest ih =>
    unfold dependents at read
    split at read
    · rename_i unnamed
      rw [ih read]
      simp [unnamed]
    · rename_i first named
      split at read
      · cases read
      · cases read
      · rename_i targets others readTargets readOthers
        cases read
        have depends : meets targets tags = true ↔ ∃ target ∈ tags, Dials head target := by
          rw [meets_iff]
          exact ⟨fun ⟨target, here, inside⟩ => ⟨target, inside, (mem_proxyTargets readTargets).mp here⟩,
            fun ⟨target, inside, dials⟩ => ⟨target, (mem_proxyTargets readTargets).mpr dials, inside⟩⟩
        simp only [mem_cons, exists_eq_or_imp, named, Option.some.injEq, ← depends, ← ih readOthers]
        split
        · rename_i met
          simp [met, eq_comm]
        · rename_i apart
          simp [apart]

end Targets

section Closure

variable {outbounds : List Fields} {requested tags : List String}

theorem labelOf_of_nameOf {item : Fields} {name : String} (named : nameOf item = some name) :
    labelOf item = some name :=
  (Option.filter_eq_some_iff.mp named).1

theorem chained_ok {found : List String} (read : chained outbounds tags = .ok found) :
    unnamedDepends tags outbounds = .ok false ∧ dependents tags outbounds = .ok found := by
  unfold chained at read
  split at read
  · cases read
  · cases read
  · rename_i clear
    exact ⟨clear, read⟩

theorem removedOutbounds_ne_none (outbounds : List Fields) (requested : List String) :
    removedOutbounds outbounds requested ≠ none := by
  have bounded : ∀ known found, chained outbounds known = .ok found → found ⊆ outbounds.filterMap nameOf := by
    intro known found read name inside
    obtain ⟨item, here, named, _⟩ := (mem_dependents (chained_ok read).2).mp inside
    exact List.mem_filterMap.mpr ⟨item, here, named⟩
  refine saturate_ne_none bounded (Nat.lt_succ_of_le ?_)
  exact (length_filter_le _ _).trans (length_filterMap_le _ _)

theorem removedOutbounds_ok (done : removedOutbounds outbounds requested = some (.ok tags)) :
    (∀ tag, tag ∈ tags ↔ Removed outbounds requested tag) ∧
    ∀ item ∈ outbounds, labelled tags item = false → ∀ target ∈ tags, ¬ Dials item target := by
  obtain ⟨start, ⟨found, read, ended⟩, least⟩ := saturate_ok done
  obtain ⟨clear, names⟩ := chained_ok read
  -- An outbound that dials through the set has a name, and the last turn found that name.
  have dialing : ∀ item ∈ outbounds, ∀ target ∈ tags, Dials item target →
      ∃ name ∈ tags, labelOf item = some name := by
    intro item here target inside dials
    cases named : nameOf item with
    | none => exact absurd dials (unnamedDepends_false clear item here named target inside)
    | some name =>
      exact ⟨name, ended ((mem_dependents names).mpr ⟨item, here, named, target, inside, dials⟩),
        labelOf_of_nameOf named⟩
  refine ⟨fun tag => ⟨fun inside => ?_, fun removed => ?_⟩, fun item here other target inside dials => ?_⟩
  · refine least (Removed outbounds requested) (fun _ => .requested) (fun known found removed read name member =>
      ?_) tag inside
    obtain ⟨item, here, named, target, known', dials⟩ := (mem_dependents (chained_ok read).2).mp member
    exact .dials here (labelOf_of_nameOf named) dials (removed target known')
  · induction removed with
    | requested here => exact start here
    | dials here label dials _ inside =>
      obtain ⟨name, member, label'⟩ := dialing _ here _ inside dials
      rw [label, Option.some.injEq] at label'
      exact label' ▸ member
  · obtain ⟨name, member, label⟩ := dialing item here target inside dials
    rw [labelled, label, any_some, decide_eq_false_iff_not] at other
    exact other member

end Closure

section Balancers

variable {tags : List String}

variable {value : Json}

theorem within_false (out : within tags value = .ok false) : ∀ tag ∈ tags, value ≠ .str tag := by
  rintro tag inside rfl
  simp [within, inside] at out

theorem within_true (inside : within tags value = .ok true) : ∃ tag ∈ tags, value = .str tag := by
  cases value with
  | str text => exact ⟨text, by simpa [within] using inside, rfl⟩
  | _ => cases inside

theorem begins_iff {start tag : String} : begins start tag = true ↔ start.toList <+: tag.toList :=
  isPrefixOf_iff_prefix

theorem checkBalancer_ok {balancer : Fields} (passed : checkBalancer tags (.obj balancer) = .ok ()) :
    ∀ tag ∈ tags, ¬ Selects balancer tag := by
  unfold checkBalancer at passed
  dsimp only at passed
  split at passed
  · cases passed
  · cases passed
  · rename_i fallback
    split at passed
    · cases passed
    · cases passed
    · rename_i selected
      intro tag inside selects
      have each := anyM_ok_false selected tag inside
      obtain ⟨starts, runs, none⟩ := bind_eq_ok each
      have apart : ∀ start, .str start ∈ starts → ¬ begins start tag = true := by
        intro start here begun
        have out := anyM_ok_false none _ here
        rw [startsWith, begun] at out
        cases out
      rcases selects with here | ⟨items, start, here, member, begun⟩ | ⟨text, start, here, filled, part, begun⟩
      · rw [here] at fallback
        exact within_false fallback tag inside rfl
      · rw [here] at runs
        cases runs
        exact apart start member begun
      · rw [here] at runs
        cases runs
        -- The first character of the part is one of those that the loop runs over.
        obtain ⟨c, rest, chars⟩ := exists_cons_of_ne_nil (fun empty => filled (String.toList_eq_nil_iff.mp empty))
        refine apart (String.singleton c) (List.mem_map.mpr ⟨c, ?_, rfl⟩) ?_
        · exact part.subset (by rw [chars]; exact mem_cons_self)
        · rw [begins_iff] at begun ⊢
          obtain ⟨tail, whole⟩ := begun
          rw [← whole, chars, String.toList_singleton]
          exact ⟨rest ++ tail, rfl⟩

end Balancers

section Rules

variable {inboundTags outboundTags : List String} {rule : Fields}

/-- What a cleanup makes of a rule. One that names nothing that is removed stays
as it is, and a list of inbounds never becomes empty. -/
structure Rewrites (inboundTags outboundTags : List String) (rule : Fields) (result : Option Fields) : Prop where
  unmentioned : (∀ tag ∈ outboundTags, ¬ Names "outboundTag" rule tag) →
    (∀ tag ∈ inboundTags, ¬ Names "inboundTag" rule tag) →
    result = some rule
  clear : ∀ rule', result = some rule' → (∀ tag ∈ outboundTags, ¬ Names "outboundTag" rule' tag) ∧
    ∀ tag ∈ inboundTags, ¬ Names "inboundTag" rule' tag
  shrunk : ∀ rule', result = some rule' → rule' = rule ∨ ∃ refs kept, rule.lookup "inboundTag" = some (.arr refs) ∧
    kept ≠ [] ∧ kept.Sublist refs ∧ rule' = put "inboundTag" (.arr kept) rule

theorem not_names {key : String} {tags : List String}
    (out : within tags ((rule.lookup key).getD .null) = .ok false) :
    ∀ tag ∈ tags, ¬ Names key rule tag := by
  rintro tag inside (here | ⟨items, here, _⟩)
  · rw [here] at out
    exact within_false out tag inside rfl
  · rw [here] at out
    cases out

theorem names_refs {names : List String} (read : (rule.lookup "inboundTag").getD (.arr []) = .arr (names.map .str))
    {tag : String} :
    Names "inboundTag" rule tag ↔ tag ∈ names := by
  cases here : rule.lookup "inboundTag" with
  | none =>
    rw [here, getD_none, Json.arr.injEq, eq_comm, map_eq_nil_iff] at read
    simp [Names, here, read]
  | some value =>
    rw [here, getD_some] at read
    subst read
    simp [Names, here]

theorem rewriteRule_ok {value : Json} {result : Rewritten}
    (read : rewriteRule inboundTags outboundTags value = .ok result) :
    ∃ rule, value = .obj rule ∧ Rewrites inboundTags outboundTags rule result.rule? := by
  cases value with
  | obj rule =>
    refine ⟨rule, rfl, ?_⟩
    unfold rewriteRule at read
    dsimp only at read
    split at read
    · cases read
    · rename_i removed
      cases read
      obtain ⟨tag, inside, named⟩ := within_true removed
      refine ⟨fun outbounds _ => absurd (.inl ?_) (outbounds tag inside), nofun, nofun⟩
      cases here : rule.lookup "outboundTag" with
      | none =>
        rw [here] at named
        cases named
      | some value =>
        rw [here] at named
        exact congrArg some named
    · rename_i out
      have apart := not_names out
      split at read
      · rename_i items list
        split at read
        · cases read
        · rename_i names texts
          rw [mapM_str texts] at list
          have named : ∀ tag, Names "inboundTag" rule tag ↔ tag ∈ names := fun tag => names_refs list
          split at read
          · rename_i hit
            obtain ⟨tag, member, inside⟩ := List.any_eq_true.mp hit
            rw [decide_eq_true_eq] at inside
            have mentioned : ¬ ∀ tag ∈ inboundTags, ¬ Names "inboundTag" rule tag :=
              fun none => none tag inside ((named tag).mpr member)
            split at read
            · cases read
              exact ⟨fun _ none => absurd none mentioned, nofun, nofun⟩
            · rename_i left
              cases read
              have held : rule.lookup "inboundTag" = some (.arr (names.map .str)) := by
                cases here : rule.lookup "inboundTag" with
                | none =>
                  rw [here, getD_none, Json.arr.injEq, eq_comm, map_eq_nil_iff] at list
                  rw [list] at member
                  cases member
                | some value =>
                  rw [here] at list
                  exact congrArg some list
              refine ⟨fun _ none => absurd none mentioned, ?_, ?_⟩
              · rintro _ ⟨⟩
                refine ⟨fun tag inside names => apart tag inside ?_, fun tag inside names => ?_⟩
                · simpa only [Names, lookup_put_other (show "outboundTag" ≠ "inboundTag" by decide)] using names
                · rcases names with here | ⟨items, here, member⟩
                  · rw [lookup_put_self] at here
                    cases here
                  · rw [lookup_put_self] at here
                    cases here
                    obtain ⟨other, kept, same⟩ := List.mem_map.mp member
                    cases same
                    exact absurd inside (by simpa using (List.mem_filter.mp kept).2)
              · rintro _ ⟨⟩
                refine .inr ⟨_, _, held, ?_, (filter_sublist).map _, rfl⟩
                simpa [map_eq_nil_iff, List.isEmpty_iff] using left
          · rename_i missed
            cases read
            have clear : ∀ tag ∈ inboundTags, ¬ Names "inboundTag" rule tag := fun tag inside names =>
              missed (List.any_eq_true.mpr ⟨tag, (named tag).mp names, by simpa using inside⟩)
            refine ⟨fun _ _ => rfl, ?_, ?_⟩
            · rintro _ ⟨⟩
              exact ⟨apart, clear⟩
            · rintro _ ⟨⟩
              exact .inl rfl
      · cases read
  | _ => cases read

end Rules

section Assembly

variable {config routing : Fields} {rules : List Json}

theorem listed_objects (items : List Fields) : listed (.arr (items.map .obj)) = items := by
  rw [listed, filterMap_map]
  exact filterMap_some

theorem routingOf_ok (read : routingOf config = .ok (routing, rules)) :
    (config.lookup "routing").getD (.obj []) = .obj routing ∧ (routing.lookup "rules").getD (.arr []) =
      .arr rules := by
  unfold routingOf at read
  split at read
  · rename_i found value
    split at read
    · rename_i items list
      cases read
      exact ⟨value, list⟩
    · cases read
  · cases read

variable {key : String}

theorem routingEntries_eq (read : (config.lookup "routing").getD (.obj []) = .obj routing) :
    routingEntries key config = listed ((routing.lookup key).getD (.arr [])) := by
  have found : subObject "routing" config = some routing := by
    unfold subObject
    cases here : config.lookup "routing" with
    | none =>
      rw [here] at read
      cases read
      rfl
    | some value =>
      rw [here, getD_some] at read
      subst read
      dsimp only
      split
      · rfl
      · rename_i empty
        cases routing with
        | nil => rfl
        | cons head rest => exact absurd rfl empty
  rw [routingEntries, found]

/-- The routing object after the rules have been replaced. -/
def routingAfter (routing : Fields) (kept : List Fields) : Fields :=
  if (routing.lookup "rules").isSome then setEntries "rules" kept routing else routing

theorem withRules_routing (read : (config.lookup "routing").getD (.obj []) = .obj routing) (kept : List Fields) :
    ((withRules config routing kept).lookup "routing").getD (.obj []) = .obj (routingAfter routing kept) := by
  unfold withRules routingAfter
  split
  · rw [lookup_put_self, getD_some]
  · exact read

theorem withRules_other (other : key ≠ "routing") (kept : List Fields) :
    (withRules config routing kept).lookup key = config.lookup key := by
  unfold withRules
  split
  · exact lookup_put_other other _ _
  · rfl

theorem routingAfter_other (other : key ≠ "rules") (kept : List Fields) :
    (routingAfter routing kept).lookup key = routing.lookup key := by
  unfold routingAfter
  split
  · exact lookup_put_other other _ _
  · rfl

theorem routingAfter_rules {kept : List Fields} (none : routing.lookup "rules" = none → kept = []) :
    listed (((routingAfter routing kept).lookup "rules").getD (.arr [])) = kept := by
  unfold routingAfter
  cases here : routing.lookup "rules" with
  | none =>
    rw [if_neg (by simp), here, none here]
    rfl
  | some value => rw [if_pos (isSome_some : (some value).isSome = true), lookup_setEntries, getD_some,
      listed_objects]

/-- The policies that name no selected inbound. -/
def unselected (inboundTags : List String) (policy : Fields) : Bool :=
  inboundTags.all fun tag => !has "inbound_tag" (.str tag) policy

theorem keepPolicies_ok {inboundTags : List String} {policies kept : List Json}
    (read : keepPolicies inboundTags policies = .ok kept) :
    ∃ entries : List Fields, policies = entries.map .obj ∧
      kept = (entries.filter (unselected inboundTags)).map .obj := by
  induction policies generalizing kept with
  | nil =>
    cases read
    exact ⟨[], rfl, rfl⟩
  | cons item rest ih =>
    unfold keepPolicies at read
    split at read
    · cases read
    · rename_i fields object
      obtain rfl : item = .obj fields := by
        cases item with
        | obj other => exact congrArg Json.obj (Option.some.inj object)
        | _ => cases object
      split at read
      · cases read
      · rename_i tag label
        split at read
        · cases read
        · cases read
        · rename_i gone others selected readOthers
          cases read
          obtain ⟨entries, rfl, rfl⟩ := ih readOthers
          refine ⟨fields :: entries, rfl, ?_⟩
          cases gone with
          | true =>
            obtain ⟨name, inside, rfl⟩ := within_true selected
            rw [if_pos rfl, filter_cons_of_neg]
            intro all
            have apart := List.all_eq_true.mp all name inside
            rw [has_iff.mpr label] at apart
            cases apart
          | false =>
            rw [if_neg (by decide), filter_cons_of_pos, map_cons]
            refine List.all_eq_true.mpr fun name inside => ?_
            rw [Bool.not_eq_true']
            by_contra named
            rw [Bool.not_eq_false, has_iff, label, Option.some.injEq] at named
            exact within_false selected name inside named

end Assembly

/-- The documents after a cleanup that removes the tags. -/
structure Cleaned (inboundTags outboundTags : List String) (before after : Documents) : Prop where
  dials : ∀ item ∈ Warp.outbounds after.config, ∀ target ∈ outboundTags, ¬ Dials item target
  balancers : ∀ balancer ∈ routingEntries "balancers" after.config, ∀ tag ∈ outboundTags, ¬ Selects balancer tag
  rules : ∃ rewrite : Fields → Option Fields,
    routingEntries "rules" after.config = (routingEntries "rules" before.config).filterMap rewrite ∧
    ∀ rule ∈ routingEntries "rules" before.config, Rewrites inboundTags outboundTags rule (rewrite rule)
  inbounds : inbounds after.config = (inbounds before.config).filter fun item => !labelled inboundTags item
  outbounds : Warp.outbounds after.config = (Warp.outbounds before.config).filter fun item =>
    !labelled outboundTags item
  suspended : after.suspended = before.suspended.filter fun entry => entry.1 ∉ inboundTags
  policies : listed ((after.limits.lookup "inbounds").getD (.arr [])) =
    (listed ((before.limits.lookup "inbounds").getD (.arr []))).filter (unselected inboundTags)
  sections : ∀ key, key ∉ ["inbounds", "outbounds", "routing"] → after.config.lookup key = before.config.lookup key
  settings : ∀ key, key ≠ "inbounds" → after.limits.lookup key = before.limits.lookup key

variable {texts : Texts} {documents after : Documents} {request : CleanupRequest} {impact : Impact}

variable {config : Fields} {entries : List Fields}

theorem tagged_ok {key : String} (read : tagged config key = .ok entries) :
    (config.lookup key).getD (.arr []) = .arr (entries.map .obj) := by
  unfold tagged at read
  split at read
  · cases read
  · rename_i found list
    split at read
    · split at read
      · cases read
        exact objects_eq_some.mp list
      · cases read
    · cases read

theorem tagged_outbounds (read : tagged config "outbounds" = .ok entries) :
    Warp.outbounds config = entries := by
  have list := tagged_ok read
  unfold Warp.outbounds
  cases here : config.lookup "outbounds" with
  | none =>
    rw [here, getD_none, Json.arr.injEq, eq_comm, map_eq_nil_iff] at list
    exact list.symm
  | some value =>
    rw [here, getD_some] at list
    subst list
    exact listed_objects entries

theorem mem_iterated {value : Json} {items : List Json} (read : iterated value = .ok items) {item : Fields}
    (here : item ∈ listed value) : .obj item ∈ items := by
  cases value with
  | arr entries =>
    cases read
    obtain ⟨entry, inside, object⟩ := List.mem_filterMap.mp here
    cases entry with
    | obj fields =>
      cases object
      exact inside
    | _ => cases object
  | _ => cases here

theorem listed_policies {limits : Fields} (read : policiesOf limits = .ok (entries.map .obj)) :
    listed ((limits.lookup "inbounds").getD (.arr [])) = listed (.arr (entries.map .obj)) := by
  unfold policiesOf at read
  split at read
  · cases read
  · rename_i value here
    rw [here, getD_some]
    cases value with
    | arr items => rw [Except.ok.inj read]
    | str text =>
      have chars := Except.ok.inj read
      cases entries with
      | nil => rfl
      | cons entry rest =>
        cases characters : text.toList with
        | nil =>
          rw [characters] at chars
          cases chars
        | cons c tail =>
          rw [characters] at chars
          cases chars
    | obj fields =>
      have keys := Except.ok.inj read
      cases entries with
      | nil => rfl
      | cons entry rest => cases fields <;> cases keys
    | _ => cases read

/-- What the rules become, as a function of a rule. -/
def rewritten (inboundTags outboundTags : List String) (rule : Fields) : Option Fields :=
  match rewriteRule inboundTags outboundTags (.obj rule) with
  | .ok result => result.rule?
  | .error _ => none

variable {outboundTags : List String}

theorem rewriteRules_ok {inboundTags : List String} {rules : List Json} {results : List Rewritten}
    (read : rules.mapM (rewriteRule inboundTags outboundTags) = .ok results) :
    results.filterMap Rewritten.rule? = (listed (.arr rules)).filterMap (rewritten inboundTags outboundTags) ∧
    ∀ rule ∈ listed (.arr rules),
      Rewrites inboundTags outboundTags rule (rewritten inboundTags outboundTags rule) := by
  have each := mapM_ok read
  clear read
  induction each with
  | nil => exact ⟨rfl, nofun⟩
  | @cons value result rest results first _ ih =>
    obtain ⟨rule, rfl, rewrites⟩ := rewriteRule_ok first
    have here : rewritten inboundTags outboundTags rule = result.rule? := by rw [rewritten, first]
    have more : listed (.arr (.obj rule :: rest)) = rule :: listed (.arr rest) := rfl
    rw [more]
    refine ⟨?_, fun other inside => ?_⟩
    · rw [filterMap_cons, filterMap_cons, here, ih.1]
    · rcases List.mem_cons.mp inside with rfl | later
      · rwa [here]
      · exact ih.2 other later

theorem assemble_ok {inboundTags : List String} {inbounds outbounds : List Fields}
    (readInbounds : tagged documents.config "inbounds" = .ok inbounds)
    (readOutbounds : tagged documents.config "outbounds" = .ok outbounds)
    (free : ∀ item ∈ outbounds, labelled outboundTags item = false → ∀ target ∈ outboundTags, ¬ Dials item target)
    (done : assemble texts documents inboundTags outboundTags inbounds outbounds = .ok (after, impact)) :
    Cleaned inboundTags outboundTags documents after := by
  obtain ⟨⟨routing, rules⟩, readRouting, done⟩ := bind_eq_ok done
  obtain ⟨balancers, readBalancers, done⟩ := bind_eq_ok done
  obtain ⟨_, checked, done⟩ := bind_eq_ok done
  obtain ⟨results, readRules, done⟩ := bind_eq_ok done
  obtain ⟨_, _, done⟩ := bind_eq_ok done
  obtain ⟨policies, readPolicies, done⟩ := bind_eq_ok done
  obtain ⟨kept, readKept, done⟩ := bind_eq_ok done
  obtain ⟨_, _, done⟩ := bind_eq_ok done
  cases done
  obtain ⟨routingHere, rulesHere⟩ := routingOf_ok readRouting
  obtain ⟨rulesAfter, rewrites⟩ := rewriteRules_ok readRules
  have listRules : routingEntries "rules" documents.config = listed (.arr rules) := by
    rw [routingEntries_eq routingHere, rulesHere]
  have routingNow : ((setEntries "outbounds" (outbounds.filter fun item => !labelled outboundTags item)
      (setEntries "inbounds" (inbounds.filter fun item => !labelled inboundTags item)
        (withRules documents.config routing (results.filterMap Rewritten.rule?)))).lookup "routing").getD
          (.obj []) =
      .obj (routingAfter routing (results.filterMap Rewritten.rule?)) := by
    rw [setEntries, lookup_put_other (by decide), setEntries, lookup_put_other (by decide)]
    exact withRules_routing routingHere _
  have others : ∀ key, key ≠ "inbounds" → key ≠ "outbounds" → key ≠ "routing" →
      (setEntries "outbounds" (outbounds.filter fun item => !labelled outboundTags item)
        (setEntries "inbounds" (inbounds.filter fun item => !labelled inboundTags item)
          (withRules documents.config routing (results.filterMap Rewritten.rule?)))).lookup key =
            documents.config.lookup key := by
    intro key first second third
    rw [setEntries, lookup_put_other second, setEntries, lookup_put_other first, withRules_other third]
  exact {
    dials := by
      intro item here
      rw [Warp.outbounds_setEntries] at here
      obtain ⟨inside, other⟩ := List.mem_filter.mp here
      exact free item inside (by simpa using other)
    balancers := by
      intro balancer here
      rw [routingEntries_eq routingNow, routingAfter_other (by decide)] at here
      exact checkBalancer_ok (forM_ok checked _ (mem_iterated readBalancers here))
    rules := by
      refine ⟨rewritten inboundTags outboundTags, ?_, ?_⟩
      · dsimp only
        rw [routingEntries_eq routingNow, listRules, ← rulesAfter]
        refine routingAfter_rules fun absent => ?_
        rw [absent, getD_none, Json.arr.injEq] at rulesHere
        rw [rulesAfter, ← rulesHere]
        rfl
      · rw [listRules]
        exact rewrites
    inbounds := by
      rw [ManagedEgress.inbounds, ManagedEgress.inbounds, setEntries, lookup_put_other (by decide),
        lookup_setEntries,
        getD_some, tagged_ok readInbounds, listed_objects, listed_objects]
    outbounds := by rw [Warp.outbounds_setEntries, tagged_outbounds readOutbounds]
    suspended := rfl
    policies := by
      obtain ⟨entries, rfl, rfl⟩ := keepPolicies_ok readKept
      rw [lookup_put_self, getD_some, listed_objects, listed_policies readPolicies, listed_objects]
    sections := by
      intro key other
      simp only [mem_cons, not_mem_nil, or_false, not_or] at other
      exact others key other.1 other.2.1 other.2.2
    settings := fun key other => lookup_put_other other _ _ }

/-- A cleanup comes to an end, and where it gives documents it has removed the
least set of outbounds that is closed under dialing, and left nothing that
refers to what it removed. -/
theorem candidate_cleaned (texts : Texts) (documents : Documents) (request : CleanupRequest) :
    candidate texts documents request ≠ none ∧
    ∀ after impact, candidate texts documents request = some (.ok (after, impact)) →
      ∃ outboundTags, (∀ tag, tag ∈ outboundTags ↔
        Removed (Warp.outbounds documents.config) request.outboundTags tag) ∧
        Cleaned request.inboundTags outboundTags documents after := by
  unfold candidate
  split
  · exact ⟨nofun, nofun⟩
  · exact ⟨nofun, nofun⟩
  · rename_i inbounds outbounds readInbounds readOutbounds
    split
    · exact ⟨nofun, nofun⟩
    · exact ⟨nofun, nofun⟩
    · split
      · rename_i endless
        exact absurd endless (removedOutbounds_ne_none _ _)
      · exact ⟨nofun, nofun⟩
      · rename_i outboundTags found
        refine ⟨nofun, fun after impact done => ⟨outboundTags, ?_, ?_⟩⟩
        · rw [tagged_outbounds readOutbounds]
          exact (removedOutbounds_ok found).1
        · exact assemble_ok readInbounds readOutbounds (removedOutbounds_ok found).2 (Option.some.inj done)

section Example

/-- An outbound that dials through another one. -/
def chainedDocuments : Documents where
  config := [("outbounds", .arr [.obj [("tag", .str "direct")], .obj [("tag", .str "dial")],
    .obj [("tag", .str "chain"), ("proxySettings", .obj [("tag", .str "dial")])]])]
  limits := [("inbounds", .arr [])]
  suspended := []

def removeDial : CleanupRequest where
  action := .preview
  outboundTags := ["dial"]

def plainTexts : Texts where
  float _ := ""
  clean := id

theorem candidate_cleaned_dial : ∃ after impact outboundTags,
    candidate plainTexts chainedDocuments removeDial = some (.ok (after, impact)) ∧
    (∀ tag, tag ∈ outboundTags ↔ Removed (Warp.outbounds chainedDocuments.config) ["dial"] tag) ∧
    Cleaned [] outboundTags chainedDocuments after := by
  obtain ⟨outboundTags, removed, cleaned⟩ := (candidate_cleaned plainTexts chainedDocuments removeDial).2 _ _ rfl
  exact ⟨_, _, outboundTags, rfl, removed, cleaned⟩

end Example

end OpenNode.NodeCleanup
