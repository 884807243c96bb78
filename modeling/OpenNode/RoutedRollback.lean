import OpenNode.RestoredConfig
import OpenNode.RoutedOutbound

namespace OpenNode

open Agent Assoc List

namespace RoutedOutboundCreate

variable {env : RoutedEnv} {plan : RoutedOutboundCreate} {validateTls : Fields → Option String} {config : Fields}

theorem orText_ne_empty {value : Option String} {default : String} (nonempty : default ≠ "") :
    orText value default ≠ "" := by
  unfold orText
  split
  · split
    · exact nonempty
    · assumption
  · exact nonempty

theorem tag_ne_empty : plan.tag env ≠ "" := by
  refine orText_ne_empty fun empty => ?_
  have length := congrArg String.length empty
  have first : (toString "routed:").length = 7 := rfl
  simp only [String.length_append, first, String.length_empty] at length
  omega

theorem mark_ne_empty : plan.mark env ≠ "" :=
  orText_ne_empty tag_ne_empty

theorem email_ne_empty : plan.email env ≠ "" := by
  refine orText_ne_empty fun empty => ?_
  have length := congrArg String.length empty
  have middle : (toString "__").length = 2 := rfl
  simp only [String.length_append, middle, String.length_empty] at length
  omega

theorem editEntries_tagged {key : String} {payload : Fields} (reorder : textOf "action" payload ≠ "reorder")
    (add : textOf "action" payload ≠ "add") (missing : isTrue "ignore_missing" payload = false) :
    editEntries validateTls key payload config =
      match entriesOf key config with
      | .error error => .error error
      | .ok entries =>
        (editTagged validateTls key (textOf "action" payload) payload entries).map fun entries =>
          setEntries key entries config := by
  unfold editEntries
  rw [if_neg reorder]
  cases entriesOf key config with
  | error error => rfl
  | ok entries =>
    dsimp only
    rw [if_neg add, if_neg (by simp [missing])]

theorem editEntries_onInbound {payload : Fields} {tag : String} {edit : Fields → Except String Fields}
    (reorder : textOf "action" payload ≠ "reorder") (add : textOf "action" payload ≠ "add")
    (missing : isTrue "ignore_missing" payload = false)
    (edits : ∀ entries, editTagged validateTls "inbounds" (textOf "action" payload) payload entries =
      match findTag entries (.str tag) with
      | .error error => .error error
      | .ok current => (edit current).map fun edited => replaceEntry (has "tag" (.str tag)) edited entries) :
    editEntries validateTls "inbounds" payload config = onInbound tag edit config := by
  rw [editEntries_tagged reorder add missing, onInbound]
  cases entriesOf "inbounds" config with
  | error error => rfl
  | ok entries =>
    dsimp only
    rw [edits]
    cases findTag entries (.str tag) with
    | error error => rfl
    | ok current =>
      dsimp only
      cases edit current <;> rfl

variable {current added later : Fields} {entries : List Fields} {before after : Fields}

theorem editTagged_remove {key : String} {payload : Fields} :
    editTagged validateTls key "remove" payload entries =
      (findTag entries ((payload.lookup "tag").getD .null)).map fun _ =>
        removeEntry (has "tag" ((payload.lookup "tag").getD .null)) entries := by
  unfold editTagged
  dsimp only
  rw [if_neg (by simp)]
  cases findTag entries ((payload.lookup "tag").getD .null) with
  | error error => rfl
  | ok entry => exact if_pos rfl

theorem agentEdit_inbounds {body : Fields} :
    agentEdit validateTls (plan.command "/api/child/inbounds" body) config =
      editEntries validateTls "inbounds" body config := by
  unfold agentEdit command
  exact if_pos rfl

theorem agentEdit_outbounds {body : Fields} :
    agentEdit validateTls (plan.command "/api/child/outbounds" body) config =
      editEntries validateTls "outbounds" body config := by
  have first : "/api/child/outbounds" ≠ "/api/child/inbounds" := by decide
  unfold agentEdit command
  exact (if_neg first).trans (if_pos rfl)

theorem agentEdit_routing {body : Fields} :
    agentEdit validateTls (plan.command "/api/child/routing" body) config = editRouting body config := by
  have first : "/api/child/routing" ≠ "/api/child/inbounds" := by decide
  have second : "/api/child/routing" ≠ "/api/child/outbounds" := by decide
  unfold agentEdit command
  exact (if_neg first).trans ((if_neg second).trans (if_pos rfl))

theorem agentEdit_addClient : agentEdit validateTls (plan.clientStep env).forward config =
    onInbound plan.inboundTag (fun inbound => editClient inbound (plan.routedAdminClient env) false) config := by
  unfold clientStep
  rw [agentEdit_inbounds]
  exact editEntries_onInbound (by simp [textOf]) (by simp [textOf]) rfl fun entries => rfl

theorem agentEdit_addExcludes : agentEdit validateTls (plan.sniffingStep env).forward config =
    onInbound plan.inboundTag (fun inbound => addExcludes inbound (.arr ((plan.sniffingExcludes env).map .str)))
      config := by
  unfold sniffingStep
  rw [agentEdit_inbounds]
  exact editEntries_onInbound (by simp [textOf]) (by simp [textOf]) rfl fun entries => rfl

variable (env plan)

/-- The three compensators of a plan on the Agent. -/
def removeClient : Fields → Except String Fields :=
  onInbound plan.inboundTag fun inbound => editClient inbound [("email", .str (plan.email env))] true

def removeOutbound (config : Fields) : Except String Fields :=
  match entriesOf "outbounds" config with
  | .error error => .error error
  | .ok entries =>
    (findTag entries (.str (plan.tag env))).map fun _ =>
      setEntries "outbounds" (removeEntry (has "tag" (.str (plan.tag env))) entries) config

def removeRuleUser : Fields → Except String Fields :=
  onRules fun rules =>
    match rules.filter (has "marktag" (.str (plan.mark env))) with
    | [rule] => removeUser rules (has "marktag" (.str (plan.mark env))) rule (plan.email env)
    | _ => .error "Routing selector must identify exactly one rule"

variable {env plan}

theorem agentEdit_clientRollback :
    agentEdit validateTls (plan.clientRollback env) config = plan.removeClient env config := by
  unfold clientRollback
  rw [agentEdit_inbounds]
  exact editEntries_onInbound (by simp [textOf]) (by simp [textOf]) rfl fun entries => rfl

theorem agentEdit_outboundRollback :
    agentEdit validateTls (plan.outboundRollback env) config = plan.removeOutbound env config := by
  unfold outboundRollback
  rw [agentEdit_outbounds, editEntries_tagged (by simp [textOf]) (by simp [textOf]) rfl]
  unfold removeOutbound
  cases entriesOf "outbounds" config with
  | error error => rfl
  | ok entries =>
    dsimp only
    show Except.map _ (editTagged validateTls "outbounds" "remove" _ entries) = _
    rw [editTagged_remove]
    show Except.map _ (Except.map _ (findTag entries (.str (plan.tag env)))) = _
    cases findTag entries (.str (plan.tag env)) <;> rfl

theorem agentEdit_addRule : agentEdit validateTls (plan.ruleStep env).forward config =
    onRules (addRule [("action", .str "add_rule"), ("rule", .obj (plan.rule env))]) config := by
  unfold ruleStep
  rw [agentEdit_routing]
  exact editRouting_onRules (by simp [textOf]) (by simp [textOf]) (fun _ => rfl) (by simp [textOf])

theorem agentEdit_ruleRollback :
    agentEdit validateTls (plan.ruleRollback env) config = plan.removeRuleUser env config := by
  unfold ruleRollback
  rw [agentEdit_routing]
  refine editRouting_onRules (by simp [textOf]) (by simp [textOf]) (fun rules => ?_) (by simp [textOf])
  have selector : ruleSelector [("action", .str "remove_user_from_rule"), ("marktag", .str (plan.mark env)),
      ("user_email", .str (plan.email env))] = some (has "marktag" (.str (plan.mark env))) := by
    refine if_pos ?_
    show (plan.mark env != "") = true
    simp [mark_ne_empty]
  rw [if_neg (by simp [textOf]), editRuleUser, routingRule, selector]
  dsimp only
  rcases rules.filter (has "marktag" (.str (plan.mark env))) with _ | ⟨rule, _ | ⟨other, rest⟩⟩
  · rfl
  · show _ = if plan.email env = "" then _ else _
    rw [if_neg email_ne_empty]
    rfl
  · rfl

theorem routedAdminClient_nodup : ((plan.routedAdminClient env).map Prod.fst).Nodup := by
  unfold routedAdminClient
  have distinct := put_nodup (plan.client.getD (env.generateSubscriptionCredential plan.inboundProtocol
    (plan.username env) (plan.email env) plan.outbound)).nodup "email" (.str (plan.email env))
  unfold putDefault
  dsimp only
  split
  · exact distinct
  · exact put_nodup distinct _ _

theorem routedAdminClient_email : (plan.routedAdminClient env).lookup "email" = some (.str (plan.email env)) := by
  rw [routedAdminClient, lookup_putDefault, if_neg (by decide), lookup_put_self]

/-- The configuration `after` the client of the plan was added to `before` and,
perhaps, the excludes; `later` is the inbound then. -/
structure ClientDone (env : RoutedEnv) (plan : RoutedOutboundCreate) (before after : Fields) (sniffed : Bool)
    (entries : List Fields) (current added later : Fields) : Prop where
  atEntries : entriesOf "inbounds" before = .ok entries
  found : findTag entries (.str plan.inboundTag) = .ok current
  atInbounds : after.lookup "inbounds" =
    some (.arr ((replaceEntry (has "tag" (.str plan.inboundTag)) later entries).map .obj))
  others : ∀ key, key ≠ "inbounds" → after.lookup key = before.lookup key
  edited : editClient current (plan.routedAdminClient env) false = .ok added
  same : ∀ key, key ≠ "sniffing" → later.lookup key = added.lookup key
  sniffing : SniffingKept current later ↔ (sniffed = true → ExcludesFree current (plan.sniffingExcludes env))

theorem client_performed (ok : agentEdit validateTls (plan.clientStep env).forward before = .ok after) :
    ∃ entries current added, ClientDone env plan before after false entries current added added := by
  rw [agentEdit_addClient] at ok
  obtain ⟨entries, current, added, atEntries, found, edited, rfl⟩ := onInbound_ok ok
  have kept : SniffingKept current added :=
    (SniffingKept.congr rfl (editClient_other edited (by decide))).mpr (SniffingKept.refl current)
  exact ⟨entries, current, added, atEntries, found, lookup_put_self _ _ _, fun key differs =>
    lookup_put_other differs _ _,
    edited, fun _ _ => rfl, fun _ => nofun, fun _ => kept⟩

theorem ClientDone.excludes_performed {before middle after : Fields} {current added : Fields}
    (done : ClientDone env plan before middle false entries current added added)
    (ok : agentEdit validateTls (plan.sniffingStep env).forward middle = .ok after) :
    ∃ later, ClientDone env plan before after true entries current added later := by
  have tagged : added.lookup "tag" = current.lookup "tag" := editClient_other done.edited (by decide)
  have sniffing : added.lookup "sniffing" = current.lookup "sniffing" := editClient_other done.edited (by decide)
  rw [agentEdit_addExcludes, onInbound_again done.found tagged done.atInbounds] at ok
  cases result : addExcludes added (.arr ((plan.sniffingExcludes env).map .str)) with
  | error error =>
    rw [result] at ok
    cases ok
  | ok later =>
    rw [result] at ok
    cases ok
    obtain ⟨kept, others⟩ := addExcludes_ok result
    have free : ExcludesFree added (plan.sniffingExcludes env) ↔
        ExcludesFree current (plan.sniffingExcludes env) := by
      rw [ExcludesFree, ExcludesFree, sniffing]
    refine ⟨later, done.atEntries, done.found, lookup_put_self _ _ _, fun key differs => ?_,
      done.edited, others, ?_⟩
    · exact (lookup_put_other differs _ _).trans (done.others key differs)
    · rw [← SniffingKept.congr sniffing rfl, kept, free]
      simp

theorem ClientDone.left {sniffed : Bool}
    (done : ClientDone env plan before after sniffed entries current added later) :
    InboundsKept before after ↔
      SettingsKept current added ∧ (sniffed = true → ExcludesFree current (plan.sniffingExcludes env)) := by
  have others : ∀ key, key ≠ "settings" → key ≠ "sniffing" → later.lookup key = current.lookup key :=
    fun key first second => (done.same key second).trans (editClient_other done.edited first)
  rw [inboundsKept_iff done.atEntries done.found done.atInbounds, sameInbound_iff others, done.sniffing,
    SettingsKept,
    SettingsKept, done.same "settings" (by decide)]

theorem ClientDone.undone {before after last : Fields} {sniffed : Bool}
    (done : ClientDone env plan before after sniffed entries current added later)
    (same : last.lookup "inbounds" = after.lookup "inbounds") :
    ∃ final, plan.removeClient env last = .ok final ∧
      (∀ key, key ≠ "inbounds" → final.lookup key = last.lookup key) ∧
      (InboundsKept before final ↔ ClientFree current (plan.email env) (some (plan.routedAdminClient env)) ∧
        (sniffed = true → ExcludesFree current (plan.sniffingExcludes env))) := by
  obtain ⟨final, removed, kept, others⟩ :=
    client_undone email_ne_empty routedAdminClient_nodup routedAdminClient_email
    done.edited (done.same "settings" (by decide)) (done.same "protocol" (by decide))
  have tagged : later.lookup "tag" = current.lookup "tag" :=
    (done.same "tag" (by decide)).trans (editClient_other done.edited (by decide))
  have rest : ∀ key, key ≠ "settings" → key ≠ "sniffing" → final.lookup key = current.lookup key :=
    fun key first second => (others key first).trans
      ((done.same key second).trans (editClient_other done.edited first))
  refine ⟨setEntries "inbounds" (replaceEntry (has "tag" (.str plan.inboundTag)) final entries) last, ?_,
    fun key differs => lookup_put_other differs _ _, ?_⟩
  · rw [removeClient, onInbound_again done.found tagged (same.trans done.atInbounds), removed]
    rfl
  · rw [inboundsKept_iff done.atEntries done.found (lookup_setEntries _ _ _), sameInbound_iff rest, kept,
      SniffingKept.congr rfl (others "sniffing" (by decide)), done.sniffing]

/-- The condition of the client step for the inbound that a plan names. -/
def ClientUndisturbed (env : RoutedEnv) (plan : RoutedOutboundCreate) (config : Fields)
    (client : Option Fields) : Prop :=
  ∀ entries current, entriesOf "inbounds" config = .ok entries →
    findTag entries (.str plan.inboundTag) = .ok current →
    ClientFree current (plan.email env) client

theorem client_refused : (∀ error, plan.removeClient env config = .error error →
    plan.ClientUndisturbed env config none) ∧
    ∀ final, plan.removeClient env config = .ok final →
      (∀ key, key ≠ "inbounds" → final.lookup key = config.lookup key) ∧
      (InboundsKept config final ↔ plan.ClientUndisturbed env config none) := by
  constructor
  · intro error failed entries current atEntries found container list named atList
    unfold removeClient onInbound at failed
    rw [atEntries] at failed
    dsimp only at failed
    rw [found] at failed
    dsimp only at failed
    rw [editClient_remove email_ne_empty named (readClients_eq_ok.mp atList)] at failed
    cases failed
  · intro final ok
    obtain ⟨entries, current, edited, atEntries, found, removed, rfl⟩ := onInbound_ok ok
    obtain ⟨kept, others⟩ := client_removed email_ne_empty removed
    refine ⟨fun key differs => lookup_put_other differs _ _, ?_⟩
    have sniffing : SniffingKept current edited :=
      (SniffingKept.congr rfl (others "sniffing" (by decide))).mpr (SniffingKept.refl current)
    rw [inboundsKept_iff atEntries found (lookup_setEntries _ _ _), sameInbound_iff fun key first _ =>
      others key first, kept]
    constructor
    · intro both entries' current' atEntries' found'
      cases atEntries.symm.trans atEntries'
      cases found.symm.trans found'
      exact both.1
    · exact fun free => ⟨free entries current atEntries found, sniffing⟩

/-- No outbound has the tag of the plan, or several have. -/
def OutboundFree (env : RoutedEnv) (plan : RoutedOutboundCreate) (config : Fields) : Prop :=
  ∀ entries, entriesOf "outbounds" config = .ok entries →
    (entries.filter (has "tag" (.str (plan.tag env)))).length ≠ 1

theorem taggedOutbound_tag : has "tag" (.str (plan.tag env)) (plan.taggedOutbound env) = true := by
  rw [has_iff, taggedOutbound, lookup_put_self]

theorem outbound_performed (ok : agentEdit validateTls (plan.outboundStep env).forward before = .ok after) :
    ∃ entries, entriesOf "outbounds" before = .ok entries ∧ entries.filter (has "tag" (.str (plan.tag env))) = [] ∧
      after = setEntries "outbounds" (entries ++ [plan.taggedOutbound env]) before := by
  unfold outboundStep at ok
  rw [agentEdit_outbounds] at ok
  unfold editEntries at ok
  rw [if_neg (by simp [textOf])] at ok
  cases found : entriesOf "outbounds" before with
  | error error =>
    rw [found] at ok
    cases ok
  | ok entries =>
    rw [found] at ok
    dsimp only at ok
    rw [if_pos (by simp [textOf])] at ok
    cases result : addEntry validateTls "outbounds" [("action", .str "add"),
      ("outbound", .obj (plan.taggedOutbound env))]
        entries with
    | error error =>
      rw [result] at ok
      cases ok
    | ok added =>
      rw [result] at ok
      obtain ⟨item, planned, absent, rfl⟩ := addEntry_ok rfl result
      have tagged : tagOf (plan.taggedOutbound env) = .str (plan.tag env) := by
        rw [tagOf, taggedOutbound, lookup_put_self]
        rfl
      have same : item = plan.taggedOutbound env := by
        have given : taggedItem [("action", .str "add"), ("outbound", .obj (plan.taggedOutbound env))] "outbound" =
            if (tagOf (plan.taggedOutbound env)).truthy then some (plan.taggedOutbound env) else none := rfl
        rw [tagged, if_pos (by simp [Json.truthy, tag_ne_empty])] at given
        exact Option.some.inj (planned.symm.trans given)
      subst same
      rw [tagged] at absent
      exact ⟨entries, rfl, absent, (Except.ok.inj ok).symm⟩

theorem outbound_undone {last : Fields}
    (absent : entries.filter (has "tag" (.str (plan.tag env))) = [])
    (atLast : entriesOf "outbounds" last = .ok (entries ++ [plan.taggedOutbound env])) :
    plan.removeOutbound env last = .ok (setEntries "outbounds" entries last) := by
  have only : (entries ++ [plan.taggedOutbound env]).filter (has "tag" (.str (plan.tag env))) =
      [plan.taggedOutbound env] := by
    rw [filter_append, absent, filter_cons_of_pos taggedOutbound_tag]
    rfl
  unfold removeOutbound
  rw [atLast]
  dsimp only
  rw [findTag_eq_ok.mpr ⟨tag_ne_empty, only⟩, removeEntry_append taggedOutbound_tag absent]
  rfl

theorem outbound_refused : (∀ error, plan.removeOutbound env config = .error error → plan.OutboundFree env config) ∧
    ∀ final, plan.removeOutbound env config = .ok final →
      (∀ key, key ≠ "outbounds" → final.lookup key = config.lookup key) ∧
      ¬ plan.OutboundFree env config ∧ ¬ OutboundsKept config final := by
  unfold removeOutbound
  cases found : entriesOf "outbounds" config with
  | error error =>
    refine ⟨fun _ _ entries atEntries => ?_, nofun⟩
    cases found.symm.trans atEntries
  | ok entries =>
    dsimp only
    constructor
    · intro error failed others atOthers single
      cases found.symm.trans atOthers
      obtain ⟨entry, only⟩ := List.length_eq_one_iff.mp single
      rw [findTag_eq_ok.mpr ⟨tag_ne_empty, only⟩] at failed
      cases failed
    · intro final ok
      cases result : findTag entries (.str (plan.tag env)) with
      | error error =>
        rw [result] at ok
        cases ok
      | ok entry =>
        rw [result] at ok
        cases ok
        have only := (findTag_eq_ok.mp result).2
        refine ⟨fun key differs => lookup_put_other differs _ _, fun free =>
          free entries found (by rw [only]; rfl), ?_⟩
        rw [OutboundsKept, lookup_setEntries, entriesOf_eq_ok.mp found, Option.getD_some, Json.arr.injEq]
        intro same
        have length := congrArg List.length same
        have fewer := length_eq_length_filter_add (l := entries) (has "tag" (.str (plan.tag env)))
        rw [only, length_singleton] at fewer
        rw [removeEntry, length_map, length_map] at length
        omega

theorem rule_performed (ok : agentEdit validateTls (plan.ruleStep env).forward before = .ok after) :
    ∃ routing rules added, (before.lookup "routing").getD (.obj []) = .obj routing ∧
      entriesOf "rules" routing = .ok rules ∧
      added.filter (has "marktag" (.str (plan.mark env))) = [plan.rule env] ∧
      removeUser added (has "marktag" (.str (plan.mark env))) (plan.rule env) (plan.email env) = .ok rules ∧
      after = put "routing" (.obj (setEntries "rules" added routing)) before := by
  rw [agentEdit_addRule] at ok
  obtain ⟨routing, rules, added, atRouting, atRules, result, rfl⟩ := onRules_ok ok
  have marked : (plan.rule env).lookup "marktag" = some (.str (plan.mark env)) := rfl
  have users : (plan.rule env).lookup "user" = some (.arr [.str (plan.email env)]) := rfl
  obtain ⟨only, removed⟩ := rule_undone rfl rfl marked mark_ne_empty users result
  exact ⟨routing, rules, added, atRouting, atRules, only, removed, rfl⟩

theorem rule_removed {before last routing : Fields} {rules added : List Fields}
    (atRouting : (before.lookup "routing").getD (.obj []) = .obj routing)
    (atRules : entriesOf "rules" routing = .ok rules)
    (only : added.filter (has "marktag" (.str (plan.mark env))) = [plan.rule env])
    (removed : removeUser added (has "marktag" (.str (plan.mark env))) (plan.rule env) (plan.email env) = .ok rules)
    (atLast : last.lookup "routing" = some (.obj (setEntries "rules" added routing))) :
    ∃ final, plan.removeRuleUser env last = .ok final ∧
      (∀ key, key ≠ "routing" → final.lookup key = last.lookup key) ∧
      RoutingKept before final := by
  refine ⟨put "routing" (.obj (setEntries "rules" rules (setEntries "rules" added routing))) last, ?_,
    fun key differs => lookup_put_other differs _ _, ?_⟩
  · have atAdded : (last.lookup "routing").getD (.obj []) = .obj (setEntries "rules" added routing) := by
      rw [atLast]
      rfl
    rw [removeRuleUser, onRules_of atAdded entriesOf_setEntries, only]
    dsimp only
    rw [removed]
    rfl
  · have twice : setEntries "rules" rules (setEntries "rules" added routing) = setEntries "rules" rules routing :=
      put_put _ _ _ _
    rw [routingKept_iff atRouting atRules (by rw [lookup_put_self, twice]), forall₂_same]
    exact fun rule _ => SameRule.refl rule

theorem rule_refused : (∀ error, plan.removeRuleUser env config = .error error →
      RuleFree config (plan.mark env) (plan.email env)) ∧
    ∀ final, plan.removeRuleUser env config = .ok final →
      (∀ key, key ≠ "routing" → final.lookup key = config.lookup key) ∧
      (RoutingKept config final ↔ RuleFree config (plan.mark env) (plan.email env)) := by
  constructor
  · intro error failed routing rules rule items atRouting atRules only users member
    rw [removeRuleUser, onRules_of atRouting atRules, only] at failed
    obtain ⟨edited, ok⟩ : ∃ edited, removeUser rules (has "marktag" (.str (plan.mark env))) rule (plan.email env) =
        .ok edited := removeUser_ok users member
    dsimp only at failed
    rw [ok] at failed
    cases failed
  · intro final ok
    obtain ⟨routing, rules, edited, atRouting, atRules, result, rfl⟩ := onRules_ok ok
    refine ⟨fun key differs => lookup_put_other differs _ _, ?_⟩
    rw [routingKept_iff atRouting atRules (lookup_put_self _ _ _)]
    split at result
    · rename_i rule only
      rw [user_removed only result]
      constructor
      · intro free routing' rules' rule' items atRouting' atRules' only' users
        cases atRouting.symm.trans atRouting'
        cases atRules.symm.trans atRules'
        cases only.symm.trans only'
        exact free items users
      · exact fun free items users => free routing rules rule items atRouting atRules only users
    · cases result

/-- The number of steps that add sniffing excludes. -/
def sniffingSteps (env : RoutedEnv) (plan : RoutedOutboundCreate) : Nat :=
  if plan.sniffingExcludes env = [] then 0 else 1

/-- Whether the excludes were added within the first steps. -/
def sniffed (env : RoutedEnv) (plan : RoutedOutboundCreate) (performed : Nat) : Bool :=
  plan.sniffingExcludes env ≠ [] ∧ 2 ≤ performed

theorem steps_length : (plan.steps env).length = plan.sniffingSteps env + 3 := by
  unfold steps sniffingSteps
  split <;> rfl

theorem compensators_take (k : Nat) : compensators ((plan.steps env).take k) =
    if k = 0 then []
    else if k ≤ plan.sniffingSteps env + 1 then [plan.clientRollback env]
    else if k = plan.sniffingSteps env + 2 then [plan.outboundRollback env, plan.clientRollback env]
    else [plan.ruleRollback env, plan.outboundRollback env, plan.clientRollback env] := by
  unfold steps sniffingSteps
  split
  · match k with
    | 0 => rfl
    | 1 => rfl
    | 2 => rfl
    | k + 3 => simp [compensators, clientStep, outboundStep, ruleStep]
  · match k with
    | 0 => rfl
    | 1 => rfl
    | 2 => rfl
    | 3 => rfl
    | k + 4 => simp [compensators, clientStep, outboundStep, ruleStep, sniffingStep]

theorem performSteps_cons {step : ChangeStep} {rest : List ChangeStep}
    (ok : performSteps validateTls (step :: rest) before = .ok after) :
    ∃ middle, agentEdit validateTls step.forward before = .ok middle ∧
      performSteps validateTls rest middle = .ok after := by
  unfold performSteps at ok
  split at ok
  · cases ok
  · rename_i middle edited
    exact ⟨middle, edited, ok⟩

theorem performSteps_last {middle after : Fields} {n : Nat}
    (ok : performSteps validateTls ([plan.outboundStep env, plan.ruleStep env].take n) middle = .ok after) :
    n = 0 ∧ after = middle ∨ n = 1 ∧ agentEdit validateTls (plan.outboundStep env).forward middle = .ok after ∨
      2 ≤ n ∧ ∃ last, agentEdit validateTls (plan.outboundStep env).forward middle = .ok last ∧
        agentEdit validateTls (plan.ruleStep env).forward last = .ok after := by
  match n with
  | 0 => exact .inl ⟨rfl, (Except.ok.inj ok).symm⟩
  | 1 =>
    obtain ⟨last, added, rest⟩ := performSteps_cons ok
    cases rest
    exact .inr (.inl ⟨rfl, added⟩)
  | n + 2 =>
    obtain ⟨last, added, rest⟩ := performSteps_cons ok
    rw [take_succ_cons] at rest
    obtain ⟨final, ruled, rest⟩ := performSteps_cons rest
    rw [take_nil] at rest
    cases rest
    exact .inr (.inr ⟨by omega, last, added, ruled⟩)

theorem performSteps_cases {n : Nat} (ok : performSteps validateTls ((plan.steps env).take n) before = .ok after) :
    n = 0 ∧ after = before ∨ (1 ≤ n ∧ n ≤ plan.sniffingSteps env + 1 ∧ ∃ entries current added later,
        ClientDone env plan before after (plan.sniffed env n) entries current added later) ∨
      (∃ middle entries current added later, plan.sniffingSteps env + 2 ≤ n ∧
        ClientDone env plan before middle (plan.sniffed env n) entries current added later ∧
        (n = plan.sniffingSteps env + 2 ∧ agentEdit validateTls (plan.outboundStep env).forward middle = .ok after ∨
          plan.sniffingSteps env + 3 ≤ n ∧
            ∃ last, agentEdit validateTls (plan.outboundStep env).forward middle = .ok last ∧
            agentEdit validateTls (plan.ruleStep env).forward last = .ok after)) := by
  cases n with
  | zero => exact .inl ⟨rfl, (Except.ok.inj ok).symm⟩
  | succ n =>
    unfold steps at ok
    rw [take_succ_cons] at ok
    obtain ⟨first, added, rest⟩ := performSteps_cons ok
    obtain ⟨entries, current, client, done⟩ := client_performed added
    by_cases none : plan.sniffingExcludes env = []
    · have count : plan.sniffingSteps env = 0 := if_pos none
      have plain : plan.sniffed env (n + 1) = false := by simp [sniffed, none]
      rw [if_pos none, nil_append] at rest
      rw [count, plain]
      rcases performSteps_last rest with ⟨rfl, rfl⟩ | ⟨rfl, outbound⟩ | ⟨bound, last, outbound, rule⟩
      · exact .inr (.inl ⟨le_rfl, le_rfl, entries, current, client, client, done⟩)
      · exact .inr (.inr ⟨first, entries, current, client, client, le_rfl, done, .inl ⟨rfl, outbound⟩⟩)
      · exact .inr (.inr ⟨first, entries, current, client, client, by
          omega, done, .inr ⟨by omega, last, outbound, rule⟩⟩)
    · have count : plan.sniffingSteps env = 1 := if_neg none
      rw [if_neg none, singleton_append] at rest
      rw [count]
      cases n with
      | zero =>
        have plain : plan.sniffed env 1 = false := by simp [sniffed]
        cases rest
        rw [plain]
        exact .inr (.inl ⟨le_rfl, by omega, entries, current, client, client, done⟩)
      | succ n =>
        have both : plan.sniffed env (n + 2) = true := by simp [sniffed, none]
        rw [take_succ_cons] at rest
        obtain ⟨second, excluded, rest⟩ := performSteps_cons rest
        obtain ⟨later, done⟩ := done.excludes_performed excluded
        rw [both]
        rcases performSteps_last rest with ⟨rfl, rfl⟩ | ⟨rfl, outbound⟩ | ⟨bound, last, outbound, rule⟩
        · exact .inr (.inl ⟨by omega, le_rfl, entries, current, client, later, done⟩)
        · exact .inr (.inr ⟨second, entries, current, client, later, le_rfl, done, .inl ⟨rfl, outbound⟩⟩)
        · exact .inr (.inr ⟨second, entries, current, client, later, by
            omega, done, .inr ⟨by omega, last, outbound, rule⟩⟩)

/-- The condition of the sniffing step. -/
def ExcludesUndisturbed (env : RoutedEnv) (plan : RoutedOutboundCreate) (config : Fields) : Prop :=
  ∀ entries current, entriesOf "inbounds" config = .ok entries →
    findTag entries (.str plan.inboundTag) = .ok current →
    ExcludesFree current (plan.sniffingExcludes env)

/-- The client of the plan is already there. -/
def ClientInPlace (env : RoutedEnv) (plan : RoutedOutboundCreate) (config : Fields) : Prop :=
  ∀ entries current, entriesOf "inbounds" config = .ok entries →
    findTag entries (.str plan.inboundTag) = .ok current →
    ClientThere current (plan.routedAdminClient env) (plan.email env)

/-- Exactly one rule has the mark of the plan, and its users are a list or can
be searched without finding the email. -/
def RuleSelectable (env : RoutedEnv) (plan : RoutedOutboundCreate) (config : Fields) : Prop :=
  ∃ routing rules rule, (config.lookup "routing").getD (.obj []) = .obj routing ∧
    entriesOf "rules" routing = .ok rules ∧
    rules.filter (has "marktag" (.str (plan.mark env))) = [rule] ∧
    ((∃ items, (rule.lookup "user").getD (.arr []) = .arr items) ∨
      holdsUser ((rule.lookup "user").getD (.arr [])) (plan.email env) = .ok false)

theorem removeRuleUser_ok : (∃ edited, plan.removeRuleUser env config = .ok edited) ↔
    plan.RuleSelectable env config := by
  constructor
  · rintro ⟨edited, ok⟩
    obtain ⟨routing, rules, final, atRouting, atRules, result, -⟩ := onRules_ok ok
    split at result
    · rename_i rule only
      refine ⟨routing, rules, rule, atRouting, atRules, only, ?_⟩
      unfold removeUser at result
      dsimp only at result
      split at result
      · cases result
      · rename_i free
        exact .inr free
      · split at result
        · rename_i items users
          exact .inl ⟨items, users⟩
        · cases result
    · cases result
  · rintro ⟨routing, rules, rule, atRouting, atRules, only, readable⟩
    obtain ⟨final, removed⟩ : ∃ final,
      removeUser rules (has "marktag" (.str (plan.mark env))) rule (plan.email env) =
        .ok final := by
      unfold removeUser
      dsimp only
      rcases readable with ⟨items, users⟩ | free
      · rw [users, holdsUser]
        dsimp only
        split
        · rename_i never
          cases never
        · exact ⟨_, rfl⟩
        · split <;> exact ⟨_, rfl⟩
      · rw [free]
        exact ⟨_, rfl⟩
    rw [removeRuleUser, onRules_of atRouting atRules, only]
    dsimp only
    rw [removed]
    exact ⟨_, rfl⟩

/-- Whether a run stops at an outbound, or at a rule, that the Agent refuses. -/
def OutboundRefused (env : RoutedEnv) (plan : RoutedOutboundCreate) (stop : RunStop) : Prop :=
  stop.refused = true ∧ stop.performed = plan.sniffingSteps env + 1

def RuleRefused (env : RoutedEnv) (plan : RoutedOutboundCreate) (stop : RunStop) : Prop :=
  stop.refused = true ∧ stop.performed = plan.sniffingSteps env + 2

/-- Nothing that the configuration had before is taken for what the plan adds. -/
structure Undisturbed (env : RoutedEnv) (plan : RoutedOutboundCreate) (stop : RunStop)
    (config : Fields) : Prop where
  refusedClient : stop.performed = 0 → stop.refused = true → plan.ClientUndisturbed env config none
  client : 1 ≤ stop.performed → plan.ClientUndisturbed env config (some (plan.routedAdminClient env))
  excludes : plan.sniffed env stop.performed = true → plan.ExcludesUndisturbed env config
  outbound : plan.OutboundRefused env stop → plan.OutboundFree env config
  rule : plan.RuleRefused env stop → RuleFree config (plan.mark env) (plan.email env)

/-- The same when the queue skips what depends on a refused compensator: the
compensator of a refused outbound then leaves the client in place. -/
structure ChainUndisturbed (env : RoutedEnv) (plan : RoutedOutboundCreate) (stop : RunStop)
    (config : Fields) : Prop where
  refused : plan.OutboundRefused env stop → plan.OutboundFree env config ∧ plan.ClientInPlace env config ∧
    (plan.sniffed env stop.performed = true → plan.ExcludesUndisturbed env config)
  others : ¬ plan.OutboundRefused env stop → plan.Undisturbed env stop config
  rule : plan.RuleRefused env stop → plan.RuleSelectable env config

theorem OutboundFree.congr {other : Fields} (same : other.lookup "outbounds" = config.lookup "outbounds") :
    plan.OutboundFree env other ↔ plan.OutboundFree env config := by
  rw [OutboundFree, OutboundFree, entriesOf_congr same]

theorem ClientDone.client_iff {sniffed : Bool}
    (done : ClientDone env plan before after sniffed entries current added later)
    {client : Option Fields} : plan.ClientUndisturbed env before client ↔
      ClientFree current (plan.email env) client := by
  refine ⟨fun free => free entries current done.atEntries done.found,
    fun free entries' current' atEntries' found' => ?_⟩
  cases done.atEntries.symm.trans atEntries'
  cases done.found.symm.trans found'
  exact free

theorem ClientDone.excludes_iff {sniffed : Bool}
    (done : ClientDone env plan before after sniffed entries current added later) :
    plan.ExcludesUndisturbed env before ↔ ExcludesFree current (plan.sniffingExcludes env) := by
  refine ⟨fun free => free entries current done.atEntries done.found,
    fun free entries' current' atEntries' found' => ?_⟩
  cases done.atEntries.symm.trans atEntries'
  cases done.found.symm.trans found'
  exact free

theorem ClientDone.inPlace_iff {sniffed : Bool}
    (done : ClientDone env plan before after sniffed entries current added later) :
    plan.ClientInPlace env before ↔ SettingsKept current added := by
  rw [client_added email_ne_empty routedAdminClient_nodup routedAdminClient_email done.edited]
  refine ⟨fun there => there entries current done.atEntries done.found,
    fun there entries' current' atEntries' found' => ?_⟩
  cases done.atEntries.symm.trans atEntries'
  cases done.found.symm.trans found'
  exact there

theorem ClientDone.restored {before after last : Fields} {sniffed : Bool}
    (done : ClientDone env plan before after sniffed entries current added later)
    (same : last.lookup "inbounds" = after.lookup "inbounds")
    (others : ∀ key, key ∉ ["inbounds", "outbounds", "routing"] → last.lookup key = before.lookup key)
    (halts : Bool) :
    Restored before (compensate validateTls halts [plan.clientRollback env] last) ↔
      (plan.ClientUndisturbed env before (some (plan.routedAdminClient env)) ∧
        (sniffed = true → plan.ExcludesUndisturbed env before)) ∧ OutboundsKept before last ∧
          RoutingKept before last := by
  obtain ⟨final, removed, kept, inbounds⟩ := done.undone same
  have undone : compensate validateTls halts [plan.clientRollback env] last = final := by
    rw [compensate, agentEdit_clientRollback, removed]
    rfl
  rw [undone, restored_iff fun key other =>
    (kept key fun here => other (here ▸ mem_cons_self)).trans (others key other),
    inbounds, done.client_iff, done.excludes_iff, OutboundsKept, OutboundsKept, RoutingKept, RoutingKept,
    kept "outbounds" (by decide), kept "routing" (by decide)]

theorem ClientDone.restored_outbound {before middle after last : Fields} {sniffed : Bool}
    (done : ClientDone env plan before middle sniffed entries current added later)
    (ok : agentEdit validateTls (plan.outboundStep env).forward middle = .ok after)
    (same : ∀ key, key ≠ "routing" → last.lookup key = after.lookup key) (halts : Bool) :
    Restored before (compensate validateTls halts [plan.outboundRollback env, plan.clientRollback env] last) ↔
      (plan.ClientUndisturbed env before (some (plan.routedAdminClient env)) ∧
        (sniffed = true → plan.ExcludesUndisturbed env before)) ∧ RoutingKept before last := by
  obtain ⟨outbounds, atMiddle, absent, rfl⟩ := outbound_performed ok
  have atLast : entriesOf "outbounds" last = .ok (outbounds ++ [plan.taggedOutbound env]) := by
    rw [entriesOf_congr (same "outbounds" (by decide)), entriesOf_setEntries]
  have undone := outbound_undone absent atLast
  have kept : OutboundsKept before (setEntries "outbounds" outbounds last) := by
    rw [OutboundsKept, lookup_setEntries, ← done.others "outbounds" (by decide), entriesOf_eq_ok.mp atMiddle]
    rfl
  have inbounds : (setEntries "outbounds" outbounds last).lookup "inbounds" = middle.lookup "inbounds" := by
    rw [setEntries, lookup_put_other (by decide), same "inbounds" (by decide), setEntries,
      lookup_put_other (by decide)]
  have others : ∀ key, key ∉ ["inbounds", "outbounds", "routing"] →
      (setEntries "outbounds" outbounds last).lookup key = before.lookup key := by
    intro key other
    simp only [mem_cons, not_mem_nil, or_false, not_or] at other
    rw [setEntries, lookup_put_other other.2.1, same key other.2.2, setEntries, lookup_put_other other.2.1,
      done.others key other.1]
  have routing : (setEntries "outbounds" outbounds last).lookup "routing" = last.lookup "routing" :=
    lookup_put_other (by decide) _ _
  have step : compensate validateTls halts [plan.outboundRollback env, plan.clientRollback env] last =
      compensate validateTls halts [plan.clientRollback env] (setEntries "outbounds" outbounds last) := by
    rw [compensate, agentEdit_outboundRollback, undone]
  rw [step, done.restored inbounds others halts, RoutingKept, RoutingKept, routing]
  exact ⟨fun all => ⟨all.1, all.2.2⟩, fun all => ⟨all.1, kept, all.2⟩⟩

theorem ClientDone.not_restored {before middle after : Fields} {sniffed : Bool}
    (done : ClientDone env plan before middle sniffed entries current added later)
    (ok : agentEdit validateTls (plan.outboundStep env).forward middle = .ok after) : ¬ Restored before after := by
  obtain ⟨outbounds, atMiddle, absent, rfl⟩ := outbound_performed ok
  intro restored
  have same := restored.outbounds
  rw [lookup_setEntries, ← done.others "outbounds" (by decide), entriesOf_eq_ok.mp atMiddle, Option.getD_some,
    Json.arr.injEq] at same
  have length := congrArg List.length same
  rw [length_map, length_map, length_append, length_singleton] at length
  omega

section Law

variable {before after : Fields} {stop : RunStop}

theorem undisturbed_iff (performed : 1 ≤ stop.performed) : plan.Undisturbed env stop before ↔
    (plan.ClientUndisturbed env before (some (plan.routedAdminClient env)) ∧
      (plan.sniffed env stop.performed = true → plan.ExcludesUndisturbed env before)) ∧
    (plan.OutboundRefused env stop → plan.OutboundFree env before) ∧
    (plan.RuleRefused env stop → RuleFree before (plan.mark env) (plan.email env)) :=
  ⟨fun all => ⟨⟨all.client performed, all.excludes⟩, all.outbound, all.rule⟩,
    fun all => ⟨fun none => absurd none (by omega), fun _ => all.1.1, all.1.2, all.2.1, all.2.2⟩⟩

theorem chain_iff (accepted : ¬ plan.OutboundRefused env stop) (unruled : ¬ plan.RuleRefused env stop) :
    plan.ChainUndisturbed env stop before ↔ plan.Undisturbed env stop before :=
  ⟨fun all => all.others accepted, fun all => ⟨fun refused => absurd refused accepted, fun _ => all, fun refused =>
    absurd refused unruled⟩⟩

/-- The condition for either way to run the compensators. -/
def Restorable (env : RoutedEnv) (plan : RoutedOutboundCreate) (halts : Bool) (stop : RunStop)
    (config : Fields) : Prop :=
  if halts then plan.ChainUndisturbed env stop config else plan.Undisturbed env stop config

theorem restorable_iff (accepted : ¬ plan.OutboundRefused env stop) (unruled : ¬ plan.RuleRefused env stop)
    (halts : Bool) :
    plan.Restorable env halts stop before ↔ plan.Undisturbed env stop before := by
  cases halts with
  | false => exact Iff.rfl
  | true => exact chain_iff accepted unruled

theorem restorable_untouched (none : stop.performed = 0) (accepted : stop.refused ≠ true) (halts : Bool) :
    plan.Restorable env halts stop before := by
  refine (restorable_iff (fun both => accepted both.1) (fun both => accepted both.1) halts).mpr
    ⟨fun _ refused => absurd refused accepted, fun performed => by omega, fun excluded => ?_,
      fun both => absurd both.1 accepted, fun both => absurd both.1 accepted⟩
  simp [sniffed, none] at excluded

variable {halts : Bool}

theorem restored_clientRefused (none : stop.performed = 0) (refused : stop.refused = true) :
    Restored before (compensate validateTls halts [plan.clientRollback env] before) ↔
      plan.Restorable env halts stop before := by
  have accepted : ¬ plan.OutboundRefused env stop := fun both => by have := both.2; omega
  have unruled : ¬ plan.RuleRefused env stop := fun both => by have := both.2; omega
  have condition : plan.Undisturbed env stop before ↔ plan.ClientUndisturbed env before Option.none := by
    refine ⟨fun all => all.refusedClient none refused, fun free =>
      ⟨fun _ _ => free, fun some => ?_, fun excluded => ?_,
      fun both => absurd both accepted, fun both => absurd both unruled⟩⟩
    · omega
    · simp [sniffed, none] at excluded
  rw [restorable_iff accepted unruled, condition, compensate, agentEdit_clientRollback]
  obtain ⟨failed, removed⟩ := @client_refused env plan before
  cases result : plan.removeClient env before with
  | error error =>
    have kept : compensate validateTls halts [] before = before := rfl
    simp only [kept, ite_self]
    exact ⟨fun _ => failed error result, fun _ => .refl before⟩
  | ok final =>
    obtain ⟨others, inbounds⟩ := removed final result
    have rest : ∀ key, key ∉ ["inbounds", "outbounds", "routing"] → final.lookup key = before.lookup key :=
      fun key other => others key fun here => other (here ▸ mem_cons_self)
    show Restored before final ↔ _
    rw [restored_iff rest, inbounds]
    exact ⟨fun all => all.1, fun free =>
      ⟨free, .of_eq (others "outbounds" (by decide)), .of_eq (others "routing" (by decide))⟩⟩

theorem ClientDone.restored_front
    (done : ClientDone env plan before after (plan.sniffed env stop.performed) entries current added later)
    (performed : 1 ≤ stop.performed) (accepted : ¬ plan.OutboundRefused env stop)
    (unruled : ¬ plan.RuleRefused env stop) :
    Restored before (compensate validateTls halts [plan.clientRollback env] after) ↔
      plan.Restorable env halts stop before := by
  rw [restorable_iff accepted unruled, undisturbed_iff performed,
    done.restored rfl fun key other => done.others key fun here => other (here ▸ mem_cons_self)]
  constructor
  · exact fun all => ⟨all.1, fun both => absurd both accepted, fun both => absurd both unruled⟩
  · exact fun all => ⟨all.1, .of_eq (done.others "outbounds" (by decide)),
      .of_eq (done.others "routing" (by decide))⟩

theorem ClientDone.restored_outboundRefused
    (done : ClientDone env plan before after (plan.sniffed env stop.performed) entries current added later)
    (refused : plan.OutboundRefused env stop) :
    Restored before (compensate validateTls halts [plan.outboundRollback env, plan.clientRollback env] after) ↔
      plan.Restorable env halts stop before := by
  have performed : 1 ≤ stop.performed := by have := refused.2; omega
  have unruled : ¬ plan.RuleRefused env stop := fun both => by have := both.2; have := refused.2; omega
  have free : plan.OutboundFree env after ↔ plan.OutboundFree env before :=
    OutboundFree.congr (done.others "outbounds" (by decide))
  have rest : ∀ key, key ∉ ["inbounds", "outbounds", "routing"] → after.lookup key = before.lookup key :=
    fun key other => done.others key fun here => other (here ▸ mem_cons_self)
  obtain ⟨failed, removed⟩ := @outbound_refused env plan after
  rw [compensate, agentEdit_outboundRollback]
  cases result : plan.removeOutbound env after with
  | error error =>
    have absent := free.mp (failed error result)
    cases halts with
    | false =>
      rw [if_neg (by decide), done.restored rfl rest]
      show _ ↔ plan.Undisturbed env stop before
      rw [undisturbed_iff performed]
      exact ⟨fun all => ⟨all.1, fun _ => absent, fun both => absurd both unruled⟩, fun all =>
        ⟨all.1, .of_eq (done.others "outbounds" (by decide)), .of_eq (done.others "routing" (by decide))⟩⟩
    | true =>
      -- The client stays where it is, so it must have been there before.
      rw [if_pos rfl, restored_iff rest, done.left, ← done.inPlace_iff, ← done.excludes_iff]
      refine ⟨fun all => ⟨fun _ => ⟨absent, all.1.1, all.1.2⟩, fun accepted => absurd refused accepted,
        fun both => absurd both unruled⟩, fun all => ?_⟩
      exact ⟨(all.refused refused).2, .of_eq (done.others "outbounds" (by decide)),
        .of_eq (done.others "routing" (by decide))⟩
  | ok final =>
    obtain ⟨others, taken, lost⟩ := removed final result
    have inbounds : final.lookup "inbounds" = after.lookup "inbounds" := others "inbounds" (by decide)
    have rest' : ∀ key, key ∉ ["inbounds", "outbounds", "routing"] → final.lookup key = before.lookup key := by
      intro key other
      refine (others key ?_).trans (rest key other)
      simp only [mem_cons, not_mem_nil, or_false, not_or] at other
      exact other.2.1
    rw [done.restored inbounds rest']
    constructor
    · intro all
      have same := all.2.1
      rw [OutboundsKept, ← done.others "outbounds" (by decide)] at same
      exact absurd same lost
    · intro all
      have there : plan.OutboundFree env before := by
        cases halts with
        | false => exact Undisturbed.outbound all refused
        | true => exact (ChainUndisturbed.refused all refused).1
      exact absurd (free.mpr there) taken

theorem ClientDone.restored_unruled {middle : Fields}
    (done : ClientDone env plan before middle (plan.sniffed env stop.performed) entries current added later)
    (ok : agentEdit validateTls (plan.outboundStep env).forward middle = .ok after) (performed : 1 ≤ stop.performed)
    (accepted : ¬ plan.OutboundRefused env stop) (unruled : ¬ plan.RuleRefused env stop) :
    Restored before (compensate validateTls halts [plan.outboundRollback env, plan.clientRollback env] after) ↔
      plan.Restorable env halts stop before := by
  have routing : after.lookup "routing" = before.lookup "routing" := by
    obtain ⟨outbounds, _, _, rfl⟩ := outbound_performed ok
    rw [setEntries, lookup_put_other (by decide), done.others "routing" (by decide)]
  rw [restorable_iff accepted unruled, undisturbed_iff performed, done.restored_outbound ok fun _ _ => rfl]
  constructor
  · exact fun all => ⟨all.1, fun both => absurd both accepted, fun both => absurd both unruled⟩
  · exact fun all => ⟨all.1, .of_eq routing⟩

theorem ClientDone.restored_ruleRefused {middle : Fields}
    (done : ClientDone env plan before middle (plan.sniffed env stop.performed) entries current added later)
    (ok : agentEdit validateTls (plan.outboundStep env).forward middle = .ok after)
    (refused : plan.RuleRefused env stop) :
    Restored before (compensate validateTls halts
        [plan.ruleRollback env, plan.outboundRollback env, plan.clientRollback env] after) ↔
      plan.Restorable env halts stop before := by
  have performed : 1 ≤ stop.performed := by have := refused.2; omega
  have accepted : ¬ plan.OutboundRefused env stop := fun both => by have := both.2; have := refused.2; omega
  have routing : after.lookup "routing" = before.lookup "routing" := by
    obtain ⟨outbounds, _, _, rfl⟩ := outbound_performed ok
    rw [setEntries, lookup_put_other (by decide), done.others "routing" (by decide)]
  have free : RuleFree after (plan.mark env) (plan.email env) ↔ RuleFree before (plan.mark env) (plan.email env) :=
    RuleFree.congr routing
  have selectable : plan.RuleSelectable env after ↔ plan.RuleSelectable env before := by
    rw [RuleSelectable, RuleSelectable, routing]
  have restorable : plan.Restorable env halts stop before ↔
      plan.Undisturbed env stop before ∧ (halts = true → plan.RuleSelectable env before) := by
    cases halts with
    | false => exact ⟨fun all => ⟨all, fun no => by cases no⟩, fun all => all.1⟩
    | true => exact ⟨fun all => ⟨ChainUndisturbed.others all accepted, fun _ => ChainUndisturbed.rule all refused⟩,
        fun all => ⟨fun both => absurd both accepted, fun _ => all.1, fun _ => all.2 rfl⟩⟩
  obtain ⟨failed, removed⟩ := @rule_refused env plan after
  rw [restorable, undisturbed_iff performed, compensate, agentEdit_ruleRollback]
  cases result : plan.removeRuleUser env after with
  | error error =>
    cases halts with
    | false =>
      rw [if_neg (by decide), done.restored_outbound ok fun _ _ => rfl]
      exact ⟨fun all => ⟨⟨all.1, fun both => absurd both accepted, fun _ => free.mp (failed error result)⟩,
        fun no => by cases no⟩,
        fun all => ⟨all.1.1, .of_eq routing⟩⟩
    | true =>
      rw [if_pos rfl]
      refine ⟨fun restored => absurd restored (done.not_restored ok), fun all => ?_⟩
      obtain ⟨edited, found⟩ := removeRuleUser_ok.mpr (selectable.mpr (all.2 rfl))
      cases result.symm.trans found
  | ok final =>
    obtain ⟨others, kept⟩ := removed final result
    rw [done.restored_outbound ok others]
    have same : RoutingKept before final ↔ RuleFree before (plan.mark env) (plan.email env) := by
      rw [← free, ← kept, RoutingKept, RoutingKept, routing]
    rw [same]
    exact ⟨fun all => ⟨⟨all.1, fun both => absurd both accepted, fun _ => all.2⟩, fun _ =>
      selectable.mp (removeRuleUser_ok.mp ⟨final, result⟩)⟩,
      fun all => ⟨all.1.1, all.1.2.2 refused⟩⟩

theorem ClientDone.restored_whole {middle last : Fields}
    (done : ClientDone env plan before middle (plan.sniffed env stop.performed) entries current added later)
    (outbound : agentEdit validateTls (plan.outboundStep env).forward middle = .ok last)
    (rule : agentEdit validateTls (plan.ruleStep env).forward last = .ok after) (performed : 1 ≤ stop.performed)
    (accepted : ¬ plan.OutboundRefused env stop) (unruled : ¬ plan.RuleRefused env stop) :
    Restored before (compensate validateTls halts
        [plan.ruleRollback env, plan.outboundRollback env, plan.clientRollback env] after) ↔
      plan.Restorable env halts stop before := by
  obtain ⟨routing, rules, ruled, atRouting, atRules, only, removed, rfl⟩ := rule_performed rule
  have same : last.lookup "routing" = before.lookup "routing" := by
    obtain ⟨outbounds, _, _, rfl⟩ := outbound_performed outbound
    rw [setEntries, lookup_put_other (by decide), done.others "routing" (by decide)]
  have atBefore : (before.lookup "routing").getD (.obj []) = .obj routing := same ▸ atRouting
  obtain ⟨final, undone, others, kept⟩ := rule_removed atBefore atRules only removed
    (lookup_put_self "routing" _ last)
  rw [compensate, agentEdit_ruleRollback, undone, restorable_iff accepted unruled, undisturbed_iff performed]
  rw [done.restored_outbound outbound fun key differs => (others key differs).trans (lookup_put_other differs _ _)]
  constructor
  · exact fun all => ⟨all.1, fun both => absurd both accepted, fun both => absurd both unruled⟩
  · exact fun all => ⟨all.1, kept⟩

end Law

/-- The rollback of a plan restores the node just when nothing that was there
before is taken for what the plan adds, wherever the forward run stops and
whether or not a refused compensator holds up the others. -/
theorem rolledBack_restored (env : RoutedEnv) (plan : RoutedOutboundCreate) (validateTls : Fields → Option String)
    (config current : Fields) (stop : RunStop)
    (inside : stop.refused = true → stop.performed < (plan.steps env).length)
    (forward : performSteps validateTls ((plan.steps env).take stop.performed) config = .ok current)
    (halts : Bool) :
    Restored config (rolledBack validateTls halts (plan.steps env) stop current) ↔
      plan.Restorable env halts stop config := by
  rw [steps_length] at inside
  unfold rolledBack RunStop.attempted
  rw [compensators_take]
  have one : stop.refused = true → stop.refused.toNat = 1 := by
    intro refused
    rw [refused]
    rfl
  have zero : stop.refused ≠ true → stop.refused.toNat = 0 := by
    intro accepted
    rw [Bool.eq_false_of_not_eq_true accepted]
    rfl
  rcases performSteps_cases forward with ⟨none, rfl⟩ | ⟨performed, bound, entries, found, added, later, done⟩ |
    ⟨middle, entries, found, added, later, bound, done, ⟨count, outbound⟩ | ⟨more, last, outbound, rule⟩⟩
  · by_cases refused : stop.refused = true
    · have next := one refused
      rw [if_neg (by omega), if_pos (by omega)]
      exact restored_clientRefused none refused
    · have next := zero refused
      rw [if_pos (by omega)]
      exact iff_of_true (.refl current) (restorable_untouched none refused halts)
  · by_cases refused : plan.OutboundRefused env stop
    · have next := one refused.1
      have here := refused.2
      rw [if_neg (by omega), if_neg (by omega), if_pos (by omega)]
      exact done.restored_outboundRefused refused
    · have unruled : ¬ plan.RuleRefused env stop := fun both => by have := both.2; omega
      have next : stop.performed + stop.refused.toNat ≤ plan.sniffingSteps env + 1 := by
        by_cases stopped : stop.refused = true
        · have := one stopped
          have : stop.performed ≠ plan.sniffingSteps env + 1 := fun here => refused ⟨stopped, here⟩
          omega
        · have := zero stopped
          omega
      rw [if_neg (by omega), if_pos next]
      exact done.restored_front performed refused unruled
  · have accepted : ¬ plan.OutboundRefused env stop := fun both => by have := both.2; omega
    by_cases refused : stop.refused = true
    · have next := one refused
      rw [if_neg (by omega), if_neg (by omega), if_neg (by omega)]
      exact done.restored_ruleRefused outbound ⟨refused, count⟩
    · have next := zero refused
      rw [if_neg (by omega), if_neg (by omega), if_pos (by omega)]
      exact done.restored_unruled outbound (by omega) accepted fun both => refused both.1
  · have complete : stop.refused ≠ true := fun refused => by have := inside refused; omega
    have next := zero complete
    rw [if_neg (by omega), if_neg (by omega), if_neg (by omega)]
    exact done.restored_whole outbound rule (by omega) (fun both => complete both.1) fun both => complete both.1

section Example

def plainEnv : RoutedEnv where
  hex _ := "c0ffee00"
  safeCredentialUsername := id
  generateSubscriptionCredential _ _ _ _ := { entries := [] }
  lower := id
  strip := id

/-- A plan that reuses the tag of an outbound. -/
def proxyPlan : RoutedOutboundCreate where
  serverId := 0
  inboundTag := "edge"
  label := "proxy"
  outbound := [("protocol", .str "freedom")]
  adminEmail := some "admin"
  outboundTag := some "proxy"
  client := some { entries := [("id", .str "secret")] }

def edgeInbound (clients : List Json) : Json :=
  .obj [("tag", .str "edge"), ("protocol", .str "vless"), ("settings", .obj [("clients", .arr clients)])]

def edgeOutbounds : Json :=
  .arr [.obj [("protocol", .str "blackhole"), ("tag", .str "proxy")]]

def edgeConfig : Fields :=
  [("inbounds", .arr [edgeInbound []]), ("outbounds", edgeOutbounds)]

/-- The node when the Agent refuses the outbound. -/
def edgeAdded : Fields :=
  [("inbounds", .arr [edgeInbound [.obj [("id", .str "secret"), ("email", .str "admin"), ("level", .int 0)]]]),
    ("outbounds", edgeOutbounds)]

theorem rolledBack_restored_edge : Restored edgeConfig
      (rolledBack (fun _ => none) true (proxyPlan.steps plainEnv) ⟨1, true⟩ edgeAdded) ↔
    proxyPlan.Restorable plainEnv true ⟨1, true⟩ edgeConfig :=
  rolledBack_restored plainEnv proxyPlan (fun _ => none) edgeConfig edgeAdded ⟨1, true⟩ (fun _ => by
    decide) rfl true

theorem proxy_lost (halts : Bool) :
    ¬ Restored edgeConfig (rolledBack (fun _ => none) halts (proxyPlan.steps plainEnv) ⟨1, true⟩ edgeAdded) := by
  intro restored
  have outbounds := restored.outbounds
  have before : (edgeConfig.lookup "outbounds").getD (.arr []) = edgeOutbounds := rfl
  have after : ((rolledBack (fun _ => none) halts (proxyPlan.steps plainEnv) ⟨1, true⟩ edgeAdded).lookup
      "outbounds").getD (.arr []) = .arr [] := by
    cases halts <;> rfl
  rw [before, after] at outbounds
  cases outbounds

/-- No two inbounds and no two outbounds have one tag. -/
def UniqueTags (config : Fields) : Prop :=
  ∀ key ∈ ["inbounds", "outbounds"], ∀ entries, entriesOf key config = .ok entries →
    (entries.filterMap fun entry => (entry.lookup "tag").bind Json.str?).Nodup

/-- The rollback of every plan restores every node with unique tags. -/
def RestoresNode (halts : Bool) : Prop :=
  ∀ (env : RoutedEnv) (plan : RoutedOutboundCreate) (validateTls : Fields → Option String) (config current : Fields)
    (stop : RunStop), UniqueTags config → (stop.refused = true → stop.performed < (plan.steps env).length) →
    performSteps validateTls ((plan.steps env).take stop.performed) config = .ok current →
    Restored config (rolledBack validateTls halts (plan.steps env) stop current)

theorem not_restoresNode : ¬ RestoresNode true ∧ ¬ RestoresNode false := by
  have unique : UniqueTags edgeConfig := by
    intro key member entries found
    rcases List.mem_pair.mp member with rfl | rfl
    all_goals
      cases found
      decide
  have fails : ∀ halts, ¬ RestoresNode halts := fun halts restores =>
    proxy_lost halts (restores plainEnv proxyPlan _ _ _ ⟨1, true⟩ unique (fun _ => by decide) rfl)
  exact ⟨fails true, fails false⟩

end Example

end RoutedOutboundCreate

end OpenNode
