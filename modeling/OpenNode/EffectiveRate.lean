import OpenNode.ConnectionLimit

namespace OpenNode.NodeLimits

open Float64 List

section Least

/-- The least of the nonzero limits, zero when none is set. -/
def leastNonzero (limits : List Int) : Int :=
  ((limits.filter (· ≠ 0)).min?).getD 0

theorem leastNonzero_zero (a b : Int) : leastNonzero [a, b, 0] = leastNonzero [a, b] := by
  simp [leastNonzero, filter_cons]

theorem leastNonzero_three {a b c : Int} (posB : 0 ≤ b) (posC : 0 ≤ c) :
    minimum (minimum a b) c = leastNonzero [a, b, c] := by
  unfold minimum leastNonzero
  by_cases zeroA : a = 0 <;> by_cases zeroB : b = 0 <;> by_cases zeroC : c = 0 <;>
    simp [zeroA, zeroB, zeroC] <;> grind

end Least

section Documents

variable {F : Type}

def Document.nodeLimit (d : Document F) (tag : String) : Int :=
  ((d.policy? tag).getD {}).nodeLimit

def Document.speedLimit (d : Document F) (tag email : String) : Int :=
  ((d.user? tag email).getD {}).speedLimit

/-- The rules of an inbound, then those of its user. -/
def Document.rulesFor (d : Document F) (tag email : String) : List (Rule F) :=
  ((d.policy? tag).getD {}).autoSpeedRules ++ ((d.user? tag email).getD {}).autoSpeedRules

variable [Float64 F]

variable {d : Document F}

theorem Document.Valid.user (valid : d.Valid) {tag email : String} {u : User F}
    (found : d.user? tag email = some u) :
    u.Valid := by
  obtain ⟨p, atPolicy, chosen⟩ := Option.bind_eq_some_iff.mp found
  exact (valid.inbounds p (valid.policy?_eq_some.mp atPolicy).1).users u (mem_of_find?_eq_some chosen)

theorem Document.Valid.speedLimit_nonneg (valid : d.Valid) (tag email : String) : 0 ≤ d.speedLimit tag email := by
  unfold Document.speedLimit
  cases found : d.user? tag email with
  | none => exact Int.le_refl 0
  | some u => exact (valid.user found).speed

variable {rule : Rule F}

theorem Document.Valid.rulesFor_valid (valid : d.Valid) {tag email : String}
    (member : rule ∈ d.rulesFor tag email) :
    rule.valid = true := by
  rcases List.mem_append.mp member with inbound | user
  · cases found : d.policy? tag with
    | none => simp [found] at inbound
    | some p =>
      rw [found] at inbound
      exact (valid.inbounds p (valid.policy?_eq_some.mp found).1).rules rule inbound
  · cases found : d.user? tag email with
    | none => simp [found] at user
    | some u =>
      rw [found] at user
      exact (valid.user found).rules rule user

theorem Rule.valid_limit [LawfulFloat64 F] (valid : rule.valid = true) :
    1 ≤ toInt (bytesPerSecond rule.limitMbps) ∧ 0 < (rule.limitDuration * second).toNat := by
  simp only [Rule.valid, positiveMbps, Bool.and_eq_true, decide_eq_true_eq] at valid
  obtain ⟨⟨⟨⟨⟨⟨⟨⟨⟨_, limit⟩, _⟩, _⟩, long⟩, _⟩, _⟩, _⟩, _⟩, _⟩ := valid.1
  refine ⟨LawfulFloat64.toInt_pos _ limit.1.2 limit.2, ?_⟩
  unfold second
  omega

end Documents

namespace Manager

section Installed

variable {F : Type} [Float64 F] {m : Manager F}

theorem Installed.nodeLimit (installed : m.Installed) (tag : String) :
    (m.policyAt tag).nodeLimit = m.document.nodeLimit tag := by
  rw [policyAt, installed.policies, Document.nodeLimit]

theorem Installed.speedLimit (installed : m.Installed) (tag email : String) :
    (m.userAt tag email).speedLimit = m.document.speedLimit tag email := by
  rw [userAt, installed.users, Document.speedLimit]

theorem Installed.rulesFor (installed : m.Installed) (tag email : String) :
    m.rulesFor tag email = m.document.rulesFor tag email := by
  rw [Manager.rulesFor, Document.rulesFor, policyAt, userAt, installed.policies, installed.users]
  split
  · rename_i none
    rw [List.isEmpty_iff.mp none, append_nil]
  · rfl

end Installed

end Manager

section Expiry

variable {F : Type} {m : Manager F} {state : UserState F}

namespace Manager

variable {now : Time}

theorem expire_due (set : state.untilTime ≠ 0) (due : state.untilTime ≤ now) :
    m.expire now state = m.refreshRate { state with untilTime := 0, autoRate := 0 } := by
  unfold expire
  rw [if_pos ⟨set, due⟩]

theorem expire_waiting (waiting : ¬(state.untilTime ≠ 0 ∧ state.untilTime ≤ now)) : m.expire now state = state := by
  unfold expire
  rw [if_neg waiting]

end Manager

end Expiry

section Rates

variable {F : Type} [Float64 F]

/-- What a user state carries under a document: the least of the three limits
in its bucket, the current rules, and an automatic rate while it lasts. -/
structure UserState.Rated (d : Document F) (state : UserState F) : Prop where
  value : state.bucket.value =
    leastNonzero [d.nodeLimit state.tag, d.speedLimit state.tag state.email, state.autoRate]
  limit : state.bucket.limit = if 0 < state.bucket.value then some state.bucket.value else none
  configuration : state.configuration = d.rulesFor state.tag state.email
  rules : state.rules.length = state.configuration.length
  automatic : state.autoRate ≠ 0 → ∃ rule ∈ state.configuration,
    state.autoRate = toInt (bytesPerSecond rule.limitMbps)
  lasting : state.autoRate ≠ 0 ↔ state.untilTime ≠ 0

theorem UserState.Rated.congr {d : Document F} {state after : UserState F} (rated : state.Rated d)
    (tag : after.tag = state.tag) (email : after.email = state.email) (bucket : after.bucket = state.bucket)
    (configuration : after.configuration = state.configuration) (rules : after.rules.length = state.rules.length)
    (autoRate : after.autoRate = state.autoRate) (untilTime : after.untilTime = state.untilTime) :
    after.Rated d where
  value := by rw [bucket, tag, email, autoRate, rated.value]
  limit := by rw [bucket, rated.limit]
  configuration := by rw [configuration, tag, email, rated.configuration]
  rules := by rw [rules, configuration, rated.rules]
  automatic := by
    rw [autoRate, configuration]
    exact rated.automatic
  lasting := by
    rw [autoRate, untilTime]
    exact rated.lasting

theorem Bucket.set_limit {b : Bucket} (sound : b.limit = if 0 < b.value then some b.value else none) (value : Int) :
    (b.set value).limit = if 0 < (b.set value).value then some (b.set value).value else none := by
  unfold Bucket.set
  split
  · exact sound
  · rfl

@[simp] theorem Bucket.set_value (b : Bucket) (value : Int) : (b.set value).value = value := by
  unfold Bucket.set
  split
  · exact Eq.symm ‹_›
  · rfl

namespace Manager

variable {m : Manager F} {state : UserState F}

theorem Installed.refreshRate [LawfulFloat64 F] (installed : m.Installed)
    (limit : state.bucket.limit = if 0 < state.bucket.value then some state.bucket.value else none)
    (configuration : state.configuration = m.document.rulesFor state.tag state.email)
    (rules : state.rules.length = state.configuration.length)
    (automatic : state.autoRate ≠ 0 →
      ∃ rule ∈ state.configuration, state.autoRate = toInt (bytesPerSecond rule.limitMbps))
    (lasting : state.autoRate ≠ 0 ↔ state.untilTime ≠ 0) : (m.refreshRate state).Rated m.document := by
  have speed := installed.valid.speedLimit_nonneg state.tag state.email
  have rate : 0 ≤ state.autoRate := by
    by_cases zero : state.autoRate = 0
    · omega
    · obtain ⟨rule, member, same⟩ := automatic zero
      rw [configuration] at member
      have := (Rule.valid_limit (installed.valid.rulesFor_valid member)).1
      omega
  refine ⟨?_, Bucket.set_limit limit _, configuration, rules, automatic, lasting⟩
  show (Bucket.set state.bucket _).value = _
  rw [Bucket.set_value, installed.nodeLimit, installed.speedLimit]
  exact leastNonzero_three speed rate

/-- The rates of a manager, with what keeps them right. -/
structure RatesInvariant (m : Manager F) : Prop where
  installed : m.Installed
  idsOnce : (m.states.map Prod.snd).Nodup
  states : ∀ entry ∈ m.states, ∃ state, m.objects[entry.2]? = some state ∧
    entry.1 = key state.tag state.email ∧ state.Rated m.document

theorem RatesInvariant.new (now : Time) : (new now : Manager F).RatesInvariant where
  installed := ⟨⟨by simp [Manager.new], by simp [Manager.new]⟩, rfl, fun _ _ => rfl⟩
  idsOnce := nodup_nil
  states := by simp [Manager.new]

variable {n : Manager F}

theorem RatesInvariant.of_rows (right : m.RatesInvariant) (document : n.document = m.document)
    (policies : n.policies = m.policies) (users : n.users = m.users) (states : n.states.Sublist m.states)
    (rows : ∀ (i : StateId) state, m.objects[i]? = some state → state.Rated m.document → ∃ after,
      n.objects[i]? = some after ∧ after.Rated m.document ∧ after.tag = state.tag ∧ after.email = state.email) :
    n.RatesInvariant where
  installed :=
    ⟨document ▸ right.installed.valid, by rw [policies, document, right.installed.policies],
      fun tag email => by rw [users, document, right.installed.users]⟩
  idsOnce := right.idsOnce.sublist (states.map _)
  states := by
    intro entry member
    obtain ⟨state, atState, same, rated⟩ := right.states entry (states.subset member)
    obtain ⟨after, atAfter, rated', tag, email⟩ := rows entry.2 state atState rated
    exact ⟨after, atAfter, by rw [same, tag, email], document ▸ rated'⟩

variable {id : StateId}

theorem RatesInvariant.modify (right : m.RatesInvariant) (document : n.document = m.document)
    (policies : n.policies = m.policies) (users : n.users = m.users) (states : n.states = m.states)
    {f : UserState F → UserState F} (objects : n.objects = m.objects.modify id f)
    (rated : ∀ state, state.Rated m.document → (f state).Rated m.document ∧ (f state).tag = state.tag ∧
      (f state).email = state.email) :
    n.RatesInvariant := by
  refine right.of_rows document policies users (states ▸ List.Sublist.refl _) fun i state atState sound => ?_
  rw [objects]
  by_cases here : id = i
  · subst here
    obtain ⟨sound', tag, email⟩ := rated state sound
    exact ⟨_, Table.modify_self atState, sound', tag, email⟩
  · exact ⟨state, (Table.modify_other here).trans atState, sound, rfl, rfl⟩

theorem RatesInvariant.transfer (right : m.RatesInvariant) (id : FlowId) (bytes : Nat) :
    (m.transfer id bytes).RatesInvariant := by
  unfold Manager.transfer
  split
  · exact right
  · exact right.modify rfl rfl rfl rfl rfl fun _ sound => ⟨sound.congr rfl rfl rfl rfl rfl rfl rfl, rfl, rfl⟩

theorem RatesInvariant.release (right : m.RatesInvariant) (id : FlowId) (now : Time) :
    (m.release id now).RatesInvariant := by
  unfold Manager.release
  split
  · exact right
  · split
    · exact right
    · exact right.modify rfl rfl rfl rfl rfl fun _ sound => ⟨sound.congr rfl rfl rfl rfl rfl rfl rfl, rfl, rfl⟩

theorem ruleLoop_aligned (now : Time) (speed : Int) {i : Nat} {rest : List (Rule F)} {rules : List RuleState}
    (aligned : rules.length = i + rest.length) :
    ∃ rules' triggered, ruleLoop now speed i rest rules = some (rules', triggered) ∧
      rules'.length = rules.length ∧ ∀ rule, triggered = some rule → rule ∈ rest := by
  induction rest generalizing i rules with
  | nil => exact ⟨rules, none, rfl, rfl, nofun⟩
  | cons rule rest ih =>
    have inRange : i < rules.length := by
      rw [aligned, length_cons]
      omega
    unfold ruleLoop
    rw [List.getElem?_eq_getElem inRange]
    dsimp only
    split
    · refine ⟨_, _, rfl, length_set, fun chosen same => ?_⟩
      cases same
      exact mem_cons_self
    · obtain ⟨rules', triggered, run, length, member⟩ := ih
        (show (rules.set i (ruleTurn now speed rule rules[i]).1).length = i + 1 + rest.length by
          rw [length_set, aligned, length_cons]
          omega)
      refine ⟨rules', triggered, run, length.trans length_set, fun chosen same => ?_⟩
      exact mem_cons_of_mem _ (member chosen same)

/-- The turn of `evaluate` for a state, without the map it is in. -/
def evaluated (m : Manager F) (now : Time) (elapsed : F) (state : UserState F) : Option (UserState F) :=
  let state := m.expire now (state.sample now elapsed)
  if now < state.untilTime then some state
  else
    (ruleLoop now state.speed 0 state.configuration state.rules).map fun (rules, triggered) =>
      match triggered with
      | none => { state with rules := rules }
      | some rule => m.refreshRate (({ state with rules := rules } : UserState F).limitBy now rule)

variable {now : Time} {elapsed : F}

theorem evaluateState_row {entry : String × StateId} {after : UserState F}
    (atState : m.objects[entry.2]? = some state) (turn : m.evaluated now elapsed state = some after) :
    ∃ states, states.Sublist m.states ∧ evaluateState now elapsed m entry =
      some { m with objects := m.objects.set entry.2 after, states := states } := by
  unfold evaluated at turn
  unfold evaluateState
  rw [atState]
  dsimp only at turn ⊢
  split at turn
  · rename_i waiting
    cases turn
    rw [if_pos waiting]
    exact ⟨m.states, List.Sublist.refl _, rfl⟩
  · rename_i due
    rw [if_neg due]
    obtain ⟨⟨rules, triggered⟩, loop, rfl⟩ := Option.map_eq_some_iff.mp turn
    rw [loop]
    have fewer (idle : Bool) : (if idle then m.states.erase entry else m.states).Sublist m.states := by
      cases idle with
      | true => exact erase_sublist
      | false => exact List.Sublist.refl _
    cases triggered with
    | none => exact ⟨_, fewer _, rfl⟩
    | some rule => exact ⟨_, fewer _, rfl⟩

theorem evaluate_entries {entries : List (String × StateId)} (once : (entries.map Prod.snd).Nodup)
    (turns : ∀ entry ∈ entries, ∃ state after, m.objects[entry.2]? = some state ∧
      m.evaluated now elapsed state = some after) :
    ∃ objects states, entries.foldlM (evaluateState now elapsed) m =
        some { m with objects := objects, states := states } ∧ states.Sublist m.states ∧
      (∀ entry ∈ entries, ∀ state after, m.objects[entry.2]? = some state →
        m.evaluated now elapsed state = some after → objects[entry.2]? = some after) ∧
      ∀ i : StateId, i ∉ entries.map Prod.snd → objects[i]? = m.objects[i]? := by
  induction entries generalizing m with
  | nil => exact ⟨m.objects, m.states, rfl, List.Sublist.refl _, nofun, fun _ _ => rfl⟩
  | cons entry rest ih =>
    obtain ⟨fresh, once⟩ := List.nodup_cons.mp once
    obtain ⟨state, after, atState, turn⟩ := turns entry mem_cons_self
    obtain ⟨states, fewer, first⟩ := evaluateState_row atState turn
    have other : ∀ e ∈ rest, entry.2 ≠ e.2 := by
      intro e member same
      exact fresh (same ▸ mem_map_of_mem member)
    obtain ⟨objects, states', later, fewer', visited, untouched⟩ :=
      ih (m := { m with objects := m.objects.set entry.2 after, states := states }) once (by
        intro e member
        obtain ⟨s, a, atRow, run⟩ := turns e (mem_cons_of_mem _ member)
        exact ⟨s, a, (List.getElem?_set_ne (other e member)).trans atRow, run⟩)
    refine ⟨objects, states', ?_, fewer'.trans fewer, ?_, ?_⟩
    · rw [foldlM_cons, first]
      exact later
    · intro e member s a atRow run
      rcases List.mem_cons.mp member with rfl | later
      · rw [untouched _ fresh]
        cases atState.symm.trans atRow
        cases turn.symm.trans run
        exact List.getElem?_set_self (Table.row_lt atState)
      · exact visited e later s a ((List.getElem?_set_ne (other e later)).trans atRow) run
    · intro i absent
      rw [map_cons, mem_cons, not_or] at absent
      exact (untouched i absent.2).trans (List.getElem?_set_ne (Ne.symm absent.1))

variable [LawfulFloat64 F]

theorem Installed.expire (installed : m.Installed) (rated : state.Rated m.document) (now : Time) :
    (m.expire now state).Rated m.document := by
  by_cases due : state.untilTime ≠ 0 ∧ state.untilTime ≤ now
  · rw [expire_due due.1 due.2]
    exact installed.refreshRate rated.limit rated.configuration rated.rules (fun set => absurd rfl set)
      ⟨fun set => absurd rfl set, fun set => absurd rfl set⟩
  · rw [expire_waiting due]
    exact rated

theorem Installed.limitBy (installed : m.Installed) (rated : state.Rated m.document) (now : Time) {rule : Rule F}
    (member : rule ∈ state.configuration) : (m.refreshRate (state.limitBy now rule)).Rated m.document := by
  have current := rated.configuration ▸ member
  obtain ⟨positive, long⟩ := Rule.valid_limit (installed.valid.rulesFor_valid current)
  refine installed.refreshRate rated.limit rated.configuration ?_ (fun _ => ⟨rule, member, rfl⟩) ?_
  · exact List.length_replicate.trans rated.rules
  · have later : now + (rule.limitDuration * second).toNat ≠ 0 := Nat.ne_of_gt (Nat.add_pos_right now long)
    have capped : toInt (bytesPerSecond rule.limitMbps) ≠ 0 := by omega
    exact ⟨fun _ => later, fun _ => capped⟩

theorem Installed.evaluated (installed : m.Installed) (rated : state.Rated m.document) (now : Time) (elapsed : F) :
    ∃ after, m.evaluated now elapsed state = some after ∧ after.Rated m.document ∧
      after.tag = state.tag ∧ after.email = state.email := by
  have sampled : (state.sample now elapsed).Rated m.document := rated.congr rfl rfl rfl rfl rfl rfl rfl
  have expired := installed.expire sampled now
  have account : (m.expire now (state.sample now elapsed)).account = (state.sample now elapsed).account :=
    m.expire_account _ _
  simp only [UserState.account, Prod.mk.injEq] at account
  unfold Manager.evaluated
  dsimp only
  split
  · exact ⟨_, rfl, expired, account.1, account.2.1⟩
  · obtain ⟨rules, triggered, loop, length, member⟩ :=
      ruleLoop_aligned now (m.expire now (state.sample now elapsed)).speed
      (i := 0) (expired.rules.trans (Nat.zero_add _).symm)
    rw [loop]
    have stepped : ({ m.expire now (state.sample now elapsed) with rules := rules } : UserState F).Rated
      m.document :=
      expired.congr rfl rfl rfl rfl length rfl rfl
    cases triggered with
    | none => exact ⟨_, rfl, stepped, account.1, account.2.1⟩
    | some rule => exact ⟨_, rfl, installed.limitBy stepped now (member rule rfl), account.1, account.2.1⟩

theorem RatesInvariant.stateFor (right : m.RatesInvariant) {tag email : String}
    (run : m.stateFor tag email now = (n, id)) : n.RatesInvariant := by
  unfold Manager.stateFor at run
  split at run
  · cases run
    exact right
  · cases run
    have old : ∀ entry ∈ m.states, entry.2 < m.objects.length := by
      intro entry member
      obtain ⟨state, atState, _⟩ := right.states entry member
      exact Table.row_lt atState
    have fresh : m.objects.length ∉ m.states.map Prod.snd := by
      intro member
      obtain ⟨entry, atEntry, same⟩ := List.mem_map.mp member
      exact Nat.lt_irrefl _ (same ▸ old entry atEntry)
    refine ⟨⟨right.installed.valid, right.installed.policies, right.installed.users⟩, ?_, ?_⟩
    · rw [map_append, map_singleton, ← concat_eq_append]
      exact right.idsOnce.concat fresh
    · intro entry member
      rcases List.mem_append.mp member with before | new
      · obtain ⟨state, atState, same, rated⟩ := right.states entry before
        exact ⟨state, Table.append_old atState, same, rated⟩
      · cases List.mem_singleton.mp new
        refine ⟨_, List.getElem?_concat_length, rfl, ?_⟩
        refine right.installed.refreshRate rfl ?_ length_replicate (fun set => absurd rfl set)
          ⟨fun set => absurd rfl set, fun set => absurd rfl set⟩
        exact right.installed.rulesFor tag email

theorem RatesInvariant.acquire (right : m.RatesInvariant) (session : Option (String × String)) (now : Time) :
    (m.acquire session now).1.RatesInvariant := by
  rcases m.acquire_cases session now with same | ⟨_, rejected⟩ | ⟨tag, email, n, id, rfl, _, found, admitted⟩
  · rw [same]
    exact right
  · rw [rejected]
    exact ⟨⟨right.installed.valid, right.installed.policies, right.installed.users⟩, right.idsOnce, right.states⟩
  · rw [admitted]
    exact (right.stateFor found).modify rfl rfl rfl rfl rfl
      fun _ sound => ⟨sound.congr rfl rfl rfl rfl rfl rfl rfl, rfl, rfl⟩

theorem RatesInvariant.evaluate_states (right : m.RatesInvariant) (now : Time) (elapsed : F) :
    ∃ objects states, m.states.foldlM (evaluateState now elapsed) { m with lastTick := now } =
        some { m with lastTick := now, objects := objects, states := states } ∧ states.Sublist m.states ∧
      ∀ entry ∈ m.states, ∀ state after, m.objects[entry.2]? = some state →
        m.evaluated now elapsed state = some after → objects[entry.2]? = some after := by
  have turns : ∀ entry ∈ m.states, ∃ state after, m.objects[entry.2]? = some state ∧
      Manager.evaluated { m with lastTick := now } now elapsed state = some after := by
    intro entry member
    obtain ⟨state, atState, _, rated⟩ := right.states entry member
    obtain ⟨after, turn, _⟩ := right.installed.evaluated rated now elapsed
    exact ⟨state, after, atState, turn⟩
  obtain ⟨objects, states, run, fewer, visited, _⟩ :=
    @evaluate_entries _ _ { m with lastTick := now } _ _ _ right.idsOnce turns
  exact ⟨objects, states, run, fewer, visited⟩

theorem RatesInvariant.evaluate (right : m.RatesInvariant) (now : Time) :
    ∃ n, m.evaluate now = some n ∧ n.RatesInvariant := by
  unfold Manager.evaluate
  dsimp only
  split
  · exact ⟨m, rfl, right⟩
  · obtain ⟨objects, states, run, fewer, visited⟩ := right.evaluate_states now (seconds ((now : Int) - m.lastTick))
    refine ⟨_, run, ⟨right.installed.valid, right.installed.policies, right.installed.users⟩,
      right.idsOnce.sublist (fewer.map _), ?_⟩
    intro entry member
    obtain ⟨state, atState, same, rated⟩ := right.states entry (fewer.subset member)
    obtain ⟨after, turn, rated', tag, email⟩ :=
      right.installed.evaluated rated now (seconds ((now : Int) - m.lastTick))
    exact ⟨after, visited entry (fewer.subset member) state after atState turn, by rw [same, tag, email], rated'⟩

theorem Installed.installState [DecidableEq F] (installed : m.Installed) {d : Document F} (rated : state.Rated d) :
    (m.installState state).Rated m.document := by
  unfold Manager.installState
  dsimp only
  split
  · exact installed.refreshRate rated.limit (installed.rulesFor _ _) length_replicate
      (fun set => absurd rfl set) ⟨fun set => absurd rfl set, fun set => absurd rfl set⟩
  · rename_i same
    exact installed.refreshRate rated.limit ((not_not.mp same).trans (installed.rulesFor _ _)) rated.rules
      rated.automatic rated.lasting

end Manager

end Rates

section Installing

variable {F : Type}

namespace Manager

theorem install_objects [DecidableEq F] (m : Manager F) (document : Document F) (raw : Option Bytes)
    (once : (m.states.map Prod.snd).Nodup) {entry : String × StateId} (member : entry ∈ m.states) :
    (m.install document raw).1.objects[entry.2]? =
      (m.objects[entry.2]?).map (m.reset document raw).installState := by
  rw [install_eq]
  obtain ⟨flowObjects, counts, done⟩ := installFlow_frame m.flows (m.prepared document raw) []
  rw [done, withFlows_objects, prepared, Table.foldl_modify_row once]
  congr 1
  funext state
  rw [if_pos (mem_map_of_mem member)]

end Manager

end Installing

section Promise

variable {F : Type} [Float64 F] [DecidableEq F]

namespace Manager

variable {m n : Manager F}

variable {document : Document F}

theorem RatesInvariant.install [LawfulFloat64 F] (right : m.RatesInvariant) (valid : document.Valid)
    (raw : Option Bytes) : (m.install document raw).1.RatesInvariant := by
  have reset := m.reset_installed valid raw
  obtain ⟨policies, users, caps, frame⟩ := m.reset_frame document raw
  obtain ⟨flowObjects, counts, done⟩ := installFlow_frame m.flows (m.prepared document raw) []
  have states : (m.install document raw).1.states = m.states := by
    rw [install_eq, done, withFlows, prepared, frame]
  refine ⟨?_, by rw [states]; exact right.idsOnce, ?_⟩
  · rw [install_eq, done]
    exact ⟨reset.valid, reset.policies, reset.users⟩
  · intro entry member
    rw [states] at member
    obtain ⟨state, atState, same, rated⟩ := right.states entry member
    have account := installState_account (m.reset document raw) state
    simp only [UserState.account, Prod.mk.injEq] at account
    refine ⟨(m.reset document raw).installState state, ?_, by rw [same, account.1, account.2.1], ?_⟩
    · rw [install_objects m document raw right.idsOnce member, atState, Option.map_some]
    · have rated' := reset.installState rated
      rw [frame] at rated' ⊢
      rw [install_document]
      exact rated'

theorem RatesInvariant.step [LawfulFloat64 F] (right : m.RatesInvariant) {event : LimiterEvent F}
    (valid : event.Valid) : ∃ n, m.step event = some n ∧ n.RatesInvariant := by
  cases event with
  | install document raw => exact ⟨_, rfl, right.install (Document.validate_valid valid) raw⟩
  | acquire session now => exact ⟨_, rfl, right.acquire session now⟩
  | release flow now => exact ⟨_, rfl, right.release flow now⟩
  | transfer flow bytes => exact ⟨_, rfl, right.transfer flow bytes⟩
  | evaluate now => exact right.evaluate now

/-- What an install does to the automatic rate of a state: it stays while the
rules stay, and is cleared with them. -/
def InstallKeepsOrClears (d d' : Document F) (state after : UserState F) : Prop :=
  after.tag = state.tag ∧ after.email = state.email ∧
    if d'.rulesFor state.tag state.email = d.rulesFor state.tag state.email then
      after.autoRate = state.autoRate ∧ after.untilTime = state.untilTime
    else after.autoRate = 0 ∧ after.untilTime = 0

/-- What the first evaluation after the expiry of an automatic rate does: it
restores the static limits, unless a rule triggers again. -/
def RestoresOrTriggers (d : Document F) (now : Time) (state after : UserState F) : Prop :=
  ∃ rules triggered, ruleLoop now after.speed 0 state.configuration state.rules = some (rules, triggered) ∧
    match triggered with
    | none =>
      after.autoRate = 0 ∧ after.untilTime = 0 ∧
        after.bucket.value = leastNonzero [d.nodeLimit state.tag, d.speedLimit state.tag state.email]
    | some rule =>
      after.autoRate = toInt (bytesPerSecond rule.limitMbps) ∧
        after.untilTime = now + (rule.limitDuration * second).toNat

/-- What the limiter promises about rates. -/
structure RatesKept (m : Manager F) : Prop where
  rated : ∀ entry ∈ m.states, ∃ state, m.objects[entry.2]? = some state ∧ entry.1 = key state.tag state.email ∧
    state.Rated m.document
  total : ∀ event : LimiterEvent F, event.Valid → (m.step event).isSome
  installs : ∀ document raw n, document.validate = none → m.step (.install document raw) = some n →
    ∀ entry ∈ m.states, ∀ state, m.objects[entry.2]? = some state →
      ∃ after, n.objects[entry.2]? = some after ∧ InstallKeepsOrClears m.document document state after
  expires : ∀ now n, m.lastTick < now → m.step (.evaluate now) = some n →
    ∀ entry ∈ m.states, ∀ state, m.objects[entry.2]? = some state → state.untilTime ≠ 0 → state.untilTime ≤ now →
      ∃ after, n.objects[entry.2]? = some after ∧ RestoresOrTriggers m.document now state after

variable {entry : String × StateId} {state : UserState F}

theorem RatesInvariant.installs (right : m.RatesInvariant) (valid : document.Valid) (raw : Option Bytes)
    (member : entry ∈ m.states) (atState : m.objects[entry.2]? = some state) :
    ∃ after, (m.install document raw).1.objects[entry.2]? = some after ∧
      InstallKeepsOrClears m.document document state after := by
  have reset := m.reset_installed valid raw
  obtain ⟨policies, users, caps, frame⟩ := m.reset_frame document raw
  obtain ⟨_, atRow, _, rated⟩ := right.states entry member
  cases atState.symm.trans atRow
  have account := installState_account (m.reset document raw) state
  simp only [UserState.account, Prod.mk.injEq] at account
  refine ⟨_, (install_objects m document raw right.idsOnce member).trans (by rw [atState, Option.map_some]),
    account.1, account.2.1, ?_⟩
  have rules : (m.reset document raw).rulesFor state.tag state.email = document.rulesFor state.tag state.email := by
    rw [reset.rulesFor, frame]
  unfold Manager.installState
  rw [rules, rated.configuration]
  dsimp only
  split
  · rename_i same
    rw [if_neg (not_not.mpr same.symm)]
    exact ⟨rfl, rfl⟩
  · rename_i differ
    rw [if_pos (Ne.symm differ)]
    exact ⟨rfl, rfl⟩

omit [DecidableEq F] in
theorem RatesInvariant.expires [LawfulFloat64 F] (right : m.RatesInvariant) {now : Time} (later : m.lastTick < now)
    (run : m.evaluate now = some n) (member : entry ∈ m.states) (atState : m.objects[entry.2]? = some state)
    (set : state.untilTime ≠ 0) (due : state.untilTime ≤ now) :
    ∃ after, n.objects[entry.2]? = some after ∧ RestoresOrTriggers m.document now state after := by
  have positive : le (seconds ((now : Int) - m.lastTick)) (ofInt 0 : F) = false :=
    LawfulFloat64.seconds_pos _ (Int.sub_pos.mpr (Int.ofNat_lt.mpr later))
  obtain ⟨_, atRow, _, rated⟩ := right.states entry member
  cases atState.symm.trans atRow
  let elapsed : F := seconds ((now : Int) - m.lastTick)
  obtain ⟨objects, states, done, _, visited⟩ := right.evaluate_states now elapsed
  unfold Manager.evaluate at run
  dsimp only at run
  rw [positive, if_neg Bool.false_ne_true, done] at run
  cases run
  let restored := m.refreshRate { state.sample now elapsed with untilTime := 0, autoRate := 0 }
  have sampled : (state.sample now elapsed).Rated m.document := rated.congr rfl rfl rfl rfl rfl rfl rfl
  have expired : m.expire now (state.sample now elapsed) = restored := expire_due set due
  have sound : restored.Rated m.document := expired ▸ right.installed.expire sampled now
  obtain ⟨rules, triggered, loop, _, _⟩ := ruleLoop_aligned now restored.speed (i := 0)
    (sound.rules.trans (Nat.zero_add _).symm)
  have due : ¬ now < restored.untilTime := Nat.not_lt_zero now
  cases triggered with
  | none =>
    refine ⟨{ restored with rules := rules }, visited entry member state _ atState ?_, rules, none, loop,
      rfl, rfl, ?_⟩
    · unfold evaluated
      rw [expired]
      rw [if_neg due, loop]
      rfl
    · exact sound.value.trans (leastNonzero_zero _ _)
  | some rule =>
    refine ⟨m.refreshRate (({ restored with rules := rules } : UserState F).limitBy now rule),
      visited entry member state _ atState ?_, rules, some rule, loop, rfl, rfl⟩
    unfold evaluated
    rw [expired]
    rw [if_neg due, loop]
    rfl

theorem RatesInvariant.ratesKept [LawfulFloat64 F] (right : m.RatesInvariant) : m.RatesKept where
  rated := right.states
  total event valid := by
    obtain ⟨n, run, _⟩ := right.step valid
    rw [run]
    rfl
  installs document raw n valid run entry member state atState := by
    cases run
    exact right.installs (Document.validate_valid valid) raw member atState
  expires now n later run entry member state atState set due := right.expires later run member atState set due

end Manager

/-- In every run over validated documents the rates are kept. -/
theorem LimiterRun.rates_kept [LawfulFloat64 F] {start : Time} {m : Manager F}
    (run : LimiterRun (fun _ event => event.Valid) (Manager.new start) m) : m.RatesKept := by
  suffices right : m.RatesInvariant from right.ratesKept
  induction run with
  | start => exact Manager.RatesInvariant.new start
  | step event _ valid turn ih =>
    obtain ⟨n, run, right⟩ := ih.step valid
    cases turn.symm.trans run
    exact right

def throttledDocument : Document ℚ :=
  { inbounds :=
      [{ inboundTag := "in"
         nodeLimit := 1000000
         autoSpeedRules := [{
           type := "sustained", thresholdMbps := 1, sustainedSeconds := 1, limitMbps := 2,
           limitDuration := 60 }] }] }

def throttledManager : Manager ℚ :=
  (((Manager.new 0).install throttledDocument none).1.acquire (some ("in", "alice")) 1).1

theorem throttledManager_rates_kept : throttledManager.RatesKept := by
  have installed : LimiterRun (fun _ event => event.Valid) (Manager.new 0)
      ((Manager.new 0).install throttledDocument none).1 :=
    .step (.install throttledDocument none) .start (show throttledDocument.validate = none by decide +kernel) rfl
  exact LimiterRun.rates_kept (.step (.acquire (some ("in", "alice")) 1) installed trivial rfl)

end Promise

end OpenNode.NodeLimits
