import OpenNode.LimiterInstall

namespace OpenNode.NodeLimits

open Function Tally Table List

section Accounts

variable {F : Type}

/-- The identity of a user state and its number of connections. -/
def UserState.account (state : UserState F) : String × String × Int :=
  (state.tag, state.email, state.active)

/-- The group that a document assigns to a user. -/
def Document.groupOf (d : Document F) (tag email : String) : String :=
  group ((d.user? tag email).getD {}) email

namespace Manager

/-- The live flows. -/
def live (m : Manager F) : List Flow :=
  m.flows.filterMap fun id => m.flowObjects[id]?

/-- The number of live flows in a group. -/
def liveIn (m : Manager F) (g : String) : Nat :=
  m.live.countP fun f => f.group == g

theorem count_groups (m : Manager F) (g : String) : (m.live.map Flow.group).count g = m.liveIn g := by
  rw [liveIn, List.count, countP_map]
  rfl

variable {m : Manager F}

theorem mem_live {f : Flow} : f ∈ m.live ↔ ∃ id ∈ m.flows, m.flowObjects[id]? = some f := by
  simp [live]

/-- The state that a flow belongs to gives it its group when a policy is installed. -/
def regroup (m : Manager F) (f : Flow) : Flow :=
  match m.objects[f.state]? with
  | none => f
  | some state =>
    { f with group := m.flowGroup state, known := (m.users (key state.tag state.email)).isSome }

@[simp] theorem regroup_state (m : Manager F) (f : Flow) : (m.regroup f).state = f.state := by
  unfold regroup
  split <;> rfl

@[simp] theorem regroup_tag (m : Manager F) (f : Flow) : (m.regroup f).tag = f.tag := by
  unfold regroup
  split <;> rfl

@[simp] theorem regroup_email (m : Manager F) (f : Flow) : (m.regroup f).email = f.email := by
  unfold regroup
  split <;> rfl

@[simp] theorem regroup_done (m : Manager F) (f : Flow) : (m.regroup f).done = f.done := by
  unfold regroup
  split <;> rfl

/-- The fields that the loop over the flows assigns. -/
def withFlows (m : Manager F) (flowObjects : List Flow) (counts : String → Option Int) : Manager F :=
  { m with flowObjects := flowObjects, counts := counts }

@[simp] theorem withFlows_flowObjects (m : Manager F) (flowObjects : List Flow) (counts : String → Option Int) :
    (m.withFlows flowObjects counts).flowObjects = flowObjects := rfl

@[simp] theorem withFlows_objects (m : Manager F) (flowObjects : List Flow) (counts : String → Option Int) :
    (m.withFlows flowObjects counts).objects = m.objects := rfl

@[simp] theorem withFlows_regroup (m : Manager F) (flowObjects : List Flow) (counts : String → Option Int) :
    (m.withFlows flowObjects counts).regroup = m.regroup := rfl

@[simp] theorem withFlows_withFlows (m : Manager F) (flowObjects flowObjects' : List Flow)
    (counts counts' : String → Option Int) :
    (m.withFlows flowObjects counts).withFlows flowObjects' counts' = m.withFlows flowObjects' counts' := rfl

theorem installFlow_row {closeFlows : List FlowId} {id : FlowId} {f : Flow} {state : UserState F}
    (atFlow : m.flowObjects[id]? = some f) (atState : m.objects[f.state]? = some state) :
    (installFlow (m, closeFlows) id).1 = m.withFlows (m.flowObjects.modify id m.regroup)
      (update m.counts (m.regroup f).group (some ((m.counts (m.regroup f).group).getD 0 + 1))) := by
  have row : m.regroup f =
      { f with group := m.flowGroup state, known := (m.users (key state.tag state.email)).isSome } := by
    simp only [regroup, atState]
  simp only [installFlow, withFlows, atFlow, atState]
  rw [modify_eq_set atFlow, modify_eq_set atFlow, row]

theorem foldl_installFlow {ids : List FlowId} (distinct : ids.Nodup) (m : Manager F) (closeFlows : List FlowId)
    {groups : List String} (counted : m.counts = tally groups)
    (present : ∀ id ∈ ids, ∃ f state, m.flowObjects[id]? = some f ∧ m.objects[f.state]? = some state) :
    ∃ flowObjects, (ids.foldl installFlow (m, closeFlows)).1 = m.withFlows flowObjects
          (tally ((ids.filterMap fun id => m.flowObjects[id]?).map (fun f => (m.regroup f).group) ++ groups)) ∧
      ∀ i : FlowId, flowObjects[i]? = (m.flowObjects[i]?).map fun f => if i ∈ ids then m.regroup f else f := by
  induction ids generalizing m closeFlows groups with
  | nil => exact ⟨m.flowObjects, by simp [← counted, withFlows], by simp⟩
  | cons id rest ih =>
    obtain ⟨absent, distinct⟩ := List.nodup_cons.mp distinct
    obtain ⟨f, state, atFlow, atState⟩ := present id mem_cons_self
    have turn : installFlow (m, closeFlows) id =
        (m.withFlows (m.flowObjects.modify id m.regroup) (tally ((m.regroup f).group :: groups)),
          (installFlow (m, closeFlows) id).2) := by
      refine Prod.ext ((installFlow_row atFlow atState).trans ?_) rfl
      rw [tally_cons, counted]
    have other : ∀ j ∈ rest, (m.flowObjects.modify id m.regroup)[j]? = m.flowObjects[j]? := by
      intro j member
      exact modify_other fun same => absent (same ▸ member)
    rw [foldl_cons, turn]
    obtain ⟨flowObjects, done, rows⟩ := ih distinct
      (m.withFlows (m.flowObjects.modify id m.regroup) (tally ((m.regroup f).group :: groups)))
      (installFlow (m, closeFlows) id).2 rfl (by
        intro j member
        obtain ⟨g, place, atG, atPlace⟩ := present j (mem_cons_of_mem id member)
        exact ⟨g, place, (other j member).trans atG, atPlace⟩)
    simp only [withFlows_flowObjects, withFlows_regroup, withFlows_withFlows] at done rows
    refine ⟨flowObjects, ?_, fun i => ?_⟩
    · rw [done, filterMap_congr other, tally_perm perm_middle, filterMap_cons, atFlow]
      rfl
    · rw [rows]
      by_cases same : id = i
      · subst same
        rw [modify_self atFlow, atFlow]
        simp [absent]
      · rw [modify_other same]
        simp [Ne.symm same]

theorem foldl_installState [DecidableEq F] (entries : List (String × StateId)) (m : Manager F) :
    entries.foldl (fun m entry => { m with objects := m.objects.modify entry.2 m.installState }) m =
      { m with objects := (entries.map Prod.snd).foldl (fun rows id =>
        rows.modify id m.installState) m.objects } := by
  induction entries generalizing m with
  | nil => rfl
  | cons entry rest ih =>
    rw [foldl_cons, ih]
    rfl

section AccountKept

variable (m : Manager F) (state : UserState F) (now : Time)

@[simp] theorem expire_account : (m.expire now state).account = state.account := by
  unfold expire
  split <;> rfl

@[simp] theorem installState_account [DecidableEq F] : (m.installState state).account = state.account := by
  unfold installState
  dsimp only
  split <;> rfl

end AccountKept

/-- The manager with which `install` visits the flows. -/
def prepared [DecidableEq F] (m : Manager F) (document : Document F) (raw : Option Bytes) : Manager F :=
  { m.reset document raw with
    objects := (m.states.map Prod.snd).foldl
      (fun rows id => rows.modify id (m.reset document raw).installState) m.objects
    counts := fun _ => none }

theorem install_eq [DecidableEq F] (m : Manager F) (document : Document F) (raw : Option Bytes) :
    (m.install document raw).1 = (m.flows.foldl installFlow (m.prepared document raw, [])).1 := by
  obtain ⟨policies, users, caps, frame⟩ := m.reset_frame document raw
  unfold Manager.install
  rw [← reset]
  dsimp only
  rw [foldl_installState, prepared]
  simp only [frame]

theorem installFlow_frame (ids : List FlowId) (m : Manager F) (closeFlows : List FlowId) :
    ∃ flowObjects counts, (ids.foldl installFlow (m, closeFlows)).1 = m.withFlows flowObjects counts := by
  induction ids generalizing m closeFlows with
  | nil => exact ⟨m.flowObjects, m.counts, rfl⟩
  | cons id rest ih =>
    rw [foldl_cons]
    have turn : ∃ flowObjects counts, (installFlow (m, closeFlows) id).1 = m.withFlows flowObjects counts := by
      unfold installFlow
      dsimp only
      split
      · exact ⟨m.flowObjects, m.counts, rfl⟩
      · split
        · exact ⟨m.flowObjects, m.counts, rfl⟩
        · exact ⟨_, _, rfl⟩
    obtain ⟨flowObjects, counts, first⟩ := turn
    obtain ⟨flowObjects', counts', later⟩ :=
      ih (installFlow (m, closeFlows) id).1 (installFlow (m, closeFlows) id).2
    exact ⟨flowObjects', counts', by rw [later, first, withFlows_withFlows]⟩

theorem install_document [DecidableEq F] (m : Manager F) (document : Document F) (raw : Option Bytes) :
    (m.install document raw).1.document = document := by
  obtain ⟨policies, users, caps, frame⟩ := m.reset_frame document raw
  obtain ⟨flowObjects, counts, done⟩ := installFlow_frame m.flows (m.prepared document raw) []
  rw [install_eq, done, withFlows, prepared, frame]

theorem install_raw [DecidableEq F] (m : Manager F) (document : Document F) (raw : Option Bytes) :
    (m.install document raw).1.raw = raw := by
  obtain ⟨policies, users, caps, frame⟩ := m.reset_frame document raw
  obtain ⟨flowObjects, counts, done⟩ := installFlow_frame m.flows (m.prepared document raw) []
  rw [install_eq, done, withFlows, prepared, frame]

end Manager

end Accounts

section Counting

variable {F : Type} [Float64 F]

namespace Manager

/-- The connection accounting of a manager, with what keeps it going. -/
structure Accounted (m : Manager F) : Prop where
  installed : m.Installed
  flowsOnce : m.flows.Nodup
  undone : ∀ id : FlowId, id ∈ m.flows ↔ ∃ f, m.flowObjects[id]? = some f ∧ f.done = false
  counts : m.counts = tally (m.live.map Flow.group)
  home : ∀ f ∈ m.live, ∃ state, m.objects[f.state]? = some state ∧ state.tag = f.tag ∧ state.email = f.email
  active : ∀ (i : StateId) state, m.objects[i]? = some state → state.active = m.live.countP (·.state == i)
  kept : ∀ (i : StateId) state, m.objects[i]? = some state → 0 < state.active →
    (key state.tag state.email, i) ∈ m.states
  entries : ∀ entry ∈ m.states, ∃ state, m.objects[entry.2]? = some state ∧
    entry.1 = key state.tag state.email
  keysOnce : (m.states.map Prod.fst).Nodup
  groups : ∀ f ∈ m.live, f.group = m.document.groupOf f.tag f.email

variable {m : Manager F}

theorem Accounted.idsOnce (accounted : m.Accounted) : (m.states.map Prod.snd).Nodup := by
  refine List.Nodup.map_on ?_ (List.Nodup.of_map _ accounted.keysOnce)
  intro a atA b atB same
  obtain ⟨state, atRow, key⟩ := accounted.entries a atA
  obtain ⟨state', atRow', key'⟩ := accounted.entries b atB
  rw [same] at atRow
  cases atRow.symm.trans atRow'
  exact Prod.ext (key.trans key'.symm) same

theorem Accounted.of_accounts {n : Manager F} (accounted : m.Accounted) (document : n.document = m.document)
    (policies : n.policies = m.policies) (users : n.users = m.users) (flows : n.flows = m.flows)
    (flowObjects : n.flowObjects = m.flowObjects) (counts : n.counts = m.counts)
    (accounts : ∀ i : StateId, (n.objects[i]?).map UserState.account = (m.objects[i]?).map UserState.account)
    (states : n.states.Sublist m.states)
    (kept : ∀ (i : StateId) state, m.objects[i]? = some state → 0 < state.active →
      (key state.tag state.email, i) ∈ n.states) :
    n.Accounted := by
  have live : n.live = m.live := by rw [Manager.live, flows, flowObjects, Manager.live]
  have back : ∀ {i : StateId} {state}, n.objects[i]? = some state → ∃ old, m.objects[i]? = some old ∧
      old.tag = state.tag ∧ old.email = state.email ∧ old.active = state.active := by
    intro i state atRow
    have same := accounts i
    rw [atRow, Option.map_some, eq_comm] at same
    obtain ⟨old, atOld, same⟩ := Option.map_eq_some_iff.mp same
    simp only [UserState.account, Prod.mk.injEq] at same
    exact ⟨old, atOld, same⟩
  have forth : ∀ {i : StateId} {old}, m.objects[i]? = some old → ∃ state, n.objects[i]? = some state ∧
      state.tag = old.tag ∧ state.email = old.email ∧ state.active = old.active := by
    intro i old atRow
    have same := accounts i
    rw [atRow, Option.map_some] at same
    obtain ⟨state, atNew, same⟩ := Option.map_eq_some_iff.mp same
    simp only [UserState.account, Prod.mk.injEq] at same
    exact ⟨state, atNew, same⟩
  exact
    { installed := by
        refine ⟨document ▸ accounted.installed.valid, ?_, fun tag email => ?_⟩
        · rw [policies, document, accounted.installed.policies]
        · rw [users, document, accounted.installed.users]
      flowsOnce := flows ▸ accounted.flowsOnce
      undone := by
        rw [flows, flowObjects]
        exact accounted.undone
      counts := by rw [counts, live, accounted.counts]
      home := by
        intro f member
        obtain ⟨old, atOld, tag, email⟩ := accounted.home f (live ▸ member)
        obtain ⟨state, atRow, tag', email', _⟩ := forth atOld
        exact ⟨state, atRow, tag'.trans tag, email'.trans email⟩
      active := by
        intro i state atRow
        obtain ⟨old, atOld, _, _, same⟩ := back atRow
        rw [live, ← accounted.active i old atOld, same]
      kept := by
        intro i state atRow positive
        obtain ⟨old, atOld, tag, email, same⟩ := back atRow
        rw [← tag, ← email]
        exact kept i old atOld (same ▸ positive)
      entries := by
        intro entry member
        obtain ⟨old, atOld, same⟩ := accounted.entries entry (states.subset member)
        obtain ⟨state, atRow, tag, email, _⟩ := forth atOld
        exact ⟨state, atRow, by rw [same, tag, email]⟩
      keysOnce := (states.map Prod.fst).nodup accounted.keysOnce
      groups := by
        rw [live, document]
        exact accounted.groups }

variable {now : Time}

section

variable (accounted : m.Accounted)
include accounted

theorem Accounted.evaluateState {n : Manager F} {elapsed : F} {entry : String × StateId}
    (run : evaluateState now elapsed m entry = some n) : n.Accounted := by
  have written : ∀ {old new : UserState F}, m.objects[entry.2]? = some old → new.account = old.account →
      ∀ i : StateId, ((m.objects.set entry.2 new)[i]?).map UserState.account =
        (m.objects[i]?).map UserState.account := by
    intro old new atRow same i
    by_cases here : entry.2 = i
    · subst here
      rw [List.getElem?_set_self (row_lt atRow), atRow]
      exact congrArg some same
    · rw [List.getElem?_set_ne here]
  unfold Manager.evaluateState at run
  split at run
  · cases run
  · rename_i state atRow
    have sampled : (m.expire now (state.sample now elapsed)).account = state.account := expire_account ..
    dsimp only at run
    split at run
    · cases run
      exact accounted.of_accounts rfl rfl rfl rfl rfl rfl (written atRow sampled) (List.Sublist.refl _)
        accounted.kept
    · split at run
      · cases run
      · rename_i rules triggered _
        cases run
        have same : ∀ (new : UserState F), new.account = state.account →
            ({ m with
              objects := m.objects.set entry.2 new
              states := if (m.users entry.1).isNone && new.active == 0 &&
                decide (minute < (now : Int) - new.lastSeen)
                then m.states.erase entry else m.states } : Manager F).Accounted := by
          intro new account
          have active : new.active = state.active := congrArg (fun a => a.2.2) account
          refine accounted.of_accounts rfl rfl rfl rfl rfl rfl (written atRow account) ?_ ?_
          · dsimp only
            split
            · exact erase_sublist
            · exact List.Sublist.refl _
          · intro i other atOther positive
            have stored := accounted.kept i other atOther positive
            split
            · rename_i idle
              simp only [Bool.and_eq_true, beq_iff_eq] at idle
              refine (mem_erase_of_ne fun same => ?_).mpr stored
              cases congrArg Prod.snd same
              cases atRow.symm.trans atOther
              omega
            · exact stored
        cases triggered with
        | none => exact same _ sampled
        | some rule => exact same _ sampled

theorem Accounted.evaluate {n : Manager F} (run : m.evaluate now = some n) : n.Accounted := by
  unfold Manager.evaluate at run
  dsimp only at run
  split at run
  · cases run
    exact accounted
  · refine foldlM_keeps (fun _ _ _ before turn => Accounted.evaluateState before turn) ?_ run
    exact accounted.of_accounts rfl rfl rfl rfl rfl rfl (fun _ => rfl) (List.Sublist.refl _) accounted.kept

theorem Accounted.transfer (id : FlowId) (bytes : Nat) : (m.transfer id bytes).Accounted := by
  unfold Manager.transfer
  split
  · exact accounted
  · rename_i f _
    refine accounted.of_accounts rfl rfl rfl rfl rfl rfl (fun i => ?_) (List.Sublist.refl _) accounted.kept
    rw [List.getElem?_modify]
    cases m.objects[i]? <;> by_cases here : f.state = i <;> simp [here, UserState.account]

theorem Accounted.live_perm {id : FlowId} {f : Flow} (atRow : m.flowObjects[id]? = some f)
    (undone : f.done = false) (g : Flow → Flow) :
    m.live.Perm (f :: (m.flows.erase id).filterMap fun j => (m.flowObjects.modify id g)[j]?) := by
  have member : id ∈ m.flows := (accounted.undone id).mpr ⟨f, atRow, undone⟩
  have others : (m.flows.erase id).filterMap (fun j => (m.flowObjects.modify id g)[j]?) =
      (m.flows.erase id).filterMap fun j => m.flowObjects[j]? := by
    refine filterMap_congr fun j atJ => ?_
    exact modify_other fun same => (accounted.flowsOnce.not_mem_erase) (same ▸ atJ)
  have order := (perm_cons_erase member).filterMap fun j => m.flowObjects[j]?
  rw [filterMap_cons, atRow] at order
  rw [others]
  exact order

theorem Accounted.release (id : FlowId) (now : Time) : (m.release id now).Accounted := by
  unfold Manager.release
  split
  · exact accounted
  · rename_i f atRow
    split
    · exact accounted
    · rename_i undone
      have undone : f.done = false := by simpa using undone
      have member : id ∈ m.flows := (accounted.undone id).mpr ⟨f, atRow, undone⟩
      have order := accounted.live_perm atRow undone fun f => { f with done := true }
      have inside : f ∈ m.live := mem_live.mpr ⟨id, member, atRow⟩
      have subset : ∀ g ∈ (m.flows.erase id).filterMap
          (fun j => (m.flowObjects.modify id fun f => { f with done := true })[j]?), g ∈ m.live := by
        intro g atG
        exact order.mem_iff.mpr (mem_cons_of_mem f atG)
      have rows : ∀ {i : StateId} {state : UserState F},
          (m.objects.modify f.state fun state =>
            { state with active := state.active - 1, lastSeen := now })[i]? = some state →
          ∃ old, m.objects[i]? = some old ∧ old.tag = state.tag ∧ old.email = state.email ∧
            state.active = old.active - (if f.state = i then 1 else 0) := by
        intro i state atState
        obtain ⟨old, atOld, rfl⟩ := modify_row atState
        refine ⟨old, atOld, ?_⟩
        split <;> simp
      have forth : ∀ {i : StateId} {old : UserState F}, m.objects[i]? = some old →
          ∃ state, (m.objects.modify f.state fun state =>
            { state with active := state.active - 1, lastSeen := now })[i]? = some state ∧
            state.tag = old.tag ∧ state.email = old.email := by
        intro i old atOld
        by_cases here : f.state = i
        · subst here
          exact ⟨_, modify_self atOld, rfl, rfl⟩
        · exact ⟨old, (modify_other here).trans atOld, rfl, rfl⟩
      refine
        { installed := ⟨accounted.installed.valid, accounted.installed.policies, accounted.installed.users⟩
          flowsOnce := accounted.flowsOnce.erase id
          undone := ?_
          counts := ?_
          home := ?_
          active := ?_
          kept := ?_
          entries := ?_
          keysOnce := accounted.keysOnce
          groups := fun g atG => accounted.groups g (subset g atG) }
      · intro j
        by_cases here : id = j
        · subst here
          have gone : id ∉ m.flows.erase id := accounted.flowsOnce.not_mem_erase
          simp [gone, modify_self atRow]
        · rw [modify_other here, ← accounted.undone j, mem_erase_of_ne (Ne.symm here)]
      · have counted := accounted.counts
        rw [tally_perm (order.map Flow.group), map_cons] at counted
        rw [counted]
        exact (tally_remove f.group _).symm
      · intro g atG
        obtain ⟨old, atOld, tag, email⟩ := accounted.home g (subset g atG)
        obtain ⟨state, atState, tag', email'⟩ := forth atOld
        exact ⟨state, atState, tag'.trans tag, email'.trans email⟩
      · intro i state atState
        obtain ⟨old, atOld, _, _, active⟩ := rows atState
        have before := accounted.active i old atOld
        rw [order.countP_eq, countP_cons] at before
        rw [active, before]
        show _ = ((List.countP (fun g : Flow => g.state == i) ((m.flows.erase id).filterMap
          fun j => (m.flowObjects.modify id fun f => { f with done := true })[j]?) : Nat) : Int)
        by_cases here : f.state = i <;> simp [here]
      · intro i state atState positive
        obtain ⟨old, atOld, tag, email, active⟩ := rows atState
        rw [← tag, ← email]
        refine accounted.kept i old atOld ?_
        split at active <;> omega
      · intro entry atEntry
        obtain ⟨old, atOld, same⟩ := accounted.entries entry atEntry
        obtain ⟨state, atState, tag, email⟩ := forth atOld
        exact ⟨state, atState, by rw [same, tag, email]⟩

end

theorem Installed.groupOf (installed : m.Installed) (tag email : String) :
    group (m.userAt tag email) email = m.document.groupOf tag email := by
  rw [userAt, installed.users, Document.groupOf]

theorem Accounted.prepared_account [DecidableEq F] (accounted : m.Accounted) (document : Document F)
    (raw : Option Bytes) (i : StateId) :
    ((m.prepared document raw).objects[i]?).map UserState.account = (m.objects[i]?).map UserState.account := by
  rw [prepared, foldl_modify_row accounted.idsOnce, Option.map_map]
  congr 1
  funext state
  split
  · exact installState_account ..
  · rfl

theorem Accounted.install [DecidableEq F] (accounted : m.Accounted) {document : Document F} (valid : document.Valid)
    (raw : Option Bytes) : (m.install document raw).1.Accounted := by
  obtain ⟨policies, users, caps, frame⟩ := m.reset_frame document raw
  have installed : (m.prepared document raw).Installed := by
    have maps := m.reset_installed valid raw
    exact ⟨maps.valid, maps.policies, maps.users⟩
  have flowObjects : (m.prepared document raw).flowObjects = m.flowObjects := by simp only [prepared, frame]
  have flows : (m.prepared document raw).flows = m.flows := by simp only [prepared, frame]
  have states : (m.prepared document raw).states = m.states := by simp only [prepared, frame]
  have accounts := accounted.prepared_account document raw
  have forth : ∀ {i : StateId} {old}, m.objects[i]? = some old → ∃ state,
      (m.prepared document raw).objects[i]? = some state ∧ state.tag = old.tag ∧ state.email = old.email := by
    intro i old atOld
    have same := accounts i
    rw [atOld, Option.map_some] at same
    obtain ⟨state, atState, same⟩ := Option.map_eq_some_iff.mp same
    simp only [UserState.account, Prod.mk.injEq] at same
    exact ⟨state, atState, same.1, same.2.1⟩
  have back : ∀ {i : StateId} {state}, (m.prepared document raw).objects[i]? = some state → ∃ old,
      m.objects[i]? = some old ∧ old.tag = state.tag ∧ old.email = state.email ∧ old.active = state.active := by
    intro i state atState
    have same := accounts i
    rw [atState, Option.map_some, eq_comm] at same
    obtain ⟨old, atOld, same⟩ := Option.map_eq_some_iff.mp same
    simp only [UserState.account, Prod.mk.injEq] at same
    exact ⟨old, atOld, same⟩
  have place : ∀ f ∈ m.live, ∃ state, (m.prepared document raw).objects[f.state]? = some state ∧
      state.tag = f.tag ∧ state.email = f.email := by
    intro f member
    obtain ⟨old, atOld, tag, email⟩ := accounted.home f member
    obtain ⟨state, atState, tag', email'⟩ := forth atOld
    exact ⟨state, atState, tag'.trans tag, email'.trans email⟩
  obtain ⟨rows, done, regrouped⟩ := foldl_installFlow accounted.flowsOnce (m.prepared document raw) []
    (show (m.prepared document raw).counts = tally [] from tally_nil.symm) (by
      intro id member
      obtain ⟨f, atFlow, _⟩ := (accounted.undone id).mp member
      obtain ⟨state, atState, _⟩ := place f (mem_live.mpr ⟨id, member, atFlow⟩)
      exact ⟨f, state, by rw [flowObjects, atFlow], atState⟩)
  rw [flowObjects] at done regrouped
  rw [append_nil] at done
  have live : ∀ counts, ((m.prepared document raw).withFlows rows counts).live =
      m.live.map (m.prepared document raw).regroup := by
    intro counts
    show (m.prepared document raw).flows.filterMap (fun id => rows[id]?) = _
    rw [flows, Manager.live, map_filterMap]
    refine filterMap_congr fun id member => ?_
    rw [regrouped]
    simp [member]
  rw [install_eq, done]
  exact
    { installed := ⟨installed.valid, installed.policies, installed.users⟩
      flowsOnce := flows.symm ▸ accounted.flowsOnce
      undone := by
        intro j
        show j ∈ (m.prepared document raw).flows ↔ ∃ f, rows[j]? = some f ∧ f.done = false
        rw [flows, accounted.undone j, regrouped]
        constructor
        · rintro ⟨f, atFlow, undone⟩
          have member : j ∈ m.flows := (accounted.undone j).mpr ⟨f, atFlow, undone⟩
          exact ⟨_, by rw [atFlow, Option.map_some, if_pos member], by simpa using undone⟩
        · rintro ⟨g, atFlow, undone⟩
          obtain ⟨f, atOld, rfl⟩ := Option.map_eq_some_iff.mp atFlow
          refine ⟨f, atOld, ?_⟩
          split at undone <;> simpa using undone
      counts := by
        rw [live, map_map]
        rfl
      home := by
        intro g member
        rw [live] at member
        obtain ⟨f, atFlow, rfl⟩ := List.mem_map.mp member
        simpa using place f atFlow
      active := by
        intro i state atState
        obtain ⟨old, atOld, _, _, same⟩ := back atState
        rw [live, countP_map, ← same, accounted.active i old atOld]
        congr 2
        funext f
        simp
      kept := by
        intro i state atState positive
        obtain ⟨old, atOld, tag, email, same⟩ := back atState
        show (key state.tag state.email, i) ∈ (m.prepared document raw).states
        rw [states, ← tag, ← email]
        exact accounted.kept i old atOld (same ▸ positive)
      entries := by
        intro entry member
        obtain ⟨old, atOld, same⟩ := accounted.entries entry (states ▸ member)
        obtain ⟨state, atState, tag, email⟩ := forth atOld
        exact ⟨state, atState, by rw [same, tag, email]⟩
      keysOnce := states.symm ▸ accounted.keysOnce
      groups := by
        intro g member
        rw [live] at member
        obtain ⟨f, atFlow, rfl⟩ := List.mem_map.mp member
        obtain ⟨state, atState, tag, email⟩ := place f atFlow
        rw [regroup_tag, regroup_email, ← tag, ← email]
        simp only [regroup, atState]
        exact installed.groupOf state.tag state.email }

end Manager

end Counting

end OpenNode.NodeLimits
