import OpenNode.ConnectionCounts

namespace OpenNode.NodeLimits

open Function List Tally

variable {F : Type}

namespace Manager

theorem liveIn_append {m n : Manager F} {f : Flow} (extended : n.live = m.live ++ [f]) (g : String) :
    n.liveIn g = m.liveIn g + if f.group = g then 1 else 0 := by
  rw [liveIn, extended, countP_append, liveIn]
  by_cases same : f.group = g <;> simp [same]

theorem release_caps (m : Manager F) (id : FlowId) (now : Time) : (m.release id now).caps = m.caps := by
  unfold Manager.release
  split
  · rfl
  · split <;> rfl

variable {id : StateId}

theorem stateFor_frame {m n : Manager F} {tag email : String} {now : Time}
    (run : m.stateFor tag email now = (n, id)) :
    n = { m with states := n.states, objects := n.objects } := by
  unfold Manager.stateFor at run
  split at run <;> cases run <;> rfl

theorem acquire_cases (m : Manager F) (session : Option (String × String)) (now : Time) :
    m.acquire session now = (m, .untracked) ∨
    (∃ rejected, m.acquire session now = ({ m with rejected := rejected }, .rejected)) ∨
    ∃ tag email n id, session = some (tag, email) ∧ m.full (group (m.userAt tag email) email) = false ∧
      m.stateFor tag email now = (n, id) ∧
      m.acquire session now = ({ n with
            flowObjects := n.flowObjects ++
              [{ state := id, group := group (m.userAt tag email) email,
                  known := (m.users (key tag email)).isSome, tag := tag, email := email }]
            flows := n.flows ++ [n.flowObjects.length]
            objects := n.objects.modify id fun state => { state with active := state.active + 1 }
            counts := update n.counts (group (m.userAt tag email) email)
              (some ((n.counts (group (m.userAt tag email) email)).getD 0 + 1)) },
          .admitted n.flowObjects.length) := by
  unfold Manager.acquire
  split
  · exact .inl rfl
  · rename_i tag email
    split
    · exact .inl rfl
    · dsimp only
      split
      · exact .inr (.inl ⟨_, rfl⟩)
      · rename_i room
        exact .inr (.inr ⟨tag, email, _, _, rfl, by simpa using room, rfl, rfl⟩)

variable [Float64 F]

variable {m n : Manager F} {tag email : String} {now : Time}

/-- The state stored under a user's key, if any, is of that user. Tags and
emails without a NUL character are always told apart by their keys. -/
def Distinguishes (m : Manager F) (tag email : String) : Prop :=
  ∀ (i : StateId) state, (key tag email, i) ∈ m.states → m.objects[i]? = some state →
    state.tag = tag ∧ state.email = email

section

variable (accounted : m.Accounted)
include accounted

theorem Accounted.stateFor (distinct : m.Distinguishes tag email) (run : m.stateFor tag email now = (n, id)) :
    n.Accounted ∧ (key tag email, id) ∈ n.states ∧
      ∃ state, n.objects[id]? = some state ∧ state.tag = tag ∧ state.email = email := by
  unfold Manager.stateFor at run
  split at run
  · rename_i found
    cases run
    have stored := (Dict.lookup_eq_some accounted.keysOnce).mp found
    obtain ⟨state, atState, _⟩ := accounted.entries _ stored
    exact ⟨accounted, stored, state, atState, distinct _ state stored atState⟩
  · rename_i missing
    cases run
    have absent : key tag email ∉ m.states.map Prod.fst := by
      intro member
      obtain ⟨entry, atEntry, same⟩ := List.mem_map.mp member
      have found := (Dict.lookup_eq_some accounted.keysOnce).mpr (show (key tag email, entry.2) ∈ m.states from
        same ▸ atEntry)
      rw [missing] at found
      cases found
    have old : ∀ f ∈ m.live, f.state ≠ m.objects.length := by
      intro f member same
      obtain ⟨state, atState, _⟩ := accounted.home f member
      rw [same] at atState
      exact Nat.lt_irrefl _ (Table.row_lt atState)
    have unused : m.live.countP (·.state == m.objects.length) = 0 := by
      rw [countP_eq_zero]
      intro f member
      simpa using old f member
    refine ⟨?_, mem_append_right _ (mem_singleton_self _), _, List.getElem?_concat_length, rfl, rfl⟩
    exact
      { installed := ⟨accounted.installed.valid, accounted.installed.policies, accounted.installed.users⟩
        flowsOnce := accounted.flowsOnce
        undone := accounted.undone
        counts := accounted.counts
        home := by
          intro f member
          obtain ⟨state, atState, same⟩ := accounted.home f member
          exact ⟨state, Table.append_old atState, same⟩
        active := by
          intro i state atState
          rcases Table.append_row atState with before | ⟨rfl, rfl⟩
          · exact accounted.active i state before
          · exact (congrArg Nat.cast unused).symm
        kept := by
          intro i state atState positive
          rcases Table.append_row atState with before | ⟨rfl, rfl⟩
          · exact mem_append_left _ (accounted.kept i state before positive)
          · exact mem_append_right _ (mem_singleton_self _)
        entries := by
          intro entry member
          rcases List.mem_append.mp member with before | new
          · obtain ⟨state, atState, same⟩ := accounted.entries entry before
            exact ⟨state, Table.append_old atState, same⟩
          · cases List.mem_singleton.mp new
            exact ⟨_, List.getElem?_concat_length, rfl⟩
        keysOnce := by
          rw [map_append, map_singleton, ← concat_eq_append]
          exact accounted.keysOnce.concat absent
        groups := accounted.groups }

theorem Accounted.flow_lt {id : FlowId} (member : id ∈ m.flows) : id < m.flowObjects.length := by
  obtain ⟨f, atFlow, _⟩ := (accounted.undone id).mp member
  exact Table.row_lt atFlow

theorem Accounted.live_concat (f : Flow) :
    ((m.flows ++ [m.flowObjects.length]).filterMap fun j => (m.flowObjects ++ [f])[j]?) = m.live ++ [f] := by
  rw [filterMap_append, Manager.live]
  congr 1
  · refine filterMap_congr fun j member => ?_
    rw [List.getElem?_append_left (accounted.flow_lt member)]
  · simp

theorem Accounted.admit {state : UserState F} (stored : (key tag email, id) ∈ m.states)
    (atState : m.objects[id]? = some state) (sameTag : state.tag = tag) (sameEmail : state.email = email) {f : Flow}
    (atFlow : f.state = id ∧ f.tag = tag ∧ f.email = email) (undone : f.done = false)
    (grouped : f.group = group (m.userAt tag email) email) :
    ({ m with
        flowObjects := m.flowObjects ++ [f]
        flows := m.flows ++ [m.flowObjects.length]
        objects := m.objects.modify id fun state => { state with active := state.active + 1 }
        counts := update m.counts f.group (some ((m.counts f.group).getD 0 + 1)) } : Manager F).Accounted := by
  obtain ⟨rfl, rfl, rfl⟩ := atFlow
  have live := accounted.live_concat f
  have rows : ∀ {i : StateId} {after : UserState F},
      (m.objects.modify f.state fun state => { state with active := state.active + 1 })[i]? = some after →
      ∃ before, m.objects[i]? = some before ∧ before.tag = after.tag ∧ before.email = after.email ∧
        after.active = before.active + (if f.state = i then 1 else 0) := by
    intro i after atAfter
    obtain ⟨before, atBefore, rfl⟩ := Table.modify_row atAfter
    refine ⟨before, atBefore, ?_⟩
    split <;> simp
  have forth : ∀ {i : StateId} {before : UserState F}, m.objects[i]? = some before →
      ∃ after, (m.objects.modify f.state fun state => { state with active := state.active + 1 })[i]? = some after ∧
        after.tag = before.tag ∧ after.email = before.email := by
    intro i before atBefore
    by_cases here : f.state = i
    · subst here
      exact ⟨_, Table.modify_self atBefore, rfl, rfl⟩
    · exact ⟨before, (Table.modify_other here).trans atBefore, rfl, rfl⟩
  refine
    { installed := ⟨accounted.installed.valid, accounted.installed.policies, accounted.installed.users⟩
      flowsOnce := by
        show (m.flows ++ [m.flowObjects.length]).Nodup
        rw [← concat_eq_append]
        exact accounted.flowsOnce.concat fun member => Nat.lt_irrefl _ (accounted.flow_lt member)
      undone := ?_
      counts := ?_
      home := ?_
      active := ?_
      kept := ?_
      entries := ?_
      keysOnce := accounted.keysOnce
      groups := ?_ }
  · intro j
    rw [mem_append, mem_singleton, accounted.undone j]
    constructor
    · rintro (⟨g, atG, open_⟩ | rfl)
      · exact ⟨g, Table.append_old atG, open_⟩
      · exact ⟨f, List.getElem?_concat_length, undone⟩
    · rintro ⟨g, atG, open_⟩
      rcases Table.append_row atG with before | ⟨here, _⟩
      · exact .inl ⟨g, before, open_⟩
      · exact .inr here
  · show update m.counts f.group _ = tally (List.map Flow.group (List.filterMap _ _))
    rw [live, map_append, map_singleton, tally_perm (perm_append_singleton _ _), tally_cons, accounted.counts]
  · intro g member
    rcases List.mem_append.mp (live ▸ member : g ∈ m.live ++ [f]) with before | new
    · obtain ⟨old, atOld, tag, email⟩ := accounted.home g before
      obtain ⟨after, atAfter, tag', email'⟩ := forth atOld
      exact ⟨after, atAfter, tag'.trans tag, email'.trans email⟩
    · cases List.mem_singleton.mp new
      obtain ⟨after, atAfter, tag', email'⟩ := forth atState
      exact ⟨after, atAfter, tag'.trans sameTag, email'.trans sameEmail⟩
  · intro i after atAfter
    obtain ⟨before, atBefore, _, _, active⟩ := rows atAfter
    show after.active = ((List.countP _ (List.filterMap _ _) : Nat) : Int)
    rw [live, countP_append, active, accounted.active i before atBefore]
    by_cases here : f.state = i <;> simp [here]
  · intro i after atAfter positive
    obtain ⟨before, atBefore, tag, email, active⟩ := rows atAfter
    rw [← tag, ← email]
    by_cases here : f.state = i
    · subst here
      cases atState.symm.trans atBefore
      rw [sameTag, sameEmail]
      exact stored
    · rw [if_neg here] at active
      exact accounted.kept i before atBefore (by omega)
  · intro entry member
    obtain ⟨before, atBefore, same⟩ := accounted.entries entry member
    obtain ⟨after, atAfter, tag, email⟩ := forth atBefore
    exact ⟨after, atAfter, by rw [same, tag, email]⟩
  · intro g member
    rcases List.mem_append.mp (live ▸ member : g ∈ m.live ++ [f]) with before | new
    · exact accounted.groups g before
    · cases List.mem_singleton.mp new
      rw [grouped]
      exact accounted.installed.groupOf _ _

theorem Accounted.acquire {session : Option (String × String)}
    (distinct : ∀ tag email, session = some (tag, email) → m.Distinguishes tag email) (now : Time) :
    (m.acquire session now).1.Accounted := by
  rcases m.acquire_cases session now with same | ⟨_, rejected⟩ | ⟨tag, email, n, id, rfl, _, found, admitted⟩
  · rw [same]
    exact accounted
  · rw [rejected]
    exact accounted.of_accounts rfl rfl rfl rfl rfl rfl (fun _ => rfl) (List.Sublist.refl _) accounted.kept
  · obtain ⟨after, stored, state, atState, sameTag, sameEmail⟩ := accounted.stateFor (distinct tag email rfl) found
    rw [admitted]
    refine after.admit stored atState sameTag sameEmail ⟨rfl, rfl, rfl⟩ rfl ?_
    rw [stateFor_frame found]
    rfl

end

end Manager

variable [Float64 F]

/-- The callers install validated documents only. -/
def LimiterEvent.Valid : LimiterEvent F → Prop
  | .install document _ => document.validate = none
  | _ => True

/-- A validated install, or an acquisition whose key tells the user apart. -/
def LimiterEvent.Distinct (m : Manager F) (event : LimiterEvent F) : Prop :=
  event.Valid ∧ ∀ tag email now, event = .acquire (some (tag, email)) now → m.Distinguishes tag email

/-- The runs of a manager whose steps meet a condition. -/
inductive LimiterRun [DecidableEq F] (allowed : Manager F → LimiterEvent F → Prop) (first : Manager F) :
    Manager F → Prop
  | start : LimiterRun allowed first first
  | step {m n : Manager F} (event : LimiterEvent F) : LimiterRun allowed first m → allowed m event →
      m.step event = some n → LimiterRun allowed first n

def Manager.new (now : Time) : Manager F :=
  { lastTick := now }

namespace Manager

variable {m n : Manager F}

theorem accounted_new (now : Time) : (new now : Manager F).Accounted where
  installed := ⟨⟨by simp [new], by simp [new]⟩, rfl, fun _ _ => rfl⟩
  flowsOnce := nodup_nil
  undone := by simp [new]
  counts := tally_nil.symm
  home := by simp [new, live]
  active := by simp [new]
  kept := by simp [new]
  entries := by simp [new]
  keysOnce := nodup_nil
  groups := by simp [new, live]

variable {event : LimiterEvent F}

theorem Accounted.step [DecidableEq F] (accounted : m.Accounted) (distinct : event.Distinct m)
    (run : m.step event = some n) : n.Accounted := by
  cases event with
  | install document raw =>
    cases run
    exact accounted.install (Document.validate_valid distinct.1) raw
  | acquire session now =>
    cases run
    exact accounted.acquire (fun tag email same => distinct.2 tag email now (same ▸ rfl)) now
  | release flow now =>
    cases run
    exact accounted.release flow now
  | transfer flow bytes =>
    cases run
    exact accounted.transfer flow bytes
  | evaluate now => exact accounted.evaluate run

/-- What the limiter promises about connections. -/
structure ConnectionsCounted [DecidableEq F] (m : Manager F) : Prop where
  counts : ∀ g, m.counts g = if m.liveIn g = 0 then none else some (m.liveIn g : Int)
  active : ∀ (i : StateId) state, m.objects[i]? = some state →
    state.active = m.live.countP (fun f => f.state == i)
  kept : ∀ (i : StateId) state, m.objects[i]? = some state → 0 < state.active →
    (key state.tag state.email, i) ∈ m.states
  groups : ∀ f ∈ m.live, f.group = m.document.groupOf f.tag f.email
  capped : ∀ session now n id f, m.acquire session now = (n, .admitted id) →
    n.flowObjects[id]? = some f → 0 < m.caps f.group → (n.liveIn f.group : Int) ≤ m.caps f.group
  fixed : ∀ n, LimiterRun (fun m event => event.Distinct m ∧ ∀ document raw, event ≠ .install document raw) m n →
    ∀ g, 0 < m.caps g → (n.liveIn g : Int) ≤ max (m.liveIn g : Int) (m.caps g)

variable {now : Time}

theorem evaluateState_frame {elapsed : F} {entry : String × StateId}
    (run : evaluateState now elapsed m entry = some n) :
    n = { m with objects := n.objects, states := n.states } := by
  unfold Manager.evaluateState at run
  split at run
  · cases run
  · dsimp only at run
    split at run
    · cases run
      rfl
    · split at run
      · cases run
      · cases run
        rfl

theorem evaluate_frame (run : m.evaluate now = some n) :
    n = { m with lastTick := n.lastTick, objects := n.objects, states := n.states } := by
  unfold Manager.evaluate at run
  dsimp only at run
  split at run
  · cases run
    rfl
  · let kept (x : Manager F) : Prop :=
      x = { m with lastTick := x.lastTick, objects := x.objects, states := x.states }
    refine foldlM_keeps (P := kept) (fun x _ y before turn =>
      ?_) (show kept { m with lastTick := now } from rfl) run
    have after := evaluateState_frame turn
    rw [after, before]

section

variable (accounted : m.Accounted)
include accounted

theorem Accounted.acquire_live (session : Option (String × String)) (now : Time) :
    (m.acquire session now).1.caps = m.caps ∧
      ((m.acquire session now).1.live = m.live ∧ (∀ id, (m.acquire session now).2 ≠ .admitted id) ∨
        ∃ f id, (m.acquire session now).2 = .admitted id ∧ (m.acquire session now).1.flowObjects[id]? = some f ∧
          (m.acquire session now).1.live = m.live ++ [f] ∧
          (0 < m.caps f.group → (m.liveIn f.group : Int) < m.caps f.group)) := by
  rcases m.acquire_cases session now with same | ⟨_, rejected⟩ | ⟨tag, email, n, id, rfl, room, found, admitted⟩
  · rw [same]
    exact ⟨rfl, .inl ⟨rfl, nofun⟩⟩
  · rw [rejected]
    exact ⟨rfl, .inl ⟨rfl, nofun⟩⟩
  · have frame := stateFor_frame found
    have flowObjects : n.flowObjects = m.flowObjects := by rw [frame]
    have flows : n.flows = m.flows := by rw [frame]
    have caps : n.caps = m.caps := by rw [frame]
    rw [admitted]
    refine ⟨caps, .inr ⟨_, _, rfl, List.getElem?_concat_length, ?_, fun capped => ?_⟩⟩
    · rw [Manager.live]
      rw [flows, flowObjects]
      exact accounted.live_concat _
    · have free : ¬ m.caps (group (m.userAt tag email) email) ≤
          (m.counts (group (m.userAt tag email) email)).getD 0 := by
        simpa [full, capped] using room
      rw [accounted.counts, getD_tally, count_groups] at free
      exact Int.not_le.mp free

theorem Accounted.release_liveIn (id : FlowId) (now : Time) (g : String) :
    (m.release id now).liveIn g ≤ m.liveIn g := by
  unfold Manager.release
  split
  · exact Nat.le_refl _
  · rename_i f atRow
    split
    · exact Nat.le_refl _
    · rename_i undone
      have order := accounted.live_perm atRow (by simpa using undone) fun f => { f with done := true }
      have whole := order.countP_eq fun f => f.group == g
      rw [countP_cons] at whole
      exact Nat.le_of_add_right_le (Nat.le_of_eq whole.symm)

theorem Accounted.liveIn_step [DecidableEq F]
    (fixed : ∀ document raw, event ≠ .install document raw) (run : m.step event = some n) (g : String) :
    n.caps = m.caps ∧ (0 < m.caps g → (n.liveIn g : Int) ≤ max (m.liveIn g : Int) (m.caps g)) := by
  have same : n.flows = m.flows → n.flowObjects = m.flowObjects → n.liveIn g = m.liveIn g := by
    intro flows flowObjects
    simp only [liveIn, live, flows, flowObjects]
  cases event with
  | install document raw => exact absurd rfl (fixed document raw)
  | acquire session now =>
    cases run
    obtain ⟨caps, change⟩ := accounted.acquire_live session now
    refine ⟨caps, fun capped => ?_⟩
    rcases change with ⟨live, _⟩ | ⟨f, id, _, _, extended, room⟩
    · rw [liveIn, live]
      exact Int.le_max_left _ _
    · rw [liveIn_append extended]
      by_cases here : f.group = g
      · subst here
        have := room capped
        rw [if_pos rfl]
        omega
      · rw [if_neg here]
        omega
  | release flow now =>
    cases run
    exact ⟨release_caps m flow now,
      fun _ => Int.le_trans (Int.ofNat_le.mpr (accounted.release_liveIn flow now g)) (Int.le_max_left _ _)⟩
  | transfer flow bytes =>
    cases run
    unfold Manager.transfer
    split <;> exact ⟨rfl, fun _ => Int.le_max_left _ _⟩
  | evaluate now =>
    have frame := evaluate_frame run
    refine ⟨by rw [frame], fun _ => ?_⟩
    rw [same (by rw [frame]) (by rw [frame])]
    exact Int.le_max_left _ _

theorem Accounted.fixed [DecidableEq F]
    (run : LimiterRun (fun m event => event.Distinct m ∧ ∀ document raw, event ≠ .install document raw) m n)
    (g : String) (capped : 0 < m.caps g) : (n.liveIn g : Int) ≤ max (m.liveIn g : Int) (m.caps g) := by
  suffices all : n.Accounted ∧ n.caps = m.caps ∧ (n.liveIn g : Int) ≤ max (m.liveIn g : Int) (m.caps g) from
    all.2.2
  induction run with
  | start => exact ⟨accounted, rfl, Int.le_max_left _ _⟩
  | step event _ allowed turn ih =>
    obtain ⟨sound, caps, bound⟩ := ih
    obtain ⟨caps', bound'⟩ := sound.liveIn_step allowed.2 turn g
    have grown := bound' (caps ▸ capped)
    rw [caps] at grown
    exact ⟨sound.step allowed.1 turn, caps'.trans caps, by omega⟩

theorem Accounted.connectionsCounted [DecidableEq F] : m.ConnectionsCounted where
  counts g := by
    rw [accounted.counts, tally, count_groups]
  active := accounted.active
  kept := accounted.kept
  groups := accounted.groups
  capped session now n id f admitted atRow capped := by
    obtain ⟨caps, change⟩ := accounted.acquire_live session now
    rw [admitted] at caps change
    rcases change with ⟨_, never⟩ | ⟨f', id', same, atRow', extended, room⟩
    · exact absurd rfl (never id)
    · cases same
      cases atRow.symm.trans atRow'
      have below := room capped
      rw [liveIn_append extended, if_pos rfl]
      omega
  fixed _ run g capped := accounted.fixed run g capped

end

end Manager

/-- In a run whose documents are validated and whose sessions are told apart by
their keys, every state accounts for its connections. -/
theorem LimiterRun.connections_counted [DecidableEq F] {start : Time} {m : Manager F}
    (run : LimiterRun (fun m event => event.Distinct m) (Manager.new start) m) : m.ConnectionsCounted := by
  suffices accounted : m.Accounted from accounted.connectionsCounted
  induction run with
  | start => exact Manager.accounted_new start
  | step event _ allowed turn ih => exact ih.step allowed turn

section Runs

def aliceDocument : Document ℚ :=
  { inbounds :=
      [{ inboundTag := "in", users := [{ email := "alice", deviceLimit := 1, connGroup := "account" }] }] }

def aliceManager : Manager ℚ :=
  (((Manager.new 0).install aliceDocument none).1.acquire (some ("in", "alice")) 1).1

/-- A session of a configured user is counted. -/
theorem aliceManager_connections_counted : aliceManager.ConnectionsCounted := by
  have installed : LimiterRun (fun m event => event.Distinct m) (Manager.new 0)
      ((Manager.new 0).install aliceDocument none).1 :=
    .step (.install aliceDocument none) .start
      ⟨show aliceDocument.validate = none by decide +kernel, nofun⟩ rfl
  have run : LimiterRun (fun m event => event.Distinct m) (Manager.new 0) aliceManager := by
    refine .step (.acquire (some ("in", "alice")) 1) installed ⟨trivial, ?_⟩ rfl
    intro tag email now _ i state stored
    have empty : ((Manager.new 0).install aliceDocument none).1.states = [] := rfl
    rw [empty] at stored
    cases stored
  exact LimiterRun.connections_counted run

/-- The accounting of every run over validated documents. -/
def ConnectionAccounting (F : Type) [Float64 F] [DecidableEq F] : Prop :=
  ∀ (start : Time) (m : Manager F), LimiterRun (fun _ event => event.Valid) (Manager.new start) m →
    m.ConnectionsCounted

/-- Two users whose keys are one string, and an install of the empty document. -/
def collidedManager : Manager ℚ :=
  ((((Manager.new 0).acquire (some ("a", "b\x00c")) 1).1.acquire (some ("a\x00b", "c")) 2).1.install {} none).1

/-- The second user's flow ends in the group of the first. -/
theorem collidedManager_not_counted : ¬ ConnectionAccounting ℚ := by
  intro counted
  have run : LimiterRun (fun _ event => event.Valid) (Manager.new 0) collidedManager :=
    .step (.install {} none) (.step (.acquire (some ("a\x00b", "c")) 2)
      (.step (.acquire (some ("a", "b\x00c")) 1) .start trivial rfl) trivial rfl)
      (show Document.validate {} = none by decide +kernel) rfl
  have moved : collidedManager.live[1]? = some
      { state := 0, group := "b\x00c", known := false, tag := "a\x00b", email := "c" } := by decide +kernel
  have group := (counted 0 collidedManager run).groups _ (mem_of_getElem? moved)
  have assigned : collidedManager.document.groupOf "a\x00b" "c" = "c" := by decide +kernel
  rw [assigned] at group
  exact absurd group (by decide)

end Runs

end OpenNode.NodeLimits
