import OpenNode.ChangeInvariant
import OpenNode.Lib.Loops

namespace OpenNode

open Inventory List

def ChangeStep.compensators (step : ChangeStep) : List CommandId :=
  step.rollbackCommandId.toList ++ step.rollbackHistoryIds

/-- What no transaction takes back from a step. -/
structure ChangeStep.Grows (x y : ChangeStep) : Prop where
  serverId : y.serverId = x.serverId
  forward : y.forward = x.forward
  rollback : y.rollback = x.rollback
  forwardCommandId : ∀ id, x.forwardCommandId = some id → y.forwardCommandId = some id
  compensators : ∀ id ∈ x.compensators, id ∈ y.compensators

theorem ChangeStep.Grows.refl (x : ChangeStep) : x.Grows x :=
  ⟨rfl, rfl, rfl, fun _ h => h, fun _ h => h⟩

theorem ChangeStep.Grows.trans {x y z : ChangeStep} (first : x.Grows y) (second : y.Grows z) : x.Grows z where
  serverId := second.serverId.trans first.serverId
  forward := second.forward.trans first.forward
  rollback := second.rollback.trans first.rollback
  forwardCommandId id sent := second.forwardCommandId id (first.forwardCommandId id sent)
  compensators id member := second.compensators id (first.compensators id member)

namespace Inventory

/-- The change set refers to the command from one of its steps, as a forward
command, as a compensator or as one that a retry replaced. -/
def Owns (s : Inventory) (c : ChangeSetId) (id : CommandId) : Prop :=
  ∃ change, s.changes[c]? = some change ∧ id ∈ commandIds change.steps

/-- Every command belongs to at most one change set and to at most one place
of it, and prerequisites do not cross change sets. -/
structure Ownership (s : Inventory) : Prop where
  distinct : ∀ {c : ChangeSetId} {change : ChangeSet}, s.changes[c]? = some change →
    (commandIds change.steps).Nodup
  exclusive : ∀ {c d : ChangeSetId} {id : CommandId}, s.Owns c id → s.Owns d id → c = d
  placed : ∀ {c : ChangeSetId} {id : CommandId}, s.Owns c id → id < s.commands.length
  linked : ∀ {id : CommandId} {a : Command} {p : CommandId}, s.commands[id]? = some a →
    a.dependsOn = some p →
      (∃ c, s.Owns c id ∧ s.Owns c p) ∨
      ((∀ c, ¬ s.Owns c id ∧ ¬ s.Owns c p) ∧ ∃ b, s.commands[p]? = some b ∧ b.serverId = a.serverId)
  sent : ∀ {c : ChangeSetId} {id : CommandId} {a : Command}, s.Owns c id → s.commands[id]? = some a →
    a.status = .succeeded ∨ a.status = .failed → 0 < a.attempts
  access : ∀ row ∈ s.access, ∀ id, row.commandId = some id →
    ∃ a, s.commands[id]? = some a ∧ a.dependsOn = none

/-- A change set locks the servers of its steps while its status holds them. -/
structure LockInvariant (s : Inventory) : Prop where
  single : (s.locks.map ServerLock.serverId).Nodup
  held : ∀ {server : ServerId} {c : ChangeSetId}, ⟨server, c⟩ ∈ s.locks ↔
    ∃ change, s.changes[c]? = some change ∧ change.status.holds = true ∧ server ∈ targets change.steps

/-- What the queue, the change sets' references and the locks satisfy
whatever the statuses of the change sets are. -/
structure Framework (s : Inventory) : Prop where
  queue : s.QueueInvariant
  ownership : s.Ownership
  locks : s.LockInvariant

/-- The invariant of every reachable state. -/
structure SystemInvariant (s : Inventory) : Prop where
  framework : s.Framework
  changes : ∀ {c : ChangeSetId} {change : ChangeSet}, s.changes[c]? = some change →
    s.ChangeInvariant change

variable {s t : Inventory}

variable {steps : List ChangeStep} {id : CommandId}

theorem commandIds_mem : id ∈ commandIds steps ↔ ∃ step ∈ steps, step.forwardCommandId = some id ∨
      step.rollbackCommandId = some id ∨ id ∈ step.rollbackHistoryIds := by
  simp [commandIds, ChangeStep.commandIds]

theorem forward_ne_rollback (distinct : (commandIds steps).Nodup) {x y : ChangeStep} (atX : x ∈ steps)
    (atY : y ∈ steps) (forward : x.forwardCommandId = some id) : y.rollbackCommandId ≠ some id := by
  intro rollback
  obtain ⟨within, across⟩ := List.nodup_flatMap.mp distinct
  have memX : id ∈ x.commandIds := by simp [ChangeStep.commandIds, forward]
  have memY : id ∈ y.commandIds := by simp [ChangeStep.commandIds, rollback]
  by_cases same : x = y
  · subst same
    have nodup := within x atX
    simp [ChangeStep.commandIds, forward, rollback] at nodup
  · have symmetric : Std.Symm (Function.onFun List.Disjoint ChangeStep.commandIds) :=
      ⟨fun _ _ disjoint => disjoint.symm⟩
    exact across.forall atX atY same memX memY

theorem Ownership.rollback_not_forward (ownership : s.Ownership) {c : ChangeSetId} {change : ChangeSet}
    (atChange : s.changes[c]? = some change) {step : ChangeStep} (member : step ∈ change.steps)
    (rollback : step.rollbackCommandId = some id) : ¬ s.IsForward id := by
  rintro ⟨d, other, atOther, x, atX, forward⟩
  have mine : s.Owns c id := ⟨change, atChange, commandIds_mem.mpr ⟨step, member, .inr (.inl rollback)⟩⟩
  have theirs : s.Owns d id := ⟨other, atOther, commandIds_mem.mpr ⟨x, atX, .inl forward⟩⟩
  have same := ownership.exclusive mine theirs
  subst same
  cases atChange.symm.trans atOther
  exact forward_ne_rollback (ownership.distinct atChange) atX member forward rollback

section Commands

theorem Ownership.of_evolves (ownership : s.Ownership) (evolves : s.Evolves t) (changes : t.changes = s.changes)
    (access : ∀ row ∈ t.access, ∀ id, row.commandId = some id → ∃ a, t.commands[id]? = some a ∧ a.dependsOn = none)
    (fresh : ∀ {id a p}, s.commands.length ≤ id → t.commands[id]? = some a → a.dependsOn = some p →
      (∀ c, ¬ s.Owns c p) ∧ ∃ b, t.commands[p]? = some b ∧ b.serverId = a.serverId)
    (sent : ∀ {c id a}, s.Owns c id → t.commands[id]? = some a →
      a.status = .succeeded ∨ a.status = .failed → 0 < a.attempts) : t.Ownership := by
  have owns : ∀ {c id}, t.Owns c id ↔ s.Owns c id := by
    intro c id
    simp only [Owns, changes]
  constructor
  · intro c change atChange
    exact ownership.distinct (changes ▸ atChange)
  · intro c d id mine theirs
    exact ownership.exclusive (owns.mp mine) (owns.mp theirs)
  · intro c id mine
    exact Nat.lt_of_lt_of_le (ownership.placed (owns.mp mine)) evolves.length_le
  · intro id b p atRow link
    simp only [owns]
    by_cases old : id < s.commands.length
    · obtain ⟨b', atNew, change⟩ := evolves _ _ (List.getElem?_eq_getElem old)
      cases atNew.symm.trans atRow
      rcases ownership.linked (List.getElem?_eq_getElem old) (change.dependsOn ▸ link) with
        family | ⟨free, c, atP, server⟩
      · exact .inl family
      · obtain ⟨d, atP', moved⟩ := evolves p c atP
        exact .inr ⟨free, d, atP', by rw [moved.serverId, server, change.serverId]⟩
    · obtain ⟨free, row⟩ := fresh (Nat.le_of_not_lt old) atRow link
      exact .inr ⟨fun c => ⟨fun mine => old (ownership.placed mine), free c⟩, row⟩
  · intro c id a mine atRow outcome
    exact sent (owns.mp mine) atRow outcome
  · exact access

theorem LockInvariant.of_same (locks : s.LockInvariant) (changes : t.changes = s.changes)
    (same : t.locks = s.locks) : t.LockInvariant where
  single := by rw [same]; exact locks.single
  held := by
    intro server c
    rw [same, changes]
    exact locks.held

theorem isForward_congr (changes : t.changes = s.changes) : t.IsForward = s.IsForward := by
  funext id
  simp only [IsForward, changes]

theorem Quiet.sent (quiet : s.Quiet t) (ownership : s.Ownership) {c : ChangeSetId} {id : CommandId}
    {b : Command} (mine : s.Owns c id) (atRow : t.commands[id]? = some b)
    (outcome : b.status = .succeeded ∨ b.status = .failed) : 0 < b.attempts := by
  have old := ownership.placed mine
  obtain ⟨b', atNew, change⟩ := quiet.old _ _ (List.getElem?_eq_getElem old)
  cases atNew.symm.trans atRow
  rcases change with same | moves
  · exact same ▸ ownership.sent mine (List.getElem?_eq_getElem old) (same ▸ outcome)
  · rcases moves.target with h | ⟨_, h⟩ <;> simp [h] at outcome

end Commands

section Update

variable {c : ChangeSetId} {a b : ChangeSet}

theorem isForward_set (atChange : s.changes[c]? = some a) (changes : t.changes = s.changes.set c b)
    (steps : List.Forall₂ ChangeStep.Grows a.steps b.steps) {id : CommandId}
    (forward : s.IsForward id) : t.IsForward id := by
  obtain ⟨d, change, atD, step, member, sent⟩ := forward
  by_cases same : c = d
  · subst same
    cases atChange.symm.trans atD
    obtain ⟨x, atX, grows⟩ := Table.forall₂_mem steps member
    refine ⟨c, b, ?_, x, atX, grows.forwardCommandId id sent⟩
    rw [changes, List.getElem?_set_self (Table.row_lt atChange)]
  · refine ⟨d, change, ?_, step, member, sent⟩
    rw [changes, List.getElem?_set_ne same, atD]

/-- The change set `c` becomes `b`, which refers to everything that `a`
referred to and to every command that `t` adds. -/
structure Rewrites (s t : Inventory) (c : ChangeSetId) (a b : ChangeSet) : Prop where
  atChange : s.changes[c]? = some a
  changes : t.changes = s.changes.set c b
  access : t.access = s.access
  quiet : s.Quiet t
  queue : t.QueueInvariant
  ids : (commandIds b.steps).Perm
    (commandIds a.steps ++ List.range' s.commands.length (t.commands.length - s.commands.length))
  steps : List.Forall₂ ChangeStep.Grows a.steps b.steps
  linked : ∀ {id : CommandId} {x : Command} {p : CommandId}, s.commands.length ≤ id →
    t.commands[id]? = some x → x.dependsOn = some p → p ∈ commandIds b.steps

namespace Rewrites

theorem self (rewrites : s.Rewrites t c a b) : t.changes[c]? = some b := by
  have bound := Table.row_lt rewrites.atChange
  simp [rewrites.changes, bound]

variable {d : ChangeSetId}

theorem other (rewrites : s.Rewrites t c a b) (distinct : d ≠ c) : t.changes[d]? = s.changes[d]? := by
  rw [rewrites.changes, List.getElem?_set_ne (Ne.symm distinct)]

variable {id : CommandId}

section

variable (rewrites : s.Rewrites t c a b)
include rewrites

theorem member : id ∈ commandIds b.steps ↔
      id ∈ commandIds a.steps ∨ s.commands.length ≤ id ∧ id < t.commands.length := by
  have grown := rewrites.quiet.evolves.length_le
  rw [rewrites.ids.mem_iff, mem_append, mem_range'_1]
  have range : s.commands.length + (t.commands.length - s.commands.length) = t.commands.length := by
    omega
  rw [range]

theorem owns_self : t.Owns c id ↔ s.Owns c id ∨ s.commands.length ≤ id ∧ id < t.commands.length := by
  simp only [Owns, rewrites.self, rewrites.atChange, Option.some.injEq, exists_eq_left']
  exact rewrites.member

theorem owns_other (distinct : d ≠ c) : t.Owns d id ↔ s.Owns d id := by
  simp only [Owns, rewrites.other distinct]

theorem owns_old (old : id < s.commands.length) : t.Owns d id ↔ s.Owns d id := by
  by_cases same : d = c
  · subst same
    rw [rewrites.owns_self]
    constructor
    · rintro (mine | ⟨fresh, _⟩)
      · exact mine
      · exact absurd old (Nat.not_lt.mpr fresh)
    · exact .inl
  · exact rewrites.owns_other same

theorem ownership (ownership : s.Ownership) : t.Ownership := by
  have evolves := rewrites.quiet.evolves
  have mineOld : s.Owns c = fun id => id ∈ commandIds a.steps := by
    funext id
    simp [Owns, rewrites.atChange]
  constructor
  · intro d change atD
    by_cases same : d = c
    · subst same
      cases rewrites.self.symm.trans atD
      refine rewrites.ids.nodup_iff.mpr (List.Nodup.append (ownership.distinct rewrites.atChange)
        nodup_range' ?_)
      intro id old fresh
      have bound : id < s.commands.length := ownership.placed (c := d) (by rw [mineOld]; exact old)
      exact absurd bound (Nat.not_lt.mpr (mem_range'_1.mp fresh).1)
    · exact ownership.distinct ((rewrites.other same).symm.trans atD)
  · intro d e id first second
    by_cases old : id < s.commands.length
    · exact ownership.exclusive ((rewrites.owns_old old).mp first) ((rewrites.owns_old old).mp second)
    · have mine : ∀ {d}, t.Owns d id → d = c := by
        intro d owns
        by_contra distinct
        exact old (ownership.placed ((rewrites.owns_other distinct).mp owns))
      rw [mine first, mine second]
  · intro d id owns
    by_cases old : id < s.commands.length
    · exact Nat.lt_of_lt_of_le old evolves.length_le
    · by_cases same : d = c
      · subst same
        rcases rewrites.owns_self.mp owns with mine | ⟨_, bound⟩
        · exact absurd (ownership.placed mine) old
        · exact bound
      · exact absurd (ownership.placed ((rewrites.owns_other same).mp owns)) old
  · intro id x p atRow link
    by_cases old : id < s.commands.length
    · obtain ⟨x', atNew, change⟩ := evolves _ _ (List.getElem?_eq_getElem old)
      cases atNew.symm.trans atRow
      rcases ownership.linked (List.getElem?_eq_getElem old) (change.dependsOn ▸ link) with
        ⟨d, mine, above⟩ | ⟨free, y, atP, server⟩
      · exact .inl ⟨d, (rewrites.owns_old old).mpr mine, (rewrites.owns_old (ownership.placed above)).mpr above⟩
      · obtain ⟨z, atP', moved⟩ := evolves p y atP
        refine .inr ⟨fun d => ?_, z, atP', by rw [moved.serverId, server, change.serverId]⟩
        rw [rewrites.owns_old old, rewrites.owns_old (Table.row_lt atP)]
        exact free d
    · refine .inl ⟨c, rewrites.owns_self.mpr (.inr ⟨Nat.le_of_not_lt old, Table.row_lt atRow⟩), ?_⟩
      exact ⟨b, rewrites.self, rewrites.linked (Nat.le_of_not_lt old) atRow link⟩
  · intro d id x owns atRow outcome
    by_cases old : id < s.commands.length
    · exact rewrites.quiet.sent ownership ((rewrites.owns_old old).mp owns) atRow outcome
    · have untouched := rewrites.quiet.fresh id x (Nat.le_of_not_lt old) atRow
      rcases outcome with h | h <;> simp [Command.attempted, h] at untouched
  · intro row member id link
    obtain ⟨x, atRow, first⟩ := ownership.access row (rewrites.access ▸ member) id link
    obtain ⟨y, atNew, change⟩ := evolves id x atRow
    exact ⟨y, atNew, change.dependsOn.trans first⟩

theorem framework (ownership : s.Ownership) (locks : t.LockInvariant) : t.Framework where
  queue := rewrites.queue
  ownership := rewrites.ownership ownership
  locks := locks

theorem system (ownership : s.Ownership) (locks : t.LockInvariant)
    (rest : ∀ {d change}, d ≠ c → s.changes[d]? = some change → s.ChangeInvariant change)
    (stands : t.ChangeInvariant b) : t.SystemInvariant where
  framework := rewrites.framework ownership locks
  changes := by
    intro d change atD
    by_cases same : d = c
    · subst same
      cases rewrites.self.symm.trans atD
      exact stands
    · exact (rest same ((rewrites.other same).symm.trans atD)).evolves rewrites.quiet.evolves

end

end Rewrites

theorem targets_grows {steps steps' : List ChangeStep}
    (grows : List.Forall₂ ChangeStep.Grows steps steps') : targets steps' = targets steps := by
  induction grows with
  | nil => rfl
  | cons head _ ih => simp only [targets, map_cons, head.serverId] at ih ⊢; rw [ih]

theorem Rewrites.trans {u : Inventory} {d : ChangeSet} (first : s.Rewrites t c a b)
    (second : t.Rewrites u c b d) : s.Rewrites u c a d where
  atChange := first.atChange
  changes := by rw [second.changes, first.changes, set_set]
  access := second.access.trans first.access
  quiet := first.quiet.trans second.quiet
  queue := second.queue
  steps := Loops.forall₂_trans (fun _ _ _ before after => before.trans after) first.steps second.steps
  ids := by
    have early := first.quiet.evolves.length_le
    have late := second.quiet.evolves.length_le
    rw [Table.range'_split early late, ← append_assoc]
    exact second.ids.trans (first.ids.append_right _)
  linked := by
    intro id x p bound atRow link
    by_cases old : id < t.commands.length
    · obtain ⟨y, atNew, change⟩ := second.quiet.evolves _ _ (List.getElem?_eq_getElem old)
      cases atNew.symm.trans atRow
      have member := first.linked bound (List.getElem?_eq_getElem old) (change.dependsOn ▸ link)
      exact second.member.mpr (.inl member)
    · exact second.linked (Nat.le_of_not_lt old) atRow link

theorem Rewrites.columns (atChange : s.changes[c]? = some a) (queue : s.QueueInvariant)
    (steps : b.steps = a.steps) (changes : t.changes = s.changes.set c b)
    (commands : t.commands = s.commands) (access : t.access = s.access) : s.Rewrites t c a b where
  atChange := atChange
  changes := changes
  access := access
  quiet := .of_commands commands
  queue := by
    refine (queue.of_commands commands).mono fun id => isForward_set atChange changes ?_
    rw [steps]
    exact List.forall₂_same.mpr fun x _ => .refl x
  steps := by
    rw [steps]
    exact List.forall₂_same.mpr fun x _ => .refl x
  ids := by simp [steps, commands]
  linked bound atRow := by
    rw [commands] at atRow
    exact absurd (Table.row_lt atRow) (Nat.not_lt.mpr bound)

theorem LockInvariant.same (locks : s.LockInvariant) (atChange : s.changes[c]? = some a)
    (changes : t.changes = s.changes.set c b) (same : t.locks = s.locks)
    (servers : targets b.steps = targets a.steps) (holds : b.status.holds = a.status.holds) :
    t.LockInvariant where
  single := by rw [same]; exact locks.single
  held := by
    intro server d
    rw [same, locks.held, changes]
    by_cases mine : c = d
    · subst mine
      have bound := Table.row_lt atChange
      rw [List.getElem?_set_self bound, atChange]
      simp [servers, holds]
    · rw [List.getElem?_set_ne mine]

theorem LockInvariant.release (locks : s.LockInvariant) (changes : t.changes = s.changes.set c b)
    (dropped : t.locks = s.locks.filter fun lock => lock.changeSetId != c)
    (holds : b.status.holds = false) : t.LockInvariant where
  single := by
    rw [dropped]
    exact locks.single.sublist (List.filter_sublist.map _)
  held := by
    intro server d
    rw [dropped, mem_filter, locks.held, changes]
    by_cases mine : c = d
    · subst mine
      have none : ∀ change, (s.changes.set c b)[c]? = some change → change = b := by
        intro change atChange
        rw [List.getElem?_set_self'] at atChange
        obtain ⟨_, _, value⟩ := Option.map_eq_some_iff.mp atChange
        exact value.symm
      constructor
      · rintro ⟨_, other⟩
        simp at other
      · rintro ⟨change, atChange, held, _⟩
        rw [none change atChange, holds] at held
        cases held
    · rw [List.getElem?_set_ne mine]
      simp [Ne.symm mine]

end Update

end Inventory

end OpenNode
