import OpenNode.CommandEvolution
import OpenNode.Lib.Prerequisites

namespace OpenNode

open Inventory List Table

namespace Inventory

/-- The command has reached one of the statuses `TERMINAL`. -/
def Finished (s : Inventory) (id : CommandId) : Prop :=
  ∃ a, s.commands[id]? = some a ∧ a.status.terminal = true

/-- The command is not in one of the statuses `TERMINAL`. -/
def Live (s : Inventory) (id : CommandId) : Prop :=
  ∃ a, s.commands[id]? = some a ∧ a.status.terminal = false

/-- What links the commands of the queue while the finished commands of
`stack` still have to be passed on to their dependents. Only the commands
that satisfy `stoppable` are stopped before their prerequisite is finished. -/
structure QueueUpTo (stoppable : CommandId → Prop) (stack : List CommandId) (s : Inventory) : Prop where
  earlier : ∀ {id : CommandId} {a : Command} {p : CommandId},
    s.commands[id]? = some a → a.dependsOn = some p → p < id
  idle : s.Idle
  leased : ∀ {id : CommandId} {a : Command},
    s.commands[id]? = some a → a.status = .leased → 0 < a.attempts
  waits : ∀ {id : CommandId} {a : Command}, s.commands[id]? = some a → a.status = .waiting →
    ∃ p, a.dependsOn = some p ∧ (p ∈ stack ∨ s.Live p)
  ready : ∀ {id : CommandId} {a : Command} {p : CommandId}, s.commands[id]? = some a →
    a.dependsOn = some p → a.status ≠ .waiting → a.status ≠ .skipped → s.statusOf p = some .succeeded
  dropped : ∀ {id : CommandId} {a : Command} {p : CommandId}, s.commands[id]? = some a →
    a.dependsOn = some p → a.status = .skipped → s.Finished p ∨ stoppable id

/-- A command that some change set sent forward. -/
def IsForward (s : Inventory) (id : CommandId) : Prop :=
  ∃ (c : ChangeSetId) (change : ChangeSet), s.changes[c]? = some change ∧
    ∃ step ∈ change.steps, step.forwardCommandId = some id

abbrev QueueInvariant (s : Inventory) : Prop :=
  s.QueueUpTo s.IsForward []

variable {s : Inventory} {id : CommandId}

theorem finished_of_statusOf {status : CommandStatus} (atStatus : s.statusOf id = some status)
    (finished : status.terminal = true) : s.Finished id := by
  obtain ⟨a, atRow, rfl⟩ := statusOf_eq.mp atStatus
  exact ⟨a, atRow, finished⟩

theorem Live.not_finished (live : s.Live id) : ¬ s.Finished id := by
  rintro ⟨b, atRow', done⟩
  obtain ⟨a, atRow, undone⟩ := live
  rw [atRow] at atRow'
  simp [Option.some.inj atRow', done] at undone

theorem Evolves.finished {s t : Inventory} (evolves : s.Evolves t) {id : CommandId}
    (finished : s.Finished id) : t.Finished id := by
  obtain ⟨a, atRow, done⟩ := finished
  exact ⟨a, evolves.terminal atRow done, done⟩

variable {stoppable : CommandId → Prop} {stack : List CommandId} {s : Inventory}

theorem QueueUpTo.of_commands {t : Inventory} (queue : s.QueueUpTo stoppable stack)
    (same : t.commands = s.commands) : t.QueueUpTo stoppable stack := by
  constructor
  · intro id a p; rw [same]; exact queue.earlier
  · intro id a; rw [same]; exact queue.idle id a
  · intro id a; rw [same]; exact queue.leased
  · intro id a; simp only [Live, same]; exact queue.waits
  · intro id a p; simp only [statusOf, same]; exact queue.ready
  · intro id a p; simp only [Finished, same]; exact queue.dropped

theorem QueueUpTo.mono {wider : CommandId → Prop} (queue : s.QueueUpTo stoppable stack)
    (wide : ∀ id, stoppable id → wider id) : s.QueueUpTo wider stack where
  earlier := queue.earlier
  idle := queue.idle
  leased := queue.leased
  waits := queue.waits
  ready := queue.ready
  dropped atRow link skipped := (queue.dropped atRow link skipped).imp (fun h => h) (wide _)

def prerequisite (s : Inventory) (id : CommandId) : Option CommandId :=
  s.commands[id]?.bind Command.dependsOn

variable {a : Command}

theorem prerequisite_eq (atRow : s.commands[id]? = some a) : s.prerequisite id = a.dependsOn := by
  simp [prerequisite, atRow]

theorem QueueUpTo.above_succeeded (queue : s.QueueUpTo stoppable stack) {p : CommandId}
    (atRow : s.commands[id]? = some a) (started : a.status ≠ .waiting) (kept : a.status ≠ .skipped)
    (above : Prerequisites.Above s.prerequisite p id) :
    s.statusOf p = some .succeeded := by
  refine Prerequisites.above_succeeded
    (fun i : CommandId => ∃ b, s.commands[i]? = some b ∧ b.status ≠ .waiting ∧ b.status ≠ .skipped)
    (fun i => s.statusOf i = some .succeeded) ?_ ?_ above ⟨a, atRow, started, kept⟩
  · rintro i p link ⟨b, atI, started, kept⟩
    rw [prerequisite_eq atI] at link
    exact queue.ready atI link started kept
  · intro i succeeded
    obtain ⟨b, atI, status⟩ := statusOf_eq.mp succeeded
    exact ⟨b, atI, by simp [status], by simp [status]⟩

theorem QueueUpTo.waits_live (queue : s.QueueUpTo stoppable []) (atRow : s.commands[id]? = some a)
    (waiting : a.status = .waiting) :
    ∃ p, a.dependsOn = some p ∧ s.Live p := by
  obtain ⟨p, link, member | live⟩ := queue.waits atRow waiting
  · simp at member
  · exact ⟨p, link, live⟩

section Cascade

variable {now : Time} {p : CommandId} {rest : List CommandId}

def waitingCount (s : Inventory) : Nat :=
  s.commands.countP fun command => command.status == .waiting

variable {id : CommandId}

theorem mem_waitingChildren :
    id ∈ s.waitingChildren p ↔ ∃ a, s.commands[id]? = some a ∧ isWaitingChild p a = true := by
  simp only [waitingChildren, mem_filter, mem_range, Option.any_eq_true]
  constructor
  · rintro ⟨_, a, atRow, child⟩
    exact ⟨a, atRow, child⟩
  · rintro ⟨a, atRow, child⟩
    exact ⟨row_lt atRow, a, atRow, child⟩

variable {succeeded : Bool} {a : Command}

theorem advanceChild_status :
    (advanceChild p succeeded now a).status = if succeeded then .pending else .skipped := by
  cases succeeded <;> rfl

@[simp] theorem advanceChild_dependsOn : (advanceChild p succeeded now a).dependsOn = a.dependsOn := by
  cases succeeded <;> rfl

theorem advanceChildren_inv {b : Command} (atRow : (s.advanceChildren p now).commands[id]? = some b) :
    ∃ a, s.commands[id]? = some a ∧
      b = if isWaitingChild p a then advanceChild p (s.statusOf p == some .succeeded) now a else a := by
  simp only [advanceChildren, List.getElem?_map] at atRow
  obtain ⟨a, old, value⟩ := Option.map_eq_some_iff.mp atRow
  exact ⟨a, old, value.symm⟩

theorem waitingCount_advanceChildren (s : Inventory) (p : CommandId) (now : Time) :
    (s.advanceChildren p now).waitingCount + (s.waitingChildren p).length = s.waitingCount := by
  rw [waitingChildren, length_positions, waitingCount, waitingCount]
  generalize settled : (s.statusOf p == some .succeeded) = succeeded
  simp only [advanceChildren, settled, countP_map]
  induction s.commands with
  | nil => rfl
  | cons a rows ih =>
    simp only [countP_cons, Function.comp_apply] at ih ⊢
    by_cases child : isWaitingChild p a = true
    · have waiting := (isWaitingChild_iff.mp child).2
      cases succeeded <;> simp [child, advanceChild_status, waiting] at ih ⊢ <;> omega
    · simp [child] at ih ⊢
      omega

theorem QueueUpTo.advanceChildren (queue : s.QueueUpTo stoppable (p :: rest)) (ended : s.Finished p) :
    (s.advanceChildren p now).QueueUpTo stoppable
      (if s.statusOf p = some .succeeded then rest else (s.waitingChildren p).reverse ++ rest) := by
  have quiet := advanceChildren_quiet queue.idle p now
  constructor
  · intro id b q atRow link
    obtain ⟨a, old, rfl⟩ := advanceChildren_inv atRow
    refine queue.earlier old ?_
    split at link <;> simpa using link
  · exact quiet.idle queue.idle
  · intro id b atRow leased
    obtain ⟨a, old, rfl⟩ := advanceChildren_inv atRow
    split at leased
    · rw [advanceChild_status] at leased
      split at leased <;> cases leased
    · rename_i child
      rw [if_neg child]
      exact queue.leased old leased
  · intro id b atRow waiting
    obtain ⟨a, old, rfl⟩ := advanceChildren_inv atRow
    split at waiting
    · rw [advanceChild_status] at waiting
      split at waiting <;> cases waiting
    · rename_i other
      rw [if_neg other]
      obtain ⟨q, link, debt⟩ := queue.waits old waiting
      refine ⟨q, link, ?_⟩
      have distinct : q ≠ p := by
        rintro rfl
        exact other (isWaitingChild_iff.mpr ⟨link, waiting⟩)
      rcases debt with member | ⟨c, atQ, undone⟩
      · left
        have member : q ∈ rest := by simpa [distinct] using member
        split <;> simp [member]
      · by_cases child : isWaitingChild p c = true
        · by_cases succeeded : s.statusOf p = some .succeeded
          · right
            refine ⟨_, advanceChildren_row atQ, ?_⟩
            simp [child, advanceChild_status, succeeded, CommandStatus.terminal]
          · left
            rw [if_neg succeeded]
            simp [mem_waitingChildren.mpr ⟨c, atQ, child⟩]
        · right
          refine ⟨_, advanceChildren_row atQ, ?_⟩
          simpa [child] using undone
  · intro id b q atRow link started kept
    obtain ⟨a, old, rfl⟩ := advanceChildren_inv atRow
    refine quiet.evolves.statusOf ?_ rfl
    by_cases child : isWaitingChild p a = true
    · simp only [if_pos child, advanceChild_dependsOn, (isWaitingChild_iff.mp child).1,
        advanceChild_status] at link kept
      cases Option.some.inj link
      by_contra failed
      simp [failed] at kept
    · simp only [if_neg child] at link started kept
      exact queue.ready old link started kept
  · intro id b q atRow link skipped
    obtain ⟨a, old, rfl⟩ := advanceChildren_inv atRow
    by_cases child : isWaitingChild p a = true
    · simp only [if_pos child, advanceChild_dependsOn, (isWaitingChild_iff.mp child).1] at link
      cases Option.some.inj link
      exact .inl (quiet.evolves.finished ended)
    · simp only [if_neg child] at link skipped
      exact (queue.dropped old link skipped).imp quiet.evolves.finished (fun h => h)

theorem QueueUpTo.advanceLoop {fuel : Nat} (queue : s.QueueUpTo stoppable stack)
    (ended : ∀ p ∈ stack, s.Finished p) (enough : s.waitingCount + stack.length ≤ fuel) :
    (advanceLoop now fuel stack s).QueueUpTo stoppable [] := by
  induction fuel generalizing stack s with
  | zero =>
    have empty : stack = [] := List.length_eq_zero_iff.mp (by omega)
    subst empty
    exact queue
  | succ fuel ih =>
    cases stack with
    | nil => exact queue
    | cons p rest =>
      have last := ended p (by simp)
      have evolves := (advanceChildren_quiet queue.idle p now).evolves
      have count := s.waitingCount_advanceChildren p now
      simp only [length_cons] at enough
      refine ih (queue.advanceChildren last) ?_ ?_
      · intro q member
        split at member
        · exact evolves.finished (ended q (by simp [member]))
        · rename_i failed
          rcases List.mem_append.mp member with fresh | old
          · obtain ⟨a, atRow, child⟩ := mem_waitingChildren.mp (List.mem_reverse.mp fresh)
            refine ⟨_, advanceChildren_row atRow, ?_⟩
            simp [child, advanceChild_status, failed, CommandStatus.terminal]
          · exact evolves.finished (ended q (by simp [old]))
      · split
        · omega
        · simp only [length_append, length_reverse]
          omega

end Cascade

section Finish

variable {k : CommandId} {a : Command} {now : Time} {f : Command → Command}

variable {b : Command}

theorem modifyCommand_row {id : CommandId} (atRow : s.commands[k]? = some a)
    (atB : (s.modifyCommand k f).commands[id]? = some b) :
    (id = k ∧ b = f a) ∨ (k ≠ id ∧ s.commands[id]? = some b) := by
  by_cases same : k = id
  · subst same
    exact .inl ⟨rfl, Option.some.inj (atB.symm.trans (modify_self atRow))⟩
  · exact .inr ⟨same, (modify_other same).symm.trans atB⟩

variable {p : CommandId}

theorem modifyCommand_finished_row (atRow : s.commands[k]? = some a) (live : a.status.terminal = false)
    (atP : s.commands[p]? = some b) (done : b.status.terminal = true) :
    (s.modifyCommand k f).commands[p]? = some b := by
  have distinct : k ≠ p := by
    rintro rfl
    rw [Option.some.inj (atRow.symm.trans atP)] at live
    simp [done] at live
  exact (modify_other distinct).trans atP

theorem finished_modifyCommand (atRow : s.commands[k]? = some a) (live : a.status.terminal = false)
    (finished : s.Finished p) :
    (s.modifyCommand k f).Finished p := by
  obtain ⟨b, atP, done⟩ := finished
  exact ⟨b, modifyCommand_finished_row atRow live atP done, done⟩

theorem succeeded_modifyCommand (atRow : s.commands[k]? = some a) (live : a.status.terminal = false)
    (succeeded : s.statusOf p = some .succeeded) :
    (s.modifyCommand k f).statusOf p = some .succeeded := by
  obtain ⟨b, atP, status⟩ := statusOf_eq.mp succeeded
  exact statusOf_eq.mpr ⟨b, modifyCommand_finished_row atRow live atP (by simp [status, CommandStatus.terminal]),
    status⟩

theorem QueueUpTo.modify {stack : List CommandId} (queue : s.QueueUpTo stoppable [])
    (atRow : s.commands[k]? = some a) (live : a.status.terminal = false) (link : (f a).dependsOn = a.dependsOn)
    (awake : (f a).status ≠ .waiting) (numbered : (f a).status = .leased → 0 < (f a).attempts)
    (ran : a.status ≠ .waiting ∨ (f a).status = .skipped ∧ stoppable k)
    (passed : (f a).status.terminal = true → k ∈ stack) : (s.modifyCommand k f).QueueUpTo stoppable stack := by
  have row : ∀ {id b}, (s.modifyCommand k f).commands[id]? = some b →
      (id = k ∧ b = f a) ∨ (k ≠ id ∧ s.commands[id]? = some b) := modifyCommand_row atRow
  have finished : ∀ {p}, s.Finished p → (s.modifyCommand k f).Finished p :=
    finished_modifyCommand atRow live
  have succeeded : ∀ {p}, s.statusOf p = some .succeeded →
      (s.modifyCommand k f).statusOf p = some .succeeded := succeeded_modifyCommand atRow live
  have kept : a.status ≠ .skipped := by
    intro dropped
    simp [dropped, CommandStatus.terminal] at live
  constructor
  · intro id b p atB linked
    rcases row atB with ⟨rfl, rfl⟩ | ⟨_, old⟩
    · exact queue.earlier atRow (link ▸ linked)
    · exact queue.earlier old linked
  · intro id b atB waiting
    rcases row atB with ⟨rfl, rfl⟩ | ⟨_, old⟩
    · exact absurd waiting awake
    · exact queue.idle id b old waiting
  · intro id b atB leased
    rcases row atB with ⟨rfl, rfl⟩ | ⟨_, old⟩
    · exact numbered leased
    · exact queue.leased old leased
  · intro id b atB waiting
    rcases row atB with ⟨rfl, rfl⟩ | ⟨_, old⟩
    · exact absurd waiting awake
    · obtain ⟨p, linked, c, atP, undone⟩ := queue.waits_live old waiting
      refine ⟨p, linked, ?_⟩
      by_cases same : k = p
      · subst same
        cases done : (f a).status.terminal with
        | true => exact .inl (passed done)
        | false => exact .inr ⟨f a, modify_self atRow, done⟩
      · exact .inr ⟨c, (modify_other same).trans atP, undone⟩
  · intro id b p atB linked started unskipped
    rcases row atB with ⟨rfl, rfl⟩ | ⟨_, old⟩
    · rcases ran with ran | ⟨stopped, _⟩
      · exact succeeded (queue.ready atRow (link ▸ linked) ran kept)
      · exact absurd stopped unskipped
    · exact succeeded (queue.ready old linked started unskipped)
  · intro id b p atB linked skipped
    rcases row atB with ⟨rfl, rfl⟩ | ⟨_, old⟩
    · rcases ran with ran | ⟨_, stopped⟩
      · exact .inl (finished (finished_of_statusOf (queue.ready atRow (link ▸ linked) ran kept) rfl))
      · exact .inr stopped
    · exact (queue.dropped old linked skipped).imp finished (fun h => h)

theorem waitingCount_le_length (s : Inventory) : s.waitingCount ≤ s.commands.length :=
  countP_le_length

theorem QueueUpTo.finishCommand (queue : s.QueueUpTo stoppable [])
    (atRow : s.commands[k]? = some a) (live : a.status.terminal = false)
    (link : (f a).dependsOn = a.dependsOn) (ended : (f a).status.terminal = true)
    (ran : a.status ≠ .waiting ∨ (f a).status = .skipped ∧ stoppable k) :
    (s.finishCommand k now f).QueueUpTo stoppable [] := by
  have final : ∀ status : CommandStatus, status.terminal = false → (f a).status ≠ status :=
    fun status running same => by
    rw [same, running] at ended
    cases ended
  have settled : (s.modifyCommand k f).QueueUpTo stoppable [k] := queue.modify atRow live link (final _ rfl)
    (fun leased => absurd leased (final _ rfl)) ran fun _ => mem_singleton_self k
  refine settled.advanceLoop ?_ ?_
  · intro p member
    obtain rfl : p = k := by simpa using member
    exact ⟨f a, modify_self atRow, ended⟩
  · have count := waitingCount_le_length (s.modifyCommand k f)
    simpa using count

theorem QueueUpTo.modify_running (queue : s.QueueUpTo stoppable [])
    (atRow : s.commands[k]? = some a) (running : a.status = .pending ∨ a.status = .leased)
    (link : (f a).dependsOn = a.dependsOn)
    (runs : (f a).status = .pending ∨ (f a).status = .leased ∧ 0 < (f a).attempts) :
    (s.modifyCommand k f).QueueUpTo stoppable [] := by
  refine queue.modify atRow ?_ link ?_ (fun leased => ?_) (.inl ?_) fun ended => ?_
  · rcases running with h | h <;> simp [h, CommandStatus.terminal]
  · rcases runs with h | ⟨h, _⟩ <;> simp [h]
  · rcases runs with h | ⟨_, numbered⟩
    · simp [h] at leased
    · exact numbered
  · rcases running with h | h <;> simp [h]
  · rcases runs with h | ⟨h, _⟩ <;> simp [h, CommandStatus.terminal] at ended

end Finish

theorem QueueUpTo.newCommandModel (queue : s.QueueUpTo stoppable []) (server : ServerId)
    (payload : CommandPayload) (now : Time) {dependsOn : Option CommandId} {skipped : Option String}
    (behind : ∀ p, dependsOn = some p →
      if skipped.isSome then s.Finished p else s.statusOf p = some .succeeded ∨ s.Live p) :
    (s.newCommandModel server payload now dependsOn skipped).QueueUpTo stoppable [] := by
  have quiet := s.newCommandModel_quiet server payload now dependsOn skipped
  have present : ∀ p, dependsOn = some p → p < s.commands.length := by
    intro p link
    have prior := behind p link
    split at prior
    · obtain ⟨_, atP, _⟩ := prior
      exact row_lt atP
    · rcases prior with status | ⟨_, atP, _⟩
      · obtain ⟨_, atP, _⟩ := statusOf_eq.mp status
        exact row_lt atP
      · exact row_lt atP
  have unchanged : ∀ {id a}, s.commands[id]? = some a →
      (s.newCommandModel server payload now dependsOn skipped).commands[id]? = some a :=
    fun atRow => append_old atRow
  constructor
  · intro id a p atRow link
    rcases append_row atRow with old | ⟨rfl, rfl⟩
    · exact queue.earlier old link
    · exact present p link
  · exact quiet.idle queue.idle
  · intro id a atRow leased
    rcases append_row atRow with old | ⟨rfl, rfl⟩
    · exact queue.leased old leased
    · simp only [initialStatus] at leased
      grind
  · intro id a atRow waiting
    rcases append_row atRow with old | ⟨rfl, rfl⟩
    · obtain ⟨p, link, c, atP, live⟩ := queue.waits_live old waiting
      exact ⟨p, link, .inr ⟨c, unchanged atP, live⟩⟩
    · cases skip : skipped.isSome with
      | true => simp [skip] at waiting
      | false =>
        cases dependsOn with
        | none => simp [skip, initialStatus] at waiting
        | some p =>
          refine ⟨p, rfl, .inr ?_⟩
          have prior := behind p rfl
          simp only [skip, Bool.false_eq_true, if_false] at prior waiting
          rcases prior with status | ⟨c, atP, live⟩
          · simp [initialStatus, status] at waiting
          · exact ⟨c, unchanged atP, live⟩
  · intro id a p atRow link started kept
    rcases append_row atRow with old | ⟨rfl, rfl⟩
    · exact quiet.evolves.statusOf (queue.ready old link started kept) rfl
    · simp only at link
      subst link
      cases skip : skipped.isSome with
      | true => simp [skip] at kept
      | false =>
        refine quiet.evolves.statusOf ?_ rfl
        by_contra failed
        simp [skip, initialStatus, failed] at started
  · intro id a p atRow link dropped
    rcases append_row atRow with old | ⟨rfl, rfl⟩
    · exact (queue.dropped old link dropped).imp quiet.evolves.finished (fun h => h)
    · cases skip : skipped.isSome with
      | true =>
        have prior := behind p link
        simp only [skip, if_true] at prior
        exact .inl (quiet.evolves.finished prior)
      | false =>
        simp only [skip, initialStatus] at dropped
        grind

end Inventory

end OpenNode
