import OpenNode.Operations
import OpenNode.Lib.Table

namespace OpenNode

open Inventory

/-- What no transaction takes back: the addressee and the prerequisite of a
command stay, attempts only grow, and a finished command keeps its whole row. -/
structure Command.Evolves (a b : Command) : Prop where
  serverId : b.serverId = a.serverId
  payload : b.payload = a.payload
  dependsOn : b.dependsOn = a.dependsOn
  attempts : a.attempts ≤ b.attempts
  terminal : a.status.terminal = true → b = a
  waiting : b.status = .waiting → a.status = .waiting

/-- A command that no Agent ever received is readied or stopped. -/
structure Command.Moves (a b : Command) : Prop where
  serverId : b.serverId = a.serverId
  payload : b.payload = a.payload
  dependsOn : b.dependsOn = a.dependsOn
  attempts : a.attempts = 0
  attempts' : b.attempts = 0
  source : a.status = .waiting ∨ a.status = .pending
  target : b.status = .skipped ∨ a.status = .waiting ∧ b.status = .pending

/-- The effect on other commands of every transaction: whatever an Agent may
have received is left alone. -/
def Command.Quiet (a b : Command) : Prop :=
  b = a ∨ a.Moves b

theorem Command.Evolves.refl (a : Command) : a.Evolves a :=
  ⟨rfl, rfl, rfl, le_rfl, fun _ => rfl, id⟩

variable {a b : Command}

theorem Command.Evolves.trans {c : Command} (first : a.Evolves b) (second : b.Evolves c) : a.Evolves c where
  serverId := second.serverId.trans first.serverId
  payload := second.payload.trans first.payload
  dependsOn := second.dependsOn.trans first.dependsOn
  attempts := first.attempts.trans second.attempts
  terminal finished := by
    have same := first.terminal finished
    subst same
    exact second.terminal finished
  waiting idle := first.waiting (second.waiting idle)

theorem Command.Evolves.attempted (change : a.Evolves b) (tried : a.attempted = true) : b.attempted = true := by
  simp only [Command.attempted, Bool.or_eq_true, decide_eq_true_eq, beq_iff_eq] at tried ⊢
  rcases tried with (sent | succeeded) | failed
  · exact .inl (.inl (Nat.lt_of_lt_of_le sent change.attempts))
  · rw [change.terminal (by simp [succeeded, CommandStatus.terminal])]
    exact .inl (.inr succeeded)
  · rw [change.terminal (by simp [failed, CommandStatus.terminal])]
    exact .inr failed

theorem Command.Moves.evolves (moves : a.Moves b) : a.Evolves b where
  serverId := moves.serverId
  payload := moves.payload
  dependsOn := moves.dependsOn
  attempts := by rw [moves.attempts, moves.attempts']
  terminal finished := by
    rcases moves.source with h | h <;> simp [h, CommandStatus.terminal] at finished
  waiting idle := by
    rcases moves.target with h | ⟨h, _⟩
    · simp [h] at idle
    · exact h

theorem Command.Quiet.evolves (quiet : a.Quiet b) : a.Evolves b := by
  rcases quiet with rfl | moves
  · exact .refl b
  · exact moves.evolves

theorem Command.Quiet.attempted (quiet : a.Quiet b) (tried : b.attempted = true) : a.attempted = true := by
  rcases quiet with rfl | moves
  · exact tried
  · rcases moves.target with h | ⟨_, h⟩ <;>
      simp [Command.attempted, moves.attempts', h] at tried

theorem Command.Quiet.attempts_eq (quiet : a.Quiet b) : b.attempts = a.attempts := by
  rcases quiet with rfl | moves
  · rfl
  · rw [moves.attempts, moves.attempts']

theorem Command.Quiet.trans {c : Command} (first : a.Quiet b) (second : b.Quiet c) :
    a.Quiet c := by
  rcases first with rfl | first
  · exact second
  rcases second with rfl | second
  · exact .inr first
  · refine .inr ?_
    have target : c.status = .skipped := by
      rcases second.target with h | ⟨h, _⟩
      · exact h
      · rcases first.target with g | ⟨_, g⟩ <;> simp [g] at h
    exact
      { serverId := second.serverId.trans first.serverId
        payload := second.payload.trans first.payload
        dependsOn := second.dependsOn.trans first.dependsOn
        attempts := first.attempts
        attempts' := second.attempts'
        source := first.source
        target := .inl target }

namespace Inventory

/-- Every command of `s` is still there and has changed as `R` allows. -/
def Changes (R : CommandId → Command → Command → Prop) (s t : Inventory) : Prop :=
  ∀ (id : CommandId) (a : Command), s.commands[id]? = some a → ∃ b, t.commands[id]? = some b ∧ R id a b

def Evolves (s t : Inventory) : Prop :=
  s.Changes (fun _ => Command.Evolves) t

/-- The commands that `t` adds were never handed out. -/
def FreshCommands (s t : Inventory) : Prop :=
  ∀ (id : CommandId) (b : Command), s.commands.length ≤ id → t.commands[id]? = some b → b.attempted = false

/-- Commands change quietly and new commands are fresh. -/
structure Quiet (s t : Inventory) : Prop where
  old : s.Changes (fun _ => Command.Quiet) t
  fresh : s.FreshCommands t

/-- A waiting command was never handed out. -/
def Idle (s : Inventory) : Prop :=
  ∀ (id : CommandId) (a : Command), s.commands[id]? = some a → a.status = .waiting → a.attempts = 0

variable {s t : Inventory}

theorem Changes.length_le {R : CommandId → Command → Command → Prop} (changes : s.Changes R t) :
    s.commands.length ≤ t.commands.length := by
  rcases Nat.eq_zero_or_pos s.commands.length with empty | positive
  · omega
  · have atLast : s.commands[s.commands.length - 1]? = some (s.commands[s.commands.length - 1]) :=
      List.getElem?_eq_getElem (by omega)
    obtain ⟨b, atNew, _⟩ := changes _ _ atLast
    have bound := Table.row_lt atNew
    omega

theorem Evolves.refl (s : Inventory) : s.Evolves s :=
  fun _ a atRow => ⟨a, atRow, .refl a⟩

theorem Evolves.trans {u : Inventory} (first : s.Evolves t) (second : t.Evolves u) :
    s.Evolves u := by
  intro id a atRow
  obtain ⟨b, atMid, ab⟩ := first id a atRow
  obtain ⟨c, atEnd, bc⟩ := second id b atMid
  exact ⟨c, atEnd, ab.trans bc⟩

theorem Evolves.of_commands (same : t.commands = s.commands) : s.Evolves t := by
  intro id a atRow
  exact ⟨a, by rw [same]; exact atRow, .refl a⟩

theorem Quiet.of_commands (same : t.commands = s.commands) : s.Quiet t where
  old id a atRow := ⟨a, by rw [same]; exact atRow, .inl rfl⟩
  fresh id b bound atRow := by
    rw [same] at atRow
    have := Table.row_lt atRow
    omega

theorem Quiet.refl (s : Inventory) : s.Quiet s :=
  .of_commands rfl

theorem Quiet.evolves (quiet : s.Quiet t) : s.Evolves t := by
  intro id a atRow
  obtain ⟨b, atNew, change⟩ := quiet.old id a atRow
  exact ⟨b, atNew, change.evolves⟩

theorem Quiet.trans {u : Inventory} (first : s.Quiet t) (second : t.Quiet u) : s.Quiet u where
  old id a atRow := by
    obtain ⟨b, atMid, ab⟩ := first.old id a atRow
    obtain ⟨c, atEnd, bc⟩ := second.old id b atMid
    exact ⟨c, atEnd, ab.trans bc⟩
  fresh id c bound atRow := by
    by_cases old : id < t.commands.length
    · have atMid : t.commands[id]? = some t.commands[id] := List.getElem?_eq_getElem old
      obtain ⟨c', atEnd, change⟩ := second.old _ _ atMid
      have same := Option.some.inj (atEnd.symm.trans atRow)
      subst same
      have quiet := first.fresh _ _ bound atMid
      by_contra tried
      simp only [Bool.not_eq_false] at tried
      simp [change.attempted tried] at quiet
    · exact second.fresh id c (Nat.le_of_not_lt old) atRow

theorem Quiet.idle {s t : Inventory} (quiet : s.Quiet t) (idle : s.Idle) : t.Idle := by
  intro id b atRow waits
  by_cases old : id < s.commands.length
  · have atOld : s.commands[id]? = some s.commands[id] := List.getElem?_eq_getElem old
    obtain ⟨b', atNew, change⟩ := quiet.old _ _ atOld
    have same := Option.some.inj (atNew.symm.trans atRow)
    subst same
    rw [change.attempts_eq]
    exact idle _ _ atOld (change.evolves.waiting waits)
  · have fresh := quiet.fresh id b (Nat.le_of_not_lt old) atRow
    simp only [Command.attempted, Bool.or_eq_false_iff, decide_eq_false_iff_not] at fresh
    omega

variable {id : CommandId} {a : Command}

theorem Evolves.terminal (evolves : s.Evolves t) (atRow : s.commands[id]? = some a)
    (finished : a.status.terminal = true) :
    t.commands[id]? = some a := by
  obtain ⟨b, atNew, change⟩ := evolves id a atRow
  rw [atNew, change.terminal finished]

variable {status : CommandStatus}

theorem statusOf_eq : s.statusOf id = some status ↔ ∃ a, s.commands[id]? = some a ∧ a.status = status :=
  Option.map_eq_some_iff

theorem Evolves.statusOf (evolves : s.Evolves t) (atStatus : s.statusOf id = some status)
    (finished : status.terminal = true) : t.statusOf id = some status := by
  obtain ⟨a, atRow, rfl⟩ := statusOf_eq.mp atStatus
  exact statusOf_eq.mpr ⟨a, evolves.terminal atRow finished, rfl⟩

variable {k : CommandId} {f : Command → Command}

theorem evolves_modifyCommand (change : ∀ a, s.commands[k]? = some a → a.Evolves (f a)) :
    s.Evolves (s.modifyCommand k f) := by
  intro id a atRow
  by_cases same : k = id
  · subst same
    exact ⟨f a, Table.modify_self atRow, change a atRow⟩
  · exact ⟨a, by simpa [same] using atRow, .refl a⟩

theorem quiet_modifyCommand (change : ∀ a, s.commands[k]? = some a → a.Moves (f a)) :
    s.Quiet (s.modifyCommand k f) where
  old id a atRow := by
    by_cases same : k = id
    · subst same
      exact ⟨f a, Table.modify_self atRow, .inr (change a atRow)⟩
    · exact ⟨a, by simpa [same] using atRow, .inl rfl⟩
  fresh id b bound atRow := by
    obtain ⟨a, old, _⟩ := Table.modify_row atRow
    have := Table.row_lt old
    omega

theorem quiet_addCommand {command : Command} (fresh : command.attempted = false) :
    s.Quiet (s.addCommand command) where
  old id a atRow := ⟨a, Table.append_old atRow, .inl rfl⟩
  fresh id b bound atRow := by
    rcases Table.append_row atRow with old | ⟨_, rfl⟩
    · have := Table.row_lt old
      omega
    · exact fresh

theorem newCommandModel_quiet (s : Inventory) (server : ServerId) (payload : CommandPayload)
    (now : Time) (dependsOn : Option CommandId) (skipped : Option String) :
    s.Quiet (s.newCommandModel server payload now dependsOn skipped) := by
  refine quiet_addCommand ?_
  have pending : s.initialStatus dependsOn = .pending ∨ s.initialStatus dependsOn = .waiting := by
    unfold initialStatus
    split
    · exact .inl rfl
    · split
      · exact .inl rfl
      · exact .inr rfl
  by_cases skip : skipped.isSome
  · simp [Command.attempted, skip]
  · rcases pending with h | h <;> simp [Command.attempted, skip, h]

variable {p : CommandId} {now : Time}

theorem advanceChild_moves {succeeded : Bool} (waits : a.status = .waiting) (idle : a.attempts = 0) :
    a.Moves (advanceChild p succeeded now a) := by
  cases succeeded <;>
    exact ⟨rfl, rfl, rfl, idle, idle, .inl waits, by simp [advanceChild, waits]⟩

theorem isWaitingChild_iff : isWaitingChild p a = true ↔ a.dependsOn = some p ∧ a.status = .waiting := by
  simp [isWaitingChild]

theorem advanceChildren_row (atRow : s.commands[id]? = some a) : (s.advanceChildren p now).commands[id]? = some
      (if isWaitingChild p a then advanceChild p (s.statusOf p == some .succeeded) now a else a) := by
  simp [advanceChildren, atRow]

theorem advanceChildren_quiet (idle : s.Idle) (p : CommandId) (now : Time) : s.Quiet (s.advanceChildren p now) where
  old id a atRow := by
    refine ⟨_, advanceChildren_row atRow, ?_⟩
    split
    · rename_i child
      have waits := (isWaitingChild_iff.mp child).2
      exact .inr (advanceChild_moves waits (idle id a atRow waits))
    · exact .inl rfl
  fresh id b bound atRow := by
    have := Table.row_lt atRow
    simp [advanceChildren] at this
    omega

theorem advanceLoop_quiet {fuel : Nat} {stack : List CommandId} (idle : s.Idle) :
    s.Quiet (advanceLoop now fuel stack s) := by
  induction fuel generalizing stack s with
  | zero => exact .refl s
  | succ fuel ih =>
    cases stack with
    | nil => exact .refl s
    | cons p rest =>
      have pass := advanceChildren_quiet idle p now
      exact pass.trans (ih (pass.idle idle))

theorem advanceCommandDependents_quiet (idle : s.Idle) (id : CommandId) (now : Time) :
    s.Quiet (s.advanceCommandDependents id now) :=
  advanceLoop_quiet idle

theorem advanceLoop_frame (now : Time) (fuel : Nat) (stack : List CommandId) (s : Inventory) :
    ∃ commands, advanceLoop now fuel stack s = { s with commands := commands } := by
  induction fuel generalizing stack s with
  | zero => exact ⟨s.commands, rfl⟩
  | succ fuel ih =>
    cases stack with
    | nil => exact ⟨s.commands, rfl⟩
    | cons p rest =>
      obtain ⟨commands, last⟩ := ih _ (s.advanceChildren p now)
      exact ⟨commands, last⟩

section Frame

variable (s : Inventory) (id : CommandId) (now : Time) (f : Command → Command)

theorem finishCommand_frame : ∃ commands, s.finishCommand id now f = { s with commands := commands } :=
  advanceLoop_frame now _ _ (s.modifyCommand id f)

@[simp] theorem finishCommand_changes : (s.finishCommand id now f).changes = s.changes := by
  obtain ⟨_, frame⟩ := s.finishCommand_frame id now f
  rw [frame]

@[simp] theorem finishCommand_locks : (s.finishCommand id now f).locks = s.locks := by
  obtain ⟨_, frame⟩ := s.finishCommand_frame id now f
  rw [frame]

@[simp] theorem finishCommand_access : (s.finishCommand id now f).access = s.access := by
  obtain ⟨_, frame⟩ := s.finishCommand_frame id now f
  rw [frame]

end Frame

end Inventory

end OpenNode
