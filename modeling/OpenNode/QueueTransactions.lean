import OpenNode.LeaseTransactions

namespace OpenNode

open Inventory

namespace Inventory

variable {env : Env} {s t u : Inventory} {now : Time} {operation : Operation}

variable {server : ServerId} {payloads : List CommandPayload}

theorem createSequence_keeps {base : Nat} {previous : Option CommandId} (invariant : s.SystemInvariant)
    (start : base ≤ s.commands.length)
    (behind : ∀ p, previous = some p → base ≤ p ∧ (s.Succeeded p ∨ s.Live p) ∧ (∀ c, ¬ s.Owns c p) ∧
      ∃ b, s.commands[p]? = some b ∧ b.serverId = server)
    (run : s.createSequence env server now previous payloads = .ok t) :
    t.SystemInvariant ∧ t.changes = s.changes ∧ s.Quiet t ∧
      ∀ {id : CommandId} {b : Command} {p : CommandId}, s.commands.length ≤ id →
        t.commands[id]? = some b → b.dependsOn = some p → base ≤ p := by
  induction payloads generalizing s previous with
  | nil =>
    cases Except.ok.inj run
    refine ⟨invariant, rfl, .refl _, fun bound atRow _ => ?_⟩
    exact absurd (Table.row_lt atRow) (Nat.not_lt.mpr bound)
  | cons payload rest ih =>
    rw [createSequence] at run
    split at run
    · cases run
    · rename_i u created
      have fresh := createCommandModel_ok created
      subst fresh
      have system := newCommandModel_system now server payload previous invariant
        fun p link => (behind p link).2
      have quiet := s.newCommandModel_quiet server payload now previous none
      have length := s.newCommandModel_length server payload now previous none
      obtain ⟨a, atRow, addressee, prior, live⟩ :=
        s.newCommandModel_row server payload now previous none
      have later : ∀ p, some s.commands.length = some p → base ≤ p ∧
          ((s.newCommandModel server payload now previous).Succeeded p ∨
            (s.newCommandModel server payload now previous).Live p) ∧
          (∀ c, ¬ (s.newCommandModel server payload now previous).Owns c p) ∧
          ∃ b, (s.newCommandModel server payload now previous).commands[p]? = some b ∧ b.serverId = server := by
        intro p same
        cases Option.some.inj same
        refine ⟨start, .inr ⟨a, atRow, by simpa using live⟩, fun c mine => ?_, a, atRow, addressee⟩
        exact Nat.lt_irrefl _ (invariant.framework.ownership.placed (c := c) mine)
      obtain ⟨last, changes, still, links⟩ := ih system (by rw [length]; exact Nat.le_succ_of_le start) later run
      refine ⟨last, changes, quiet.trans still, ?_⟩
      intro id b p bound atB link
      by_cases same : id = s.commands.length
      · subst same
        obtain ⟨x, atX, change⟩ := still.evolves _ _ atRow
        cases atB.symm.trans atX
        exact (behind p (by rw [← prior, ← change.dependsOn, link])).1
      · exact links (by rw [length]; exact Nat.lt_of_le_of_ne bound (Ne.symm same)) atB link

theorem createCommandSequence_keeps (invariant : s.SystemInvariant)
    (run : s.createCommandSequence env server payloads now = .ok t) : Keeps env now operation s t := by
  unfold createCommandSequence at run
  split at run
  · cases run
  · obtain ⟨system, changes, quiet, links⟩ := createSequence_keeps invariant le_rfl (by simp) run
    exact ⟨system, .of_links quiet.evolves changes links, .quiet quiet⟩

theorem SystemInvariant.other_tables (invariant : s.SystemInvariant) (commands : t.commands = s.commands)
    (changes : t.changes = s.changes) (locks : t.locks = s.locks)
    (access : ∀ row ∈ t.access, ∀ id, row.commandId = some id →
      ∃ a, t.commands[id]? = some a ∧ a.dependsOn = none) : t.SystemInvariant := by
  refine invariant.of_evolves (.of_commands commands) changes locks
    (invariant.framework.queue.of_commands commands) access ?_ ?_
  · intro id a p bound atRow
    rw [commands] at atRow
    exact absurd (Table.row_lt atRow) (Nat.not_lt.mpr bound)
  · intro c id a mine atRow
    rw [commands] at atRow
    exact invariant.framework.ownership.sent mine atRow

variable {id : CommandId} {a : Command}

theorem SystemInvariant.link_access {row : Nat} (invariant : s.SystemInvariant) (atRow : s.commands[id]? = some a)
    (first : a.dependsOn = none) :
    { s with access := s.access.modify row fun entry =>
      { entry with commandId := some id } }.SystemInvariant := by
  refine invariant.other_tables rfl rfl rfl ?_
  intro entry member k link
  obtain ⟨i, atI⟩ := List.mem_iff_getElem?.mp member
  obtain ⟨old, atOld, value⟩ := Table.modify_row atI
  by_cases here : row = i
  · rw [if_pos here] at value
    subst value
    cases Option.some.inj link
    exact ⟨a, atRow, first⟩
  · rw [if_neg here] at value
    subst value
    exact invariant.framework.ownership.access entry (List.mem_of_getElem? atOld) k link

theorem skip_superseded {error : String} (invariant : s.SystemInvariant) (atRow : s.commands[id]? = some a)
    (live : a.status.terminal = false) (idle : a.attempts = 0) (first : a.dependsOn = none)
    (run : s.skip env id now error = .ok t) :
    t.SystemInvariant ∧ s.Progress t ∧ s.Quiet t := by
  have pending : a.status = .pending := by
    cases status : a.status with
    | pending => rfl
    | waiting =>
      obtain ⟨p, link, _⟩ := invariant.framework.queue.waits atRow status
      rw [first] at link
      cases link
    | leased =>
      have positive := invariant.framework.queue.leased atRow status
      omega
    | succeeded => simp [status, CommandStatus.terminal] at live
    | failed => simp [status, CommandStatus.terminal] at live
    | skipped => simp [status, CommandStatus.terminal] at live
  have concludes : Concludes a { a with
      status := .skipped, resultError := some error, completedAt := some now, updatedAt := now } :=
    ⟨.inl pending, rfl, rfl, rfl, rfl, rfl⟩
  obtain ⟨system, progress, quiet⟩ := finish_advance (f := fun command => { command with
      status := .skipped, resultError := some error, completedAt := some now, updatedAt := now })
    invariant atRow concludes (fun _ => .inl rfl) run
  have stopped : s.Quiet (s.modifyCommand id fun command => { command with
      status := .skipped, resultError := some error, completedAt := some now, updatedAt := now }) := by
    refine quiet_modifyCommand fun x atX => ?_
    cases atRow.symm.trans atX
    exact ⟨rfl, rfl, rfl, idle, idle, .inr pending, .inl rfl⟩
  exact ⟨system, progress, stopped.trans quiet⟩

variable {force : Bool} {timeoutMs : Nat}

theorem reconcileRow_keeps {row : Nat} {view : RowView} (invariant : s.SystemInvariant)
    (run : s.reconcileRow env row view force timeoutMs now = .ok t) :
    t.SystemInvariant ∧ s.Progress t ∧ s.Quiet t := by
  have same : ∀ {x : Inventory}, x.SystemInvariant → s.Progress x → s.Quiet x →
      (Except.ok x : Except Refusal Inventory) = .ok t → t.SystemInvariant ∧ s.Progress t ∧ s.Quiet t := by
    intro x system progress quiet eq
    cases Except.ok.inj eq
    exact ⟨system, progress, quiet⟩
  unfold reconcileRow at run
  split at run
  · exact same invariant (.refl s) (.refl s) run
  · rename_i entry atEntry
    split at run
    · exact same invariant (.refl s) (.refl s) run
    · dsimp only at run
      split at run
      · exact same invariant (.refl s) (.refl s) run
      · rename_i replaced
        split at run
        · cases run
        · rename_i x superseded
          obtain ⟨system, progress, quiet⟩ : x.SystemInvariant ∧ s.Progress x ∧ s.Quiet x := by
            split at superseded
            · rename_i id link
              split at superseded
              · rename_i unfinished
                obtain ⟨k, a, same', atRow, live⟩ := commandAt_any.mp unfinished
                rw [link] at same'
                cases Option.some.inj same'
                obtain ⟨b, atB, first⟩ := invariant.framework.ownership.access entry
                  (List.mem_of_getElem? atEntry) id link
                cases atRow.symm.trans atB
                have idle : a.attempts = 0 := by
                  by_contra positive
                  refine replaced ?_
                  rw [Bool.and_eq_true]
                  refine ⟨unfinished, commandAt_any.mpr ⟨id, a, link, atRow, ?_⟩⟩
                  simp [Nat.pos_of_ne_zero positive]
                exact skip_superseded invariant atRow (by simpa using live) idle first superseded
              · cases Except.ok.inj superseded
                exact ⟨invariant, .refl s, .refl s⟩
            · cases Except.ok.inj superseded
              exact ⟨invariant, .refl s, .refl s⟩
          split at run
          · exact same system progress quiet run
          · split at run
            · exact same system progress quiet run
            · split at run
              · cases run
              · rename_i y created
                have fresh := createCommandModel_ok created
                subst fresh
                have system' := newCommandModel_system now entry.serverId
                  { method := .post, path := accessEndpoint, body := view.desired, timeoutMs := timeoutMs }
                  none system (by simp)
                have quiet' := x.newCommandModel_quiet entry.serverId
                  { method := .post, path := accessEndpoint, body := view.desired, timeoutMs := timeoutMs }
                  now none none
                obtain ⟨a, atRow, _, prior, _⟩ := x.newCommandModel_row entry.serverId
                  { method := .post, path := accessEndpoint, body := view.desired, timeoutMs := timeoutMs }
                  now none none
                cases Except.ok.inj run
                exact ⟨system'.link_access atRow prior,
                  (progress.trans newCommandModel_first).trans (.of_length (.of_commands rfl) rfl rfl),
                  (quiet.trans quiet').trans (.of_commands rfl)⟩

theorem reconcile_keeps {rows : List Nat} {view : Nat → RowView} (invariant : s.SystemInvariant)
    (run : reconcile env view force timeoutMs now rows s = .ok t) :
    t.SystemInvariant ∧ s.Progress t ∧ s.Quiet t := by
  induction rows generalizing s with
  | nil =>
    cases Except.ok.inj run
    exact ⟨invariant, .refl _, .refl _⟩
  | cons row rest ih =>
    rw [reconcile] at run
    split at run
    · cases run
    · rename_i u turn
      obtain ⟨system, progress, quiet⟩ := reconcileRow_keeps invariant turn
      obtain ⟨last, further, still⟩ := ih system run
      exact ⟨last, progress.trans further, quiet.trans still⟩

end Inventory

end OpenNode
