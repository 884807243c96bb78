import OpenNode.RollbackChains

namespace OpenNode

open Bool Inventory List

/-- `y` is `x`, or `x` with the compensator it lacked. -/
def ChangeStep.Assigned (x y : ChangeStep) : Prop :=
  y = x ∨ x.rollbackCommandId = none ∧ ∃ id, y = { x with rollbackCommandId := some id }

theorem ChangeStep.Assigned.grows {x y : ChangeStep} (assigned : x.Assigned y) : x.Grows y := by
  rcases assigned with rfl | ⟨missing, id, rfl⟩
  · exact .refl y
  · refine ⟨rfl, rfl, rfl, fun _ sent => sent, fun q member => ?_⟩
    simp only [compensators, missing, Option.toList_none, nil_append] at member
    simp [compensators, member]

theorem ChangeStep.Assigned.forwardCommandId {x y : ChangeStep} (assigned : x.Assigned y) :
    y.forwardCommandId = x.forwardCommandId := by
  rcases assigned with rfl | ⟨_, _, rfl⟩ <;> rfl

theorem ChangeStep.Assigned.rollbackHistoryIds {x y : ChangeStep} (assigned : x.Assigned y) :
    y.rollbackHistoryIds = x.rollbackHistoryIds := by
  rcases assigned with rfl | ⟨_, _, rfl⟩ <;> rfl

namespace Inventory

variable {env : Env} {s t : Inventory} {now : Time} {stoppable : CommandId → Prop}

theorem compensated_assigned {x y : ChangeStep} (assigned : x.Assigned y) : s.compensated y = s.compensated x := by
  simp only [compensated, assigned.forwardCommandId, assigned.grows.rollback]

/-- Whether the loop finds that an attempted step cannot be compensated. -/
def uncovered (s : Inventory) (step : ChangeStep) : Bool :=
  (s.commandAt step.forwardCommandId).any Command.attempted && step.rollback.isNone

variable {step : ChangeStep}

theorem uncovered_compensated (covered : s.compensated step = true) : s.uncovered step = false := by
  simp only [compensated, and_eq_true] at covered
  cases plan : step.rollback with
  | none => simp [plan] at covered
  | some payload => simp [uncovered, plan]

theorem Evolves.uncovered_eq (evolves : s.Evolves t)
    (finished : ∀ id, step.forwardCommandId = some id → s.Finished id) :
    t.uncovered step = s.uncovered step := by
  simp only [uncovered, evolves.commandAt_finished finished]

variable {skipError : Option String} {payload : CommandPayload}

theorem createCommandModel_ok {server : ServerId} {dependsOn : Option CommandId}
    (created : s.createCommandModel env server payload now dependsOn = .ok t) :
    t = s.newCommandModel server payload now dependsOn := by
  unfold createCommandModel at created
  split at created
  · cases created
  · split at created
    · cases created
    · split at created
      · cases created
      · exact (Except.ok.inj created).symm

theorem createSkippedCommandModel_ok {server : ServerId} {error : String} {dependsOn : Option CommandId}
    (created : s.createSkippedCommandModel env server payload now error dependsOn = .ok t) :
    t = s.newCommandModel server payload now dependsOn (some error) := by
  unfold createSkippedCommandModel at created
  split at created
  · cases created
  · exact (Except.ok.inj created).symm

theorem newCommandModel_length (server : ServerId) (payload : CommandPayload) (now : Time)
    (dependsOn : Option CommandId) (skipped : Option String) :
    (s.newCommandModel server payload now dependsOn skipped).commands.length = s.commands.length + 1 := by
  simp [newCommandModel]

theorem newCommandModel_row (server : ServerId) (payload : CommandPayload) (now : Time)
    (dependsOn : Option CommandId) (skipped : Option String) :
    ∃ a, (s.newCommandModel server payload now dependsOn skipped).commands[s.commands.length]? =
        some a ∧ a.serverId = server ∧ a.dependsOn = dependsOn ∧
        (if skipped.isSome then a.status.terminal = true else a.status.terminal = false) := by
  refine ⟨_, List.getElem?_concat_length, rfl, rfl, ?_⟩
  cases skip : skipped.isSome with
  | true => simp [CommandStatus.terminal]
  | false =>
    simp only [false_eq_true, if_false, initialStatus]
    split
    · rfl
    · split <;> rfl

theorem newCommandModel_cases {server : ServerId}
    {dependsOn : Option CommandId} {skipped : Option String} {id : CommandId} {b : Command}
    (atRow : (s.newCommandModel server payload now dependsOn skipped).commands[id]? = some b) :
    s.commands[id]? = some b ∨ id = s.commands.length ∧ b.serverId = server ∧ b.dependsOn = dependsOn := by
  rcases Table.append_row atRow with old | ⟨rfl, rfl⟩
  · exact .inl old
  · exact .inr ⟨rfl, rfl, rfl⟩

theorem rollbackTurn_cases {pass next : RollbackPass} (turn : rollbackTurn env now skipError pass step = .ok next)
    (kept : skipError.isSome = true → ∀ id a, step.rollbackCommandId = some id →
      pass.inventory.commands[id]? = some a → a.unsent = false) :
    (pass.inventory.compensated step = false ∧ ∃ missing,
      missing = (pass.missing || pass.inventory.uncovered step) ∧
      next = { pass with missing := missing, steps := step :: pass.steps }) ∨
    (pass.inventory.compensated step = true ∧ ∃ id a, step.rollbackCommandId = some id ∧
      pass.inventory.commands[id]? = some a ∧
      next = { pass with
        previous := some id, rollbacks := pass.rollbacks ++ [id], steps := step :: pass.steps }) ∨
    (pass.inventory.compensated step = true ∧ pass.inventory.commandAt step.rollbackCommandId = none ∧ ∃ payload,
      next = { pass with
        inventory := pass.inventory.newCommandModel step.serverId payload now pass.previous skipError
        previous := some pass.inventory.commands.length
        rollbacks := pass.rollbacks ++ [pass.inventory.commands.length]
        steps := { step with rollbackCommandId := some pass.inventory.commands.length } :: pass.steps }) := by
  unfold rollbackTurn at turn
  cases tried : (pass.inventory.commandAt step.forwardCommandId).any Command.attempted with
  | false =>
    simp only [tried, Bool.not_false, if_true, Except.ok.injEq] at turn
    exact .inl ⟨by simp [compensated, tried], _, rfl, by simp [← turn, uncovered, tried]⟩
  | true =>
    simp only [tried, Bool.not_true, false_eq_true, if_false] at turn
    cases plan : step.rollback with
    | none =>
      simp only [plan, Except.ok.injEq] at turn
      exact .inl ⟨by simp [compensated, plan], _, rfl, by simp [← turn, uncovered, tried, plan]⟩
    | some payload =>
      have covered : pass.inventory.compensated step = true := by simp [compensated, tried, plan]
      simp only [plan] at turn
      split at turn
      · rename_i id a rollback atRow
        have row : pass.inventory.commands[id]? = some a := by
          simpa [commandAt, rollback] using atRow
        refine .inr (.inl ⟨covered, id, a, rollback, row, ?_⟩)
        cases skip : skipError with
        | none =>
          simp only [skip, Except.ok.injEq] at turn
          exact turn.symm
        | some message =>
          have sent := kept (by simp [skip]) id a rollback row
          simp only [skip, sent, false_eq_true, if_false, Except.ok.injEq] at turn
          exact turn.symm
      · rename_i absent
        have none : pass.inventory.commandAt step.rollbackCommandId = none := by
          cases rollback : step.rollbackCommandId with
          | none => rfl
          | some id =>
            cases atRow : pass.inventory.commandAt (some id) with
            | none => rfl
            | some a => exact absurd (by rw [rollback]; exact atRow) (absent id a rollback)
        refine .inr (.inr ⟨covered, none, payload, ?_⟩)
        cases skip : skipError with
        | none =>
          simp only [skip] at turn
          split at turn
          · cases turn
          · rename_i u created
            have fresh := createCommandModel_ok created
            subst fresh
            exact (Except.ok.inj turn).symm
        | some message =>
          simp only [skip] at turn
          split at turn
          · cases turn
          · rename_i u created
            have fresh := createSkippedCommandModel_ok created
            subst fresh
            exact (Except.ok.inj turn).symm

/-- What the loop adds to a pass: `done` are the steps it met, with their
compensators, in the order in which it met them. -/
structure Compensates (stoppable : CommandId → Prop) (pass : RollbackPass) (steps : List ChangeStep)
    (next : RollbackPass) (done : List ChangeStep) : Prop where
  frame : ∃ commands, next.inventory = { pass.inventory with commands := commands }
  quiet : pass.inventory.Quiet next.inventory
  queue : next.inventory.QueueUpTo stoppable []
  rewritten : next.steps = done.reverse ++ pass.steps
  assigned : List.Forall₂ ChangeStep.Assigned steps done
  ids : (commandIds done).Perm (commandIds steps ++ List.range' pass.inventory.commands.length
    (next.inventory.commands.length - pass.inventory.commands.length))
  chain : next.inventory.RollbackChain pass.previous done
  linked : ∀ {id : CommandId} {x : Command} {p : CommandId}, pass.inventory.commands.length ≤ id →
    next.inventory.commands[id]? = some x → x.dependsOn = some p →
    pass.previous = some p ∨ p ∈ commandIds done
  rollbacks : next.rollbacks = pass.rollbacks ++ done.filterMap ChangeStep.rollbackCommandId
  missing : next.missing = (pass.missing || steps.any pass.inventory.uncovered)

theorem commandIds_cons (step : ChangeStep) (rest : List ChangeStep) :
    commandIds (step :: rest) = step.commandIds ++ commandIds rest := rfl

theorem Compensates.nil {pass : RollbackPass} (queue : pass.inventory.QueueUpTo stoppable []) :
    Compensates stoppable pass [] pass [] where
  frame := ⟨_, rfl⟩
  quiet := .refl _
  queue := queue
  rewritten := rfl
  assigned := .nil
  ids := by simp [commandIds]
  chain := .nil
  linked bound atRow := absurd (Table.row_lt atRow) (Nat.not_lt.mpr bound)
  rollbacks := by simp
  missing := by simp

theorem Compensates.pass {pass next : RollbackPass} {rest done : List ChangeStep}
    {missing : Bool} (uncovered : pass.inventory.compensated step = false)
    (finished : ∀ id, step.forwardCommandId = some id → pass.inventory.Finished id)
    (absent : step.rollbackCommandId = none)
    (flag : missing = (pass.missing || pass.inventory.uncovered step))
    (tail : Compensates stoppable { pass with missing := missing, steps := step :: pass.steps } rest
      next done) : Compensates stoppable pass (step :: rest) next (step :: done) where
  frame := tail.frame
  quiet := tail.quiet
  queue := tail.queue
  rewritten := by rw [tail.rewritten]; simp
  assigned := .cons (.inl rfl) tail.assigned
  ids := by
    rw [commandIds_cons, commandIds_cons, append_assoc]
    exact tail.ids.append_left _
  chain := by
    refine .pass ?_ absent tail.chain
    rw [tail.quiet.evolves.compensated_eq finished, uncovered]
  linked bound atRow link := by
    rcases tail.linked bound atRow link with prior | member
    · exact .inl prior
    · exact .inr (by rw [commandIds_cons]; exact mem_append_right _ member)
  rollbacks := by rw [tail.rollbacks, filterMap_cons, absent]
  missing := by rw [tail.missing, flag, any_cons, Bool.or_assoc]

theorem Compensates.keep {pass next : RollbackPass} {rest done : List ChangeStep}
    {id : CommandId} {a : Command} (covered : pass.inventory.compensated step = true)
    (rollback : step.rollbackCommandId = some id) (atRow : pass.inventory.commands[id]? = some a)
    (server : a.serverId = step.serverId) (prior : a.dependsOn = pass.previous)
    (tail : Compensates stoppable { pass with
        previous := some id, rollbacks := pass.rollbacks ++ [id], steps := step :: pass.steps } rest
      next done) : Compensates stoppable pass (step :: rest) next (step :: done) where
  frame := tail.frame
  quiet := tail.quiet
  queue := tail.queue
  rewritten := by rw [tail.rewritten]; simp
  assigned := .cons (.inl rfl) tail.assigned
  ids := by
    rw [commandIds_cons, commandIds_cons, append_assoc]
    exact tail.ids.append_left _
  chain := by
    obtain ⟨b, atNew, change⟩ := tail.quiet.evolves id a atRow
    exact .link (tail.quiet.evolves.compensated covered) rollback atNew
      (change.serverId.trans server) (change.dependsOn.trans prior) tail.chain
  linked bound atRow' link := by
    right
    rw [commandIds_cons]
    rcases tail.linked bound atRow' link with same | member
    · cases Option.some.inj same
      exact mem_append_left _ (by simp [ChangeStep.commandIds, rollback])
    · exact mem_append_right _ member
  rollbacks := by
    rw [tail.rollbacks, filterMap_cons, rollback]
    simp
  missing := by rw [tail.missing, any_cons, uncovered_compensated covered, Bool.false_or]

theorem Compensates.create {pass next : RollbackPass} {rest done : List ChangeStep}
    (covered : pass.inventory.compensated step = true)
    (finished : Forwards pass.inventory.Finished rest) (absent : step.rollbackCommandId = none)
    (tail : Compensates stoppable { pass with
        inventory := pass.inventory.newCommandModel step.serverId payload now pass.previous skipError
        previous := some pass.inventory.commands.length
        rollbacks := pass.rollbacks ++ [pass.inventory.commands.length]
        steps := { step with rollbackCommandId := some pass.inventory.commands.length } ::
          pass.steps } rest next done) :
    Compensates stoppable pass (step :: rest) next
      ({ step with rollbackCommandId := some pass.inventory.commands.length } :: done) where
  frame := by
    obtain ⟨commands, frame⟩ := tail.frame
    exact ⟨commands, frame⟩
  quiet := (newCommandModel_quiet ..).trans tail.quiet
  queue := tail.queue
  rewritten := by rw [tail.rewritten]; simp
  assigned := .cons (.inr ⟨absent, _, rfl⟩) tail.assigned
  ids := by
    have grown := tail.quiet.evolves.length_le
    have length := pass.inventory.newCommandModel_length step.serverId payload now
      pass.previous skipError
    simp only [length] at grown
    have ids := tail.ids
    simp only [length] at ids
    have range : List.range' pass.inventory.commands.length
        (next.inventory.commands.length - pass.inventory.commands.length) =
        pass.inventory.commands.length :: List.range' (pass.inventory.commands.length + 1)
          (next.inventory.commands.length - (pass.inventory.commands.length + 1)) := by
      rw [show next.inventory.commands.length - pass.inventory.commands.length =
        next.inventory.commands.length - (pass.inventory.commands.length + 1) + 1 by omega,
        List.range'_succ]
    have mine : (ChangeStep.commandIds
        { step with rollbackCommandId := some pass.inventory.commands.length }).Perm
        (pass.inventory.commands.length :: step.commandIds) := by
      simp only [ChangeStep.commandIds, absent, Option.toList_some, Option.toList_none, append_nil, append_assoc]
      exact perm_middle
    rw [commandIds_cons, commandIds_cons, range]
    refine (mine.append ids).trans ?_
    rw [cons_append, ← append_assoc]
    exact List.perm_middle.symm
  chain := by
    obtain ⟨a, atRow, server, prior, _⟩ := pass.inventory.newCommandModel_row
      step.serverId payload now pass.previous skipError
    obtain ⟨b, atNew, change⟩ := tail.quiet.evolves _ _ atRow
    refine .link ?_ rfl atNew (change.serverId.trans server) (change.dependsOn.trans prior) tail.chain
    exact tail.quiet.evolves.compensated ((newCommandModel_quiet ..).evolves.compensated covered)
  linked := by
    intro id x p bound atRow link
    rw [commandIds_cons]
    by_cases mine : id = pass.inventory.commands.length
    · subst mine
      obtain ⟨a, atOld, _, prior, _⟩ := pass.inventory.newCommandModel_row
        step.serverId payload now pass.previous skipError
      obtain ⟨b, atNew, change⟩ := tail.quiet.evolves _ _ atOld
      cases atRow.symm.trans atNew
      exact .inl (by rw [← prior, ← change.dependsOn, link])
    · right
      have beyond : (pass.inventory.newCommandModel step.serverId payload now pass.previous
          skipError).commands.length ≤ id := by
        rw [newCommandModel_length]
        exact Nat.lt_of_le_of_ne bound (Ne.symm mine)
      rcases tail.linked beyond atRow link with same | member
      · cases Option.some.inj same
        exact mem_append_left _ (by simp [ChangeStep.commandIds])
      · exact mem_append_right _ member
  rollbacks := by
    rw [tail.rollbacks, filterMap_cons]
    simp
  missing := by
    have evolves := (newCommandModel_quiet pass.inventory step.serverId payload now pass.previous
      skipError).evolves
    rw [tail.missing, any_cons, uncovered_compensated covered, Bool.false_or]
    congr 1
    rw [Bool.eq_iff_iff, any_eq_true, any_eq_true]
    refine exists_congr fun x => and_congr_right fun member => ?_
    simp only [evolves.uncovered_eq (finished x member)]

theorem rollbackLoop_cons {pass next : RollbackPass}
    {rest : List ChangeStep} (loop : rollbackLoop env now skipError (step :: rest) pass = .ok next) :
    ∃ mid, rollbackTurn env now skipError pass step = .ok mid ∧
      rollbackLoop env now skipError rest mid = .ok next := by
  rw [rollbackLoop] at loop
  split at loop
  · cases loop
  · rename_i mid turn
    exact ⟨mid, turn, loop⟩

theorem Evolves.resumes (evolves : s.Evolves t) {previous : Option CommandId} {steps : List ChangeStep}
    (finished : Forwards s.Finished steps) (resumes : s.Resumes previous steps) :
    t.Resumes previous steps := by
  induction resumes with
  | fresh missing => exact .fresh missing
  | @pass _ step _ uncovered missing _ ih =>
    refine .pass ?_ missing (ih fun x member => finished x (mem_cons_of_mem _ member))
    rw [evolves.compensated_eq (finished step (mem_cons_self ..)), uncovered]
  | @link _ step _ id a covered atId atRow succeeded server prior _ ih =>
    refine .link (evolves.compensated covered) atId (evolves.terminal atRow ?_) succeeded server prior
      (ih fun x member => finished x (mem_cons_of_mem _ member))
    simp [succeeded, CommandStatus.terminal]

theorem rollbackLoop_resumes {steps : List ChangeStep}
    {pass next : RollbackPass} (loop : rollbackLoop env now skipError steps pass = .ok next)
    (queue : pass.inventory.QueueUpTo stoppable [])
    (finished : Forwards pass.inventory.Finished steps)
    (resumes : pass.inventory.Resumes pass.previous steps)
    (behind : ∀ p, pass.previous = some p → if skipError.isSome then pass.inventory.Finished p
      else pass.inventory.Succeeded p ∨ pass.inventory.Live p) :
    ∃ done, Compensates stoppable pass steps next done := by
  induction steps generalizing pass with
  | nil =>
    cases Except.ok.inj loop
    exact ⟨[], .nil queue⟩
  | cons step rest ih =>
    obtain ⟨mid, turn, loop⟩ := rollbackLoop_cons loop
    have finishedRest : Forwards pass.inventory.Finished rest :=
      fun x member => finished x (mem_cons_of_mem _ member)
    have sent : skipError.isSome = true → ∀ id a, step.rollbackCommandId = some id →
        pass.inventory.commands[id]? = some a → a.unsent = false := by
      intro _ id a rollback atRow
      cases resumes with
      | fresh missing => simp [missing step (mem_cons_self ..)] at rollback
      | pass _ missing _ => simp [missing] at rollback
      | link _ atId atB succeeded _ _ _ =>
        cases atId.symm.trans rollback
        cases atB.symm.trans atRow
        simp [Command.unsent, succeeded]
    rcases rollbackTurn_cases turn sent with
      ⟨uncovered, missing, flag, rfl⟩ | ⟨covered, id, a, rollback, atRow, rfl⟩ |
      ⟨covered, absent, payload, rfl⟩
    · have tail : pass.inventory.Resumes pass.previous rest ∧ step.rollbackCommandId = none := by
        cases resumes with
        | fresh missing =>
          exact ⟨.fresh fun x member => missing x (mem_cons_of_mem _ member), missing step (mem_cons_self ..)⟩
        | pass _ missing tail => exact ⟨tail, missing⟩
        | link covered _ _ _ _ _ _ => simp [covered] at uncovered
      obtain ⟨done, extension⟩ := ih loop queue finishedRest tail.1 behind
      exact ⟨_, .pass uncovered (finished step (mem_cons_self ..)) tail.2 flag extension⟩
    · cases resumes with
      | fresh missing => simp [missing step (mem_cons_self ..)] at rollback
      | pass _ missing _ => simp [missing] at rollback
      | link _ atId atB succeeded server prior tail =>
        cases atId.symm.trans rollback
        cases atB.symm.trans atRow
        have success : pass.inventory.Succeeded id := statusOf_eq.mpr ⟨a, atRow, succeeded⟩
        have later : ∀ p, some id = some p → if skipError.isSome then pass.inventory.Finished p
            else pass.inventory.Succeeded p ∨ pass.inventory.Live p := by
          intro p same
          cases Option.some.inj same
          split
          · exact success.finished
          · exact .inl success
        obtain ⟨done, extension⟩ := ih loop queue finishedRest tail later
        exact ⟨_, .keep covered rollback atRow server prior extension⟩
    · have missing : step.rollbackCommandId = none ∧ ∀ x ∈ rest, x.rollbackCommandId = none := by
        cases resumes with
        | fresh missing =>
          exact ⟨missing step (mem_cons_self ..), fun x member => missing x (mem_cons_of_mem _ member)⟩
        | pass uncovered _ _ => simp [covered] at uncovered
        | link _ atId atB _ _ _ _ => simp [commandAt, atId, atB] at absent
      have evolves := (newCommandModel_quiet pass.inventory step.serverId payload now pass.previous
        skipError).evolves
      obtain ⟨a, atRow, _, _, status⟩ := pass.inventory.newCommandModel_row
        step.serverId payload now pass.previous skipError
      have later : ∀ p, some pass.inventory.commands.length = some p →
          if skipError.isSome then (pass.inventory.newCommandModel step.serverId payload now
            pass.previous skipError).Finished p
          else (pass.inventory.newCommandModel step.serverId payload now pass.previous
            skipError).Succeeded p ∨ (pass.inventory.newCommandModel step.serverId payload now
            pass.previous skipError).Live p := by
        intro p same
        cases Option.some.inj same
        split
        · rename_i skip
          exact ⟨a, atRow, by simpa [skip] using status⟩
        · rename_i skip
          exact .inr ⟨a, atRow, by simpa [skip] using status⟩
      obtain ⟨done, extension⟩ := ih loop (queue.newCommandModel step.serverId payload now behind)
        (finishedRest.imp fun _ => evolves.finished) (.fresh missing.2) later
      exact ⟨_, .create covered finishedRest missing.1 extension⟩

theorem rollbackLoop_chain {steps : List ChangeStep} {pass next : RollbackPass}
    (loop : rollbackLoop env now none steps pass = .ok next)
    (queue : pass.inventory.QueueUpTo stoppable [])
    (finished : Forwards pass.inventory.Finished steps)
    (chain : pass.inventory.RollbackChain pass.previous steps) :
    ∃ done, Compensates stoppable pass steps next done := by
  induction steps generalizing pass with
  | nil =>
    cases Except.ok.inj loop
    exact ⟨[], .nil queue⟩
  | cons step rest ih =>
    obtain ⟨mid, turn, loop⟩ := rollbackLoop_cons loop
    have finishedRest : Forwards pass.inventory.Finished rest :=
      fun x member => finished x (mem_cons_of_mem _ member)
    rcases rollbackTurn_cases turn (by simp) with
      ⟨uncovered, missing, flag, rfl⟩ | ⟨covered, id, a, rollback, atRow, rfl⟩ |
      ⟨covered, absent, payload, rfl⟩
    · cases chain with
      | pass _ missing tail =>
        obtain ⟨done, extension⟩ := ih loop queue finishedRest tail
        exact ⟨_, .pass uncovered (finished step (mem_cons_self ..)) missing flag extension⟩
      | link covered _ _ _ _ _ => simp [covered] at uncovered
    · cases chain with
      | pass uncovered _ _ => simp [covered] at uncovered
      | link _ atId atB server prior tail =>
        cases atId.symm.trans rollback
        cases atB.symm.trans atRow
        obtain ⟨done, extension⟩ := ih loop queue finishedRest tail
        exact ⟨_, .keep covered rollback atRow server prior extension⟩
    · cases chain with
      | pass uncovered _ _ => simp [covered] at uncovered
      | link _ atId atB _ _ _ => simp [commandAt, atId, atB] at absent

end Inventory

end OpenNode
