import OpenNode.QueueInvariant

namespace OpenNode

open Inventory

/-- The statuses in which a change set keeps its servers reserved. -/
def ChangeSetStatus.holds : ChangeSetStatus → Bool
  | .dispatched | .failed | .rollbackQueued | .rollbackFailed | .rollbackIncomplete => true
  | _ => false

namespace Inventory

/-- The forward commands of the steps exist, each on the server of its step
and behind the one before. -/
inductive ForwardChain (s : Inventory) : Option CommandId → List ChangeStep → Prop
  | nil {previous} : ForwardChain s previous []
  | link {previous step rest id a} :
      step.forwardCommandId = some id → s.commands[id]? = some a → a.serverId = step.serverId →
      a.dependsOn = previous → ForwardChain s (some id) rest → ForwardChain s previous (step :: rest)

/-- Whether the compensation loop gives a step a compensator. -/
def compensated (s : Inventory) (step : ChangeStep) : Bool :=
  (s.commandAt step.forwardCommandId).any Command.attempted && step.rollback.isSome

/-- Each compensated step has a compensator, behind that of the compensated
step before, and the other steps have none. -/
inductive RollbackChain (s : Inventory) : Option CommandId → List ChangeStep → Prop
  | nil {previous} : RollbackChain s previous []
  | pass {previous step rest} :
      s.compensated step = false → step.rollbackCommandId = none → RollbackChain s previous rest →
      RollbackChain s previous (step :: rest)
  | link {previous step rest id a} :
      s.compensated step = true → step.rollbackCommandId = some id → s.commands[id]? = some a →
      a.serverId = step.serverId → a.dependsOn = previous → RollbackChain s (some id) rest →
      RollbackChain s previous (step :: rest)

/-- A chain of successful compensators that the loop can extend: no step
after the first missing compensator has one. -/
inductive Resumes (s : Inventory) : Option CommandId → List ChangeStep → Prop
  | fresh {previous steps} : (∀ step ∈ steps, step.rollbackCommandId = none) → Resumes s previous steps
  | pass {previous step rest} :
      s.compensated step = false → step.rollbackCommandId = none → Resumes s previous rest →
      Resumes s previous (step :: rest)
  | link {previous step rest id a} :
      s.compensated step = true → step.rollbackCommandId = some id → s.commands[id]? = some a →
      a.status = .succeeded → a.serverId = step.serverId → a.dependsOn = previous →
      Resumes s (some id) rest → Resumes s previous (step :: rest)

/-- Every forward command of the steps satisfies `P`. -/
def Forwards (P : CommandId → Prop) (steps : List ChangeStep) : Prop :=
  ∀ step ∈ steps, ∀ id, step.forwardCommandId = some id → P id

/-- Every current compensator of the steps satisfies `P`. -/
def Rollbacks (P : CommandId → Prop) (steps : List ChangeStep) : Prop :=
  ∀ step ∈ steps, ∀ id, step.rollbackCommandId = some id → P id

/-- The command is finished or in the hands of an Agent. -/
def Settling (s : Inventory) (id : CommandId) : Prop :=
  ∃ a, s.commands[id]? = some a ∧ (a.status.terminal = true ∨ 0 < a.attempts)

def Succeeded (s : Inventory) (id : CommandId) : Prop :=
  s.statusOf id = some .succeeded

/-- No compensator was ever created. -/
def Unbegun (steps : List ChangeStep) : Prop :=
  ∀ step ∈ steps, step.rollbackCommandId = none ∧ step.rollbackHistoryIds = []

/-- Compensation starts when the forward commands are finished, and then
covers every attempted step that has a compensator. -/
structure Begun (s : Inventory) (steps : List ChangeStep) : Prop where
  forwards : Forwards s.Finished steps
  chain : s.RollbackChain none steps.reverse

/-- The outcome kept of a compensator that a retry replaced. -/
def History (s : Inventory) (steps : List ChangeStep) : Prop :=
  ∀ step ∈ steps, ∀ id ∈ step.rollbackHistoryIds,
    (∃ a, s.commands[id]? = some a ∧ (a.status = .failed ∨ a.status = .skipped)) ∧
      s.compensated step = true

/-- What each status of a change set says about its commands. -/
def Stands (s : Inventory) (change : ChangeSet) : Prop :=
  match change.status with
  | .planned | .cancelled =>
    (∀ step ∈ change.steps, step.forwardCommandId = none) ∧ Unbegun change.steps
  | .dispatched => s.ForwardChain none change.steps ∧ Unbegun change.steps
  | .failed =>
    s.ForwardChain none change.steps ∧ Unbegun change.steps ∧ Forwards s.Settling change.steps
  | .succeeded =>
    s.ForwardChain none change.steps ∧ Unbegun change.steps ∧ Forwards s.Succeeded change.steps
  | .rollbackQueued =>
    s.ForwardChain none change.steps ∧ Forwards s.Settling change.steps ∧
      (Unbegun change.steps ∨ s.Begun change.steps)
  | .rollbackFailed =>
    s.ForwardChain none change.steps ∧ s.Begun change.steps ∧ Rollbacks s.Finished change.steps
  | .rollbackIncomplete =>
    s.ForwardChain none change.steps ∧ s.Begun change.steps ∧ Rollbacks s.Succeeded change.steps
  | .rolledBack =>
    s.ForwardChain none change.steps ∧ s.Begun change.steps ∧ Rollbacks s.Succeeded change.steps ∧
      ∀ step ∈ change.steps, (s.commandAt step.forwardCommandId).any Command.attempted = true →
        step.rollback.isSome = true
  | .accepted =>
    s.ForwardChain none change.steps ∧ Forwards s.Finished change.steps ∧
      (Unbegun change.steps ∨ s.Begun change.steps) ∧ Rollbacks s.Finished change.steps
  | .needsReview => False

structure ChangeInvariant (s : Inventory) (change : ChangeSet) : Prop where
  version : change.coordinationVersion = 1
  kept : change.archivedSteps = false
  history : s.History change.steps
  stands : s.Stands change

section Stability

variable {s t : Inventory} {previous : Option CommandId} {steps : List ChangeStep}

variable {id : Option CommandId}

theorem commandAt_any {p : Command → Bool} :
    (s.commandAt id).any p = true ↔ ∃ k a, id = some k ∧ s.commands[k]? = some a ∧ p a = true := by
  cases id with
  | none => simp [commandAt]
  | some k => simp [commandAt, Option.any_eq_true]

theorem Evolves.attempted (evolves : s.Evolves t) (tried : (s.commandAt id).any Command.attempted = true) :
    (t.commandAt id).any Command.attempted = true := by
  obtain ⟨k, a, rfl, atRow, tried⟩ := commandAt_any.mp tried
  obtain ⟨b, atNew, change⟩ := evolves k a atRow
  exact commandAt_any.mpr ⟨k, b, rfl, atNew, change.attempted tried⟩

variable {step : ChangeStep}

theorem Evolves.compensated (evolves : s.Evolves t) (covered : s.compensated step = true) :
    t.compensated step = true := by
  simp only [Inventory.compensated, Bool.and_eq_true] at covered ⊢
  exact ⟨evolves.attempted covered.1, covered.2⟩

theorem Evolves.commandAt_finished (evolves : s.Evolves t)
    (finished : ∀ id, step.forwardCommandId = some id → s.Finished id) :
    t.commandAt step.forwardCommandId = s.commandAt step.forwardCommandId := by
  cases sent : step.forwardCommandId with
  | none => rfl
  | some id =>
    obtain ⟨a, atRow, done⟩ := finished id sent
    simp only [commandAt, Option.bind_some]
    rw [atRow, evolves.terminal atRow done]

theorem Evolves.forwardChain (evolves : s.Evolves t) (chain : s.ForwardChain previous steps) :
    t.ForwardChain previous steps := by
  induction chain with
  | nil => exact .nil
  | link sent atRow server prior _ ih =>
    obtain ⟨b, atNew, change⟩ := evolves _ _ atRow
    exact .link sent atNew (change.serverId.trans server) (change.dependsOn.trans prior) ih

theorem Evolves.compensated_eq (evolves : s.Evolves t)
    (finished : ∀ id, step.forwardCommandId = some id → s.Finished id) :
    t.compensated step = s.compensated step := by
  simp only [Inventory.compensated, evolves.commandAt_finished finished]

theorem Evolves.rollbackChain (evolves : s.Evolves t) (finished : Forwards s.Finished steps)
    (chain : s.RollbackChain previous steps) : t.RollbackChain previous steps := by
  induction chain with
  | nil => exact .nil
  | @pass _ step _ uncovered missing _ ih =>
    refine .pass ?_ missing (ih fun step member => finished step (List.mem_cons_of_mem _ member))
    rw [evolves.compensated_eq (finished step (List.mem_cons_self ..)), uncovered]
  | @link _ step _ id a covered atId atRow server prior _ ih =>
    obtain ⟨b, atNew, change⟩ := evolves _ _ atRow
    refine .link ?_ atId atNew (change.serverId.trans server) (change.dependsOn.trans prior)
      (ih fun step member => finished step (List.mem_cons_of_mem _ member))
    rw [evolves.compensated_eq (finished step (List.mem_cons_self ..)), covered]

variable {P : CommandId → Prop}

theorem Forwards.imp {Q : CommandId → Prop} (all : Forwards P steps) (weaken : ∀ id, P id → Q id) :
    Forwards Q steps :=
  fun step member id link => weaken id (all step member id link)

theorem Rollbacks.imp {Q : CommandId → Prop} (all : Rollbacks P steps) (weaken : ∀ id, P id → Q id) :
    Rollbacks Q steps :=
  fun step member id link => weaken id (all step member id link)

theorem Forwards.reverse (all : Forwards P steps) : Forwards P steps.reverse :=
  fun step member => all step (List.mem_reverse.mp member)

theorem Evolves.settling (evolves : s.Evolves t) {id : CommandId} (settling : s.Settling id) :
    t.Settling id := by
  obtain ⟨a, atRow, done | sent⟩ := settling
  · exact ⟨a, evolves.terminal atRow done, .inl done⟩
  · obtain ⟨b, atNew, change⟩ := evolves id a atRow
    exact ⟨b, atNew, .inr (Nat.lt_of_lt_of_le sent change.attempts)⟩

theorem Evolves.succeeded (evolves : s.Evolves t) {id : CommandId} (succeeded : s.Succeeded id) :
    t.Succeeded id :=
  evolves.statusOf succeeded rfl

theorem Succeeded.finished {id : CommandId} (succeeded : s.Succeeded id) : s.Finished id :=
  finished_of_statusOf succeeded rfl

theorem Finished.settling {id : CommandId} (finished : s.Finished id) : s.Settling id := by
  obtain ⟨a, atRow, done⟩ := finished
  exact ⟨a, atRow, .inl done⟩

theorem Evolves.begun (evolves : s.Evolves t) (begun : s.Begun steps) : t.Begun steps where
  forwards := begun.forwards.imp fun _ => evolves.finished
  chain := evolves.rollbackChain begun.forwards.reverse begun.chain

theorem Evolves.history (evolves : s.Evolves t) (history : s.History steps) : t.History steps := by
  intro step member id old
  obtain ⟨⟨a, atRow, status⟩, covered⟩ := history step member id old
  refine ⟨⟨a, evolves.terminal atRow ?_, status⟩, evolves.compensated covered⟩
  rcases status with h | h <;> simp [h, CommandStatus.terminal]

theorem Evolves.stands (evolves : s.Evolves t) {change : ChangeSet} (stands : s.Stands change) :
    t.Stands change := by
  have settling : Forwards s.Settling change.steps → Forwards t.Settling change.steps :=
    fun all => all.imp fun _ => evolves.settling
  have done : Rollbacks s.Succeeded change.steps → Rollbacks t.Succeeded change.steps :=
    fun all => all.imp fun _ => evolves.succeeded
  unfold Stands at stands ⊢
  cases status : change.status <;> simp only [status] at stands ⊢
  case planned => exact stands
  case cancelled => exact stands
  case dispatched => exact ⟨evolves.forwardChain stands.1, stands.2⟩
  case failed => exact ⟨evolves.forwardChain stands.1, stands.2.1, settling stands.2.2⟩
  case succeeded =>
    exact ⟨evolves.forwardChain stands.1, stands.2.1, stands.2.2.imp fun _ => evolves.succeeded⟩
  case rollbackQueued =>
    exact ⟨evolves.forwardChain stands.1, settling stands.2.1, stands.2.2.imp id evolves.begun⟩
  case rollbackFailed =>
    exact ⟨evolves.forwardChain stands.1, evolves.begun stands.2.1, stands.2.2.imp fun _ => evolves.finished⟩
  case rollbackIncomplete =>
    exact ⟨evolves.forwardChain stands.1, evolves.begun stands.2.1, done stands.2.2⟩
  case rolledBack =>
    obtain ⟨forward, begun, succeeded, covered⟩ := stands
    refine ⟨evolves.forwardChain forward, evolves.begun begun, done succeeded, ?_⟩
    intro step member tried
    refine covered step member ?_
    rwa [evolves.commandAt_finished (begun.forwards step member)] at tried
  case accepted =>
    exact ⟨evolves.forwardChain stands.1, stands.2.1.imp fun _ => evolves.finished,
      stands.2.2.1.imp id evolves.begun, stands.2.2.2.imp fun _ => evolves.finished⟩

theorem ChangeInvariant.evolves {change : ChangeSet} (invariant : s.ChangeInvariant change)
    (evolves : s.Evolves t) : t.ChangeInvariant change where
  version := invariant.version
  kept := invariant.kept
  history := evolves.history invariant.history
  stands := evolves.stands invariant.stands

end Stability

end Inventory

end OpenNode
