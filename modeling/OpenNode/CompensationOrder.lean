import OpenNode.Exclusion
import OpenNode.OutcomeLaw

namespace OpenNode

open Inventory List

namespace Inventory

variable {env : Env} {s t : Inventory} {now : Time} {operation : Operation} {c : ChangeSetId} {change : ChangeSet}

variable {previous : Option CommandId} {steps : List ChangeStep}

theorem ForwardChain.adjacent (chain : s.ForwardChain previous steps) {i : Nat} {x y : ChangeStep} {f g : CommandId}
    (atX : steps[i]? = some x) (atY : steps[i + 1]? = some y) (first : x.forwardCommandId = some f)
    (second : y.forwardCommandId = some g) :
    ∃ a, s.commands[g]? = some a ∧ a.dependsOn = some f := by
  induction chain generalizing i with
  | nil => simp at atX
  | @link _ step rest id _ sent _ _ _ tail ih =>
    cases i with
    | zero =>
      simp only [List.getElem?_cons_zero, Option.some.injEq] at atX
      subst atX
      cases sent.symm.trans first
      cases tail with
      | nil => simp at atY
      | @link _ _ _ _ b sent' atRow _ prior _ =>
        simp only [Nat.zero_add, List.getElem?_cons_succ, List.getElem?_cons_zero, Option.some.injEq] at atY
        subst atY
        cases sent'.symm.trans second
        exact ⟨b, atRow, prior⟩
    | succ i => exact ih (by simpa using atX) (by simpa using atY)

variable {step : ChangeStep}

theorem ForwardChain.exists_forward (chain : s.ForwardChain previous steps) (member : step ∈ steps) :
    ∃ id, step.forwardCommandId = some id := by
  induction chain with
  | nil => simp at member
  | @link _ _ _ id _ sent _ _ _ _ ih =>
    rcases List.mem_cons.mp member with rfl | tail
    · exact ⟨id, sent⟩
    · exact ih tail

theorem ChangeInvariant.forwardChain (invariant : s.ChangeInvariant change) (member : step ∈ change.steps)
    (sent : step.forwardCommandId.isSome = true) :
    s.ForwardChain none change.steps := by
  have stands := invariant.stands
  unfold Stands at stands
  cases status : change.status <;> simp only [status] at stands
  case planned => simp [stands.1 step member] at sent
  case cancelled => simp [stands.1 step member] at sent
  all_goals exact stands.1

variable {id : CommandId}

theorem ChangeInvariant.begun (invariant : s.ChangeInvariant change) (member : step ∈ change.steps)
    (rollback : step.rollbackCommandId = some id) :
    s.Begun change.steps := by
  have stands := invariant.stands
  have refuted : Unbegun change.steps → s.Begun change.steps := by
    intro unbegun
    simp [(unbegun step member).1] at rollback
  unfold Stands at stands
  cases status : change.status <;> simp only [status] at stands
  case planned => exact refuted stands.2
  case cancelled => exact refuted stands.2
  case dispatched => exact refuted stands.2
  case failed => exact refuted stands.2.1
  case succeeded => exact refuted stands.2.1
  case rollbackQueued => exact stands.2.2.elim refuted (fun h => h)
  case rollbackFailed => exact stands.2.1
  case rollbackIncomplete => exact stands.2.1
  case rolledBack => exact stands.2.1
  case accepted => exact stands.2.2.1.elim refuted (fun h => h)

theorem ChangeInvariant.leased_current (invariant : s.ChangeInvariant change)
    (effect : Effect env now operation s t)
    (member : step ∈ change.steps) (compensator : id ∈ step.compensators) (granted : s.LeaseGranted t id) :
    step.rollbackCommandId = some id := by
  simp only [ChangeStep.compensators, mem_append, Option.mem_toList] at compensator
  rcases compensator with current | old
  · exact current
  · exact absurd granted (effect.finished_not_leased (Lost.finished (invariant.history step member id old).1))

theorem Effect.leased_row (effect : Effect env now operation s t) (granted : s.LeaseGranted t id) :
    ∃ a, s.commands[id]? = some a ∧ a.status ≠ .waiting ∧ a.status ≠ .skipped := by
  obtain ⟨a, atRow, candidate, _⟩ := effect.leaseGranted granted
  refine ⟨a, atRow, ?_⟩
  rcases candidate_running candidate with h | h <;> simp [h]

theorem Begun.later_succeeded (begun : s.Begun steps) (queue : s.QueueInvariant) {i j : Nat} {x y : ChangeStep}
    {a : Command} (atX : steps[i]? = some x) (rollback : x.rollbackCommandId = some id)
    (atRow : s.commands[id]? = some a) (started : a.status ≠ .waiting) (kept : a.status ≠ .skipped) (later : i < j)
    (atY : steps[j]? = some y) (covered : s.compensated y = true) :
    ∃ q, y.rollbackCommandId = some q ∧ s.Succeeded q := by
  have chain := begun.chain
  have split : steps = steps.take i ++ x :: steps.drop (i + 1) := by
    obtain ⟨bound, value⟩ := List.getElem?_eq_some_iff.mp atX
    conv_lhs => rw [← take_append_drop i steps, drop_eq_getElem_cons bound, value]
  have member : y ∈ steps.drop (i + 1) := by
    refine mem_of_getElem? (i := j - (i + 1)) ?_
    rw [List.getElem?_drop]
    have index : i + 1 + (j - (i + 1)) = j := by omega
    rw [index, atY]
  rw [split, reverse_append, reverse_cons, append_assoc, singleton_append] at chain
  exact chain.before_succeeded queue rollback atRow started kept (List.mem_reverse.mpr member) covered

theorem ChangeInvariant.succeeded_current (invariant : s.ChangeInvariant change) (member : step ∈ change.steps)
    (compensator : id ∈ step.compensators) (succeeded : s.Succeeded id) : step.rollbackCommandId = some id := by
  simp only [ChangeStep.compensators, mem_append, Option.mem_toList] at compensator
  rcases compensator with current | old
  · exact current
  · exact absurd succeeded (Lost.not_succeeded (invariant.history step member id old).1)

theorem SystemInvariant.compensated_sent (invariant : s.SystemInvariant) (atChange : s.changes[c]? = some change)
    (member : step ∈ change.steps) (compensator : id ∈ step.compensators) :
    ∃ f a, step.forwardCommandId = some f ∧ s.commands[f]? = some a ∧ 0 < a.attempts := by
  have mine := invariant.changes atChange
  have covered : s.compensated step = true := by
    simp only [ChangeStep.compensators, mem_append, Option.mem_toList] at compensator
    rcases compensator with current | old
    · exact (mine.begun member current).chain.covered (List.mem_reverse.mpr member) current
    · exact (mine.history step member id old).2
  simp only [compensated, Bool.and_eq_true] at covered
  obtain ⟨f, a, sent, atRow, tried⟩ := commandAt_any.mp covered.1
  refine ⟨f, a, sent, atRow, ?_⟩
  have owned : s.Owns c f := ⟨change, atChange, commandIds_mem.mpr ⟨step, member, .inl sent⟩⟩
  simp only [Command.attempted, Bool.or_eq_true, decide_eq_true_eq, beq_iff_eq] at tried
  rcases tried with (positive | succeeded) | failed
  · exact positive
  · exact invariant.framework.ownership.sent owned atRow (.inl succeeded)
  · exact invariant.framework.ownership.sent owned atRow (.inr failed)

end Inventory

variable {env : Env} {s : Inventory} {c : ChangeSetId} {change : ChangeSet}

/-- Order and completeness of a change set: forward commands run in order,
compensation starts when they are finished and never lets one start again,
compensators run in the reverse order, at most one per step succeeds and only
for a step that was handed out, and the two final statuses are complete. -/
theorem Reachable.compensation_order (reach : Reachable env s) (atChange : s.changes[c]? = some change) :
    (∀ (i : Nat) x y f g, change.steps[i]? = some x → change.steps[i + 1]? = some y →
      x.forwardCommandId = some f → y.forwardCommandId = some g → ∀ now operation,
      s.LeaseGranted (s.step env now operation) g → s.statusOf f = some .succeeded) ∧
    (∀ x ∈ change.steps, ∀ r ∈ x.compensators, ∀ now operation, s.LeaseGranted (s.step env now operation) r →
        (∀ y ∈ change.steps, ∀ f a, y.forwardCommandId = some f → s.commands[f]? = some a →
          a.attempted = true → a.status.terminal = true) ∧
        ∀ t, Run env (s.step env now operation) t → ∀ y ∈ change.steps, ∀ f,
          y.forwardCommandId = some f → ∀ later next, ¬ t.LeaseGranted (t.step env later next) f) ∧
    (∀ (i : Nat) x, change.steps[i]? = some x → ∀ r ∈ x.compensators, ∀ now operation,
      s.FirstLease (s.step env now operation) r → ∀ (j : Nat) y f a, i < j →
        change.steps[j]? = some y → y.forwardCommandId = some f → s.commands[f]? = some a →
        a.attempted = true → y.rollback.isSome = true →
        ∃ q, y.rollbackCommandId = some q ∧ s.statusOf q = some .succeeded) ∧
    (∀ (i : Nat) x, change.steps[i]? = some x →
      (∀ q ∈ x.compensators, s.statusOf q = some .succeeded → ∀ t, Run env s t → ∀ change' y,
        t.changes[c]? = some change' → change'.steps[i]? = some y → ∀ r ∈ y.compensators,
          t.statusOf r = some .succeeded → r = q) ∧
      (x.compensators ≠ [] → ∃ f a, x.forwardCommandId = some f ∧ s.commands[f]? = some a ∧ 0 < a.attempts)) ∧
    (change.status = .succeeded → ∀ x ∈ change.steps,
      ∃ f, x.forwardCommandId = some f ∧ s.statusOf f = some .succeeded) ∧
    (change.status = .rolledBack → ∀ x ∈ change.steps, ∀ f a, x.forwardCommandId = some f →
      s.commands[f]? = some a → a.attempted = true →
        ∃ q, x.rollbackCommandId = some q ∧ s.statusOf q = some .succeeded) := by
  have invariant := reach.system
  have mine := invariant.changes atChange
  have queue := invariant.framework.queue
  refine ⟨?_, ?_, ?_, ?_, ?_, ?_⟩
  · intro i x y f g atX atY first second now operation granted
    have chain := mine.forwardChain (mem_of_getElem? atX) (by simp [first])
    obtain ⟨a, atRow, prior⟩ := chain.adjacent atX atY first second
    obtain ⟨b, atB, started, kept⟩ := (step_keeps env invariant now operation).effect.leased_row granted
    cases atRow.symm.trans atB
    exact queue.ready atRow prior started kept
  · intro x atX r compensator now operation granted
    have keeps := step_keeps env invariant now operation
    have begun := mine.begun atX (mine.leased_current keeps.effect atX compensator granted)
    refine ⟨fun y atY f a sent atRow _ => ?_, fun t run y atY f sent later next => ?_⟩
    · obtain ⟨b, atB, done⟩ := begun.forwards y atY f sent
      cases atRow.symm.trans atB
      exact done
    · obtain ⟨system, progress⟩ := run.keeps keeps.system
      have finished := progress.evolves.finished (keeps.progress.evolves.finished
        (begun.forwards y atY f sent))
      exact (step_keeps env system later next).effect.finished_not_leased finished
  · intro i x atX r compensator now operation first j y f a later atY sent atRow tried plan
    have keeps := step_keeps env invariant now operation
    have member := mem_of_getElem? atX
    have current := mine.leased_current keeps.effect member compensator first.2
    obtain ⟨b, atB, started, kept⟩ := keeps.effect.leased_row first.2
    refine (mine.begun member current).later_succeeded queue atX current atB started kept later atY ?_
    simp [compensated, commandAt, sent, atRow, tried, plan]
  · intro i x atX
    have member := mem_of_getElem? atX
    constructor
    · intro q compensator succeeded t run change' y atNew atY r theirs success
      obtain ⟨system, progress⟩ := run.keeps invariant
      obtain ⟨other, atOther, grows, _⟩ := progress.changes atChange
      cases atNew.symm.trans atOther
      obtain ⟨z, atZ, change⟩ := Table.forall₂_row grows atX
      cases atY.symm.trans atZ
      have here := mem_of_getElem? atY
      have later := system.changes atNew
      have first := later.succeeded_current here (change.compensators q compensator)
        (progress.evolves.succeeded succeeded)
      have second := later.succeeded_current here theirs success
      exact Option.some.inj (second.symm.trans first)
    · intro present
      obtain ⟨id, compensator⟩ := exists_mem_of_ne_nil _ present
      exact invariant.compensated_sent atChange member compensator
  · intro status x atX
    have stands := mine.stands
    simp only [Stands, status] at stands
    obtain ⟨f, sent⟩ := stands.1.exists_forward atX
    exact ⟨f, sent, stands.2.2 x atX f sent⟩
  · intro status x atX f a sent atRow tried
    have stands := mine.stands
    simp only [Stands, status] at stands
    obtain ⟨_, begun, succeeded, covered⟩ := stands
    have attempted : (s.commandAt x.forwardCommandId).any Command.attempted = true := by
      simp [commandAt, sent, atRow, tried]
    have plan := covered x atX attempted
    obtain ⟨q, rollback⟩ := begun.chain.exists_rollback (List.mem_reverse.mpr atX)
      (by simp only [compensated, attempted, plan, Bool.and_self])
    exact ⟨q, rollback, succeeded x atX q rollback⟩

/-- When the second forward command of the reserved server's change set is
leased, the first has succeeded. -/
theorem reservedServer_compensation_order :
    (reservedServer.perform .unbounded [(5, .claim 0 {}), (6, .result 0 { status := 200 })]).statusOf 0 =
      some .succeeded := by
  obtain ⟨change, atChange⟩ : ∃ change, (reservedServer.perform .unbounded
      [(5, .claim 0 {}), (6, .result 0 { status := 200 })]).changes[0]? = some change :=
    Option.isSome_iff_exists.mp (by decide)
  have forwards : ((reservedServer.perform .unbounded
      [(5, .claim 0 {}), (6, .result 0 { status := 200 })]).changes[0]?).map (fun change =>
        change.steps.map ChangeStep.forwardCommandId) = some [some 0, some 1] := by decide
  rw [atChange, Option.map_some, Option.some.injEq] at forwards
  obtain ⟨x, rest, steps, first, forwards⟩ := List.map_eq_cons_iff.mp forwards
  obtain ⟨y, tail, rest', second, _⟩ := List.map_eq_cons_iff.mp forwards
  exact (Reachable.compensation_order (Run.perform reservedServer_reachable
    [(5, .claim 0 {}), (6, .result 0 { status := 200 })]) atChange).1 0 x y 0 1 (by simp [steps])
    (by simp [steps, rest']) first second 7 (.claim 1 {}) (by unfold LeaseGranted; decide)

end OpenNode
