import OpenNode.Reachability

namespace OpenNode

open Inventory

namespace Inventory

variable {env : Env} {s t : Inventory} {now : Time} {c : ChangeSetId} {k : CommandId}

variable {change : ChangeSet} {a : Command}

theorem SystemInvariant.live_step (invariant : s.SystemInvariant) (atChange : s.changes[c]? = some change)
    (atRow : s.commands[k]? = some a) (live : a.status.terminal = false) (member : k ∈ commandIds change.steps) :
    change.status.holds = true ∧ a.serverId ∈ targets change.steps := by
  have mine := invariant.changes atChange
  have stands := mine.stands
  obtain ⟨step, atStep, place⟩ := commandIds_mem.mp member
  have alive : s.Live k := ⟨a, atRow, live⟩
  have unfinished : ¬ s.Finished k := alive.not_finished
  have here : a.serverId = step.serverId → a.serverId ∈ targets change.steps := by
    intro same
    exact List.mem_map.mpr ⟨step, atStep, same.symm⟩
  have chained : s.ForwardChain none change.steps → step.forwardCommandId = some k →
      a.serverId ∈ targets change.steps := by
    intro chain sent
    obtain ⟨b, atB, server⟩ := chain.row atStep sent
    cases atRow.symm.trans atB
    exact here server
  have compensator : s.Begun change.steps → step.rollbackCommandId = some k →
      a.serverId ∈ targets change.steps := by
    intro begun rollback
    obtain ⟨b, atB, server⟩ := begun.chain.row (List.mem_reverse.mpr atStep) rollback
    cases atRow.symm.trans atB
    exact here server
  have replaced : k ∈ step.rollbackHistoryIds → False := fun old =>
    unfinished (Lost.finished (mine.history step atStep k old).1)
  unfold Stands at stands
  cases status : change.status <;> simp only [status] at stands
  case planned =>
    rcases place with sent | rollback | old
    · simp [stands.1 step atStep] at sent
    · simp [(stands.2 step atStep).1] at rollback
    · exact (replaced old).elim
  case cancelled =>
    rcases place with sent | rollback | old
    · simp [stands.1 step atStep] at sent
    · simp [(stands.2 step atStep).1] at rollback
    · exact (replaced old).elim
  case dispatched =>
    refine ⟨rfl, ?_⟩
    rcases place with sent | rollback | old
    · exact chained stands.1 sent
    · simp [(stands.2 step atStep).1] at rollback
    · exact (replaced old).elim
  case failed =>
    refine ⟨rfl, ?_⟩
    rcases place with sent | rollback | old
    · exact chained stands.1 sent
    · simp [(stands.2.1 step atStep).1] at rollback
    · exact (replaced old).elim
  case succeeded =>
    rcases place with sent | rollback | old
    · exact absurd (stands.2.2 step atStep k sent).finished unfinished
    · simp [(stands.2.1 step atStep).1] at rollback
    · exact (replaced old).elim
  case rollbackQueued =>
    refine ⟨rfl, ?_⟩
    rcases place with sent | rollback | old
    · exact chained stands.1 sent
    · rcases stands.2.2 with unbegun | begun
      · simp [(unbegun step atStep).1] at rollback
      · exact compensator begun rollback
    · exact (replaced old).elim
  case rollbackFailed =>
    refine ⟨rfl, ?_⟩
    rcases place with sent | rollback | old
    · exact chained stands.1 sent
    · exact compensator stands.2.1 rollback
    · exact (replaced old).elim
  case rollbackIncomplete =>
    refine ⟨rfl, ?_⟩
    rcases place with sent | rollback | old
    · exact chained stands.1 sent
    · exact compensator stands.2.1 rollback
    · exact (replaced old).elim
  case rolledBack =>
    rcases place with sent | rollback | old
    · exact absurd (stands.2.1.forwards step atStep k sent) unfinished
    · exact absurd (stands.2.2.1 step atStep k rollback).finished unfinished
    · exact (replaced old).elim
  case accepted =>
    rcases place with sent | rollback | old
    · exact absurd (stands.2.1 step atStep k sent) unfinished
    · exact absurd (stands.2.2.2 step atStep k rollback) unfinished
    · exact (replaced old).elim

theorem SystemInvariant.live_locked (invariant : s.SystemInvariant) (mine : s.Owns c k)
    (atRow : s.commands[k]? = some a) (live : a.status.terminal = false) :
    s.lock? a.serverId = some ⟨a.serverId, c⟩ := by
  obtain ⟨change, atChange, member⟩ := mine
  obtain ⟨holds, target⟩ := invariant.live_step atChange atRow live member
  exact invariant.framework.locks.lock? (invariant.framework.locks.held.mpr ⟨change, atChange, holds, target⟩)

theorem SystemInvariant.canLease_cases (invariant : s.SystemInvariant) (atRow : s.commands[k]? = some a)
    (live : a.status.terminal = false) (allowed : s.canLease k a = true) :
    (s.lock? a.serverId = none ∧ ∀ c, ¬ s.Owns c k) ∨
    (∃ c change, s.lock? a.serverId = some ⟨a.serverId, c⟩ ∧ s.changes[c]? = some change ∧
      s.Owns c k ∧ (a.inFlight = true ∨ s.externalInFlight change.steps = [])) ∨
    (∃ c change, s.lock? a.serverId = some ⟨a.serverId, c⟩ ∧ s.changes[c]? = some change ∧
      ¬ s.Owns c k ∧ s.draining a (commandIds change.steps) = true) := by
  have version : ((s.owner k).bind fun c => s.changes[c]?).any (·.coordinationVersion == 0) = false := by
    rw [Bool.eq_false_iff]
    intro old
    obtain ⟨change, atChange, zero⟩ := (Option.any_eq_true _ _).mp old
    obtain ⟨c, _, atChange⟩ := Option.bind_eq_some_iff.mp atChange
    have one := (invariant.changes atChange).version
    simp [one] at zero
  have legacy : (s.changes.filter (·.status == .needsReview)).flatMap (fun change =>
      change.steps.filter (·.serverId == a.serverId)) = [] := by
    rw [List.flatMap_eq_nil_iff]
    intro change member
    obtain ⟨member, review⟩ := List.mem_filter.mp member
    obtain ⟨c, atChange⟩ := List.mem_iff_getElem?.mp member
    have stands := (invariant.changes atChange).stands
    simp [Stands, beq_iff_eq.mp review] at stands
  unfold canLease at allowed
  simp only [version, legacy, List.isEmpty_nil, Bool.not_true, Bool.false_eq_true, if_false] at allowed
  have alive : s.Live k := ⟨a, atRow, live⟩
  cases held : s.lock? a.serverId with
  | none =>
    simp only [held, Option.isNone_iff_eq_none] at allowed
    refine .inl ⟨rfl, fun c mine => ?_⟩
    rw [invariant.owner_of_owns mine alive] at allowed
    cases allowed
  | some lock =>
    obtain ⟨member, server⟩ := lock?_eq_some held
    obtain ⟨here, c⟩ := lock
    simp only at server
    subst server
    obtain ⟨change, atChange, _⟩ := invariant.framework.locks.held.mp member
    simp only [held, atChange] at allowed
    right
    by_cases mine : s.Owns c k
    · left
      have owner := invariant.owner_of_owns mine alive
      simp only [owner, if_true, Option.bind_some, atChange, Option.any_some, Bool.and_eq_true,
        Bool.or_eq_true, List.isEmpty_iff] at allowed
      exact ⟨c, change, rfl, atChange, mine, allowed.2⟩
    · right
      have owner : s.owner k ≠ some c := by
        intro owner
        obtain ⟨bound, hit, _⟩ := List.findIdx?_eq_some_iff_getElem.mp owner
        obtain ⟨step, atStep, refers⟩ := List.any_eq_true.mp hit
        refine mine ⟨s.changes[c], List.getElem?_eq_getElem bound, commandIds_mem.mpr ⟨step, atStep, ?_⟩⟩
        simp only [ChangeStep.refers, Bool.or_eq_true, beq_iff_eq] at refers
        exact refers.imp (fun h => h) .inl
      rw [if_neg owner] at allowed
      exact ⟨c, change, rfl, atChange, mine, by simpa using allowed⟩

section Ancestors

/-- The command has an attempted command among those it waits for. -/
def BehindAttempted (s : Inventory) (id : CommandId) : Prop :=
  ∃ q b, Prerequisites.Above s.prerequisite q id ∧ s.commands[q]? = some b ∧ b.attempted = true

variable {id : CommandId}

theorem attemptedAncestor_sound {fuel : Nat} {seen : List CommandId}
    (found : s.attemptedAncestor fuel seen (s.prerequisite id) = true) : s.BehindAttempted id := by
  induction fuel generalizing seen id with
  | zero => simp [attemptedAncestor] at found
  | succ fuel ih =>
    cases link : s.prerequisite id with
    | none => simp [attemptedAncestor, link] at found
    | some p =>
      rw [link, attemptedAncestor] at found
      split at found
      · cases found
      · split at found
        · cases found
        · rename_i b atP
          by_cases tried : b.attempted = true
          · exact ⟨p, b, .single link, atP, tried⟩
          · simp only [tried, Bool.false_or, ← prerequisite_eq atP] at found
            obtain ⟨q, x, above, atQ, tried⟩ := ih found
            exact ⟨q, x, above.tail link, atQ, tried⟩

variable {stoppable : CommandId → Prop} {stack : List CommandId}

theorem QueueUpTo.above_lt (queue : s.QueueUpTo stoppable stack) {q : CommandId}
    (above : Prerequisites.Above s.prerequisite q id) : q < id := by
  have link : ∀ {p i}, s.prerequisite i = some p → p < i := by
    intro p i prior
    obtain ⟨a, atRow, prior⟩ := Option.bind_eq_some_iff.mp prior
    exact queue.earlier atRow prior
  induction above with
  | single prior => exact link prior
  | tail _ prior ih => exact Nat.lt_trans ih (link prior)

theorem attemptedAncestor_complete (fuel : Nat) (seen : List CommandId) (queue : s.QueueUpTo stoppable stack)
    (enough : id ≤ fuel) (clear : ∀ x, Prerequisites.Above s.prerequisite x id → x ∉ seen)
    (behind : s.BehindAttempted id) : s.attemptedAncestor fuel seen (s.prerequisite id) = true := by
  induction fuel generalizing seen id with
  | zero =>
    obtain ⟨q, _, above, _⟩ := behind
    exact absurd (Nat.lt_of_lt_of_le (queue.above_lt above) enough) (Nat.not_lt_zero _)
  | succ fuel ih =>
    obtain ⟨q, b, above, atQ, tried⟩ := behind
    obtain ⟨p, upper, link⟩ : ∃ p, (q = p ∨ Prerequisites.Above s.prerequisite q p) ∧
      s.prerequisite id = some p := by
      cases above with
      | single link => exact ⟨q, .inl rfl, link⟩
      | tail above link => exact ⟨_, .inr above, link⟩
    have lower := queue.above_lt (.single link)
    have atP : ∃ x, s.commands[p]? = some x := by
      rcases upper with rfl | above
      · exact ⟨b, atQ⟩
      · obtain ⟨m, _, prior⟩ := Relation.TransGen.tail'_iff.mp above
        obtain ⟨x, atP, _⟩ := Option.bind_eq_some_iff.mp prior
        exact ⟨x, atP⟩
    obtain ⟨x, atP⟩ := atP
    rw [link, attemptedAncestor, if_neg (clear p (.single link))]
    simp only [atP, Bool.or_eq_true]
    by_cases mine : x.attempted = true
    · exact .inl mine
    · right
      rw [← prerequisite_eq atP]
      refine ih (p :: seen) (Nat.le_of_lt_succ (Nat.lt_of_lt_of_le lower enough)) ?_ ?_
      · intro y above'
        simp only [List.mem_cons, not_or]
        exact ⟨Nat.ne_of_lt (queue.above_lt above'), clear y (above'.tail link)⟩
      · rcases upper with rfl | above
        · cases atP.symm.trans atQ
          exact absurd tried mine
        · exact ⟨q, b, above, atQ, tried⟩

theorem Ownership.above (ownership : s.Ownership) {q id : CommandId}
    (above : Prerequisites.Above s.prerequisite q id) :
    (∃ c, s.Owns c id ∧ s.Owns c q) ∨ ((∀ c, ¬ s.Owns c id ∧ ¬ s.Owns c q) ∧
        (s.commands[q]?).map Command.serverId = (s.commands[id]?).map Command.serverId) := by
  have link : ∀ {p i}, s.prerequisite i = some p → (∃ c, s.Owns c i ∧ s.Owns c p) ∨
      ((∀ c, ¬ s.Owns c i ∧ ¬ s.Owns c p) ∧
        (s.commands[p]?).map Command.serverId = (s.commands[i]?).map Command.serverId) := by
    intro p i prior
    obtain ⟨a, atRow, prior⟩ := Option.bind_eq_some_iff.mp prior
    rcases ownership.linked atRow prior with family | ⟨free, b, atP, server⟩
    · exact .inl family
    · exact .inr ⟨free, by simp [atRow, atP, server]⟩
  induction above with
  | single prior => exact link prior
  | tail _ prior ih =>
    rcases link prior with ⟨c, mine, theirs⟩ | ⟨free, server⟩
    · rcases ih with ⟨d, first, second⟩ | ⟨free, _⟩
      · exact .inl ⟨c, mine, ownership.exclusive theirs first ▸ second⟩
      · exact absurd theirs (free c).1
    · rcases ih with ⟨d, first, second⟩ | ⟨free', server'⟩
      · exact absurd first (free d).2
      · exact .inr ⟨fun d => ⟨(free d).1, (free' d).2⟩, server'.trans server⟩

end Ancestors

/-- No foreign command on the target servers is under way or continues
attempted work. -/
def Exclusive (s : Inventory) (c : ChangeSetId) (servers : List ServerId) : Prop :=
  ∀ (m : CommandId) (a : Command), s.commands[m]? = some a → a.serverId ∈ servers → ¬ s.Owns c m →
    a.status.terminal = false → a.attempts = 0 ∧ ¬ s.BehindAttempted m

theorem SystemInvariant.exclusive_of_idle (invariant : s.SystemInvariant) (atChange : s.changes[c]? = some change)
    (drained : s.externalInFlight change.steps = []) :
    s.Exclusive c (targets change.steps) := by
  intro m a atRow target foreign live
  have outside : m ∉ commandIds change.steps := fun member => foreign ⟨change, atChange, member⟩
  have calm := List.filter_eq_nil_iff.mp drained m (List.mem_range.mpr (Table.row_lt atRow))
  simp only [atRow, Option.any_some, blocks, live, Bool.not_false, Bool.and_true, Bool.and_eq_true,
    List.contains_iff_mem, target, Bool.not_eq_true', not_and, true_and] at calm
  have quiet : s.draining a (commandIds change.steps) = false := by
    simpa [outside] using calm
  simp only [draining, Bool.or_eq_false_iff] at quiet
  constructor
  · have idle := quiet.1
    simp only [Command.inFlight, live, Bool.not_false, Bool.true_and, decide_eq_false_iff_not] at idle
    omega
  · intro behind
    have found := attemptedAncestor_complete (s.commands.length + 1)
      (commandIds change.steps) invariant.framework.queue
      (Nat.le_succ_of_le (Nat.le_of_lt (Table.row_lt atRow))) ?_ behind
    · rw [prerequisite_eq atRow] at found
      rw [found] at quiet
      cases quiet.2
    · intro x above member
      rcases invariant.framework.ownership.above above with ⟨d, mine, theirs⟩ | ⟨free, _⟩
      · have same := invariant.framework.ownership.exclusive theirs ⟨change, atChange, member⟩
        exact foreign (same ▸ mine)
      · exact (free c).2 ⟨change, atChange, member⟩

theorem Exclusive.not_leased {servers : List ServerId} (exclusive : s.Exclusive c servers)
    (invariant : s.SystemInvariant) (atRow : s.commands[k]? = some a) (target : a.serverId ∈ servers)
    (locked : s.lock? a.serverId = some ⟨a.serverId, c⟩) (foreign : ¬ s.Owns c k)
    (candidate : a.isLeaseCandidate now = true) : s.canLease k a ≠ true := by
  intro allowed
  have live := running_live (candidate_running candidate)
  obtain ⟨idle, ahead⟩ := exclusive k a atRow target foreign live
  rcases invariant.canLease_cases atRow live allowed with
    ⟨free, _⟩ | ⟨d, _, held, _, mine, _⟩ | ⟨d, change, held, atChange, _, draining⟩
  · rw [locked] at free
    cases free
  · rw [locked] at held
    cases held
    exact foreign mine
  · simp only [Inventory.draining, Bool.or_eq_true, Command.inFlight, idle] at draining
    rcases draining with flying | behind
    · simp at flying
    · rw [← prerequisite_eq atRow] at behind
      exact ahead (attemptedAncestor_sound behind)

end Inventory

end OpenNode
