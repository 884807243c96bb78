import OpenNode.Lib.Calendar
import OpenNode.TrafficArchive

namespace OpenNode

open Calendar List

/-- `ProductUserModel`, with what the due resets read. -/
structure QuotaUser where
  username : String
  isActive : Bool := true
  currentPlanId : Option String := none
  planStartedAt : Option Moment := none
  planExpiresAt : Option Moment := none
  isReset : Bool
  resetDay : Nat
  day_le : resetDay ≤ 31
  createdAt : Moment
  lastTrafficResetAt : Option Moment := none

/-- The year of a moment. -/
def yearOf (now : Moment) : Int := now.month / 12

/-- Its month, counted from one. -/
def monthOf (now : Moment) : Int := now.month % 12 + 1

/-- The moments that the source can build: those of the years 1 to 9999. -/
def IsDatetime (now : Moment) : Prop := 12 ≤ now.month ∧ now.month < 120000

instance (now : Moment) : Decidable (IsDatetime now) := inferInstanceAs (Decidable (_ ∧ _))

def monthDelta (year month delta : Int) : Int × Int :=
  let absolute := year * 12 + month - 1 + delta
  (absolute / 12, absolute % 12 + 1)

/-- `_monthly_reset_at`, which fails outside the years of the calendar. -/
def monthlyResetAt (year month : Int) (schedule : Monthly) : Option Moment :=
  if 1 ≤ year ∧ year ≤ 9999 then some (schedule.inMonth (year * 12 + month - 1).toNat) else none

namespace QuotaUser

/-- The boundaries of a user, at midnight. -/
def schedule (user : QuotaUser) : Option Monthly :=
  if on : user.isReset = true ∧ 0 < user.resetDay then
    some { day := user.resetDay, time := 0, real := ⟨on.2, user.day_le, by decide⟩ }
  else none

/-- `_subscription_reset_boundaries`. A month outside the calendar raises. -/
def boundaries (user : QuotaUser) (now : Moment) : Option (Option (Moment × Moment)) :=
  match user.schedule with
  | none => some none
  | some schedule => do
    let current ← monthlyResetAt (yearOf now) (monthOf now) schedule
    if current ≤ now then
      let next := monthDelta (yearOf now) (monthOf now) 1
      let following ← monthlyResetAt next.1 next.2 schedule
      return some (current, following)
    else
      let previous := monthDelta (yearOf now) (monthOf now) (-1)
      let before ← monthlyResetAt previous.1 previous.2 schedule
      return some (before, current)

def expired (user : QuotaUser) (now : Moment) : Bool := user.planExpiresAt.any (· < now)

def activeSince (user : QuotaUser) : Moment := user.planStartedAt.getD user.createdAt

/-- `session.get` of the plan of a user. -/
def hasPlan (user : QuotaUser) (plans : List String) : Bool := user.currentPlanId.any (· ∈ plans)

/-- `_subscription_reset_due`. -/
def resetDue (user : QuotaUser) (plan expired : Bool) (resetDueAt : Option Moment) : Bool :=
  match resetDueAt with
  | none => false
  | some due =>
    if !user.isActive || !plan || expired || !user.isReset then false
    else if due ≤ user.activeSince then false
    else user.lastTrafficResetAt.all (· < due)

/-- The turn of a user in the loop: whether a reset is due, unless its boundaries raise. -/
def due (user : QuotaUser) (plans : List String) (now : Moment) : Option Bool :=
  (user.boundaries now).map fun found =>
    user.resetDue (user.hasPlan plans) (user.expired now) (found.map Prod.fst)

/-- The user after `_reset_subscription_traffic_for_user`. -/
def reset (user : QuotaUser) (now : Moment) : QuotaUser :=
  { user with lastTrafficResetAt := some now }

end QuotaUser

/-- `SubscriptionDueTrafficResetSummary`. -/
structure ResetSummary where
  checkedUsers : Nat := 0
  resetUsers : Nat := 0
  skippedUsers : Nat := 0
  usernames : List String := []
  dryRun : Bool
deriving DecidableEq, Repr

/-- The tables of the due resets. -/
structure QuotaTables (W : Type) where
  users : List QuotaUser
  plans : List String
  charging : Charging W

/-- `SubscriptionDueTrafficResetRequest`. -/
structure DueRun where
  now : Moment
  dryRun : Bool := false

namespace QuotaTables

variable {W : Type} [AddCommMonoid W]

/-- `_reset_subscription_traffic_for_user`. -/
def resetUser (s : QuotaTables W) (username : String) (now : Moment) : QuotaTables W :=
  { s with
    users := s.users.map fun user => if user.username = username then user.reset now else user
    charging := s.charging.resetTraffic username now.instant }

/-- The loop over the users. -/
def resetLoop (run : DueRun) : List QuotaUser → QuotaTables W × ResetSummary → Option (QuotaTables W × ResetSummary)
  | [], done => some done
  | user :: rest, (s, summary) =>
    match user.due s.plans run.now with
    | none => none
    | some false =>
      resetLoop run rest (s, { summary with
        checkedUsers := summary.checkedUsers + 1, skippedUsers := summary.skippedUsers + 1 })
    | some true =>
      resetLoop run rest (if run.dryRun then s else s.resetUser user.username run.now,
        { summary with
          checkedUsers := summary.checkedUsers + 1, resetUsers := summary.resetUsers + 1
          usernames := summary.usernames ++ [user.username] })

/-- `reset_due_subscription_traffic`, in the order of the names. -/
def resetDueTraffic (s : QuotaTables W) (run : DueRun) : Option (QuotaTables W × ResetSummary) :=
  resetLoop run (s.users.mergeSort fun a b => a.username ≤ b.username) (s, { dryRun := run.dryRun })

/-- A run; one that raises leaves the tables. -/
def step (s : QuotaTables W) (run : DueRun) : QuotaTables W :=
  (s.resetDueTraffic run).elim s Prod.fst

def after (s : QuotaTables W) (runs : List DueRun) : QuotaTables W := runs.foldl step s

/-- The primary key of the users. -/
def Keyed (s : QuotaTables W) : Prop := (s.users.map QuotaUser.username).Nodup

end QuotaTables

section Boundaries

variable {now : Moment} {schedule : Monthly} {user : QuotaUser}

theorem month_eq (now : Moment) (delta : Int) :
    (monthDelta (yearOf now) (monthOf now) delta).1 = (now.month + delta) / 12 ∧
      (monthDelta (yearOf now) (monthOf now) delta).1 * 12 + (monthDelta (yearOf now) (monthOf now) delta).2 - 1 =
        now.month + delta := by
  simp only [monthDelta, yearOf, monthOf]
  omega

theorem monthlyResetAt_current (calendar : IsDatetime now) :
    monthlyResetAt (yearOf now) (monthOf now) schedule = some (schedule.inMonth now.month) := by
  obtain ⟨low, high⟩ := calendar
  have year : 1 ≤ yearOf now ∧ yearOf now ≤ 9999 := by
    unfold yearOf
    omega
  have month : (yearOf now * 12 + monthOf now - 1).toNat = now.month := by
    unfold yearOf monthOf
    omega
  rw [monthlyResetAt, if_pos year, month]

theorem monthlyResetAt_next (calendar : IsDatetime now) :
    monthlyResetAt (monthDelta (yearOf now) (monthOf now) 1).1
    (monthDelta (yearOf now) (monthOf now) 1).2 schedule =
      if now.month + 1 < 120000 then some (schedule.inMonth (now.month + 1)) else none := by
  obtain ⟨low, high⟩ := calendar
  obtain ⟨year, month⟩ := month_eq now 1
  have month' : ((monthDelta (yearOf now) (monthOf now) 1).1 * 12 +
      (monthDelta (yearOf now) (monthOf now) 1).2 - 1).toNat =
      now.month + 1 := by omega
  rw [monthlyResetAt, month', year]
  exact if_congr (by omega) rfl rfl

theorem monthlyResetAt_previous (calendar : IsDatetime now) :
    monthlyResetAt (monthDelta (yearOf now) (monthOf now) (-1)).1
    (monthDelta (yearOf now) (monthOf now) (-1)).2 schedule =
      if 12 ≤ now.month - 1 then some (schedule.inMonth (now.month - 1)) else none := by
  obtain ⟨low, high⟩ := calendar
  obtain ⟨year, month⟩ := month_eq now (-1)
  have month' : ((monthDelta (yearOf now) (monthOf now) (-1)).1 * 12 +
      (monthDelta (yearOf now) (monthOf now) (-1)).2 - 1).toNat = now.month - 1 := by omega
  rw [monthlyResetAt, month', year]
  exact if_congr (by omega) rfl rfl

namespace QuotaUser

theorem boundaries_reached (calendar : IsDatetime now) (known : user.schedule = some schedule)
    (reached : schedule.inMonth now.month ≤ now) :
    user.boundaries now = if now.month + 1 < 120000 then
      some (some (schedule.inMonth now.month, schedule.inMonth (now.month + 1))) else none := by
  rw [boundaries, known]
  simp only [monthlyResetAt_current calendar, Option.bind_eq_bind, Option.bind_some, if_pos reached,
    monthlyResetAt_next calendar]
  split <;> rfl

theorem boundaries_ahead (calendar : IsDatetime now) (known : user.schedule = some schedule)
    (ahead : now < schedule.inMonth now.month) :
    user.boundaries now = if 12 ≤ now.month - 1 then
      some (some (schedule.inMonth (now.month - 1), schedule.inMonth now.month)) else none := by
  rw [boundaries, known]
  simp only [monthlyResetAt_current calendar, Option.bind_eq_bind, Option.bind_some, if_neg (not_le.mpr ahead),
    monthlyResetAt_previous calendar]
  split <;> rfl

/-- What the boundaries of a user are. They raise where one of them is
outside the calendar. -/
structure BoundaryLaw (user : QuotaUser) (now : Moment) : Prop where
  around : ∀ schedule due next, user.schedule = some schedule → user.boundaries now = some (some (due, next)) →
    schedule.IsLatest now due ∧ schedule.IsNext now next ∧ schedule.Consecutive due next
  raises : ∀ schedule, user.schedule = some schedule → (user.boundaries now = none ↔
    (schedule.inMonth now.month ≤ now ∧ now.month + 1 = 120000) ∨
      (now < schedule.inMonth now.month ∧ now.month = 12))
  none : user.boundaries now = some none ↔ user.schedule = none

theorem boundaryLaw (user : QuotaUser) (calendar : IsDatetime now) : user.BoundaryLaw now where
  around := by
    intro schedule due next known found
    rcases le_or_gt (schedule.inMonth now.month) now with reached | ahead
    · rw [boundaries_reached calendar known reached] at found
      split at found
      · cases found
        have later := schedule.lt_inMonth_succ now
        exact ⟨Monthly.isLatest_of_bracket reached later, Monthly.isNext_of_bracket reached later, _, rfl, rfl⟩
      · cases found
    · rw [boundaries_ahead calendar known ahead] at found
      split at found
      · rename_i low
        cases found
        have month : now.month - 1 + 1 = now.month := by omega
        have past : schedule.inMonth (now.month - 1) ≤ now := (Moment.lt_of_month (by simp; omega)).le
        have ahead' : now < schedule.inMonth (now.month - 1 + 1) := by rwa [month]
        refine ⟨Monthly.isLatest_of_bracket past ahead', ?_, now.month - 1, rfl, by rw [month]⟩
        have next := Monthly.isNext_of_bracket past ahead'
        rwa [month] at next
      · cases found
  raises := by
    intro schedule known
    obtain ⟨low, high⟩ := calendar
    rcases le_or_gt (schedule.inMonth now.month) now with reached | ahead
    · rw [boundaries_reached ⟨low, high⟩ known reached]
      have past := not_lt.mpr reached
      simp only [ite_eq_right_iff, reduceCtorEq, imp_false, reached, past, true_and, false_and, or_false]
      omega
    · rw [boundaries_ahead ⟨low, high⟩ known ahead]
      have past := not_le.mpr ahead
      simp only [ite_eq_right_iff, reduceCtorEq, imp_false, ahead, past, true_and, false_and, false_or]
      omega
  none := by
    cases known : user.schedule with
    | none => simp [boundaries, known]
    | some schedule =>
      rcases le_or_gt (schedule.inMonth now.month) now with reached | ahead
      · rw [boundaries_reached calendar known reached]
        split <;> simp
      · rw [boundaries_ahead calendar known ahead]
        split <;> simp

/-- A user whose reset is due. -/
structure Owes (user : QuotaUser) (plans : List String) (now : Moment) : Prop where
  active : user.isActive = true
  plan : user.hasPlan plans = true
  current : user.expired now = false
  boundary : ∃ schedule due, user.schedule = some schedule ∧ schedule.IsLatest now due ∧ user.activeSince < due ∧
    ∀ last, user.lastTrafficResetAt = some last → last < due

theorem resetDue_iff {plan expired : Bool} {resetDueAt : Option Moment} :
    user.resetDue plan expired resetDueAt = true ↔ ∃ due, resetDueAt = some due ∧ user.isActive = true ∧
      plan = true ∧
      expired = false ∧ user.isReset = true ∧ user.activeSince < due ∧
      ∀ last, user.lastTrafficResetAt = some last → last < due := by
  unfold resetDue
  cases resetDueAt with
  | none => simp
  | some due =>
    simp only [Option.some.injEq, exists_eq_left']
    split
    · rename_i blocked
      simp only [Bool.or_eq_true, Bool.not_eq_true'] at blocked
      simp only [Bool.false_eq_true, false_iff]
      rintro ⟨active, plan, current, on, _⟩
      simp_all
    · rename_i open_
      simp only [Bool.or_eq_true, Bool.not_eq_true', not_or, Bool.not_eq_false, Bool.not_eq_true] at open_
      obtain ⟨⟨⟨active, plan⟩, current⟩, on⟩ := open_
      simp only [active, plan, current, on, true_and]
      split
      · rename_i late
        simp only [Bool.false_eq_true, not_lt.mpr late, false_and]
      · rename_i early
        simp [not_le.mp early, Option.all_eq_true]

theorem isReset_of_schedule (known : user.schedule = some schedule) : user.isReset = true := by
  unfold QuotaUser.schedule at known
  split at known
  · rename_i on
    exact on.1
  · cases known

theorem due_eq_true_iff (calendar : IsDatetime now) {plans : List String}
    (built : user.boundaries now ≠ Option.none) :
    user.due plans now = some true ↔ user.Owes plans now := by
  obtain ⟨found, here⟩ := Option.ne_none_iff_exists'.mp built
  have law := user.boundaryLaw calendar
  rw [due, here, Option.map_some, Option.some.injEq, resetDue_iff]
  constructor
  · rintro ⟨due, first, active, plan, current, on, since, last⟩
    obtain ⟨⟨due', next⟩, rfl, rfl⟩ := Option.map_eq_some_iff.mp first
    cases known : user.schedule with
    | none =>
      rw [law.none.mpr known] at here
      cases here
    | some schedule => exact ⟨active, plan, current, schedule, due', known,
        (law.around schedule due' next known here).1, since, last⟩
  · rintro ⟨active, plan, current, schedule, due, known, latest, since, last⟩
    cases found with
    | none =>
      rw [law.none.mp here] at known
      cases known
    | some pair =>
      have same := latest.unique (law.around schedule pair.1 pair.2 known here).1
      subst same
      exact ⟨pair.1, rfl, active, plan, current, isReset_of_schedule known, since, last⟩

end QuotaUser

end Boundaries

namespace QuotaTables

variable {W : Type} [AddCommMonoid W] {s : QuotaTables W} {run : DueRun}

/-- The names that a run resets among some users. -/
def dueNames (plans : List String) (now : Moment) (users : List QuotaUser) : List String :=
  (users.filter fun user => user.due plans now = some true).map QuotaUser.username

def resetNames (users : List QuotaUser) (names : List String) (now : Moment) : List QuotaUser :=
  users.map fun user => if user.username ∈ names then user.reset now else user

theorem resetNames_nil (users : List QuotaUser) (now : Moment) : resetNames users [] now = users := by
  simp [resetNames]

theorem resetNames_cons (users : List QuotaUser) (name : String) (names : List String) (now : Moment) :
    resetNames (users.map fun user => if user.username = name then user.reset now else user) names now =
      resetNames users (name :: names) now := by
  rw [resetNames, map_map]
  refine map_congr_left fun user _ => ?_
  rw [Function.comp_apply]
  by_cases mine : user.username = name
  · rw [if_pos mine, if_pos (List.mem_cons.mpr (.inl mine))]
    split <;> rfl
  · rw [if_neg mine]
    exact if_congr (by simp [mine]) rfl rfl

variable {todo : List QuotaUser} {start result : QuotaTables W × ResetSummary}

theorem resetLoop_some (done : resetLoop run todo start = some result) : result.1.plans = start.1.plans ∧
    result.2.usernames = start.2.usernames ++ dueNames start.1.plans run.now todo ∧
    result.1.users = (if run.dryRun then start.1.users
      else resetNames start.1.users (dueNames start.1.plans run.now todo) run.now) ∧
    ∀ user ∈ todo, user.boundaries run.now ≠ none := by
  induction todo generalizing start with
  | nil =>
    cases done
    refine ⟨rfl, (append_nil _).symm, ?_, nofun⟩
    rw [dueNames, filter_nil, map_nil, resetNames_nil, ite_self]
  | cons user rest ih =>
    rw [resetLoop.eq_def] at done
    dsimp only at done
    split at done
    · cases done
    · rename_i idle
      obtain ⟨plans, names, users, built⟩ := ih done
      have skipped : dueNames start.1.plans run.now (user :: rest) = dueNames start.1.plans run.now rest := by
        rw [dueNames, filter_cons_of_neg (by simp [idle]), dueNames]
      rw [skipped]
      refine ⟨plans, names, users, fun other here => ?_⟩
      rcases List.mem_cons.mp here with rfl | later
      · intro raised
        rw [QuotaUser.due, raised] at idle
        cases idle
      · exact built other later
    · rename_i owed
      obtain ⟨plans, names, users, built⟩ := ih done
      have taken : dueNames start.1.plans run.now (user :: rest) =
          user.username :: dueNames start.1.plans run.now rest := by
        rw [dueNames, filter_cons_of_pos (by simp [owed]), map_cons, dueNames]
      have kept : (if run.dryRun then start.1 else start.1.resetUser user.username run.now).plans =
          start.1.plans := by
        split <;> rfl
      rw [kept] at plans names users
      rw [taken]
      refine ⟨plans, ?_, ?_, fun other here => ?_⟩
      · rw [names, append_assoc]
        rfl
      · rw [users]
        cases run.dryRun with
        | true => rfl
        | false => exact resetNames_cons ..
      · rcases List.mem_cons.mp here with rfl | later
        · intro raised
          rw [QuotaUser.due, raised] at owed
          cases owed
        · exact built other later

variable {user : QuotaUser}

theorem mem_dueNames {users : List QuotaUser} (distinct : (users.map QuotaUser.username).Nodup)
    {plans : List String}
    {now : Moment} (here : user ∈ users) :
    user.username ∈ dueNames plans now users ↔ user.due plans now = some true := by
  rw [dueNames, mem_map]
  constructor
  · rintro ⟨other, inside, same⟩
    obtain ⟨inside, owed⟩ := List.mem_filter.mp inside
    rw [inj_on_of_nodup_map distinct inside here same] at owed
    simpa using owed
  · intro owed
    exact ⟨user, List.mem_filter.mpr ⟨here, by simpa using owed⟩, rfl⟩

theorem resetDueTraffic_some (keyed : s.Keyed) (calendar : IsDatetime run.now)
    (done : s.resetDueTraffic run = some result) :
    result.1.plans = s.plans ∧
    (∀ user ∈ s.users, user.username ∈ result.2.usernames ↔ user.Owes s.plans run.now) ∧
    (∀ name ∈ result.2.usernames, ∃ user ∈ s.users, user.username = name) ∧
    result.1.users = if run.dryRun then s.users else resetNames s.users result.2.usernames run.now := by
  have order : (s.users.mergeSort fun a b => a.username ≤ b.username).Perm s.users := mergeSort_perm ..
  obtain ⟨plans, names, users, built⟩ := resetLoop_some done
  rw [nil_append] at names
  rw [← names] at users
  refine ⟨plans, fun user here => ?_, fun name inside => ?_, users⟩
  · rw [names, mem_dueNames ((order.map _).nodup_iff.mpr keyed) (order.mem_iff.mpr here)]
    exact user.due_eq_true_iff calendar (built user (order.mem_iff.mpr here))
  · rw [names, dueNames, mem_map] at inside
    obtain ⟨user, here, same⟩ := inside
    exact ⟨user, order.mem_iff.mp (List.mem_filter.mp here).1, same⟩

/-- A user after some runs is a user before them, with another marker at most. -/
def Descends (user user' : QuotaUser) : Prop := ∃ last, user' = { user with lastTrafficResetAt := last }

theorem step_users (keyed : s.Keyed) (calendar : IsDatetime run.now) :
    (s.step run).plans = s.plans ∧ ∃ names, (s.step run).users = resetNames s.users names run.now := by
  unfold step
  cases done : s.resetDueTraffic run with
  | none => exact ⟨rfl, [], (resetNames_nil ..).symm⟩
  | some result =>
    obtain ⟨plans, _, _, users⟩ := resetDueTraffic_some keyed calendar done
    refine ⟨plans, ?_⟩
    rw [Option.elim_some, users]
    split
    · exact ⟨[], (resetNames_nil ..).symm⟩
    · exact ⟨_, rfl⟩

theorem resetNames_keys (users : List QuotaUser) (names : List String) (now : Moment) :
    (resetNames users names now).map QuotaUser.username = users.map QuotaUser.username := by
  rw [resetNames, map_map]
  refine map_congr_left fun user _ => ?_
  rw [Function.comp_apply]
  split <;> rfl

theorem Keyed.step (keyed : s.Keyed) (calendar : IsDatetime run.now) : (s.step run).Keyed := by
  obtain ⟨_, names, users⟩ := step_users keyed calendar
  rw [Keyed, users, resetNames_keys]
  exact keyed

variable {runs : List DueRun}

theorem Keyed.after (keyed : s.Keyed) (calendar : ∀ run ∈ runs, IsDatetime run.now) : (s.after runs).Keyed := by
  induction runs generalizing s with
  | nil => exact keyed
  | cons run rest ih =>
    exact ih (keyed.step (calendar run (mem_cons_self ..))) fun other here =>
      calendar other (mem_cons_of_mem _ here)

theorem after_users (keyed : s.Keyed) (calendar : ∀ run ∈ runs, IsDatetime run.now) {user' : QuotaUser}
    (here : user' ∈ (s.after runs).users) :
    ∃ user ∈ s.users, Descends user user' ∧
      ((∃ run ∈ runs, user'.lastTrafficResetAt = some run.now) ∨
        user'.lastTrafficResetAt = user.lastTrafficResetAt) := by
  induction runs generalizing s with
  | nil => exact ⟨user', here, ⟨_, rfl⟩, .inr rfl⟩
  | cons run rest ih =>
    have now := calendar run (mem_cons_self ..)
    obtain ⟨user, inside, ⟨last, rfl⟩, marker⟩ := ih (keyed.step now)
      (fun other later => calendar other (mem_cons_of_mem _ later)) here
    obtain ⟨_, names, users⟩ := step_users keyed now
    rw [users] at inside
    obtain ⟨first, inFirst, rfl⟩ := List.mem_map.mp inside
    by_cases chosen : first.username ∈ names
    · rw [if_pos chosen] at marker ⊢
      refine ⟨first, inFirst, ⟨last, rfl⟩, .inl ?_⟩
      rcases marker with ⟨other, later, same⟩ | same
      · exact ⟨other, mem_cons_of_mem _ later, same⟩
      · exact ⟨run, mem_cons_self .., same⟩
    · rw [if_neg chosen] at marker ⊢
      refine ⟨first, inFirst, ⟨last, rfl⟩, ?_⟩
      rcases marker with ⟨other, later, same⟩ | same
      · exact .inl ⟨other, mem_cons_of_mem _ later, same⟩
      · exact .inr same

/-- The runs in the order of their times. -/
def InOrder (runs : List DueRun) : Prop := runs.Pairwise fun first second => first.now ≤ second.now

/-- A run that resets a user. -/
def ResetAt (s : QuotaTables W) (run : DueRun) (name : String) : Prop :=
  run.dryRun = false ∧ ∃ result, s.resetDueTraffic run = some result ∧ name ∈ result.2.usernames

theorem ResetAt.marked (keyed : s.Keyed) (calendar : IsDatetime run.now) {name : String}
    (reset : s.ResetAt run name)
    (here : user ∈ (s.step run).users) (mine : user.username = name) :
    user.lastTrafficResetAt = some run.now := by
  obtain ⟨real, result, done, inside⟩ := reset
  obtain ⟨_, _, _, users⟩ := resetDueTraffic_some keyed calendar done
  rw [step, done, Option.elim_some, users, real, if_neg (by decide)] at here
  obtain ⟨first, _, rfl⟩ := List.mem_map.mp here
  by_cases chosen : first.username ∈ result.2.usernames
  · rw [if_pos chosen]
    rfl
  · rw [if_neg chosen] at mine
    exact absurd (mine ▸ inside) chosen

theorem ResetAt.later (keyed : s.Keyed) {between : List DueRun} {run' : DueRun} {name : String}
    (calendar : ∀ other ∈ run :: between, IsDatetime other.now) (calendar' : IsDatetime run'.now)
    (ordered : ∀ other ∈ between, run.now ≤ other.now) (first : s.ResetAt run name)
    (second : (s.after (run :: between)).ResetAt run' name) {user : QuotaUser}
    (here : user ∈ (s.after (run :: between)).users) (mine : user.username = name) {schedule : Monthly}
    {due : Moment}
    (known : user.schedule = some schedule) (latest : schedule.IsLatest run'.now due) : run.now < due := by
  have now := calendar run (mem_cons_self ..)
  have others : ∀ other ∈ between, IsDatetime other.now :=
    fun other later => calendar other (mem_cons_of_mem _ later)
  obtain ⟨_, result, done, inside⟩ := second
  obtain ⟨_, owes, _, _⟩ := resetDueTraffic_some (keyed.after calendar) calendar' done
  obtain ⟨schedule', due', known', latest', _, before⟩ := ((owes user here).mp (mine ▸ inside)).boundary
  rw [known, Option.some.injEq] at known'
  subst known'
  rw [latest.unique latest']
  obtain ⟨old, inOld, ⟨last, rfl⟩, marker⟩ := after_users (keyed.step now) others here
  rcases marker with ⟨other, later, same⟩ | same
  · exact (ordered other later).trans_lt (before _ same)
  · exact before _ (same.trans (first.marked keyed now inOld mine))

end QuotaTables

end OpenNode

