import OpenNode.Lib.Calendar
import OpenNode.TrafficBaselines

namespace OpenNode

open Calendar List

/-- Five minutes. -/
def boundaryTime : Nat := 5 * 60 * 1000000

/-- A server with the settings of its cycle and its traffic rows. -/
structure MeteredServer where
  id : ServerId
  federated : Bool := false
  trafficResetDay : Nat
  day_le : trafficResetDay ≤ 31
  createdAt : Moment
  lastTrafficResetAt : Option Moment := none
  traffic : ServerTraffic := {}

def boundary (now : Moment) (schedule : Monthly) : Moment := schedule.inMonth now.month

namespace MeteredServer

variable {server : MeteredServer}

/-- The boundaries of a server. A reset day of zero means that there are none. -/
def schedule (server : MeteredServer) : Option Monthly :=
  if scheduled : 0 < server.trafficResetDay then
    some { day := server.trafficResetDay, time := boundaryTime, real := ⟨scheduled, server.day_le, by decide⟩ }
  else none

/-- The last reset, which for a new server is its creation. -/
def marker (server : MeteredServer) : Moment := server.lastTrafficResetAt.getD server.createdAt

def reset (server : MeteredServer) (now : Moment) : MeteredServer :=
  { server with traffic := server.traffic.reset now.instant, lastTrafficResetAt := some now }

/-- The turn of a server in `reset_due`: the server after its reset, nothing
where it is passed over. -/
def turn (server : MeteredServer) (now : Moment) : Option MeteredServer :=
  match server.schedule with
  | none => none
  | some schedule =>
    if server.federated then none
    else
      let due := boundary now schedule
      if due ≤ now ∧ server.marker < due.midnight then some (server.reset now) else none

/-- The first day of the next month. -/
def following (now : Moment) : Moment :=
  { month := now.month + 1, day := 1, time := now.time, real := ⟨le_rfl, monthLength_pos _, now.real.2.2⟩ }

def nextResetAt (server : MeteredServer) (now : Moment) : Option Moment :=
  server.schedule.map fun schedule =>
    let next := boundary now schedule
    if next.midnight ≤ server.marker then boundary (following now) schedule else next

end MeteredServer

/-- What resets servers. -/
inductive ResetEvent where
  | tick (now : Moment)
  | manual (id : ServerId) (now : Moment)

def ResetEvent.now : ResetEvent → Moment
  | .tick now => now
  | .manual _ now => now

/-- Events in the order of their times. -/
def InOrder (events : List ResetEvent) : Prop := events.Pairwise fun first second => first.now ≤ second.now

/-- `reset_due`: the servers after it and the number of resets. -/
def resetDue (servers : List MeteredServer) (now : Moment) : List MeteredServer × Nat :=
  (servers.map fun server => (server.turn now).getD server, (servers.filterMap (·.turn now)).length)

/-- `reset`, which refuses a server that is unknown or another panel's. -/
def resetServer (servers : List MeteredServer) (id : ServerId) (now : Moment) : Option (List MeteredServer) :=
  match servers.find? (·.id = id) with
  | none => none
  | some server =>
    if server.federated then none
    else some (servers.map fun other => if other.id = id then other.reset now else other)

def resetStep (servers : List MeteredServer) : ResetEvent → List MeteredServer
  | .tick now => (resetDue servers now).1
  | .manual id now => (resetServer servers id now).getD servers

namespace MeteredServer

variable {server : MeteredServer} {schedule : Monthly} {now : Moment}

/-- An event for one server. -/
def step (server : MeteredServer) : ResetEvent → MeteredServer
  | .tick now => (server.turn now).getD server
  | .manual id now => if server.id = id ∧ !server.federated then server.reset now else server

def run (server : MeteredServer) (events : List ResetEvent) : MeteredServer := events.foldl step server

theorem step_tick (server : MeteredServer) (now : Moment) :
    server.step (.tick now) = (server.turn now).getD server := rfl

theorem step_manual (server : MeteredServer) (id : ServerId) (now : Moment) :
    server.step (.manual id now) = if server.id = id ∧ !server.federated then server.reset now else server := rfl

theorem turn_eq_some {after : MeteredServer} : server.turn now = some after ↔
    ∃ schedule, server.schedule = some schedule ∧ server.federated = false ∧ boundary now schedule ≤ now ∧
      server.marker < (boundary now schedule).midnight ∧ after = server.reset now := by
  unfold turn
  constructor
  · intro turned
    split at turned
    · cases turned
    · split at turned
      · cases turned
      · rename_i schedule known foreign
        dsimp only at turned
        split at turned
        · rename_i due
          exact ⟨schedule, known, by simpa using foreign, due.1, due.2, (Option.some.inj turned).symm⟩
        · cases turned
  · rintro ⟨schedule, known, own, past, before, rfl⟩
    rw [known]
    simp only [own, Bool.false_eq_true, if_false]
    exact if_pos ⟨past, before⟩

theorem step_cases (server : MeteredServer) (event : ResetEvent) :
    server.step event = server ∨ server.step event = server.reset event.now := by
  cases event with
  | tick now =>
    rw [step_tick]
    cases turned : server.turn now with
    | none => exact .inl rfl
    | some after =>
      obtain ⟨_, _, _, _, _, rfl⟩ := turn_eq_some.mp turned
      exact .inr rfl
  | manual id now =>
    rw [step_manual]
    split
    · exact .inr rfl
    · exact .inl rfl

theorem step_id (server : MeteredServer) (event : ResetEvent) : (server.step event).id = server.id := by
  rcases server.step_cases event with same | same <;> exact (congrArg MeteredServer.id same).trans rfl

theorem step_schedule (server : MeteredServer) (event : ResetEvent) :
    (server.step event).schedule = server.schedule := by
  rcases server.step_cases event with same | same <;> exact (congrArg MeteredServer.schedule same).trans rfl

theorem step_federated (server : MeteredServer) (event : ResetEvent) :
    (server.step event).federated = server.federated := by
  rcases server.step_cases event with same | same <;> exact (congrArg MeteredServer.federated same).trans rfl

theorem run_schedule (server : MeteredServer) (events : List ResetEvent) :
    (server.run events).schedule = server.schedule := by
  induction events generalizing server with
  | nil => rfl
  | cons event rest ih => exact (ih (server.step event)).trans (server.step_schedule event)

theorem run_federated (server : MeteredServer) (events : List ResetEvent) :
    (server.run events).federated = server.federated := by
  induction events generalizing server with
  | nil => rfl
  | cons event rest ih => exact (ih (server.step event)).trans (server.step_federated event)

theorem run_append (server : MeteredServer) (before after : List ResetEvent) :
    server.run (before ++ after) = (server.run before).run after :=
  foldl_append ..

theorem le_marker_run {start : Moment} {events : List ResetEvent} (reached : start ≤ server.marker)
    (later : ∀ event ∈ events, start ≤ event.now) : start ≤ (server.run events).marker := by
  induction events generalizing server with
  | nil => exact reached
  | cons event rest ih =>
    refine ih ?_ fun other here => later other (mem_cons_of_mem _ here)
    rcases server.step_cases event with same | same
    · rwa [same]
    · rw [same]
      exact later event (mem_cons_self ..)

/-- An idle tick before the next reset, and a reset at it. -/
theorem turn_isSome_iff (own : server.federated = false) :
    (server.turn now).isSome ↔ ∃ next, server.nextResetAt now = some next ∧ next ≤ now := by
  rw [Option.isSome_iff_exists, nextResetAt]
  simp only [turn_eq_some, Option.map_eq_some_iff]
  constructor
  · rintro ⟨_, schedule, known, _, past, before, _⟩
    exact ⟨_, ⟨schedule, known, rfl⟩, by rwa [if_neg (not_le.mpr before)]⟩
  · rintro ⟨_, ⟨schedule, known, rfl⟩, past⟩
    by_cases passed : (boundary now schedule).midnight ≤ server.marker
    · rw [if_pos passed] at past
      exact absurd past (not_le.mpr (schedule.lt_inMonth_succ now))
    · rw [if_neg passed] at past
      exact ⟨_, schedule, known, own, past, not_le.mp passed, rfl⟩

end MeteredServer

section Servers

variable {servers : List MeteredServer}

theorem resetStep_eq (distinct : (servers.map MeteredServer.id).Nodup) (event : ResetEvent) :
    resetStep servers event = servers.map (·.step event) := by
  cases event with
  | tick now => rfl
  | manual id now =>
    have one : ∀ server ∈ servers, ∀ other ∈ servers, server.id = id → other.id = id → other = server :=
      fun server here other inside is is' => inj_on_of_nodup_map distinct inside here (is'.trans is.symm)
    rw [resetStep, resetServer]
    cases found : servers.find? (·.id = id) with
    | none =>
      have absent := List.find?_eq_none.mp found
      refine (map_id servers).symm.trans (map_congr_left fun server here => ?_)
      have other : server.id ≠ id := by simpa using absent server here
      exact (if_neg fun mine => other mine.1).symm
    | some server =>
      have here := mem_of_find?_eq_some found
      have mine : server.id = id := by simpa using List.find?_some found
      cases foreign : server.federated with
      | true =>
        simp only [foreign, if_true, Option.getD_none]
        refine (map_id servers).symm.trans (map_congr_left fun other inside => ?_)
        refine (if_neg fun both => ?_).symm
        rw [one server here other inside mine both.1, foreign] at both
        exact absurd both.2 (by decide)
      | false =>
        simp only [foreign, Bool.false_eq_true, if_false, Option.getD_some]
        refine map_congr_left fun other inside => ?_
        rw [MeteredServer.step_manual]
        by_cases same : other.id = id
        · rw [one server here other inside mine same, if_pos mine, if_pos ⟨mine, by simp [foreign]⟩]
        · rw [if_neg same, if_neg fun both => same both.1]

theorem resetSteps_eq (distinct : (servers.map MeteredServer.id).Nodup) (events : List ResetEvent) :
    events.foldl resetStep servers = servers.map (·.run events) := by
  induction events generalizing servers with
  | nil => exact (map_id servers).symm
  | cons event rest ih =>
    have ids : (servers.map (·.step event)).map MeteredServer.id = servers.map MeteredServer.id := by
      rw [map_map]
      exact map_congr_left fun server _ => server.step_id event
    rw [foldl_cons, resetStep_eq distinct, ih (by rwa [ids]), map_map]
    rfl

end Servers

namespace MeteredServer

variable {server : MeteredServer} {schedule : Monthly} {events : List ResetEvent}

/-- A tick resets a server if and only if its marker precedes the latest boundary. -/
def ResetsExactly (server : MeteredServer) (schedule : Monthly) (events : List ResetEvent) : Prop :=
  ∀ before now after due, events = before ++ .tick now :: after → schedule.IsLatest now due →
    (((server.run before).turn now).isSome ↔ (server.run before).marker < due)

/-- How a server is reset over a run. -/
structure OnSchedule (server : MeteredServer) (schedule : Monthly) (events : List ResetEvent) : Prop where
  /-- No tick resets a server that was reset on the day of the latest boundary or later. -/
  only : ∀ before now after due, events = before ++ .tick now :: after → schedule.IsLatest now due →
    ((server.run before).turn now).isSome → (server.run before).marker < due.midnight
  /-- In the month of the boundary a tick resets every other server. -/
  due : ∀ before now after due, events = before ++ .tick now :: after → schedule.IsLatest now due →
    due.month = now.month →
    (server.run before).marker < due.midnight → ((server.run before).turn now).isSome
  /-- So that after it no reset is missing, -/
  served : ∀ before now after due, events = before ++ .tick now :: after → schedule.IsLatest now due →
    due.month = now.month →
    due.midnight ≤ (server.run (before ++ [.tick now])).marker
  /-- and none comes twice. -/
  once : ∀ before now between now' after first second,
    events = before ++ .tick now :: (between ++ .tick now' :: after) →
    schedule.Consecutive first second → first ≤ now → now' < second →
    ((server.run before).turn now).isSome → ¬ ((server.run (before ++ .tick now :: between)).turn now').isSome

theorem boundary_eq {now due : Moment} (latest : schedule.IsLatest now due) (month : due.month = now.month) :
    boundary now schedule = due := by
  rw [boundary, ← month]
  exact latest.eq_inMonth.symm

theorem turn_due {now : Moment} (known : server.schedule = some schedule) (turned : (server.turn now).isSome) :
    schedule.IsLatest now (boundary now schedule) ∧ server.marker < (boundary now schedule).midnight ∧
      server.turn now = some (server.reset now) := by
  obtain ⟨after, turned⟩ := Option.isSome_iff_exists.mp turned
  obtain ⟨schedule', known', _, past, before, rfl⟩ := turn_eq_some.mp turned
  rw [known, Option.some.injEq] at known'
  subst known'
  exact ⟨Monthly.isLatest_of_le past, before, turned⟩

theorem marker_turned {now due : Moment} (known : server.schedule = some schedule) (own : server.federated = false)
    (latest : schedule.IsLatest now due) (month : due.month = now.month) :
    due.midnight ≤ (server.step (.tick now)).marker := by
  have here := boundary_eq latest month
  rw [step_tick]
  cases turned : server.turn now with
  | some after =>
    obtain ⟨_, _, _, _, _, rfl⟩ := turn_eq_some.mp turned
    exact due.midnight_le.trans latest.past
  | none =>
    refine not_lt.mp fun before => ?_
    have again := turn_eq_some.mpr ⟨schedule, known, own, here.symm ▸ latest.past, here.symm ▸ before, rfl⟩
    rw [turned] at again
    cases again

/-- The resets of a server over every run of ticks and manual resets. -/
theorem onSchedule (known : server.schedule = some schedule) (own : server.federated = false)
    (ordered : InOrder events) :
    server.OnSchedule schedule events where
  only := by
    rintro before now after due rfl latest turned
    obtain ⟨latest', marker, _⟩ := turn_due ((server.run_schedule before).trans known) turned
    rwa [latest.unique latest']
  due := by
    rintro before now after due rfl latest month marker
    have here := boundary_eq latest month
    refine Option.isSome_iff_exists.mpr ⟨_, turn_eq_some.mpr ⟨schedule, (server.run_schedule before).trans known,
      (server.run_federated before).trans own, ?_, ?_, rfl⟩⟩
    · rw [here]
      exact latest.past
    · rwa [here]
  served := by
    rintro before now after due rfl latest month
    rw [run_append]
    exact marker_turned ((server.run_schedule before).trans known) ((server.run_federated before).trans own)
      latest month
  once := by
    rintro before now between now' after first second rfl ⟨month, rfl, rfl⟩ reached ahead turned turned'
    have sorted := (List.pairwise_append.mp ordered).2.1
    obtain ⟨afterTick, sorted⟩ := List.pairwise_cons.mp sorted
    obtain ⟨_, _, reset⟩ := turn_due ((server.run_schedule before).trans known) turned
    obtain ⟨latest', marker', _⟩ := turn_due ((server.run_schedule _).trans known) turned'
    -- The marker is at least the first tick, which is after the boundary that both ticks have.
    have stepped : (server.run (before ++ .tick now :: between)) = ((server.run before).reset now).run between := by
      rw [run_append]
      show ((server.run before).step (.tick now)).run between = _
      rw [step_tick, reset, Option.getD_some]
    have kept : now ≤ (server.run (before ++ .tick now :: between)).marker := by
      rw [stepped]
      exact le_marker_run le_rfl fun event here => afterTick event (mem_append_left _ here)
    have within : now ≤ now' := afterTick _ (mem_append_right _ (mem_cons_self ..))
    have latest : schedule.IsLatest now' (schedule.inMonth month) :=
      Monthly.isLatest_of_bracket (reached.trans within) ahead
    rw [latest'.unique latest] at marker'
    exact absurd (kept.trans_lt marker') (not_lt.mpr ((Moment.midnight_le _).trans reached))

/-- A server with the reset day 31, last reset in February 2024. -/
def lateServer : MeteredServer where
  id := 1
  trafficResetDay := 31
  day_le := le_rfl
  createdAt := { month := 24289, day := 29, time := boundaryTime, real := by decide }

/-- Its schedule. -/
def lastDay : Monthly := { day := 31, time := boundaryTime, real := by decide }

/-- A tick on the last day of March, a manual reset and a tick at the end of April. -/
def twoMonths : List ResetEvent :=
  [.tick { month := 24290, day := 31, time := boundaryTime, real := by decide },
   .manual 1 { month := 24291, day := 29, time := 0, real := by decide },
   .tick { month := 24291, day := 30, time := boundaryTime, real := by decide }]

theorem lateServer_schedule (events : List ResetEvent) : (lateServer.run events).schedule = some lastDay :=
  lateServer.run_schedule events

theorem lateServer_onSchedule : lateServer.OnSchedule lastDay twoMonths ∧
    ((lateServer.run []).turn { month := 24290, day := 31, time := boundaryTime, real := by decide }).isSome := by
  have run : lateServer.OnSchedule lastDay twoMonths :=
    onSchedule (lateServer_schedule []) rfl (by simp [InOrder, twoMonths, ResetEvent.now, Moment.le_def])
  exact ⟨run, run.due [] _ _ (lastDay.inMonth 24290) rfl
    (Monthly.isLatest_of_le (Moment.le_def.mpr (by decide))) rfl
    (Moment.lt_of_month (by decide))⟩

theorem lateServer_turn : (lateServer.turn (lastDay.inMonth 24290)).isSome ↔
    ∃ next, lateServer.nextResetAt (lastDay.inMonth 24290) = some next ∧ next ≤ lastDay.inMonth 24290 :=
  turn_isSome_iff rfl

/-- No tick in the last minutes of March: the tick of April finds no boundary
that has passed. -/
def monthEndMissed : List ResetEvent := [.tick { month := 24291, day := 1, time := 0, real := by decide }]

/-- A manual reset two minutes into the day of the boundary satisfies it. -/
def resetEarly : List ResetEvent :=
  [.manual 1 { month := 24290, day := 31, time := 2 * 60 * 1000000, real := by decide },
   .tick { month := 24290, day := 31, time := boundaryTime, real := by decide }]

theorem not_resetsExactly : ¬ lateServer.ResetsExactly lastDay monthEndMissed ∧
    ¬ lateServer.ResetsExactly lastDay resetEarly := by
  constructor
  · intro exactly
    have missed := exactly [] _ [] (lastDay.inMonth 24290) rfl
      (Monthly.isLatest_of_bracket (Moment.le_def.mpr (by decide)) (not_le.mp fun above => by
        rw [Moment.le_def] at above
        revert above
        decide))
    have due := missed.mpr (Moment.lt_of_month (by decide))
    obtain ⟨latest, _, _⟩ := turn_due (lateServer_schedule _) due
    have past := Moment.le_def.mp latest.past
    revert past
    decide
  · intro exactly
    have early := exactly [_] _ [] (lastDay.inMonth 24290) rfl
      (Monthly.isLatest_of_le (Moment.le_def.mpr (by decide)))
    have due := early.mpr (not_le.mp fun above => by
      rw [Moment.le_def] at above
      revert above
      decide)
    obtain ⟨_, marker, _⟩ := turn_due (lateServer_schedule _) due
    have past := not_le.mpr marker
    rw [Moment.le_def] at past
    revert past
    decide

end MeteredServer

end OpenNode
