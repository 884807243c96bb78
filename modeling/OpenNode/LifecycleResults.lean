import OpenNode.LifecycleRuns

namespace OpenNode.Lifecycle

open Machine

variable {D : Type} {s t : Machine D}

/-- The worker has found every job reported, and disables the helper. -/
def WorkerPlace.leaving : WorkerPlace D → Bool
  | .disabling | .stopping => true
  | _ => false

def Machine.Leaving (s : Machine D) : Prop :=
  ∃ place, s.worker = some place ∧ place.leaving = true

/-- What a step may do to the jobs and to the operations. -/
structure Moves (s t : Machine D) : Prop where
  jobs : Onward s.jobs t.jobs
  begun : t.begun = s.begun ∨ ∃ job, s.worker = some (.started job) ∧ t.begun = job.requestId :: s.begun
  started : ∀ job, t.worker = some (.started job) → s.worker = some (.started job) ∨ s.worker = some (.queued job)
  leaves : t.Leaving → s.Leaving ∨ t.jobs = s.jobs ∧ ∀ job ∈ s.jobs, job.reported = true
  disables : s.enabled = true → t.enabled = false → s.Leaving

namespace Moves

variable {helper : Option (Helper D)} {jobs : List (Job D)}

theorem goTo {place : WorkerPlace D} {enabled : Bool} {begun acknowledged : List String}
    (at_ : ∀ next, helper.bind Helper.worker = some next → next = place) (onward : Onward s.jobs jobs)
    (begun_ : begun = s.begun ∨ ∃ job, s.worker = some (.started job) ∧ begun = job.requestId :: s.begun)
    (started : ∀ job, place = .started job → s.worker = some (.queued job))
    (leaves : place.leaving = true → s.Leaving ∨ jobs = s.jobs ∧ ∀ job ∈ s.jobs, job.reported = true)
    (disables : s.enabled = true → enabled = false → s.Leaving) :
    Moves s ⟨jobs, s.deployment, enabled, helper, begun, acknowledged⟩ where
  jobs := onward
  begun := begun_
  started job same := Or.inr (started job (at_ _ same).symm)
  leaves := by
    rintro ⟨next, same, leaving⟩
    rw [at_ next same] at leaving
    exact leaves leaving
  disables := disables

theorem enabled_kept (on : s.enabled = true) (off : s.enabled = false) : s.Leaving :=
  nomatch on.symm.trans off

theorem quietly {place : WorkerPlace D} (started : ∀ job, place = .started job → s.worker = some (.queued job))
    (leaves : place.leaving = true → s.Leaving ∨ s.jobs = s.jobs ∧ ∀ job ∈ s.jobs, job.reported = true) :
    Moves s (s.goTo place) :=
  goTo (fun _ => goTo_worker) (Onward.refl s.jobs) (Or.inl rfl) started leaves enabled_kept

theorem stay {deployment : DeploymentStatus} (onward : Onward s.jobs jobs)
    (worker : helper.bind Helper.worker = s.worker) :
    Moves s ⟨jobs, deployment, s.enabled, helper, s.begun, s.acknowledged⟩ where
  jobs := onward
  begun := Or.inl rfl
  started job same := Or.inl (worker.symm.trans same)
  leaves := by
    rintro ⟨place, same, leaving⟩
    exact Or.inl ⟨place, worker.symm.trans same, leaving⟩
  disables := enabled_kept

theorem refl (s : Machine D) : Moves s s :=
  stay (Onward.refl s.jobs) rfl

theorem work (ledger : Ledger s.jobs s.begun s.acknowledged) : Moves s s.work := by
  have same := Onward.refl s.jobs
  unfold Machine.work
  split
  · exact quietly nofun nofun
  · exact quietly nofun nofun
  · exact quietly nofun nofun
  · rename_i job result left at_
    refine goTo (fun _ => goTo_worker) (Ledger.onward_finish _ _ _) (Or.inl rfl) (fun other here =>
      ?_) (fun leaving => ?_) enabled_kept
    · cases left <;> cases here
    · cases left <;> cases leaving
  · split
    · exact quietly nofun nofun
    · exact quietly nofun nofun
  · rename_i job at_
    refine goTo (fun _ => goTo_worker) (ledger.onward_started _) (Or.inl rfl) (fun other here =>
      ?_) nofun enabled_kept
    cases here
    exact at_
  · rename_i job at_
    split
    · exact goTo (fun _ => goTo_worker) same (Or.inr ⟨job, at_, rfl⟩) nofun nofun enabled_kept
    · exact quietly nofun nofun
  · exact goTo (fun _ => goTo_worker) (Ledger.onward_finish _ _ _) (Or.inl rfl) nofun nofun enabled_kept
  · split
    · exact quietly nofun nofun
    · exact quietly nofun nofun
  · exact goTo (fun _ => goTo_worker) (Ledger.onward_acknowledge _ _) (Or.inl rfl) nofun nofun enabled_kept
  · exact goTo (fun _ => goTo_worker) same (Or.inl rfl) nofun nofun enabled_kept
  · split
    · exact quietly nofun nofun
    · exact quietly nofun nofun
  · split
    · rename_i empty
      refine goTo (fun _ => goTo_worker) same (Or.inl rfl) nofun (fun _ =>
        Or.inr ⟨rfl, fun job here => ?_⟩) enabled_kept
      -- a job that is not reported would be one of the rows
      rw [List.isEmpty_iff] at empty
      by_contra unreported
      have row : job ∈ JobStore.rows (!·.reported) s.jobs := JobStore.mem_rows.mpr ⟨here, by simpa using unreported⟩
      rw [empty] at row
      cases row
    · exact quietly nofun nofun
  · rename_i at_
    exact goTo (fun _ => goTo_worker) same (Or.inl rfl) nofun (fun _ => Or.inl ⟨_, at_, rfl⟩) fun _ _ =>
      ⟨_, at_, rfl⟩
  · exact ⟨same, Or.inl rfl, nofun, fun ⟨_, gone, _⟩ => (nomatch gone), enabled_kept⟩
  · exact refl s

theorem child (output : Json) : Moves s (s.child output) := by
  unfold Machine.child
  split
  · split
    · exact quietly nofun nofun
    · exact quietly nofun nofun
  · exact quietly nofun nofun
  · exact refl s

theorem deliver (confirmed : Bool) : Moves s (s.deliver confirmed) := by
  have same := Onward.refl s.jobs
  unfold Machine.deliver
  split
  · split
    · exact goTo (fun _ => goTo_worker) same (Or.inl rfl) nofun nofun enabled_kept
    · exact quietly nofun nofun
  · exact refl s

theorem fail : Moves s s.fail := by
  have same := Onward.refl s.jobs
  unfold Machine.fail
  split
  · exact quietly nofun nofun
  · exact quietly nofun nofun
  · exact quietly nofun nofun
  · exact quietly nofun nofun
  · exact quietly nofun nofun
  · exact quietly nofun nofun
  · exact ⟨same, Or.inl rfl, fun job at_ => absurd (s.worker_halt.symm.trans at_) nofun,
      fun ⟨place, at_, _⟩ => absurd (s.worker_halt.symm.trans at_) nofun, enabled_kept⟩

theorem apply [DecidableEq D] (digest : Json → D) (ledger : Ledger s.jobs s.begun s.acknowledged)
    (event : LifecycleEvent) : Moves s (s.apply digest event) := by
  have same := Onward.refl s.jobs
  cases event with
  | work => exact work ledger
  | child output => exact child output
  | deliver confirmed => exact deliver confirmed
  | fail => exact fail
  | operate status =>
    change Moves s (s.operate status)
    unfold Machine.operate
    split
    · exact stay same rfl
    · exact stay same rfl
    · exact stay same rfl
    · exact refl s
  | receive command verified =>
    change Moves s (s.receive command verified)
    unfold Machine.receive
    split
    · exact stay same ((worker_handle _ s.load).trans (worker_load s))
    · exact stay same (worker_load s)
    · exact refl s
  | check =>
    change Moves s s.check.2
    unfold Machine.check
    split
    · split
      · exact stay same (worker_handle _ s)
      · exact stay same (worker_handle _ s)
    · exact refl s
  | submit now =>
    change Moves s (s.submit digest now).2
    unfold Machine.submit
    split
    · exact stay (JobStore.onward_submit digest now _ s.jobs) (worker_handle _ s)
    · exact refl s
  | crash =>
    refine ⟨same, Or.inl rfl, (fun _ gone => by cases gone), ?_, enabled_kept⟩
    rintro ⟨_, gone, _⟩
    cases gone
  | start =>
    rw [Machine.apply]
    split
    · refine ⟨same, Or.inl rfl, fun job at_ => ?_, ?_, enabled_kept⟩
      · cases at_
      · rintro ⟨place, at_, leaving⟩
        cases at_
        cases leaving
    · exact refl s

end Moves

/-- A host before its first job. -/
structure Initial (s : Machine D) : Prop where
  jobs : s.jobs = []
  helper : s.helper = none
  begun : s.begun = []

theorem Initial.sound {s : Machine D} (initial : Initial s) : s.Sound where
  ledger :=
    { distinct := initial.jobs ▸ List.nodup_nil
      alone := initial.jobs ▸ Nat.zero_le _
      agrees := initial.jobs ▸ nofun
      reported := initial.jobs ▸ nofun
      once := initial.begun ▸ List.nodup_nil
      known := initial.begun ▸ nofun }
  place place at_ := by
    rw [Machine.worker, initial.helper] at at_
    cases at_

theorem Machine.check_known {helper : Helper D} {command : Json} (up : s.helper = some helper)
    (handler : helper.handler = .received command) {job : Job D} (here : job ∈ s.jobs)
    (same : job.requestId = requestId command) : s.check = (.ok (), s.handle (.allowed command)) := by
  have found : JobStore.get (requestId command) s.jobs ≠ none := fun absent =>
    JobStore.get_none absent job here same
  obtain ⟨worker, place, record⟩ := helper
  dsimp only at handler
  subst handler
  simp only [Machine.check, up, Option.isNone_iff_eq_none, found, Bool.and_eq_true, false_and, if_false]

section Runs
variable [DecidableEq D] {rule : Machine D → LifecycleEvent → Prop} {digest : Json → D}

theorem Reaches.onward (sound : s.Sound) (reach : Reaches rule digest s t) : Onward s.jobs t.jobs := by
  induction reach with
  | refl => exact Onward.refl s.jobs
  | step event before _ ih => exact ih.trans (Moves.apply digest (sound.reaches before).ledger event).jobs

/-- The operation of a request has had its turn: its job is not queued, and the worker is not about to begin it. -/
structure Spent (id : String) (s : Machine D) : Prop where
  taken : ∃ job ∈ s.jobs, job.requestId = id ∧ job.status ≠ .queued
  passed : ∀ job, s.worker = some (.started job) → job.requestId ≠ id

variable {id : String}

theorem Spent.apply (digest : Json → D) (spent : Spent id s) (sound : s.Sound) (event : LifecycleEvent) :
    Spent id (s.apply digest event) ∧ (s.apply digest event).begun.count id = s.begun.count id := by
  obtain ⟨onward, begun, started, -, -⟩ := Moves.apply digest sound.ledger event
  obtain ⟨job, here, same, taken⟩ := spent.taken
  refine ⟨⟨?_, fun job' at_ same' => ?_⟩, ?_⟩
  · obtain ⟨job', there, onward⟩ := onward job here
    exact ⟨job', there, onward.id.trans same, onward.taken taken⟩
  · obtain at_ | at_ := started job' at_
    · exact spent.passed job' at_ same'
    · -- a job that the worker is about to start is still queued
      obtain ⟨row, there, rowId, queued⟩ := (sound.place _ at_).tells
      have equal := Rows.unique sound.ledger.distinct there here (rowId.trans (same'.trans same.symm))
      exact taken (equal ▸ queued)
  · obtain same' | ⟨job', at_, same'⟩ := begun
    · rw [same']
    · rw [same', List.count_cons_of_ne (spent.passed job' at_)]

theorem Spent.reaches (spent : Spent id s) (sound : s.Sound) (reach : Reaches rule digest s t) :
    Spent id t ∧ t.begun.count id = s.begun.count id := by
  induction reach with
  | refl => exact ⟨spent, rfl⟩
  | step event before _ ih =>
    obtain ⟨spent', same⟩ := ih.1.apply digest (sound.reaches before) event
    exact ⟨spent', same.trans ih.2⟩

/-- No new job is accepted once the worker has found every job reported. -/
def Prompt (s : Machine D) (event : LifecycleEvent) : Prop :=
  ∀ now helper command, event = .submit now → s.helper = some helper →
    helper.handler = .allowed command → s.Leaving →
    (JobStore.get (requestId command) s.jobs).isSome = true

omit [DecidableEq D] in
theorem Prompt.of_other {event : LifecycleEvent} (other : ∀ now, event ≠ .submit now) : Prompt s event :=
  fun now _ _ same => absurd same (other now)

/-- Every job is reported while the helper is being disabled. -/
def Machine.Settled (s : Machine D) : Prop :=
  s.Leaving → ∀ job ∈ s.jobs, job.reported = true

omit [DecidableEq D] in
theorem Machine.keys_work (s : Machine D) : s.work.jobs.map Job.requestId = s.jobs.map Job.requestId := by
  have finish : ∀ id result, (JobStore.finish id result s.jobs).map Job.requestId = s.jobs.map Job.requestId :=
    fun _ _ => Rows.keys_update fun _ => rfl
  have started : ∀ id, (JobStore.started id s.jobs).map Job.requestId = s.jobs.map Job.requestId :=
    fun _ => Rows.keys_update fun _ => rfl
  have acknowledge : ∀ id, (JobStore.acknowledge id s.jobs).map Job.requestId = s.jobs.map Job.requestId :=
    fun _ => Rows.keys_update fun _ => rfl
  unfold Machine.work
  split
  · rfl
  · rfl
  · rfl
  · exact finish _ _
  · split <;> rfl
  · exact started _
  · split <;> rfl
  · exact finish _ _
  · split <;> rfl
  · exact acknowledge _
  · rfl
  · split <;> rfl
  · split <;> rfl
  · rfl
  · rfl
  · rfl

theorem Machine.keys_apply (digest : Json → D) (s : Machine D) (event : LifecycleEvent) (leaving : s.Leaving)
    (prompt : Prompt s event) :
    (s.apply digest event).jobs.map Job.requestId = s.jobs.map Job.requestId := by
  cases event with
  | work => exact s.keys_work
  | child output =>
    change (s.child output).jobs.map Job.requestId = _
    unfold Machine.child
    split
    · split <;> rfl
    · rfl
    · rfl
  | deliver confirmed =>
    change (s.deliver confirmed).jobs.map Job.requestId = _
    unfold Machine.deliver
    split
    · split <;> rfl
    · rfl
  | fail =>
    change s.fail.jobs.map Job.requestId = _
    unfold Machine.fail
    split <;> rfl
  | operate status =>
    change (s.operate status).jobs.map Job.requestId = _
    unfold Machine.operate
    split <;> rfl
  | receive command verified =>
    change (s.receive command verified).jobs.map Job.requestId = _
    unfold Machine.receive
    split <;> rfl
  | check =>
    change s.check.2.jobs.map Job.requestId = _
    unfold Machine.check
    split
    · split <;> rfl
    · rfl
  | submit now =>
    change (s.submit digest now).2.jobs.map Job.requestId = _
    unfold Machine.submit
    split
    · rename_i command allowed
      obtain ⟨helper, known, allowed⟩ := Option.map_eq_some_iff.mp allowed
      have there := prompt now helper command rfl known allowed leaving
      obtain ⟨old, found⟩ := Option.isSome_iff_exists.mp there
      obtain ⟨here, same⟩ := JobStore.get_some found
      obtain same' | ⟨-, -, -, -, -, -, -, -, absent, -⟩ := JobStore.submit_cases digest now command s.jobs
      · dsimp only
        rw [same']
      · exact absurd same (absent old here)
    · rfl
  | crash => rfl
  | start =>
    rw [Machine.apply]
    split <;> rfl

theorem Machine.Settled.apply (settled : s.Settled) (sound : s.Sound) (event : LifecycleEvent)
    (prompt : Prompt s event) :
    (s.apply digest event).Settled := by
  intro leaving job here
  have after : (s.apply digest event).Sound := sound.apply event
  obtain ⟨onward, -, -, leaves, -⟩ := Moves.apply digest sound.ledger event
  have reported : ∀ old ∈ s.jobs, old.reported = true := by
    obtain before | ⟨-, reported⟩ := leaves leaving
    · exact settled before
    · exact reported
  have known : job.requestId ∈ s.jobs.map Job.requestId := by
    obtain before | ⟨same, -⟩ := leaves leaving
    · have keys := s.keys_apply digest event before prompt
      rw [← keys]
      exact List.mem_map_of_mem here
    · rw [← same]
      exact List.mem_map_of_mem here
  obtain ⟨old, before, same⟩ := List.mem_map.mp known
  obtain ⟨job', there, onward⟩ := onward old before
  rw [Rows.unique after.ledger.distinct here there (same.symm.trans onward.id.symm)]
  exact onward.reported (reported old before)

theorem Machine.Settled.reaches (settled : s.Settled) (sound : s.Sound) (reach : Reaches Prompt digest s t) :
    t.Settled := by
  induction reach with
  | refl => exact settled
  | step event before prompt ih => exact ih.apply (sound.reaches before) event prompt

/-- How the jobs of a state are run, and how their results are kept. -/
structure Dependable (digest : Json → D) (s : Machine D) : Prop where
  alone : (s.jobs.filter (·.status.active)).length ≤ 1
  /-- A known request is let through, and returns the stored job or is refused for its content;
  neither changes a job. -/
  known : ∀ helper command, s.helper = some helper → helper.handler = .received command →
    ∀ job ∈ s.jobs, job.requestId = requestId command → s.check = (.ok (), s.handle (.allowed command))
  resubmitted : ∀ now command action, validateCommand command = .ok action →
    ∀ job ∈ s.jobs, job.requestId = requestId command → JobStore.submit digest now command s.jobs =
      (if fingerprint digest command = job.fingerprint then .ok job
        else .error "Lifecycle request ID reused with different content", s.jobs)
  /-- An operation is begun once. -/
  once : s.begun.Nodup
  /-- A job that is not queued, and that the worker is not about to begin, is never begun again. -/
  interrupted : ∀ job ∈ s.jobs, job.status ≠ .queued →
    (∀ other, s.worker = some (.started other) → other.requestId ≠ job.requestId) →
    ∀ rule later, Reaches rule digest s later → later.begun.count job.requestId = s.begun.count job.requestId
  /-- While the worker lives, it minds every running job. -/
  minded : ∀ place, s.worker = some place → ∀ job ∈ s.jobs, job.status = .running → place.Minds job.requestId
  agrees : ∀ job ∈ s.jobs, job.Agrees
  /-- A result is set once. -/
  final : ∀ job ∈ s.jobs, ∀ result, job.result = some result → ∀ rule later, Reaches rule digest s later →
    ∃ job' ∈ later.jobs, job'.requestId = job.requestId ∧ job'.result = some result ∧ job'.status = job.status
  /-- It is pending until a delivery is acknowledged. -/
  pending : ∀ job ∈ s.jobs, job.reported = true → job.result.isSome = true ∧ job.requestId ∈ s.acknowledged
  /-- The helper disables itself where the worker leaves, and only once the deployment is removed and
  every job reported. -/
  disables : ∀ event, s.enabled = true → (s.apply digest event).enabled = false → s.Leaving
  leaves : s.Leaving → s.deployment = .removed ∧ ∀ job ∈ s.jobs, job.reported = true

/-- The jobs are run at most once and their results kept, in every run. -/
theorem Reaches.dependable (initial : Initial s) (reach : Reaches Prompt digest s t) : Dependable digest t := by
  have sound : t.Sound := initial.sound.reaches reach
  have settled : s.Settled := fun _ => initial.jobs ▸ nofun
  exact
    { alone := sound.ledger.alone
      known := fun helper command up handler job here same => check_known up handler here same
      resubmitted := fun now command action valid job here same =>
        JobStore.submit_known digest now command sound.ledger.distinct here same valid
      once := sound.ledger.once
      interrupted := fun job here taken passed rule later onward =>
        (Spent.reaches ⟨⟨job, here, rfl, taken⟩, passed⟩ sound onward).2
      minded := fun place at_ => (sound.place place at_).minds
      agrees := sound.ledger.agrees
      final := fun job here result ended rule later reach' => by
        obtain ⟨job', there, onward⟩ := reach'.onward sound job here
        exact ⟨job', there, onward.id, onward.result result ended⟩
      pending := sound.ledger.reported
      disables := fun event => (Moves.apply digest sound.ledger event).disables
      leaves := fun leaving => by
        refine ⟨?_, settled.reaches initial.sound reach leaving⟩
        obtain ⟨place, at_, leaving⟩ := leaving
        have tells := (sound.place place at_).tells
        cases place <;> first | exact tells | cases leaving }

theorem Reaches.play (digest : Json → D) (s : Machine D) (events : List LifecycleEvent) :
    Reaches (fun _ _ => True) digest s (events.foldl (Machine.apply digest) s) := by
  induction events using List.reverseRecOn with
  | nil => exact .refl
  | append_singleton events event ih =>
    rw [List.foldl_append]
    exact .step event ih trivial

end Runs

section Example

def pathDigest (document : Json) : String := ((document.get "path").str?).getD ""

def freshHost : Machine String where
  deployment := .installed

def removal : Json :=
  .obj [("request_id", .str "remove"), ("method", .str "POST"), ("path", .str "/api/child/agent/uninstall"),
    ("query", .null), ("body", .obj [("confirm", .bool true)]), ("stream", .bool false)]

def rollback : Json :=
  .obj [("request_id", .str "return"), ("method", .str "POST"), ("path", .str "/api/child/agent/rollback"),
    ("query", .null), ("body", .obj [("confirm", .bool true)]), ("stream", .bool false)]

def removedAnswer : Json :=
  .obj [("request_id", .str "remove"), ("status", .int 200), ("body", .obj [("success", .bool true)])]

/-- A host with a request that is past its check. -/
def waitingHost : Machine String :=
  (((freshHost.apply pathDigest .start).apply pathDigest .work).apply pathDigest (.receive removal true)).apply
    pathDigest .check

theorem waitingHost_submitted : (waitingHost.apply pathDigest (.submit 1)).jobs.length = 1 ∧
    Dependable pathDigest (waitingHost.apply pathDigest (.submit 1)) := by
  have waiting : Reaches Prompt pathDigest freshHost waitingHost :=
    .step .check (.step (.receive removal true) (.step .work (.step .start .refl (Prompt.of_other nofun))
      (Prompt.of_other nofun)) (Prompt.of_other nofun)) (Prompt.of_other nofun)
  have stays : waitingHost.worker.any WorkerPlace.leaving = false := by decide +kernel
  refine ⟨by decide +kernel, Reaches.dependable ⟨rfl, rfl, rfl⟩ (.step (.submit 1) waiting ?_)⟩
  intro now helper command _ _ _ leaving
  obtain ⟨place, at_, leaves⟩ := leaving
  rw [at_] at stays
  exact absurd (stays.symm.trans leaves) nofun

/-- A second request is past its check while the deployment is removed, and is stored as the helper
disables itself. -/
def forgottenHost : Machine String :=
  [.start, .receive removal true, .check, .submit 1, .receive rollback true, .check, .work, .work, .work,
    .work, .work,
    .operate .removed, .child removedAnswer, .work, .work, .deliver true, .work, .work, .work, .work, .submit 2,
    .work].foldl (Machine.apply pathDigest) freshHost

theorem forgottenHost_unreported : Initial freshHost ∧
    Reaches (fun _ _ => True) pathDigest freshHost forgottenHost ∧
    forgottenHost.enabled = false ∧
    forgottenHost.jobs.map (fun job => (job.requestId, job.status, job.reported)) =
      [("remove", .succeeded, true), ("return", .queued, false)] := by
  refine ⟨⟨rfl, rfl, rfl⟩, Reaches.play _ _ _, ?_, ?_⟩
  · decide +kernel
  · decide +kernel

end Example

end OpenNode.Lifecycle
