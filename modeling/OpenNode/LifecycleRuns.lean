import OpenNode.LifecycleLedger

namespace OpenNode.Lifecycle

variable {D : Type} {s t : Machine D}

/-- The jobs that a place of the worker accounts for. -/
def WorkerPlace.Minds : WorkerPlace D → String → Prop
  | .booting, _ => True
  | .found left, id => ∃ job ∈ left, job.requestId = id
  | .recovering job left, id | .recovered job _ left, id =>
    job.requestId = id ∨ ∃ other ∈ left.getD [], other.requestId = id
  | .started job, id | .running job, id | .ended job _, id => job.requestId = id
  | _, _ => False

/-- What a place of the worker tells about the machine. -/
def WorkerPlace.Tells (s : Machine D) : WorkerPlace D → Prop
  | .queued job => ∃ row ∈ s.jobs, row.requestId = job.requestId ∧ row.status = .queued
  | .started job => (∃ row ∈ s.jobs, row.requestId = job.requestId ∧ row.status = .running) ∧
      job.requestId ∉ s.begun
  | .delivered job => job.requestId ∈ s.acknowledged
  | .loaded => ∀ helper, s.helper = some helper → helper.record = s.deployment
  | .counting | .disabling | .stopping => s.deployment = .removed
  | _ => True

structure WorkerPlace.Stands (s : Machine D) (place : WorkerPlace D) : Prop where
  /-- No running job is forgotten. -/
  minds : ∀ job ∈ s.jobs, job.status = .running → place.Minds job.requestId
  tells : place.Tells s

/-- What holds of the machine at any time. -/
structure Machine.Sound (s : Machine D) : Prop where
  ledger : Ledger s.jobs s.begun s.acknowledged
  place : ∀ place, s.worker = some place → place.Stands s

namespace Machine

theorem goTo_worker {place next : WorkerPlace D} (at_ : (s.goTo place).worker = some next) : next = place := by
  unfold worker goTo at at_
  cases known : s.helper with
  | none =>
    rw [known] at at_
    cases at_
  | some helper =>
    rw [known] at at_
    exact (Option.some.inj at_).symm

@[simp] theorem worker_handle (place : HandlerPlace) (s : Machine D) : (s.handle place).worker = s.worker := by
  unfold worker handle
  cases s.helper <;> rfl

@[simp] theorem worker_load (s : Machine D) : s.load.worker = s.worker := by
  unfold worker load
  cases s.helper <;> rfl

@[simp] theorem worker_halt (s : Machine D) : s.halt.worker = none := by
  unfold worker halt
  cases s.helper <;> rfl

end Machine

variable {helper : Option (Helper D)} {jobs : List (Job D)} {acknowledged : List String}

theorem Machine.Sound.goTo (place : WorkerPlace D) {enabled : Bool} {begun : List String}
    (ledger : Ledger jobs begun acknowledged) (at_ : ∀ next, helper.bind Helper.worker = some next → next = place)
    (minds : ∀ job ∈ jobs, job.status = .running → place.Minds job.requestId)
    (tells : place.Tells ⟨jobs, s.deployment, enabled, helper, begun, acknowledged⟩) :
    Machine.Sound ⟨jobs, s.deployment, enabled, helper, begun, acknowledged⟩ where
  ledger := ledger
  place next same := by
    rw [at_ next same]
    exact ⟨minds, tells⟩

theorem Ledger.running_finish {begun : List String} (ledger : Ledger jobs begun acknowledged) {id : String}
    {result : Json} {job : Job D} (here : job ∈ JobStore.finish id result jobs) (running : job.status = .running) :
    job ∈ jobs ∧ job.requestId ≠ id := by
  obtain ⟨old, before, ⟨-, rfl⟩ | ⟨other, rfl⟩⟩ := Rows.mem_update here
  · have inactive := resultState_inactive result
    rw [show resultState result = .running from running] at inactive
    cases inactive
  · have open_ : job.result = none := (ledger.agrees job before).of_active (by rw [running]; rfl)
    refine ⟨before, fun same => ?_⟩
    rw [same, open_] at other
    simp at other

section

variable (sound : s.Sound)
include sound

theorem Machine.Sound.goesOn {place next : WorkerPlace D} (at_ : s.worker = some place)
    (minds : ∀ id, place.Minds id → next.Minds id) (tells : next.Tells (s.goTo next)) : (s.goTo next).Sound :=
  .goTo next sound.ledger (fun _ => Machine.goTo_worker)
    (fun row here running => minds _ ((sound.place _ at_).minds row here running)) tells

theorem Machine.Sound.work : s.work.Sound := by
  have ledger := sound.ledger
  unfold Machine.work
  split
  · refine .goTo _ ledger (fun _ => Machine.goTo_worker) (fun job here running => ?_) trivial
    exact ⟨job, JobStore.mem_rows.mpr ⟨here, beq_iff_eq.mpr running⟩, rfl⟩
  · rename_i at_
    refine .goTo _ ledger (fun _ => Machine.goTo_worker) (fun job here running => ?_) trivial
    obtain ⟨other, left, -⟩ := (sound.place _ at_).minds job here running
    cases left
  · rename_i job left at_
    refine .goTo _ ledger (fun _ => Machine.goTo_worker) (fun row here running => ?_) trivial
    obtain ⟨other, left, same⟩ := (sound.place _ at_).minds row here running
    rcases List.mem_cons.mp left with rfl | left
    · exact Or.inl same
    · exact Or.inr ⟨other, left, same⟩
  · rename_i job result left at_
    refine .goTo _ (ledger.finish job.requestId result) (fun _ =>
      Machine.goTo_worker) (fun row here running => ?_) ?_
    · obtain ⟨before, differs⟩ := ledger.running_finish here running
      obtain same | others := (sound.place _ at_).minds row before running
      · exact absurd same.symm differs
      · cases left with
        | some left => exact others
        | none =>
          obtain ⟨other, left, -⟩ := others
          cases left
    · cases left <;> exact trivial
  · rename_i at_
    have stands := sound.place _ at_
    split
    · rename_i job _ rows
      have here : job ∈ JobStore.rows (·.status == .queued) s.jobs := by
        rw [rows]
        exact List.mem_cons_self
      obtain ⟨here, queued⟩ := JobStore.mem_rows.mp here
      exact .goTo _ ledger (fun _ => Machine.goTo_worker) stands.minds ⟨job, here, rfl, beq_iff_eq.mp queued⟩
    · exact sound.goesOn at_ (fun _ mine => mine) trivial
  · rename_i job at_
    have stands := sound.place _ at_
    obtain ⟨row, here, same, queued⟩ := stands.tells
    refine .goTo _ (ledger.started job.requestId) (fun _ => Machine.goTo_worker) (fun row' there running =>
      ?_) ⟨?_, ?_⟩
    · obtain ⟨old, before, ⟨selected, rfl⟩ | ⟨-, rfl⟩⟩ := Rows.mem_update there
      · rw [Bool.and_eq_true, beq_iff_eq] at selected
        exact selected.1.symm
      · exact (stands.minds row' before running).elim
    · have selected : (row.requestId == job.requestId && row.status == .queued) = true := by rw [same, queued]; simp
      exact ⟨{ row with status := .running }, Rows.update_selected here selected, same, rfl⟩
    · exact same ▸ ledger.fresh here queued
  · rename_i job at_
    have stands := sound.place _ at_
    split
    · obtain ⟨⟨row, here, same, running⟩, fresh⟩ := stands.tells
      refine .goTo _ ?_ (fun _ => Machine.goTo_worker) stands.minds trivial
      rw [← same] at fresh ⊢
      exact ledger.begin here (by rw [running]; nofun) fresh
    · exact sound.goesOn at_ (fun _ => Or.inl) trivial
  · rename_i job result at_
    refine .goTo _ (ledger.finish job.requestId result) (fun _ =>
      Machine.goTo_worker) (fun row here running => ?_) trivial
    obtain ⟨before, differs⟩ := ledger.running_finish here running
    exact absurd ((sound.place _ at_).minds row before running).symm differs
  · rename_i at_
    split
    · exact sound.goesOn at_ (fun _ mine => mine) trivial
    · exact sound.goesOn at_ (fun _ mine => mine) trivial
  · rename_i job at_
    have stands := sound.place _ at_
    refine .goTo _ (ledger.acknowledge stands.tells) (fun _ =>
      Machine.goTo_worker) (fun row here running => ?_) trivial
    obtain ⟨old, before, ⟨-, rfl⟩ | ⟨-, rfl⟩⟩ := Rows.mem_update here
    · exact stands.minds old before running
    · exact stands.minds row before running
  · rename_i at_
    have stands := sound.place _ at_
    refine .goTo _ ledger (fun _ => Machine.goTo_worker) stands.minds fun helper same => ?_
    obtain ⟨loaded, there, rfl⟩ := Option.map_eq_some_iff.mp same
    obtain ⟨old, -, rfl⟩ := Option.map_eq_some_iff.mp there
    rfl
  · rename_i at_
    have stands := sound.place _ at_
    split
    · rename_i removed
      refine .goTo _ ledger (fun _ => Machine.goTo_worker) stands.minds ?_
      cases known : s.helper with
      | none =>
        rw [known] at removed
        cases removed
      | some helper =>
        rw [known] at removed
        exact (stands.tells helper known).symm.trans (beq_iff_eq.mp removed)
    · exact sound.goesOn at_ (fun _ mine => mine) trivial
  · rename_i at_
    have stands := sound.place _ at_
    split
    · exact sound.goesOn at_ (fun _ mine => mine) stands.tells
    · exact sound.goesOn at_ (fun _ mine => mine) trivial
  · rename_i at_
    have stands := sound.place _ at_
    exact .goTo _ ledger (fun _ => Machine.goTo_worker) stands.minds stands.tells
  · exact ⟨ledger, nofun⟩
  · exact sound

theorem Machine.Sound.child (output : Json) : (s.child output).Sound := by
  have ledger := sound.ledger
  unfold Machine.child
  split
  · rename_i job at_
    split
    · exact sound.goesOn at_ (fun _ mine => mine) trivial
    · exact sound.goesOn at_ (fun _ => Or.inl) trivial
  · rename_i at_
    exact sound.goesOn at_ (fun _ mine => mine) trivial
  · exact sound

theorem Machine.Sound.deliver (confirmed : Bool) : (s.deliver confirmed).Sound := by
  have ledger := sound.ledger
  unfold Machine.deliver
  split
  · rename_i job at_
    have stands := sound.place _ at_
    split
    · exact .goTo _ (ledger.deliver job.requestId) (fun _ => Machine.goTo_worker) stands.minds List.mem_cons_self
    · exact sound.goesOn at_ (fun _ mine => mine) trivial
  · exact sound

theorem Machine.Sound.fail : s.fail.Sound := by
  have ledger := sound.ledger
  unfold Machine.fail
  split
  · rename_i at_
    exact sound.goesOn at_ (fun _ => Or.inl) trivial
  · rename_i at_
    exact sound.goesOn at_ (fun _ => Or.inl) trivial
  · rename_i at_
    exact sound.goesOn at_ (fun _ => Or.inl) trivial
  · rename_i at_
    exact sound.goesOn at_ (fun _ mine => mine) trivial
  · rename_i at_
    exact sound.goesOn at_ (fun _ mine => mine) trivial
  · rename_i at_
    exact sound.goesOn at_ (fun _ mine => mine) trivial
  · exact ⟨ledger, fun place at_ => absurd (s.worker_halt.symm.trans at_) nofun⟩

theorem Machine.Sound.threads (worker : helper.bind Helper.worker = s.worker)
    (record : ∀ helper', helper = some helper' → helper'.record = s.deployment ∨ ∃ old, s.helper = some old ∧
      helper'.record = old.record) :
    Machine.Sound { s with helper := helper } where
  ledger := sound.ledger
  place place at_ := by
    have stands := sound.place place (worker.symm.trans at_)
    refine ⟨stands.minds, ?_⟩
    have tells := stands.tells
    cases place with
    | loaded =>
      intro helper' known
      obtain same | ⟨old, known', same⟩ := record helper' known
      · exact same
      · exact same.trans (tells old known')
    | _ => exact tells

theorem Machine.Sound.load : s.load.Sound := by
  refine sound.threads (Machine.worker_load s) fun helper known => Or.inl ?_
  obtain ⟨old, -, rfl⟩ := Option.map_eq_some_iff.mp known
  rfl

theorem Machine.Sound.handle (place : HandlerPlace) : (s.handle place).Sound := by
  refine sound.threads (Machine.worker_handle place s) fun helper known => Or.inr ?_
  obtain ⟨old, known', rfl⟩ := Option.map_eq_some_iff.mp known
  exact ⟨old, known', rfl⟩

theorem Machine.Sound.receive (command : Json) (verified : Bool) : (s.receive command verified).Sound := by
  unfold Machine.receive
  split
  · exact sound.load.handle _
  · exact sound.load
  · exact sound

theorem Machine.Sound.check : s.check.2.Sound := by
  unfold Machine.check
  split
  · split
    · exact sound.handle _
    · exact sound.handle _
  · exact sound

theorem Machine.Sound.operate (status : DeploymentStatus) : (s.operate status).Sound := by
  unfold Machine.operate
  split
  · rename_i down
    refine ⟨sound.ledger, fun place at_ => ?_⟩
    rw [Machine.worker, down] at at_
    cases at_
  · rename_i at_ _
    refine ⟨sound.ledger, fun place at_' => ?_⟩
    rw [show s.worker = some place from at_'] at at_
    cases at_
    exact ⟨(sound.place _ at_').minds, trivial⟩
  · rename_i at_ _
    refine ⟨sound.ledger, fun place at_' => ?_⟩
    rw [show s.worker = some place from at_'] at at_
    cases at_
    exact ⟨(sound.place _ at_').minds, trivial⟩
  · exact sound

end

section Runs
variable [DecidableEq D] {rule : Machine D → LifecycleEvent → Prop} {digest : Json → D}

theorem Machine.Sound.submit (sound : s.Sound) (now : Int) : (s.submit digest now).2.Sound := by
  have ledger := sound.ledger
  unfold Machine.submit
  split
  · rename_i command _
    refine ⟨ledger.submit digest now command, fun place at_ => ?_⟩
    have stands := (sound.handle .accepting).place place at_
    obtain same | ⟨job, same, queued, -⟩ := JobStore.submit_cases digest now command s.jobs
    · dsimp only
      rw [same]
      exact stands
    · dsimp only
      rw [same]
      refine ⟨fun row here running => ?_, ?_⟩
      · rcases List.mem_append.mp here with before | new
        · exact stands.minds row before running
        · rw [List.mem_singleton.mp new, queued] at running
          cases running
      · have tells := stands.tells
        cases place with
        | queued job' =>
          obtain ⟨row, here, rest⟩ := tells
          exact ⟨row, List.mem_append_left _ here, rest⟩
        | started job' =>
          obtain ⟨⟨row, here, rest⟩, fresh⟩ := tells
          exact ⟨⟨row, List.mem_append_left _ here, rest⟩, fresh⟩
        | _ => exact tells
  · exact sound

theorem Machine.Sound.apply (sound : s.Sound) (event : LifecycleEvent) : (s.apply digest event).Sound := by
  cases event with
  | work => exact sound.work
  | child output => exact sound.child output
  | deliver confirmed => exact sound.deliver confirmed
  | fail => exact sound.fail
  | operate status => exact sound.operate status
  | receive command verified => exact sound.receive command verified
  | check => exact sound.check
  | submit now => exact sound.submit now
  | crash => exact ⟨sound.ledger, nofun⟩
  | start =>
    rw [Machine.apply]
    split
    · refine ⟨sound.ledger, fun place at_ => ?_⟩
      cases at_
      exact ⟨fun _ _ _ => trivial, trivial⟩
    · exact sound

theorem Machine.Sound.reaches (sound : s.Sound) (reach : Reaches rule digest s t) : t.Sound := by
  induction reach with
  | refl => exact sound
  | step event _ _ before => exact before.apply event

end Runs

end OpenNode.Lifecycle
