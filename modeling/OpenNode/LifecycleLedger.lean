import OpenNode.LifecycleHost

namespace OpenNode.Lifecycle

open Bool List

variable {D : Type} {jobs jobs' : List (Job D)} {begun acknowledged : List String}

theorem resultState_inactive (result : Json) : (resultState result).active = false := by
  unfold resultState
  split <;> rfl

/-- The status of a job is that of its result. -/
def Job.Agrees (job : Job D) : Prop :=
  match job.result with
  | none => job.status.active = true
  | some result => job.status = resultState result

variable {job : Job D}

theorem Job.Agrees.of_some {result : Json} (agrees : job.Agrees) (ended : job.result = some result) :
    job.status = resultState result := by
  rw [Job.Agrees, ended] at agrees
  exact agrees

theorem Job.Agrees.of_active (agrees : job.Agrees) (active : job.status.active = true) : job.result = none := by
  cases known : job.result with
  | none => rfl
  | some result =>
    rw [agrees.of_some known, resultState_inactive] at active
    cases active

/-- What holds of the jobs, of the operations begun and of the results delivered at any time. -/
structure Ledger (jobs : List (Job D)) (begun acknowledged : List String) : Prop where
  distinct : (jobs.map Job.requestId).Nodup
  alone : (jobs.filter (·.status.active)).length ≤ 1
  agrees : ∀ job ∈ jobs, job.Agrees
  reported : ∀ job ∈ jobs, job.reported = true → job.result.isSome = true ∧ job.requestId ∈ acknowledged
  once : begun.Nodup
  known : ∀ id ∈ begun, ∃ job ∈ jobs, job.requestId = id ∧ job.status ≠ .queued

/-- What becomes of a job: it is not queued again, and keeps its result. -/
structure Job.Onward (job job' : Job D) : Prop where
  id : job'.requestId = job.requestId
  fingerprint : job'.fingerprint = job.fingerprint
  action : job'.action = job.action
  taken : job.status ≠ .queued → job'.status ≠ .queued
  result : ∀ result, job.result = some result → job'.result = some result ∧ job'.status = job.status
  reported : job.reported = true → job'.reported = true

theorem Job.Onward.refl (job : Job D) : job.Onward job :=
  ⟨rfl, rfl, rfl, fun taken => taken, fun _ ended => ⟨ended, rfl⟩, fun reported => reported⟩

theorem Job.Onward.trans {job' job'' : Job D} (first : job.Onward job') (second : job'.Onward job'') :
    job.Onward job'' where
  id := second.id.trans first.id
  fingerprint := second.fingerprint.trans first.fingerprint
  action := second.action.trans first.action
  taken taken := second.taken (first.taken taken)
  result result ended := by
    obtain ⟨ended', status⟩ := first.result result ended
    obtain ⟨ended'', status'⟩ := second.result result ended'
    exact ⟨ended'', status'.trans status⟩
  reported reported := second.reported (first.reported reported)

/-- Every job stays. -/
def Onward (jobs jobs' : List (Job D)) : Prop :=
  ∀ job ∈ jobs, ∃ job' ∈ jobs', job.Onward job'

theorem Onward.refl (jobs : List (Job D)) : Onward jobs jobs :=
  fun job here => ⟨job, here, Job.Onward.refl job⟩

theorem Onward.trans {jobs'' : List (Job D)} (first : Onward jobs jobs') (second : Onward jobs' jobs'') :
    Onward jobs jobs'' := by
  intro job here
  obtain ⟨job', there, onward⟩ := first job here
  obtain ⟨job'', there', onward'⟩ := second job' there
  exact ⟨job'', there', onward.trans onward'⟩

theorem Onward.update {selects : Job D → Bool} {set : Job D → Job D}
    (onward : ∀ job ∈ jobs, selects job = true → job.Onward (set job)) :
    Onward jobs (Rows.update selects set jobs) := by
  intro job here
  cases selected : selects job with
  | true => exact ⟨set job, Rows.update_selected here selected, onward job here selected⟩
  | false => exact ⟨job, Rows.update_other here selected, Job.Onward.refl job⟩

namespace Ledger

variable (ledger : Ledger jobs begun acknowledged)
include ledger

theorem onward_started (id : String) : Onward jobs (JobStore.started id jobs) := by
  refine Onward.update fun job here selected => ?_
  rw [and_eq_true, beq_iff_eq, beq_iff_eq] at selected
  have open_ : job.result = none := (ledger.agrees job here).of_active (by rw [selected.2]; rfl)
  refine ⟨rfl, rfl, rfl, fun _ => nofun, fun result ended => ?_, fun reported => reported⟩
  rw [open_] at ended
  cases ended

omit ledger in
theorem onward_finish (jobs : List (Job D)) (id : String) (result : Json) :
    Onward jobs (JobStore.finish id result jobs) := by
  refine Onward.update fun job _ selected => ?_
  rw [and_eq_true, Option.isNone_iff_eq_none] at selected
  refine ⟨rfl, rfl, rfl, fun _ queued => ?_, fun result' ended => ?_, fun reported => reported⟩
  · have inactive := resultState_inactive result
    rw [show resultState result = .queued from queued] at inactive
    cases inactive
  · rw [selected.2] at ended
    cases ended

omit ledger in
theorem onward_acknowledge (jobs : List (Job D)) (id : String) : Onward jobs (JobStore.acknowledge id jobs) :=
  Onward.update fun _ _ _ => ⟨rfl, rfl, rfl, fun taken => taken, fun _ ended => ⟨ended, rfl⟩, fun _ => rfl⟩

theorem update {selects : Job D → Bool} {set : Job D → Job D} (keeps : ∀ job, (set job).requestId = job.requestId)
    (drops : ∀ job, selects job = true → (set job).status.active = true → job.status.active = true)
    (agrees : ∀ job ∈ jobs, selects job = true → (set job).Agrees)
    (reported : ∀ job ∈ jobs, selects job = true → (set job).reported = true →
      (set job).result.isSome = true ∧ job.requestId ∈ acknowledged)
    (onward : Onward jobs (Rows.update selects set jobs)) :
    Ledger (Rows.update selects set jobs) begun acknowledged where
  distinct := by
    rw [Rows.keys_update keeps]
    exact ledger.distinct
  alone := (Rows.filter_update_le drops).trans ledger.alone
  agrees job here := by
    obtain ⟨old, before, ⟨selected, rfl⟩ | ⟨-, rfl⟩⟩ := Rows.mem_update here
    · exact agrees old before selected
    · exact ledger.agrees job before
  reported job here done := by
    obtain ⟨old, before, ⟨selected, rfl⟩ | ⟨-, rfl⟩⟩ := Rows.mem_update here
    · rw [keeps]
      exact reported old before selected done
    · exact ledger.reported job before done
  once := ledger.once
  known id here := by
    obtain ⟨job, before, same, taken⟩ := ledger.known id here
    obtain ⟨job', there, onward⟩ := onward job before
    exact ⟨job', there, onward.id.trans same, onward.taken taken⟩

theorem started (id : String) : Ledger (JobStore.started id jobs) begun acknowledged := by
  refine ledger.update (fun _ => rfl) (fun job selected _ => ?_) (fun job here selected => ?_)
    (fun job here _ done => ledger.reported job here done) (ledger.onward_started id)
  · rw [and_eq_true, beq_iff_eq, beq_iff_eq] at selected
    rw [selected.2]
    rfl
  · rw [and_eq_true, beq_iff_eq, beq_iff_eq] at selected
    have open_ : job.result = none := (ledger.agrees job here).of_active (by rw [selected.2]; rfl)
    simp only [Job.Agrees, open_, JobStatus.active]

theorem finish (id : String) (result : Json) : Ledger (JobStore.finish id result jobs) begun acknowledged := by
  refine ledger.update (fun _ => rfl) (fun job _ active => ?_) (fun job _ _ => rfl)
    (fun job here _ done => ⟨rfl, (ledger.reported job here done).2⟩) (onward_finish jobs id result)
  rw [resultState_inactive] at active
  cases active

theorem acknowledge {id : String} (delivered : id ∈ acknowledged) :
    Ledger (JobStore.acknowledge id jobs) begun acknowledged := by
  refine ledger.update (fun _ => rfl) (fun job _ active => active) (fun job here _ => ledger.agrees job here)
    (fun job here selected _ => ?_) (onward_acknowledge jobs id)
  rw [and_eq_true, beq_iff_eq] at selected
  exact ⟨selected.2, selected.1 ▸ delivered⟩

variable {job : Job D}

theorem begin (here : job ∈ jobs) (taken : job.status ≠ .queued) (fresh : job.requestId ∉ begun) :
    Ledger jobs (job.requestId :: begun) acknowledged where
  distinct := ledger.distinct
  alone := ledger.alone
  agrees := ledger.agrees
  reported := ledger.reported
  once := List.nodup_cons.mpr ⟨fresh, ledger.once⟩
  known id there := by
    rcases List.mem_cons.mp there with rfl | before
    · exact ⟨job, here, rfl, taken⟩
    · exact ledger.known id before

theorem deliver (id : String) : Ledger jobs begun (id :: acknowledged) where
  distinct := ledger.distinct
  alone := ledger.alone
  agrees := ledger.agrees
  reported job here done :=
    ⟨(ledger.reported job here done).1, mem_cons_of_mem _ (ledger.reported job here done).2⟩
  once := ledger.once
  known := ledger.known

theorem fresh (here : job ∈ jobs) (queued : job.status = .queued) : job.requestId ∉ begun := by
  intro begun_
  obtain ⟨job', there, same, taken⟩ := ledger.known _ begun_
  rw [Rows.unique ledger.distinct there here same] at taken
  exact taken queued

end Ledger

variable {id : String}

theorem JobStore.get_some (found : get id jobs = some job) : job ∈ jobs ∧ job.requestId = id := by
  have same := List.find?_some found
  rw [beq_iff_eq] at same
  exact ⟨mem_of_find?_eq_some found, same⟩

theorem JobStore.get_none (absent : get id jobs = none) : ∀ job ∈ jobs, job.requestId ≠ id := by
  intro job here same
  have differs := List.find?_eq_none.mp absent job here
  exact differs (beq_iff_eq.mpr same)

section Submission
variable [DecidableEq D] (digest : Json → D) (now : Int) (command : Json)

theorem JobStore.submit_cases (jobs : List (Job D)) : (submit digest now command jobs).2 = jobs ∨
    ∃ job, (submit digest now command jobs) = (.ok job, jobs ++ [job]) ∧ job.status = .queued ∧ job.result = none ∧
      job.reported = false ∧ job.requestId = requestId command ∧ job.fingerprint = fingerprint digest command ∧
      validateCommand command = .ok job.action ∧ (∀ old ∈ jobs, old.requestId ≠ requestId command) ∧
      ∀ old ∈ jobs, old.status.active = false := by
  unfold submit
  split
  · exact Or.inl rfl
  · rename_i action valid
    split
    · split
      · exact Or.inl rfl
      · exact Or.inl rfl
    · rename_i absent
      split
      · exact Or.inl rfl
      · rename_i idle
        rw [not_eq_true] at idle
        exact Or.inr ⟨_, rfl, rfl, rfl, rfl, rfl, rfl, valid, JobStore.get_none absent,
          fun old here => not_eq_true _ ▸ List.any_eq_false.mp idle old here⟩

theorem JobStore.submit_known {job : Job D} {action : LifecycleAction} (distinct : (jobs.map Job.requestId).Nodup)
    (here : job ∈ jobs) (same : job.requestId = requestId command) (valid : validateCommand command = .ok action) :
    submit digest now command jobs =
      (if fingerprint digest command = job.fingerprint then .ok job
        else .error "Lifecycle request ID reused with different content", jobs) := by
  cases found : get (requestId command) jobs with
  | none => exact absurd same (JobStore.get_none found job here)
  | some existing =>
    obtain ⟨there, same'⟩ := JobStore.get_some found
    have equal := Rows.unique distinct there here (same'.trans same.symm)
    subst equal
    simp only [submit, valid, found]
    by_cases content : fingerprint digest command = existing.fingerprint
    · rw [if_pos content, if_neg (not_not.mpr content.symm)]
    · rw [if_neg content, if_pos (Ne.symm content)]

theorem JobStore.onward_submit (jobs : List (Job D)) : Onward jobs (submit digest now command jobs).2 := by
  obtain same | ⟨job, same, -⟩ := submit_cases digest now command jobs
  · rw [same]
    exact Onward.refl jobs
  · rw [same]
    exact fun old here => ⟨old, mem_append_left _ here, Job.Onward.refl old⟩

theorem Ledger.submit (ledger : Ledger jobs begun acknowledged) :
    Ledger (JobStore.submit digest now command jobs).2 begun acknowledged := by
  obtain same | ⟨job, same, queued, open_, unreported, id, -, -, absent, idle⟩ :=
    JobStore.submit_cases digest now command jobs
  · rw [same]
    exact ledger
  · rw [same]
    refine ⟨?_, ?_, fun other here => ?_, fun other here done => ?_, ledger.once, fun id here => ?_⟩
    · rw [map_append, map_singleton]
      refine List.Nodup.append ledger.distinct (nodup_singleton _) ?_
      intro known here new
      rw [mem_singleton] at new
      obtain ⟨old, before, rfl⟩ := List.mem_map.mp here
      exact absent old before (new.trans id)
    · have none_ : jobs.filter (·.status.active) = [] :=
        List.filter_eq_nil_iff.mpr fun old here => by rw [idle old here]; exact false_ne_true
      rw [filter_append, none_, nil_append]
      exact length_filter_le _ _
    · rcases List.mem_append.mp here with before | new
      · exact ledger.agrees other before
      · rw [mem_singleton] at new
        subst new
        simp only [Job.Agrees, open_, queued, JobStatus.active]
    · rcases List.mem_append.mp here with before | new
      · exact ledger.reported other before done
      · rw [mem_singleton] at new
        rw [new, unreported] at done
        cases done
    · obtain ⟨old, before, rest⟩ := ledger.known id here
      exact ⟨old, mem_append_left _ before, rest⟩

end Submission

theorem JobStore.mem_rows {condition : Job D → Bool} :
    job ∈ rows condition jobs ↔ job ∈ jobs ∧ condition job = true := by
  rw [rows, mem_insertionSort, mem_filter]

end OpenNode.Lifecycle
