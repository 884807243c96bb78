import OpenNode.NodeCleanup

namespace OpenNode.Agent

open Interruption Program CleanupState

variable {Config Limits Suspended : Type}

/-- The stores of a prepared job: each is the original or the desired one, and
the old limits are retired only once the desired configuration is in force. -/
structure CleanupJob.Between (job : CleanupJob Config Limits Suspended) (stores : Stores Config Limits Suspended) :
    Prop where
  config : stores.config = job.original.config ∨ stores.config = job.desired.config
  limits : stores.limits = job.original.limits ∨ stores.limits = job.desired.limits
  suspended : stores.suspended = job.original.suspended
  order : stores.limits ≠ job.original.limits → stores.config = job.desired.config

/-- What `handle` has checked of a job that it prepares. -/
structure CleanupJob.Checked
    (host : CleanupHost Config Limits Suspended) (job : CleanupJob Config Limits Suspended) :
    Prop where
  preserves : host.preserves job.original.config job.desired.config = true
  fits : host.fits job.original job.desired = true
  validates : host.validates job.desired.config = true

/-- What holds of the stores and the jobs in every run. -/
structure CleanupSound (host : CleanupHost Config Limits Suspended) (s : CleanupState Config Limits Suspended) :
    Prop where
  between : ∀ job, s.prepared = some job → job.Between s.stores
  checked : ∀ job, s.prepared = some job → job.Checked host
  once : (s.completed.map Prod.fst).Nodup
  fresh : ∀ job, s.prepared = some job → job.id ∉ s.completed.map Prod.fst

def CleanupState.withStores (s : CleanupState Config Limits Suspended) (stores : Stores Config Limits Suspended) :
    CleanupState Config Limits Suspended :=
  { s with stores := stores }

variable {host : CleanupHost Config Limits Suspended} {s : CleanupState Config Limits Suspended}

theorem CleanupSound.withStores (sound : CleanupSound host s) {stores : Stores Config Limits Suspended}
    (between : ∀ job, s.prepared = some job → job.Between stores) : CleanupSound host (s.withStores stores) :=
  ⟨between, sound.checked, sound.once, sound.fresh⟩

variable {job : CleanupJob Config Limits Suspended}

theorem CleanupSound.complete (sound : CleanupSound host s) (prepared : s.prepared = some job) :
    CleanupSound host (s.complete job) where
  between := nofun
  checked := nofun
  once := by
    rw [CleanupState.complete, List.map_append, List.map_singleton, ← List.concat_eq_append]
    exact sound.once.concat (sound.fresh job prepared)
  fresh := nofun

theorem CleanupSound.prepare (sound : CleanupSound host s) (stores : job.original = s.stores)
    (checked : job.Checked host) (fresh : job.id ∉ s.completed.map Prod.fst) :
    CleanupSound host (s.prepare job) where
  between other same := by
    cases same
    exact ⟨.inl (stores ▸ rfl), .inl (stores ▸ rfl), stores ▸ rfl, fun differs => absurd (stores ▸ rfl) differs⟩
  checked other same := by
    cases same
    exact checked
  once := sound.once
  fresh other same := by
    cases same
    exact fresh

theorem writeConfig_ok [DecidableEq Config] {config expected : Config} (valid : host.validates config = true)
    (current : s.stores.config = expected) :
    writeConfig host config expected s = .ok (s.withStores { s.stores with config := config }) := by
  unfold writeConfig
  rw [valid, if_neg (by simp), if_neg (not_not.mpr current)]
  rfl

variable [DecidableEq Config] [DecidableEq Limits] [DecidableEq Suspended]
variable {host : CleanupHost Config Limits Suspended} {s : CleanupState Config Limits Suspended}
variable {job : CleanupJob Config Limits Suspended}

/-- The end of a recovery: the desired stores, and the job completed. -/
def CleanupState.recovered (s : CleanupState Config Limits Suspended) (job : CleanupJob Config Limits Suspended) :
    CleanupState Config Limits Suspended :=
  { stores := job.desired, prepared := none, completed := s.completed ++ [(job.id, job.fingerprint)] }

omit [DecidableEq Suspended] in
theorem retireLimits_recovers (sound : CleanupSound host s) (prepared : s.prepared = some job) (running : Bool)
    (config : s.stores.config = job.desired.config) :
    Recovers (CleanupSound host) s (retireLimits host running job s.stores.limits)
      (· = s.withStores { s.stores with limits := job.desired.limits }) := by
  have checked := sound.checked job prepared
  have between := sound.between job prepared
  have retired : CleanupSound host (s.withStores { s.stores with limits := job.desired.limits }) := by
    refine sound.withStores fun other same => ?_
    cases prepared.symm.trans same
    exact ⟨.inr config, .inr rfl, between.suspended, fun _ => config⟩
  unfold retireLimits
  by_cases changed : s.stores.limits ≠ job.desired.limits
  · rw [if_pos changed]
    refine .step (write_eq_ok.mpr rfl) sound ?_
    cases running with
    | false => exact .done retired rfl
    | true =>
      refine .step (writeConfig_ok checked.validates config) retired ?_
      have same : { s.stores with limits := job.desired.limits, config := job.desired.config } =
          { s.stores with limits := job.desired.limits } := by rw [← config]
      show Recovers _ (s.withStores { s.stores with limits := job.desired.limits, config := job.desired.config }) _
        _
      rw [same]
      refine .step (check_eq_ok.mpr ⟨?_, rfl⟩) retired (.done retired rfl)
      show host.preserves job.original.config s.stores.config = true
      rw [config]
      exact checked.preserves
  · rw [if_neg changed]
    have same : s.withStores { s.stores with limits := job.desired.limits } = s := by
      rw [← not_not.mp changed]
      rfl
    rw [same]
    exact .done sound rfl

section

variable (sound : CleanupSound host s)
include sound

theorem commitCleanup_recovers (prepared : s.prepared = some job)
    (config : s.stores.config = job.desired.config) (limits : s.stores.limits = job.desired.limits) :
    Recovers (CleanupSound host) s (commitCleanup job s.stores.suspended) (· = s.recovered job) := by
  refine .step (check_eq_ok.mpr ⟨⟨config, limits, rfl⟩, rfl⟩) sound ?_
  refine .step (write_eq_ok.mpr rfl) sound (.done (sound.complete prepared) ?_)
  simp only [complete, recovered, config, limits]

theorem recoverJob_recovers (prepared : s.prepared = some job) (running : Bool) :
    Recovers (CleanupSound host) s (recoverJob host running job) (· = s.recovered job) := by
  have checked := sound.checked job prepared
  have between := sound.between job prepared
  refine .step (check_eq_ok.mpr ⟨checked.fits, rfl⟩) sound ?_
  refine .step (write_eq_ok.mpr rfl) sound ?_
  refine .read ?_
  refine .step (check_eq_ok.mpr ⟨checked.preserves, rfl⟩) sound ?_
  refine .step (check_eq_ok.mpr ⟨⟨between.config, between.limits, .inl between.suspended⟩, rfl⟩) sound ?_
  -- The limits are the original ones as long as the configuration is.
  have still : ¬(s.stores.config ≠ job.desired.config ∧ s.stores.limits ≠ job.original.limits) :=
    fun both => both.1 (between.order both.2)
  refine .step (t := s) (write_eq_ok.mpr (if_neg still).symm) sound ?_
  refine .step (writeConfig_ok checked.validates rfl) sound ?_
  have written : CleanupSound host (s.withStores { s.stores with config := job.desired.config }) := by
    refine sound.withStores fun other same => ?_
    cases prepared.symm.trans same
    exact ⟨.inr rfl, between.limits, between.suspended, fun _ => rfl⟩
  refine .step (check_eq_ok.mpr ⟨checked.preserves, rfl⟩) written ?_
  refine .step (check_eq_ok.mpr ⟨rfl, rfl⟩) written ?_
  refine .step (check_eq_ok.mpr ⟨between.limits, rfl⟩) written ?_
  refine .read ?_
  refine .seq (retireLimits_recovers written prepared running rfl) ?_
  have retired : CleanupSound host
      (s.withStores { s.stores with config := job.desired.config, limits := job.desired.limits }) := by
    refine sound.withStores fun other same => ?_
    cases prepared.symm.trans same
    exact ⟨.inr rfl, .inr rfl, between.suspended, fun _ => rfl⟩
  exact commitCleanup_recovers retired prepared rfl rfl

theorem recoverCleanup_recovers (prepared : s.prepared = some job) (running : Bool) :
    Recovers (CleanupSound host) s (recoverCleanup host running) (· = s.recovered job) := by
  refine .read ?_
  rw [prepared]
  exact recoverJob_recovers sound prepared running

theorem recoverCleanup_safe (running : Bool) :
    Safe (CleanupSound host) (· = s) (recoverCleanup host running) fun _ => True := by
  cases prepared : s.prepared with
  | none =>
    refine .read fun t same => ?_
    rw [same, prepared]
    exact .done (fun _ same => same ▸ sound) fun _ _ => trivial
  | some job => exact (recoverCleanup_recovers sound prepared running).safe.weaken (fun _ => id) fun _ _ => trivial

theorem prepareCleanup_safe (running : Bool) (request : CleanupRequest)
    (fresh : ∀ operationId revision, request.action = .apply operationId revision →
      operationId ∉ s.completed.map Prod.fst) :
    Safe (CleanupSound host) (· = s) (prepareCleanup host running request) fun _ => True := by
  have here : ∀ t, t = s → CleanupSound host t := fun _ same => same ▸ sound
  refine .check sound fun idle => ?_
  refine .step (M := (· = s)) here (fun t u same ok => (write_eq_ok.mp ok).trans same) ?_
  refine .read fun t same => ?_
  rw [same]
  cases found : host.candidate s.stores request with
  | error error => exact .fail here
  | ok desired =>
    dsimp only
    by_cases preserved : host.preserves s.stores.config desired.config = true
    · rw [preserved, if_neg (by simp)]
      cases action : request.action with
      | preview => exact .done here fun _ _ => trivial
      | status operationId => exact .done here fun _ _ => trivial
      | apply operationId revision =>
        refine .check sound fun _ => ?_
        refine .check sound fun valid => ?_
        refine .check sound fun _ => ?_
        refine .check sound fun fits => ?_
        have next : CleanupSound host (s.prepare
            { id := operationId, fingerprint := host.fingerprint request, original := s.stores,
              desired := desired }) :=
          sound.prepare rfl ⟨preserved, fits, valid⟩ (fresh operationId revision action)
        refine .step (M := (· = s.prepare
          { id := operationId, fingerprint := host.fingerprint request, original := s.stores, desired := desired }))
          here ?_ (recoverCleanup_safe next running)
        intro t u same ok
        rw [write_eq_ok.mp ok, same]
    · rw [Bool.not_eq_true] at preserved
      rw [preserved, if_pos (by simp)]
      exact .fail here

theorem handleCleanup_safe (running : Bool) (request : CleanupRequest) :
    Safe (CleanupSound host) (· = s) (handleCleanup host running request) fun _ => True := by
  have here : ∀ t, t = s → CleanupSound host t := fun _ same => same ▸ sound
  unfold handleCleanup
  cases action : request.action with
  | status operationId => exact .done here fun _ _ => trivial
  | preview =>
    refine prepareCleanup_safe sound running request fun operationId revision applied => ?_
    rw [action] at applied
    cases applied
  | apply operationId revision =>
    refine .read fun t same => ?_
    rw [same]
    cases known : s.previous operationId with
    | some row =>
      obtain ⟨fingerprint, prepared⟩ := row
      dsimp only
      split
      · exact .fail here
      · split
        · exact recoverCleanup_safe sound running
        · exact .done here fun _ _ => trivial
    | none =>
      refine prepareCleanup_safe sound running request fun id revision' applied => ?_
      rw [action] at applied
      cases applied
      unfold CleanupState.previous at known
      split at known
      · cases known
      · rw [Option.map_eq_none_iff, List.lookup_eq_none_iff] at known
        intro member
        obtain ⟨row, atRow, same⟩ := List.mem_map.mp member
        have other := known row atRow
        rw [same] at other
        simp at other

end

/-- What happens around the cleanup: requests and recoveries that are
interrupted anywhere, and other changes of the stores while no job is prepared. -/
inductive CleanupRun (host : CleanupHost Config Limits Suspended) : CleanupState Config Limits Suspended → Prop
  | start (stores : Stores Config Limits Suspended) : CleanupRun host { stores := stores }
  | handle {s : CleanupState Config Limits Suspended} (request : CleanupRequest) (running : Bool)
      (effects : Nat → Effect) : CleanupRun host s →
      CleanupRun host ((handleCleanup host running request).run effects s).1
  | recover {s : CleanupState Config Limits Suspended} (running : Bool) (effects : Nat →
      Effect) : CleanupRun host s →
      CleanupRun host ((recoverCleanup host running).run effects s).1
  | edit {s : CleanupState Config Limits Suspended} (stores : Stores Config Limits Suspended) : CleanupRun host s →
      s.prepared = none → CleanupRun host (s.withStores stores)

theorem CleanupRun.sound (run : CleanupRun host s) : CleanupSound host s := by
  induction run with
  | start stores => exact ⟨nofun, nofun, List.nodup_nil, nofun⟩
  | handle request running effects _ ih => exact (handleCleanup_safe ih running request effects _ rfl).1
  | recover running effects _ ih => exact (recoverCleanup_safe ih running effects _ rfl).1
  | edit stores _ idle ih =>
    refine ih.withStores fun job same => ?_
    rw [idle] at same
    cases same

/-- What the cleanup promises of a state in which it may have been interrupted. -/
structure CleanupRecoverable (host : CleanupHost Config Limits Suspended)
    (s : CleanupState Config Limits Suspended) :
    Prop where
  /-- Each store is the original or the desired one, and the limits are changed under the desired
  configuration only. -/
  between : ∀ job, s.prepared = some job → job.known s.stores ∧
    (s.stores.limits ≠ job.original.limits → s.stores.config = job.desired.config)
  /-- No job is completed twice. -/
  once : (s.completed.map Prod.fst).Nodup
  /-- An uninterrupted recovery ends with the desired stores and the completed job. -/
  recovers : ∀ job, s.prepared = some job → ∀ running,
    (recoverCleanup host running).run quiet s = (s.recovered job, none)
  /-- Stores that are neither original nor desired are left alone. -/
  refuses : ∀ job, s.prepared = some job → ∀ stores, ¬ job.known stores → ∀ running effects,
    ((recoverCleanup host running).run effects (s.withStores stores)).1 = s.withStores stores ∧
      ((recoverCleanup host running).run effects (s.withStores stores)).2 ≠ none

theorem recoverCleanup_refuses (prepared : s.prepared = some job) (unknown : ¬ job.known s.stores)
    (running : Bool) :
    Refuses (· = s) (recoverCleanup host running) := by
  refine .read fun t same => ?_
  rw [same, prepared]
  refine .check fun _ => ?_
  refine .step fun t u same ok => ⟨write_eq_ok.mp ok, ?_⟩
  refine .read fun t same => ?_
  rw [same]
  refine .check fun _ => ?_
  exact .check fun passed => absurd passed unknown

theorem CleanupRun.recoverable (run : CleanupRun host s) : CleanupRecoverable host s := by
  have sound := run.sound
  refine ⟨fun job prepared => ?_, sound.once, fun job prepared running => ?_,
    fun job prepared stores unknown running effects => ?_⟩
  · have between := sound.between job prepared
    exact ⟨⟨between.config, between.limits, .inl between.suspended⟩, between.order⟩
  · obtain ⟨ended, last⟩ := (recoverCleanup_recovers sound prepared running).completes s rfl
    exact Prod.ext last ended
  · exact recoverCleanup_refuses (s := s.withStores stores) prepared unknown running effects _ rfl

section Example

/-- A host whose configuration and limiter document are lists of inbound tags. -/
def tagHost : CleanupHost (List String) (List String) Unit where
  candidate stores request :=
    .ok
      { config := stores.config.filter fun tag => !request.inboundTags.contains tag
        limits := stores.limits.filter fun tag => !request.inboundTags.contains tag
        suspended := () }
  preserves _ _ := true
  fits _ _ := true
  validates _ := true
  revision _ _ := "0"
  fingerprint request := String.intercalate "," request.inboundTags

def edgeCleanup : CleanupRequest :=
  { action := .apply "c0ffee00-0000-4000-8000-000000000000" "0", inboundTags := ["edge"] }

/-- A cleanup of an inbound without limits, interrupted once it is prepared. -/
def edgeInterrupted : CleanupState (List String) (List String) Unit :=
  { stores := { config := ["edge", "other"], limits := ["other"], suspended := () }
    prepared := some
      { id := "c0ffee00-0000-4000-8000-000000000000"
        fingerprint := "edge"
        original := { config := ["edge", "other"], limits := ["other"], suspended := () }
        desired := { config := ["other"], limits := ["other"], suspended := () } } }

theorem edgeInterrupted_run : CleanupRun tagHost edgeInterrupted :=
  .handle edgeCleanup true (fun n => if n = 6 then .kept "interrupted" else .done)
    (.start { config := ["edge", "other"], limits := ["other"], suspended := () })

theorem edgeInterrupted_recoverable : CleanupRecoverable tagHost edgeInterrupted :=
  CleanupRun.recoverable edgeInterrupted_run

/-- The limiter document is the desired one only under the desired configuration. -/
def RetiredOnlyAfter (host : CleanupHost (List String) (List String) Unit) : Prop :=
  ∀ s, CleanupRun host s → ∀ job, s.prepared = some job → s.stores.limits = job.desired.limits →
    s.stores.config = job.desired.config

/-- A cleanup that changes no limits has the desired limiter document from the start. -/
theorem edgeInterrupted_not_retired : ¬ RetiredOnlyAfter tagHost := by
  intro only
  have same := only edgeInterrupted edgeInterrupted_run _ rfl rfl
  exact absurd same (by decide)

end Example

end OpenNode.Agent
