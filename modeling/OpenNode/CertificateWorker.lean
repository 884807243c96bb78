import OpenNode.CertificateOperations

namespace OpenNode.Certificates

open Edits Rows

/-- What holds of the tables between transactions, given what the CA has
confirmed. -/
structure Db.Safe (db : Db) (next : Nat) (confirmed : List (Nat × Leaf)) : Prop where
  sound : db.Sound next
  pursued : db.Pursued
  /-- A revocation counts as done only where the CA confirmed it to its job. -/
  revoked : ∀ entry ∈ db.revocations, entry.status = .revoked → (entry.jobId, entry.fingerprint) ∈ confirmed

/-- What the worker holds is in the tables, and its result is the CA's. -/
def Worker.Holds (worker : Worker) (db : Db) (confirmed : List (Nat × Leaf)) : Prop :=
  ∀ row job result, worker = .busy row job result →
    (∃ active ∈ db.jobs, active.id = job.id ∧ active.kind = job.kind ∧ active.parameters = job.parameters ∧
      active.certificateId = row.id ∧ active.status = .running) ∧
    ∀ done, result = some done → done.fits job = true ∧ ∀ leaf already, done = .revoked leaf already →
      (job.id, leaf) ∈ confirmed

/-- The jobs that a recovery would break off are of profiles whose current
version is not on record. -/
def Db.Recoverable (db : Db) : Prop :=
  ∀ job ∈ db.jobs, job.status = .running → job.administration = false →
    ∀ row ∈ db.certificates, row.id = job.certificateId → row.validationServerId = none → db.compromised row = false

section Shapes

variable {db t : Db} {next : Nat} {confirmed : List (Nat × Leaf)} {id : Nat}

theorem Done.safe (done : Done db t next) {before : Nat} (safe : db.Safe before confirmed) :
    t.Safe next confirmed where
  sound := done.sound
  pursued := done.pursued safe.pursued
  revoked := by
    intro entry here status
    rcases done.records entry here with old | ⟨pending, _⟩
    · exact safe.revoked entry old status
    · exact nomatch status.symm.trans pending

theorem Db.Pursued.ended (pursued : db.Pursued) (jobs : ∀ job ∈ db.jobs, job.id ≠ id → job ∈ t.jobs)
    (records : ∀ entry ∈ t.revocations, entry.status = .pending → entry ∈ db.revocations ∧ entry.jobId ≠ id) :
    t.Pursued := by
  intro entry here pending
  obtain ⟨old, other⟩ := records entry here pending
  obtain ⟨job, there, owns, live⟩ := pursued entry old pending
  exact ⟨job, jobs job there (owns ▸ other), owns, live⟩

theorem Db.Pursued.turned (pursued : db.Pursued) (id : Nat) (status : JobStatus)
    (message : CertificateJob → Option String)
    (live : (status == .queued || status == .running) = true)
    (jobs : t.jobs = (db.setJob id fun job => { job with status := status, message := message job }).jobs)
    (records : t.revocations = db.revocations) : t.Pursued := by
  intro entry here pending
  obtain ⟨job, there, owns, was⟩ := pursued entry (records ▸ here) pending
  rw [jobs]
  by_cases mine : job.id = id
  · exact ⟨{ job with status := status, message := message job },
      update_selected there (by simpa using mine), owns, live⟩
  · exact ⟨job, update_other there (by simpa using mine), owns, was⟩

/-- Every profile was there, with its version. -/
def Db.KeepsVersions (db t : Db) : Prop :=
  ∀ row' ∈ t.certificates, ∃ row ∈ db.certificates, row.id = row'.id ∧ row.versionId = row'.versionId

section

variable (keeps : db.KeepsVersions t)
include keeps

theorem Db.KeepsVersions.setCertificate {identifier : Nat} {set : ManagedCertificate → ManagedCertificate}
    (same : ∀ row, (set row).id = row.id ∧ (set row).versionId = row.versionId) :
    db.KeepsVersions (t.setCertificate identifier set) := by
  intro row' here
  obtain ⟨old, there, ⟨_, rfl⟩ | ⟨_, rfl⟩⟩ := mem_setCertificate _ here
  · obtain ⟨row, before, sameId, sameVersion⟩ := keeps old there
    exact ⟨row, before, sameId.trans (same old).1.symm, sameVersion.trans (same old).2.symm⟩
  · exact keeps row' there

theorem Db.KeepsVersions.mark {t' : Db} {leaf : Leaf} {jobId : Nat} {status : RevocationStatus}
    (done : markRevocation t leaf jobId status = .ok t') : db.KeepsVersions t' := by
  obtain ⟨_, rfl⟩ := markRevocation_ok done
  intro row' here
  obtain ⟨old, there, rfl⟩ := List.mem_map.mp here
  obtain ⟨sameId, _, sameVersion⟩ := markProfile_keys (t.setRevocation leaf status) leaf jobId old
  obtain ⟨row, before, keepsId, keepsVersion⟩ := keeps old there
  exact ⟨row, before, keepsId.trans sameId.symm, keepsVersion.trans sameVersion.symm⟩

theorem Db.KeepsVersions.kept (records : ∀ leaf, db.recorded leaf = true → t.recorded leaf = true) :
    Kept db t :=
  .of_profiles records fun row' here => .inl (keeps row' here)

theorem Db.KeepsVersions.settle (identifier : Nat) (default : Option CertificateStatus)
    (lastError : Option String) : db.KeepsVersions (Certificates.settle t identifier default lastError) :=
  keeps.setCertificate fun _ => ⟨rfl, rfl⟩

theorem Db.KeepsVersions.close (identifier : Nat) (job : CertificateJob) (ending : JobStatus)
    (message : Option String) : db.KeepsVersions (Certificates.close t identifier job ending message) :=
  Db.KeepsVersions.setCertificate (t := t.setJob job.id _) keeps fun _ => ⟨rfl, rfl⟩

end

theorem Db.KeepsVersions.refl (db : Db) : db.KeepsVersions db :=
  fun row here => ⟨row, here, rfl, rfl⟩

end Shapes

section Recovery

variable {db : Db} {next : Nat} {confirmed : List (Nat × Leaf)}

variable {job : CertificateJob}

theorem Db.Formed.holder (formed : db.Formed next) (here : job ∈ db.jobs) (live : job.live = true) :
    ∃ row ∈ db.certificates, row.id = job.certificateId ∧ row.activeJobId = some job.id ∧
      (db.certificate? job.certificateId).filter (·.activeJobId == some job.id) = some row := by
  obtain ⟨row, there, mine, active⟩ := formed.live job here live
  have listed : (db.certificate? job.certificateId).isSome :=
    List.find?_isSome.mpr ⟨row, there, by simpa using mine⟩
  obtain ⟨other, known⟩ := Option.isSome_iff_exists.mp listed
  obtain ⟨among, same⟩ := certificate?_some known
  obtain rfl := unique formed.certificateIds among there (same.trans mine.symm)
  exact ⟨other, there, mine, active, by rw [known, Option.filter_some, active, beq_self_eq_true, if_pos rfl]⟩

/-- What one turn of `_recover` keeps. -/
structure Recovered (db t : Db) (next : Nat) (confirmed : List (Nat × Leaf)) (id : Nat) : Prop where
  safe : t.Safe next confirmed
  keeps : db.KeepsVersions t
  recorded : t.recorded = db.recorded
  recoverable : t.Recoverable
  jobs : ∀ job ∈ db.jobs, job.id ≠ id → job ∈ t.jobs

theorem Db.Recoverable.turned (recoverable : db.Recoverable) {id identifier : Nat}
    {job : CertificateJob → CertificateJob}
    {row : ManagedCertificate → ManagedCertificate} (stops : ∀ old, (job old).status ≠ .running)
    (keeps : ∀ old, (row old).id = old.id ∧ (row old).validationServerId = old.validationServerId ∧
      (row old).versionId = old.versionId) : ((db.setJob id job).setCertificate identifier row).Recoverable := by
  intro other among running works profile listed same unvalidated
  obtain ⟨old, before, ⟨_, rfl⟩ | ⟨_, rfl⟩⟩ := mem_update among
  · exact absurd running (stops old)
  · obtain ⟨was, there, ⟨_, rfl⟩ | ⟨_, rfl⟩⟩ := mem_setCertificate (db.setJob id job) listed
    · obtain ⟨sameId, sameServer, sameVersion⟩ := keeps was
      have clean := recoverable other before running works was there (sameId.symm.trans same)
        (sameServer.symm.trans unvalidated)
      unfold Db.compromised at clean ⊢
      rw [sameVersion]
      exact clean
    · exact recoverable other before running works profile there same unvalidated

theorem recoverJob_recovered (safe : db.Safe next confirmed) (recoverable : db.Recoverable) (here : job ∈ db.jobs)
    (running : job.status = .running) : Recovered db (recoverJob db job) next confirmed job.id := by
  have live : job.live = true := by simp [CertificateJob.live, running]
  obtain ⟨row, there, mine, active, known⟩ := safe.sound.toFormed.holder here live
  unfold recoverJob
  rw [known]
  dsimp only
  split
  · -- The job is taken up again.
    refine
      { safe := ⟨⟨?_, ?_⟩, ?_, safe.revoked⟩
        keeps := Db.KeepsVersions.setCertificate (.refl db) fun _ => ⟨rfl, rfl⟩
        recorded := rfl
        recoverable := recoverable.turned (fun _ => nofun) fun _ => ⟨rfl, rfl, rfl⟩
        jobs := fun other among different => update_other among (by simpa using different) }
    · refine Db.Formed.setCertificate (safe.sound.toFormed.setJob job.id .queued _ fun other among same _ => ?_)
        (fun _ => rfl) fun _ _ _ _ _ _ held => held
      obtain rfl : other = job := unique safe.sound.jobIds among here same
      exact live
    · intro other among
      obtain ⟨old, before, ⟨target, rfl⟩ | ⟨_, rfl⟩⟩ := mem_setCertificate (db.setJob job.id _) among
      · obtain rfl := unique safe.sound.certificateIds before there target
        exact (safe.sound.shows old before).of id rfl id fun idle => nomatch active.symm.trans idle
      · exact safe.sound.shows other before
    · exact safe.pursued.turned job.id .queued (fun _ => some "Resuming reconciliation with the CA") rfl rfl rfl
  · -- The job is broken off; it is one of issuance, and pursues no record.
    rename_i plain
    obtain ⟨works, unvalidated⟩ : job.administration = false ∧ row.validationServerId = none := by simpa using plain
    refine
      { safe := ⟨⟨?_, ?_⟩, ?_, safe.revoked⟩
        keeps := Db.KeepsVersions.setCertificate (.refl db) fun _ => ⟨rfl, rfl⟩
        recorded := rfl
        recoverable := recoverable.turned (fun _ => nofun) fun _ => ⟨rfl, rfl, rfl⟩
        jobs := fun other among different => update_other among (by simpa using different) }
    · exact safe.sound.toFormed.endJob here live mine.symm rfl fun _ => rfl
    · intro other among
      obtain ⟨old, before, ⟨target, rfl⟩ | ⟨_, rfl⟩⟩ := mem_setCertificate (db.setJob job.id _) among
      · obtain rfl := unique safe.sound.certificateIds before there target
        have clean := recoverable job here running works old before mine unvalidated
        intro bad
        have compromised : db.compromised old = true := bad
        exact nomatch compromised.symm.trans clean
      · exact safe.sound.shows other before
    · refine safe.pursued.ended (fun other among (different : other.id ≠ job.id) =>
        update_other among (by simpa using different)) ?_
      intro entry listed _
      refine ⟨listed, fun owns => ?_⟩
      obtain ⟨kind, _⟩ := safe.sound.owner entry listed job here owns.symm
      simp [CertificateJob.administration, kind] at works

theorem recover_recovered {todo : List CertificateJob} (distinct : (todo.map (·.id)).Nodup)
    (safe : db.Safe next confirmed)
    (recoverable : db.Recoverable) (running : ∀ job ∈ todo, job ∈ db.jobs ∧ job.status = .running) :
    (todo.foldl recoverJob db).Safe next confirmed ∧ db.KeepsVersions (todo.foldl recoverJob db) ∧
      (todo.foldl recoverJob db).recorded = db.recorded := by
  induction todo generalizing db with
  | nil => exact ⟨safe, .refl db, rfl⟩
  | cons job todo ih =>
    rw [List.map_cons, List.nodup_cons] at distinct
    obtain ⟨here, works⟩ := running job List.mem_cons_self
    have turn := recoverJob_recovered safe recoverable here works
    have rest : ∀ other ∈ todo, other ∈ (recoverJob db job).jobs ∧ other.status = .running := by
      intro other later
      obtain ⟨there, still⟩ := running other (List.mem_cons_of_mem job later)
      exact ⟨turn.jobs other there fun same => distinct.1 (List.mem_map.mpr ⟨other, later, same⟩), still⟩
    obtain ⟨safeRest, keepsRest, recordedRest⟩ := ih distinct.2 turn.safe turn.recoverable rest
    refine ⟨safeRest, fun row' listed => ?_, recordedRest.trans turn.recorded⟩
    obtain ⟨row, between, sameId, sameVersion⟩ := keepsRest row' listed
    obtain ⟨old, before, wasId, wasVersion⟩ := turn.keeps row between
    exact ⟨old, before, wasId.trans sameId, wasVersion.trans sameVersion⟩

end Recovery

section Work

variable {db t : Db} {next identifier : Nat} {confirmed : List (Nat × Leaf)} {row : ManagedCertificate}
  {job : CertificateJob}

/-- What a transaction of the worker leaves. -/
structure Worked (db t : Db) (next : Nat) (confirmed : List (Nat × Leaf)) : Prop where
  safe : t.Safe next confirmed
  kept : Kept db t

theorem Db.Safe.mono (safe : db.Safe next confirmed) : db.Safe (next + 1) confirmed :=
  ⟨safe.sound.mono (Nat.le_succ next), safe.pursued, safe.revoked⟩

theorem recover_done (safe : db.Safe next confirmed) (recoverable : db.Recoverable) :
    Worked db (recover db) (next + 1) confirmed := by
  have turned := @recover_recovered db _ confirmed (db.jobs.filter (·.status == .running))
    (safe.sound.jobIds.sublist (List.filter_sublist.map _)) safe.mono recoverable fun job here => by
      simpa using here
  obtain ⟨after, keeps, recorded⟩ := turned
  exact ⟨after, keeps.kept fun leaf known => recorded ▸ known⟩

theorem start_done (safe : db.Safe next confirmed) {worker : Worker} (done : start db = .ok (t, worker)) :
    Worked db t (next + 1) confirmed ∧ worker.Holds t confirmed := by
  obtain ⟨job, first, done⟩ := bind_eq_ok done
  obtain ⟨row, known, done⟩ := bind_eq_ok done
  cases done
  have here := List.mem_of_find?_eq_some (found_ok first)
  have queued : job.status = .queued := by simpa using List.find?_some (found_ok first)
  have live : job.live = true := by simp [CertificateJob.live, queued]
  obtain ⟨there, mine⟩ := certificate?_some (found_ok known)
  obtain ⟨holder, among, holds, active⟩ := safe.sound.live job here live
  obtain rfl := unique safe.sound.certificateIds among there (holds.trans mine.symm)
  refine ⟨⟨⟨⟨?_, ?_⟩, ?_, safe.revoked⟩, ?_⟩, ?_⟩
  · have later := safe.sound.toFormed.mono (Nat.le_succ next)
    refine Db.Formed.setCertificate (later.setJob job.id .running (·.message) fun other among same _ => ?_)
      (fun _ => rfl) fun _ _ _ _ _ _ held => held
    obtain rfl : other = job := unique safe.sound.jobIds among here same
    exact live
  · intro other among
    obtain ⟨old, before, ⟨target, rfl⟩ | ⟨_, rfl⟩⟩ := mem_setCertificate (db.setJob job.id _) among
    · obtain rfl := unique safe.sound.certificateIds before there target
      exact (safe.sound.shows old before).of id rfl id fun idle => nomatch active.symm.trans idle
    · exact safe.sound.shows other before
  · exact safe.pursued.turned job.id .running (·.message) rfl rfl rfl
  · exact Db.KeepsVersions.kept (.setCertificate (.refl db) fun _ => ⟨rfl, rfl⟩) fun _ recorded => recorded
  · intro row' job' result busy
    obtain ⟨rfl, rfl, rfl⟩ := Worker.busy.inj busy
    exact ⟨⟨{ job with status := .running }, update_selected here (beq_self_eq_true job.id), rfl, rfl, rfl,
      mine.symm, rfl⟩, nofun⟩

variable {ending : JobStatus}

theorem finish_sound (formed : db.Formed next) (shows : ∀ row ∈ db.certificates, db.ShowsBut none row)
    (here : job ∈ db.jobs) (live : job.live = true) (mine : job.certificateId = identifier)
    (message : Option String)
    (ends : CertificateJob.live { job with status := ending } = false) (default : Option CertificateStatus)
    (lastError : Option String) :
    (settle (close db identifier job ending message) identifier default lastError).Sound next := by
  have closed : (close db identifier job ending message).Formed next :=
    formed.endJob here live mine ends fun _ => rfl
  exact ⟨closed.setCertificate (fun _ => rfl) fun _ _ _ _ _ _ held => held,
    settle_shows closed (close_shows shows job ending message) default lastError⟩

theorem close_clean (sound : db.Sound next) (here : job ∈ db.jobs) (live : job.live = true)
    (mine : job.certificateId = identifier) (message : Option String)
    (ends : CertificateJob.live { job with status := ending } = false)
    (clean : ∀ row ∈ db.certificates, row.id = identifier → db.compromised row = false) :
    (close db identifier job ending message).Sound next := by
  refine ⟨sound.toFormed.endJob here live mine ends fun _ => rfl, fun row there => ?_⟩
  obtain ⟨old, before, ⟨target, rfl⟩ | ⟨_, rfl⟩⟩ := mem_setCertificate (db.setJob job.id _) there
  · intro bad
    have compromised : db.compromised old = true := bad
    exact nomatch compromised.symm.trans (clean old before target)
  · exact sound.shows row before

theorem close_jobs (identifier : Nat) (ending : JobStatus) (message : Option String) (other : CertificateJob)
    (here : other ∈ db.jobs)
    (different : other.id ≠ job.id) : other ∈ (close db identifier job ending message).jobs :=
  update_other here (by simpa using different)

variable {active : CertificateJob}

theorem Worker.Holds.current (holds : Worker.Holds (.busy row job result) db confirmed) (sound : db.Sound next)
    {current : ManagedCertificate} (profile : found (db.certificate? row.id) = .ok current)
    (task : found (db.job? job.id) = .ok active) : current.id = row.id ∧ active ∈ db.jobs ∧ active.id = job.id ∧
      active.live = true ∧ active.certificateId = current.id ∧ active.kind = job.kind ∧
        active.parameters = job.parameters := by
  obtain ⟨⟨held, here, same, kind, parameters, mine, running⟩, _⟩ := holds row job result rfl
  obtain ⟨there, id⟩ := job?_some (found_ok task)
  obtain rfl := unique sound.jobIds here there (same.trans id.symm)
  have profileId := (certificate?_some (found_ok profile)).2
  exact ⟨profileId, here, id, by simp [CertificateJob.live, running], mine.trans profileId.symm, kind, parameters⟩

theorem Db.Sound.unowned (sound : db.Sound next) (here : active ∈ db.jobs) (other : active.kind ≠ .revoke)
    (entry : CertificateRevocation) (listed : entry ∈ db.revocations) :
    entry.jobId ≠ active.id :=
  fun owns => other (sound.owner entry listed active here owns.symm).1

theorem applyAccount_ok {email storageEmail : String} {registered : Bool}
    (done : applyAccount db identifier job email storageEmail registered = .ok t) :
    ∃ set : ManagedCertificate → ManagedCertificate, t = db.setCertificate identifier set ∧
      ∀ row, (set row).id = row.id ∧ (set row).activeJobId = row.activeJobId ∧ (set row).versionId = row.versionId ∧
        (set row).autoRenew = row.autoRenew ∧ (set row).status = row.status := by
  unfold applyAccount at done
  split at done
  · obtain ⟨_, _, done⟩ := bind_eq_ok done
    obtain ⟨_, _, done⟩ := bind_eq_ok done
    exact ⟨_, (Except.ok.inj done).symm, fun _ => ⟨rfl, rfl, rfl, rfl, rfl⟩⟩
  · exact nomatch done

variable {leaf : Leaf} {jobId : Nat} {status : RevocationStatus}

theorem mem_marked (sound : db.Sound next) (done : markRevocation db leaf jobId status = .ok t)
    {entry : CertificateRevocation} (here : entry ∈ t.revocations) :
    entry.status = status ∧ entry.jobId = jobId ∧ entry.fingerprint = leaf ∨ entry ∈ db.revocations ∧
      entry.fingerprint ≠ leaf := by
  obtain ⟨⟨owned, there, mine, owns⟩, rfl⟩ := markRevocation_ok done
  obtain ⟨old, before, ⟨same, rfl⟩ | ⟨other, rfl⟩⟩ := mem_update here
  · have key : old.fingerprint = leaf := by simpa using same
    obtain rfl := unique sound.recordKeys before there (key.trans mine.symm)
    exact .inl ⟨rfl, owns, key⟩
  · exact .inr ⟨before, by simpa using other⟩

theorem recorded_mark (done : markRevocation db leaf jobId status = .ok t) (other : Leaf) :
    t.recorded other = db.recorded other := by
  obtain ⟨_, rfl⟩ := markRevocation_ok done
  exact recorded_setRevocation leaf status other

theorem succeed_done {result : Result} (safe : db.Safe next confirmed)
    (holds : Worker.Holds (.busy row job (some result)) db confirmed)
    (clean : result = .unchanged → ∀ current ∈ db.certificates, current.id = row.id →
      db.compromised current = false)
    (done : succeed next db row job result = .ok t) : Worked db t (next + 1) confirmed := by
  have later := safe.mono
  obtain ⟨current, profile, done⟩ := bind_eq_ok done
  obtain ⟨active, task, done⟩ := bind_eq_ok done
  obtain ⟨profileId, here, activeId, live, mine, kind, parameters⟩ := holds.current safe.sound profile task
  obtain ⟨fits, heard⟩ := (holds row job (some result) rfl).2 result rfl
  cases result with
  | account email storageEmail registered =>
    obtain ⟨applied, apply, done⟩ := bind_eq_ok done
    cases done
    have works : active.kind ≠ .revoke := by
      have account : job.kind = .account := by simpa [Result.fits] using fits
      rw [kind, account]
      decide
    obtain ⟨set, rfl, same⟩ := applyAccount_ok apply
    have sound : (db.setCertificate current.id set).Sound (next + 1) :=
      later.sound.setCertificate (fun row => (same row).1) (fun row => (same row).2.1) fun old there _ =>
        (later.sound.shows old there).of (fun bad => by
          have compromised : db.compromised (set old) = true := bad
          unfold Db.compromised at compromised ⊢
          rw [← (same old).2.2.1]
          exact compromised) (same old).1 (fun renew => (same old).2.2.2.1 ▸ renew)
          fun idle => ⟨(same old).2.1 ▸ idle, (same old).2.2.2.2⟩
    rw [close_settle]
    refine ⟨⟨finish_sound sound.toFormed sound.shows here live mine none rfl none none, ?_, later.revoked⟩, ?_⟩
    · refine later.pursued.ended (close_jobs current.id .succeeded none) fun entry listed _ => ?_
      exact ⟨listed, later.sound.unowned here works entry listed⟩
    · refine Db.KeepsVersions.kept ?_ fun _ recorded => recorded
      exact .settle (.close (.setCertificate (.refl db) fun old => ⟨(same old).1, (same old).2.2.1⟩) _ _ _ _) _ _ _
  | revoked leaf already =>
    obtain ⟨marked, mark, done⟩ := bind_eq_ok done
    cases done
    have formed := later.sound.toFormed.mark mark
    have shows := markRevocation_shows none later.sound.toFormed mark fun old there _ => later.sound.shows old there
    have jobs : marked.jobs = db.jobs := by
      obtain ⟨_, rfl⟩ := markRevocation_ok mark
      rfl
    rw [close_settle]
    refine ⟨⟨finish_sound formed shows (jobs ▸ here) live mine _ rfl none none, ?_, ?_⟩, ?_⟩
    · refine later.pursued.ended (fun other among =>
        close_jobs current.id .succeeded _ other (jobs ▸ among)) fun entry listed pending => ?_
      rcases mem_marked later.sound mark listed with ⟨status, _⟩ | ⟨old, different⟩
      · exact nomatch status.symm.trans pending
      · refine ⟨old, fun owns => different ?_⟩
        obtain ⟨_, wanted, works, print⟩ := later.sound.owner entry old active here owns.symm
        rw [parameters] at works
        unfold Result.fits at fits
        rw [works] at fits
        obtain ⟨_, fitted⟩ : job.kind = .revoke ∧ wanted.fingerprint = leaf := by simpa using fits
        exact print.symm.trans fitted
    · intro entry listed status
      rcases mem_marked later.sound mark listed with ⟨_, owns, print⟩ | ⟨old, _⟩
      · rw [owns, print]
        exact heard leaf already rfl
      · exact later.revoked entry old status
    · refine Db.KeepsVersions.kept ?_ fun other recorded => (recorded_mark mark other).trans recorded
      exact .settle (.close (.mark (.refl db) mark) _ _ _ _) _ _ _
  | issued data =>
    obtain ⟨published, publication, done⟩ := bind_eq_ok done
    cases done
    have made := publish_done later.sound (Nat.lt_succ_self next) safe.sound.versionsBelow publication
    have works : active.kind ≠ .revoke := by
      rw [kind]
      intro revoke
      simp [Result.fits, revoke] at fits
    refine ⟨⟨close_clean made.sound (made.jobs ▸ here) live mine _ rfl made.clean, ?_, ?_⟩, ?_⟩
    · refine later.pursued.ended (fun other among =>
        close_jobs current.id .succeeded _ other (made.jobs ▸ among)) fun entry listed _ => ?_
      have old : entry ∈ db.revocations := made.records ▸ listed
      exact ⟨old, later.sound.unowned here works entry old⟩
    · exact fun entry listed => later.revoked entry (made.records ▸ listed)
    · refine .of_profiles (fun leaf recorded => made.recorded ▸ recorded) fun row' there => ?_
      have between : published.KeepsVersions (close published current.id active .succeeded active.message) :=
        .close (.refl published) _ _ _ _
      obtain ⟨middle, among, sameId, sameVersion⟩ := between row' there
      by_cases target : middle.id = current.id
      · refine .inr fun version found => ?_
        have spotless := made.clean middle among target
        have looked : middle.versionId.bind published.version? = some version := by
          rw [sameVersion]
          exact found
        unfold Db.compromised at spotless
        rw [looked, Option.any_some, made.recorded] at spotless
        exact spotless
      · exact .inl ⟨middle, made.others middle among target, sameId, sameVersion⟩
  | unchanged =>
    cases done
    have works : active.kind ≠ .revoke := by
      rw [kind]
      intro revoke
      simp [Result.fits, revoke] at fits
    have spotless : ∀ old ∈ db.certificates, old.id = current.id → db.compromised old = false :=
      fun old there same =>
      clean rfl old there (same.trans profileId)
    have sound : (db.setCertificate current.id fun row => { row with status := .issued }).Sound (next + 1) :=
      later.sound.setCertificate (fun _ => rfl) (fun _ => rfl) fun old there same bad => by
        have compromised : db.compromised old = true := bad
        exact nomatch compromised.symm.trans (spotless old there same)
    refine ⟨⟨close_clean sound here live mine _ rfl ?_, ?_, later.revoked⟩, ?_⟩
    · intro row' there target
      obtain ⟨old, before, ⟨same, rfl⟩ | ⟨other, rfl⟩⟩ := mem_setCertificate db there
      · exact spotless old before same
      · exact spotless row' before target
    · refine later.pursued.ended (close_jobs current.id .skipped _) fun entry listed _ => ?_
      exact ⟨listed, later.sound.unowned here works entry listed⟩
    · refine Db.KeepsVersions.kept ?_ fun _ recorded => recorded
      refine .close (.setCertificate (.refl db) ?_) _ _ _ _
      exact fun _ => ⟨rfl, rfl⟩

theorem fail_done {result : Option Result} {cancelled : Bool} {message : String} (safe : db.Safe next confirmed)
    (holds : Worker.Holds (.busy row job result) db confirmed) (done : fail db row job cancelled message = .ok t) :
    Worked db t (next + 1) confirmed := by
  have later := safe.mono
  obtain ⟨current, profile, done⟩ := bind_eq_ok done
  obtain ⟨active, task, done⟩ := bind_eq_ok done
  obtain ⟨_, here, activeId, live, mine, kind, parameters⟩ := holds.current safe.sound profile task
  split at done
  · -- The job waits for the next start.
    cases done
    refine ⟨⟨⟨?_, ?_⟩, ?_, later.revoked⟩, ?_⟩
    · refine Db.Formed.setCertificate (later.sound.toFormed.setJob active.id .queued _ fun other among same _ => ?_)
        (fun _ => rfl) fun _ _ _ _ _ _ held => held
      obtain rfl : other = active := unique safe.sound.jobIds among here same
      exact live
    · obtain ⟨holder, among, holds, works⟩ := safe.sound.live active here live
      intro other there
      obtain ⟨old, before, ⟨target, rfl⟩ | ⟨_, rfl⟩⟩ := mem_setCertificate (db.setJob active.id _) there
      · obtain rfl := unique safe.sound.certificateIds before among (target.trans (mine.symm.trans holds.symm))
        exact (safe.sound.shows old before).of id rfl id fun idle => nomatch works.symm.trans idle
      · exact safe.sound.shows other before
    · exact later.pursued.turned active.id .queued (fun _ =>
        some "Operation paused; reconciliation resumes after restart") rfl rfl rfl
    · exact Db.KeepsVersions.kept (.setCertificate (.refl db) fun _ => ⟨rfl, rfl⟩) fun _ recorded => recorded
  · dsimp only at done
    have ends : CertificateJob.live { active with status := if cancelled then .interrupted else .failed } =
      false := by
      cases cancelled <;> rfl
    split at done
    · -- A revocation that did not finish is unknown.
      rename_i wanted works
      obtain ⟨marked, mark, done⟩ := bind_eq_ok done
      cases done
      let ending : JobStatus := if cancelled then .interrupted else .failed
      have closed : (close db current.id active ending (some message)).Formed (next + 1) :=
        later.sound.toFormed.endJob here live mine ends fun _ => rfl
      have formed := closed.mark mark
      have shows := markRevocation_shows (some current.id) closed mark fun old there _ =>
        close_shows later.sound.shows active ending (some message) old there
      have records (entry : CertificateRevocation) (listed : entry ∈ marked.revocations) :
          entry.status = .unknown ∨ entry ∈ db.revocations ∧ entry.fingerprint ≠ wanted.fingerprint := by
        obtain ⟨_, rfl⟩ := markRevocation_ok mark
        obtain ⟨old, before, ⟨_, rfl⟩ | ⟨other, rfl⟩⟩ := mem_update listed
        · exact .inl rfl
        · exact .inr ⟨before, by simpa using other⟩
      have jobs : marked.jobs = (close db current.id active ending (some message)).jobs := by
        obtain ⟨_, rfl⟩ := markRevocation_ok mark
        rfl
      refine ⟨⟨⟨formed.setCertificate (fun _ => rfl) fun _ _ _ _ _ _ held => held,
        settle_shows formed shows none (some message)⟩, ?_, ?_⟩, ?_⟩
      · refine later.pursued.ended (fun other among (different : other.id ≠ active.id) =>
          ?_) fun entry listed pending => ?_
        · change other ∈ marked.jobs
          rw [jobs]
          exact close_jobs current.id ending (some message) other among different
        · rcases records entry listed with status | ⟨old, different⟩
          · exact nomatch status.symm.trans pending
          · refine ⟨old, fun owns => different ?_⟩
            obtain ⟨_, held, its, print⟩ := later.sound.owner entry old active here owns.symm
            obtain rfl : held = wanted := Parameters.revocation.inj (its.symm.trans (parameters.trans works))
            exact print.symm
      · intro entry listed status
        rcases records entry listed with unknown | ⟨old, _⟩
        · exact nomatch unknown.symm.trans status
        · exact later.revoked entry old status
      · refine Db.KeepsVersions.kept ?_ fun other recorded => (recorded_mark mark other).trans recorded
        exact .settle (.mark (.close (.refl db) _ _ _ _) mark) _ _ _
    · -- Another job ends and takes no record with it.
      rename_i other
      cases done
      refine ⟨⟨finish_sound later.sound.toFormed later.sound.shows here live mine _ ends _ _, ?_, later.revoked⟩,
        ?_⟩
      · refine later.pursued.ended (close_jobs current.id _ _) fun entry listed _ => ⟨listed, fun owns => ?_⟩
        obtain ⟨_, held, its, _⟩ := later.sound.owner entry listed active here owns.symm
        exact other held (parameters.symm.trans its)
      · refine Db.KeepsVersions.kept ?_ fun _ recorded => recorded
        exact .settle (.close (.refl db) _ _ _ _) _ _ _

end Work

end OpenNode.Certificates
