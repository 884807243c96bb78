import OpenNode.Certificates

namespace OpenNode.Certificates

open Edits List Rows

/-- A revocation of the leaf is on record. -/
def Db.recorded (db : Db) (leaf : Leaf) : Bool :=
  (db.revocation? leaf).isSome

/-- The current version of a profile is one whose revocation is on record. -/
def Db.compromised (db : Db) (row : ManagedCertificate) : Bool :=
  (row.versionId.bind db.version?).any fun version => db.recorded (fingerprint version.material)

/-- The statuses of `state` for a revocation on record. -/
def CertificateStatus.revocation (status : CertificateStatus) : Bool :=
  status == .revocationPending || status == .revocationUnknown || status == .revoked

/-- A profile whose current version is on record does not renew by itself and
shows the revocation when it is idle. The status of the owed profile is still
to be set. -/
def Db.ShowsBut (db : Db) (owed : Option Nat) (row : ManagedCertificate) : Prop :=
  db.compromised row = true →
    row.autoRenew = false ∧ (row.activeJobId = none → owed ≠ some row.id → row.status.revocation = true)

/-- What holds of the tables, the profiles' displays apart. `next` is above all
keys. -/
structure Db.Formed (db : Db) (next : Nat) : Prop where
  certificateIds : (db.certificates.map (·.id)).Nodup
  jobIds : (db.jobs.map (·.id)).Nodup
  versionIds : (db.versions.map (·.id)).Nodup
  recordKeys : (db.revocations.map (·.fingerprint)).Nodup
  certificatesBelow : ∀ row ∈ db.certificates, row.id < next
  jobsBelow : ∀ job ∈ db.jobs, job.id < next
  versionsBelow : ∀ version ∈ db.versions, version.id < next
  recordsBelow : ∀ entry ∈ db.revocations, entry.jobId < next
  /-- A fingerprint that is stored is the right one. -/
  stored : ∀ version ∈ db.versions, ∀ leaf, version.fingerprint = some leaf → leaf = fingerprint version.material
  /-- Every copy of a certificate on record has its fingerprint stored. -/
  marked : ∀ version ∈ db.versions, db.recorded (fingerprint version.material) = true →
    version.fingerprint = some (fingerprint version.material)
  /-- A profile is held by the job that works for it. -/
  live : ∀ job ∈ db.jobs, job.live = true → ∃ row ∈ db.certificates, row.id = job.certificateId ∧
    row.activeJobId = some job.id
  /-- The job that owns a record is one of its revocation. -/
  owner : ∀ entry ∈ db.revocations, ∀ job ∈ db.jobs, job.id = entry.jobId →
    job.kind = .revoke ∧ ∃ parameters, job.parameters = .revocation parameters ∧
      parameters.fingerprint = entry.fingerprint
  commands : ∀ command ∈ db.commands, command.byStore = true → ∀ leaf, db.recorded leaf = true →
    command.carries leaf = false

/-- What holds of the tables between transactions. -/
structure Db.Sound (db : Db) (next : Nat) : Prop extends db.Formed next where
  shows : ∀ row ∈ db.certificates, db.ShowsBut none row

/-- A pending revocation has a job that waits or runs. -/
def Db.Pursued (db : Db) : Prop :=
  ∀ entry ∈ db.revocations, entry.status = .pending → ∃ job ∈ db.jobs, job.id = entry.jobId ∧ job.live = true

/-- What a transaction keeps for good. -/
structure Kept (db db' : Db) : Prop where
  records : ∀ leaf, db.recorded leaf = true → db'.recorded leaf = true
  /-- No profile goes over to a version on record. -/
  switches : ∀ row' ∈ db'.certificates, ∀ version, row'.versionId.bind db'.version? = some version →
    db.recorded (fingerprint version.material) = true →
    ∃ row ∈ db.certificates, row.id = row'.id ∧ row.versionId = row'.versionId

section Lookups

variable {db : Db} {next : Nat}

variable {leaf : Leaf}

theorem recorded_iff : db.recorded leaf = true ↔ ∃ entry ∈ db.revocations, entry.fingerprint = leaf := by
  simp [Db.recorded, Db.revocation?, List.find?_isSome]

theorem found_ok {α : Type} {row? : Option α} {row : α} (done : found row? = .ok row) : row? = some row := by
  cases row? with
  | none => exact nomatch done
  | some other => exact congrArg some (Except.ok.inj done)

variable {id : Nat} {row : ManagedCertificate}

theorem certificate?_some (known : db.certificate? id = some row) : row ∈ db.certificates ∧ row.id = id :=
  ⟨mem_of_find?_eq_some known, by simpa using List.find?_some known⟩

theorem job?_some {job : CertificateJob} (known : db.job? id = some job) : job ∈ db.jobs ∧ job.id = id :=
  ⟨mem_of_find?_eq_some known, by simpa using List.find?_some known⟩

variable {version : CertificateVersion}

theorem version?_some (known : db.version? id = some version) : version ∈ db.versions ∧ version.id = id :=
  ⟨mem_of_find?_eq_some known, by simpa using List.find?_some known⟩

theorem revocation?_some {entry : CertificateRevocation} (known : db.revocation? leaf = some entry) :
    entry ∈ db.revocations ∧ entry.fingerprint = leaf :=
  ⟨mem_of_find?_eq_some known, by simpa using List.find?_some known⟩

theorem compromised_iff : db.compromised row = true ↔
    ∃ version, row.versionId.bind db.version? = some version ∧
      db.recorded (fingerprint version.material) = true := by
  unfold Db.compromised
  cases row.versionId.bind db.version? with
  | none => simp
  | some version => simp

theorem current_mem (current : row.versionId.bind db.version? = some version) : version ∈ db.versions := by
  obtain ⟨id, _, known⟩ := Option.bind_eq_some_iff.mp current
  exact (version?_some known).1

theorem Db.Formed.usable (formed : db.Formed next) (here : version ∈ db.versions) {done : Unit}
    (passed : db.requireUsable version = .ok done) : db.recorded (fingerprint version.material) = false := by
  by_contra known
  rw [Bool.not_eq_false] at known
  have unrecorded := require_ok passed
  unfold Db.revocation at unrecorded
  rw [formed.marked version here known, Option.bind_some] at unrecorded
  unfold Db.recorded at known
  rw [unrecorded] at known
  exact nomatch known

theorem Db.Formed.state_revocation (formed : db.Formed next) (row : ManagedCertificate)
    (compromised : db.compromised row = true)
    (default : Option CertificateStatus) : (db.state row default).revocation = true := by
  obtain ⟨version, current, recorded⟩ := compromised_iff.mp compromised
  obtain ⟨entry, known⟩ := Option.isSome_iff_exists.mp recorded
  have shown : db.state row default = entry.status.certificateStatus := by
    unfold Db.state Db.revocation
    simp only [current, Option.bind_some, formed.marked version (current_mem current) recorded, known]
  rw [shown]
  cases entry.status <;> rfl

end Lookups

section Tables

variable {db : Db} {next : Nat}

theorem Db.Formed.mono (formed : db.Formed next) {later : Nat} (le : next ≤ later) : db.Formed later :=
  { formed with
    certificatesBelow := fun row here => Nat.lt_of_lt_of_le (formed.certificatesBelow row here) le
    jobsBelow := fun job here => Nat.lt_of_lt_of_le (formed.jobsBelow job here) le
    versionsBelow := fun version here => Nat.lt_of_lt_of_le (formed.versionsBelow version here) le
    recordsBelow := fun entry here => Nat.lt_of_lt_of_le (formed.recordsBelow entry here) le }

variable {set : ManagedCertificate → ManagedCertificate}

section

variable (formed : db.Formed next)
include formed

theorem Db.Formed.mapCertificates (keeps : ∀ row, (set row).id = row.id)
    (holds : ∀ row ∈ db.certificates, ∀ job ∈ db.jobs, job.live = true → row.activeJobId = some job.id →
      (set row).activeJobId = some job.id) :
    Db.Formed { db with certificates := db.certificates.map set } next :=
  { formed with
    certificateIds := by
      have same : (db.certificates.map set).map (·.id) = db.certificates.map (·.id) := by
        rw [map_map]
        exact map_congr_left fun row _ => keeps row
      rw [same]
      exact formed.certificateIds
    certificatesBelow := by
      intro row here
      obtain ⟨old, before, rfl⟩ := List.mem_map.mp here
      exact keeps old ▸ formed.certificatesBelow old before
    live := by
      intro job here live
      obtain ⟨row, there, mine, active⟩ := formed.live job here live
      exact ⟨set row, mem_map_of_mem there, (keeps row).trans mine, holds row there job here live active⟩ }

theorem Db.Formed.setCertificate {identifier : Nat} (keeps : ∀ row, (set row).id = row.id)
    (holds : ∀ row ∈ db.certificates, row.id = identifier → ∀ job ∈ db.jobs, job.live = true →
      row.activeJobId = some job.id → (set row).activeJobId = some job.id) :
    (db.setCertificate identifier set).Formed next := by
  refine formed.mapCertificates (fun row => ?_) fun row here job there live active => ?_
  · split
    · exact keeps row
    · rfl
  · split
    · rename_i target
      exact holds row here (eq_of_beq target) job there live active
    · exact active

theorem Db.Formed.addCertificate {row : ManagedCertificate} (below : row.id < next)
    (new : ∀ other ∈ db.certificates, other.id < row.id) :
    Db.Formed { db with certificates := db.certificates ++ [row] } next :=
  { formed with
    certificateIds := nodup_append formed.certificateIds fun other here => Nat.ne_of_lt (new other here)
    certificatesBelow := by
      intro other here
      rcases List.mem_append.mp here with old | mine
      · exact formed.certificatesBelow other old
      · exact List.mem_singleton.mp mine ▸ below
    live := by
      intro job here live
      obtain ⟨other, there, held⟩ := formed.live job here live
      exact ⟨other, mem_append_left _ there, held⟩ }

theorem Db.Formed.setJob (id : Nat) (status : JobStatus) (message : CertificateJob → Option String)
    (revives : ∀ job ∈ db.jobs, job.id = id → CertificateJob.live { job with status := status } = true →
      job.live = true) :
    (db.setJob id fun job => { job with status := status, message := message job }).Formed next :=
  { formed with
    jobIds := nodup_update (fun _ => rfl) formed.jobIds
    jobsBelow := by
      intro job here
      obtain ⟨old, before, ⟨_, rfl⟩ | ⟨_, rfl⟩⟩ := mem_update here
      · exact formed.jobsBelow old before
      · exact formed.jobsBelow job before
    live := by
      intro job here live
      obtain ⟨old, before, ⟨mine, rfl⟩ | ⟨_, rfl⟩⟩ := mem_update here
      · exact formed.live old before (revives old before (by simpa using mine) live)
      · exact formed.live job before live
    owner := by
      intro entry there job here
      obtain ⟨old, before, ⟨_, rfl⟩ | ⟨_, rfl⟩⟩ := mem_update here
      · exact formed.owner entry there old before
      · exact formed.owner entry there job before }

theorem Db.Formed.addJob {job : CertificateJob} (below : job.id < next)
    (new : ∀ other ∈ db.jobs, other.id < job.id) (unowned : ∀ entry ∈ db.revocations, entry.jobId < job.id)
    (held : ∃ row ∈ db.certificates, row.id = job.certificateId ∧ row.activeJobId = some job.id) :
    Db.Formed { db with jobs := db.jobs ++ [job] } next :=
  { formed with
    jobIds := nodup_append formed.jobIds fun other here => Nat.ne_of_lt (new other here)
    jobsBelow := by
      intro other here
      rcases List.mem_append.mp here with old | mine
      · exact formed.jobsBelow other old
      · exact List.mem_singleton.mp mine ▸ below
    live := by
      intro other here live
      rcases List.mem_append.mp here with old | mine
      · exact formed.live other old live
      · obtain rfl := List.mem_singleton.mp mine
        exact held
    owner := by
      intro entry there other here same
      rcases List.mem_append.mp here with old | mine
      · exact formed.owner entry there other old same
      · obtain rfl := List.mem_singleton.mp mine
        exact absurd same.symm (Nat.ne_of_lt (unowned entry there)) }

theorem Db.Formed.addVersion {version : CertificateVersion} (below : version.id < next)
    (new : ∀ other ∈ db.versions, other.id < version.id)
    (print : version.fingerprint = some (fingerprint version.material)) :
    Db.Formed { db with versions := db.versions ++ [version] } next :=
  { formed with
    versionIds := nodup_append formed.versionIds fun other here => Nat.ne_of_lt (new other here)
    versionsBelow := by
      intro other here
      rcases List.mem_append.mp here with old | mine
      · exact formed.versionsBelow other old
      · exact List.mem_singleton.mp mine ▸ below
    stored := by
      intro other here leaf known
      rcases List.mem_append.mp here with old | mine
      · exact formed.stored other old leaf known
      · obtain rfl := List.mem_singleton.mp mine
        exact Option.some.inj (known.symm.trans print)
    marked := by
      intro other here known
      rcases List.mem_append.mp here with old | mine
      · exact formed.marked other old known
      · obtain rfl := List.mem_singleton.mp mine
        exact print }

theorem Db.Formed.fingerprinted (data : Material) : (db.fingerprinted data).Formed next :=
  { formed with
    versionIds := nodup_update (fun _ => rfl) formed.versionIds
    versionsBelow := by
      intro version here
      obtain ⟨old, before, ⟨_, rfl⟩ | ⟨_, rfl⟩⟩ := mem_update here
      · exact formed.versionsBelow old before
      · exact formed.versionsBelow version before
    stored := by
      intro version here leaf known
      obtain ⟨old, before, ⟨_, rfl⟩ | ⟨_, rfl⟩⟩ := mem_update here
      · obtain rfl := Option.some.inj known
        cases print : old.fingerprint with
        | none => rfl
        | some leaf => exact formed.stored old before leaf print
      · exact formed.stored version before leaf known
    marked := by
      intro version here recorded
      obtain ⟨old, before, ⟨_, rfl⟩ | ⟨_, rfl⟩⟩ := mem_update here
      · have print := formed.marked old before recorded
        simp only [print, Option.getD_some]
      · exact formed.marked version before recorded }

end

theorem recorded_setRevocation (leaf : Leaf) (status : RevocationStatus) (other : Leaf) :
    (db.setRevocation leaf status).recorded other = db.recorded other := by
  have found := find?_update (·.fingerprint == leaf) (fun entry => { entry with status := status }) db.revocations
    (·.fingerprint) (fun _ => rfl) other
  exact (congrArg Option.isSome found).trans Option.isSome_map

theorem Db.Formed.setRevocation (formed : db.Formed next) (leaf : Leaf) (status : RevocationStatus) :
    (db.setRevocation leaf status).Formed next :=
  { formed with
    recordKeys := nodup_update (fun _ => rfl) formed.recordKeys
    recordsBelow := by
      intro entry here
      obtain ⟨old, before, ⟨_, rfl⟩ | ⟨_, rfl⟩⟩ := mem_update here
      · exact formed.recordsBelow old before
      · exact formed.recordsBelow entry before
    marked := by
      intro version here recorded
      rw [recorded_setRevocation] at recorded
      exact formed.marked version here recorded
    owner := by
      intro entry here
      obtain ⟨old, before, ⟨_, rfl⟩ | ⟨_, rfl⟩⟩ := mem_update here
      · exact formed.owner old before
      · exact formed.owner entry before
    commands := by
      intro command here byStore other recorded
      rw [recorded_setRevocation] at recorded
      exact formed.commands command here byStore other recorded }

variable {entry : CertificateRevocation}

theorem mem_record {other : CertificateRevocation} (here : other ∈ (db.record entry).revocations) :
    other = entry ∨ other ∈ db.revocations ∧ other.fingerprint ≠ entry.fingerprint := by
  unfold Db.record at here
  split at here
  · rename_i unknown
    rcases List.mem_append.mp here with old | mine
    · refine .inr ⟨old, fun same => ?_⟩
      have none := List.find?_eq_none.mp unknown other old
      exact absurd same (by simpa using none)
    · exact .inl (List.mem_singleton.mp mine)
  · obtain ⟨old, before, ⟨_, rfl⟩ | ⟨other, rfl⟩⟩ := mem_update here
    · exact .inl rfl
    · exact .inr ⟨before, by simpa using other⟩

theorem recorded_record {leaf : Leaf} :
    (db.record entry).recorded leaf = true ↔ db.recorded leaf = true ∨ leaf = entry.fingerprint := by
  constructor
  · intro recorded
    obtain ⟨other, here, rfl⟩ := recorded_iff.mp recorded
    rcases mem_record here with rfl | ⟨old, _⟩
    · exact .inr rfl
    · exact .inl (recorded_iff.mpr ⟨other, old, rfl⟩)
  · intro either
    refine recorded_iff.mpr ?_
    unfold Db.record
    split
    · rcases either with recorded | rfl
      · obtain ⟨other, here, same⟩ := recorded_iff.mp recorded
        exact ⟨other, mem_append_left _ here, same⟩
      · exact ⟨entry, mem_append_right _ (mem_singleton_self _), rfl⟩
    · rename_i known there
      obtain ⟨before, mine⟩ := revocation?_some there
      by_cases same : leaf = entry.fingerprint
      · exact ⟨entry, update_selected before (by simpa using mine), same.symm⟩
      · obtain ⟨other, here, rfl⟩ := recorded_iff.mp (either.resolve_right same)
        exact ⟨other, update_other here (by simpa using same), rfl⟩

theorem Db.Formed.record (formed : db.Formed next) (below : entry.jobId < next)
    (owned : ∀ job ∈ db.jobs, job.id = entry.jobId → job.kind = .revoke ∧ ∃ parameters,
      job.parameters = .revocation parameters ∧ parameters.fingerprint = entry.fingerprint)
    (copies : ∀ version ∈ db.versions, fingerprint version.material = entry.fingerprint →
      version.fingerprint = some (fingerprint version.material))
    (free : ∀ command ∈ db.commands, command.carries entry.fingerprint = false) :
    (db.record entry).Formed next := by
  have versions : (db.record entry).versions = db.versions := by unfold Db.record; split <;> rfl
  have jobs : (db.record entry).jobs = db.jobs := by unfold Db.record; split <;> rfl
  have certificates : (db.record entry).certificates = db.certificates := by unfold Db.record; split <;> rfl
  have commands : (db.record entry).commands = db.commands := by unfold Db.record; split <;> rfl
  refine
    { certificateIds := certificates ▸ formed.certificateIds
      jobIds := jobs ▸ formed.jobIds
      versionIds := versions ▸ formed.versionIds
      recordKeys := ?_
      certificatesBelow := certificates ▸ formed.certificatesBelow
      jobsBelow := jobs ▸ formed.jobsBelow
      versionsBelow := versions ▸ formed.versionsBelow
      recordsBelow := ?_
      stored := versions ▸ formed.stored
      marked := ?_
      live := by rw [jobs, certificates]; exact formed.live
      owner := ?_
      commands := ?_ }
  · unfold Db.record
    split
    · rename_i unknown
      exact nodup_append formed.recordKeys fun other here same =>
        absurd same (by simpa using List.find?_eq_none.mp unknown other here)
    · have keys : (Rows.update (·.fingerprint == entry.fingerprint) (fun _ => entry) db.revocations).map
          (·.fingerprint) =
          db.revocations.map (·.fingerprint) := by
        rw [Rows.update, map_map]
        refine map_congr_left fun other _ => ?_
        simp only [Function.comp_apply]
        split
        · rename_i same
          exact (eq_of_beq same).symm
        · rfl
      rw [keys]
      exact formed.recordKeys
  · intro other here
    rcases mem_record here with rfl | ⟨old, _⟩
    · exact below
    · exact formed.recordsBelow other old
  · rw [versions]
    intro version here recorded
    rcases recorded_record.mp recorded with old | mine
    · exact formed.marked version here old
    · exact copies version here mine
  · rw [jobs]
    intro other here
    rcases mem_record here with rfl | ⟨old, _⟩
    · exact owned
    · exact formed.owner other old
  · rw [commands]
    intro command here byStore leaf recorded
    rcases recorded_record.mp recorded with old | rfl
    · exact formed.commands command here byStore leaf old
    · exact free command here

theorem Db.Formed.addCommand (formed : db.Formed next) {command : Command}
    (unrecorded : command.byStore = true → ∀ leaf, command.carries leaf = true → db.recorded leaf = false) :
    Db.Formed { db with commands := db.commands ++ [command] } next :=
  { formed with
    commands := by
      intro other here byStore leaf recorded
      rcases List.mem_append.mp here with old | mine
      · exact formed.commands other old byStore leaf recorded
      · obtain rfl := List.mem_singleton.mp mine
        cases carries : other.carries leaf with
        | false => rfl
        | true => exact nomatch recorded.symm.trans (unrecorded byStore leaf carries) }

end Tables

section Displays

variable {db db' : Db} {next identifier jobId : Nat} {leaf : Leaf} {status : RevocationStatus} {owed : Option Nat}

variable {row : ManagedCertificate}

theorem Db.ShowsBut.of {row' : ManagedCertificate} (shows : db.ShowsBut owed row)
    (compromised : db'.compromised row' = true → db.compromised row = true) (same : row'.id = row.id)
    (renews : row'.autoRenew = true → row.autoRenew = true)
    (idle : row'.activeJobId = none → row.activeJobId = none ∧ row'.status = row.status) :
    db'.ShowsBut owed row' := by
  intro bad
  obtain ⟨manual, shown⟩ := shows (compromised bad)
  refine ⟨?_, fun none other => ?_⟩
  · cases renew : row'.autoRenew with
    | false => rfl
    | true => exact nomatch manual.symm.trans (renews renew)
  · obtain ⟨was, kept⟩ := idle none
    rw [kept]
    exact shown was (same ▸ other)

variable {set : ManagedCertificate → ManagedCertificate}

theorem mem_setCertificate (db : Db) (here : row ∈ (db.setCertificate identifier set).certificates) :
    ∃ old ∈ db.certificates, (old.id = identifier ∧ row = set old) ∨ (old.id ≠ identifier ∧ row = old) := by
  obtain ⟨old, before, ⟨mine, same⟩ | ⟨other, same⟩⟩ := mem_update here
  · exact ⟨old, before, .inl ⟨by simpa using mine, same⟩⟩
  · exact ⟨old, before, .inr ⟨by simpa using other, same⟩⟩

theorem compromised_setRevocation (row : ManagedCertificate) :
    (db.setRevocation leaf status).compromised row = db.compromised row := by
  have same : (db.setRevocation leaf status).recorded = db.recorded := funext (recorded_setRevocation leaf status)
  unfold Db.compromised
  rw [same]
  rfl

theorem markProfile_keys (db : Db) (leaf : Leaf) (jobId : Nat) (row : ManagedCertificate) :
    (db.markProfile leaf jobId row).id = row.id ∧
    (db.markProfile leaf jobId row).activeJobId = row.activeJobId ∧
    (db.markProfile leaf jobId row).versionId = row.versionId := by
  unfold Db.markProfile
  split
  · exact ⟨rfl, rfl, rfl⟩
  · exact ⟨rfl, rfl, rfl⟩

theorem markProfile_set (jobId : Nat)
    (printed : (row.versionId.bind db.version?).bind (·.fingerprint) = some leaf) :
    (db.markProfile leaf jobId row).autoRenew = false ∧
      (row.activeJobId = none → (db.markProfile leaf jobId row).status = db.state row none) := by
  unfold Db.markProfile
  rw [if_pos printed]
  exact ⟨rfl, fun free => if_pos (.inl free)⟩

theorem markRevocation_ok (done : markRevocation db leaf jobId status = .ok db') :
    (∃ entry ∈ db.revocations, entry.fingerprint = leaf ∧ entry.jobId = jobId) ∧
      db' = { db.setRevocation leaf status with
        certificates := db.certificates.map ((db.setRevocation leaf status).markProfile leaf jobId) } := by
  obtain ⟨entry, known, done⟩ := bind_eq_ok done
  obtain ⟨_, owned, done⟩ := bind_eq_ok done
  obtain ⟨here, mine⟩ := revocation?_some (found_ok known)
  exact ⟨⟨entry, here, mine, require_ok owned⟩, (Except.ok.inj done).symm⟩

theorem Db.Formed.mark (formed : db.Formed next) (done : markRevocation db leaf jobId status = .ok db') :
    db'.Formed next := by
  obtain ⟨_, rfl⟩ := markRevocation_ok done
  refine (formed.setRevocation leaf status).mapCertificates (fun row =>
    (markProfile_keys _ leaf jobId row).1) fun row _ job _ _ active => ?_
  exact (markProfile_keys _ leaf jobId row).2.1.trans active

theorem markRevocation_shows (owed : Option Nat) (formed : db.Formed next)
    (done : markRevocation db leaf jobId status = .ok db')
    (shows : ∀ row ∈ db.certificates,
      (∀ version, row.versionId.bind db.version? = some version → fingerprint version.material ≠ leaf) →
        db.ShowsBut owed row) :
    ∀ row ∈ db'.certificates, db'.ShowsBut owed row := by
  have marked := formed.setRevocation leaf status
  obtain ⟨_, rfl⟩ := markRevocation_ok done
  intro row' here bad
  obtain ⟨row, before, rfl⟩ := List.mem_map.mp here
  obtain ⟨_, keepsActive, keepsVersion⟩ := markProfile_keys (db.setRevocation leaf status) leaf jobId row
  have still : (db.setRevocation leaf status).compromised row = true := by
    have same : (db.setRevocation leaf status).compromised ((db.setRevocation leaf status).markProfile leaf jobId
        row) = true := bad
    unfold Db.compromised at same ⊢
    rw [keepsVersion] at same
    exact same
  obtain ⟨version, current, recorded⟩ := compromised_iff.mp still
  have print := marked.marked version (current_mem current) recorded
  have printed : (row.versionId.bind (db.setRevocation leaf status).version?).bind (·.fingerprint) =
      some (fingerprint version.material) := by rw [current, Option.bind_some, print]
  by_cases mine : fingerprint version.material = leaf
  · obtain ⟨manual, shown⟩ := markProfile_set jobId (printed.trans (congrArg some mine))
    refine ⟨manual, fun idle _ => ?_⟩
    rw [shown (keepsActive.symm.trans idle)]
    exact marked.state_revocation row still none
  · have made : (db.setRevocation leaf status).markProfile leaf jobId row = row :=
      if_neg fun same => mine (Option.some.inj (printed.symm.trans same))
    rw [made]
    have other : ∀ version, row.versionId.bind db.version? = some version →
        fingerprint version.material ≠ leaf := by
      intro found known
      obtain rfl : found = version := Option.some.inj (known.symm.trans current)
      exact mine
    rw [compromised_setRevocation] at still
    exact shows row before other still

theorem settle_shows (formed : db.Formed next) (shows : ∀ row ∈ db.certificates, db.ShowsBut (some identifier) row)
    (default : Option CertificateStatus) (lastError : Option String) :
    ∀ row ∈ (settle db identifier default lastError).certificates,
      (settle db identifier default lastError).ShowsBut none row := by
  intro row here
  obtain ⟨old, before, ⟨_, rfl⟩ | ⟨other, rfl⟩⟩ := mem_setCertificate _ here
  · exact fun bad => ⟨(shows old before bad).1, fun _ _ => formed.state_revocation old bad default⟩
  · exact fun bad => ⟨(shows row before bad).1, fun idle _ =>
      (shows row before bad).2 idle (by simpa using Ne.symm other)⟩

theorem Db.Formed.endJob (formed : db.Formed next) {job : CertificateJob} (here : job ∈ db.jobs)
    (live : job.live = true) (mine : job.certificateId = identifier) {ending : JobStatus} {message : Option String}
    (ends : CertificateJob.live { job with status := ending } = false) (keeps : ∀ row, (set row).id = row.id) :
    ((db.setJob job.id fun job => { job with status := ending, message := message }).setCertificate
      identifier set).Formed
      next := by
  have turned := formed.setJob job.id ending (fun _ => message) fun _ _ _ revived =>
    nomatch revived.symm.trans ends
  refine turned.setCertificate keeps fun row there same other listed otherLive held => ?_
  obtain ⟨holder, among, holds, active⟩ := formed.live job here live
  obtain rfl := unique formed.certificateIds there among (same.trans (mine.symm.trans holds.symm))
  have same : job.id = other.id := Option.some.inj (active.symm.trans held)
  obtain ⟨old, _, ⟨_, rfl⟩ | ⟨different, rfl⟩⟩ := mem_update listed
  · exact nomatch otherLive.symm.trans ends
  · simp [same] at different

theorem close_shows (shows : ∀ row ∈ db.certificates, db.ShowsBut none row) (job : CertificateJob)
    (ending : JobStatus)
    (message : Option String) : ∀ row ∈ (close db identifier job ending message).certificates,
      (close db identifier job ending message).ShowsBut (some identifier) row := by
  intro row here
  obtain ⟨old, before, ⟨same, rfl⟩ | ⟨other, rfl⟩⟩ := mem_setCertificate (db.setJob job.id _) here
  · exact fun bad => ⟨(shows old before bad).1, fun _ owed => absurd (congrArg some same.symm) owed⟩
  · exact fun bad => ⟨(shows row before bad).1, fun idle _ => (shows row before bad).2 idle nofun⟩

theorem close_settle (job : CertificateJob) (ending : JobStatus) (message : Option String)
    (default : Option CertificateStatus)
    (lastError : Option String) : close (settle db identifier default lastError) identifier job ending message =
      settle (close db identifier job ending message) identifier default lastError := by
  unfold close settle Db.setCertificate Db.setJob Rows.update
  simp only [map_map]
  congr 1
  refine map_congr_left fun row _ => ?_
  simp only [Function.comp_apply]
  split
  · simp_all
    rfl
  · simp_all

end Displays

end OpenNode.Certificates
