import OpenNode.CertificateSafety

namespace OpenNode.Certificates

open Edits List

/-- What every transaction but the worker's leaves: the jobs under way, and the
records, which it may only take up again. -/
structure Done (db db' : Db) (next : Nat) : Prop where
  sound : db'.Sound next
  kept : Kept db db'
  jobs : ∀ job ∈ db.jobs, job.live = true → job ∈ db'.jobs
  records : ∀ entry ∈ db'.revocations, entry ∈ db.revocations ∨
    entry.status = .pending ∧ ∃ job ∈ db'.jobs, job.id = entry.jobId ∧ job.live = true

section Shapes

variable {db t : Db} {next : Nat}

theorem Db.Sound.mono (sound : db.Sound next) {later : Nat} (le : next ≤ later) : db.Sound later :=
  ⟨sound.toFormed.mono le, sound.shows⟩

theorem Done.pursued (done : Done db t next) (pursued : db.Pursued) : t.Pursued := by
  intro entry here pending
  rcases done.records entry here with old | ⟨_, owned⟩
  · obtain ⟨job, there, mine, live⟩ := pursued entry old pending
    exact ⟨job, done.jobs job there live, mine, live⟩
  · exact owned

theorem Done.of_same (sound : t.Sound next) (kept : Kept db t) (jobs : t.jobs = db.jobs)
    (records : t.revocations = db.revocations) : Done db t next :=
  ⟨sound, kept, fun _ here _ => jobs ▸ here, fun _ here => .inl (records ▸ here)⟩

theorem Kept.of_profiles (records : ∀ leaf, db.recorded leaf = true → t.recorded leaf = true)
    (profiles : ∀ row' ∈ t.certificates, (∃ row ∈ db.certificates, row.id = row'.id ∧
      row.versionId = row'.versionId) ∨
      ∀ version, row'.versionId.bind t.version? = some version →
        db.recorded (fingerprint version.material) = false) :
    Kept db t where
  records := records
  switches := by
    intro row' here version current recorded
    rcases profiles row' here with old | unrecorded
    · exact old
    · exact nomatch recorded.symm.trans (unrecorded version current)

theorem Kept.refl (db : Db) : Kept db db :=
  .of_profiles (fun _ known => known) fun row' here => .inl ⟨row', here, rfl, rfl⟩

variable {identifier : Nat} {set : ManagedCertificate → ManagedCertificate}

theorem Db.Sound.setCertificate (sound : db.Sound next) (keeps : ∀ row, (set row).id = row.id)
    (holds : ∀ row, (set row).activeJobId = row.activeJobId)
    (shows : ∀ row ∈ db.certificates, row.id = identifier → db.ShowsBut none (set row)) :
    (db.setCertificate identifier set).Sound next where
  toFormed := sound.toFormed.setCertificate keeps fun row _ _ _ _ _ active => (holds row).trans active
  shows := by
    intro row here
    obtain ⟨old, before, ⟨target, rfl⟩ | ⟨_, rfl⟩⟩ := mem_setCertificate _ here
    · exact shows old before target
    · exact sound.shows row before

theorem Kept.setCertificate (keeps : ∀ row, (set row).id = row.id)
    (versions : ∀ row, (set row).versionId = row.versionId) :
    Kept db (db.setCertificate identifier set) := by
  refine .of_profiles (fun _ known => known) fun row' here => .inl ?_
  obtain ⟨old, before, ⟨_, rfl⟩ | ⟨_, rfl⟩⟩ := mem_setCertificate _ here
  · exact ⟨old, before, (keeps old).symm, (versions old).symm⟩
  · exact ⟨row', before, rfl, rfl⟩

end Shapes

section Profiles

variable {host : Host} {db t : Db} {next : Nat}

variable {row : ManagedCertificate}

theorem Db.Sound.addCertificate (sound : db.Sound next) (new : row.id = next) (bare : row.versionId = none) :
    Db.Sound { db with certificates := db.certificates ++ [row] } (next + 1) where
  toFormed := (sound.toFormed.mono (Nat.le_succ next)).addCertificate (new ▸ Nat.lt_succ_self next)
    fun other here => new ▸ sound.certificatesBelow other here
  shows := by
    intro other here
    rcases List.mem_append.mp here with old | mine
    · exact sound.shows other old
    · obtain rfl := List.mem_singleton.mp mine
      intro bad
      obtain ⟨_, current, _⟩ := compromised_iff.mp bad
      rw [bare] at current
      exact nomatch current

theorem create_done (sound : db.Sound next) {payload : CreatePayload} (done : create host db next payload = .ok t) :
    Done db t (next + 1) := by
  unfold create at done
  obtain ⟨_, _, done⟩ := bind_eq_ok done
  obtain ⟨_, _, done⟩ := bind_eq_ok done
  cases done
  refine .of_same (sound.addCertificate rfl rfl) (.of_profiles (fun _ known => known) fun row' here => ?_) rfl rfl
  rcases List.mem_append.mp here with old | mine
  · exact .inl ⟨row', old, rfl, rfl⟩
  · obtain rfl := List.mem_singleton.mp mine
    exact .inr nofun

theorem checkRenewal_ok (formed : db.Formed next) {done : Unit} (passed : checkRenewal db row true = .ok done) :
    db.compromised row = false := by
  by_contra bad
  obtain ⟨version, current, recorded⟩ := compromised_iff.mp ((Bool.not_eq_false _).mp bad)
  obtain ⟨id, present, known⟩ := Option.bind_eq_some_iff.mp current
  unfold checkRenewal at passed
  rw [present] at passed
  obtain ⟨version', listed, usable⟩ := bind_eq_ok passed
  obtain rfl : version' = version := Option.some.inj ((found_ok listed).symm.trans known)
  exact nomatch recorded.symm.trans (formed.usable (version?_some known).1 usable)

variable {identifier : Nat} {name : String}

theorem edit_done (sound : db.Sound next) {autoRenew : Bool} (done : edit db identifier name autoRenew = .ok t) :
    Done db t (next + 1) := by
  obtain ⟨row, known, done⟩ := bind_eq_ok done
  obtain ⟨_, _, done⟩ := bind_eq_ok done
  obtain ⟨_, usable, done⟩ := bind_eq_ok done
  cases done
  obtain ⟨here, _⟩ := certificate?_some (found_ok known)
  refine .of_same ((sound.mono (Nat.le_succ next)).setCertificate (fun _ => rfl) (fun _ => rfl) ?_)
    (.setCertificate (fun _ => rfl) fun _ => rfl) rfl rfl
  intro other there same
  obtain rfl := Rows.unique sound.certificateIds there here same
  cases autoRenew with
  | false => exact (sound.shows other there).of id rfl nofun fun idle => ⟨idle, rfl⟩
  | true =>
    have clean := checkRenewal_ok sound.toFormed usable
    intro bad
    have compromised : db.compromised other = true := bad
    exact nomatch compromised.symm.trans clean

theorem version?_filter (formed : db.Formed next) {p : CertificateVersion → Bool} {id : Nat}
    {version : CertificateVersion}
    (known : (db.versions.filter p).find? (·.id == id) = some version) : db.version? id = some version := by
  have here := (List.mem_filter.mp (mem_of_find?_eq_some known)).1
  have mine : version.id = id := by simpa using List.find?_some known
  have listed : (db.version? id).isSome := List.find?_isSome.mpr ⟨version, here, by simpa using mine⟩
  obtain ⟨other, found⟩ := Option.isSome_iff_exists.mp listed
  obtain ⟨there, same⟩ := version?_some found
  rw [found, Rows.unique formed.versionIds there here (same.trans mine.symm)]

theorem delete_done (sound : db.Sound next) (done : delete db identifier = .ok t) : Done db t (next + 1) := by
  obtain ⟨row, known, done⟩ := bind_eq_ok done
  obtain ⟨_, idle, done⟩ := bind_eq_ok done
  obtain ⟨_, _, done⟩ := bind_eq_ok done
  cases done
  obtain ⟨here, _⟩ := certificate?_some (found_ok known)
  have free := require_ok idle
  -- A job under way holds its profile, so none of the profile that goes.
  have spared : ∀ job ∈ db.jobs, job.live = true → job.certificateId ≠ row.id := by
    intro job there live same
    obtain ⟨holder, among, mine, active⟩ := sound.live job there live
    obtain rfl := Rows.unique sound.certificateIds among here (mine.trans same)
    exact nomatch free.symm.trans active
  refine ⟨⟨?_, ?_⟩, ?_, fun job there live => ?_, fun entry there => .inl there⟩
  · exact
      { certificateIds := sound.certificateIds.sublist (List.filter_sublist.map _)
        jobIds := sound.jobIds.sublist (List.filter_sublist.map _)
        versionIds := sound.versionIds.sublist (List.filter_sublist.map _)
        recordKeys := sound.recordKeys
        certificatesBelow := fun other there =>
          Nat.lt_succ_of_lt (sound.certificatesBelow other (mem_of_mem_filter there))
        jobsBelow := fun job there => Nat.lt_succ_of_lt (sound.jobsBelow job (mem_of_mem_filter there))
        versionsBelow := fun version there =>
          Nat.lt_succ_of_lt (sound.versionsBelow version (mem_of_mem_filter there))
        recordsBelow := fun entry there => Nat.lt_succ_of_lt (sound.recordsBelow entry there)
        stored := fun version there => sound.stored version (mem_of_mem_filter there)
        marked := fun version there => sound.marked version (mem_of_mem_filter there)
        live := by
          intro job there live
          have before := mem_of_mem_filter there
          obtain ⟨holder, among, mine, active⟩ := sound.live job before live
          exact ⟨holder, List.mem_filter.mpr ⟨among, by simpa [mine] using spared job before live⟩, mine, active⟩
        owner := fun entry there job among => sound.owner entry there job (mem_of_mem_filter among)
        commands := sound.commands }
  · intro other there
    refine (sound.shows other (mem_of_mem_filter there)).of (fun bad => ?_) rfl id fun idle => ⟨idle, rfl⟩
    obtain ⟨version, current, recorded⟩ := compromised_iff.mp bad
    obtain ⟨versionId, present, listed⟩ := Option.bind_eq_some_iff.mp current
    exact compromised_iff.mpr ⟨version, Option.bind_eq_some_iff.mpr ⟨versionId, present,
      version?_filter sound.toFormed listed⟩, recorded⟩
  · exact .of_profiles (fun _ recorded => recorded) fun row' there => .inl ⟨row', mem_of_mem_filter there, rfl, rfl⟩
  · exact List.mem_filter.mpr ⟨there, by simpa using spared job there live⟩

/-- What `publish` makes of a profile: it has a version that is not on record. -/
structure Published (db t : Db) (identifier next : Nat) : Prop where
  sound : t.Sound next
  recorded : t.recorded = db.recorded
  jobs : t.jobs = db.jobs
  records : t.revocations = db.revocations
  clean : ∀ row ∈ t.certificates, row.id = identifier → t.compromised row = false
  others : ∀ row' ∈ t.certificates, row'.id ≠ identifier → row' ∈ db.certificates
  holders : ∀ row' ∈ t.certificates, ∃ row ∈ db.certificates, row.id = row'.id ∧ row.activeJobId = row'.activeJobId

theorem version?_append (version : CertificateVersion) (new : ∀ other ∈ db.versions, other.id < version.id)
    (id : Nat) :
    (db.versions ++ [version]).find? (·.id == id) = if id = version.id then some version else db.version? id := by
  rw [List.find?_append]
  split
  · rename_i mine
    have unknown : db.versions.find? (·.id == id) = none :=
      List.find?_eq_none.mpr fun other here => by simpa [mine] using Nat.ne_of_lt (new other here)
    rw [unknown, Option.none_or, mine]
    simp
  · rename_i other
    have unknown : [version].find? (·.id == id) = none := by simpa using Ne.symm other
    rw [unknown, Option.or_none]
    rfl

variable {data : Material}

theorem publish_done (sound : db.Sound next) {fresh : Nat} (below : fresh < next)
    (new : ∀ version ∈ db.versions, version.id < fresh) (done : publish fresh db identifier data = .ok t) :
    Published db t identifier next := by
  obtain ⟨_, unknown, done⟩ := bind_eq_ok done
  cases done
  have unrecorded : db.recorded (fingerprint data) = false := by
    unfold Db.recorded
    rw [require_ok unknown]
    rfl
  let version : CertificateVersion :=
    { id := fresh, certificateId := identifier, material := data, fingerprint := some (fingerprint data) }
  let wider : Db := { db with versions := db.versions ++ [version] }
  have formed : wider.Formed next := sound.toFormed.addVersion below new rfl
  have lookup (id : Nat) : wider.version? id = if id = fresh then some version else db.version? id :=
    version?_append version new id
  -- A version that is found and on record is one that was found before.
  have back (row : ManagedCertificate) (bad : wider.compromised row = true) : db.compromised row = true := by
    obtain ⟨found, current, recorded⟩ := compromised_iff.mp bad
    obtain ⟨id, present, listed⟩ := Option.bind_eq_some_iff.mp current
    rw [lookup] at listed
    split at listed
    · cases listed
      have known : db.recorded (fingerprint data) = true := recorded
      exact nomatch known.symm.trans unrecorded
    · exact compromised_iff.mpr ⟨found, Option.bind_eq_some_iff.mpr ⟨id, present, listed⟩, recorded⟩
  have clean (row : ManagedCertificate) (current : row.versionId = some fresh) : wider.compromised row = false := by
    unfold Db.compromised
    rw [current, Option.bind_some, lookup, if_pos rfl]
    exact unrecorded
  have between : wider.Sound next :=
    ⟨formed, fun row here => (sound.shows row here).of (back row) rfl id fun idle => ⟨idle, rfl⟩⟩
  refine ⟨between.setCertificate (fun _ => rfl) (fun _ => rfl) ?_, rfl, rfl, rfl, ?_, ?_, ?_⟩
  · exact fun row _ _ bad => nomatch bad.symm.trans (clean _ rfl)
  · intro row here target
    obtain ⟨old, _, ⟨_, rfl⟩ | ⟨other, rfl⟩⟩ := mem_setCertificate wider here
    · exact clean _ rfl
    · exact absurd target other
  · intro row here other
    obtain ⟨old, before, ⟨same, rfl⟩ | ⟨_, rfl⟩⟩ := mem_setCertificate wider here
    · exact absurd same other
    · exact before
  · intro row here
    obtain ⟨old, before, ⟨_, rfl⟩ | ⟨_, rfl⟩⟩ := mem_setCertificate wider here
    · exact ⟨old, before, rfl, rfl⟩
    · exact ⟨row, before, rfl, rfl⟩

theorem importMaterial_done (sound : db.Sound next) (done : importMaterial db next name data = .ok t) :
    Done db t (next + 1) := by
  have published := publish_done (sound.addCertificate rfl rfl) (Nat.lt_succ_self next) sound.versionsBelow done
  refine .of_same published.sound (.of_profiles (fun leaf known => published.recorded ▸ known) fun row' here => ?_)
    published.jobs published.records
  by_cases target : row'.id = next
  · refine .inr fun version current => ?_
    have clean := published.clean row' here target
    unfold Db.compromised at clean
    rw [current, Option.any_some, published.recorded] at clean
    exact clean
  · rcases List.mem_append.mp (published.others row' here target) with old | mine
    · exact .inl ⟨row', old, rfl, rfl⟩
    · obtain rfl := List.mem_singleton.mp mine
      exact absurd rfl target

theorem activate_done (sound : db.Sound next) {versionId : Nat}
    (done : activate host db identifier versionId = .ok t) :
    Done db t (next + 1) := by
  obtain ⟨row, known, done⟩ := bind_eq_ok done
  obtain ⟨version, listed, done⟩ := bind_eq_ok done
  obtain ⟨_, _, done⟩ := bind_eq_ok done
  obtain ⟨_, usable, done⟩ := bind_eq_ok done
  obtain ⟨_, _, done⟩ := bind_eq_ok done
  cases done
  obtain ⟨there, mine⟩ := version?_some (found_ok listed)
  have unrecorded := sound.toFormed.usable there usable
  have current : db.version? version.id = some version := by
    rw [mine]
    exact found_ok listed
  refine .of_same ((sound.mono (Nat.le_succ next)).setCertificate (fun _ => rfl) (fun _ => rfl) fun other _ _ bad =>
    ?_)
    (.of_profiles (fun _ recorded => recorded) fun row' here => ?_) rfl rfl
  · obtain ⟨found, active, recorded⟩ := compromised_iff.mp bad
    obtain rfl : version = found := Option.some.inj (current.symm.trans active)
    exact nomatch recorded.symm.trans unrecorded
  · obtain ⟨old, before, ⟨_, rfl⟩ | ⟨_, rfl⟩⟩ := mem_setCertificate _ here
    · refine .inr fun found active => ?_
      obtain rfl : version = found := Option.some.inj (current.symm.trans active)
      exact unrecorded
    · exact .inl ⟨row', before, rfl, rfl⟩

end Profiles

section Jobs

variable {host : Host} {db t : Db} {next identifier : Nat}

/-- What `claim` makes of the tables: one more job, which holds its profile. -/
structure Claimed (db t : Db) (next : Nat) (kind : JobKind) (parameters : Parameters) : Prop where
  sound : t.Sound (next + 1)
  jobs : ∃ job : CertificateJob, t.jobs = db.jobs ++ [job] ∧ job.id = next ∧ job.live = true ∧ job.kind = kind ∧
    job.parameters = parameters
  records : t.revocations = db.revocations
  versions : t.versions = db.versions
  commands : t.commands = db.commands
  profiles : ∀ row' ∈ t.certificates, ∃ row ∈ db.certificates, row.id = row'.id ∧ row.versionId = row'.versionId

variable {kind : JobKind} {parameters : Parameters}

theorem claim_done (sound : db.Sound next) {row : ManagedCertificate} (here : row ∈ db.certificates) {force : Bool}
    (done : claim db next row kind force parameters = .ok t) :
    Claimed db t next kind parameters := by
  obtain ⟨_, idle, done⟩ := bind_eq_ok done
  cases done
  have free := require_ok idle
  let take (row : ManagedCertificate) : ManagedCertificate :=
    { row with activeJobId := some next, status := .queued, lastError := none }
  have later := sound.mono (Nat.le_succ next)
  have held : (db.setCertificate row.id take).Formed (next + 1) := by
    refine later.toFormed.setCertificate (fun _ => rfl) fun other there same job _ _ active => ?_
    obtain rfl := Rows.unique sound.certificateIds there here same
    exact nomatch free.symm.trans active
  refine ⟨⟨held.addJob (Nat.lt_succ_self next) sound.jobsBelow sound.recordsBelow ?_, ?_⟩,
    ⟨_, rfl, rfl, rfl, rfl, rfl⟩, rfl, rfl, rfl, ?_⟩
  · exact ⟨take row, Rows.update_selected here (beq_self_eq_true row.id), rfl, rfl⟩
  · intro other there
    obtain ⟨old, before, ⟨_, rfl⟩ | ⟨_, rfl⟩⟩ := mem_setCertificate _ there
    · exact (sound.shows old before).of id rfl id nofun
    · exact sound.shows other before
  · intro other there
    obtain ⟨old, before, ⟨_, rfl⟩ | ⟨_, rfl⟩⟩ := mem_setCertificate _ there
    · exact ⟨old, before, rfl, rfl⟩
    · exact ⟨other, before, rfl, rfl⟩

theorem Claimed.done (claimed : Claimed db t next kind parameters) : Done db t (next + 1) where
  sound := claimed.sound
  kept := by
    refine .of_profiles (fun leaf recorded => ?_) fun row' here => .inl (claimed.profiles row' here)
    unfold Db.recorded Db.revocation? at recorded ⊢
    rw [claimed.records]
    exact recorded
  jobs := by
    intro job here _
    obtain ⟨_, jobs, _⟩ := claimed.jobs
    rw [jobs]
    exact mem_append_left _ here
  records := fun _ here => .inl (claimed.records ▸ here)

theorem queue_done (sound : db.Sound next) {renew force : Bool}
    (done : queue host db next identifier renew force = .ok t) :
    Done db t (next + 1) := by
  obtain ⟨row, known, done⟩ := bind_eq_ok done
  obtain ⟨_, _, done⟩ := bind_eq_ok done
  obtain ⟨_, _, done⟩ := bind_eq_ok done
  obtain ⟨_, _, done⟩ := bind_eq_ok done
  have here := (certificate?_some (found_ok known)).1
  split at done
  · exact (claim_done sound here done).done
  · obtain ⟨_, _, done⟩ := bind_eq_ok done
    exact (claim_done sound here done).done

theorem queueAccount_done (sound : db.Sound next) {email : String} {eabAction : EabAction} {eab : Option String}
    (done : queueAccount host db next identifier email eabAction eab = .ok t) : Done db t (next + 1) := by
  obtain ⟨_, _, done⟩ := bind_eq_ok done
  obtain ⟨row, known, done⟩ := bind_eq_ok done
  obtain ⟨_, _, done⟩ := bind_eq_ok done
  obtain ⟨_, _, done⟩ := bind_eq_ok done
  obtain ⟨_, _, done⟩ := bind_eq_ok done
  exact (claim_done sound (certificate?_some (found_ok known)).1 done).done

theorem retryAccount_done (sound : db.Sound next) {jobId : Nat}
    (done : retryAccount host db next identifier jobId = .ok t) :
    Done db t (next + 1) := by
  obtain ⟨_, _, done⟩ := bind_eq_ok done
  obtain ⟨row, known, done⟩ := bind_eq_ok done
  split at done
  · exact nomatch done
  · obtain ⟨_, _, done⟩ := bind_eq_ok done
    obtain ⟨_, _, done⟩ := bind_eq_ok done
    exact (claim_done sound (certificate?_some (found_ok known)).1 done).done

theorem version?_fingerprinted {data : Material} {id : Nat} {version : CertificateVersion}
    (known : (db.fingerprinted data).version? id = some version) :
    ∃ old, db.version? id = some old ∧ old.material = version.material := by
  let fill (version : CertificateVersion) : CertificateVersion :=
    { version with fingerprint := some (version.fingerprint.getD (fingerprint version.material)) }
  have same := Rows.find?_update (·.candidate data) fill db.versions (·.id) (fun _ => rfl) id
  obtain ⟨old, found, rfl⟩ := Option.map_eq_some_iff.mp (same.symm.trans known)
  refine ⟨old, found, ?_⟩
  split <;> rfl

theorem Db.Sound.fingerprinted (sound : db.Sound next) (data : Material) : (db.fingerprinted data).Sound next where
  toFormed := sound.toFormed.fingerprinted data
  shows := by
    intro row here
    refine (sound.shows row here).of (fun bad => ?_) rfl id fun idle => ⟨idle, rfl⟩
    obtain ⟨version, current, recorded⟩ := compromised_iff.mp bad
    obtain ⟨id, present, listed⟩ := Option.bind_eq_some_iff.mp current
    obtain ⟨old, found, same⟩ := version?_fingerprinted listed
    exact compromised_iff.mpr ⟨old, Option.bind_eq_some_iff.mpr ⟨id, present, found⟩, same ▸ recorded⟩

theorem fingerprinted_copies (formed : db.Formed next) (data : Material) :
    ∀ version ∈ (db.fingerprinted data).versions, fingerprint version.material = fingerprint data →
      version.fingerprint = some (fingerprint version.material) := by
  intro version here copy
  obtain ⟨old, before, ⟨_, rfl⟩ | ⟨missed, rfl⟩⟩ := Rows.mem_update here
  · cases print : old.fingerprint with
    | none => rfl
    | some leaf => simp [formed.stored old before leaf print]
  · cases print : version.fingerprint with
    | some leaf => rw [formed.stored version before leaf print]
    | none =>
      have serial : version.material.leaf.serial = data.leaf.serial := congrArg Leaf.serial copy
      simp [CertificateVersion.candidate, print, serial] at missed

theorem record_done (sound : db.Sound next) {claimed : Db} {parameters : RevocationParameters}
    {entry : CertificateRevocation} (claim : Claimed db claimed next .revoke (.revocation parameters))
    (mine : parameters.fingerprint = entry.fingerprint) (owns : entry.jobId = next)
    (pending : entry.status = .pending)
    (copies : ∀ version ∈ db.versions, fingerprint version.material = entry.fingerprint →
      version.fingerprint = some (fingerprint version.material))
    (free : ∀ command ∈ db.commands, command.carries entry.fingerprint = false)
    (done : markRevocation (claimed.record entry) entry.fingerprint next .pending = .ok t) :
    Done db t (next + 1) := by
  obtain ⟨job, jobs, new, live, kind, works⟩ := claim.jobs
  have jobsRecord : (claimed.record entry).jobs = claimed.jobs := by unfold Db.record; split <;> rfl
  have profiles : (claimed.record entry).certificates = claimed.certificates := by unfold Db.record; split <;> rfl
  have versions : (claimed.record entry).version? = claimed.version? := by unfold Db.record; split <;> rfl
  have formed : (claimed.record entry).Formed (next + 1) := by
    refine claim.sound.toFormed.record (owns ▸ Nat.lt_succ_self next) ?_ (claim.versions ▸ copies)
      (claim.commands ▸ free)
    intro other here same
    rw [jobs] at here
    rcases List.mem_append.mp here with old | rest
    · exact absurd (same.trans owns) (Nat.ne_of_lt (sound.jobsBelow other old))
    · obtain rfl := List.mem_singleton.mp rest
      exact ⟨kind, parameters, works, mine⟩
  have shows := markRevocation_shows none formed done (by
    rw [profiles]
    intro row here other
    refine (claim.sound.shows row here).of (fun bad => ?_) rfl id fun idle => ⟨idle, rfl⟩
    obtain ⟨version, current, recorded⟩ := compromised_iff.mp bad
    refine compromised_iff.mpr ⟨version, versions ▸ current, ?_⟩
    exact (recorded_record.mp recorded).resolve_right (other version current))
  have marked := formed.mark done
  obtain ⟨_, rfl⟩ := markRevocation_ok done
  refine ⟨⟨marked, shows⟩, ?_, ?_, ?_⟩
  · refine .of_profiles (fun leaf recorded => ?_) fun row' here => .inl ?_
    · have before := claim.done.kept.records leaf recorded
      have after : (claimed.record entry).recorded leaf = true := recorded_record.mpr (.inl before)
      exact (recorded_setRevocation entry.fingerprint .pending leaf).trans after
    · obtain ⟨row, there, rfl⟩ := List.mem_map.mp here
      obtain ⟨keepsId, _, keepsVersion⟩ :=
        markProfile_keys ((claimed.record entry).setRevocation entry.fingerprint .pending)
        entry.fingerprint next row
      obtain ⟨old, before, sameId, sameVersion⟩ := claim.profiles row (profiles ▸ there)
      exact ⟨old, before, sameId.trans keepsId.symm, sameVersion.trans keepsVersion.symm⟩
  · intro other here _
    change other ∈ (claimed.record entry).jobs
    rw [jobsRecord, jobs]
    exact mem_append_left _ here
  · intro other here
    have listed : job ∈ (claimed.record entry).jobs := by
      rw [jobsRecord, jobs]
      exact mem_append_right _ (mem_singleton_self job)
    obtain ⟨old, before, ⟨_, rfl⟩ | ⟨_, rfl⟩⟩ := Rows.mem_update here
    · rcases mem_record before with rfl | ⟨_, different⟩
      · exact .inr ⟨rfl, job, listed, new.trans owns.symm, live⟩
      · simp_all
    · rcases mem_record before with rfl | ⟨there, _⟩
      · exact .inr ⟨pending, job, listed, new.trans owns.symm, live⟩
      · exact .inl (claim.records ▸ there)

theorem queueRevocation_done (sound : db.Sound next) {versionId : Nat} {directoryUrl : Option String} {reason : Nat}
    (done : queueRevocation host db next identifier versionId directoryUrl reason = .ok t) :
    Done db t (next + 1) := by
  obtain ⟨_, _, done⟩ := bind_eq_ok done
  obtain ⟨row, known, done⟩ := bind_eq_ok done
  obtain ⟨version, listed, done⟩ := bind_eq_ok done
  obtain ⟨_, _, done⟩ := bind_eq_ok done
  obtain ⟨_, _, done⟩ := bind_eq_ok done
  obtain ⟨_, _, done⟩ := bind_eq_ok done
  split at done
  · exact nomatch done
  · rename_i directory _
    obtain ⟨_, _, done⟩ := bind_eq_ok done
    obtain ⟨_, _, done⟩ := bind_eq_ok done
    obtain ⟨_, _, done⟩ := bind_eq_ok done
    obtain ⟨_, _, done⟩ := bind_eq_ok done
    obtain ⟨_, _, done⟩ := bind_eq_ok done
    obtain ⟨_, _, done⟩ := bind_eq_ok done
    obtain ⟨_, quiet, done⟩ := bind_eq_ok done
    obtain ⟨claimed, claim, done⟩ := bind_eq_ok done
    have here := (certificate?_some (found_ok known)).1
    have filled := sound.fingerprinted version.material
    have recorded := record_done filled (claim_done filled here claim) rfl rfl rfl
      (fingerprinted_copies sound.toFormed version.material) (require_ok quiet) done
    exact ⟨recorded.sound, ⟨recorded.kept.records, recorded.kept.switches⟩, recorded.jobs, recorded.records⟩

end Jobs

section Targets

variable {host : Host} {db t : Db} {next identifier : Nat}

theorem Done.targets (sound : db.Sound next) (targets : List CertificateTarget) :
    Done db { db with targets := targets } (next + 1) := by
  have later := sound.mono (Nat.le_succ next)
  exact .of_same ⟨{ later with }, later.shows⟩ (.of_profiles (fun _ known => known) fun row' here =>
    .inl ⟨row', here, rfl, rfl⟩)
    rfl rfl

theorem Done.deployment (sound : db.Sound next) {command : Command}
    (unrecorded : ∀ leaf, command.carries leaf = true → db.recorded leaf = false)
    (targets : List CertificateTarget) :
    Done db { db with commands := db.commands ++ [command], targets := targets } (next + 1) := by
  have later := sound.mono (Nat.le_succ next)
  have queued := later.toFormed.addCommand fun _ => unrecorded
  exact .of_same ⟨{ queued with }, later.shows⟩ (.of_profiles (fun _ known => known) fun row' here =>
    .inl ⟨row', here, rfl, rfl⟩)
    rfl rfl

theorem saveTarget_done (sound : db.Sound next) {payload : TargetPayload}
    (done : saveTarget host db next identifier payload = .ok t) : Done db t (next + 1) := by
  obtain ⟨_, _, done⟩ := bind_eq_ok done
  obtain ⟨_, _, done⟩ := bind_eq_ok done
  obtain ⟨_, _, done⟩ := bind_eq_ok done
  split at done
  · cases done
    exact .targets sound _
  · obtain ⟨_, _, done⟩ := bind_eq_ok done
    cases done
    exact .targets sound _

variable {targetId : Nat}

theorem deleteTarget_done (sound : db.Sound next) (done : deleteTarget db identifier targetId = .ok t) :
    Done db t (next + 1) := by
  obtain ⟨_, _, done⟩ := bind_eq_ok done
  obtain ⟨_, _, done⟩ := bind_eq_ok done
  obtain ⟨_, _, done⟩ := bind_eq_ok done
  cases done
  exact .targets sound _

theorem noteRefusal_done (sound : db.Sound next) {message : String}
    (done : noteRefusal db targetId message = .ok t) :
    Done db t (next + 1) := by
  cases done
  exact .targets sound _

theorem deploy_done (sound : db.Sound next) (done : deploy host db next identifier targetId = .ok t) :
    Done db t (next + 1) := by
  obtain ⟨row, _, done⟩ := bind_eq_ok done
  obtain ⟨target, _, done⟩ := bind_eq_ok done
  split at done
  · exact nomatch done
  · obtain ⟨_, _, done⟩ := bind_eq_ok done
    obtain ⟨_, _, done⟩ := bind_eq_ok done
    obtain ⟨version, listed, done⟩ := bind_eq_ok done
    obtain ⟨_, usable, done⟩ := bind_eq_ok done
    obtain ⟨_, _, done⟩ := bind_eq_ok done
    obtain ⟨_, _, done⟩ := bind_eq_ok done
    split at done
    · exact nomatch done
    · cases done
      have unrecorded := sound.toFormed.usable (version?_some (found_ok listed)).1 usable
      refine .deployment sound (fun leaf carries => ?_) _
      obtain rfl : fingerprint version.material = leaf := by
        simpa [Command.carries, Command.unfinished] using carries
      exact unrecorded

end Targets

end OpenNode.Certificates
