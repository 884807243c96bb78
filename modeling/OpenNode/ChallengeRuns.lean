import OpenNode.ChallengeLeases

namespace OpenNode.ChallengeLeases

open Interruption List Program

/-- A file is one of the challenges of an active lease. -/
def Holds (lease : Lease) (key : Key) (file : ChallengeFile) : Prop :=
  lease.active = true ∧ ∃ p, lease.payload = some p ∧ p.site = some key.site ∧ ∃ item ∈ p.challenges,
    item.token = key.token ∧ file.plain = true ∧ file.content = item.keyAuthorization

variable {file : ChallengeFile}

theorem claimed_iff {s : Store} {key : Key} :
    claimed s key file = true ↔ ∃ lease ∈ s.leases, Holds lease key file := by
  simp only [claimed, Holds, any_eq_true, Bool.and_eq_true, Option.any_eq_true, decide_eq_true_eq, and_assoc]

/-- The leases and the files fit: tokens belong to one active lease, and the files under a
lease are its challenges. -/
structure Sound (s : Store) : Prop where
  ids : (s.leases.map Lease.id).Nodup
  payloads : ∀ lease ∈ s.leases, lease.active = true →
    ∃ p, lease.payload = some p ∧ p.leaseId = lease.id ∧ p.expiresAt = lease.expiresAt
  tokens : ∀ a ∈ s.leases, ∀ b ∈ s.leases, a.active = true → b.active = true → a.id ≠ b.id →
    ∀ p q, a.payload = some p → b.payload = some q →
      ∀ item ∈ p.challenges, ∀ other ∈ q.challenges, item.token ≠ other.token
  owned : ∀ key file id, s.files.lookup key = some file → file.owner = some id →
    ∃ lease ∈ s.leases, lease.id = id ∧ Holds lease key file
  foreign : ∀ key file, s.files.lookup key = some file → file.owner = none →
    ∀ lease ∈ s.leases, ¬ Holds lease key file

/-- An active lease is one of these already. -/
def Stems (s : Store) (next : Lease) : Prop :=
  ∃ lease ∈ s.leases, lease.active = true ∧ lease.id = next.id ∧ lease.expiresAt = next.expiresAt ∧
    lease.payload = next.payload

/-- What may change up to this time, when these presentations may be new. -/
structure Evolves (now : Rat) (new : Presentation → Prop) (s t : Store) : Prop where
  foreign : ∀ key file, s.files.lookup key = some file → file.owner = none → t.files.lookup key = some file
  ended : ∀ lease ∈ s.leases, lease.ended = true → lease.expiresAt < now - 86400 ∨
    ∃ next ∈ t.leases, next.id = lease.id ∧ next.expiresAt = lease.expiresAt ∧ next.ended = true
  origin : ∀ next ∈ t.leases, next.active = true → Stems s next ∨ ∃ p, new p ∧ next.payload = some p

variable {now : Rat} {new : Presentation → Prop} {s t u : Store}

theorem Evolves.refl (now : Rat) (new : Presentation → Prop) (s : Store) : Evolves now new s s where
  foreign _ _ here _ := here
  ended lease member ended := .inr ⟨lease, member, rfl, rfl, ended⟩
  origin next member active := .inl ⟨next, member, active, rfl, rfl, rfl⟩

theorem Evolves.trans (first : Evolves now new s t) (second : Evolves now new t u) : Evolves now new s u where
  foreign key file here foreign := second.foreign key file (first.foreign key file here foreign) foreign
  ended lease member ended := by
    rcases first.ended lease member ended with old | ⟨next, inside, id, deadline, ended⟩
    · exact .inl old
    · rcases second.ended next inside ended with old | ⟨last, inside, id', deadline', ended⟩
      · exact .inl (deadline ▸ old)
      · exact .inr ⟨last, inside, id'.trans id, deadline'.trans deadline, ended⟩
  origin last member active := by
    rcases second.origin last member active with ⟨next, inside, active, id, deadline, payload⟩ | ⟨p, fresh, given⟩
    · rcases first.origin next inside active with ⟨lease, inside, active, id', deadline', payload'⟩ | ⟨p,
        fresh, given⟩
      · exact .inl ⟨lease, inside, active, id'.trans id, deadline'.trans deadline, payload'.trans payload⟩
      · exact .inr ⟨p, fresh, payload ▸ given⟩
    · exact .inr ⟨p, fresh, given⟩

variable {later : Rat} {new' : Presentation → Prop}

theorem Evolves.mono (evolves : Evolves now new s t) (past : now ≤ later) (more : ∀ p, new p → new' p) :
    Evolves later new' s t where
  foreign := evolves.foreign
  ended lease member ended := (evolves.ended lease member ended).imp_left fun old => by linarith
  origin next member active :=
    (evolves.origin next member active).imp_right fun ⟨p, fresh, given⟩ => ⟨p, more p fresh, given⟩

/-- A store that fits, and that has come from another. -/
structure Reached (now : Rat) (new : Presentation → Prop) (s t : Store) : Prop where
  sound : Sound t
  evolves : Evolves now new s t

theorem Reached.then (first : Reached now new s t) (second : Reached now new t u) : Reached now new s u :=
  ⟨second.sound, first.evolves.trans second.evolves⟩

variable {lease : Lease}

theorem active_iff : lease.active = true ↔ lease.status ≠ .released := by
  rw [Lease.active, decide_eq_true_eq]

theorem Sound.unique (sound : Sound s) {a b : Lease} (here : a ∈ s.leases) (there : b ∈ s.leases)
    (same : a.id = b.id) :
    a = b :=
  Rows.unique sound.ids here there same

variable {id : String}

theorem lease_eq_some (found : s.lease id = some lease) : lease ∈ s.leases ∧ lease.id = id := by
  have test := List.find?_some found
  exact ⟨mem_of_find?_eq_some found, by simpa using test⟩

theorem lease_eq_none (missing : s.lease id = none) : ∀ lease ∈ s.leases, lease.id ≠ id := by
  intro lease member same
  have passed := List.find?_eq_none.mp missing lease member
  simp [same] at passed

variable {status : Status}

theorem mem_setStatus {next : Lease} (member : next ∈ (s.setStatus id status).leases) :
    ∃ lease ∈ s.leases, (lease.id = id ∧ next = lease.withStatus status) ∨ (lease.id ≠ id ∧ next = lease) := by
  obtain ⟨lease, here, ⟨selected, same⟩ | ⟨other, same⟩⟩ := Rows.mem_update member
  · exact ⟨lease, here, .inl ⟨decide_eq_true_eq.mp selected, same⟩⟩
  · exact ⟨lease, here, .inr ⟨decide_eq_false_iff_not.mp other, same⟩⟩

theorem setStatus_row (status : Status) (here : lease ∈ s.leases) (own : lease.id = id) :
    lease.withStatus status ∈ (s.setStatus id status).leases :=
  Rows.update_selected here (decide_eq_true_eq.mpr own)

theorem setStatus_other (status : Status) (here : lease ∈ s.leases) (other : lease.id ≠ id) :
    lease ∈ (s.setStatus id status).leases :=
  Rows.update_other here (decide_eq_false_iff_not.mpr other)

theorem Sound.narrow (sound : Sound s) (files : t.files = s.files) (ids : (t.leases.map Lease.id).Nodup)
    (origin : ∀ next ∈ t.leases, next.active = true → Stems s next)
    (kept : ∀ lease ∈ s.leases, lease.active = true →
      (∃ key file, s.files.lookup key = some file ∧ file.owner = some lease.id) →
        ∃ next ∈ t.leases, next.id = lease.id ∧ next.active = true ∧ next.payload = lease.payload) : Sound t where
  ids := ids
  payloads next member active := by
    obtain ⟨lease, here, was, id, deadline, payload⟩ := origin next member active
    rw [← id, ← deadline, ← payload]
    exact sound.payloads lease here was
  tokens a here b there first second differs := by
    obtain ⟨a', here, first, id, -, payload⟩ := origin a here first
    obtain ⟨b', there, second, id', -, payload'⟩ := origin b there second
    rw [← payload, ← payload']
    exact sound.tokens a' here b' there first second (by rw [id, id']; exact differs)
  owned key file id stored owner := by
    rw [files] at stored
    obtain ⟨lease, here, own, active, p, given, rest⟩ := sound.owned key file id stored owner
    obtain ⟨next, there, same, still, payload⟩ := kept lease here active ⟨key, file, stored, own ▸ owner⟩
    exact ⟨next, there, same.trans own, still, p, payload.trans given, rest⟩
  foreign key file stored owner next member := by
    rintro ⟨active, p, given, rest⟩
    obtain ⟨lease, here, was, -, -, payload⟩ := origin next member active
    exact sound.foreign key file (files ▸ stored) owner lease here ⟨was, p, payload.trans given, rest⟩

theorem setStatus_reached (sound : Sound s) (here : lease ∈ s.leases) (own : lease.id = id)
    (was : lease.active = true) (ends : lease.ended = true → status = .releasing ∨ status = .released)
    (bare : status = .released → ∀ key file, s.files.lookup key = some file → file.owner ≠ some id) :
    Reached now new s (s.setStatus id status) := by
  have origin : ∀ next ∈ (s.setStatus id status).leases, next.active = true → Stems s next := by
    intro next member active
    obtain ⟨row, inside, ⟨same, rfl⟩ | ⟨-, rfl⟩⟩ := mem_setStatus member
    · obtain rfl := sound.unique inside here (same.trans own.symm)
      exact ⟨row, inside, was, rfl, rfl, rfl⟩
    · exact ⟨next, inside, active, rfl, rfl, rfl⟩
  refine ⟨sound.narrow rfl (Rows.nodup_update (fun _ => rfl) sound.ids) origin ?_,
    fun _ _ stored _ => stored, ?_, fun next member active => .inl (origin next member active)⟩
  · rintro row inside active ⟨key, file, stored, owner⟩
    by_cases same : row.id = id
    · refine ⟨_, setStatus_row status inside same, rfl, ?_, rfl⟩
      rw [active_iff]
      intro released
      exact bare released key file stored (same ▸ owner)
    · exact ⟨row, setStatus_other status inside same, rfl, active, rfl⟩
  · intro row inside ended
    by_cases same : row.id = id
    · obtain rfl := sound.unique inside here (same.trans own.symm)
      refine .inr ⟨_, setStatus_row status inside same, rfl, rfl, ?_⟩
      rcases ends ended with rfl | rfl <;> rfl
    · exact .inr ⟨row, setStatus_other status inside same, rfl, rfl, ended⟩

theorem insert_fresh (fresh : ∀ other ∈ s.leases, other.id ≠ lease.id) :
    s.insert lease = { s with leases := s.leases ++ [lease] } := by
  refine if_neg fun known => ?_
  obtain ⟨other, member, same⟩ := List.any_eq_true.mp known
  exact fresh other member (decide_eq_true_eq.mp same)

theorem insert_known {other : Lease} (member : other ∈ s.leases) (same : other.id = lease.id) :
    s.insert lease = s :=
  if_pos (List.any_eq_true.mpr ⟨other, member, decide_eq_true_eq.mpr same⟩)

theorem tombstone_reached (sound : Sound s) (fresh : ∀ other ∈ s.leases, other.id ≠ lease.id)
    (released : lease.status = .released) : Reached now new s (s.insert lease) := by
  rw [insert_fresh fresh]
  have origin : ∀ next ∈ s.leases ++ [lease], next.active = true → Stems s next := by
    intro next member active
    rcases List.mem_append.mp member with here | last
    · exact ⟨next, here, active, rfl, rfl, rfl⟩
    · obtain rfl := List.mem_singleton.mp last
      exact absurd released (active_iff.mp active)
  refine ⟨sound.narrow rfl (Rows.nodup_append sound.ids fresh) origin ?_,
    fun _ _ stored _ => stored, ?_, fun next member active => .inl (origin next member active)⟩
  · exact fun row here active _ => ⟨row, mem_append_left _ here, rfl, active, rfl⟩
  · exact fun row here ended => .inr ⟨row, mem_append_left _ here, rfl, rfl, ended⟩

variable {p : Presentation}

theorem insert_reached (sound : Sound s) (fresh : ∀ other ∈ s.leases, other.id ≠ p.leaseId)
    (apart : ∀ other ∈ s.leases, other.active = true → ∀ q, other.payload = some q → ∀ item ∈ p.challenges,
      ∀ item' ∈ q.challenges, item.token ≠ item'.token)
    (free : ∀ site, p.site = some site → ∀ item ∈ p.challenges, s.files.lookup ⟨site, item.token⟩ = none)
    (presented : new p) :
    Reached now new s
      (s.insert { id := p.leaseId, payload := some p, status := .preparing, expiresAt := p.expiresAt }) := by
  rw [insert_fresh fresh]
  refine ⟨⟨Rows.nodup_append sound.ids fresh, ?_, ?_, ?_, ?_⟩, fun _ _ stored _ => stored, ?_, ?_⟩
  · intro lease member active
    rcases List.mem_append.mp member with here | last
    · exact sound.payloads lease here active
    · obtain rfl := List.mem_singleton.mp last
      exact ⟨p, rfl, rfl, rfl⟩
  · intro a here b there first second differs q r given given'
    rcases List.mem_append.mp here with here | last <;> rcases List.mem_append.mp there with there | last'
    · exact sound.tokens a here b there first second differs q r given given'
    · obtain rfl := List.mem_singleton.mp last'
      cases given'
      exact fun item inside other outside same => apart a here first q given other outside item inside same.symm
    · obtain rfl := List.mem_singleton.mp last
      cases given
      exact apart b there second r given'
    · exact absurd ((List.mem_singleton.mp last).trans (List.mem_singleton.mp last').symm ▸ rfl) differs
  · intro key file id stored owner
    obtain ⟨lease, here, rest⟩ := sound.owned key file id stored owner
    exact ⟨lease, mem_append_left _ here, rest⟩
  · intro key file stored owner lease member
    rcases List.mem_append.mp member with here | last
    · exact sound.foreign key file stored owner lease here
    · obtain rfl := List.mem_singleton.mp last
      rintro ⟨-, q, given, site, item, inside, token, -⟩
      cases given
      have none := free key.site site item inside
      rw [token] at none
      exact nomatch none.symm.trans stored
  · exact fun row here ended => .inr ⟨row, mem_append_left _ here, rfl, rfl, ended⟩
  · intro next member active
    rcases List.mem_append.mp member with here | last
    · exact .inl ⟨next, here, active, rfl, rfl, rfl⟩
    · obtain rfl := List.mem_singleton.mp last
      exact .inr ⟨p, presented, rfl⟩

/-- A file of the Agent is at its place, if there is one. -/
def Checked (s : Store) (site : String) (item : Challenge) : Prop :=
  ∀ file, s.files.lookup ⟨site, item.token⟩ = some file → file.plain = true ∧ file.content = item.keyAuthorization

variable {site : String} {item : Challenge}

theorem checkFile_ok (ok : checkFile site item s = .ok t) : t = s ∧ Checked s site item := by
  unfold checkFile at ok
  cases stored : s.files.lookup ⟨site, item.token⟩ with
  | none =>
    rw [stored] at ok
    exact ⟨(Except.ok.inj ok).symm, fun file found => nomatch stored.symm.trans found⟩
  | some file =>
    rw [stored] at ok
    dsimp only at ok
    split at ok
    · rename_i passed
      refine ⟨(Except.ok.inj ok).symm, fun other found => ?_⟩
      cases stored.symm.trans found
      simpa using passed
    · cases ok

theorem writeFile_ok (ok : writeFile id site item s = .ok t) : Checked s site item ∧
      t = { s with files := Assoc.put ⟨site, item.token⟩ ⟨item.keyAuthorization, true, some id⟩ s.files } := by
  unfold writeFile at ok
  cases checked : checkFile site item s with
  | error error =>
    rw [checked] at ok
    cases ok
  | ok same =>
    obtain ⟨rfl, passed⟩ := checkFile_ok checked
    rw [checked] at ok
    exact ⟨passed, (Except.ok.inj ok).symm⟩

theorem Sound.not_foreign (sound : Sound s) (here : lease ∈ s.leases) (active : lease.active = true)
    (given : lease.payload = some p) (own_site : p.site = some site) (inside : item ∈ p.challenges)
    (checked : Checked s site item) (stored : s.files.lookup ⟨site, item.token⟩ = some file) : file.owner ≠ none :=
  fun owner => sound.foreign ⟨site, item.token⟩ file stored owner lease here
    ⟨active, p, given, own_site, item, inside, rfl, checked file stored⟩

theorem put_reached (sound : Sound s) {key : Key}
    (owned : ∀ id, file.owner = some id → ∃ lease ∈ s.leases, lease.id = id ∧ Holds lease key file)
    (foreign : file.owner = none → ∀ lease ∈ s.leases, ¬ Holds lease key file)
    (free : ∀ old, s.files.lookup key = some old → old.owner ≠ none) :
    Reached now new s { s with files := Assoc.put key file s.files } := by
  refine ⟨⟨sound.ids, sound.payloads, sound.tokens, ?_, ?_⟩, ?_,
    fun row member ended => .inr ⟨row, member, rfl, rfl, ended⟩,
    fun next member active => .inl ⟨next, member, active, rfl, rfl, rfl⟩⟩ <;> dsimp only
  · intro other stored id found owner
    rw [Assoc.lookup_put] at found
    split at found
    · rename_i same
      cases found
      exact same ▸ owned id owner
    · exact sound.owned other stored id found owner
  · intro other stored found owner
    rw [Assoc.lookup_put] at found
    split at found
    · rename_i same
      cases found
      exact same ▸ foreign owner
    · exact sound.foreign other stored found owner
  · intro other stored found owner
    rw [Assoc.lookup_put_other _]
    · exact found
    · rintro rfl
      exact free stored found owner

theorem writeFile_reached (sound : Sound s) (here : lease ∈ s.leases) (active : lease.active = true)
    (given : lease.payload = some p) (own_site : p.site = some site) (inside : item ∈ p.challenges)
    (own : lease.id = p.leaseId) (ok : writeFile p.leaseId site item s = .ok t) :
    Reached now new s t ∧ t.leases = s.leases := by
  obtain ⟨checked, rfl⟩ := writeFile_ok ok
  refine ⟨put_reached sound ?_ nofun fun old => sound.not_foreign here active given own_site inside checked, rfl⟩
  intro id owner
  exact ⟨lease, here, own.trans (Option.some.inj owner), active, p, given, own_site, item, inside, rfl, rfl, rfl⟩

theorem removeFile_lookup (ok : removeFile site item s = .ok t) (key : Key) :
    t.files.lookup key = if key = ⟨site, item.token⟩ then none else s.files.lookup key := by
  cases ok
  have filtered := Assoc.lookup_filter (fun other : Key => decide (other ≠ ⟨site, item.token⟩)) key s.files
  rw [filtered]
  by_cases same : key = ⟨site, item.token⟩ <;> simp [same]

theorem removeFile_leases (ok : removeFile site item s = .ok t) : t.leases = s.leases := by
  cases ok
  rfl

theorem removeFile_reached (sound : Sound s) (here : lease ∈ s.leases) (active : lease.active = true)
    (given : lease.payload = some p) (own_site : p.site = some site) (inside : item ∈ p.challenges)
    (checked : Checked s site item) (ok : removeFile site item s = .ok t) : Reached now new s t := by
  have left := removeFile_lookup ok
  have remains {key : Key} {file : ChallengeFile} (stored : t.files.lookup key = some file) :
      s.files.lookup key = some file := by
    rw [left] at stored
    split at stored
    · cases stored
    · exact stored
  cases ok
  refine ⟨⟨sound.ids, sound.payloads, sound.tokens, fun key file id stored =>
    sound.owned key file id (remains stored),
      fun key file stored => sound.foreign key file (remains stored)⟩, ?_,
    fun row member ended => .inr ⟨row, member, rfl, rfl, ended⟩,
    fun next member active => .inl ⟨next, member, active, rfl, rfl, rfl⟩⟩
  intro key file stored owner
  rw [left]
  split
  · rename_i same
    subst same
    exact absurd owner (sound.not_foreign here active given own_site inside checked stored)
  · exact stored

theorem createRoot_ok (ok : createRoot site s = .ok t) : t.leases = s.leases ∧ t.files = s.files := by
  unfold createRoot at ok
  split at ok
  · cases ok
    exact ⟨rfl, rfl⟩
  · split at ok
    · cases ok
    · cases ok
      exact ⟨rfl, rfl⟩

theorem openRoot_ok (ok : openRoot site s = .ok t) : t = s := by
  unfold openRoot at ok
  split at ok
  · exact (Except.ok.inj ok).symm
  · cases ok

theorem Reached.of_same (reached : Reached now new s t) (leases : u.leases = t.leases) (files : u.files = t.files) :
    Reached now new s u := by
  obtain ⟨⟨ids, payloads, tokens, owned, foreign⟩, kept, ended, origin⟩ := reached
  exact ⟨⟨leases ▸ ids, leases ▸ payloads, leases ▸ tokens, by
    rw [files, leases]; exact owned, by rw [files, leases]; exact foreign⟩,
    by rw [files]; exact kept, by rw [leases]; exact ended, by rw [leases]; exact origin⟩

theorem collect_reached (sound : Sound s) : Reached now new s (collect now s) := by
  have kept {lease : Lease} (here : lease ∈ s.leases) (stays : lease.active = true ∨
      now - 86400 ≤ lease.expiresAt) :
      lease ∈ (collect now s).leases :=
    List.mem_filter.mpr ⟨here, by simpa using stays⟩
  have origin : ∀ next ∈ (collect now s).leases, next.active = true → Stems s next :=
    fun next member active => ⟨next, mem_of_mem_filter member, active, rfl, rfl, rfl⟩
  refine ⟨sound.narrow rfl (sound.ids.sublist (List.filter_sublist.map Lease.id)) origin ?_,
    fun _ _ stored _ => stored, ?_, fun next member active => .inl (origin next member active)⟩
  · exact fun lease here active _ => ⟨lease, kept here (.inl active), rfl, active, rfl⟩
  · intro lease here ended
    by_cases recent : now - 86400 ≤ lease.expiresAt
    · exact .inr ⟨lease, kept here (.inr recent), rfl, rfl, ended⟩
    · exact .inl (not_le.mp recent)

theorem occupy_reached (sound : Sound s) (key : Key) (content : String) (plain : Bool) :
    Reached now new s (occupy key content plain s) := by
  unfold occupy
  dsimp only
  split
  · exact ⟨sound, .refl now new s⟩
  · rename_i free
    rw [Bool.or_eq_true, not_or, Option.not_isSome_iff_eq_none, claimed_iff] at free
    obtain ⟨free, unclaimed⟩ := free
    refine put_reached sound nofun (fun _ lease member holds => unclaimed ⟨lease, member, holds⟩) fun old stored =>
      ?_
    exact nomatch free.symm.trans stored

/-- The row of an id, with its status and payload. -/
def Row (s : Store) (id : String) (status : Status) (payload : Option Presentation) : Prop :=
  ∃ lease ∈ s.leases, lease.id = id ∧ lease.status = status ∧ lease.payload = payload

theorem Row.of_leases {payload : Option Presentation} (row : Row s id status payload) (same : t.leases = s.leases) :
    Row t id status payload := by
  obtain ⟨lease, here, rest⟩ := row
  exact ⟨lease, same ▸ here, rest⟩

/-- Nothing is left of a lease: its row is released and it has no file. -/
def Gone (s : Store) (id : String) : Prop :=
  ∃ lease ∈ s.leases, lease.id = id ∧ lease.status = .released

section Release
variable {r : Store} {leaseId : String}

theorem finishRelease_safe {payload : Option Presentation} :
    Safe (Reached now new r) (fun s => Reached now new r s ∧ Row s leaseId .releasing payload ∧
        ∀ key file, s.files.lookup key = some file → file.owner ≠ some leaseId)
      (finishRelease leaseId) (fun s => Reached now new r s ∧ Gone s leaseId) := by
  refine .write (fun s before => before.1) ?_ (.done (fun s after => after.1) fun _ => id)
  rintro s ⟨reached, ⟨lease, here, own, releasing, -⟩, bare⟩
  have active : lease.active = true := active_iff.mpr (releasing ▸ nofun)
  refine ⟨reached.then (setStatus_reached reached.sound here own active (fun _ => .inr rfl) fun _ => bare), ?_⟩
  exact ⟨_, setStatus_row .released here own, own, rfl⟩

theorem releaseFiles_safe {p : Presentation} {site : String} (own_site : p.site = some site) :
    Safe (Reached now new r) (fun s => Reached now new r s ∧ Row s leaseId .releasing (some p))
      (releaseFiles site p.challenges)
      (fun s => Reached now new r s ∧ Row s leaseId .releasing (some p) ∧
        ∀ key file, s.files.lookup key = some file → file.owner ≠ some leaseId) := by
  refine .step (fun s before => before.1) (fun s t before ok => openRoot_ok ok ▸ before) (.seq (M := fun s =>
    (Reached now new r s ∧ Row s leaseId .releasing (some p)) ∧ ∀ item ∈ p.challenges,
      Checked s site item) ?checks ?removals)
  case checks =>
    refine (Safe.each
      (I := fun past s => (Reached now new r s ∧ Row s leaseId .releasing (some p)) ∧ ∀ item ∈ past,
        Checked s site item)
      p.challenges (fun _ _ _ s before => before.1.1) ?_).weaken
      (fun s before => ⟨before, fun _ member => absurd member not_mem_nil⟩) fun _ => id
    rintro past item rest - s t ⟨before, checked⟩ ok
    obtain ⟨rfl, passed⟩ := checkFile_ok ok
    refine ⟨before, fun other member => ?_⟩
    rcases List.mem_append.mp member with old | last
    · exact checked other old
    · exact List.mem_singleton.mp last ▸ passed
  case removals =>
    refine (Safe.each
      (I := fun past s => ((Reached now new r s ∧ Row s leaseId .releasing (some p)) ∧ ∀ item ∈ p.challenges,
        Checked s site item) ∧
        ∀ item ∈ past, s.files.lookup ⟨site, item.token⟩ = none)
      p.challenges (fun _ _ _ s before => before.1.1.1) ?_).weaken
      (fun s before => ⟨before, fun _ member => absurd member not_mem_nil⟩) ?_
    · rintro past item rest whole s t ⟨⟨⟨reached, row⟩, checked⟩, removed⟩ ok
      have inside : item ∈ p.challenges := whole ▸ mem_append_right _ mem_cons_self
      have ⟨lease, here, own, releasing, given⟩ := row
      have active : lease.active = true := active_iff.mpr (releasing ▸ nofun)
      refine ⟨⟨⟨reached.then (removeFile_reached reached.sound here active given own_site inside
        (checked item inside) ok),
        row.of_leases (removeFile_leases ok)⟩, fun other member file stored => ?_⟩, fun other member => ?_⟩
      · rw [removeFile_lookup ok] at stored
        split at stored
        · cases stored
        · exact checked other member file stored
      · rw [removeFile_lookup ok]
        split
        · rfl
        · rename_i differs
          rcases List.mem_append.mp member with old | last
          · exact removed other old
          · exact absurd (List.mem_singleton.mp last ▸ rfl) differs
    · rintro s ⟨⟨⟨reached, row⟩, -⟩, removed⟩
      refine ⟨reached, row, fun key file stored owner => ?_⟩
      obtain ⟨lease, here, own, -, q, given, at_site, item, inside, token, -⟩ :=
        reached.sound.owned key file leaseId stored owner
      obtain ⟨lease', here', own', -, given'⟩ := row
      obtain rfl := reached.sound.unique here here' (own.trans own'.symm)
      cases given.symm.trans given'
      have place : key = ⟨site, item.token⟩ := by
        obtain ⟨site', token'⟩ := key
        cases own_site.symm.trans at_site
        cases token
        rfl
      exact nomatch (place ▸ removed item inside).symm.trans stored

theorem release_safe (leaseId : String) (expiresAt : Rat) :
    Safe (Reached now new r) (Reached now new r) (release leaseId expiresAt)
    (fun s => Reached now new r s ∧ Gone s leaseId) := by
  refine .read fun s before => ?_
  cases found : s.lease leaseId with
  | none =>
    refine .write (fun _ same => same ▸ before) ?_ (.done (fun s after => after.1) fun _ => id)
    rintro _ rfl
    have fresh := lease_eq_none found
    refine ⟨before.then (tombstone_reached before.sound fresh rfl), ?_⟩
    rw [insert_fresh fresh]
    exact ⟨_, mem_append_right _ mem_cons_self, rfl, rfl⟩
  | some lease =>
    obtain ⟨here, own⟩ := lease_eq_some found
    dsimp only
    split
    · rename_i released
      exact .done (fun _ same => same ▸ before) fun _ same => same ▸ ⟨before, lease, here, own, released⟩
    · rename_i unreleased
      have active : lease.active = true := active_iff.mpr unreleased
      refine .write (M := fun t => Reached now new r t ∧ Row t leaseId .releasing lease.payload) (fun _ same =>
        same ▸ before) ?_ ?_
      · rintro _ rfl
        exact ⟨before.then (setStatus_reached before.sound here own active (fun _ => .inl rfl) nofun),
          _, setStatus_row .releasing here own, own, rfl, rfl⟩
      · cases given : lease.payload with
        | none => exact .fail fun t after => after.1
        | some p =>
          dsimp only
          cases own_site : p.site with
          | none =>
            refine finishRelease_safe.weaken (fun t after => ⟨after.1, after.2, ?_⟩) fun _ => id
            intro key file stored owner
            obtain ⟨row, inside, same, -, q, given', at_site, -⟩ :=
              after.1.sound.owned key file leaseId stored owner
            obtain ⟨row', inside', same', -, given''⟩ := after.2
            obtain rfl := after.1.sound.unique inside inside' (same.trans same'.symm)
            cases given'.symm.trans given''
            exact nomatch own_site.symm.trans at_site
          | some site => exact (releaseFiles_safe own_site).seq finishRelease_safe

end Release

section Present
variable {r : Store} {p : Presentation}

/-- The lease of a presentation that may be stored: it is new, or it is the same again. -/
structure Admitted (p : Presentation) (s : Store) : Prop where
  again : ∀ lease ∈ s.leases, lease.id = p.leaseId → lease.ended = false ∧ lease.payload = some p
  apart : ∀ lease ∈ s.leases, lease.id ≠ p.leaseId → lease.active = true → ∀ q, lease.payload = some q →
    ∀ item ∈ p.challenges, ∀ item' ∈ q.challenges, item.token ≠ item'.token
  free : (∀ lease ∈ s.leases, lease.id ≠ p.leaseId) → ∀ site, p.site = some site →
    ∀ item ∈ p.challenges, s.files.lookup ⟨site, item.token⟩ = none

/-- The row of a presentation that is not ended. -/
def Stored (p : Presentation) (s : Store) : Prop :=
  ∃ lease ∈ s.leases, lease.id = p.leaseId ∧ lease.ended = false ∧ lease.payload = some p

theorem active_of_not_ended {lease : Lease} (open_ : lease.ended = false) : lease.active = true := by
  rw [active_iff]
  intro released
  rw [Lease.ended, released] at open_
  cases open_

theorem insert_stored (reached : Reached now new r s) (admitted : Admitted p s) (presented : new p) :
    Reached now new r
        (s.insert { id := p.leaseId, payload := some p, status := .preparing, expiresAt := p.expiresAt }) ∧
      Stored p
        (s.insert { id := p.leaseId, payload := some p, status := .preparing, expiresAt := p.expiresAt }) := by
  by_cases known : ∃ lease ∈ s.leases, lease.id = p.leaseId
  · obtain ⟨lease, here, own⟩ := known
    rw [insert_known here own]
    exact ⟨reached, lease, here, own, admitted.again lease here own⟩
  · have fresh : ∀ lease ∈ s.leases, lease.id ≠ p.leaseId := fun lease here own => known ⟨lease, here, own⟩
    refine ⟨reached.then (insert_reached reached.sound fresh (fun other here =>
      admitted.apart other here (fresh other here))
      (admitted.free fresh) presented), ?_⟩
    rw [insert_fresh fresh]
    exact ⟨_, mem_append_right _ mem_cons_self, rfl, rfl, rfl⟩

theorem writeFiles_safe : Safe (Reached now new r) (fun s => Reached now new r s ∧ Stored p s) (writeFiles p)
      (fun s => Reached now new r s ∧ Stored p s) := by
  unfold writeFiles
  cases own_site : p.site with
  | none => exact .done (fun s before => before.1) fun _ => id
  | some site =>
    refine Safe.each (I := fun _ s => Reached now new r s ∧ Stored p s) p.challenges (fun _ _ _ s before =>
      before.1) ?_
    rintro past item rest whole s t ⟨reached, lease, here, own, open_, given⟩ ok
    have inside : item ∈ p.challenges := whole ▸ mem_append_right _ mem_cons_self
    obtain ⟨next, same⟩ := writeFile_reached reached.sound here (active_of_not_ended open_) given own_site
      inside own ok
    exact ⟨reached.then next, lease, same ▸ here, own, open_, given⟩

theorem storeLease_safe (presented : new p) :
    Safe (Reached now new r) (fun s => Reached now new r s ∧ Admitted p s) (storeLease p) (Reached now new r) := by
  refine .write (M := fun s => Reached now new r s ∧ Stored p s) (fun s before => before.1)
    (fun s before => insert_stored before.1 before.2 presented)
    (.attempt (M := Reached now new r) (B := Reached now new r) (R := Reached now new r) ?_ ?_
      (.done (fun _ => id) fun _ => id))
  · refine writeFiles_safe.seq (.call (fun s before => before.1) (.write (fun s before => before.1) ?_
      (.done (fun _ => id) fun _ => id)))
    rintro s ⟨reached, lease, here, own, open_, -⟩
    exact reached.then (setStatus_reached reached.sound here own (active_of_not_ended open_)
      (fun ended => absurd ended (open_ ▸ nofun)) nofun)
  · exact (release_safe p.leaseId p.expiresAt).seq (.call (fun s after => after.1)
      (.done (fun s after => after.1) fun s after => after.1))

theorem sharesToken_eq_false (lease : Lease) (apart : sharesToken p lease = false) {q : Presentation}
    (given : lease.payload = some q) {item item' : Challenge} (inside : item ∈ p.challenges)
    (outside : item' ∈ q.challenges) :
    item.token ≠ item'.token := by
  intro same
  have shared : sharesToken p lease = true := by
    rw [sharesToken, given, Option.any_some, any_eq_true]
    exact ⟨item, inside, List.contains_iff_mem.mpr (List.mem_map.mpr ⟨item', outside, same.symm⟩)⟩
  exact nomatch shared.symm.trans apart

theorem presentLease_safe (presented : new p) :
    Safe (Reached now new r) (Reached now new r) (presentLease p) (Reached now new r) := by
  refine .read fun s before => ?_
  have again_of (allowed : ¬ ((s.lease p.leaseId).any fun lease =>
      lease.status = .released || lease.status = .releasing || lease.payload ≠ some p) = true) :
      ∀ lease ∈ s.leases, lease.id = p.leaseId → lease.ended = false ∧ lease.payload = some p := by
    intro lease here own
    cases found : s.lease p.leaseId with
    | none => exact absurd own (lease_eq_none found lease here)
    | some row =>
      obtain ⟨inside, same⟩ := lease_eq_some found
      obtain rfl := before.sound.unique inside here (same.trans own.symm)
      rw [found, Option.any_some] at allowed
      simp only [Bool.or_eq_true, decide_eq_true_eq, not_or, not_not] at allowed
      simp [Lease.ended, allowed]
  dsimp only
  split
  · exact .fail fun _ same => same ▸ before
  · rename_i allowed
    have again := again_of allowed
    split
    · exact .fail fun _ same => same ▸ before
    · split
      · exact .fail fun _ same => same ▸ before
      · rename_i separate
        have apart : ∀ lease ∈ s.leases, lease.id ≠ p.leaseId → lease.active = true → ∀ q, lease.payload = some q →
            ∀ item ∈ p.challenges, ∀ item' ∈ q.challenges, item.token ≠ item'.token := by
          intro lease here other active q given item inside item' outside
          refine sharesToken_eq_false lease ?_ given inside outside
          rw [Bool.not_eq_true, any_eq_false] at separate
          exact Bool.not_eq_true _ ▸ separate lease (List.mem_filter.mpr ⟨here, by simp [other, active]⟩)
        cases own_site : p.site with
        | none =>
          refine (storeLease_safe presented).weaken (fun _ same => same ▸ ⟨before, again, apart, ?_⟩) fun _ => id
          exact fun _ site at_site => nomatch own_site.symm.trans at_site
        | some site =>
          refine .step (M := fun t => Reached now new r t ∧ t.leases = s.leases) (fun _ same => same ▸ before) ?_ ?_
          · rintro _ t rfl ok
            obtain ⟨leases, files⟩ := createRoot_ok ok
            exact ⟨before.of_same leases files, leases⟩
          · refine .read fun t opened => ?_
            split
            · exact .fail fun _ same => same ▸ opened.1
            · rename_i free
              refine (storeLease_safe presented).weaken (fun _ same => same ▸ ⟨opened.1, ?_⟩) fun _ => id
              refine ⟨opened.2 ▸ again, opened.2 ▸ apart, fun fresh other at_site item inside => ?_⟩
              cases own_site.symm.trans at_site
              have missing : (s.lease p.leaseId).isNone = true := by
                rw [Option.isNone_iff_eq_none, Store.lease, List.find?_eq_none]
                exact fun lease here => by simpa using fresh lease (opened.2 ▸ here)
              rw [missing, Bool.true_and, Bool.not_eq_true, occupied, any_eq_false] at free
              exact Option.not_isSome_iff_eq_none.mp (free item inside)

end Present

section Expire
variable {r : Store}

variable {leaseId : String}

theorem Evolves.inactive (evolves : Evolves now (fun _ => False) s t)
    (ended : ∀ lease ∈ s.leases, lease.id = leaseId → lease.active = false) :
    ∀ next ∈ t.leases, next.id = leaseId → next.active = false := by
  intro next member own
  by_contra active
  rcases evolves.origin next member (by simpa using active) with ⟨lease, here, was, same, -⟩ | ⟨p, never, -⟩
  · exact nomatch was.symm.trans (ended lease here (same.trans own))
  · exact never

theorem Gone.inactive (sound : Sound s) (gone : Gone s leaseId) :
    ∀ lease ∈ s.leases, lease.id = leaseId → lease.active = false := by
  obtain ⟨row, here, own, released⟩ := gone
  intro lease member same
  obtain rfl := sound.unique member here (same.trans own.symm)
  rw [Lease.active, released]
  rfl

theorem expireLoop_reached (now : Rat) (leases : List Lease) (effects : Nat → Nat → Effect)
    (crashes : Nat → Bool) (s : Store)
    (sound : Sound s) (failure : Option String) :
    Reached now (fun _ => False) s (expireLoop leases effects crashes s failure).1 ∧
      ((expireLoop leases effects crashes s failure).2.2 = none → failure = none ∧
        (expireLoop leases effects crashes s failure).2.1 = false ∧
        ∀ lease ∈ leases, ∀ next ∈ (expireLoop leases effects crashes s failure).1.leases,
          next.id = lease.id → next.active = false) := by
  induction leases generalizing effects crashes s failure with
  | nil => exact ⟨⟨sound, .refl now _ s⟩, fun none => ⟨none, rfl, fun lease member => absurd member not_mem_nil⟩⟩
  | cons lease rest ih =>
    have safe : Safe (Reached now (fun _ => False) s) (Reached now (fun _ => False) s) _ _ :=
      release_safe lease.id lease.expiresAt
    obtain ⟨stops, ends⟩ := safe (effects 0) s ⟨sound, .refl now _ s⟩
    unfold expireLoop
    cases run : (release lease.id lease.expiresAt).run (effects 0) s with
    | mk t error =>
      rw [run] at stops ends
      cases error with
      | none =>
        obtain ⟨reached, complete⟩ := ih (fun n => effects (n + 1)) (fun n => crashes (n + 1)) t stops.sound failure
        refine ⟨stops.then reached, fun none => ?_⟩
        obtain ⟨clean, whole, rest_ended⟩ := complete none
        refine ⟨clean, whole, fun other member => ?_⟩
        rcases List.mem_cons.mp member with rfl | later
        · exact reached.evolves.inactive ((ends rfl).2.inactive stops.sound)
        · exact rest_ended other later
      | some error =>
        dsimp only
        split
        · exact ⟨stops, nofun⟩
        · obtain ⟨reached, complete⟩ :=
            ih (fun n => effects (n + 1)) (fun n => crashes (n + 1)) t stops.sound (failure.or (some error))
          refine ⟨stops.then reached, fun none => ?_⟩
          have clean := (complete none).1
          cases failure <;> cases clean

theorem expire_reached (o : Interruptions) (sound : Sound s) : Reached now (fun _ => False) s (expire now o s).1 ∧
      ((expire now o s).2 = none → ∀ next ∈ (expire now o s).1.leases, next.active = true →
        now < next.expiresAt) := by
  obtain ⟨reached, complete⟩ := expireLoop_reached now (due now s) o.effects o.crashes s sound none
  unfold expire
  cases loop : expireLoop (due now s) o.effects o.crashes s none with
  | mk t rest =>
    obtain ⟨crashed, failure⟩ := rest
    rw [loop] at reached complete
    cases crashed with
    | true => exact ⟨reached, fun none => nomatch (complete none).2.1⟩
    | false =>
      cases o.last with
      | done =>
        refine ⟨reached.then (collect_reached reached.sound), fun none next member active => ?_⟩
        have inside : next ∈ t.leases := mem_of_mem_filter member
        rcases reached.evolves.origin next inside active with ⟨lease, here, was, own, deadline, -⟩ | ⟨p, never, -⟩
        · by_contra late
          have listed : lease ∈ due now s := List.mem_filter.mpr ⟨here, by simp [was, deadline, not_lt.mp late]⟩
          exact nomatch active.symm.trans ((complete none).2.2 lease listed next inside own.symm)
        · exact never.elim
      | lost error => exact ⟨reached, nofun⟩
      | kept error => exact ⟨reached.then (collect_reached reached.sound), nofun⟩

end Expire

def Event.presented : Event → Option Presentation
  | .present _ p _ _ => some p
  | _ => none

theorem Reached.mono (reached : Reached now new s t) (past : now ≤ later) (more : ∀ p, new p → new' p) :
    Reached later new' s t :=
  ⟨reached.sound, reached.evolves.mono past more⟩

theorem step_reached (config : Config) (event : Event) (sound : Sound s) :
    Reached now (fun p => event.presented = some p) s (step config now event s).1 := by
  have here : Reached now (fun p => event.presented = some p) s s := ⟨sound, .refl now _ s⟩
  cases event with
  | present asked p o effects =>
    unfold step present
    dsimp only
    split
    · exact here
    · split
      · exact here
      · have expired : Reached now (fun q => (Event.present asked p o effects).presented =
            some q) s (expire now o s).1 :=
          (expire_reached o sound).1.mono le_rfl fun _ => False.elim
        have safe : Safe (Reached now (fun q => (Event.present asked p o effects).presented = some q) s) _
            (presentLease p) _ :=
          presentLease_safe rfl
        cases run : expire now o s with
        | mk t failure =>
          rw [run] at expired
          cases failure with
          | some error => exact expired
          | none => exact (safe effects t expired).1
  | release leaseId expiresAt effects =>
    unfold step releaseLease
    dsimp only
    split
    · exact here
    · exact (((release_safe leaseId expiresAt).seq (.call (fun t after => after.1)
        (.done (Q := fun _ => True) (fun t after => after.1) fun _ _ => trivial))) effects s here).1
  | expire o => exact (expire_reached o sound).1.mono le_rfl fun _ => False.elim
  | occupy key content plain => exact occupy_reached sound key content plain

theorem after_reached (config : Config) (events : List (Rat × Event)) (sound : Sound s)
    (before : ∀ event ∈ events, event.1 ≤ now) :
    Reached now (fun p => ∃ event ∈ events, event.2.presented = some p) s (after config s events) := by
  induction events generalizing s with
  | nil => exact ⟨sound, .refl now _ s⟩
  | cons event rest ih =>
    have first : Reached now (fun p => ∃ other ∈ event :: rest,
        other.2.presented = some p) s (step config event.1 event.2 s).1 :=
      (step_reached config event.2 sound).mono (before event mem_cons_self) fun p given =>
        ⟨event, mem_cons_self, given⟩
    refine first.then ((ih first.sound fun other later => before other (mem_cons_of_mem _ later)).mono le_rfl ?_)
    exact fun p ⟨other, later, given⟩ => ⟨other, mem_cons_of_mem _ later, given⟩

theorem empty_sound : Sound .empty where
  ids := nodup_nil
  payloads _ member := absurd member not_mem_nil
  tokens _ member := absurd member not_mem_nil
  owned _ _ _ stored := nomatch stored
  foreign _ _ stored := nomatch stored

theorem Reached.stays_ended (reached : Reached now new s t) (here : lease ∈ s.leases) (ended : lease.ended = true)
    (recent : now ≤ lease.expiresAt + 86400) :
    (∃ next ∈ t.leases, next.id = lease.id) ∧ ∀ next ∈ t.leases, next.id = lease.id → next.ended = true := by
  rcases reached.evolves.ended lease here ended with old | ⟨next, there, own, -, still⟩
  · exact absurd old (by linarith)
  · refine ⟨⟨next, there, own⟩, fun other member same => ?_⟩
    exact reached.sound.unique there member (own.trans same.symm) ▸ still

variable {effects : Nat → Effect}

theorem releaseLease_gone (sound : Sound s) {leaseId : String} {expiresAt : Rat}
    (accepted : (releaseLease now leaseId expiresAt effects s).2 = none) :
    Gone (releaseLease now leaseId expiresAt effects s).1 leaseId := by
  unfold releaseLease at accepted ⊢
  split at accepted
  · cases accepted
  · rw [if_neg ‹_›]
    have safe : Safe (Reached now (fun _ => False) s) (Reached now (fun _ => False) s) _ _ :=
      (release_safe leaseId expiresAt).seq (.call (fun t after =>
        after.1) (.done (fun t after => after.1) fun t after => after.2))
    exact (safe effects s ⟨sound, .refl now _ s⟩).2 accepted

theorem presentLease_refused (sound : Sound s) (here : lease ∈ s.leases) (own : lease.id = p.leaseId)
    (ended : lease.ended = true) (effects : Nat → Effect) :
    ((presentLease p).run effects s).2 ≠ none := by
  have found : s.lease p.leaseId = some lease := by
    cases found : s.lease p.leaseId with
    | none => exact absurd own (lease_eq_none found lease here)
    | some row =>
      obtain ⟨inside, same⟩ := lease_eq_some found
      rw [sound.unique inside here (same.trans own.symm)]
  have refused : (lease.status = .released || lease.status = .releasing || lease.payload ≠ some p) = true := by
    rw [Lease.ended, Bool.or_comm] at ended
    rw [ended, Bool.true_or]
  rw [presentLease, run_read, found, Option.any_some, if_pos refused, run_fail]
  nofun

variable {asked : Rat} {o : Interruptions}

theorem present_refused (config : Config) (sound : Sound s) (here : lease ∈ s.leases) (own : lease.id = p.leaseId)
    (ended : lease.ended = true) (recent : now ≤ lease.expiresAt + 86400) :
    (present config asked now p o effects s).2 ≠ none := by
  unfold present
  split
  · nofun
  · split
    · nofun
    · have expired : Reached now (fun _ => False) s (expire now o s).1 := (expire_reached o sound).1
      cases run : expire now o s with
      | mk t failure =>
        rw [run] at expired
        cases failure with
        | some error => nofun
        | none =>
          obtain ⟨⟨next, there, same⟩, still⟩ := expired.stays_ended here ended recent
          exact presentLease_refused expired.sound there (same.trans own) (still next there same) effects

theorem present_refused_again (config : Config) (reached : Reached now new s t) (here : lease ∈ s.leases)
    (own : lease.id = p.leaseId) (ended : lease.ended = true) (deadline : p.expiresAt = lease.expiresAt)
    (waited : now ≤ asked + 86400) :
    (present config asked now p o effects t).2 ≠ none := by
  by_cases running : asked < p.expiresAt
  · have recent : now ≤ lease.expiresAt + 86400 := by linarith
    rcases reached.evolves.ended lease here ended with old | ⟨next, there, same, kept, still⟩
    · exact absurd old (by linarith)
    · exact present_refused config reached.sound there (same.trans own) still (kept ▸ recent)
  · rw [present, if_pos fun accepted => running accepted.1]
    nofun

theorem respond_cases {domain token answer : String} (answered : respond now domain token s = some answer) :
    ∃ lease ∈ s.leases, lease.status = .ready ∧ now < lease.expiresAt ∧ ∃ p, lease.payload = some p ∧
      p.site = none ∧
      ⟨domain, token, answer⟩ ∈ p.challenges := by
  obtain ⟨lease, member, found⟩ := exists_of_findSome?_eq_some answered
  obtain ⟨here, test⟩ := List.mem_filter.mp member
  rw [Bool.and_eq_true, decide_eq_true_eq, decide_eq_true_eq] at test
  obtain ⟨p, given, found⟩ := Option.bind_eq_some_iff.mp found
  split at found
  · cases found
  · rename_i standalone
    obtain ⟨item, chosen, rfl⟩ := Option.map_eq_some_iff.mp found
    have fits := List.find?_some chosen
    rw [Bool.and_eq_true, decide_eq_true_eq, decide_eq_true_eq] at fits
    obtain ⟨rfl, rfl⟩ := fits
    exact ⟨lease, here, test.1, test.2, p, given, Option.not_isSome_iff_eq_none.mp standalone,
      mem_of_find?_eq_some chosen⟩

theorem expire_clears (o : Interruptions) (sound : Sound s) (clean : (expire now o s).2 = none)
    (here : lease ∈ s.leases) (over_ : lease.expiresAt ≤ now) :
    (∀ next ∈ (expire now o s).1.leases, next.id = lease.id → next.status = .released) ∧
      ∀ key file, (expire now o s).1.files.lookup key = some file → file.owner ≠ some lease.id := by
  have ⟨reached, complete⟩ : Reached now (fun _ => False) s (expire now o s).1 ∧ _ := expire_reached o sound
  have inactive : ∀ next ∈ (expire now o s).1.leases, next.id = lease.id → next.active = false := by
    intro next member own
    by_contra still
    have active : next.active = true := by simpa using still
    rcases reached.evolves.origin next member active with ⟨row, there, -, same, deadline, -⟩ | ⟨p, never, -⟩
    · obtain rfl := sound.unique there here (same.trans own)
      exact absurd (complete clean next member active) (not_lt.mpr (deadline ▸ over_))
    · exact never
  refine ⟨fun next member own => ?_, fun key file stored owner => ?_⟩
  · by_contra unreleased
    exact nomatch (active_iff.mpr unreleased).symm.trans (inactive next member own)
  · obtain ⟨next, member, own, active, -⟩ := reached.sound.owned key file _ stored owner
    exact nomatch active.symm.trans (inactive next member own)

/-- The leases and their files in every run, at any later time: a lease that has ended stays
so until a day after its deadline and is not presented again, and with the same deadline
it never is; tokens and files belong to
one active lease; the files of others are kept; an answer is a challenge that was presented
and is not over; and expiry leaves nothing of what is over. -/
theorem challengeLeases_law (config : Config) (past rest : List (Rat × Event)) (now : Rat)
    (clock : ∀ event ∈ past ++ rest, event.1 ≤ now) :
    let s := after config .empty past
    let t := after config s rest
    (∀ leaseId expiresAt effects, (step config now (.release leaseId expiresAt effects) t).2 = none →
      Gone (step config now (.release leaseId expiresAt effects) t).1 leaseId) ∧
    (∀ lease ∈ s.leases, lease.ended = true → now ≤ lease.expiresAt + 86400 →
      (∀ next ∈ t.leases, next.id = lease.id → next.ended = true) ∧
      ∀ asked p o effects, p.leaseId = lease.id → (step config now (.present asked p o effects) t).2 ≠ none) ∧
    (∀ lease ∈ s.leases, lease.ended = true → ∀ asked p o effects, p.leaseId = lease.id →
      p.expiresAt = lease.expiresAt →
      now ≤ asked + 86400 → (step config now (.present asked p o effects) t).2 ≠ none) ∧
    (∀ a ∈ t.leases, ∀ b ∈ t.leases, a.active = true → b.active = true → ∀ p q, a.payload = some p →
      b.payload = some q →
      ∀ item ∈ p.challenges, ∀ other ∈ q.challenges, item.token = other.token → a = b) ∧
    (∀ key file leaseId, t.files.lookup key = some file → file.owner = some leaseId →
      ∃ lease ∈ t.leases, lease.id = leaseId ∧ Holds lease key file) ∧
    (∀ key file, s.files.lookup key = some file → file.owner = none → t.files.lookup key = some file) ∧
    (∀ domain token answer, respond now domain token t = some answer → ∃ lease ∈ t.leases, lease.status = .ready ∧
      ∃ p, lease.payload = some p ∧ lease.id = p.leaseId ∧ (∃ event ∈ past ++ rest, event.2.presented = some p) ∧
        now < p.expiresAt ∧ p.site = none ∧ ⟨domain, token, answer⟩ ∈ p.challenges) ∧
    (∀ o, (expire now o t).2 = none → ∀ lease ∈ t.leases, lease.expiresAt ≤ now →
      (∀ next ∈ (expire now o t).1.leases, next.id = lease.id → next.status = .released) ∧
      ∀ key file, (expire now o t).1.files.lookup key = some file → file.owner ≠ some lease.id) := by
  intro s t
  have first : Reached now _ .empty s := after_reached config past empty_sound fun event member =>
    clock event (mem_append_left _ member)
  have second : Reached now _ s t := after_reached config rest first.sound fun event member =>
    clock event (mem_append_right _ member)
  have sound := second.sound
  refine ⟨fun leaseId expiresAt effects => releaseLease_gone sound, ?_,
    fun lease here ended asked p o effects own => present_refused_again config second here own.symm ended, ?_,
      sound.owned, second.evolves.foreign, ?_,
    fun o clean lease here => expire_clears o sound clean here⟩
  · intro lease here ended recent
    obtain ⟨-, still⟩ := second.stays_ended here ended recent
    refine ⟨still, fun asked p o effects same => ?_⟩
    rcases second.evolves.ended lease here ended with old | ⟨row, inside, id, deadline, _⟩
    · exact absurd old (by linarith)
    · exact present_refused config sound inside (id.trans same.symm) (still row inside id) (deadline ▸ recent)
  · intro a here b there first second p q given given' item inside other outside same
    by_contra differs
    refine sound.tokens a here b there first second (fun own => differs (sound.unique here there own)) p q
      given given'
      item inside other outside same
  · intro domain token answer answered
    obtain ⟨lease, here, ready, running, p, given, standalone, challenge⟩ := respond_cases answered
    have active : lease.active = true := active_iff.mpr (ready ▸ nofun)
    obtain ⟨q, given', own, deadline⟩ := sound.payloads lease here active
    cases given.symm.trans given'
    refine ⟨lease, here, ready, p, given, own.symm, ?_, deadline ▸ running, standalone, challenge⟩
    rcases second.evolves.origin lease here active with ⟨row, inside, was, -, -, same⟩ | ⟨q,
      ⟨event, member, presented⟩, same⟩
    · rcases first.evolves.origin row inside was with ⟨none, nothing, -⟩ | ⟨q, ⟨event, member, presented⟩, same'⟩
      · exact absurd nothing not_mem_nil
      · cases (same.symm.trans same').symm.trans given
        exact ⟨event, mem_append_left _ member, presented⟩
    · cases same.symm.trans given
      exact ⟨event, mem_append_right _ member, presented⟩

def dnsName : Challenge := ⟨"node.example", "token-of-node", "token-of-node.key"⟩

def onceUntil (expiresAt : Rat) : Presentation := ⟨"lease", expiresAt, .standalone, [dnsName], by decide⟩

def inSite : Presentation := ⟨"lease", 600, .webroot "site", [dnsName], by decide⟩

def bothModes : Config := ⟨true, ["site"]⟩

def uninterrupted : Interruptions := ⟨fun _ => quiet, fun _ => false, .done⟩

/-- The same presentation again, after its release. -/
theorem challengeLeases_law_redelivery : (step bothModes 20 (.present 0 (onceUntil 600) uninterrupted quiet)
      (after bothModes (after bothModes .empty [(0, .present 0 (onceUntil 600) uninterrupted quiet),
        (10, .release "lease" 600 quiet)]) [])).2 ≠
        none := by
  have law := challengeLeases_law bothModes
    [(0, .present 0 (onceUntil 600) uninterrupted quiet), (10, .release "lease" 600 quiet)] [] 20 (by
      decide +kernel)
  have row : (⟨"lease", some (onceUntil 600), .released, 600⟩ : Lease) ∈ (after bothModes .empty
      [(0, .present 0 (onceUntil 600) uninterrupted quiet), (10, .release "lease" 600 quiet)]).leases := by
        decide +kernel
  exact (law.2.1 _ row rfl (by norm_num)).2 0 _ _ _ rfl

/-- A lease is presented and answered again with another deadline when its tombstone is
forgotten; and a release removes a foreign file that is a copy of its challenge. -/
theorem forgottenLease_not_owned :
    (let released := after bothModes .empty [(0, .present 0 (onceUntil 600) uninterrupted quiet),
      (10, .release "lease" 600 quiet)]
      let again := after bothModes released
        [(100000, .expire uninterrupted), (100001, .present 100001 (onceUntil 100600) uninterrupted quiet)]
      (∃ lease ∈ released.leases, lease.id = "lease" ∧ lease.status = .released) ∧
        respond 100002 "node.example" "token-of-node" again = some "token-of-node.key") ∧
    (let crashed := after bothModes .empty
        [(0, .present 0 inSite uninterrupted fun n => if n = 1 then .kept "crash" else .done)]
      let key : Key := ⟨"site", "token-of-node"⟩
      let copied := { crashed with files := Assoc.put key ⟨"token-of-node.key", true, none⟩ crashed.files }
      crashed.files.lookup key = none ∧
        (after bothModes copied [(10, .release "lease" 600 quiet)]).files.lookup key = none) := by
  refine ⟨⟨⟨⟨"lease", some (onceUntil 600), .released, 600⟩, by decide +kernel, rfl, rfl⟩, by decide +kernel⟩,
    by decide +kernel, by decide +kernel⟩

end OpenNode.ChallengeLeases
