import OpenNode.CertificateWorker

namespace OpenNode.Certificates

open Edits

/-- A renewal that came back without a new certificate is of a profile whose
current version is not on record. -/
def Worker.Renewed (worker : Worker) (db : Db) : Prop :=
  match worker with
  | .busy row _ (some .unchanged) => ∀ current ∈ db.certificates, current.id = row.id →
      db.compromised current = false
  | _ => True

/-- A commit finds the tables as its transaction read them, breaks off no
issuance for a profile whose current version is on record, and ends none
without a new certificate. -/
def System.Undisturbed (s : System) : Event → Prop
  | .commit index => ∀ transaction ∈ s.transactions[index]?,
      transaction.view = s.db ∧
      (transaction.operation = .recover → s.worker = .down → s.db.Recoverable) ∧
      (transaction.operation = .succeed → s.worker.Renewed s.db)
  | _ => True

instance (worker : Worker) (db : Db) : Decidable (worker.Renewed db) :=
  match worker with
  | .busy row _ (some .unchanged) =>
    inferInstanceAs (Decidable (∀ current ∈ db.certificates, current.id = row.id → db.compromised current = false))
  | .down | .idle | .busy _ _ none | .busy _ _ (some (.account ..)) | .busy _ _ (some (.revoked ..))
  | .busy _ _ (some (.issued _)) => isTrue trivial

instance (db : Db) : Decidable db.Recoverable :=
  inferInstanceAs (Decidable (∀ job ∈ db.jobs, job.status = .running → job.administration = false →
    ∀ row ∈ db.certificates, row.id = job.certificateId → row.validationServerId = none →
      db.compromised row = false))

instance (s : System) (event : Event) : Decidable (s.Undisturbed event) :=
  match event with
  | .commit index => inferInstanceAs (Decidable (∀ transaction ∈ s.transactions[index]?,
      transaction.view = s.db ∧
      (transaction.operation = .recover → s.worker = .down → s.db.Recoverable) ∧
      (transaction.operation = .succeed → s.worker.Renewed s.db)))
  | .start _ | .rollback _ | .receive _ | .crash | .command .. | .foreign _ | .inventory .. => isTrue trivial

def System.UndisturbedRun (host : Host) (s : System) : List Event → Prop
  | [] => True
  | event :: events => s.Undisturbed event ∧ (s.step host event).UndisturbedRun host events

instance instDecidableUndisturbedRun (host : Host) (s : System) (events : List Event) :
    Decidable (s.UndisturbedRun host events) :=
  match events with
  | [] => isTrue trivial
  | event :: events =>
    have := instDecidableUndisturbedRun host (s.step host event) events
    inferInstanceAs (Decidable (s.Undisturbed event ∧ (s.step host event).UndisturbedRun host events))

/-- An installation in which nothing has been revoked yet. -/
structure System.Initial (s : System) : Prop where
  formed : s.db.Formed s.next
  records : s.db.revocations = []
  transactions : s.transactions = []
  worker : s.worker = .down

/-- A certificate under revocation is not in use. -/
structure System.Honoured (s : System) : Prop where
  commands : ∀ command ∈ s.db.commands, command.byStore = true → ∀ leaf, s.db.recorded leaf = true →
    command.carries leaf = false
  profiles : ∀ row ∈ s.db.certificates, s.db.compromised row = true →
    row.autoRenew = false ∧ (row.activeJobId = none → row.status.revocation = true)
  revoked : ∀ entry ∈ s.db.revocations, entry.status = .revoked → (entry.jobId, entry.fingerprint) ∈ s.confirmed
  pursued : ∀ entry ∈ s.db.revocations, entry.status = .pending → ∃ job ∈ s.db.jobs, job.id = entry.jobId ∧
    job.live = true

/-- What holds of the system between events. -/
structure System.Safe (s : System) : Prop where
  db : s.db.Safe s.next s.confirmed
  holds : s.worker.Holds s.db s.confirmed
  views : ∀ transaction ∈ s.transactions, transaction.view.Sound transaction.fresh ∧ transaction.fresh < s.next

section Steps

variable {host : Host} {s : System} {db t : Db} {next fresh : Nat} {confirmed : List (Nat × Leaf)}
  {worker worker' : Worker}

theorem System.Safe.honoured (safe : s.Safe) : s.Honoured where
  commands := safe.db.sound.commands
  profiles := by
    intro row here bad
    obtain ⟨manual, shown⟩ := safe.db.sound.shows row here bad
    exact ⟨manual, fun idle => shown idle nofun⟩
  revoked := safe.db.revoked
  pursued := safe.db.pursued

theorem System.Initial.safe (initial : s.Initial) : s.Safe := by
  have none (leaf : Leaf) : s.db.recorded leaf = false := by
    unfold Db.recorded Db.revocation?
    rw [initial.records]
    rfl
  have empty (entry : CertificateRevocation) (here : entry ∈ s.db.revocations) : False := by
    rw [initial.records] at here
    exact nomatch here
  refine ⟨⟨⟨initial.formed, fun row _ bad => ?_⟩, fun entry here => (empty entry here).elim, fun entry here =>
    (empty entry here).elim⟩,
    fun row job result busy => ?_, fun transaction here => ?_⟩
  · obtain ⟨version, _, recorded⟩ := compromised_iff.mp bad
    exact nomatch recorded.symm.trans (none _)
  · exact nomatch initial.worker.symm.trans busy
  · rw [initial.transactions] at here
    exact nomatch here

theorem Done.holds (done : Done db t next) (holds : worker.Holds db confirmed) : worker.Holds t confirmed := by
  intro row job result busy
  obtain ⟨⟨active, here, same, kind, parameters, mine, running⟩, heard⟩ := holds row job result busy
  exact ⟨⟨active, done.jobs active here (by simp [CertificateJob.live, running]), same, kind, parameters, mine,
    running⟩, heard⟩

theorem map_ok {α β : Type} {x : Except String α} {f : α → β} {b : β} (done : x.map f = .ok b) : ∃ a, x = .ok a ∧
    f a = b := by
  cases x with
  | error _ => exact nomatch done
  | ok a => exact ⟨a, rfl, Except.ok.inj done⟩

theorem perform_done (operation : Operation) (safe : db.Safe fresh confirmed) (holds : worker.Holds db confirmed)
    (recoverable : operation = .recover → worker = .down → db.Recoverable)
    (renewed : operation = .succeed → worker.Renewed db)
    (done : perform host worker operation fresh db = .ok (t, worker')) :
    Worked db t (fresh + 1) confirmed ∧ worker'.Holds t confirmed := by
  have store {x : Except String Db} (each : ∀ t, x = .ok t → Done db t (fresh + 1))
      (made : x.map (·, worker) = .ok (t, worker')) : Worked db t (fresh + 1) confirmed ∧
        worker'.Holds t confirmed := by
    obtain ⟨other, result, same⟩ := map_ok made
    obtain ⟨rfl, rfl⟩ := Prod.mk.inj same
    have after := each other result
    exact ⟨⟨after.safe safe, after.kept⟩, after.holds holds⟩
  have idle {x : Except String Db} (each : ∀ t, x = .ok t → Worked db t (fresh + 1) confirmed)
      (made : x.map (·, Worker.idle) = .ok (t, worker')) : Worked db t (fresh + 1) confirmed ∧
        worker'.Holds t confirmed := by
    obtain ⟨other, result, same⟩ := map_ok made
    obtain ⟨rfl, rfl⟩ := Prod.mk.inj same
    exact ⟨each other result, fun _ _ _ busy => nomatch busy⟩
  unfold perform at done
  split at done
  · exact store (fun _ => create_done safe.sound) done
  · exact store (fun _ => edit_done safe.sound) done
  · exact store (fun _ => delete_done safe.sound) done
  · exact store (fun _ => importMaterial_done safe.sound) done
  · exact store (fun _ => activate_done safe.sound) done
  · exact store (fun _ => queue_done safe.sound) done
  · exact store (fun _ => queueAccount_done safe.sound) done
  · exact store (fun _ => retryAccount_done safe.sound) done
  · exact store (fun _ => queueRevocation_done safe.sound) done
  · exact store (fun _ => saveTarget_done safe.sound) done
  · exact store (fun _ => deleteTarget_done safe.sound) done
  · exact store (fun _ => deploy_done safe.sound) done
  · exact store (fun _ => noteRefusal_done safe.sound) done
  · cases done
    exact ⟨recover_done safe (recoverable rfl rfl), fun _ _ _ busy => nomatch busy⟩
  · exact start_done safe done
  · rename_i row job result
    refine idle (fun _ => succeed_done safe holds ?_) done
    rintro rfl
    exact renewed rfl
  · exact idle (fun _ => fail_done safe holds) done
  · exact nomatch done

theorem Db.merge_self (seen mine : Db) : seen.merge mine seen =
    { mine with servers := seen.servers, managed := seen.managed, leases := seen.leases } := by
  unfold Db.merge
  congr 1 <;> refine ReadCommitted.mergeRows_self (fun _ _ => ?_) _ _ <;> simp only [ReadCommitted.column_self]

theorem Db.Safe.inventory (safe : db.Safe next confirmed) (servers : List String) (managed : List (String × String))
    (leases : List Nat) : Db.Safe { db with servers := servers, managed := managed, leases := leases } next
      confirmed :=
  ⟨⟨{ safe.sound.toFormed with }, safe.sound.shows⟩, safe.pursued, safe.revoked⟩

theorem Db.Safe.later (safe : db.Safe next confirmed) {later : Nat} (le : next ≤ later) : db.Safe later confirmed :=
  ⟨safe.sound.mono le, safe.pursued, safe.revoked⟩

theorem System.commit_done (safe : s.Safe) {transaction : Transaction}
    (sound : transaction.view.Sound transaction.fresh)
    (below : transaction.fresh < s.next) (current : transaction.view = s.db)
    (recoverable : transaction.operation = .recover → s.worker = .down → s.db.Recoverable)
    (renewed : transaction.operation = .succeed → s.worker.Renewed s.db) :
    (s.commit host transaction).Safe ∧ Kept s.db (s.commit host transaction).db := by
  unfold System.commit
  split
  · rename_i mine worker performed
    split
    · rw [current] at performed sound ⊢
      have before : s.db.Safe transaction.fresh s.confirmed := ⟨sound, safe.db.pursued, safe.db.revoked⟩
      obtain ⟨⟨after, kept⟩, holds⟩ := perform_done transaction.operation before safe.holds
        recoverable renewed performed
      rw [Db.merge_self]
      exact ⟨⟨(after.inventory _ _ _).later below, holds, safe.views⟩, kept.records, kept.switches⟩
    · exact ⟨safe, .refl s.db⟩
  · exact ⟨safe, .refl s.db⟩

theorem carries_of_proceeded {commands : List Command} {id : Nat} {status : CommandStatus} {command : Command}
    (here : command ∈ Rows.update (fun command : Command => command.id == id && command.unfinished)
      (fun command => { command with status := status }) commands) :
    ∃ old ∈ commands, old.byStore = command.byStore ∧ ∀ leaf, command.carries leaf = true →
      old.carries leaf = true := by
  obtain ⟨old, before, ⟨selected, rfl⟩ | ⟨_, rfl⟩⟩ := Rows.mem_update here
  · refine ⟨old, before, rfl, fun leaf carries => ?_⟩
    unfold Command.carries at carries ⊢
    rw [Bool.and_eq_true] at selected carries ⊢
    exact ⟨selected.2, carries.2⟩
  · exact ⟨command, before, rfl, fun _ carries => carries⟩

theorem Db.Safe.commands (safe : db.Safe next confirmed) {commands : List Command}
    (old : ∀ command ∈ commands, command.byStore = true →
      ∃ old ∈ db.commands, old.byStore = true ∧ ∀ leaf, command.carries leaf = true → old.carries leaf = true) :
    Db.Safe { db with commands := commands } next confirmed := by
  refine ⟨⟨{ safe.sound.toFormed with commands := fun command here byStore leaf recorded => ?_ }, safe.sound.shows⟩,
    safe.pursued, safe.revoked⟩
  obtain ⟨was, before, stored, carried⟩ := old command here byStore
  have free := safe.sound.commands was before stored leaf recorded
  cases carries : command.carries leaf with
  | false => rfl
  | true => exact nomatch (carried leaf carries).symm.trans free

variable {event : Event}

theorem System.step_safe (safe : s.Safe) (undisturbed : s.Undisturbed event) :
    (s.step host event).Safe ∧ Kept s.db (s.step host event).db := by
  cases event with
  | start operation =>
    simp only [System.step]
    split
    · exact ⟨safe, .refl s.db⟩
    · refine ⟨⟨safe.db.mono, safe.holds, fun transaction here => ?_⟩, .refl s.db⟩
      rcases List.mem_append.mp here with old | mine
      · obtain ⟨sound, below⟩ := safe.views transaction old
        exact ⟨sound, Nat.lt_succ_of_lt below⟩
      · obtain rfl := List.mem_singleton.mp mine
        exact ⟨safe.db.sound, Nat.lt_succ_self s.next⟩
  | commit index =>
    simp only [System.step]
    split
    · exact ⟨safe, .refl s.db⟩
    · rename_i transaction at_index
      obtain ⟨current, recoverable, renewed⟩ := undisturbed transaction at_index
      obtain ⟨sound, below⟩ := safe.views transaction (List.mem_of_getElem? at_index)
      have others : System.Safe { s with transactions := s.transactions.eraseIdx index } :=
        ⟨safe.db, safe.holds, fun other here => safe.views other (List.mem_of_mem_eraseIdx here)⟩
      exact System.commit_done others sound below current recoverable renewed
  | rollback index =>
    exact ⟨⟨safe.db, safe.holds, fun other here => safe.views other (List.mem_of_mem_eraseIdx here)⟩, .refl s.db⟩
  | receive result =>
    simp only [System.step]
    split
    · rename_i row job busy
      split
      · rename_i fits
        refine ⟨⟨⟨safe.db.sound, safe.db.pursued, fun entry here status => ?_⟩,
          fun row' job' result' same => ?_, safe.views⟩, .refl s.db⟩
        · have before := safe.db.revoked entry here status
          cases result <;> simp [before]
        obtain ⟨rfl, rfl, rfl⟩ := Worker.busy.inj same
        refine ⟨(safe.holds row job none busy).1, fun done came => ?_⟩
        cases came
        refine ⟨fits, ?_⟩
        rintro leaf already rfl
        exact List.mem_append_right _ (List.mem_singleton_self _)
      · exact ⟨safe, .refl s.db⟩
    · exact ⟨safe, .refl s.db⟩
  | crash =>
    exact ⟨⟨safe.db, fun _ _ _ busy =>
      (nomatch busy), fun other here => safe.views other (List.mem_of_mem_filter here)⟩, .refl s.db⟩
  | command identifier status =>
    refine ⟨⟨safe.db.commands fun command here byStore => ?_, safe.holds, safe.views⟩,
      .of_profiles (fun _ recorded => recorded) fun row' here => .inl ⟨row', here, rfl, rfl⟩⟩
    obtain ⟨old, before, same, carried⟩ := carries_of_proceeded here
    exact ⟨old, before, same.trans byStore, carried⟩
  | foreign command =>
    refine ⟨⟨safe.db.commands fun other here byStore => ?_, safe.holds, safe.views⟩,
      .of_profiles (fun _ recorded => recorded) fun row' here => .inl ⟨row', here, rfl, rfl⟩⟩
    rcases List.mem_append.mp here with old | mine
    · exact ⟨other, old, byStore, fun _ carries => carries⟩
    · obtain rfl := List.mem_singleton.mp mine
      exact nomatch byStore
  | inventory servers managed leases =>
    exact ⟨⟨safe.db.inventory servers managed leases, safe.holds, safe.views⟩,
      .of_profiles (fun _ recorded => recorded) fun row' here => .inl ⟨row', here, rfl, rfl⟩⟩

theorem System.run_safe (safe : s.Safe) {events : List Event} (undisturbed : s.UndisturbedRun host events) :
    (s.run host events).Safe := by
  induction events generalizing s with
  | nil => exact safe
  | cons event events ih => exact ih (System.step_safe safe undisturbed.1).1 undisturbed.2

theorem System.UndisturbedRun.split {before : List Event}
    (undisturbed : s.UndisturbedRun host (before ++ [event])) :
    s.UndisturbedRun host before ∧ (s.run host before).Undisturbed event := by
  induction before generalizing s with
  | nil => exact ⟨trivial, undisturbed.1⟩
  | cons first before ih =>
    obtain ⟨rest, last⟩ := ih undisturbed.2
    exact ⟨⟨undisturbed.1, rest⟩, last⟩

end Steps

/-- In a run that nothing disturbs, no certificate under revocation is used, in
any state, and no event takes a record away or brings a profile to it. -/
theorem revocation_final (host : Host) {s : System} (initial : s.Initial) {before : List Event} {event : Event}
    (undisturbed : s.UndisturbedRun host (before ++ [event])) :
    ((s.run host before).step host event).Honoured ∧
      Kept (s.run host before).db ((s.run host before).step host event).db := by
  obtain ⟨rest, last⟩ := undisturbed.split
  obtain ⟨safe, kept⟩ := System.step_safe (System.run_safe initial.safe rest) last
  exact ⟨safe.honoured, kept⟩

/-- A host with one directory that accepts every profile and every material. -/
def plainHost : Host where
  directories := ["https://ca.test/directory"]
  posix := true
  issuer _ := true
  valid _ _ := true
  signs _ := true
  covers _ _ := true
  registered _ := false

def plainLeaf : Leaf :=
  { serial := "01", content := "leaf" }

/-- A profile is issued, and its certificate revoked. -/
def revoking : List Event :=
  [.start (.create {
      name := "web", domains := ["a.test"], email := none, directoryUrl := "https://ca.test/directory" }),
    .commit 0, .start .recover, .commit 0, .start (.queue 0 false false), .commit 0, .start .start, .commit 0,
    .receive (.issued { leaf := plainLeaf }), .start .succeed, .commit 0,
    .start (.queueRevocation 0 4 none 0), .commit 0, .start .start, .commit 0, .receive (.revoked plainLeaf false),
    .start .succeed]

theorem revocation_final_revoked :
    (System.step plainHost (System.run plainHost {} revoking) (.commit 0)).db.recorded plainLeaf = true ∧
      (System.step plainHost (System.run plainHost {} revoking) (.commit 0)).Honoured := by
  have none {α : Type} {p : α → Prop} : ∀ row ∈ ([] : List α), p row := List.forall_mem_nil p
  have initial : System.Initial {} :=
    ⟨⟨.nil, .nil, .nil, .nil, none, none, none, none, none, none, none, none, none⟩, rfl, rfl, rfl⟩
  have undisturbed : System.UndisturbedRun plainHost {} (revoking ++ [.commit 0]) := by decide +kernel
  have recorded : (System.step plainHost
      (System.run plainHost {} revoking) (.commit 0)).db.recorded plainLeaf = true := by
    decide +kernel
  exact ⟨recorded, (revocation_final plainHost initial undisturbed).1⟩

/-- A renewal of a revoked certificate that a crash breaks off leaves the idle
profile as failed. -/
theorem revocation_hidden : ¬ (System.run plainHost {} (revoking ++
    [.commit 0, .start (.queue 0 true false), .commit 0, .start .start, .commit 0, .crash, .start .recover,
      .commit 0])).Honoured := by
  intro honoured
  have shown := honoured.profiles
  revert shown
  decide +kernel

end OpenNode.Certificates
