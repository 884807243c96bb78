import OpenNode.Ddns
import OpenNode.Lib.Edits

namespace OpenNode.Ddns

open Edits List

variable {host : Host} {s : Store} {row : ServerRow} {now : Nat} {jobs : List Job} {success : Option Job}

section Executions

variable {answers : Answers}

theorem execute_ok {job : Job} {records : List (String × String × String)}
    (done : execute answers job = .ok records) :
    records = job.records := by
  simp only [execute] at done
  split at done
  · exact (nomatch done)
  · obtain ⟨_, _, done⟩ := bind_eq_ok done
    obtain ⟨_, _, done⟩ := bind_eq_ok done
    obtain ⟨_, _, done⟩ := bind_eq_ok done
    split at done
    · exact (nomatch done)
    · exact (Except.ok.inj done).symm

def Job.Written (job : Job) : Prop :=
  ∃ answers, execute answers job = .ok job.records

theorem written_of_outcome {job : Job} (success : outcome answers job = none) : job.Written := by
  simp only [outcome] at success
  split at success
  · rename_i records done
    exact ⟨answers, execute_ok done ▸ done⟩
  · exact (nomatch success)

end Executions

section Rows

/-- The job was made under the row's current configuration. -/
def Job.Follows (job : Job) (row : ServerRow) : Prop :=
  job.serverId = row.id ∧ job.revision = row.ddnsRevision ∧ job.providerId = row.ddnsProviderId ∧
    job.pullAddress = row.pullAddress ∧ job.pullAddressV6 = row.pullAddressV6

/-- The attempt that finished last was claimed under the current revision,
after the last request, and its addresses are the ones remembered. -/
def ServerRow.Remembered (success : Option Job) (row : ServerRow) : Prop :=
  ∃ job, success = some job ∧ job.Follows row ∧ job.Written ∧ job.requests = row.requests ∧
    job.ipv4 = row.ddnsLastIpv4 ∧ job.ipv6 = row.ddnsLastIpv6

/-- What holds of a server between two operations. -/
structure ServerRow.Sound (now : Nat) (jobs : List Job) (success : Option Job) (row : ServerRow) : Prop where
  attempt : ∀ attempt, row.ddnsAttemptId = some attempt → ∃ job ∈ jobs, job.attempt = attempt ∧ job.Follows row ∧
    (job.requests = row.requests ∨ row.ddnsForce = true)
  lease : row.ddnsAttemptId = none → row.ddnsLeaseUntil = none
  urgent : row.ddnsAttemptId.isSome → row.urgent = true → row.leased now = true
  intent : row.ddnsEnabled = true → row.ddnsForce = true ∨ row.ddnsLastError.isSome = true ∨
    row.Remembered success ∨
    (row.ddnsAttemptId.isSome = true ∧ row.urgent = true)

theorem ServerRow.Sound.configured (row : ServerRow) (value : DDNSConfig) :
    (row.configured now value).Sound now jobs success where
  attempt _ held := nomatch held
  lease _ := rfl
  urgent held := nomatch held
  intent enabled := .inl enabled

section

variable (sound : row.Sound now jobs success)
include sound

theorem ServerRow.Sound.queued : (row.queued now).Sound now jobs success where
  attempt attempt held := by
    obtain ⟨job, here, same, follows, _⟩ := sound.attempt attempt held
    exact ⟨job, here, same, follows, .inr rfl⟩
  lease := sound.lease
  urgent := sound.urgent
  intent _ := .inl rfl

theorem ServerRow.Sound.addresses (ipv4 ipv6 : Option String) (enabled : Bool) :
    ({ row with ipAddress := ipv4, ipAddressV6 := ipv6, ipv6Enabled := enabled } : ServerRow).Sound now jobs
      success where
  attempt := sound.attempt
  lease := sound.lease
  urgent := sound.urgent
  intent := sound.intent

theorem ServerRow.Sound.settled : row.settled.Sound now jobs success where
  attempt := sound.attempt
  lease := sound.lease
  urgent := sound.urgent
  intent := sound.intent

theorem ServerRow.Sound.more (job : Job) : row.Sound now (jobs ++ [job]) success :=
  { sound with
    attempt := fun attempt held => by
      obtain ⟨earlier, here, rest⟩ := sound.attempt attempt held
      exact ⟨earlier, mem_append_left _ here, rest⟩ }

end

theorem leased_claimed (row : ServerRow) (now attempt : Nat) : (row.claimed now attempt).leased now = true := by
  simp [ServerRow.leased, ServerRow.claimed, leaseSeconds]

theorem ServerRow.Sound.claimed (host : Host) (sound : row.Sound now jobs success) (due : row.due now = true)
    (serial : Nat) :
    (row.claimed now serial).Sound now (jobs ++ [row.job host serial]) success where
  attempt attempt held := by
    obtain rfl := Option.some.inj held
    exact ⟨row.job host serial, by simp, rfl, ⟨rfl, rfl, rfl, rfl, rfl⟩, .inl rfl⟩
  lease held := nomatch held
  urgent _ _ := leased_claimed row now serial
  intent enabled := by
    rcases sound.intent enabled with force | error | remembered | ⟨held, urgent⟩
    · exact .inr (.inr (.inr ⟨rfl, by simp [ServerRow.claimed, force]⟩))
    · exact .inr (.inr (.inr ⟨rfl, by simp [ServerRow.claimed, error]⟩))
    · exact .inr (.inr (.inl remembered))
    · -- An urgent attempt that has not run out keeps the row from being due.
      have leased := sound.urgent held urgent
      simp only [ServerRow.due, Bool.and_eq_true] at due
      have passed := due.2
      cases lease : row.ddnsLeaseUntil with
      | none => simp [ServerRow.leased, lease] at leased
      | some lease' =>
        simp only [ServerRow.leased, reached, lease, Option.any_some, Option.all_some, decide_eq_true_eq]
          at leased passed
        omega

theorem ServerRow.Sound.finished (sound : row.Sound now jobs success) {job : Job} (error : Option Code)
    (written : error = none → job.Written) (current : row.ddnsAttemptId = some job.attempt)
    (unique : ∀ other ∈ jobs, other.attempt = job.attempt → other = job) :
    (row.finished now job error).Sound now jobs
      (if row.ddnsRevision = job.revision ∧ row.ddnsEnabled = true ∧ error = none then some job else success) := by
  obtain ⟨other, here, same, follows, requested⟩ := sound.attempt _ current
  obtain rfl := unique other here same
  have revision := follows.2.1
  by_cases enabled : row.ddnsEnabled = true
  · cases error with
    | some code =>
      simp only [ServerRow.finished, revision, enabled, ne_eq, not_true_eq_false, Bool.true_eq_false,
        or_self, if_false,
        reduceCtorEq, and_false]
      exact ⟨fun _ held => (nomatch held), fun _ => rfl, fun held => (nomatch held), fun _ => .inr (.inl rfl)⟩
    | none =>
      simp only [ServerRow.finished, revision, enabled, ne_eq, not_true_eq_false, Bool.true_eq_false,
        or_self, if_false,
        and_self, if_true]
      refine ⟨fun _ held => (nomatch held), fun _ => rfl, fun held => (nomatch held), fun _ => ?_⟩
      rcases requested with same | force
      · exact .inr (.inr (.inl ⟨other, rfl, follows, written rfl, same, rfl, rfl⟩))
      · exact .inl force
  · have disabled : row.ddnsEnabled = false := Bool.eq_false_iff.mpr enabled
    simp only [ServerRow.finished, disabled, or_true, if_true]
    exact ⟨fun _ held => (nomatch held), fun _ => rfl, fun held => (nomatch held), fun held => (nomatch held)⟩

end Rows

section Store

/-- The invariant of the store. -/
structure Store.Sound (s : Store) : Prop where
  ids : (s.rows.map ServerRow.id).Nodup
  rows : ∀ row ∈ s.rows, row.Sound s.now s.jobs (s.succeeded row.id)
  serial : ∀ job ∈ s.jobs, job.attempt < s.serial
  distinct : (s.jobs.map Job.attempt).Nodup

theorem Store.Sound.unique (sound : s.Sound) {job other : Job} (here : job ∈ s.jobs) (there : other ∈ s.jobs)
    (same : other.attempt = job.attempt) : other = job :=
  Rows.unique sound.distinct there here same

variable {id : ServerId}

theorem row?_some (found : s.row? id = some row) : row ∈ s.rows ∧ row.id = id :=
  ⟨mem_of_find?_eq_some found, by simpa using List.find?_some found⟩

theorem Store.Sound.set (sound : s.Sound) {change : ServerRow → ServerRow} (keeps : ∀ row, (change row).id = row.id)
    (changed : ∀ row ∈ s.rows, row.id = id → (change row).Sound s.now s.jobs (s.succeeded row.id)) :
    (s.set id change).Sound where
  ids := by
    rw [Store.set, Rows.keys_update keeps]
    exact sound.ids
  rows row here := by
    obtain ⟨old, before, ⟨selected, rfl⟩ | ⟨_, rfl⟩⟩ := Rows.mem_update here
    · rw [keeps]
      exact changed old before (by simpa using selected)
    · exact sound.rows row before
  serial := sound.serial
  distinct := sound.distinct

theorem Store.Sound.configure (sound : s.Sound) (id : ServerId) (value : DDNSConfig) :
    (kept s (configure host s id value)).Sound := by
  rw [Ddns.configure]
  split
  · exact sound
  · split
    · exact sound
    · exact sound.set (fun _ => rfl) fun row _ _ => .configured row value

theorem Store.Sound.queue (sound : s.Sound) (id : ServerId) : (kept s (queue host s id)).Sound := by
  rw [Ddns.queue]
  split
  · exact sound
  · split
    · exact sound
    · split
      · exact sound
      · split
        · exact sound
        · exact sound.set (fun _ => rfl) fun row here _ => (sound.rows row here).queued

theorem finished_id (row : ServerRow) (now : Nat) (job : Job) (error : Option Code) :
    (row.finished now job error).id = row.id := by
  unfold ServerRow.finished
  dsimp only
  split
  · rfl
  · split <;> rfl

theorem Store.Sound.finish (sound : s.Sound) {job : Job} (issued : job ∈ s.jobs) (error : Option Code)
    (written : error = none → job.Written) : (finish s job error).Sound := by
  rw [Ddns.finish]
  split
  · exact sound
  · rename_i row found
    obtain ⟨here, own⟩ := row?_some found
    split
    · exact sound
    · rename_i current
      rw [not_not] at current
      have finished := (sound.rows row here).finished error written current fun other there same =>
        sound.unique issued there same
      refine {
        ids := by
          simp only [Store.set]
          rw [Rows.keys_update fun row => finished_id row s.now job error]
          exact sound.ids
        rows := fun other there => ?_
        serial := sound.serial
        distinct := sound.distinct }
      obtain ⟨old, before, ⟨selected, rfl⟩ | ⟨elsewhere, rfl⟩⟩ := Rows.mem_update there
      · have same : old = row :=
          Rows.unique sound.ids before here ((by simpa using selected : old.id = job.serverId).trans own.symm)
        subst same
        rw [finished_id]
        simp only [own] at finished ⊢
        split at finished
        · rename_i recorded
          rw [if_pos recorded, Function.update_self]
          exact finished
        · rename_i unrecorded
          rw [if_neg unrecorded]
          exact finished
      · have apart : other.id ≠ job.serverId := by simpa using elsewhere
        have untouched := sound.rows other before
        simp only
        split
        · rwa [Function.update_of_ne apart]
        · exact untouched

theorem mem_dueRows : row ∈ dueRows s ↔ row ∈ s.rows ∧ row.due s.now = true := by
  rw [dueRows, (mergeSort_perm _ _).mem_iff, mem_filter]

theorem clearedRows_ids (host : Host) (s : Store) :
    (clearedRows host s).map ServerRow.id = s.rows.map ServerRow.id :=
  Rows.keys_update fun _ => rfl

theorem mem_clearedRows (here : row ∈ clearedRows host s) : ∃ old ∈ s.rows, row = old ∨ row = old.settled := by
  obtain ⟨old, before, ⟨_, rfl⟩ | ⟨_, rfl⟩⟩ := Rows.mem_update here
  · exact ⟨old, before, .inr rfl⟩
  · exact ⟨row, before, .inl rfl⟩

theorem Store.Sound.cleared (sound : s.Sound) (here : row ∈ clearedRows host s) :
    row.Sound s.now s.jobs (s.succeeded row.id) := by
  obtain ⟨old, before, rfl | rfl⟩ := mem_clearedRows here
  · exact sound.rows row before
  · exact (sound.rows old before).settled

theorem Store.Sound.claim (sound : s.Sound) : (claim host s).1.Sound := by
  rw [Ddns.claim]
  split
  · exact {
      ids := (clearedRows_ids host s).symm ▸ sound.ids
      rows := fun _ here => sound.cleared here
      serial := sound.serial
      distinct := sound.distinct }
  · rename_i row found
    obtain ⟨here, due⟩ := mem_dueRows.mp (mem_of_find?_eq_some found)
    refine {
      ids := ?_
      rows := fun other there => ?_
      serial := fun job issued => ?_
      distinct := ?_ }
    · have keeps (row : ServerRow) : (row.claimed s.now s.serial).id = row.id := rfl
      rw [Rows.keys_update keeps, clearedRows_ids]
      exact sound.ids
    · obtain ⟨old, before, ⟨selected, rfl⟩ | ⟨_, rfl⟩⟩ := Rows.mem_update there
      · -- The row found is the one that the statement selects.
        obtain ⟨first, listed, shape⟩ := mem_clearedRows before
        have own : first = row := by
          refine Rows.unique sound.ids listed here ?_
          have same : old.id = row.id := by simpa using selected
          rcases shape with rfl | rfl
          exacts [same, same]
        subst own
        have sound := sound.rows first here
        rcases shape with rfl | rfl
        · exact sound.claimed host due s.serial
        · exact sound.settled.claimed host due s.serial
      · exact (sound.cleared before).more _
    · rcases List.mem_append.mp issued with old | new
      · exact Nat.lt_succ_of_lt (sound.serial job old)
      · obtain rfl := List.mem_singleton.mp new
        exact Nat.lt_succ_self s.serial
    · rw [map_append, map_singleton, nodup_append]
      refine ⟨sound.distinct, nodup_singleton _, fun earlier there last new => ?_⟩
      obtain ⟨job, issued, rfl⟩ := List.mem_map.mp there
      obtain rfl := List.mem_singleton.mp new
      exact Nat.ne_of_lt (sound.serial job issued)

theorem Store.Sound.pass (sound : s.Sound) {seconds : Nat}
    (timely : ∀ row ∈ s.rows, row.ddnsAttemptId.isSome = true → row.urgent = true →
      row.leased (s.now + seconds) = true) :
    ({ s with now := s.now + seconds } : Store).Sound where
  ids := sound.ids
  rows row here := { sound.rows row here with urgent := timely row here }
  serial := sound.serial
  distinct := sound.distinct

end Store

section Claims

/-- The store after so many claims. -/
def claimTimes (host : Host) : Nat → Store → Store
  | 0, s => s
  | n + 1, s => claimTimes host n (claim host s).1

/-- Claims alone hand out an attempt for a server sooner or later. -/
def HandsOut (host : Host) (s : Store) (id : ServerId) : Prop :=
  ∃ n job, (claim host (claimTimes host n s)).2 = some job ∧ job.serverId = id

/-- The rows that claims have still to hand out. -/
def waiting (host : Host) (s : Store) : List ServerRow :=
  s.rows.filter fun row => row.due s.now && row.wanted host

theorem claim_some (here : row ∈ s.rows) (due : row.due s.now = true) (wanted : row.wanted host = true) :
    ∃ first ∈ s.rows, first.due s.now = true ∧ first.wanted host = true ∧
      (dueRows s).find? (ServerRow.wanted host) = some first := by
  cases found : (dueRows s).find? (ServerRow.wanted host) with
  | none => exact absurd wanted (List.find?_eq_none.mp found row (mem_dueRows.mpr ⟨here, due⟩))
  | some first =>
    obtain ⟨listed, due⟩ := mem_dueRows.mp (mem_of_find?_eq_some found)
    exact ⟨first, listed, due, List.find?_some found, rfl⟩

theorem mem_clearedRows_of (host : Host) (here : row ∈ s.rows) : row ∈ clearedRows host s ∨
    row.settled ∈ clearedRows host s := by
  rw [clearedRows]
  cases selected : ((dueRows s).takeWhile fun row => !row.wanted host).any fun other => other.id == row.id with
  | true => exact .inr (Rows.update_selected here selected)
  | false => exact .inl (Rows.update_other here selected)

theorem claim_waiting {first : ServerRow} (listed : first ∈ s.rows) (due : first.due s.now = true)
    (wanted : first.wanted host = true) (found : (dueRows s).find? (ServerRow.wanted host) = some first) :
    (waiting host (claim host s).1).length < (waiting host s).length := by
  have cleared : ((clearedRows host s).filter fun row => row.due s.now && row.wanted host).length ≤
      (waiting host s).length :=
    Rows.filter_update_le fun _ _ kept => kept
  refine Nat.lt_of_lt_of_le ?_ cleared
  have served (row : ServerRow) : (row.claimed s.now s.serial).due s.now = false := by
    simp [ServerRow.due, ServerRow.claimed, reached, leaseSeconds]
  simp only [waiting, claim, found]
  have gone (row : ServerRow) : ((row.claimed s.now s.serial).due s.now &&
      (row.claimed s.now s.serial).wanted host) = false := by
    rw [served, Bool.false_and]
  have drops (row : ServerRow) (_ : (row.id == first.id) = true)
      (kept : ((row.claimed s.now s.serial).due s.now && (row.claimed s.now s.serial).wanted host) = true) :
      (row.due s.now && row.wanted host) = true := by
    rw [gone] at kept
    exact (nomatch kept)
  rcases mem_clearedRows_of host listed with here | here
  · exact Rows.filter_update_lt drops here (by simp) (by rw [due, wanted]; rfl) (gone _)
  · exact Rows.filter_update_lt drops here (by simp [ServerRow.settled]) (Bool.and_eq_true_iff.mpr ⟨due,
      wanted⟩) (gone _)

theorem handsOut (here : row ∈ s.rows) (due : row.due s.now = true) (wanted : row.wanted host = true) :
    HandsOut host s row.id := by
  induction count : (waiting host s).length using Nat.strongRecOn generalizing s row with
  | _ count ih =>
    subst count
    obtain ⟨first, listed, firstDue, firstWanted, found⟩ := claim_some here due wanted
    by_cases own : first.id = row.id
    · refine ⟨0, first.job host s.serial, ?_, own⟩
      simp only [claimTimes, claim, found]
    · have fewer := claim_waiting listed firstDue firstWanted found
      have other : (row.id == first.id) = false := by simpa using fun same => own same.symm
      have kept : row ∈ (claim host s).1.rows ∨ row.settled ∈ (claim host s).1.rows := by
        simp only [claim, found]
        rcases mem_clearedRows_of host here with same | same
        · exact .inl (Rows.update_other same other)
        · exact .inr (Rows.update_other same other)
      have now : (claim host s).1.now = s.now := by simp only [claim, found]
      obtain ⟨n, job, handed, server⟩ : HandsOut host (claim host s).1 row.id := by
        rcases kept with same | same
        · exact ih _ fewer same (now ▸ due) wanted rfl
        · exact @ih _ fewer (claim host s).1 row.settled same (now ▸ due) wanted rfl
      exact ⟨n + 1, job, handed, server⟩

theorem claimTimes_unwanted (unwanted : ∀ row ∈ s.rows, row.wanted host = false) (n : Nat) :
    ∀ row ∈ (claimTimes host n s).rows, row.wanted host = false := by
  induction n generalizing s with
  | zero => exact unwanted
  | succ n ih =>
    refine ih fun row here => ?_
    have nothing : (dueRows s).find? (ServerRow.wanted host) = none :=
      List.find?_eq_none.mpr fun row there => by simp [unwanted row (mem_dueRows.mp there).1]
    simp only [claim, nothing] at here
    obtain ⟨old, before, rfl | rfl⟩ := mem_clearedRows here
    · exact unwanted row before
    · exact unwanted old before

end Claims

section Runs

/-- The last attempt that finished successfully was claimed under the current
revision, after the last request, and wrote the records of the current
addresses. -/
def Store.Served (host : Host) (s : Store) (row : ServerRow) : Prop :=
  ∃ job, s.succeeded row.id = some job ∧ job.revision = row.ddnsRevision ∧ job.requests = row.requests ∧
    job.ipv4 = row.ipv4 host ∧ job.ipv6 = row.ipv6 host ∧
      job.records = (row.job host s.serial).records ∧ job.Written

/-- Whenever no attempt of an enabled server holds its lease, the server is
served, or claims hand out an attempt for it once its times are reached. -/
def Store.Kept (host : Host) (s : Store) : Prop :=
  ∀ row ∈ s.rows, row.ddnsEnabled = true → row.leased s.now = false →
    s.Served host row ∨ ∀ seconds, reached (s.now + seconds) row.ddnsNextAttemptAt = true →
      reached (s.now + seconds) row.ddnsLeaseUntil = true → HandsOut host { s with now := s.now + seconds } row.id

/-- An attempt is its server's current one. -/
def Store.Current (s : Store) (job : Job) : Prop :=
  ∃ row ∈ s.rows, row.id = job.serverId ∧ row.ddnsAttemptId = some job.attempt

/-- An attempt is its server's current one and its lease has not run out. -/
def Store.Holds (s : Store) (job : Job) : Prop :=
  ∃ row ∈ s.rows, row.id = job.serverId ∧ row.ddnsAttemptId = some job.attempt ∧ row.leased s.now = true

/-- No attempt that was handed out for a configuration, a request or a failed
attempt outlives its lease. -/
def Timely (s : Store) : Action → Prop
  | .pass seconds => ∀ row ∈ s.rows, row.ddnsAttemptId.isSome = true → row.urgent = true →
      row.leased (s.now + seconds) = true
  | _ => True

def TimelyRun (host : Host) (s : Store) : List Action → Prop
  | [] => True
  | action :: actions => Timely s action ∧ TimelyRun host (s.step host action) actions

/-- A store in which DDNS has not been used yet. -/
structure Store.Fresh (s : Store) : Prop where
  ids : (s.rows.map ServerRow.id).Nodup
  rows : ∀ row ∈ s.rows, row.ddnsEnabled = false ∧ row.ddnsAttemptId = none ∧ row.ddnsLeaseUntil = none
  jobs : s.jobs = []

theorem Store.Fresh.sound (fresh : s.Fresh) : s.Sound where
  ids := fresh.ids
  rows row here := by
    obtain ⟨disabled, idle, free⟩ := fresh.rows row here
    exact {
      attempt := fun attempt held => nomatch idle.symm.trans held
      lease := fun _ => free
      urgent := fun held => by simp [idle] at held
      intent := fun enabled => by simp [disabled] at enabled }
  serial job here := by simp [fresh.jobs] at here
  distinct := by simp [fresh.jobs]

theorem Store.Sound.step (sound : s.Sound) (action : Action) (timely : Timely s action) :
    (s.step host action).Sound := by
  cases action with
  | configure id value => exact sound.configure id value
  | queue id => exact sound.queue id
  | addresses id ipv4 ipv6 enabled =>
    exact sound.set (fun _ => rfl) fun row here _ => (sound.rows row here).addresses ipv4 ipv6 enabled
  | claim => exact sound.claim
  | complete index answers =>
    simp only [Store.step]
    split
    · rename_i job issued
      exact sound.finish (mem_of_getElem? issued) _ written_of_outcome
    · exact sound
  | pass seconds => exact sound.pass timely

theorem Store.Sound.kept (sound : s.Sound) : s.Kept host := by
  intro row here enabled free
  have row_sound := sound.rows row here
  have asked (wanted : row.wanted host = true) : ∀ seconds, reached (s.now + seconds) row.ddnsNextAttemptAt = true →
      reached (s.now + seconds) row.ddnsLeaseUntil = true →
        HandsOut host { s with now := s.now + seconds } row.id := by
    intro seconds next lease
    exact handsOut (s := { s with now := s.now + seconds }) here (by
      simp [ServerRow.due, enabled, next, lease]) wanted
  rcases row_sound.intent enabled with force | error | ⟨job, last, follows, written, requests, ipv4,
    ipv6⟩ | ⟨held, urgent⟩
  · exact .inr (asked (by simp [ServerRow.wanted, force]))
  · exact .inr (asked (by simp [ServerRow.wanted, error]))
  · by_cases changed : row.changed host = true
    · exact .inr (asked (by simp [ServerRow.wanted, changed]))
    · simp only [ServerRow.changed, Bool.or_eq_true, bne_iff_ne, ne_eq, not_or, not_not] at changed
      obtain ⟨_, revision, _, address, addressV6⟩ := follows
      refine .inl ⟨job, last, revision, requests, ipv4.trans changed.1, ipv6.trans changed.2, ?_, written⟩
      simp only [Job.records, ServerRow.job, address, addressV6, ipv4.trans changed.1, ipv6.trans changed.2]
  · have leased := row_sound.urgent held urgent
    rw [free] at leased
    exact (nomatch leased)

theorem Store.Sound.exclusive (sound : s.Sound) {job other : Job} (here : job ∈ s.jobs) (there : other ∈ s.jobs)
    (holds : s.Holds job) (holds' : s.Holds other) (same : job.serverId = other.serverId) : job = other := by
  obtain ⟨row, listed, own, attempt, _⟩ := holds
  obtain ⟨row', listed', own', attempt', _⟩ := holds'
  obtain rfl := Rows.unique sound.ids listed listed' (own.trans (same.trans own'.symm))
  exact sound.unique there here (Option.some.inj (attempt.symm.trans attempt'))

theorem finish_stale {job : Job} (stale : ¬ s.Current job) (error : Option Code) : finish s job error = s := by
  rw [finish]
  split
  · rfl
  · rename_i row found
    obtain ⟨here, own⟩ := row?_some found
    rw [if_pos fun current => stale ⟨row, here, own, current⟩]

/-- No requested update is lost in a timely run. -/
theorem Store.updates_kept (fresh : s.Fresh) (actions : List Action) (timely : TimelyRun host s actions) :
    (s.run host actions).Kept host ∧
      (∀ job ∈ (s.run host actions).jobs, ∀ other ∈ (s.run host actions).jobs, (s.run host actions).Holds job →
        (s.run host actions).Holds other → job.serverId = other.serverId → job = other) ∧
      ∀ job error, ¬ (s.run host actions).Current job →
        finish (s.run host actions) job error = s.run host actions := by
  have sound : (s.run host actions).Sound := by
    have start := fresh.sound
    clear fresh
    induction actions generalizing s with
    | nil => exact start
    | cons action actions ih => exact ih timely.2 (start.step action timely.1)
  exact ⟨sound.kept, fun job here other there holds holds' same => sound.exclusive here there holds holds' same,
    fun job error stale => finish_stale stale error⟩

/-- A server with one address, of which DDNS knows nothing yet. -/
def single : Store where
  rows := [{ id := "a", name := "a", ipAddress := some "203.0.113.7" }]

/-- Every text is an address and a domain. -/
def plainHost : Host where
  validIp4 := some
  validIp6 := some
  splitFqdn _ := .ok ()
  supported _ := true

def domainConfig (domain : String) (revision : Nat) : DDNSConfig where
  enabled := true
  providerId := none
  pullAddress := some domain
  pullAddressV6 := none
  expectedRevision := revision

theorem single_fresh : single.Fresh where
  ids := by decide
  rows := by decide
  jobs := rfl

/-- The first attempt succeeds, and one for another domain fails and is tried again. -/
def retriedRun : List Action :=
  [.configure "a" (domainConfig "a.example.org" 0), .claim, .complete 0 ⟨.ok (), .ok (), .ok ()⟩, .pass 400,
    .configure "a" (domainConfig "b.example.org" 1), .claim, .pass 20,
    .complete 1 ⟨.error ⟨"ddns_provider_failed", by decide⟩, .ok (), .ok ()⟩, .pass 300, .claim]

theorem retriedRun_timely : TimelyRun plainHost single retriedRun := by
  simp only [retriedRun, TimelyRun, Timely]
  decide +kernel

theorem retriedRun_kept : (single.run plainHost retriedRun).Kept plainHost ∧
    (∀ job ∈ (single.run plainHost retriedRun).jobs, ∀ other ∈ (single.run plainHost retriedRun).jobs,
      (single.run plainHost retriedRun).Holds job → (single.run plainHost retriedRun).Holds other →
      job.serverId = other.serverId → job = other) ∧
    ∀ job error, ¬ (single.run plainHost retriedRun).Current job →
      finish (single.run plainHost retriedRun) job error = single.run plainHost retriedRun :=
  single.updates_kept single_fresh retriedRun retriedRun_timely

/-- The worker dies with the attempt for another domain, and the address stays. -/
def crashedRun : List Action :=
  [.configure "a" (domainConfig "a.example.org" 0), .claim, .complete 0 ⟨.ok (), .ok (), .ok ()⟩, .pass 400,
    .configure "a" (domainConfig "b.example.org" 1), .claim, .pass 75]

/-- The attempt for the new domain has run out, and no claim hands out another. -/
theorem crashedRun_lost : ¬ (single.run plainHost crashedRun).Kept plainHost := by
  have listed : ∃ row ∈ (single.run plainHost crashedRun).rows, row.ddnsEnabled = true ∧
      row.leased (single.run plainHost crashedRun).now = false ∧ row.id = "a" ∧ row.ddnsRevision = 2 ∧
      reached (single.run plainHost crashedRun).now row.ddnsNextAttemptAt = true ∧
      reached (single.run plainHost crashedRun).now row.ddnsLeaseUntil = true := by
    decide +kernel
  have unwanted : ∀ row ∈ (single.run plainHost crashedRun).rows, row.wanted plainHost = false := by
    decide +kernel
  have last : ((single.run plainHost crashedRun).succeeded "a").all (fun job => job.revision == 1) = true := by
    decide +kernel
  obtain ⟨row, here, enabled, free, id, revision, next, lease⟩ := listed
  intro kept
  rcases kept row here enabled free with ⟨job, success, current, _⟩ | asked
  · rw [id] at success
    rw [success, Option.all_some, beq_iff_eq, current, revision] at last
    exact (nomatch last)
  · obtain ⟨n, job, handed, _⟩ := asked 0 next lease
    have nothing := claimTimes_unwanted
      (s := { single.run plainHost crashedRun with now := (single.run plainHost crashedRun).now + 0 }) unwanted n
    generalize claimTimes plainHost n _ = after at handed nothing
    have found : (dueRows after).find? (ServerRow.wanted plainHost) = none :=
      List.find?_eq_none.mpr fun row there => by simp [nothing row (mem_dueRows.mp there).1]
    simp only [claim, found] at handed
    exact (nomatch handed)

end Runs

end OpenNode.Ddns
