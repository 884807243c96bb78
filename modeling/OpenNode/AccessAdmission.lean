import OpenNode.AccessUsers
import OpenNode.Lib.LastWord

namespace OpenNode.ManagedProtocols

open List Loops
open LastWord (Members members_nil members_snoc members_append)

section Users

variable {profile : Profile} {entry : AccessEntry} {entries : List AccessEntry}
  {users users' final : List ManagedUser}

/-- The users that have the name of a credential are those that have its secret. -/
def Credential.Agrees (credential : Credential) (listed : ManagedUser → Prop) : Prop :=
  ∀ user, listed user → (user.name = credential.user.name ↔ credential.matching user = true)

variable {credential : Credential}

theorem mergeUser_exists {enabled : Bool} (distinct : (users.map ManagedUser.name).Nodup)
    (agrees : credential.Agrees (· ∈ users)) : ∃ users', mergeUser credential enabled users = .ok users' := by
  have same : users.filter (fun user => user.name == credential.user.name) = users.filter credential.matching := by
    refine filter_congr fun user member => ?_
    rw [Bool.eq_iff_iff, beq_iff_eq]
    exact agrees user member
  have alone : (users.filter fun user => user.name == credential.user.name).length ≤ 1 := by
    have counted := List.nodup_iff_count_le_one.mp distinct credential.user.name
    rwa [count_eq_countP, countP_map, countP_eq_length_filter] at counted
  unfold mergeUser
  rw [same] at alone ⊢
  cases found : users.filter credential.matching with
  | nil =>
    rw [found] at same
    have none : (users.any fun user => user.name == credential.user.name) = false := by
      rw [any_eq_false]
      exact fun user member => List.filter_eq_nil_iff.mp same user member
    cases enabled <;> simp [none]
  | cons user rest =>
    rw [found] at alone
    have named : user.name = credential.user.name := by
      have member : user ∈ users.filter credential.matching := found ▸ mem_cons_self
      obtain ⟨here, hit⟩ := List.mem_filter.mp member
      exact (agrees user here).mpr hit
    have short : ¬ 1 < (user :: rest).length := Nat.not_lt.mpr alone
    simp [named, show rest = [] by simpa using alone]

theorem editUsers_exists_iff (listed : Listed profile.isVless users) :
    (∃ users', editUsers profile users entry = .ok users') ↔
      ∃ credential, entry.credential profile = .ok credential ∧ credential.Agrees (· ∈ users) := by
  unfold editUsers
  cases known : entry.credential profile with
  | error message => simp
  | ok credential =>
    constructor
    · rintro ⟨users', merged⟩
      refine ⟨credential, rfl, fun user member => ?_⟩
      rcases mergeUser_ok merged with ⟨found, here, named, only, hit, _⟩ | ⟨none, _⟩
      · constructor
        · intro same
          rwa [only user member (.inl same)]
        · intro same
          rwa [only user member (.inr same)]
      · exact iff_of_false (none user member).1 (Bool.eq_false_iff.mp (none user member).2)
    · rintro ⟨_, ⟨⟩, agrees⟩
      exact mergeUser_exists listed.names agrees

def entryWord (profile : Profile) (entry : AccessEntry) : Option (ManagedUser × Bool) :=
  (entry.credential profile).toOption.map fun credential => (credential.user, entry.enabled)

/-- The words of the entries. -/
def entryWords (profile : Profile) (entries : List AccessEntry) : List (ManagedUser × Bool) :=
  entries.filterMap (entryWord profile)

theorem entryWords_snoc (known : entry.credential profile = .ok credential) :
    entryWords profile (entries ++ [entry]) = entryWords profile entries ++ [(credential.user, entry.enabled)] := by
  simp [entryWords, entryWord, known, Except.toOption]

theorem mem_editUsers (listed : Listed profile.isVless users) (known : entry.credential profile = .ok credential)
    (edited : editUsers profile users entry = .ok users') (user : ManagedUser) :
    user ∈ users' ↔ Members (· ∈ users) [(credential.user, entry.enabled)] user := by
  obtain ⟨_, same, _, edited⟩ := editUsers_edited listed edited
  cases known.symm.trans same
  have proper := AccessEntry.credential_proper known
  rw [← nil_append [_], members_snoc, members_nil]
  constructor
  · intro member
    by_cases before : user ∈ users
    · by_cases own : credential.user = user
      · cases enabled : entry.enabled with
        | true => exact .inl (by rw [own])
        | false => exact absurd (congrArg ManagedUser.name own.symm) (edited.absent enabled user member).1
      · exact .inr ⟨own, before⟩
    · obtain ⟨enabled, rfl⟩ := edited.added user member before
      exact .inl (by rw [enabled])
  · rintro (own | ⟨differs, before⟩)
    · obtain ⟨rfl, enabled⟩ := Prod.mk.inj own
      exact edited.present enabled
    · by_contra gone
      obtain ⟨_, hit, named⟩ := edited.removed user before gone
      exact differs ((proper.of_matching (listed.fits user before) hit).2 named).symm

/-- Every entry can be read, and agrees with the users that are listed when its turn comes. -/
structure Carried (profile : Profile) (start : ManagedUser → Prop) (entries : List AccessEntry) : Prop where
  known : ∀ entry ∈ entries, ∃ credential, entry.credential profile = .ok credential
  agreed : ∀ past entry later, entries = past ++ entry :: later →
    ∀ credential, entry.credential profile = .ok credential →
    credential.Agrees (Members start (entryWords profile past))

variable {start : ManagedUser → Prop}

theorem carried_nil : Carried profile start [] :=
  ⟨nofun, fun _ _ _ split => absurd split (by simp)⟩

theorem carried_snoc : Carried profile start (entries ++ [entry]) ↔ Carried profile start entries ∧
      ∃ credential, entry.credential profile = .ok credential ∧
        credential.Agrees (Members start (entryWords profile entries)) := by
  constructor
  · intro carried
    refine ⟨⟨fun e member => carried.known e (mem_append_left _ member), ?_⟩, ?_⟩
    · rintro past e later rfl
      exact carried.agreed past e (later ++ [entry]) (by simp)
    · obtain ⟨credential, known⟩ := carried.known entry (by simp)
      exact ⟨credential, known, carried.agreed entries entry [] rfl credential known⟩
  · rintro ⟨carried, credential, known, agrees⟩
    refine ⟨fun e member => ?_, fun past e later split found same => ?_⟩
    · rcases List.mem_append.mp member with before | last
      · exact carried.known e before
      · exact ⟨credential, List.mem_singleton.mp last ▸ known⟩
    · rcases eq_nil_or_concat later with rfl | ⟨before, last, rfl⟩
      · have here := append_inj_left' split rfl
        cases List.singleton_inj.mp (append_inj_right' split rfl)
        cases known.symm.trans same
        exact here ▸ agrees
      · rw [concat_eq_append, ← cons_append, ← append_assoc] at split
        exact carried.agreed past e before (append_inj_left' split rfl) found same

theorem editStep {middle : List ManagedUser} :
    [entry].foldlM (editUsers profile) middle = .ok final ↔ editUsers profile middle entry = .ok final := by
  rw [foldlM_cons_ok]
  constructor
  · rintro ⟨_, step, ⟨⟩⟩
    exact step
  · exact fun step => ⟨final, step, rfl⟩

theorem mem_editAll (listed : Listed profile.isVless users)
    (run : entries.foldlM (editUsers profile) users = .ok final)
    (user : ManagedUser) : user ∈ final ↔ Members (· ∈ users) (entryWords profile entries) user := by
  induction entries using List.reverseRecOn generalizing final user with
  | nil =>
    cases run
    exact members_nil.symm
  | append_singleton entries entry ih =>
    obtain ⟨middle, first, step⟩ := foldlM_append_ok.mp run
    rw [editStep] at step
    have between := (editedAll listed first).listed
    obtain ⟨credential, known, _, _⟩ := editUsers_edited between step
    rw [mem_editUsers between known step, entryWords_snoc known, members_append]
    exact LastWord.members_congr fun other => ih first other

theorem editAll_exists_iff (listed : Listed profile.isVless users) :
    (∃ final, entries.foldlM (editUsers profile) users = .ok final) ↔ Carried profile (· ∈ users) entries := by
  induction entries using List.reverseRecOn with
  | nil => exact iff_of_true ⟨users, rfl⟩ carried_nil
  | append_singleton entries entry ih =>
    rw [carried_snoc, ← ih]
    have agree {middle : List ManagedUser} (first : entries.foldlM (editUsers profile) users = .ok middle)
        (credential : Credential) :
        credential.Agrees (· ∈ middle) ↔ credential.Agrees (Members (· ∈ users) (entryWords profile entries)) :=
      forall_congr' fun user => imp_congr_left (mem_editAll listed first user)
    constructor
    · rintro ⟨final, run⟩
      obtain ⟨middle, first, step⟩ := foldlM_append_ok.mp run
      obtain ⟨credential, known, agrees⟩ :=
        (editUsers_exists_iff (editedAll listed first).listed).mp ⟨final, editStep.mp step⟩
      exact ⟨⟨middle, first⟩, credential, known, (agree first credential).mp agrees⟩
    · rintro ⟨⟨middle, first⟩, credential, known, agrees⟩
      obtain ⟨final, step⟩ := (editUsers_exists_iff (editedAll listed first).listed).mpr
        ⟨credential, known, (agree first credential).mpr agrees⟩
      exact ⟨final, foldlM_append_ok.mpr ⟨middle, first, editStep.mpr step⟩⟩

end Users

section Listeners

variable {before now : ManagedProtocolsRequest} {entries : List AccessEntry}

/-- Users that a listener can be left with: each has a secret of its own, and they are not too many. -/
structure Settled (listed : ManagedUser → Prop) : Prop where
  secret : ∀ user, listed user → user.identity.isSome = true
  distinct : ∀ user other, listed user → listed other → user.identity = other.identity → user = other
  room : ∀ users : List ManagedUser, users.Nodup → (∀ user ∈ users, listed user) → users.length ≤ 10000

/-- The entries of a listener can be carried out, and leave users that it can have. -/
structure Admitted (profile : Profile) (start : ManagedUser → Prop) (entries : List AccessEntry) : Prop where
  carried : Carried profile start entries
  settled : Settled (Members start (entryWords profile entries))

variable {listeners : List ManagedListener}

theorem applyEntries_exists
    (each : ∀ listener ∈ listeners, ∃ users,
      (entriesFor entries listener).foldlM (editUsers listener.profile) listener.users = .ok users) :
    ∃ listeners', entries.foldlM applyEntry listeners = .ok listeners' := by
  induction entries generalizing listeners with
  | nil => exact ⟨listeners, rfl⟩
  | cons entry rest ih =>
    have stepped : ∃ next, applyEntry listeners entry = .ok next := by
      refine mapM_exists fun listener member => ?_
      split
      · rename_i own
        obtain ⟨users, run⟩ := each listener member
        rw [entriesFor, filter_cons_of_pos (by simpa using own)] at run
        obtain ⟨next, step, _⟩ := foldlM_cons_ok.mp run
        exact ⟨{ listener with users := next }, by rw [step]⟩
      · exact ⟨listener, rfl⟩
    obtain ⟨next, step⟩ := stepped
    have remaining : ∀ listener ∈ next, ∃ users,
        (entriesFor rest listener).foldlM (editUsers listener.profile) listener.users = .ok users := by
      intro listener member
      obtain ⟨old, inside, edited⟩ := forall₂_exists (mapM_ok step).flip member
      obtain ⟨users, run⟩ := each old inside
      by_cases own : old.tag = entry.tag
      · rw [if_pos own] at edited
        rw [entriesFor, filter_cons_of_pos (by simpa using own)] at run
        obtain ⟨middle, first, later⟩ := foldlM_cons_ok.mp run
        rw [first] at edited
        cases edited
        exact ⟨users, later⟩
      · rw [if_neg own] at edited
        cases edited
        rw [entriesFor, filter_cons_of_neg (by simpa using own)] at run
        exact ⟨users, run⟩
    obtain ⟨listeners', run⟩ := ih remaining
    exact ⟨listeners', foldlM_cons_ok.mpr ⟨next, step, run⟩⟩

def OtherUsers (old new : ManagedListener) : Prop := ∃ users, new = { old with users }

theorem OtherUsers.map_eq {β : Type*} {f : ManagedListener → β}
    (blind : ∀ listener users, f { listener with users } = f listener)
    {olds news : List ManagedListener} (same : List.Forall₂ OtherUsers olds news) : news.map f = olds.map f := by
  induction same with
  | nil => rfl
  | cons here _ ih =>
    obtain ⟨users, rfl⟩ := here
    rw [map_cons, map_cons, blind, ih]

variable {listener : ManagedListener}

theorem ManagedListener.valid_users_iff (valid : listener.valid = true) {users : List ManagedUser}
    (listed : Listed listener.profile.isVless users) (each : ∀ user ∈ users, user.valid = true) :
    ({ listener with users } : ManagedListener).valid = true ↔ Settled (· ∈ users) := by
  have kind : (users.all fun user => if listener.profile.isVless then user.uuid.isSome && user.password.isNone
      else user.password.isSome && user.uuid.isNone) = true ↔ ∀ user ∈ users, user.identity.isSome = true := by
    rw [all_eq_true]
    refine forall₂_congr fun user member => ?_
    have fits := (listed.fits user member).kind
    cases vless : listener.profile.isVless with
    | true =>
      simp only [vless, if_true] at fits
      simp [ManagedUser.identity, fits]
    | false =>
      simp only [vless, Bool.false_eq_true, if_false] at fits
      simp [ManagedUser.identity, fits]
  have profile (users : List ManagedUser) : ({ listener with users } : ManagedListener).profile =
      listener.profile := rfl
  have binding (users : List ManagedUser) : ({ listener with users } : ManagedListener).binding =
      listener.binding := rfl
  have all : (users.all ManagedUser.valid) = true := List.all_eq_true.mpr each
  unfold ManagedListener.valid at valid ⊢
  rw [profile]
  simp only [Bool.and_eq_true, decide_eq_true_eq] at valid ⊢
  rw [kind]
  constructor
  · rintro ⟨⟨⟨⟨⟨⟨⟨_, room⟩, _⟩, _⟩, _⟩, secret⟩, _⟩, distinct⟩
    refine ⟨secret, fun user other here there same => inj_on_of_nodup_map distinct here there same,
      fun list nodup inside => ?_⟩
    exact (nodup.subperm inside).length_le.trans room
  · intro settled
    have room := settled.room users listed.nodup fun _ here => here
    have distinct : (users.map ManagedUser.identity).Nodup :=
      (nodup_map_iff_inj_on listed.nodup).mpr fun user here other there same =>
        settled.distinct user other here there same
    obtain ⟨⟨⟨⟨⟨⟨⟨first, _⟩, _⟩, second⟩, third⟩, _⟩, _⟩, _⟩ := valid
    exact ⟨⟨⟨⟨⟨⟨⟨first, room⟩, all⟩, second⟩, third⟩, settled.secret⟩, listed.names⟩, distinct⟩

theorem Declaration.valid_users_iff (same : List.Forall₂ OtherUsers before.listeners listeners) :
    ({ revision := before.revision, listeners } : Declaration).valid = true ↔
      listeners.all ManagedListener.valid = true := by
  have tags := OtherUsers.map_eq (f := ManagedListener.tag) (fun _ _ => rfl) same
  have nodes := OtherUsers.map_eq (f := ManagedListener.nodeId) (fun _ _ => rfl) same
  have bindings := OtherUsers.map_eq (f := ManagedListener.binding) (fun _ _ => rfl) same
  have names := OtherUsers.map_eq (f := fun listener => listener.serverConfig.sni?) (fun _ _ => rfl) same
  have snis : listeners.filterMap (fun listener => listener.serverConfig.sni?) =
      before.listeners.filterMap fun listener => listener.serverConfig.sni? := by
    have mapped (all : List ManagedListener) : all.filterMap (fun listener => listener.serverConfig.sni?) =
        (all.map fun listener => listener.serverConfig.sni?).filterMap id := by
      rw [filterMap_map]
      rfl
    rw [mapped, mapped, names]
  have valid := before.isValid
  simp only [Declaration.valid, Bool.and_eq_true] at valid
  simp only [Declaration.valid, Bool.and_eq_true, tags, nodes, bindings, snis, ← same.length_eq]
  obtain ⟨⟨⟨⟨⟨⟨⟨revision, count⟩, _⟩, tagged⟩, noded⟩, bound⟩, named⟩, apart⟩ := valid
  exact ⟨fun all => all.1.1.1.1.1.2, fun all =>
    ⟨⟨⟨⟨⟨⟨⟨revision, count⟩, all⟩, tagged⟩, noded⟩, bound⟩, named⟩, apart⟩⟩

theorem AccessEntry.credential_valid {entry : AccessEntry} {profile : Profile} {credential : Credential}
    (known : entry.credential profile = .ok credential) : credential.user.valid = true := by
  unfold AccessEntry.credential at known
  dsimp only at known
  split at known
  · nomatch known
  split at known
  · nomatch known
  split at known
  · nomatch known
  split at known
  · nomatch known
  split at known
  · nomatch known
  rename_i user validated
  cases known
  unfold ManagedUser.modelValidate at validated
  simp only [Option.bind_eq_bind, Option.bind_eq_some_iff] at validated
  obtain ⟨_, _, _, _, validated⟩ := validated
  split at validated
  · rename_i valid
    cases validated
    exact valid
  · nomatch validated

/-- A listener after the entries: the last word on each user decides. -/
def UsersAfter (entries : List AccessEntry) (old new : ManagedListener) : Prop :=
  OtherUsers old new ∧
    ∀ user, user ∈ new.users ↔ Members (· ∈ old.users) (entryWords old.profile (entriesFor entries old)) user

theorem ListenerRun.usersAfter {old new : ManagedListener} (listed : Listed old.profile.isVless old.users)
    (ran : ListenerRun entries old new) : UsersAfter entries old new := by
  obtain ⟨users, run, rfl⟩ := ran
  exact ⟨⟨users, rfl⟩, mem_editAll listed run⟩

theorem ListenerRun.valid_iff {old new : ManagedListener} (member : old ∈ before.listeners)
    (ran : ListenerRun entries old new) :
    new.valid = true ↔ Settled (Members (· ∈ old.users) (entryWords old.profile (entriesFor entries old))) := by
  obtain ⟨users, run, rfl⟩ := ran
  have listed := before.listed member
  have valid : old.valid = true := by
    have all := before.isValid
    simp only [Declaration.valid, Bool.and_eq_true, all_eq_true] at all
    exact all.1.1.1.1.1.2 old member
  have each : ∀ user ∈ users, user.valid = true := by
    intro user here
    by_cases earlier : user ∈ old.users
    · simp only [ManagedListener.valid, Bool.and_eq_true, all_eq_true] at valid
      exact valid.1.1.1.1.1.2 user earlier
    · obtain ⟨_, _, credential, known, _, rfl⟩ := (editedAll listed run).added user here earlier
      exact AccessEntry.credential_valid known
  rw [ManagedListener.valid_users_iff valid (editedAll listed run).listed each]
  have same : (· ∈ users) = Members (· ∈ old.users) (entryWords old.profile (entriesFor entries old)) :=
    funext fun user => propext (mem_editAll listed run user)
  rw [same]

theorem selectedEntries_of_none (candidate : accessCandidate (some before) entries = .ok none) :
    selectedEntries before entries = [] := by
  unfold accessCandidate at candidate
  dsimp only at candidate
  split at candidate
  · exact List.isEmpty_iff.mp ‹_›
  split at candidate
  · nomatch candidate
  split at candidate <;> nomatch candidate

theorem ManagedProtocolsRequest.listener_valid (request : ManagedProtocolsRequest)
    (member : listener ∈ request.listeners) : listener.valid = true := by
  have all := request.isValid
  simp only [Declaration.valid, Bool.and_eq_true, all_eq_true] at all
  exact all.1.1.1.1.1.2 listener member

theorem entriesFor_of_none (empty : selectedEntries before entries = []) (member : listener ∈ before.listeners) :
    entriesFor entries listener = [] := by
  rw [← entriesFor_selected member, empty]
  rfl

theorem accessCandidate_exists_iff : (∃ result, accessCandidate (some before) entries = .ok result) ↔
      ∀ listener ∈ before.listeners, Admitted listener.profile (· ∈ listener.users)
        (entriesFor entries listener) := by
  constructor
  · rintro ⟨none | now, candidate⟩ listener member
    · rw [entriesFor_of_none (selectedEntries_of_none candidate) member]
      refine ⟨carried_nil, ?_⟩
      exact (ListenerRun.valid_iff member (⟨listener.users, rfl, rfl⟩ : ListenerRun [] listener listener)).mp
        (before.listener_valid member)
    · obtain ⟨new, inside, ran⟩ := forall₂_exists (accessCandidate_ok candidate).2 member
      have settled := (ran.valid_iff member).mp (now.listener_valid inside)
      obtain ⟨users, run, _⟩ := ran
      rw [entriesFor_selected member] at run settled
      exact ⟨(editAll_exists_iff (before.listed member)).mp ⟨users, run⟩, settled⟩
  · intro admitted
    unfold accessCandidate
    dsimp only
    split
    · exact ⟨none, rfl⟩
    · have each : ∀ listener ∈ before.listeners, ∃ users,
          (entriesFor (selectedEntries before entries) listener).foldlM (editUsers listener.profile)
            listener.users = .ok users := by
        intro listener member
        rw [entriesFor_selected member]
        exact (editAll_exists_iff (before.listed member)).mpr (admitted listener member).carried
      obtain ⟨listeners, run⟩ := applyEntries_exists each
      have runs := applyEntries_ok run
      have valid : ({ revision := before.revision, listeners } : Declaration).valid = true := by
        rw [Declaration.valid_users_iff (forall₂_imp_mem runs fun old member new ran =>
          (ran.usersAfter (before.listed member)).1), all_eq_true]
        intro new member
        obtain ⟨old, inside, here, ran⟩ :=
          forall₂_exists (forall₂_imp_mem runs fun old member new ran => And.intro member ran).flip member
        rw [ran.valid_iff here, entriesFor_selected here]
        exact (admitted old here).settled
      rw [show (entries.filter fun entry => before.listeners.any fun listener => listener.tag == entry.tag) =
        selectedEntries before entries from rfl, run]
      have validated : ManagedProtocolsRequest.modelValidate { revision := before.revision, listeners } =
        some ⟨_, valid⟩ :=
        dif_pos valid
      exact ⟨some ⟨_, valid⟩, by dsimp only; rw [validated]⟩

/-- An access command at the listeners: what it does not concern stays. -/
def execute (before : ManagedProtocolsRequest) (entries : List AccessEntry) :
    Except String ManagedProtocolsRequest :=
  match accessCandidate (some before) entries with
  | .error message => .error message
  | .ok result => .ok (result.getD before)

theorem execute_exists_iff : (∃ result, execute before entries = .ok result) ↔
      ∀ listener ∈ before.listeners, Admitted listener.profile (· ∈ listener.users)
        (entriesFor entries listener) := by
  rw [← accessCandidate_exists_iff]
  unfold execute
  cases accessCandidate (some before) entries with
  | error message => simp
  | ok result => simp

theorem execute_usersAfter (run : execute before entries = .ok now) :
    List.Forall₂ (UsersAfter entries) before.listeners now.listeners := by
  unfold execute at run
  split at run
  · nomatch run
  rename_i result candidate
  cases run
  cases result with
  | none =>
    refine List.forall₂_same.mpr fun listener member => ⟨⟨listener.users, rfl⟩, fun user => ?_⟩
    rw [entriesFor_of_none (selectedEntries_of_none candidate) member]
    exact members_nil.symm
  | some now =>
    refine forall₂_imp_mem (accessCandidate_ok candidate).2 fun old member new ran => ?_
    have after := ran.usersAfter (before.listed member)
    rwa [UsersAfter, entriesFor_selected member] at after

end Listeners

section Commands

variable {before final : ManagedProtocolsRequest} {bodies : List (List AccessEntry)}

theorem entriesFor_append (past later : List AccessEntry) (listener : ManagedListener) :
    entriesFor (past ++ later) listener = entriesFor past listener ++ entriesFor later listener :=
  filter_append ..

theorem UsersAfter.append {past later : List AccessEntry} {old middle new : ManagedListener}
    (first : UsersAfter past old middle) (second : UsersAfter later middle new) :
    UsersAfter (past ++ later) old new := by
  obtain ⟨⟨users, rfl⟩, listed⟩ := first
  obtain ⟨⟨users', rfl⟩, listed'⟩ := second
  refine ⟨⟨users', rfl⟩, fun user => ?_⟩
  rw [listed', entriesFor_append, entryWords, entryWords, filterMap_append, members_append]
  exact LastWord.members_congr listed

theorem executeAll_usersAfter (run : bodies.foldlM execute before = .ok final) :
    List.Forall₂ (UsersAfter bodies.flatten) before.listeners final.listeners := by
  induction bodies using List.reverseRecOn generalizing final with
  | nil =>
    cases run
    exact List.forall₂_same.mpr fun listener _ => ⟨⟨listener.users, rfl⟩, fun user => members_nil.symm⟩
  | append_singleton bodies body ih =>
    obtain ⟨middle, first, step⟩ := foldlM_append_ok.mp run
    obtain ⟨_, step, ⟨⟩⟩ := foldlM_cons_ok.mp step
    rw [flatten_append, flatten_singleton]
    exact forall₂_trans (R := UsersAfter bodies.flatten) (S := UsersAfter body) (fun _ _ _ =>
      UsersAfter.append) (ih first)
      (execute_usersAfter step)

/-- Each command is admitted with the users that the ones before it leave. -/
def AllAdmitted (before : ManagedProtocolsRequest) (bodies : List (List AccessEntry)) : Prop :=
  ∀ past body later, bodies = past ++ body :: later → ∀ listener ∈ before.listeners,
    Admitted listener.profile
      (Members (· ∈ listener.users) (entryWords listener.profile (entriesFor past.flatten listener)))
      (entriesFor body listener)

theorem allAdmitted_snoc {body : List AccessEntry} :
    AllAdmitted before (bodies ++ [body]) ↔ AllAdmitted before bodies ∧ ∀ listener ∈ before.listeners,
      Admitted listener.profile
        (Members (· ∈ listener.users) (entryWords listener.profile (entriesFor bodies.flatten listener)))
        (entriesFor body listener) := by
  constructor
  · intro all
    refine ⟨?_, all bodies body [] rfl⟩
    rintro past next later rfl
    exact all past next (later ++ [body]) (by simp)
  · rintro ⟨all, last⟩ past next later split
    rcases eq_nil_or_concat later with rfl | ⟨between, newest, rfl⟩
    · have here := append_inj_left' split rfl
      cases List.singleton_inj.mp (append_inj_right' split rfl)
      exact here ▸ last
    · rw [concat_eq_append, ← cons_append, ← append_assoc] at split
      exact all past next between (append_inj_left' split rfl)

theorem executeAll_exists_iff : (∃ final, bodies.foldlM execute before = .ok final) ↔
    AllAdmitted before bodies := by
  induction bodies using List.reverseRecOn with
  | nil => exact iff_of_true ⟨before, rfl⟩ fun _ _ _ split => absurd split (by simp)
  | append_singleton bodies body ih =>
    rw [allAdmitted_snoc, ← ih]
    -- What the last command finds is what the ones before it leave.
    have found {middle : ManagedProtocolsRequest} (first : bodies.foldlM execute before = .ok middle) :
        (∃ final, execute middle body = .ok final) ↔ ∀ listener ∈ before.listeners,
          Admitted listener.profile
            (Members (· ∈ listener.users) (entryWords listener.profile (entriesFor bodies.flatten listener)))
            (entriesFor body listener) := by
      rw [execute_exists_iff]
      have after := executeAll_usersAfter first
      have same {old new : ManagedListener} (edited : UsersAfter bodies.flatten old new) :
          Admitted new.profile (· ∈ new.users) (entriesFor body new) ↔
            Admitted old.profile
              (Members (· ∈ old.users) (entryWords old.profile (entriesFor bodies.flatten old)))
                (entriesFor body old) := by
        obtain ⟨⟨users, rfl⟩, listed⟩ := edited
        rw [← show (· ∈ users) =
          Members (· ∈ old.users) (entryWords old.profile (entriesFor bodies.flatten old)) from
          funext fun user => propext (listed user)]
        rfl
      constructor
      · intro admitted old member
        obtain ⟨new, inside, edited⟩ := forall₂_exists after member
        exact (same edited).mp (admitted new inside)
      · intro admitted new member
        obtain ⟨old, inside, edited⟩ := forall₂_exists after.flip member
        exact (same edited).mpr (admitted old inside)
    constructor
    · rintro ⟨final, run⟩
      obtain ⟨middle, first, step⟩ := foldlM_append_ok.mp run
      obtain ⟨next, step, _⟩ := foldlM_cons_ok.mp step
      exact ⟨⟨middle, first⟩, (found first).mp ⟨next, step⟩⟩
    · rintro ⟨⟨middle, first⟩, admitted⟩
      obtain ⟨final, step⟩ := (found first).mpr admitted
      exact ⟨final, foldlM_append_ok.mpr ⟨middle, first, foldlM_cons_ok.mpr ⟨final, step, rfl⟩⟩⟩

end Commands

end OpenNode.ManagedProtocols
