import OpenNode.AccessCandidate
import OpenNode.Lib.Loops

namespace OpenNode.ManagedProtocols

open List Loops

/-- Users of distinct names, of a kind of profile. -/
structure Listed (vless : Bool) (users : List ManagedUser) : Prop where
  names : (users.map ManagedUser.name).Nodup
  fits : ∀ user ∈ users, user.Fits vless

/-- What an entry that is carried out leaves. -/
structure Edited (entry : AccessEntry) (credential : Credential) (users users' : List ManagedUser) : Prop where
  removed : ∀ user ∈ users, user ∉ users' →
    entry.enabled = false ∧ credential.matching user = true ∧ user.name = credential.user.name
  added : ∀ user ∈ users', user ∉ users → entry.enabled = true ∧ user = credential.user
  present : entry.enabled = true → credential.user ∈ users'
  absent : entry.enabled = false → ∀ user ∈ users', user.name ≠ credential.user.name ∧
    credential.matching user = false
  others : ∀ keep : ManagedUser → Bool, (∀ user, keep user = true → user.name ≠ credential.user.name) →
    users'.filter keep = users.filter keep

section Steps

variable {profile : Profile} {entry : AccessEntry} {users users' : List ManagedUser}

theorem Listed.nodup {vless : Bool} (listed : Listed vless users) : users.Nodup :=
  listed.names.of_map

theorem filter_erase_other {user : ManagedUser} {keep : ManagedUser → Bool} (dropped : keep user = false) :
    (users.erase user).filter keep = users.filter keep := by
  induction users with
  | nil => rfl
  | cons first rest ih =>
    rw [erase_cons]
    split
    · rename_i same
      rw [filter_cons, beq_iff_eq.mp same, dropped, if_neg Bool.false_ne_true]
    · rw [filter_cons, filter_cons, ih]

theorem editUsers_edited (listed : Listed profile.isVless users)
    (edited : editUsers profile users entry = .ok users') :
    ∃ credential, entry.credential profile = .ok credential ∧ Listed profile.isVless users' ∧
      Edited entry credential users users' := by
  unfold editUsers at edited
  cases known : entry.credential profile with
  | error message =>
    rw [known] at edited
    nomatch edited
  | ok credential =>
    rw [known] at edited
    have proper := AccessEntry.credential_proper known
    refine ⟨credential, rfl, ?_⟩
    rcases mergeUser_ok edited with ⟨user, member, named, only, matched, same⟩ | ⟨none, same⟩
    · have found : user = credential.user := (proper.of_matching (listed.fits user member) matched).2 named
      subst found
      cases enabled : entry.enabled with
      | true =>
        rw [enabled, if_pos rfl] at same
        subst same
        exact ⟨listed, fun _ here gone => absurd here gone, fun _ here new => absurd here new, fun _ => member,
          fun off => (nomatch enabled.symm.trans off), fun _ _ => rfl⟩
      | false =>
        rw [enabled, if_neg Bool.false_ne_true] at same
        subst same
        refine ⟨⟨?_, fun u here => listed.fits u (mem_of_mem_erase here)⟩, ?_⟩
        · exact listed.names.sublist ((erase_sublist).map _)
        · refine ⟨fun u here gone => ?_, fun u here new => absurd (mem_of_mem_erase here) new,
            fun on => (nomatch enabled.symm.trans on), fun _ u here => ?_, fun keep apart => ?_⟩
          · have same : u = credential.user := by
              by_contra differs
              exact gone ((mem_erase_of_ne differs).mpr here)
            exact ⟨enabled, same ▸ matched, same ▸ rfl⟩
          · have left := (listed.nodup.mem_erase_iff).mp here
            have not_only (way : u.name = credential.user.name ∨ credential.matching u = true) : False :=
              left.1 (only u left.2 way)
            exact ⟨fun same => not_only (.inl same), Bool.eq_false_iff.mpr fun hit => not_only (.inr hit)⟩
          · exact filter_erase_other (Bool.eq_false_iff.mpr fun hit => apart _ hit rfl)
    · cases enabled : entry.enabled with
      | true =>
        rw [enabled, if_pos rfl] at same
        subst same
        refine ⟨⟨?_, ?_⟩, ?_⟩
        · rw [map_append, map_singleton, nodup_append]
          refine ⟨listed.names, nodup_singleton _, fun name member other last => ?_⟩
          rw [List.mem_singleton.mp last]
          obtain ⟨u, here, rfl⟩ := List.mem_map.mp member
          exact (none u here).1
        · intro u here
          rcases List.mem_append.mp here with before | last
          · exact listed.fits u before
          · exact List.mem_singleton.mp last ▸ proper.fits
        · refine ⟨fun u here gone => absurd (mem_append_left _ here) gone, fun u here new => ?_,
            fun _ => by simp, fun off => (nomatch enabled.symm.trans off), fun keep apart => ?_⟩
          · rcases List.mem_append.mp here with before | last
            · exact absurd before new
            · exact ⟨enabled, List.mem_singleton.mp last⟩
          · have dropped : keep credential.user = false := Bool.eq_false_iff.mpr fun hit => apart _ hit rfl
            rw [filter_append, filter_singleton, dropped]
            simp
      | false =>
        rw [enabled, if_neg Bool.false_ne_true] at same
        subst same
        exact ⟨listed, fun _ here gone => absurd here gone, fun _ here new => absurd here new,
          fun on => (nomatch enabled.symm.trans on), fun _ => none, fun _ _ => rfl⟩

end Steps

section Runs

variable {profile : Profile} {entries : List AccessEntry} {users final : List ManagedUser}

/-- What all the entries leave together. -/
structure EditedAll (profile : Profile) (entries : List AccessEntry) (users final : List ManagedUser) : Prop where
  listed : Listed profile.isVless final
  known : ∀ entry ∈ entries, ∃ credential, entry.credential profile = .ok credential
  removed : ∀ user ∈ users, user ∉ final → ∃ entry ∈ entries, ∃ credential,
    entry.credential profile = .ok credential ∧
    entry.enabled = false ∧ credential.matching user = true ∧ user.name = credential.user.name
  added : ∀ user ∈ final, user ∉ users → ∃ entry ∈ entries, ∃ credential,
    entry.credential profile = .ok credential ∧
    entry.enabled = true ∧ user = credential.user
  others : ∀ keep : ManagedUser → Bool,
    (∀ entry ∈ entries, ∀ credential, entry.credential profile = .ok credential → ∀ user, keep user = true →
      user.name ≠ credential.user.name) → final.filter keep = users.filter keep

theorem editedAll (listed : Listed profile.isVless users)
    (run : entries.foldlM (editUsers profile) users = .ok final) :
    EditedAll profile entries users final := by
  induction entries generalizing users with
  | nil =>
    cases run
    exact ⟨listed, nofun, fun _ here gone => absurd here gone, fun _ here new => absurd here new, fun _ _ => rfl⟩
  | cons entry rest ih =>
    obtain ⟨next, step, run⟩ := foldlM_cons_ok.mp run
    obtain ⟨credential, known, listed, edited⟩ := editUsers_edited listed step
    have later := ih listed run
    refine ⟨later.listed, fun e member => ?_, fun user here gone => ?_, fun user here new => ?_,
      fun keep apart => ?_⟩
    · rcases List.mem_cons.mp member with rfl | member
      · exact ⟨credential, known⟩
      · exact later.known e member
    · by_cases kept : user ∈ next
      · obtain ⟨e, member, found⟩ := later.removed user kept gone
        exact ⟨e, mem_cons_of_mem _ member, found⟩
      · exact ⟨entry, mem_cons_self, credential, known, edited.removed user here kept⟩
    · by_cases before : user ∈ next
      · exact ⟨entry, mem_cons_self, credential, known, edited.added user before new⟩
      · obtain ⟨e, member, found⟩ := later.added user here before
        exact ⟨e, mem_cons_of_mem _ member, found⟩
    · rw [later.others keep fun e member => apart e (mem_cons_of_mem _ member)]
      exact edited.others keep fun user kept => apart entry mem_cons_self credential known user kept

theorem editedAt (listed : Listed profile.isVless users)
    (run : entries.foldlM (editUsers profile) users = .ok final)
    {entry : AccessEntry} (member : entry ∈ entries) {credential : Credential}
    (known : entry.credential profile = .ok credential) :
    ∃ past later before after, entries = past ++ entry :: later ∧ EditedAll profile past users before ∧
      Edited entry credential before after ∧ EditedAll profile later after final := by
  obtain ⟨past, later, split⟩ := append_of_mem member
  rw [split] at run
  obtain ⟨before, first, run⟩ := foldlM_append_ok.mp run
  obtain ⟨after, step, run⟩ := foldlM_cons_ok.mp run
  have all := editedAll listed first
  obtain ⟨found, same, listed, edited⟩ := editUsers_edited all.listed step
  cases known.symm.trans same
  exact ⟨past, later, before, after, split, all, edited, editedAll listed run⟩

/-- The users are as the entries ask: those that are disabled are gone, and so is
their secret; those that are enabled are there once. -/
structure UsersFollow (profile : Profile) (entries : List AccessEntry) (final : List ManagedUser) : Prop where
  disabled : ∀ entry ∈ entries, entry.enabled = false → ∀ credential, entry.credential profile = .ok credential →
    ∀ user ∈ final, user.name ≠ credential.user.name ∧ user.identity ≠ credential.user.identity
  enabled : ∀ entry ∈ entries, entry.enabled = true → ∀ credential, entry.credential profile = .ok credential →
    final.count credential.user = 1

/-- No entry that is disabled shares its name or its secret with one that is enabled;
and a user that has its secret is named by an entry that finds it. -/
structure UsersConsistent (profile : Profile) (entries : List AccessEntry) (users : List ManagedUser) : Prop where
  apart : ∀ entry ∈ entries, entry.enabled = false → ∀ credential, entry.credential profile = .ok credential →
    ∀ other ∈ entries, other.enabled = true → ∀ kept, other.credential profile = .ok kept →
      kept.user.name ≠ credential.user.name ∧ kept.user.identity ≠ credential.user.identity
  found : ∀ entry ∈ entries, entry.enabled = false → ∀ credential, entry.credential profile = .ok credential →
    ∀ user ∈ users, user.identity = credential.user.identity →
      ∃ other ∈ entries, other.enabled = false ∧ ∃ gone, other.credential profile = .ok gone ∧
        gone.matching user = true

theorem UsersFollow.consistent (listed : Listed profile.isVless users)
    (run : entries.foldlM (editUsers profile) users = .ok final) (follow : UsersFollow profile entries final) :
    UsersConsistent profile entries users where
  apart := by
    intro entry member off credential known other second on kept keeps
    have there : kept.user ∈ final :=
      List.count_pos_iff.mp (by rw [follow.enabled other second on kept keeps]; omega)
    exact follow.disabled entry member off credential known kept.user there
  found := by
    intro entry member off credential known user here same
    have gone : user ∉ final := fun there => (follow.disabled entry member off credential known user there).2 same
    obtain ⟨other, second, lost, knownLost, offLost, hit, _⟩ := (editedAll listed run).removed user here gone
    exact ⟨other, second, offLost, lost, knownLost, hit⟩

theorem UsersConsistent.follow (listed : Listed profile.isVless users)
    (run : entries.foldlM (editUsers profile) users = .ok final)
    (consistent : UsersConsistent profile entries users) :
    UsersFollow profile entries final where
  disabled := by
    intro entry member off credential known user here
    -- A user that an entry adds differs in its name and in its secret.
    have added (past : List AccessEntry) (inside : ∀ e ∈ past, e ∈ entries) (start : List ManagedUser)
        (end_ : List ManagedUser) (all : EditedAll profile past start end_) (there : user ∈ end_)
          (new : user ∉ start) :
        user.name ≠ credential.user.name ∧ user.identity ≠ credential.user.identity := by
      obtain ⟨other, second, kept, keeps, on, rfl⟩ := all.added user there new
      exact consistent.apart entry member off credential known other (inside other second) on kept keeps
    obtain ⟨past, later, before, after, split, first, edited, last⟩ := editedAt listed run member known
    have inPast (e : AccessEntry) (here : e ∈ past) : e ∈ entries := split ▸ mem_append_left _ here
    have inLater (e : AccessEntry) (here : e ∈ later) : e ∈ entries :=
      split ▸ mem_append_right _ (mem_cons_of_mem _ here)
    by_cases survives : user ∈ after
    · refine ⟨(edited.absent off user survives).1, fun same => ?_⟩
      have earlier : user ∈ before := by
        by_contra new
        exact nomatch off.symm.trans (edited.added user survives new).1
      by_cases old : user ∈ users
      · -- The entry that finds the user removes it, and no later one brings it back.
        obtain ⟨other, second, offOther, gone, knownGone, hit⟩ :=
          consistent.found entry member off credential known user old same
        obtain ⟨_, later', _, after', split', _, edited', last'⟩ := editedAt listed run second knownGone
        have inLater' (e : AccessEntry) (here : e ∈ later') : e ∈ entries :=
          split' ▸ mem_append_right _ (mem_cons_of_mem _ here)
        have lost : user ∉ after' := fun there =>
          nomatch hit.symm.trans (edited'.absent offOther user there).2
        exact (added later' inLater' after' final last' here lost).2 same
      · exact (added past inPast users before first earlier old).2 same
    · exact added later inLater after final last here survives
  enabled := by
    intro entry member on credential known
    obtain ⟨past, later, before, after, split, first, edited, last⟩ := editedAt listed run member known
    have there : credential.user ∈ final := by
      by_contra gone
      obtain ⟨other, second, lost, knownLost, offLost, _, same⟩ := last.removed _ (edited.present on) gone
      have inside : other ∈ entries := split ▸ mem_append_right _ (mem_cons_of_mem _ second)
      exact (consistent.apart other inside offLost lost knownLost entry member on credential known).1 same
    exact count_eq_one_of_mem last.listed.nodup there

theorem UsersFollow.again (follow : UsersFollow profile entries users)
    (run : entries.foldlM (editUsers profile) users = .ok final) : final = users := by
  induction entries with
  | nil =>
    cases run
    rfl
  | cons entry rest ih =>
    obtain ⟨next, step, run⟩ := foldlM_cons_ok.mp run
    have same : next = users := by
      unfold editUsers at step
      cases known : entry.credential profile with
      | error message =>
        rw [known] at step
        nomatch step
      | ok credential =>
        rw [known] at step
        have proper := AccessEntry.credential_proper known
        cases enabled : entry.enabled with
        | true =>
          rw [enabled] at step
          rcases mergeUser_ok step with ⟨_, _, _, _, _, same⟩ | ⟨none, _⟩
          · exact same
          · have there : credential.user ∈ users := List.count_pos_iff.mp (by
              rw [follow.enabled entry mem_cons_self enabled credential known]
              omega)
            exact absurd rfl (none _ there).1
        | false =>
          rw [enabled] at step
          rcases mergeUser_ok step with ⟨user, member, named, _⟩ | ⟨_, same⟩
          · exact absurd named (follow.disabled entry mem_cons_self enabled credential known user member).1
          · exact same
    rw [same] at run
    refine ih ⟨fun e member => ?_, fun e member => ?_⟩ run
    · exact follow.disabled e (mem_cons_of_mem _ member)
    · exact follow.enabled e (mem_cons_of_mem _ member)

end Runs

section Listeners

variable {entries : List AccessEntry} {before now : ManagedProtocolsRequest}

/-- The entries of a listener. -/
def entriesFor (entries : List AccessEntry) (listener : ManagedListener) : List AccessEntry :=
  entries.filter fun entry => listener.tag == entry.tag

/-- A user that no entry names. -/
def unnamed (profile : Profile) (entries : List AccessEntry) (user : ManagedUser) : Bool :=
  !entries.any fun entry =>
    match entry.credential profile with
    | .ok credential => credential.user.name == user.name
    | .error _ => false

/-- A listener after the entries: nothing but its users differs, and of these only
those that an entry names. -/
structure ListenerFollows (entries : List AccessEntry) (old new : ManagedListener) : Prop where
  same : new = { old with users := new.users }
  users : UsersFollow old.profile (entriesFor entries old) new.users
  others : new.users.filter (unnamed old.profile (entriesFor entries old)) =
    old.users.filter (unnamed old.profile (entriesFor entries old))

/-- A candidate does what the entries ask, and a second time changes nothing. -/
structure AccessFollows (before now : ManagedProtocolsRequest) (entries : List AccessEntry) : Prop where
  revision : now.revision = before.revision
  listeners : List.Forall₂ (ListenerFollows entries) before.listeners now.listeners
  again : ∀ later, accessCandidate (some now) entries = .ok (some later) → later = now

def AccessConsistent (before : ManagedProtocolsRequest) (entries : List AccessEntry) : Prop :=
  ∀ listener ∈ before.listeners, UsersConsistent listener.profile (entriesFor entries listener) listener.users

/-- A listener and its users after some entries. -/
def ListenerRun (entries : List AccessEntry) (old new : ManagedListener) : Prop :=
  ∃ users, (entriesFor entries old).foldlM (editUsers old.profile) old.users = .ok users ∧ new = { old with users }

theorem applyEntries_ok {listeners listeners' : List ManagedListener}
    (run : entries.foldlM applyEntry listeners = .ok listeners') :
    List.Forall₂ (ListenerRun entries) listeners listeners' := by
  induction entries generalizing listeners with
  | nil =>
    cases run
    exact List.forall₂_same.mpr fun listener _ => ⟨listener.users, rfl, rfl⟩
  | cons entry rest ih =>
    obtain ⟨next, step, run⟩ := foldlM_cons_ok.mp run
    refine forall₂_trans (fun old middle new edited later => ?_) (mapM_ok step) (ih run)
    obtain ⟨users, finished, rfl⟩ := later
    by_cases own : old.tag = entry.tag
    · rw [if_pos own] at edited
      cases merged : editUsers old.profile old.users entry with
      | error message =>
        rw [merged] at edited
        nomatch edited
      | ok users' =>
        rw [merged] at edited
        cases edited
        refine ⟨users, ?_, rfl⟩
        rw [entriesFor, filter_cons_of_pos (by simpa using own)]
        exact foldlM_cons_ok.mpr ⟨users', merged, finished⟩
    · rw [if_neg own] at edited
      cases edited
      refine ⟨users, ?_, rfl⟩
      rw [entriesFor, filter_cons_of_neg (by simpa using own)]
      exact finished

/-- The entries that a candidate carries out. -/
def selectedEntries (current : ManagedProtocolsRequest) (entries : List AccessEntry) : List AccessEntry :=
  entries.filter fun entry => current.listeners.any fun listener => listener.tag == entry.tag

variable {listener : ManagedListener}

theorem entriesFor_selected (member : listener ∈ before.listeners) :
    entriesFor (selectedEntries before entries) listener = entriesFor entries listener := by
  rw [entriesFor, entriesFor, selectedEntries, filter_filter]
  refine filter_congr fun entry _ => ?_
  cases own : listener.tag == entry.tag with
  | false => simp
  | true => simpa using ⟨listener, member, by simpa using own⟩

theorem accessCandidate_ok (candidate : accessCandidate (some before) entries = .ok (some now)) :
    now.revision = before.revision ∧
      List.Forall₂ (ListenerRun (selectedEntries before entries)) before.listeners now.listeners := by
  unfold accessCandidate at candidate
  dsimp only at candidate
  split at candidate
  · nomatch candidate
  split at candidate
  · nomatch candidate
  rename_i listeners run
  split at candidate
  · nomatch candidate
  rename_i validated
  cases candidate
  unfold ManagedProtocolsRequest.modelValidate at validated
  split at validated
  · cases validated
    exact ⟨rfl, applyEntries_ok run⟩
  · nomatch validated

theorem ManagedProtocolsRequest.listed (request : ManagedProtocolsRequest) (member : listener ∈ request.listeners) :
    Listed listener.profile.isVless listener.users := by
  have valid := request.isValid
  simp only [Declaration.valid, Bool.and_eq_true, all_eq_true] at valid
  have own := valid.1.1.1.1.1.2 listener member
  refine ⟨?_, fun user inside => ManagedListener.fits own inside⟩
  simp only [ManagedListener.valid, Bool.and_eq_true, decide_eq_true_eq] at own
  exact own.1.2

theorem AccessConsistent.listeners (consistent : AccessConsistent before entries)
    (candidate : accessCandidate (some before) entries = .ok (some now)) :
    List.Forall₂ (ListenerFollows entries) before.listeners now.listeners := by
  refine forall₂_imp_mem (accessCandidate_ok candidate).2 fun old member new ran => ?_
  obtain ⟨users, run, rfl⟩ := ran
  rw [entriesFor_selected member] at run
  have listed := before.listed member
  refine ⟨rfl, (consistent old member).follow listed run, ?_⟩
  refine (editedAll listed run).others _ fun entry inside credential known user kept same => ?_
  simp only [unnamed, Bool.not_eq_true', any_eq_false] at kept
  have differs := kept entry inside
  rw [known] at differs
  exact differs (by simpa using same.symm)

theorem accessFollows_iff (candidate : accessCandidate (some before) entries = .ok (some now)) :
    AccessFollows before now entries ↔ AccessConsistent before entries := by
  obtain ⟨revision, runs⟩ := accessCandidate_ok candidate
  constructor
  · intro follows listener member
    obtain ⟨new, _, ⟨users, run, rfl⟩, after⟩ := forall₂_exists (forall₂_both runs follows.listeners) member
    rw [entriesFor_selected member] at run
    exact after.users.consistent (before.listed member) run
  · intro consistent
    have listeners := consistent.listeners candidate
    refine ⟨revision, listeners, fun later again => ?_⟩
    obtain ⟨laterRevision, laterRuns⟩ := accessCandidate_ok again
    have unchanged : List.Forall₂ (fun new last => last = new) now.listeners later.listeners := by
      refine forall₂_imp_mem laterRuns fun new member last ran => ?_
      obtain ⟨users, run, rfl⟩ := ran
      rw [entriesFor_selected member] at run
      obtain ⟨old, _, follows⟩ := forall₂_exists listeners.flip member
      have sameTag : entriesFor entries new = entriesFor entries old := by rw [follows.same]; rfl
      have sameProfile : new.profile = old.profile := by rw [follows.same]; rfl
      rw [sameTag, sameProfile] at run
      rw [follows.users.again run]
    have same : later.listeners = now.listeners := by
      have flipped : List.Forall₂ Eq later.listeners now.listeners := unchanged.flip
      rwa [forall₂_eq_eq_eq] at flipped
    obtain ⟨⟨_, _⟩, _⟩ := later
    obtain ⟨⟨_, _⟩, _⟩ := now
    cases same
    cases laterRevision
    rfl

end Listeners

section Examples

def socksEntry (name secret : String) (enabled : Bool) : AccessEntry where
  tag := "managed-0"
  protocol := "socks5"
  client := .obj [("username", .str name), ("password", .str secret)]
  enabled := enabled

/-- Alice is disabled, and Bob enabled with her secret. -/
def handoverEntries : List AccessEntry := [socksEntry "alice" "secret" false, socksEntry "bob" "secret" true]

/-- The listener that the handover leaves. -/
def handedOver : ManagedProtocolsRequest := ⟨socksDeclaration 'a' 2000 "bob", by decide +kernel⟩

/-- The secret that was disabled is still in use. -/
theorem handedOver_shared : ¬AccessFollows firstRequest handedOver handoverEntries := by
  intro follows
  have consistent := (accessFollows_iff (by decide +kernel)).mp follows
  have apart := (consistent (socksListener 2000 "alice") List.mem_cons_self).apart
  have alice : (socksEntry "alice" "secret" false).credential .socks5 =
      .ok ⟨⟨"alice", none, some "secret"⟩, none, some "secret"⟩ := by
    decide +kernel
  have bob : (socksEntry "bob" "secret" true).credential .socks5 =
      .ok ⟨⟨"bob", none, some "secret"⟩, none, some "secret"⟩ := by
    decide +kernel
  exact (apart _ List.mem_cons_self rfl _ alice _ (List.mem_cons_of_mem _ List.mem_cons_self) rfl _ bob).2 rfl

end Examples

end OpenNode.ManagedProtocols
