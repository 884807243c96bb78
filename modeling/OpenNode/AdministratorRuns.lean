import OpenNode.AdministratorSessions

namespace OpenNode.Administration

open OneTimeCodes AuthDb Option
open Subscribers (PasswordHash AuthSettings)

variable {P H C : Type} {hasher : PasswordHash P H} {settings : AuthSettings C} {now : Nat}
variable {s t : AuthDb P H}

namespace AuthDb

section Complete
variable {challenge : OperatorChallenge P H} {window : LoginWindow} {factor : AdministratorFactor} {proof : Proof}

variable {row : OperatorSession}

theorem newSession_mem (here : row ∈ (s.newSession settings now).sessions) :
    row ∈ s.sessions ∨ row.token = s.serial := by
  rcases List.mem_append.mp here with before | new
  · exact Or.inl (List.mem_filter.mp before).1
  · rw [List.mem_singleton] at new
    subst new
    exact Or.inr rfl

theorem complete_frame : (s.complete settings now challenge window factor proof).administrator = s.administrator ∧
    (s.complete settings now challenge window factor proof).factor = some factor ∧
    (s.complete settings now challenge window factor proof).challenges = [] ∧
    (s.complete settings now challenge window factor proof).window = s.window ∧
    (s.complete settings now challenge window factor proof).reads = s.reads ∧
    (s.complete settings now challenge window factor proof).holder = s.holder ∧
    (s.complete settings now challenge window factor proof).accepted = proof :: s.accepted ∧
    (s.complete settings now challenge window factor proof).tried = (s.count window challenge).tried ∧
    s.serial + 10 < (s.complete settings now challenge window factor proof).serial := by
  unfold complete
  cases challenge.kind with
  | verify => exact ⟨rfl, rfl, rfl, rfl, rfl, rfl, rfl, rfl, Nat.lt_succ_self _⟩
  | enroll => exact ⟨rfl, rfl, rfl, rfl, rfl, rfl, rfl, rfl, Nat.lt_succ_of_lt (Nat.lt_succ_self _)⟩

theorem complete_session (here : row ∈ (s.complete settings now challenge window factor proof).sessions) :
    (challenge.kind = .verify ∧ row ∈ s.sessions) ∨
      s.serial ≤ row.token ∧ row.token < (s.complete settings now challenge window factor proof).serial := by
  unfold complete at here ⊢
  cases kind : challenge.kind with
  | verify =>
    rw [kind] at here
    rcases newSession_mem here with before | new
    · exact Or.inl ⟨rfl, before⟩
    · refine Or.inr ⟨?_, ?_⟩
      · rw [new]
        exact Nat.le_add_right _ _
      · rw [new]
        exact Nat.lt_succ_self _
  | enroll =>
    rw [kind] at here
    rcases newSession_mem here with before | new
    · cases before
    · refine Or.inr ⟨?_, ?_⟩
      · rw [new]
        exact Nat.le_trans (Nat.le_add_right _ _) (Nat.le_succ _)
      · rw [new]
        exact Nat.lt_succ_self _

theorem consumeFactorAttempt_frame (ok : s.consumeFactorAttempt now = .ok (t, window)) :
    s.serial ≤ t.serial ∧ t = { s with window := t.window, serial := t.serial } := by
  rcases consumeFactorAttempt_ok ok with ⟨-, rfl⟩ | ⟨before, -, -, -, rfl⟩
  · exact ⟨Nat.le_succ _, rfl⟩
  · exact ⟨Nat.le_refl _, rfl⟩

theorem authenticate_mem {token : Nat} (ok : (s.authenticate settings now token).1 = .ok ()) :
    ∃ row ∈ s.sessions, row.token = token := by
  unfold authenticate at ok
  split at ok
  · cases ok
  · rename_i row found
    exact ⟨row, List.mem_of_find?_eq_some found, by simpa using List.find?_some found⟩

end Complete

end AuthDb

/-- A statement uses what was read, and an operation waits for the locks. -/
def AdminEvent.Allowed (s t : AuthDb P H) : AdminEvent P H C → Prop
  | .lockLogin password hashed => (password, hashed) ∈ s.reads
  | .lockChange password hashed _ => (password, hashed) ∈ s.reads
  | .read _ _ | .advance | .loginCommit | .changeCommit | .rollback => True
  | _ => s.Admits t

/-- A login does not end in a session once a secret is enabled that it has not read, and no code is accepted between
the deletion of the sessions and that of the challenges in a change of the password. -/
def Orderly [DecidableEq H] (settings : AuthSettings C) (now : Nat) (s : AuthDb P H) : AdminEvent P H C → Prop
  | .loginCommit =>
    ∀ password hashed, s.holder = some (.loginPolicy password hashed none false) → s.secret = none
  | .completeLogin token code =>
    ∀ hashed sessions, s.holder = some (.changeSessions hashed sessions) → s.accepts settings now token code = false
  | _ => True

/-- The runs of the store that follow a rule, with the statements of logins and password changes in between. -/
inductive Reaches [DecidableEq H] (rule : Nat → AuthDb P H → AdminEvent P H C → Prop) (hasher : PasswordHash P H)
    (settings : AuthSettings C) (s : AuthDb P H) : AuthDb P H → Prop
  | refl : Reaches rule hasher settings s s
  | step {t : AuthDb P H} {event : AdminEvent P H C} (now : Nat) (before : Reaches rule hasher settings s t)
      (allowed : event.Allowed t (t.apply hasher settings now event).2) (follows : rule now t event) :
      Reaches rule hasher settings s (t.apply hasher settings now event).2

namespace Sound

theorem quiet (sound : Sound hasher s) (admits : s.Admits t) (serial : s.serial ≤ t.serial)
    (tried : t.tried = s.tried) (accepted : t.accepted = s.accepted) (reads : t.reads = s.reads)
    (holder : t.holder = s.holder) (window : ∀ window, t.window = some window → s.window = some window)
    (session : ∀ row ∈ t.sessions, ∃ old ∈ s.sessions, old.token = row.token)
    (challenge : ∀ row ∈ t.challenges, row ∈ s.challenges)
    (factor : t.factorRow.factor = s.factorRow.factor ∨ t.factorRow.factor = {})
    (pending : t.factorRow.pendingSecret = s.factorRow.pendingSecret ∨ t.factorRow.pendingSecret = none) :
    Sound hasher t where
  budget := sound.budget.untried serial tried window fun row here => Or.inl (challenge row here)
  coded := sound.coded.unaccepted serial accepted factor pending fun row here _ known =>
    Or.inl ⟨row, challenge row here, known⟩
  guarded := sound.guarded.keeps admits serial reads holder session fun row here =>
    ⟨row, challenge row here, rfl, rfl, rfl⟩

variable {username : String} {code : C}

theorem proved (sound : Sound hasher s) {row factor : AdministratorFactor} {proof : Proof}
    (here : s.factor = some row)
    (ok : AuthDb.verifyFactor settings now username code row = .ok (some (factor, proof))) :
    Coded { s with factor := some factor, accepted := proof :: s.accepted } := by
  refine sound.coded.verified (by rw [AuthDb.factorRow, here]; exact ok) (Nat.le_refl _) rfl rfl fun _ here => here

theorem consumed (sound : Sound hasher s) {window : LoginWindow}
    (ok : s.consumeFactorAttempt now = .ok (t, window)) :
    Coded t := by
  obtain ⟨serial, same⟩ := consumeFactorAttempt_frame ok
  rw [same]
  exact sound.coded.unaccepted serial rfl (Or.inl rfl) (Or.inl rfl) fun row here _ known =>
    Or.inl ⟨row, here, known⟩

variable {token : Nat}

/-- In an orderly run no code is accepted between the two deletions of a change of the password: before the second
the rule forbids it, and after it the challenge is locked. -/
theorem completed_holder [DecidableEq H] (sound : Sound hasher s) {challenge : OperatorChallenge P H}
    (found : s.challenges.find? (·.token == token) = some challenge) (cleared : t.challenges = [])
    (admits : s.Admits t) (accepts : s.accepts settings now token code = true)
    (orderly : Orderly settings now s (.completeLogin token code : AdminEvent P H C)) {holder : Holder P H}
    (holding : s.holder = some holder) : holder.Sound hasher t := by
  have facts := sound.guarded.holder holder holding
  have administrator := (admits holder holding).1
  have locked : ∀ challenges : List Nat, holder.lockedChallenges = challenges →
      (∀ row ∈ s.challenges, row.token ∈ challenges) → False := by
    intro challenges same seen
    have here := List.mem_of_find?_eq_some found
    have hit := List.find?_some found
    rw [beq_iff_eq] at hit
    have kept := (admits holder holding).2.2.1 token (same ▸ hit ▸ seen challenge here)
    rw [found, cleared] at kept
    cases kept
  cases holder with
  | login password hashed => exact ⟨facts.1, administrator ▸ facts.2⟩
  | loginFactor password hashed secret => exact ⟨facts.1, administrator ▸ facts.2⟩
  | loginPolicy password hashed secret required => exact ⟨facts.1, administrator ▸ facts.2⟩
  | change hashed => trivial
  | changeSessions hashed sessions =>
    rw [orderly hashed sessions holding] at accepts
    cases accepts
  | changeChallenges hashed sessions challenges => exact (locked challenges rfl facts.2).elim
  | changeFactor hashed sessions challenges clears => exact (locked challenges rfl facts.2).elim

variable [DecidableEq H] {result : Except String Unit × AuthDb P H} {session : Nat} {password : P}

section

variable (sound : Sound hasher s)
include sound

theorem completeLogin (effect : Effect hasher settings now s (.completeLogin token code) result)
    (admits : s.Admits result.2) (orderly : Orderly settings now s (.completeLogin token code : AdminEvent P H C)) :
    Sound hasher result.2 := by
  cases effect with
  | refused => exact sound
  | unanswered =>
    exact sound.quiet admits (Nat.le_refl _) rfl rfl rfl rfl (fun _ same => same) (fun row here => ⟨row, here, rfl⟩)
      (fun row here => (List.mem_filter.mp here).1) (Or.inl rfl) (Or.inl rfl)
  | @attempt _ _ challenge _ t window factor error found alive consumed which =>
    have here := List.mem_of_find?_eq_some found
    have room := (live_some alive).2.2
    have budget := sound.budget.tried here room consumed
    have coded := sound.consumed consumed
    obtain ⟨serial, same⟩ := consumeFactorAttempt_frame consumed
    have rows : ∀ row ∈ (t.count window challenge).challenges, ∃ old ∈ s.challenges, old.token = row.token ∧
        old.password = row.password ∧ old.credentialHash = row.credentialHash ∧
          old.pendingSecret = row.pendingSecret := by
      intro row there
      rw [same] at there
      obtain ⟨old, before, rfl⟩ := List.mem_map.mp there
      refine ⟨old, before, ?_⟩
      split <;> exact ⟨rfl, rfl, rfl, rfl⟩
    have factorRow : ({ t.count window challenge with factor := factor } : AuthDb P H).factorRow = t.factorRow := by
      rcases which with rfl | rfl
      · rfl
      · rfl
    refine ⟨{ budget with }, ?_, ?_⟩
    · refine coded.unaccepted (Nat.le_refl _) rfl (Or.inl (by rw [factorRow])) (Or.inl (by rw [factorRow])) ?_
      intro row there secret known
      obtain ⟨old, before, -, -, -, pending⟩ := rows row there
      refine Or.inl ⟨old, ?_, pending.trans known⟩
      rw [same]
      exact before
    · refine sound.guarded.keeps admits serial (by rw [same]; rfl) (by rw [same]; rfl) ?_ ?_
      · intro row there
        rw [same] at there
        exact ⟨row, there, rfl⟩
      · intro row there
        obtain ⟨old, before, token, password, hashed, -⟩ := rows row there
        exact ⟨old, before, token, password, hashed⟩
  | @completeLogin _ _ challenge _ t window factor proof found alive consumed right =>
    have here := List.mem_of_find?_eq_some found
    have room := (live_some alive).2.2
    have budget := sound.budget.tried here room consumed
    have coded := sound.consumed consumed
    have accepts : s.accepts settings now token code = true := by
      simp only [AuthDb.accepts, found, alive, consumed, right]
    obtain ⟨serial, same⟩ := consumeFactorAttempt_frame consumed
    obtain ⟨administrator', stored, challenges, windows, reads, holders, accepted, tried, later⟩ :=
      @AuthDb.complete_frame P H C settings now t challenge window factor proof
    have held : t.holder = s.holder := by rw [same]
    dsimp only at admits ⊢
    refine ⟨budget.untried (by show t.serial ≤ _; omega) tried ?_ ?_, ?_, ?_⟩
    · intro other there
      exact windows ▸ there
    · rw [challenges]
      exact nofun
    · rcases checkCode_ok right with ⟨row, there, verified⟩ | ⟨secret, -, pending, without, enrolled⟩
      · refine coded.verified (by rw [AuthDb.factorRow, there]; exact verified) (by omega) accepted stored ?_
        rw [challenges]
        exact nofun
      · obtain ⟨unused, differs⟩ := coded.challenge challenge (by rw [same]; exact here) secret pending
        exact coded.enrolled enrolled unused (Or.inr ⟨rfl, differs⟩) (by omega) accepted stored challenges
    · refine ⟨?_, ?_, fun row there => ?_, fun holder holding => ?_⟩
      · rw [reads, same]
        exact sound.guarded.read
      · rw [challenges]
        exact nofun
      · rcases complete_session there with ⟨-, before⟩ | ⟨-, below⟩
        · rw [same] at before
          have known := sound.guarded.session row before
          omega
        · exact below
      · exact sound.completed_holder found challenges admits accepts orderly
          ((holders.trans held).symm.trans holding)

theorem confirmTotp (effect : Effect hasher settings now s (.confirmTotp session code) result)
    (admits : s.Admits result.2) : Sound hasher result.2 := by
  cases effect with
  | refused => exact sound
  | @confirmTotp _ _ _ row _ _ _ here pending enrolled =>
    have waiting : s.factorRow = row := by rw [AuthDb.factorRow, here, getD_some]
    have later : s.serial ≤ s.serial + 10 + 1 := by omega
    refine ⟨sound.budget.untried later rfl (fun _ same => same) (List.forall_mem_nil _), ?_, ?_⟩
    · exact sound.coded.enrolled enrolled (sound.coded.pending _ (waiting ▸ pending)) (Or.inl rfl)
        (Nat.le_succ _) rfl rfl rfl
    · exact sound.guarded.keeps admits later rfl rfl (fun row there => ⟨row, (List.mem_filter.mp there).1, rfl⟩)
        (List.forall_mem_nil _)

theorem updateTotp {disable : Bool}
    (effect : Effect hasher settings now s (.updateTotp session password code disable) result)
    (admits : s.Admits result.2) : Sound hasher result.2 := by
  cases effect with
  | refused => exact sound
  | updateTotp here verified which =>
    have coded := sound.proved here verified
    have later : s.serial ≤ s.serial + 10 + 1 := by omega
    refine ⟨sound.budget.untried later rfl (fun _ same => same) nofun, ?_, ?_⟩
    · refine
        { ledger := coded.ledger.later later
          factor := fun owner => ?_
          pending := fun secret known owner => ?_
          challenge := nofun }
      · rcases which with rfl | rfl
        · exact Fresh.cleared
        · exact ((coded.factor owner).renewed coded.ledger 10).later (Nat.le_succ _)
      · rcases which with rfl | rfl
        · cases known
        · have ⟨below, other, unused⟩ := coded.pending secret known owner
          exact ⟨Nat.lt_of_lt_of_le below later, other, unused⟩
    · exact sound.guarded.keeps admits later rfl rfl (fun row there =>
        ⟨row, (List.mem_filter.mp there).1, rfl⟩) nofun

theorem updatePolicy {required : Bool}
    (effect : Effect hasher settings now s (.updatePolicy session password code required) result)
    (admits : s.Admits result.2) : Sound hasher result.2 := by
  cases effect with
  | refused => exact sound
  | relaxPolicy =>
    exact sound.quiet admits (Nat.le_succ _) rfl rfl rfl rfl (fun _ same => same)
      (fun row there => ⟨row, (List.mem_filter.mp there).1, rfl⟩) nofun (Or.inl rfl) (Or.inl rfl)
  | updatePolicy here verified =>
    refine ⟨sound.budget.untried (Nat.le_succ _) rfl (fun _ same => same) nofun, ?_, ?_⟩
    · exact (sound.proved here verified).unaccepted (Nat.le_succ _) rfl (Or.inl rfl) (Or.inl rfl) nofun
    · exact sound.guarded.keeps admits (Nat.le_succ _) rfl rfl
        (fun row there => ⟨row, (List.mem_filter.mp there).1, rfl⟩) nofun

theorem beginTotp (effect : Effect hasher settings now s (.beginTotp session password : AdminEvent P H C) result)
    (admits : s.Admits result.2) : Sound hasher result.2 := by
  cases effect with
  | refused => exact sound
  | beginTotp without =>
    have later : s.serial ≤ s.serial + 1 + 1 := by omega
    refine ⟨sound.budget.untried later rfl (fun _ same => same) fun row here => Or.inl here, ?_, ?_⟩
    · refine
        { ledger := sound.coded.ledger.later later
          factor := fun owner => (sound.coded.factor owner).later later
          pending := fun secret known owner => ?_
          challenge := fun row here secret known => ?_ }
      · cases known
        refine ⟨by show s.serial < s.serial + 1 + 1; omega, ?_,
          fun step => sound.coded.ledger.notMem (Nat.le_refl _)⟩
        show (s.factor.getD {}).factor.secret ≠ _
        rw [without]
        exact nofun
      · obtain ⟨unused, -⟩ := sound.coded.challenge row here secret known
        refine ⟨fun owner => (unused owner).later later, fun hit => ?_⟩
        have below := (unused "").below
        have same : s.serial = secret := Option.some.inj hit
        omega
    · exact sound.guarded.keeps admits later rfl rfl (fun row there => ⟨row, there, rfl⟩)
        fun row there => ⟨row, there, rfl, rfl, rfl⟩

theorem loginCommit (effect : Effect hasher settings now s (.loginCommit : AdminEvent P H C) result) :
    Sound hasher result.2 := by
  have valid := fun holder holding => sound.guarded.holder holder holding
  have guarded : Guarded hasher { s with holder := none } := { sound.guarded with holder := nofun }
  cases effect with
  | refused => exact sound
  | loginChallenge holding =>
    refine ⟨sound.budget.untried (Nat.le_succ _) rfl (fun _ same => same) fun row here => Or.inr ?_, ?_, ?_⟩
    · rw [List.mem_singleton.mp here]
      exact ⟨Nat.le_refl _, Nat.lt_succ_self _, rfl⟩
    · refine sound.coded.unaccepted (Nat.le_succ _) rfl (Or.inl rfl) (Or.inl rfl) fun row here secret known => ?_
      rw [List.mem_singleton.mp here] at known
      cases known
    · refine { guarded with
        challenge := fun row here => ?_
        session := fun row here => Nat.lt_succ_of_lt (guarded.session row here)
        holder := nofun }
      rw [List.mem_singleton.mp here]
      exact (valid _ holding).1
  | loginBarred => exact ⟨{ sound.budget with }, { sound.coded with }, guarded⟩
  | loginEnroll holding =>
    have later : s.serial ≤ s.serial + 1 + 1 := by omega
    refine ⟨sound.budget.untried later rfl (fun _ same => same) fun row here => Or.inr ?_, ?_, ?_⟩
    · rw [List.mem_singleton.mp here]
      exact ⟨Nat.le_succ _, Nat.lt_succ_self _, rfl⟩
    · refine sound.coded.unaccepted later rfl (Or.inl rfl) (Or.inl rfl) fun row here secret known => Or.inr ?_
      rw [List.mem_singleton.mp here] at known
      cases known
      exact ⟨Nat.le_refl _, by show s.serial < s.serial + 1 + 1; omega⟩
    · refine { guarded with
        challenge := fun row here => ?_
        session := fun row here => Nat.lt_of_lt_of_le (guarded.session row here) later
        holder := nofun }
      rw [List.mem_singleton.mp here]
      exact (valid _ holding).1
  | loginCommit =>
    refine ⟨sound.budget.untried (Nat.le_succ _) rfl (fun _ same => same) fun row here => Or.inl here, ?_, ?_⟩
    · exact sound.coded.unaccepted (Nat.le_succ _) rfl (Or.inl rfl) (Or.inl rfl) fun row here _ known =>
        Or.inl ⟨row, here, known⟩
    · refine { guarded with session := fun row here => ?_, holder := nofun }
      rcases newSession_mem here with before | new
      · exact Nat.lt_succ_of_lt (guarded.session row before)
      · rw [new]
        exact Nat.lt_succ_self _

theorem changeCommit (effect : Effect hasher settings now s (.changeCommit : AdminEvent P H C) result) :
    Sound hasher result.2 := by
  cases effect with
  | refused => exact sound
  | changeCommit clears =>
    refine ⟨sound.budget.untried (Nat.le_succ _) rfl (fun _ same => same) fun row here => ?_, ?_, ?_⟩
    · exact Or.inl (List.mem_filter.mp here).1
    · refine sound.coded.unaccepted (Nat.le_succ _) rfl (Or.inl ?_) ?_ fun row here secret known => ?_
      · unfold AuthDb.factorRow
        cases clears with
        | false => rfl
        | true => cases s.factor <;> simp [AuthDb.advanceEpoch, AdministratorFactor.withoutPending]
      · unfold AuthDb.factorRow
        cases clears with
        | false => exact Or.inl rfl
        | true =>
          refine Or.inr ?_
          cases s.factor <;> simp [AuthDb.advanceEpoch, AdministratorFactor.withoutPending]
      · exact Or.inl ⟨row, (List.mem_filter.mp here).1, known⟩
    · refine ⟨sound.guarded.read, fun row here => ?_, fun row here => ?_, nofun⟩
      · exact sound.guarded.challenge row (List.mem_filter.mp here).1
      · exact Nat.lt_succ_of_lt (sound.guarded.session row (List.mem_filter.mp here).1)

theorem apply {event : AdminEvent P H C}
    (allowed : event.Allowed s (s.apply hasher settings now event).2) (orderly : Orderly settings now s event) :
    Sound hasher (s.apply hasher settings now event).2 := by
  have effect := apply_effect hasher settings now s event
  generalize s.apply hasher settings now event = result at effect allowed ⊢
  have whole := effect
  cases effect with
  | refused => exact sound
  | read valid =>
    refine ⟨{ sound.budget with }, { sound.coded with }, { sound.guarded with read := fun read here => ?_ }⟩
    rcases List.mem_cons.mp here with rfl | before
    · exact valid
    · exact sound.guarded.read read before
  | lockLogin current =>
    refine ⟨{ sound.budget with }, { sound.coded with }, { sound.guarded with holder := fun holder same => ?_ }⟩
    cases same
    exact ⟨sound.guarded.read _ allowed, current⟩
  | lockChange =>
    refine ⟨sound.budget.untried (Nat.le_succ _) rfl (fun _ same => same) fun row here => Or.inl here, ?_, ?_⟩
    · exact sound.coded.unaccepted (Nat.le_succ _) rfl (Or.inl rfl) (Or.inl rfl) fun row here _ known =>
        Or.inl ⟨row, here, known⟩
    · refine { sound.guarded with
        session := fun row here => Nat.lt_succ_of_lt (sound.guarded.session row here)
        holder := fun holder same => ?_ }
      cases same
      trivial
  | advance done => exact ⟨{ sound.budget with }, { sound.coded with }, sound.guarded.advance done⟩
  | loginChallenge | loginBarred | loginEnroll | loginCommit => exact sound.loginCommit whole
  | changeCommit => exact sound.changeCommit whole
  | rollback => exact ⟨{ sound.budget with }, { sound.coded with }, { sound.guarded with holder := nofun }⟩
  | unanswered | attempt | completeLogin => exact sound.completeLogin whole allowed orderly
  | expired | logout =>
    exact sound.quiet allowed (Nat.le_refl _) rfl rfl rfl rfl (fun _ same => same)
      (fun row there => ⟨row, (List.mem_filter.mp there).1, rfl⟩) (fun row there => there) (Or.inl rfl) (Or.inl rfl)
  | authenticate =>
    refine sound.quiet allowed (Nat.le_refl _) rfl rfl rfl rfl (fun _ same => same) (fun row there => ?_)
      (fun row there => there) (Or.inl rfl) (Or.inl rfl)
    obtain ⟨old, before, rfl⟩ := List.mem_map.mp there
    refine ⟨old, before, ?_⟩
    split <;> rfl
  | beginTotp => exact sound.beginTotp whole allowed
  | confirmTotp => exact sound.confirmTotp whole allowed
  | updateTotp => exact sound.updateTotp whole allowed
  | relaxPolicy | updatePolicy => exact sound.updatePolicy whole allowed
  | setAdministrator =>
    exact sound.quiet allowed (Nat.le_trans (Nat.le_succ _) (Nat.le_succ _)) rfl rfl rfl rfl (fun _ same => same)
      (fun row there => ⟨row, there, rfl⟩) (fun row there => there) (Or.inl rfl) (Or.inl rfl)
  | resetAdministrator =>
    exact sound.quiet allowed (Nat.le_trans (Nat.le_succ _) (Nat.le_succ _)) rfl rfl rfl rfl nofun nofun nofun
      (Or.inr rfl) (Or.inr rfl)
  | sweepWindow =>
    refine sound.quiet allowed (Nat.le_refl _) rfl rfl rfl rfl (fun window there => ?_)
      (fun row there => ⟨row, there, rfl⟩) (fun row there => there) (Or.inl rfl) (Or.inl rfl)
    exact (Option.filter_eq_some_iff.mp there).1

end

end Sound

theorem Sound.reaches [DecidableEq H] (sound : Sound hasher s)
    (reach : Reaches (Orderly settings) hasher settings s t) :
    Sound hasher t := by
  induction reach with
  | refl => exact sound
  | step now _ allowed orderly ih => exact ih.apply allowed orderly

/-- The password check behind a session, and the hash that it was made against. -/
def AdminEvent.credential (s : AuthDb P H) : AdminEvent P H C → Option (P × H)
  | .loginCommit =>
    match s.holder with
    | some (.loginPolicy password hashed _ _) => some (password, hashed)
    | _ => none
  | .completeLogin token _ =>
    (s.challenges.find? (·.token == token)).map fun challenge => (challenge.password, challenge.credentialHash)
  | _ => none

/-- A code of the secret in force is accepted, or the first one of a secret that comes into force. -/
def Answered (settings : AuthSettings C) (now : Nat) (s t : AuthDb P H) (code : C) : Prop :=
  ∃ administrator secret, t.administrator = some administrator ∧ t.secret = some secret ∧
    ((∃ row next proof, s.factor = some row ∧ row.factor.secret = some secret ∧
      OneTimeCodes.verify settings.scheme now administrator.username code row.factor = some (next, proof)) ∨
      ∃ step, findStep settings.scheme now secret code (-1) = some step)

/-- How a session is issued: its password was checked against the hash in force when that is committed, and with a
secret in force, a code of it was accepted. -/
structure Issues (hasher : PasswordHash P H) (settings : AuthSettings C) (now : Nat) (s t : AuthDb P H)
    (event : AdminEvent P H C) : Prop where
  credential : ∃ password hashed, event.credential s = some (password, hashed) ∧
    hasher.verify password hashed = true ∧
    t.administrator.map Administrator.passwordHash = some hashed
  factor : t.secret = none ∨ ∃ token code, event = .completeLogin token code ∧ Answered settings now s t code

theorem Sound.completes [DecidableEq H] (sound : Sound hasher s) {token : Nat} {code : C}
    {challenge : OperatorChallenge P H} {administrator : Administrator H} {window : LoginWindow}
    {factor : AdministratorFactor} {proof : Proof} (found : s.challenges.find? (·.token == token) = some challenge)
    (alive : s.live now challenge = some administrator) (consumed : s.consumeFactorAttempt now = .ok (t, window))
    (right : AuthDb.checkCode settings now administrator.username challenge code t = .ok (some (factor, proof))) :
    Issues hasher settings now s (t.complete settings now challenge window factor proof)
    (.completeLogin token code) := by
  obtain ⟨current, hashed, -⟩ := live_some alive
  obtain ⟨-, same⟩ := consumeFactorAttempt_frame consumed
  obtain ⟨administrators, stored, -⟩ := @AuthDb.complete_frame P H C settings now t challenge window factor proof
  have signed : (t.complete settings now challenge window factor proof).administrator = some administrator := by
    rw [administrators, same]
    exact current
  have secret : (t.complete settings now challenge window factor proof).secret = factor.factor.secret := by
    rw [AuthDb.secret, stored, bind_some]
  refine ⟨⟨challenge.password, challenge.credentialHash, ?_, ?_, ?_⟩, ?_⟩
  · rw [AdminEvent.credential, found, map_some]
  · exact sound.guarded.challenge challenge (List.mem_of_find?_eq_some found)
  · rw [signed, map_some, hashed]
  · cases enabled : factor.factor.secret with
    | none => exact Or.inl (secret.trans enabled)
    | some known =>
      refine Or.inr ⟨token, code, rfl, administrator, known, signed, secret.trans enabled, ?_⟩
      rcases checkCode_ok right with ⟨row, here, verified⟩ | ⟨new, -, -, -, enrolled⟩
      · obtain ⟨next, accepted, rfl⟩ := verifyFactor_ok verified
        refine Or.inl ⟨row, next, proof, ?_, ?_, accepted⟩
        · rw [same] at here
          exact here
        · exact (verify_secret accepted).1.symm.trans enabled
      · obtain ⟨step, first, -, rfl⟩ := enroll_ok enrolled
        cases enabled
        exact Or.inr ⟨step, first⟩

variable {event : AdminEvent P H C}

theorem Sound.apply_session [DecidableEq H] (sound : Sound hasher s) (orderly : Orderly settings now s event) :
    s.serial ≤ (s.apply hasher settings now event).2.serial ∧
      ∀ row ∈ (s.apply hasher settings now event).2.sessions, (∃ old ∈ s.sessions, old.token = row.token) ∨
        s.serial ≤ row.token ∧ Issues hasher settings now s (s.apply hasher settings now event).2 event := by
  have quiet : ∀ t : AuthDb P H, s.serial ≤ t.serial →
      (∀ row ∈ t.sessions, ∃ old ∈ s.sessions, old.token = row.token) →
      s.serial ≤ t.serial ∧ ∀ row ∈ t.sessions, (∃ old ∈ s.sessions, old.token = row.token) ∨
        s.serial ≤ row.token ∧ Issues hasher settings now s t event :=
    fun t serial session => ⟨serial, fun row here => Or.inl (session row here)⟩
  have same : ∀ row ∈ s.sessions, ∃ old ∈ s.sessions, old.token = row.token := fun row here => ⟨row, here, rfl⟩
  have fewer : ∀ kept : OperatorSession → Bool, ∀ row ∈ s.sessions.filter kept, ∃ old ∈ s.sessions,
      old.token = row.token :=
    fun kept row here => ⟨row, (List.mem_filter.mp here).1, rfl⟩
  have effect := apply_effect hasher settings now s event
  generalize s.apply hasher settings now event = result at effect ⊢
  cases effect with
  | loginCommit holding =>
    have ⟨valid, current⟩ := sound.guarded.holder _ holding
    refine ⟨Nat.le_succ _, fun row here => ?_⟩
    rcases newSession_mem here with old | new
    · exact Or.inl ⟨row, old, rfl⟩
    · refine Or.inr ⟨Nat.le_of_eq new.symm, ⟨_, _, ?_, valid, current⟩, Or.inl ?_⟩
      · rw [AdminEvent.credential, holding]
      · exact orderly _ _ holding
  | attempt error found alive consumed =>
    obtain ⟨serial, frame⟩ := consumeFactorAttempt_frame consumed
    refine quiet _ serial fun row here => ?_
    rw [frame] at here
    exact same row here
  | @completeLogin _ _ challenge _ t window factor proof found alive consumed right =>
    obtain ⟨serial, frame⟩ := consumeFactorAttempt_frame consumed
    have later := (@AuthDb.complete_frame P H C settings now t challenge window factor proof).2.2.2.2.2.2.2.2
    refine ⟨Nat.le_trans serial (Nat.le_of_lt (Nat.lt_of_le_of_lt (Nat.le_add_right _ 10) later)),
      fun row here => ?_⟩
    rcases complete_session here with ⟨-, old⟩ | ⟨drawn, -⟩
    · rw [frame] at old
      exact Or.inl (same row old)
    · exact Or.inr ⟨Nat.le_trans serial drawn, sound.completes found alive consumed right⟩
  | authenticate =>
    refine quiet _ (Nat.le_refl _) fun row here => ?_
    obtain ⟨old, there, rfl⟩ := List.mem_map.mp here
    refine ⟨old, there, ?_⟩
    split <;> rfl
  | refused | read | lockLogin | advance | loginBarred | rollback | unanswered | sweepWindow =>
    exact quiet _ (Nat.le_refl _) same
  | lockChange | loginChallenge => exact quiet _ (Nat.le_succ _) same
  | loginEnroll | beginTotp | setAdministrator => exact quiet _ (Nat.le_trans (Nat.le_succ _) (Nat.le_succ _)) same
  | resetAdministrator => exact quiet _ (Nat.le_trans (Nat.le_succ _) (Nat.le_succ _)) nofun
  | expired | logout => exact quiet _ (Nat.le_refl _) (fewer _)
  | changeCommit | relaxPolicy | updatePolicy => exact quiet _ (Nat.le_succ _) (fewer _)
  | confirmTotp | updateTotp => exact quiet _ (Nat.le_trans (Nat.le_add_right _ _) (Nat.le_succ _)) (fewer _)

/-- The session that stays when an operation ends the others. -/
def AdminEvent.keeps (s : AuthDb P H) : AdminEvent P H C → Option (Option Nat)
  | .changeCommit => some none
  | .setAdministrator _ _ reset => if reset && s.administrator.isSome then some none else none
  | .confirmTotp session _ => some (some session)
  | .updateTotp session _ _ _ => some (some session)
  | .updatePolicy session _ _ _ => some (some session)
  | .completeLogin token _ =>
    if (s.challenges.find? (·.token == token)).any (·.kind == .enroll) then some none else none
  | _ => none

theorem Sound.revokes [DecidableEq H] (sound : Sound hasher s) {keep : Option Nat}
    (which : event.keeps s = some keep)
    (ok : (s.apply hasher settings now event).1 = .ok ()) :
    ∀ row ∈ (s.apply hasher settings now event).2.sessions, keep = some row.token ∨ s.serial ≤ row.token := by
  have only : ∀ {session : Nat} {row : OperatorSession}, keep = some session →
      row ∈ s.sessions.filter (·.token == session) → keep = some row.token := by
    intro session row same here
    have hit := (List.mem_filter.mp here).2
    rw [beq_iff_eq] at hit
    rw [same, hit]
  have effect := apply_effect hasher settings now s event
  generalize s.apply hasher settings now event = result at effect ok ⊢
  intro row here
  cases effect with
  | refused => cases ok
  | changeCommit clears holding =>
    -- every session was seen by the deletion
    obtain ⟨there, unseen⟩ := List.mem_filter.mp here
    have seen := (sound.guarded.holder _ holding).1 row there
    simp [seen] at unseen
  | setAdministrator absent =>
    rw [AdminEvent.keeps, absent, isSome_none, Bool.and_false] at which
    cases which
  | resetAdministrator => cases here
  | confirmTotp | updateTotp | relaxPolicy | updatePolicy => exact Or.inl (only (Option.some.inj which).symm here)
  | unanswered | attempt => cases ok
  | completeLogin found alive consumed right =>
    have serial := (consumeFactorAttempt_frame consumed).1
    rcases complete_session here with ⟨verifies, -⟩ | ⟨drawn, -⟩
    · rw [AdminEvent.keeps, found, any_some, verifies] at which
      cases which
    · exact Or.inr (Nat.le_trans serial drawn)
  | _ => cases which

/-- Where a session comes from: a step of the run that issued it with the proof that is asked for. -/
structure Origin [DecidableEq H] (rule : Nat → AuthDb P H → AdminEvent P H C → Prop) (hasher : PasswordHash P H)
    (settings : AuthSettings C) (start s : AuthDb P H) (token : Nat) (before : AuthDb P H)
    (event : AdminEvent P H C)
    (now : Nat) : Prop where
  reach : Reaches rule hasher settings start before
  allowed : event.Allowed before (before.apply hasher settings now event).2
  follows : rule now before event
  absent : ∀ old ∈ before.sessions, old.token ≠ token
  issued : ∃ new ∈ (before.apply hasher settings now event).2.sessions, new.token = token
  issues : Issues hasher settings now before (before.apply hasher settings now event).2 event
  later : Reaches rule hasher settings (before.apply hasher settings now event).2 s

/-- What an administrator's sessions prove in a state of a run. -/
structure Proven [DecidableEq H] (rule : Nat → AuthDb P H → AdminEvent P H C → Prop) (hasher : PasswordHash P H)
    (settings : AuthSettings C) (start s : AuthDb P H) : Prop where
  /-- A session that authenticates was issued against the hash, and with a code of the secret, in force. -/
  issued : ∀ token now, (s.authenticate settings now token).1 = .ok () →
    ∃ before event time, Origin rule hasher settings start s token before event time
  /-- What was issued before a change does not authenticate after it, the acting session apart. -/
  revoked : ∀ (event : AdminEvent P H C) (now : Nat) (keep : Option Nat),
    event.Allowed s (s.apply hasher settings now event).2 → rule now s event → event.keeps s = some keep →
    (s.apply hasher settings now event).1 = .ok () →
    ∀ later, Reaches rule hasher settings (s.apply hasher settings now event).2 later →
    ∀ row ∈ s.sessions, keep ≠ some row.token → ∀ time, (later.authenticate settings time row.token).1 ≠ .ok ()
  /-- A step of a secret or a recovery code is accepted once. -/
  once : s.accepted.Nodup
  windows : ∀ window, triedIn s.tried window ≤ 10
  challenges : ∀ challenge, triedAgainst s.tried challenge ≤ 5

/-- A store with its administrator and its second factor, before anything has begun. -/
structure Initial (s : AuthDb P H) : Prop where
  factor : ∀ owner, Fresh [] s.serial owner s.factorRow.factor
  pending : ∀ secret, s.factorRow.pendingSecret = some secret →
    ∀ owner, Pending [] s.serial owner s.factorRow.factor secret
  window : ∀ window, s.window = some window → window.id < s.serial ∧ window.attempts = 0
  sessions : s.sessions = []
  challenges : s.challenges = []
  reads : s.reads = []
  holder : s.holder = none
  accepted : s.accepted = []
  tried : s.tried = []

theorem Initial.sound (initial : Initial s) : Sound hasher s where
  budget :=
    { window := initial.tried ▸ initial.window
      challenge := initial.challenges ▸ nofun
      known := initial.tried ▸ nofun
      windows := initial.tried ▸ fun _ => Nat.zero_le _
      challenges := initial.tried ▸ fun _ => Nat.zero_le _ }
  coded :=
    { ledger := initial.accepted ▸ ⟨List.nodup_nil, nofun⟩
      factor := initial.accepted ▸ initial.factor
      pending := initial.accepted ▸ initial.pending
      challenge := initial.challenges ▸ nofun }
  guarded :=
    { read := initial.reads ▸ nofun
      challenge := initial.challenges ▸ nofun
      session := initial.sessions ▸ nofun
      holder := initial.holder ▸ nofun }

theorem Reaches.origin [DecidableEq H] (initial : Initial s)
    (reach : Reaches (Orderly settings) hasher settings s t) :
    ∀ row ∈ t.sessions, ∃ before event now,
      Origin (Orderly settings) hasher settings s t row.token before event now := by
  induction reach with
  | refl =>
    intro row here
    rw [initial.sessions] at here
    cases here
  | @step t event now before allowed orderly ih =>
    intro row here
    have sound : Sound hasher t := initial.sound.reaches before
    rcases (sound.apply_session orderly).2 row here with ⟨old, there, same⟩ | ⟨drawn, issues⟩
    · obtain ⟨first, login, time, origin⟩ := ih old there
      rw [same] at origin
      exact ⟨first, login, time, { origin with later := origin.later.step now allowed orderly }⟩
    · refine ⟨t, event, now, before, allowed, orderly, fun old there same => ?_, ⟨row, here, rfl⟩, issues, .refl⟩
      have below := sound.guarded.session old there
      omega

theorem Sound.gone [DecidableEq H] (sound : Sound hasher s) (reach : Reaches (Orderly settings) hasher settings s t)
    {token : Nat} (drawn : token < s.serial) (absent : ∀ row ∈ s.sessions, row.token ≠ token) :
    token < t.serial ∧ ∀ row ∈ t.sessions, row.token ≠ token := by
  induction reach with
  | refl => exact ⟨drawn, absent⟩
  | @step t event now before allowed orderly ih =>
    obtain ⟨below, gone⟩ := ih
    have ⟨serial, session⟩ := (sound.reaches before).apply_session orderly
    refine ⟨Nat.lt_of_lt_of_le below serial, fun row here same => ?_⟩
    rcases session row here with ⟨old, there, known⟩ | ⟨fresh, -⟩
    · exact gone old there (known.trans same)
    · omega

/-- The sessions of the administrator carry the proof that is asked for, in every orderly run. -/
theorem Reaches.proven [DecidableEq H] (initial : Initial s)
    (reach : Reaches (Orderly settings) hasher settings s t) :
    Proven (Orderly settings) hasher settings s t := by
  have sound : Sound hasher t := initial.sound.reaches reach
  refine
    { issued := fun token now ok => ?_
      revoked := fun event now keep allowed orderly which ok later after row here other time ok' => ?_
      once := sound.coded.ledger.nodup
      windows := sound.budget.windows
      challenges := sound.budget.challenges }
  · obtain ⟨row, here, rfl⟩ := authenticate_mem ok
    exact reach.origin initial row here
  · have kept := sound.revokes which ok
    have drawn := sound.guarded.session row here
    have next := sound.apply allowed orderly
    have serial := (sound.apply_session orderly).1
    have gone := next.gone after (Nat.lt_of_lt_of_le drawn serial) fun old there same => by
      rcases kept old there with keeps | fresh
      · exact other (keeps.trans (congrArg some same))
      · omega
    obtain ⟨found, there, same⟩ := authenticate_mem ok'
    exact gone.2 found there same

section Example

/-- A hasher that keeps the salt and the password. -/
def clearHasher : PasswordHash String (Nat × String) where
  verify password hashed := password == hashed.2
  hash salt password := (salt, password)
  outdated _ := false

def clearSettings : AuthSettings Nat where
  scheme := ⟨fun _ _ => none, fun secret step code => code == 1000 * secret + step.toNat⟩
  cipher := true
  sessionLifetime := 3600
  sessionIdle := 600

abbrev Panel := AuthDb String (Nat × String)

def next (s : Panel) (now : Nat) (event : AdminEvent String (Nat × String) Nat) : Panel :=
  (s.apply clearHasher clearSettings now event).2

/-- An administrator with a second factor. -/
def enrolledPanel : Panel where
  administrator := some ⟨"root", (0, "old password")⟩
  factor := some { factor := { secret := some 1 } }
  serial := 2

/-- A login before its commit. -/
def loginPanel : Panel :=
  next (next (next (next enrolledPanel 100 (.read (some "root") "old password"))
    100 (.lockLogin "old password" (0, "old password"))) 100 .advance) 100 .advance

/-- Its challenge is answered. -/
def signedPanel : Panel :=
  next (next loginPanel 100 .loginCommit) 102 (.completeLogin 2 1003)

/-- The same challenge, answered while a change of the password has deleted the sessions. -/
def changingPanel : Panel :=
  next (next (next (next (next (next (next loginPanel 100 .loginCommit) 101 (.read none "old password"))
    101 (.lockChange "old password" (0, "old password") "new password")) 101 .advance) 102 (.completeLogin 2 1003))
    103 .advance) 103 .advance

theorem enrolledPanel_initial : Initial enrolledPanel where
  factor owner := ⟨fun secret same => by cases same; decide, nofun, nofun, nofun⟩
  pending := nofun
  window := nofun
  sessions := rfl
  challenges := rfl
  reads := rfl
  holder := rfl
  accepted := rfl
  tried := rfl

theorem signedPanel_proven :
    Proven (Orderly clearSettings) clearHasher clearSettings enrolledPanel signedPanel := by
  refine Reaches.proven enrolledPanel_initial
    (.step 102 (.step 100 (.step 100 (.step 100 (.step 100 (.step 100 .refl
    trivial trivial) ?_ trivial) trivial trivial) trivial trivial) trivial ?_) ?_ ?_)
  · exact List.mem_singleton.mpr rfl
  · intro password hashed holding
    cases holding
  · intro holder holding
    cases holding
  · intro hashed sessions holding
    cases holding

/-- A session that is issued between the deletion of the sessions and the commit of the new password outlives it. -/
theorem changingPanel_unproven : Reaches (fun _ _ _ => True) clearHasher clearSettings enrolledPanel changingPanel ∧
    ¬ Proven (fun _ _ _ => True) clearHasher clearSettings enrolledPanel changingPanel := by
  constructor
  · refine .step 103 (.step 103
      (.step 102 (.step 101 (.step 101 (.step 101 (.step 100 (.step 100 (.step 100 (.step 100
      (.step 100 .refl trivial trivial) ?_ trivial) trivial trivial) trivial trivial) trivial trivial)
        trivial trivial)
      ?_ trivial) trivial trivial) ?_ trivial) trivial trivial) trivial trivial
    · exact List.mem_singleton.mpr rfl
    · exact List.mem_cons_self
    · intro holder holding
      cases holding
      exact ⟨rfl, nofun, nofun, nofun⟩
  · intro proven
    have survives : ((next changingPanel 103 .changeCommit).authenticate clearSettings 104 15).1 = .ok () := by
      decide
    have here : (⟨15, 3702, 102⟩ : OperatorSession) ∈ changingPanel.sessions := by decide
    exact proven.revoked .changeCommit 103 none trivial trivial rfl (by decide) _ .refl _ here nofun 104 survives

end Example

end OpenNode.Administration
