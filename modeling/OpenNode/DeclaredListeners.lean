import OpenNode.AccessUsers
import OpenNode.MihomoAgreement

namespace OpenNode.ManagedProtocols

open Raising Loops

section Journals

variable {encoding : Encoding} {P : Option ManagedProtocolsRequest → Prop}

theorem stop_keeps {rest : MihomoProgram} (next : rest.Keeps fun host => P host.journal) :
    (stop rest).Keeps fun host => P host.journal := by
  intro host _
  dsimp only
  split
  · exact ⟨fun _ => id, fun _ => id, fun _ => id, next⟩
  · exact ⟨fun _ => id, next⟩

theorem start_keeps : start.Keeps fun host => P host.journal := by
  intro host _
  dsimp only
  split
  · trivial
  refine ⟨fun _ => id, ?_⟩
  split
  · trivial
  · exact ⟨fun _ => id, ⟨fun _ => id, fun _ => id, trivial⟩, fun _ => stop_keeps trivial, fun _ => id, trivial⟩

theorem activateConfig_keeps (activate wasRunning : Bool) :
    (activateConfig activate wasRunning).Keeps fun host => P host.journal := by
  unfold activateConfig
  split
  · split
    · exact stop_keeps start_keeps
    · exact start_keeps
  · split
    · exact stop_keeps trivial
    · trivial

theorem require_keeps {Q : MihomoHost → Prop} {holds : Bool} {message : String} {rest : MihomoProgram}
    (next : holds = true → rest.Keeps Q) : (require holds message rest).Keeps Q := by
  unfold require
  split
  · exact next ‹_›
  · trivial

theorem write_keeps (content : MihomoConfig) (activate : Bool) (expected : Option MihomoConfig) :
    (write encoding content activate expected).Keeps fun host => P host.journal := by
  refine require_keeps fun _ => ⟨fun _ => id, fun host _ => require_keeps fun _ => ⟨fun _ => id, ?_⟩⟩
  refine ⟨activateConfig_keeps _ _, fun error later _ => ?_, trivial⟩
  dsimp only
  split
  · refine ⟨fun _ => id, ?_⟩
    split
    · exact ⟨start_keeps, fun _ => trivial, trivial⟩
    · trivial
  · trivial

theorem load_keeps {rest : Option ManagedProtocolsRequest → MihomoProgram}
    (next : ∀ journal, P journal → (rest journal).Keeps fun host => P host.journal) :
    (load encoding rest).Keeps fun host => P host.journal :=
  ⟨fun _ => id, fun host held => require_keeps fun _ => next host.journal held⟩

theorem inspectXray_keeps {Q : MihomoHost → Prop} {listeners : List ManagedListener} {xray : XrayView}
    {rest : MihomoProgram}
    (next : rest.Keeps Q) : (inspectXray listeners xray rest).Keeps Q := by
  cases xray with
  | absent => exact next
  | unreadable error => trivial
  | inbounds items => exact require_keeps fun _ => require_keeps fun _ => next

theorem ensureStarted_keeps (xray : XrayView) : (ensureStarted encoding xray).Keeps fun host => P host.journal := by
  refine load_keeps fun journal _ => ⟨?_, fun error host _ => ?_, require_keeps fun _ =>
    ⟨fun _ => id, fun host _ => ?_⟩⟩
  · cases journal with
    | none => trivial
    | some request => exact ⟨fun _ => id, inspectXray_keeps trivial⟩
  · dsimp only
    split
    · exact stop_keeps trivial
    · trivial
  · dsimp only
    split
    · exact write_keeps _ _ _
    split
    · split
      · exact start_keeps
      split
      · exact stop_keeps start_keeps
      · trivial
    split
    · exact stop_keeps trivial
    · trivial

theorem apply_keeps (xray : XrayView) (request : ManagedProtocolsRequest) (mine : P (some request)) :
    (apply encoding xray request).Keeps fun host => P host.journal := by
  refine load_keeps fun previous known => ?_
  split
  · exact inspectXray_keeps trivial
  refine inspectXray_keeps (require_keeps fun _ => ⟨fun _ => id, fun _ => id, fun host _ => ?_⟩)
  have restored (config : MihomoConfig) (error : Error String) :
      (restoreRuntime
        (active encoding previous fun activate =>
          write encoding config activate (some (compileConfig request.toDeclaration)))
        "Managed protocol state write failed and runtime rollback needs review"
        (.step (MihomoHost.writeState previous) (.raise error))).Keeps fun host => P host.journal := by
    refine ⟨?_, fun _ => trivial, fun _ _ => known, trivial⟩
    cases previous with
    | none => exact load_keeps fun _ _ => write_keeps _ _ _
    | some before => exact write_keeps _ _ _
  refine (write_keeps _ _ _).seq ⟨⟨fun _ _ => mine, trivial⟩, fun error => ?_, trivial⟩
  split
  · exact restored _ error
  · exact require_keeps fun _ => restored _ error
  · exact require_keeps fun _ => restored _ error

theorem replaceRequest_keeps {changed review : String} {request expected : ManagedProtocolsRequest}
    (next : P (some expected) → P (some request)) :
    (replaceRequest encoding changed review request expected).Keeps fun host => P host.journal := by
  refine load_keeps fun current known => require_keeps fun same => ⟨fun _ => id, fun host _ => ?_⟩
  rw [eq_of_beq same] at known
  dsimp only
  split
  · trivial
  refine require_keeps fun _ => (write_keeps _ _ _).seq ⟨⟨fun _ _ => next known, trivial⟩, fun error => ?_, trivial⟩
  exact ⟨write_keeps _ _ _, fun _ => trivial, trivial⟩

end Journals

/-- Two listeners that differ in their users at most. -/
def SameButUsers (a b : ManagedListener) : Prop :=
  b = { a with users := b.users }

theorem SameButUsers.symm {a b : ManagedListener} (same : SameButUsers a b) : SameButUsers b a := by
  rw [SameButUsers, same]

theorem SameButUsers.trans {a b c : ManagedListener} (first : SameButUsers a b) (second : SameButUsers b c) :
    SameButUsers a c := by
  rw [SameButUsers, second, first]

/-- A request whose revision the controller computed. -/
def Computed (digest : List ManagedListener → String) (request : ManagedProtocolsRequest) : Prop :=
  request.revision = digest request.listeners

/-- The states of an Agent between its operations, and whether access changes were
made since the journalled declaration was written. -/
inductive Declares (encoding : Encoding) (digest : List ManagedListener → String) : Bool → MihomoHost → Prop where
  | fresh : Declares encoding digest false ⟨none, none, none, none⟩
  | applied {altered : Bool} {host after : MihomoHost} (request : ManagedProtocolsRequest) (xray : XrayView)
      (effects : Nat → Effect) (computed : Computed digest request)
        (declares : Declares encoding digest altered host)
      (ends : after = settle ((apply encoding xray request).run effects host)) :
      Declares encoding digest (altered && decide (after.journal ≠ some request)) after
  | committed {altered : Bool} {host : MihomoHost} (expected candidate : ManagedProtocolsRequest)
      (entries : List AccessEntry)
      (effects : Nat → Effect) (found : accessCandidate (some expected) entries = .ok (some candidate))
      (declares : Declares encoding digest altered host) :
      Declares encoding digest true (settle ((commitRequest encoding candidate expected).run effects host))
  | rolledBack {altered : Bool} {host : MihomoHost} (previous expected : ManagedProtocolsRequest)
      (entries : List AccessEntry)
      (effects : Nat → Effect) (found : accessCandidate (some previous) entries = .ok (some expected))
      (declares : Declares encoding digest altered host) :
      Declares encoding digest true (settle ((rollbackRequest encoding previous expected).run effects host))
  | restarted {altered : Bool} {host : MihomoHost} (xray : XrayView) (effects : Nat → Effect)
      (declares : Declares encoding digest altered host) :
      Declares encoding digest altered (settle ((ensureStarted encoding xray).run effects host))
  | killed {altered : Bool} {host : MihomoHost} (declares : Declares encoding digest altered host) :
      Declares encoding digest altered host.clear

/-- A journal of a declaration of the controller, with the users that access changes have left. -/
def Journalled (digest : List ManagedListener → String) (altered : Bool)
    (journal : Option ManagedProtocolsRequest) : Prop :=
  ∀ current, journal = some current → ∃ request, Computed digest request ∧ current.revision = request.revision ∧
    List.Forall₂ SameButUsers request.listeners current.listeners ∧
      (altered = false → current.listeners = request.listeners)

section Runs

variable {encoding : Encoding} {digest : List ManagedListener → String} {altered : Bool} {host : MihomoHost}

theorem sameButUsers_refl (listeners : List ManagedListener) : List.Forall₂ SameButUsers listeners listeners :=
  List.forall₂_same.mpr fun _ _ => rfl

theorem Journalled.weaken {journal : Option ManagedProtocolsRequest} (known : Journalled digest altered journal) :
    Journalled digest true journal := fun current found =>
  (known current found).imp fun _ facts => ⟨facts.1, facts.2.1, facts.2.2.1, nofun⟩

theorem Computed.journalled {request : ManagedProtocolsRequest} (computed : Computed digest request) :
    Journalled digest altered (some request) := by
  rintro _ ⟨⟩
  exact ⟨request, computed, rfl, sameButUsers_refl _, fun _ => rfl⟩

theorem accessCandidate_same {before now : ManagedProtocolsRequest} {entries : List AccessEntry}
    (found : accessCandidate (some before) entries = .ok (some now)) :
    now.revision = before.revision ∧ List.Forall₂ SameButUsers before.listeners now.listeners := by
  obtain ⟨revision, run⟩ := accessCandidate_ok found
  refine ⟨revision, run.imp fun old new ran => ?_⟩
  obtain ⟨users, -, rfl⟩ := ran
  rfl

theorem Journalled.replace {before now : ManagedProtocolsRequest} (known : Journalled digest true (some before))
    (revision : now.revision = before.revision) (same : List.Forall₂ SameButUsers before.listeners now.listeners) :
    Journalled digest true (some now) := by
  rintro _ ⟨⟩
  obtain ⟨request, computed, sameRevision, listeners, -⟩ := known before rfl
  exact ⟨request, computed, revision.trans sameRevision,
    forall₂_trans (fun _ _ _ first second => first.trans second) listeners same, nofun⟩

theorem settle_journal (outcome : MihomoHost × Ending String) : (settle outcome).journal = outcome.1.journal := by
  obtain ⟨after, _ | _ | _⟩ := outcome <;> rfl

theorem Declares.journalled (declares : Declares encoding digest altered host) :
    Journalled digest altered host.journal := by
  induction declares with
  | fresh => exact nofun
  | @applied altered host after request xray effects computed _ ends ih =>
    have kept : Journalled digest altered after.journal := by
      rw [ends, settle_journal]
      exact (apply_keeps xray request computed.journalled).run effects ih
    by_cases written : after.journal = some request
    · rw [written]
      exact computed.journalled
    · rwa [decide_eq_true written, Bool.and_true]
  | @committed _ _ _ _ _ effects found _ ih =>
    rw [settle_journal]
    obtain ⟨revision, same⟩ := accessCandidate_same found
    exact (replaceRequest_keeps fun known => known.replace revision same).run effects (Journalled.weaken ih)
  | @rolledBack _ _ _ _ _ effects found _ ih =>
    rw [settle_journal]
    obtain ⟨revision, same⟩ := accessCandidate_same found
    refine (replaceRequest_keeps fun known => known.replace revision.symm ?_).run effects (Journalled.weaken ih)
    exact same.flip.imp fun _ _ => SameButUsers.symm
  | restarted xray effects _ ih =>
    rw [settle_journal]
    exact (ensureStarted_keeps xray).run effects ih
  | killed _ ih => exact ih

theorem Declares.reaches (declares : Declares encoding digest altered host) : Reaches encoding host := by
  induction declares with
  | fresh => exact .fresh
  | applied request xray effects _ _ ends ih => exact ends ▸ .operation (.apply xray request) effects ih
  | committed expected candidate _ effects _ _ ih => exact .operation (.commitRequest candidate expected) effects ih
  | rolledBack previous expected _ effects _ _ ih =>
    exact .operation (.rollbackRequest previous expected) effects ih
  | restarted xray effects _ ih => exact .operation (.ensureStarted xray) effects ih
  | killed _ ih => exact .killed ih

/-- An `apply` that returns leaves the declaration of its request in the journal. Where
the revision was journalled before, the users stay as access changes have left them. -/
theorem Declares.apply_returned
    (faithful : ∀ a b, Computed digest a → Computed digest b → a.revision = b.revision → a.listeners = b.listeners)
    (declares : Declares encoding digest altered host) (xray : XrayView) (request : ManagedProtocolsRequest)
    (computed : Computed digest request) (effects : Nat → Effect)
    (returned : ((apply encoding xray request).run effects host).2 = .returned) :
    ∃ journal, ((apply encoding xray request).run effects host).1.journal = some journal ∧
      journal.revision = request.revision ∧ List.Forall₂ SameButUsers request.listeners journal.listeners ∧
      (host.journal.all (fun before => before.revision != request.revision) = true → journal = request) ∧
      (host.journal.any (fun before => before.revision == request.revision) = true → host.journal = some journal) ∧
      (altered = false → journal.listeners = request.listeners) := by
  have ends := apply_assured encoding declares.reaches.sound xray request effects
  revert ends returned
  rcases (apply encoding xray request).run effects host with ⟨after, _ | error | _⟩ <;> intro returned ends
  · cases changes : MihomoOperation.changes host (.apply xray request) with
    | true =>
      refine ⟨request, (ends.1 changes).journal, rfl, sameButUsers_refl _, fun _ => rfl, fun known => ?_,
        fun _ => rfl⟩
      cases found : host.journal <;> simp_all [MihomoOperation.changes]
    | false =>
      obtain rfl := ends.2 changes
      cases found : after.journal with
      | none => simp [MihomoOperation.changes, found] at changes
      | some journal =>
        have revision : journal.revision = request.revision := by
          simpa [MihomoOperation.changes, found] using changes
        obtain ⟨declared, sound, same, listeners, exact⟩ := declares.journalled journal found
        have equal := faithful declared request sound computed (same.symm.trans revision)
        refine ⟨journal, rfl, revision, equal ▸ listeners, fun differs => ?_, fun _ => rfl,
          fun untouched => (exact untouched).trans equal⟩
        simp [revision] at differs
  · cases returned
  · cases returned

end Runs

section Examples

/-- A digest that tells the listeners of the first declaration from all others. -/
def firstDigest (listeners : List ManagedListener) : String :=
  if listeners = firstRequest.listeners then firstRequest.revision else ""

theorem firstDigest_faithful (a b : ManagedProtocolsRequest) (first : Computed firstDigest a)
    (second : Computed firstDigest b) (_ : a.revision = b.revision) : a.listeners = b.listeners := by
  have only (request : ManagedProtocolsRequest) (computed : Computed firstDigest request) :
      request.listeners = firstRequest.listeners := by
    by_contra other
    rw [Computed, firstDigest, if_neg other] at computed
    have valid := request.isValid
    rw [Declaration.valid, computed] at valid
    exact absurd valid (by simp [Lifecycle.matchesSha])
  exact (only a first).trans (only b second).symm

theorem firstRequest_computed : Computed firstDigest firstRequest :=
  (if_pos rfl).symm

/-- The first declaration has been applied. -/
def accessHost : MihomoHost :=
  settle ((apply smallEncoding .absent firstRequest).run Program.quiet ⟨none, none, none, none⟩)

theorem accessHost_declares : Declares smallEncoding firstDigest false accessHost :=
  .applied firstRequest .absent Program.quiet firstRequest_computed .fresh rfl

theorem accessHost_again :
    ∃ journal, ((apply smallEncoding .absent firstRequest).run Program.quiet accessHost).1.journal = some journal ∧
      journal.listeners = firstRequest.listeners := by
  obtain ⟨journal, found, -, -, -, -, same⟩ :=
    Declares.apply_returned firstDigest_faithful accessHost_declares .absent firstRequest firstRequest_computed
      Program.quiet (by decide +kernel)
  exact ⟨journal, found, same rfl⟩

/-- Alice is disabled and Bob enabled with her secret. -/
def handedHost : MihomoHost :=
  settle ((commitRequest smallEncoding handedOver firstRequest).run Program.quiet accessHost)

/-- The first declaration is sent again, and the handover stays in force. -/
theorem handedHost_resent : Declares smallEncoding firstDigest true handedHost ∧ Computed firstDigest firstRequest ∧
    ((apply smallEncoding .absent firstRequest).run Program.quiet handedHost).2 = .returned ∧
    ∃ journal, ((apply smallEncoding .absent firstRequest).run Program.quiet handedHost).1.journal = some journal ∧
      journal.listeners ≠ firstRequest.listeners :=
  ⟨.committed firstRequest handedOver handoverEntries Program.quiet
    (by decide +kernel) accessHost_declares, firstRequest_computed, by
      decide +kernel, handedOver, by decide +kernel,
    by decide +kernel⟩

end Examples

end OpenNode.ManagedProtocols
