import OpenNode.MihomoRuntime

namespace OpenNode.ManagedProtocols

open Raising MihomoHost

section Checks

variable {σ : Type} {s : σ} {K Q : σ → Prop} {R : Error String → σ → Prop} {p : Program σ String}

theorem require_assured {holds : Bool} {message : String} (refused : R (.raised message) s)
    (rest : holds = true → Assured K Q R p s) : Assured K Q R (require holds message p) s := by
  unfold require
  split
  · exact rest ‹_›
  · exact .raise refused

theorem readState_assured {encoding : Encoding} {journal : σ → Option ManagedProtocolsRequest}
    {rest : Option ManagedProtocolsRequest → Program σ String} (killed : K s) (raised : ∀ error, R error s)
    (next : Assured K Q R (rest (journal s)) s) : Assured K Q R (readState encoding journal rest) s :=
  .call killed (fun _ => raised _) (.read (require_assured (raised _) fun _ => next))

theorem inspectXray_assured {listeners : List ManagedListener} {xray : XrayView} (raised : ∀ error, R error s)
    (next : Assured K Q R p s) : Assured K Q R (inspectXray listeners xray p) s := by
  unfold inspectXray
  cases xray with
  | absent => exact next
  | unreadable error => exact .raise (raised _)
  | inbounds items => exact require_assured (raised _) fun _ => require_assured (raised _) fun _ => next

end Checks

/-- What holds of the host between any two steps. -/
structure MihomoHost.Sound (host : MihomoHost) : Prop where
  config : ∀ config, host.config = some config → config.Sound
  journalled : host.journal.isSome → host.config.isSome
  process : ∀ config, host.process = some config → config.Sound
  loaded : ∀ config, host.loaded = some config → host.process = some config

/-- The files are as they were. -/
structure Kept (before host : MihomoHost) : Prop where
  journal : host.journal = before.journal
  config : host.config = before.config
  sound : host.Sound

/-- The config file is as the journal asks, and so is the process. -/
structure Converged (host : MihomoHost) : Prop where
  config : host.config = some (declared host.journal)
  process : host.process = if (declared host.journal).listeners.isEmpty then none else some (declared host.journal)

section Processes

variable {s t : MihomoHost} {K Q : MihomoHost → Prop} {R : Error String → MihomoHost → Prop} {p : MihomoProgram}

theorem Kept.refl (sound : s.Sound) : Kept s s := ⟨rfl, rfl, sound⟩

theorem MihomoHost.Sound.clear (sound : s.Sound) : s.clear.Sound where
  config := sound.config
  journalled := sound.journalled
  process := nofun
  loaded := nofun

theorem Kept.clear (kept : Kept s t) : Kept s t.clear := ⟨kept.journal, kept.config, kept.sound.clear⟩

theorem stop_assured (kept : Kept s t) (killed : ∀ u, Kept s u → K u)
    (failed : ∀ cause u, Kept s u → R (.failed cause) u)
    (rest : Assured K Q R p t.clear) : Assured K Q R (stop p) t := by
  refine .read ?_
  split
  · refine .call (killed t kept) (fun cause => failed cause t kept) (.sure (killed t kept) ?_)
    exact .call (killed _ kept.clear) (fun cause => failed cause _ kept.clear) rest
  · exact .sure (killed t kept) rest

theorem MihomoHost.Sound.unloaded (sound : s.Sound) (idle : s.running = false) : s.loaded = none := by
  cases loaded : s.loaded with
  | none => rfl
  | some config => simp [MihomoHost.running, sound.loaded config loaded] at idle

theorem MihomoHost.Sound.spawn (sound : s.Sound) (idle : s.running = false) : s.spawn.Sound where
  config := sound.config
  journalled := sound.journalled
  process := sound.config
  loaded := by
    intro config loaded
    rw [MihomoHost.spawn, sound.unloaded idle] at loaded
    nomatch loaded

theorem MihomoHost.Sound.markLoaded {config : MihomoConfig} (sound : s.Sound) (running : s.process = some config) :
    (s.markLoaded config).Sound where
  config := sound.config
  journalled := sound.journalled
  process := sound.process
  loaded := by
    rintro _ ⟨⟩
    exact running

theorem start_assured (kept : Kept s t) : Assured (Kept s)
      (fun u => Kept s u ∧ (t.running = true → u.process = t.process) ∧ (t.running = false → u.process = s.config))
      (fun error u => asksReview error = false ∧ Kept s u) start t := by
  refine .read ?_
  split
  · rename_i running
    exact .done ⟨kept, fun _ => rfl, fun idle => nomatch running.symm.trans idle⟩
  · rename_i stopped
    have idle := Bool.eq_false_iff.mpr stopped
    refine .call kept (fun _ => ⟨rfl, kept⟩) ?_
    cases content : t.config with
    | none => exact .raise ⟨rfl, kept⟩
    | some config =>
      have spawned : Kept s t.spawn := ⟨kept.journal, kept.config, kept.sound.spawn idle⟩
      refine .call kept (fun _ => ⟨rfl, kept⟩) (.attempt ?_)
      have handled {Q : MihomoHost → Prop} (cause : String) (u : MihomoHost) (kept : Kept s u) :
          Assured (Kept s) Q (fun error u => asksReview error = false ∧
            Kept s u) (stop (.raise (.failed cause))) u :=
        stop_assured kept (fun _ kept => kept) (fun _ _ kept => ⟨rfl, kept⟩) (.raise ⟨rfl, kept.clear⟩)
      refine .step kept (fun cause => handled cause t kept) (.call spawned (fun cause =>
        handled cause _ spawned) ?_)
      refine .done (.sure spawned (.done ⟨⟨kept.journal, kept.config, ?_⟩, ?_, ?_⟩))
      · exact spawned.sound.markLoaded content
      · exact fun running => nomatch running.symm.trans idle
      · exact fun _ => kept.config ▸ rfl

theorem restart_assured (kept : Kept s t) :
    Assured (Kept s) (fun u => Kept s u ∧ u.process = s.config) (fun error u => asksReview error = false ∧ Kept s u)
      restart t := by
  refine stop_assured kept (fun _ kept => kept) (fun _ _ kept => ⟨rfl, kept⟩) ?_
  exact (start_assured kept.clear).mono (fun _ kept => kept) (fun _ ended => ⟨ended.1, ended.2.2 rfl⟩)
    fun _ _ raised => raised

end Processes

section Writes

variable {s t : MihomoHost} {K Q : MihomoHost → Prop} {R : Error String → MihomoHost → Prop} {p : MihomoProgram}

/-- What a write that returns has done. -/
structure Written (content : MihomoConfig) (activate : Bool) (before host : MihomoHost) : Prop where
  journal : host.journal = before.journal
  config : host.config = some content
  process : host.process = if activate then some content else none
  sound : host.Sound

variable {content : MihomoConfig}

theorem MihomoHost.Sound.writeConfig (sound : s.Sound) (asked : content.Sound) : (s.writeConfig content).Sound where
  config := by
    rintro _ ⟨⟩
    exact asked
  journalled := fun _ => rfl
  process := sound.process
  loaded := sound.loaded

theorem Kept.restoreConfig (sound : s.Sound) (kept : Kept (s.writeConfig content) t) :
    Kept s (t.restoreConfig s.config) where
  journal := kept.journal
  config := rfl
  sound := {
    config := sound.config
    journalled := fun journalled => sound.journalled (kept.journal ▸ journalled)
    process := kept.sound.process
    loaded := kept.sound.loaded }

theorem activateConfig_assured (kept : Kept s t) (activate : Bool) :
    Assured (Kept s) (fun u => Kept s u ∧ u.process = if activate then s.config else none)
      (fun error u => asksReview error = false ∧ Kept s u) (activateConfig activate t.running) t := by
  unfold activateConfig
  cases activate with
  | true =>
    simp only [if_true]
    split
    · exact restart_assured kept
    · rename_i stopped
      exact (start_assured kept).mono (fun _ kept => kept)
        (fun _ ended => ⟨ended.1, ended.2.2 (Bool.eq_false_iff.mpr stopped)⟩) fun _ _ raised => raised
  | false =>
    simp only [Bool.false_eq_true, if_false]
    split
    · exact stop_assured kept (fun _ kept => kept) (fun _ _ kept => ⟨rfl, kept⟩) (.done ⟨kept.clear, rfl⟩)
    · rename_i stopped
      exact .done ⟨kept, Option.not_isSome_iff_eq_none.mp stopped⟩

theorem undoWrite_assured {wasRunning : Bool} {error : Error String} (sound : s.Sound)
    (silent : asksReview error = false) (kept : Kept (s.writeConfig content) t) :
    Assured (fun t => t.journal = s.journal ∧ t.Sound) Q (fun error t => asksReview error = false ∧ Kept s t)
      (undoWrite content s.config wasRunning error) t := by
  have restored := kept.restoreConfig sound
  refine .read ?_
  rw [if_pos (by rw [kept.config]; exact beq_self_eq_true _)]
  refine .sure ⟨kept.journal, kept.sound⟩ ?_
  split
  · refine .attempt ((start_assured restored).mono (fun _ kept => ⟨kept.journal, kept.sound⟩) ?_ ?_)
    · exact fun _ ended => .raise ⟨silent, ended.1⟩
    · exact fun _ _ ended => .done (.raise ⟨silent, ended.2⟩)
  · exact .raise ⟨silent, restored⟩

theorem write_assured (encoding : Encoding) (sound : s.Sound) (asked : content.Sound) (activate : Bool)
    (expected : Option MihomoConfig) :
    Assured (fun t => t.journal = s.journal ∧ t.Sound) (Written content activate s)
      (fun error t => asksReview error = false ∧ Kept s t) (write encoding content activate expected) s := by
  have kept := Kept.refl sound
  refine require_assured ⟨rfl, kept⟩ fun _ => .call ⟨rfl, sound⟩ (fun _ => ⟨rfl, kept⟩) (.read ?_)
  refine require_assured ⟨rfl, kept⟩ fun _ => .step ⟨rfl, sound⟩ (fun _ => ⟨rfl, kept⟩) (.attempt ?_)
  have written := Kept.refl (sound.writeConfig asked)
  refine (activateConfig_assured written activate).mono (fun _ kept => ⟨kept.journal, kept.sound⟩) ?_ ?_
  · exact fun _ ended => .done ⟨ended.1.journal, ended.1.config, ended.2, ended.1.sound⟩
  · exact fun _ _ raised => undoWrite_assured sound raised.1 raised.2

end Writes

section Operations

variable {s t : MihomoHost} {K Q : MihomoHost → Prop} {R : Error String → MihomoHost → Prop} (encoding : Encoding)

/-- What an operation that raises may leave. -/
structure Harmless (before : MihomoHost) (error : Error String) (host : MihomoHost) : Prop where
  sound : host.Sound
  unchanged : asksReview error = false → host.journal = before.journal ∧
    (host.listeners = before.listeners ∨ before.journal = none ∧ host.listeners = [])

theorem Kept.harmless (kept : Kept s t) (error : Error String) : Harmless s error t where
  sound := kept.sound
  unchanged := fun _ => ⟨kept.journal, .inl (by rw [MihomoHost.listeners, kept.config]; rfl)⟩

theorem declared_sound (journal : Option ManagedProtocolsRequest) : (declared journal).Sound := by
  cases journal with
  | none => exact emptyConfig_sound
  | some request => exact request.sound

theorem load_assured {rest : Option ManagedProtocolsRequest → MihomoProgram} (killed : K s)
    (raised : ∀ error, R error s) (next : Assured K Q R (rest s.journal) s) :
    Assured K Q R (load encoding rest) s :=
  readState_assured killed raised next

variable {content : MihomoConfig} {activate : Bool} {before : MihomoHost}

theorem Written.converged (written : Written content activate before t) (asked : content = declared t.journal)
    (active : activate = !content.listeners.isEmpty) : Converged t where
  config := asked ▸ written.config
  process := by
    rw [written.process, active, ← asked]
    cases content.listeners.isEmpty <;> rfl

theorem stopConflicting_assured (kept : Kept s t) (error : Error String) :
    Assured Sound Q (Harmless s) (stopConflicting error) t := by
  refine .read ?_
  split
  · exact stop_assured kept (fun _ kept => kept.sound) (fun cause _ kept => kept.harmless _)
      (.raise (kept.clear.harmless error))
  · exact .raise (kept.harmless error)

theorem Converged.of_kept (kept : Kept s t) (same : s.config = some (declared s.journal))
    (process : t.process = if (declared s.journal).listeners.isEmpty then none else some (declared s.journal)) :
    Converged t where
  config := by rw [kept.config, kept.journal, same]
  process := kept.journal.symm ▸ process

theorem converge_assured (sound : s.Sound) : Assured Sound (fun t => t.Sound ∧ Converged t) (Harmless s)
      (converge encoding (declared s.journal)) s := by
  have kept := Kept.refl sound
  refine .call sound (fun _ => kept.harmless _) (.read ?_)
  split
  · refine (write_assured encoding sound (declared_sound s.journal) _ _).mono (fun _ killed => killed.2) ?_ ?_
    · exact fun t written => ⟨written.sound, written.converged (by rw [written.journal]) rfl⟩
    · exact fun error _ raised => raised.2.harmless error
  rename_i agreed
  have same := not_not.mp agreed
  have filled (active : (!(declared s.journal).listeners.isEmpty) = true) (u : MihomoHost) (kept : Kept s u)
      (process : u.process = s.config) : u.Sound ∧ Converged u := by
    refine ⟨kept.sound, .of_kept kept same ?_⟩
    rw [process, same, if_neg (by simpa using active)]
  split
  · rename_i active
    split
    · rename_i idle
      exact (start_assured kept).mono (fun _ kept => kept.sound)
        (fun u ended => filled active u ended.1 (ended.2.2 (by simpa using idle)))
        fun error _ raised => raised.2.harmless error
    · split
      · exact (restart_assured kept).mono (fun _ kept => kept.sound) (fun u ended =>
          filled active u ended.1 ended.2)
          fun error _ raised => raised.2.harmless error
      · rename_i loaded
        exact .done (filled active s kept (by rw [sound.loaded _ (not_not.mp loaded), same]))
  · rename_i silent
    have unused : (declared s.journal).listeners.isEmpty = true := by simpa using silent
    split
    · exact stop_assured kept (fun _ kept => kept.sound) (fun cause _ kept => kept.harmless _)
        (.done ⟨kept.clear.sound, .of_kept kept.clear same (if_pos unused).symm⟩)
    · rename_i idle
      refine .done ⟨sound, .of_kept kept same ?_⟩
      rw [if_pos unused]
      exact Option.not_isSome_iff_eq_none.mp idle

theorem ensureStarted_assured (sound : s.Sound) (xray : XrayView) :
    Assured Sound (fun t => t.Sound ∧ Converged t) (Harmless s) (ensureStarted encoding xray) s := by
  have kept := Kept.refl sound
  refine load_assured encoding sound (fun error => kept.harmless error) (.attempt ?_)
  have goOn : Assured Sound (fun t => t.Sound ∧ Converged t) (Harmless s)
      (encodeConfig encoding (declared s.journal) (converge encoding (declared s.journal))) s :=
    require_assured (kept.harmless _) fun _ => converge_assured encoding sound
  revert goOn
  cases s.journal with
  | none => exact fun goOn => .done goOn
  | some request =>
    exact fun goOn => .call sound (fun _ => stopConflicting_assured kept _)
      (inspectXray_assured (fun error => stopConflicting_assured kept error) (.done goOn))

/-- The journal of a write that is saved. -/
structure Saved (request : ManagedProtocolsRequest) (host : MihomoHost) : Prop where
  journal : host.journal = some request
  converged : Converged host
  sound : host.Sound

theorem save_assured {request : ManagedProtocolsRequest} {rollback : Error String → MihomoProgram}
    (written : Written content activate s t) (asked : content = compileConfig request.toDeclaration)
    (active : activate = !content.listeners.isEmpty)
    (undone : ∀ cause, Assured Sound (Saved request) R (rollback (.failed cause)) t) :
    Assured Sound (Saved request) R
      (.attempt (.step (MihomoHost.writeState (some request)) .done) rollback .done) t := by
  have saved : (t.writeState (some request)).Sound := {
    config := written.sound.config
    journalled := fun _ => by
      rw [MihomoHost.writeState, written.config]
      rfl
    process := written.sound.process
    loaded := written.sound.loaded }
  refine .attempt (.step written.sound (fun cause => ?_) (.done (.done ⟨rfl, ⟨?_, ?_⟩, saved⟩)))
  · exact (undone cause).mono (fun _ sound => sound) (fun _ ended => .done ended) fun _ _ raised => raised
  · exact written.config.trans (congrArg some asked)
  · have process : (t.writeState (some request)).process = if activate then some content else none :=
      written.process
    rw [process, active, asked]
    change _ = if (compileConfig request.toDeclaration).listeners.isEmpty then none else _
    cases (compileConfig request.toDeclaration).listeners.isEmpty <;> rfl

theorem active_assured {request : Option ManagedProtocolsRequest} {rest : Bool → MihomoProgram} (killed : K s)
    (raised : ∀ error, R error s) (next : ∀ activate, Assured K Q R (rest activate) s) :
    Assured K Q R (active encoding request rest) s := by
  cases request with
  | none =>
    have loaded : Assured K Q R (rest (s.journal.any fun request => isActive request.toDeclaration)) s := next _
    exact .call killed (fun _ => raised _) (.read (require_assured (raised _) fun _ => loaded))
  | some request => exact next _

variable {review : String}

theorem restoreRuntime_assured {rollback rest : MihomoProgram} {P : MihomoHost → Prop}
    (reviewed : ∀ u, u.Sound → R (.raised review) u)
    (undone : Assured Sound P (fun _ => Sound) rollback t)
    (next : ∀ u, P u → Assured Sound Q R rest u) :
    Assured Sound Q R (restoreRuntime rollback review rest) t :=
  .attempt (undone.mono (fun _ sound => sound) next fun _ u sound => .raise (reviewed u sound))

theorem rewrite_assured (sound : s.Sound) (asked : content.Sound) (activate : Bool)
    (expected : Option MihomoConfig) :
    Assured Sound (fun t => ∃ activate, Written content activate s t) (fun _ => Sound)
      (write encoding content activate expected) s :=
  (write_assured encoding sound asked activate expected).mono (fun _ killed => killed.2)
    (fun _ written => ⟨activate, written⟩) fun _ _ raised => raised.2.sound

theorem Written.harmless (written : Written content activate before t) (journal : before.journal = s.journal)
    (same : content.listeners = s.listeners ∨ s.journal = none ∧ content.listeners = []) (error : Error String) :
    Harmless s error t where
  sound := written.sound
  unchanged := fun _ => ⟨written.journal.trans journal, by rw [MihomoHost.listeners, written.config]; exact same⟩

/-- Unless it asks for a review, an update that raises leaves the files as they were. -/
structure Refused (before : MihomoHost) (error : Error String) (host : MihomoHost) : Prop where
  sound : host.Sound
  kept : asksReview error = false → Kept before host

theorem Kept.refused (kept : Kept s t) (error : Error String) : Refused s error t := ⟨kept.sound, fun _ => kept⟩

theorem Refused.harmless {error : Error String} (refused : Refused s error t) : Harmless s error t where
  sound := refused.sound
  unchanged := fun silent => ((refused.kept silent).harmless error).unchanged silent

theorem replaceRequest_assured (sound : s.Sound) {changed : String} (reviewed : asksReview (.raised review) = true)
    (request expected : ManagedProtocolsRequest) :
    Assured Sound (Saved request) (Refused s) (replaceRequest encoding changed review request expected) s := by
  have kept := Kept.refl sound
  refine load_assured encoding sound (fun error => kept.refused error) ?_
  refine require_assured (kept.refused _) fun _ => .call sound (fun _ => kept.refused _) (.read ?_)
  cases current : s.config with
  | none => exact .raise (kept.refused _)
  | some oldConfig =>
    refine require_assured (kept.refused _) fun _ => .seq ?_
    refine (write_assured encoding sound request.sound _ _).mono (fun _ killed => killed.2) ?_
      fun error _ raised => raised.2.refused error
    refine fun t written => save_assured written rfl rfl fun cause => ?_
    refine restoreRuntime_assured (fun u sound => ⟨sound, fun silent => nomatch reviewed.symm.trans silent⟩)
      (rewrite_assured encoding written.sound (sound.config oldConfig current) _ _) fun u ⟨_, undone⟩ => ?_
    refine .raise (Kept.refused ⟨undone.journal.trans written.journal, ?_, undone.sound⟩ _)
    rw [undone.config, current]

theorem commitRequest_assured (sound : s.Sound) (request expected : ManagedProtocolsRequest) :
    Assured Sound (Saved request) (Refused s) (commitRequest encoding request expected) s :=
  replaceRequest_assured encoding sound rfl request expected

theorem rollbackRequest_assured (sound : s.Sound) (previous expected : ManagedProtocolsRequest) :
    Assured Sound (Saved previous) (Refused s) (rollbackRequest encoding previous expected) s :=
  replaceRequest_assured encoding sound rfl previous expected

theorem Written.saved (written : Written content activate before t) (journal : before.journal = s.journal) :
    Written content activate before (t.writeState s.journal) where
  journal := journal.symm
  config := written.config
  process := written.process
  sound := {
    config := written.sound.config
    journalled := fun _ => by
      rw [MihomoHost.writeState, written.config]
      rfl
    process := written.sound.process
    loaded := written.sound.loaded }

theorem apply_assured (sound : s.Sound) (xray : XrayView) (request : ManagedProtocolsRequest) : Assured Sound
      (fun t => (MihomoOperation.changes s (.apply xray request) = true → Saved request t) ∧
        (MihomoOperation.changes s (.apply xray request) = false → t = s)) (Harmless s)
      (apply encoding xray request) s := by
  have kept := Kept.refl sound
  refine load_assured encoding sound (fun error => kept.harmless error) ?_
  split
  · rename_i unchanged
    refine inspectXray_assured (fun error => kept.harmless error) (.done ⟨fun changes => ?_, fun _ => rfl⟩)
    cases journal : s.journal with
    | none => simp [journal] at unchanged
    | some before => simp_all [MihomoOperation.changes]
  · rename_i unlike
    have changes : MihomoOperation.changes s (.apply xray request) = true := by
      cases journal : s.journal with
      | none => simp [MihomoOperation.changes, journal]
      | some before => simpa [MihomoOperation.changes, journal] using unlike
    refine inspectXray_assured (fun error => kept.harmless error) ?_
    refine require_assured (kept.harmless _) fun _ => ?_
    refine .call sound (fun _ => kept.harmless _) (.call sound (fun _ => kept.harmless _) (.read (.seq ?_)))
    refine (write_assured encoding sound request.sound _ _).mono (fun _ killed => killed.2) ?_
      fun error _ raised => raised.2.harmless error
    refine fun t written => (save_assured written rfl rfl fun cause => ?_).mono (fun _ sound => sound)
      (fun _ saved => ⟨fun _ => saved, fun same => absurd (changes.symm.trans same) nofun⟩) fun _ _ raised => raised
    -- The listeners that are restored, as far as there is a declaration.
    have restored {content : MihomoConfig} (asked : content.Sound)
        (same : content.listeners = s.listeners ∨ s.journal = none ∧ content.listeners = []) :
        Assured Sound (Saved request) (Harmless s)
          (restoreRuntime
            (active encoding s.journal fun activate =>
              write encoding content activate (some (compileConfig request.toDeclaration)))
            "Managed protocol state write failed and runtime rollback needs review"
            (.step (MihomoHost.writeState s.journal) (.raise (.failed cause)))) t := by
      refine restoreRuntime_assured (fun u sound => ⟨sound, nofun⟩)
        (active_assured encoding written.sound (fun _ => written.sound) fun activate =>
          rewrite_assured encoding written.sound asked activate _) fun u ⟨_, undone⟩ => ?_
      have saved := undone.saved written.journal
      exact .step undone.sound (fun _ => undone.harmless written.journal same _)
        (.raise (saved.harmless written.journal same _))
    cases journal : s.journal with
    | none =>
      rw [journal] at restored
      have fits : Assured Sound (Saved request) (Harmless s) _ t :=
        restored emptyConfig_sound (.inr ⟨rfl, rfl⟩)
      simpa only [encodeConfig, require, encoding.empty_le, decide_true, if_true] using fits
    | some before =>
      cases current : s.config with
      | none =>
        have configured := sound.journalled (by rw [journal]; rfl)
        rw [current] at configured
        nomatch configured
      | some oldConfig =>
        rw [journal] at restored
        refine restored (sound.config oldConfig current) (.inl ?_)
        rw [MihomoHost.listeners, current]
        rfl

theorem operation_assured (sound : s.Sound) (operation : MihomoOperation) :
    Assured Sound (fun t => t.Sound ∧ (operation.changes s = true → Converged t)) (Harmless s)
      (operation.program encoding) s := by
  have always {p : MihomoProgram}
      (assured : Assured Sound (fun t => t.Sound ∧ Converged t) (Harmless s) p s) :
      Assured Sound (fun t => t.Sound ∧ (operation.changes s = true → Converged t)) (Harmless s) p s :=
    assured.mono (fun _ sound => sound) (fun _ ended => ⟨ended.1, fun _ => ended.2⟩) fun _ _ raised => raised
  have replaced {p : MihomoProgram} {request : ManagedProtocolsRequest}
      (assured : Assured Sound (Saved request) (Refused s) p s) :
      Assured Sound (fun t => t.Sound ∧ (operation.changes s = true → Converged t)) (Harmless s) p s :=
    assured.mono (fun _ sound => sound) (fun _ saved => ⟨saved.sound, fun _ => saved.converged⟩)
      fun _ _ refused => refused.harmless
  cases operation with
  | ensureStarted xray => exact always (ensureStarted_assured encoding sound xray)
  | apply xray request =>
    refine (apply_assured encoding sound xray request).mono (fun _ sound => sound) (fun t ended =>
      ?_) fun _ _ raised => raised
    cases changes : MihomoOperation.changes s (.apply xray request) with
    | true => exact ⟨(ended.1 changes).sound, fun _ => (ended.1 changes).converged⟩
    | false => exact ⟨ended.2 changes ▸ sound, nofun⟩
  | commitRequest request expected => exact replaced (commitRequest_assured encoding sound request expected)
  | rollbackRequest previous expected => exact replaced (rollbackRequest_assured encoding sound previous expected)

end Operations

variable {encoding : Encoding} {host : MihomoHost}

theorem Reaches.sound (reaches : Reaches encoding host) : host.Sound := by
  induction reaches with
  | fresh =>
    exact { config := nofun, journalled := nofun, process := nofun, loaded := nofun }
  | @operation before operation effects _ sound =>
    have ends := operation_assured encoding sound operation effects
    revert ends
    rcases (operation.program encoding).run effects before with ⟨after, _ | error | _⟩ <;> intro ends
    · exact ends.1
    · exact ends.sound
    · exact MihomoHost.Sound.clear ends
  | killed _ sound => exact sound.clear

/-- An operation that returns leaves the file and the process as the journal asks; one
that raises leaves the journal and the listeners as they were, unless it asks for a
review; and every listener of the file asks for a user, on an address of its own. -/
theorem Reaches.converges (reaches : Reaches encoding host) : (∀ config, host.config = some config → config.Sound) ∧
      ∀ (operation : MihomoOperation) (effects : Nat → Effect), operation.changes host = true →
        match (operation.program encoding).run effects host with
        | (after, .returned) => Converged after
        | (after, .raised error) => asksReview error = false → after.journal = host.journal ∧
            (after.listeners = host.listeners ∨ host.journal = none ∧ after.listeners = [])
        | (_, .killed) => True := by
  refine ⟨reaches.sound.config, fun operation effects changes => ?_⟩
  have ends := operation_assured encoding reaches.sound operation effects
  revert ends
  rcases (operation.program encoding).run effects host with ⟨after, _ | error | _⟩ <;> intro ends
  · exact ends.2 changes
  · exact ends.unchanged
  · trivial

section Examples

def secondRequest : ManagedProtocolsRequest := ⟨socksDeclaration 'b' 3000 "alice", by decide +kernel⟩

def smallEncoding : Encoding := ⟨fun _ => 0, fun _ => 0, Nat.zero_le _⟩

/-- Every step takes effect but one. -/
def onceAt (step : Nat) (effect : Effect) (n : Nat) : Effect := if n = step then effect else .done

/-- The Agent was killed between the config file and the journal of its first declaration. -/
def interruptedHost : MihomoHost :=
  settle (((MihomoOperation.apply .absent firstRequest).program smallEncoding).run (onceAt 6 .killed)
    ⟨none, none, none, none⟩)

/-- The next declaration, whose journal cannot be written either. -/
def secondApply : MihomoHost × Ending String :=
  ((MihomoOperation.apply .absent secondRequest).program smallEncoding).run
    (onceAt 6 (.failed "No space left on device")) interruptedHost

theorem interruptedHost_converges : (∀ config, interruptedHost.config = some config → config.Sound) ∧
      Converged (((MihomoOperation.ensureStarted .absent).program smallEncoding).run Program.quiet
        interruptedHost).1 :=
  have agrees := (Reaches.operation _ _ .fresh : Reaches smallEncoding interruptedHost).converges
  ⟨agrees.1, agrees.2 (.ensureStarted .absent) Program.quiet rfl⟩

/-- Without a declaration, the rollback leaves no listener of the file. -/
theorem secondApply_unlisted : Reaches smallEncoding interruptedHost ∧
      (MihomoOperation.apply .absent secondRequest).changes interruptedHost = true ∧
      secondApply.2 = .raised (.failed "No space left on device") ∧
      asksReview (.failed "No space left on device") = false ∧
      interruptedHost.listeners.length = 1 ∧ secondApply.1.listeners.length = 0 :=
  ⟨.operation _ _ .fresh, rfl, by decide +kernel, rfl, by decide +kernel, by decide +kernel⟩

end Examples

end OpenNode.ManagedProtocols
