import OpenNode.SystemForm

namespace OpenNode.Agent

open Assoc Literals Loops

variable {numerals : Numerals} {statsAddress : Option String}

/-- A form that shows what was submitted. -/
structure ReadBack (numerals : Numerals) (payload : Fields) (form : SystemForm) : Prop where
  writable : form.writable = true
  logLevel : payload.lookup "log_level" = some (.str form.logLevel)
  dns : payload.lookup "dns" = some (.obj form.dns)
  metricsEnabled : payload.lookup "metrics_enabled" = some (.bool form.metricsEnabled)
  metricsListen : form.metricsEnabled = true → ∃ value endpoint, payload.lookup "metrics_listen" = some value ∧
    loopbackEndpoint numerals value = some endpoint ∧ form.metricsListen = formatEndpoint endpoint.1 endpoint.2
  statsEnabled : payload.lookup "stats_enabled" = some (.bool form.statsEnabled)
  grpcEnabled : payload.lookup "grpc_enabled" = some (.bool form.grpcEnabled)
  grpcPort : form.grpcEnabled = true → payload.lookup "grpc_port" = some (.int form.grpcPort)

/-- A payload whose policy agrees with its statistics where the save takes the policy
as it is, and that enables the API only where its tag is free. -/
structure Consistent (config payload : Fields) (form : SystemForm) : Prop where
  policy : payload.lookup "stats_enabled" = some (.bool form.statsEnabled) →
    ∃ state, policyState (objectOrNew "policy" payload) = .ok state ∧
      (hasObject "stats" config && state == some true) = form.statsEnabled
  api : payload.lookup "grpc_enabled" = some (.bool true) → form.grpcEnabled = false → apiFree config = true

/-- The fields of a form, as they are saved. -/
def SystemForm.payload (form : SystemForm) : Fields :=
  [("log_level", .str form.logLevel), ("dns", .obj form.dns), ("policy", .obj form.policy),
    ("metrics_enabled", .bool form.metricsEnabled), ("metrics_listen", .str form.metricsListen),
    ("stats_enabled", .bool form.statsEnabled), ("grpc_enabled", .bool form.grpcEnabled),
      ("grpc_port", .int form.grpcPort)]

/-- The metrics with their listener in its normal form. -/
def normalMetrics (numerals : Numerals) (config : Fields) : Fields :=
  match (objectOrNew "metrics" config).lookup "listen" with
  | none => config
  | some listen =>
    match loopbackEndpoint numerals listen with
    | none => config
    | some endpoint =>
      put "metrics" (.obj (put "listen" (.str (formatEndpoint endpoint.1 endpoint.2))
        (objectOrNew "metrics" config))) config

/-- A configuration with the defaults of the form made explicit, and without an API
that is `null`. -/
def explicitDefaults (numerals : Numerals) (config : Fields) : Fields :=
  let log := Json.obj (put "loglevel" (.str (shownLogLevel config)) (objectOrNew "log" config))
  let written := normalMetrics numerals (put "dns" (.obj (objectOrNew "dns" config)) (put "log" log config))
  if hasObject "api" config then written else pop "api" written

/-- The sections that a save leaves alone. -/
structure LeavesOthers (numerals : Numerals) (config payload after : Fields) : Prop where
  others : ∀ key, key ∉ systemKeys → key ≠ "inbounds" → after.lookup key = config.lookup key
  inbounds : ∃ binding port, xrayApiBinding numerals config = .ok binding ∧
    payload.lookup "grpc_port" = some (.int port) ∧
    InboundsWrite binding port config after

section

variable {config payload after metrics : Fields} {request : SystemRequest} {binding : ApiBinding}
  {statsChanged grpcChanged : Bool}

/-- The values that a save writes. -/
structure SavedForm (numerals : Numerals) (config : Fields) (request : SystemRequest) (statsChanged : Bool)
    (after : Fields) : Prop where
  log : after.lookup "log" = some (.obj (put "loglevel" (.str request.logLevel) (objectOrNew "log" config)))
  dns : after.lookup "dns" = some (.obj request.dns)
  policy : completeStatsPolicyState after = policyState (writtenPolicy request statsChanged)
  metrics : if request.metricsEnabled then
      ∃ endpoint old, loopbackEndpoint numerals request.metricsListen = some endpoint ∧
        after.lookup "metrics" = some (.obj (put "listen" (.str (formatEndpoint endpoint.1 endpoint.2)) old))
    else after.lookup "metrics" = none
  stats : hasObject "stats" after = if statsChanged then request.statsEnabled else hasObject "stats" config
  statsForm : after.lookup "stats" = none ∨ hasObject "stats" after = true

variable {before : Fields}

theorem hasObject_congr {key : String} {after : Fields} (same : after.lookup key = before.lookup key) :
    hasObject key after = hasObject key before := by
  rw [hasObject, hasObject, same]

theorem Applied.savedForm
    (applied : Applied (systemChecks numerals statsAddress) config payload request binding statsChanged grpcChanged
      metrics after)
    (statsForm : config.lookup "stats" = none ∨ hasObject "stats" config = true) :
    SavedForm numerals config request statsChanged after := by
  have last := (writeApi_changes applied.api).1
  have counted := writeStats_changes request statsChanged metrics
  have listened := writeMetrics_changes applied.listener
  have basics := writeBasics_changes request statsChanged config
  have early (key : String) (outside : key ∉ ["api", "inbounds", "stats", "metrics"]) :
      after.lookup key = (writeBasics request statsChanged config).lookup key := by
    simp only [List.mem_cons, List.not_mem_nil, or_false, not_or] at outside
    rw [last key (by simp [outside]), counted key (by simp [outside]), listened key (by simp [outside])]
  have statsSame : metrics.lookup "stats" = config.lookup "stats" :=
    (listened "stats" (by decide)).trans (basics "stats" (by decide))
  obtain ⟨hasStats, keepsForm⟩ := writeStats_stats request statsChanged metrics
  have afterStats := last "stats" (by decide)
  refine ⟨?_, ?_, completeStatsPolicyState_written (early "policy" (by decide)), ?_, ?_, ?_⟩
  · exact (early "log" (by decide)).trans (writeBasics_sections request statsChanged config).1
  · exact (early "dns" (by decide)).trans (writeBasics_sections request statsChanged config).2
  · have listener := writeMetrics_metrics applied.listener
    have same : after.lookup "metrics" = metrics.lookup "metrics" :=
      (last "metrics" (by decide)).trans (counted "metrics" (by decide))
    rw [same]
    split at listener
    · rename_i enabled
      rw [if_pos enabled]
      obtain ⟨endpoint, parsed, here⟩ := listener
      exact ⟨endpoint, _, parsed, here⟩
    · rename_i disabled
      rw [if_neg disabled]
      exact listener
  · rw [hasObject_congr afterStats, hasStats, hasObject_congr statsSame]
  · rw [hasObject_congr afterStats, afterStats]
    exact keepsForm (by rwa [hasObject_congr statsSame, statsSame])

theorem SavedForm.editable (saved : SavedForm numerals config request statsChanged after)
    (level : request.logLevel ∈ logLevels) :
    EditableSections numerals after ↔ ∃ state, policyState (writtenPolicy request statsChanged) = .ok state := by
  constructor
  · intro sections
    obtain ⟨state, policy⟩ := sections.policy
    exact ⟨state, saved.policy ▸ policy⟩
  · rintro ⟨state, policy⟩
    refine ⟨?_, .inr (hasObject_lookup.mpr ⟨_, saved.dns⟩), ?_, saved.statsForm, state, saved.policy.trans policy⟩
    · rw [checkLog, saved.log]
      dsimp only
      rw [lookup_put_self]
      exact if_pos level
    · have listener := saved.metrics
      rw [checkMetrics]
      split at listener
      · obtain ⟨endpoint, old, parsed, here⟩ := listener
        obtain ⟨host, lower, upper⟩ := loopbackEndpoint_host parsed
        rw [here]
        dsimp only
        rw [lookup_put_self]
        dsimp only
        rw [host.endpoint lower upper]
        rfl
      · rw [listener]

theorem SavedForm.form (saved : SavedForm numerals config request statsChanged after) (statsAddress : Option String)
    (level : request.logLevel ∈ logLevels) (mode : Option ApiMode) (port : Int) (reason : Option String) :
    (shownForm after statsAddress mode port reason).logLevel = request.logLevel ∧
    (shownForm after statsAddress mode port reason).dns = request.dns ∧
    (shownForm after statsAddress mode port reason).metricsEnabled = request.metricsEnabled ∧
    (request.metricsEnabled = true → ∃ endpoint, loopbackEndpoint numerals request.metricsListen = some endpoint ∧
      (shownForm after statsAddress mode port reason).metricsListen = formatEndpoint endpoint.1 endpoint.2) := by
  refine ⟨?_, objectOrNew_lookup saved.dns, ?_, fun enabled => ?_⟩
  · rw [shownForm, shownLogLevel, objectOrNew_lookup saved.log, lookup_put_self]
    exact if_pos level
  · have listener := saved.metrics
    split at listener
    · rename_i enabled
      obtain ⟨endpoint, old, parsed, here⟩ := listener
      rw [enabled]
      exact hasObject_lookup.mpr ⟨_, here⟩
    · rename_i disabled
      rw [Bool.not_eq_true] at disabled
      rw [disabled, shownForm, hasObject, listener]
  · have listener := saved.metrics
    rw [if_pos enabled] at listener
    obtain ⟨endpoint, old, parsed, here⟩ := listener
    refine ⟨endpoint, parsed, ?_⟩
    rw [shownForm, shownMetricsListen, objectOrNew_lookup here, lookup_put_self]

theorem ApiAfter.bound (api : ApiAfter numerals config after request binding)
    (free : hasObject "api" config = false → request.grpcEnabled = true → apiFree config = true) :
    ∃ next, xrayApiBinding numerals after = .ok next ∧ hasObject "api" after = request.grpcEnabled ∧
      (request.grpcEnabled = true → next.port = request.grpcPort) := by
  cases api with
  | disabled off gone =>
    refine ⟨absentBinding, by rw [xrayApiBinding, gone]; rfl, by rw [hasObject, gone, off], fun on => ?_⟩
    rw [off] at on
    cases on
  | kept on before now bound => exact ⟨_, bound, now.trans on.symm, fun _ => rfl⟩
  | opened on before now bound =>
    rcases bound with ⟨-, bound⟩ | ⟨taken, -⟩
    · exact ⟨_, bound, now.trans on.symm, fun _ => rfl⟩
    · rw [free before on] at taken
      cases taken

theorem ApiAfter.free (api : ApiAfter numerals config after request binding) {next : ApiBinding}
    (bound : xrayApiBinding numerals after = .ok next) (before : hasObject "api" config = false)
    (on : request.grpcEnabled = true) : apiFree config = true := by
  cases api with
  | disabled off gone =>
    rw [off] at on
    cases on
  | kept on' before' now bound' =>
    rw [before] at before'
    cases before'
  | opened on' before' now bound' =>
    rcases bound' with ⟨free, -⟩ | ⟨-, text, failed⟩
    · exact free
    · rw [bound] at failed
      cases failed

theorem fixed_after {next : ApiBinding} (fixed : (systemChecks numerals statsAddress).fixed after = true)
    (bound : xrayApiBinding numerals after = .ok next) :
    fixedStatsAddressError numerals next statsAddress = none := by
  unfold systemChecks at fixed
  unfold fixedStatsAddressError
  cases statsAddress with
  | none => rfl
  | some address =>
    dsimp only at fixed ⊢
    rw [bound] at fixed
    cases required : loopbackEndpoint numerals (.str address) with
    | none =>
      rw [required] at fixed
      cases fixed
    | some endpoint =>
      rw [required] at fixed
      simp only [Bool.and_eq_true, decide_eq_true_eq] at fixed
      dsimp only
      rw [if_neg fixed.1, if_pos fixed.2]

variable {state : Option Bool}

theorem policyTracks_ok (complete : completeStatsPolicyState config = .ok state) :
    policyTracks config = (state == some true) := by
  rw [policyTracks, complete]
  cases state with
  | none => rfl
  | some value => cases value <;> rfl

theorem SavedForm.stats_shown (saved : SavedForm numerals config request statsChanged after)
    (policy : policyState (writtenPolicy request statsChanged) = .ok state) :
    (hasObject "stats" after && policyTracks after) =
      ((if statsChanged then request.statsEnabled else hasObject "stats" config) && state == some true) := by
  rw [saved.stats, policyTracks_ok (saved.policy.trans policy)]

theorem Submitted.policyOf (sent : Submitted payload request) : objectOrNew "policy" payload = request.policy :=
  objectOrNew_lookup sent.policy

theorem Applied.readBack {form : SystemForm}
    (applied : Applied (systemChecks numerals statsAddress) config payload request binding statsChanged grpcChanged
      metrics after)
    (shown : form.statsEnabled = (hasObject "stats" config && policyTracks config))
    (served : form.grpcEnabled = hasObject "api" config) :
    (∃ form', xraySystemConfig numerals statsAddress after = some form' ∧ ReadBack numerals payload form') ↔
      Consistent config payload form := by
  have sent := SystemRequest.read_ok.mp applied.read
  obtain ⟨required, -⟩ := systemChecks_editable.mp applied.editable
  obtain ⟨sections, bound⟩ := requireEditable_ok.mp required
  have saved := applied.savedForm sections.stats
  have api := writeApi_after rfl sent.lower sent.upper applied.grpc applied.changes bound applied.api
  have changed : statsChanged = (request.statsEnabled != form.statsEnabled) := shown ▸ applied.stats
  constructor
  · rintro ⟨form', shown', reads⟩
    obtain ⟨next, writable⟩ := xraySystemConfig_writable shown' reads.writable
    cases shown'.symm.trans writable.shown
    obtain ⟨editable, bound'⟩ := requireEditable_ok.mp writable.1
    obtain ⟨state, policy⟩ := (saved.editable sent.level).mp editable
    refine ⟨fun same => ?_, fun on off => ?_⟩
    · have unchanged : statsChanged = false := by
        have equal : request.statsEnabled = form.statsEnabled := by
          simpa using sent.statsEnabled.symm.trans same
        rw [changed, equal, bne_self_eq_false]
      have stats := saved.stats_shown policy
      rw [unchanged] at policy stats
      refine ⟨state, sent.policyOf ▸ policy, ?_⟩
      have agrees : some (Json.bool form.statsEnabled) =
          some (.bool (hasObject "stats" after && policyTracks after)) :=
        same.symm.trans reads.statsEnabled
      rw [Json.bool.inj (Option.some.inj agrees), stats]
      rfl
    · have enabled : request.grpcEnabled = true := by simpa using sent.grpcEnabled.symm.trans on
      exact api.free bound' (served ▸ off) enabled
  · intro consistent
    have free (before : hasObject "api" config = false) (on : request.grpcEnabled = true) : apiFree config = true :=
      consistent.api (on ▸ sent.grpcEnabled) (served.trans before)
    obtain ⟨next, bound', now, port⟩ := api.bound free
    -- The counters of the written policy show the submitted state.
    obtain ⟨state, policy, stats⟩ : ∃ state, policyState (writtenPolicy request statsChanged) = .ok state ∧
        ((if statsChanged then request.statsEnabled else hasObject "stats" config) && state == some true) =
          request.statsEnabled := by
      cases turned : statsChanged with
      | true =>
        refine ⟨some request.statsEnabled, policyState_counted request.policy request.statsEnabled, ?_⟩
        cases request.statsEnabled <;> rfl
      | false =>
        have equal : request.statsEnabled = form.statsEnabled := by
          rw [turned] at changed
          simpa using changed.symm
        obtain ⟨state, policy, agrees⟩ := consistent.policy (equal ▸ sent.statsEnabled)
        exact ⟨state, (congrArg policyState sent.policyOf).symm.trans policy, agrees.trans equal.symm⟩
    have writable : WritableForm numerals statsAddress after next :=
      ⟨requireEditable_ok.mpr ⟨(saved.editable sent.level).mpr ⟨state, policy⟩, bound'⟩,
        fixed_after applied.fixed bound'⟩
    obtain ⟨level, dns, listens, listener⟩ := saved.form statsAddress sent.level (some next.mode) next.port none
    refine ⟨_, writable.shown, rfl, ?_, ?_, ?_, fun enabled => ?_, ?_, ?_, fun on => ?_⟩
    · rw [level, sent.logLevel]
    · rw [dns, sent.dns]
    · rw [listens, sent.metricsEnabled]
    · obtain ⟨endpoint, parsed, text⟩ := listener (listens ▸ enabled)
      refine ⟨request.metricsListen, endpoint, ?_, parsed, text⟩
      have value := sent.metricsListen
      cases here : payload.lookup "metrics_listen" with
      | some other =>
        rw [here] at value
        exact congrArg some value
      | none =>
        rw [here] at value
        rw [← value] at parsed
        cases parsed
    · rw [sent.statsEnabled]
      exact congrArg (fun value => some (Json.bool value)) (stats.symm.trans (saved.stats_shown policy).symm)
    · rw [sent.grpcEnabled]
      exact congrArg (fun value => some (Json.bool value)) now.symm
    · have enabled : request.grpcEnabled = true := now.symm.trans on
      rw [sent.grpcPort]
      exact congrArg (fun value => some (Json.int value)) (port enabled).symm

theorem Applied.leavesOthers
    (applied : Applied (systemChecks numerals statsAddress) config payload request binding statsChanged grpcChanged
      metrics after) :
    LeavesOthers numerals config payload after := by
  have sent := SystemRequest.read_ok.mp applied.read
  obtain ⟨required, -⟩ := systemChecks_editable.mp applied.editable
  have start := applied.changes "inbounds" (by decide)
  refine ⟨(applySystemConfig_form applied.apply).others, binding, request.grpcPort,
    (requireEditable_ok.mp required).2,
    sent.grpcPort, ?_⟩
  cases (writeApi_changes applied.api).2 with
  | kept same => exact .kept (same.trans start)
  | moved index items routed carrier listed written =>
    exact .moved index items routed carrier (start ▸ listed) written

/-- What a save of the form as it is shown submits. -/
def shownRequest (config : Fields) (port : Int) : SystemRequest where
  logLevel := shownLogLevel config
  dns := objectOrNew "dns" config
  policy := objectOrNew "policy" config
  metricsEnabled := hasObject "metrics" config
  metricsListen := .str (shownMetricsListen config)
  statsEnabled := hasObject "stats" config && policyTracks config
  grpcEnabled := hasObject "api" config
  grpcPort := port

theorem shownLogLevel_mem (config : Fields) : shownLogLevel config ∈ logLevels := by
  unfold shownLogLevel
  split
  · split
    · assumption
    · decide
  · decide

theorem policyState_countable {policy : Fields} (complete : policyState policy = .ok state) :
    CountablePolicy policy := by
  unfold policyState at complete
  split at complete
  · cases complete
  · rename_i system here
    obtain ⟨numeric, listed, -⟩ := Edits.bind_eq_ok complete
    unfold numericPolicyLevels at listed
    split at listed
    · cases listed
    · rename_i levels levelled
      refine ⟨⟨levels, levelled, fun name member => ?_⟩, by rw [here]; rfl⟩
      obtain ⟨level, -, read⟩ := forall₂_exists (mapM_ok listed) member
      split at read
      · rename_i found
        rw [found]
        rfl
      · cases read

theorem EditableSections.countable (sections : EditableSections numerals config) :
    CountablePolicy (objectOrNew "policy" config) := by
  obtain ⟨state, complete⟩ := sections.policy
  unfold completeStatsPolicyState at complete
  split at complete
  · rename_i absent
    rw [objectOrNew, absent]
    exact ⟨⟨[], rfl, List.forall_mem_nil _⟩, rfl⟩
  · rename_i policy here
    rw [objectOrNew_lookup here]
    exact policyState_countable complete
  · cases complete

theorem xrayApiBinding_port (bound : xrayApiBinding numerals config = .ok binding) : 1 ≤ binding.port ∧
    binding.port ≤ 65535 := by
  cases present : hasObject "api" config with
  | false =>
    rw [xrayApiBinding_absent bound present]
    decide
  | true =>
    obtain ⟨api, here⟩ := hasObject_lookup.mp present
    obtain ⟨tag, arrays, -, endpointed⟩ := xrayApiBinding_kept here bound
    rcases endpointBinding_cases endpointed with ⟨-, -, lower, upper, -⟩ | ⟨-, -, routed⟩
    · exact ⟨lower, upper⟩
    · obtain ⟨-, lower, upper, -⟩ := routedBinding_port routed
      exact ⟨lower, upper⟩

theorem shownForm_submitted (statsAddress : Option String) (sections : EditableSections numerals config)
    (bound : xrayApiBinding numerals config = .ok binding)
    (mode : Option ApiMode) (reason : Option String) :
    Submitted (shownForm config statsAddress mode binding.port reason).payload
    (shownRequest config binding.port) where
  complete := rfl
  metricsEnabled := rfl
  statsEnabled := rfl
  grpcEnabled := rfl
  logLevel := rfl
  level := shownLogLevel_mem config
  dns := rfl
  policy := rfl
  countable := sections.countable
  metricsListen := rfl
  grpcPort := rfl
  lower := (xrayApiBinding_port bound).1
  upper := (xrayApiBinding_port bound).2

theorem EditableSections.basics (sections : EditableSections numerals config) (port : Int) :
    writeBasics (shownRequest config port) false config =
      put "dns" (.obj (objectOrNew "dns" config))
        (put "log" (.obj (put "loglevel" (.str (shownLogLevel config)) (objectOrNew "log" config))) config) := by
  rw [writeBasics_eq]
  dsimp only
  split
  · rename_i written
    refine put_of_lookup ?_
    rw [lookup_put_other (by decide : "policy" ≠ "dns"), lookup_put_other (by decide : "policy" ≠ "log")]
    obtain ⟨state, complete⟩ := sections.policy
    unfold completeStatsPolicyState at complete
    split at complete
    · rename_i absent
      have empty : writtenPolicy (shownRequest config port) false = [] := by
        show objectOrNew "policy" config = []
        rw [objectOrNew, absent]
      rcases written with present | differs
      · rw [absent] at present
        cases present
      · exact absurd empty differs
    · rename_i policy here
      rw [here]
      exact congrArg (fun policy => some (Json.obj policy)) (objectOrNew_lookup here).symm
    · cases complete
  · rfl

variable {candidate : Fields}

theorem EditableSections.listener (sections : EditableSections numerals config) (statsAddress : Option String)
    (port : Int) (same : candidate.lookup "metrics" = config.lookup "metrics") :
    writeMetrics (systemChecks numerals statsAddress) (shownRequest config port) candidate =
      .ok (normalMetrics numerals candidate) := by
  have listens := sections.metrics
  unfold checkMetrics at listens
  split at listens
  · rename_i absent
    have off : ¬ (shownRequest config port).metricsEnabled = true := by
      show ¬ hasObject "metrics" config = true
      rw [hasObject, absent]
      decide
    have fresh : objectOrNew "metrics" candidate = [] := by rw [objectOrNew, same, absent]
    rw [writeMetrics, if_neg off, pop_of_absent (same.trans absent), normalMetrics, fresh]
    rfl
  · rename_i metrics here
    split at listens
    · cases listens
    · rename_i listen listed
      split at listens
      · rename_i loopback
        obtain ⟨endpoint, parsed⟩ := Option.isSome_iff_exists.mp loopback
        have on : (shownRequest config port).metricsEnabled = true := hasObject_lookup.mpr ⟨metrics, here⟩
        have text : (shownRequest config port).metricsListen = listen := by
          cases listen with
          | str text =>
            show Json.str (shownMetricsListen config) = .str text
            rw [shownMetricsListen, objectOrNew_lookup here, listed]
          | _ => cases parsed
        have old : objectOrNew "metrics" candidate = metrics := objectOrNew_lookup (same.trans here)
        have found : (systemChecks numerals statsAddress).loopback listen =
            some (formatEndpoint endpoint.1 endpoint.2) := by
          show (loopbackEndpoint numerals listen).map _ = _
          rw [parsed]
          rfl
        rw [writeMetrics, if_pos on, text, found, normalMetrics, old, listed]
        dsimp only
        rw [parsed]
      · cases listens
  · cases listens

theorem xrayApiBinding_congr (api : after.lookup "api" = before.lookup "api")
    (inbounds : after.lookup "inbounds" = before.lookup "inbounds")
    (outbounds : after.lookup "outbounds" = before.lookup "outbounds")
    (routing : after.lookup "routing" = before.lookup "routing") :
    xrayApiBinding numerals after = xrayApiBinding numerals before := by
  have arrays := apiArrays_congr inbounds outbounds routing
  unfold xrayApiBinding
  rw [api]
  split
  · rfl
  · rw [bindApi, bindApi, arrays]
  · rfl

theorem normalMetrics_changes (config : Fields) :
    ChangesOnly ["metrics"] config (normalMetrics numerals config) := by
  unfold normalMetrics
  split
  · exact .refl _ _
  · split
    · exact .refl _ _
    · exact (ChangesOnly.refl _ _).put (by decide) _

variable {checks : SystemChecks}

theorem writeApi_kept {api : Fields} (on : request.grpcEnabled = true) (port : request.grpcPort = binding.port)
    (here : candidate.lookup "api" = some (.obj api)) :
    writeApi checks request binding false false candidate = .ok candidate := by
  simp [writeApi, on, port, objectOrNew_lookup here, put_of_lookup here]

theorem writeApi_off (candidate : Fields) (off : request.grpcEnabled = false) (mode : binding.mode ≠ .routed) :
    writeApi checks request binding false false candidate = .ok (pop "api" candidate) := by
  simp [writeApi, off, mode]

theorem fixed_of_bound (free : fixedStatsAddressError numerals binding statsAddress = none)
    (bound : binding.mode ≠ .absent → xrayApiBinding numerals after = .ok binding) :
    (systemChecks numerals statsAddress).fixed after = true := by
  unfold systemChecks
  unfold fixedStatsAddressError at free
  cases statsAddress with
  | none => rfl
  | some address =>
    dsimp only at free ⊢
    split at free
    · cases free
    · rename_i required parsed
      split at free
      · cases free
      · rename_i present
        split at free
        · rename_i same
          rw [parsed, bound present]
          simp [present, same]
        · cases free

theorem WritableForm.saveShown (writable : WritableForm numerals statsAddress config binding) :
    applyXraySystemConfig numerals statsAddress config
        (shownForm config statsAddress (some binding.mode) binding.port none).payload =
      .ok (explicitDefaults numerals config) := by
  obtain ⟨sections, bound⟩ := requireEditable_ok.mp writable.1
  have sent := shownForm_submitted statsAddress sections bound (some binding.mode) none
  have basics := sections.basics binding.port
  generalize written : put "dns" (.obj (objectOrNew "dns" config))
    (put "log" (.obj (put "loglevel" (.str (shownLogLevel config)) (objectOrNew "log" config))) config) =
      candidate at basics
  have candidateSame : ChangesOnly ["log", "dns"] config candidate :=
    written ▸ ((ChangesOnly.refl _ _).put (by decide) _).put (by decide) _
  have listener := sections.listener statsAddress binding.port (candidateSame "metrics" (by decide))
  have same (key : String) (outside : key ∉ ["log", "dns", "metrics"]) :
      (normalMetrics numerals candidate).lookup key = config.lookup key := by
    simp only [List.mem_cons, List.not_mem_nil, or_false, not_or] at outside
    rw [normalMetrics_changes candidate key (by simp [outside]), candidateSame key (by simp [outside])]
  have explicit : explicitDefaults numerals config =
      if hasObject "api" config then normalMetrics numerals candidate
        else pop "api" (normalMetrics numerals candidate) :=
    written ▸ rfl
  have api : writeApi (systemChecks numerals statsAddress) (shownRequest config binding.port) binding false false
      (normalMetrics numerals candidate) = .ok (explicitDefaults numerals config) := by
    rw [explicit]
    split
    · rename_i present
      obtain ⟨api, here⟩ := hasObject_lookup.mp present
      exact writeApi_kept present rfl ((same "api" (by decide)).trans here)
    · rename_i absent
      rw [Bool.not_eq_true] at absent
      refine writeApi_off _ absent ?_
      rw [xrayApiBinding_absent bound absent]
      decide
  have fixed : (systemChecks numerals statsAddress).fixed (explicitDefaults numerals config) = true := by
    refine fixed_of_bound writable.2 fun mode => ?_
    have present : hasObject "api" config = true := by
      rw [← Bool.not_eq_false]
      intro absent
      exact mode (xrayApiBinding_absent bound absent ▸ rfl)
    rw [explicit, if_pos present, xrayApiBinding_congr (same "api" (by decide)) (same "inbounds" (by decide))
      (same "outbounds" (by decide)) (same "routing" (by decide)), bound]
  have steps : Applied (systemChecks numerals statsAddress) config
      (shownForm config statsAddress (some binding.mode) binding.port none).payload
        (shownRequest config binding.port) binding
      false false (normalMetrics numerals candidate) (explicitDefaults numerals config) :=
    { read := SystemRequest.read_ok.mpr sent, editable := systemChecks_editable.mpr writable,
      stats := (bne_self_eq_false _).symm, grpc := (bne_self_eq_false _).symm, listener :=
        basics ▸ listener, api := api,
      fixed := fixed }
  exact steps.apply

end

/-- The law of the form of a configuration: a save leaves the other sections, it is
read back exactly where the payload is consistent, and the form as it is shown only
makes its defaults explicit. -/
structure FormLaw (numerals : Numerals) (statsAddress : Option String) (config : Fields)
    (form : SystemForm) : Prop where
  others : ∀ payload after, applyXraySystemConfig numerals statsAddress config payload = .ok after →
    LeavesOthers numerals config payload after
  readBack : ∀ payload after, applyXraySystemConfig numerals statsAddress config payload = .ok after →
    ((∃ form', xraySystemConfig numerals statsAddress after = some form' ∧ ReadBack numerals payload form') ↔
      Consistent config payload form)
  asShown : applyXraySystemConfig numerals statsAddress config form.payload = .ok (explicitDefaults numerals config)

theorem systemForm_law (numerals : Numerals) (statsAddress : Option String) (config : Fields) (form : SystemForm)
    (shown : xraySystemConfig numerals statsAddress config = some form) (writable : form.writable = true) :
    FormLaw numerals statsAddress config form := by
  obtain ⟨binding, sound⟩ := xraySystemConfig_writable shown writable
  cases shown.symm.trans sound.shown
  refine ⟨fun payload after saved => ?_, fun payload after saved => ?_, sound.saveShown⟩
  · obtain ⟨request, binding, statsChanged, grpcChanged, metrics, steps⟩ := applySystemConfig_applied saved
    exact steps.leavesOthers
  · obtain ⟨request, binding, statsChanged, grpcChanged, metrics, steps⟩ := applySystemConfig_applied saved
    exact steps.readBack rfl rfl

/-- Numerals of which only the ASCII ones are digits. -/
def asciiNumerals : Numerals where
  ascii := id
  ascii_of_lt _ _ := rfl

/-- A routed API and a policy that counts. -/
def routedApiConfig : Fields :=
  [("api", .obj [("tag", .str "api"), ("services", .arr [.str "StatsService"])]), ("stats", .obj []),
    ("policy", .obj [("system", .obj (flags systemStatsCounters true))]),
    ("inbounds", .arr [.obj [("tag", .str "api"), ("protocol", .str "dokodemo-door"), ("listen", .str "127.0.0.1"),
      ("port", .int 10085)]]),
    ("routing", .obj [("rules", .arr [.obj [("inboundTag", .arr [.str "api"]), ("outboundTag", .str "api")]])])]

theorem routedApiConfig_law :
    FormLaw asciiNumerals (some "127.0.0.1:10085") routedApiConfig
      (shownForm routedApiConfig (some "127.0.0.1:10085") (some .routed) 10085 none) :=
  systemForm_law asciiNumerals (some "127.0.0.1:10085") routedApiConfig _ rfl rfl

/-- A save that turns the metrics off, with a listener. -/
def closedMetrics : Fields :=
  [("log_level", .str "warning"), ("dns", .obj []), ("policy", .obj []), ("metrics_enabled", .bool false),
    ("metrics_listen", .str "127.0.0.1:9999"), ("stats_enabled", .bool false), ("grpc_enabled", .bool false),
    ("grpc_port", .int 46736)]

/-- The listener of metrics that are off is not kept. -/
theorem closedMetrics_not_shown : ¬ ∀ (config payload after : Fields) (form : SystemForm),
      xraySystemConfig asciiNumerals none config = some form → form.writable = true →
      applyXraySystemConfig asciiNumerals none config payload = .ok after →
      ∃ form', xraySystemConfig asciiNumerals none after = some form' ∧ form'.writable = true ∧
        ∀ value endpoint, payload.lookup "metrics_listen" = some value →
          loopbackEndpoint asciiNumerals value = some endpoint →
          form'.metricsListen = formatEndpoint endpoint.1 endpoint.2 := by
  intro claim
  obtain ⟨form', shown, -, listens⟩ :=
    claim [] closedMetrics [("log", .obj [("loglevel", .str "warning")]), ("dns", .obj [])]
    (shownForm [] none (some .absent) 46736 none) rfl rfl rfl
  have text : form'.metricsListen = "127.0.0.1:11111" := by
    cases shown
    rfl
  have kept := listens (.str "127.0.0.1:9999") ("127.0.0.1", 9999) rfl (by decide +kernel)
  rw [text] at kept
  exact absurd kept (by decide +kernel)

end OpenNode.Agent
