import OpenNode.Lib.Loops
import OpenNode.XrayBinding

namespace OpenNode.Agent

open Assoc Literals Loops Edits List

def userStatsCounters : List String :=
  ["statsUserUplink", "statsUserDownlink"]

def systemStatsCounters : List String :=
  ["statsInboundUplink", "statsInboundDownlink", "statsOutboundUplink", "statsOutboundDownlink"]

def numericPolicyLevels (policy : Fields) : Except String (List Fields) :=
  match objectAt "levels" policy with
  | none => .error "Xray stats policy levels must be an object"
  | some levels =>
    (numericLevels levels).mapM fun name =>
      match objectAt name levels with
      | some level => .ok level
      | none => .error "Numeric Xray stats policy levels must be objects"

/-- The state of the counters of one container: none of them, or all of them alike. -/
def trackedState (counters : List String) (container : Fields) : Except String (Option Bool) :=
  let values := counters.filterMap fun counter => container.lookup counter
  match values.mapM Json.bool? with
  | some [] => .ok none
  | some (first :: rest) =>
    if values.length ≠ counters.length then
      .error "Partial Xray stats policy cannot be edited by the system-config form"
    else if rest.all (· == first) then .ok (some first)
    else .error "Mixed Xray stats policy cannot be edited by the system-config form"
  | none => .error "Partial Xray stats policy cannot be edited by the system-config form"

def policyState (policy : Fields) : Except String (Option Bool) :=
  match objectAt "system" policy with
  | none => .error "Xray stats system policy must be an object"
  | some system => do
    let levels ← numericPolicyLevels policy
    let ofSystem ← trackedState systemStatsCounters system
    let ofLevels ← levels.mapM (trackedState userStatsCounters)
    let tracked := ofSystem :: ofLevels
    match tracked.filterMap id with
    | [] => .ok none
    | first :: _ =>
      if tracked.all (· == some first) then .ok (some first)
      else .error "Partial Xray stats policy cannot be edited by the system-config form"

def completeStatsPolicyState (config : Fields) : Except String (Option Bool) :=
  match config.lookup "policy" with
  | none => .ok none
  | some (.obj policy) => policyState policy
  | some _ => .error "Xray stats policy must be an object"

def checkLog (config : Fields) : Except String Unit :=
  match config.lookup "log" with
  | none => .ok ()
  | some (.obj log) =>
    match (log.lookup "loglevel").getD (.str "warning") with
    | .str level => if level ∈ logLevels then .ok ()
        else .error "Existing Xray loglevel is not supported by this form"
    | _ => .error "Existing Xray loglevel is not supported by this form"
  | some _ => .error "Xray log configuration must be an object"

/-- A section that is absent or an object. -/
def checkObject (key error : String) (config : Fields) : Except String Unit :=
  if (config.lookup key).isNone || hasObject key config then .ok () else .error error

section

variable (numerals : Numerals)

def checkMetrics (config : Fields) : Except String Unit :=
  match config.lookup "metrics" with
  | none => .ok ()
  | some (.obj metrics) =>
    match metrics.lookup "listen" with
    | none => .error "Routed or tag-only metrics cannot be edited by the system-config form"
    | some listen =>
      if (loopbackEndpoint numerals listen).isSome then .ok ()
      else .error "Existing metrics must use a literal loopback listener"
  | some _ => .error "Routed or tag-only metrics cannot be edited by the system-config form"

/-- The sections of the form, apart from the API. -/
def checkSections (config : Fields) : Except String (Option Bool) := do
  checkLog config
  checkObject "dns" "Xray DNS configuration must be an object" config
  checkMetrics numerals config
  checkObject "stats" "Xray stats must be an object" config
  completeStatsPolicyState config

def requireEditableSystemConfig (config : Fields) : Except Raised ApiBinding :=
  match checkSections numerals config with
  | .error text => .error (.failure text)
  | .ok _ => xrayApiBinding numerals config

def fixedStatsAddressError (binding : ApiBinding) (statsAddress : Option String) : Option String :=
  match statsAddress with
  | none => none
  | some address =>
    match loopbackEndpoint numerals (.str address) with
    | none => some "Configured stats_address must be a literal loopback IP and port"
    | some required =>
      if binding.mode = .absent then some
        "Xray API endpoint is missing and does not match the configured stats_address"
      else if (binding.host, binding.port) = required then none
      else
        some ("Xray API endpoint " ++ formatEndpoint binding.host binding.port ++
          " does not match the configured stats_address " ++ formatEndpoint required.1 required.2)

/-- What `xray_system_config` reports; an unsupported API has no mode. -/
structure SystemForm where
  logLevel : String
  dns : Fields
  policy : Fields
  metricsEnabled : Bool
  metricsListen : String
  statsEnabled : Bool
  grpcEnabled : Bool
  grpcPort : Int
  apiMode : Option ApiMode
  grpcDisableSupported : Bool
  grpcPortWritable : Bool
  fixedStatsAddress : Option String
  writable : Bool
  readOnlyReason : Option String

def shownLogLevel (config : Fields) : String :=
  match ((objectOrNew "log" config).lookup "loglevel").getD (.str "warning") with
  | .str level => if level ∈ logLevels then level else "warning"
  | _ => "warning"

def shownMetricsListen (config : Fields) : String :=
  match (objectOrNew "metrics" config).lookup "listen" with
  | some (.str listen) => listen
  | _ => "127.0.0.1:11111"

/-- `policy_state is True`. -/
def policyTracks (config : Fields) : Bool :=
  match completeStatsPolicyState config with
  | .ok (some true) => true
  | _ => false

def shownForm (config : Fields) (statsAddress : Option String) (mode : Option ApiMode) (port : Int)
    (reason : Option String) :
    SystemForm where
  logLevel := shownLogLevel config
  dns := objectOrNew "dns" config
  policy := objectOrNew "policy" config
  metricsEnabled := hasObject "metrics" config
  metricsListen := shownMetricsListen config
  statsEnabled := hasObject "stats" config && policyTracks config
  grpcEnabled := hasObject "api" config
  grpcPort := port
  apiMode := mode
  grpcDisableSupported := reason.isNone && statsAddress.isNone && (mode = some .absent || mode = some .direct)
  grpcPortWritable := reason.isNone && statsAddress.isNone && mode.isSome
  fixedStatsAddress := statsAddress
  writable := reason.isNone
  readOnlyReason := reason

/-- `xray_system_config`, which shows nothing where Python raises a `TypeError`. -/
def xraySystemConfig (statsAddress : Option String) (config : Fields) : Option SystemForm :=
  match requireEditableSystemConfig numerals config with
  | .ok binding =>
    some (shownForm config statsAddress (some binding.mode) binding.port
      (fixedStatsAddressError numerals binding statsAddress))
  | .error .typeError => none
  | .error (.failure reason) =>
    match xrayApiBinding numerals config with
    | .ok binding => some (shownForm config statsAddress (some binding.mode) binding.port (some reason))
    | .error (.failure _) => some (shownForm config statsAddress none 46736 (some reason))
    | .error .typeError => none

/-- The checks of the form for an Agent with this `stats_address`. -/
def systemChecks (statsAddress : Option String) : SystemChecks where
  editable config :=
    match requireEditableSystemConfig numerals config with
    | .error (.failure text) => .error text
    | .error .typeError => .error "TypeError"
    | .ok binding =>
      match fixedStatsAddressError numerals binding statsAddress with
      | some text => .error text
      | none => .ok binding
  complete := policyTracks
  loopback value := (loopbackEndpoint numerals value).map fun endpoint => formatEndpoint endpoint.1 endpoint.2
  endpoint := formatEndpoint
  fixed candidate :=
    match statsAddress with
    | none => true
    | some address =>
      match loopbackEndpoint numerals (.str address), xrayApiBinding numerals candidate with
      | some required, .ok binding => binding.mode ≠ .absent && (binding.host, binding.port) = required
      | _, _ => false

/-- `apply_xray_system_config` on an Agent with this `stats_address`. -/
def applyXraySystemConfig (statsAddress : Option String) (config payload : Fields) : Except String Fields :=
  applySystemConfig (systemChecks numerals statsAddress) config payload

end

/-- A policy whose containers of counters are objects. -/
structure CountablePolicy (policy : Fields) : Prop where
  levels : ∃ levels, objectAt "levels" policy = some levels ∧ ∀ name ∈ numericLevels levels,
    (objectAt name levels).isSome = true
  system : (objectAt "system" policy).isSome = true

/-- The fields of a submitted form. -/
structure Submitted (payload : Fields) (request : SystemRequest) : Prop where
  complete : (Json.obj payload).hasExactly systemConfigKeys = true
  metricsEnabled : payload.lookup "metrics_enabled" = some (.bool request.metricsEnabled)
  statsEnabled : payload.lookup "stats_enabled" = some (.bool request.statsEnabled)
  grpcEnabled : payload.lookup "grpc_enabled" = some (.bool request.grpcEnabled)
  logLevel : payload.lookup "log_level" = some (.str request.logLevel)
  level : request.logLevel ∈ logLevels
  dns : payload.lookup "dns" = some (.obj request.dns)
  policy : payload.lookup "policy" = some (.obj request.policy)
  countable : CountablePolicy request.policy
  metricsListen : (payload.lookup "metrics_listen").getD .null = request.metricsListen
  grpcPort : payload.lookup "grpc_port" = some (.int request.grpcPort)
  lower : 1 ≤ request.grpcPort
  upper : request.grpcPort ≤ 65535

variable {key : String}

theorem boolField_ok {payload : Fields} {value : Bool} :
    boolField key payload = .ok value ↔ payload.lookup key = some (.bool value) := by
  unfold boolField
  constructor
  · intro found
    split at found
    · rename_i other here
      rw [here, Except.ok.inj found]
    · cases found
  · intro here
    rw [here]

theorem objectField_ok {payload value : Fields} :
    objectField key payload = .ok value ↔ payload.lookup key = some (.obj value) := by
  unfold objectField
  constructor
  · intro found
    split at found
    · rename_i other here
      rw [here, Except.ok.inj found]
    · cases found
  · intro here
    rw [here]

theorem levelField_ok {payload : Fields} {level : String} :
    levelField payload = .ok level ↔ payload.lookup "log_level" = some (.str level) ∧ level ∈ logLevels := by
  unfold levelField
  constructor
  · intro found
    split at found
    · rename_i other here
      split at found
      · rename_i known
        cases found
        exact ⟨here, known⟩
      · cases found
    · cases found
  · rintro ⟨here, known⟩
    rw [here]
    exact if_pos known

theorem portField_ok {payload : Fields} {port : Int} :
    portField payload = .ok port ↔ payload.lookup "grpc_port" = some (.int port) ∧ 1 ≤ port ∧ port ≤ 65535 := by
  unfold portField
  constructor
  · intro found
    split at found
    · rename_i other here
      split at found
      · rename_i range
        cases found
        exact ⟨here, range⟩
      · cases found
    · cases found
  · rintro ⟨here, range⟩
    rw [here]
    exact if_pos range

theorem checkPolicy_ok {policy : Fields} : checkPolicy policy = .ok () ↔ CountablePolicy policy := by
  unfold checkPolicy
  constructor
  · intro checked
    split at checked
    · cases checked
    · rename_i levels here
      split at checked
      · cases checked
      · rename_i objects
        split at checked
        · cases checked
        · rename_i system
          refine ⟨⟨levels, here, fun name listed => ?_⟩, by simpa [Option.isSome_iff_ne_none] using system⟩
          rw [Option.isSome_iff_ne_none]
          intro absent
          exact objects (List.any_eq_true.mpr ⟨name, listed, by rw [absent]; rfl⟩)
  · rintro ⟨⟨levels, here, objects⟩, system⟩
    have each : ((numericLevels levels).any fun name => (objectAt name levels).isNone) = false := by
      rw [any_eq_false]
      intro name listed
      simp [Option.isSome_iff_ne_none.mp (objects name listed)]
    rw [here]
    simp [each, Option.isSome_iff_ne_none.mp system]

variable {request : SystemRequest}

theorem SystemRequest.read_ok {payload : Fields} :
    SystemRequest.read payload = .ok request ↔ Submitted payload request := by
  constructor
  · intro read
    unfold SystemRequest.read at read
    split at read
    · cases read
    · rename_i complete
      obtain ⟨metricsEnabled, metrics, read⟩ := bind_eq_ok read
      obtain ⟨statsEnabled, stats, read⟩ := bind_eq_ok read
      obtain ⟨grpcEnabled, grpc, read⟩ := bind_eq_ok read
      obtain ⟨logLevel, level, read⟩ := bind_eq_ok read
      obtain ⟨dns, resolver, read⟩ := bind_eq_ok read
      obtain ⟨policy, rules, read⟩ := bind_eq_ok read
      obtain ⟨_, checked, read⟩ := bind_eq_ok read
      obtain ⟨port, listed, read⟩ := bind_eq_ok read
      cases read
      exact
        { complete := by simpa using complete, metricsEnabled := boolField_ok.mp metrics,
          statsEnabled := boolField_ok.mp stats, grpcEnabled := boolField_ok.mp grpc, logLevel :=
            (levelField_ok.mp level).1,
          level := (levelField_ok.mp level).2, dns := objectField_ok.mp resolver, policy := objectField_ok.mp rules,
          countable := checkPolicy_ok.mp checked, metricsListen := rfl, grpcPort := (portField_ok.mp listed).1,
          lower := (portField_ok.mp listed).2.1, upper := (portField_ok.mp listed).2.2 }
  · intro sent
    have complete : ¬ (!(Json.obj payload).hasExactly systemConfigKeys) = true := by simp [sent.complete]
    rw [SystemRequest.read, if_neg complete, bind_ok (boolField_ok.mpr sent.metricsEnabled),
      bind_ok (boolField_ok.mpr sent.statsEnabled), bind_ok (boolField_ok.mpr sent.grpcEnabled),
      bind_ok (levelField_ok.mpr ⟨sent.logLevel, sent.level⟩), bind_ok (objectField_ok.mpr sent.dns),
      bind_ok (objectField_ok.mpr sent.policy), bind_ok (checkPolicy_ok.mpr sent.countable),
      bind_ok (portField_ok.mpr ⟨sent.grpcPort, sent.lower, sent.upper⟩), sent.metricsListen]

theorem trackedState_uniform {counters : List String} {container : Fields} {enabled : Bool}
    (nonempty : counters ≠ [])
    (each : ∀ counter ∈ counters, container.lookup counter = some (.bool enabled)) :
    trackedState counters container = .ok (some enabled) := by
  have values : (counters.filterMap fun counter => container.lookup counter) = counters.map fun _ =>
      Json.bool enabled := by
    rw [← filterMap_eq_map]
    exact filterMap_congr each
  have flags : (counters.map fun _ => Json.bool enabled).mapM Json.bool? = some (counters.map fun _ =>
      enabled) := by
    clear nonempty each values
    induction counters with
    | nil => rfl
    | cons counter rest ih =>
      rw [map_cons, mapM_cons, ih]
      rfl
  obtain ⟨counter, rest, rfl⟩ := exists_cons_of_ne_nil nonempty
  rw [trackedState, values, flags]
  simp

theorem policyState_uniform {policy system levels : Fields} {enabled : Bool}
    (systemHere : objectAt "system" policy = some system)
    (levelsHere : objectAt "levels" policy = some levels)
    (ofSystem : ∀ counter ∈ systemStatsCounters, system.lookup counter = some (.bool enabled))
    (ofLevels : ∀ name ∈ numericLevels levels, ∃ level, objectAt name levels = some level ∧
      ∀ counter ∈ userStatsCounters, level.lookup counter = some (.bool enabled)) :
    policyState policy = .ok (some enabled) := by
  obtain ⟨numeric, listed⟩ : ∃ numeric, numericPolicyLevels policy = .ok numeric := by
    rw [numericPolicyLevels, levelsHere]
    refine mapM_exists fun name member => ?_
    obtain ⟨level, here, -⟩ := ofLevels name member
    exact ⟨level, by rw [here]⟩
  have each (level : Fields) (member : level ∈ numeric) : trackedState userStatsCounters level =
      .ok (some enabled) := by
    rw [numericPolicyLevels, levelsHere] at listed
    obtain ⟨name, named, read⟩ := forall₂_exists (mapM_ok listed).flip member
    obtain ⟨known, here, counted⟩ := ofLevels name named
    rw [here] at read
    cases read
    exact trackedState_uniform (by decide) counted
  obtain ⟨states, tracked⟩ := mapM_exists fun level member => ⟨some enabled, each level member⟩
  have alike (state : Option Bool) (member : state ∈ states) : state = some enabled := by
    obtain ⟨level, here, read⟩ := forall₂_exists (mapM_ok tracked).flip member
    exact Except.ok.inj (read.symm.trans (each level here))
  rw [policyState, systemHere]
  dsimp only
  rw [bind_ok listed, bind_ok (trackedState_uniform (by decide) ofSystem), bind_ok tracked]
  rw [filterMap_cons_some (rfl : id (some enabled) = some enabled)]
  refine if_pos (List.all_eq_true.mpr fun state member => ?_)
  rcases List.mem_cons.mp member with rfl | member
  · exact beq_self_eq_true _
  · rw [alike state member]
    exact beq_self_eq_true _

theorem objectAt_of_lookup {fields inner : Fields} (here : fields.lookup key = some (.obj inner)) :
    objectAt key fields = some inner := by
  rw [objectAt, here]
  rfl

theorem lookup_flags {counters : List String} (distinct : counters.Nodup) (enabled : Bool) (container : Fields)
    {counter : String}
    (listed : counter ∈ counters) : (update container (flags counters enabled)).lookup counter =
      some (.bool enabled) := by
  refine lookup_update ?_ (mem_map_of_mem listed)
  rw [flags, map_map]
  exact (map_id counters).symm ▸ distinct

theorem policyState_counted (policy : Fields) (enabled : Bool) :
    policyState (countedPolicy policy enabled) = .ok (some enabled) := by
  have distinct (levels system : Json) : ([("levels", levels), ("system", system)].map Prod.fst).Nodup :=
    (by decide : ["levels", "system"].Nodup)
  have levelled (level : Fields) (counter : String) (listed : counter ∈ userStatsCounters) :
      (update level (flags ["statsUserUplink", "statsUserDownlink", "statsUserOnline"] enabled)).lookup counter =
        some (.bool enabled) :=
    lookup_flags (by decide) enabled level (mem_append_left ["statsUserOnline"] listed)
  refine policyState_uniform
    (objectAt_of_lookup (lookup_update (distinct _ _) (mem_cons_of_mem _ (mem_singleton_self _))))
    (objectAt_of_lookup (lookup_update (distinct _ _) mem_cons_self)) (fun counter listed => ?_) fun name member =>
      ?_
  · exact lookup_flags (by decide) enabled _ listed
  · -- A numeric level is one of those that were counted.
    have named : name ∈ if numericLevels (objectOrNew "levels" policy) = [] then ["0"]
        else numericLevels (objectOrNew "levels" policy) := by
      obtain ⟨key, numeric⟩ := List.mem_filter.mp member
      rcases mem_keys_foldl_put key with listed | old
      · exact listed
      · have here : name ∈ numericLevels (objectOrNew "levels" policy) := List.mem_filter.mpr ⟨old, numeric⟩
        rw [if_neg (ne_nil_of_mem here)]
        exact here
    obtain ⟨level, here, counted⟩ := lookup_foldl_put
      (p := fun level => ∃ fields, level = .obj fields ∧ ∀ counter ∈ userStatsCounters,
        fields.lookup counter = some (.bool enabled))
      (fun levels key => ⟨_, rfl, levelled (objectOrNew key levels)⟩) (.inl named)
    obtain ⟨fields, rfl, counted⟩ := counted
    exact ⟨fields, objectAt_of_lookup here, counted⟩

section

variable {numerals : Numerals} {statsAddress : Option String}

variable {config : Fields}

theorem checkObject_ok {key error : String} :
    checkObject key error config = .ok () ↔ config.lookup key = none ∨ hasObject key config = true := by
  unfold checkObject
  constructor
  · intro checked
    split at checked
    · rename_i sound
      simpa using sound
    · cases checked
  · intro sound
    exact if_pos (by simpa using sound)

structure EditableSections (numerals : Numerals) (config : Fields) : Prop where
  log : checkLog config = .ok ()
  dns : config.lookup "dns" = none ∨ hasObject "dns" config = true
  metrics : checkMetrics numerals config = .ok ()
  stats : config.lookup "stats" = none ∨ hasObject "stats" config = true
  policy : ∃ state, completeStatsPolicyState config = .ok state

theorem checkSections_ok :
    (∃ state, checkSections numerals config = .ok state) ↔ EditableSections numerals config := by
  constructor
  · rintro ⟨state, checked⟩
    obtain ⟨_, log, checked⟩ := bind_eq_ok checked
    obtain ⟨_, dns, checked⟩ := bind_eq_ok checked
    obtain ⟨_, metrics, checked⟩ := bind_eq_ok checked
    obtain ⟨_, stats, policy⟩ := bind_eq_ok checked
    exact ⟨log, checkObject_ok.mp dns, metrics, checkObject_ok.mp stats, state, policy⟩
  · intro sections
    obtain ⟨state, policy⟩ := sections.policy
    refine ⟨state, ?_⟩
    rw [checkSections, bind_ok sections.log, bind_ok (checkObject_ok.mpr sections.dns),
      bind_ok sections.metrics, bind_ok (checkObject_ok.mpr sections.stats), policy]

theorem requireEditable_ok {binding : ApiBinding} : requireEditableSystemConfig numerals config = .ok binding ↔
      EditableSections numerals config ∧ xrayApiBinding numerals config = .ok binding := by
  unfold requireEditableSystemConfig
  constructor
  · intro required
    split at required
    · cases required
    · rename_i state checked
      exact ⟨checkSections_ok.mp ⟨state, checked⟩, required⟩
  · rintro ⟨sections, bound⟩
    obtain ⟨state, checked⟩ := checkSections_ok.mpr sections
    rw [checked]
    exact bound

/-- The form of a configuration that may be saved. -/
def WritableForm (numerals : Numerals) (statsAddress : Option String) (config : Fields)
    (binding : ApiBinding) : Prop :=
  requireEditableSystemConfig numerals config = .ok binding ∧
    fixedStatsAddressError numerals binding statsAddress = none

theorem WritableForm.shown {binding : ApiBinding} (writable : WritableForm numerals statsAddress config binding) :
    xraySystemConfig numerals statsAddress config =
      some (shownForm config statsAddress (some binding.mode) binding.port none) := by
  rw [xraySystemConfig, writable.1]
  dsimp only
  rw [writable.2]

theorem xraySystemConfig_writable {form : SystemForm}
    (shown : xraySystemConfig numerals statsAddress config = some form) (writable : form.writable = true) :
    ∃ binding, WritableForm numerals statsAddress config binding := by
  unfold xraySystemConfig at shown
  split at shown
  · rename_i binding required
    cases shown
    exact ⟨binding, required, Option.isNone_iff_eq_none.mp writable⟩
  · cases shown
  · split at shown
    · cases shown
      cases writable
    · cases shown
      cases writable
    · cases shown

theorem systemChecks_editable {binding : ApiBinding} :
    (systemChecks numerals statsAddress).editable config = .ok binding ↔
      WritableForm numerals statsAddress config binding := by
  unfold systemChecks WritableForm
  dsimp only
  constructor
  · intro editable
    split at editable
    · cases editable
    · cases editable
    · rename_i found required
      split at editable
      · cases editable
      · rename_i free
        cases editable
        exact ⟨required, free⟩
  · rintro ⟨required, free⟩
    rw [required]
    dsimp only
    rw [free]

theorem hasObject_lookup : hasObject key config = true ↔ ∃ inner, config.lookup key = some (.obj inner) := by
  unfold hasObject
  constructor
  · intro has
    split at has
    · rename_i inner here
      exact ⟨inner, here⟩
    · cases has
  · rintro ⟨inner, here⟩
    rw [here]

theorem objectOrNew_lookup {config inner : Fields} (here : config.lookup key = some (.obj inner)) :
    objectOrNew key config = inner := by
  rw [objectOrNew, here]

/-- The policy that a save writes. -/
def writtenPolicy (request : SystemRequest) (statsChanged : Bool) : Fields :=
  if statsChanged then countedPolicy request.policy request.statsEnabled else request.policy

theorem writeBasics_eq (request : SystemRequest) (statsChanged : Bool) (config : Fields) :
    writeBasics request statsChanged config =
      let log := Json.obj (put "loglevel" (.str request.logLevel) (objectOrNew "log" config))
      let candidate := put "dns" (.obj request.dns) (put "log" log config)
      if (config.lookup "policy").isSome ∨ writtenPolicy request statsChanged ≠ [] then
        put "policy" (.obj (writtenPolicy request statsChanged)) candidate
      else candidate :=
  rfl

theorem writeBasics_sections (request : SystemRequest) (statsChanged : Bool) (config : Fields) :
    (writeBasics request statsChanged config).lookup "log" =
        some (.obj (put "loglevel" (.str request.logLevel) (objectOrNew "log" config))) ∧
      (writeBasics request statsChanged config).lookup "dns" = some (.obj request.dns) := by
  rw [writeBasics_eq]
  split
  · rw [lookup_put_other (by decide : "log" ≠ "policy"), lookup_put_other (by decide : "log" ≠ "dns"),
      lookup_put_self,
      lookup_put_other (by decide : "dns" ≠ "policy"), lookup_put_self]
    exact ⟨rfl, rfl⟩
  · rw [lookup_put_other (by decide : "log" ≠ "dns"), lookup_put_self, lookup_put_self]
    exact ⟨rfl, rfl⟩

theorem writeBasics_policy (request : SystemRequest) (statsChanged : Bool) (config : Fields) :
    (writeBasics request statsChanged config).lookup "policy" = some (.obj (writtenPolicy request statsChanged)) ∨
      (writeBasics request statsChanged config).lookup "policy" = none ∧
        writtenPolicy request statsChanged = [] := by
  rw [writeBasics_eq]
  split
  · exact .inl (lookup_put_self _ _ _)
  · rename_i empty
    rw [not_or, not_not] at empty
    refine .inr ⟨?_, empty.2⟩
    rw [lookup_put_other (by decide : "policy" ≠ "dns"), lookup_put_other (by decide : "policy" ≠ "log")]
    exact Option.not_isSome_iff_eq_none.mp empty.1

theorem completeStatsPolicyState_written {statsChanged : Bool} {config after : Fields}
    (same : after.lookup "policy" = (writeBasics request statsChanged config).lookup "policy") :
    completeStatsPolicyState after = policyState (writtenPolicy request statsChanged) := by
  unfold completeStatsPolicyState
  rw [same]
  rcases writeBasics_policy request statsChanged config with here | ⟨absent, empty⟩
  · rw [here]
  · rw [absent, empty]
    rfl

theorem writeMetrics_metrics {candidate after : Fields}
    (written : writeMetrics (systemChecks numerals statsAddress) request candidate = .ok after) :
    if request.metricsEnabled then
      ∃ endpoint, loopbackEndpoint numerals request.metricsListen = some endpoint ∧
        after.lookup "metrics" =
          some (.obj (put "listen" (.str (formatEndpoint endpoint.1 endpoint.2)) (objectOrNew "metrics" candidate)))
    else after.lookup "metrics" = none := by
  unfold writeMetrics at written
  split at written
  · rename_i enabled
    rw [if_pos enabled]
    split at written
    · cases written
    · rename_i text found
      obtain ⟨endpoint, parsed, rfl⟩ := Option.map_eq_some_iff.mp found
      cases written
      exact ⟨endpoint, parsed, lookup_put_self _ _ _⟩
  · rename_i disabled
    rw [if_neg disabled]
    cases written
    exact lookup_pop_self _ _

theorem writeStats_stats (request : SystemRequest) (statsChanged : Bool) (candidate : Fields) :
    hasObject "stats" (writeStats request statsChanged candidate) =
        (if statsChanged then request.statsEnabled else hasObject "stats" candidate) ∧
      (candidate.lookup "stats" = none ∨ hasObject "stats" candidate = true →
        (writeStats request statsChanged candidate).lookup "stats" = none ∨
          hasObject "stats" (writeStats request statsChanged candidate) = true) := by
  unfold writeStats
  cases statsChanged with
  | false => exact ⟨rfl, id⟩
  | true =>
    cases enabled : request.statsEnabled with
    | false => exact ⟨by simp [hasObject, lookup_pop_self], fun _ => .inl (lookup_pop_self _ _)⟩
    | true =>
      have here : hasObject "stats" (put "stats" (.obj (objectOrNew "stats" candidate)) candidate) = true :=
        hasObject_lookup.mpr ⟨_, lookup_put_self _ _ _⟩
      exact ⟨here, fun _ => .inr here⟩

theorem namedServices_put (differs : "services" ≠ key) (value : Json) (api : Fields) :
    namedServices (put key value api) = namedServices api := by
  rw [namedServices, namedServices, lookup_put_other differs]

theorem apiTag_put (differs : "tag" ≠ key) (value : Json) (api : Fields) :
    apiTag (put key value api) = apiTag api := by
  rw [apiTag, apiTag, lookup_put_other differs]

theorem namedServices_written {statsChanged grpcChanged : Bool} {api : Fields}
    (named : namedServices api = true) (other : Fields) :
    namedServices (put "services" (.arr (apiServices request statsChanged grpcChanged api)) other) = true := by
  have texts : ∀ item ∈ apiServices request statsChanged grpcChanged api, item.str?.isSome = true := by
    unfold namedServices at named
    split at named
    · rename_i services listed
      have old := List.all_eq_true.mp named
      rw [apiServices, listed]
      dsimp only
      split
      · split
        · split
          · exact old
          · intro item member
            rcases List.mem_append.mp member with here | new
            · exact old item here
            · rw [List.mem_singleton.mp new]
              rfl
        · split
          · exact fun item member => old item (mem_of_mem_filter member)
          · exact old
      · exact old
    · cases named
  rw [namedServices, lookup_put_self]
  exact List.all_eq_true.mpr texts

/-- Nothing of a configuration uses the tag that an enabled API gets. -/
def apiFree (config : Fields) : Bool :=
  match apiArrays config with
  | none => false
  | some arrays => !arrays.outbounds.any (tagged "api") && unrelated "api" arrays


/-- How the API reads after a save. -/
inductive ApiAfter (numerals : Numerals) (config after : Fields) (request : SystemRequest)
    (binding : ApiBinding) : Prop
  | disabled (off : request.grpcEnabled = false) (gone : after.lookup "api" = none)
  | kept (on : request.grpcEnabled = true) (before : hasObject "api" config =
      true) (now : hasObject "api" after = true)
      (bound : xrayApiBinding numerals after = .ok { binding with port := request.grpcPort })
  | opened (on : request.grpcEnabled = true) (before : hasObject "api" config =
      false) (now : hasObject "api" after = true)
      (bound : apiFree config = true ∧ xrayApiBinding numerals after =
            .ok { mode := .direct, host := "127.0.0.1", port := request.grpcPort, inboundIndex := none } ∨
        apiFree config = false ∧ ∃ text, xrayApiBinding numerals after = .error (.failure text))

theorem xrayApiBinding_object {config api : Fields} (here : config.lookup "api" = some (.obj api)) :
    xrayApiBinding numerals config = bindApi numerals api config := by
  rw [xrayApiBinding, here]
  rfl

theorem xrayApiBinding_absent {binding : ApiBinding} (bound : xrayApiBinding numerals config = .ok binding)
    (absent : hasObject "api" config = false) : binding = absentBinding := by
  unfold xrayApiBinding at bound
  split at bound
  · exact (Except.ok.inj bound).symm
  · rename_i api here
    cases lookup : config.lookup "api" with
    | none =>
      rw [lookup] at here
      cases here
    | some value =>
      rw [lookup, Option.getD_some] at here
      rw [hasObject_lookup.mpr ⟨api, here ▸ lookup⟩] at absent
      cases absent
  · cases bound

theorem localhost : LoopbackHost "127.0.0.1" where
  known := ⟨.v4 127 0 0 1, by decide +kernel, rfl, by decide +kernel⟩
  form := .inl fun c here => by
    have all : ("127.0.0.1".toList.all fun c => c = '.' || c.isDigit) = true := by decide +kernel
    simpa using List.all_eq_true.mp all c here

theorem bindApi_opened {after api : Fields} (config : Fields) {port : Int} (lower : 1 ≤ port) (upper : port ≤ 65535)
    (same : apiArrays after = apiArrays config) (services : namedServices api = true)
    (named : apiTag api = some "api")
    (listens : api.lookup "listen" = some (.str (formatEndpoint "127.0.0.1" port))) :
    apiFree config = true ∧
        bindApi numerals api after =
          .ok { mode := .direct, host := "127.0.0.1", port := port, inboundIndex := none } ∨
      apiFree config = false ∧ ∃ text, bindApi numerals api after = .error (.failure text) := by
  cases listed : apiArrays config with
  | none => exact .inr ⟨by rw [apiFree, listed], _, by simp only [bindApi, services, named, same, listed]; rfl⟩
  | some arrays =>
    cases taken : arrays.outbounds.any (tagged "api") with
    | true =>
      refine .inr ⟨by simp only [apiFree, listed, taken]; rfl,
        "Xray API tag conflicts with an explicit outbound", ?_⟩
      simp only [bindApi, services, named, same, listed, taken]
      rfl
    | false =>
      have bound : Bound api after "api" arrays := ⟨services, named, same.trans listed, taken⟩
      rw [bound.bindApi]
      cases apart : unrelated "api" arrays with
      | true =>
        exact .inl ⟨by simp only [apiFree, listed, taken, apart]; rfl,
          endpointBinding_direct apart localhost lower upper listens⟩
      | false =>
        refine .inr ⟨by simp only [apiFree, listed, taken, apart]; rfl,
          "Mixed direct and routed Xray API configuration is read-only in this form", ?_⟩
        rw [endpointBinding, listens]
        dsimp only
        rw [directBinding, localhost.endpoint lower upper]
        exact if_pos (by rwa [unrelated, Bool.not_eq_false'] at apart)

theorem xrayApiBinding_kept {config api : Fields} {binding : ApiBinding}
    (here : config.lookup "api" = some (.obj api))
    (bound : xrayApiBinding numerals config = .ok binding) :
    ∃ tag arrays, Bound api config tag arrays ∧ endpointBinding numerals tag api arrays = .ok binding :=
  bindApi_bound ((xrayApiBinding_object here).symm.trans bound)

theorem Bound.binding {config api : Fields} {tag : String} {arrays : ApiArrays}
    (sound : Bound api config tag arrays)
    {after api' : Fields} {arrays' : ApiArrays} (here : after.lookup "api" = some (.obj api'))
    (kept : namedServices api' = true ∧ apiTag api' = apiTag api) (listed : apiArrays after = some arrays')
    (outbounds : arrays'.outbounds = arrays.outbounds) :
    xrayApiBinding numerals after = endpointBinding numerals tag api' arrays' := by
  have next : Bound api' after tag arrays' :=
    ⟨kept.1, kept.2.trans sound.named, listed, outbounds ▸ sound.outbounds⟩
  rw [xrayApiBinding_object here, next.bindApi]

theorem setInboundPort_listed {index : Nat} {port : Int} {items : List Json}
    (listed : config.lookup "inbounds" = some (.arr items)) :
    (setInboundPort (some index) port config).lookup "inbounds" =
      some (.arr (items.modify index (withPort port))) := by
  simp only [setInboundPort, listed, lookup_put_self]
  rfl

theorem endpoint_kept {config api api' candidate after : Fields} {tag : String} {arrays : ApiArrays}
    {binding : ApiBinding}
    {port : Int} (lower : 1 ≤ port) (upper : port ≤ 65535) (sound : Bound api config tag arrays)
    (endpointed : endpointBinding numerals tag api arrays = .ok binding)
    (same : ChangesOnly ["log", "dns", "policy", "metrics", "stats"] config candidate)
    (kept : namedServices api' = true ∧ apiTag api' = apiTag api)
    (listens : api'.lookup "listen" = api.lookup "listen")
    (written : (if binding.mode = .routed ∧ port ≠ binding.port then
        Except.ok (ε := String) (setInboundPort binding.inboundIndex port (put "api" (.obj api') candidate))
      else if binding.mode = .direct ∧ port ≠ binding.port then
        .ok (put "api" (.obj (put "listen" (.str (formatEndpoint binding.host port)) api')) candidate)
      else .ok (put "api" (.obj api') candidate)) = .ok after) :
    hasObject "api" after = true ∧ xrayApiBinding numerals after = .ok { binding with port := port } := by
  have others (value : Json) (key : String) (differs : key ≠ "api")
      (outside : key ∉ ["log", "dns", "policy", "metrics", "stats"]) :
      (put "api" value candidate).lookup key = config.lookup key :=
    (lookup_put_other differs _ _).trans (same key outside)
  have arraysSame (value : Json) : apiArrays (put "api" value candidate) = some arrays :=
    (apiArrays_congr (others value _ (by decide) (by decide)) (others value _ (by decide) (by decide))
      (others value _ (by decide) (by decide))).trans sound.listed
  split at written
  · rename_i moved
    cases written
    rcases endpointBinding_cases endpointed with ⟨direct, -⟩ | ⟨-, absent, routed⟩
    · rw [moved.1] at direct
      cases direct
    · obtain ⟨-, -, -, index, carrier, renumbered⟩ := routedBinding_port routed
      have listed := (others (.obj api') "inbounds" (by decide) (by decide)).trans
        (routedBinding_listed sound.listed routed)
      have keeps := setInboundPort_changes (some index) port (put "api" (.obj api') candidate)
      have here := (keeps "api" (by decide)).trans (lookup_put_self _ _ _)
      have moves := apiArrays_inbounds (arraysSame (.obj api')) (setInboundPort_listed listed)
        (keeps "outbounds" (by decide))
        (keeps "routing" (by decide))
      rw [carrier]
      refine ⟨hasObject_lookup.mpr ⟨_, here⟩, ?_⟩
      rw [sound.binding here kept moves rfl, endpointBinding, listens, absent]
      exact (renumbered port lower upper).trans (by rw [carrier])
  · split at written
    · rename_i moved
      cases written
      rcases endpointBinding_cases endpointed with ⟨-, host, -, -, apart, carrier⟩ | ⟨routed, -⟩
      · have here := lookup_put_self "api" (Json.obj (put "listen" (.str (formatEndpoint binding.host port)) api'))
          candidate
        refine ⟨hasObject_lookup.mpr ⟨_, here⟩, ?_⟩
        have kept' : namedServices (put "listen" (.str (formatEndpoint binding.host port)) api') = true ∧
            apiTag (put "listen" (.str (formatEndpoint binding.host port)) api') = apiTag api := by
          rw [namedServices_put (by decide), apiTag_put (by decide)]
          exact kept
        rw [sound.binding here kept' (arraysSame _) rfl,
          endpointBinding_direct apart host lower upper (lookup_put_self _ _ _),
          ← moved.1, ← carrier]
      · rw [moved.1] at routed
        cases routed
    · rename_i stays moved
      cases written
      have here := lookup_put_self "api" (Json.obj api') candidate
      have port_ : port = binding.port := by
        by_contra differs
        rcases endpointBinding_cases endpointed with ⟨direct, -⟩ | ⟨routed, -⟩
        · exact moved ⟨direct, differs⟩
        · exact stays ⟨routed, differs⟩
      refine ⟨hasObject_lookup.mpr ⟨_, here⟩, ?_⟩
      rw [sound.binding here kept (arraysSame _) rfl, endpointBinding, listens, port_]
      exact endpointed

theorem writeApi_after {checks : SystemChecks} (endpoint : checks.endpoint = formatEndpoint)
    {binding : ApiBinding} {statsChanged grpcChanged : Bool} {config candidate after : Fields}
    (lower : 1 ≤ request.grpcPort) (upper : request.grpcPort ≤ 65535)
    (grpc : grpcChanged = (request.grpcEnabled != hasObject "api" config))
    (same : ChangesOnly ["log", "dns", "policy", "metrics", "stats"] config candidate)
    (bound : xrayApiBinding numerals config = .ok binding)
    (written : writeApi checks request binding statsChanged grpcChanged candidate = .ok after) :
    ApiAfter numerals config after request binding := by
  have only := (writeApi_changes written).1
  have outbounds : after.lookup "outbounds" = config.lookup "outbounds" :=
    (only _ (by decide)).trans (same _ (by decide))
  have routing : after.lookup "routing" = config.lookup "routing" := (only _ (by decide)).trans (same _ (by decide))
  have apiSame : candidate.lookup "api" = config.lookup "api" := same _ (by decide)
  have inboundsSame : candidate.lookup "inbounds" = config.lookup "inbounds" := same _ (by decide)
  unfold writeApi at written
  dsimp only at written
  split at written
  · cases written
  · split at written
    · rename_i off
      cases written
      exact .disabled (by simpa using off) (lookup_pop_self _ _)
    · rename_i on
      rw [Bool.not_eq_true, Bool.not_eq_false'] at on
      rw [on] at grpc
      split at written
      · -- The API is enabled anew.
        rename_i changed
        have absent : hasObject "api" config = false := by simpa [changed] using grpc
        have fresh : objectOrNew "api" candidate = [] := by
          unfold objectOrNew
          split
          · rename_i inner here
            rw [hasObject_lookup.mpr ⟨inner, apiSame ▸ here⟩] at absent
            cases absent
          · rfl
        rw [fresh, xrayApiBinding_absent bound absent, endpoint] at written
        cases written
        have here := lookup_put_self "api"
          (Json.obj (put "listen" (.str (formatEndpoint absentBinding.host request.grpcPort))
          (put "services" (.arr (apiServices request statsChanged grpcChanged []))
            (putDefault "tag" (.str "api") [])))) candidate
        have arrays := apiArrays_congr ((lookup_put_other (by decide : "inbounds" ≠ "api") _ candidate).trans
          inboundsSame)
          outbounds routing
        refine .opened on absent (hasObject_lookup.mpr ⟨_, here⟩) ?_
        rw [xrayApiBinding_object here]
        refine bindApi_opened config lower upper arrays ?_ ?_ (lookup_put_self _ _ _)
        · rw [namedServices_put (by decide)]
          exact namedServices_written (rfl : namedServices [] = true) _
        · rw [apiTag_put (by decide), apiTag_put (by decide)]
          rfl
      · -- The API stays, at most with other services and another port.
        rename_i unchanged
        have present : hasObject "api" config = true := by simpa [unchanged] using grpc
        obtain ⟨api, here⟩ := hasObject_lookup.mp present
        obtain ⟨tag, arrays, sound, endpointed⟩ := xrayApiBinding_kept here bound
        rw [objectOrNew_lookup (apiSame.trans here)] at written
        generalize renewed : (if statsChanged then
          put "services" (.arr (apiServices request statsChanged grpcChanged api)) api
          else api) = api' at written
        have kept : namedServices api' = true ∧ apiTag api' = apiTag api ∧
            api'.lookup "listen" = api.lookup "listen" := by
          rw [← renewed]
          split
          · exact ⟨namedServices_written sound.services _, apiTag_put (by decide) _ _,
              lookup_put_other (by decide) _ _⟩
          · exact ⟨sound.services, rfl, rfl⟩
        rw [endpoint] at written
        obtain ⟨now, reads⟩ := endpoint_kept lower upper sound endpointed same ⟨kept.1, kept.2.1⟩ kept.2.2 written
        exact .kept on present now reads

end

end OpenNode.Agent
