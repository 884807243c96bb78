import OpenNode.ConfigEdits

namespace OpenNode.Agent

open Assoc List

inductive ApiMode where
  | absent
  | direct
  | routed
deriving DecidableEq, Repr

/-- What `xray_api_binding` finds. -/
structure ApiBinding where
  mode : ApiMode
  host : String
  port : Int
  inboundIndex : Option Nat

/-- The checks of a configuration that the form makes: `require_editable_system_config`
with `fixed_stats_address_error`, `complete_stats_policy_state(config) is True`,
`loopback_endpoint` as the text of the endpoint, `format_endpoint`, and the check
of the result against the operator's `stats_address`. -/
structure SystemChecks where
  editable : Fields → Except String ApiBinding
  complete : Fields → Bool
  loopback : Json → Option String
  endpoint : String → Int → String
  fixed : Fields → Bool

def logLevels : List String :=
  ["none", "error", "warning", "info", "debug"]

def objectAt (key : String) (fields : Fields) : Option Fields :=
  match (fields.lookup key).getD (.obj []) with
  | .obj inner => some inner
  | _ => none

/-- The object at a key, where any other value is replaced by a new one. -/
def objectOrNew (key : String) (fields : Fields) : Fields :=
  match fields.lookup key with
  | some (.obj inner) => inner
  | _ => []

/-- `d.pop(key, None)`. -/
def pop (key : String) (fields : Fields) : Fields :=
  fields.filter fun field => field.1 ≠ key

/-- The names of `numeric_policy_levels`. -/
def numericLevels (levels : Fields) : List String :=
  (levels.map Prod.fst).filter fun name => name ≠ "" && name.toList.all Char.isDigit

/-- The fields of the form. -/
structure SystemRequest where
  logLevel : String
  dns : Fields
  policy : Fields
  metricsEnabled : Bool
  metricsListen : Json
  statsEnabled : Bool
  grpcEnabled : Bool
  grpcPort : Int

def boolField (key : String) (payload : Fields) : Except String Bool :=
  match payload.lookup key with
  | some (.bool value) => .ok value
  | _ => .error s!"{key} must be a boolean"

def objectField (key : String) (payload : Fields) : Except String Fields :=
  match payload.lookup key with
  | some (.obj value) => .ok value
  | _ => .error s!"{key} must be a JSON object"

def levelField (payload : Fields) : Except String String :=
  match payload.lookup "log_level" with
  | some (.str level) =>
    if level ∈ logLevels then .ok level else .error "log_level must be none, error, warning, info or debug"
  | _ => .error "log_level must be none, error, warning, info or debug"

def checkPolicy (policy : Fields) : Except String Unit :=
  match objectAt "levels" policy with
  | none => .error "Xray stats policy levels must be an object"
  | some levels =>
    if (numericLevels levels).any fun name => (objectAt name levels).isNone then
      .error "Numeric Xray stats policy levels must be objects"
    else if (objectAt "system" policy).isNone then .error "Xray stats system policy must be an object"
    else .ok ()

def portField (payload : Fields) : Except String Int :=
  match payload.lookup "grpc_port" with
  | some (.int port) => if 1 ≤ port ∧ port ≤ 65535 then .ok port else .error "grpc_port must be between 1 and 65535"
  | _ => .error "grpc_port must be between 1 and 65535"

def systemConfigKeys : List String :=
  ["log_level", "dns", "policy", "metrics_enabled", "metrics_listen", "stats_enabled", "grpc_enabled", "grpc_port"]

/-- The first part of `apply_xray_system_config`. -/
def SystemRequest.read (payload : Fields) : Except String SystemRequest :=
  if !(Json.obj payload).hasExactly systemConfigKeys then
    .error "Xray system config requires the complete supported field set"
  else do
    let metricsEnabled ← boolField "metrics_enabled" payload
    let statsEnabled ← boolField "stats_enabled" payload
    let grpcEnabled ← boolField "grpc_enabled" payload
    let logLevel ← levelField payload
    let dns ← objectField "dns" payload
    let policy ← objectField "policy" payload
    checkPolicy policy
    let grpcPort ← portField payload
    .ok { logLevel := logLevel, dns := dns, policy := policy, metricsEnabled := metricsEnabled,
          metricsListen := (payload.lookup "metrics_listen").getD .null, statsEnabled := statsEnabled,
          grpcEnabled := grpcEnabled, grpcPort := grpcPort }

def flags (keys : List String) (enabled : Bool) : Fields :=
  keys.map fun key => (key, .bool enabled)

/-- The submitted policy with the counters that follow `stats_enabled`. -/
def countedPolicy (policy : Fields) (enabled : Bool) : Fields :=
  let levels := objectOrNew "levels" policy
  let names := if numericLevels levels = [] then ["0"] else numericLevels levels
  let counted := names.foldl (fun levels name =>
    put name (.obj (update (objectOrNew name levels)
      (flags ["statsUserUplink", "statsUserDownlink", "statsUserOnline"] enabled))) levels) levels
  update policy [("levels", .obj counted),
    ("system", .obj (update (objectOrNew "system" policy)
      (flags ["statsInboundUplink", "statsInboundDownlink", "statsOutboundUplink",
        "statsOutboundDownlink"] enabled)))]

/-- The log, DNS and policy of the candidate. -/
def writeBasics (request : SystemRequest) (statsChanged : Bool) (config : Fields) : Fields :=
  let policy := if statsChanged then countedPolicy request.policy request.statsEnabled else request.policy
  let candidate := put "log" (.obj (put "loglevel" (.str request.logLevel) (objectOrNew "log" config))) config
  let candidate := put "dns" (.obj request.dns) candidate
  if (config.lookup "policy").isSome ∨ policy ≠ [] then put "policy" (.obj policy) candidate else candidate

/-- The metrics of the candidate. -/
def writeMetrics (checks : SystemChecks) (request : SystemRequest) (candidate : Fields) : Except String Fields :=
  if request.metricsEnabled then
    match checks.loopback request.metricsListen with
    | none => .error "Metrics must listen on a literal loopback IP and port"
    | some endpoint =>
      .ok (put "metrics" (.obj (put "listen" (.str endpoint) (objectOrNew "metrics" candidate))) candidate)
  else .ok (pop "metrics" candidate)

/-- The stats of the candidate. -/
def writeStats (request : SystemRequest) (statsChanged : Bool) (candidate : Fields) : Fields :=
  if !statsChanged then candidate
  else if request.statsEnabled then put "stats" (.obj (objectOrNew "stats" candidate)) candidate
  else pop "stats" candidate

def apiServices (request : SystemRequest) (statsChanged grpcChanged : Bool) (api : Fields) : List Json :=
  let services :=
    match (api.lookup "services").getD (.arr []) with
    | .arr items => items
    | _ => []
  let listed := services.any (Json.equal (.str "StatsService"))
  if statsChanged || (request.grpcEnabled && grpcChanged) then
    if request.statsEnabled && request.grpcEnabled then
      if listed then services else services ++ [.str "StatsService"]
    else if statsChanged then services.filter fun item => !(Json.str "StatsService").equal item
    else services
  else services

/-- The configuration with another port of one inbound. -/
def setInboundPort (index : Option Nat) (port : Int) (config : Fields) : Fields :=
  match index, config.lookup "inbounds" with
  | some index, some (.arr items) =>
    put "inbounds" (.arr (items.modify index fun item =>
      match item with
      | .obj inbound => .obj (put "port" (.int port) inbound)
      | other => other)) config
  | _, _ => config

/-- The API of the candidate. -/
def writeApi (checks : SystemChecks) (request : SystemRequest) (binding : ApiBinding)
    (statsChanged grpcChanged : Bool)
    (candidate : Fields) : Except String Fields :=
  let api := objectOrNew "api" candidate
  let services := apiServices request statsChanged grpcChanged api
  if binding.mode = .routed ∧ !request.grpcEnabled then
    .error "Traditional routed Xray API cannot be disabled by the system-config form"
  else if !request.grpcEnabled then .ok (pop "api" candidate)
  else if grpcChanged then
    .ok (put "api" (.obj (put "listen" (.str (checks.endpoint binding.host request.grpcPort))
      (put "services" (.arr services) (putDefault "tag" (.str "api") api)))) candidate)
  else
    let api := if statsChanged then put "services" (.arr services) api else api
    if binding.mode = .routed ∧ request.grpcPort ≠ binding.port then
      .ok (setInboundPort binding.inboundIndex request.grpcPort (put "api" (.obj api) candidate))
    else if binding.mode = .direct ∧ request.grpcPort ≠ binding.port then
      .ok (put "api" (.obj (put "listen" (.str (checks.endpoint binding.host request.grpcPort)) api)) candidate)
    else .ok (put "api" (.obj api) candidate)

/-- `apply_xray_system_config`. -/
def applySystemConfig (checks : SystemChecks) (config payload : Fields) : Except String Fields :=
  match SystemRequest.read payload with
  | .error error => .error error
  | .ok request =>
    match checks.editable config with
    | .error error => .error error
    | .ok binding =>
      let statsNow := (match config.lookup "stats" with | some (.obj _) => true | _ => false) &&
        checks.complete config
      let grpcNow := match config.lookup "api" with | some (.obj _) => true | _ => false
      let statsChanged := request.statsEnabled != statsNow
      let grpcChanged := request.grpcEnabled != grpcNow
      match writeMetrics checks request (writeBasics request statsChanged config) with
      | .error error => .error error
      | .ok candidate =>
        match writeApi checks request binding statsChanged grpcChanged
          (writeStats request statsChanged candidate) with
        | .error error => .error error
        | .ok candidate =>
          if checks.fixed candidate then .ok candidate
          else .error "Xray API listener must match the operator's stats_address"

/-- The keys that the form writes. -/
def systemKeys : List String :=
  ["log", "dns", "policy", "metrics", "stats", "api"]

/-- Inbounds that differ at most in their port. -/
def SameButPort (before after : Json) : Prop :=
  before = after ∨ ∃ inbound port, before = .obj inbound ∧ after = .obj (put "port" port inbound)

variable {key : String}

theorem lookup_pop_other {other : String} (differs : other ≠ key) (fields : Fields) :
    (pop key fields).lookup other = fields.lookup other := by
  induction fields with
  | nil => rfl
  | cons field rest ih =>
    obtain ⟨k, value⟩ := field
    unfold pop at ih ⊢
    by_cases same : k = key
    · rw [filter_cons_of_neg (by simpa using same), ih, lookup_cons_eq, if_neg (same ▸ differs)]
    · rw [filter_cons_of_pos (by simpa using same), lookup_cons_eq, lookup_cons_eq, ih]

theorem lookup_pop_self (key : String) (fields : Fields) : (pop key fields).lookup key = none := by
  rw [lookup_eq_none_iff]
  intro field here
  have differs := (List.mem_filter.mp here).2
  rw [decide_eq_true_eq] at differs
  exact bne_iff_ne.mpr (Ne.symm differs)

theorem pop_of_absent {fields : Fields} (absent : fields.lookup key = none) : pop key fields = fields := by
  refine List.filter_eq_self.mpr fun field here => ?_
  have differs := List.lookup_eq_none_iff.mp absent field here
  rw [bne_iff_ne] at differs
  exact decide_eq_true (Ne.symm differs)

/-- Only these keys of a configuration change. -/
def ChangesOnly (keys : List String) (before after : Fields) : Prop :=
  ∀ key, key ∉ keys → after.lookup key = before.lookup key

theorem ChangesOnly.refl (keys : List String) (config : Fields) : ChangesOnly keys config config :=
  fun _ _ => rfl

variable {keys : List String} {after : Fields}

theorem ChangesOnly.put {before : Fields} (changes : ChangesOnly keys before after) (written : key ∈ keys)
    (value : Json) : ChangesOnly keys before (put key value after) := fun other outside => by
  have differs : other ≠ key := fun same => outside (same ▸ written)
  rw [lookup_put_other differs]
  exact changes other outside

theorem ChangesOnly.pop {before : Fields} (changes : ChangesOnly keys before after) (written : key ∈ keys) :
    ChangesOnly keys before (Agent.pop key after) := fun other outside => by
  have differs : other ≠ key := fun same => outside (same ▸ written)
  rw [lookup_pop_other differs]
  exact changes other outside

theorem writeBasics_changes (request : SystemRequest) (statsChanged : Bool) (config : Fields) :
    ChangesOnly ["log", "dns", "policy"] config (writeBasics request statsChanged config) := by
  have basics := ((ChangesOnly.refl ["log", "dns", "policy"] config).put (by decide : "log" ∈ _)
    (.obj (put "loglevel" (.str request.logLevel) (objectOrNew "log" config)))).put (by decide : "dns" ∈ _)
    (.obj request.dns)
  unfold writeBasics
  dsimp only
  generalize (if statsChanged then countedPolicy request.policy request.statsEnabled else request.policy) = policy
  split
  · exact basics.put (by decide) _
  · exact basics

variable {checks : SystemChecks} {request : SystemRequest}

theorem writeMetrics_changes {candidate : Fields} (written : writeMetrics checks request candidate = .ok after) :
    ChangesOnly ["metrics"] candidate after := by
  unfold writeMetrics at written
  split at written
  · split at written
    · nomatch written
    · exact Except.ok.inj written ▸ (ChangesOnly.refl _ _).put (by decide) _
  · exact Except.ok.inj written ▸ (ChangesOnly.refl _ _).pop (by decide)

theorem writeStats_changes (request : SystemRequest) (statsChanged : Bool) (candidate : Fields) :
    ChangesOnly ["stats"] candidate (writeStats request statsChanged candidate) := by
  unfold writeStats
  split
  · exact .refl _ _
  · split
    · exact (ChangesOnly.refl _ _).put (by decide) _
    · exact (ChangesOnly.refl _ _).pop (by decide)

/-- An inbound with another port. -/
def withPort (port : Int) : Json → Json
  | .obj inbound => .obj (put "port" (.int port) inbound)
  | other => other

/-- What the write of the API leaves of the inbounds: at most the port of the one
that carries the API is new. -/
inductive InboundsWrite (binding : ApiBinding) (port : Int) (before after : Fields) : Prop
  | kept (same : after.lookup "inbounds" = before.lookup "inbounds")
  | moved (index : Nat) (items : List Json) (routed : binding.mode =
      .routed) (carrier : binding.inboundIndex = some index)
      (listed : before.lookup "inbounds" = some (.arr items))
      (written : after.lookup "inbounds" = some (.arr (items.modify index (withPort port))))

theorem setInboundPort_changes (index : Option Nat) (port : Int) (config : Fields) :
    ChangesOnly ["inbounds"] config (setInboundPort index port config) := by
  unfold setInboundPort
  split
  · exact (ChangesOnly.refl _ _).put (by decide) _
  · exact .refl _ _

variable {binding : ApiBinding}

theorem setInboundPort_inbounds (routed : binding.mode = .routed) (port : Int) (config : Fields) :
    InboundsWrite binding port config (setInboundPort binding.inboundIndex port config) := by
  unfold setInboundPort
  split
  · rename_i index items carrier listed
    exact .moved index items routed carrier listed (lookup_put_self _ _ _)
  · exact .kept rfl

variable {statsChanged grpcChanged : Bool}

theorem writeApi_changes {candidate : Fields}
    (written : writeApi checks request binding statsChanged grpcChanged candidate = .ok after) :
    ChangesOnly ["api", "inbounds"] candidate after ∧ InboundsWrite binding request.grpcPort candidate after := by
  have only (value : Json) : ChangesOnly ["api", "inbounds"] candidate (put "api" value candidate) :=
    (ChangesOnly.refl _ _).put (by decide) _
  have api (value : Json) : InboundsWrite binding request.grpcPort candidate (put "api" value candidate) :=
    .kept (lookup_put_other (by decide) _ _)
  unfold writeApi at written
  dsimp only at written
  split at written
  · nomatch written
  · split at written
    · cases written
      exact ⟨(ChangesOnly.refl _ _).pop (by decide), .kept (lookup_pop_other (by decide) _)⟩
    · split at written
      · cases written
        exact ⟨only _, api _⟩
      · split at written
        · rename_i moved
          cases written
          refine ⟨fun key outside => ?_, ?_⟩
          · rw [setInboundPort_changes _ _ _ key fun here => outside (mem_cons_of_mem _ here)]
            exact only _ key outside
          · cases setInboundPort_inbounds moved.1 request.grpcPort _ with
            | kept same => exact .kept (same.trans (lookup_put_other (by decide) _ _))
            | moved index items routed carrier listed written =>
              rw [lookup_put_other (by decide)] at listed
              exact .moved index items routed carrier listed written
        · split at written
          · cases written
            exact ⟨only _, api _⟩
          · cases written
            exact ⟨only _, api _⟩

/-- Whether a section is an object. -/
def hasObject (key : String) (config : Fields) : Bool :=
  match config.lookup key with
  | some (.obj _) => true
  | _ => false

/-- The steps of a save, and what they start from. -/
structure Applied (checks : SystemChecks) (config payload : Fields) (request : SystemRequest) (binding : ApiBinding)
    (statsChanged grpcChanged : Bool) (metrics after : Fields) : Prop where
  read : SystemRequest.read payload = .ok request
  editable : checks.editable config = .ok binding
  stats : statsChanged = (request.statsEnabled != (hasObject "stats" config && checks.complete config))
  grpc : grpcChanged = (request.grpcEnabled != hasObject "api" config)
  listener : writeMetrics checks request (writeBasics request statsChanged config) = .ok metrics
  api : writeApi checks request binding statsChanged grpcChanged (writeStats request statsChanged metrics) =
    .ok after
  fixed : checks.fixed after = true

variable {config payload : Fields}

theorem applySystemConfig_applied (applied : applySystemConfig checks config payload = .ok after) :
    ∃ request binding statsChanged grpcChanged metrics,
      Applied checks config payload request binding statsChanged grpcChanged metrics after := by
  unfold applySystemConfig at applied
  split at applied
  · nomatch applied
  · rename_i request read
    split at applied
    · nomatch applied
    · rename_i binding editable
      dsimp only at applied
      split at applied
      · nomatch applied
      · rename_i candidate metrics
        split at applied
        · nomatch applied
        · rename_i last api
          split at applied
          · rename_i fixed
            cases applied
            exact ⟨request, binding, _, _, candidate, ⟨read, editable, rfl, rfl, metrics, api, fixed⟩⟩
          · nomatch applied

theorem Applied.apply {metrics : Fields}
    (applied : Applied checks config payload request binding statsChanged grpcChanged metrics after) :
    applySystemConfig checks config payload = .ok after := by
  obtain ⟨read, editable, rfl, rfl, listener, api, fixed⟩ := applied
  unfold hasObject at listener api
  simp only [applySystemConfig, read, editable, listener, api, fixed, if_true]

theorem Applied.changes {metrics : Fields}
    (applied : Applied checks config payload request binding statsChanged grpcChanged metrics after) :
    ChangesOnly ["log", "dns", "policy", "metrics", "stats"] config (writeStats request statsChanged metrics) :=
  fun key outside => by
    simp only [mem_cons, not_mem_nil, or_false, not_or] at outside
    obtain ⟨log, dns, policy, listener, stats⟩ := outside
    rw [writeStats_changes request statsChanged metrics key (by simpa using stats),
      writeMetrics_changes applied.listener key (by simpa using listener),
      writeBasics_changes request statsChanged config key (by simp [log, dns, policy])]

/-- What the form leaves of a configuration: of the inbounds, at most a port is new. -/
structure FormWrite (before after : Fields) : Prop where
  others : ∀ key, key ∉ systemKeys → key ≠ "inbounds" → after.lookup key = before.lookup key
  inbounds : after.lookup "inbounds" = before.lookup "inbounds" ∨
    ∃ items items', before.lookup "inbounds" = some (.arr items) ∧ after.lookup "inbounds" = some (.arr items') ∧
      List.Forall₂ SameButPort items items'

theorem modify_ports (items : List Json) (index : Nat) (port : Int) :
    List.Forall₂ SameButPort items (items.modify index (withPort port)) := by
  induction items generalizing index with
  | nil => cases index <;> exact .nil
  | cons item rest ih =>
    cases index with
    | zero =>
      refine .cons ?_ (List.forall₂_same.mpr fun _ _ => .inl rfl)
      cases item with
      | obj inbound => exact .inr ⟨inbound, .int port, rfl, rfl⟩
      | _ => exact .inl rfl
    | succ index => exact .cons (.inl rfl) (ih index)

theorem applySystemConfig_form (applied : applySystemConfig checks config payload = .ok after) :
    FormWrite config after := by
  obtain ⟨request, binding, statsChanged, grpcChanged, metrics, steps⟩ := applySystemConfig_applied applied
  obtain ⟨only, inbounds⟩ := writeApi_changes steps.api
  have start := steps.changes "inbounds" (by decide)
  refine ⟨fun key outside differs => ?_, ?_⟩
  · simp only [systemKeys, mem_cons, not_mem_nil, or_false, not_or] at outside
    obtain ⟨log, dns, policy, listener, stats, api⟩ := outside
    rw [only key (by simp [api, differs]), steps.changes key (by simp [log, dns, policy, listener, stats])]
  · cases inbounds with
    | kept same => exact .inl (same.trans start)
    | moved index items routed carrier listed written =>
      exact .inr ⟨items, _, start ▸ listed, written, modify_ports items index request.grpcPort⟩

end OpenNode.Agent
