import OpenNode.ChangeSets
import OpenNode.ConfigEdits
import OpenNode.Lib.Dict

namespace OpenNode

open Agent Assoc

/-- `AgentRoutedOutboundChangeSetCreate`, validated. -/
structure RoutedOutboundCreate where
  serverId : ServerId
  inboundTag : String
  inboundProtocol : String := "vless"
  label : String
  outbound : Fields
  parentRef : Option String := none
  adminUsername : String := "admin"
  adminEmail : Option String := none
  outboundTag : Option String := none
  marktag : Option String := none
  client : Option (Dict String Json) := none
  sniffingExcludeDomains : List String := []
  addRealitySniffingExcludes : Bool := true
  commandTimeoutMs : Nat := 30000
  rollbackOnFailure : Bool := true

/-- What the builder calls: the identifier of a server in hexadecimal, the safe
form of a username, the credential generator and the two normal forms of a text. -/
structure RoutedEnv where
  hex : ServerId → String
  safeCredentialUsername : String → String
  generateSubscriptionCredential : (protocol username email : String) → (nodeConfig : Fields) → Dict String Json
  lower : String → String
  strip : String → String

/-- `value or default` of an optional text. -/
def orText (value : Option String) (default : String) : String :=
  match value with
  | some text => if text = "" then default else text
  | none => default

namespace RoutedOutboundCreate

variable (env : RoutedEnv) (plan : RoutedOutboundCreate)

def labelSlug : String :=
  env.lower plan.label

def parentSlug : String :=
  env.lower (orText plan.parentRef s!"s{(env.hex plan.serverId).take 8}")

/-- `outbound_tag`. -/
def tag : String :=
  orText plan.outboundTag s!"routed:{plan.parentSlug env}:{plan.labelSlug env}"

/-- `marktag`. -/
def mark : String :=
  orText plan.marktag (plan.tag env)

def username : String :=
  env.safeCredentialUsername plan.adminUsername

/-- `admin_email`. -/
def email : String :=
  orText plan.adminEmail s!"{plan.username env}__{plan.parentSlug env}__{plan.labelSlug env}"

def routedAdminClient : Fields :=
  let client := plan.client.getD
    (env.generateSubscriptionCredential plan.inboundProtocol (plan.username env) (plan.email env) plan.outbound)
  putDefault "level" (.int 0) (put "email" (.str (plan.email env)) client.entries)

/-- The outbound of the plan. -/
def taggedOutbound : Fields :=
  put "tag" (.str (plan.tag env)) plan.outbound

/-- `d.get(a) or d.get(b)`. -/
def eitherField (a b : String) (fields : Fields) : Json :=
  getOr a ((fields.lookup b).getD .null) fields

/-- `collect` of `_extract_reality_sni_domains`. -/
def collect : Json → List String
  | .str text => [text]
  | .arr items => items.filterMap Json.str?
  | _ => []

def extractRealitySniDomains (outbound : Fields) : List String :=
  if env.lower (env.strip (textOf "protocol" outbound)) ≠ "vless" then []
  else
    match eitherField "streamSettings" "stream_settings" outbound with
    | .obj stream =>
      if env.lower (env.strip (textOf "security" stream)) ≠ "reality" then []
      else
        match eitherField "realitySettings" "reality_settings" stream with
        | .obj reality =>
          let domains := collect ((reality.lookup "serverName").getD .null)
          if domains.isEmpty then collect ((reality.lookup "serverNames").getD .null) else domains
        | _ => []
    | _ => []

def appendDomain (domains : List String) (value : String) : List String :=
  let domain := env.lower (env.strip value)
  if domain = "" ∨ domain ∈ domains then domains else domains ++ [domain]

/-- `_routed_sniffing_exclude_domains`. -/
def sniffingExcludes : List String :=
  let realityDomains :=
    if plan.addRealitySniffingExcludes then extractRealitySniDomains env (plan.taggedOutbound env) else []
  (plan.sniffingExcludeDomains ++ realityDomains).foldl (appendDomain env) []

/-- A command of the plan. -/
def command (path : String) (body : Fields) : CommandPayload :=
  { method := .post, path := path, body := .obj body, timeoutMs := plan.commandTimeoutMs }

/-- The compensator of the client step. -/
def clientRollback : CommandPayload :=
  plan.command "/api/child/inbounds"
    [("action", .str "remove-client"), ("tag", .str plan.inboundTag),
      ("client", .obj [("email", .str (plan.email env))])]

def clientStep : ChangeStep where
  serverId := plan.serverId
  forward := plan.command "/api/child/inbounds"
    [("action", .str "add-client"), ("tag", .str plan.inboundTag), ("client", .obj (plan.routedAdminClient env))]
  rollback := some (plan.clientRollback env)

def sniffingStep : ChangeStep where
  serverId := plan.serverId
  forward := plan.command "/api/child/inbounds"
    [("action", .str "add-sniffing-exclude"), ("tag", .str plan.inboundTag),
      ("domains", .arr ((plan.sniffingExcludes env).map .str))]

/-- The compensator of the outbound step. -/
def outboundRollback : CommandPayload :=
  plan.command "/api/child/outbounds" [("action", .str "remove"), ("tag", .str (plan.tag env))]

def outboundStep : ChangeStep where
  serverId := plan.serverId
  forward := plan.command "/api/child/outbounds"
    [("action", .str "add"), ("outbound", .obj (plan.taggedOutbound env))]
  rollback := some (plan.outboundRollback env)

/-- The routing rule of the plan. -/
def rule : Fields :=
  [("type", .str "field"), ("marktag", .str (plan.mark env)), ("user", .arr [.str (plan.email env)]),
    ("inboundTag", .arr [.str plan.inboundTag]), ("outboundTag", .str (plan.tag env))]

/-- The compensator of the rule step. -/
def ruleRollback : CommandPayload :=
  plan.command "/api/child/routing"
    [("action", .str "remove_user_from_rule"), ("marktag", .str (plan.mark env)),
      ("user_email", .str (plan.email env))]

def ruleStep : ChangeStep where
  serverId := plan.serverId
  forward := plan.command "/api/child/routing" [("action", .str "add_rule"), ("rule", .obj (plan.rule env))]
  rollback := some (plan.ruleRollback env)

/-- The steps of `build_routed_outbound_change_set`. -/
def steps : List ChangeStep :=
  plan.clientStep env ::
    ((if plan.sniffingExcludes env = [] then [] else [plan.sniffingStep env]) ++
      [plan.outboundStep env, plan.ruleStep env])

end RoutedOutboundCreate

/-- The change of the configuration that the Agent makes for a command. -/
def agentEdit (validateTls : Fields → Option String) (command : CommandPayload) (config : Fields) :
    Except String Fields :=
  match command.body with
  | .obj payload =>
    if command.path = "/api/child/inbounds" then editEntries validateTls "inbounds" payload config
    else if command.path = "/api/child/outbounds" then editEntries validateTls "outbounds" payload config
    else if command.path = "/api/child/routing" then editRouting payload config
    else .error "Unsupported Agent operation"
  | _ => .error "Unsupported Agent operation"

/-- Where a forward run stops: after some steps, or at one that the Agent refused. -/
structure RunStop where
  performed : Nat
  refused : Bool := false

/-- The steps whose commands were handed out. -/
def RunStop.attempted (stop : RunStop) (steps : List ChangeStep) : List ChangeStep :=
  steps.take (stop.performed + stop.refused.toNat)

/-- The configuration after the steps that the Agent performed. -/
def performSteps (validateTls : Fields → Option String) : List ChangeStep → Fields → Except String Fields
  | [], config => .ok config
  | step :: rest, config =>
    match agentEdit validateTls step.forward config with
    | .error error => .error error
    | .ok edited => performSteps validateTls rest edited

/-- The compensators of the attempted steps, the last one first. -/
def compensators (attempted : List ChangeStep) : List CommandPayload :=
  attempted.reverse.filterMap ChangeStep.rollback

/-- The compensators on the Agent. Each depends on the one before it, so when
the queue `halts` at one that the Agent refuses, the others are skipped. -/
def compensate (validateTls : Fields → Option String) (halts : Bool) : List CommandPayload → Fields → Fields
  | [], config => config
  | command :: rest, config =>
    match agentEdit validateTls command config with
    | .ok edited => compensate validateTls halts rest edited
    | .error _ => if halts then config else compensate validateTls halts rest config

/-- The configuration at the end of the rollback. -/
def rolledBack (validateTls : Fields → Option String) (halts : Bool) (steps : List ChangeStep) (stop : RunStop)
    (config : Fields) : Fields :=
  compensate validateTls halts (compensators (stop.attempted steps)) config

end OpenNode
