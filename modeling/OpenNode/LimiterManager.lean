import OpenNode.LimiterConfig
import OpenNode.SecureChannel

namespace OpenNode.NodeLimits

open Function

/-- Nanoseconds since the zero `time.Time`. -/
abbrev Time := Nat

/-- `time.Second` and `time.Minute`. -/
def second : Int := 1000000000
def minute : Int := 60 * second

abbrev StateId := Nat
abbrev FlowId := Nat

structure RuleState where
  since : Time := 0
  events : List Time := []
deriving DecidableEq, Repr

/-- `bucket`. An infinite rate is `none`; closing `changed` and making a new
channel is a new generation. -/
structure Bucket where
  limit : Option Int := none
  burst : Int := 65536
  generation : Nat := 0
  value : Int := 0
deriving DecidableEq, Repr

/-- `bucket.set`. -/
def Bucket.set (b : Bucket) (value : Int) : Bucket :=
  if value = b.value then b
  else
    { limit := if 0 < value then some value else none
      burst := if 0 < value then max 2048 (min (value / 10) 65536) else 65536
      generation := b.generation + 1
      value := value }

structure UserState (F : Type) where
  tag : String
  email : String
  bucket : Bucket := {}
  total : Int := 0
  previous : Int := 0
  speed : Int := 0
  lastSeen : Time
  untilTime : Time := 0
  autoRate : Int := 0
  rules : List RuleState
  configuration : List (Rule F)
  active : Int := 0

/-- `flow`. Its context carries the inbound tag and the email of the session;
`done` is the state of its `once`. -/
structure Flow where
  state : StateId
  group : String
  known : Bool
  tag : String
  email : String
  done : Bool := false
deriving DecidableEq, Repr

/-- `Manager`. User states and flows are objects with an identity; the maps
`states` and `flows` refer to them. -/
structure Manager (F : Type) where
  document : Document F := {}
  raw : Option Bytes := none
  policies : String → Option (Policy F) := fun _ => none
  users : String → Option (User F) := fun _ => none
  objects : List (UserState F) := []
  states : List (String × StateId) := []
  flowObjects : List Flow := []
  flows : List FlowId := []
  counts : String → Option Int := fun _ => none
  caps : String → Int := fun _ => 0
  rejected : String → Int := fun _ => 0
  lastTick : Time

variable {F : Type} [Float64 F]

open Float64

namespace Manager

/-- `m.policies[tag]`, zero when absent. -/
def policyAt (m : Manager F) (tag : String) : Policy F :=
  (m.policies tag).getD {}

/-- `m.users[key(tag, email)]`, zero when absent. -/
def userAt (m : Manager F) (tag email : String) : User F :=
  (m.users (key tag email)).getD {}

def rulesFor (m : Manager F) (tag email : String) : List (Rule F) :=
  let inbound := (m.policyAt tag).autoSpeedRules
  let user := (m.userAt tag email).autoSpeedRules
  if user.isEmpty then inbound else inbound ++ user

def refreshRate (m : Manager F) (state : UserState F) : UserState F :=
  let value := minimum (m.policyAt state.tag).nodeLimit (m.userAt state.tag state.email).speedLimit
  { state with bucket := state.bucket.set (minimum value state.autoRate) }

/-- The loops of `install` over the users and the inbounds of the document. -/
def installUser (tag : String) (m : Manager F) (u : User F) : Manager F :=
  let g := group u u.email
  { m with
    users := update m.users (key tag u.email) (some u)
    caps := update m.caps g (minimum (m.caps g) u.deviceLimit) }

def installPolicy (m : Manager F) (p : Policy F) : Manager F :=
  p.users.foldl (installUser p.inboundTag)
    { m with policies := update m.policies p.inboundTag (some p) }

/-- The turn of `install` for one user state. A nil slice and an empty one,
which `DeepEqual` tells apart, are both the empty list: a state without rules
has nothing to clear. -/
def installState [DecidableEq F] (m : Manager F) (state : UserState F) : UserState F :=
  let configuration := m.rulesFor state.tag state.email
  m.refreshRate
    (if state.configuration ≠ configuration then
      { state with
        configuration := configuration
        rules := List.replicate configuration.length {}
        untilTime := 0
        autoRate := 0 }
    else state)

/-- The group that the installed users give a flow of a state. -/
def flowGroup (m : Manager F) (state : UserState F) : String :=
  group (m.userAt state.tag state.email) state.email

/-- The turn of `install` for one flow, with the flows to close. -/
def installFlow (entry : Manager F × List FlowId) (id : FlowId) : Manager F × List FlowId :=
  let (m, closeFlows) := entry
  match m.flowObjects[id]? with
  | none => entry
  | some f =>
    match m.objects[f.state]? with
    | none => entry
    | some state =>
      let known := (m.users (key state.tag state.email)).isSome
      let g := m.flowGroup state
      ({ m with
          flowObjects := m.flowObjects.modify id fun f => { f with group := g, known := known }
          counts := update m.counts g (some ((m.counts g).getD 0 + 1)) },
        if f.known && !known && (m.policies state.tag).isSome then closeFlows ++ [id] else closeFlows)

/-- `install`, with the flows whose users the document removes. -/
def install [DecidableEq F] (m : Manager F) (document : Document F) (raw : Option Bytes) :
    Manager F × List FlowId :=
  let m := document.inbounds.foldl installPolicy
    { m with
      document := document
      raw := raw
      policies := fun _ => none
      users := fun _ => none
      caps := fun _ => 0 }
  let m := m.states.foldl
    (fun m entry => { m with objects := m.objects.modify entry.2 m.installState }) m
  m.flows.foldl installFlow ({ m with counts := fun _ => none }, [])

end Manager

/-- What `acquire` returns. -/
inductive Acquired where
  | untracked
  | rejected
  | admitted (flow : FlowId)
deriving DecidableEq, Repr

namespace Manager

/-- The admission check of `acquire`. -/
def full (m : Manager F) (g : String) : Bool :=
  0 < m.caps g && m.caps g ≤ (m.counts g).getD 0

/-- `m.states[key(tag, email)]`, made when it is nil. -/
def stateFor (m : Manager F) (tag email : String) (now : Time) : Manager F × StateId :=
  match m.states.lookup (key tag email) with
  | some id => (m, id)
  | none =>
    let configuration := m.rulesFor tag email
    let state : UserState F :=
      { tag := tag
        email := email
        rules := List.replicate configuration.length {}
        configuration := configuration
        lastSeen := now }
    ({ m with
        states := m.states ++ [(key tag email, m.objects.length)]
        objects := m.objects ++ [m.refreshRate state] },
      m.objects.length)

/-- `acquire` of a session, which may have no inbound user. -/
def acquire (m : Manager F) (session : Option (String × String)) (now : Time) : Manager F × Acquired :=
  match session with
  | none => (m, .untracked)
  | some (tag, email) =>
    if email = "" then (m, .untracked)
    else
      let known := (m.users (key tag email)).isSome
      let g := group (m.userAt tag email) email
      if m.full g then
        ({ m with rejected := update m.rejected email (m.rejected email + 1) }, .rejected)
      else
        let (m, id) := m.stateFor tag email now
        ({ m with
            flowObjects := m.flowObjects ++
              [{ state := id, group := g, known := known, tag := tag, email := email }]
            flows := m.flows ++ [m.flowObjects.length]
            objects := m.objects.modify id fun state => { state with active := state.active + 1 }
            counts := update m.counts g (some ((m.counts g).getD 0 + 1)) },
          .admitted m.flowObjects.length)

/-- `flow.release`. -/
def release (m : Manager F) (id : FlowId) (now : Time) : Manager F :=
  match m.flowObjects[id]? with
  | none => m
  | some f =>
    if f.done then m
    else
      let count := (m.counts f.group).getD 0 - 1
      { m with
        flowObjects := m.flowObjects.modify id fun f => { f with done := true }
        flows := m.flows.erase id
        counts := update m.counts f.group (if count ≤ 0 then none else some count)
        objects := m.objects.modify f.state fun state =>
          { state with active := state.active - 1, lastSeen := now } }

end Manager

/-- The rule automaton: the state of a rule after a tick, and whether it triggers. -/
def ruleTurn (now : Time) (speed : Int) (rule : Rule F) (rs : RuleState) : RuleState × Bool :=
  let exceeds := !le (ofInt speed) (bytesPerSecond rule.thresholdMbps)
  let since := if exceeds && rs.since == 0 then now else rs.since
  let sustained : Bool := rule.sustainedSeconds * second ≤ (now : Int) - since
  let cleared := if exceeds then since else 0
  if rule.type = "sustained" then
    ({ rs with since := cleared }, exceeds && sustained)
  else
    let cutoff : Int := now - rule.windowSeconds * second
    let kept : List Time := rs.events.filter fun event => cutoff < event
    let events := if !exceeds && since != 0 && sustained then kept ++ [now] else kept
    ({ since := cleared, events := events }, rule.burstCount ≤ events.length)

/-- The loop of `evaluate` over the rules of a state, from an index on. It is
`none` when an index is out of range; otherwise it gives the rule states and
the rule that triggered. -/
def ruleLoop (now : Time) (speed : Int) : Nat → List (Rule F) → List RuleState →
    Option (List RuleState × Option (Rule F))
  | _, [], rules => some (rules, none)
  | i, rule :: rest, rules =>
    match rules[i]? with
    | none => none
    | some rs =>
      let (rs, trigger) := ruleTurn now speed rule rs
      if trigger then some (rules.set i rs, some rule)
      else ruleLoop now speed (i + 1) rest (rules.set i rs)

/-- The sample that `evaluate` takes of a state. -/
def UserState.sample (state : UserState F) (now : Time) (elapsed : F) : UserState F :=
  let speed := max 0 (toInt (div (ofInt (state.total - state.previous)) elapsed))
  { state with
    speed := speed
    previous := state.total
    lastSeen := if 0 < speed then now else state.lastSeen }

/-- The automatic cap that a triggered rule sets. -/
def UserState.limitBy (state : UserState F) (now : Time) (rule : Rule F) : UserState F :=
  { state with
    autoRate := toInt (bytesPerSecond rule.limitMbps)
    untilTime := now + (rule.limitDuration * second).toNat
    rules := List.replicate state.rules.length {} }

namespace Manager

/-- The expiry of the automatic cap of a state. -/
def expire (m : Manager F) (now : Time) (state : UserState F) : UserState F :=
  if state.untilTime ≠ 0 ∧ state.untilTime ≤ now then
    m.refreshRate { state with untilTime := 0, autoRate := 0 }
  else state

/-- The turn of `evaluate` for one entry of the map, `none` when it panics. -/
def evaluateState (now : Time) (elapsed : F) (m : Manager F) (entry : String × StateId) :
    Option (Manager F) :=
  match m.objects[entry.2]? with
  | none => none
  | some state =>
    let state := m.expire now (state.sample now elapsed)
    if now < state.untilTime then
      some { m with objects := m.objects.set entry.2 state }
    else
      match ruleLoop now state.speed 0 state.configuration state.rules with
      | none => none
      | some (rules, triggered) =>
        let state := { state with rules := rules }
        let state :=
          match triggered with
          | none => state
          | some rule => m.refreshRate (state.limitBy now rule)
        let idle := (m.users entry.1).isNone && state.active == 0 &&
          minute < (now : Int) - state.lastSeen
        some
          { m with
            objects := m.objects.set entry.2 state
            states := if idle then m.states.erase entry else m.states }

/-- `evaluate`, `none` when it panics. -/
def evaluate (m : Manager F) (now : Time) : Option (Manager F) :=
  let elapsed : F := seconds ((now : Int) - m.lastTick)
  if le elapsed (ofInt 0) then some m
  else m.states.foldlM (evaluateState now elapsed) { m with lastTick := now }

/-- Traffic of a flow. -/
def transfer (m : Manager F) (id : FlowId) (bytes : Nat) : Manager F :=
  match m.flowObjects[id]? with
  | none => m
  | some f =>
    { m with objects := m.objects.modify f.state fun state => { state with total := state.total + bytes } }

end Manager

/-- What happens to a manager, one critical section at a time. Each carries the
time it reads. -/
inductive LimiterEvent (F : Type) where
  | install (document : Document F) (raw : Option Bytes)
  | acquire (session : Option (String × String)) (now : Time)
  | release (flow : FlowId) (now : Time)
  | transfer (flow : FlowId) (bytes : Nat)
  | evaluate (now : Time)

/-- The manager after an event, `none` when it panics. -/
def Manager.step [DecidableEq F] (m : Manager F) : LimiterEvent F → Option (Manager F)
  | .install document raw => some (m.install document raw).1
  | .acquire session now => some (m.acquire session now).1
  | .release flow now => some (m.release flow now)
  | .transfer flow bytes => some (m.transfer flow bytes)
  | .evaluate now => m.evaluate now

end OpenNode.NodeLimits
