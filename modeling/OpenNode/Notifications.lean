import OpenNode.Lib.Edits
import OpenNode.Lib.Rows

namespace OpenNode.Notifications

open Edits

/-- Times are counted in microseconds. -/
def second : Nat := 1000000

def chatInterval : Nat := 3100000

def maxAutomaticAttempts : Nat := 3

def testMessage : String := "Open Node 通知测试\n这是管理员主动发送的测试消息，不会修改套餐或订阅。"

def outcomeCodes : List String :=
  ["telegram_accepted", "telegram_invalid_token", "telegram_invalid_chat_id", "telegram_invalid_text",
    "telegram_tls_failed",
    "telegram_bad_request", "telegram_unauthorized", "telegram_forbidden", "telegram_rejected",
      "telegram_connect_timeout",
    "telegram_connect_failed", "telegram_rate_limited", "telegram_send_timeout", "telegram_response_timeout",
    "telegram_connection_lost", "telegram_redirect_blocked", "telegram_server_error", "telegram_invalid_response",
    "telegram_response_too_large", "telegram_transport_failure", "notification_claim_expired",
    "notification_worker_interrupted", "notification_transport_failure", "notification_attempt_expired",
    "notification_invalid_response"]

def safeRetryCodes : List String :=
  ["notification_claim_expired", "telegram_connect_timeout", "telegram_connect_failed", "telegram_rate_limited"]

def failedCodes : List String :=
  safeRetryCodes ++
    ["telegram_invalid_token", "telegram_invalid_chat_id", "telegram_invalid_text", "telegram_tls_failed",
      "telegram_bad_request", "telegram_unauthorized", "telegram_forbidden", "telegram_rejected"]

structure NotificationError where
  statusCode : Nat
  code : String
deriving DecidableEq

structure Settings where
  revision : Nat := 0
  enabled : Bool := false
  token : Option String := none
  chatId : String := ""
  advanceDays : Nat := 7
  timezone : String := "Asia/Shanghai"
  destinationRevision : Nat := 0
  updatedAt : Nat := 0

inductive Kind where
  | packageExpiry
  | test
deriving DecidableEq

inductive DeliveryState where
  | queued
  | sending
  | accepted
  | failed
  | unknown
  | cancelled
deriving DecidableEq

inductive AttemptState where
  | sending
  | accepted
  | failed
  | unknown
deriving DecidableEq

/-- What the digest of an event key is taken of. -/
inductive EventKey where
  | packageExpiry (username : String) (createdAt : Nat) (planId : String) (expiresAt : Nat)
  | test (requestId : String)
deriving DecidableEq

structure Delivery where
  id : Nat
  eventKey : EventKey
  kind : Kind
  state : DeliveryState := .queued
  configRevision : Nat
  destinationRevision : Nat
  requestId : Option String := none
  chatId : String
  username : Option String := none
  userCreatedAt : Option Nat := none
  planId : Option String := none
  planName : Option String := none
  expiresAt : Option Nat := none
  lastAttemptId : Option Nat := none
  attemptCount : Nat := 0
  acceptedOnce : Bool := false
  generation : Nat := 0
  createdAt : Nat
  updatedAt : Nat
  nextAttemptAt : Option Nat
  code : Option String := none
  messageId : Option Nat := none
deriving DecidableEq

structure Attempt where
  id : Nat
  deliveryId : Nat
  state : AttemptState := .sending
  attemptNumber : Nat
  generation : Nat
  configRevision : Nat
  destinationRevision : Nat
  chatId : String
  messageText : String
  startedAt : Nat
  deadlineAt : Nat
  finishedAt : Option Nat := none
  recoveredAt : Option Nat := none
  lateReceiptAt : Option Nat := none
  code : Option String := none
  messageId : Option Nat := none
  retryAfter : Option Nat := none
  retryable : Bool := false
deriving DecidableEq

/-- What the digest of a request is taken of. -/
inductive Payload where
  | test (expectedRevision : Nat) (requestId : String)
  | retry (deliveryId expectedRevision : Nat) (requestId : String) (expectedAttemptId : Nat)
      (confirmDuplicateRisk : Bool)
deriving DecidableEq

structure Request where
  id : String
  payload : Payload
  deliveryId : Nat
  createdAt : Nat
deriving DecidableEq

/-- A row of the chat throttles. -/
structure Chat where
  nextAllowedAt : Nat
  inFlightAttemptId : Option Nat := none
  deadlineAt : Option Nat := none
deriving DecidableEq

structure ProductUser where
  username : String
  createdAt : Nat
  currentPlanId : Option String
  planExpiresAt : Option Nat
  isActive : Bool
  removalId : Option String

structure SubscriptionPlan where
  id : String
  name : String

structure Candidate where
  username : String
  planId : String
  planName : String
  expiresAt : Nat

/-- The parts outside the store: time zones, the text of a message and the order
of the identifiers. -/
structure Host where
  hour : String → Nat → Nat
  advance : String → Nat → Nat → Nat
  message : Candidate → String → String
  order : Nat → Nat

/-- The tables; `clock` is the time of the last operation and `serial` the next
identifier. -/
structure Store where
  clock : Nat := 0
  serial : Nat := 0
  settings : Settings := {}
  deliveries : List Delivery := []
  attempts : List Attempt := []
  requests : List Request := []
  chats : String → Option Chat := fun _ => none
  users : List ProductUser := []
  plans : List SubscriptionPlan := []

section Lookups

variable (s : Store)

def Store.row (id : Nat) : Except NotificationError Delivery :=
  match s.deliveries.find? fun row => row.id == id with
  | some row => .ok row
  | none => .error ⟨404, "notification_not_found"⟩

def Store.attempt? (id : Nat) : Option Attempt :=
  s.attempts.find? fun attempt => attempt.id == id

/-- `_existing_request`: the request was made before, or its identifier is free. -/
def Store.existingRequest (id : String) (payload : Payload) : Except NotificationError Bool :=
  match s.requests.find? fun request => request.id == id with
  | none => .ok false
  | some request => if request.payload = payload then .ok true else .error ⟨409, "notification_request_conflict"⟩

def Store.set (id : Nat) (change : Delivery → Delivery) : Store :=
  { s with deliveries := Rows.update (fun row => row.id == id) change s.deliveries }

/-- A new delivery; event keys are unique. -/
def Store.insert (row : Delivery) : Except NotificationError Store :=
  if row.eventKey ∈ s.deliveries.map Delivery.eventKey then .error ⟨409, "notification_request_conflict"⟩
  else .ok { s with deliveries := s.deliveries ++ [row], serial := s.serial + 1 }

def Settings.expected (settings : Settings) (revision : Nat) : Except NotificationError Unit :=
  require (settings.revision = revision) ⟨409, "notification_revision_conflict"⟩

def Settings.configured (settings : Settings) : Except NotificationError Unit :=
  require (settings.chatId ≠ "" ∧ settings.token.isSome) ⟨422, "notification_not_configured"⟩

def Delivery.cancel (row : Delivery) (code : String) (now : Nat) : Delivery :=
  { row with state := .cancelled, code := some code, updatedAt := now, nextAttemptAt := none }

end Lookups

section Eligibility

variable (host : Host) (s : Store)

def eventKey (candidate : Candidate) (user : ProductUser) : EventKey :=
  .packageExpiry user.username user.createdAt candidate.planId candidate.expiresAt

/-- The user's plan runs out within the time of advance notice. -/
def soon (settings : Settings) (now expiry : Nat) : Bool :=
  decide (now < expiry) && decide (expiry ≤ host.advance settings.timezone now settings.advanceDays)

/-- `_eligible_query`, without its order. -/
def eligible (now : Nat) : List (ProductUser × Candidate) :=
  s.users.filterMap fun user => do
    let planId ← user.currentPlanId
    let plan ← s.plans.find? fun plan => plan.id == planId
    let expiry ← user.planExpiresAt
    if user.isActive && user.removalId.isNone && soon host s.settings now expiry then
      some (user, { username := user.username, planId := plan.id, planName := plan.name, expiresAt := expiry })
    else none

def earlier (a b : ProductUser × Candidate) : Bool :=
  decide (a.2.expiresAt < b.2.expiresAt) || (a.2.expiresAt == b.2.expiresAt && decide (a.2.username ≤ b.2.username))

def currentCandidate (row : Delivery) (now : Nat) : Option Candidate := do
  let user ← s.users.find? fun user => some user.username == row.username
  let planId ← user.currentPlanId
  let plan ← s.plans.find? fun plan => plan.id == planId
  let expiry ← user.planExpiresAt
  if row.planId = some planId ∧ user.isActive = true ∧ user.removalId = none ∧
    row.userCreatedAt = some user.createdAt ∧
      row.expiresAt = some expiry ∧ soon host s.settings now expiry = true then
    some { username := user.username, planId := plan.id, planName := plan.name, expiresAt := expiry }
  else none

/-- `_revalidate`: the message, and the plan name that it refreshes. -/
def revalidate (row : Delivery) (now : Nat) : Option (String × Option String) :=
  match row.kind with
  | .test => some (testMessage, row.planName)
  | .packageExpiry =>
    (currentCandidate host s row now).map fun candidate =>
      (host.message candidate s.settings.timezone, some candidate.planName)

end Eligibility

section Operations

variable (host : Host) (s : Store) (now : Nat) (vault : Except NotificationError Unit)

inductive TokenAction where
  | keep
  | replace (token : String)
  | clear
deriving DecidableEq

structure SettingsUpdate where
  expectedRevision : Nat
  enabled : Bool
  chatId : String
  advanceDays : Nat
  timezone : String
  tokenAction : TokenAction

/-- What `update_settings` does to a queued delivery. -/
def Delivery.retarget (settings : Settings) (row : Delivery) : Delivery :=
  if settings.chatId = "" ∨ settings.token = none then row.cancel "notification_not_configured" now
  else
    let row := { row with
      configRevision := settings.revision
      destinationRevision := settings.destinationRevision
      chatId := settings.chatId
      updatedAt := now }
    if row.kind = .packageExpiry ∧ settings.enabled = false then row.cancel "notification_disabled" now else row

/-- The token after its action; replacing or clearing it needs the vault. -/
def tokenAfter (token : Option String) : TokenAction → Except NotificationError (Option String)
  | .keep => .ok token
  | .replace token => do vault; .ok (some token)
  | .clear => do vault; .ok none

def updateSettings (payload : SettingsUpdate) : Except NotificationError Store := do
  s.settings.expected payload.expectedRevision
  let token ← tokenAfter vault s.settings.token payload.tokenAction
  require (payload.enabled = true → token.isSome ∧ payload.chatId ≠ "") ⟨422, "notification_not_configured"⟩
  (if payload.enabled = true ∧ payload.tokenAction = .keep then vault else .ok () : Except NotificationError Unit)
  let moved := s.settings.token ≠ token ∨ s.settings.chatId ≠ payload.chatId
  let settings : Settings := {
    revision := s.settings.revision + 1
    enabled := payload.enabled
    token := token
    chatId := payload.chatId
    advanceDays := payload.advanceDays
    timezone := payload.timezone
    destinationRevision := s.settings.destinationRevision + if moved then 1 else 0
    updatedAt := now }
  .ok { s with
    settings := settings
    deliveries := Rows.update (fun row => row.state == .queued) (Delivery.retarget now settings) s.deliveries }

def enqueueTest (expectedRevision : Nat) (requestId : String) : Except NotificationError Store := do
  let payload := Payload.test expectedRevision requestId
  let existing ← s.existingRequest requestId payload
  if existing then .ok s
  else
    s.settings.expected expectedRevision
    s.settings.configured
    vault
    let t ← s.insert {
      id := s.serial
      eventKey := .test requestId
      kind := .test
      configRevision := s.settings.revision
      destinationRevision := s.settings.destinationRevision
      chatId := s.settings.chatId
      requestId := some requestId
      createdAt := now
      updatedAt := now
      nextAttemptAt := some now }
    .ok { t with requests := t.requests ++ [⟨requestId, payload, s.serial, now⟩] }

/-- A row that was cancelled before its first attempt is queued again by `scan`. -/
def Delivery.requeue (settings : Settings) (planName : String) (row : Delivery) : Delivery :=
  { row with
    state := .queued
    code := none
    nextAttemptAt := some now
    updatedAt := now
    configRevision := settings.revision
    destinationRevision := settings.destinationRevision
    chatId := settings.chatId
    planName := some planName }

/-- One eligible user of `scan`. -/
def scanOne (s : Store) (entry : ProductUser × Candidate) : Except NotificationError Store :=
  let (user, candidate) := entry
  match s.deliveries.find? fun row => row.eventKey == eventKey candidate user with
  | some row =>
    if row.state = .cancelled ∧ row.attemptCount = 0 ∧ row.acceptedOnce = false then
      .ok (s.set row.id (Delivery.requeue now s.settings candidate.planName))
    else .ok s
  | none =>
    s.insert {
      id := s.serial
      eventKey := eventKey candidate user
      kind := .packageExpiry
      configRevision := s.settings.revision
      destinationRevision := s.settings.destinationRevision
      chatId := s.settings.chatId
      username := some user.username
      userCreatedAt := some user.createdAt
      planId := some candidate.planId
      planName := some candidate.planName
      expiresAt := some candidate.expiresAt
      createdAt := now
      updatedAt := now
      nextAttemptAt := some now }

/-- Whether `scan` looks for users at all. -/
def scans : Bool :=
  s.settings.enabled && decide (9 ≤ host.hour s.settings.timezone now)

def scan : Except NotificationError Store :=
  if scans host s now = false then .ok s
  else do
    s.settings.configured
    vault
    ((eligible host s now).mergeSort earlier).foldlM (scanOne now) s

def Attempt.expired (attempt : Attempt) : Bool :=
  attempt.state == .sending && decide (attempt.deadlineAt ≤ now)

def Attempt.recover (attempt : Attempt) : Attempt :=
  { attempt with
    state := .unknown
    code := some "notification_attempt_expired"
    finishedAt := some now
    recoveredAt := some now
    retryable := false }

def Delivery.recover (row : Delivery) : Delivery :=
  { row with
    state := .unknown, code := some "notification_attempt_expired", updatedAt := now, nextAttemptAt := none }

/-- The row's current attempt has run out. -/
def Delivery.overdue (attempts : List Attempt) (row : Delivery) : Bool :=
  attempts.any fun attempt =>
    attempt.expired now && row.lastAttemptId == some attempt.id && row.generation == attempt.generation

def Chat.recover (chat : Chat) : Chat :=
  if chat.inFlightAttemptId.isSome ∧ chat.deadlineAt.any (fun deadline => decide (deadline ≤ now)) then
    { nextAllowedAt := max chat.nextAllowedAt now }
  else chat

/-- `_recover`. The row of an attempt is there (it is a foreign key), so every
attempt that ran out marks its own row. -/
def recover : Store :=
  { s with
    attempts := Rows.update (Attempt.expired now) (Attempt.recover now) s.attempts
    deliveries := Rows.update (Delivery.overdue now s.attempts) (Delivery.recover now) s.deliveries
    chats := fun id => (s.chats id).map (Chat.recover now) }

/-- `ClaimedNotification`. -/
structure Claimed where
  deliveryId : Nat
  attemptId : Nat
  token : Option String
  chatId : String
  text : String
  deadlineAt : Nat
deriving DecidableEq

/-- The next message to a chat has to wait. -/
def Chat.blocked (chat : Option Chat) : Bool :=
  chat.any fun chat => chat.inFlightAttemptId.isSome || decide (now < chat.nextAllowedAt)

/-- `claim` hands out an attempt for a row. -/
def handOut (s : Store) (row : Delivery) (message : String) (planName : Option String) (lease : Nat) :
    Store × Claimed :=
  let deadline := now + lease * second
  let attempt : Attempt := {
    id := s.serial
    deliveryId := row.id
    attemptNumber := row.attemptCount + 1
    generation := row.generation
    configRevision := s.settings.revision
    destinationRevision := s.settings.destinationRevision
    chatId := s.settings.chatId
    messageText := message
    startedAt := now
    deadlineAt := deadline }
  let change (row : Delivery) : Delivery := { row with
    state := .sending
    lastAttemptId := some s.serial
    attemptCount := row.attemptCount + 1
    updatedAt := now
    nextAttemptAt := none
    code := none
    configRevision := s.settings.revision
    destinationRevision := s.settings.destinationRevision
    chatId := s.settings.chatId
    planName := planName }
  ({ s.set row.id change with
      attempts := s.attempts ++ [attempt]
      serial := s.serial + 1
      chats := Function.update s.chats s.settings.chatId (some {
        nextAllowedAt := now + chatInterval
        inFlightAttemptId := some s.serial
        deadlineAt := some deadline }) },
    { deliveryId := row.id
      attemptId := s.serial
      token := s.settings.token
      chatId := s.settings.chatId
      text := message
      deadlineAt := deadline })

/-- The loop of `claim` over the rows of its query. -/
def claimRows (lease : Nat) : List Delivery → Store → Except NotificationError (Store × Option Claimed)
  | [], s => .ok (s, none)
  | row :: rows, s =>
    if row.acceptedOnce then claimRows lease rows (s.set row.id fun row =>
      row.cancel "notification_already_accepted" now)
    else if row.kind = .packageExpiry ∧ s.settings.enabled = false then
      claimRows lease rows (s.set row.id fun row => row.cancel "notification_disabled" now)
    else
      match revalidate host s row now with
      | none => claimRows lease rows (s.set row.id fun row => row.cancel "notification_no_longer_eligible" now)
      | some (message, planName) => do
        s.settings.configured
        vault
        if Chat.blocked now (s.chats s.settings.chatId) then
          claimRows lease rows (s.set row.id fun row => { row with planName := planName })
        else
          let (t, claimed) := handOut now s row message planName lease
          .ok (t, some claimed)

def Delivery.due (row : Delivery) : Bool :=
  row.state == .queued && row.nextAttemptAt.any fun time => decide (time ≤ now)

def oldest (a b : Delivery) : Bool :=
  decide (a.createdAt < b.createdAt) || (a.createdAt == b.createdAt && decide (host.order a.id ≤ host.order b.id))

def claim (leaseSeconds : Nat) : Except NotificationError (Store × Option Claimed) := do
  require (20 ≤ leaseSeconds ∧ leaseSeconds ≤ 120) ⟨422, "notification_invalid_request"⟩
  let s := recover s now
  claimRows host now vault leaseSeconds ((s.deliveries.filter (Delivery.due now)).mergeSort (oldest host)) s

structure Outcome where
  state : String
  code : String
  messageId : Option Int
  retryAfter : Option Int
  retryable : Bool

/-- What `finish` keeps of an outcome. -/
structure Receipt where
  state : AttemptState
  code : String
  messageId : Option Nat
  delay : Option Nat
  retryable : Bool
deriving DecidableEq

/-- `_outcome`. -/
def Outcome.receipt (value : Outcome) : Receipt :=
  let state : AttemptState :=
    if value.state = "accepted" then .accepted else if value.state = "failed" then .failed else .unknown
  let code := if value.code ∈ outcomeCodes then value.code else "notification_transport_failure"
  let messageId := (value.messageId.filter fun id => decide (0 < id ∧ id < 2 ^ 63)).map Int.toNat
  let delay := (value.retryAfter.filter fun delay => decide (1 ≤ delay ∧ delay ≤ 86400)).map Int.toNat
  let (state, code) :=
    if (state = .accepted ∧ code ≠ "telegram_accepted") ∨ (state = .failed ∧ code ∉ failedCodes) then
      (AttemptState.unknown, "notification_transport_failure")
    else (state, code)
  let (state, code) :=
    if state = .accepted ∧ messageId = none then (AttemptState.unknown, "notification_invalid_response")
      else (state, code)
  let (state, code) :=
    if code = "telegram_rate_limited" ∧ delay = none then (AttemptState.unknown, "notification_invalid_response")
    else (state, code)
  { state := state
    code := code
    messageId := if state = .accepted then messageId else none
    delay := delay
    retryable := decide (state = .failed) && value.retryable && decide (code ∈ safeRetryCodes) }

/-- A recorded receipt that no later one refines. -/
def Attempt.settled (attempt : Attempt) : Bool :=
  (attempt.finishedAt.isSome && attempt.recoveredAt.isNone) || attempt.lateReceiptAt.isSome

def Attempt.finish (receipt : Receipt) (attempt : Attempt) : Attempt :=
  { attempt with
    lateReceiptAt := if attempt.recoveredAt.isSome ∨ attempt.deadlineAt < now then some now
      else attempt.lateReceiptAt
    state := receipt.state
    code := some receipt.code
    messageId := receipt.messageId
    finishedAt := some now
    retryAfter := receipt.delay
    retryable := receipt.retryable }

def Chat.finish (receipt : Receipt) (attempt : Attempt) (chat : Chat) : Chat :=
  let chat := { chat with
    nextAllowedAt := max (max chat.nextAllowedAt (now + chatInterval)) (now + receipt.delay.getD 0 * second) }
  if chat.inFlightAttemptId = some attempt.id ∧ (receipt.state ≠ .unknown ∨ attempt.deadlineAt ≤ now) then
    { chat with inFlightAttemptId := none, deadlineAt := none }
  else chat

def AttemptState.delivery : AttemptState → DeliveryState
  | .sending => .sending
  | .accepted => .accepted
  | .failed => .failed
  | .unknown => .unknown

/-- The delivery is still at the attempt. -/
def Delivery.current (attempt : Attempt) (row : Delivery) : Bool :=
  row.lastAttemptId == some attempt.id && row.generation == attempt.generation

def Delivery.accept (receipt : Receipt) (row : Delivery) : Delivery :=
  { row with acceptedOnce := row.acceptedOnce || decide (receipt.state = .accepted) }

/-- What `finish` does to the row of its attempt, once the chat has been set. -/
def Delivery.finish (chat : Option Chat) (receipt : Receipt) (attempt : Attempt) (row : Delivery) : Delivery :=
  let row := row.accept receipt
  if row.current attempt = false then row
  else
    let row := { row with
      state := receipt.state.delivery
      code := some receipt.code
      messageId := receipt.messageId
      updatedAt := now
      nextAttemptAt := none }
    if receipt.retryable = true ∧ row.attemptCount < maxAutomaticAttempts ∧ row.acceptedOnce = false ∧
        (row.kind = .test ∨ s.settings.enabled = true) then
      match revalidate host s row now with
      | none => row
      | some (_, planName) =>
        { row with
          planName := planName
          state := .queued
          nextAttemptAt := some (max (now + receipt.delay.getD (2 ^ row.attemptCount) * second)
            ((chat.map Chat.nextAllowedAt).getD now)) }
    else row

def finish (deliveryId attemptId : Nat) (outcome : Outcome) : Except NotificationError Store :=
  match s.attempt? attemptId with
  | none => .error ⟨409, "notification_attempt_conflict"⟩
  | some attempt => do
    require (attempt.deliveryId = deliveryId) ⟨409, "notification_attempt_conflict"⟩
    let row ← s.row deliveryId
    if attempt.settled then .ok s
    else
      let receipt := outcome.receipt
      let chat := (s.chats attempt.chatId).map (Chat.finish now receipt attempt)
      .ok { s.set row.id (Delivery.finish host s now chat receipt attempt) with
        attempts := Rows.update (fun other => other.id == attempt.id) (Attempt.finish now receipt) s.attempts
        chats := Function.update s.chats attempt.chatId chat }

def retryTime (row : Delivery) : Option Nat :=
  if (row.state ≠ .unknown ∧ row.state ≠ .failed) ∨ row.acceptedOnce = true then none
  else do
    let latest ← row.lastAttemptId.bind s.attempt?
    let time := latest.finishedAt.getD latest.startedAt
    let time := if row.state = .unknown then max time latest.deadlineAt else time
    match s.chats s.settings.chatId with
    | none => some time
    | some chat =>
      let time := max time chat.nextAllowedAt
      some (if chat.inFlightAttemptId.isSome then max time (chat.deadlineAt.getD 0) else time)

structure RetryRequest where
  expectedRevision : Nat
  requestId : String
  expectedAttemptId : Nat
  confirmDuplicateRisk : Bool

def RetryRequest.payload (payload : RetryRequest) (id : Nat) : Payload :=
  .retry id payload.expectedRevision payload.requestId payload.expectedAttemptId payload.confirmDuplicateRisk

/-- What `retry` does to the row. -/
def Delivery.retry (settings : Settings) (requestId : String) (planName : Option String)
    (row : Delivery) : Delivery :=
  { row with
    planName := planName
    state := .queued
    nextAttemptAt := some now
    updatedAt := now
    code := none
    messageId := none
    configRevision := settings.revision
    destinationRevision := settings.destinationRevision
    chatId := settings.chatId
    requestId := some requestId
    generation := row.generation + 1 }

/-- The checks of `retry` on a row: the plan name that the message was made with. -/
def retryCheck (payload : RetryRequest) (row : Delivery) : Except NotificationError (Option String) := do
  require (row.lastAttemptId = some payload.expectedAttemptId) ⟨409, "notification_attempt_conflict"⟩
  match retryTime s row with
  | none => .error ⟨409, "notification_retry_not_allowed"⟩
  | some available =>
    require (available ≤ now) ⟨409, "notification_retry_too_early"⟩
    require (row.state = .unknown → payload.confirmDuplicateRisk = true) ⟨422,
      "notification_duplicate_risk_required"⟩
    require (row.kind = .packageExpiry → s.settings.enabled = true) ⟨409, "notification_disabled"⟩
    s.settings.configured
    vault
    match revalidate host s row now with
    | none => .error ⟨409, "notification_no_longer_eligible"⟩
    | some (_, planName) => .ok planName

def retry (id : Nat) (payload : RetryRequest) : Except NotificationError Store := do
  let existing ← s.existingRequest payload.requestId (payload.payload id)
  if existing then .ok s
  else
    let s := recover s now
    s.settings.expected payload.expectedRevision
    let row ← s.row id
    let planName ← retryCheck host s now vault payload row
    .ok { s.set row.id (Delivery.retry now s.settings payload.requestId planName) with
      requests := s.requests ++ [⟨payload.requestId, payload.payload id, row.id, now⟩] }

end Operations

section Runs

inductive Action where
  | updateSettings (payload : SettingsUpdate)
  | inventory (users : List ProductUser) (plans : List SubscriptionPlan)
  | enqueueTest (expectedRevision : Nat) (requestId : String)
  | scan
  | claim (leaseSeconds : Nat)
  | finish (deliveryId attemptId : Nat) (outcome : Outcome)
  | recover
  | retry (id : Nat) (payload : RetryRequest)

/-- An action with the time since the last one and what the vault answers in it. -/
structure Event where
  elapsed : Nat
  vault : Except NotificationError Unit := .ok ()
  action : Action

variable (host : Host)

/-- One operation as a transaction of its own. -/
def perform (s : Store) (now : Nat) (vault : Except NotificationError Unit) : Action →
    Except NotificationError Store
  | .updateSettings payload => updateSettings s now vault payload
  | .inventory users plans => .ok { s with users := users, plans := plans }
  | .enqueueTest expectedRevision requestId => enqueueTest s now vault expectedRevision requestId
  | .scan => scan host s now vault
  | .claim leaseSeconds => do .ok (← claim host s now vault leaseSeconds).1
  | .finish deliveryId attemptId outcome => finish host s now deliveryId attemptId outcome
  | .recover => .ok (recover s now)
  | .retry id payload => retry host s now vault id payload

/-- A failed operation is rolled back. -/
def Store.step (s : Store) (event : Event) : Store :=
  let now := s.clock + event.elapsed
  match perform host s now event.vault event.action with
  | .ok t => { t with clock := now }
  | .error _ => { s with clock := now }

def Store.run (s : Store) (events : List Event) : Store :=
  events.foldl (Store.step host) s

/-- `create_schema` on a database with these users and plans. -/
def createSchema (users : List ProductUser) (plans : List SubscriptionPlan) : Store :=
  { users := users, plans := plans }

end Runs

end OpenNode.Notifications
