import OpenNode.Lib.Raising
import OpenNode.ManagedProtocols

namespace OpenNode.ManagedProtocols

open Raising

/-- The config file, the journal and the process of Mihomo. The process is what it
has loaded; `loaded` is what `loaded_sha256` is the digest of. -/
structure MihomoHost where
  config : Option MihomoConfig
  journal : Option ManagedProtocolsRequest
  process : Option MihomoConfig
  loaded : Option MihomoConfig
deriving DecidableEq

abbrev MihomoProgram := Program MihomoHost String

def maxConfigBytes : Nat := 2 * 1024 * 1024

/-- The sizes of the encoded documents. -/
structure Encoding where
  config : MihomoConfig → Nat
  state : Declaration → Nat
  empty_le : config emptyConfig ≤ maxConfigBytes

namespace MihomoHost

def running (host : MihomoHost) : Bool := host.process.isSome

def writeConfig (content : MihomoConfig) (host : MihomoHost) : MihomoHost := { host with config := some content }

def writeState (request : Option ManagedProtocolsRequest) (host : MihomoHost) : MihomoHost :=
  { host with journal := request }

/-- The process reads the config file. -/
def spawn (host : MihomoHost) : MihomoHost := { host with process := host.config }

def markLoaded (content : MihomoConfig) (host : MihomoHost) : MihomoHost := { host with loaded := some content }

/-- No process is left. -/
def clear (host : MihomoHost) : MihomoHost := { host with process := none, loaded := none }

/-- What `GuardedAtomicWrite.rollback` puts back, or the removal of the file that was created. -/
def restoreConfig (previous : Option MihomoConfig) (host : MihomoHost) : MihomoHost :=
  { host with config := previous }

end MihomoHost

section Checks

variable {σ : Type}

/-- An error that is raised unless a condition holds. -/
def require (holds : Bool) (message : String) (rest : Program σ String) : Program σ String :=
  if holds then rest else .raise (.raised message)

/-- The journal is read. -/
def readState (encoding : Encoding) (journal : σ → Option ManagedProtocolsRequest)
    (rest : Option ManagedProtocolsRequest → Program σ String) : Program σ String :=
  .call <| .read fun host =>
    require ((journal host).all fun request => encoding.state request.toDeclaration ≤ maxConfigBytes * 2)
      "Managed protocol state exceeds its size limit" <| rest (journal host)

end Checks

section Runtime

variable (encoding : Encoding)

def encodeConfig {σ : Type} (config : MihomoConfig) (rest : Program σ String) : Program σ String :=
  require (encoding.config config ≤ maxConfigBytes) "Mihomo configuration exceeds 2 MiB" rest

/-- `stop`: the process may refuse the signal, and what interrupts the wait is raised in the end. -/
def stop (rest : MihomoProgram) : MihomoProgram :=
  .read fun host =>
    if host.running then .call (.sure MihomoHost.clear (.call rest))
    else .sure MihomoHost.clear rest

def start : MihomoProgram :=
  .read fun host =>
    if host.running then .done
    else
      .call <|
        match host.config with
        | none => .raise (.failed "No such file or directory")
        | some content =>
          -- The validation, which can fail and can reject.
          .call <| .attempt (.step MihomoHost.spawn (.call .done)) (fun error => stop (.raise error)) <|
            .sure (MihomoHost.markLoaded content) .done

def restart : MihomoProgram := stop start

/-- The process of a config that is written. -/
def activateConfig (activate wasRunning : Bool) : MihomoProgram :=
  if activate then (if wasRunning then restart else start)
  else if wasRunning then stop .done else .done

/-- What `write` does when the process does not follow: the file goes back, by an exchange or an unlink
that does not fail, and the error is raised again. -/
def undoWrite (content : MihomoConfig) (previous : Option MihomoConfig) (wasRunning : Bool) (error : Error String) :
    MihomoProgram :=
  .read fun host =>
    if host.config == some content then
      .sure (MihomoHost.restoreConfig previous) <|
        -- What the restart raises is suppressed.
        if wasRunning then .attempt start (fun _ => .done) (.raise error) else .raise error
    else .raise error

/-- `MihomoRuntime.write`. -/
def write (content : MihomoConfig) (activate : Bool) (expected : Option MihomoConfig) : MihomoProgram :=
  encodeConfig encoding content <| .call <| .read fun host =>
    require (host.config == expected) "Mihomo configuration changed during the guarded update" <|
      .step (MihomoHost.writeConfig content) <|
        .attempt (activateConfig activate host.running) (undoWrite content host.config host.running) .done

end Runtime

section Xray

variable {σ : Type}

/-- An inbound of Xray, or one that another component reserves. -/
structure XrayInbound where
  tag : Option String
  listen : Option Address := some (.v4 0)
  port : Option Int
deriving DecidableEq

/-- What the Agent sees of Xray. -/
inductive XrayView where
  | absent
  | unreadable (error : String)
  | inbounds (items : List XrayInbound)
deriving DecidableEq

def assertXrayCompatible (listeners : List ManagedListener) (items : List XrayInbound) (rest : Program σ String) :
    Program σ String :=
  require (listeners.all fun listener => items.all fun item => item.tag != some listener.tag)
      "Managed protocol tag conflicts with an Xray inbound" <|
    require (listeners.all fun listener => items.all fun item =>
        item.port.all fun port => !bindingsOverlap listener.binding ⟨item.listen, port⟩)
      "Managed protocol listener conflicts with an Xray inbound" rest

/-- The check against the Xray runtime, when there is one. -/
def inspectXray (listeners : List ManagedListener) (xray : XrayView) (rest : Program σ String) : Program σ String :=
  match xray with
  | .absent => rest
  | .unreadable error => .raise (.failed error)
  | .inbounds items => assertXrayCompatible listeners items rest

end Xray

section Operations

variable (encoding : Encoding)

def load (rest : Option ManagedProtocolsRequest → MihomoProgram) : MihomoProgram :=
  readState encoding MihomoHost.journal rest

/-- The config that a journal asks for. -/
def declared (journal : Option ManagedProtocolsRequest) : MihomoConfig :=
  (journal.map fun request => compileConfig request.toDeclaration).getD emptyConfig

/-- A process that was in conflict with Xray is stopped. -/
def stopConflicting (error : Error String) : MihomoProgram :=
  .read fun host => if host.running then stop (.raise error) else .raise error

/-- The end of `ensure_started`. -/
def converge (desired : MihomoConfig) : MihomoProgram :=
  .call <| .read fun host =>
    if host.config ≠ some desired then
      -- The journal is authoritative.
      write encoding desired (!desired.listeners.isEmpty) host.config
    else if !desired.listeners.isEmpty then
      if !host.running then start
      else if host.loaded ≠ some desired then restart
      else .done
    else if host.running then stop .done
    else .done

def ensureStarted (xray : XrayView) : MihomoProgram :=
  load encoding fun state =>
    .attempt
      (match state with
        | some request => .call (inspectXray request.listeners xray .done)
        | none => .done)
      stopConflicting
      (encodeConfig encoding (declared state) (converge encoding (declared state)))

def active (request : Option ManagedProtocolsRequest) (rest : Bool → MihomoProgram) : MihomoProgram :=
  match request with
  | some request => rest (isActive request.toDeclaration)
  | none => load encoding fun state => rest (state.any fun request => isActive request.toDeclaration)

/-- The rollback when the journal cannot be written asks for a review when it fails as well. -/
def restoreRuntime (rollback : MihomoProgram) (review : String) (rest : MihomoProgram) : MihomoProgram :=
  .attempt rollback (fun _ => .raise (.raised review)) rest

def apply (xray : XrayView) (request : ManagedProtocolsRequest) : MihomoProgram :=
  load encoding fun previous =>
    if previous.any fun before => before.revision == request.revision then
      inspectXray ((previous.map fun before => before.listeners).getD []) xray .done
    else
      inspectXray request.listeners xray <|
        encodeConfig encoding (compileConfig request.toDeclaration) <| .call <| .call <| .read fun host =>
          (write encoding (compileConfig request.toDeclaration) (isActive request.toDeclaration) host.config).seq <|
            .attempt (.step (MihomoHost.writeState (some request)) .done)
              (fun error =>
                let restore (config : MihomoConfig) : MihomoProgram :=
                  restoreRuntime
                    (active encoding previous fun activate =>
                      write encoding config activate (some (compileConfig request.toDeclaration)))
                    "Managed protocol state write failed and runtime rollback needs review"
                    (.step (MihomoHost.writeState previous) (.raise error))
                match previous, host.config with
                | some _, some oldConfig => restore oldConfig
                | some before, none =>
                  encodeConfig encoding (compileConfig before.toDeclaration)
                    (restore (compileConfig before.toDeclaration))
                -- Without a declaration there is no listener to go back to.
                | none, _ => encodeConfig encoding emptyConfig (restore emptyConfig))
              .done

/-- What `commit_request` and `rollback_request` do: the journal goes from `expected` to `request`. -/
def replaceRequest (changed review : String) (request expected : ManagedProtocolsRequest) : MihomoProgram :=
  load encoding fun current =>
    require (current == some expected) changed <| .call <| .read fun host =>
      match host.config with
      | none => .raise (.failed "No such file or directory")
      | some oldConfig =>
        encodeConfig encoding (compileConfig request.toDeclaration) <|
          (write encoding (compileConfig request.toDeclaration) (isActive request.toDeclaration)
            (some oldConfig)).seq <|
            .attempt (.step (MihomoHost.writeState (some request)) .done)
              (fun error =>
                restoreRuntime
                  (write encoding oldConfig (isActive expected.toDeclaration)
                    (some (compileConfig request.toDeclaration)))
                  review (.raise error))
              .done

def commitRequest (request expected : ManagedProtocolsRequest) : MihomoProgram :=
  replaceRequest encoding "Managed protocol state changed during the guarded update"
    "Mihomo access state write failed and runtime rollback needs review" request expected

def rollbackRequest (previous expected : ManagedProtocolsRequest) : MihomoProgram :=
  replaceRequest encoding "Managed protocol state changed before rollback"
    "Mihomo rollback state write failed and runtime recovery needs review" previous expected

end Operations

/-- The errors that ask the operator for a review. -/
def reviewMessages : List String :=
  ["Managed protocol state write failed and runtime rollback needs review",
    "Mihomo access state write failed and runtime rollback needs review",
    "Mihomo rollback state write failed and runtime recovery needs review",
    "Xray access journal failed after apply and runtime rollback needs review",
    "Xray access apply failed and Mihomo rollback requires operator review"]

def asksReview : Error String → Bool
  | .raised message => reviewMessages.contains message
  | .failed _ => false

section Runs

variable (encoding : Encoding)

inductive MihomoOperation where
  | ensureStarted (xray : XrayView)
  | apply (xray : XrayView) (request : ManagedProtocolsRequest)
  | commitRequest (request expected : ManagedProtocolsRequest)
  | rollbackRequest (previous expected : ManagedProtocolsRequest)
deriving DecidableEq

namespace MihomoOperation

def program : MihomoOperation → MihomoProgram
  | .ensureStarted xray => ManagedProtocols.ensureStarted encoding xray
  | .apply xray request => ManagedProtocols.apply encoding xray request
  | .commitRequest request expected => ManagedProtocols.commitRequest encoding request expected
  | .rollbackRequest previous expected => ManagedProtocols.rollbackRequest encoding previous expected

/-- Not an `apply` of the revision that is journalled. -/
def changes (host : MihomoHost) : MihomoOperation → Bool
  | .apply _ request => host.journal.all fun before => before.revision != request.revision
  | _ => true

end MihomoOperation

/-- The process dies with the Agent. -/
def settle : MihomoHost × Ending String → MihomoHost
  | (host, .killed) => host.clear
  | (host, .returned) | (host, .raised _) => host

/-- The states between the operations of an Agent that can be killed at any step. -/
inductive Reaches : MihomoHost → Prop where
  | fresh : Reaches ⟨none, none, none, none⟩
  | operation {host : MihomoHost} (operation : MihomoOperation) (effects : Nat → Effect) (reaches : Reaches host) :
      Reaches (settle ((operation.program encoding).run effects host))
  | killed {host : MihomoHost} (reaches : Reaches host) : Reaches host.clear

end Runs

/-- The listeners of the config file. -/
def MihomoHost.listeners (host : MihomoHost) : List MihomoListener :=
  (host.config.map MihomoConfig.listeners).getD []

end OpenNode.ManagedProtocols
