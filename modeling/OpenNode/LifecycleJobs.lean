import OpenNode.Json
import OpenNode.Lib.Rows

namespace OpenNode.Lifecycle

inductive LifecycleAction where
  | upgrade
  | rollback
  | uninstall
deriving DecidableEq, Repr

/-- `UPGRADE_PATHS`, `UNINSTALL_PATHS` and `ROLLBACK_PATH`. -/
def upgradePaths : List String := ["/api/child/agent/upgrade", "/api/child/agent/upgrade-stream"]
def uninstallPaths : List String := ["/api/child/agent/uninstall", "/api/child/agent/uninstall-stream"]
def rollbackPath : String := "/api/child/agent/rollback"

/-- `COMMAND_FIELDS`, in the order of a dump with sorted keys. -/
def commandFields : List String := ["body", "method", "path", "query", "stream"]

section Protocol

def isDigit (c : Char) : Bool := '0' ≤ c && c ≤ '9'

def isAlphanumeric (c : Char) : Bool := isDigit c || ('a' ≤ c && c ≤ 'z') || ('A' ≤ c && c ≤ 'Z')

/-- `[0-9]+`, and what follows it. -/
def digits? (text : List Char) : Option (List Char) :=
  if text.head?.any isDigit then some (text.dropWhile isDigit) else none

/-- `REQUEST_PATTERN`. -/
def matchesRequest (text : String) : Bool :=
  match text.toList with
  | [] => false
  | first :: rest => isAlphanumeric first && rest.length ≤ 119 && rest.all fun c => isAlphanumeric c ||
      "_.-".toList.contains c

/-- The suffix of `VERSION_PATTERN`. -/
def matchesPrerelease : List Char → Bool
  | [] => true
  | 'a' :: rest | 'b' :: rest | 'r' :: 'c' :: rest => digits? rest == some []
  | _ => false

/-- `VERSION_PATTERN`. -/
def matchesVersion (text : String) : Bool :=
  match digits? text.toList with
  | some ('.' :: minor) =>
    match digits? minor with
    | some ('.' :: patch) => (digits? patch).any matchesPrerelease
    | _ => false
  | _ => false

/-- `SHA_PATTERN`. -/
def matchesSha (text : String) : Bool :=
  text.toList.length == 64 && text.toList.all fun c => isDigit c || ('a' ≤ c && c ≤ 'f')

def isLifecycleCommand (command : Json) : Bool :=
  (command.get "method").str? == some "POST" &&
    (command.get "path").str?.any (upgradePaths ++ uninstallPaths ++ [rollbackPath]).contains

def validateCommand (command : Json) : Except String LifecycleAction := do
  if !command.hasExactly ("request_id" :: commandFields) then throw "Invalid lifecycle command fields"
  if !(command.get "request_id").str?.any matchesRequest then throw "Invalid lifecycle request ID"
  if !isLifecycleCommand command ||
    !((command.get "query").equal (.str "") || (command.get "query").equal .null) then
    throw "Unsupported lifecycle operation"
  if (command.get "stream").bool?.isNone then throw "Invalid lifecycle stream flag"
  let body := command.get "body"
  if !body.isObj then throw "A lifecycle operation requires an explicit request"
  if (command.get "path").str?.any upgradePaths.contains then
    if !body.hasExactly ["version", "sha256"] then throw "Upgrade requires only version and sha256"
    if !(body.get "version").str?.any (fun text => text.length ≤ 64 && matchesVersion text) ||
        !(body.get "sha256").str?.any matchesSha then
      throw "An explicit Agent version and lowercase SHA-256 are required"
    return .upgrade
  if !body.hasExactly ["confirm"] || (body.get "confirm").bool? != some true then
    throw "Explicit confirmation is required"
  return if (command.get "path").str?.any uninstallPaths.contains then .uninstall else .rollback

/-- The identifier of a command that is valid. -/
def requestId (command : Json) : String := (command.get "request_id").str?.getD ""

/-- `fingerprint`. The digest is that of a document's text with sorted keys. -/
def fingerprint {D : Type} (digest : Json → D) (command : Json) : D :=
  digest (.obj (commandFields.map fun key => (key, command.get key)))

end Protocol

inductive JobStatus where
  | queued
  | running
  | succeeded
  | failed
deriving DecidableEq, Repr

def JobStatus.active : JobStatus → Bool
  | .queued | .running => true
  | .succeeded | .failed => false

/-- A row of `jobs`. -/
structure Job (D : Type) where
  requestId : String
  fingerprint : D
  command : Json
  action : LifecycleAction
  status : JobStatus
  result : Option Json := none
  reported : Bool := false
  createdAt : Int

variable {D : Type}

/-- The state that `finish` gives to a result. -/
def resultState (result : Json) : JobStatus :=
  if (result.get "error").truthy || (result.get "status").number?.any (400 ≤ ·) then .failed else .succeeded

namespace JobStore

def rows (condition : Job D → Bool) (jobs : List (Job D)) : List (Job D) :=
  (jobs.filter condition).insertionSort fun job job' => job.createdAt ≤ job'.createdAt

def get (id : String) (jobs : List (Job D)) : Option (Job D) :=
  jobs.find? (·.requestId == id)

def submit [DecidableEq D] (digest : Json → D) (now : Int) (command : Json) (jobs : List (Job D)) :
    Except String (Job D) × List (Job D) :=
  match validateCommand command with
  | .error error => (.error error, jobs)
  | .ok action =>
    match get (requestId command) jobs with
    | some existing =>
      if existing.fingerprint ≠ fingerprint digest command then
        (.error "Lifecycle request ID reused with different content", jobs)
      else (.ok existing, jobs)
    | none =>
      if jobs.any (·.status.active) then (.error "Another Agent deployment is active", jobs)
      else
        let job : Job D := ⟨requestId command, fingerprint digest command, command, action, .queued,
          none, false, now⟩
        (.ok job, jobs ++ [job])

def started (id : String) : List (Job D) → List (Job D) :=
  Rows.update (fun job => job.requestId == id && job.status == .queued) fun job => { job with status := .running }

def finish (id : String) (result : Json) : List (Job D) → List (Job D) :=
  Rows.update (fun job => job.requestId == id && job.result.isNone) fun job =>
    { job with status := resultState result, result := some result }

def acknowledge (id : String) : List (Job D) → List (Job D) :=
  Rows.update (fun job => job.requestId == id && job.result.isSome) fun job => { job with reported := true }

end JobStore

end OpenNode.Lifecycle
