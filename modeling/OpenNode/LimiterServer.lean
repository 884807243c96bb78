import OpenNode.LimiterManager

namespace OpenNode.NodeLimits

/-- The JSON form of documents and its digest. A nil slice and an empty one are
one list here. -/
structure Encoding (F : Type) where
  /-- `json.Marshal`. -/
  marshal : Document F → Except String Bytes
  /-- `decode` into a document of a new manager. -/
  decode : Bytes → Except String (Document F)
  /-- `sha256.Sum256`, in hexadecimal. -/
  sum256 : Bytes → String

/-- What the limiter relies on: a written document that is not too long is read
back, and a digest is never empty. -/
structure Encoding.Lawful {F : Type} (encoding : Encoding F) : Prop where
  decode_marshal : ∀ d raw, encoding.marshal d = .ok raw → raw.length ≤ maxBytes → encoding.decode raw = .ok d
  sum256_ne : ∀ raw, encoding.sum256 raw ≠ ""

/-- `revision`, which encodes a document that cannot be marshalled as no bytes. -/
def Encoding.revision {F : Type} (encoding : Encoding F) (document : Document F) : String :=
  match encoding.marshal document with
  | .ok raw => encoding.sum256 raw
  | .error _ => encoding.sum256 []

structure Update (F : Type) where
  policies : List (Policy F) := []
  removals : List String := []
deriving DecidableEq

/-- The steps of `persist` that can fail. -/
inductive PersistStep where
  | read
  | createTemp
  | write
  | sync
  | close
  | rename
  | openDirectory
  | syncDirectory
deriving DecidableEq, Repr

/-- The error with which each step fails, if it does. -/
abbrev Faults := PersistStep → Option String

/-- `readPolicy` of the file, which is absent when `none`. Whatever else can go
wrong with the file is a fault of reading it. -/
def readPolicy (faults : Faults) (file : Option Bytes) : Except String (Option Bytes) :=
  match faults .read with
  | some error => .error error
  | none =>
    match file with
    | none => .ok none
    | some raw =>
      if raw.length > maxBytes then .error "limiter policy must be a bounded private regular file"
      else .ok (some raw)

/-- The error of the first step that fails. -/
def attempt (faults : Faults) (steps : List PersistStep) : Option String :=
  steps.findSome? faults

/-- The steps up to the one that replaces the file, and those after it. -/
def replacingSteps : List PersistStep := [.createTemp, .write, .sync, .close, .rename]
def directorySteps : List PersistStep := [.openDirectory, .syncDirectory]

/-- `persist`: the file afterwards, and the error. `bytes.Equal` takes no bytes
for empty bytes. -/
def persist (faults : Faults) (file : Option Bytes) (raw : Bytes) (expected : Option Bytes) :
    Option Bytes × Option String :=
  match readPolicy faults file with
  | .error error => (file, some error)
  | .ok current =>
    if current.getD [] ≠ expected.getD [] then
      (file, some "limiter policy was changed outside the runtime")
    else
      match attempt faults replacingSteps with
      | some error => (file, some error)
      | none => (some raw, attempt faults directorySteps)

/-- The loops of `apply` over the removals and the policies: the tags to replace. -/
def checkRemovals : (replace : List String) → List String → Except String (List String)
  | replace, [] => .ok replace
  | replace, tag :: rest =>
    if !textOK tag || replace.contains tag then .error "invalid removal"
    else checkRemovals (tag :: replace) rest

variable {F : Type} [Float64 F]

def checkPolicies : (replace : List String) → List (Policy F) → Except String (List String)
  | replace, [] => .ok replace
  | replace, policy :: rest =>
    match policy.validate with
    | some error => .error error
    | none =>
      if replace.contains policy.inboundTag then .error "duplicate limiter change"
      else checkPolicies (policy.inboundTag :: replace) rest

/-- The tags that an update replaces. -/
def Update.check (changes : Update F) : Except String (List String) :=
  if changes.policies.length + changes.removals.length > 1000 then .error "too many limiter changes"
  else
    match checkRemovals [] changes.removals with
    | .error error => .error error
    | .ok replace => checkPolicies replace changes.policies

namespace Manager

/-- The part of `apply` before it writes: the new document and its bytes. -/
def prepare (encoding : Encoding F) (m : Manager F) (changes : Update F) (expected : String) :
    Except String (Document F × Bytes) :=
  if expected ≠ "" ∧ expected ≠ encoding.revision m.document then
    .error "limiter revision changed; refresh before applying"
  else
    match changes.check with
    | .error error => .error error
    | .ok replace =>
      let document : Document F :=
        { version := 1
          inbounds :=
            (m.document.inbounds.filter fun policy => !replace.contains policy.inboundTag) ++ changes.policies }
      match document.validate with
      | some error => .error error
      | none =>
        match encoding.marshal document with
        | .error error => .error error
        | .ok raw =>
          if raw.length > maxBytes then .error "limiter policy exceeds 2 MiB"
          else .ok (document, raw)

/-- `apply`: the manager and the policy file afterwards, and the error. The
flows that `install` gives it to close are released by events of their own. -/
def apply [DecidableEq F] (encoding : Encoding F) (faults : Faults) (m : Manager F) (file : Option Bytes)
    (changes : Update F) (expected : String) : Manager F × Option Bytes × Option String :=
  match m.prepare encoding changes expected with
  | .error error => (m, file, some error)
  | .ok (document, raw) =>
    match persist faults file raw m.raw with
    | (file, some error) => (m, file, some error)
    | (file, none) => ((m.install document (some raw)).1, file, none)

/-- The reading of the policy file in `Start` of a new manager. -/
def load [DecidableEq F] (encoding : Encoding F) (faults : Faults) (file : Option Bytes) (now : Time) :
    Except String (Manager F) :=
  let m : Manager F := { lastTick := now }
  match readPolicy faults file with
  | .error error => .error error
  | .ok none => .ok (m.install m.document none).1
  | .ok (some raw) =>
    match encoding.decode raw with
    | .error error => .error error
    | .ok document =>
      match document.validate with
      | some error => .error error
      | none => .ok (m.install document (some raw)).1

/-- What `snapshot` tells a client about the document. -/
structure Snapshot (F : Type) where
  revision : String
  inbounds : List (Policy F)

def snapshot (encoding : Encoding F) (m : Manager F) : Snapshot F :=
  { revision := encoding.revision m.document, inbounds := m.document.inbounds }

end Manager

end OpenNode.NodeLimits
