import OpenNode.Json
import OpenNode.Lib.Base64
import OpenNode.Lib.Interruption
import OpenNode.SecureChannel

namespace OpenNode.HostFiles

open Interruption Program

inductive Service where
  | xray
  | nginx
deriving DecidableEq, Repr

/-- The host: the owned files, the undo record (without a document where it cannot be read as one), the intents
of the journal, and what the Agent keeps in memory. -/
structure Host (M : Type) where
  files : String → Option Bytes
  record : Option (Option Json) := none
  intents : Service → Bool
  memory : M

/-- `FileTransaction`: which paths `check_path` lets through, whether there is a `restore_intents`,
and the length of
a document's text. -/
structure FileTransaction where
  owned : String → Bool
  restoresIntents : Bool
  jsonLength : Json → Nat

def maxConfigBytes : Nat := 2 * 1024 * 1024

/-- The changes of a transaction; a file without content is removed. -/
structure ChangeMap where
  entries : List (String × Option Bytes)
  distinct : (entries.map Prod.fst).Nodup

def ChangeMap.names (changes : ChangeMap) : List String := changes.entries.map Prod.fst

variable {M : Type}

namespace Host

def putFile (name : String) (value : Option Bytes) (s : Host M) : Host M :=
  { s with files := Function.update s.files name value }

/-- `set_desired_running`. -/
def setIntent (service : Service) (running : Bool) (s : Host M) : Host M :=
  { s with intents := Function.update s.intents service running }

def setRecord (record : Option (Option Json)) (s : Host M) : Host M :=
  { s with record := record }

end Host

/-- Each file is replaced or removed; what follows a replacement may raise too. -/
def putFiles : List (String × Option Bytes) → Program (Host M)
  | [] => .done
  | (name, value) :: rest => .step (write (Host.putFile name value)) (call (putFiles rest))

def setIntents : List (Service × Bool) → Program (Host M)
  | [] => .done
  | (service, running) :: rest => .step (write (Host.setIntent service running)) (setIntents rest)

def fileText (value : Option Bytes) : Json :=
  match value with
  | none => .null
  | some bytes => .str (String.ofList (Base64.encode bytes))

/-- The undo record of a transaction. -/
def undoDocument (names : List String) (intents : Option (Service → Bool)) (files : String → Option Bytes) : Json :=
  let originals := Json.obj (names.map fun name => (name, fileText (files name)))
  match intents with
  | none => originals
  | some intents => .obj [("schema", .int 1), ("files", originals),
      ("intents", .obj [("xray", .bool (intents .xray)), ("nginx", .bool (intents .nginx))])]

namespace FileTransaction

variable (tx : FileTransaction)

def checkIntents (intents : Json) : Except String (List (Service × Bool)) :=
  match intents.hasExactly ["xray", "nginx"], (intents.get "xray").bool?, (intents.get "nginx").bool?,
    tx.restoresIntents with
  | true, some xray, some nginx, true => .ok [(.xray, xray), (.nginx, nginx)]
  | _, _, _, _ => .error "Invalid runtime intent undo record"

/-- An entry of the undo record. -/
def original (entry : String × Json) : Except String (String × Option Bytes) :=
  if !tx.owned entry.1 then .error "File is not owned by the transaction"
  else
    match entry.2 with
    | .null => .ok (entry.1, none)
    | .str text =>
      match Base64.decode text.toList with
      | some bytes => .ok (entry.1, some bytes)
      | none => .error "Incorrect padding"
    | _ => .error "argument should be a bytes-like object or ASCII string"

def parseOriginals (files : Json) : Except String (List (String × Option Bytes)) :=
  match files with
  | .obj entries => if 128 < entries.length then .error "Invalid host transaction record"
      else entries.mapM tx.original
  | _ => .error "Invalid host transaction record"

/-- What `recover` validates before it restores anything. -/
def parseUndo (document : Option Json) : Except String (List (String × Option Bytes) × List (Service × Bool)) := do
  match document with
  | none => throw "Host file cannot be read"
  | some data =>
    if data.isObj && (data.get "schema").equal (.int 1) then
      if !data.hasExactly ["schema", "files", "intents"] then throw "Invalid runtime intent undo record"
      let intents ← tx.checkIntents (data.get "intents")
      let originals ← tx.parseOriginals (data.get "files")
      return (originals, intents)
    else
      let originals ← tx.parseOriginals data
      return (originals, [])

def commit : Program (Host M) := .step (write (Host.setRecord none)) .done

def recover : Program (Host M) :=
  .read fun s =>
    match s.record with
    | none => .done
    | some document =>
      match tx.parseUndo document with
      | .error error => fail error
      | .ok (originals, intents) => (putFiles originals).seq ((setIntents intents).seq commit)

def checkChange (s : Host M) (entry : String × Option Bytes) : Except String Unit :=
  if !tx.owned entry.1 then .error "File is not owned by the transaction"
  else if entry.2.any (maxConfigBytes < ·.length) then .error "Host file exceeds 2 MiB"
  else if (s.files entry.1).any (maxConfigBytes < ·.length) then .error "Host file exceeds 2 MiB"
  else .ok ()

/-- What `begin` checks, and the record that it writes. -/
def prepareUndo (changes : ChangeMap) (intents : Option (Service → Bool)) (s : Host M) : Except String Json := do
  if intents.isSome && !tx.restoresIntents then throw "Invalid runtime intent undo record"
  if s.record.isSome then throw "Unresolved host transaction; recovery is required"
  if 128 < changes.entries.length then throw "Too many files in one host transaction"
  changes.entries.forM (tx.checkChange s)
  let document := undoDocument changes.names intents s.files
  if maxConfigBytes < tx.jsonLength document then throw "Host transaction undo record exceeds 2 MiB"
  return document

/-- `begin`. -/
def start (changes : ChangeMap) (intents : Option (Service → Bool)) : Program (Host M) :=
  .read fun s =>
    match tx.prepareUndo changes intents s with
    | .error error => fail error
    | .ok document =>
      .step (write (Host.setRecord (some (some document)))) (.attempt (putFiles changes.entries) tx.recover .done)

end FileTransaction

/-- A step of what follows `begin`: a file or an intent is set, or a service is called, which may
change what is in memory. -/
inductive ActivationStep (M : Type) where
  | file (name : String) (value : Option Bytes)
  | intent (service : Service) (running : Bool)
  | invoke (act : Host M → Except String M)

def ActivationStep.act : ActivationStep M → Host M → Except String (Host M)
  | .file name value, s => .ok (s.putFile name value)
  | .intent service running, s => .ok (s.setIntent service running)
  | .invoke act, s => (act s).map fun memory => { s with memory := memory }

def serviceCalls (acts : List (Host M → Except String M)) : Program (Host M) :=
  each ActivationStep.act (acts.map ActivationStep.invoke)

/-- An activation writes only the files of its transaction, and sets intents only where they are recorded. -/
structure Activation (M : Type) (changes : ChangeMap) (coupled : Bool) where
  steps : List (ActivationStep M)
  contained : ∀ step ∈ steps,
    match step with
    | .file name _ => name ∈ changes.names
    | .intent .. => coupled = true
    | .invoke _ => True

namespace FileTransaction

variable (tx : FileTransaction)

/-- The services are called before and after `recover`. -/
def restore (before after : List (Host M → Except String M)) : Program (Host M) :=
  (serviceCalls before).seq (tx.recover.seq (serviceCalls after))

/-- A transaction: `begin`, the activation, `commit`, and what undoes them when one fails. -/
def transact (changes : ChangeMap) (coupled : Bool) (activation : Activation M changes coupled)
    (before after : List (Host M → Except String M)) : Program (Host M) :=
  .read fun s =>
    (tx.start changes (if coupled then some s.intents else none)).seq
      (.attempt ((each ActivationStep.act activation.steps).seq commit) (tx.restore before after) .done)

/-- The Agent starts again, with nothing in memory but what it starts with, and `recover` is
interrupted any number of times. -/
inductive Restarts (s : Host M) : Host M → Prop
  | refl : Restarts s s
  | restart {t : Host M} (memory : M) (earlier : Restarts s t) : Restarts s { t with memory := memory }
  | recover {t : Host M} (effects : Nat → Effect) (earlier : Restarts s t) : Restarts s (tx.recover.run effects t).1

end FileTransaction

end OpenNode.HostFiles
