import OpenNode.HostTransactions

namespace OpenNode.HostFiles

open Interruption Program

structure ReleaseSpec where
  version : String
  sha256 : String
deriving DecidableEq, Repr

structure Selection where
  enabled : Bool := true
  release : Option ReleaseSpec := none
deriving DecidableEq, Repr

structure ReleaseState where
  current : Selection := {}
  previous : Option Selection := none
deriving DecidableEq, Repr

/-- What the runtime keeps in memory. No release is the binary of the configuration. -/
structure Runtime where
  binary : Option ReleaseSpec
  enabled : Bool
  running : Bool
deriving DecidableEq, Repr

/-- The text of the manifest. -/
structure Codec where
  encode : ReleaseState → Bytes
  decode : Bytes → Option ReleaseState
  decode_encode : ∀ state, decode (encode state) = some state

/-- `XrayReleases`, with the paths of the manifest and of the configuration of Xray. -/
structure XrayReleases where
  manifest : String
  xrayConfig : String
  distinct : manifest ≠ xrayConfig
  codec : Codec
  /-- the configuration that is created where there is none -/
  created : Bytes
  managed : Bool
  jsonLength : Json → Nat

namespace XrayReleases

variable (x : XrayReleases)

/-- The transaction owns the manifest and the configuration. -/
def transaction : FileTransaction where
  owned path := path == x.manifest || path == x.xrayConfig
  restoresIntents := true
  jsonLength := x.jsonLength

def readState (files : String → Option Bytes) : Except String ReleaseState :=
  match files x.manifest with
  | none => .ok {}
  | some bytes =>
    match x.codec.decode bytes with
    | some state => .ok state
    | none => .error "validation error for ReleaseState"

def select (s : Host Runtime) : Except String Runtime :=
  (x.readState s.files).map fun state =>
    { s.memory with binary := state.current.release, enabled := state.current.enabled }

/-- `runtime.stop` and `runtime.start`. -/
def stop (s : Host Runtime) : Except String Runtime := .ok { s.memory with running := false }
def start (s : Host Runtime) : Except String Runtime := .ok { s.memory with running := true }

/-- A look at the process, which may find that it has exited. -/
def look (s : Host Runtime) : Except String Runtime := .ok s.memory

/-- The changes of an activation. -/
def changes (selection : Selection) (state : ReleaseState) (files : String → Option Bytes) : ChangeMap :=
  let previous := if selection = state.current then state.previous else some state.current
  let manifest := (x.manifest, some (x.codec.encode ⟨selection, previous⟩))
  if selection.enabled && (files x.xrayConfig).isNone then
    ⟨[manifest, (x.xrayConfig, some x.created)], List.nodup_cons.mpr
      ⟨fun here => x.distinct (List.mem_singleton.mp here), List.nodup_singleton _⟩⟩
  else ⟨[manifest], List.nodup_singleton _⟩

/-- What `activate` does between `begin` and `commit`. -/
def steps (desired : Bool) : List (ActivationStep Runtime) :=
  [.invoke stop, .invoke x.select, .intent .xray desired] ++
    if desired then .invoke start :: List.replicate 20 (.invoke look) else []

def activation (changes : ChangeMap) (desired : Bool) : Activation Runtime changes true where
  steps := x.steps desired
  contained := by
    have contained : ∀ step ∈ x.steps desired, ∀ name value, step ≠ .file name value := by
      intro step here name value same
      subst same
      simp only [steps, List.mem_append, List.mem_cons, reduceCtorEq, List.not_mem_nil, or_false, false_or] at here
      split at here
      · simp at here
      · cases here
    intro step here
    cases step with
    | file name value => exact absurd rfl (contained _ here name value)
    | intent service running => rfl
    | invoke act => trivial

/-- The services around `recover` when an activation fails. -/
def restarted (wasRunning : Bool) : List (Host Runtime → Except String Runtime) :=
  x.select :: if wasRunning then [start] else []

/-- `activate`. The checks of the binary and of the configuration may refuse. -/
def activate (selection : Selection) (start : Option Bool) : Program (Host Runtime) :=
  .read fun s =>
    if !x.managed then fail "Remote Xray packages require the Agent-owned managed runtime"
    else if s.record.isSome then fail "Unresolved Xray release transaction requires recovery"
    else
      match x.readState s.files with
      | .error error => fail error
      | .ok state =>
        let desired := selection.enabled && start.getD (s.intents .xray)
        call <|
          if selection = state.current ∧ (s.files x.manifest).isSome ∧ (s.files x.xrayConfig).isSome ∧
              s.memory.running = desired ∧ s.intents .xray = desired then .done
          else
            let changes := x.changes selection state s.files
            x.transaction.transact changes true (x.activation changes desired) [stop] (x.restarted s.memory.running)

/-- `install`. `prepare` downloads the release, and may refuse. -/
def install (release : ReleaseSpec) (start : Option Bool) : Program (Host Runtime) :=
  call (x.activate ⟨true, some release⟩ start)

def rollback : Program (Host Runtime) :=
  .read fun s =>
    if !x.managed then fail "Remote Xray packages require the Agent-owned managed runtime"
    else if s.record.isSome then fail "Unresolved Xray release transaction requires recovery"
    else
      match x.readState s.files with
      | .error error => fail error
      | .ok ⟨_, none⟩ => fail "No previous Xray selection is available"
      | .ok ⟨_, some previous⟩ => x.activate previous none

def remove : Program (Host Runtime) := x.activate ⟨false, none⟩ (some false)

/-- The start of the Agent: `recover` and `select`. -/
def init : Program (Host Runtime) :=
  x.transaction.recover.seq (serviceCalls [x.select])

end XrayReleases

end OpenNode.HostFiles
