import OpenNode.HostTransactions

namespace OpenNode.HostFiles

open Interruption List Program UndoLog

/-- Which of the two services runs. -/
structure Services where
  nginx : Bool
  xray : Bool
deriving DecidableEq, Repr

/-- `NginxRuntime`, with its paths and the expansion of the files of its directory. -/
structure NginxRuntime where
  main : String
  effective : String
  xrayConfig : String
  compile : (String → Option Bytes) → Except String Bytes
  transaction : FileTransaction

namespace ChangeMap

/-- `changes[name] = value`. -/
def set (name : String) (value : Option Bytes) (changes : ChangeMap) : ChangeMap where
  entries :=
    if name ∈ changes.names then changes.entries.map fun entry => if entry.1 = name then (name, value) else entry
    else changes.entries ++ [(name, value)]
  distinct := by
    split
    · have same : (changes.entries.map fun entry => if entry.1 = name then (name, value) else entry).map Prod.fst =
          changes.entries.map Prod.fst := by
        rw [map_map]
        refine map_congr_left fun entry _ => ?_
        simp only [Function.comp_apply]
        split
        · rename_i same
          exact same.symm
        · rfl
      rw [same]
      exact changes.distinct
    · rename_i absent
      rw [map_append, map_singleton]
      refine List.Nodup.append changes.distinct (nodup_singleton _) ?_
      intro other here new
      have same : other = name := List.mem_singleton.mp new
      exact absent (same ▸ here)

theorem mem_names_set (name : String) (value : Option Bytes) (changes : ChangeMap) :
    name ∈ (changes.set name value).names := by
  rw [names, set]
  split
  · rename_i here
    obtain ⟨entry, there, same⟩ := List.mem_map.mp here
    exact List.mem_map.mpr ⟨(name, value), List.mem_map.mpr ⟨entry, there, if_pos same⟩, rfl⟩
  · rw [map_append]
    exact mem_append_right _ (List.mem_singleton.mpr rfl)

end ChangeMap

namespace NginxRuntime

variable (x : NginxRuntime)

/-- Calls of the services, which may fail. -/
def validate (s : Host Services) : Except String Services := .ok s.memory
def runNginx (s : Host Services) : Except String Services := .ok { s.memory with nginx := true }
def restartXray (s : Host Services) : Except String Services := .ok { s.memory with xray := true }

/-- The changes with the compiled file, where there is a main file. -/
def changes (files : String → Option Bytes) (changes : ChangeMap) : ChangeMap :=
  if (files x.main).isSome ∨ x.main ∈ changes.names then changes.set x.effective (files x.effective) else changes

/-- What `apply` does between `begin` and `commit`. -/
def steps (changes : ChangeMap) (activate reloadXray startServices : Bool) (s : Host Services) :
    List (ActivationStep Services) :=
  let files := putAll (x.changes s.files changes).entries s.files
  let coupled := decide (x.xrayConfig ∈ changes.names)
  let touchedNginx := activate && (s.memory.nginx || startServices)
  let touchedXray := reloadXray && (s.memory.xray || startServices)
  (if (files x.main).isSome then
    match x.compile files with
    | .ok compiled => [.file x.effective (some compiled), .invoke validate]
    | .error error => [.invoke fun _ => .error error]
  else []) ++
  (if reloadXray || coupled then [.invoke validate] else []) ++
  (if touchedNginx then [.invoke runNginx] else []) ++
  (if touchedXray then [.invoke restartXray] else []) ++
  (if coupled && touchedNginx then [.intent .nginx true] else []) ++
  (if coupled && touchedXray then [.intent .xray true] else [])

variable {changes : ChangeMap} {s : Host Services}

theorem steps_file {activate reloadXray startServices : Bool} {name : String} {value : Option Bytes}
    (here : .file name value ∈ x.steps changes activate reloadXray startServices s) :
    name = x.effective ∧ (putAll (x.changes s.files changes).entries s.files x.main).isSome = true := by
  simp only [steps, mem_append] at here
  rcases here with ((((here | here) | here) | here) | here) | here
  · split at here
    · rename_i main
      split at here
      · simp only [mem_cons, ActivationStep.file.injEq, reduceCtorEq, not_mem_nil, or_false] at here
        exact ⟨here.1, main⟩
      · simp at here
    · cases here
  · split at here <;> simp at here
  · split at here <;> simp at here
  · split at here <;> simp at here
  · split at here <;> simp at here
  · split at here <;> simp at here

theorem steps_intent {activate reloadXray startServices : Bool} {service : Service} {running : Bool}
    (here : .intent service running ∈ x.steps changes activate reloadXray startServices s) :
    x.xrayConfig ∈ changes.names := by
  simp only [steps, mem_append] at here
  rcases here with ((((here | here) | here) | here) | here) | here
  · split at here
    · split at here <;> simp at here
    · cases here
  · split at here <;> simp at here
  · split at here <;> simp at here
  · split at here <;> simp at here
  · split at here
    · rename_i coupled
      rw [Bool.and_eq_true] at coupled
      exact of_decide_eq_true coupled.1
    · cases here
  · split at here
    · rename_i coupled
      rw [Bool.and_eq_true] at coupled
      exact of_decide_eq_true coupled.1
    · cases here

/-- A main file that is there after `begin` was there, or is in the changes: the compiled file is in
the undo record. -/
def activation (changes : ChangeMap) (activate reloadXray startServices : Bool) (s : Host Services) :
    Activation Services (x.changes s.files changes) (decide (x.xrayConfig ∈ changes.names)) where
  steps := x.steps changes activate reloadXray startServices s
  contained step here := by
    cases step with
    | file name value =>
      obtain ⟨rfl, main⟩ := x.steps_file here
      dsimp only
      have listed : (s.files x.main).isSome ∨ x.main ∈ changes.names := by
        by_contra absent
        rw [not_or] at absent
        rw [NginxRuntime.changes, if_neg (by rw [not_or]; exact absent), putAll_other absent.2] at main
        exact absent.1 main
      rw [NginxRuntime.changes, if_pos listed]
      exact ChangeMap.mem_names_set _ _ _
    | intent service running => exact decide_eq_true (x.steps_intent here)
    | invoke act => trivial

/-- `apply`, up to the services that are restored after `recover`. -/
def apply (changes : ChangeMap) (activate reloadXray startServices : Bool) : Program (Host Services) :=
  .read fun s => x.transaction.transact (x.changes s.files changes) (decide (x.xrayConfig ∈ changes.names))
    (x.activation changes activate reloadXray startServices s) [] []

end NginxRuntime

end OpenNode.HostFiles
