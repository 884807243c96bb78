import OpenNode.HostFiles
import OpenNode.Lib.Loops
import OpenNode.Lib.UndoLog

namespace OpenNode.HostFiles

open Interruption Program Loops List

variable {M : Type} {s t : Host M}

namespace FileTransaction

variable {tx : FileTransaction} {changes : ChangeMap} {intents : Option (Service → Bool)} {document : Json}

/-- What `begin` has checked when it writes its record. -/
structure Prepared (tx : FileTransaction) (changes : ChangeMap) (intents : Option (Service → Bool)) (s : Host M)
    (document : Json) : Prop where
  restores : intents.isSome = true → tx.restoresIntents = true
  record : s.record = none
  few : changes.entries.length ≤ 128
  owned : ∀ name ∈ changes.names, tx.owned name = true
  document : document = undoDocument changes.names intents s.files

theorem prepareUndo_ok (ok : tx.prepareUndo changes intents s = .ok document) :
    Prepared tx changes intents s document := by
  simp only [prepareUndo, bind, Except.bind, pure, Except.pure] at ok
  split at ok
  · cases ok
  · rename_i restores
    split at ok
    · cases ok
    · rename_i record
      split at ok
      · cases ok
      · rename_i few
        split at ok
        · cases ok
        · rename_i checked
          split at ok
          · cases ok
          · refine ⟨fun some_ => ?_, ?_, Nat.le_of_not_lt few, fun name here => ?_, (Except.ok.inj ok).symm⟩
            · simpa [some_] using restores
            · simpa using record
            · obtain ⟨entry, there, rfl⟩ := List.mem_map.mp here
              have passed := forM_ok checked entry there
              unfold checkChange at passed
              split at passed
              · cases passed
              · rename_i owned
                simpa using owned

theorem original_fileText {name : String} (owned : tx.owned name = true) (value : Option Bytes) :
    tx.original (name, fileText value) = .ok (name, value) := by
  cases value with
  | none => simp [original, fileText, owned]
  | some bytes => simp [original, fileText, owned, Base64.decode_encode]

theorem parseOriginals_files {names : List String} (few : names.length ≤ 128)
    (owned : ∀ name ∈ names, tx.owned name = true)
    (files : String → Option Bytes) :
    tx.parseOriginals (.obj (names.map fun name => (name, fileText (files name)))) =
      .ok (names.map fun name => (name, files name)) := by
  rw [parseOriginals, if_neg (by rw [length_map]; omega)]
  clear few
  induction names with
  | nil => rfl
  | cons name rest ih =>
    have first := original_fileText (owned name mem_cons_self) (files name)
    have others := ih fun other here => owned other (mem_cons_of_mem _ here)
    rw [map_cons, mapM_cons, first, others]
    rfl

def intentEntries (intents : Option (Service → Bool)) : List (Service × Bool) :=
  match intents with
  | none => []
  | some intents => [(.xray, intents .xray), (.nginx, intents .nginx)]

theorem originals_schema (names : List String) (files : String → Option Bytes) :
    ((Json.obj (names.map fun name => (name, fileText (files name)))).get "schema").equal (.int 1) = false := by
  rw [Json.get, Json.find?]
  induction names with
  | nil => rfl
  | cons name rest ih =>
    rw [map_cons, lookup_cons]
    split
    · cases files name <;> rfl
    · exact ih

theorem Prepared.parseUndo (prepared : Prepared tx changes intents s document) :
    tx.parseUndo (some document) = .ok (changes.names.map fun name => (name, s.files name),
      intentEntries intents) := by
  have few : changes.names.length ≤ 128 := by
    rw [ChangeMap.names, length_map]
    exact prepared.few
  have originals := parseOriginals_files few prepared.owned s.files
  rw [prepared.document]
  cases known : intents with
  | none =>
    simp only [FileTransaction.parseUndo, undoDocument, originals_schema, Json.isObj, Bool.and_false,
      Bool.false_eq_true,
      if_false, originals]
    rfl
  | some values =>
    have restores := prepared.restores (by rw [known]; rfl)
    simp only [FileTransaction.parseUndo, undoDocument, Json.isObj, Json.get, Json.find?, List.lookup]
    simp [Json.equal, Json.number?, Json.hasExactly, checkIntents, restores, Json.get, Json.find?,
      List.lookup, Json.bool?,
      intentEntries, bind, Except.bind, pure, Except.pure, originals]

end FileTransaction

open UndoLog

section Steps
variable {C K : Host M → Prop}

theorem putFiles_safe (entries : List (String × Option Bytes)) (stop : ∀ t, K t → C t)
    (keeps : ∀ entry ∈ entries, ∀ t, K t → K (t.putFile entry.1 entry.2)) (files : String → Option Bytes) :
    Safe C (fun t => K t ∧ t.files = files) (putFiles entries) fun t => K t ∧ t.files = putAll entries files := by
  induction entries generalizing files with
  | nil => exact .done (fun t before => stop t before.1) fun _ before => before
  | cons entry rest ih =>
    have put : ∀ t, K t ∧ t.files = files → K (t.putFile entry.1 entry.2) ∧
        (t.putFile entry.1 entry.2).files = Function.update files entry.1 entry.2 := fun t before =>
      ⟨keeps entry mem_cons_self t before.1, by simp only [Host.putFile, before.2]⟩
    exact .write (fun t before => stop t before.1) put (.call (fun t before => stop t before.1)
      (ih (fun other here => keeps other (mem_cons_of_mem _ here)) _))

theorem setIntents_safe (entries : List (Service × Bool)) (stop : ∀ t, K t → C t)
    (keeps : ∀ entry ∈ entries, ∀ t, K t → K (t.setIntent entry.1 entry.2)) (intents : Service → Bool) :
    Safe C (fun t => K t ∧ t.intents = intents) (setIntents entries) fun t => K t ∧
      t.intents = putAll entries intents := by
  induction entries generalizing intents with
  | nil => exact .done (fun t before => stop t before.1) fun _ before => before
  | cons entry rest ih =>
    have set : ∀ t, K t ∧ t.intents = intents → K (t.setIntent entry.1 entry.2) ∧
        (t.setIntent entry.1 entry.2).intents = Function.update intents entry.1 entry.2 := fun t before =>
      ⟨keeps entry mem_cons_self t before.1, by simp only [Host.setIntent, before.2]⟩
    exact .write (fun t before =>
      stop t before.1) set (ih (fun other here => keeps other (mem_cons_of_mem _ here)) _)

end Steps

/-- Everything is as it was. -/
structure Undone (s t : Host M) : Prop where
  files : t.files = s.files
  intents : t.intents = s.intents
  record : t.record = none

/-- The undo record is there, and covers whatever has changed. -/
structure Pending (tx : FileTransaction) (names : List String) (coupled : Bool) (s t : Host M) : Prop where
  record : ∃ document, t.record = some (some document) ∧ tx.parseUndo (some document) =
    .ok (names.map fun name => (name, s.files name),
      FileTransaction.intentEntries (if coupled then some s.intents else none))
  files : ∀ name, name ∉ names → t.files name = s.files name
  intents : coupled = false → t.intents = s.intents

namespace Pending

variable {tx : FileTransaction} {names : List String} {coupled : Bool}

theorem putFile (pending : Pending tx names coupled s t) {name : String} (here : name ∈ names)
    (value : Option Bytes) :
    Pending tx names coupled s (t.putFile name value) where
  record := pending.record
  files other outside := by
    have differs : other ≠ name := fun same => outside (same ▸ here)
    exact (Function.update_of_ne differs _ _).trans (pending.files other outside)
  intents := pending.intents

theorem setIntent (pending : Pending tx names coupled s t) (recorded : coupled = true) (service : Service)
    (running : Bool) :
    Pending tx names coupled s (t.setIntent service running) where
  record := pending.record
  files := pending.files
  intents uncoupled := absurd (recorded.symm.trans uncoupled) nofun

theorem remember (pending : Pending tx names coupled s t) (memory : M) :
    Pending tx names coupled s { t with memory := memory } :=
  ⟨pending.record, pending.files, pending.intents⟩

end Pending

theorem intentEntries_names (intents : Service → Bool) :
    FileTransaction.intentEntries (some intents) = [Service.xray, Service.nginx].map fun service =>
      (service, intents service) :=
  rfl

namespace FileTransaction

variable {tx : FileTransaction} {changes : ChangeMap} {names : List String} {coupled : Bool}

theorem recover_none (effects : Nat → Effect) (t : Host M) (settled : t.record = none) :
    tx.recover.run effects t = (t, none) := by
  rw [recover, run_read, settled]
  rfl

theorem recover_invalid {document : Option Json} {error : String} (effects : Nat → Effect) (t : Host M)
    (there : t.record = some document) (invalid : tx.parseUndo document = .error error) :
    tx.recover.run effects t = (t, some error) := by
  rw [recover, run_read, there]
  dsimp only
  rw [invalid]
  exact run_error rfl

theorem recover_safe (s : Host M) :
    Safe (fun t => Pending tx names coupled s t ∨ Undone s t)
    (Pending tx names coupled s) tx.recover (Undone s) := by
  refine .read fun t pending => ?_
  obtain ⟨document, there, valid⟩ := pending.record
  rw [there]
  dsimp only
  rw [valid]
  refine (Safe.seq (M := fun u => Pending tx names coupled s u ∧ u.files = s.files) ?_
    (Safe.seq (M := fun u => (Pending tx names coupled s u ∧ u.files = s.files) ∧
      u.intents = s.intents) ?_ ?_)).weaken
    (fun u same => same) fun u undone => undone
  · have put := putFiles_safe (C := fun u => Pending tx names coupled s u ∨
      Undone s u) (K := Pending tx names coupled s)
      (names.map fun name => (name, s.files name)) (fun u => Or.inl) (fun entry here u before => ?_) t.files
    · refine put.weaken (fun u same => ?_) fun u after => ⟨after.1, ?_⟩
      · subst same
        exact ⟨pending, rfl⟩
      · exact after.2.trans (putAll_undo pending.files)
    · obtain ⟨name, there', rfl⟩ := List.mem_map.mp here
      exact before.putFile there' _
  · cases coupled with
    | false =>
      exact .done (fun u before => Or.inl before.1) fun u before => ⟨before, before.1.intents rfl⟩
    | true =>
      intro effects u before
      have set := setIntents_safe (C := fun u => Pending tx names true s u ∨ Undone s u)
        (K := fun u => Pending tx names true s u ∧ u.files = s.files) (intentEntries (some s.intents))
        (fun u before => Or.inl before.1) (fun entry _ u before => ⟨before.1.setIntent rfl _ _, before.2⟩) u.intents
      obtain ⟨stop, last⟩ := set effects u ⟨before, rfl⟩
      refine ⟨stop, fun ended => ⟨(last ended).1, (last ended).2.trans ?_⟩⟩
      rw [intentEntries_names]
      exact putAll_undo fun service outside => by cases service <;> simp at outside
  · exact .write (fun u before => Or.inl before.1.1) (fun u before =>
      (⟨before.1.2, before.2, rfl⟩ : Undone s (u.setRecord none)))
      (.done (fun u undone => Or.inr undone) fun u undone => undone)

theorem start_safe (tx : FileTransaction) (changes : ChangeMap) (coupled : Bool) (fresh : s.record = none) :
    Safe (fun t => Pending tx changes.names coupled s t ∨ Undone s t) (· = s)
      (tx.start changes (if coupled then some s.intents else none))
      fun t => (Pending tx changes.names coupled s t ∧ t.intents = s.intents) ∧
        t.files = putAll changes.entries s.files := by
  have unchanged : ∀ t : Host M, t = s → Undone s t := fun t same => by
    subst same
    exact ⟨rfl, rfl, fresh⟩
  refine .read fun t same => ?_
  subst same
  cases prepared : tx.prepareUndo changes (if coupled then some t.intents else none) t with
  | error error => exact .fail fun u same => Or.inr (unchanged u same)
  | ok document =>
    have recorded : Pending tx changes.names coupled t (t.setRecord (some (some document))) :=
      ⟨⟨document, rfl, (prepareUndo_ok prepared).parseUndo⟩, fun _ _ => rfl, fun _ => rfl⟩
    have put := putFiles_safe (C := Pending tx changes.names coupled t)
      (K := fun u => Pending tx changes.names coupled t u ∧
        u.intents = t.intents) changes.entries (fun u before => before.1)
      (fun entry here u before => ⟨before.1.putFile (mem_map_of_mem here) _, before.2⟩) t.files
    refine .write (M := fun u => (Pending tx changes.names coupled t u ∧ u.intents = t.intents) ∧ u.files = t.files)
      (fun u same => Or.inr (unchanged u same)) (fun u same =>
        ?_) (.attempt put (recover_safe t) (.done ?_ fun u after => after))
    · subst same
      exact ⟨⟨recorded, rfl⟩, rfl⟩
    · exact fun u after => Or.inl after.1.1

theorem recover_memory (memory : M) :
    Safe (fun t : Host M => t.memory = memory) (fun t => t.memory = memory) tx.recover fun t =>
      t.memory = memory := by
  refine .read fun t same => ?_
  split
  · exact .done (fun u here => here ▸ same) fun u here => here ▸ same
  · split
    · exact .fail fun u here => here ▸ same
    · rename_i originals intents _
      have put := putFiles_safe (C := fun u : Host M => u.memory = memory) (K := fun u =>
        u.memory = memory) originals
        (fun _ => id) (fun _ _ _ => id) t.files
      have set : Safe (fun u : Host M => u.memory = memory) (fun u => u.memory = memory) (setIntents intents)
          fun u => u.memory = memory := fun effects u before =>
        have ends := setIntents_safe (C := fun u : Host M => u.memory = memory) (K := fun u =>
          u.memory = memory) intents
          (fun _ => id) (fun _ _ _ => id) u.intents effects u ⟨before, rfl⟩
        ⟨ends.1, fun ended => (ends.2 ended).1⟩
      refine (put.weaken (fun u here => ?_) fun u after => after.1).seq (set.seq (.write (fun _ => id) (fun _ => id)
        (.done (fun _ => id) fun _ => id)))
      subst here
      exact ⟨same, rfl⟩

theorem start_undoes (tx : FileTransaction) (changes : ChangeMap) (coupled : Bool) (fresh : s.record = none) :
    Undoes (· = s) (tx.start changes (if coupled then some s.intents else none))
      fun t => Undone s t ∧ t.memory = s.memory := by
  have unchanged : ∀ t : Host M, t = s → Undone s t ∧ t.memory = s.memory := fun t same => by
    subst same
    exact ⟨⟨rfl, rfl, fresh⟩, rfl⟩
  refine .read fun t same => ?_
  subst same
  cases prepared : tx.prepareUndo changes (if coupled then some t.intents else none) t with
  | error error => exact (Safe.fail (Q := fun _ => True) unchanged).undoes
  | ok document =>
    have recorded : Pending tx changes.names coupled t (t.setRecord (some (some document))) :=
      ⟨⟨document, rfl, (prepareUndo_ok prepared).parseUndo⟩, fun _ _ => rfl, fun _ => rfl⟩
    have put := putFiles_safe (C := fun u => Pending tx changes.names coupled t u ∧ u.memory = t.memory)
      (K := fun u => Pending tx changes.names coupled t u ∧
        u.memory = t.memory) changes.entries (fun u before => before)
      (fun entry here u before => ⟨before.1.putFile (mem_map_of_mem here) _, before.2⟩) t.files
    have recovers : Safe (fun _ => True) (fun u => Pending tx changes.names coupled t u ∧
        u.memory = t.memory) tx.recover
        fun u => Undone t u ∧ u.memory = t.memory := fun effects u before =>
      ⟨trivial, fun ended => ⟨(recover_safe t effects u before.1).2 ended,
        (recover_memory t.memory effects u before.2).2 ended⟩⟩
    refine .step unchanged (fun u v same ok => ?_) (.attempt put.undoes recovers .done)
    subst same
    cases ok
    exact ⟨⟨recorded, rfl⟩, rfl⟩

end FileTransaction

end OpenNode.HostFiles
