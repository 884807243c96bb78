import OpenNode.NginxApply
import OpenNode.XrayReleases

namespace OpenNode.HostFiles

open Function Interruption Program UndoLog

variable {s t u : Host Runtime} {x : XrayReleases} {selection : Selection} {begins : Option Bool}
  {state : ReleaseState}

namespace XrayReleases

/-- The runtime is that of the selection in the manifest. -/
def Matches (x : XrayReleases) (t : Host Runtime) : Prop :=
  ∃ state, x.readState t.files = .ok state ∧ t.memory.binary = state.current.release ∧
    t.memory.enabled = state.current.enabled

theorem select_matches (ok : (ActivationStep.invoke x.select).act t = .ok u) : x.Matches u := by
  obtain ⟨memory, selected, rfl⟩ := ActivationStep.invoke_ok ok
  rw [select] at selected
  cases known : x.readState t.files with
  | error error =>
    rw [known] at selected
    cases selected
  | ok state =>
    rw [known] at selected
    cases selected
    exact ⟨state, known, rfl, rfl⟩

theorem restarted_safe {K : Host Runtime → Prop} (remembers : ∀ t memory, K t → K { t with memory := memory })
    (wasRunning : Bool) : Safe K K (serviceCalls (x.restarted wasRunning)) fun t => K t ∧ x.Matches t := by
  refine .step (M := fun t => K t ∧ x.Matches t) (fun _ before => before) (fun t u before ok => ?_) ?_
  · have selected := select_matches ok
    obtain ⟨memory, -, rfl⟩ := ActivationStep.invoke_ok ok
    exact ⟨remembers t memory before, selected⟩
  · cases wasRunning with
    | false => exact .done (fun t before => before.1) fun t before => before
    | true =>
      refine .step (M := fun t => K t ∧ x.Matches t) (fun t before => before.1) (fun t u before ok => ?_)
        (.done (fun t before => before.1) fun t before => before)
      cases ok
      obtain ⟨state, read, binary, enabled⟩ := before.2
      exact ⟨remembers t _ before.1, state, read, binary, enabled⟩

variable {effects : Nat → Effect}

theorem init_ended (ended : (x.init.run effects u).2 = none) :
    x.Matches (x.init.run effects u).1 ∧ ∃ effects', (x.transaction.recover.run effects' u).2 = none ∧
      (x.init.run effects u).1.files = (x.transaction.recover.run effects' u).1.files ∧
      (x.init.run effects u).1.intents = (x.transaction.recover.run effects' u).1.intents := by
  rw [init] at ended ⊢
  rcases run_seq (x.transaction.recover (M := Runtime)) (serviceCalls [x.select]) effects u with
    ⟨failed, same⟩ | ⟨recovered, later, -, same⟩
  · rw [same] at ended
    exact absurd ended failed
  · rw [same] at ended ⊢
    have selected := restarted_safe (x := x)
      (K := fun t => t.files = (x.transaction.recover.run effects u).1.files ∧
        t.intents = (x.transaction.recover.run effects u).1.intents) (fun t memory kept => kept) false later
      (x.transaction.recover.run effects u).1 ⟨rfl, rfl⟩
    obtain ⟨kept, matches_⟩ := selected.2 ended
    exact ⟨matches_, effects, recovered, kept⟩

theorem filesAfter_steps (desired : Bool) (files : String → Option Bytes) :
    filesAfter (x.steps desired) files = files := by
  cases desired <;> rfl

theorem intentsAfter_steps (desired : Bool) (intents : Service → Bool) :
    intentsAfter (x.steps desired) intents = Function.update intents .xray desired := by
  cases desired <;> rfl

/-- The state of the manifest after an activation. -/
def after (selection : Selection) (state : ReleaseState) : ReleaseState :=
  ⟨selection, if selection = state.current then state.previous else some state.current⟩

/-- The manifest, the configuration, and the intents are those of a selection. -/
structure Activated (x : XrayReleases) (selection : Selection) (state : ReleaseState) (desired : Bool)
    (s t : Host Runtime) :
    Prop where
  manifest : x.readState t.files = .ok (after selection state)
  config : t.files x.xrayConfig =
    if selection.enabled && (s.files x.xrayConfig).isNone then some x.created else s.files x.xrayConfig
  others : ∀ name, name ≠ x.manifest → name ≠ x.xrayConfig → t.files name = s.files name
  intents : t.intents = Function.update s.intents .xray desired

theorem Activated.of_done {desired : Bool}
    (done : Done (x.changes selection state s.files)
      (x.activation (x.changes selection state s.files) desired) s t) :
    Activated x selection state desired s t := by
  have files : t.files = putAll (x.changes selection state s.files).entries s.files :=
    done.files.trans (filesAfter_steps desired _)
  have config : x.xrayConfig ≠ x.manifest := Ne.symm x.distinct
  refine ⟨?_, ?_, fun name notManifest notConfig => ?_, done.intents.trans (intentsAfter_steps desired _)⟩
  · have manifest : t.files x.manifest = some (x.codec.encode (after selection state)) := by
      rw [files, changes]
      split
      · rw [putAll_cons, putAll_cons, putAll_nil, update_of_ne x.distinct, update_self, after]
      · rw [putAll_cons, putAll_nil, update_self, after]
    rw [readState, manifest]
    dsimp only
    rw [x.codec.decode_encode]
  · rw [files, changes]
    split
    · rw [putAll_cons, putAll_cons, putAll_nil, update_self]
    · rw [putAll_cons, putAll_nil, update_of_ne config]
  · rw [files, changes]
    split
    · rw [putAll_cons, putAll_cons, putAll_nil, update_of_ne notConfig, update_of_ne notManifest]
    · rw [putAll_cons, putAll_nil, update_of_ne notManifest]

theorem activate_cases (x : XrayReleases) (selection : Selection) (begins : Option Bool) (s : Host Runtime)
    (effects : Nat → Effect) :
    ((x.activate selection begins).run effects s).1 = s ∧ ((x.activate selection begins).run effects s).2 ≠ none ∨
    (s.record = none ∧ ∃ state, x.readState s.files = .ok state ∧
      (selection = state.current ∧ (x.activate selection begins).run effects s = (s, none) ∨
      ∃ later, (∀ n, ∃ k, later n = effects k) ∧ (x.activate selection begins).run effects s =
        (x.transaction.transact (x.changes selection state s.files) true (x.activation _
          (selection.enabled && begins.getD (s.intents .xray))) [stop] (x.restarted s.memory.running)).run
            later s)) := by
  rw [activate, run_read]
  split
  · exact Or.inl ⟨by rw [run_fail], by rw [run_fail]; nofun⟩
  · split
    · exact Or.inl ⟨by rw [run_fail], by rw [run_fail]; nofun⟩
    · rename_i fresh
      have fresh : s.record = none := by simpa using fresh
      split
      · exact Or.inl ⟨by rw [run_fail], by rw [run_fail]; nofun⟩
      · rename_i state read
        dsimp only
        rw [run_call]
        cases effect : effects 0 with
        | done =>
          refine Or.inr ⟨fresh, state, read, ?_⟩
          dsimp only
          split
          · rename_i same
            exact Or.inl ⟨same.1, rfl⟩
          · exact Or.inr ⟨fun n => effects (n + 1), fun n => ⟨n + 1, rfl⟩, rfl⟩
        | lost error => exact Or.inl ⟨rfl, nofun⟩
        | kept error => exact Or.inl ⟨rfl, nofun⟩

theorem activate_ended (ended : ((x.activate selection begins).run effects s).2 = none) :
    s.record = none ∧ ((x.activate selection begins).run effects s).1.record = none ∧
      ∃ state, x.readState s.files = .ok state ∧
      x.readState ((x.activate selection begins).run effects s).1.files = .ok (after selection state) := by
  obtain ⟨-, failed⟩ | ⟨fresh, state, read, ⟨same, run⟩ | ⟨later, -, run⟩⟩ :=
    activate_cases x selection begins s effects
  · exact absurd ended failed
  · refine ⟨fresh, by rw [run]; exact fresh, state, read, ?_⟩
    rw [run, read, after, if_pos same, same]
  · rw [run] at ended ⊢
    have done := (x.transaction.transact_safe _ _ _ fresh later s rfl).2 ended
    exact ⟨fresh, done.record, state, read, (Activated.of_done done).manifest⟩

theorem rollback_ended (ended : (x.rollback.run effects s).2 = none) :
    ∃ current previous, x.readState s.files = .ok ⟨current, some previous⟩ ∧
      x.readState (x.rollback.run effects s).1.files = .ok ⟨previous, some current⟩ := by
  rw [rollback, run_read] at ended ⊢
  split at ended
  · rw [run_fail] at ended
    cases ended
  · split at ended
    · rw [run_fail] at ended
      cases ended
    · split at ended
      · rw [run_fail] at ended
        cases ended
      · rw [run_fail] at ended
        cases ended
      · rename_i managed fresh _ current previous read
        obtain ⟨-, -, state, read', result⟩ := activate_ended ended
        rw [read] at read'
        cases read'
        refine ⟨current, previous, read, ?_⟩
        rw [if_neg managed, if_neg fresh, result, after]
        by_cases same : previous = current
        · rw [if_pos same, same]
        · rw [if_neg same]

theorem steps_matches (desired : Bool) :
    Safe (fun _ => True) (fun _ => True) (each ActivationStep.act (x.steps desired)) x.Matches := by
  have anything : ∀ t : Host Runtime, x.Matches t → True := fun _ _ => trivial
  have keeps : ∀ (rest : List (ActivationStep Runtime)),
      (∀ step ∈ rest, step = .invoke start ∨ step = .invoke look) → Safe (fun _ => True) x.Matches
        (each ActivationStep.act rest) x.Matches := by
    intro rest
    induction rest with
    | nil => exact fun _ => .done anything fun t before => before
    | cons step rest ih =>
      intro calls
      refine .step anything (fun t u before ok => ?_) (ih fun other here =>
        calls other (List.mem_cons_of_mem _ here))
      obtain ⟨state, read, binary, enabled⟩ := before
      rcases calls step List.mem_cons_self with rfl | rfl
      · cases ok
        exact ⟨state, read, binary, enabled⟩
      · cases ok
        exact ⟨state, read, binary, enabled⟩
  refine .step (M := fun _ => True) (fun _ _ => trivial) (fun _ _ _ _ => trivial)
    (.step (M := x.Matches) (fun _ _ => trivial) (fun t u _ ok => select_matches ok)
      (.step (M := x.Matches) anything (fun t u before ok => ?_) ?_))
  · cases ok
    exact before
  · refine keeps _ fun step here => ?_
    cases desired with
    | false => cases here
    | true =>
      rcases List.mem_cons.mp here with same | looks
      · exact Or.inl same
      · exact Or.inr (List.eq_of_mem_replicate looks)

theorem transact_matches (changes : ChangeMap) (desired : Bool)
    (before after : List (Host Runtime → Except String Runtime)) :
    Safe (fun _ => True) (fun _ => True)
      (x.transaction.transact changes true (x.activation changes desired) before after) x.Matches := by
  have commits : Safe (fun _ => True) x.Matches (FileTransaction.commit (M := Runtime)) x.Matches :=
    .write (fun _ _ => trivial) (fun t before => before) (.done (fun _ _ => trivial) fun t before => before)
  have anywhere : ∀ p : Program (Host Runtime), Safe (fun _ => True) (fun _ => True) p fun _ => True :=
    fun p effects s _ => ⟨trivial, fun _ => trivial⟩
  exact .read fun s _ => (Safe.seq (anywhere _) (.attempt ((steps_matches desired).seq commits) (anywhere _)
    (.done (fun _ _ => trivial) fun t before => before))).weaken (fun _ _ => trivial) fun t after => after

theorem restore_matches (s : Host Runtime) (changes : ChangeMap) (wasRunning : Bool) :
    Safe (fun _ => True) (Pending x.transaction changes.names true s)
    (x.transaction.restore [stop] (x.restarted wasRunning))
      fun t => Undone s t ∧ x.Matches t := by
  have stopping := serviceCalls_safe (K := Pending x.transaction changes.names true s)
    (fun t memory pending => pending.remember memory) [stop]
  have starting := restarted_safe (x := x) (K := Undone s) (fun t memory undone =>
    undone.remember memory) wasRunning
  exact (stopping.mono fun _ _ => trivial).seq (((FileTransaction.recover_safe s).mono fun _ _ => trivial).seq
    (starting.mono fun _ _ => trivial))

theorem activate_undoes (x : XrayReleases) (selection : Selection) (begins : Option Bool)
    (fresh : s.record = none) :
    Undoes (· = s) (x.activate selection begins) fun t => Undone s t ∧ (x.Matches s → x.Matches t) := by
  have unchanged : ∀ t, t = s → Undone s t ∧ (x.Matches s → x.Matches t) := by
    rintro t rfl
    exact ⟨⟨rfl, rfl, fresh⟩, id⟩
  refine .read fun t same => ?_
  subst same
  split
  · exact (Safe.fail (Q := fun _ => True) unchanged).undoes
  · split
    · exact (Safe.fail (Q := fun _ => True) unchanged).undoes
    · split
      · exact (Safe.fail (Q := fun _ => True) unchanged).undoes
      · refine .step (M := (· = t)) unchanged (fun u v same ok => (write_eq_ok.mp ok).trans same) ?_
        split
        · exact .done
        · refine x.transaction.transact_undoes _ _ _ fresh (fun u undone memory => ⟨undone, ?_⟩)
            ((restore_matches t _ _).weaken (fun _ pending => pending) fun u after => ⟨after.1, fun _ => after.2⟩)
          rintro ⟨state, read, binary, enabled⟩
          exact ⟨state, undone.files ▸ read, memory ▸ binary, memory ▸ enabled⟩

/-- An activation, wherever it and the starts after it are interrupted. -/
structure Consistent (x : XrayReleases) (selection : Selection) (begins : Option Bool)
    (s : Host Runtime) : Prop where
  /-- A start that returns has the runtime of the manifest; the files and the intents are those from
  before, or those of the activation. -/
  restarted : ∀ effects u effects', x.transaction.Restarts ((x.activate selection begins).run effects s).1 u →
    (x.init.run effects' u).2 = none → x.Matches (x.init.run effects' u).1 ∧
    ((x.init.run effects' u).1.files = s.files ∧ (x.init.run effects' u).1.intents = s.intents ∨
      ∃ state, x.readState s.files = .ok state ∧
        x.Activated selection state (selection.enabled && begins.getD (s.intents .xray)) s
          (x.init.run effects' u).1)
  /-- After a failed activation they are those from before. -/
  failed : ∀ effects u effects', x.transaction.Restarts ((x.activate selection begins).run effects s).1 u →
    (x.init.run effects' u).2 = none → (∀ n error, effects n ≠ .kept error) →
    ((x.activate selection begins).run effects s).2 ≠ none →
    (x.init.run effects' u).1.files = s.files ∧ (x.init.run effects' u).1.intents = s.intents
  /-- A failed activation whose handlers come to their end has left the manifest with its current
  and previous selection, the configuration and the intents, and the runtime of the manifest. -/
  undone : ∀ effects, (∀ n error, effects n ≠ .kept error) → (x.activate selection begins).Handled effects s →
    ((x.activate selection begins).run effects s).2 ≠ none →
    Undone s ((x.activate selection begins).run effects s).1 ∧
      (x.Matches s → x.Matches ((x.activate selection begins).run effects s).1)
  /-- An activation that comes to its end has the runtime of its selection, or had nothing to do. -/
  ended : ∀ effects, ((x.activate selection begins).run effects s).2 = none →
    (x.activate selection begins).run effects s = (s, none) ∨
    x.Matches ((x.activate selection begins).run effects s).1 ∧ ∃ state, x.readState s.files = .ok state ∧
      x.Activated selection state (selection.enabled && begins.getD (s.intents .xray)) s
        ((x.activate selection begins).run effects s).1

theorem consistent (x : XrayReleases) (selection : Selection) (begins : Option Bool) {s : Host Runtime}
    (fresh : s.record = none) :
    Consistent x selection begins s := by
  have unchanged : ∀ {t u : Host Runtime} effects', t = s → x.transaction.Restarts t u →
      (x.init.run effects' u).2 = none →
      (x.init.run effects' u).1.files = s.files ∧ (x.init.run effects' u).1.intents = s.intents := by
    intro t u effects' same restarts ended
    subst same
    obtain ⟨-, again, -, files, intents⟩ := init_ended ended
    have undone := restarts.settled fresh
    rw [FileTransaction.recover_none again u undone.record] at files intents
    exact ⟨files.trans undone.files, intents.trans undone.intents⟩
  refine ⟨fun effects u effects' restarts ended => ?_, fun effects u effects' restarts ended lost failed => ?_,
    fun effects => x.activate_undoes selection begins fresh effects s rfl, fun effects ended => ?_⟩
  · refine ⟨(init_ended ended).1, ?_⟩
    obtain ⟨same, -⟩ | ⟨-, state, read, ⟨-, run⟩ | ⟨later, -, run⟩⟩ :=
      activate_cases x selection begins s effects
    · exact Or.inl (unchanged effects' same restarts ended)
    · rw [run] at restarts
      exact Or.inl (unchanged effects' rfl restarts ended)
    · rw [run] at restarts
      obtain ⟨-, again, recovered, files, intents⟩ := init_ended ended
      rcases (x.transaction.transact_atomic _ _ _ fresh).whole later u again restarts recovered with undone | done
      · exact Or.inl ⟨files.trans undone.files, intents.trans undone.intents⟩
      · have activated := Activated.of_done done
        refine Or.inr ⟨state, read, ?_⟩
        exact ⟨files ▸ activated.manifest, files ▸ activated.config, files ▸ activated.others,
          intents.trans activated.intents⟩
  · obtain ⟨same, -⟩ | ⟨-, state, read, ⟨-, run⟩ | ⟨later, known, run⟩⟩ :=
      activate_cases x selection begins s effects
    · exact unchanged effects' same restarts ended
    · rw [run] at failed
      exact absurd rfl failed
    · rw [run] at restarts failed
      obtain ⟨-, again, recovered, files, intents⟩ := init_ended ended
      have unkept : ∀ n error, later n ≠ .kept error := fun n error here => by
        obtain ⟨k, at_⟩ := known n
        exact lost k error (at_.symm.trans here)
      have undone := (x.transaction.transact_atomic _ _ _ fresh).failed later u again restarts recovered
        unkept failed
      exact ⟨files.trans undone.files, intents.trans undone.intents⟩
  · obtain ⟨-, failed⟩ | ⟨-, state, read, ⟨-, run⟩ | ⟨later, -, run⟩⟩ :=
      activate_cases x selection begins s effects
    · exact absurd ended failed
    · exact Or.inl run
    · rw [run] at ended ⊢
      have done := (x.transaction.transact_safe _ _ _ fresh later s rfl).2 ended
      exact Or.inr ⟨(transact_matches _ _ _ _ later s trivial).2 ended, state, read, Activated.of_done done⟩

theorem rollback_twice {effects' : Nat → Effect} (first : (x.rollback.run effects s).2 = none)
    (second : (x.rollback.run effects' (x.rollback.run effects s).1).2 = none) :
    x.readState (x.rollback.run effects' (x.rollback.run effects s).1).1.files = x.readState s.files := by
  obtain ⟨current, previous, read, exchanged⟩ := rollback_ended first
  obtain ⟨current', previous', read', exchanged'⟩ := rollback_ended second
  rw [exchanged] at read'
  cases read'
  rw [read, exchanged']

theorem install_ended {release : ReleaseSpec} (ended : ((x.install release begins).run effects s).2 = none) :
    ∃ state, x.readState ((x.install release begins).run effects s).1.files = .ok state ∧
      state.current = ⟨true, some release⟩ := by
  rw [install, run_call] at ended ⊢
  cases effect : effects 0 with
  | done =>
    rw [effect] at ended
    obtain ⟨-, -, state, -, read⟩ := activate_ended ended
    exact ⟨_, read, rfl⟩
  | lost error =>
    rw [effect] at ended
    cases ended
  | kept error =>
    rw [effect] at ended
    cases ended

end XrayReleases

/-- The transactions on the files of the host. -/
structure Transactional : Prop where
  atomic : ∀ {M : Type} (tx : FileTransaction) (changes : ChangeMap) (coupled : Bool)
    (activation : Activation M changes coupled)
    (before after : List (Host M → Except String M)) (s : Host M), s.record = none →
    Atomic tx changes coupled activation before after s
  nginx : ∀ (x : NginxRuntime) (changes : ChangeMap) (activate reloadXray startServices : Bool) (s : Host Services),
    s.record = none → Atomic x.transaction (x.changes s.files changes) (decide (x.xrayConfig ∈ changes.names))
      (x.activation changes activate reloadXray startServices s) [] [] s ∧
      ∀ effects, (x.apply changes activate reloadXray startServices).run effects s =
        (x.transaction.transact (x.changes s.files changes) (decide (x.xrayConfig ∈ changes.names))
          (x.activation changes activate reloadXray startServices s) [] []).run effects s
  /-- An undo record that is not valid restores nothing. -/
  invalid : ∀ {M : Type} (tx : FileTransaction) (t : Host M) (document : Option Json) (error : String)
    (effects : Nat → Effect),
    t.record = some document → tx.parseUndo document = .error error → tx.recover.run effects t = (t, some error)
  consistent : ∀ (x : XrayReleases) (selection : Selection) (begins : Option Bool) (s : Host Runtime),
    s.record = none →
    x.Consistent selection begins s
  install : ∀ (x : XrayReleases) (release : ReleaseSpec) (begins : Option Bool) (s : Host Runtime)
    (effects : Nat → Effect),
    ((x.install release begins).run effects s).2 = none →
    ∃ state, x.readState ((x.install release begins).run effects s).1.files = .ok state ∧
      state.current = ⟨true, some release⟩
  remove : ∀ (x : XrayReleases) (s : Host Runtime) (effects : Nat → Effect), (x.remove.run effects s).2 = none →
    ∃ state, x.readState (x.remove.run effects s).1.files = .ok state ∧ state.current = ⟨false, none⟩
  rollback : ∀ (x : XrayReleases) (s : Host Runtime) (effects effects' : Nat → Effect),
    (x.rollback.run effects s).2 = none → (x.rollback.run effects' (x.rollback.run effects s).1).2 = none →
    x.readState (x.rollback.run effects' (x.rollback.run effects s).1).1.files = x.readState s.files

theorem transactional : Transactional where
  atomic tx _ _ activation before after _ fresh := tx.transact_atomic activation before after fresh
  nginx x changes activate reloadXray startServices s fresh :=
    ⟨x.transaction.transact_atomic (x.activation changes activate reloadXray startServices s) [] [] fresh,
      fun _ => run_read⟩
  invalid _ t _ _ effects there invalid := FileTransaction.recover_invalid effects t there invalid
  consistent x selection begins _ fresh := x.consistent selection begins fresh
  install _ _ _ _ _ ended := XrayReleases.install_ended ended
  remove _ _ _ ended := by
    obtain ⟨-, -, state, -, read⟩ := XrayReleases.activate_ended ended
    exact ⟨_, read, rfl⟩
  rollback _ _ _ _ first second := XrayReleases.rollback_twice first second

section Example

/-- Any path is owned. -/
def openTransaction : FileTransaction where
  owned _ := true
  restoresIntents := false
  jsonLength _ := 0

def emptyHost : Host Unit where
  files _ := none
  intents _ := false
  memory := ()

/-- One file is created. -/
def oneChange : ChangeMap := ⟨[("site.conf", some [1])], by decide⟩

def oneTransaction : Program (Host Unit) := openTransaction.transact oneChange false ⟨[], nofun⟩ [] []

/-- A crash right after the effect of a step. -/
def crashAfter (step : Nat) (n : Nat) : Effect := if n < step then .done else .kept "killed"

/-- `begin` is killed after its record is written, and the recovery after it has removed the record. -/
def recoveredHost : Host Unit :=
  (openTransaction.recover.run (crashAfter 2) (oneTransaction.run (crashAfter 0) emptyHost).1).1

theorem oneTransaction_atomic : ((oneTransaction.run quiet emptyHost).1.files "site.conf" = some [1]) ∧
    Atomic openTransaction oneChange false ⟨[], nofun⟩ [] [] emptyHost :=
  ⟨rfl, transactional.atomic openTransaction oneChange false ⟨[], nofun⟩ [] [] emptyHost rfl⟩

/-- The record is gone, and the file has its value from before. -/
theorem recoveredHost_old : openTransaction.Restarts (oneTransaction.run (crashAfter 0) emptyHost).1 recoveredHost ∧
    (oneTransaction.run (crashAfter 0) emptyHost).1.record.isSome = true ∧ recoveredHost.record.isNone = true ∧
    (openTransaction.recover.run quiet recoveredHost).2 = none ∧
    (openTransaction.recover.run quiet recoveredHost).1.files "site.conf" = none :=
  ⟨.recover _ .refl, rfl, rfl, rfl, rfl⟩

end Example

end OpenNode.HostFiles
