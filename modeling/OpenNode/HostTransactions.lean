import OpenNode.HostRecovery

namespace OpenNode.HostFiles

open Interruption Program UndoLog

variable {M : Type} {s t u v : Host M} {tx : FileTransaction} {changes : ChangeMap} {coupled : Bool}

/-- The files and the intents after some steps of an activation. -/
def filesAfter (steps : List (ActivationStep M)) (files : String → Option Bytes) : String → Option Bytes :=
  steps.foldl (fun files step =>
    match step with
    | .file name value => Function.update files name value
    | _ => files) files

def intentsAfter (steps : List (ActivationStep M)) (intents : Service → Bool) : Service → Bool :=
  steps.foldl (fun intents step =>
    match step with
    | .intent service running => Function.update intents service running
    | _ => intents) intents

/-- Everything is as the transaction has it. -/
structure Done (changes : ChangeMap) (activation : Activation M changes coupled) (s t : Host M) : Prop where
  files : t.files = filesAfter activation.steps (putAll changes.entries s.files)
  intents : t.intents = intentsAfter activation.steps s.intents
  record : t.record = none

variable {activation : Activation M changes coupled}

theorem Done.other (done : Done changes activation s t) {name : String}
    (outside : name ∉ changes.names) : t.files name = s.files name := by
  have kept : ∀ steps : List (ActivationStep M), (∀ step ∈ steps, step ∈ activation.steps) → ∀ files,
      filesAfter steps files name = files name := by
    intro steps
    induction steps with
    | nil => exact fun _ _ => rfl
    | cons step rest ih =>
      intro inside files
      have later := ih fun other here => inside other (List.mem_cons_of_mem _ here)
      cases step with
      | file name' value =>
        have written := activation.contained _ (inside _ List.mem_cons_self)
        have differs : name ≠ name' := fun same => outside (same ▸ written)
        exact (later _).trans (Function.update_of_ne differs _ _)
      | intent service running => exact later files
      | invoke act => exact later files
  rw [done.files, kept activation.steps fun _ here => here]
  exact putAll_other outside

theorem ActivationStep.invoke_ok {act : Host M → Except String M} (ok : (ActivationStep.invoke act).act t = .ok u) :
    ∃ memory, act t = .ok memory ∧ u = { t with memory := memory } := by
  rw [ActivationStep.act] at ok
  cases result : act t with
  | error error =>
    rw [result] at ok
    cases ok
  | ok memory =>
    rw [result] at ok
    exact ⟨memory, rfl, (Except.ok.inj ok).symm⟩

theorem activation_safe {C K : Host M → Prop} (stop : ∀ t, K t → C t) (steps : List (ActivationStep M))
    (keeps : ∀ step ∈ steps, ∀ t u, K t → step.act t = .ok u → K u) (files : String → Option Bytes)
    (intents : Service → Bool) :
    Safe C (fun t => (K t ∧ t.intents = intents) ∧ t.files = files) (each ActivationStep.act steps)
      fun t => (K t ∧ t.intents = intentsAfter steps intents) ∧ t.files = filesAfter steps files := by
  induction steps generalizing files intents with
  | nil => exact .done (fun t before => stop t before.1.1) fun _ before => before
  | cons step rest ih =>
    have later := ih fun other here => keeps other (List.mem_cons_of_mem _ here)
    refine .step (fun t before => stop t before.1.1) (fun t u before ok => ?_) (later _ _)
    have kept := keeps step List.mem_cons_self t u before.1.1 ok
    cases step with
    | file name value =>
      cases ok
      exact ⟨⟨kept, before.1.2⟩, by simp only [Host.putFile, before.2]⟩
    | intent service running =>
      cases ok
      exact ⟨⟨kept, by simp only [Host.setIntent, before.1.2]⟩, before.2⟩
    | invoke act =>
      obtain ⟨memory, -, rfl⟩ := ActivationStep.invoke_ok ok
      exact ⟨⟨kept, before.1.2⟩, before.2⟩

theorem serviceCalls_safe {K : Host M → Prop} (remembers : ∀ t memory, K t → K { t with memory := memory })
    (acts : List (Host M → Except String M)) : Safe K K (serviceCalls acts) K := by
  rw [serviceCalls]
  induction acts with
  | nil => exact .done (fun _ before => before) fun _ before => before
  | cons act rest ih =>
    refine .step (fun _ before => before) (fun t u before ok => ?_) ih
    obtain ⟨memory, -, rfl⟩ := ActivationStep.invoke_ok ok
    exact remembers t memory before

theorem Undone.remember (undone : Undone s t) (memory : M) : Undone s { t with memory := memory } :=
  ⟨undone.files, undone.intents, undone.record⟩

theorem Done.remember (done : Done changes activation s t) (memory : M) :
    Done changes activation s { t with memory := memory } :=
  ⟨done.files, done.intents, done.record⟩

namespace FileTransaction

theorem restore_safe (s : Host M) (names : List String) (before after : List (Host M → Except String M)) :
    Safe (fun t => Pending tx names coupled s t ∨ Undone s t) (Pending tx names coupled s) (tx.restore before after)
      (Undone s) := by
  have stopping := serviceCalls_safe (K := Pending tx names coupled s) (fun t memory pending =>
    pending.remember memory) before
  have starting := serviceCalls_safe (K := Undone s) (fun t memory undone => undone.remember memory) after
  exact (stopping.mono fun t => Or.inl).seq ((recover_safe s).seq (starting.mono fun t => Or.inr))

theorem body_safe (tx : FileTransaction) (activation : Activation M changes coupled) (s : Host M) :
    Safe (Pending tx changes.names coupled s)
      (fun t => (Pending tx changes.names coupled s t ∧ t.intents = s.intents) ∧
        t.files = putAll changes.entries s.files)
      (each ActivationStep.act activation.steps)
      fun t => (Pending tx changes.names coupled s t ∧ t.intents = intentsAfter activation.steps s.intents) ∧
        t.files = filesAfter activation.steps (putAll changes.entries s.files) := by
  refine activation_safe (fun t pending => pending) activation.steps (fun step here t u pending ok => ?_) _ _
  have contained := activation.contained step here
  cases step with
  | file name value =>
    cases ok
    exact pending.putFile contained value
  | intent service running =>
    cases ok
    exact pending.setIntent contained service running
  | invoke act =>
    obtain ⟨memory, -, rfl⟩ := ActivationStep.invoke_ok ok
    exact pending.remember memory

theorem transact_safe (activation : Activation M changes coupled) (before after : List (Host M → Except String M))
    (fresh : s.record = none) :
    Safe (fun t => (Pending tx changes.names coupled s t ∨ Undone s t) ∨ Done changes activation s t) (· = s)
      (tx.transact changes coupled activation before after) (Done changes activation s) := by
  refine .read fun t same => ?_
  subst same
  have commit : Safe (fun u => Pending tx changes.names coupled t u ∨ Done changes activation t u)
      (fun u => (Pending tx changes.names coupled t u ∧ u.intents = intentsAfter activation.steps t.intents) ∧
        u.files = filesAfter activation.steps (putAll changes.entries t.files)) commit
          (Done changes activation t) :=
    .write (fun u before => Or.inl before.1.1)
      (fun u before => (⟨before.2, before.1.2, rfl⟩ : Done changes activation t (u.setRecord none)))
      (.done (fun u done => Or.inr done) fun u done => done)
  have handled : Safe (fun u => (Pending tx changes.names coupled t u ∨ Undone t u) ∨ Done changes activation t u)
      (fun u => Pending tx changes.names coupled t u ∨ Done changes activation t u) (tx.restore before after)
      fun _ => True := by
    intro effects u stopped
    rcases stopped with pending | done
    · exact ⟨Or.inl (restore_safe t changes.names before after effects u pending).1, fun _ => trivial⟩
    · -- the record is gone: nothing is restored
      have stopping := serviceCalls_safe (K := Done changes activation t) (fun u memory done =>
        done.remember memory) before
      have starting := serviceCalls_safe (K := Done changes activation t) (fun u memory done =>
        done.remember memory) after
      have kept : Safe (Done changes activation t) (Done changes activation t) tx.recover
          (Done changes activation t) := by
        intro effects u done
        rw [recover_none effects u done.record]
        exact ⟨done, fun _ => done⟩
      exact ⟨Or.inr (stopping.seq (kept.seq starting) effects u done).1, fun _ => trivial⟩
  have started := (start_safe tx changes coupled fresh).mono fun u => Or.inl (b := Done changes activation t u)
  exact started.seq (.attempt (((tx.body_safe activation t).mono fun u => Or.inl).seq commit) handled
    (.done (fun u done => Or.inr done) fun u done => done))

theorem transact_failed (activation : Activation M changes coupled) (before after : List (Host M → Except String M))
    (fresh : s.record = none) {effects : Nat → Effect} (lost : ∀ n error, effects n ≠ .kept error)
    (failed : ((tx.transact changes coupled activation before after).run effects s).2 ≠ none) :
    Pending tx changes.names coupled s ((tx.transact changes coupled activation before after).run effects s).1 ∨
      Undone s ((tx.transact changes coupled activation before after).run effects s).1 := by
  rw [transact, run_read] at failed ⊢
  have started := start_safe tx changes coupled fresh effects s rfl
  rcases run_seq (tx.start changes (if coupled then some s.intents else none)) (.attempt ((each ActivationStep.act
    activation.steps).seq commit) (tx.restore before after) .done) effects s with ⟨-, same⟩ | ⟨ended, later,
      known, same⟩
  · rw [same]
    exact started.1
  · rw [same] at failed ⊢
    rw [run_attempt] at failed ⊢
    have unkept : ∀ n error, (fun n => later (3 * n)) n ≠ .kept error := fun n error here => by
      obtain ⟨k, at_⟩ := known (3 * n)
      exact lost k error (at_.symm.trans here)
    have body := Safe.last_lost (f := Host.setRecord none) (tx.body_safe activation s) (fun u before =>
      before.1.1) unkept
      (started.2 ended)
    generalize known' : ((each ActivationStep.act activation.steps).seq commit).run (fun n => later (3 * n))
      ((tx.start changes (if coupled then some s.intents else none)).run effects s).1 = outcome at failed ⊢
    obtain ⟨u, error⟩ := outcome
    cases error with
    | none => exact absurd rfl failed
    | some error =>
      rw [commit] at known'
      rw [known'] at body
      exact (restore_safe s changes.names before after _ u (body nofun)).1

theorem transact_undoes {E : Host M → Prop} (activation : Activation M changes coupled)
    (before after : List (Host M → Except String M)) (fresh : s.record = none)
    (unbegun : ∀ t, Undone s t → t.memory = s.memory → E t)
    (handles : Safe (fun _ => True) (Pending tx changes.names coupled s) (tx.restore before after) E) :
    Undoes (· = s) (tx.transact changes coupled activation before after) E := by
  refine .read fun t same => ?_
  subst same
  have ends := tx.body_safe activation t
  refine .seq (fun effects u same lost handled failed => ?_) (start_safe tx changes coupled fresh)
    (.attempt (.last ends fun u before => before.1.1) handles .done)
  obtain ⟨undone, memory⟩ := start_undoes tx changes coupled fresh effects u same lost handled failed
  exact unbegun _ undone memory

theorem Restarts.pending (restarts : Restarts tx t u) (pending : Pending tx changes.names coupled s t ∨
    Undone s t) :
    Pending tx changes.names coupled s u ∨ Undone s u := by
  induction restarts with
  | refl => exact pending
  | restart memory _ ih =>
    exact ih.imp (fun pending => pending.remember memory) fun undone => undone.remember memory
  | @recover w effects _ ih =>
    rcases ih with pending | undone
    · exact (recover_safe s effects w pending).1
    · rw [recover_none effects w undone.record]
      exact Or.inr undone

theorem Restarts.settled (restarts : Restarts tx t u) (fresh : t.record = none) : Undone t u := by
  induction restarts with
  | refl => exact ⟨rfl, rfl, fresh⟩
  | restart memory _ ih => exact ih.remember memory
  | @recover w effects _ ih =>
    rw [recover_none effects w ih.record]
    exact ih

theorem Restarts.done (restarts : Restarts tx t u)
    (done : Done changes activation s t) : Done changes activation s u := by
  obtain ⟨files, intents, record⟩ := restarts.settled done.record
  exact ⟨files.trans done.files, intents.trans done.intents, record⟩

end FileTransaction

/-- A transaction is all or nothing, wherever it and the recoveries after it are interrupted. -/
structure Atomic (tx : FileTransaction) (changes : ChangeMap) (coupled : Bool)
    (activation : Activation M changes coupled)
    (before after : List (Host M → Except String M)) (s : Host M) : Prop where
  /-- A recovery that returns has undone everything or leaves everything done. -/
  whole : ∀ effects u effects',
    tx.Restarts ((tx.transact changes coupled activation before after).run effects s).1 u →
    (tx.recover.run effects' u).2 = none →
    Undone s (tx.recover.run effects' u).1 ∨ Done changes activation s (tx.recover.run effects' u).1
  /-- If there is a record when it begins, it undoes everything. -/
  undone : ∀ effects u effects',
    tx.Restarts ((tx.transact changes coupled activation before after).run effects s).1 u →
    (tx.recover.run effects' u).2 = none → u.record ≠ none → Undone s (tx.recover.run effects' u).1
  /-- So it does if there was one where the transaction stopped. -/
  stopped : ∀ effects u effects',
    tx.Restarts ((tx.transact changes coupled activation before after).run effects s).1 u →
    (tx.recover.run effects' u).2 = none →
    ((tx.transact changes coupled activation before after).run effects s).1.record ≠ none →
    Undone s (tx.recover.run effects' u).1
  /-- So it does if a step has failed without an effect. -/
  failed : ∀ effects u effects',
    tx.Restarts ((tx.transact changes coupled activation before after).run effects s).1 u →
    (tx.recover.run effects' u).2 = none → (∀ n error, effects n ≠ .kept error) →
    ((tx.transact changes coupled activation before after).run effects s).2 ≠ none →
      Undone s (tx.recover.run effects' u).1
  /-- A transaction that fails has undone everything itself if its handlers come to their end. -/
  handled : ∀ effects, (∀ n error, effects n ≠ .kept error) →
    (tx.transact changes coupled activation before after).Handled effects s →
    ((tx.transact changes coupled activation before after).run effects s).2 ≠ none →
    Undone s ((tx.transact changes coupled activation before after).run effects s).1
  /-- What has come to its end stays done. -/
  done : ∀ effects u effects',
    tx.Restarts ((tx.transact changes coupled activation before after).run effects s).1 u →
    (tx.recover.run effects' u).2 = none →
    ((tx.transact changes coupled activation before after).run effects s).2 = none →
    Done changes activation s (tx.recover.run effects' u).1
  /-- No other file changes, also where it is interrupted. -/
  others : ∀ effects u, tx.Restarts ((tx.transact changes coupled activation before after).run effects s).1 u →
    ∀ name, name ∉ changes.names → u.files name = s.files name

theorem FileTransaction.transact_atomic (tx : FileTransaction) (activation : Activation M changes coupled)
    (before after : List (Host M → Except String M)) (fresh : s.record = none) :
    Atomic tx changes coupled activation before after s := by
  have stops := fun effects => tx.transact_safe activation before after fresh effects s rfl
  -- a recovery from what a restart finds
  have undoes : ∀ {t u : Host M} effects', (Pending tx changes.names coupled s t ∨ Undone s t) → tx.Restarts t u →
      (tx.recover.run effects' u).2 = none → Undone s (tx.recover.run effects' u).1 := by
    intro t u effects' before restarts ended
    rcases restarts.pending before with pending | undone
    · exact (FileTransaction.recover_safe s effects' u pending).2 ended
    · rw [FileTransaction.recover_none effects' u undone.record]
      exact undone
  have keeps : ∀ {t u : Host M} effects', Done changes activation s t → tx.Restarts t u →
      Done changes activation s (tx.recover.run effects' u).1 := by
    intro t u effects' before restarts
    have done := restarts.done before
    rw [FileTransaction.recover_none effects' u done.record]
    exact done
  refine ⟨fun effects u effects' restarts ended => ?_, fun effects u effects' restarts ended there => ?_,
    fun effects u effects' restarts ended there => ?_, fun effects u effects' restarts ended lost failed => ?_,
    fun effects lost handled failed => ?_, fun effects u effects' restarts ended finished => ?_,
    fun effects u restarts name outside => ?_⟩
  · exact (stops effects).1.imp (fun before => undoes effects' before restarts ended) fun before =>
      keeps effects' before restarts
  · rcases (stops effects).1 with before | before
    · exact undoes effects' before restarts ended
    · exact absurd (restarts.done before).record there
  · rcases (stops effects).1 with before | before
    · exact undoes effects' before restarts ended
    · exact absurd before.record there
  · exact undoes effects' (tx.transact_failed activation _ _ fresh lost failed) restarts ended
  · exact tx.transact_undoes activation before after fresh (fun t undone _ => undone)
      ((tx.restore_safe s changes.names before after).mono fun _ _ => trivial) effects s rfl lost handled failed
  · exact keeps effects' ((stops effects).2 finished) restarts
  · rcases (stops effects).1 with before | before
    · rcases restarts.pending before with pending | undone
      · exact pending.files name outside
      · rw [undone.files]
    · exact (restarts.done before).other outside

end OpenNode.HostFiles
