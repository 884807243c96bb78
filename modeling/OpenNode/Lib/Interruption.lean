import Mathlib

namespace Interruption

variable {σ α : Type*}

/-- How a step ends: in full; or with an error or a crash that loses its
effect; or with one that comes after its effect. -/
inductive Effect where
  | done
  | lost (error : String)
  | kept (error : String)
deriving DecidableEq, Repr

inductive Program (σ : Type*) where
  | done
  | step (act : σ → Except String σ) (rest : Program σ)
  | read (rest : σ → Program σ)
  | attempt (body handler rest : Program σ)

/-- A step that only checks. -/
def check (holds : σ → Prop) [DecidablePred holds] (error : String) (s : σ) : Except String σ :=
  if holds s then .ok s else .error error

/-- A step that always succeeds. -/
def write (f : σ → σ) (s : σ) : Except String σ :=
  .ok (f s)

theorem check_eq_ok {holds : σ → Prop} [DecidablePred holds] {error : String} {s t : σ} :
    check holds error s = .ok t ↔ holds s ∧ t = s := by
  unfold check
  split <;> simp_all [eq_comm]

theorem write_eq_ok {f : σ → σ} {s t : σ} : write f s = .ok t ↔ t = f s := by
  simp [write, eq_comm]

namespace Program

/-- A program that fails. -/
def fail (error : String) : Program σ :=
  .step (fun _ => .error error) .done

/-- A call that can raise and changes nothing. -/
def call (rest : Program σ) : Program σ :=
  .step (write id) rest

def seq : Program σ → Program σ → Program σ
  | .done, q => q
  | .step act rest, q => .step act (rest.seq q)
  | .read rest, q => .read fun s => (rest s).seq q
  | .attempt body handler rest, q => .attempt body handler (rest.seq q)

/-- A step for each element of a list. -/
def each (act : α → σ → Except String σ) (items : List α) : Program σ :=
  items.foldr (fun a rest => .step (act a) rest) .done

/-- A run: the state where it stops, and the error unless it came to its end.
When the body of an attempt fails, its handler runs and the error is raised
again; a crash is an error whose handler is interrupted at once. -/
def run : Program σ → (Nat → Effect) → σ → σ × Option String
  | .done, _, s => (s, none)
  | .step act rest, effects, s =>
    match act s with
    | .error error => (s, some error)
    | .ok t =>
      match effects 0 with
      | .done => rest.run (fun n => effects (n + 1)) t
      | .lost error => (s, some error)
      | .kept error => (t, some error)
  | .read rest, effects, s => (rest s).run effects s
  | .attempt body handler rest, effects, s =>
    match body.run (fun n => effects (3 * n)) s with
    | (t, none) => rest.run (fun n => effects (3 * n + 1)) t
    | (t, some error) => ((handler.run (fun n => effects (3 * n + 2)) t).1, some error)

/-- The handlers that start come to their end. -/
def Handled : Program σ → (Nat → Effect) → σ → Prop
  | .done, _, _ => True
  | .step act rest, effects, s =>
    ∀ t, act s = .ok t → effects 0 = .done → rest.Handled (fun n => effects (n + 1)) t
  | .read rest, effects, s => (rest s).Handled effects s
  | .attempt body handler rest, effects, s =>
    body.Handled (fun n => effects (3 * n)) s ∧ ∀ t,
      (body.run (fun n => effects (3 * n)) s = (t, none) → rest.Handled (fun n => effects (3 * n + 1)) t) ∧
        ∀ error, body.run (fun n => effects (3 * n)) s = (t, some error) →
          (handler.run (fun n => effects (3 * n + 2)) t).2 = none

/-- The run in which no step is interrupted. -/
def quiet : Nat → Effect := fun _ => .done

/-- Wherever the program stops, the state meets `C`; where it comes to its end, `Q`. -/
def Safe (C P : σ → Prop) (p : Program σ) (Q : σ → Prop) : Prop :=
  ∀ effects s, P s → C (p.run effects s).1 ∧ ((p.run effects s).2 = none → Q (p.run effects s).1)

/-- Without interruption the program comes to its end. -/
def Completes (P : σ → Prop) (p : Program σ) (Q : σ → Prop) : Prop :=
  ∀ s, P s → (p.run quiet s).2 = none ∧ Q (p.run quiet s).1

/-- Where the program fails at a step without an effect, and its handlers come to
their end, the state meets `E`. -/
def Undoes (P : σ → Prop) (p : Program σ) (E : σ → Prop) : Prop :=
  ∀ effects s, P s → (∀ n error, effects n ≠ .kept error) → p.Handled effects s → (p.run effects s).2 ≠ none →
    E (p.run effects s).1

/-- The program fails before it changes anything. -/
def Refuses (P : σ → Prop) (p : Program σ) : Prop :=
  ∀ effects s, P s → (p.run effects s).1 = s ∧ (p.run effects s).2 ≠ none

section Safety

variable {C P M Q : σ → Prop} {p q : Program σ} {act : σ → Except String σ}

theorem Safe.done (start : ∀ s, P s → C s) (last : ∀ s, P s → Q s) : Safe C P .done Q :=
  fun _ s before => ⟨start s before, fun _ => last s before⟩

theorem run_lost (p : Program σ) (error : String) (s : σ) : (p.run (fun _ => .lost error) s).1 = s := by
  induction p generalizing s with
  | done => rfl
  | step act rest _ =>
    unfold run
    cases act s <;> rfl
  | read rest ih =>
    exact ih s s
  | attempt body handler rest body_ih handler_ih rest_ih =>
    unfold run
    have stopped := body_ih s
    cases ended : body.run (fun _ => Effect.lost error) s with
    | mk t failure =>
      rw [ended] at stopped
      subst stopped
      cases failure with
      | none => exact rest_ih t
      | some _ => exact handler_ih t

theorem Safe.start (safe : Safe C P p Q) (s : σ) (before : P s) : C s :=
  run_lost p "" s ▸ (safe (fun _ => .lost "") s before).1

theorem Safe.step (start : ∀ s, P s → C s) (act_ok : ∀ s t, P s → act s = .ok t → M t) (rest : Safe C M p Q) :
    Safe C P (.step act p) Q := by
  intro effects s before
  unfold run
  cases result : act s with
  | error error => exact ⟨start s before, nofun⟩
  | ok t =>
    have after := act_ok s t before result
    cases effects 0 with
    | done => exact rest _ t after
    | lost error => exact ⟨start s before, nofun⟩
    | kept error => exact ⟨rest.start t after, nofun⟩

variable {f : σ → Program σ}

theorem Safe.read (rest : ∀ s, P s → Safe C (· = s) (f s) Q) : Safe C P (.read f) Q := by
  intro effects s before
  exact rest s before effects s rfl

variable {s : σ} {holds : σ → Prop} {error : String}

theorem Safe.check (here : C s) [DecidablePred holds] (rest : holds s → Safe C (· = s) p Q) :
    Safe C (· = s) (.step (check holds error) p) Q := by
  by_cases passed : holds s
  · refine .step (M := (· = s)) (fun _ same => same ▸ here) ?_ (rest passed)
    intro t u same ok
    exact (check_eq_ok.mp ok).2.trans same
  · refine .step (M := fun _ => False) (fun _ same => same ▸ here) ?_ fun _ _ never => never.elim
    intro t u same ok
    exact passed (same ▸ (check_eq_ok.mp ok).1)

theorem Safe.fail (start : ∀ s, P s → C s) : Safe C P (fail error) Q :=
  fun _ s before => ⟨start s before, nofun⟩

theorem Safe.weaken {P' Q' : σ → Prop} (safe : Safe C P p Q) (before : ∀ s, P' s → P s) (after : ∀ s, Q s → Q' s) :
    Safe C P' p Q' := by
  intro effects s start
  obtain ⟨stop, last⟩ := safe effects s (before s start)
  exact ⟨stop, fun ended => after _ (last ended)⟩

variable {rest : Program σ} {effects : Nat → Effect}

theorem run_error (result : act s = .error error) : (Program.step act rest).run effects s = (s, some error) := by
  rw [run, result]

theorem run_ok {t : σ} (result : act s = .ok t) :
    (Program.step act rest).run effects s =
      match effects 0 with
      | .done => rest.run (fun n => effects (n + 1)) t
      | .lost error => (s, some error)
      | .kept error => (t, some error) := by
  rw [run, result]

theorem run_fail (error : String) (effects : Nat → Effect) (s : σ) : (fail error).run effects s = (s, some error) :=
  run_error rfl

theorem run_call (rest : Program σ) (effects : Nat → Effect) (s : σ) :
    (call rest).run effects s =
      match effects 0 with
      | .done => rest.run (fun n => effects (n + 1)) s
      | .lost error | .kept error => (s, some error) := by
  have ok : write id s = .ok s := rfl
  rw [call, run_ok ok]

theorem run_read :
    (Program.read f).run effects s = (f s).run effects s := by
  rw [run]

theorem run_attempt {body handler : Program σ} :
    (Program.attempt body handler rest).run effects s =
      match body.run (fun n => effects (3 * n)) s with
      | (t, none) => rest.run (fun n => effects (3 * n + 1)) t
      | (t, some error) => ((handler.run (fun n => effects (3 * n + 2)) t).1, some error) := by
  rw [run]

theorem run_seq_handled (p q : Program σ) (effects : Nat → Effect) (s : σ) :
    ((p.run effects s).2 ≠ none ∧ (p.seq q).run effects s = p.run effects s ∧
        ((p.seq q).Handled effects s → p.Handled effects s)) ∨
      (p.run effects s).2 = none ∧ ∃ later, (∀ n, ∃ k, later n = effects k) ∧
        (p.seq q).run effects s = q.run later (p.run effects s).1 ∧
        ((p.seq q).Handled effects s → q.Handled later (p.run effects s).1) := by
  induction p generalizing effects s with
  | done => exact .inr ⟨rfl, effects, fun n => ⟨n, rfl⟩, rfl, id⟩
  | step act rest ih =>
    rw [Program.seq]
    cases result : act s with
    | error error =>
      rw [run_error result, run_error result]
      exact .inl ⟨nofun, rfl, fun _ t ok => by rw [result] at ok; cases ok⟩
    | ok t =>
      rw [run_ok result, run_ok result]
      cases effect : effects 0 with
      | done =>
        rcases ih (fun n => effects (n + 1)) t with ⟨failed, same, handled⟩ | ⟨ended, later, known, same, handled⟩
        · refine .inl ⟨failed, same, fun whole u ok here => ?_⟩
          cases result.symm.trans ok
          exact handled (whole t result here)
        · refine .inr ⟨ended, later, fun n => ?_, same, fun whole => handled (whole t result effect)⟩
          obtain ⟨k, at_⟩ := known n
          exact ⟨k + 1, at_⟩
      | lost error => exact .inl ⟨nofun, rfl, fun _ u _ here => by rw [effect] at here; cases here⟩
      | kept error => exact .inl ⟨nofun, rfl, fun _ u _ here => by rw [effect] at here; cases here⟩
  | read rest ih =>
    rw [Program.seq, run_read, run_read]
    exact ih s effects s
  | attempt body handler rest _ _ ih =>
    rw [Program.seq, run_attempt, run_attempt]
    cases stopped : body.run (fun n => effects (3 * n)) s with
    | mk t error =>
      cases error with
      | some error =>
        refine .inl ⟨nofun, rfl, fun whole => ⟨whole.1, fun u => ⟨fun ended => ?_, (whole.2 u).2⟩⟩⟩
        rw [stopped] at ended
        cases ended
      | none =>
        rcases ih (fun n => effects (3 * n + 1)) t with ⟨failed, same, handled⟩ | ⟨ended, later, known,
          same, handled⟩
        · refine .inl ⟨failed, same, fun whole => ⟨whole.1, fun u => ⟨fun ended => ?_, (whole.2 u).2⟩⟩⟩
          cases stopped.symm.trans ended
          exact handled ((whole.2 t).1 stopped)
        · refine .inr ⟨ended, later, fun n => ?_, same, fun whole => handled ((whole.2 t).1 stopped)⟩
          obtain ⟨k, at_⟩ := known n
          exact ⟨3 * k + 1, at_⟩

theorem run_seq (p q : Program σ) (effects : Nat → Effect) (s : σ) :
    ((p.run effects s).2 ≠ none ∧ (p.seq q).run effects s = p.run effects s) ∨
      (p.run effects s).2 = none ∧ ∃ later, (∀ n, ∃ k, later n = effects k) ∧
        (p.seq q).run effects s = q.run later (p.run effects s).1 := by
  rcases run_seq_handled p q effects s with ⟨failed, same, _⟩ | ⟨ended, later, known, same, _⟩
  · exact .inl ⟨failed, same⟩
  · exact .inr ⟨ended, later, known, same⟩

theorem Safe.seq (first : Safe C P p M) (second : Safe C M q Q) : Safe C P (p.seq q) Q := by
  intro effects s before
  obtain ⟨stop, last⟩ := first effects s before
  rcases run_seq p q effects s with ⟨failed, same⟩ | ⟨ended, later, _, same⟩
  · rw [same]
    exact ⟨stop, fun ended => absurd ended failed⟩
  · rw [same]
    exact second later _ (last ended)

theorem Safe.last_lost {f : σ → σ} (safe : Safe C P p M) (start : ∀ s, M s → C s)
    (lost : ∀ n error, effects n ≠ .kept error) (before : P s)
    (failed : ((p.seq (.step (Interruption.write f) .done)).run effects s).2 ≠ none) :
    C ((p.seq (.step (Interruption.write f) .done)).run effects s).1 := by
  obtain ⟨stop, last⟩ := safe effects s before
  rcases run_seq p (.step (Interruption.write f) .done) effects s with ⟨-, same⟩ | ⟨ended, later, known, same⟩
  · rw [same]
    exact stop
  · rw [same] at failed ⊢
    have result : Interruption.write f (p.run effects s).1 = .ok (f (p.run effects s).1) := rfl
    rw [run_ok result] at failed ⊢
    obtain ⟨k, at_⟩ := known 0
    cases effect : later 0 with
    | done =>
      rw [effect] at failed
      exact absurd rfl failed
    | lost error => exact start _ (last ended)
    | kept error => exact absurd (at_.symm.trans effect) (lost k error)

theorem Safe.attempt {body handler : Program σ} {B R : σ → Prop} (safe : Safe B P body M)
    (handled : Safe C B handler R) (rest : Safe C M p Q) : Safe C P (.attempt body handler p) Q := by
  intro effects s before
  obtain ⟨stop, last⟩ := safe (fun n => effects (3 * n)) s before
  rw [run_attempt]
  cases ended : body.run (fun n => effects (3 * n)) s with
  | mk t error =>
    rw [ended] at stop last
    cases error with
    | none => exact rest _ t (last rfl)
    | some error => exact ⟨(handled _ t stop).1, nofun⟩

theorem Safe.call (start : ∀ s, P s → C s) (rest : Safe C P p Q) : Safe C P (call p) Q := by
  refine .step start ?_ rest
  intro s t before ok
  rw [write_eq_ok.mp ok]
  exact before

theorem Safe.guard [DecidablePred holds] (start : ∀ s, P s → C s) (rest : Safe C (fun s => P s ∧ holds s) p Q) :
    Safe C P (.step (Interruption.check holds error) p) Q := by
  refine .step start ?_ rest
  intro s t before ok
  obtain ⟨passed, rfl⟩ := check_eq_ok.mp ok
  exact ⟨before, passed⟩

theorem Safe.write {f : σ → σ} (start : ∀ s, P s → C s) (after : ∀ s, P s → M (f s)) (rest : Safe C M p Q) :
    Safe C P (.step (write f) p) Q := by
  refine .step start ?_ rest
  intro s t before ok
  rw [write_eq_ok.mp ok]
  exact after s before

theorem Safe.mono {C' : σ → Prop} (safe : Safe C P p Q) (weaker : ∀ s, C s → C' s) : Safe C' P p Q := by
  intro effects s before
  obtain ⟨stop, last⟩ := safe effects s before
  exact ⟨weaker _ stop, last⟩

theorem Safe.each {act : α → σ → Except String σ} {I : List α → σ → Prop} (items : List α)
    (stop : ∀ past rest, items = past ++ rest → ∀ s, I past s → C s)
    (turn : ∀ past a rest, items = past ++ a :: rest → ∀ s t, I past s → act a s = .ok t → I (past ++ [a]) t) :
    Safe C (I []) (each act items) (I items) := by
  suffices go : ∀ past rest, items = past ++ rest → Safe C (I past) (Program.each act rest) (I items) from
    go [] items rfl
  intro past rest
  induction rest generalizing past with
  | nil =>
    intro whole
    exact .done (stop past [] whole) fun s holds => by rw [whole, List.append_nil]; exact holds
  | cons a rest ih =>
    intro whole
    have next : items = (past ++ [a]) ++ rest := by rw [whole, List.append_assoc, List.singleton_append]
    exact .step (stop past (a :: rest) whole) (turn past a rest whole) (ih (past ++ [a]) next)

end Safety

section Completion

variable {P M Q : σ → Prop} {p q : Program σ} {act : σ → Except String σ}

theorem Completes.done (last : ∀ s, P s → Q s) : Completes P .done Q :=
  fun s before => ⟨rfl, last s before⟩

theorem Completes.step (act_ok : ∀ s, P s → ∃ t, act s = .ok t ∧ M t) (rest : Completes M p Q) :
    Completes P (.step act p) Q := by
  intro s before
  obtain ⟨t, result, after⟩ := act_ok s before
  unfold run
  rw [result]
  exact rest t after

theorem Completes.call (rest : Completes P p Q) : Completes P (call p) Q :=
  .step (fun s before => ⟨s, rfl, before⟩) rest

theorem Completes.check {holds : σ → Prop} [DecidablePred holds] {error : String} (passes : ∀ s, P s → holds s)
    (rest : Completes P p Q) : Completes P (.step (Interruption.check holds error) p) Q :=
  .step (fun s before => ⟨s, check_eq_ok.mpr ⟨passes s before, rfl⟩, before⟩) rest

theorem Completes.write {f : σ → σ} (after : ∀ s, P s → M (f s)) (rest : Completes M p Q) :
    Completes P (.step (write f) p) Q :=
  .step (fun s before => ⟨f s, rfl, after s before⟩) rest

theorem Completes.read {f : σ → Program σ} (rest : ∀ s, P s → Completes (· = s) (f s) Q) :
    Completes P (.read f) Q := by
  intro s before
  exact rest s before s rfl

theorem Completes.weaken {P' Q' : σ → Prop} (completes : Completes P p Q) (before : ∀ s, P' s → P s)
    (after : ∀ s, Q s → Q' s) : Completes P' p Q' := by
  intro s start
  obtain ⟨ended, last⟩ := completes s (before s start)
  exact ⟨ended, after _ last⟩

theorem Completes.seq (first : Completes P p M) (second : Completes M q Q) : Completes P (p.seq q) Q := by
  intro s before
  obtain ⟨ended, last⟩ := first s before
  rcases run_seq p q quiet s with ⟨failed, _⟩ | ⟨_, later, known, same⟩
  · exact absurd ended failed
  · have silent : later = quiet := by
      funext n
      obtain ⟨k, at_⟩ := known n
      exact at_
    rw [same, silent]
    exact second _ last

theorem Completes.each {act : α → σ → Except String σ} {I : List α → σ → Prop} (items : List α)
    (turn : ∀ past a rest, items = past ++ a :: rest → ∀ s, I past s → ∃ t, act a s = .ok t ∧ I (past ++ [a]) t) :
    Completes (I []) (each act items) (I items) := by
  suffices go : ∀ past rest, items = past ++ rest → Completes (I past) (Program.each act rest) (I items) from
    go [] items rfl
  intro past rest
  induction rest generalizing past with
  | nil =>
    intro whole
    exact .done fun s holds => by rw [whole, List.append_nil]; exact holds
  | cons a rest ih =>
    intro whole
    have next : items = (past ++ [a]) ++ rest := by rw [whole, List.append_assoc, List.singleton_append]
    exact .step (turn past a rest whole) (ih (past ++ [a]) next)

end Completion

section Resumption

/-- Interrupted anywhere, the program keeps `C`; it ends with `Q`, and without
interruption it comes to its end. -/
structure Resumes (C P : σ → Prop) (p : Program σ) (Q : σ → Prop) : Prop where
  safe : Safe C P p Q
  completes : Completes P p Q

variable {C P M Q : σ → Prop} {p q : Program σ} {act : σ → Except String σ}

theorem Resumes.done (start : ∀ s, P s → C s) (last : ∀ s, P s → Q s) : Resumes C P .done Q :=
  ⟨.done start last, .done last⟩

theorem Resumes.step (start : ∀ s, P s → C s) (acts : ∀ s, P s → ∃ t, act s = .ok t ∧ M t)
    (next : Resumes C M p Q) :
    Resumes C P (.step act p) Q := by
  refine ⟨.step start (fun s t before ok => ?_) next.safe, .step acts next.completes⟩
  obtain ⟨t', result, after⟩ := acts s before
  cases result.symm.trans ok
  exact after

theorem Resumes.write {f : σ → σ} (start : ∀ s, P s → C s) (after : ∀ s, P s → M (f s)) (next : Resumes C M p Q) :
    Resumes C P (.step (write f) p) Q :=
  .step start (fun s before => ⟨f s, rfl, after s before⟩) next

theorem Resumes.call (start : ∀ s, P s → C s) (next : Resumes C P p Q) : Resumes C P (call p) Q :=
  ⟨.call start next.safe, .call next.completes⟩

theorem Resumes.check {holds : σ → Prop} [DecidablePred holds] {error : String} (start : ∀ s, P s → C s)
    (passes : ∀ s, P s → holds s) (next : Resumes C P p Q) :
    Resumes C P (.step (Interruption.check holds error) p) Q :=
  .step start (fun s before => ⟨s, check_eq_ok.mpr ⟨passes s before, rfl⟩, before⟩) next

theorem Resumes.weaken {P' Q' : σ → Prop} (resumes : Resumes C P p Q) (before : ∀ s, P' s → P s)
    (after : ∀ s, Q s → Q' s) : Resumes C P' p Q' :=
  ⟨resumes.safe.weaken before after, resumes.completes.weaken before after⟩

variable {f : σ → Program σ}

theorem Resumes.readAt (next : ∀ s, P s → Resumes C (· = s) (f s) Q) : Resumes C P (.read f) Q :=
  ⟨.read fun s before => (next s before).safe, .read fun s before => (next s before).completes⟩

theorem Resumes.read (next : ∀ s, P s → Resumes C P (f s) Q) : Resumes C P (.read f) Q :=
  .readAt fun s before => (next s before).weaken (fun _ same => same ▸ before) fun _ => id

theorem Resumes.mono {C' : σ → Prop} (resumes : Resumes C P p Q) (weaker : ∀ s, C s → C' s) : Resumes C' P p Q :=
  ⟨resumes.safe.mono weaker, resumes.completes⟩

theorem Resumes.seq (first : Resumes C P p M) (second : Resumes C M q Q) : Resumes C P (p.seq q) Q :=
  ⟨first.safe.seq second.safe, first.completes.seq second.completes⟩

theorem Resumes.each {act : α → σ → Except String σ} {I : List α → σ → Prop} (items : List α)
    (stop : ∀ past rest, items = past ++ rest → ∀ s, I past s → C s)
    (turn : ∀ past a rest, items = past ++ a :: rest → ∀ s, I past s → ∃ t, act a s = .ok t ∧ I (past ++ [a]) t) :
    Resumes C (I []) (each act items) (I items) := by
  refine ⟨.each items stop fun past a rest split s t before ok => ?_, .each items turn⟩
  obtain ⟨t', result, after⟩ := turn past a rest split s before
  cases result.symm.trans ok
  exact after

end Resumption

section Recovery

/-- From a state, the program keeps `C` wherever it is interrupted, and without
interruption it comes to its end, with `Q`. -/
structure Recovers (C : σ → Prop) (s : σ) (p : Program σ) (Q : σ → Prop) : Prop where
  safe : Safe C (· = s) p Q
  completes : Completes (· = s) p Q

variable {C Q : σ → Prop} {p q : Program σ} {act : σ → Except String σ} {s t : σ}

theorem Recovers.done (here : C s) (last : Q s) : Recovers C s .done Q where
  safe := .done (fun _ same => same ▸ here) (fun _ same => same ▸ last)
  completes := .done fun _ same => same ▸ last

theorem Recovers.step (result : act s = .ok t) (here : C s) (rest : Recovers C t p Q) :
    Recovers C s (.step act p) Q where
  safe := by
    refine .step (M := (· = t)) (fun _ same => same ▸ here) ?_ rest.safe
    intro u v same ok
    rw [same, result] at ok
    exact (Except.ok.inj ok).symm
  completes := .step (M := (· = t)) (fun _ same => ⟨t, same ▸ result, rfl⟩) rest.completes

theorem Recovers.read {f : σ → Program σ} (rest : Recovers C s (f s) Q) : Recovers C s (.read f) Q where
  safe := .read fun _ same => same ▸ rest.safe
  completes := .read fun _ same => same ▸ rest.completes

theorem Recovers.seq (first : Recovers C s p (· = t)) (second : Recovers C t q Q) : Recovers C s (p.seq q) Q where
  safe := first.safe.seq second.safe
  completes := first.completes.seq second.completes

end Recovery

section Undoing

variable {C B P M Q E : σ → Prop} {p q body handler : Program σ} {act : σ → Except String σ}

theorem Safe.undoes (safe : Safe C P p Q) : Undoes P p C :=
  fun effects s before _ _ _ => (safe effects s before).1

theorem Undoes.done : Undoes P .done E :=
  fun _ _ _ _ _ failed => absurd rfl failed

theorem Undoes.step (start : ∀ s, P s → E s) (acts : ∀ s t, P s → act s = .ok t → M t) (rest : Undoes M p E) :
    Undoes P (.step act p) E := by
  intro effects s before lost handled failed
  cases result : act s with
  | error error =>
    rw [run_error result]
    exact start s before
  | ok t =>
    rw [run_ok result] at failed ⊢
    cases effect : effects 0 with
    | done =>
      rw [effect] at failed
      exact rest _ t (acts s t before result) (fun n => lost (n + 1)) (handled t result effect) failed
    | lost error => exact start s before
    | kept error => exact absurd effect (lost 0 error)

theorem Undoes.read {f : σ → Program σ} (rest : ∀ s, P s → Undoes (· = s) (f s) E) : Undoes P (.read f) E :=
  fun effects s before lost handled failed => rest s before effects s rfl lost handled failed

theorem Undoes.seq (first : Undoes P p E) (ends : Safe C P p M) (second : Undoes M q E) : Undoes P (p.seq q) E := by
  intro effects s before lost handled failed
  rcases run_seq_handled p q effects s with ⟨stopped, same, handles⟩ | ⟨ended, later, known, same, handles⟩
  · rw [same]
    exact first effects s before lost (handles handled) stopped
  · rw [same] at failed ⊢
    refine second later _ ((ends effects s before).2 ended) (fun n error here => ?_) (handles handled) failed
    obtain ⟨k, at_⟩ := known n
    exact lost k error (at_.symm.trans here)

theorem Undoes.attempt (fails : Undoes P body B) (handles : Safe Q B handler E)
    (rest : Undoes (fun _ => True) p E) :
    Undoes P (.attempt body handler p) E := by
  intro effects s before lost handled failed
  have stops := fails (fun n => effects (3 * n)) s before (fun n => lost (3 * n)) handled.1
  have next := handled.2 (body.run (fun n => effects (3 * n)) s).1
  rw [run_attempt] at failed ⊢
  generalize body.run (fun n => effects (3 * n)) s = outcome at stops next failed ⊢
  obtain ⟨t, error⟩ := outcome
  cases error with
  | none => exact rest _ t trivial (fun n => lost (3 * n + 1)) (next.1 rfl) failed
  | some error => exact (handles _ t (stops nofun)).2 (next.2 error rfl)

theorem Undoes.last {f : σ → σ} (safe : Safe C P p M) (start : ∀ s, M s → C s) :
    Undoes P (p.seq (.step (Interruption.write f) .done)) C :=
  fun _ _ before lost _ failed => safe.last_lost start lost before failed

end Undoing

section Refusal

variable {P : σ → Prop} {p : Program σ} {act : σ → Except String σ}

theorem Refuses.step (act_ok : ∀ s t, P s → act s = .ok t → t = s ∧ Refuses P p) : Refuses P (.step act p) := by
  intro effects s before
  unfold run
  cases result : act s with
  | error error => exact ⟨rfl, nofun⟩
  | ok t =>
    obtain ⟨rfl, rest⟩ := act_ok s t before result
    cases effects 0 with
    | done => exact rest _ t before
    | lost error => exact ⟨rfl, nofun⟩
    | kept error => exact ⟨rfl, nofun⟩

theorem Refuses.check {s : σ} {holds : σ → Prop} [DecidablePred holds] {error : String}
    (rest : holds s → Refuses (· = s) p) : Refuses (· = s) (.step (check holds error) p) := by
  refine .step fun t u same ok => ?_
  obtain ⟨passed, rfl⟩ := check_eq_ok.mp ok
  exact ⟨rfl, rest (same ▸ passed)⟩

theorem Refuses.read {f : σ → Program σ} (rest : ∀ s, P s → Refuses (· = s) (f s)) : Refuses P (.read f) := by
  intro effects s before
  exact rest s before effects s rfl

end Refusal

end Program

end Interruption
