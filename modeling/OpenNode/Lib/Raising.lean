import Mathlib

namespace Raising

variable {σ ε : Type*}

/-- What happens at a step. A step that fails has no effect. -/
inductive Effect where
  | done
  | failed (cause : String)
  | killed
deriving DecidableEq, Repr

/-- What is raised: an error of the program's own, or the failure of a step. -/
inductive Error (ε : Type*) where
  | raised (error : ε)
  | failed (cause : String)
deriving DecidableEq, Repr

inductive Ending (ε : Type*) where
  | returned
  | raised (error : Error ε)
  | killed
deriving DecidableEq, Repr

inductive Program (σ ε : Type*) where
  | done
  | raise (error : Error ε)
  | step (act : σ → σ) (rest : Program σ ε)
  | sure (act : σ → σ) (rest : Program σ ε)
  | read (rest : σ → Program σ ε)
  | attempt (body : Program σ ε) (handler : Error ε → Program σ ε) (rest : Program σ ε)

namespace Program

/-- A call that can fail and changes nothing. -/
def call (rest : Program σ ε) : Program σ ε :=
  .step id rest

def seq : Program σ ε → Program σ ε → Program σ ε
  | .done, q => q
  | .raise error, _ => .raise error
  | .step act rest, q => .step act (rest.seq q)
  | .sure act rest, q => .sure act (rest.seq q)
  | .read rest, q => .read fun s => (rest s).seq q
  | .attempt body handler rest, q => .attempt body handler (rest.seq q)

/-- A run. A sure step can be killed but does not fail. The program goes on after
an attempt when the body or its handler returns. -/
def run : Program σ ε → (Nat → Effect) → σ → σ × Ending ε
  | .done, _, s => (s, .returned)
  | .raise error, _, s => (s, .raised error)
  | .step act rest, effects, s =>
    match effects 0 with
    | .done => rest.run (fun n => effects (n + 1)) (act s)
    | .failed cause => (s, .raised (.failed cause))
    | .killed => (s, .killed)
  | .sure act rest, effects, s =>
    match effects 0 with
    | .killed => (s, .killed)
    | .done | .failed _ => rest.run (fun n => effects (n + 1)) (act s)
  | .read rest, effects, s => (rest s).run effects s
  | .attempt body handler rest, effects, s =>
    match body.run (fun n => effects (3 * n)) s with
    | (t, .returned) => rest.run (fun n => effects (3 * n + 1)) t
    | (t, .raised error) =>
      match (handler error).run (fun n => effects (3 * n + 2)) t with
      | (u, .returned) => rest.run (fun n => effects (3 * n + 1)) u
      | (u, .raised error) => (u, .raised error)
      | (u, .killed) => (u, .killed)
    | (t, .killed) => (t, .killed)

/-- Wherever a program goes on, what held before a step holds after it. -/
def Keeps (P : σ → Prop) : Program σ ε → Prop
  | .done | .raise _ => True
  | .step act rest | .sure act rest => (∀ s, P s → P (act s)) ∧ rest.Keeps P
  | .read rest => ∀ s, P s → (rest s).Keeps P
  | .attempt body handler rest => body.Keeps P ∧ (∀ error, (handler error).Keeps P) ∧ rest.Keeps P

/-- The run in which every step takes effect. -/
def quiet : Nat → Effect := fun _ => .done

end Program

/-- `K` where the program is killed, `Q` where it returns and `R` where it raises. -/
def Ends (K Q : σ → Prop) (R : Error ε → σ → Prop) : σ × Ending ε → Prop
  | (s, .returned) => Q s
  | (s, .raised error) => R error s
  | (s, .killed) => K s

/-- However the steps of the program go from a state, it ends so. -/
def Assured (K Q : σ → Prop) (R : Error ε → σ → Prop) (p : Program σ ε) (s : σ) : Prop :=
  ∀ effects, Ends K Q R (p.run effects s)

theorem Program.run_seq (p q : Program σ ε) (effects : Nat → Effect) (s : σ) :
    ((p.run effects s).2 ≠ .returned ∧ (p.seq q).run effects s = p.run effects s) ∨
      (p.run effects s).2 = .returned ∧ ∃ later, (p.seq q).run effects s = q.run later (p.run effects s).1 := by
  induction p generalizing effects s with
  | done => exact .inr ⟨rfl, effects, rfl⟩
  | raise error => exact .inl ⟨nofun, rfl⟩
  | step act rest ih =>
    rw [seq, run, run]
    cases effects 0 with
    | done => exact ih (fun n => effects (n + 1)) (act s)
    | failed cause => exact .inl ⟨nofun, rfl⟩
    | killed => exact .inl ⟨nofun, rfl⟩
  | sure act rest ih =>
    rw [seq, run, run]
    cases effects 0 with
    | done => exact ih (fun n => effects (n + 1)) (act s)
    | failed cause => exact ih (fun n => effects (n + 1)) (act s)
    | killed => exact .inl ⟨nofun, rfl⟩
  | read rest ih => exact ih s effects s
  | attempt body handler rest _ _ ih =>
    rw [seq, run, run]
    rcases body.run (fun n => effects (3 * n)) s with ⟨t, _ | error | _⟩
    · exact ih (fun n => effects (3 * n + 1)) t
    · dsimp only
      rcases (handler error).run (fun n => effects (3 * n + 2)) t with ⟨u, _ | again | _⟩
      · exact ih (fun n => effects (3 * n + 1)) u
      · exact .inl ⟨nofun, rfl⟩
      · exact .inl ⟨nofun, rfl⟩
    · exact .inl ⟨nofun, rfl⟩

theorem Program.Keeps.seq {P : σ → Prop} {p q : Program σ ε} (first : p.Keeps P) (second : q.Keeps P) :
    (p.seq q).Keeps P := by
  induction p with
  | done => exact second
  | raise error => trivial
  | step act rest ih => exact ⟨first.1, ih first.2⟩
  | sure act rest ih => exact ⟨first.1, ih first.2⟩
  | read rest ih => exact fun s held => ih s (first s held)
  | attempt body handler rest _ _ ih => exact ⟨first.1, first.2.1, ih first.2.2⟩

theorem Program.Keeps.run {P : σ → Prop} {p : Program σ ε} (keeps : p.Keeps P) (effects : Nat → Effect) {s : σ}
    (start : P s) : P (p.run effects s).1 := by
  induction p generalizing effects s with
  | done => exact start
  | raise error => exact start
  | step act rest ih =>
    rw [Program.run]
    cases effects 0 with
    | done => exact ih keeps.2 _ (keeps.1 s start)
    | failed cause => exact start
    | killed => exact start
  | sure act rest ih =>
    rw [Program.run]
    cases effects 0 with
    | done => exact ih keeps.2 _ (keeps.1 s start)
    | failed cause => exact ih keeps.2 _ (keeps.1 s start)
    | killed => exact start
  | read rest ih => exact ih s (keeps s start) effects start
  | attempt body handler rest body_ih handler_ih ih =>
    rw [Program.run]
    have tried := body_ih keeps.1 (fun n => effects (3 * n)) start
    revert tried
    rcases body.run (fun n => effects (3 * n)) s with ⟨t, _ | error | _⟩ <;> intro tried
    · exact ih keeps.2.2 _ tried
    · have handled := handler_ih error (keeps.2.1 error) (fun n => effects (3 * n + 2)) tried
      dsimp only
      revert handled
      rcases (handler error).run (fun n => effects (3 * n + 2)) t with ⟨u, _ | again | _⟩ <;> intro handled
      · exact ih keeps.2.2 _ handled
      · exact handled
      · exact handled
    · exact tried

namespace Assured

variable {K Q K' Q' : σ → Prop} {R R' : Error ε → σ → Prop} {p q : Program σ ε} {act : σ → σ} {s : σ}

theorem done (last : Q s) : Assured K Q R .done s :=
  fun _ => last

theorem raise {error : Error ε} (raised : R error s) : Assured K Q R (.raise error) s :=
  fun _ => raised

theorem step (killed : K s) (failed : ∀ cause, R (.failed cause) s) (rest : Assured K Q R p (act s)) :
    Assured K Q R (.step act p) s := by
  intro effects
  unfold Program.run
  cases effects 0 with
  | done => exact rest _
  | failed cause => exact failed cause
  | killed => exact killed

theorem sure (killed : K s) (rest : Assured K Q R p (act s)) : Assured K Q R (.sure act p) s := by
  intro effects
  unfold Program.run
  cases effects 0 with
  | done => exact rest _
  | failed cause => exact rest _
  | killed => exact killed

theorem call (killed : K s) (failed : ∀ cause, R (.failed cause) s) (rest : Assured K Q R p s) :
    Assured K Q R (.call p) s :=
  .step killed failed rest

theorem read {f : σ → Program σ ε} (rest : Assured K Q R (f s) s) : Assured K Q R (.read f) s :=
  rest

theorem mono (assured : Assured K Q R p s) (killed : ∀ t, K t → K' t) (returned : ∀ t, Q t → Q' t)
    (raised : ∀ error t, R error t → R' error t) : Assured K' Q' R' p s := by
  intro effects
  have ends := assured effects
  revert ends
  rcases p.run effects s with ⟨t, _ | error | _⟩
  · exact returned t
  · exact raised error t
  · exact killed t

theorem attempt {body : Program σ ε} {handler : Error ε → Program σ ε}
    (tried : Assured K (Assured K Q R p) (fun error => Assured K (Assured K Q R p) R (handler error)) body s) :
    Assured K Q R (.attempt body handler p) s := by
  intro effects
  unfold Program.run
  have ends := tried fun n => effects (3 * n)
  revert ends
  rcases body.run (fun n => effects (3 * n)) s with ⟨t, _ | error | _⟩ <;> intro ends
  · exact ends _
  · have handled := ends fun n => effects (3 * n + 2)
    dsimp only
    revert handled
    rcases (handler error).run (fun n => effects (3 * n + 2)) t with ⟨u, _ | again | _⟩ <;> intro handled
    · exact handled _
    · exact handled
    · exact handled
  · exact ends

theorem seq (first : Assured K (Assured K Q R q) R p s) : Assured K Q R (p.seq q) s := by
  intro effects
  have ends := first effects
  rcases p.run_seq q effects s with ⟨stopped, same⟩ | ⟨returned, later, same⟩
  · rw [same]
    revert ends stopped
    rcases p.run effects s with ⟨t, _ | error | _⟩ <;> intro ends stopped
    · exact absurd rfl stopped
    · exact ends
    · exact ends
  · rw [same]
    revert ends returned
    rcases p.run effects s with ⟨t, _ | error | _⟩ <;> intro ends returned
    · exact ends later
    · nomatch returned
    · nomatch returned

end Assured

end Raising
