import Mathlib

namespace Counter

open List

/-- The growth since the last reading. A counter that shows less restarted in
between, and all that it shows is growth. -/
def increase (last reading : Nat) : Nat :=
  if last ≤ reading then reading - last else reading

theorem increase_le (last reading : Nat) : increase last reading ≤ reading := by
  unfold increase
  split <;> omega

@[simp] theorem increase_zero (reading : Nat) : increase 0 reading = reading := by
  simp [increase]

theorem increase_of_le {last reading : Nat} (grown : last ≤ reading) : last + increase last reading = reading := by
  unfold increase
  rw [if_pos grown]
  omega

/-- The growth over a row of readings. -/
def gained : Nat → List Nat → Nat
  | _, [] => 0
  | last, reading :: rest => increase last reading + gained reading rest

theorem gained_of_ascending {last : Nat} {readings : List Nat} (ascending : (last :: readings).Pairwise (· ≤ ·)) :
    last + gained last readings = (last :: readings).getLast (by simp) := by
  induction readings generalizing last with
  | nil => simp [gained]
  | cons reading rest ih =>
    obtain ⟨above, tail⟩ := List.pairwise_cons.mp ascending
    have step := increase_of_le (above reading (mem_cons_self ..))
    have later := ih tail
    rw [getLast_cons (by simp), ← later]
    simp only [gained]
    omega

section Absences

/-- The growth over readings some of which are missing, when a counter that
was missing is taken to start from zero. -/
def gainedAfresh : Nat → List (Option Nat) → Nat
  | _, [] => 0
  | _, none :: rest => gainedAfresh 0 rest
  | last, some reading :: rest => increase last reading + gainedAfresh reading rest

/-- The readings before and after each absence from which the counter came
back. `absent` says whether it has been missing since the last reading. -/
def absences : Option Nat → Bool → List (Option Nat) → List (Nat × Nat)
  | _, _, [] => []
  | last, _, none :: rest => absences last true rest
  | last, absent, some reading :: rest =>
    (if absent then last.toList.map fun before => (before, reading) else []) ++
      absences (some reading) false rest

/-- What is counted a second time when a counter comes back. -/
def recounted (around : Nat × Nat) : Nat :=
  if around.1 ≤ around.2 then around.1 else 0

theorem recounted_le (around : Nat × Nat) : recounted around ≤ around.2 := by
  unfold recounted
  split <;> omega

theorem gainedAfresh_eq (last : Option Nat) (absent : Bool) (readings : List (Option Nat)) :
    gainedAfresh (if absent then 0 else last.getD 0) readings =
      gained (last.getD 0) readings.reduceOption + ((absences last absent readings).map recounted).sum := by
  induction readings generalizing last absent with
  | nil => simp [gainedAfresh, gained, absences]
  | cons entry rest ih =>
    cases entry with
    | none => simpa [gainedAfresh, absences] using ih last true
    | some reading =>
      have later := ih (some reading) false
      simp only [Bool.false_eq_true, if_false, Option.getD_some] at later
      simp only [gainedAfresh, absences, reduceOption_cons_of_some, gained, later]
      cases absent with
      | false => simp; omega
      | true =>
        cases last with
        | none => simp; omega
        | some before =>
          have twice : reading = increase before reading + recounted (before, reading) := by
            unfold increase recounted
            split <;> omega
          simp only [if_true, increase_zero, Option.getD_some, Option.toList_some, map_cons,
            map_nil, singleton_append, sum_cons]
          omega

theorem absences_ascending {last : Option Nat} {absent : Bool} {readings : List (Option Nat)}
    (ascending : (last.toList ++ readings.reduceOption).Pairwise (· ≤ ·)) :
    ∀ around ∈ absences last absent readings, around.1 ≤ around.2 := by
  induction readings generalizing last absent with
  | nil => simp [absences]
  | cons entry rest ih =>
    cases entry with
    | none => simpa [absences] using ih ascending
    | some reading =>
      rw [reduceOption_cons_of_some] at ascending
      have later : ((some reading).toList ++ rest.reduceOption).Pairwise (· ≤ ·) :=
        (List.pairwise_append.mp ascending).2.1
      intro around member
      rcases List.mem_append.mp member with here | tail
      · cases absent with
        | false => simp at here
        | true =>
          simp only [if_true, mem_map, Option.mem_toList] at here
          obtain ⟨before, seen, rfl⟩ := here
          exact (List.pairwise_append.mp ascending).2.2 before (by simp [seen]) reading (by simp)
      · exact ih later around tail

end Absences

section Meter

/-- What a counter reads from: the total that passed by each instant, and the
instant at which the counter last restarted. -/
structure Meter (ι : Type*) [LinearOrder ι] where
  total : ι → Nat
  start : ι → ι
  grows : ∀ {i j}, i ≤ j → total i ≤ total j
  started : ∀ i, start i ≤ i
  epoch : ∀ {i j}, start j ≤ i → i ≤ j → start i = start j

variable {ι : Type*} [LinearOrder ι]

/-- The counter shows what passed since it restarted. -/
def Meter.reading (meter : Meter ι) (i : ι) : Nat :=
  meter.total i - meter.total (meter.start i)

theorem Meter.reading_le (meter : Meter ι) (i : ι) : meter.reading i ≤ meter.total i :=
  Nat.sub_le ..

theorem Meter.increase_le (meter : Meter ι) {i j : ι} (ordered : i ≤ j) :
    meter.total i + increase (meter.reading i) (meter.reading j) ≤ meter.total j := by
  have grown := meter.grows ordered
  rcases le_total (meter.start j) i with same | later
  · have epoch := meter.epoch same ordered
    have before := meter.grows (meter.started i)
    unfold increase reading
    rw [epoch] at before ⊢
    split <;> omega
  · have shown := Counter.increase_le (meter.reading i) (meter.reading j)
    have passed := meter.grows later
    have before := meter.grows (meter.started j)
    have value : meter.reading j = meter.total j - meter.total (meter.start j) := rfl
    omega

end Meter

end Counter
