import Mathlib

namespace Calendar

def isLeap (year : Nat) : Bool :=
  year % 4 == 0 && (year % 100 != 0 || year % 400 == 0)

/-- The days of a month; months are counted from the January of the year zero. -/
def monthLength (month : Nat) : Nat :=
  match month % 12 with
  | 1 => if isLeap (month / 12) then 29 else 28
  | 3 | 5 | 8 | 10 => 30
  | _ => 31

theorem monthLength_pos (month : Nat) : 1 ≤ monthLength month := by
  unfold monthLength
  split
  · split <;> decide
  all_goals decide

/-- Microseconds of a day. -/
def dayTime : Nat := 24 * 60 * 60 * 1000000

/-- A moment of a day of a month. -/
@[ext] structure Moment where
  month : Nat
  day : Nat
  time : Nat
  real : 1 ≤ day ∧ day ≤ monthLength month ∧ time < dayTime

namespace Moment

/-- A moment as its month, its day and its time. -/
def key (m : Moment) : Nat ×ₗ Nat ×ₗ Nat := toLex (m.month, toLex (m.day, m.time))

theorem key_injective : Function.Injective key := by
  intro a b same
  have parts : (a.month, a.day, a.time) = (b.month, b.day, b.time) := same
  simp only [Prod.mk.injEq] at parts
  exact Moment.ext parts.1 parts.2.1 parts.2.2

instance : LinearOrder Moment := LinearOrder.lift' key key_injective

variable {a b : Moment}

theorem le_def : a ≤ b ↔ a.month < b.month ∨ a.month = b.month ∧
    (a.day < b.day ∨ a.day = b.day ∧ a.time ≤ b.time) := by
  show a.key ≤ b.key ↔ _
  rw [key, key, Prod.Lex.toLex_le_toLex, Prod.Lex.toLex_le_toLex]

theorem lt_of_month (before : a.month < b.month) : a < b :=
  lt_of_not_ge fun above => by
    rw [le_def] at above
    omega

/-- The beginning of a day. -/
def midnight (m : Moment) : Moment := ⟨m.month, m.day, 0, m.real.1, m.real.2.1, by decide⟩

theorem midnight_le (m : Moment) : m.midnight ≤ m :=
  le_def.mpr (.inr ⟨rfl, .inr ⟨rfl, Nat.zero_le _⟩⟩)

/-- The days before a month. -/
def daysBefore : Nat → Nat
  | 0 => 0
  | month + 1 => daysBefore month + monthLength month

/-- A moment as the time from the beginning of the calendar. -/
def instant (m : Moment) : Nat := (daysBefore m.month + (m.day - 1)) * dayTime + m.time

end Moment

/-- A day of the month at some time, the same for every month. -/
structure Monthly where
  day : Nat
  time : Nat
  real : 1 ≤ day ∧ day ≤ 31 ∧ time < dayTime
deriving DecidableEq

namespace Monthly

variable (d : Monthly)

/-- The moment in a month, on its last day where the month is too short. -/
def inMonth (month : Nat) : Moment where
  month := month
  day := min d.day (monthLength month)
  time := d.time
  real := ⟨le_min d.real.1 (monthLength_pos month), min_le_right _ _, d.real.2.2⟩

@[simp] theorem inMonth_month (month : Nat) : (d.inMonth month).month = month := rfl

theorem inMonth_strictMono : StrictMono d.inMonth := fun _ _ before => Moment.lt_of_month before

/-- The latest of the moments that is not after another. -/
structure IsLatest (now boundary : Moment) : Prop where
  scheduled : ∃ month, boundary = d.inMonth month
  past : boundary ≤ now
  greatest : ∀ month, d.inMonth month ≤ now → d.inMonth month ≤ boundary

/-- The first of the moments that is after another. -/
structure IsNext (now boundary : Moment) : Prop where
  scheduled : ∃ month, boundary = d.inMonth month
  ahead : now < boundary
  least : ∀ month, now < d.inMonth month → boundary ≤ d.inMonth month

/-- Two of the moments with none between them. -/
def Consecutive (first second : Moment) : Prop :=
  ∃ month, first = d.inMonth month ∧ second = d.inMonth (month + 1)

variable {d} {now boundary : Moment}

variable {month : Nat}

theorem isLatest_of_bracket (past : d.inMonth month ≤ now) (ahead : now < d.inMonth (month + 1)) :
    d.IsLatest now (d.inMonth month) where
  scheduled := ⟨month, rfl⟩
  past := past
  greatest := by
    intro other le
    refine d.inMonth_strictMono.monotone (Nat.lt_succ_iff.mp ?_)
    exact d.inMonth_strictMono.lt_iff_lt.mp (le.trans_lt ahead)

theorem isNext_of_bracket (past : d.inMonth month ≤ now) (ahead : now < d.inMonth (month + 1)) :
    d.IsNext now (d.inMonth (month + 1)) where
  scheduled := ⟨month + 1, rfl⟩
  ahead := ahead
  least := by
    intro other later
    refine d.inMonth_strictMono.monotone (Nat.succ_le_iff.mpr ?_)
    exact d.inMonth_strictMono.lt_iff_lt.mp (past.trans_lt later)

theorem lt_inMonth_succ (now : Moment) : now < d.inMonth (now.month + 1) :=
  Moment.lt_of_month (Nat.lt_succ_self _)

theorem isLatest_of_le (past : d.inMonth now.month ≤ now) : d.IsLatest now (d.inMonth now.month) :=
  isLatest_of_bracket past (lt_inMonth_succ now)

theorem IsLatest.unique {other : Moment} (first : d.IsLatest now boundary) (second : d.IsLatest now other) :
    boundary = other := by
  obtain ⟨month, rfl⟩ := first.scheduled
  obtain ⟨month', rfl⟩ := second.scheduled
  exact le_antisymm (second.greatest month first.past) (first.greatest month' second.past)

theorem IsLatest.eq_inMonth (latest : d.IsLatest now boundary) : boundary = d.inMonth boundary.month := by
  obtain ⟨month, rfl⟩ := latest.scheduled
  rfl

end Monthly

end Calendar
