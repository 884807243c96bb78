import Mathlib

namespace OpenNode.NodeLimits

/-- The `float64` operations that the limiter uses. -/
class Float64 (F : Type) where
  /-- Neither NaN nor infinite. -/
  finite : F → Bool
  ofInt : Int → F
  /-- The conversion to `int64`, which truncates. -/
  toInt : F → Int
  mul : F → F → F
  div : F → F → F
  le : F → F → Bool
  /-- `Duration.Seconds` of some nanoseconds. -/
  seconds : Int → F

def maxRate : Int := 2 ^ 50

/-- What the limiter relies on: a duration is positive in seconds when it is in
nanoseconds, and truncation keeps a rate that is at least one positive. -/
class LawfulFloat64 (F : Type) [Float64 F] : Prop where
  seconds_pos : ∀ d : Int, 0 < d → Float64.le (Float64.seconds d) (Float64.ofInt 0 : F) = false
  toInt_pos : ∀ x : F, Float64.le (Float64.ofInt 1) x = true → Float64.le x (Float64.ofInt maxRate) = true →
    1 ≤ Float64.toInt x

/-- Exact arithmetic, which agrees with `float64` where no value is rounded. -/
instance : Float64 ℚ where
  finite _ := true
  ofInt n := n
  toInt x := x.num.tdiv x.den
  mul x y := x * y
  div x y := x / y
  le x y := decide (x ≤ y)
  seconds d := d / 1000000000

instance : LawfulFloat64 ℚ where
  seconds_pos d positive := by
    have above : (0 : ℚ) < d / 1000000000 := by positivity
    simpa [Float64.le, Float64.seconds, Float64.ofInt] using above
  toInt_pos x above _ := by
    have bound : (1 : ℚ) ≤ x := by simpa [Float64.le, Float64.ofInt] using above
    have large : (x.den : ℤ) ≤ x.num := by
      rw [← Rat.num_div_den x, le_div_iff₀ (by exact_mod_cast x.den_pos), one_mul] at bound
      exact_mod_cast bound
    show 1 ≤ x.num.tdiv x.den
    rw [Int.tdiv_eq_ediv_of_nonneg (by have := x.den_pos; omega)]
    exact Int.le_ediv_of_mul_le (by exact_mod_cast x.den_pos) (by simpa using large)

open Float64 in
/-- `value * 125000`. -/
def bytesPerSecond {F : Type} [Float64 F] (mbps : F) : F :=
  mul mbps (ofInt 125000)

def maxBytes : Nat := 2 * 1024 * 1024

structure Rule (F : Type) where
  type : String
  thresholdMbps : F
  sustainedSeconds : Int := 0
  windowSeconds : Int := 0
  burstCount : Int := 0
  limitMbps : F
  limitDuration : Int := 0
deriving DecidableEq

structure User (F : Type) where
  uid : Int := 0
  email : String := ""
  speedLimit : Int := 0
  deviceLimit : Int := 0
  connGroup : String := ""
  autoSpeedRules : List (Rule F) := []
deriving DecidableEq

structure Policy (F : Type) where
  inboundTag : String := ""
  nodeLimit : Int := 0
  users : List (User F) := []
  autoSpeedRules : List (Rule F) := []
deriving DecidableEq

structure Document (F : Type) where
  version : Int := 1
  inbounds : List (Policy F) := []
deriving DecidableEq

/-- `unicode.IsSpace`. -/
def isSpace (c : Char) : Bool :=
  (0x09 ≤ c.toNat && c.toNat ≤ 0x0d) || c.toNat == 0x20 || c.toNat == 0x85 || c.toNat == 0xa0 ||
    c.toNat == 0x1680 || (0x2000 ≤ c.toNat && c.toNat ≤ 0x200a) || c.toNat == 0x2028 ||
    c.toNat == 0x2029 || c.toNat == 0x202f || c.toNat == 0x205f || c.toNat == 0x3000

def textOK (value : String) : Bool :=
  value != "" && value.utf8ByteSize ≤ 255 &&
    !(value.toList.head?.any isSpace || value.toList.getLast?.any isSpace) &&
    !value.toList.any fun c => c == '\x00' || c == '\r' || c == '\n'

variable {F : Type} [Float64 F]

open Float64

def positiveMbps (value : F) : Bool :=
  finite value && !le value (ofInt 0) && le (ofInt 1) (bytesPerSecond value) &&
    le (bytesPerSecond value) (ofInt maxRate)

def Rule.valid (r : Rule F) : Bool :=
  (r.type == "sustained" || r.type == "burst") && positiveMbps r.thresholdMbps &&
    positiveMbps r.limitMbps && 1 ≤ r.sustainedSeconds && r.sustainedSeconds ≤ 86400 &&
    1 ≤ r.limitDuration && r.limitDuration ≤ 86400 && 0 ≤ r.windowSeconds &&
    r.windowSeconds ≤ 86400 && 0 ≤ r.burstCount && r.burstCount ≤ 10000 &&
    !(r.type == "burst" && (r.windowSeconds < r.sustainedSeconds || r.windowSeconds > 86400 ||
      r.burstCount < 1 || r.burstCount > 10000))

/-- `validateRules`: the error it returns. -/
def validateRules (rules : List (Rule F)) : Option String :=
  if rules.length > 100 then some "too many automatic speed rules"
  else if rules.all Rule.valid then none
  else some "invalid automatic speed rule"

/-- The loop over the users of a policy. -/
def validateUsers : (seen : List String) → List (User F) → Option String
  | _, [] => none
  | seen, u :: rest =>
    if u.uid < 0 || !textOK u.email || seen.contains u.email || u.speedLimit < 0 ||
        u.speedLimit > maxRate || u.deviceLimit < 0 || u.deviceLimit > 1000000 ||
        (u.connGroup != "" && !textOK u.connGroup) then
      some "invalid or duplicate limiter user"
    else
      match validateRules u.autoSpeedRules with
      | some error => some error
      | none => validateUsers (u.email :: seen) rest

/-- `Policy.validate`. -/
def Policy.validate (p : Policy F) : Option String :=
  if !textOK p.inboundTag || p.nodeLimit < 0 || p.nodeLimit > maxRate || p.users.length > 1000 ||
      p.autoSpeedRules.length > 100 then
    some "invalid inbound limiter policy"
  else
    match validateUsers [] p.users with
    | some error => some error
    | none => validateRules p.autoSpeedRules

/-- The loop over the inbounds of a document. -/
def validateInbounds : (seen : List String) → List (Policy F) → Option String
  | _, [] => none
  | seen, p :: rest =>
    match p.validate with
    | some error => some error
    | none =>
      if seen.contains p.inboundTag then some "duplicate limiter inbound"
      else validateInbounds (p.inboundTag :: seen) rest

/-- `Document.validate`. -/
def Document.validate (d : Document F) : Option String :=
  if d.version ≠ 1 || d.inbounds.length > 1000 then some "unsupported limiter document"
  else
    match validateInbounds [] d.inbounds with
    | some error => some error
    | none =>
      if (d.inbounds.map fun p => p.users.length).sum > 20000 then some "too many limiter users"
      else none

def minimum (a b : Int) : Int :=
  if a = 0 ∨ (0 < b ∧ b < a) then b else a

def group (u : User F) (email : String) : String :=
  if u.connGroup != "" then u.connGroup else email

def key (tag email : String) : String :=
  tag ++ "\x00" ++ email

/-- The inbound of a document with a tag, and its user with an email. -/
def Document.policy? (d : Document F) (tag : String) : Option (Policy F) :=
  d.inbounds.find? fun p => p.inboundTag == tag

def Document.user? (d : Document F) (tag email : String) : Option (User F) :=
  (d.policy? tag).bind fun p => p.users.find? fun u => u.email == email

theorem validateRules_eq_none {rules : List (Rule F)} :
    validateRules rules = none ↔ rules.length ≤ 100 ∧ ∀ r ∈ rules, r.valid = true := by
  unfold validateRules
  split
  · simp
    omega
  · split
    · rename_i all
      simp only [true_iff]
      exact ⟨by omega, List.all_eq_true.mp all⟩
    · rename_i some
      simp only [reduceCtorEq, false_iff, not_and]
      exact fun _ all => some (List.all_eq_true.mpr all)

/-- What holds of a user that passed validation. -/
structure User.Valid (u : User F) : Prop where
  text : textOK u.email = true
  speed : 0 ≤ u.speedLimit
  device : 0 ≤ u.deviceLimit
  rules : ∀ r ∈ u.autoSpeedRules, r.valid = true

structure Policy.Valid (p : Policy F) : Prop where
  text : textOK p.inboundTag = true
  limit : 0 ≤ p.nodeLimit
  users : ∀ u ∈ p.users, u.Valid
  emails : (p.users.map User.email).Nodup
  rules : ∀ r ∈ p.autoSpeedRules, r.valid = true

structure Document.Valid (d : Document F) : Prop where
  inbounds : ∀ p ∈ d.inbounds, p.Valid
  tags : (d.inbounds.map Policy.inboundTag).Nodup

variable {seen : List String}

theorem validateUsers_valid {users : List (User F)} (valid : validateUsers seen users = none) :
    (∀ u ∈ users, u.Valid ∧ u.email ∉ seen) ∧ (users.map User.email).Nodup := by
  induction users generalizing seen with
  | nil => exact ⟨by simp, List.nodup_nil⟩
  | cons u rest ih =>
    unfold validateUsers at valid
    split at valid
    · cases valid
    · rename_i passed
      simp only [Bool.or_eq_true, not_or, Bool.not_eq_true, Bool.not_eq_false', decide_eq_false_iff_not,
        List.contains_eq_mem] at passed
      obtain ⟨⟨⟨⟨⟨⟨⟨_, text⟩, new⟩, speed⟩, _⟩, device⟩, _⟩, _⟩ := passed
      split at valid
      · cases valid
      · rename_i rules
        obtain ⟨later, distinct⟩ := ih valid
        constructor
        · intro v member
          rcases List.mem_cons.mp member with rfl | old
          · exact ⟨⟨text, by omega, by omega, (validateRules_eq_none.mp rules).2⟩, new⟩
          · obtain ⟨good, fresh⟩ := later v old
            exact ⟨good, fun earlier => fresh (List.mem_cons_of_mem _ earlier)⟩
        · refine List.nodup_cons.mpr ⟨fun repeated => ?_, distinct⟩
          obtain ⟨v, old, same⟩ := List.mem_map.mp repeated
          exact (later v old).2 (same ▸ List.mem_cons_self)

theorem Policy.validate_valid {p : Policy F} (valid : p.validate = none) : p.Valid := by
  unfold Policy.validate at valid
  split at valid
  · cases valid
  · rename_i passed
    simp only [Bool.or_eq_true, not_or, Bool.not_eq_true, Bool.not_eq_false', decide_eq_false_iff_not] at passed
    obtain ⟨⟨⟨⟨text, limit⟩, _⟩, _⟩, _⟩ := passed
    split at valid
    · cases valid
    · rename_i users
      obtain ⟨good, distinct⟩ := validateUsers_valid users
      exact ⟨text, by omega, fun u member => (good u member).1, distinct, (validateRules_eq_none.mp valid).2⟩

theorem validateInbounds_valid {inbounds : List (Policy F)} (valid : validateInbounds seen inbounds = none) :
    (∀ p ∈ inbounds, p.Valid ∧ p.inboundTag ∉ seen) ∧ (inbounds.map Policy.inboundTag).Nodup := by
  induction inbounds generalizing seen with
  | nil => exact ⟨by simp, List.nodup_nil⟩
  | cons p rest ih =>
    unfold validateInbounds at valid
    split at valid
    · cases valid
    · rename_i good
      split at valid
      · cases valid
      · rename_i new
        have new : p.inboundTag ∉ seen := by simpa using new
        obtain ⟨later, distinct⟩ := ih valid
        constructor
        · intro q member
          rcases List.mem_cons.mp member with rfl | old
          · exact ⟨Policy.validate_valid good, new⟩
          · obtain ⟨sound, fresh⟩ := later q old
            exact ⟨sound, fun earlier => fresh (List.mem_cons_of_mem _ earlier)⟩
        · refine List.nodup_cons.mpr ⟨fun repeated => ?_, distinct⟩
          obtain ⟨q, old, same⟩ := List.mem_map.mp repeated
          exact (later q old).2 (same ▸ List.mem_cons_self)

theorem Document.validate_valid {d : Document F} (valid : d.validate = none) : d.Valid := by
  unfold Document.validate at valid
  split at valid
  · cases valid
  · split at valid
    · cases valid
    · rename_i inbounds
      obtain ⟨good, distinct⟩ := validateInbounds_valid inbounds
      exact ⟨fun p member => (good p member).1, distinct⟩

end OpenNode.NodeLimits
