import Mathlib

namespace OpenNode.BigEndian

/-- `int.from_bytes(bytes, "big")`. -/
def fromBytes (bytes : List UInt8) : Nat :=
  bytes.foldl (fun value byte => value * 256 + byte.toNat) 0

/-- `value.to_bytes(size, "big")` of a value that fits. -/
def toBytes : Nat → Nat → List UInt8
  | 0, _ => []
  | size + 1, value => toBytes size (value / 256) ++ [UInt8.ofNat value]

theorem fromBytes_append (bytes : List UInt8) (byte : UInt8) :
    fromBytes (bytes ++ [byte]) = fromBytes bytes * 256 + byte.toNat := by
  simp [fromBytes, List.foldl_append]

@[simp] theorem length_toBytes (size value : Nat) : (toBytes size value).length = size := by
  induction size generalizing value with
  | zero => rfl
  | succ size ih => simp [toBytes, ih]

theorem fromBytes_toBytes {size value : Nat} (fits : value < 256 ^ size) :
    fromBytes (toBytes size value) = value := by
  induction size generalizing value with
  | zero =>
    have : value = 0 := by simpa using fits
    simp [toBytes, fromBytes, this]
  | succ size ih =>
    have upper : value / 256 < 256 ^ size := by
      rw [Nat.div_lt_iff_lt_mul (by omega), ← Nat.pow_succ]
      exact fits
    rw [toBytes, fromBytes_append, ih upper, UInt8.toNat_ofNat']
    omega

theorem toBytes_inj {size a b : Nat} (fitsA : a < 256 ^ size) (fitsB : b < 256 ^ size)
    (same : toBytes size a = toBytes size b) : a = b := by
  rw [← fromBytes_toBytes fitsA, same, fromBytes_toBytes fitsB]

theorem fromBytes_lt (bytes : List UInt8) : fromBytes bytes < 256 ^ bytes.length := by
  induction bytes using List.reverseRecOn with
  | nil => simp [fromBytes]
  | append_singleton bytes byte ih =>
    have digit := byte.toNat_lt
    rw [fromBytes_append, List.length_append, List.length_singleton, Nat.pow_succ]
    omega

end OpenNode.BigEndian
