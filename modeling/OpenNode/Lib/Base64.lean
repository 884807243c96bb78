import Mathlib

namespace Base64

open Option

def alphabet : List Char :=
  "ABCDEFGHIJKLMNOPQRSTUVWXYZabcdefghijklmnopqrstuvwxyz0123456789+/".toList

/-- The symbol of six bits. -/
def symbol (bits : Nat) : Char := alphabet.getD bits '='

/-- The six bits of a symbol; padding is none. -/
def bits? (c : Char) : Option Nat :=
  let place := alphabet.idxOf c
  if place < 64 then some place else none

def encode : List UInt8 → List Char
  | [] => []
  | [a] => [symbol (a.toNat / 4), symbol (a.toNat % 4 * 16), '=', '=']
  | [a, b] => [symbol (a.toNat / 4), symbol (a.toNat % 4 * 16 + b.toNat / 16), symbol (b.toNat % 16 * 4), '=']
  | a :: b :: c :: rest =>
    symbol (a.toNat / 4) :: symbol (a.toNat % 4 * 16 + b.toNat / 16) :: symbol (b.toNat % 16 * 4 + c.toNat / 64) ::
      symbol (c.toNat % 64) :: encode rest

def decode : List Char → Option (List UInt8)
  | [] => some []
  | [w, x, '=', '='] => do
    let w ← bits? w
    let x ← bits? x
    return [UInt8.ofNat (w * 4 + x / 16)]
  | [w, x, y, '='] => do
    let w ← bits? w
    let x ← bits? x
    let y ← bits? y
    return [UInt8.ofNat (w * 4 + x / 16), UInt8.ofNat (x % 16 * 16 + y / 4)]
  | w :: x :: y :: z :: rest => do
    let w ← bits? w
    let x ← bits? x
    let y ← bits? y
    let z ← bits? z
    let bytes ← decode rest
    return UInt8.ofNat (w * 4 + x / 16) :: UInt8.ofNat (x % 16 * 16 + y / 4) ::
      UInt8.ofNat (y % 4 * 64 + z) :: bytes
  | _ => none

variable {bits : Nat}

theorem bits?_symbol (small : bits < 64) : bits? (symbol bits) = some bits := by
  have all : ∀ n : Fin 64, bits? (symbol n) = some n.val := by decide +kernel
  exact all ⟨bits, small⟩

theorem symbol_ne_padding (small : bits < 64) : symbol bits ≠ '=' := by
  have all : ∀ n : Fin 64, symbol n ≠ '=' := by decide +kernel
  exact all ⟨bits, small⟩

theorem decode_encode (bytes : List UInt8) : decode (encode bytes) = some bytes := by
  fun_induction encode bytes with
  | case1 => rfl
  | case2 a =>
    have bound := a.toNat_lt
    have first : a.toNat / 4 * 4 + a.toNat % 4 * 16 / 16 = a.toNat := by omega
    rw [decode, bits?_symbol (by omega), bits?_symbol (by omega)]
    simp only [bind_eq_bind, bind_some, pure_def, first, UInt8.ofNat_toNat]
  | case3 a b =>
    have bound := a.toNat_lt
    have bound' := b.toNat_lt
    have first : a.toNat / 4 * 4 + (a.toNat % 4 * 16 + b.toNat / 16) / 16 = a.toNat := by omega
    have second : (a.toNat % 4 * 16 + b.toNat / 16) % 16 * 16 + b.toNat % 16 * 4 / 4 = b.toNat := by omega
    rw [decode, bits?_symbol (by omega), bits?_symbol (by omega), bits?_symbol (by omega)]
    · simp only [bind_eq_bind, bind_some, pure_def, first, second, UInt8.ofNat_toNat]
    · exact fun same => symbol_ne_padding (by omega) same
  | case4 a b c rest ih =>
    have bound := a.toNat_lt
    have bound' := b.toNat_lt
    have bound'' := c.toNat_lt
    have first : a.toNat / 4 * 4 + (a.toNat % 4 * 16 + b.toNat / 16) / 16 = a.toNat := by omega
    have second : (a.toNat % 4 * 16 + b.toNat / 16) % 16 * 16 + (b.toNat % 16 * 4 + c.toNat / 64) / 4 =
        b.toNat := by
      omega
    have third : (b.toNat % 16 * 4 + c.toNat / 64) % 4 * 64 + c.toNat % 64 = c.toNat := by omega
    rw [decode, bits?_symbol (by omega), bits?_symbol (by omega), bits?_symbol (by omega),
      bits?_symbol (by omega), ih]
    · simp only [bind_eq_bind, bind_some, pure_def, first, second, third, UInt8.ofNat_toNat]
    · exact fun _ same => absurd same (symbol_ne_padding (by omega))
    · exact fun same => absurd same (symbol_ne_padding (by omega))

end Base64
