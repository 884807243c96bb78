import OpenNode.BackupManifest
import OpenNode.Lib.Base64

namespace OpenNode.BackupCiphertext

open List

def ageHeaderBytes : Int := 168
def ageNonceBytes : Int := 16
def ageTagBytes : Int := 16
def ageChunkBytes : Int := 65536

def maxArchiveBytes : Int := BackupManifest.maxTotalFileBytes + 16 * 1024 * 1024

def maxEncryptedArchiveBytes : Int :=
  maxArchiveBytes + ageHeaderBytes + ageNonceBytes +
    ageTagBytes * ((maxArchiveBytes + ageChunkBytes - 1) / ageChunkBytes)

/-- An unpadded, canonical base64 text of 32 bytes. -/
def b64 (value : List Char) : Bool :=
  value.length == 43 && (Base64.decode (value ++ ['='])).any fun decoded =>
    decoded.length == 32 && (Base64.encode decoded).rdropWhile (· == '=') == value

/-- The checks of the header that `source` begins with. -/
def headed (source : List Char) : Bool :=
  168 ≤ source.length && match (source.take 168).splitOn '\n' with
    | [intro, stanza, body, mac, rest] =>
      intro == "age-encryption.org/v1".toList && rest.isEmpty && "-> X25519 ".toList.isPrefixOf stanza &&
        "--- ".toList.isPrefixOf mac && b64 (stanza.drop 10) && b64 body && b64 (mac.drop 4)
    | _ => false

def payload (size : Int) : Int := size - ageHeaderBytes - ageNonceBytes

def chunks (size : Int) : Int :=
  (payload size + ageChunkBytes + ageTagBytes - 1) / (ageChunkBytes + ageTagBytes)

def plaintext (size : Int) : Int := payload size - chunks size * ageTagBytes

def expectedChunks (size : Int) : Int :=
  max 1 ((plaintext size + ageChunkBytes - 1) / ageChunkBytes)

def cipherShape (source : List Char) (size : Int) : Option Int :=
  if ¬ (ageHeaderBytes + 32 ≤ size ∧ size ≤ maxEncryptedArchiveBytes) then none
  else if ¬ headed source then none
  else if chunks size ≠ expectedChunks size ∨ ¬ (22 ≤ plaintext size ∧ plaintext size ≤ maxArchiveBytes) then none
  else some (plaintext size)

def cipherSize (plaintextSize : Int) : Int :=
  plaintextSize + ageHeaderBytes + ageNonceBytes +
    ageTagBytes * max 1 ((plaintextSize + ageChunkBytes - 1) / ageChunkBytes)

variable {p size : Int}

theorem chunks_cipherSize (filled : 1 ≤ p) :
    chunks (cipherSize p) = max 1 ((p + ageChunkBytes - 1) / ageChunkBytes) := by
  simp only [chunks, payload, cipherSize, ageHeaderBytes, ageNonceBytes, ageTagBytes, ageChunkBytes]
  omega

theorem plaintext_cipherSize (filled : 1 ≤ p) : plaintext (cipherSize p) = p := by
  rw [plaintext, chunks_cipherSize filled, payload, cipherSize]
  simp only [ageHeaderBytes, ageNonceBytes, ageTagBytes]
  omega

theorem cipherSize_plaintext (agree : chunks size = expectedChunks size) : cipherSize (plaintext size) = size := by
  rw [cipherSize, ← expectedChunks, ← agree, plaintext, payload]
  simp only [ageHeaderBytes, ageNonceBytes, ageTagBytes]
  omega

theorem cipherSize_bounds (low : 22 ≤ p) (high : p ≤ maxArchiveBytes) :
    ageHeaderBytes + 32 ≤ cipherSize p ∧ cipherSize p ≤ maxEncryptedArchiveBytes := by
  simp only [cipherSize, maxEncryptedArchiveBytes, maxArchiveBytes, BackupManifest.maxTotalFileBytes,
    ageHeaderBytes,
    ageNonceBytes, ageTagBytes, ageChunkBytes] at high ⊢
  omega

/-- The test accepts the sizes of the allowed plaintexts and returns the plaintext's
own length; nothing that it computes of a size it looks at is negative. -/
theorem cipherShape_cipherSize : (∀ source size p, cipherShape source size = some p ↔
      headed source ∧ 22 ≤ p ∧ p ≤ maxArchiveBytes ∧ size = cipherSize p) ∧
    Set.InjOn cipherSize {p | 22 ≤ p ∧ p ≤ maxArchiveBytes} ∧
    (∀ p, 22 ≤ p → p ≤ maxArchiveBytes → 0 ≤ cipherSize p ∧ cipherSize p ≤ maxEncryptedArchiveBytes) ∧
    ∀ size, ageHeaderBytes + 32 ≤ size →
      0 ≤ payload size ∧ 0 ≤ chunks size ∧ 0 ≤ plaintext size ∧ 0 ≤ expectedChunks size := by
  refine ⟨fun source size p => ?_, fun p hp q hq same => ?_, fun p low high => ?_, fun size least => ?_⟩
  · constructor
    · intro shaped
      unfold cipherShape at shaped
      split at shaped
      · cases shaped
      · split at shaped
        · cases shaped
        · split at shaped
          · cases shaped
          · rename_i sized proper agree
            obtain ⟨agree, bounds⟩ := not_or.mp agree
            cases shaped
            exact ⟨not_not.mp proper, (not_not.mp bounds).1, (not_not.mp bounds).2,
              (cipherSize_plaintext (not_not.mp agree)).symm⟩
    · rintro ⟨proper, low, high, rfl⟩
      have back : plaintext (cipherSize p) = p := plaintext_cipherSize (by omega)
      have agree : chunks (cipherSize p) = expectedChunks (cipherSize p) := by
        rw [expectedChunks, back]
        exact chunks_cipherSize (by omega)
      rw [cipherShape, if_neg (not_not.mpr (cipherSize_bounds low high)), if_neg (not_not.mpr proper), back,
        if_neg (not_or.mpr ⟨not_not.mpr agree, not_not.mpr ⟨low, high⟩⟩)]
  · have first := hp.1
    have second := hq.1
    rw [← plaintext_cipherSize (p := p) (by omega), same, plaintext_cipherSize (by omega)]
  · have bounds := cipherSize_bounds low high
    rw [ageHeaderBytes] at bounds
    exact ⟨by omega, bounds.2⟩
  · simp only [expectedChunks, plaintext, chunks, payload, ageHeaderBytes, ageNonceBytes, ageTagBytes,
      ageChunkBytes]
      at least ⊢
    omega

example : let block := replicate 43 'A'
    let source := "age-encryption.org/v1\n-> X25519 ".toList ++ block ++ ['\n'] ++ block ++ "\n--- ".toList ++
      block ++ ['\n']
    [65536, 65537].map (cipherShape source ∘ cipherSize) = [some 65536, some 65537] ∧
      cipherShape source 65752 = none := by
  decide +kernel

end OpenNode.BackupCiphertext
