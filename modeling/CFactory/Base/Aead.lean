import Mathlib.Data.List.Basic
import Mathlib.Logic.Encodable.Basic
import Mathlib.Logic.Equiv.List

/-!
# Ideal authenticated encryption

An authenticated cipher with associated data, idealised: what was encrypted is returned
under the same key, nonce and associated data and under no others. Two layers of such a
cipher give the envelope of a wrapped data key. Nothing here names an application.
-/

namespace CFactory.Base

universe u

/-- An ideal authenticated cipher with keys, nonces, texts and associated data all of one
type `β`. -/
structure Aead (β : Type u) where
  encrypt (key nonce plaintext aad : List β) : List β
  decrypt (key nonce data aad : List β) : Option (List β)
  /-- Decryption succeeds exactly under the key, nonce and associated data of the encryption. -/
  decrypt_iff (key nonce plaintext aad key' nonce' aad' p : List β) :
    decrypt key' nonce' (encrypt key nonce plaintext aad) aad' = some p ↔
      key' = key ∧ nonce' = nonce ∧ aad' = aad ∧ p = plaintext
  /-- The output carries at least an authentication tag. -/
  encrypt_ne_nil (key nonce plaintext aad : List β) : encrypt key nonce plaintext aad ≠ []

namespace Aead

variable {β : Type u}

/-- What was encrypted is read back under the same key, nonce and associated data. -/
@[simp] theorem decrypt_encrypt (A : Aead β) (key nonce plaintext aad : List β) :
    A.decrypt key nonce (A.encrypt key nonce plaintext aad) aad = some plaintext :=
  (A.decrypt_iff ..).mpr ⟨rfl, rfl, rfl, rfl⟩

/-! ### An ideal cipher -/

/-- One term of the symbolic cipher as a number. -/
def code [Encodable β] (key nonce plaintext aad : List β) : Nat :=
  Encodable.encode ((key, nonce, plaintext, aad) : List β × List β × List β × List β)

/-- The symbolic cipher: a ciphertext writes out the number of the term that made it, and is
opened by whoever presents the key, the nonce and the associated data of that term. -/
def symbolic (β : Type u) [Encodable β] [DecidableEq β] [Inhabited β] : Aead β where
  encrypt key nonce plaintext aad := List.replicate (code key nonce plaintext aad + 1) default
  decrypt key nonce data aad :=
    match (Encodable.decode (data.length - 1) :
        Option (List β × List β × List β × List β)) with
    | some (key', nonce', plaintext, aad') =>
      if key = key' ∧ nonce = nonce' ∧ aad = aad' then some plaintext else none
    | none => none
  decrypt_iff key nonce plaintext aad key' nonce' aad' p := by
    simp only [List.length_replicate, Nat.add_sub_cancel, code, Encodable.encodek]
    rw [Option.ite_none_right_eq_some]
    constructor
    · rintro ⟨⟨hkey, hnonce, haad⟩, hp⟩
      exact ⟨hkey, hnonce, haad, (Option.some.inj hp).symm⟩
    · rintro ⟨hkey, hnonce, haad, hp⟩
      exact ⟨⟨hkey, hnonce, haad⟩, by rw [hp]⟩
  encrypt_ne_nil key nonce plaintext aad := by simp

end Aead

end CFactory.Base
