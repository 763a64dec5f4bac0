import CFactory.Base.Aead
import CFactory.Base.Delimited

/-!
# Sealed credentials

`credentials.py:77–130,207–388`. A credential is encrypted under a data key of its own and the
data key under a key of the ring; both layers authenticate the tenant and the connection.
The cipher is ideal, and the random data key and nonces are arguments.
-/

namespace CFactory.Credentials

open CFactory.Base

/-- Byte strings. -/
abbrev Bytes := List UInt8

instance encodableUInt8 : Encodable UInt8 :=
  Encodable.ofLeftInjection UInt8.toNat (fun n ↦ some (UInt8.ofNat n)) fun b ↦ by simp

/-- `str.encode`. -/
def encode (s : String) : Bytes := s.toUTF8.data.toList

/-- `bytes.decode`; none where it raises. -/
def decode (b : Bytes) : Option String := String.fromUTF8? ⟨b.toArray⟩

/-- `_KEY_BYTES`; `credentials.py:75`. -/
def keyBytes : Nat := 32

/-- `_NONCE_BYTES`; `credentials.py:76`. -/
def nonceBytes : Nat := 12

/-- Key material of the size AES-256 takes, as `_decode_key` and `generate_key` make it. -/
abbrev Key := { b : Bytes // b.length = keyBytes }

/-- What `os.urandom(_NONCE_BYTES)` returns. -/
abbrev Nonce := { b : Bytes // b.length = nonceBytes }

/-- `LEGACY_AAD_VERSION`; `credentials.py:93`. -/
def legacyAadVersion : Int := 1

/-- `AAD_VERSION`; `credentials.py:94`. -/
def currentAadVersion : Int := 2

/-- `KeyRing` as `load_keyring` builds it, never empty and with no key id twice;
`credentials.py:113–130,168–191`. -/
structure KeyRing where
  keys : List (String × Key)
  nonempty : keys ≠ []
  distinct : (keys.map Prod.fst).Nodup

/-- `KeyRing.active`; `credentials.py:124–126`. -/
def KeyRing.active (ring : KeyRing) : String × Key := ring.keys.head ring.nonempty

/-- `KeyRing.find`; `credentials.py:128–130`. -/
def KeyRing.find (ring : KeyRing) (keyId : String) : Option Key :=
  (ring.keys.find? fun k ↦ k.1 == keyId).map Prod.snd

/-- `Sealed`; `credentials.py:208–229`. -/
@[ext] structure Sealed where
  keyVersion : String
  wrappedKey : Bytes
  ciphertext : Bytes
  aadVersion : Int
  deriving DecidableEq

/-- Why nothing is returned. The last two are the `ValueError`s of the cipher and of `decode`. -/
inductive CredentialError where
  | notHeld (keyVersion tenant : String)
  | truncated (what : String)
  | notDecrypted (what : String)
  | keySize (bits : Nat)
  | notText
  deriving DecidableEq

/-- What the random generator hands to one sealing. -/
structure Randomness where
  dek : Key
  wrapNonce : Nonce
  nonce : Nonce

/-! ## Associated data -/

/-- `_scope`; `credentials.py:232–251`. -/
def scope (tenant : String) : Option Nat → String
  | none => tenant
  | some connection => Nat.repr tenant.length ++ ":" ++ tenant ++ "/" ++ Nat.repr connection

/-- `_kek_aad`; `credentials.py:254–256`. -/
def kekAad (tenant keyVersion : String) (connection : Option Nat) : Bytes :=
  encode ("cfactory/git-credential/kek/" ++ scope tenant connection ++ "/" ++ keyVersion)

/-- `_dek_aad`; `credentials.py:259–265`. -/
def dekAad (tenant : String) (connection : Option Nat) : Bytes :=
  encode ("cfactory/git-credential/dek/" ++ scope tenant connection)

/-! ## The two layers -/

variable (A : Aead UInt8)

/-- `_encrypt`; `credentials.py:268–271`. -/
def encrypt (nonce : Nonce) (key : Key) (plaintext aad : Bytes) : Bytes :=
  nonce.1 ++ A.encrypt key.1 nonce.1 plaintext aad

/-- `_decrypt`; `credentials.py:274–285`. The cipher takes keys of 16, 24 and 32 bytes. -/
def decrypt (key blob aad : Bytes) (what : String) : Except CredentialError Bytes :=
  if blob.length ≤ nonceBytes then .error (.truncated what)
  else if key.length ≠ 16 ∧ key.length ≠ 24 ∧ key.length ≠ 32 then
    .error (.keySize (8 * key.length))
  else match A.decrypt key (blob.take nonceBytes) (blob.drop nonceBytes) aad with
    | some plaintext => .ok plaintext
    | none => .error (.notDecrypted what)

/-- `seal`; `credentials.py:288–303`. -/
def Sealed.seal (fresh : Randomness) (secret tenant : String) (connection : Nat)
    (keyring : KeyRing) :
    Sealed where
  keyVersion := keyring.active.1
  wrappedKey := encrypt A fresh.wrapNonce keyring.active.2 fresh.dek.1
    (kekAad tenant keyring.active.1 (some connection))
  ciphertext := encrypt A fresh.nonce fresh.dek (encode secret) (dekAad tenant (some connection))
  aadVersion := currentAadVersion

/-- `_binding`; `credentials.py:306–314`. -/
def Sealed.binding (s : Sealed) (connection : Nat) : Option Nat :=
  if s.aadVersion = legacyAadVersion then none else some connection

/-- `_unwrap_dek`; `credentials.py:317–330`. -/
def Sealed.unwrapDek (s : Sealed) (tenant : String) (connection : Nat) (keyring : KeyRing) :
    Except CredentialError Bytes :=
  match keyring.find s.keyVersion with
  | none => .error (.notHeld s.keyVersion tenant)
  | some kek =>
    decrypt A kek.1 s.wrappedKey (kekAad tenant s.keyVersion (s.binding connection)) "data key"

/-- `unseal`; `credentials.py:333–343`. -/
def Sealed.unseal (s : Sealed) (tenant : String) (connection : Nat) (keyring : KeyRing) :
    Except CredentialError String :=
  match s.unwrapDek A tenant connection keyring with
  | .error e => .error e
  | .ok dek =>
    match decrypt A dek s.ciphertext (dekAad tenant (s.binding connection)) "credential" with
    | .error e => .error e
    | .ok plaintext =>
      match decode plaintext with
      | some secret => .ok secret
      | none => .error .notText

/-- `rewrap`; `credentials.py:346–369`. -/
def Sealed.rewrap (wrapNonce : Nonce) (s : Sealed) (tenant : String) (connection : Nat)
    (keyring : KeyRing) : Except CredentialError (Option Sealed) :=
  if s.keyVersion = keyring.active.1 then .ok none
  else match s.unwrapDek A tenant connection keyring with
    | .error e => .error e
    | .ok dek => .ok (some
      { keyVersion := keyring.active.1
        wrappedKey := encrypt A wrapNonce keyring.active.2 dek
          (kekAad tenant keyring.active.1 (s.binding connection))
        ciphertext := s.ciphertext
        aadVersion := s.aadVersion })

/-- `reseal`; `credentials.py:372–388`. -/
def Sealed.reseal (fresh : Randomness) (s : Sealed) (tenant : String) (connection : Nat)
    (keyring : KeyRing) : Except CredentialError (Option Sealed) :=
  if s.aadVersion = currentAadVersion then .ok none
  else match s.unseal A tenant connection keyring with
    | .error e => .error e
    | .ok secret => .ok (some (Sealed.seal A fresh secret tenant connection keyring))

/-! ## What the layers undo -/

/-- Text survives its encoding. -/
@[simp] theorem decode_encode (s : String) : decode (encode s) = some s := by
  have hbytes : (⟨(encode s).toArray⟩ : ByteArray) = s.toByteArray := by
    simp only [encode, Array.toArray_toList, String.toUTF8_eq_toByteArray]
  rw [decode, hbytes, String.fromUTF8?, dif_pos s.isValidUTF8]
  rfl

/-- Different texts have different encodings. -/
theorem encode_injective : Function.Injective encode := by
  intro s t h
  have hdecode := congrArg decode h
  rw [decode_encode, decode_encode] at hdecode
  exact Option.some.inj hdecode

/-- The nonce stands in front of what one layer encrypted. -/
private theorem take_encrypt (nonce : Nonce) (key : Key) (plaintext aad : Bytes) :
    (encrypt A nonce key plaintext aad).take nonceBytes = nonce.1 := by
  rw [encrypt, List.take_append_of_le_length (by rw [nonce.2]),
    List.take_of_length_le (by rw [nonce.2])]

/-- Behind the nonce stands the output of the cipher. -/
private theorem drop_encrypt (nonce : Nonce) (key : Key) (plaintext aad : Bytes) :
    (encrypt A nonce key plaintext aad).drop nonceBytes =
      A.encrypt key.1 nonce.1 plaintext aad := by
  rw [encrypt, List.drop_append, nonce.2, Nat.sub_self, List.drop_zero,
    List.drop_of_length_le (by rw [nonce.2]), List.nil_append]

/-- What one layer encrypted opens under its own key exactly with its own associated data. -/
@[simp] theorem decrypt_encrypt (nonce : Nonce) (key : Key) (plaintext aad : Bytes)
    (what : String) :
    decrypt A key.1 (encrypt A nonce key plaintext aad) aad what = .ok plaintext := by
  have hkey : key.1.length = 32 := key.2
  have htag := List.length_pos_iff.mpr (A.encrypt_ne_nil key.1 nonce.1 plaintext aad)
  have hlong : ¬ (encrypt A nonce key plaintext aad).length ≤ nonceBytes := by
    rw [encrypt, List.length_append, nonce.2]
    omega
  rw [decrypt, if_neg hlong, if_neg (by omega), take_encrypt, drop_encrypt,
    Aead.decrypt_encrypt]

/-- Whatever one layer encrypted, nothing but its own plaintext comes out, and only with its
own key and associated data. -/
theorem decrypt_encrypt_ok {nonce : Nonce} {key : Key} {plaintext aad key' aad' p : Bytes}
    {what : String}
    (h : decrypt A key' (encrypt A nonce key plaintext aad) aad' what = .ok p) :
    key' = key.1 ∧ aad' = aad ∧ p = plaintext := by
  unfold decrypt at h
  split at h
  · cases h
  · split at h
    · cases h
    · rw [drop_encrypt] at h
      split at h
      · next q hq =>
        obtain ⟨hkey, -, haad, hp⟩ := (A.decrypt_iff ..).mp hq
        exact ⟨hkey, haad, (Except.ok.inj h).symm.trans hp⟩
      · cases h

end CFactory.Credentials
