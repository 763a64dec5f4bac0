import CFactory.Credentials.Rotation
import Mathlib.Logic.Relation
import Std.Data.String.ToNat

/-!
# What a sealed record is bound to

`credentials.py:232–267,308–345`. A record is moved under another tenant or connection and the
columns that choose its key and its associated data are rewritten. The connection-bound
identity is encoded injectively; the legacy identity is the tenant's own text, which may spell
the encoding of another tenant's connection.
-/

namespace CFactory.Credentials

open CFactory.Base

variable {A : Aead UInt8}

/-! ## The encoded identity -/

/-- The characters of a connection-bound identity. -/
private theorem toList_scope (tenant : String) (connection : Nat) :
    (scope tenant (some connection)).toList =
      (Nat.repr tenant.length).toList ++
        ':' :: (tenant.toList ++ '/' :: (Nat.repr connection).toList) := by
  simp only [scope, String.toList_append, List.append_assoc]
  rfl

/-- The length prefix holds no colon. -/
private theorem colon_not_mem_repr (n : Nat) : ':' ∉ (Nat.repr n).toList := by
  intro hmem
  exact absurd (isDigit_of_mem_repr hmem) (by decide)

/-- The connection-bound identity determines the tenant and the connection. -/
theorem scope_injective {tenant tenant' : String} {connection connection' : Nat}
    (h : scope tenant (some connection) = scope tenant' (some connection')) :
    tenant = tenant' ∧ connection = connection' := by
  have hchars := congrArg String.toList h
  rw [toList_scope, toList_scope] at hchars
  obtain ⟨hlen, hrest⟩ :=
    split_first (colon_not_mem_repr _) (colon_not_mem_repr _) hchars
  have hlength : tenant.length = tenant'.length :=
    Nat.repr_inj.mp (String.toList_injective hlen)
  have htexts : tenant.toList.length = tenant'.toList.length := by
    rw [String.length_toList, String.length_toList, hlength]
  obtain ⟨htenant, htail⟩ := List.append_inj hrest htexts
  exact ⟨String.toList_injective htenant,
    Nat.repr_inj.mp (String.toList_injective (List.cons.inj htail).2)⟩

/-- The associated data of a ciphertext determines the identity it encodes. -/
theorem dekAad_injective {tenant tenant' : String} {binding binding' : Option Nat}
    (h : dekAad tenant binding = dekAad tenant' binding') :
    scope tenant binding = scope tenant' binding' := by
  have hchars := congrArg String.toList (encode_injective h)
  rw [String.toList_append, String.toList_append] at hchars
  exact String.toList_injective (List.append_cancel_left hchars)

/-! ## Rewrapped records -/

/-- The second record comes from the first by rewraps for the tenant's connection, each under
some ring. -/
def Rewrapped (A : Aead UInt8) (tenant : String) (connection : Nat) :
    Sealed → Sealed → Prop :=
  Relation.ReflTransGen fun s s' ↦
    ∃ wrapNonce ring, s.rewrap A wrapNonce tenant connection ring = .ok (some s')

/-- A rewrap that succeeds leaves a record of the same connection, whatever the ring holds. -/
theorem SealedFor.of_rewrap {secret tenant : String} {connection : Nat} {kek : String × Key}
    {s s' : Sealed} (h : SealedFor A secret tenant connection kek s) {wrapNonce : Nonce}
    {ring : KeyRing} (hrewrap : s.rewrap A wrapNonce tenant connection ring = .ok (some s')) :
    SealedFor A secret tenant connection ring.active s' := by
  obtain ⟨dek, nonce₁, nonce, hwrapped, hcipher⟩ := h.layers
  unfold Sealed.rewrap at hrewrap
  split at hrewrap
  · cases hrewrap
  · split at hrewrap
    · cases hrewrap
    · next dek' hdek =>
      have hsame : dek' = dek.1 := by
        unfold Sealed.unwrapDek at hdek
        split at hdek
        · cases hdek
        · rw [hwrapped] at hdek
          exact (decrypt_encrypt_ok A hdek).2.2
      cases hrewrap
      exact ⟨h.version, rfl, dek, wrapNonce, nonce, by rw [hsame]; rfl, hcipher⟩

/-- A sealed record stays a record of its connection, with the current binding, through any
rewraps. -/
theorem rewrapped_sealedFor {fresh : Randomness} {secret tenant : String} {connection : Nat}
    {ring : KeyRing} {record : Sealed}
    (h : Rewrapped A tenant connection (Sealed.seal A fresh secret tenant connection ring)
      record) :
    record.aadVersion = currentAadVersion ∧
      ∃ kek, SealedFor A secret tenant connection kek record := by
  induction h with
  | refl => exact ⟨rfl, ring.active, seal_sealedFor fresh secret tenant connection ring⟩
  | tail _ hstep ih =>
    obtain ⟨wrapNonce, ring', hrewrap⟩ := hstep
    obtain ⟨hcurrent, kek, hsealed⟩ := ih
    exact ⟨(rewrap_keeps hrewrap).2.trans hcurrent, ring'.active, hsealed.of_rewrap hrewrap⟩

/-! ## Moved records -/

/-- The stored record with the columns that choose its key and its binding rewritten. -/
def Sealed.rewritten (s : Sealed) (keyVersion : String) (aadVersion : Int) : Sealed :=
  { s with keyVersion := keyVersion, aadVersion := aadVersion }

/-- A ciphertext opens, in whatever row it stands, only for the identity it was encrypted
under. -/
theorem unseal_scope {tenant tenant' : String} {binding : Option Nat} {connection' : Nat}
    {dek : Key} {nonce : Nonce} {plaintext : Bytes} {s : Sealed} {ring : KeyRing}
    {secret' : String}
    (hcipher : s.ciphertext = encrypt A nonce dek plaintext (dekAad tenant binding))
    (h : s.unseal A tenant' connection' ring = .ok secret') :
    scope tenant' (s.binding connection') = scope tenant binding := by
  unfold Sealed.unseal at h
  split at h
  · cases h
  · split at h
    · cases h
    · next p hp =>
      rw [hcipher] at hp
      exact dekAad_injective (decrypt_encrypt_ok A hp).2.1

/-- A record whose legacy identity spells the connection another record was sealed for opens
with that record's layers. -/
theorem SealedFor.legacy_alias {secret tenant : String} {connection : Nat}
    {kek : String × Key} {s : Sealed} (h : SealedFor A secret tenant connection kek s)
    (hcurrent : s.aadVersion = currentAadVersion) (connection' : Nat) :
    SealedFor A secret (scope tenant (some connection)) connection' kek
      (s.rewritten s.keyVersion legacyAadVersion) := by
  obtain ⟨dek, wrapNonce, nonce, hwrapped, hcipher⟩ := h.layers
  have hlegacy : (s.rewritten s.keyVersion legacyAadVersion).binding connection' = none :=
    binding_legacy rfl connection'
  rw [binding_current hcurrent connection] at hwrapped hcipher
  refine ⟨.inl rfl, h.keyVersion, dek, wrapNonce, nonce, ?_, ?_⟩
  · rw [hlegacy]
    exact hwrapped
  · rw [hlegacy]
    exact hcipher

/-- A ring of one key. -/
def KeyRing.single (kek : String × Key) : KeyRing where
  keys := [kek]
  nonempty := by simp
  distinct := by simp

/-- A record sealed for a tenant's connection and then rewrapped any number of times raises for
every other tenant and connection, under every ring and with its key id and binding rewritten in
any way, exactly if the other tenant's text does not spell the connection it was sealed for. -/
theorem bound_iff_not_alias (A : Aead UInt8) (fresh : Randomness) (secret tenant : String)
    (connection : Nat) (ring : KeyRing) (record : Sealed)
    (hrecord : Rewrapped A tenant connection
      (Sealed.seal A fresh secret tenant connection ring) record)
    (tenant' : String) (connection' : Nat)
    (hother : tenant' ≠ tenant ∨ connection' ≠ connection) :
    (∀ (keyVersion : String) (aadVersion : Int) (ring' : KeyRing), ∃ e,
        (record.rewritten keyVersion aadVersion).unseal A tenant' connection' ring' = .error e) ↔
      tenant' ≠ scope tenant (some connection) := by
  obtain ⟨hcurrent, kek, hsealed⟩ := rewrapped_sealedFor hrecord
  constructor
  · intro hraises halias
    have hmem : kek ∈ (KeyRing.single kek).keys := List.mem_cons_self
    have hopens := (hsealed.legacy_alias hcurrent connection').unseal hmem
    obtain ⟨e, he⟩ := hraises record.keyVersion legacyAadVersion (KeyRing.single kek)
    rw [halias, hopens] at he
    cases he
  · intro halias keyVersion aadVersion ring'
    obtain ⟨dek, -, nonce, -, hcipher⟩ := hsealed.layers
    rw [binding_current hcurrent connection] at hcipher
    cases hunseal : (record.rewritten keyVersion aadVersion).unseal A tenant' connection' ring' with
    | error e => exact ⟨e, rfl⟩
    | ok secret' =>
      have hscope : scope tenant' ((record.rewritten keyVersion aadVersion).binding connection') =
          scope tenant (some connection) := unseal_scope hcipher hunseal
      by_cases hlegacy : aadVersion = legacyAadVersion
      · rw [binding_legacy hlegacy connection'] at hscope
        exact absurd hscope halias
      · have hbound : (record.rewritten keyVersion aadVersion).binding connection' =
            some connection' := if_neg hlegacy
        rw [hbound] at hscope
        obtain ⟨htenant, hconnection⟩ := scope_injective hscope
        exact absurd hother (by simp [htenant, hconnection])

/-- A record of tenant `acme` for connection 7 raises for tenant `globex` and connection 7, also
where it is marked as legacy. -/
theorem globex_never_reads_acme :
    ∃ e, ((Sealed.seal (Aead.symbolic UInt8) ⟨plainKey 7, plainNonce 8, plainNonce 9⟩ "glpat"
      "acme" 7 (KeyRing.single ("v1", plainKey 1))).rewritten "v1" legacyAadVersion).unseal
        (Aead.symbolic UInt8) "globex" 7 (KeyRing.single ("v1", plainKey 1)) = .error e :=
  (bound_iff_not_alias (Aead.symbolic UInt8) ⟨plainKey 7, plainNonce 8, plainNonce 9⟩ "glpat"
    "acme" 7 (KeyRing.single ("v1", plainKey 1)) _ .refl "globex" 7 (.inl (by decide))).mpr
    (by decide) "v1" legacyAadVersion (KeyRing.single ("v1", plainKey 1))

/-- The binding is not total: the record of tenant `acme` for connection 7, marked as legacy,
gives its token to the tenant whose id is the text `4:acme/7`. -/
theorem slashed_tenant_reads_acme :
    ¬ ∀ (tenant' : String) (connection' : Nat) (keyVersion : String) (aadVersion : Int)
        (ring' : KeyRing), tenant' ≠ "" → (tenant' ≠ "acme" ∨ connection' ≠ 7) →
      ∃ e, ((Sealed.seal (Aead.symbolic UInt8) ⟨plainKey 7, plainNonce 8, plainNonce 9⟩ "glpat"
        "acme" 7 (KeyRing.single ("v1", plainKey 1))).rewritten keyVersion aadVersion).unseal
          (Aead.symbolic UInt8) tenant' connection' ring' = .error e := by
  intro hall
  have hsealed : SealedFor (Aead.symbolic UInt8) "glpat" "acme" 7
      (KeyRing.single ("v1", plainKey 1)).active _ :=
    seal_sealedFor ⟨plainKey 7, plainNonce 8, plainNonce 9⟩ "glpat" "acme" 7 _
  obtain ⟨e, he⟩ := hall "4:acme/7" 1 "v1" legacyAadVersion (KeyRing.single ("v1", plainKey 1))
    (by decide) (.inl (by decide))
  have halias : scope "acme" (some 7) = "4:acme/7" := by decide
  have hopens := (halias ▸ hsealed.legacy_alias rfl 1).unseal (active_mem _)
  cases he.symm.trans hopens

end CFactory.Credentials
