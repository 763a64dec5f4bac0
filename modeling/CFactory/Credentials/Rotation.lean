import CFactory.Credentials.Sealing

/-!
# Rotating keys and bindings

`credentials.py:290–390`. What a record made for one tenant's connection keeps through
`rewrap` and `reseal` under any key rings: the secret. A record of the legacy binding may
be turned to the current one at any point between two key rotations, or never.
-/

namespace CFactory.Credentials

open CFactory.Base

variable (A : Aead UInt8)

/-! ## Records of one connection -/

/-- The two layers of a record made for a tenant's connection with the data key wrapped by
`kek`. The binding is the one its `aadVersion` says, legacy or current. -/
structure SealedFor (secret tenant : String) (connection : Nat) (kek : String × Key)
    (s : Sealed) : Prop where
  version : s.aadVersion = legacyAadVersion ∨ s.aadVersion = currentAadVersion
  keyVersion : s.keyVersion = kek.1
  layers : ∃ (dek : Key) (wrapNonce nonce : Nonce),
    s.wrappedKey =
        encrypt A wrapNonce kek.2 dek.1 (kekAad tenant kek.1 (s.binding connection)) ∧
      s.ciphertext = encrypt A nonce dek (encode secret) (dekAad tenant (s.binding connection))

/-- A record as releases before connections existed wrote it, bound to the tenant only. -/
def legacyRecord (fresh : Randomness) (secret tenant : String) (kek : String × Key) : Sealed where
  keyVersion := kek.1
  wrappedKey := encrypt A fresh.wrapNonce kek.2 fresh.dek.1 (kekAad tenant kek.1 none)
  ciphertext := encrypt A fresh.nonce fresh.dek (encode secret) (dekAad tenant none)
  aadVersion := legacyAadVersion

variable {A}

/-- A record of the current version is bound to its connection. -/
theorem binding_current {s : Sealed} (h : s.aadVersion = currentAadVersion) (connection : Nat) :
    s.binding connection = some connection := by
  rw [Sealed.binding, h]
  exact if_neg (by decide)

/-- A record of the legacy version is bound to no connection. -/
theorem binding_legacy {s : Sealed} (h : s.aadVersion = legacyAadVersion) (connection : Nat) :
    s.binding connection = none := by
  rw [Sealed.binding, if_pos h]

/-- Sealing makes a record of the connection on the active key. -/
theorem seal_sealedFor (fresh : Randomness) (secret tenant : String) (connection : Nat)
    (ring : KeyRing) :
    SealedFor A secret tenant connection ring.active
      (Sealed.seal A fresh secret tenant connection ring) := by
  have hbinding : (Sealed.seal A fresh secret tenant connection ring).binding connection =
      some connection := binding_current rfl connection
  refine ⟨.inr rfl, rfl, fresh.dek, fresh.wrapNonce, fresh.nonce, ?_, ?_⟩
  · rw [hbinding]
    rfl
  · rw [hbinding]
    rfl

/-- The legacy records are records of every connection of their tenant. -/
theorem legacyRecord_sealedFor (fresh : Randomness) (secret tenant : String) (connection : Nat)
    (kek : String × Key) :
    SealedFor A secret tenant connection kek (legacyRecord A fresh secret tenant kek) := by
  have hbinding : (legacyRecord A fresh secret tenant kek).binding connection = none :=
    binding_legacy rfl connection
  refine ⟨.inl rfl, rfl, fresh.dek, fresh.wrapNonce, fresh.nonce, ?_, ?_⟩
  · rw [hbinding]
    rfl
  · rw [hbinding]
    rfl

/-- A ring finds each of its keys under the key's id. -/
theorem find_of_mem {ring : KeyRing} {kek : String × Key} (h : kek ∈ ring.keys) :
    ring.find kek.1 = some kek.2 := by
  have hfind : ring.keys.find? (fun k ↦ k.1 == kek.1) = some kek := by
    have hdistinct := ring.distinct
    revert h hdistinct
    generalize ring.keys = keys
    intro h hdistinct
    induction keys with
    | nil => cases h
    | cons k keys ih =>
      rw [List.map_cons, List.nodup_cons] at hdistinct
      cases List.mem_cons.mp h with
      | inl heq => rw [← heq, List.find?_cons_of_pos (by simp)]
      | inr hmem =>
        have hne : k.1 ≠ kek.1 := fun heq ↦
          hdistinct.1 (heq ▸ List.mem_map_of_mem hmem)
        rw [List.find?_cons_of_neg (by simpa using hne)]
        exact ih hmem hdistinct.2
  rw [KeyRing.find, hfind]
  rfl

/-- The active key is one of the ring's. -/
theorem active_mem (ring : KeyRing) : ring.active ∈ ring.keys := List.head_mem _

/-- The data key of a record comes out under any ring that holds its wrapping key. -/
theorem SealedFor.unwrapDek {secret tenant : String} {connection : Nat} {kek : String × Key}
    {s : Sealed} (h : SealedFor A secret tenant connection kek s) {ring : KeyRing}
    (hmem : kek ∈ ring.keys) :
    ∃ (dek : Key) (nonce : Nonce), s.unwrapDek A tenant connection ring = .ok dek.1 ∧
      s.ciphertext =
        encrypt A nonce dek (encode secret) (dekAad tenant (s.binding connection)) := by
  obtain ⟨dek, wrapNonce, nonce, hwrapped, hcipher⟩ := h.layers
  refine ⟨dek, nonce, ?_, hcipher⟩
  rw [Sealed.unwrapDek, h.keyVersion, find_of_mem hmem]
  show decrypt A kek.2.1 s.wrappedKey _ _ = _
  rw [hwrapped, decrypt_encrypt]

/-- The secret of a record comes out under any ring that holds its wrapping key. -/
theorem SealedFor.unseal {secret tenant : String} {connection : Nat} {kek : String × Key}
    {s : Sealed} (h : SealedFor A secret tenant connection kek s) {ring : KeyRing}
    (hmem : kek ∈ ring.keys) : s.unseal A tenant connection ring = .ok secret := by
  obtain ⟨dek, nonce, hdek, hcipher⟩ := h.unwrapDek hmem
  simp only [Sealed.unseal, hdek, hcipher, decrypt_encrypt, decode_encode]

/-- A record that rewraps keeps its secret: either it stays, or its data key moves to the
active key. -/
theorem SealedFor.rewrap {secret tenant : String} {connection : Nat} {kek : String × Key}
    {s : Sealed} (h : SealedFor A secret tenant connection kek s) {ring : KeyRing}
    (hmem : kek ∈ ring.keys) (wrapNonce : Nonce) :
    s.rewrap A wrapNonce tenant connection ring = .ok none ∨
      ∃ s', s.rewrap A wrapNonce tenant connection ring = .ok (some s') ∧
        SealedFor A secret tenant connection ring.active s' := by
  obtain ⟨dek, nonce, hdek, hcipher⟩ := h.unwrapDek hmem
  by_cases hactive : s.keyVersion = ring.active.1
  · exact .inl (by rw [Sealed.rewrap, if_pos hactive])
  · right
    rw [Sealed.rewrap, if_neg hactive, hdek]
    exact ⟨_, rfl, h.version, rfl, dek, wrapNonce, nonce, rfl, hcipher⟩

/-- A record that reseals keeps its secret: either it stays, or it is sealed anew under the
active key. -/
theorem SealedFor.reseal {secret tenant : String} {connection : Nat} {kek : String × Key}
    {s : Sealed} (h : SealedFor A secret tenant connection kek s) {ring : KeyRing}
    (hmem : kek ∈ ring.keys) (fresh : Randomness) :
    s.reseal A fresh tenant connection ring = .ok none ∨
      ∃ s', s.reseal A fresh tenant connection ring = .ok (some s') ∧
        SealedFor A secret tenant connection ring.active s' := by
  by_cases hcurrent : s.aadVersion = currentAadVersion
  · exact .inl (by rw [Sealed.reseal, if_pos hcurrent])
  · right
    rw [Sealed.reseal, if_neg hcurrent, h.unseal hmem]
    exact ⟨_, rfl, seal_sealedFor fresh secret tenant connection ring⟩

/-! ## What each migration leaves -/

/-- Rewrapping touches the wrapped key and the key id only. -/
theorem rewrap_keeps {wrapNonce : Nonce} {s s' : Sealed} {tenant : String} {connection : Nat}
    {ring : KeyRing} (h : s.rewrap A wrapNonce tenant connection ring = .ok (some s')) :
    s'.ciphertext = s.ciphertext ∧ s'.aadVersion = s.aadVersion := by
  unfold Sealed.rewrap at h
  split at h
  · cases h
  · split at h
    · cases h
    · cases h
      exact ⟨rfl, rfl⟩

/-- Whatever `reseal` answers, the record then kept carries the current binding. -/
theorem reseal_current {fresh : Randomness} {s : Sealed} {tenant : String} {connection : Nat}
    {ring : KeyRing} {o : Option Sealed}
    (h : s.reseal A fresh tenant connection ring = .ok o) :
    (o.getD s).aadVersion = currentAadVersion := by
  unfold Sealed.reseal at h
  split at h
  · next hcurrent =>
    cases h
    exact hcurrent
  · split at h
    · cases h
    · cases h
      rfl

/-- On the active key and the current binding neither migration has anything to do. -/
theorem settled {s : Sealed} {ring : KeyRing} (hkey : s.keyVersion = ring.active.1)
    (hcurrent : s.aadVersion = currentAadVersion) (wrapNonce : Nonce) (fresh : Randomness)
    (tenant : String) (connection : Nat) :
    s.rewrap A wrapNonce tenant connection ring = .ok none ∧
      s.reseal A fresh tenant connection ring = .ok none :=
  ⟨by rw [Sealed.rewrap, if_pos hkey], by rw [Sealed.reseal, if_pos hcurrent]⟩

/-! ## Sequences of migrations -/

/-- One application of a migration, with the randomness it draws. -/
inductive Migration where
  | rewrap (wrapNonce : Nonce)
  | reseal (fresh : Randomness)

/-- A migration under the key ring of the process that runs it. -/
structure Turn where
  op : Migration
  ring : KeyRing

variable (A)

/-- What the migration answers. -/
def Turn.apply (x : Turn) (tenant : String) (connection : Nat) (s : Sealed) :
    Except CredentialError (Option Sealed) :=
  match x.op with
  | .rewrap wrapNonce => s.rewrap A wrapNonce tenant connection x.ring
  | .reseal fresh => s.reseal A fresh tenant connection x.ring

/-- One turn on a record and the key that wraps it: where the migration answers `None` both
are kept, otherwise the new record stands on the active key. -/
def Turn.step (x : Turn) (tenant : String) (connection : Nat) (st : Sealed × (String × Key)) :
    Except CredentialError (Sealed × (String × Key)) :=
  match x.apply A tenant connection st.1 with
  | .error e => .error e
  | .ok none => .ok st
  | .ok (some s') => .ok (s', x.ring.active)

/-- A sequence of turns. -/
def rotate (tenant : String) (connection : Nat) :
    List Turn → Sealed × (String × Key) → Except CredentialError (Sealed × (String × Key))
  | [], st => .ok st
  | x :: rest, st =>
    match x.step A tenant connection st with
    | .error e => .error e
    | .ok st' => rotate tenant connection rest st'

/-- Every ring of the sequence holds the key that wraps the record at its turn. -/
def Holding (tenant : String) (connection : Nat) : List Turn → Sealed × (String × Key) → Prop
  | [], _ => True
  | x :: rest, st => st.2 ∈ x.ring.keys ∧
    ∀ st', x.step A tenant connection st = .ok st' → Holding tenant connection rest st'

variable {A}

/-- A turn under a ring that holds the wrapping key does not raise and keeps the secret. -/
theorem step_keeps {secret tenant : String} {connection : Nat} {st : Sealed × (String × Key)}
    (h : SealedFor A secret tenant connection st.2 st.1) (x : Turn)
    (hmem : st.2 ∈ x.ring.keys) :
    ∃ st', x.step A tenant connection st = .ok st' ∧
      SealedFor A secret tenant connection st'.2 st'.1 := by
  have happly : x.apply A tenant connection st.1 = .ok none ∨
      ∃ s', x.apply A tenant connection st.1 = .ok (some s') ∧
        SealedFor A secret tenant connection x.ring.active s' := by
    cases hop : x.op with
    | rewrap wrapNonce =>
      rw [Turn.apply, hop]
      exact h.rewrap hmem wrapNonce
    | reseal fresh =>
      rw [Turn.apply, hop]
      exact h.reseal hmem fresh
  cases happly with
  | inl hnone => exact ⟨st, by rw [Turn.step, hnone], h⟩
  | inr hsome =>
    obtain ⟨s', hs', hsealed⟩ := hsome
    exact ⟨(s', x.ring.active), by rw [Turn.step, hs'], hsealed⟩

/-- A sequence of turns whose rings hold the wrapping keys never raises and keeps the secret. -/
theorem rotate_keeps {secret tenant : String} {connection : Nat} (turns : List Turn)
    {st : Sealed × (String × Key)} (h : SealedFor A secret tenant connection st.2 st.1)
    (hold : Holding A tenant connection turns st) :
    ∃ st', rotate A tenant connection turns st = .ok st' ∧
      SealedFor A secret tenant connection st'.2 st'.1 := by
  induction turns generalizing st with
  | nil => exact ⟨st, rfl, h⟩
  | cons x rest ih =>
    obtain ⟨st₁, hstep, hsealed⟩ := step_keeps h x hold.1
    obtain ⟨st', hrun, hkept⟩ := ih hsealed (hold.2 st₁ hstep)
    exact ⟨st', by rw [rotate, hstep]; exact hrun, hkept⟩

/-- A turn leaves the record on its wrapping key or puts it on the active one. -/
theorem step_wrapping {x : Turn} {tenant : String} {connection : Nat}
    {st st' : Sealed × (String × Key)} (h : x.step A tenant connection st = .ok st') :
    st'.2 = st.2 ∨ st'.2 = x.ring.active := by
  unfold Turn.step at h
  split at h
  · cases h
  · cases h
    exact .inl rfl
  · cases h
    exact .inr rfl

/-- Rings that all hold one set of keys, their own active keys among them, hold the wrapping
key at every turn. -/
theorem holding_of_common {tenant : String} {connection : Nat} {keys : List (String × Key)}
    (turns : List Turn) (hring : ∀ x ∈ turns, keys ⊆ x.ring.keys ∧ x.ring.active ∈ keys)
    {st : Sealed × (String × Key)} (hst : st.2 ∈ keys) :
    Holding A tenant connection turns st := by
  induction turns generalizing st with
  | nil => trivial
  | cons x rest ih =>
    obtain ⟨hsub, hactive⟩ := hring x List.mem_cons_self
    refine ⟨hsub hst, fun st' hstep ↦ ?_⟩
    refine ih (fun y hy ↦ hring y (List.mem_cons_of_mem _ hy)) ?_
    cases step_wrapping hstep with
    | inl hkept => exact hkept ▸ hst
    | inr hnew => exact hnew ▸ hactive

/-- Key rotation never loses or changes a credential: a record made for a tenant's connection,
legacy or current, comes through any sequence of `rewrap` and `reseal` under rings that hold
the key wrapping it at that moment without an error, and every ring that holds the key
wrapping it at the end unseals the secret it was made of. `rewrap` leaves the ciphertext and
the binding, `reseal` always leaves the current binding, and a record on the active key and
the current binding is left alone by both. -/
theorem rotation_keeps_credential (A : Aead UInt8) (secret tenant : String) (connection : Nat)
    (record : Sealed) (kek : String × Key)
    (hrecord : SealedFor A secret tenant connection kek record) (turns : List Turn)
    (hold : Holding A tenant connection turns (record, kek)) :
    (∃ final wrapping, rotate A tenant connection turns (record, kek) = .ok (final, wrapping) ∧
      ∀ ring : KeyRing, wrapping ∈ ring.keys →
        final.unseal A tenant connection ring = .ok secret) ∧
    (∀ (s s' : Sealed) (wrapNonce : Nonce) (ring : KeyRing),
      s.rewrap A wrapNonce tenant connection ring = .ok (some s') →
        s'.ciphertext = s.ciphertext ∧ s'.aadVersion = s.aadVersion) ∧
    (∀ (s : Sealed) (o : Option Sealed) (fresh : Randomness) (ring : KeyRing),
      s.reseal A fresh tenant connection ring = .ok o →
        (o.getD s).aadVersion = currentAadVersion) ∧
    (∀ (s : Sealed) (wrapNonce : Nonce) (fresh : Randomness) (ring : KeyRing),
      s.keyVersion = ring.active.1 → s.aadVersion = currentAadVersion →
        s.rewrap A wrapNonce tenant connection ring = .ok none ∧
          s.reseal A fresh tenant connection ring = .ok none) := by
  refine ⟨?_, ?_, ?_, ?_⟩
  · obtain ⟨⟨final, wrapping⟩, hrun, hkept⟩ := rotate_keeps turns hrecord hold
    exact ⟨final, wrapping, hrun, fun ring hring ↦ hkept.unseal hring⟩
  · intro s s' wrapNonce ring h
    exact rewrap_keeps h
  · intro s o fresh ring h
    exact reseal_current h
  · intro s wrapNonce fresh ring hkey hcurrent
    exact settled hkey hcurrent wrapNonce fresh tenant connection

/-- A key whose bytes are all `b`. -/
def plainKey (b : UInt8) : Key := ⟨List.replicate 32 b, List.length_replicate⟩

/-- A nonce whose bytes are all `b`. -/
def plainNonce (b : UInt8) : Nonce := ⟨List.replicate 12 b, List.length_replicate⟩

/-- A rotation from `v1` to `v2`, both held. -/
def bothKeys : KeyRing where
  keys := [("v2", plainKey 2), ("v1", plainKey 1)]
  nonempty := by simp
  distinct := by simp

/-- A legacy record of tenant `acme` on key `v1` is first rewrapped onto `v2` and then resealed
for connection 7: the run ends, and the token is what it was. -/
theorem legacy_rotation_keeps_credential :
    ∃ final wrapping,
      rotate (Aead.symbolic UInt8) "acme" 7
          [⟨.rewrap (plainNonce 3), bothKeys⟩,
            ⟨.reseal ⟨plainKey 4, plainNonce 5, plainNonce 6⟩, bothKeys⟩]
          (legacyRecord (Aead.symbolic UInt8) ⟨plainKey 7, plainNonce 8, plainNonce 9⟩ "glpat"
            "acme" ("v1", plainKey 1), ("v1", plainKey 1)) = .ok (final, wrapping) ∧
        ∀ ring : KeyRing, wrapping ∈ ring.keys →
          final.unseal (Aead.symbolic UInt8) "acme" 7 ring = .ok "glpat" := by
  have hcommon : ∀ x ∈ ([⟨.rewrap (plainNonce 3), bothKeys⟩,
      ⟨.reseal ⟨plainKey 4, plainNonce 5, plainNonce 6⟩, bothKeys⟩] : List Turn),
      bothKeys.keys ⊆ x.ring.keys ∧ x.ring.active ∈ bothKeys.keys := by
    intro x hx
    have hring : x.ring = bothKeys := by
      simp only [List.mem_cons, List.not_mem_nil, or_false] at hx
      cases hx with
      | inl h => rw [h]
      | inr h => rw [h]
    rw [hring]
    exact ⟨List.Subset.refl _, active_mem bothKeys⟩
  exact (rotation_keeps_credential (Aead.symbolic UInt8) "glpat" "acme" 7 _ ("v1", plainKey 1)
    (legacyRecord_sealedFor _ _ _ _ _) _
    (holding_of_common _ hcommon (by simp [bothKeys]))).1

end CFactory.Credentials
