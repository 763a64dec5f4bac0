import CFactory.Base.Callers
import CFactory.Credentials.Binding
import CFactory.Git.Config

/-!
# Migrating a credential on read

`cards.py:1744–1954`. Reads of one connection's credential beside writes and removals of it.
A read loads the row, unseals it, and stores it again rewrapped and then resealed where that
has anything to do, each in a transaction of its own; `set_connection_credential` stores a new
record and `clear_connection_credential` deletes the row. Every transaction is one step.
-/

namespace CFactory.Credentials

open CFactory.Base CFactory.Git

/-! ## The transactions -/

/-- The errors `except CredentialError` catches; the others are plain `ValueError`s. -/
def CredentialError.caught : CredentialError → Bool
  | .keySize _ => false
  | .notText => false
  | _ => true

/-- The connection's row, the secret of the last committed write (none after a removal), and
how many writes and removals have been committed. -/
structure CredentialStore where
  record : Option Sealed
  latest : Option String
  commits : Nat
  deriving DecidableEq

/-- Where a call stands between its transactions. `seen` is the count of commits when the row
was read. -/
inductive CredentialCall where
  /-- `_fetch_credential` with the key ring of its process, if it has a usable one. -/
  | fetch (ring : Option KeyRing) (wrapNonce : Nonce) (fresh : Randomness)
  | rewrapped (seen : Nat) (secret : String) (record : Sealed) (ring : KeyRing)
      (fresh : Randomness)
  | resealed (seen : Nat) (secret : String) (record : Sealed)
  | fetched (secret : Option String)
  /-- `set_connection_credential`. -/
  | set (secret : String) (ring : Option KeyRing) (fresh : Randomness)
  | stored
  /-- `clear_connection_credential`. -/
  | clear
  | cleared (was : Bool)
  | raised

section

variable {ι : Type} (A : Aead UInt8) (tenant : String) (connection : Nat)

/-- The second half of `_migrate_sealed` on the record it holds; `cards.py:1810–1826`. -/
def migrateReseal (seen : Nat) (secret : String) (current : Sealed) (ring : KeyRing)
    (fresh : Randomness) : CredentialCall :=
  match current.reseal A fresh tenant connection ring with
  | .ok (some record) => .resealed seen secret record
  | .ok none => .fetched (some secret)
  | .error e => if e.caught then .fetched (some secret) else .raised

/-- `_fetch_credential` and the first half of `_migrate_sealed`, on the row that was read;
`cards.py:1744–1782`. -/
def fetchRow (seen : Nat) (row : Sealed) (ring : KeyRing) (wrapNonce : Nonce)
    (fresh : Randomness) : CredentialCall :=
  match row.unseal A tenant connection ring with
  | .error e => if e.caught then .fetched none else .raised
  | .ok secret =>
    match row.rewrap A wrapNonce tenant connection ring with
    | .ok (some record) => .rewrapped seen secret record ring fresh
    | .ok none => migrateReseal A tenant connection seen secret row ring fresh
    | .error e => if e.caught then .fetched (some secret) else .raised

/-- The next transaction of a call; `cards.py:1744–1954`. -/
def credentialNext (_ : ι) (_ : Unit) :
    CredentialCall → CredentialStore → CredentialCall × CredentialStore
  | .fetch ring wrapNonce fresh, s =>
    match s.record with
    | none => (.fetched none, s)
    | some row =>
      match ring with
      | none => (.fetched none, s)
      | some ring => (fetchRow A tenant connection s.commits row ring wrapNonce fresh, s)
  | .rewrapped seen secret record ring fresh, s =>
    (migrateReseal A tenant connection seen secret record ring fresh,
      { s with record := some record })
  | .resealed _ secret record, s => (.fetched (some secret), { s with record := some record })
  | .set secret ring fresh, s =>
    match ring with
    | none => (.raised, s)
    | some ring =>
      if stripped (some secret) = "" then (.raised, s)
      else
        (.stored,
          { record := some
              (Sealed.seal A fresh (stripped (some secret)) tenant connection ring)
            latest := some (stripped (some secret))
            commits := s.commits + 1 })
  | .clear, s =>
    (.cleared s.record.isSome, { record := none, latest := none, commits := s.commits + 1 })
  | .fetched secret, s => (.fetched secret, s)
  | .stored, s => (.stored, s)
  | .cleared was, s => (.cleared was, s)
  | .raised, s => (.raised, s)

/-- The call has not performed a transaction yet. -/
def CredentialCall.Begins : CredentialCall → Prop
  | .fetch _ _ _ => True
  | .set _ _ _ => True
  | .clear => True
  | _ => False

/-- The call has a record to store that it derived from the row it read. -/
def CredentialCall.Migrates : CredentialCall → Option Nat
  | .rewrapped seen _ _ _ _ => some seen
  | .resealed seen _ _ => some seen
  | _ => none

/-- The step does not store a record derived from a row that a write or removal committed
since has replaced. -/
def Undisturbed (c : Callers ι CredentialCall CredentialStore) (e : ι × Unit) : Prop :=
  ∀ seen, (c.pc e.1).Migrates = some seen → seen = c.shared.commits

/-- The stored record unseals to the secret of the last committed write, under every ring that
holds the key wrapping it, and after a removal there is none. -/
structure LatestWins (c : Callers ι CredentialCall CredentialStore) : Prop where
  removed : c.shared.latest = none → c.shared.record = none
  unseals : ∀ secret, c.shared.latest = some secret → ∃ record kek,
    c.shared.record = some record ∧
      ∀ ring : KeyRing, kek ∈ ring.keys → record.unseal A tenant connection ring = .ok secret

/-- The row is a record of the latest secret, or there is neither. -/
def Stored (s : CredentialStore) : Prop :=
  match s.latest with
  | none => s.record = none
  | some secret => ∃ record kek, s.record = some record ∧
      SealedFor A secret tenant connection kek record

end

/-! ## One transaction -/

section

variable {ι : Type} {A : Aead UInt8} {tenant : String} {connection : Nat}

/-- What a call that will store a migrated record knows: unless a write has been committed
since its read, the record is one of the latest secret. -/
def Derived (A : Aead UInt8) (tenant : String) (connection : Nat) (k : CredentialCall)
    (s : CredentialStore) : Prop :=
  match k with
  | .rewrapped seen secret record ring _ => seen ≤ s.commits ∧
      (seen = s.commits → s.latest = some secret ∧ ∃ kek ∈ ring.keys,
        SealedFor A secret tenant connection kek record)
  | .resealed seen secret record => seen ≤ s.commits ∧
      (seen = s.commits → s.latest = some secret ∧ ∃ kek,
        SealedFor A secret tenant connection kek record)
  | _ => True

/-- What was derived stays a record of the latest secret while nothing is committed, and is
known to be stale once something is. -/
theorem Derived.stable {k : CredentialCall} {s s' : CredentialStore}
    (h : Derived A tenant connection k s)
    (hs : s'.commits = s.commits + 1 ∨ s'.commits = s.commits ∧ s'.latest = s.latest) :
    Derived A tenant connection k s' := by
  cases hs with
  | inl hcommit =>
    cases k with
    | rewrapped seen secret record ring fresh =>
      have hle : seen ≤ s.commits := h.1
      exact ⟨by omega, fun hseen ↦ by omega⟩
    | resealed seen secret record =>
      have hle : seen ≤ s.commits := h.1
      exact ⟨by omega, fun hseen ↦ by omega⟩
    | _ => trivial
  | inr hquiet =>
    obtain ⟨hcommits, hlatest⟩ := hquiet
    cases k with
    | rewrapped seen secret record ring fresh =>
      rw [Derived, hcommits, hlatest]
      exact h
    | resealed seen secret record =>
      rw [Derived, hcommits, hlatest]
      exact h
    | _ => trivial

/-- The second half of a migration turns a record of the latest secret into another one, or
leaves it. -/
theorem derived_migrateReseal {s : CredentialStore} {secret : String} {record : Sealed}
    {ring : KeyRing} {kek : String × Key}
    (hsealed : SealedFor A secret tenant connection kek record)
    (hmem : kek ∈ ring.keys) (hlatest : s.latest = some secret) (fresh : Randomness) :
    Derived A tenant connection
      (migrateReseal A tenant connection s.commits secret record ring fresh) s := by
  unfold migrateReseal
  cases hsealed.reseal hmem fresh with
  | inl hnone =>
    rw [hnone]
    trivial
  | inr hsome =>
    obtain ⟨resealed, hresealed, hkept⟩ := hsome
    rw [hresealed]
    exact ⟨le_refl _, fun _ ↦ ⟨hlatest, ring.active, hkept⟩⟩

/-- A ring that unseals a record holds the key that wraps it, and gives its secret. -/
theorem SealedFor.of_unseal {secret secret' : String} {kek : String × Key} {record : Sealed}
    (h : SealedFor A secret tenant connection kek record) {ring : KeyRing}
    (hunseal : record.unseal A tenant connection ring = .ok secret') :
    kek ∈ ring.keys ∧ secret' = secret := by
  have hmem : kek ∈ ring.keys := by
    obtain ⟨dek, wrapNonce, nonce, hwrapped, -⟩ := h.layers
    cases hunwrap : record.unwrapDek A tenant connection ring with
    | error e => rw [Sealed.unseal, hunwrap] at hunseal; cases hunseal
    | ok key =>
      rw [Sealed.unwrapDek, h.keyVersion] at hunwrap
      split at hunwrap
      · cases hunwrap
      · next found hfound =>
        rw [hwrapped] at hunwrap
        have hkey : found = kek.2 := Subtype.ext (decrypt_encrypt_ok A hunwrap).1
        obtain ⟨entry, hentry, hmaterial⟩ := Option.map_eq_some_iff.mp hfound
        have hid : entry.1 = kek.1 := by simpa using List.find?_some hentry
        have hentryMem := List.mem_of_find?_eq_some hentry
        rwa [Prod.ext hid (hmaterial.trans hkey)] at hentryMem
  exact ⟨hmem, Except.ok.inj (hunseal.symm.trans (h.unseal hmem))⟩

/-- What a read derives from the row it has just read is of the latest secret. -/
theorem derived_fetchRow {s : CredentialStore} (hstored : Stored A tenant connection s)
    {row : Sealed} (hrow : s.record = some row) (ring : KeyRing) (wrapNonce : Nonce)
    (fresh : Randomness) :
    Derived A tenant connection
      (fetchRow A tenant connection s.commits row ring wrapNonce fresh) s := by
  unfold fetchRow
  split
  · split <;> trivial
  · next secret hunseal =>
    cases hlatest : s.latest with
    | none =>
      rw [Stored, hlatest, hrow] at hstored
      cases hstored
    | some latest =>
      rw [Stored, hlatest] at hstored
      obtain ⟨record, kek, hrecord, hsealed⟩ := hstored
      cases hrow.symm.trans hrecord
      obtain ⟨hmem, rfl⟩ := hsealed.of_unseal hunseal
      cases hsealed.rewrap hmem wrapNonce with
      | inl hnone =>
        rw [hnone]
        exact derived_migrateReseal hsealed hmem hlatest fresh
      | inr hsome =>
        obtain ⟨rewrapped, hrewrapped, hkept⟩ := hsome
        rw [hrewrapped]
        exact ⟨le_refl _, fun _ ↦ ⟨hlatest, ring.active, active_mem ring, hkept⟩⟩

/-- What a transaction leaves of the row and of what its own call holds; for every other call
it either commits a write or leaves the latest secret. -/
structure Kept (A : Aead UInt8) (tenant : String) (connection : Nat) (k' : CredentialCall)
    (s s' : CredentialStore) : Prop where
  stored : Stored A tenant connection s'
  derived : Derived A tenant connection k' s'
  others : s'.commits = s.commits + 1 ∨ s'.commits = s.commits ∧ s'.latest = s.latest

/-- Every transaction that stores nothing stale keeps the row of the latest secret. -/
theorem kept_credentialNext (i : ι) {k : CredentialCall} {s : CredentialStore}
    (hstored : Stored A tenant connection s) (hderived : Derived A tenant connection k s)
    (hfresh : ∀ seen, k.Migrates = some seen → seen = s.commits) :
    Kept A tenant connection (credentialNext A tenant connection i () k s).1 s
      (credentialNext A tenant connection i () k s).2 := by
  cases k with
  | fetch ring wrapNonce fresh =>
    rw [credentialNext]
    split
    · exact ⟨hstored, trivial, .inr ⟨rfl, rfl⟩⟩
    · next row hrow =>
      cases ring with
      | none => exact ⟨hstored, trivial, .inr ⟨rfl, rfl⟩⟩
      | some ring =>
        exact ⟨hstored, derived_fetchRow hstored hrow ring wrapNonce fresh, .inr ⟨rfl, rfl⟩⟩
  | rewrapped seen secret record ring fresh =>
    obtain rfl := hfresh seen rfl
    obtain ⟨hlatest, kek, hmem, hsealed⟩ := hderived.2 rfl
    refine ⟨?_, derived_migrateReseal hsealed hmem hlatest fresh, .inr ⟨rfl, rfl⟩⟩
    rw [Stored, credentialNext, hlatest]
    exact ⟨record, kek, rfl, hsealed⟩
  | resealed seen secret record =>
    obtain rfl := hfresh seen rfl
    obtain ⟨hlatest, kek, hsealed⟩ := hderived.2 rfl
    refine ⟨?_, trivial, .inr ⟨rfl, rfl⟩⟩
    rw [Stored, credentialNext, hlatest]
    exact ⟨record, kek, rfl, hsealed⟩
  | fetched secret => exact ⟨hstored, trivial, .inr ⟨rfl, rfl⟩⟩
  | set secret ring fresh =>
    cases ring with
    | none => exact ⟨hstored, trivial, .inr ⟨rfl, rfl⟩⟩
    | some ring =>
      rw [credentialNext]
      split
      · exact ⟨hstored, trivial, .inr ⟨rfl, rfl⟩⟩
      · exact ⟨⟨_, ring.active, rfl, seal_sealedFor fresh _ tenant connection ring⟩, trivial,
          .inl rfl⟩
  | stored => exact ⟨hstored, trivial, .inr ⟨rfl, rfl⟩⟩
  | clear => exact ⟨rfl, trivial, .inl rfl⟩
  | cleared was => exact ⟨hstored, trivial, .inr ⟨rfl, rfl⟩⟩
  | raised => exact ⟨hstored, trivial, .inr ⟨rfl, rfl⟩⟩

/-! ## Whole runs -/

/-- A row of the latest secret unseals to it. -/
theorem latestWins_of_stored {c : Callers ι CredentialCall CredentialStore}
    (h : Stored A tenant connection c.shared) : LatestWins A tenant connection c := by
  constructor
  · intro hnone
    rwa [Stored, hnone] at h
  · intro secret hsome
    rw [Stored, hsome] at h
    obtain ⟨record, kek, hrecord, hsealed⟩ := h
    exact ⟨record, kek, hrecord, fun ring hring ↦ hsealed.unseal hring⟩

variable [DecidableEq ι]

/-- A step that stores nothing stale keeps the row, and what every call derived from it. -/
theorem stored_step {c : Callers ι CredentialCall CredentialStore}
    (hstored : Stored A tenant connection c.shared)
    (hderived : c.Holds (Derived A tenant connection) fun _ _ _ ↦ True) (e : ι × Unit)
    (hfresh : Undisturbed c e) :
    Stored A tenant connection (c.step (credentialNext A tenant connection) e).shared ∧
      (c.step (credentialNext A tenant connection) e).Holds (Derived A tenant connection)
        fun _ _ _ ↦ True := by
  obtain ⟨i, u⟩ := e
  have hkept := kept_credentialNext i hstored (hderived.each i) hfresh
  exact ⟨hkept.stored, Callers.Holds.step hkept.derived
    (fun j _ ↦ (hderived.each j).stable hkept.others) (fun _ _ ↦ trivial) (fun _ _ ↦ trivial)
    (fun _ _ _ _ _ ↦ trivial)⟩

end

/-- Replacing and removing a credential win over the migrations of concurrent reads in every
run in which no read stores a migrated record after a write or a removal committed since it
read the row: then in every state the stored record unseals to the secret of the last committed
write, and after a removal there is none. -/
theorem latest_wins_of_undisturbed {ι : Type} [DecidableEq ι] (A : Aead UInt8)
    (tenant : String) (connection : Nat) (c : Callers ι CredentialCall CredentialStore)
    (hbegin : ∀ i, (c.pc i).Begins) (hstored : Stored A tenant connection c.shared)
    (steps : List (ι × Unit))
    (hsteps : EachStep (Callers.step (credentialNext A tenant connection)) Undisturbed c steps) :
    Throughout (Callers.step (credentialNext A tenant connection))
      (LatestWins A tenant connection) c steps := by
  have hderived : c.Holds (Derived A tenant connection) fun _ _ _ ↦ True := by
    refine ⟨fun i ↦ ?_, fun _ _ _ ↦ trivial⟩
    have hi := hbegin i
    cases hk : c.pc i with
    | rewrapped seen secret record ring fresh => rw [hk] at hi; exact hi.elim
    | resealed seen secret record => rw [hk] at hi; exact hi.elim
    | _ => trivial
  have hrun := throughout_of_step
    (P := fun d ↦ Stored A tenant connection d.shared ∧
      d.Holds (Derived A tenant connection) fun _ _ _ ↦ True)
    (fun d e hd hno ↦ stored_step hd.1 hd.2 e hno) ⟨hstored, hderived⟩ hsteps
  exact hrun.imp fun d hd ↦ latestWins_of_stored hd.1

/-- A read of a record on another key than the active one goes on to store it rewrapped. -/
theorem fetchRow_rewrapped {A : Aead UInt8} {secret tenant : String} {connection : Nat}
    {kek : String × Key} {row : Sealed} (h : SealedFor A secret tenant connection kek row)
    {ring : KeyRing} (hmem : kek ∈ ring.keys) (hkey : row.keyVersion ≠ ring.active.1)
    (seen : Nat) (wrapNonce : Nonce) (fresh : Randomness) :
    ∃ record, fetchRow A tenant connection seen row ring wrapNonce fresh =
        .rewrapped seen secret record ring fresh ∧ record.aadVersion = row.aadVersion := by
  cases h.rewrap hmem wrapNonce with
  | inl hnone =>
    have hnot := hnone
    rw [Sealed.rewrap, if_neg hkey] at hnot
    split at hnot <;> cases hnot
  | inr hsome =>
    obtain ⟨record, hrecord, -⟩ := hsome
    exact ⟨record, by simp only [fetchRow, h.unseal hmem, hrecord], (rewrap_keeps hrecord).2⟩

/-- The call has performed its last transaction. -/
def CredentialCall.Finished : CredentialCall → Prop
  | .fetched _ => True
  | .stored => True
  | .cleared _ => True
  | .raised => True
  | _ => False

/-- A read that loaded a row on another key than the active one before the row was removed
stores the credential again, and both calls are finished. -/
theorem stale_store_returns {ι : Type} [DecidableEq ι] {A : Aead UInt8} {secret tenant : String}
    {connection : Nat} {kek : String × Key} {row : Sealed}
    (h : SealedFor A secret tenant connection kek row)
    (hcurrent : row.aadVersion = currentAadVersion) {ring : KeyRing} (hmem : kek ∈ ring.keys)
    (hkey : row.keyVersion ≠ ring.active.1) {wrapNonce : Nonce} {fresh : Randomness}
    {c : Callers ι CredentialCall CredentialStore} {i j : ι} (hij : i ≠ j)
    (hi : c.pc i = .fetch (some ring) wrapNonce fresh) (hj : c.pc j = .clear)
    (hrow : c.shared.record = some row) :
    ∃ record, c.run (credentialNext A tenant connection) [(i, ()), (j, ()), (i, ())] =
      ⟨Function.update (Function.update c.pc j (.cleared true)) i (.fetched (some secret)),
        ⟨some record, none, c.shared.commits + 1⟩⟩ := by
  obtain ⟨record, hfetch, hversion⟩ :=
    fetchRow_rewrapped h hmem hkey c.shared.commits wrapNonce fresh
  have hreseal : migrateReseal A tenant connection c.shared.commits secret record ring fresh =
      .fetched (some secret) := by
    rw [migrateReseal, Sealed.reseal, if_pos (hversion.trans hcurrent)]
  have hread : c.step (credentialNext A tenant connection) (i, ()) =
      ⟨Function.update c.pc i (.rewrapped c.shared.commits secret record ring fresh),
        c.shared⟩ := by
    simp only [Callers.step, hi, credentialNext, hrow, hfetch]
  have hclear : Callers.step (credentialNext A tenant connection)
      ⟨Function.update c.pc i (.rewrapped c.shared.commits secret record ring fresh), c.shared⟩
        (j, ()) =
      ⟨Function.update (Function.update c.pc i
          (.rewrapped c.shared.commits secret record ring fresh)) j (.cleared true),
        ⟨none, none, c.shared.commits + 1⟩⟩ := by
    simp only [Callers.step, Function.update_of_ne (Ne.symm hij), hj, credentialNext, hrow,
      Option.isSome_some]
  refine ⟨record, ?_⟩
  rw [Callers.run_cons, hread, Callers.run_cons, hclear, Callers.run_cons, Callers.run_nil]
  simp only [Callers.step, Function.update_of_ne hij, Function.update_self, credentialNext,
    hreseal, Function.update_comm hij, Function.update_idem]

/-- A record of tenant `acme` for connection 7 on key `v1`, a read of it in a process whose
active key is `v2`, and its removal. -/
def readAndRemoval : Callers Bool CredentialCall CredentialStore where
  pc
    | true => .fetch (some bothKeys) (plainNonce 3) ⟨plainKey 4, plainNonce 5, plainNonce 6⟩
    | false => .clear
  shared :=
    { record := some (Sealed.seal (Aead.symbolic UInt8) ⟨plainKey 7, plainNonce 8, plainNonce 9⟩
        "glpat" "acme" 7 (KeyRing.single ("v1", plainKey 1)))
      latest := some "glpat"
      commits := 0 }

/-- Before they run the stored record is the one of the latest secret. -/
theorem readAndRemoval_stored : Stored (Aead.symbolic UInt8) "acme" 7 readAndRemoval.shared :=
  ⟨_, _, rfl, seal_sealedFor ⟨plainKey 7, plainNonce 8, plainNonce 9⟩ "glpat" "acme" 7
    (KeyRing.single ("v1", plainKey 1))⟩

/-- A removal before the read leaves no record. -/
theorem removal_before_read :
    LatestWins (Aead.symbolic UInt8) "acme" 7
      (readAndRemoval.run (credentialNext (Aead.symbolic UInt8) "acme" 7)
        [(false, ()), (true, ())]) :=
  (latest_wins_of_undisturbed (Aead.symbolic UInt8) "acme" 7 readAndRemoval
    (fun i ↦ by cases i <;> trivial) readAndRemoval_stored [(false, ()), (true, ())]
    ⟨nofun, fun seen h ↦ absurd h (by rw [Callers.pc_step_other _ _ _ (by decide)]; exact nofun),
      trivial⟩).last

/-- A read that loaded the row before the credential was removed stores it again. -/
theorem removed_credential_returns :
    ¬ ∀ steps : List (Bool × Unit),
      (∀ i, ((readAndRemoval.run (credentialNext (Aead.symbolic UInt8) "acme" 7) steps).pc
        i).Finished) →
        LatestWins (Aead.symbolic UInt8) "acme" 7
          (readAndRemoval.run (credentialNext (Aead.symbolic UInt8) "acme" 7) steps) := by
  intro hall
  have hsealed := seal_sealedFor (A := Aead.symbolic UInt8)
    ⟨plainKey 7, plainNonce 8, plainNonce 9⟩ "glpat" "acme" 7 (KeyRing.single ("v1", plainKey 1))
  have hmem : (KeyRing.single ("v1", plainKey 1)).active ∈ bothKeys.keys := by
    simp [bothKeys, KeyRing.single, KeyRing.active]
  obtain ⟨record, hrun⟩ := stale_store_returns (c := readAndRemoval) hsealed rfl hmem (by decide)
    (show true ≠ false by decide) rfl rfl rfl
  have hfinished : ∀ i, ((readAndRemoval.run (credentialNext (Aead.symbolic UInt8) "acme" 7)
      [(true, ()), (false, ()), (true, ())]).pc i).Finished := by
    intro i
    rw [hrun]
    cases i with
    | true => exact True.intro
    | false => exact True.intro
  have hwins := hall _ hfinished
  rw [hrun] at hwins
  cases hwins.removed rfl

end CFactory.Credentials
