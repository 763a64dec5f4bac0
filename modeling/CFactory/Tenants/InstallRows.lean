import CFactory.Tenants.Hosts
import Mathlib.Order.CompletePartialOrder

/-!
# What a tenant does to its installs

`cards.py:753–2516`. The pending and the recorded installs under every operation of a scoped
store. Two operations add to them: one begins an install, the other records it. Every other one
leaves at most what was there.
-/

namespace CFactory.Tenants

open CFactory.Base CFactory.Model CFactory.Git

/-- What a recorded install is, whatever became of it since. -/
structure Installed where
  tenantId : String
  connectionId : Nat
  provider : Provider
  installationId : Option String
  account : Option String
  deriving DecidableEq, Repr

/-- The install of a row. -/
def installed (r : GitInstallRow) : Installed :=
  ⟨r.tenantId, r.connectionId, r.provider, r.installationId, r.account⟩

/-- The pending and the recorded installs, and the next key of a pending one, which never runs
back. -/
def installsOf (db : Database) : Set InstallStateRow × Set Installed × ℕᵒᵈ :=
  ({r | r ∈ db.access.pending}, {x | x ∈ db.access.installs.map installed},
    OrderDual.toDual db.keys.pending)

/-- The operations but the two that add to the installs. -/
def StoreOp.addsNoInstall : StoreOp → Bool
  | .startInstall _ _ _ => false
  | .recordInstall _ _ _ _ _ => false
  | _ => true

variable {A : Aead UInt8} {source : StateSource} {tenant : String}

/-! ## Transactions -/

theorem installsOf_le {db db' : Database} :
    installsOf db' ≤ installsOf db ↔ db'.access.pending ⊆ db.access.pending ∧
      db'.access.installs.map installed ⊆ db.access.installs.map installed ∧
        db.keys.pending ≤ db'.keys.pending := Iff.rfl

/-- What leaves the tables behind the hosts leaves the installs. -/
private theorem installsOf_le_of_eq {db db' : Database} (haccess : db'.access = db.access)
    (hkeys : db'.keys.pending = db.keys.pending) : installsOf db' ≤ installsOf db := by
  rw [installsOf_le, haccess, hkeys]
  exact ⟨fun _ h ↦ h, fun _ h ↦ h, le_refl _⟩

/-- A transaction behind the hosts that adds no install. -/
private theorem installs_onAccess {α : Type}
    {f : Keys → AccessTables → Except StoreError (α × AccessTables)}
    (hf : ∀ k t a t', f k t = .ok (a, t') → t'.pending ⊆ t.pending ∧
      t'.installs.map installed ⊆ t.installs.map installed) :
    Call.Reduces installsOf (onAccess f) := by
  intro db
  rcases onAccess_cases f db with ⟨e, hraised⟩ | ⟨a, t, hrun, hdone⟩
  · rw [hraised]
  · rw [hdone, installsOf_le]
    exact ⟨(hf _ _ _ _ hrun).1, (hf _ _ _ _ hrun).2, le_advance _ _⟩

/-- A transaction on the configuration tables leaves the installs. -/
private theorem installs_onGit {α : Type}
    (f : Nat → Nat → GitTables → Except GitError (α × GitTables)) :
    Call.Reduces installsOf (onGit f) := by
  apply installs_onAccess
  intro k t a t' h
  cases hrun : f (skippedTo (t.git.connections.map (·.id)) k.git.connection)
      (skippedTo (t.git.repositories.map (·.id)) k.git.repository) t.git with
  | error e =>
    rw [hrun] at h
    cases h
  | ok done =>
    rw [hrun] at h
    cases h
    exact ⟨fun _ h ↦ h, fun _ h ↦ h⟩

/-! ## Connections and repositories -/

private theorem installs_readBack {α β : Type}
    (f : Nat → Nat → GitTables → Except GitError (α × GitTables))
    (read : α → GitTables → Except GitError β) :
    Call.Reduces installsOf (onGit f >>= fun a ↦ readsGit (read a)) :=
  (installs_onGit f).bind fun _ ↦ Call.Reduces.reads _

private theorem installs_createRepository (connectionId : Nat) (body : GitRepositoryCreate) :
    Call.Reduces installsOf (createRepository tenant connectionId body) :=
  installs_readBack _ fun created g ↦ repository g tenant created

private theorem installs_updateRepository (id : Nat) (body : GitRepositoryUpdate) :
    Call.Reduces installsOf (updateRepository tenant id body) :=
  installs_readBack _ fun _ g ↦ repository g tenant id

private theorem installs_setDefaultRepository (id : Nat) :
    Call.Reduces installsOf (setDefaultRepository tenant id) :=
  installs_readBack _ fun _ g ↦ repository g tenant id

private theorem installs_setGitConfig (update : GitConfigUpdate) :
    Call.Reduces installsOf (setGitConfig tenant update) := by
  rw [setGitConfig]
  split
  · exact Call.Reduces.raise _
  · apply Call.Reduces.bind (Call.Reduces.reads _)
    intro fields
    apply (installs_onGit _).bind
    intro c
    apply Call.Reduces.bind (installs_onGit _)
    intro _
    cases fields.project with
    | none => exact installs_onGit _
    | some project =>
      apply Call.Reduces.bind (Call.Reduces.reads _)
      intro existing
      cases existing with
      | none => exact (installs_createRepository _ _).bind fun _ ↦ Call.Reduces.pure _
      | some existing =>
        apply (installs_updateRepository _ _).bind
        intro _
        exact (installs_setDefaultRepository _).bind fun _ ↦ Call.Reduces.pure _

private theorem installs_seedGitConfigFromEnv (settings : GitSettings) :
    Call.Reduces installsOf (seedGitConfigFromEnv tenant settings) := by
  apply Call.Reduces.bind (Call.Reduces.reads _)
  intro stored
  dsimp only
  split
  · exact Call.Reduces.pure _
  · exact (installs_setGitConfig _).bind fun _ ↦ Call.Reduces.reads _

private theorem installs_recordGitVerification (settings : GitSettings) (error : Option String)
    (rejected : Option Bool) (now : Time) :
    Call.Reduces installsOf (recordGitVerification tenant settings error rejected now) := by
  apply Call.Reduces.bind (Call.Reduces.reads _)
  intro stored
  have hrecord : ∀ _ : Unit, Call.Reduces installsOf (do
      let c ← defaultConnection tenant settings
      recordConnectionVerification tenant c.id error rejected now) :=
    fun _ ↦ (installs_onGit _).bind fun _ ↦ installs_onGit _
  dsimp only
  split
  · exact (installs_setGitConfig _).bind hrecord
  · exact hrecord ()

/-- The installs of a connection go with it. -/
private theorem installs_deleteConnection (id : Nat) :
    Call.Reduces installsOf (deleteConnection tenant id) := by
  apply installs_onAccess
  intro k t a t' h
  cases hg : Git.deleteConnection t.git tenant id with
  | error e =>
    rw [hg] at h
    cases h
  | ok g =>
    rw [hg] at h
    cases h
    exact ⟨List.filter_subset_self _, List.map_subset _ (List.filter_subset_self _)⟩

/-! ## Credentials -/

private theorem installs_storeSealed (id : Nat) (record : Credentials.Sealed) (now : Time) :
    Call.Reduces installsOf (storeSealed tenant id record now) := by
  apply installs_onAccess
  intro k t a t' h
  split at h
  · cases h
    exact ⟨fun _ h ↦ h, fun _ h ↦ h⟩
  · split at h
    · cases h
    · cases h
      exact ⟨fun _ h ↦ h, fun _ h ↦ h⟩

private theorem installs_setConnectionCredential (id : Nat) (secret : String)
    (keyring : Option Credentials.KeyRing) (fresh : Credentials.Randomness) (now : Time) :
    Call.Reduces installsOf (setConnectionCredential A tenant id secret keyring fresh now) := by
  apply Call.Reduces.bind (Call.Reduces.reads _)
  intro _
  split
  · exact Call.Reduces.raise _
  · split
    · exact Call.Reduces.raise _
    · next ring =>
      apply Call.Reduces.bind (installs_storeSealed id _ now)
      intro _
      exact Call.Reduces.bind (installs_onGit _) fun _ ↦ Call.Reduces.pure _

/-- The secret of an install is kept with the credentials. -/
theorem installs_storeInstallSecret (id : Nat) (secret : String)
    (keyring : Option Credentials.KeyRing) (fresh : Credentials.Randomness) (now : Time) :
    Call.Reduces installsOf (storeInstallSecret A tenant id secret keyring fresh now) :=
  (installs_setConnectionCredential id secret keyring fresh now).bind fun _ ↦
    Call.Reduces.pure _

private theorem installs_clearConnectionCredential (id : Nat) :
    Call.Reduces installsOf (clearConnectionCredential tenant id) := by
  apply installs_onAccess
  intro k t a t' h
  cases hc : connection t.git tenant id with
  | error e =>
    rw [hc] at h
    cases h
  | ok c =>
    rw [hc] at h
    cases hrow : credentialRow t tenant id with
    | none =>
      rw [hrow] at h
      cases h
      exact ⟨fun _ h ↦ h, fun _ h ↦ h⟩
    | some row =>
      rw [hrow] at h
      cases h
      exact ⟨fun _ h ↦ h, fun _ h ↦ h⟩

private theorem installs_clearGitCredential :
    Call.Reduces installsOf (clearGitCredential tenant) := by
  apply Call.Reduces.bind (Call.Reduces.reads _)
  intro c
  cases c with
  | none => exact Call.Reduces.pure _
  | some c => exact installs_clearConnectionCredential c.id

private theorem installs_resealing {id : Nat}
    {store : Option Credentials.Sealed → StoreCall Unit} {now : Time}
    (hnone : store none = pure ())
    (hsome : ∀ record, store (some record) = storeSealed tenant id record now)
    (x : Except Credentials.CredentialError (Option Credentials.Sealed)) :
    Call.Reduces installsOf (sealing x >>= store) := by
  apply Call.Reduces.bind (Call.Reduces.reads _)
  intro resealed
  cases resealed with
  | none =>
    rw [hnone]
    exact Call.Reduces.pure _
  | some record =>
    rw [hsome]
    exact installs_storeSealed id record now

private theorem installs_migrateSealed (id : Nat) (row : Credentials.Sealed)
    (ring : Credentials.KeyRing) (wrapNonce : Credentials.Nonce) (fresh : Credentials.Randomness)
    (now : Time) :
    Call.Reduces installsOf (migrateSealed A tenant id row ring wrapNonce fresh now) := by
  apply Call.Reduces.catching
  · apply Call.Reduces.bind (Call.Reduces.reads _)
    intro rewrapped
    cases rewrapped with
    | none => exact installs_resealing rfl (fun _ ↦ rfl) _
    | some rewrapped =>
      apply (installs_storeSealed id rewrapped now).bind
      exact fun _ ↦ installs_resealing rfl (fun _ ↦ rfl) _
  · intro e
    split
    · split
      · exact Call.Reduces.pure _
      · exact Call.Reduces.raise _
    · exact Call.Reduces.raise _

private theorem installs_fetchCredential (id : Nat) (keyring : Option Credentials.KeyRing)
    (wrapNonce : Credentials.Nonce) (fresh : Credentials.Randomness) (now : Time) :
    Call.Reduces installsOf (fetchCredential A tenant id keyring wrapNonce fresh now) := by
  apply Call.Reduces.bind (Call.Reduces.reads _)
  intro row
  split
  · next row ring =>
    split
    · split
      · exact Call.Reduces.pure _
      · exact Call.Reduces.raise _
    · apply Call.Reduces.bind (installs_migrateSealed id row.record ring wrapNonce fresh now)
      exact fun _ ↦ Call.Reduces.pure _
  · exact Call.Reduces.pure _

/-! ## Installs -/

/-- What became of an install does not change what it is. -/
private theorem installs_patchInstall (id : Nat) (status : InstallStatus)
    (error : Option String) (now : Time) :
    Call.Reduces installsOf (patchInstall tenant id status error now) := by
  apply installs_onAccess
  intro k t a t' h
  split at h
  · cases h
    exact ⟨fun _ h ↦ h, fun _ h ↦ h⟩
  · cases h
    refine ⟨fun _ h ↦ h, ?_⟩
    rw [List.map_map]
    apply List.Perm.subset
    apply List.Perm.of_eq
    apply List.map_congr_left
    intro r _
    rw [Function.comp_apply]
    split
    · rfl
    · rfl

private theorem installs_recoverInstall (id : Nat) (now : Time) :
    Call.Reduces installsOf (recoverInstall tenant id now) := by
  apply Call.Reduces.bind (Call.Reduces.reads _)
  intro row
  split
  · exact installs_patchInstall id _ _ now
  · exact Call.Reduces.pure _

private theorem installs_deleteInstall (id : Nat) :
    Call.Reduces installsOf (deleteInstall tenant id) := by
  apply Call.Reduces.bind
  · apply installs_onAccess
    intro k t a t' h
    cases hc : connection t.git tenant id with
    | error e =>
      rw [hc] at h
      cases h
    | ok c =>
      rw [hc] at h
      cases hrow : installRow t tenant id with
      | none =>
        rw [hrow] at h
        cases h
        exact ⟨fun _ hr ↦ hr, fun _ hr ↦ hr⟩
      | some row =>
        rw [hrow] at h
        cases h
        exact ⟨fun _ hr ↦ hr, List.map_subset _ (List.filter_subset_self _)⟩
  · intro was
    split
    · exact Call.Reduces.pure _
    · exact (installs_clearConnectionCredential id).bind fun _ ↦ Call.Reduces.pure _

/-! ## Every operation -/

/-- Every operation but two leaves at most the installs there were. -/
theorem installs_perform (tenant : Tenant) (o : StoreOp) (ho : o.addsNoInstall = true) :
    Call.Reduces installsOf (perform A source tenant o) := by
  cases o with
  | deleteConnection id => exact installs_deleteConnection id
  | deleteInstall id => exact installs_deleteInstall id
  | startInstall id redirectUri now => cases ho
  | recordInstall id provider installationId account now => cases ho
  | create data now =>
    apply Call.Reduces.transact
    intro db a db' h
    cases hcreate : createAt db.keys.card db.cards (some tenant.name) data now with
    | error e =>
      rw [hcreate] at h
      cases h
    | ok done =>
      rw [hcreate] at h
      cases h
      exact installsOf_le_of_eq rfl rfl
  | update key changes now =>
    apply Call.Reduces.transact
    intro db a db' h
    cases hupdate : Cards.updateCard db.cards (some tenant.name) key changes now with
    | error e =>
      rw [hupdate] at h
      cases h
    | ok done =>
      rw [hupdate] at h
      cases h
      exact installsOf_le_of_eq rfl rfl
  | updateStages key changes now =>
    exact fun _ ↦ installsOf_le_of_eq rfl rfl
  | delete key now => exact fun _ ↦ installsOf_le_of_eq rfl rfl
  | storeComments key thread syncedAt =>
    apply Call.Reduces.transact
    intro db a db' h
    split at h
    · cases h
      exact installsOf_le_of_eq rfl rfl
    · cases h
  | createConnection body =>
    exact (installs_onGit fun skipped _ g ↦
      Git.createConnection g tenant.name skipped body)
  | updateConnection id body => exact installs_onGit _
  | createRepository connectionId body =>
    exact installs_createRepository connectionId body
  | updateRepository id body => exact installs_updateRepository id body
  | deleteRepository id => exact installs_onGit _
  | setDefaultRepository id => exact installs_setDefaultRepository id
  | seedGitConfigFromEnv settings =>
    exact installs_seedGitConfigFromEnv settings
  | setGitConfig update => exact installs_setGitConfig update
  | recordConnectionVerification id error rejected now =>
    exact installs_onGit _
  | recordGitVerification settings error rejected now =>
    exact installs_recordGitVerification settings error rejected now
  | fetch id keyring wrapNonce fresh now =>
    exact installs_fetchCredential id keyring wrapNonce fresh now
  | setConnectionCredential id secret keyring fresh now =>
    exact installs_setConnectionCredential id secret keyring fresh now
  | setGitCredential secret settings fresh now =>
    apply Call.Reduces.bind (installs_onGit _)
    intro c
    exact installs_setConnectionCredential c.id secret settings.keyring fresh now
  | storeInstallSecret id secret keyring fresh now =>
    exact installs_storeInstallSecret id secret keyring fresh now
  | clearConnectionCredential id => exact installs_clearConnectionCredential id
  | clearGitCredential => exact installs_clearGitCredential
  | degradeInstall id reason now => exact installs_patchInstall id _ _ now
  | recoverInstall id now => exact installs_recoverInstall id now
  | setWatermark project when => exact fun _ ↦ installsOf_le_of_eq rfl rfl
  | markPolled project when => exact fun _ ↦ installsOf_le_of_eq rfl rfl
  | claimImportLease project ttl now => exact fun _ ↦ installsOf_le_of_eq rfl rfl
  | _ => exact Call.Reduces.reads _

end CFactory.Tenants
