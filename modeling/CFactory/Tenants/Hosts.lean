import CFactory.Git.Transactions
import CFactory.Tenants.Isolation

/-!
# Where connections point

`cards.py:1076–1168,1470–1599,2107–2160`. What each operation of a store does to the provider and
host of a connection and to the provider its install is for.
-/

namespace CFactory.Tenants

open CFactory.Base CFactory.Model CFactory.Git

/-- The providers that the installs on a connection are for. -/
def installedFor (t : AccessTables) (tenant : String) (id : Nat) : List Provider :=
  (t.installs.filter fun r ↦ r.connectionId == id && r.tenantId == tenant).map (·.provider)

/-- Where the connections of every tenant point, and for which providers they are installed. -/
@[ext] structure Pointers where
  host : String → Nat → Option (Provider × String)
  installs : String → Nat → List Provider

/-- Those of the tables. -/
def pointers (db : Database) : Pointers where
  host tenant id := (connectionOrNone db.access.git tenant id).map fun c ↦ (c.provider, c.baseUrl)
  installs := installedFor db.access

variable {tenant : String} {db : Database}

/-- A connection changed in place is found where it was. -/
theorem connectionOrNone_modifyConnection {f : GitConnectionRow → GitConnectionRow}
    (hf : ∀ c, (f c).id = c.id ∧ (f c).tenantId = c.tenantId) (g : GitTables) (k : Nat)
    (tenant : String) (id : Nat) :
    connectionOrNone (modifyConnection g k f) tenant id =
      (connectionOrNone g tenant id).map fun c ↦ if c.id = k then f c else c := by
  rw [connectionOrNone, modifyConnection, List.find?_map, connectionOrNone]
  congr 2
  funext c
  rw [Function.comp_apply]
  split
  · rw [(hf c).1, (hf c).2]
  · rfl

/-- The installs on a connection are for what they were for. -/
theorem mem_installedFor {t : AccessTables} {tenant : String} {id : Nat} {provider : Provider} :
    provider ∈ installedFor t tenant id ↔ ∃ r ∈ t.installs, r.connectionId = id ∧
      r.tenantId = tenant ∧ r.provider = provider := by
  rw [installedFor, List.mem_map]
  constructor
  · rintro ⟨r, hr, hprovider⟩
    obtain ⟨hmem, hmatch⟩ := List.mem_filter.mp hr
    rw [Bool.and_eq_true, beq_iff_eq, beq_iff_eq] at hmatch
    exact ⟨r, hmem, hmatch.1, hmatch.2, hprovider⟩
  · rintro ⟨r, hmem, hid, htenant, hprovider⟩
    refine ⟨r, List.mem_filter.mpr ⟨hmem, ?_⟩, hprovider⟩
    rw [hid, htenant, beq_self_eq_true, beq_self_eq_true]
    rfl

/-- The install that is found is one of them. -/
theorem installedFor_of_installRow {t : AccessTables} {tenant : String} {id : Nat}
    {row : GitInstallRow} (h : installRow t tenant id = some row) :
    row.provider ∈ installedFor t tenant id := by
  obtain ⟨hmem, hid, htenant⟩ := installRow_spec h
  exact mem_installedFor.mpr ⟨row, hmem, hid, htenant, rfl⟩

/-- Where there is one, an install is found. -/
theorem installRow_isSome {t : AccessTables} {tenant : String} {id : Nat} {provider : Provider}
    (h : provider ∈ installedFor t tenant id) : (installRow t tenant id).isSome := by
  obtain ⟨r, hmem, hid, htenant, -⟩ := mem_installedFor.mp h
  rw [installRow, List.find?_isSome]
  exact ⟨r, hmem, by rw [hid, htenant, beq_self_eq_true, beq_self_eq_true]; rfl⟩

/-- Installs changed in place for the same providers. -/
theorem installedFor_map {f : GitInstallRow → GitInstallRow}
    (hf : ∀ r, (f r).connectionId = r.connectionId ∧ (f r).tenantId = r.tenantId ∧
      (f r).provider = r.provider) (t : AccessTables) (tenant : String) (id : Nat) :
    installedFor { t with installs := t.installs.map f } tenant id = installedFor t tenant id := by
  rw [installedFor, List.filter_map, List.map_map, installedFor]
  have hmatch : ((fun r : GitInstallRow ↦ r.connectionId == id && r.tenantId == tenant) ∘ f) =
      fun r ↦ r.connectionId == id && r.tenantId == tenant := by
    funext r
    rw [Function.comp_apply, (hf r).1, (hf r).2.1]
  rw [hmatch]
  exact List.map_congr_left fun r _ ↦ (hf r).2.2

/-! ## Transactions -/

/-- A transaction behind the hosts raises and writes nothing, or writes what its function
gives. -/
theorem onAccess_cases {α : Type} (f : Keys → AccessTables → Except StoreError (α × AccessTables))
    (db : Database) :
    (∃ e, onAccess f db = (.error e, db)) ∨ ∃ a t, f db.keys db.access = .ok (a, t) ∧
      onAccess f db = (.ok a, { db with access := t, keys := db.keys.after t }) := by
  rw [onAccess, Call.transact]
  cases hrun : f db.keys db.access with
  | error e => exact .inl ⟨e, rfl⟩
  | ok done => exact .inr ⟨done.1, done.2, rfl, rfl⟩

/-- So does one on the configuration tables. -/
theorem onGit_cases {α : Type} (f : Nat → Nat → GitTables → Except GitError (α × GitTables))
    (db : Database) :
    (∃ e, onGit f db = (.error e, db)) ∨ ∃ s r a g, f s r db.access.git = .ok (a, g) ∧
      (onGit f db).1 = .ok a ∧ (onGit f db).2.access = { db.access with git := g } := by
  cases hrun : f (skippedTo (db.access.git.connections.map (·.id)) db.keys.git.connection)
      (skippedTo (db.access.git.repositories.map (·.id)) db.keys.git.repository) db.access.git with
  | error e =>
    left
    refine ⟨.git e, ?_⟩
    simp only [onGit, onAccess, Call.transact, hrun]
    rfl
  | ok done =>
    right
    refine ⟨_, _, done.1, done.2, hrun, ?_⟩
    simp only [onGit, onAccess, Call.transact, hrun]
    exact ⟨rfl, rfl⟩

/-! ## Operations that move nothing -/

/-- The transaction writes no connection and no install. -/
private theorem preserves_onGit {α : Type}
    {f : Nat → Nat → GitTables → Except GitError (α × GitTables)}
    (hf : ∀ s r g a g', f s r g = .ok (a, g') → ∀ tenant id,
      (connectionOrNone g' tenant id).map (fun c ↦ (c.provider, c.baseUrl)) =
        (connectionOrNone g tenant id).map fun c ↦ (c.provider, c.baseUrl)) :
    Call.Preserves pointers (onGit f) := by
  intro db
  rcases onGit_cases f db with ⟨e, hraised⟩ | ⟨s, r, a, g, hrun, -, hdone⟩
  · rw [hraised]
  · apply Pointers.ext
    · funext tenant id
      show (connectionOrNone (onGit f db).2.access.git tenant id).map _ = _
      rw [hdone]
      exact hf s r _ a g hrun tenant id
    · show installedFor (onGit f db).2.access = _
      rw [hdone]
      rfl

/-- So does one that keeps the connections. -/
private theorem preserves_repositories {α : Type}
    {f : Nat → Nat → GitTables → Except GitError (α × GitTables)}
    (hf : ∀ s r g a g', f s r g = .ok (a, g') → g'.connections = g.connections) :
    Call.Preserves pointers (onGit f) := by
  apply preserves_onGit
  intro s r g a g' h tenant id
  rw [connectionOrNone, hf s r g a g' h, connectionOrNone]

private theorem preserves_patchConnection (id : Nat) {f : GitConnectionRow → GitConnectionRow}
    (hf : ∀ c, (f c).id = c.id ∧ (f c).tenantId = c.tenantId ∧ (f c).provider = c.provider ∧
      (f c).baseUrl = c.baseUrl) :
    Call.Preserves pointers (patchConnection tenant id f) := by
  apply preserves_onGit
  intro s r g a g' h tenant' id'
  cases hc : connection g tenant id with
  | error e =>
    rw [hc] at h
    cases h
  | ok c =>
    rw [hc] at h
    cases h
    rw [connectionOrNone_modifyConnection fun c ↦ ⟨(hf c).1, (hf c).2.1⟩, Option.map_map]
    congr 1
    funext c
    rw [Function.comp_apply]
    split
    · rw [(hf c).2.2.1, (hf c).2.2.2]
    · rfl

private theorem preserves_clearDefaultRepository :
    Call.Preserves pointers (clearDefaultRepository tenant) := by
  apply preserves_repositories
  intro s r g a g' h
  cases h
  rfl

/-- The connections after a default was set. -/
private theorem connections_setDefaultRepository {g g' : GitTables} {id : Nat}
    (h : Git.setDefaultRepository g tenant id = .ok g') : g'.connections = g.connections := by
  rw [Git.setDefaultRepository, bind_eq_ok] at h
  obtain ⟨found, -, h⟩ := h
  cases h
  rfl

/-- A write of a repository, read back. -/
private theorem preserves_readBack {α β : Type}
    {F : Nat → Nat → GitTables → Except GitError GitTables} {k : Nat → Nat → GitTables → α}
    {read : α → GitTables → Except GitError β}
    (hF : ∀ s r g g', F s r g = .ok g' → g'.connections = g.connections) :
    Call.Preserves pointers (do
      let a ← onGit fun s r g ↦ (F s r g).map (k s r g, ·)
      readsGit (read a)) := by
  apply Call.Preserves.bind
  · apply preserves_repositories
    intro s r g a g' h
    cases hrun : F s r g with
    | error e =>
      rw [hrun] at h
      cases h
    | ok g'' =>
      rw [hrun] at h
      cases h
      exact hF s r g g' hrun
  · exact fun a ↦ Call.Preserves.reads _

private theorem preserves_setDefaultRepository (id : Nat) :
    Call.Preserves pointers (setDefaultRepository tenant id) :=
  preserves_readBack (F := fun _ _ g ↦ Git.setDefaultRepository g tenant id)
    (k := fun _ _ _ ↦ ()) fun _ _ _ _ h ↦ connections_setDefaultRepository h

private theorem preserves_updateRepository (id : Nat) (body : GitRepositoryUpdate) :
    Call.Preserves pointers (updateRepository tenant id body) := by
  apply preserves_readBack (F := fun _ _ g ↦ Git.updateRepository g tenant id body)
    (k := fun _ _ _ ↦ ())
  intro s r g g' h
  obtain ⟨current, c, patch, -, -, -, hwrite⟩ := Git.updateRepository_ok h
  rcases hwrite with rfl | rfl
  · rfl
  · rfl

private theorem preserves_createRepository (connectionId : Nat) (body : GitRepositoryCreate) :
    Call.Preserves pointers (createRepository tenant connectionId body) := by
  apply preserves_readBack (F := fun _ r g ↦ Git.createRepository g tenant r connectionId body)
    (k := fun _ r g ↦ nextId (g.repositories.map (·.id)) r)
  intro s r g g' h
  rw [createRepository_eq, bind_eq_ok] at h
  obtain ⟨⟨created, inserted⟩, hinsert, hdefault⟩ := h
  obtain ⟨c, fields, -, -, -, rfl⟩ := insertRepository_ok hinsert
  dsimp only at hdefault
  split at hdefault
  · have hkept := connections_setDefaultRepository hdefault
    exact hkept
  · cases hdefault
    rfl

/-- The transaction writes neither configuration nor installs. -/
private theorem preserves_onAccess {α : Type}
    {f : Keys → AccessTables → Except StoreError (α × AccessTables)}
    (hf : ∀ k t a t', f k t = .ok (a, t') → t'.git = t.git ∧ t'.installs = t.installs) :
    Call.Preserves pointers (onAccess f) := by
  intro db
  rcases onAccess_cases f db with ⟨e, hraised⟩ | ⟨a, t, hrun, hdone⟩
  · rw [hraised]
  · obtain ⟨hgit, hinstalls⟩ := hf _ _ _ _ hrun
    rw [hdone]
    apply Pointers.ext
    · funext tenant id
      show (connectionOrNone t.git tenant id).map _ = _
      rw [hgit]
      rfl
    · funext tenant id
      show installedFor t tenant id = installedFor db.access tenant id
      rw [installedFor, hinstalls, installedFor]

private theorem preserves_storeSealed (id : Nat) (record : Credentials.Sealed) (now : Time) :
    Call.Preserves pointers (storeSealed tenant id record now) := by
  apply preserves_onAccess
  intro k t a t' h
  split at h
  · cases h
    exact ⟨rfl, rfl⟩
  · split at h
    · cases h
    · cases h
      exact ⟨rfl, rfl⟩

private theorem preserves_setConnectionCredential (A : Aead UInt8) (id : Nat) (secret : String)
    (keyring : Option Credentials.KeyRing) (fresh : Credentials.Randomness) (now : Time) :
    Call.Preserves pointers (setConnectionCredential A tenant id secret keyring fresh now) := by
  apply Call.Preserves.bind (Call.Preserves.reads _)
  intro _
  split
  · exact Call.Preserves.raise _
  · split
    · exact Call.Preserves.raise _
    · next ring =>
      apply Call.Preserves.bind (preserves_storeSealed id _ now)
      intro _
      have hpatch : Call.Preserves pointers
          (patchConnection tenant id fun c ↦ { c with credentialRejected := none }) :=
        preserves_patchConnection id fun c ↦ ⟨rfl, rfl, rfl, rfl⟩
      exact hpatch.bind fun _ ↦ Call.Preserves.pure _

theorem preserves_storeInstallSecret (A : Aead UInt8) (id : Nat) (secret : String)
    (keyring : Option Credentials.KeyRing) (fresh : Credentials.Randomness) (now : Time) :
    Call.Preserves pointers (storeInstallSecret A tenant id secret keyring fresh now) :=
  (preserves_setConnectionCredential A id secret keyring fresh now).bind fun _ ↦
    Call.Preserves.pure _

theorem preserves_clearConnectionCredential (id : Nat) :
    Call.Preserves pointers (clearConnectionCredential tenant id) := by
  apply preserves_onAccess
  intro k t a t' h
  cases hc : connection t.git tenant id with
  | error e =>
    rw [hc] at h
    cases h
  | ok c =>
    rw [hc] at h
    cases hrow : credentialRow t tenant id with
    | none =>
      rw [hrow] at h
      cases h
      exact ⟨rfl, rfl⟩
    | some row =>
      rw [hrow] at h
      cases h
      exact ⟨rfl, rfl⟩

/-- A second layer that is resealed is stored; one that is not is left. -/
private theorem preserves_resealing {id : Nat} {store : Option Credentials.Sealed → StoreCall Unit}
    {now : Time} (hnone : store none = pure ())
    (hsome : ∀ record, store (some record) = storeSealed tenant id record now)
    (x : Except Credentials.CredentialError (Option Credentials.Sealed)) :
    Call.Preserves pointers (sealing x >>= store) := by
  apply Call.Preserves.bind (Call.Preserves.reads _)
  intro resealed
  cases resealed with
  | none =>
    rw [hnone]
    exact Call.Preserves.pure _
  | some record =>
    rw [hsome]
    exact preserves_storeSealed id record now

private theorem preserves_migrateSealed (A : Aead UInt8) (id : Nat) (row : Credentials.Sealed)
    (ring : Credentials.KeyRing) (wrapNonce : Credentials.Nonce) (fresh : Credentials.Randomness)
    (now : Time) :
    Call.Preserves pointers (migrateSealed A tenant id row ring wrapNonce fresh now) := by
  apply Call.Preserves.catching
  · apply Call.Preserves.bind (Call.Preserves.reads _)
    intro rewrapped
    cases rewrapped with
    | none => exact preserves_resealing rfl (fun _ ↦ rfl) _
    | some rewrapped =>
      apply Call.Preserves.bind (preserves_storeSealed id rewrapped now)
      exact fun _ ↦ preserves_resealing rfl (fun _ ↦ rfl) _
  · intro e
    split
    · split
      · exact Call.Preserves.pure _
      · exact Call.Preserves.raise _
    · exact Call.Preserves.raise _

theorem preserves_fetchCredential (A : Aead UInt8) (id : Nat)
    (keyring : Option Credentials.KeyRing) (wrapNonce : Credentials.Nonce)
    (fresh : Credentials.Randomness) (now : Time) :
    Call.Preserves pointers (fetchCredential A tenant id keyring wrapNonce fresh now) := by
  apply Call.Preserves.bind (Call.Preserves.reads _)
  intro row
  split
  · next row ring =>
    split
    · split
      · exact Call.Preserves.pure _
      · exact Call.Preserves.raise _
    · apply Call.Preserves.bind (preserves_migrateSealed A id row.record ring wrapNonce fresh now)
      exact fun _ ↦ Call.Preserves.pure _
  · exact Call.Preserves.pure _

/-- What became of an install leaves the provider it is for. -/
private theorem preserves_patchInstall (id : Nat) (status : InstallStatus) (error : Option String)
    (now : Time) : Call.Preserves pointers (patchInstall tenant id status error now) := by
  intro db
  rcases onAccess_cases _ db with ⟨e, hraised⟩ | ⟨a, t, hrun, hdone⟩
  · rw [patchInstall, hraised]
  · rw [patchInstall, hdone]
    split at hrun
    · cases hrun
      rfl
    · next row hrow =>
      cases hrun
      apply Pointers.ext
      · rfl
      · funext tenant' id'
        exact installedFor_map (fun r ↦ by split <;> exact ⟨rfl, rfl, rfl⟩) db.access tenant' id'

theorem preserves_degradeInstall (id : Nat) (reason : String) (now : Time) :
    Call.Preserves pointers (degradeInstall tenant id reason now) :=
  preserves_patchInstall id _ _ now

theorem preserves_recoverInstall (id : Nat) (now : Time) :
    Call.Preserves pointers (recoverInstall tenant id now) := by
  apply Call.Preserves.bind (Call.Preserves.reads _)
  intro row
  split
  · exact preserves_patchInstall id _ _ now
  · exact Call.Preserves.pure _

/-! ## Operations that move a connection -/

/-- The pointers of a database with these configuration tables. -/
def pointersWith (db : Database) (g : GitTables) : Pointers :=
  pointers { db with access := { db.access with git := g } }

/-- A transaction on the configuration tables leaves the pointers, or those of what its function
gives. -/
theorem pointers_onGit {α : Type} (f : Nat → Nat → GitTables → Except GitError (α × GitTables))
    (db : Database) :
    pointers (onGit f db).2 = pointers db ∨ ∃ s r a g, f s r db.access.git = .ok (a, g) ∧
      pointers (onGit f db).2 = pointersWith db g := by
  rcases onGit_cases f db with ⟨e, hraised⟩ | ⟨s, r, a, g, hrun, -, hdone⟩
  · rw [hraised]
    exact .inl rfl
  · right
    refine ⟨s, r, a, g, hrun, ?_⟩
    rw [pointersWith, pointers, pointers, hdone]

/-- A single-configuration write moves the pointers as the settling of its connection does. -/
theorem pointers_setGitConfig (update : GitConfigUpdate) (db : Database) :
    pointers (setGitConfig tenant update db).2 = pointers db ∨
      ∃ fields s c g, update.valid = true ∧ validatedFields update = .ok fields ∧
        shimConnection db.access.git tenant s fields.provider fields.baseUrl = .ok (c, g) ∧
        pointers (setGitConfig tenant update db).2 = pointersWith db g := by
  rw [setGitConfig]
  by_cases hvalid : (!update.valid) = true
  · rw [if_pos hvalid]
    exact .inl rfl
  · rw [if_neg hvalid]
    have hvalid : update.valid = true := by simpa using hvalid
    cases hfields : validatedFields update with
    | error e =>
      left
      have hraised : (readsGit fun _ ↦ (.error e : Except GitError ConfigFields)) db =
          (.error (.git e), db) := rfl
      rw [Call.bind_of_error hraised]
    | ok fields =>
      have hread : (readsGit fun _ ↦ .ok fields) db = (.ok fields, db) := rfl
      rw [Call.bind_of_ok hread, Call.Preserves.view_bind pointers]
      · rcases pointers_onGit _ db with hsame | ⟨s, r, c, g, hshim, hmoved⟩
        · exact .inl hsame
        · exact .inr ⟨fields, s, c, g, hvalid, rfl, hshim, hmoved⟩
      · intro c
        have hpatch : Call.Preserves pointers (patchConnection tenant c.id unverified) :=
          preserves_patchConnection c.id fun _ ↦ ⟨rfl, rfl, rfl, rfl⟩
        apply hpatch.bind
        intro _
        cases fields.project with
        | none => exact preserves_clearDefaultRepository
        | some project =>
          apply Call.Preserves.bind (Call.Preserves.reads _)
          intro existing
          cases existing with
          | none =>
            exact (preserves_createRepository _ _).bind fun _ ↦ Call.Preserves.pure _
          | some existing =>
            apply (preserves_updateRepository _ _).bind
            intro _
            exact (preserves_setDefaultRepository _).bind fun _ ↦ Call.Preserves.pure _

/-! ## What a moved row is found at -/

variable {source : StateSource} {g g' : GitTables}

/-- A connection stays where it is when another one is created. -/
theorem connectionOrNone_createConnection {skipped : Nat} {body : GitConnectionCreate}
    {c : GitConnectionRow} (h : Git.createConnection g tenant skipped body = .ok (c, g'))
    {t : String} {i : Nat} {q : GitConnectionRow} (hq : connectionOrNone g t i = some q) :
    connectionOrNone g' t i = some q := by
  obtain ⟨fields, -, -, rfl⟩ := createConnection_ok h
  rw [connectionOrNone] at hq ⊢
  rw [List.find?_append, hq, Option.some_or]

/-- A patched connection is the only one that is changed. -/
theorem connectionOrNone_updateConnection (hg : Tenanted g) {id : Nat}
    {body : GitConnectionUpdate} {c : GitConnectionRow}
    (h : Git.updateConnection g tenant id body = .ok (c, g')) (t : String) (i : Nat) :
    connectionOrNone g' t i =
      if t = tenant ∧ i = id then some c else connectionOrNone g t i := by
  obtain ⟨current, fields, hcurrent, -, rfl, rfl⟩ := updateConnection_ok h
  have hfound := connectionOrNone_of_connection hcurrent
  have hid := (connectionOrNone_spec hfound).2.1
  rw [connectionOrNone_modifyConnection (f := fields.apply) fun c ↦ ⟨rfl, rfl⟩]
  by_cases hit : t = tenant ∧ i = id
  · rw [if_pos hit, hit.1, hit.2, hfound, Option.map_some, if_pos hid]
  · rw [if_neg hit]
    cases hq : connectionOrNone g t i with
    | none => rfl
    | some q =>
      obtain ⟨hmem, hqi, hqt⟩ := connectionOrNone_spec hq
      rw [Option.map_some, if_neg]
      intro hqid
      exact hit ⟨hqt.symm.trans (hg.tenant_of_id hfound hmem hqid), hqi.symm.trans hqid⟩

/-- Ensuring a default leaves the connections. -/
private theorem connections_ensureDefaultRepository (g : GitTables) (tenant : String) :
    (ensureDefaultRepository g tenant).connections = g.connections := by
  rw [ensureDefaultRepository]
  split
  · rfl
  · next first rest _ =>
    split
    · rfl
    · cases hset : Git.setDefaultRepository g tenant first.id with
      | error e => rfl
      | ok g' => exact connections_setDefaultRepository hset

/-- Nothing is found under a key whose rows are gone, and the others are found as before. -/
private theorem find?_filter_key {α : Type} (rows : List α) (key : α → Nat) (p : α → Bool)
    (id i : Nat) :
    (rows.filter fun r ↦ decide (key r ≠ id)).find? (fun r ↦ key r == i && p r) =
      if i = id then none else rows.find? fun r ↦ key r == i && p r := by
  rw [List.find?_filter]
  by_cases hi : i = id
  · rw [if_pos hi, List.find?_eq_none]
    intro r _ hr
    simp only [Bool.and_eq_true, beq_iff_eq, decide_eq_true_eq] at hr
    exact hr.1 (hr.2.1.trans hi)
  · rw [if_neg hi]
    congr 1
    funext r
    by_cases hr : key r = i
    · simp [hr, hi]
    · simp [hr]

/-- After a deletion nothing is found under the deleted id, and all else as before. -/
theorem pointers_deleteConnection (id : Nat) (db : Database) :
    pointers (deleteConnection tenant id db).2 = pointers db ∨
      ∀ t i, ((pointers (deleteConnection tenant id db).2).host t i =
          if i = id then none else (pointers db).host t i) ∧
        ∀ provider ∈ (pointers (deleteConnection tenant id db).2).installs t i,
          provider ∈ (pointers db).installs t i := by
  rcases onAccess_cases _ db with ⟨e, hraised⟩ | ⟨a, t', hrun, hdone⟩
  · left
    rw [deleteConnection, hraised]
  · right
    intro t i
    rw [deleteConnection, hdone]
    cases hg : Git.deleteConnection db.access.git tenant id with
    | error e =>
      rw [hg] at hrun
      cases hrun
    | ok g =>
      rw [hg] at hrun
      cases hrun
      rw [Git.deleteConnection, bind_eq_ok] at hg
      obtain ⟨c, -, hg⟩ := hg
      cases hg
      have hhost : connectionOrNone (ensureDefaultRepository (withoutConnection db.access.git id)
          tenant) t i = if i = id then none else connectionOrNone db.access.git t i := by
        rw [connectionOrNone, connections_ensureDefaultRepository]
        exact find?_filter_key _ _ _ id i
      constructor
      · refine (congrArg (Option.map fun c : GitConnectionRow ↦ (c.provider, c.baseUrl))
          hhost).trans ?_
        split
        · rfl
        · rfl
      · intro provider hprovider
        obtain ⟨r, hr, hmatch⟩ := mem_installedFor.mp hprovider
        exact mem_installedFor.mpr ⟨r, List.mem_of_mem_filter hr, hmatch⟩

/-- An install that is recorded stands on a connection of the tenant, for the provider that was
named. -/
theorem pointers_recordInstall (hs : Sound source db) (id : Nat) (provider : Provider)
    (installationId account : Option String) (now : Time) :
    ((recordInstall tenant id provider installationId account now db).1.isOk = false ∧
      (recordInstall tenant id provider installationId account now db).2 = db) ∨
    ((recordInstall tenant id provider installationId account now db).1.isOk = true ∧
      (∃ c, connection db.access.git tenant id = .ok c) ∧
      (pointers (recordInstall tenant id provider installationId account now db).2).host =
        (pointers db).host ∧
      ∀ t i, ∀ p ∈ (pointers (recordInstall tenant id provider installationId account now
        db).2).installs t i, (t = tenant ∧ i = id ∧ p = provider) ∨ p ∈ (pointers db).installs t i)
        := by
  rcases onAccess_cases _ db with ⟨e, hraised⟩ | ⟨a, t', hrun, hdone⟩
  · left
    rw [recordInstall, hraised]
    exact ⟨rfl, rfl⟩
  · right
    rw [recordInstall, hdone]
    refine ⟨rfl, ?_⟩
    cases hc : connection db.access.git tenant id with
    | error e =>
      rw [hc] at hrun
      cases hrun
    | ok c =>
      rw [hc] at hrun
      refine ⟨⟨c, rfl⟩, ?_⟩
      dsimp only [Except.mapError, Except.bind] at hrun
      cases hrow : installRow db.access tenant id with
      | some row =>
        rw [hrow] at hrun
        cases hrun
        obtain ⟨hmem, hrowId, hrowTenant⟩ := installRow_spec hrow
        refine ⟨rfl, fun t i p hp ↦ ?_⟩
        obtain ⟨r', hr', hi, ht, hprovider⟩ := mem_installedFor.mp hp
        obtain ⟨r, hr, rfl⟩ := List.mem_map.mp hr'
        by_cases hsame : r.id = row.id
        · rw [if_pos hsame] at hi ht hprovider
          have hrrow := List.inj_on_of_nodup_map hs.access.installIds hr hmem hsame
          rw [hrrow] at hi ht
          exact .inl ⟨ht.symm.trans hrowTenant, hi.symm.trans hrowId, hprovider.symm⟩
        · rw [if_neg hsame] at hi ht hprovider
          exact .inr (mem_installedFor.mpr ⟨r, hr, hi, ht, hprovider⟩)
      | none =>
        rw [hrow] at hrun
        dsimp only at hrun
        split at hrun
        · cases hrun
        · cases hrun
          refine ⟨rfl, fun t i p hp ↦ ?_⟩
          obtain ⟨r, hr, hi, ht, hprovider⟩ := mem_installedFor.mp hp
          cases List.mem_append.mp hr with
          | inl hold => exact .inr (mem_installedFor.mpr ⟨r, hold, hi, ht, hprovider⟩)
          | inr hnew =>
            cases List.mem_singleton.mp hnew
            exact .inl ⟨ht.symm, hi.symm, hprovider.symm⟩

/-- An install that is removed leaves the connections and the other installs. -/
theorem pointers_deleteInstall (id : Nat) (db : Database) :
    (pointers (deleteInstall tenant id db).2).host = (pointers db).host ∧
      ∀ t i, ∀ provider ∈ (pointers (deleteInstall tenant id db).2).installs t i,
        provider ∈ (pointers db).installs t i := by
  rw [deleteInstall, Call.Preserves.view_bind pointers]
  · rcases onAccess_cases _ db with ⟨e, hraised⟩ | ⟨a, t', hrun, hdone⟩
    · rw [hraised]
      exact ⟨rfl, fun _ _ _ hp ↦ hp⟩
    · rw [hdone]
      cases hc : connection db.access.git tenant id with
      | error e =>
        rw [hc] at hrun
        cases hrun
      | ok c =>
        rw [hc] at hrun
        cases hrow : installRow db.access tenant id with
        | none =>
          rw [hrow] at hrun
          cases hrun
          exact ⟨rfl, fun _ _ _ hp ↦ hp⟩
        | some row =>
          rw [hrow] at hrun
          cases hrun
          refine ⟨rfl, fun t i provider hprovider ↦ ?_⟩
          obtain ⟨r, hr, hmatch⟩ := mem_installedFor.mp hprovider
          exact mem_installedFor.mpr ⟨r, List.mem_of_mem_filter hr, hmatch⟩
  · intro was
    split
    · exact Call.Preserves.pure _
    · exact (preserves_clearConnectionCredential id).bind fun _ ↦ Call.Preserves.pure _

end CFactory.Tenants
