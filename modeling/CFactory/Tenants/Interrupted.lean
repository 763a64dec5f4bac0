import CFactory.Credentials.Rotation
import CFactory.Tenants.Adoption
import CFactory.Tenants.Isolation

/-!
# Adoptions that are interrupted

`cards.py:2263–2377`. What adopting a row gives, as a value: the one connection of its tenant, what
was verified of it, its default repository and the credential that is read. A run to the end gives
that value for each tenant without a connection; a run after one that was stopped skips the tenant
that the stop left with a connection.
-/

namespace CFactory.Tenants

open CFactory.Base CFactory.Model CFactory.Git
open CFactory.Credentials

variable {source : StateSource} {tenant other : String} {db db' : Database}

/-! ## A transaction as its tenant sees it -/

/-- The rows of the others are as they were. -/
def Undisturbed (tenant : String) (db db' : Database) : Prop :=
  ∀ other, other ≠ tenant → accessOf db'.access other = accessOf db.access other

theorem Undisturbed.trans {db'' : Database} (h : Undisturbed tenant db db')
    (h' : Undisturbed tenant db' db'') : Undisturbed tenant db db'' :=
  fun other hne ↦ (h' other hne).trans (h other hne)

/-- What another tenant sees is among the rows of the others. -/
theorem accessOf_accessOthers (t : AccessTables) (hne : other ≠ tenant) :
    accessOf (accessOthers t tenant) other = accessOf t other := by
  have hkept : ∀ {α : Type} (tenantId : α → String) (rows : List α),
      (others (tenantId · == tenant) rows).filter (tenantId · == other) =
        rows.filter (tenantId · == other) := by
    intro α tenantId rows
    apply filter_own
    intro r hr
    have hother : tenantId r = other := beq_iff_eq.mp hr
    dsimp only
    rw [hother, Bool.not_eq_true', beq_eq_false_iff_ne]
    exact hne
  simp only [accessOf, accessOthers, GitTables.of, GitTables.others, hkept]

theorem undisturbed_of_rest {α : Type} {x : StoreCall α} (h : IsApart source tenant x db) :
    Undisturbed tenant db (x db).2 := by
  intro other hne
  have hrest : accessOthers (x db).2.access tenant = accessOthers db.access tenant :=
    congrArg Database.access h.rest
  rw [← accessOf_accessOthers _ hne, hrest, accessOf_accessOthers _ hne]

/-- A transaction that returns on the tenant's rows returns on all, and leaves the same there. -/
theorem onAccess_returns {α : Type} {f : Keys → AccessTables → Except StoreError (α × AccessTables)}
    (h : IsApart source tenant (onAccess f) db) {a : α} {own : AccessTables}
    (hf : f db.keys (accessOf db.access tenant) = .ok (a, own)) :
    ∃ db', onAccess f db = (.ok a, db') ∧ Sound source db' ∧ Undisturbed tenant db db' ∧
      accessOf db'.access tenant = own := by
  have hown : onAccess f (db.of tenant) =
      (.ok a, { db.of tenant with access := own, keys := db.keys.after own }) := by
    apply Call.transact_of_ok
    show (f db.keys (accessOf db.access tenant)).map _ = _
    rw [hf]
    rfl
  have hboth := h.own.symm.trans hown
  have hresult : (onAccess f db).1 = .ok a := congrArg Prod.fst hboth
  have hrows : accessOf (onAccess f db).2.access tenant = own :=
    congrArg (fun done ↦ done.2.access) hboth
  exact ⟨(onAccess f db).2, Prod.ext hresult rfl, h.invariant, undisturbed_of_rest h, hrows⟩

/-- One that raises there raises, and leaves everything. -/
theorem onAccess_raises {α : Type} {f : Keys → AccessTables → Except StoreError (α × AccessTables)}
    (h : IsApart source tenant (onAccess f) db) {e : StoreError}
    (hf : f db.keys (accessOf db.access tenant) = .error e) : onAccess f db = (.error e, db) := by
  have hown : onAccess f (db.of tenant) = (.error e, db.of tenant) := by
    apply Call.transact_of_error
    show (f db.keys (accessOf db.access tenant)).map _ = _
    rw [hf]
    rfl
  have hresult : (onAccess f db).1 = .error e := congrArg Prod.fst (h.own.symm.trans hown)
  rw [onAccess, Call.transact] at hresult ⊢
  cases hdone : (f db.keys db.access).map fun done ↦
      (done.1, { db with access := done.2, keys := db.keys.after done.2 }) with
  | error e' =>
    rw [hdone] at hresult
    cases hresult
    rfl
  | ok done =>
    rw [hdone] at hresult
    cases hresult

theorem onGit_returns {α : Type} {f : Nat → Nat → GitTables → Except GitError (α × GitTables)}
    (h : IsApart source tenant (onGit f) db) {a : Nat → Nat → α} {g : Nat → Nat → GitTables}
    (hf : ∀ s r, f s r (accessOf db.access tenant).git = .ok (a s r, g s r)) :
    ∃ s r db', onGit f db = (.ok (a s r), db') ∧ Sound source db' ∧ Undisturbed tenant db db' ∧
      accessOf db'.access tenant = { accessOf db.access tenant with git := g s r } := by
  let own := accessOf db.access tenant
  refine ⟨skippedTo (own.git.connections.map (·.id)) db.keys.git.connection,
    skippedTo (own.git.repositories.map (·.id)) db.keys.git.repository, onAccess_returns h ?_⟩
  rw [hf]
  rfl

theorem onGit_raises {α : Type} {f : Nat → Nat → GitTables → Except GitError (α × GitTables)}
    (h : IsApart source tenant (onGit f) db) {e : GitError}
    (hf : ∀ s r, f s r (accessOf db.access tenant).git = .error e) :
    onGit f db = (.error (.git e), db) := by
  apply onAccess_raises h
  rw [hf]
  rfl

/-! ## What adopting a row gives -/

/-- What a verification proved. -/
structure Verification where
  verifiedAt : Option Time
  verifyError : Option String
  credentialRejected : Option Bool
  deriving DecidableEq

/-- A repository, and whether it is its tenant's default. -/
structure RepositoryContents where
  project : String
  intakeProject : Option String
  aifactoryProjectId : Option String
  defaultLabels : List String
  isDefault : Bool
  deriving DecidableEq

/-- A connection with its repositories, whether it has a credential, and what that is read as. -/
structure ConnectionContents where
  provider : Provider
  baseUrl : String
  label : String
  verification : Verification
  repositories : List RepositoryContents
  credential : Option (Option String)
  deriving DecidableEq

/-- What was verified of a connection. -/
def verificationOf (c : GitConnectionRow) : Verification :=
  ⟨c.verifiedAt, c.verifyError, c.credentialRejected⟩

/-- A repository without its keys. -/
def repositoryContents (tenant : String) (r : GitRepositoryRow) : RepositoryContents :=
  ⟨r.project, r.intakeProject, r.aifactoryProjectId, r.defaultLabels,
    r.defaultForTenant == some tenant⟩

/-- The text of a record, under the keys there are. -/
def readRecord (A : Aead UInt8) (keyring : Option KeyRing) (tenant : String) (id : Nat)
    (record : Sealed) : Option String :=
  keyring.bind fun ring ↦ (record.unseal A tenant id ring).toOption

/-- The connections of a tenant, without their keys. -/
def contents (A : Aead UInt8) (keyring : Option KeyRing) (t : AccessTables) (tenant : String) :
    List ConnectionContents :=
  (connectionsOf t.git tenant).map fun c ↦
    { provider := c.provider
      baseUrl := c.baseUrl
      label := c.label
      verification := verificationOf c
      repositories := ((repositoriesOf t.git tenant).filter (·.connectionId == c.id)).map
        (repositoryContents tenant)
      credential := (credentialRow t tenant c.id).map fun r ↦
        readRecord A keyring tenant c.id r.record }

/-- The validated columns of a row's connection. -/
def adoptedFields (row : GitConfigRow) : Except GitError ConnectionFields :=
  if !row.connection.valid then .error .invalid
  else connectionFields (some row.connection.provider) row.connection.baseUrl row.connection.label

/-- The validated columns of a row's repository. -/
def adoptedRepository (row : GitConfigRow) (provider : Provider) (project : String) :
    Except GitError RepositoryFields :=
  if !(row.repository project).valid then .error .invalid
  else repositoryFields (row.repository project) provider

/-- The repositories of an adopted connection. -/
def adoptedRepositories (row : GitConfigRow) (provider : Provider) :
    Except GitError (List RepositoryContents) :=
  match row.named with
  | none => .ok []
  | some project => (adoptedRepository row provider project).map fun fields ↦
    [⟨fields.project, fields.intakeProject, fields.aifactoryProjectId, fields.defaultLabels, true⟩]

theorem adoptedRepositories_unnamed {row : GitConfigRow} (h : row.named = none)
    (provider : Provider) : adoptedRepositories row provider = .ok [] := by
  rw [adoptedRepositories, h]

theorem adoptedRepositories_named {row : GitConfigRow} {project : String}
    (h : row.named = some project) (provider : Provider) :
    adoptedRepositories row provider = (adoptedRepository row provider project).map fun fields ↦
      [⟨fields.project, fields.intakeProject, fields.aifactoryProjectId, fields.defaultLabels,
        true⟩] := by
  rw [adoptedRepositories, h]

/-- The credential of an adopted connection: a record with the tenant's binding only. -/
def adoptedCredential (A : Aead UInt8) (keyring : Option KeyRing) (tenant : String)
    (legacy : Option GitCredentialRow) : Except StoreError (Option (Option String)) :=
  match legacy, keyring with
  | none, _ => .ok none
  | some _, none => .ok (some none)
  | some r, some ring =>
    match Sealed.unseal A { r.record with aadVersion := legacyAadVersion } tenant 0 ring with
    | .ok secret => .ok (some (some secret))
    | .error e => if e.caught then .ok (some none) else .error (.credential e)

/-- The connection that a row becomes, or what its adoption raises. -/
def adopted (A : Aead UInt8) (keyring : Option KeyRing) (tenant : String) (row : GitConfigRow)
    (legacy : Option GitCredentialRow) : Except StoreError ConnectionContents := do
  let fields ← (adoptedFields row).mapError .git
  let repositories ← (adoptedRepositories row fields.provider).mapError .git
  let credential ← adoptedCredential A keyring tenant legacy
  pure
    { provider := fields.provider
      baseUrl := fields.baseUrl
      label := fields.label
      verification := ⟨row.verifiedAt, row.verifyError, row.credentialRejected⟩
      repositories := repositories
      credential := credential }

/-- The tenant has a connection on which the adoption of the row has something left to do. -/
def HalfAdopted (t : AccessTables) (tenant : String) (row : GitConfigRow) : Prop :=
  ∃ c ∈ connectionsOf t.git tenant,
    verificationOf c ≠ ⟨row.verifiedAt, row.verifyError, row.credentialRejected⟩ ∨
      (row.named.isSome = true ∧
        ∀ r ∈ repositoriesOf t.git tenant, r.defaultForTenant ≠ some tenant) ∨
      (credentialRow t tenant c.id = none ∧ (legacyCredential t tenant).isSome = true)

/-! ## The tables of one connection -/

/-- The connection that a row becomes, before anything else is written of it. -/
def newConnection (tenant : String) (id : Nat) (fields : ConnectionFields) : GitConnectionRow where
  id := id
  tenantId := tenant
  provider := fields.provider
  baseUrl := fields.baseUrl
  label := fields.label

theorem createConnection_alone (tenant : String) (s : Nat) (row : GitConfigRow) :
    Git.createConnection ⟨[], []⟩ tenant s row.connection =
      (adoptedFields row).map fun fields ↦
        (newConnection tenant (nextId [] s) fields,
          ⟨[newConnection tenant (nextId [] s) fields], []⟩) := by
  rw [Git.createConnection, adoptedFields]
  split
  · rfl
  · cases connectionFields (some row.connection.provider) row.connection.baseUrl
      row.connection.label with
    | error e => rfl
    | ok fields => rfl

/-- The only connection is found by its id. -/
theorem connection_alone {c : GitConnectionRow} (htenant : c.tenantId = tenant)
    (repositories : List GitRepositoryRow) :
    connection ⟨[c], repositories⟩ tenant c.id = .ok c := by
  have hfound : connectionOrNone ⟨[c], repositories⟩ tenant c.id = some c := by
    apply List.find?_cons_of_pos
    rw [htenant, beq_self_eq_true, beq_self_eq_true]
    rfl
  rw [connection, hfound]

theorem insertRepository_alone {c : GitConnectionRow} (htenant : c.tenantId = tenant) (s : Nat)
    (row : GitConfigRow) (project : String) :
    Git.insertRepository ⟨[c], []⟩ tenant s c.id (row.repository project) =
      (adoptedRepository row c.provider project).map fun fields ↦
        (((newRepository ⟨[c], []⟩ tenant s c.id fields).id, true),
          ⟨[c], [newRepository ⟨[c], []⟩ tenant s c.id fields]⟩) := by
  rw [Git.insertRepository, adoptedRepository, connection_alone htenant]
  split
  · rfl
  · dsimp only [bind, Except.bind]
    cases repositoryFields (row.repository project) c.provider with
    | error e => rfl
    | ok fields => rfl

/-- The only repository becomes the default. -/
theorem setDefaultRepository_alone {c : GitConnectionRow} {r : GitRepositoryRow}
    (htenant : r.tenantId = tenant) (hdefault : r.defaultForTenant = none) :
    Git.setDefaultRepository ⟨[c], [r]⟩ tenant r.id =
      .ok ⟨[c], [{ r with defaultForTenant := some tenant }]⟩ := by
  have hfound : repository ⟨[c], [r]⟩ tenant r.id = .ok r := by
    have hfind : [r].find? (fun q ↦ q.id == r.id && q.tenantId == tenant) = some r := by
      apply List.find?_cons_of_pos
      rw [htenant, beq_self_eq_true, beq_self_eq_true]
      rfl
    rw [repository, hfind]
  rw [Git.setDefaultRepository, hfound]
  simp [bind, Except.bind, pure, Except.pure, modifyRepository, Git.clearDefaultRepository,
    hdefault]

/-! ## Where an adoption is complete -/

variable {A : Aead UInt8} {keyring : Option KeyRing} {row : GitConfigRow}
  {c : GitConnectionRow} {rs : List GitRepositoryRow}

/-- The text of a record that only its tenant binds. -/
def readLegacy (A : Aead UInt8) (keyring : Option KeyRing) (tenant : String)
    (r : GitCredentialRow) : Option String :=
  readRecord A keyring tenant 0 { r.record with aadVersion := legacyAadVersion }

/-- The connection that the row becomes, as far as its adoption has come. -/
structure Begun (A : Aead UInt8) (keyring : Option KeyRing) (tenant : String) (row : GitConfigRow)
    (fields : ConnectionFields) (legacy : Option GitCredentialRow) (c : GitConnectionRow)
    (db : Database) : Prop where
  connections : connectionsOf db.access.git tenant = [c]
  host : c.provider = fields.provider ∧ c.baseUrl = fields.baseUrl ∧ c.label = fields.label
  repositories : repositoriesOf db.access.git tenant = [] ∨ ∃ project f r,
    row.named = some project ∧ adoptedRepository row fields.provider project = .ok f ∧
      repositoriesOf db.access.git tenant = [r] ∧ r.connectionId = c.id ∧
        repositoryContents tenant r = ⟨f.project, f.intakeProject, f.aifactoryProjectId,
          f.defaultLabels, r.defaultForTenant == some tenant⟩
  credential : (credentialRow db.access tenant c.id = none ∧
      legacyCredential db.access tenant = legacy) ∨
    ∃ r l, credentialRow db.access tenant c.id = some r ∧ legacy = some l ∧
      readRecord A keyring tenant c.id r.record = readLegacy A keyring tenant l

/-- What an adoption that succeeds gives. -/
theorem adopted_ok {legacy : Option GitCredentialRow} {view : ConnectionContents}
    (h : adopted A keyring tenant row legacy = .ok view) :
    ∃ fields repositories credential, adoptedFields row = .ok fields ∧
      adoptedRepositories row fields.provider = .ok repositories ∧
      adoptedCredential A keyring tenant legacy = .ok credential ∧
      view = ⟨fields.provider, fields.baseUrl, fields.label,
        ⟨row.verifiedAt, row.verifyError, row.credentialRejected⟩, repositories, credential⟩ := by
  rw [adopted, bind_eq_ok] at h
  obtain ⟨fields, hfields, h⟩ := h
  rw [bind_eq_ok] at h
  obtain ⟨repositories, hrepositories, h⟩ := h
  rw [bind_eq_ok] at h
  obtain ⟨credential, hcredential, h⟩ := h
  cases h
  exact ⟨fields, repositories, credential, mapError_eq_ok.mp hfields,
    mapError_eq_ok.mp hrepositories, hcredential, rfl⟩

/-- The adopted credential is read as before. -/
theorem adoptedCredential_ok {legacy : Option GitCredentialRow}
    {credential : Option (Option String)}
    (h : adoptedCredential A keyring tenant legacy = .ok credential) :
    credential = legacy.map (readLegacy A keyring tenant) := by
  cases legacy with
  | none =>
    cases h
    rfl
  | some r =>
    cases keyring with
    | none =>
      cases h
      rfl
    | some ring =>
      rw [adoptedCredential] at h
      rw [Option.map_some, readLegacy, readRecord, Option.bind_some]
      cases hread : Sealed.unseal A { r.record with aadVersion := legacyAadVersion } tenant 0
        ring with
      | ok secret =>
        rw [hread] at h
        cases h
        rfl
      | error e =>
        rw [hread] at h
        dsimp only at h
        split at h
        · cases h
          rfl
        · cases h

namespace Begun

variable {fields : ConnectionFields} {legacy : Option GitCredentialRow}

/-- The repositories are those of a completed adoption where none is missing. -/
private theorem repositories_iff (h : Begun A keyring tenant row fields legacy c db)
    {repositories : List RepositoryContents}
    (hrepositories : adoptedRepositories row fields.provider = .ok repositories) :
    ((repositoriesOf db.access.git tenant).filter (·.connectionId == c.id)).map
        (repositoryContents tenant) = repositories ↔
      ¬ (row.named.isSome = true ∧
        ∀ r ∈ repositoriesOf db.access.git tenant, r.defaultForTenant ≠ some tenant) := by
  rcases h.repositories with hnone | ⟨project, f, r, hnamed, hfields, hone, hid, hcontents⟩
  · rw [hnone]
    cases hnamed : row.named with
    | none =>
      rw [adoptedRepositories_unnamed hnamed] at hrepositories
      cases hrepositories
      simp
    | some project =>
      rw [adoptedRepositories_named hnamed] at hrepositories
      cases hfields : adoptedRepository row fields.provider project with
      | error e =>
        rw [hfields] at hrepositories
        cases hrepositories
      | ok f =>
        rw [hfields] at hrepositories
        cases hrepositories
        simp
  · rw [adoptedRepositories_named hnamed, hfields] at hrepositories
    cases hrepositories
    have hkept : [r].filter (·.connectionId == c.id) = [r] :=
      List.filter_eq_self.mpr fun q hq ↦ by
        rw [List.mem_singleton.mp hq, hid]
        exact beq_self_eq_true _
    rw [hone, hkept, List.map_singleton, hcontents, hnamed]
    simp

/-- The contents are those of a completed adoption exactly where nothing is left to do. -/
theorem contents_iff (h : Begun A keyring tenant row fields legacy c db)
    (hfields : adoptedFields row = .ok fields) {view : ConnectionContents}
    (hview : adopted A keyring tenant row legacy = .ok view) :
    contents A keyring db.access tenant = [view] ↔ ¬ HalfAdopted db.access tenant row := by
  obtain ⟨fields', repositories, credential, hfields', hrepositories, hcredential, rfl⟩ :=
    adopted_ok hview
  rw [hfields] at hfields'
  cases hfields'
  have hrepositories := h.repositories_iff hrepositories
  have hcredential : ((credentialRow db.access tenant c.id).map fun r ↦
      readRecord A keyring tenant c.id r.record) = credential ↔
        ¬ (credentialRow db.access tenant c.id = none ∧
          (legacyCredential db.access tenant).isSome = true) := by
    rw [adoptedCredential_ok hcredential]
    rcases h.credential with ⟨hnone, hlegacy⟩ | ⟨r, l, hsome, rfl, hread⟩
    · rw [hnone, hlegacy]
      cases legacy with
      | none => simp
      | some l => simp
    · rw [hsome, Option.map_some, Option.map_some, hread]
      simp
  rw [HalfAdopted, contents, h.connections, List.map_singleton]
  simp only [List.cons.injEq, and_true, ConnectionContents.mk.injEq, h.host, true_and,
    hrepositories, hcredential, List.mem_singleton, exists_eq_left, not_or, ne_eq, not_not]

end Begun

/-! ## The steps of one adoption -/

/-- The tenant has one connection, to the host of the row, and no repository but that of the
row. -/
structure Underway (source : StateSource) (tenant : String) (row : GitConfigRow)
    (fields : ConnectionFields) (start : Database) (c : GitConnectionRow)
    (rs : List GitRepositoryRow) (db : Database) : Prop where
  sound : Sound source db
  undisturbed : Undisturbed tenant start db
  git : (accessOf db.access tenant).git = ⟨[c], rs⟩
  owner : c.tenantId = tenant
  host : c.provider = fields.provider ∧ c.baseUrl = fields.baseUrl ∧ c.label = fields.label
  repositories : rs = [] ∨ ∃ project f r, row.named = some project ∧
    adoptedRepository row fields.provider project = .ok f ∧ rs = [r] ∧ r.connectionId = c.id ∧
      repositoryContents tenant r = ⟨f.project, f.intakeProject, f.aifactoryProjectId,
        f.defaultLabels, r.defaultForTenant == some tenant⟩

/-- The credentials of the tenant are as they were. -/
def Unattached (tenant : String) (start db : Database) : Prop :=
  (accessOf db.access tenant).credentials = (accessOf start.access tenant).credentials

/-- The connection has the credential, which is read as before. -/
def Attached (A : Aead UInt8) (keyring : Option KeyRing) (tenant : String) (start : Database)
    (c : GitConnectionRow) (db : Database) : Prop :=
  ∃ r l, credentialRow db.access tenant c.id = some r ∧
    legacyCredential start.access tenant = some l ∧
      readRecord A keyring tenant c.id r.record = readLegacy A keyring tenant l

/-- The tenant has no connection, and so no repository and no attached credential. -/
structure Unbegun (tenant : String) (db : Database) : Prop where
  git : (accessOf db.access tenant).git = ⟨[], []⟩
  credentials : ∀ r ∈ db.access.credentials, r.tenantId = tenant → r.connectionId = none

/-- Repositories and attached credentials have a connection of their tenant. -/
theorem Unbegun.of_sound (hs : Sound source db) (h : connectionsOf db.access.git tenant = []) :
    Unbegun tenant db where
  git := by
    have hrepositories : repositoriesOf db.access.git tenant = [] := by
      apply List.filter_eq_nil_iff.mpr
      intro r hr hmine
      obtain ⟨c, hc, -, htenant⟩ := hs.access.tenanted.homed r hr
      exact List.filter_eq_nil_iff.mp h c hc (by rw [htenant]; exact hmine)
    exact congrArg₂ GitTables.mk h hrepositories
  credentials := by
    intro r hr hmine
    cases hid : r.connectionId with
    | none => rfl
    | some id =>
      obtain ⟨c, hc, -, htenant⟩ := hs.access.credentialsHomed r hr id hid
      exact absurd (by rw [htenant, hmine, beq_self_eq_true]) (List.filter_eq_nil_iff.mp h c hc)

variable {start : Database} {fields : ConnectionFields}

theorem credentialRow_of_unattached (hfree : Unbegun tenant start)
    (h : Unattached tenant start db) (id : Nat) : credentialRow db.access tenant id = none := by
  rw [← credentialRow_accessOf, credentialRow, h]
  apply List.find?_eq_none.mpr
  intro r hr hmatch
  rw [Bool.and_eq_true, beq_iff_eq, beq_iff_eq] at hmatch
  rw [hfree.credentials r (List.mem_of_mem_filter hr) hmatch.2] at hmatch
  cases hmatch.1

theorem legacyCredential_of_unattached (h : Unattached tenant start db) :
    legacyCredential db.access tenant = legacyCredential start.access tenant := by
  rw [← legacyCredential_accessOf, legacyCredential, h, ← legacyCredential,
    legacyCredential_accessOf]

namespace Underway

theorem begun (h : Underway source tenant row fields start c rs db) (hfree : Unbegun tenant start)
    (hcredential : Unattached tenant start db ∨ Attached A keyring tenant start c db) :
    Begun A keyring tenant row fields (legacyCredential start.access tenant) c db where
  connections := congrArg GitTables.connections h.git
  host := h.host
  repositories := by
    have hrs : repositoriesOf db.access.git tenant = rs := congrArg GitTables.repositories h.git
    rw [hrs]
    exact h.repositories
  credential := by
    cases hcredential with
    | inl hun =>
      exact .inl ⟨credentialRow_of_unattached hfree hun c.id, legacyCredential_of_unattached hun⟩
    | inr hattached => exact .inr hattached

/-- A write of the configuration tables. -/
private theorem onGit {α : Type} {f : Nat → Nat → GitTables → Except GitError (α × GitTables)}
    (hun : Undisturbed tenant start db) (hcredentials : Unattached tenant start db)
    (hx : IsApart source tenant (onGit f) db) (a : Nat → Nat → α) (g : Nat → Nat → GitTables)
    (hf : ∀ s r, f s r (accessOf db.access tenant).git = .ok (a s r, g s r)) :
    ∃ s r db', Tenants.onGit f db = (.ok (a s r), db') ∧ Sound source db' ∧
      Undisturbed tenant start db' ∧ (accessOf db'.access tenant).git = g s r ∧
        Unattached tenant start db' := by
  obtain ⟨s, r, db', hdone, hs, hrest, hown⟩ := onGit_returns hx hf
  refine ⟨s, r, db', hdone, hs, hun.trans hrest, congrArg AccessTables.git hown, ?_⟩
  exact (congrArg AccessTables.credentials hown).trans hcredentials

/-- `create_connection` for the row. -/
theorem createConnection (hs : Sound source db) (hfree : Unbegun tenant db)
    (hfields : adoptedFields row = .ok fields) :
    ∃ id db', Tenants.createConnection tenant row.connection db =
        (.ok (newConnection tenant id fields), db') ∧
      Underway source tenant row fields db (newConnection tenant id fields) [] db' ∧
        Unattached tenant db db' := by
  have hstart : Undisturbed tenant db db := fun _ _ ↦ rfl
  obtain ⟨s, r, db', hdone, hs', hun, hgit, hcredentials⟩ := onGit hstart rfl
    (apart_createConnection hs row.connection)
    (fun s _ ↦ newConnection tenant (nextId [] s) fields)
    (fun s _ ↦ ⟨[newConnection tenant (nextId [] s) fields], []⟩) (by
      intro s r
      rw [hfree.git, createConnection_alone, hfields]
      rfl)
  exact ⟨nextId [] s, db', hdone, ⟨hs', hun, hgit, rfl, ⟨rfl, rfl, rfl⟩, .inl rfl⟩, hcredentials⟩

/-- `_patch_connection` with what was verified of the row. -/
theorem patchConnection (h : Underway source tenant row fields start c [] db)
    (hcredentials : Unattached tenant start db) :
    ∃ db', Tenants.patchConnection tenant c.id row.verified db = (.ok (), db') ∧
      Underway source tenant row fields start (row.verified c) [] db' ∧
        Unattached tenant start db' := by
  obtain ⟨s, r, db', hdone, hs', hun, hgit, hcredentials⟩ := onGit h.undisturbed hcredentials
    (apart_patchConnection h.sound c.id (f := row.verified) fun _ ↦ ⟨rfl, rfl⟩)
    (fun _ _ ↦ ()) (fun _ _ ↦ ⟨[row.verified c], []⟩) (by
      intro s r
      rw [h.git, connection_alone h.owner]
      simp [Except.map, modifyConnection])
  exact ⟨db', hdone, ⟨hs', hun, hgit, h.owner, h.host, .inl rfl⟩, hcredentials⟩

/-- The insert of the row's repository. -/
theorem insertRepository (h : Underway source tenant row fields start c [] db)
    (hcredentials : Unattached tenant start db) {project : String}
    (hnamed : row.named = some project) {f : RepositoryFields}
    (hf : adoptedRepository row fields.provider project = .ok f) :
    ∃ q db', Tenants.insertRepository tenant c.id (row.repository project) db =
        (.ok (q.id, true), db') ∧ q.tenantId = tenant ∧ q.defaultForTenant = none ∧
      Underway source tenant row fields start c [q] db' ∧ Unattached tenant start db' := by
  obtain ⟨s, r, db', hdone, hs', hun, hgit, hcredentials⟩ := onGit h.undisturbed hcredentials
    (apart_insertRepository h.sound c.id (row.repository project))
    (fun _ r ↦ ((newRepository ⟨[c], []⟩ tenant r c.id f).id, true))
    (fun _ r ↦ ⟨[c], [newRepository ⟨[c], []⟩ tenant r c.id f]⟩) (by
      intro s r
      rw [h.git, insertRepository_alone h.owner, h.host.1, hf]
      rfl)
  refine ⟨newRepository ⟨[c], []⟩ tenant r c.id f, db', hdone, rfl, rfl,
    ⟨hs', hun, hgit, h.owner, h.host, ?_⟩, hcredentials⟩
  exact .inr ⟨project, f, _, hnamed, hf, rfl, rfl, rfl⟩

theorem insertRepository_raises (h : Underway source tenant row fields start c [] db)
    {project : String} {e : GitError}
    (hf : adoptedRepository row fields.provider project = .error e) :
    Tenants.insertRepository tenant c.id (row.repository project) db = (.error (.git e), db) := by
  apply onGit_raises (apart_insertRepository h.sound c.id (row.repository project))
  intro s r
  rw [h.git, insertRepository_alone h.owner, h.host.1, hf]
  rfl

/-- `set_default_repository` on the row's repository. -/
theorem markDefault {q : GitRepositoryRow}
    (h : Underway source tenant row fields start c [q] db) (htenant : q.tenantId = tenant)
    (hdefault : q.defaultForTenant = none) (hcredentials : Unattached tenant start db) :
    ∃ db', Tenants.markDefault tenant q.id db = (.ok (), db') ∧
      Underway source tenant row fields start c [{ q with defaultForTenant := some tenant }] db' ∧
        Unattached tenant start db' := by
  obtain ⟨s, r, db', hdone, hs', hun, hgit, hcredentials⟩ := onGit h.undisturbed hcredentials
    (apart_markDefault h.sound q.id) (fun _ _ ↦ ())
    (fun _ _ ↦ ⟨[c], [{ q with defaultForTenant := some tenant }]⟩) (by
      intro s r
      rw [h.git, setDefaultRepository_alone htenant hdefault]
      rfl)
  refine ⟨db', hdone, ⟨hs', hun, hgit, h.owner, h.host, ?_⟩, hcredentials⟩
  rcases h.repositories with hnone | ⟨project, f, r, hnamed, hf, hone, hid, hcontents⟩
  · cases hnone
  · cases hone
    exact .inr ⟨project, f, _, hnamed, hf, rfl, hid, congrArg (fun x : RepositoryContents ↦
      { x with isDefault := some tenant == some tenant }) hcontents⟩

theorem hasConnection (h : Underway source tenant row fields start c rs db) :
    HasConnection tenant c.id db := by
  have hfound : connectionOrNone (db.access.git.of tenant) tenant c.id = some c := by
    have hgit : db.access.git.of tenant = ⟨[c], rs⟩ := h.git
    rw [hgit]
    exact connectionOrNone_of_connection (connection_alone h.owner rs)
  rw [connectionOrNone_of] at hfound
  exact ⟨c, hfound⟩

/-- A write of the credentials. -/
private theorem onAccess {α : Type}
    {f : Keys → AccessTables → Except StoreError (α × AccessTables)}
    (h : Underway source tenant row fields start c rs db)
    (hx : IsApart source tenant (onAccess f) db) (a : α) (ks : List GitCredentialRow)
    (hf : f db.keys (accessOf db.access tenant) =
      .ok (a, { accessOf db.access tenant with credentials := ks })) :
    ∃ db', Tenants.onAccess f db = (.ok a, db') ∧
      Underway source tenant row fields start c rs db' ∧
        (accessOf db'.access tenant).credentials = ks := by
  obtain ⟨db', hdone, hs, hrest, hown⟩ := onAccess_returns hx hf
  have hgit := congrArg AccessTables.git hown
  exact ⟨db', hdone, ⟨hs, h.undisturbed.trans hrest, hgit.trans h.git, h.owner, h.host,
    h.repositories⟩, congrArg AccessTables.credentials hown⟩

/-- Without a credential to attach nothing is written. -/
theorem attachCredential_none (h : Underway source tenant row fields start c rs db)
    (hcredentials : Unattached tenant start db)
    (hlegacy : legacyCredential start.access tenant = none) (now : Time) :
    ∃ db', attachCredential tenant c.id now db = (.ok false, db') ∧
      Underway source tenant row fields start c rs db' ∧ Unattached tenant start db' := by
  have hnone : legacyCredential (accessOf db.access tenant) tenant = none := by
    rw [legacyCredential_accessOf, legacyCredential_of_unattached hcredentials, hlegacy]
  obtain ⟨db', hdone, hunder, hsame⟩ := h.onAccess
    (apart_attachCredential h.sound h.hasConnection now) false
    (accessOf db.access tenant).credentials (by rw [hnone])
  exact ⟨db', hdone, hunder, hsame.trans hcredentials⟩

/-- The credential is attached as it was. -/
theorem attachCredential_some (h : Underway source tenant row fields start c rs db)
    (hfree : Unbegun tenant start) (hids : (start.access.credentials.map (·.id)).Nodup)
    (hcredentials : Unattached tenant start db) {l : GitCredentialRow}
    (hlegacy : legacyCredential start.access tenant = some l) (now : Time) :
    ∃ db', attachCredential tenant c.id now db = (.ok true, db') ∧
      Underway source tenant row fields start c rs db' ∧
        credentialRow db'.access tenant c.id = some (attach c.id now l) := by
  have hsome : legacyCredential (accessOf db.access tenant) tenant = some l := by
    rw [legacyCredential_accessOf, legacyCredential_of_unattached hcredentials, hlegacy]
  have hfresh : (accessOf db.access tenant).credentials.any (·.connectionId == some c.id) =
      false := by
    rw [hcredentials, List.any_eq_false]
    intro r hr hid
    rw [hfree.credentials r (List.mem_of_mem_filter hr)
      (beq_iff_eq.mp (List.mem_filter.mp hr).2)] at hid
    cases hid
  obtain ⟨db', hdone, hunder, hsame⟩ := h.onAccess
    (apart_attachCredential h.sound h.hasConnection now) true
    ((accessOf db.access tenant).credentials.map fun r ↦
      if r.id = l.id then attach c.id now r else r) (by
      rw [hsome]
      dsimp only
      rw [hfresh]
      rfl)
  refine ⟨db', hdone, hunder, ?_⟩
  obtain ⟨hl, hlnone, hltenant⟩ := legacyCredential_spec hlegacy
  have hown : l ∈ (accessOf start.access tenant).credentials :=
    List.mem_filter.mpr ⟨hl, beq_iff_eq.mpr hltenant⟩
  rw [← credentialRow_accessOf, credentialRow, hsame, hcredentials]
  cases hfind : ((accessOf start.access tenant).credentials.map fun r ↦
      if r.id = l.id then attach c.id now r else r).find?
        fun r ↦ r.connectionId == some c.id && r.tenantId == tenant with
  | none =>
    have hmapped : attach c.id now l ∈ (accessOf start.access tenant).credentials.map fun r ↦
        if r.id = l.id then attach c.id now r else r :=
      List.mem_map.mpr ⟨l, hown, if_pos rfl⟩
    have hmiss := List.find?_eq_none.mp hfind _ hmapped
    rw [attach, hltenant, beq_self_eq_true, beq_self_eq_true] at hmiss
    exact absurd rfl hmiss
  | some r' =>
    obtain ⟨r, hr, rfl⟩ := List.mem_map.mp (List.mem_of_find?_eq_some hfind)
    obtain ⟨hrmem, hrtenant⟩ := List.mem_filter.mp hr
    have hmatch := List.find?_some hfind
    by_cases hid : r.id = l.id
    · have hrl : r = l := List.inj_on_of_nodup_map hids hrmem hl hid
      rw [if_pos hid, hrl]
    · rw [if_neg hid, Bool.and_eq_true, beq_iff_eq,
        hfree.credentials r hrmem (beq_iff_eq.mp hrtenant)] at hmatch
      cases hmatch.1

/-- `_store_sealed` on the connection's credential. -/
theorem storeSealed (h : Underway source tenant row fields start c rs db) {r : GitCredentialRow}
    (hrow : credentialRow db.access tenant c.id = some r) (record : Sealed) (now : Time) :
    ∃ db' r', Tenants.storeSealed tenant c.id record now db = (.ok (), db') ∧
      Underway source tenant row fields start c rs db' ∧
        credentialRow db'.access tenant c.id = some r' ∧ r'.record = record := by
  have hown : credentialRow (accessOf db.access tenant) tenant c.id = some r := by
    rw [credentialRow_accessOf, hrow]
  obtain ⟨db', hdone, hunder, hsame⟩ := h.onAccess
    ((apart_storeSealed h.sound h.hasConnection record now).mono fun _ _ _ _ ↦ trivial) ()
    ((accessOf db.access tenant).credentials.map fun q ↦
      if q.id = r.id then { q with record := record, updatedAt := now } else q) (by rw [hown])
  refine ⟨db', { r with record := record, updatedAt := now }, hdone, hunder, ?_, rfl⟩
  have hkept : ((fun q : GitCredentialRow ↦ q.connectionId == some c.id && q.tenantId == tenant) ∘
      fun q ↦ if q.id = r.id then { q with record := record, updatedAt := now } else q) =
        fun q ↦ q.connectionId == some c.id && q.tenantId == tenant := by
    funext q
    dsimp only [Function.comp_apply]
    split <;> rfl
  rw [credentialRow] at hown
  rw [← credentialRow_accessOf, credentialRow, hsame, List.find?_map, hkept, hown, Option.map_some,
    if_pos rfl]

end Underway

/-! ## One adoption -/

/-- The binding of a record that only its tenant binds names no connection. -/
theorem unseal_legacy {record : Sealed} (h : record.aadVersion = legacyAadVersion)
    (tenant : String) (id : Nat) (ring : KeyRing) :
    record.unseal A tenant id ring = record.unseal A tenant 0 ring := by
  rw [Sealed.unseal, Sealed.unseal, Sealed.unwrapDek, Sealed.unwrapDek, binding_legacy h id,
    binding_legacy h 0]

/-- What an attached record is resealed as. -/
theorem reseal_attach (fresh : Randomness) (tenant : String) (id : Nat) (ring : KeyRing)
    (now : Time) (l : GitCredentialRow) :
    (attach id now l).record.reseal A fresh tenant id ring =
      (Sealed.unseal A { l.record with aadVersion := legacyAadVersion } tenant 0 ring).map
        fun secret ↦ some (Sealed.seal A fresh secret tenant id ring) := by
  have hlegacy : (attach id now l).record = { l.record with aadVersion := legacyAadVersion } := rfl
  have hold : legacyAadVersion ≠ currentAadVersion := by decide
  rw [hlegacy, Sealed.reseal, if_neg hold, unseal_legacy rfl]
  cases Sealed.unseal A { l.record with aadVersion := legacyAadVersion } tenant 0 ring with
  | error e => rfl
  | ok secret => rfl

/-- An attached record is read as it was. -/
theorem readRecord_attach (id : Nat) (now : Time) (l : GitCredentialRow) :
    readRecord A keyring tenant id (attach id now l).record = readLegacy A keyring tenant l := by
  have hring : ∀ ring, (attach id now l).record.unseal A tenant id ring =
      Sealed.unseal A { l.record with aadVersion := legacyAadVersion } tenant 0 ring :=
    unseal_legacy rfl tenant id
  simp only [readLegacy, readRecord, hring]

/-- The rows of the tenant are as they were, or the adoption of the row has begun. -/
def Adopting (source : StateSource) (A : Aead UInt8) (keyring : Option KeyRing) (tenant : String)
    (row : GitConfigRow) (start db : Database) : Prop :=
  Sound source db ∧ Undisturbed tenant start db ∧
    (accessOf db.access tenant = accessOf start.access tenant ∨
      ∃ fields c, adoptedFields row = .ok fields ∧
        Begun A keyring tenant row fields (legacyCredential start.access tenant) c db)

/-- The adoption of the row raised what it raises, or the tenant has what it gives. -/
def Ended (A : Aead UInt8) (keyring : Option KeyRing) (tenant : String) (row : GitConfigRow)
    (start : Database) (r : Except StoreError Unit) (db : Database) : Prop :=
  (∀ e, adopted A keyring tenant row (legacyCredential start.access tenant) = .error e →
    r = .error e) ∧
  ∀ view, adopted A keyring tenant row (legacyCredential start.access tenant) = .ok view →
    r = .ok () ∧ contents A keyring db.access tenant = [view]

theorem Ended.raised {e : StoreError}
    (h : adopted A keyring tenant row (legacyCredential start.access tenant) = .error e) :
    Ended A keyring tenant row start (.error e) db := by
  refine ⟨fun e' he ↦ ?_, fun view hview ↦ ?_⟩
  · cases h.symm.trans he
    rfl
  · rw [h] at hview
    cases hview

theorem Underway.adopting (h : Underway source tenant row fields start c rs db)
    (hfields : adoptedFields row = .ok fields) (hfree : Unbegun tenant start)
    (hcredential : Unattached tenant start db ∨ Attached A keyring tenant start c db) :
    Adopting source A keyring tenant row start db :=
  ⟨h.sound, h.undisturbed, .inr ⟨fields, c, hfields, h.begun hfree hcredential⟩⟩

/-- An attached credential that is opened and sealed anew is still attached. -/
theorem Underway.resealed {ring : KeyRing} {l : GitCredentialRow} {secret : String} {now : Time}
    (h : Underway source tenant row fields start c rs db)
    (hrow : credentialRow db.access tenant c.id = some (attach c.id now l))
    (hlegacy : legacyCredential start.access tenant = some l)
    (hunseal : Sealed.unseal A { l.record with aadVersion := legacyAadVersion } tenant 0 ring =
      .ok secret) (fresh : Randomness) (later : Time) :
    ∃ db', Tenants.storeSealed tenant c.id (Sealed.seal A fresh secret tenant c.id ring) later db =
        (.ok (), db') ∧
      Underway source tenant row fields start c rs db' ∧
        Attached A (some ring) tenant start c db' := by
  obtain ⟨db', r, hstore, hunder, hrow', hrecord⟩ :=
    h.storeSealed hrow (Sealed.seal A fresh secret tenant c.id ring) later
  have hopens := (seal_sealedFor (A := A) fresh secret tenant c.id ring).unseal (active_mem ring)
  refine ⟨db', hstore, hunder, r, l, hrow', hlegacy, ?_⟩
  rw [hrecord, readLegacy, readRecord, readRecord, Option.bind_some, Option.bind_some, hunseal,
    hopens]

/-- The credential's adoption ends as described, with nothing to attach or with the credential
attached. -/
theorem follows_adoptCredential (h : Underway source tenant row fields start c rs db)
    (hfields : adoptedFields row = .ok fields) (hfree : Unbegun tenant start)
    (hids : (start.access.credentials.map (·.id)).Nodup)
    (hcredentials : Unattached tenant start db) (fresh : Randomness) (now : Time) :
    (adoptCredential A tenant c.id keyring fresh now).Follows
      (Adopting source A keyring tenant row start)
      (fun r db' ↦
        (∀ e, adoptedCredential A keyring tenant (legacyCredential start.access tenant) =
          .error e → r = .error e) ∧
        ∀ k, adoptedCredential A keyring tenant (legacyCredential start.access tenant) = .ok k →
          r = .ok () ∧ Underway source tenant row fields start c rs db' ∧
            ((legacyCredential start.access tenant = none ∧ Unattached tenant start db') ∨
              Attached A keyring tenant start c db')) db := by
  have hhere : Adopting source A keyring tenant row start db :=
    h.adopting hfields hfree (.inl hcredentials)
  rw [adoptCredential]
  cases hlegacy : legacyCredential start.access tenant with
  | none =>
    obtain ⟨db', hdone, hunder, hsame⟩ := h.attachCredential_none hcredentials hlegacy now
    apply Script.Follows.bind (R := fun r t ↦ r = .ok false ∧ t = db')
      (.atomic hhere hdone (hunder.adopting hfields hfree (.inl hsame)) ⟨rfl, rfl⟩)
    · rintro a t ht ⟨ha, rfl⟩
      cases ha
      refine .pure ht ⟨?_, ?_⟩
      · rintro e ⟨⟩
      · exact fun _ _ ↦ ⟨rfl, hunder, .inl ⟨rfl, hsame⟩⟩
    · rintro e t - ⟨he, -⟩
      cases he
  | some l =>
    obtain ⟨db', hdone, hunder, hrow⟩ :=
      h.attachCredential_some hfree hids hcredentials hlegacy now
    have hattached : Attached A keyring tenant start c db' :=
      ⟨attach c.id now l, l, hrow, hlegacy, readRecord_attach c.id now l⟩
    have hthere : Adopting source A keyring tenant row start db' :=
      hunder.adopting hfields hfree (.inr hattached)
    apply Script.Follows.bind (R := fun r t ↦ r = .ok true ∧ t = db')
      (.atomic hhere hdone hthere ⟨rfl, rfl⟩)
    · rintro a t ht ⟨ha, rfl⟩
      cases ha
      rw [if_pos rfl]
      apply Script.Follows.bind (R := fun r t' ↦ r = .ok (some (attach c.id now l)) ∧ t' = t)
        (.atomic ht rfl ht ⟨congrArg Except.ok hrow, rfl⟩)
      · rintro a t' ht' ⟨ha, rfl⟩
        cases ha
        cases keyring with
        | none =>
          refine .pure ht' ⟨?_, ?_⟩
          · rintro e ⟨⟩
          · exact fun _ _ ↦ ⟨rfl, hunder, .inr hattached⟩
        | some ring =>
          dsimp only
          rw [reseal_attach, adoptedCredential]
          cases hunseal : Sealed.unseal A { l.record with aadVersion := legacyAadVersion } tenant 0
            ring with
          | error e =>
            dsimp only [Except.map]
            cases hcaught : e.caught with
            | true =>
              simp only [↓reduceIte]
              refine .pure ht' ⟨?_, ?_⟩
              · rintro e' ⟨⟩
              · exact fun _ _ ↦ ⟨rfl, hunder, .inr hattached⟩
            | false =>
              simp only [Bool.false_eq_true, ↓reduceIte]
              refine .raise ht' ⟨?_, ?_⟩
              · rintro e' ⟨⟩
                rfl
              · rintro k ⟨⟩
          | ok secret =>
            obtain ⟨db'', hstore, hunder', hattached'⟩ :=
              hunder.resealed hrow hlegacy hunseal fresh now
            refine .atomic ht' hstore (hunder'.adopting hfields hfree (.inr hattached')) ⟨?_, ?_⟩
            · rintro e ⟨⟩
            · exact fun _ _ ↦ ⟨rfl, hunder', .inr hattached'⟩
      · rintro e t' - ⟨he, -⟩
        cases he
    · rintro e t - ⟨he, -⟩
      cases he

/-- The repository of a row is inserted and made the default, or its columns are refused. -/
private theorem follows_createDefault (h : Underway source tenant row fields start c [] db)
    (hfields : adoptedFields row = .ok fields) (hfree : Unbegun tenant start)
    (hcredentials : Unattached tenant start db) {project : String}
    (hnamed : row.named = some project) :
    (createDefault tenant c.id (row.repository project)).Follows
      (Adopting source A keyring tenant row start)
      (fun r t ↦
        (∀ e, adoptedRepository row fields.provider project = .error e → r = .error (.git e)) ∧
        ∀ f, adoptedRepository row fields.provider project = .ok f → r = .ok () ∧
          ∃ q, q.defaultForTenant = some tenant ∧
            Underway source tenant row fields start c [q] t ∧ Unattached tenant start t) db := by
  have hhere : Adopting source A keyring tenant row start db :=
    h.adopting hfields hfree (.inl hcredentials)
  rw [createDefault]
  cases hf : adoptedRepository row fields.provider project with
  | error e =>
    apply Script.Follows.bind (R := fun r _ ↦ r = .error (.git e))
      (.atomic hhere (h.insertRepository_raises hf) hhere rfl)
    · rintro a t - ha
      cases ha
    · rintro e' t - he
      cases he
      refine ⟨?_, ?_⟩
      · rintro e' ⟨⟩
        rfl
      · rintro f ⟨⟩
  | ok f =>
    obtain ⟨q, db₁, hinsert, htenant, hdefault, hunder₁, hsame₁⟩ :=
      h.insertRepository hcredentials hnamed hf
    have hthere : Adopting source A keyring tenant row start db₁ :=
      hunder₁.adopting hfields hfree (.inl hsame₁)
    apply Script.Follows.bind (R := fun r t ↦ r = .ok (q.id, true) ∧ t = db₁)
      (.atomic hhere hinsert hthere ⟨rfl, rfl⟩)
    · rintro a t ht ⟨ha, rfl⟩
      cases ha
      rw [if_pos rfl]
      obtain ⟨db₂, hmark, hunder₂, hsame₂⟩ := hunder₁.markDefault htenant hdefault hsame₁
      refine .atomic ht hmark (hunder₂.adopting hfields hfree (.inl hsame₂)) ⟨?_, ?_⟩
      · rintro e ⟨⟩
      · exact fun _ _ ↦ ⟨rfl, _, rfl, hunder₂, hsame₂⟩
    · rintro e t - ⟨he, -⟩
      cases he

/-- What is left of an adoption with valid columns is its credential. -/
theorem adopted_of_repositories {legacy : Option GitCredentialRow}
    {repositories : List RepositoryContents} (hfields : adoptedFields row = .ok fields)
    (hrepositories : adoptedRepositories row fields.provider = .ok repositories) :
    adopted A keyring tenant row legacy = (adoptedCredential A keyring tenant legacy).map
      fun credential ↦ ⟨fields.provider, fields.baseUrl, fields.label,
        ⟨row.verifiedAt, row.verifyError, row.credentialRejected⟩, repositories, credential⟩ := by
  rw [adopted, hfields]
  dsimp only [Except.mapError, bind, Except.bind]
  rw [hrepositories]
  dsimp only
  cases adoptedCredential A keyring tenant legacy with
  | error e => rfl
  | ok k => rfl

/-- Where only the credential is left to adopt, the adoption of the row ends as described. -/
private theorem follows_last (h : Underway source tenant row fields start c rs db)
    (hfields : adoptedFields row = .ok fields) (hfree : Unbegun tenant start)
    (hids : (start.access.credentials.map (·.id)).Nodup)
    (hcredentials : Unattached tenant start db)
    (hverified : verificationOf c = ⟨row.verifiedAt, row.verifyError, row.credentialRejected⟩)
    (hdefault : row.named = none ∨ ∃ r ∈ rs, r.defaultForTenant = some tenant)
    {repositories : List RepositoryContents}
    (hrepositories : adoptedRepositories row fields.provider = .ok repositories)
    (fresh : Randomness) (now : Time) :
    (adoptCredential A tenant c.id keyring fresh now).Follows
      (Adopting source A keyring tenant row start)
      (Ended A keyring tenant row start) db := by
  apply (follows_adoptCredential h hfields hfree hids hcredentials fresh now).mono
  · exact fun _ ht ↦ ht
  · rintro r t - ⟨herror, hok⟩
    rw [Ended, adopted_of_repositories hfields hrepositories]
    constructor
    · intro e he
      cases hcredential : adoptedCredential A keyring tenant
          (legacyCredential start.access tenant) with
      | error e' =>
        rw [hcredential] at he
        cases he
        exact herror e hcredential
      | ok k =>
        rw [hcredential] at he
        cases he
    · intro view hview
      cases hcredential : adoptedCredential A keyring tenant
          (legacyCredential start.access tenant) with
      | error e =>
        rw [hcredential] at hview
        cases hview
      | ok k =>
        obtain ⟨hr, hunder, hcase⟩ := hok k hcredential
        refine ⟨hr, ?_⟩
        have hbegun : Begun A keyring tenant row fields (legacyCredential start.access tenant)
            c t := hunder.begun hfree (hcase.imp_left And.right)
        rw [hbegun.contents_iff hfields
          ((adopted_of_repositories hfields hrepositories).trans hview)]
        rintro ⟨c', hc', hleft⟩
        rw [hbegun.connections, List.mem_singleton] at hc'
        cases hc'
        rcases hleft with hunverified | ⟨hnamed, hnone⟩ | ⟨hnocredential, hlegacy⟩
        · exact hunverified hverified
        · rcases hdefault with hunnamed | ⟨q, hq, hmarked⟩
          · rw [hunnamed] at hnamed
            cases hnamed
          · have hrs : repositoriesOf t.access.git tenant = rs :=
              congrArg GitTables.repositories hunder.git
            rw [hrs] at hnone
            exact hnone q hq hmarked
        · rcases hcase with ⟨hnolegacy, hsame⟩ | ⟨q, l, hcredentialRow, -, -⟩
          · rw [legacyCredential_of_unattached hsame, hnolegacy] at hlegacy
            cases hlegacy
          · rw [hcredentialRow] at hnocredential
            cases hnocredential

/-- The adoption of a row ends as described. -/
theorem follows_adoptOne (hs : Sound source start) (hfree : Unbegun tenant start)
    (fresh : Randomness) (now : Time) :
    (adoptOne A tenant row keyring fresh now).Follows
      (Adopting source A keyring tenant row start)
      (Ended A keyring tenant row start) start := by
  have hstart : Adopting source A keyring tenant row start start :=
    ⟨hs, fun _ _ ↦ rfl, .inl rfl⟩
  rw [adoptOne]
  cases hfields : adoptedFields row with
  | error e =>
    have hraises : Tenants.createConnection tenant row.connection start =
        (.error (.git e), start) := by
      apply onGit_raises (apart_createConnection hs row.connection)
      intro s r
      rw [hfree.git, createConnection_alone, hfields]
      rfl
    have hadopted : adopted A keyring tenant row (legacyCredential start.access tenant) =
        .error (.git e) := by
      rw [adopted, hfields]
      rfl
    apply Script.Follows.bind (R := fun r t ↦ r = .error (.git e) ∧ t = start)
      (.atomic hstart hraises hstart ⟨rfl, rfl⟩)
    · rintro a t - ⟨ha, -⟩
      cases ha
    · rintro e' t - ⟨he, -⟩
      cases he
      exact .raised hadopted
  | ok fields =>
    obtain ⟨id, db₁, hcreate, hunder₁, hsame₁⟩ := Underway.createConnection hs hfree hfields
    apply Script.Follows.bind (R := fun r t ↦ r = .ok (newConnection tenant id fields) ∧ t = db₁)
      (.atomic hstart hcreate (hunder₁.adopting hfields hfree (.inl hsame₁)) ⟨rfl, rfl⟩)
    · rintro a t ht ⟨ha, rfl⟩
      cases ha
      obtain ⟨db₂, hpatch, hunder₂, hsame₂⟩ := hunder₁.patchConnection hsame₁
      apply Script.Follows.bind (R := fun r t ↦ r = .ok () ∧ t = db₂)
        (.atomic ht hpatch (hunder₂.adopting hfields hfree (.inl hsame₂)) ⟨rfl, rfl⟩)
      · rintro a t ht ⟨ha, rfl⟩
        cases hnamed : row.named with
        | none =>
          exact follows_last hunder₂ hfields hfree hs.access.credentialIds hsame₂ rfl
            (.inl hnamed) (adoptedRepositories_unnamed hnamed fields.provider) fresh now
        | some project =>
          apply (follows_createDefault hunder₂ hfields hfree hsame₂ hnamed).bind
          · rintro a t - ⟨herror, hok⟩
            cases hf : adoptedRepository row fields.provider project with
            | error e => cases herror e hf
            | ok f =>
              obtain ⟨-, q, hmarked, hunder, hsame⟩ := hok f hf
              exact follows_last hunder hfields hfree hs.access.credentialIds hsame rfl
                (.inr ⟨q, List.mem_singleton_self q, hmarked⟩)
                (by rw [adoptedRepositories_named hnamed, hf]; rfl) fresh now
          · rintro e t - ⟨herror, hok⟩
            cases hf : adoptedRepository row fields.provider project with
            | error e' =>
              cases herror e' hf
              have hadopted : adopted A keyring tenant row
                  (legacyCredential start.access tenant) = .error (.git e') := by
                rw [adopted, hfields]
                dsimp only [Except.mapError, bind, Except.bind]
                rw [adoptedRepositories_named hnamed, hf]
                rfl
              exact .raised hadopted
            | ok f => cases (hok f hf).1
      · rintro e t - ⟨he, -⟩
        cases he
    · rintro e t - ⟨he, -⟩
      cases he

/-! ## What the rows of a tenant tell -/

/-- The two databases hold the same rows of the tenant. -/
abbrev SameRows (tenant : String) (db db' : Database) : Prop :=
  accessOf db'.access tenant = accessOf db.access tenant

namespace SameRows

theorem connectionsOf (h : SameRows tenant db db') :
    Git.connectionsOf db'.access.git tenant = Git.connectionsOf db.access.git tenant :=
  congrArg (fun t ↦ t.git.connections) h

theorem repositoriesOf (h : SameRows tenant db db') :
    Git.repositoriesOf db'.access.git tenant = Git.repositoriesOf db.access.git tenant :=
  congrArg (fun t ↦ t.git.repositories) h

theorem credentialRow (h : SameRows tenant db db') (id : Nat) :
    Git.credentialRow db'.access tenant id = Git.credentialRow db.access tenant id := by
  rw [← credentialRow_accessOf, h, credentialRow_accessOf]

theorem legacyCredential (h : SameRows tenant db db') :
    Tenants.legacyCredential db'.access tenant = Tenants.legacyCredential db.access tenant := by
  rw [← legacyCredential_accessOf, h, legacyCredential_accessOf]

theorem contents (h : SameRows tenant db db') :
    Tenants.contents A keyring db'.access tenant = Tenants.contents A keyring db.access tenant := by
  simp only [Tenants.contents, h.connectionsOf, h.repositoriesOf, h.credentialRow]

theorem begun (h : SameRows tenant db db') {legacy : Option GitCredentialRow}
    (hbegun : Begun A keyring tenant row fields legacy c db) :
    Begun A keyring tenant row fields legacy c db' where
  connections := h.connectionsOf.trans hbegun.connections
  host := hbegun.host
  repositories := by
    rw [h.repositoriesOf]
    exact hbegun.repositories
  credential := by
    rw [h.credentialRow, h.legacyCredential]
    exact hbegun.credential

end SameRows

/-! ## A run over all rows -/

/-- The row that is adopted for a tenant: the first of them. -/
def legacyRow (rows : List GitConfigRow) (tenant : String) : Option GitConfigRow :=
  rows.find? (·.tenant == tenant)

theorem legacyRow_self (row : GitConfigRow) (rest : List GitConfigRow) :
    legacyRow (row :: rest) row.tenant = some row :=
  List.find?_cons_of_pos (beq_self_eq_true _)

theorem legacyRow_other {row : GitConfigRow} (rest : List GitConfigRow) (h : tenant ≠ row.tenant) :
    legacyRow (row :: rest) tenant = legacyRow rest tenant :=
  List.find?_cons_of_neg fun hsame ↦ h (beq_iff_eq.mp hsame).symm

/-- The tenant's row is adopted in a run over the rows. -/
structure Adopts (rows : List GitConfigRow) (start : Database) (tenant : String)
    (row : GitConfigRow) : Prop where
  row : legacyRow rows tenant = some row
  bare : connectionsOf start.access.git tenant = []

/-- In a run over the rows, the rows of the tenant are as they were, or the adoption of its row has
begun. -/
def Stands (A : Aead UInt8) (keyring : Option KeyRing) (rows : List GitConfigRow)
    (start db : Database) (tenant : String) : Prop :=
  SameRows tenant start db ∨ ∃ row fields c, Adopts rows start tenant row ∧
    adoptedFields row = .ok fields ∧
      Begun A keyring tenant row fields (legacyCredential start.access tenant) c db

/-- After a run over the rows, the tenant has what the adoption of its row gives, or what it
had. -/
def Finished (A : Aead UInt8) (keyring : Option KeyRing) (rows : List GitConfigRow)
    (start db : Database) (tenant : String) : Prop :=
  (SameRows tenant start db ∧ ∀ row, ¬ Adopts rows start tenant row) ∨
    ∃ row view, Adopts rows start tenant row ∧
      adopted A keyring tenant row (legacyCredential start.access tenant) = .ok view ∧
        contents A keyring db.access tenant = [view]

/-- The adoption of a tenant's row raises. -/
def Refused (A : Aead UInt8) (keyring : Option KeyRing) (rows : List GitConfigRow)
    (start : Database) : Prop :=
  ∃ tenant row e, Adopts rows start tenant row ∧
    adopted A keyring tenant row (legacyCredential start.access tenant) = .error e

/-- A tenant with a connection is skipped. -/
private theorem adopts_cons {row : GitConfigRow} {rest : List GitConfigRow}
    (h : connectionsOf start.access.git row.tenant ≠ []) (tenant : String) (r : GitConfigRow) :
    Adopts (row :: rest) start tenant r ↔ Adopts rest start tenant r := by
  by_cases hsame : tenant = row.tenant
  · rw [hsame]
    exact iff_of_false (fun hadopts ↦ h hadopts.bare) (fun hadopts ↦ h hadopts.bare)
  · constructor
    · exact fun hadopts ↦ ⟨(legacyRow_other rest hsame).symm.trans hadopts.row, hadopts.bare⟩
    · exact fun hadopts ↦ ⟨(legacyRow_other rest hsame).trans hadopts.row, hadopts.bare⟩

/-- While the row of one tenant is adopted, the others stand as they did. -/
private theorem Adopting.stands {row : GitConfigRow} {rest : List GitConfigRow}
    (h : Adopting source A keyring row.tenant row start db)
    (hbare : connectionsOf start.access.git row.tenant = []) (tenant : String) :
    Stands A keyring (row :: rest) start db tenant := by
  obtain ⟨-, hothers, hmine⟩ := h
  by_cases htenant : tenant = row.tenant
  · subst htenant
    rcases hmine with hsame | ⟨fields, c, hfields, hbegun⟩
    · exact .inl hsame
    · exact .inr ⟨row, fields, c, ⟨legacyRow_self row rest, hbare⟩, hfields, hbegun⟩
  · exact .inl (hothers tenant htenant)

/-- Where a tenant has been adopted, the rest of the run adopts the others as it would have. -/
private theorem adopts_after {row : GitConfigRow} {rest : List GitConfigRow} {t : Database}
    (hmine : connectionsOf t.access.git row.tenant ≠ []) (hothers : Undisturbed row.tenant start t)
    {r : GitConfigRow} (h : Adopts rest t tenant r) :
    SameRows tenant start t ∧ Adopts (row :: rest) start tenant r := by
  have hne : tenant ≠ row.tenant := fun hsame ↦ hmine (hsame ▸ h.bare)
  have hsame : SameRows tenant start t := hothers tenant hne
  exact ⟨hsame, (legacyRow_other rest hne).trans h.row, hsame.connectionsOf.symm.trans h.bare⟩

/-- Where the rows of the tenant are as they were, so is how far its adoption has come. -/
private theorem Stands.same {rows : List GitConfigRow} {t : Database}
    (h : Stands A keyring rows start t tenant) (hsame : SameRows tenant t db) :
    Stands A keyring rows start db tenant := by
  rcases h with h | ⟨row, fields, c, hadopts, hfields, hbegun⟩
  · exact .inl (Eq.trans hsame h)
  · exact .inr ⟨row, fields, c, hadopts, hfields, hsame.begun hbegun⟩

private theorem Stands.after {row : GitConfigRow} {rest : List GitConfigRow} {t : Database}
    (hmine : connectionsOf t.access.git row.tenant ≠ []) (hothers : Undisturbed row.tenant start t)
    (ht : Stands A keyring (row :: rest) start t tenant) (h : Stands A keyring rest t db tenant) :
    Stands A keyring (row :: rest) start db tenant := by
  rcases h with hsame | ⟨r, fields, c, hadopts, hfields, hbegun⟩
  · exact ht.same hsame
  · obtain ⟨hsame, hadopts⟩ := adopts_after hmine hothers hadopts
    exact .inr ⟨r, fields, c, hadopts, hfields, hsame.legacyCredential ▸ hbegun⟩

private theorem Finished.after {row : GitConfigRow} {rest : List GitConfigRow} {t : Database}
    {view : ConnectionContents} (hbare : connectionsOf start.access.git row.tenant = [])
    (hmine : connectionsOf t.access.git row.tenant ≠ []) (hothers : Undisturbed row.tenant start t)
    (hview : adopted A keyring row.tenant row (legacyCredential start.access row.tenant) = .ok view)
    (hcontents : contents A keyring t.access row.tenant = [view])
    (h : Finished A keyring rest t db tenant) :
    Finished A keyring (row :: rest) start db tenant := by
  rcases h with ⟨hsame, hnone⟩ | ⟨r, view', hadopts, hview', hcontents'⟩
  · by_cases htenant : tenant = row.tenant
    · subst htenant
      exact .inr ⟨row, view, ⟨legacyRow_self row rest, hbare⟩, hview,
        hsame.contents.trans hcontents⟩
    · have hstart : SameRows tenant start t := hothers tenant htenant
      refine .inl ⟨Eq.trans hsame hstart, fun r hadopts ↦ hnone r ?_⟩
      exact ⟨(legacyRow_other rest htenant).symm.trans hadopts.row,
        hstart.connectionsOf.trans hadopts.bare⟩
  · obtain ⟨hsame, hadopts⟩ := adopts_after hmine hothers hadopts
    exact .inr ⟨r, view', hadopts, hsame.legacyCredential ▸ hview', hcontents'⟩

/-- In a run over the rows, every tenant stands where its adoption has come. -/
def Amid (source : StateSource) (A : Aead UInt8) (keyring : Option KeyRing)
    (rows : List GitConfigRow) (start db : Database) : Prop :=
  Sound source db ∧ ∀ tenant, Stands A keyring rows start db tenant

/-- A run over the rows that returned has finished with every tenant; one that raised was refused
a tenant. -/
def Ran (A : Aead UInt8) (keyring : Option KeyRing) (rows : List GitConfigRow) (start : Database)
    (r : Except StoreError Nat) (db : Database) : Prop :=
  (∀ n, r = .ok n → ∀ tenant, Finished A keyring rows start db tenant) ∧
    ∀ e, r = .error e → Refused A keyring rows start

theorem Amid.initial (hs : Sound source start) (rows : List GitConfigRow) :
    Amid source A keyring rows start start :=
  ⟨hs, fun _ ↦ .inl rfl⟩

theorem Ran.returned {rows : List GitConfigRow} {n : Nat}
    (h : ∀ tenant, Finished A keyring rows start db tenant) :
    Ran A keyring rows start (.ok n) db := by
  refine ⟨fun _ _ ↦ h, fun e he ↦ ?_⟩
  cases he

theorem Ran.raised {rows : List GitConfigRow} {e : StoreError} (h : Refused A keyring rows start) :
    Ran A keyring rows start (.error e) db := by
  refine ⟨fun n hn ↦ ?_, fun _ _ ↦ h⟩
  cases hn

/-- A run that skips the first row does what it does without that row. -/
private theorem follows_skip {row : GitConfigRow} {rest : List GitConfigRow}
    {p : StoreScript Nat} (hconnected : connectionsOf start.access.git row.tenant ≠ [])
    (h : p.Follows (Amid source A keyring rest start) (Ran A keyring rest start) start) :
    p.Follows (Amid source A keyring (row :: rest) start) (Ran A keyring (row :: rest) start)
      start := by
  apply h.mono
  · rintro db ⟨hsound, hstands⟩
    refine ⟨hsound, fun tenant ↦ ?_⟩
    rcases hstands tenant with hsame | ⟨r, fields, c, hadopts, hbegun⟩
    · exact .inl hsame
    · exact .inr ⟨r, fields, c, (adopts_cons hconnected tenant r).mpr hadopts, hbegun⟩
  · rintro r db - ⟨hok, herror⟩
    refine ⟨fun n hn tenant ↦ ?_, fun e he ↦ ?_⟩
    · rcases hok n hn tenant with ⟨hsame, hnone⟩ | ⟨r, view, hadopts, hview⟩
      · exact .inl ⟨hsame, fun r hadopts ↦ hnone r ((adopts_cons hconnected tenant r).mp hadopts)⟩
      · exact .inr ⟨r, view, (adopts_cons hconnected tenant r).mpr hadopts, hview⟩
    · obtain ⟨tenant, r, e, hadopts, hraised⟩ := herror e he
      exact ⟨tenant, r, e, (adopts_cons hconnected tenant r).mpr hadopts, hraised⟩

/-- A run goes on to the other rows where the tenant of the first has been adopted. -/
private theorem follows_next {row : GitConfigRow} {rest : List GitConfigRow} {t : Database}
    {view : ConnectionContents} {p : StoreScript Nat}
    (hbare : connectionsOf start.access.git row.tenant = [])
    (ht : Amid source A keyring (row :: rest) start t) (hothers : Undisturbed row.tenant start t)
    (hview : adopted A keyring row.tenant row (legacyCredential start.access row.tenant) = .ok view)
    (hcontents : contents A keyring t.access row.tenant = [view])
    (h : p.Follows (Amid source A keyring rest t) (Ran A keyring rest t) t) :
    (p >>= fun n ↦ pure (n + 1)).Follows (Amid source A keyring (row :: rest) start)
      (Ran A keyring (row :: rest) start) t := by
  have hmine : connectionsOf t.access.git row.tenant ≠ [] := by
    intro hnone
    rw [contents, hnone] at hcontents
    cases hcontents
  have hmid : ∀ db, Amid source A keyring rest t db →
      Amid source A keyring (row :: rest) start db :=
    fun db hdb ↦ ⟨hdb.1, fun tenant ↦ (ht.2 tenant).after hmine hothers (hdb.2 tenant)⟩
  apply (h.mono hmid fun _ _ _ hr ↦ hr).bind
  · rintro n db hdb ⟨hfinished, -⟩
    exact .pure hdb (.returned fun tenant ↦
      (hfinished n rfl tenant).after hbare hmine hothers hview hcontents)
  · rintro e db - ⟨-, hrefused⟩
    obtain ⟨tenant, r, e, hadopts, hraised⟩ := hrefused e rfl
    obtain ⟨hsame, hadopts⟩ := adopts_after hmine hothers hadopts
    exact .raised ⟨tenant, r, e, hadopts, hsame.legacyCredential ▸ hraised⟩

/-- A run over the rows ends with every tenant adopted that had no connection, or it raises what
one of the adoptions raises. -/
theorem follows_adoptLegacyGitConfig (chance : Chance) (rows : List GitConfigRow)
    (hs : Sound source start) :
    (adoptLegacyGitConfig A keyring chance rows).Follows (Amid source A keyring rows start)
      (Ran A keyring rows start) start := by
  induction rows generalizing start with
  | nil =>
    refine .pure (.initial hs []) (.returned fun tenant ↦ .inl ⟨rfl, fun row hadopts ↦ ?_⟩)
    cases hadopts.row
  | cons row rest ih =>
    have hread : readsGit (fun g ↦ .ok (connectionsOf g row.tenant)) start =
        (.ok (connectionsOf start.access.git row.tenant), start) := rfl
    rw [adoptLegacyGitConfig]
    apply Script.Follows.bind
      (R := fun r t ↦ r = .ok (connectionsOf start.access.git row.tenant) ∧ start = t)
      (.atomic (.initial hs _) hread (.initial hs _) ⟨rfl, rfl⟩)
    · rintro existing t - ⟨hread, rfl⟩
      cases hread
      by_cases hbare : connectionsOf start.access.git row.tenant = []
      · rw [if_neg (not_not.mpr hbare)]
        have hone : (adoptOne A row.tenant row keyring (chance.fresh row.tenant)
            (chance.now row.tenant)).Follows (Amid source A keyring (row :: rest) start)
              (fun r t ↦ Adopting source A keyring row.tenant row start t ∧
                Ended A keyring row.tenant row start r t) start :=
          (follows_adoptOne hs (.of_sound hs hbare) _ _).mono
            (fun t ht ↦ ⟨ht.1, ht.stands hbare⟩) (fun _ _ ht hr ↦ ⟨ht, hr⟩)
        apply hone.bind
        · rintro a t ht ⟨⟨-, hothers, -⟩, herror, hok⟩
          cases hview : adopted A keyring row.tenant row
            (legacyCredential start.access row.tenant) with
          | error e => cases herror e hview
          | ok view => exact follows_next hbare ht hothers hview (hok view hview).2 (ih ht.1)
        · rintro e t - ⟨-, -, hok⟩
          cases hview : adopted A keyring row.tenant row
            (legacyCredential start.access row.tenant) with
          | error e =>
            exact .raised ⟨row.tenant, row, e, ⟨legacyRow_self row rest, hbare⟩, hview⟩
          | ok view => cases (hok view hview).1
      · rw [if_pos hbare]
        exact follows_skip hbare (ih hs)
    · rintro e t - ⟨he, -⟩
      cases he

/-! ## A run after one that was stopped -/

theorem HalfAdopted.connected {t : AccessTables} (h : HalfAdopted t tenant row) :
    connectionsOf t.git tenant ≠ [] := by
  obtain ⟨c, hc, -⟩ := h
  exact List.ne_nil_of_mem hc

/-- The rows of a tenant without a connection are as they were. -/
private theorem Stands.of_bare {rows : List GitConfigRow}
    (h : Stands A keyring rows start db tenant)
    (hbare : connectionsOf db.access.git tenant = []) : SameRows tenant start db := by
  rcases h with hsame | ⟨row, fields, c, -, -, hbegun⟩
  · exact hsame
  · rw [hbegun.connections] at hbare
    cases hbare

private theorem Adopts.same {rows : List GitConfigRow} (h : Adopts rows db tenant row)
    (hsame : SameRows tenant start db) : Adopts rows start tenant row :=
  ⟨h.row, hsame.connectionsOf.symm.trans h.bare⟩

private theorem Adopts.unique {rows : List GitConfigRow} {row' : GitConfigRow}
    (h : Adopts rows start tenant row) (h' : Adopts rows start tenant row') : row' = row :=
  Option.some.inj (h'.row.symm.trans h.row)

/-- A run that starts where another was stopped raises nothing that a whole run would not. -/
private theorem not_refused_of_stands {rows : List GitConfigRow} {whole : Database}
    (hwhole : ∀ tenant, Finished A keyring rows start whole tenant)
    (hstands : ∀ tenant, Stands A keyring rows start db tenant) :
    ¬ Refused A keyring rows db := by
  rintro ⟨tenant, row, e, hadopts, hraised⟩
  have hsame := (hstands tenant).of_bare hadopts.bare
  rcases hwhole tenant with ⟨-, hnone⟩ | ⟨row', view, hadopts', hview, -⟩
  · exact hnone row (hadopts.same hsame)
  · cases hadopts'.unique (hadopts.same hsame)
    rw [hsame.legacyCredential, hview] at hraised
    cases hraised

/-- Between the run that was stopped and the end of the next, a tenant gets what a whole run gives
exactly where its adoption was not left half done. -/
private theorem contents_rerun_iff {rows : List GitConfigRow} {whole again : Database}
    (hwhole : Finished A keyring rows start whole tenant)
    (hstands : Stands A keyring rows start db tenant)
    (hagain : Finished A keyring rows db again tenant) :
    contents A keyring again.access tenant = contents A keyring whole.access tenant ↔
      ∀ row, Adopts rows start tenant row → ¬ HalfAdopted db.access tenant row := by
  rcases hstands with hsame | ⟨row, fields, c, hadopts, hfields, hbegun⟩
  · apply iff_of_true
    · rcases hagain with ⟨hsame', hnone⟩ | ⟨row, view, hadopts, hview, hcontents⟩
      · rcases hwhole with ⟨hwhole, -⟩ | ⟨row, -, hadopts, -⟩
        · rw [hsame'.contents, hsame.contents, hwhole.contents]
        · exact absurd ⟨hadopts.row, hsame.connectionsOf.trans hadopts.bare⟩ (hnone row)
      · rcases hwhole with ⟨-, hnone⟩ | ⟨row', view', hadopts', hview', hcontents'⟩
        · exact absurd (hadopts.same hsame) (hnone row)
        · cases hadopts'.unique (hadopts.same hsame)
          rw [hsame.legacyCredential, hview'] at hview
          cases hview
          rw [hcontents, hcontents']
    · intro row hadopts hhalf
      exact hhalf.connected (hsame.connectionsOf.trans hadopts.bare)
  · rcases hwhole with ⟨-, hnone⟩ | ⟨row', view, hadopts', hview, hcontents⟩
    · exact absurd hadopts (hnone row)
    · cases hadopts.unique hadopts'
      rcases hagain with ⟨hsame', -⟩ | ⟨_, _, hbare, -, -⟩
      · rw [hsame'.contents, hcontents, hbegun.contents_iff hfields hview]
        constructor
        · intro hdone row' hadopts'
          cases hadopts.unique hadopts'
          exact hdone
        · exact fun hdone ↦ hdone _ hadopts
      · have hnone := hbare.bare
        rw [hbegun.connections] at hnone
        cases hnone

/-- A run that returned adopted every tenant that had no connection. -/
private theorem finished_of_run {rows : List GitConfigRow} {chance : Chance} {n : Nat}
    (hs : Sound source start)
    (hdone : (adoptLegacyGitConfig A keyring chance rows).run start = (.ok n, db)) :
    ∀ tenant, Finished A keyring rows start db tenant := by
  have hran : Ran A keyring rows start _ _ := (follows_adoptLegacyGitConfig chance rows hs).outcome
  rw [hdone] at hran
  exact hran.1 n rfl

/-- Where no adoption raises, the run returns. -/
private theorem run_of_not_refused {rows : List GitConfigRow} (hs : Sound source start)
    (h : ¬ Refused A keyring rows start) (chance : Chance) :
    ∃ n db, (adoptLegacyGitConfig A keyring chance rows).run start = (.ok n, db) := by
  have hran : Ran A keyring rows start _ _ := (follows_adoptLegacyGitConfig chance rows hs).outcome
  cases hrun : (adoptLegacyGitConfig A keyring chance rows).run start with
  | mk r db =>
    rw [hrun] at hran
    cases r with
    | ok n => exact ⟨n, db, rfl⟩
    | error e => exact absurd (hran.2 e rfl) h

/-- A run to the end, and a run to the end after one that was stopped somewhere, leave every tenant
the same exactly where no adoption raises and the stop left none half done. -/
theorem adoption_survives_stop_iff (hs : Sound source start) (rows : List GitConfigRow)
    (whole interrupted again : Chance) (k : Nat) :
    (∃ n last m db, (adoptLegacyGitConfig A keyring whole rows).run start = (.ok n, last) ∧
      (adoptLegacyGitConfig A keyring again rows).run
        (Script.stopped k (adoptLegacyGitConfig A keyring interrupted rows) start) = (.ok m, db) ∧
      ∀ tenant, contents A keyring db.access tenant = contents A keyring last.access tenant) ↔
    ¬ Refused A keyring rows start ∧ ∀ tenant row, Adopts rows start tenant row →
      ¬ HalfAdopted (Script.stopped k (adoptLegacyGitConfig A keyring interrupted rows)
        start).access tenant row := by
  obtain ⟨hsound, hstands⟩ : Amid source A keyring rows start
      (Script.stopped k (adoptLegacyGitConfig A keyring interrupted rows) start) :=
    (follows_adoptLegacyGitConfig interrupted rows hs).visited _ (Script.stopped_mem_visited k _ _)
  revert hsound hstands
  generalize Script.stopped k (adoptLegacyGitConfig A keyring interrupted rows) start = stop
  intro hsound hstands
  constructor
  · rintro ⟨n, last, m, db, hdone, hrun, hcontents⟩
    have hwhole := finished_of_run hs hdone
    have hagain := finished_of_run hsound hrun
    refine ⟨not_refused_of_stands hwhole fun _ ↦ .inl rfl, fun tenant ↦ ?_⟩
    exact (contents_rerun_iff (hwhole tenant) (hstands tenant) (hagain tenant)).mp
      (hcontents tenant)
  · rintro ⟨hrefused, hhalf⟩
    obtain ⟨n, last, hdone⟩ := run_of_not_refused hs hrefused whole
    have hwhole := finished_of_run hs hdone
    obtain ⟨m, db, hrun⟩ :=
      run_of_not_refused hsound (not_refused_of_stands hwhole hstands) again
    have hagain := finished_of_run hsound hrun
    refine ⟨n, last, m, db, hdone, hrun, fun tenant ↦ ?_⟩
    exact (contents_rerun_iff (hwhole tenant) (hstands tenant) (hagain tenant)).mpr (hhalf tenant)

/-- What the random source and the clock hand out, the same to all. -/
def steadyChance : Chance where
  fresh _ := ⟨plainKey 1, plainNonce 2, plainNonce 3⟩
  now _ := 0

/-- A row of `acme` that names a project. -/
def acmeRow : GitConfigRow where
  tenantId := "acme"
  project := some "acme/app"

/-- Its adoption, where there is no key. -/
def adoptAcme : StoreScript Nat :=
  adoptLegacyGitConfig (Aead.symbolic UInt8) none steadyChance [acmeRow]

/-- Stopped once its repository is the default, the adoption is complete after the next run. -/
theorem adopted_acme_survives_stop :
    ∃ n last m db, adoptAcme.run {} = (.ok n, last) ∧
      adoptAcme.run (Script.stopped 5 adoptAcme {}) = (.ok m, db) ∧
      ∀ tenant, contents (Aead.symbolic UInt8) none db.access tenant =
        contents (Aead.symbolic UInt8) none last.access tenant := by
  have honly : ∀ tenant row, Adopts [acmeRow] {} tenant row → tenant = "acme" ∧ row = acmeRow := by
    rintro tenant row ⟨hrow, -⟩
    rw [legacyRow] at hrow
    have htenant := List.find?_some hrow
    cases List.mem_singleton.mp (List.mem_of_find?_eq_some hrow)
    exact ⟨(beq_iff_eq.mp htenant).symm, rfl⟩
  apply (adoption_survives_stop_iff (sound_empty countedStates) [acmeRow] steadyChance
    steadyChance steadyChance 5).mpr
  constructor
  · rintro ⟨tenant, row, e, hadopts, hraised⟩
    obtain ⟨rfl, rfl⟩ := honly tenant row hadopts
    have hview : (adopted (Aead.symbolic UInt8) none "acme" acmeRow none).isOk = true := by decide
    rw [show legacyCredential (Database.access {}) "acme" = none from rfl] at hraised
    rw [hraised] at hview
    cases hview
  · intro tenant row hadopts
    obtain ⟨rfl, rfl⟩ := honly tenant row hadopts
    rw [HalfAdopted]
    decide

/-- Stopped once the connection is there, it leaves the connection without its repository, and the
next run ends without another step. -/
theorem acme_not_adopted_again :
    (adoptAcme.run {}).1 = .ok 1 ∧ (adoptAcme.run (Script.stopped 2 adoptAcme {})).1 = .ok 0 ∧
      ¬ ∀ tenant, contents (Aead.symbolic UInt8) none
          (adoptAcme.run (Script.stopped 2 adoptAcme {})).2.access tenant =
        contents (Aead.symbolic UInt8) none (adoptAcme.run {}).2.access tenant := by
  refine ⟨by decide, by decide, fun hsame ↦ ?_⟩
  have hacme := hsame "acme"
  revert hacme
  decide

end CFactory.Tenants
