import CFactory.Base.Rows
import CFactory.Git.Configured

/-!
# A tenant's part of the configuration tables

`cards.py:1042–1329,1470–1599`. Rows are looked up by primary key and by connection, without
their tenant, behind reads that are scoped. Every read of a tenant answers from its own rows,
and every write does to them what it would do if there were no others, and leaves those.
-/

namespace CFactory.Git

open CFactory.Base

variable {g g' g'' : GitTables} {tenant : String}

/-- The rows of a tenant. -/
def GitTables.of (g : GitTables) (tenant : String) : GitTables where
  connections := g.connections.filter (·.tenantId == tenant)
  repositories := g.repositories.filter (·.tenantId == tenant)

/-- The rows of the other tenants. -/
def GitTables.others (g : GitTables) (tenant : String) : GitTables where
  connections := Base.others (·.tenantId == tenant) g.connections
  repositories := Base.others (·.tenantId == tenant) g.repositories

/-- The tables are in order, connections have primary keys of their own, and a repository is
the default of no tenant but its own. -/
structure Tenanted (g : GitTables) : Prop extends Configured g where
  connectionIds : (g.connections.map GitConnectionRow.id).Nodup
  defaults : ∀ r ∈ g.repositories, ∀ t, r.defaultForTenant = some t → r.tenantId = t

theorem tenanted_empty : Tenanted {} where
  toConfigured := configured_empty
  connectionIds := List.nodup_nil
  defaults := by simp

/-- A repository is reached through the one connection of its id. -/
theorem Tenanted.home (h : Tenanted g) {r : GitRepositoryRow} (hr : r ∈ g.repositories) :
    ∃ c, connectionOrNone g r.tenantId r.connectionId = some c ∧ c ∈ g.connections ∧
      c.id = r.connectionId ∧ ∀ d ∈ g.connections, d.id = r.connectionId → d = c := by
  obtain ⟨c, hc, hid, htenant⟩ := h.homed r hr
  have honly : ∀ d ∈ g.connections, d.id = r.connectionId → d = c := fun d hd hdid ↦
    List.inj_on_of_nodup_map h.connectionIds hd hc (hdid.trans hid.symm)
  refine ⟨c, ?_, hc, hid, honly⟩
  have hsome : (g.connections.find? fun d ↦ d.id == r.connectionId &&
      d.tenantId == r.tenantId).isSome := by
    rw [List.find?_isSome]
    exact ⟨c, hc, by rw [hid, htenant, beq_self_eq_true, beq_self_eq_true]; rfl⟩
  obtain ⟨found, hfound⟩ := Option.isSome_iff_exists.mp hsome
  have hfound : connectionOrNone g r.tenantId r.connectionId = some found := hfound
  obtain ⟨hmem, hfoundId, -⟩ := connectionOrNone_spec hfound
  rw [← honly found hmem hfoundId]
  exact hfound

/-- A connection found for the tenant is the only row under its id. -/
theorem Tenanted.tenant_of_id (h : Tenanted g) {id : Nat} {c q : GitConnectionRow}
    (hc : connectionOrNone g tenant id = some c) (hq : q ∈ g.connections) (hid : q.id = id) :
    q.tenantId = tenant := by
  obtain ⟨hmem, hcid, htenant⟩ := connectionOrNone_spec hc
  rw [List.inj_on_of_nodup_map h.connectionIds hq hmem (hid.trans hcid.symm), htenant]

/-- The repositories of a connection found for the tenant are its own. -/
theorem Tenanted.tenant_of_connection (h : Tenanted g) {id : Nat} {c : GitConnectionRow}
    {r : GitRepositoryRow} (hc : connectionOrNone g tenant id = some c)
    (hr : r ∈ g.repositories) (hid : r.connectionId = id) : r.tenantId = tenant := by
  obtain ⟨q, hq, hqid, hqtenant⟩ := h.homed r hr
  rw [← hqtenant, h.tenant_of_id hc hq (hqid.trans hid)]

/-- A repository found for the tenant is the only row under its id. -/
theorem Tenanted.tenant_of_repository (h : Tenanted g) {id : Nat} {r q : GitRepositoryRow}
    (hr : repository g tenant id = .ok r) (hq : q ∈ g.repositories) (hid : q.id = id) :
    q.tenantId = tenant := by
  obtain ⟨hmem, hrid⟩ := repository_ok hr
  obtain ⟨hmem, htenant⟩ := mem_repositoriesOf.mp hmem
  rw [List.inj_on_of_nodup_map h.ids hq hmem (hid.trans hrid.symm), htenant]

/-! ## Reads -/

@[simp] theorem connectionsOf_of (g : GitTables) (tenant : String) :
    connectionsOf (g.of tenant) tenant = connectionsOf g tenant :=
  filter_own (fun _ h ↦ h) g.connections

@[simp] theorem connectionOrNone_of (g : GitTables) (tenant : String) (id : Nat) :
    connectionOrNone (g.of tenant) tenant id = connectionOrNone g tenant id := by
  apply find?_own
  intro c hc
  rw [Bool.and_eq_true] at hc
  exact hc.2

@[simp] theorem connection_of (g : GitTables) (tenant : String) (id : Nat) :
    connection (g.of tenant) tenant id = connection g tenant id := by
  rw [connection, connectionOrNone_of, connection]

@[simp] theorem repositoriesOf_of (g : GitTables) (tenant : String) :
    repositoriesOf (g.of tenant) tenant = repositoriesOf g tenant :=
  filter_own (fun _ h ↦ h) g.repositories

@[simp] theorem repository_of (g : GitTables) (tenant : String) (id : Nat) :
    repository (g.of tenant) tenant id = repository g tenant id := by
  have hfind : (g.of tenant).repositories.find? (fun r ↦ r.id == id && r.tenantId == tenant) =
      g.repositories.find? fun r ↦ r.id == id && r.tenantId == tenant := by
    apply find?_own
    intro r hr
    rw [Bool.and_eq_true] at hr
    exact hr.2
  rw [repository, hfind, repository]

/-- The default repository of a tenant is one of its own. -/
theorem defaultRepository_of (h : Tenanted g) (tenant : String) :
    defaultRepository (g.of tenant) tenant = defaultRepository g tenant := by
  have hfind : (g.of tenant).repositories.find? (·.defaultForTenant == some tenant) =
      g.repositories.find? (·.defaultForTenant == some tenant) := by
    rw [← List.head?_filter, ← List.head?_filter]
    congr 1
    show (g.repositories.filter _).filter _ = _
    rw [List.filter_filter]
    apply List.filter_congr
    intro r hr
    cases hdefault : r.defaultForTenant == some tenant with
    | false => rfl
    | true =>
      have htenant := h.defaults r hr tenant (beq_iff_eq.mp hdefault)
      rw [htenant, beq_self_eq_true, Bool.and_self]
  rw [defaultRepository, hfind, defaultRepository]
  simp only [connectionOrNone_of]

@[simp] theorem repositoryAt_of (g : GitTables) (tenant path : String) :
    repositoryAt (g.of tenant) tenant path = repositoryAt g tenant path := by
  rw [repositoryAt, repositoriesOf_of, repositoryAt]

theorem resolveByPath_of (h : Tenanted g) (tenant : String) (project : Option String) :
    resolveByPath (g.of tenant) tenant project = resolveByPath g tenant project := by
  rw [resolveByPath, resolveByPath, defaultRepository_of h]
  simp only [repositoryAt_of, connectionOrNone_of]

theorem resolveRepository_of (h : Tenanted g) (tenant : String) (repositoryId : Option Nat)
    (project : Option String) :
    resolveRepository (g.of tenant) tenant repositoryId project =
      resolveRepository g tenant repositoryId project := by
  cases repositoryId with
  | none => rw [resolveRepository, resolveRepository, resolveByPath_of h]
  | some id =>
    simp only [resolveRepository, repository_of, connectionOrNone_of, resolveByPath_of h]

@[simp] theorem holdsHost_of (g : GitTables) (id : Nat) (tenant : String) (provider : Provider)
    (baseUrl : String) :
    holdsHost (g.of tenant) id tenant provider baseUrl =
      holdsHost g id tenant provider baseUrl := by
  apply any_own
  intro c hc
  simp only [Bool.and_eq_true] at hc
  exact hc.1.1.2

/-- The unique index of repositories looks at one connection, which is the tenant's. -/
theorem holdsProject_of (h : Tenanted g) {connectionId : Nat} {c : GitConnectionRow}
    (hc : connectionOrNone g tenant connectionId = some c) (id : Nat) (project : String) :
    holdsProject (g.of tenant) id connectionId project =
      holdsProject g id connectionId project := by
  apply any_own_of_mem
  intro r hr hq
  simp only [Bool.and_eq_true, beq_iff_eq] at hq
  exact beq_iff_eq.mpr (h.tenant_of_connection hc hr hq.1.2)

@[simp] theorem connectionTo_of (g : GitTables) (tenant : String) (provider : Provider)
    (baseUrl : String) :
    connectionTo (g.of tenant) tenant provider baseUrl =
      connectionTo g tenant provider baseUrl := by
  rw [connectionTo, connectionsOf_of, connectionTo]

theorem editableConnection_of (h : Tenanted g) (tenant : String) :
    editableConnection (g.of tenant) tenant = editableConnection g tenant := by
  rw [editableConnection, defaultRepository_of h, connectionsOf_of, editableConnection]

/-! ## Primary keys -/

/-- The next primary keys of the two tables. -/
structure GitKeys where
  connection : Nat := 1
  repository : Nat := 1
  deriving DecidableEq, Repr

/-- How many keys above those in use are used up where `next` is the next one. -/
def skippedTo (ids : List Nat) (next : Nat) : Nat := next - (ids.foldl max 0 + 1)

/-- A sequence that is ahead of all keys gives its next one. -/
theorem nextId_skippedTo {ids : List Nat} {next : Nat} (hpos : 0 < next)
    (h : ∀ id ∈ ids, id < next) : nextId ids (skippedTo ids next) = next := by
  have hlt : ids.foldl max 0 < next := by
    apply Nat.lt_of_not_le
    intro hle
    cases (le_foldl_max ids 0 next).mp hle with
    | inl hzero => omega
    | inr hsome =>
      obtain ⟨id, hid, hle⟩ := hsome
      exact absurd (h id hid) (by omega)
  rw [nextId, skippedTo]
  omega

/-! ## What a write does to a tenant's rows -/

theorem modifyConnection_of {f : GitConnectionRow → GitConnectionRow}
    (hf : ∀ c, (f c).tenantId = c.tenantId) (g : GitTables) (tenant : String) (id : Nat) :
    modifyConnection (g.of tenant) id f = (modifyConnection g id f).of tenant := by
  rw [modifyConnection, modifyConnection, GitTables.of, GitTables.of, map_own]
  intro c
  by_cases hc : c.id = id
  · rw [if_pos hc, hf]
  · rw [if_neg hc]

/-- Repositories changed in place. -/
private theorem mapRepositories_of {f : GitRepositoryRow → GitRepositoryRow}
    (hf : ∀ r, (f r).tenantId = r.tenantId) (g : GitTables) (tenant : String) :
    { connections := (g.of tenant).connections
      repositories := (g.of tenant).repositories.map f } =
      ({ g with repositories := g.repositories.map f } : GitTables).of tenant := by
  rw [GitTables.of, GitTables.of, map_own]
  intro r
  rw [hf]

theorem modifyRepository_of {f : GitRepositoryRow → GitRepositoryRow}
    (hf : ∀ r, (f r).tenantId = r.tenantId) (g : GitTables) (tenant : String) (id : Nat) :
    modifyRepository (g.of tenant) id f = (modifyRepository g id f).of tenant := by
  apply mapRepositories_of
  intro r
  by_cases hr : r.id = id
  · rw [if_pos hr, hf]
  · rw [if_neg hr]

theorem clearDefaultRepository_of (g : GitTables) (tenant tenant' : String) :
    clearDefaultRepository (g.of tenant) tenant' =
      (clearDefaultRepository g tenant').of tenant := by
  apply mapRepositories_of
  intro r
  split <;> rfl

theorem setDefaultRepository_of (g : GitTables) (tenant : String) (id : Nat) :
    setDefaultRepository (g.of tenant) tenant id =
      (setDefaultRepository g tenant id).map (·.of tenant) := by
  rw [setDefaultRepository, setDefaultRepository, repository_of]
  cases repository g tenant id with
  | error e => rfl
  | ok r =>
    apply congrArg Except.ok
    rw [clearDefaultRepository_of]
    apply modifyRepository_of
    intro r
    rfl

theorem ensureDefaultRepository_of (g : GitTables) (tenant : String) :
    ensureDefaultRepository (g.of tenant) tenant =
      (ensureDefaultRepository g tenant).of tenant := by
  rw [ensureDefaultRepository, ensureDefaultRepository, repositoriesOf_of]
  split
  · rfl
  · split
    · rfl
    · rename_i first _ _ _
      rw [setDefaultRepository_of]
      cases setDefaultRepository g tenant first.id with
      | error e => rfl
      | ok g' => rfl

private theorem addConnection_of (g : GitTables) {row : GitConnectionRow}
    (hrow : row.tenantId = tenant) :
    { connections := (g.of tenant).connections ++ [row]
      repositories := (g.of tenant).repositories } =
      ({ g with connections := g.connections ++ [row] } : GitTables).of tenant := by
  rw [GitTables.of, GitTables.of, append_own]
  intro c hc
  cases List.mem_singleton.mp hc
  exact beq_iff_eq.mpr hrow

theorem addRepository_of (g : GitTables) (tenant : String) {row : GitRepositoryRow}
    (hrow : row.tenantId = tenant) :
    { connections := (g.of tenant).connections
      repositories := (g.of tenant).repositories ++ [row] } =
      ({ g with repositories := g.repositories ++ [row] } : GitTables).of tenant := by
  rw [GitTables.of, GitTables.of, append_own]
  intro r hr
  cases List.mem_singleton.mp hr
  exact beq_iff_eq.mpr hrow

theorem createConnection_of {s s' : Nat} (body : GitConnectionCreate)
    (hkey : nextId ((g.of tenant).connections.map (·.id)) s' =
      nextId (g.connections.map (·.id)) s) :
    createConnection (g.of tenant) tenant s' body =
      (createConnection g tenant s body).map fun done ↦ (done.1, done.2.of tenant) := by
  rw [createConnection, createConnection, hkey]
  split
  · rfl
  · cases connectionFields (some body.provider) body.baseUrl body.label with
    | error e => rfl
    | ok fields =>
      dsimp only [bind, Except.bind]
      rw [holdsHost_of]
      split
      · rfl
      · exact congrArg (fun g' ↦ Except.ok (_, g')) (addConnection_of g rfl)

theorem updateConnection_of (g : GitTables) (tenant : String) (id : Nat)
    (body : GitConnectionUpdate) :
    updateConnection (g.of tenant) tenant id body =
      (updateConnection g tenant id body).map fun done ↦ (done.1, done.2.of tenant) := by
  rw [updateConnection, updateConnection, connection_of]
  split
  · rfl
  · cases connection g tenant id with
    | error e => rfl
    | ok current =>
      dsimp only [bind, Except.bind]
      cases connectionFields (body.provider.getD (some current.provider.text))
        (body.baseUrl.getD (some current.baseUrl)) (body.label.getD (some current.label)) with
      | error e => rfl
      | ok fields =>
        dsimp only
        rw [holdsHost_of]
        split
        · rfl
        · exact congrArg (fun g' ↦ Except.ok (_, g')) (modifyConnection_of (by intro c; rfl) g _ _)

theorem deleteConnection_of (g : GitTables) (tenant : String) (id : Nat) :
    deleteConnection (g.of tenant) tenant id =
      (deleteConnection g tenant id).map (·.of tenant) := by
  rw [deleteConnection, deleteConnection, connection_of]
  cases connection g tenant id with
  | error e => rfl
  | ok c =>
    apply congrArg Except.ok
    dsimp only
    rw [← ensureDefaultRepository_of]
    apply congrArg (ensureDefaultRepository · tenant)
    exact congrArg₂ GitTables.mk (delete_own _ _).symm (delete_own _ _).symm

theorem createRepository_of (h : Tenanted g) {s s' connectionId : Nat}
    (body : GitRepositoryCreate)
    (hkey : nextId ((g.of tenant).repositories.map (·.id)) s' =
      nextId (g.repositories.map (·.id)) s) :
    createRepository (g.of tenant) tenant s' connectionId body =
      (createRepository g tenant s connectionId body).map (·.of tenant) := by
  rw [createRepository, createRepository, hkey, connection_of, defaultRepository_of h]
  split
  · rfl
  · cases hc : connection g tenant connectionId with
    | error e => rfl
    | ok c =>
      dsimp only [bind, Except.bind]
      cases repositoryFields body c.provider with
      | error e => rfl
      | ok fields =>
        have hfound := connectionOrNone_of_connection hc
        dsimp only
        rw [holdsProject_of h hfound]
        split
        · rfl
        · rw [addRepository_of g tenant]
          · split
            · exact setDefaultRepository_of _ _ _
            · rfl
          · rfl

theorem updateRepository_of (h : Tenanted g) (id : Nat) (body : GitRepositoryUpdate) :
    updateRepository (g.of tenant) tenant id body =
      (updateRepository g tenant id body).map (·.of tenant) := by
  rw [updateRepository, updateRepository, repository_of]
  split
  · rfl
  · cases repository g tenant id with
    | error e => rfl
    | ok current =>
      dsimp only [bind, Except.bind]
      rw [connection_of]
      cases hc : connection g tenant current.connectionId with
      | error e => rfl
      | ok c =>
        have hfound := connectionOrNone_of_connection hc
        dsimp only
        cases repositoryPatch body c.provider with
        | error e => rfl
        | ok patch =>
          dsimp only
          rw [holdsProject_of h hfound]
          split
          · rfl
          · split
            · rfl
            · exact congrArg Except.ok (modifyRepository_of (by intro r; rfl) g _ _)

theorem deleteRepository_of (g : GitTables) (tenant : String) (id : Nat) :
    deleteRepository (g.of tenant) tenant id =
      (deleteRepository g tenant id).map (·.of tenant) := by
  rw [deleteRepository, deleteRepository, repository_of]
  cases repository g tenant id with
  | error e => rfl
  | ok r =>
    apply congrArg Except.ok
    dsimp only
    rw [← ensureDefaultRepository_of]
    apply congrArg (ensureDefaultRepository · tenant)
    exact congrArg (GitTables.mk _) (delete_own _ _).symm

theorem connectionFor_of {s s' : Nat} (provider : Provider) (baseUrl : Option String)
    (hkey : nextId ((g.of tenant).connections.map (·.id)) s' =
      nextId (g.connections.map (·.id)) s) :
    connectionFor (g.of tenant) tenant s' provider baseUrl =
      (connectionFor g tenant s provider baseUrl).map fun done ↦ (done.1, done.2.of tenant) := by
  rw [connectionFor, connectionFor, createConnection_of _ hkey]
  cases createConnection g tenant s _ with
  | ok done => rfl
  | error e =>
    show (if e.isLookup then _ else _) = Except.map _ (if e.isLookup then _ else _)
    split
    · rfl
    · cases connectionFields (some provider.text)
        (baseUrl.bind fun url ↦ if url = "" then none else some url) none with
      | error e => rfl
      | ok wanted =>
        dsimp only [bind, Except.bind]
        rw [connectionTo_of]
        split <;> rfl

theorem shimConnection_of (h : Tenanted g) {s s' : Nat} (provider : Provider)
    (baseUrl : Option String)
    (hkey : nextId ((g.of tenant).connections.map (·.id)) s' =
      nextId (g.connections.map (·.id)) s) :
    shimConnection (g.of tenant) tenant s' provider baseUrl =
      (shimConnection g tenant s provider baseUrl).map fun done ↦ (done.1, done.2.of tenant) := by
  rw [shimConnection, shimConnection]
  cases connectionFields (some provider.text) baseUrl none with
  | error e => rfl
  | ok wanted =>
    dsimp only [bind, Except.bind]
    rw [connectionTo_of, editableConnection_of h, connectionFor_of provider baseUrl hkey]
    split
    · rfl
    · cases editableConnection g tenant with
      | none => rfl
      | some editable =>
        dsimp only
        rw [updateConnection_of]
        cases updateConnection g tenant editable.id _ with
        | ok done => rfl
        | error e =>
          show (if e.isLookup then _ else _) = Except.map _ (if e.isLookup then _ else _)
          split <;> rfl

/-! ## What a write leaves -/

/-- A write of a tenant keeps the tables in order and the rows of the others. New rows take
the next keys, and no connection goes but the one named. -/
structure TenantWrite (tenant : String) (keys : GitKeys) (gone : Option Nat) (g g' : GitTables) :
    Prop where
  tenanted : Tenanted g'
  others : g'.others tenant = g.others tenant
  connectionKeys : ∀ c ∈ g'.connections,
    (∃ q ∈ g.connections, q.id = c.id) ∨ c.id = keys.connection
  repositoryKeys : ∀ r ∈ g'.repositories,
    (∃ q ∈ g.repositories, q.id = r.id) ∨ r.id = keys.repository
  homes : ∀ c ∈ g.connections, gone ≠ some c.id →
    ∃ q ∈ g'.connections, q.id = c.id ∧ q.tenantId = c.tenantId

variable {keys : GitKeys} {gone : Option Nat}

/-- Nothing is written. -/
theorem TenantWrite.refl (h : Tenanted g) : TenantWrite tenant keys gone g g where
  tenanted := h
  others := rfl
  connectionKeys := fun c hc ↦ .inl ⟨c, hc, rfl⟩
  repositoryKeys := fun r hr ↦ .inl ⟨r, hr, rfl⟩
  homes := fun c hc _ ↦ ⟨c, hc, rfl, rfl⟩

/-- One write after another that deletes no connection. -/
theorem TenantWrite.trans (h : TenantWrite tenant keys gone g g')
    (h' : TenantWrite tenant keys none g' g'') : TenantWrite tenant keys gone g g'' where
  tenanted := h'.tenanted
  others := h'.others.trans h.others
  connectionKeys := by
    intro c hc
    cases h'.connectionKeys c hc with
    | inr hnew => exact .inr hnew
    | inl hold =>
      obtain ⟨q, hq, hid⟩ := hold
      rw [← hid]
      exact h.connectionKeys q hq
  repositoryKeys := by
    intro r hr
    cases h'.repositoryKeys r hr with
    | inr hnew => exact .inr hnew
    | inl hold =>
      obtain ⟨q, hq, hid⟩ := hold
      rw [← hid]
      exact h.repositoryKeys q hq
  homes := by
    intro c hc hkept
    obtain ⟨q, hq, hid, htenant⟩ := h.homes c hc hkept
    obtain ⟨p, hp, hpid, hptenant⟩ := h'.homes q hq nofun
    exact ⟨p, hp, hpid.trans hid, hptenant.trans htenant⟩

/-- A connection of the tenant changed in place. -/
theorem TenantWrite.modifyConnection (h : Tenanted g) {id : Nat} {c : GitConnectionRow}
    (hc : connectionOrNone g tenant id = some c) {f : GitConnectionRow → GitConnectionRow}
    (hf : ∀ c, (f c).id = c.id ∧ (f c).tenantId = c.tenantId) :
    TenantWrite tenant keys none g (modifyConnection g id f) := by
  have hsame : ∀ q : GitConnectionRow, (if q.id = id then f q else q).id = q.id ∧
      (if q.id = id then f q else q).tenantId = q.tenantId := by
    intro q
    by_cases hq : q.id = id
    · rw [if_pos hq]
      exact hf q
    · rw [if_neg hq]
      exact ⟨rfl, rfl⟩
  refine ⟨⟨h.toConfigured.modifyConnection id hf, ?_, h.defaults⟩, ?_, ?_, ?_, ?_⟩
  · have hids : (Git.modifyConnection g id f).connections.map GitConnectionRow.id =
        g.connections.map GitConnectionRow.id := by
      rw [Git.modifyConnection, List.map_map]
      exact List.map_congr_left fun q _ ↦ (hsame q).1
    rw [hids]
    exact h.connectionIds
  · apply congrArg (GitTables.mk · _)
    apply others_map
    · intro q _
      rw [(hsame q).2]
    · intro q hq hnot
      apply if_neg
      intro hid
      rw [h.tenant_of_id hc hq hid, beq_self_eq_true] at hnot
      cases hnot
  · intro q hq
    obtain ⟨p, hp, rfl⟩ := List.mem_map.mp hq
    exact .inl ⟨p, hp, (hsame p).1.symm⟩
  · exact fun r hr ↦ .inl ⟨r, hr, rfl⟩
  · intro q hq _
    exact ⟨_, List.mem_map_of_mem hq, hsame q⟩

/-- Repositories of the tenant changed in place. -/
private theorem TenantWrite.mapRepositories (h : Tenanted g)
    {f : GitRepositoryRow → GitRepositoryRow}
    (hconfigured : Configured { g with repositories := g.repositories.map f })
    (hf : ∀ r ∈ g.repositories, (f r).id = r.id ∧ (f r).tenantId = r.tenantId ∧
      ∀ t, (f r).defaultForTenant = some t → t = r.tenantId)
    (hothers : ∀ r ∈ g.repositories, r.tenantId ≠ tenant → f r = r) :
    TenantWrite tenant keys none g { g with repositories := g.repositories.map f } := by
  refine ⟨⟨hconfigured, h.connectionIds, ?_⟩, ?_, ?_, ?_, ?_⟩
  · intro r' hr' t ht
    obtain ⟨r, hr, rfl⟩ := List.mem_map.mp hr'
    rw [(hf r hr).2.1]
    exact ((hf r hr).2.2 t ht).symm
  · apply congrArg (GitTables.mk _)
    apply others_map
    · intro r hr
      rw [(hf r hr).2.1]
    · intro r hr hnot
      exact hothers r hr (by simpa using hnot)
  · exact fun c hc ↦ .inl ⟨c, hc, rfl⟩
  · intro r' hr'
    obtain ⟨r, hr, rfl⟩ := List.mem_map.mp hr'
    exact .inl ⟨r, hr, (hf r hr).1.symm⟩
  · exact fun c hc _ ↦ ⟨c, hc, rfl, rfl⟩

theorem TenantWrite.clearDefaultRepository (h : Tenanted g) :
    TenantWrite tenant keys none g (clearDefaultRepository g tenant) := by
  apply TenantWrite.mapRepositories h (h.toConfigured.clearDefaultRepository tenant)
  · intro r hr
    split
    · exact ⟨rfl, rfl, nofun⟩
    · exact ⟨rfl, rfl, fun t ht ↦ (h.defaults r hr t ht).symm⟩
  · intro r hr hnot
    exact if_neg fun hdefault ↦ hnot (h.defaults r hr tenant hdefault)

theorem TenantWrite.setDefaultRepository (h : Tenanted g) {id : Nat}
    (hset : setDefaultRepository g tenant id = .ok g') : TenantWrite tenant keys none g g' := by
  have hcleared : TenantWrite tenant keys none g (Git.clearDefaultRepository g tenant) :=
    .clearDefaultRepository h
  have hconfigured := h.toConfigured.setDefaultRepository hset
  rw [Git.setDefaultRepository, bind_eq_ok] at hset
  obtain ⟨found, hfound, hset⟩ := hset
  cases hset
  -- a row under the id is the tenant's before and after the other defaults are cleared
  have hown : ∀ r ∈ (Git.clearDefaultRepository g tenant).repositories, r.id = id →
      r.tenantId = tenant := by
    intro r hr hid
    obtain ⟨q, hq, rfl⟩ := List.mem_map.mp hr
    have hqid : q.id = id := by
      rw [← hid]
      split <;> rfl
    have hqtenant := h.tenant_of_repository hfound hq hqid
    split <;> exact hqtenant
  apply hcleared.trans
  apply TenantWrite.mapRepositories hcleared.tenanted hconfigured
  · intro r hr
    by_cases hid : r.id = id
    · rw [if_pos hid]
      refine ⟨rfl, rfl, fun t ht ↦ ?_⟩
      rw [hown r hr hid]
      exact (Option.some.inj ht).symm
    · rw [if_neg hid]
      exact ⟨rfl, rfl, fun t ht ↦ (hcleared.tenanted.defaults r hr t ht).symm⟩
  · intro r hr hnot
    exact if_neg fun hid ↦ hnot (hown r hr hid)

theorem TenantWrite.ensureDefaultRepository (h : Tenanted g) :
    TenantWrite tenant keys none g (ensureDefaultRepository g tenant) := by
  rw [Git.ensureDefaultRepository]
  split
  · exact .refl h
  · split
    · exact .refl h
    · rename_i first _ _ _
      cases hset : Git.setDefaultRepository g tenant first.id with
      | error e => exact .refl h
      | ok g' => exact .setDefaultRepository h hset

theorem TenantWrite.createConnection (h : Tenanted g) {skipped : Nat} {body : GitConnectionCreate}
    {c : GitConnectionRow} (hkey : nextId (g.connections.map (·.id)) skipped = keys.connection)
    (hcreate : createConnection g tenant skipped body = .ok (c, g')) :
    TenantWrite tenant keys none g g' := by
  have hconfigured := h.toConfigured.createConnection hcreate
  have hfresh := nextId_fresh (g.connections.map (·.id)) skipped
  obtain ⟨fields, -, rfl, rfl⟩ := createConnection_ok hcreate
  refine ⟨⟨hconfigured, ?_, h.defaults⟩, ?_, ?_, ?_, ?_⟩
  · rw [List.map_append]
    exact h.connectionIds.append (List.nodup_singleton _) (List.disjoint_singleton.mpr hfresh)
  · apply congrArg (GitTables.mk · _)
    apply others_append
    intro q hq
    cases List.mem_singleton.mp hq
    exact beq_self_eq_true tenant
  · intro q hq
    cases List.mem_append.mp hq with
    | inl hold => exact .inl ⟨q, hold, rfl⟩
    | inr hnew =>
      cases List.mem_singleton.mp hnew
      exact .inr hkey
  · exact fun r hr ↦ .inl ⟨r, hr, rfl⟩
  · exact fun q hq _ ↦ ⟨q, List.mem_append_left _ hq, rfl, rfl⟩

theorem TenantWrite.updateConnection (h : Tenanted g) {id : Nat} {body : GitConnectionUpdate}
    {c : GitConnectionRow} (hupdate : updateConnection g tenant id body = .ok (c, g')) :
    TenantWrite tenant keys none g g' := by
  obtain ⟨current, fields, hcurrent, -, -, rfl⟩ := updateConnection_ok hupdate
  exact .modifyConnection h (connectionOrNone_of_connection hcurrent) fun c ↦ ⟨rfl, rfl⟩

/-- Repositories of the tenant deleted, a connection only with all of its own. -/
theorem TenantWrite.filter (h : Tenanted g) {p : GitConnectionRow → Bool}
    {q : GitRepositoryRow → Bool}
    (hpq : ∀ r c, q r = true → c.id = r.connectionId → p c = true)
    (hgone : ∀ c ∈ g.connections, p c = false → c.tenantId = tenant ∧ gone = some c.id)
    (hown : ∀ r ∈ g.repositories, q r = false → r.tenantId = tenant) :
    TenantWrite tenant keys gone g
      { connections := g.connections.filter p, repositories := g.repositories.filter q } := by
  refine ⟨⟨h.toConfigured.filter hpq, ?_, ?_⟩, ?_, ?_, ?_, ?_⟩
  · exact h.connectionIds.sublist (List.filter_sublist.map GitConnectionRow.id)
  · exact fun r hr ↦ h.defaults r (List.mem_of_mem_filter hr)
  · apply congrArg₂ GitTables.mk
    · apply others_delete
      intro c hc hnot
      by_contra hp
      rw [(hgone c hc (by simpa using hp)).1, beq_self_eq_true] at hnot
      cases hnot
    · apply others_delete
      intro r hr hnot
      by_contra hq
      rw [hown r hr (by simpa using hq), beq_self_eq_true] at hnot
      cases hnot
  · exact fun c hc ↦ .inl ⟨c, List.mem_of_mem_filter hc, rfl⟩
  · exact fun r hr ↦ .inl ⟨r, List.mem_of_mem_filter hr, rfl⟩
  · intro c hc hkept
    refine ⟨c, List.mem_filter.mpr ⟨hc, ?_⟩, rfl, rfl⟩
    by_contra hp
    exact hkept (hgone c hc (by simpa using hp)).2

theorem TenantWrite.deleteConnection (h : Tenanted g) {id : Nat}
    (hdelete : deleteConnection g tenant id = .ok g') :
    TenantWrite tenant keys (some id) g g' := by
  rw [Git.deleteConnection, bind_eq_ok] at hdelete
  obtain ⟨c, hc, hdelete⟩ := hdelete
  have hfound := connectionOrNone_of_connection hc
  cases hdelete
  have hdropped : TenantWrite tenant keys (some id) g
      { connections := g.connections.filter (·.id ≠ id)
        repositories := g.repositories.filter (·.connectionId ≠ id) } := by
    apply TenantWrite.filter h
    · intro r c hkeep hhome
      rw [hhome]
      exact hkeep
    · intro q hq hgone
      have hid : q.id = id := by simpa using hgone
      exact ⟨h.tenant_of_id hfound hq hid, congrArg some hid.symm⟩
    · intro r hr hgone
      exact h.tenant_of_connection hfound hr (by simpa using hgone)
  exact hdropped.trans (.ensureDefaultRepository hdropped.tenanted)

theorem TenantWrite.deleteRepository (h : Tenanted g) {id : Nat}
    (hdelete : deleteRepository g tenant id = .ok g') : TenantWrite tenant keys none g g' := by
  rw [Git.deleteRepository, bind_eq_ok] at hdelete
  obtain ⟨r, hr, hdelete⟩ := hdelete
  cases hdelete
  have hdropped : TenantWrite tenant keys none g
      { connections := g.connections.filter fun _ ↦ true
        repositories := g.repositories.filter (·.id ≠ id) } := by
    apply TenantWrite.filter h
    · exact fun _ _ _ _ ↦ rfl
    · intro c hc hgone
      cases hgone
    · intro q hq hgone
      exact h.tenant_of_repository hr hq (by simpa using hgone)
  rw [List.filter_true] at hdropped
  exact hdropped.trans (.ensureDefaultRepository hdropped.tenanted)

/-- A repository more, the default of no tenant. -/
theorem TenantWrite.addRepository (h : Tenanted g) {r : GitRepositoryRow} {c : GitConnectionRow}
    (hfresh : r.id ∉ g.repositories.map GitRepositoryRow.id) (hc : c ∈ g.connections)
    (hhome : c.id = r.connectionId ∧ c.tenantId = r.tenantId) (hr : Addressed r)
    (hkey : r.id = keys.repository) (htenant : r.tenantId = tenant)
    (hdefault : r.defaultForTenant = none) :
    TenantWrite tenant keys none g { g with repositories := g.repositories ++ [r] } := by
  refine ⟨⟨h.toConfigured.addRepository hfresh hc hhome hr, h.connectionIds, ?_⟩, ?_, ?_, ?_, ?_⟩
  · intro q hq t ht
    cases List.mem_append.mp hq with
    | inl hold => exact h.defaults q hold t ht
    | inr hnew =>
      rw [List.mem_singleton.mp hnew, hdefault] at ht
      cases ht
  · apply congrArg (GitTables.mk _)
    apply others_append
    intro q hq
    rw [List.mem_singleton.mp hq, htenant]
    exact beq_self_eq_true tenant
  · exact fun c hc ↦ .inl ⟨c, hc, rfl⟩
  · intro q hq
    cases List.mem_append.mp hq with
    | inl hold => exact .inl ⟨q, hold, rfl⟩
    | inr hnew => exact .inr (List.mem_singleton.mp hnew ▸ hkey)
  · exact fun c hc _ ↦ ⟨c, hc, rfl, rfl⟩

theorem TenantWrite.createRepository (h : Tenanted g) {skipped connectionId : Nat}
    {body : GitRepositoryCreate}
    (hkey : nextId (g.repositories.map (·.id)) skipped = keys.repository)
    (hcreate : createRepository g tenant skipped connectionId body = .ok g') :
    TenantWrite tenant keys none g g' := by
  have hfresh := nextId_fresh (g.repositories.map (·.id)) skipped
  rw [Git.createRepository] at hcreate
  split at hcreate
  · cases hcreate
  · rw [bind_eq_ok] at hcreate
    obtain ⟨c, hc, hcreate⟩ := hcreate
    rw [bind_eq_ok] at hcreate
    obtain ⟨fields, hfields, hcreate⟩ := hcreate
    obtain ⟨hmem, hid, htenant⟩ := connection_ok hc
    dsimp only at hcreate
    split at hcreate
    · cases hcreate
    · have hadded : TenantWrite tenant keys none g
          { g with repositories := g.repositories ++ [
            { id := nextId (g.repositories.map (·.id)) skipped
              tenantId := tenant
              connectionId := connectionId
              project := fields.project
              intakeProject := fields.intakeProject
              aifactoryProjectId := fields.aifactoryProjectId
              defaultLabels := fields.defaultLabels }] } :=
        .addRepository h hfresh hmem ⟨hid, htenant⟩ (paths_of_repositoryFields hfields) hkey rfl rfl
      split at hcreate
      · exact hadded.trans (.setDefaultRepository hadded.tenanted hcreate)
      · cases hcreate
        exact hadded

theorem TenantWrite.updateRepository (h : Tenanted g) {id : Nat} {body : GitRepositoryUpdate}
    (hupdate : updateRepository g tenant id body = .ok g') : TenantWrite tenant keys none g g' := by
  have hconfigured := h.toConfigured.updateRepository hupdate
  obtain ⟨current, c, patch, hcurrent, -, -, hwrite⟩ := updateRepository_ok hupdate
  rcases hwrite with rfl | rfl
  · exact .refl h
  · apply TenantWrite.mapRepositories h hconfigured
    · intro r hr
      have hdefault := fun t ht ↦ (h.defaults r hr t ht).symm
      split
      · exact ⟨rfl, rfl, hdefault⟩
      · exact ⟨rfl, rfl, hdefault⟩
    · intro r hr hnot
      exact if_neg fun hid ↦ hnot (h.tenant_of_repository hcurrent hr hid)

theorem TenantWrite.connectionFor (h : Tenanted g) {skipped : Nat} {provider : Provider}
    {baseUrl : Option String} {c : GitConnectionRow}
    (hkey : nextId (g.connections.map (·.id)) skipped = keys.connection)
    (hfor : connectionFor g tenant skipped provider baseUrl = .ok (c, g')) :
    TenantWrite tenant keys none g g' := by
  cases connectionFor_cases hfor with
  | inl hcreate => exact .createConnection h hkey hcreate
  | inr hfound =>
    rw [hfound]
    exact .refl h

theorem TenantWrite.shimConnection (h : Tenanted g) {skipped : Nat} {provider : Provider}
    {baseUrl : Option String} {c : GitConnectionRow}
    (hkey : nextId (g.connections.map (·.id)) skipped = keys.connection)
    (hshim : shimConnection g tenant skipped provider baseUrl = .ok (c, g')) :
    TenantWrite tenant keys none g g' := by
  cases shimConnection_cases hshim with
  | inl hfound =>
    rw [hfound]
    exact .refl h
  | inr hwrite =>
    cases hwrite with
    | inl hupdate =>
      obtain ⟨id, body, hupdate⟩ := hupdate
      exact .updateConnection h hupdate
    | inr hfor => exact .connectionFor h hkey hfor

end CFactory.Git
