import CFactory.Base.Extremes
import CFactory.Git.Connections

/-!
# What every configuration write keeps

`git_connections.py:130–177`, `cards.py:1076–1279,1470–1599`. Repositories have primary keys of
their own, each is reached through a connection of its tenant, and its paths are project paths.
-/

namespace CFactory.Git

open CFactory.Base
open CFactory.Cards

/-- The paths of a repository are project paths. -/
def Addressed (r : GitRepositoryRow) : Prop :=
  isProject r.project.toList = true ∧ ∀ p, r.intakeProject = some p → isProject p.toList = true

/-- The tables are in order. -/
structure Configured (g : GitTables) : Prop where
  ids : (g.repositories.map GitRepositoryRow.id).Nodup
  homed : ∀ r ∈ g.repositories, ∃ c ∈ g.connections,
    c.id = r.connectionId ∧ c.tenantId = r.tenantId
  addressed : ∀ r ∈ g.repositories, Addressed r

variable {g g' : GitTables} {tenant : String}

theorem configured_empty : Configured {} where
  ids := List.nodup_nil
  homed := by simp
  addressed := by simp

/-! ## Reads -/

theorem mem_repositoriesOf {r : GitRepositoryRow} :
    r ∈ repositoriesOf g tenant ↔ r ∈ g.repositories ∧ r.tenantId = tenant := by
  rw [repositoriesOf, List.mem_filter, beq_iff_eq]

theorem connectionOrNone_spec {id : Nat} {c : GitConnectionRow}
    (h : connectionOrNone g tenant id = some c) :
    c ∈ g.connections ∧ c.id = id ∧ c.tenantId = tenant := by
  have hfound := List.find?_some h
  rw [Bool.and_eq_true, beq_iff_eq, beq_iff_eq] at hfound
  exact ⟨List.mem_of_find?_eq_some h, hfound⟩

theorem connectionOrNone_of_connection {id : Nat} {c : GitConnectionRow}
    (h : connection g tenant id = .ok c) : connectionOrNone g tenant id = some c := by
  rw [connection] at h
  cases hc : connectionOrNone g tenant id with
  | none =>
    rw [hc] at h
    cases h
  | some found =>
    rw [hc] at h
    cases h
    rfl

theorem connection_ok {id : Nat} {c : GitConnectionRow} (h : connection g tenant id = .ok c) :
    c ∈ g.connections ∧ c.id = id ∧ c.tenantId = tenant :=
  connectionOrNone_spec (connectionOrNone_of_connection h)

theorem repository_ok {id : Nat} {r : GitRepositoryRow} (h : repository g tenant id = .ok r) :
    r ∈ repositoriesOf g tenant ∧ r.id = id := by
  rw [repository] at h
  cases hr : g.repositories.find? fun r ↦ r.id == id && r.tenantId == tenant with
  | none =>
    rw [hr] at h
    cases h
  | some found =>
    rw [hr] at h
    cases h
    have hfound := List.find?_some hr
    rw [Bool.and_eq_true, beq_iff_eq, beq_iff_eq] at hfound
    exact ⟨mem_repositoriesOf.mpr ⟨List.mem_of_find?_eq_some hr, hfound.2⟩, hfound.1⟩

/-- A repository of the tenant is found by its primary key. -/
theorem Configured.repository_self (h : Configured g) {r : GitRepositoryRow}
    (hr : r ∈ repositoriesOf g tenant) : repository g tenant r.id = .ok r := by
  obtain ⟨hmem, htenant⟩ := mem_repositoriesOf.mp hr
  rw [repository]
  cases hfind : g.repositories.find? fun q ↦ q.id == r.id && q.tenantId == tenant with
  | none =>
    have hnone := List.find?_eq_none.mp hfind r hmem
    simp [htenant] at hnone
  | some q =>
    have hq := List.find?_some hfind
    rw [Bool.and_eq_true, beq_iff_eq] at hq
    rw [List.inj_on_of_nodup_map h.ids (List.mem_of_find?_eq_some hfind) hmem hq.1]

/-- It is resolved with its connection. -/
theorem Configured.resolve (h : Configured g) {r : GitRepositoryRow}
    (hr : r ∈ repositoriesOf g tenant) (project : Option String) :
    ∃ c, resolveRepository g tenant (some r.id) project = .ok (some ⟨c, r⟩) := by
  obtain ⟨hmem, htenant⟩ := mem_repositoriesOf.mp hr
  obtain ⟨c, hc, hid, hsame⟩ := h.homed r hmem
  cases hconnection : connectionOrNone g tenant r.connectionId with
  | none =>
    have hnone := List.find?_eq_none.mp hconnection c hc
    simp [hid, hsame, htenant] at hnone
  | some found =>
    refine ⟨found, ?_⟩
    rw [resolveRepository, h.repository_self hr]
    simp only [Except.map, hconnection]

/-! ## Resolutions -/

/-- A resolution is a stored repository and the connection found under its id. -/
structure Resolves (g : GitTables) (tenant : String) (resolved : ResolvedRepository) : Prop where
  repository : resolved.repository ∈ g.repositories
  connection : connectionOrNone g tenant resolved.connection.id = some resolved.connection

/-- So is a stored repository with its connection. -/
private theorem resolves_pair {r : GitRepositoryRow} {resolved : ResolvedRepository}
    (hr : r ∈ g.repositories)
    (h : (connectionOrNone g tenant r.connectionId).map (fun c ↦ ⟨c, r⟩) = some resolved) :
    Resolves g tenant resolved := by
  obtain ⟨c, hc, rfl⟩ := Option.map_eq_some_iff.mp h
  refine ⟨hr, ?_⟩
  show connectionOrNone g tenant c.id = some c
  rw [(connectionOrNone_spec hc).2.1, hc]

/-- The default repository is one. -/
theorem resolves_default {resolved : ResolvedRepository}
    (h : defaultRepository g tenant = some resolved) : Resolves g tenant resolved := by
  obtain ⟨r, hfound, hr⟩ := Option.bind_eq_some_iff.mp h
  exact resolves_pair (List.mem_of_find?_eq_some hfound) hr

/-- A repository found by its path is the tenant's. -/
theorem repositoryAt_mem {path : String} {r : GitRepositoryRow}
    (h : repositoryAt g tenant path = some r) : r ∈ repositoriesOf g tenant := by
  rw [repositoryAt, Option.or_eq_some_iff] at h
  cases h with
  | inl hdefault => exact (List.mem_filter.mp (List.mem_of_find?_eq_some hdefault)).1
  | inr hfirst => exact (List.mem_filter.mp (List.mem_of_mem_head? hfirst.2)).1

/-- What a path resolves to is a resolution. -/
theorem resolves_path {project : Option String} {resolved : ResolvedRepository}
    (h : resolveByPath g tenant project = some resolved) : Resolves g tenant resolved := by
  rw [resolveByPath, Option.or_eq_some_iff] at h
  cases h with
  | inl hchosen =>
    split at hchosen
    · cases hchosen
    · obtain ⟨r, hat, hr⟩ := Option.bind_eq_some_iff.mp hchosen
      exact resolves_pair (mem_repositoriesOf.mp (repositoryAt_mem hat)).1 hr
  | inr hdefault => exact resolves_default hdefault.2

/-- What is resolved is the repository named by its id, with its connection, or what the path
resolves to. -/
theorem resolveRepository_cases {repositoryId : Option Nat} {project : Option String}
    {o : Option ResolvedRepository} (h : resolveRepository g tenant repositoryId project = .ok o) :
    (∃ resolved, Resolves g tenant resolved ∧ o = some resolved) ∨
      o = resolveByPath g tenant project := by
  cases repositoryId with
  | none => exact .inr (Except.ok.inj h).symm
  | some id =>
    rw [resolveRepository] at h
    cases hr : repository g tenant id with
    | error e => rw [hr] at h; cases h
    | ok r =>
      have hstored := (mem_repositoriesOf.mp (repository_ok hr).1).1
      rw [hr] at h
      cases hc : connectionOrNone g tenant r.connectionId with
      | none =>
        simp only [Except.map, hc] at h
        exact .inr (Except.ok.inj h).symm
      | some c =>
        simp only [Except.map, hc] at h
        exact .inl ⟨⟨c, r⟩, resolves_pair hstored (by rw [hc]; rfl), (Except.ok.inj h).symm⟩

/-- What is resolved is a resolution. -/
theorem resolves {repositoryId : Option Nat} {project : Option String}
    {resolved : ResolvedRepository}
    (h : resolveRepository g tenant repositoryId project = .ok (some resolved)) :
    Resolves g tenant resolved := by
  cases resolveRepository_cases h with
  | inl hnamed =>
    obtain ⟨found, hfound, heq⟩ := hnamed
    cases heq
    exact hfound
  | inr hpath => exact resolves_path hpath.symm

/-- Where nothing resolves there is no default repository. -/
theorem defaultRepository_none {repositoryId : Option Nat} {project : Option String}
    (h : resolveRepository g tenant repositoryId project = .ok none) :
    defaultRepository g tenant = none := by
  cases resolveRepository_cases h with
  | inl hnamed =>
    obtain ⟨found, -, heq⟩ := hnamed
    cases heq
  | inr hpath =>
    have hboth := hpath.symm
    rw [resolveByPath, Option.or_eq_none_iff] at hboth
    exact hboth.2

/-! ## Shapes of a write -/

theorem nextId_fresh (ids : List Nat) (skipped : Nat) : nextId ids skipped ∉ ids := by
  intro hmem
  have hle := (le_foldl_max ids 0 (nextId ids skipped)).mpr (.inr ⟨_, hmem, le_refl _⟩)
  rw [nextId] at hle
  omega

/-- Connections changed in place. -/
theorem Configured.modifyConnection (h : Configured g) (id : Nat)
    {f : GitConnectionRow → GitConnectionRow}
    (hf : ∀ c, (f c).id = c.id ∧ (f c).tenantId = c.tenantId) :
    Configured (modifyConnection g id f) where
  ids := h.ids
  homed := by
    intro r hr
    obtain ⟨c, hc, hid, htenant⟩ := h.homed r hr
    refine ⟨if c.id = id then f c else c, List.mem_map_of_mem hc, ?_⟩
    by_cases hhit : c.id = id
    · rw [if_pos hhit]
      exact ⟨(hf c).1.trans hid, (hf c).2.trans htenant⟩
    · rw [if_neg hhit]
      exact ⟨hid, htenant⟩
  addressed := h.addressed

/-- Repositories changed in place. -/
theorem Configured.mapRepositories (h : Configured g) {f : GitRepositoryRow → GitRepositoryRow}
    (hf : ∀ r ∈ g.repositories, (f r).id = r.id ∧ (f r).tenantId = r.tenantId ∧
      (f r).connectionId = r.connectionId ∧ Addressed (f r)) :
    Configured { g with repositories := g.repositories.map f } where
  ids := by
    have hsame : (g.repositories.map f).map GitRepositoryRow.id =
        g.repositories.map GitRepositoryRow.id := by
      rw [List.map_map]
      exact List.map_congr_left fun r hr ↦ (hf r hr).1
    rw [hsame]
    exact h.ids
  homed := by
    intro r' hr'
    obtain ⟨r, hr, rfl⟩ := List.mem_map.mp hr'
    obtain ⟨-, htenant, hconnection, -⟩ := hf r hr
    rw [htenant, hconnection]
    exact h.homed r hr
  addressed := by
    intro r' hr'
    obtain ⟨r, hr, rfl⟩ := List.mem_map.mp hr'
    exact (hf r hr).2.2.2

/-- Rows dropped, a connection only with all its repositories. -/
theorem Configured.filter (h : Configured g) {p : GitConnectionRow → Bool}
    {q : GitRepositoryRow → Bool}
    (hpq : ∀ r c, q r = true → c.id = r.connectionId → p c = true) :
    Configured { connections := g.connections.filter p, repositories := g.repositories.filter q }
    where
  ids := h.ids.sublist (List.filter_sublist.map GitRepositoryRow.id)
  homed := by
    intro r hr
    obtain ⟨hmem, hkeep⟩ := List.mem_filter.mp hr
    obtain ⟨c, hc, hid, htenant⟩ := h.homed r hmem
    exact ⟨c, List.mem_filter.mpr ⟨hc, hpq r c hkeep hid⟩, hid, htenant⟩
  addressed := fun r hr ↦ h.addressed r (List.mem_filter.mp hr).1

/-- A connection more. -/
theorem Configured.addConnection (h : Configured g) (c : GitConnectionRow) :
    Configured { g with connections := g.connections ++ [c] } where
  ids := h.ids
  homed := by
    intro r hr
    obtain ⟨home, hhome, hsame⟩ := h.homed r hr
    exact ⟨home, List.mem_append_left _ hhome, hsame⟩
  addressed := h.addressed

/-- A repository more. -/
theorem Configured.addRepository (h : Configured g) {r : GitRepositoryRow} {c : GitConnectionRow}
    (hfresh : r.id ∉ g.repositories.map GitRepositoryRow.id) (hc : c ∈ g.connections)
    (hhome : c.id = r.connectionId ∧ c.tenantId = r.tenantId) (hr : Addressed r) :
    Configured { g with repositories := g.repositories ++ [r] } where
  ids := by
    rw [List.map_append, List.map_singleton]
    exact h.ids.append (List.nodup_singleton _) (List.disjoint_singleton.mpr hfresh)
  homed := by
    intro q hq
    rcases List.mem_append.mp hq with hq | hq
    · exact h.homed q hq
    · cases List.mem_singleton.mp hq
      exact ⟨c, hc, hhome⟩
  addressed := by
    intro q hq
    rcases List.mem_append.mp hq with hq | hq
    · exact h.addressed q hq
    · cases List.mem_singleton.mp hq
      exact hr

/-! ## What the writes did -/

/-- The row that `create_connection` inserts; `cards.py:1085`. -/
def newConnection (g : GitTables) (tenant : String) (skipped : Nat) (fields : ConnectionFields) :
    GitConnectionRow where
  id := nextId (g.connections.map (·.id)) skipped
  tenantId := tenant
  provider := fields.provider
  baseUrl := fields.baseUrl
  label := fields.label

/-- A created connection is a row more. -/
theorem createConnection_ok {skipped : Nat} {body : GitConnectionCreate} {c : GitConnectionRow}
    (h : createConnection g tenant skipped body = .ok (c, g')) :
    ∃ fields, connectionFields (some body.provider) body.baseUrl body.label = .ok fields ∧
      c = newConnection g tenant skipped fields ∧
      g' = { g with connections := g.connections ++ [c] } := by
  rw [createConnection] at h
  split at h
  · cases h
  · rw [bind_eq_ok] at h
    obtain ⟨fields, hfields, h⟩ := h
    dsimp only at h
    split at h
    · cases h
    · cases h
      exact ⟨fields, hfields, rfl, rfl⟩

/-- A patched connection is changed in place. -/
theorem updateConnection_ok {id : Nat} {body : GitConnectionUpdate} {c : GitConnectionRow}
    (h : updateConnection g tenant id body = .ok (c, g')) :
    ∃ current fields, connection g tenant id = .ok current ∧
      connectionFields (body.provider.getD (some current.provider.text))
        (body.baseUrl.getD (some current.baseUrl)) (body.label.getD (some current.label)) =
          .ok fields ∧
      c = fields.apply current ∧ g' = modifyConnection g id fields.apply := by
  rw [updateConnection] at h
  split at h
  · cases h
  · rw [bind_eq_ok] at h
    obtain ⟨current, hcurrent, h⟩ := h
    rw [bind_eq_ok] at h
    obtain ⟨fields, hfields, h⟩ := h
    split at h
    · cases h
    · cases h
      exact ⟨current, fields, hcurrent, hfields, rfl, rfl⟩

/-- A patched repository is changed in place, if at all. -/
theorem updateRepository_ok {id : Nat} {body : GitRepositoryUpdate}
    (h : updateRepository g tenant id body = .ok g') :
    ∃ current c patch, repository g tenant id = .ok current ∧
      connection g tenant current.connectionId = .ok c ∧
      repositoryPatch body c.provider = .ok patch ∧
      (g' = g ∨ g' = modifyRepository g id patch.apply) := by
  rw [updateRepository] at h
  split at h
  · cases h
  · rw [bind_eq_ok] at h
    obtain ⟨current, hcurrent, h⟩ := h
    rw [bind_eq_ok] at h
    obtain ⟨c, hc, h⟩ := h
    rw [bind_eq_ok] at h
    obtain ⟨patch, hpatch, h⟩ := h
    split at h
    · cases h
      exact ⟨current, c, patch, hcurrent, hc, hpatch, .inl rfl⟩
    · split at h
      · cases h
      · cases h
        exact ⟨current, c, patch, hcurrent, hc, hpatch, .inr rfl⟩

/-! ## The writes -/

theorem Configured.clearDefaultRepository (h : Configured g) (tenant : String) :
    Configured (clearDefaultRepository g tenant) := by
  apply h.mapRepositories
  intro r hr
  split
  · exact ⟨rfl, rfl, rfl, h.addressed r hr⟩
  · exact ⟨rfl, rfl, rfl, h.addressed r hr⟩

theorem Configured.setDefaultRepository (h : Configured g) {id : Nat}
    (hset : setDefaultRepository g tenant id = .ok g') : Configured g' := by
  rw [Git.setDefaultRepository, bind_eq_ok] at hset
  obtain ⟨_, -, hset⟩ := hset
  cases hset
  apply (h.clearDefaultRepository tenant).mapRepositories
  intro r hr
  have haddressed := (h.clearDefaultRepository tenant).addressed r hr
  split
  · exact ⟨rfl, rfl, rfl, haddressed⟩
  · exact ⟨rfl, rfl, rfl, haddressed⟩

theorem Configured.ensureDefaultRepository (h : Configured g) (tenant : String) :
    Configured (ensureDefaultRepository g tenant) := by
  rw [Git.ensureDefaultRepository]
  split
  · exact h
  · split
    · exact h
    · rename_i first _ _ _
      cases hset : Git.setDefaultRepository g tenant first.id with
      | error e => exact h
      | ok g' => exact h.setDefaultRepository hset

theorem Configured.createConnection (h : Configured g) {skipped : Nat}
    {body : GitConnectionCreate} {c : GitConnectionRow}
    (hcreate : createConnection g tenant skipped body = .ok (c, g')) : Configured g' := by
  obtain ⟨fields, -, -, rfl⟩ := createConnection_ok hcreate
  exact h.addConnection c

theorem Configured.updateConnection (h : Configured g) {id : Nat} {body : GitConnectionUpdate}
    {c : GitConnectionRow} (hupdate : updateConnection g tenant id body = .ok (c, g')) :
    Configured g' := by
  obtain ⟨current, fields, -, -, -, rfl⟩ := updateConnection_ok hupdate
  exact h.modifyConnection id fun c ↦ ⟨rfl, rfl⟩

theorem Configured.deleteConnection (h : Configured g) {id : Nat}
    (hdelete : deleteConnection g tenant id = .ok g') : Configured g' := by
  rw [Git.deleteConnection, bind_eq_ok] at hdelete
  obtain ⟨_, -, hdelete⟩ := hdelete
  cases hdelete
  apply Configured.ensureDefaultRepository
  apply h.filter
  intro r c hkeep hhome
  rw [hhome]
  exact hkeep

theorem Configured.createRepository (h : Configured g) {skipped connectionId : Nat}
    {body : GitRepositoryCreate}
    (hcreate : createRepository g tenant skipped connectionId body = .ok g') : Configured g' := by
  rw [Git.createRepository] at hcreate
  split at hcreate
  · cases hcreate
  · rw [bind_eq_ok] at hcreate
    obtain ⟨c, hc, hcreate⟩ := hcreate
    rw [bind_eq_ok] at hcreate
    obtain ⟨fields, hfields, hcreate⟩ := hcreate
    obtain ⟨hmem, hid, htenant⟩ := connection_ok hc
    dsimp only at hcreate
    split at hcreate
    · cases hcreate
    · have hadded := h.addRepository (r :=
          { id := nextId (g.repositories.map GitRepositoryRow.id) skipped
            tenantId := tenant
            connectionId := connectionId
            project := fields.project
            intakeProject := fields.intakeProject
            aifactoryProjectId := fields.aifactoryProjectId
            defaultLabels := fields.defaultLabels })
        (nextId_fresh _ skipped) hmem ⟨hid, htenant⟩ (paths_of_repositoryFields hfields)
      split at hcreate
      · exact hadded.setDefaultRepository hcreate
      · cases hcreate
        exact hadded

/-- A patched repository is where it was, at project paths. -/
private theorem addressed_apply {patch : RepositoryPatch} {r : GitRepositoryRow}
    (hproject : ∀ p, patch.project = some p → isProject p.toList = true)
    (hintake : ∀ p, patch.intakeProject = some (some p) → isProject p.toList = true)
    (hr : Addressed r) : Addressed (patch.apply r) := by
  constructor
  · show isProject (patch.project.getD r.project).toList = true
    cases hp : patch.project with
    | none => exact hr.1
    | some p => exact hproject p hp
  · intro p hp
    have hvalue : patch.intakeProject.getD r.intakeProject = some p := hp
    cases hi : patch.intakeProject with
    | none =>
      rw [hi] at hvalue
      exact hr.2 p hvalue
    | some intake =>
      rw [hi] at hvalue
      have hsome : intake = some p := hvalue
      exact hintake p (hi.trans (congrArg some hsome))

theorem Configured.updateRepository (h : Configured g) {id : Nat} {body : GitRepositoryUpdate}
    (hupdate : updateRepository g tenant id body = .ok g') : Configured g' := by
  obtain ⟨current, c, patch, -, -, hpatch, hwrite⟩ := updateRepository_ok hupdate
  obtain ⟨hproject, hintake⟩ := paths_of_repositoryPatch hpatch
  rcases hwrite with rfl | rfl
  · exact h
  · apply h.mapRepositories
    intro r hr
    have haddressed := addressed_apply hproject hintake (h.addressed r hr)
    split
    · exact ⟨rfl, rfl, rfl, haddressed⟩
    · exact ⟨rfl, rfl, rfl, h.addressed r hr⟩

theorem Configured.deleteRepository (h : Configured g) {id : Nat}
    (hdelete : deleteRepository g tenant id = .ok g') : Configured g' := by
  rw [Git.deleteRepository, bind_eq_ok] at hdelete
  obtain ⟨_, -, hdelete⟩ := hdelete
  cases hdelete
  apply Configured.ensureDefaultRepository
  have hall : g.connections.filter (fun _ ↦ true) = g.connections := List.filter_true _
  have hkept := h.filter (p := fun _ ↦ true) (q := fun r ↦ decide (r.id ≠ id)) fun _ _ _ _ ↦ rfl
  rw [hall] at hkept
  exact hkept

/-- A connection to a host is created, or is one of the tenant's. -/
theorem connectionFor_cases {skipped : Nat} {provider : Provider} {baseUrl : Option String}
    {c : GitConnectionRow} (h : connectionFor g tenant skipped provider baseUrl = .ok (c, g')) :
    createConnection g tenant skipped
        { provider := provider.text
          baseUrl := baseUrl.bind fun url ↦ if url = "" then none else some url } = .ok (c, g') ∨
      g' = g := by
  rw [Git.connectionFor] at h
  split at h
  · rename_i hcreate
    cases h
    exact .inl hcreate
  · split at h
    · cases h
    · rw [bind_eq_ok] at h
      obtain ⟨wanted, -, h⟩ := h
      split at h
      · cases h
        exact .inr rfl
      · cases h

/-- The connection of a single-configuration write is one that is there, one that is moved to
the host, or one to the host. -/
theorem shimConnection_cases {skipped : Nat} {provider : Provider} {baseUrl : Option String}
    {c : GitConnectionRow} (h : shimConnection g tenant skipped provider baseUrl = .ok (c, g')) :
    g' = g ∨ (∃ id body, updateConnection g tenant id body = .ok (c, g')) ∨
      connectionFor g tenant skipped provider baseUrl = .ok (c, g') := by
  rw [Git.shimConnection, bind_eq_ok] at h
  obtain ⟨wanted, -, h⟩ := h
  split at h
  · cases h
    exact .inl rfl
  · split at h
    · exact .inr (.inr h)
    · split at h
      · rename_i hupdate
        cases h
        exact .inr (.inl ⟨_, _, hupdate⟩)
      · split at h
        · cases h
        · exact .inr (.inr h)

/-- The patch by which a single-configuration write moves a connection; `cards.py:1556–1561`. -/
def moveTo (wanted : ConnectionFields) : GitConnectionUpdate where
  provider := some (some wanted.provider.text)
  baseUrl := some (some wanted.baseUrl)

/-- What a single-configuration write does to a connection of the tenant. -/
theorem shimConnection_moves {skipped : Nat} {provider : Provider}
    {baseUrl : Option String} {c : GitConnectionRow}
    (h : shimConnection g tenant skipped provider baseUrl = .ok (c, g')) :
    g' = g ∨ (∃ body : GitConnectionCreate, createConnection g tenant skipped body = .ok (c, g')) ∨
      ∃ wanted editable, connectionFields (some provider.text) baseUrl none = .ok wanted ∧
        connectionTo g tenant wanted.provider wanted.baseUrl = none ∧
        editableConnection g tenant = some editable ∧
        updateConnection g tenant editable.id (moveTo wanted) = .ok (c, g') := by
  have hcreated : connectionFor g tenant skipped provider baseUrl = .ok (c, g') →
      g' = g ∨ ∃ body : GitConnectionCreate,
        createConnection g tenant skipped body = .ok (c, g') := by
    intro hfor
    cases connectionFor_cases hfor with
    | inl hcreate => exact .inr ⟨_, hcreate⟩
    | inr hfound => exact .inl hfound
  rw [shimConnection, bind_eq_ok] at h
  obtain ⟨wanted, hwanted, h⟩ := h
  split at h
  · cases h
    exact .inl rfl
  · next hto =>
    split at h
    · cases hcreated h with
      | inl hsame => exact .inl hsame
      | inr hcreate => exact .inr (.inl hcreate)
    · next editable heditable =>
      split at h
      · next done hupdate =>
        cases h
        exact .inr (.inr ⟨wanted, editable, hwanted, hto, heditable, hupdate⟩)
      · split at h
        · cases h
        · cases hcreated h with
          | inl hsame => exact .inl hsame
          | inr hcreate => exact .inr (.inl hcreate)

private theorem Configured.shimConnection (h : Configured g) {skipped : Nat} {provider : Provider}
    {baseUrl : Option String} {c : GitConnectionRow}
    (hshim : shimConnection g tenant skipped provider baseUrl = .ok (c, g')) : Configured g' := by
  cases shimConnection_cases hshim with
  | inl hfound => exact hfound ▸ h
  | inr hwrite =>
    cases hwrite with
    | inl hupdate =>
      obtain ⟨id, body, hupdate⟩ := hupdate
      exact h.updateConnection hupdate
    | inr hfor =>
      cases connectionFor_cases hfor with
      | inl hcreate => exact h.createConnection hcreate
      | inr hfound => exact hfound ▸ h

theorem Configured.setGitConfig (h : Configured g) {skipped skippedRepositories : Nat}
    {update : GitConfigUpdate}
    (hset : setGitConfig g tenant skipped skippedRepositories update = .ok g') : Configured g' := by
  rw [Git.setGitConfig] at hset
  split at hset
  · cases hset
  · rw [bind_eq_ok] at hset
    obtain ⟨fields, -, hset⟩ := hset
    rw [bind_eq_ok] at hset
    obtain ⟨⟨c, moved⟩, hshim, hset⟩ := hset
    have hmoved : Configured (Git.modifyConnection moved c.id unverified) :=
      (h.shimConnection hshim).modifyConnection c.id fun _ ↦ ⟨rfl, rfl⟩
    dsimp only at hset
    split at hset
    · cases hset
      exact hmoved.clearDefaultRepository tenant
    · split at hset
      · exact hmoved.createRepository hset
      · rw [bind_eq_ok] at hset
        obtain ⟨patched, hpatched, hset⟩ := hset
        exact (hmoved.updateRepository hpatched).setDefaultRepository hset

end CFactory.Git
