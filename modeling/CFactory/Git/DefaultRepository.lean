import CFactory.Base.Chosen
import CFactory.Base.Runs
import CFactory.Git.Tenant
import CFactory.Git.Transactions

/-!
# The default repository

`git_connections.py:159–167`, `cards.py:1129–1291,1470–1599`. Which repository of a tenant is
its default, at every point between the transactions of any writes of any tenants. The rows are
followed as items of their tenant, of which one is chosen.
-/

namespace CFactory.Git

open CFactory.Base

/-! ## Rows as items -/

/-- A repository as an item of its tenant. -/
def GitRepositoryRow.mark (r : GitRepositoryRow) : Item String :=
  ⟨r.id, r.tenantId, r.defaultForTenant⟩

/-- The repositories as items of their tenants. -/
def marks (g : GitTables) : List (Item String) := g.repositories.map GitRepositoryRow.mark

variable {g g' : GitTables} {tenant : String}

private theorem marks_map {f : GitRepositoryRow → GitRepositoryRow} {k : Item String → Item String}
    (h : ∀ r, (f r).mark = k r.mark) :
    marks { g with repositories := g.repositories.map f } = (marks g).map k := by
  rw [marks, marks, List.map_map, List.map_map]
  exact List.map_congr_left fun r _ ↦ h r

/-- Clearing the default releases it. -/
theorem marks_clearDefaultRepository (g : GitTables) (tenant : String) :
    marks (clearDefaultRepository g tenant) = Item.release (marks g) tenant := by
  apply marks_map
  intro r
  by_cases hdefault : r.defaultForTenant = some tenant
  · rw [if_pos hdefault, if_pos (by exact hdefault)]
    rfl
  · rw [if_neg hdefault, if_neg (by exact hdefault)]

/-- Making a repository the default chooses it. -/
theorem marks_setDefaultRepository {id : Nat} (h : setDefaultRepository g tenant id = .ok g') :
    marks g' = Item.choose (marks g) tenant id := by
  rw [setDefaultRepository, bind_eq_ok] at h
  obtain ⟨found, -, h⟩ := h
  cases h
  rw [Item.choose, ← marks_clearDefaultRepository]
  apply marks_map
  intro r
  by_cases hid : r.id = id
  · rw [if_pos hid, if_pos (by exact hid)]
    rfl
  · rw [if_neg hid, if_neg (by exact hid)]

/-- The tenant's items are its repositories. -/
theorem marks_owned (g : GitTables) (tenant : String) :
    ((marks g).filter fun i ↦ i.owner = tenant) =
      (repositoriesOf g tenant).map GitRepositoryRow.mark := by
  rw [marks, List.filter_map, repositoriesOf]
  rfl

/-- Ensuring a default settles the tenant. -/
theorem marks_ensureDefaultRepository (g : GitTables) (tenant : String) :
    marks (ensureDefaultRepository g tenant) = Item.settle (marks g) tenant := by
  rw [ensureDefaultRepository, Item.settle, marks_owned]
  cases howned : repositoriesOf g tenant with
  | nil => rfl
  | cons first rest =>
    rw [List.map_cons]
    dsimp only
    have hany : (first.mark :: rest.map GitRepositoryRow.mark).any (·.chosenFor.isSome) =
        (first :: rest).any (·.defaultForTenant.isSome) := by
      rw [← List.map_cons, List.any_map]
      rfl
    rw [hany]
    split
    · rfl
    · have hfirst : first ∈ g.repositories ∧ first.tenantId = tenant :=
        mem_repositoriesOf.mp (howned ▸ List.mem_cons_self)
      obtain ⟨g', hset⟩ := exists_setDefaultRepository hfirst.1 hfirst.2
      rw [hset]
      exact marks_setDefaultRepository hset

/-! ## What every transaction keeps -/

/-- The rows of every tenant are in order, and at most one of its repositories its default. -/
structure Ranked (g : GitTables) : Prop extends Tenanted g where
  orderly : Item.Orderly (marks g)

theorem ranked_empty : Ranked {} where
  toTenanted := tenanted_empty
  orderly := Item.orderly_nil

/-- A write that leaves the repositories as items as they were. -/
private theorem Ranked.of_marks (h : Ranked g) (hg' : Tenanted g') (hmarks : marks g' = marks g) :
    Ranked g' where
  toTenanted := hg'
  orderly := hmarks ▸ h.orderly

theorem marks_createConnection {skipped : Nat} {body : GitConnectionCreate} {c : GitConnectionRow}
    (h : createConnection g tenant skipped body = .ok (c, g')) : marks g' = marks g := by
  obtain ⟨fields, -, -, rfl⟩ := createConnection_ok h
  rfl

theorem marks_updateConnection {id : Nat} {body : GitConnectionUpdate} {c : GitConnectionRow}
    (h : updateConnection g tenant id body = .ok (c, g')) : marks g' = marks g := by
  obtain ⟨current, fields, -, -, -, rfl⟩ := updateConnection_ok h
  rfl

theorem marks_shimConnection {skipped : Nat} {provider : Provider} {baseUrl : Option String}
    {c : GitConnectionRow} (h : shimConnection g tenant skipped provider baseUrl = .ok (c, g')) :
    marks g' = marks g := by
  rcases shimConnection_cases h with hsame | ⟨id, body, hupdate⟩ | hfor
  · rw [hsame]
  · exact marks_updateConnection hupdate
  · rcases connectionFor_cases hfor with hcreate | hsame
    · exact marks_createConnection hcreate
    · rw [hsame]

theorem marks_updateRepository {id : Nat} {body : GitRepositoryUpdate}
    (h : updateRepository g tenant id body = .ok g') : marks g' = marks g := by
  obtain ⟨current, c, patch, -, -, -, hwrite⟩ := updateRepository_ok h
  rcases hwrite with rfl | rfl
  · rfl
  · rw [modifyRepository, marks_map (k := fun i ↦ i) fun r ↦ by split <;> rfl]
    exact List.map_id' _

theorem Ranked.createConnection (h : Ranked g) {skipped : Nat} {body : GitConnectionCreate}
    {c : GitConnectionRow} (hcreate : createConnection g tenant skipped body = .ok (c, g')) :
    Ranked g' := by
  have hwrite : TenantWrite tenant ⟨_, 0⟩ none g g' := .createConnection h.toTenanted rfl hcreate
  exact h.of_marks hwrite.tenanted (marks_createConnection hcreate)

theorem Ranked.updateConnection (h : Ranked g) {id : Nat} {body : GitConnectionUpdate}
    {c : GitConnectionRow} (hupdate : updateConnection g tenant id body = .ok (c, g')) :
    Ranked g' := by
  have hwrite : TenantWrite tenant {} none g g' := .updateConnection h.toTenanted hupdate
  exact h.of_marks hwrite.tenanted (marks_updateConnection hupdate)

theorem Ranked.shimConnection (h : Ranked g) {skipped : Nat} {provider : Provider}
    {baseUrl : Option String} {c : GitConnectionRow}
    (hshim : shimConnection g tenant skipped provider baseUrl = .ok (c, g')) : Ranked g' := by
  have hwrite : TenantWrite tenant ⟨_, 0⟩ none g g' := .shimConnection h.toTenanted rfl hshim
  exact h.of_marks hwrite.tenanted (marks_shimConnection hshim)

theorem Ranked.patchConnection (h : Ranked g) {id : Nat} {c : GitConnectionRow}
    (hc : connection g tenant id = .ok c) {f : GitConnectionRow → GitConnectionRow}
    (hf : ∀ c, (f c).id = c.id ∧ (f c).tenantId = c.tenantId) :
    Ranked (modifyConnection g id f) := by
  have hwrite : TenantWrite tenant {} none g (modifyConnection g id f) :=
    .modifyConnection h.toTenanted (connectionOrNone_of_connection hc) hf
  exact h.of_marks hwrite.tenanted rfl

theorem Ranked.updateRepository (h : Ranked g) {id : Nat} {body : GitRepositoryUpdate}
    (hupdate : updateRepository g tenant id body = .ok g') : Ranked g' := by
  have hwrite : TenantWrite tenant {} none g g' := .updateRepository h.toTenanted hupdate
  exact h.of_marks hwrite.tenanted (marks_updateRepository hupdate)

theorem Ranked.clearDefaultRepository (h : Ranked g) (tenant : String) :
    Ranked (clearDefaultRepository g tenant) where
  toTenanted :=
    have hwrite : TenantWrite tenant {} none g (Git.clearDefaultRepository g tenant) :=
      .clearDefaultRepository h.toTenanted
    hwrite.tenanted
  orderly := by
    rw [marks_clearDefaultRepository]
    exact h.orderly.release tenant

/-- A repository the tenant can name is its own, also as an item. -/
theorem Ranked.owner_of_repository (h : Ranked g) {id : Nat} {r : GitRepositoryRow}
    (hr : repository g tenant id = .ok r) : ∀ i ∈ marks g, i.key = id → i.owner = tenant := by
  intro i hi hkey
  obtain ⟨q, hq, rfl⟩ := List.mem_map.mp hi
  exact h.tenant_of_repository hr hq hkey

/-- What is made the default is a repository of the tenant. -/
theorem repository_of_setDefaultRepository {id : Nat}
    (h : setDefaultRepository g tenant id = .ok g') : ∃ r, repository g tenant id = .ok r := by
  rw [setDefaultRepository, bind_eq_ok] at h
  obtain ⟨r, hr, -⟩ := h
  exact ⟨r, hr⟩

theorem Ranked.setDefaultRepository (h : Ranked g) {id : Nat}
    (hset : setDefaultRepository g tenant id = .ok g') : Ranked g' where
  toTenanted :=
    have hwrite : TenantWrite tenant {} none g g' := .setDefaultRepository h.toTenanted hset
    hwrite.tenanted
  orderly := by
    obtain ⟨r, hr⟩ := repository_of_setDefaultRepository hset
    rw [marks_setDefaultRepository hset]
    exact h.orderly.choose (h.owner_of_repository hr)

theorem Ranked.ensureDefaultRepository (h : Ranked g) (tenant : String) :
    Ranked (ensureDefaultRepository g tenant) where
  toTenanted :=
    have hwrite : TenantWrite tenant {} none g (Git.ensureDefaultRepository g tenant) :=
      .ensureDefaultRepository h.toTenanted
    hwrite.tenanted
  orderly := by
    rw [marks_ensureDefaultRepository]
    exact h.orderly.settle tenant

/-- Deleted rows leave a part of the items, in order. -/
private theorem marks_filter (g : GitTables) (connections : List GitConnectionRow)
    (q : GitRepositoryRow → Bool) :
    (marks ⟨connections, g.repositories.filter q⟩).Sublist (marks g) :=
  List.filter_sublist.map _

theorem Ranked.withoutConnection (h : Ranked g) {id : Nat} {c : GitConnectionRow}
    (hc : connection g tenant id = .ok c) : Ranked (withoutConnection g id) where
  toTenanted := by
    have hfound := connectionOrNone_of_connection hc
    have hwrite : TenantWrite tenant {} (some id) g (Git.withoutConnection g id) := by
      apply TenantWrite.filter h.toTenanted
      · intro r c hkeep hhome
        rw [hhome]
        exact hkeep
      · intro q hq hgone
        have hid : q.id = id := by simpa using hgone
        exact ⟨h.tenant_of_id hfound hq hid, congrArg some hid.symm⟩
      · intro r hr hgone
        exact h.tenant_of_connection hfound hr (by simpa using hgone)
    exact hwrite.tenanted
  orderly := h.orderly.sublist (marks_filter g _ _)

theorem Ranked.withoutRepository (h : Ranked g) {id : Nat} {r : GitRepositoryRow}
    (hr : repository g tenant id = .ok r) : Ranked (withoutRepository g id) where
  toTenanted := by
    have hwrite : TenantWrite tenant {} none g
        { connections := g.connections.filter fun _ ↦ true
          repositories := g.repositories.filter (·.id ≠ id) } := by
      apply TenantWrite.filter h.toTenanted
      · exact fun _ _ _ _ ↦ rfl
      · intro c hc hgone
        cases hgone
      · intro q hq hgone
        exact h.tenant_of_repository hr hq (by simpa using hgone)
    rw [List.filter_true] at hwrite
    exact hwrite.tenanted
  orderly := h.orderly.sublist (marks_filter g _ _)

/-- A new key is above all others. -/
private theorem lt_nextId {ids : List Nat} {skipped id : Nat} (h : id ∈ ids) :
    id < nextId ids skipped := by
  have hle := (le_foldl_max ids 0 id).mpr (.inr ⟨id, h, le_refl _⟩)
  rw [nextId]
  omega

theorem marks_insertRepository {skipped connectionId : Nat} {body : GitRepositoryCreate}
    {created : Nat × Bool}
    (h : insertRepository g tenant skipped connectionId body = .ok (created, g')) :
    marks g' = marks g ++ [⟨created.1, tenant, none⟩] ∧ ∀ i ∈ marks g, i.key < created.1 := by
  obtain ⟨c, fields, -, -, rfl, rfl⟩ := insertRepository_ok h
  constructor
  · rw [marks, List.map_append]
    rfl
  · intro i hi
    obtain ⟨r, hr, rfl⟩ := List.mem_map.mp hi
    exact lt_nextId (List.mem_map_of_mem hr)

theorem Ranked.insertRepository (h : Ranked g) {skipped connectionId : Nat}
    {body : GitRepositoryCreate} {created : Nat × Bool}
    (hinsert : insertRepository g tenant skipped connectionId body = .ok (created, g')) :
    Ranked g' where
  toTenanted := by
    obtain ⟨c, fields, hc, hfields, -, rfl⟩ := insertRepository_ok hinsert
    obtain ⟨hmem, hid, htenant⟩ := connection_ok hc
    have hwrite : TenantWrite tenant ⟨0, _⟩ none g { g with
        repositories := g.repositories ++ [newRepository g tenant skipped connectionId fields] } :=
      .addRepository h.toTenanted (nextId_fresh _ skipped) hmem ⟨hid, htenant⟩
        (paths_of_repositoryFields hfields) rfl rfl rfl
    exact hwrite.tenanted
  orderly := by
    obtain ⟨hmarks, habove⟩ := marks_insertRepository hinsert
    rw [hmarks]
    exact h.orderly.add habove rfl

/-! ## Every point of a write -/

theorem closed_ranked : Closed Ranked where
  createConnection := Ranked.createConnection
  patchConnection := by
    intro g tenant h id c hc f hf
    exact h.patchConnection hc fun c ↦ ⟨(hf c).1, (hf c).2.1⟩
  withoutConnection := Ranked.withoutConnection
  withoutRepository := Ranked.withoutRepository
  insertRepository := Ranked.insertRepository
  updateRepository := Ranked.updateRepository
  setDefaultRepository := Ranked.setDefaultRepository
  ensureDefaultRepository := Ranked.ensureDefaultRepository
  clearDefaultRepository := Ranked.clearDefaultRepository

/-- Every state on the way of a write is in order. -/
theorem keeps_ranked (h : Ranked g) (x : GitWrite) :
    (x.script tenant).Keeps Ranked (fun _ _ ↦ True) g := by
  apply closed_ranked.script h x
  · exact fun _ _ _ _ _ hupdate ↦ h.updateConnection hupdate
  · exact fun _ _ _ _ _ _ _ _ _ hshim ↦ h.shimConnection hshim

/-! ## A default wherever there are repositories -/

/-- The write is `set_git_config` with an empty project. -/
def GitWrite.clearsDefault : GitWrite → Prop
  | .setGitConfig _ _ update => stripped update.project = ""
  | _ => False

/-- The rows are in order, and a tenant is settled. -/
private def SettledFor (t : String) (g : GitTables) : Prop := Ranked g ∧ Item.Settled (marks g) t

variable {t : String}

private theorem SettledFor.of_marks (h : SettledFor t g) (hg' : Ranked g')
    (hmarks : marks g' = marks g) : SettledFor t g' := by
  refine ⟨hg', ?_⟩
  rw [hmarks]
  exact h.2

/-- The default is chosen among the tenant's own; the others stay as they were. -/
private theorem SettledFor.setDefaultRepository (h : Ranked g)
    (hother : t ≠ tenant → Item.Settled (marks g) t) {id : Nat}
    (hset : setDefaultRepository g tenant id = .ok g') : SettledFor t g' := by
  refine ⟨h.setDefaultRepository hset, ?_⟩
  rw [marks_setDefaultRepository hset]
  obtain ⟨r, hr⟩ := repository_of_setDefaultRepository hset
  by_cases ht : t = tenant
  · subst ht
    apply Item.settled_choose
    obtain ⟨hmem, hid⟩ := repository_ok hr
    exact ⟨r.mark, List.mem_map_of_mem (mem_repositoriesOf.mp hmem).1, hid⟩
  · exact Item.settled_choose_other ht h.orderly (h.owner_of_repository hr) (hother ht)

private theorem SettledFor.ensureDefaultRepository (h : Ranked g)
    (hother : t ≠ tenant → Item.Settled (marks g) t) :
    SettledFor t (ensureDefaultRepository g tenant) := by
  refine ⟨h.ensureDefaultRepository tenant, ?_⟩
  rw [marks_ensureDefaultRepository]
  by_cases ht : t = tenant
  · subst ht
    exact Item.settled_settle h.orderly
  · exact Item.settled_settle_other ht h.orderly (hother ht)

/-- Where a tenant's default repository is found, one of its items is chosen. -/
private theorem chosen_of_defaultRepository {resolved : ResolvedRepository}
    (h : defaultRepository g tenant = some resolved) :
    ∃ i ∈ marks g, i.chosenFor = some tenant := by
  rw [defaultRepository, Option.bind_eq_some_iff] at h
  obtain ⟨r, hr, -⟩ := h
  have hdefault := List.find?_some hr
  rw [beq_iff_eq] at hdefault
  exact ⟨r.mark, List.mem_map_of_mem (List.mem_of_find?_eq_some hr), hdefault⟩

/-- A created repository is the default, or there was one. -/
private theorem SettledFor.createRepository (h : SettledFor t g) {skipped connectionId : Nat}
    {body : GitRepositoryCreate}
    (hcreate : createRepository g tenant skipped connectionId body = .ok g') :
    SettledFor t g' := by
  rw [createRepository_eq, bind_eq_ok] at hcreate
  obtain ⟨⟨created, inserted⟩, hinsert, hdefault⟩ := hcreate
  have hranked := h.1.insertRepository hinsert
  obtain ⟨hmarks, -⟩ := marks_insertRepository hinsert
  have hother : t ≠ tenant → Item.Settled (marks inserted) t := by
    intro ht
    rw [hmarks]
    exact Item.settled_add_other ht.symm h.2
  dsimp only at hdefault
  cases hmake : created.2 with
  | true =>
    rw [hmake, if_pos rfl] at hdefault
    exact .setDefaultRepository hranked hother hdefault
  | false =>
    rw [hmake, if_neg Bool.false_ne_true] at hdefault
    cases hdefault
    refine ⟨hranked, ?_⟩
    by_cases ht : t = tenant
    · subst ht
      obtain ⟨c, fields, -, -, rfl, -⟩ := insertRepository_ok hinsert
      have hsome : (defaultRepository g t).isNone = false := (Bool.or_eq_false_iff.mp hmake).2
      cases hresolved : defaultRepository g t with
      | none =>
        rw [hresolved] at hsome
        cases hsome
      | some resolved =>
        obtain ⟨i, hi, hchosen⟩ := chosen_of_defaultRepository hresolved
        rw [hmarks]
        exact .inr ⟨i, List.mem_append_left _ hi, hchosen⟩
    · exact hother ht

/-- Rows of one tenant go; the others stay settled. -/
private theorem settled_filter_other (h : SettledFor t g) (ht : t ≠ tenant)
    (connections : List GitConnectionRow) {q : GitRepositoryRow → Bool}
    (hq : ∀ r ∈ g.repositories, q r = false → r.tenantId = tenant) :
    Item.Settled (marks ⟨connections, g.repositories.filter q⟩) t := by
  apply Item.settled_sublist (marks_filter g connections q) _ h.1.orderly h.2
  intro i hi howner
  obtain ⟨r, hr, rfl⟩ := List.mem_map.mp hi
  apply List.mem_map_of_mem
  refine List.mem_filter.mpr ⟨hr, ?_⟩
  by_contra hgone
  exact ht (howner.symm.trans (hq r hr (by simpa using hgone)))

private theorem SettledFor.deleteConnection (h : SettledFor t g) {id : Nat}
    (hdelete : deleteConnection g tenant id = .ok g') : SettledFor t g' := by
  rw [Git.deleteConnection, bind_eq_ok] at hdelete
  obtain ⟨c, hc, hdelete⟩ := hdelete
  cases hdelete
  refine .ensureDefaultRepository (h.1.withoutConnection hc) fun ht ↦ ?_
  refine settled_filter_other h ht _ fun r hr hgone ↦ ?_
  exact h.1.tenant_of_connection (connectionOrNone_of_connection hc) hr (by simpa using hgone)

private theorem SettledFor.deleteRepository (h : SettledFor t g) {id : Nat}
    (hdelete : deleteRepository g tenant id = .ok g') : SettledFor t g' := by
  rw [Git.deleteRepository, bind_eq_ok] at hdelete
  obtain ⟨r, hr, hdelete⟩ := hdelete
  cases hdelete
  refine .ensureDefaultRepository (h.1.withoutRepository hr) fun ht ↦ ?_
  refine settled_filter_other h ht _ fun q hq hgone ↦ ?_
  exact h.1.tenant_of_repository hr hq (by simpa using hgone)

private theorem SettledFor.patchConnection (h : SettledFor t g) (id : Nat) :
    SettledFor t ((Steps.patchConnection tenant id unverified).run g).2 := by
  apply state_whole h
  intro g' hdone
  cases hc : connection g tenant id with
  | error e =>
    rw [hc] at hdone
    cases hdone
  | ok c =>
    rw [hc] at hdone
    cases hdone
    exact ⟨h.1.patchConnection hc fun _ ↦ ⟨rfl, rfl⟩, h.2⟩

private theorem SettledFor.setProject (h : SettledFor t g) {skipped connectionId : Nat}
    {fields : ConfigFields} (hkeep : fields.project = none → t ≠ tenant) :
    SettledFor t ((Steps.setProject tenant skipped connectionId fields).run g).2 := by
  rw [Steps.setProject]
  cases hproject : fields.project with
  | none =>
    refine ⟨h.1.clearDefaultRepository tenant, ?_⟩
    have ht := hkeep hproject
    show Item.Settled (marks (clearDefaultRepository g tenant)) t
    rw [marks_clearDefaultRepository]
    exact (Item.settled_release_other ht).mpr h.2
  | some project =>
    apply Script.run_bind_state h
    intro existing hread
    cases existing with
    | none =>
      dsimp only
      rw [run_createRepository]
      exact state_whole h fun _ hcreate ↦ h.createRepository hcreate
    | some existing =>
      dsimp only
      have hupdated : SettledFor t ((Steps.updateRepository tenant existing.id
          { project := some (some project)
            intakeProject := some fields.intakeProject
            aifactoryProjectId := some fields.aifactoryProjectId
            defaultLabels := some (some fields.defaultLabels) }).run g).2 :=
        state_whole h fun _ hupdate ↦
          h.of_marks (h.1.updateRepository hupdate) (marks_updateRepository hupdate)
      apply Script.run_bind_state hupdated
      intro _ _
      exact state_whole hupdated fun _ hset ↦ .setDefaultRepository hupdated.1 (fun _ ↦ hupdated.2)
        hset

/-- A configuration without a project is one with an empty project. -/
private theorem project_of_validatedFields {update : GitConfigUpdate} {fields : ConfigFields}
    (h : validatedFields update = .ok fields) (hproject : fields.project = none) :
    stripped update.project = "" := by
  rw [validatedFields, bind_eq_ok] at h
  obtain ⟨provider, -, h⟩ := h
  rw [bind_eq_ok] at h
  obtain ⟨baseUrl, -, h⟩ := h
  rw [bind_eq_ok] at h
  obtain ⟨project, hvalid, h⟩ := h
  rw [bind_eq_ok] at h
  obtain ⟨intake, -, h⟩ := h
  rw [bind_eq_ok] at h
  obtain ⟨labels, -, h⟩ := h
  cases h
  dsimp only at hproject
  subst hproject
  by_contra hne
  rw [validateProject, if_neg hne] at hvalid
  split at hvalid
  · cases hvalid
  · split at hvalid
    · cases hvalid
    · cases hvalid

/-- A write keeps every tenant settled, but for the one whose default it is to clear. -/
private theorem settledFor_gitStep (h : SettledFor t g) {x : GitWrite}
    (hkeep : ¬(tenant = t ∧ x.clearsDefault)) : SettledFor t (gitStep g (tenant, x)) := by
  rw [gitStep]
  cases x with
  | createConnection skipped body =>
    have hcreate : SettledFor t ((Steps.createConnection tenant skipped body).run g).2 :=
      state_transacting h fun _ _ hdone ↦
        h.of_marks (h.1.createConnection hdone) (marks_createConnection hdone)
    exact Script.run_bind_state hcreate fun _ _ ↦ hcreate
  | updateConnection id body =>
    have hupdate : SettledFor t ((Steps.updateConnection tenant id body).run g).2 :=
      state_transacting h fun _ _ hdone ↦
        h.of_marks (h.1.updateConnection hdone) (marks_updateConnection hdone)
    exact Script.run_bind_state hupdate fun _ _ ↦ hupdate
  | deleteConnection id =>
    dsimp only [GitWrite.script]
    rw [run_deleteConnection]
    exact state_whole h fun _ hdelete ↦ h.deleteConnection hdelete
  | createRepository skipped connectionId body =>
    dsimp only [GitWrite.script]
    rw [run_createRepository]
    exact state_whole h fun _ hcreate ↦ h.createRepository hcreate
  | updateRepository id body =>
    exact state_whole h fun _ hupdate ↦
      h.of_marks (h.1.updateRepository hupdate) (marks_updateRepository hupdate)
  | deleteRepository id =>
    dsimp only [GitWrite.script]
    rw [run_deleteRepository]
    exact state_whole h fun _ hdelete ↦ h.deleteRepository hdelete
  | setDefaultRepository id =>
    exact state_whole h fun _ hset ↦ .setDefaultRepository h.1 (fun _ ↦ h.2) hset
  | setGitConfig skipped skippedRepositories update =>
    dsimp only [GitWrite.script]
    rw [Steps.setGitConfig]
    split
    · exact h
    · split
      · exact h
      · next fields hfields =>
        have hshim : SettledFor t ((transacting fun g ↦ shimConnection g tenant skipped
            fields.provider fields.baseUrl).run g).2 :=
          state_transacting h fun _ _ hdone ↦
            h.of_marks (h.1.shimConnection hdone) (marks_shimConnection hdone)
        apply Script.run_bind_state hshim
        intro c _
        have hpatch : SettledFor t ((Steps.patchConnection tenant c.id unverified).run _).2 :=
          hshim.patchConnection c.id
        apply Script.run_bind_state hpatch
        intro _ _
        refine hpatch.setProject fun hproject ht ↦ hkeep ⟨ht.symm, ?_⟩
        exact project_of_validatedFields hfields hproject

/-! ## What a deletion promotes -/

/-- The tenant has at most one default repository. -/
def AtMostOneDefault (g : GitTables) (t : String) : Prop :=
  (g.repositories.filter (·.defaultForTenant == some t)).length ≤ 1

/-- The tenant has no repositories, or exactly one of them is its default. -/
def HasDefault (g : GitTables) (t : String) : Prop :=
  repositoriesOf g t = [] ∨
    ((repositoriesOf g t).filter (·.defaultForTenant == some t)).length = 1

/-- The rows, the one with the lowest id made the default. -/
def promoteLowest (t : String) (rows : List GitRepositoryRow) : List GitRepositoryRow :=
  rows.map fun r ↦
    if rows.all fun s ↦ r.id ≤ s.id then { r with defaultForTenant := some t } else r

/-- Repositories in order of their ids, none twice. -/
private theorem Ranked.sorted (h : Ranked g) (q : GitRepositoryRow → Bool) :
    (g.repositories.filter q).Pairwise fun r s ↦ r.id < s.id := by
  have hmarks := h.orderly.sorted
  rw [marks, List.map_map, List.pairwise_map] at hmarks
  exact hmarks.sublist List.filter_sublist

theorem atMostOneDefault_of_ranked (h : Ranked g) (t : String) : AtMostOneDefault g t := by
  rw [AtMostOneDefault]
  have hsorted := h.sorted (·.defaultForTenant == some t)
  have hdefault : ∀ r ∈ g.repositories.filter (·.defaultForTenant == some t),
      r ∈ g.repositories ∧ r.defaultForTenant = some t := by
    intro r hr
    obtain ⟨hmem, hdefault⟩ := List.mem_filter.mp hr
    exact ⟨hmem, beq_iff_eq.mp hdefault⟩
  generalize g.repositories.filter (·.defaultForTenant == some t) = rows at hsorted hdefault
  cases rows with
  | nil => exact Nat.zero_le 1
  | cons r rest =>
    cases rest with
    | nil => exact le_refl 1
    | cons s rest =>
      have hlt : r.id < s.id := List.rel_of_pairwise_cons hsorted List.mem_cons_self
      obtain ⟨hr, hrt⟩ := hdefault r List.mem_cons_self
      obtain ⟨hs, hst⟩ := hdefault s (List.mem_cons_of_mem _ List.mem_cons_self)
      have hsame : r.id = s.id := h.orderly.single r.mark (List.mem_map_of_mem hr) s.mark
        (List.mem_map_of_mem hs) t hrt hst
      omega

/-- A default row is the tenant's own. -/
private theorem filter_defaults (h : Ranked g) (t : String) :
    (repositoriesOf g t).filter (·.defaultForTenant == some t) =
      g.repositories.filter (·.defaultForTenant == some t) := by
  rw [repositoriesOf, List.filter_filter]
  apply List.filter_congr
  intro r hr
  by_cases hdefault : r.defaultForTenant = some t
  · rw [hdefault, h.defaults r hr t hdefault, beq_self_eq_true, beq_self_eq_true, Bool.true_and]
  · rw [beq_eq_false_iff_ne.mpr hdefault, Bool.false_and]

theorem hasDefault_iff (h : Ranked g) : HasDefault g t ↔ Item.Settled (marks g) t := by
  have hnone : repositoriesOf g t = [] ↔ ∀ i ∈ marks g, i.owner ≠ t := by
    rw [repositoriesOf, List.filter_eq_nil_iff]
    constructor
    · intro hrows i hi
      obtain ⟨r, hr, rfl⟩ := List.mem_map.mp hi
      exact fun howner ↦ hrows r hr (beq_iff_eq.mpr howner)
    · intro hitems r hr howner
      exact hitems r.mark (List.mem_map_of_mem hr) (beq_iff_eq.mp howner)
  have hone : ((repositoriesOf g t).filter (·.defaultForTenant == some t)).length = 1 ↔
      ∃ i ∈ marks g, i.chosenFor = some t := by
    have hmost := atMostOneDefault_of_ranked h t
    rw [AtMostOneDefault] at hmost
    rw [filter_defaults h]
    have hpos : (g.repositories.filter (·.defaultForTenant == some t)).length = 1 ↔
        0 < (g.repositories.filter (·.defaultForTenant == some t)).length := by omega
    rw [hpos, List.length_pos_iff_exists_mem]
    constructor
    · rintro ⟨r, hr⟩
      obtain ⟨hmem, hdefault⟩ := List.mem_filter.mp hr
      exact ⟨r.mark, List.mem_map_of_mem hmem, beq_iff_eq.mp hdefault⟩
    · rintro ⟨i, hi, hchosen⟩
      obtain ⟨r, hr, rfl⟩ := List.mem_map.mp hi
      exact ⟨r, List.mem_filter.mpr ⟨hr, beq_iff_eq.mpr hchosen⟩⟩
  rw [HasDefault, hnone, hone]
  rfl

/-- Rows changed in place, among a tenant's. -/
private theorem repositoriesOf_map {f : GitRepositoryRow → GitRepositoryRow}
    (hf : ∀ r, (f r).tenantId = r.tenantId) :
    repositoriesOf { g with repositories := g.repositories.map f } tenant =
      (repositoriesOf g tenant).map f := by
  rw [repositoriesOf, List.filter_map, repositoriesOf]
  congr 1
  apply List.filter_congr
  intro r _
  rw [Function.comp_apply, hf]

/-- Making a repository the default, among the tenant's rows. -/
private theorem repositoriesOf_setDefaultRepository {id : Nat}
    (h : setDefaultRepository g tenant id = .ok g') :
    repositoriesOf g' tenant = ((repositoriesOf g tenant).map fun r ↦
      if r.defaultForTenant = some tenant then { r with defaultForTenant := none } else r).map
        fun r ↦ if r.id = id then { r with defaultForTenant := some tenant } else r := by
  rw [setDefaultRepository, bind_eq_ok] at h
  obtain ⟨found, -, h⟩ := h
  cases h
  rw [modifyRepository, repositoriesOf_map fun r ↦ by split <;> rfl, clearDefaultRepository,
    repositoriesOf_map fun r ↦ by split <;> rfl]

/-- Ensuring a default promotes the tenant's repository of the lowest id where none is one. -/
theorem repositoriesOf_ensureDefaultRepository (h : Ranked g) (tenant : String) :
    repositoriesOf (ensureDefaultRepository g tenant) tenant =
      if (repositoriesOf g tenant).any (·.defaultForTenant.isSome) then repositoriesOf g tenant
      else promoteLowest tenant (repositoriesOf g tenant) := by
  have hsorted : (repositoriesOf g tenant).Pairwise fun r s ↦ r.id < s.id := h.sorted _
  cases howned : repositoriesOf g tenant with
  | nil =>
    rw [ensureDefaultRepository, howned]
    exact howned
  | cons first rest =>
    rw [howned] at hsorted
    by_cases hany : (first :: rest).any (·.defaultForTenant.isSome) = true
    · rw [ensureDefaultRepository, howned]
      dsimp only
      rw [if_pos hany, if_pos hany]
      exact howned
    · have hfirst : first ∈ g.repositories ∧ first.tenantId = tenant :=
        mem_repositoriesOf.mp (howned ▸ List.mem_cons_self)
      obtain ⟨g', hset⟩ := exists_setDefaultRepository hfirst.1 hfirst.2
      rw [ensureDefaultRepository, howned]
      dsimp only
      rw [if_neg hany, if_neg hany, hset, Except.toOption, Option.getD_some,
        repositoriesOf_setDefaultRepository hset, howned, List.map_map, promoteLowest]
      apply List.map_congr_left
      intro r hr
      have hundefaulted : r.defaultForTenant ≠ some tenant := by
        intro hdefault
        exact hany (List.any_eq_true.mpr ⟨r, hr, by rw [hdefault]; rfl⟩)
      have hfirst_le : ∀ s ∈ first :: rest, first.id ≤ s.id := by
        intro s hs
        cases List.mem_cons.mp hs with
        | inl hself => rw [hself]
        | inr hrest => exact Nat.le_of_lt (List.rel_of_pairwise_cons hsorted hrest)
      have hlowest : ((first :: rest).all fun s ↦ r.id ≤ s.id) = true ↔ r.id = first.id := by
        rw [List.all_eq_true]
        constructor
        · intro hall
          have hle := of_decide_eq_true (hall first List.mem_cons_self)
          exact Nat.le_antisymm hle (hfirst_le r hr)
        · intro heq s hs
          rw [heq]
          exact decide_eq_true (hfirst_le s hs)
      rw [Function.comp_apply, if_neg hundefaulted]
      by_cases hid : r.id = first.id
      · rw [if_pos hid, if_pos (hlowest.mpr hid)]
      · rw [if_neg hid, if_neg fun hall ↦ hid (hlowest.mp hall)]

/-- The rows a write deletes. -/
def GitWrite.removes : GitWrite → Option (GitRepositoryRow → Bool)
  | .deleteConnection id => some fun r ↦ r.connectionId == id
  | .deleteRepository id => some fun r ↦ r.id == id
  | _ => none

/-- A tenant's repositories that a deletion leaves. -/
def survivors (g : GitTables) (t : String) (gone : GitRepositoryRow → Bool) :
    List GitRepositoryRow :=
  (repositoriesOf g t).filter fun r ↦ !gone r

/-- The tenant's default repository is among the deleted rows. -/
def defaultRemoved (g : GitTables) (t : String) (gone : GitRepositoryRow → Bool) : Bool :=
  (repositoriesOf g t).any fun r ↦ r.defaultForTenant == some t && gone r

/-- The rows that stay, among a tenant's. -/
private theorem repositoriesOf_filter (connections : List GitConnectionRow)
    (q : GitRepositoryRow → Bool) :
    repositoriesOf ⟨connections, g.repositories.filter q⟩ t = (repositoriesOf g t).filter q := by
  rw [repositoriesOf, repositoriesOf, List.filter_filter, List.filter_filter]
  apply List.filter_congr
  intro r _
  exact Bool.and_comm _ _

/-- What a deletion that returned leaves the tenant. -/
theorem repositoriesOf_removes (h : Ranked g) {x : GitWrite} {gone : GitRepositoryRow → Bool}
    (hgone : x.removes = some gone) (hok : ((x.script tenant).run g).1 = .ok ()) :
    repositoriesOf (gitStep g (tenant, x)) tenant =
      if (survivors g tenant gone).any (·.defaultForTenant.isSome) then survivors g tenant gone
      else promoteLowest tenant (survivors g tenant gone) := by
  cases x with
  | deleteConnection id =>
    cases hgone
    rw [GitWrite.script, run_deleteConnection] at hok
    obtain ⟨g', hdelete⟩ := whole_returned hok
    have hstep : gitStep g (tenant, .deleteConnection id) = g' := by
      rw [gitStep, GitWrite.script, run_deleteConnection, whole_ok hdelete]
    rw [hstep]
    rw [deleteConnection, bind_eq_ok] at hdelete
    obtain ⟨c, hc, hdelete⟩ := hdelete
    cases hdelete
    have hleft : repositoriesOf (withoutConnection g id) tenant =
        survivors g tenant (·.connectionId == id) := by
      rw [withoutConnection, repositoriesOf_filter, survivors]
      apply List.filter_congr
      intro r _
      exact decide_not.trans (congrArg not (beq_eq_decide _ _).symm)
    have hensured := repositoriesOf_ensureDefaultRepository (h.withoutConnection hc) tenant
    rw [hleft] at hensured
    exact hensured
  | deleteRepository id =>
    cases hgone
    rw [GitWrite.script, run_deleteRepository] at hok
    obtain ⟨g', hdelete⟩ := whole_returned hok
    have hstep : gitStep g (tenant, .deleteRepository id) = g' := by
      rw [gitStep, GitWrite.script, run_deleteRepository, whole_ok hdelete]
    rw [hstep]
    rw [deleteRepository, bind_eq_ok] at hdelete
    obtain ⟨r, hr, hdelete⟩ := hdelete
    cases hdelete
    have hleft : repositoriesOf (withoutRepository g id) tenant =
        survivors g tenant (·.id == id) := by
      rw [withoutRepository, repositoriesOf_filter, survivors]
      apply List.filter_congr
      intro r _
      exact decide_not.trans (congrArg not (beq_eq_decide _ _).symm)
    have hensured := repositoriesOf_ensureDefaultRepository (h.withoutRepository hr) tenant
    rw [hleft] at hensured
    exact hensured
  | createConnection skipped body => cases hgone
  | updateConnection id body => cases hgone
  | createRepository skipped connectionId body => cases hgone
  | updateRepository id body => cases hgone
  | setDefaultRepository id => cases hgone
  | setGitConfig skipped skippedRepositories update => cases hgone

/-- A deletion that raised changed nothing. -/
theorem gitStep_refused {x : GitWrite} {gone : GitRepositoryRow → Bool} {e : GitError}
    (hgone : x.removes = some gone) (hraised : ((x.script tenant).run g).1 = .error e) :
    gitStep g (tenant, x) = g := by
  cases x with
  | deleteConnection id =>
    rw [GitWrite.script, run_deleteConnection] at hraised
    rw [gitStep, GitWrite.script, run_deleteConnection]
    exact whole_raised hraised
  | deleteRepository id =>
    rw [GitWrite.script, run_deleteRepository] at hraised
    rw [gitStep, GitWrite.script, run_deleteRepository]
    exact whole_raised hraised
  | createConnection skipped body => cases hgone
  | updateConnection id body => cases hgone
  | createRepository skipped connectionId body => cases hgone
  | updateRepository id body => cases hgone
  | setDefaultRepository id => cases hgone
  | setGitConfig skipped skippedRepositories update => cases hgone

/-- The default of a tenant that has one is among the survivors, or was deleted. -/
theorem survivors_any_iff (h : Ranked g) (hdefault : HasDefault g t)
    (gone : GitRepositoryRow → Bool) (hsome : repositoriesOf g t ≠ []) :
    (survivors g t gone).any (·.defaultForTenant.isSome) = !defaultRemoved g t gone := by
  have hone := hdefault.resolve_left hsome
  obtain ⟨r, hr⟩ := List.length_eq_one_iff.mp hone
  have honly : ∀ s, (s ∈ repositoriesOf g t ∧ s.defaultForTenant = some t) ↔ s = r := by
    intro s
    rw [← List.mem_singleton (b := r), ← hr, List.mem_filter, beq_iff_eq]
  obtain ⟨hmem, hrt⟩ := (honly r).mpr rfl
  have hremoved : defaultRemoved g t gone = gone r := by
    rw [Bool.eq_iff_iff, defaultRemoved, List.any_eq_true]
    constructor
    · rintro ⟨s, hs, hgone⟩
      rw [Bool.and_eq_true, beq_iff_eq] at hgone
      exact (honly s).mp ⟨hs, hgone.1⟩ ▸ hgone.2
    · intro hgone
      exact ⟨r, hmem, by rw [hrt, beq_self_eq_true, hgone]; rfl⟩
  rw [hremoved, Bool.eq_iff_iff, List.any_eq_true, survivors]
  constructor
  · rintro ⟨s, hs, hchosen⟩
    obtain ⟨hst, hstay⟩ := List.mem_filter.mp hs
    obtain ⟨p, hp⟩ := Option.isSome_iff_exists.mp hchosen
    obtain ⟨hstored, howner⟩ := mem_repositoriesOf.mp hst
    have hpt : p = t := (h.defaults s hstored p hp).symm.trans howner
    exact (honly s).mp ⟨hst, hpt ▸ hp⟩ ▸ hstay
  · intro hstay
    exact ⟨r, List.mem_filter.mpr ⟨hmem, hstay⟩, by rw [hrt]; rfl⟩

/-- What a write does to the defaults of the tenants. -/
structure DefaultKept (g : GitTables) (x : String × GitWrite) : Prop where
  /-- At every point, every tenant has at most one. -/
  atMostOne : ∀ g' ∈ (x.2.script x.1).visited g, ∀ t, AtMostOneDefault g' t
  /-- A tenant without repositories or with one default stays such a tenant. -/
  kept : ∀ t, ¬(x.1 = t ∧ x.2.clearsDefault) → HasDefault g t → HasDefault (gitStep g x) t
  /-- A deletion promotes the survivor of the lowest id exactly if the default was deleted. -/
  promoted : ∀ gone, x.2.removes = some gone → ((x.2.script x.1).run g).1 = .ok () →
    HasDefault g x.1 → repositoriesOf (gitStep g x) x.1 =
      if defaultRemoved g x.1 gone then promoteLowest x.1 (survivors g x.1 gone)
      else survivors g x.1 gone
  /-- A deletion that raises changes nothing. -/
  refused : ∀ gone e, x.2.removes = some gone → ((x.2.script x.1).run g).1 = .error e →
    gitStep g x = g

/-- In every run of any writes of any tenants, each write keeps the defaults. -/
theorem default_kept (xs : List (String × GitWrite)) : EachStep gitStep DefaultKept {} xs := by
  apply eachStep_of_invariant (P := Ranked) _ ranked_empty
    (eachStep_of_all (C := fun _ _ ↦ True) fun _ _ ↦ trivial)
  intro g x h _
  obtain ⟨tenant, x⟩ := x
  have hkeeps : (x.script tenant).Keeps Ranked (fun _ _ ↦ True) g := keeps_ranked h x
  have hlast : Ranked (gitStep g (tenant, x)) := hkeeps.last
  refine ⟨?_, hlast⟩
  constructor
  · intro g' hg' t
    exact atMostOneDefault_of_ranked (hkeeps.visited g' hg') t
  · intro t hkeep hdefault
    rw [hasDefault_iff hlast]
    exact (settledFor_gitStep ⟨h, (hasDefault_iff h).mp hdefault⟩ hkeep).2
  · intro gone hgone hok hdefault
    rw [repositoriesOf_removes h hgone hok]
    by_cases hsome : repositoriesOf g tenant = []
    · have hleft : survivors g tenant gone = [] := by rw [survivors, hsome, List.filter_nil]
      dsimp only
      rw [hleft, promoteLowest, List.map_nil, ite_self, ite_self]
    · rw [survivors_any_iff h hdefault gone hsome]
      cases defaultRemoved g tenant gone <;> rfl
  · intro gone e hgone hraised
    exact gitStep_refused hgone hraised

end CFactory.Git
