import CFactory.Git.Adoption
import CFactory.Git.DefaultRepository

/-!
# Paths a provider can address

`git_config.py:249–265`, `git_connections.py:302–337`, `cards.py:1097–1127,1523–1566`. A path is
validated when its repository is written, for the provider its connection has then; a connection
that is pointed at another provider takes its repositories along without validating them.
-/

namespace CFactory.Git

open CFactory.Base CFactory.Cards

/-! ## Paths -/

/-- A path of three parts, as `azure_devops` wants it; `git_config.py:263`. -/
def threeParts (path : String) : Bool := (path.toList.splitOn '/').length == 3

/-- The paths of the repository are `organization/project/repo`. -/
def GitRepositoryRow.ThreeParts (r : GitRepositoryRow) : Prop :=
  threeParts r.project = true ∧ ∀ p, r.intakeProject = some p → threeParts p = true

instance decidableThreeParts (r : GitRepositoryRow) : Decidable r.ThreeParts :=
  match h : r.intakeProject with
  | none => decidable_of_iff (threeParts r.project = true) <| by
      rw [GitRepositoryRow.ThreeParts, h]
      simp
  | some p => decidable_of_iff (threeParts r.project = true ∧ threeParts p = true) <| by
      rw [GitRepositoryRow.ThreeParts, h]
      simp

/-- The provider accepts both paths of the repository. -/
def Addressable (provider : Provider) (r : GitRepositoryRow) : Prop :=
  (∃ value, validateProject (some r.project) provider "project" = .ok value) ∧
    ∃ value, validateProject r.intakeProject provider "intake_project" = .ok value

/-- Every repository is addressable for the provider of its connection. -/
def EveryAddressable (g : GitTables) : Prop :=
  ∀ r ∈ g.repositories, ∃ c, connectionOrNone g r.tenantId r.connectionId = some c ∧
    Addressable c.provider r

/-- A project path is accepted unless the provider wants three parts and it has not. -/
private theorem validateProject_path {path field : String} {provider : Provider}
    (h : isProject path.toList = true) :
    (∃ value, validateProject (some path) provider field = .ok value) ↔
      (provider = .azureDevops → threeParts path = true) := by
  have hvalue : stripped (some path) = path := by
    rw [stripped, Option.getD_some, strip_project h, String.ofList_toList]
  rw [validateProject, hvalue]
  by_cases hempty : path = ""
  · subst hempty
    cases h
  · rw [if_neg hempty, h, if_neg (by decide)]
    by_cases hparts : provider = .azureDevops ∧ (path.toList.splitOn '/').length ≠ 3
    · rw [if_pos hparts]
      constructor
      · rintro ⟨value, hvalue⟩
        cases hvalue
      · intro hthree
        exact absurd (beq_iff_eq.mp (hthree hparts.1)) hparts.2
    · rw [if_neg hparts]
      refine ⟨fun _ hazure ↦ ?_, fun _ ↦ ⟨_, rfl⟩⟩
      rw [threeParts, beq_iff_eq]
      by_contra hne
      exact hparts ⟨hazure, hne⟩

/-- A repository at project paths is addressable unless the provider wants three parts. -/
theorem addressable_iff {provider : Provider} {r : GitRepositoryRow} (h : Addressed r) :
    Addressable provider r ↔ (provider = .azureDevops → r.ThreeParts) := by
  have hintake : (∃ value, validateProject r.intakeProject provider "intake_project" = .ok value) ↔
      (provider = .azureDevops → ∀ p, r.intakeProject = some p → threeParts p = true) := by
    cases hp : r.intakeProject with
    | none =>
      refine ⟨fun _ _ p hnone ↦ ?_, fun _ ↦ ⟨none, rfl⟩⟩
      cases hnone
    | some p =>
      rw [validateProject_path (h.2 p hp)]
      constructor
      · intro hthree hazure q hq
        cases hq
        exact hthree hazure
      · intro hthree hazure
        exact hthree hazure p rfl
  rw [Addressable, validateProject_path h.1, hintake, GitRepositoryRow.ThreeParts]
  constructor
  · rintro ⟨hproject, hintake⟩ hazure
    exact ⟨hproject hazure, hintake hazure⟩
  · intro hboth
    exact ⟨fun hazure ↦ (hboth hazure).1, fun hazure ↦ (hboth hazure).2⟩

/-- What `azure_devops` accepts has three parts. -/
private theorem threeParts_of_validateProject {project : Option String} {field value : String}
    (h : validateProject project .azureDevops field = .ok (some value)) :
    threeParts value = true := by
  rw [validateProject] at h
  split at h
  · cases h
  · split at h
    · cases h
    · split at h
      · cases h
      · next hparts =>
        cases h
        rw [threeParts, beq_iff_eq]
        by_contra hne
        exact hparts ⟨rfl, hne⟩

/-! ## What the writes keep -/

variable {g g' : GitTables} {tenant : String}

/-- The rows are in order, and the repositories on `azure_devops` have paths of three parts. -/
structure Placed (g : GitTables) : Prop extends Ranked g where
  placed : ∀ r ∈ g.repositories, ∀ c ∈ g.connections, c.id = r.connectionId →
    c.provider = .azureDevops → r.ThreeParts

theorem placed_empty : Placed {} where
  toRanked := ranked_empty
  placed := by simp

/-- That is when every repository is addressable. -/
theorem everyAddressable_iff (h : Ranked g) : EveryAddressable g ↔ Placed g := by
  constructor
  · intro hall
    refine ⟨h, ?_⟩
    intro r hr c hc hid
    obtain ⟨found, hfound, haddressable⟩ := hall r hr
    obtain ⟨home, hhome, -, -, honly⟩ := h.home hr
    rw [hhome] at hfound
    cases hfound
    rw [honly c hc hid]
    exact (addressable_iff (h.addressed r hr)).mp haddressable
  · intro hplaced r hr
    obtain ⟨home, hhome, hmem, hid, -⟩ := h.home hr
    refine ⟨home, hhome, ?_⟩
    exact (addressable_iff (h.addressed r hr)).mpr (hplaced.placed r hr home hmem hid)

/-- Rows that stand where rows stood, on the same providers, at paths as good. -/
private theorem Placed.of_rows (h : Placed g) (hg' : Ranked g')
    (hconnections : ∀ c' ∈ g'.connections, ∃ c ∈ g.connections,
      c.id = c'.id ∧ c.provider = c'.provider)
    (hrepositories : ∀ r' ∈ g'.repositories, ∃ r ∈ g.repositories,
      r.connectionId = r'.connectionId ∧ (r.ThreeParts → r'.ThreeParts)) : Placed g' where
  toRanked := hg'
  placed := by
    intro r' hr' c' hc' hid hazure
    obtain ⟨c, hc, hcid, hprovider⟩ := hconnections c' hc'
    obtain ⟨r, hr, hrid, hparts⟩ := hrepositories r' hr'
    apply hparts
    exact h.placed r hr c hc (by rw [hcid, hid, hrid]) (hprovider.trans hazure)

/-- Repositories changed in place, at the same paths. -/
private theorem Placed.mapRepositories (h : Placed g) {f : GitRepositoryRow → GitRepositoryRow}
    (hg' : Ranked { g with repositories := g.repositories.map f })
    (hf : ∀ r ∈ g.repositories, (f r).connectionId = r.connectionId ∧
      (r.ThreeParts → (f r).ThreeParts)) :
    Placed { g with repositories := g.repositories.map f } := by
  apply h.of_rows hg' fun c hc ↦ ⟨c, hc, rfl, rfl⟩
  intro r' hr'
  obtain ⟨r, hr, rfl⟩ := List.mem_map.mp hr'
  exact ⟨r, hr, (hf r hr).1.symm, (hf r hr).2⟩

theorem Placed.clearDefaultRepository (h : Placed g) (tenant : String) :
    Placed (clearDefaultRepository g tenant) := by
  apply h.mapRepositories (h.toRanked.clearDefaultRepository tenant)
  intro r hr
  split
  · exact ⟨rfl, fun hparts ↦ hparts⟩
  · exact ⟨rfl, fun hparts ↦ hparts⟩

theorem Placed.setDefaultRepository (h : Placed g) {id : Nat}
    (hset : setDefaultRepository g tenant id = .ok g') : Placed g' := by
  have hranked := h.toRanked.setDefaultRepository hset
  rw [Git.setDefaultRepository, bind_eq_ok] at hset
  obtain ⟨found, -, hset⟩ := hset
  cases hset
  apply (h.clearDefaultRepository tenant).mapRepositories hranked
  intro r hr
  split
  · exact ⟨rfl, fun hparts ↦ hparts⟩
  · exact ⟨rfl, fun hparts ↦ hparts⟩

theorem Placed.ensureDefaultRepository (h : Placed g) (tenant : String) :
    Placed (ensureDefaultRepository g tenant) := by
  rw [Git.ensureDefaultRepository]
  split
  · exact h
  · next first rest _ =>
    split
    · exact h
    · cases hset : Git.setDefaultRepository g tenant first.id with
      | error e => exact h
      | ok g' => exact h.setDefaultRepository hset

/-- No repository is on a new connection. -/
theorem Placed.createConnection (h : Placed g) {skipped : Nat} {body : GitConnectionCreate}
    {c : GitConnectionRow} (hcreate : createConnection g tenant skipped body = .ok (c, g')) :
    Placed g' where
  toRanked := h.toRanked.createConnection hcreate
  placed := by
    obtain ⟨fields, -, rfl, rfl⟩ := createConnection_ok hcreate
    intro r hr c hc hid hazure
    cases List.mem_append.mp hc with
    | inl hold => exact h.placed r hr c hold hid hazure
    | inr hnew =>
      cases List.mem_singleton.mp hnew
      obtain ⟨home, hhome, hsame, -⟩ := h.homed r hr
      have hmem : (newConnection g tenant skipped fields).id ∈ g.connections.map (·.id) :=
        List.mem_map.mpr ⟨home, hhome, hsame.trans hid.symm⟩
      exact absurd hmem (nextId_fresh _ skipped)

/-- A write of a connection's columns but its provider. -/
theorem Placed.patchConnection (h : Placed g) {id : Nat} {c : GitConnectionRow}
    (hc : connection g tenant id = .ok c) {f : GitConnectionRow → GitConnectionRow}
    (hf : ∀ c, (f c).id = c.id ∧ (f c).tenantId = c.tenantId ∧ (f c).provider = c.provider) :
    Placed (modifyConnection g id f) := by
  apply h.of_rows (h.toRanked.patchConnection hc fun c ↦ ⟨(hf c).1, (hf c).2.1⟩)
  · intro c' hc'
    obtain ⟨q, hq, rfl⟩ := List.mem_map.mp hc'
    refine ⟨q, hq, ?_⟩
    split
    · exact ⟨(hf q).1.symm, (hf q).2.2.symm⟩
    · exact ⟨rfl, rfl⟩
  · exact fun r hr ↦ ⟨r, hr, rfl, fun hparts ↦ hparts⟩

theorem Placed.withoutConnection (h : Placed g) {id : Nat} {c : GitConnectionRow}
    (hc : connection g tenant id = .ok c) : Placed (withoutConnection g id) := by
  apply h.of_rows (h.toRanked.withoutConnection hc)
  · exact fun c hc ↦ ⟨c, List.mem_of_mem_filter hc, rfl, rfl⟩
  · exact fun r hr ↦ ⟨r, List.mem_of_mem_filter hr, rfl, fun hparts ↦ hparts⟩

theorem Placed.withoutRepository (h : Placed g) {id : Nat} {r : GitRepositoryRow}
    (hr : repository g tenant id = .ok r) : Placed (withoutRepository g id) := by
  apply h.of_rows (h.toRanked.withoutRepository hr)
  · exact fun c hc ↦ ⟨c, hc, rfl, rfl⟩
  · exact fun r hr ↦ ⟨r, List.mem_of_mem_filter hr, rfl, fun hparts ↦ hparts⟩

/-- The paths of a repository created on `azure_devops`. -/
private theorem threeParts_newRepository {g : GitTables} {skipped connectionId : Nat}
    {body : GitRepositoryCreate} {fields : RepositoryFields}
    (h : repositoryFields body .azureDevops = .ok fields) :
    (newRepository g tenant skipped connectionId fields).ThreeParts := by
  obtain ⟨hproject, hintake⟩ := accepted_of_repositoryFields h
  refine ⟨threeParts_of_validateProject hproject, ?_⟩
  intro p hp
  have hsome : fields.intakeProject = some p := hp
  rw [hsome] at hintake
  exact threeParts_of_validateProject hintake

/-- A new repository is validated for the provider of its connection. -/
theorem Placed.insertRepository (h : Placed g) {skipped connectionId : Nat}
    {body : GitRepositoryCreate} {created : Nat × Bool}
    (hinsert : insertRepository g tenant skipped connectionId body = .ok (created, g')) :
    Placed g' where
  toRanked := h.toRanked.insertRepository hinsert
  placed := by
    obtain ⟨found, fields, hc, hfields, -, rfl⟩ := insertRepository_ok hinsert
    obtain ⟨hmem, hfoundId, -⟩ := connection_ok hc
    intro r hr c hc hid hazure
    cases List.mem_append.mp hr with
    | inl hold => exact h.placed r hold c hc hid hazure
    | inr hnew =>
      cases List.mem_singleton.mp hnew
      have hsame : c = found :=
        List.inj_on_of_nodup_map h.connectionIds hc hmem (hid.trans hfoundId.symm)
      rw [← hsame, hazure] at hfields
      exact threeParts_newRepository hfields

/-- The paths of a repository patched on `azure_devops`. -/
private theorem threeParts_apply {body : GitRepositoryUpdate} {patch : RepositoryPatch}
    (h : repositoryPatch body .azureDevops = .ok patch) {r : GitRepositoryRow}
    (hr : r.ThreeParts) : (patch.apply r).ThreeParts := by
  obtain ⟨hproject, hintake⟩ := accepted_of_repositoryPatch h
  constructor
  · show threeParts (patch.project.getD r.project) = true
    cases hp : patch.project with
    | none => exact hr.1
    | some p =>
      obtain ⟨sent, haccepted⟩ := hproject p hp
      exact threeParts_of_validateProject haccepted
  · intro p hp
    have hvalue : patch.intakeProject.getD r.intakeProject = some p := hp
    cases hi : patch.intakeProject with
    | none =>
      rw [hi] at hvalue
      exact hr.2 p hvalue
    | some intake =>
      obtain ⟨sent, haccepted⟩ := hintake intake hi
      rw [hi] at hvalue
      have hsome : intake = some p := hvalue
      rw [hsome] at haccepted
      exact threeParts_of_validateProject haccepted

/-- A patch is validated for the provider of the repository's connection. -/
theorem Placed.updateRepository (h : Placed g) {id : Nat} {body : GitRepositoryUpdate}
    (hupdate : updateRepository g tenant id body = .ok g') : Placed g' where
  toRanked := h.toRanked.updateRepository hupdate
  placed := by
    obtain ⟨current, found, patch, hcurrent, hc, hpatch, hwrite⟩ := updateRepository_ok hupdate
    obtain ⟨hmem, hfoundId, -⟩ := connection_ok hc
    obtain ⟨hstored, hcurrentId⟩ := repository_ok hcurrent
    rcases hwrite with rfl | rfl
    · exact h.placed
    · intro r' hr' c hc hid hazure
      obtain ⟨r, hr, rfl⟩ := List.mem_map.mp hr'
      by_cases hhit : r.id = id
      · rw [if_pos hhit] at hid ⊢
        have hrcurrent : r = current := List.inj_on_of_nodup_map h.ids hr
          (mem_repositoriesOf.mp hstored).1 (hhit.trans hcurrentId.symm)
        have hconnection : c.id = r.connectionId := hid
        have hsame : c = found := List.inj_on_of_nodup_map h.connectionIds hc hmem
          (by rw [hconnection, hrcurrent, hfoundId])
        rw [← hsame, hazure] at hpatch
        exact threeParts_apply hpatch (h.placed r hr c hc hconnection hazure)
      · rw [if_neg hhit] at hid ⊢
        exact h.placed r hr c hc hid hazure

/-! ## A connection pointed at another provider -/

/-- A patch that names `azure_devops` and is accepted finds paths of three parts on the
connection. -/
def Refits (g : GitTables) (tenant : String) (id : Nat) (body : GitConnectionUpdate) : Prop :=
  ∀ provider, body.provider = some provider → validateProvider provider = .ok .azureDevops →
    (∃ done, updateConnection g tenant id body = .ok done) →
      ∀ r ∈ g.repositories, r.connectionId = id → r.ThreeParts

/-- A write points no connection at `azure_devops` whose repositories have other paths. -/
def GitWrite.Refits (g : GitTables) (tenant : String) : GitWrite → Prop
  | .updateConnection id body => Git.Refits g tenant id body
  | .setGitConfig _ _ update => ∀ fields wanted c, update.valid = true →
      validatedFields update = .ok fields →
      connectionFields (some fields.provider.text) fields.baseUrl none = .ok wanted →
      connectionTo g tenant wanted.provider wanted.baseUrl = none →
      editableConnection g tenant = some c → Git.Refits g tenant c.id (moveTo wanted)
  | _ => True

/-- A provider's name is read back. -/
theorem validateProvider_text (provider : Provider) :
    validateProvider (some provider.text) = .ok provider := by
  cases provider <;> decide

/-- The provider of a patched connection is the one the patch names, or the one it had. -/
private theorem provider_of_connectionFields {provider baseUrl label : Option String}
    {fields : ConnectionFields} (h : connectionFields provider baseUrl label = .ok fields) :
    validateProvider provider = .ok fields.provider := by
  rw [connectionFields, bind_eq_ok] at h
  obtain ⟨kind, hkind, h⟩ := h
  rw [bind_eq_ok] at h
  obtain ⟨url, -, h⟩ := h
  rw [bind_eq_ok] at h
  obtain ⟨name, -, h⟩ := h
  cases h
  exact hkind

/-- A connection that is patched keeps its repositories where they can be addressed exactly if
they fit the provider it is pointed at. -/
theorem placed_updateConnection_iff (h : Placed g) {id : Nat} {body : GitConnectionUpdate}
    {c : GitConnectionRow} (hupdate : updateConnection g tenant id body = .ok (c, g')) :
    Placed g' ↔ Refits g tenant id body := by
  have hranked := h.toRanked.updateConnection hupdate
  obtain ⟨current, fields, hcurrent, hfields, rfl, rfl⟩ := updateConnection_ok hupdate
  obtain ⟨hmem, hcurrentId, -⟩ := connection_ok hcurrent
  have hprovider := provider_of_connectionFields hfields
  constructor
  · intro hplaced provider hsent hazure _ r hr hid
    rw [hsent, Option.getD_some, hazure] at hprovider
    have hmoved : fields.apply current ∈ (modifyConnection g id fields.apply).connections := by
      refine List.mem_map.mpr ⟨current, hmem, ?_⟩
      rw [if_pos hcurrentId]
    exact hplaced.placed r hr _ hmoved (hcurrentId.trans hid.symm)
      (Except.ok.inj hprovider).symm
  · intro hfits
    refine ⟨hranked, ?_⟩
    intro r hr c' hc' hid hazure
    obtain ⟨q, hq, rfl⟩ := List.mem_map.mp hc'
    by_cases hhit : q.id = id
    · rw [if_pos hhit] at hid hazure
      have hsame : q = current :=
        List.inj_on_of_nodup_map h.connectionIds hq hmem (hhit.trans hcurrentId.symm)
      have hrid : r.connectionId = q.id := hid.symm
      have hfieldsAzure : fields.provider = .azureDevops := hazure
      rw [hfieldsAzure] at hprovider
      cases hsent : body.provider with
      | none =>
        rw [hsent, Option.getD_none, validateProvider_text] at hprovider
        exact h.placed r hr q hq hid (hsame ▸ Except.ok.inj hprovider)
      | some provider =>
        rw [hsent, Option.getD_some] at hprovider
        exact hfits provider hsent hprovider ⟨_, hupdate⟩ r hr (hrid.trans hhit)
    · rw [if_neg hhit] at hid hazure
      exact h.placed r hr q hq hid hazure

theorem closed_placed : Closed Placed where
  createConnection := Placed.createConnection
  patchConnection := by
    intro g tenant h id c hc f hf
    exact h.patchConnection hc hf
  withoutConnection := Placed.withoutConnection
  withoutRepository := Placed.withoutRepository
  insertRepository := Placed.insertRepository
  updateRepository := Placed.updateRepository
  setDefaultRepository := Placed.setDefaultRepository
  ensureDefaultRepository := Placed.ensureDefaultRepository
  clearDefaultRepository := Placed.clearDefaultRepository

/-- A write that refits what it moves leaves every repository addressable on its whole way. -/
theorem keeps_placed (h : Placed g) {x : GitWrite} (hx : x.Refits g tenant) :
    (x.script tenant).Keeps Placed (fun _ _ ↦ True) g := by
  apply closed_placed.script h x
  · intro id body c g' hop hupdate
    subst hop
    exact (placed_updateConnection_iff h hupdate).mpr hx
  · intro skipped skippedRepositories update fields c g' hop hvalid hfields hshim
    subst hop
    rcases shimConnection_moves hshim with hsame | ⟨body, hcreate⟩ | hmove
    · rw [hsame]
      exact h
    · exact h.createConnection hcreate
    · obtain ⟨wanted, editable, hwanted, hto, heditable, hupdate⟩ := hmove
      exact (placed_updateConnection_iff h hupdate).mpr
        (hx fields wanted editable hvalid hfields hwanted hto heditable)

/-- The tables after the first transaction of a program are on its way. -/
private theorem mem_visited_transacting {α β : Type}
    {f : GitTables → Except GitError (α × GitTables)} {next : α → GitScript β} {a : α}
    (h : f g = .ok (a, g')) : g' ∈ (transacting f >>= next).visited g := by
  apply Script.mem_visited_bind
  have hlast := Script.last_mem_visited (transacting f) g
  rw [run_transacting_ok h] at hlast
  exact hlast

/-- A write that leaves every repository addressable on its whole way refits what it moves. -/
theorem refits_of_placed (h : Placed g) {x : GitWrite}
    (hx : ∀ g' ∈ (x.script tenant).visited g, Placed g') : x.Refits g tenant := by
  cases x with
  | updateConnection id body =>
    intro provider hsent hazure hdone
    obtain ⟨⟨c, g'⟩, hupdate⟩ := hdone
    have hplaced := hx g' (mem_visited_transacting hupdate)
    exact (placed_updateConnection_iff h hupdate).mp hplaced provider hsent hazure ⟨_, hupdate⟩
  | setGitConfig skipped skippedRepositories update =>
    intro fields wanted editable hvalid hfields hwanted hto heditable provider hsent hazure hdone
    obtain ⟨⟨c, g'⟩, hupdate⟩ := hdone
    have hmove : updateConnection g tenant editable.id
        { provider := some (some wanted.provider.text)
          baseUrl := some (some wanted.baseUrl) } = .ok (c, g') := hupdate
    have hshim : shimConnection g tenant skipped fields.provider fields.baseUrl = .ok (c, g') := by
      rw [shimConnection, hwanted]
      dsimp only [bind, Except.bind]
      rw [hto]
      dsimp only
      rw [heditable]
      dsimp only
      rw [hmove]
      rfl
    have hvisited : g' ∈
        ((GitWrite.setGitConfig skipped skippedRepositories update).script tenant).visited g := by
      rw [GitWrite.script, Steps.setGitConfig, hvalid, Bool.not_true, if_neg Bool.false_ne_true,
        hfields]
      exact mem_visited_transacting hshim
    exact (placed_updateConnection_iff h hupdate).mp (hx g' hvisited) provider hsent hazure
      ⟨_, hupdate⟩
  | createConnection skipped body => trivial
  | deleteConnection id => trivial
  | createRepository skipped connectionId body => trivial
  | updateRepository id body => trivial
  | deleteRepository id => trivial
  | setDefaultRepository id => trivial

/-! ## Runs -/

/-- A write of a tenant, or the adoption of rows of the single configuration. -/
inductive ConfigWrite where
  | write (tenant : String) (x : GitWrite)
  | adopt (rows : List LegacyRow)

/-- Its transactions. -/
def ConfigWrite.script : ConfigWrite → GitScript Unit
  | .write tenant x => x.script tenant
  | .adopt rows => Steps.adoptLegacy rows

/-- It points no connection at `azure_devops` whose repositories have other paths. -/
def ConfigWrite.Refits (g : GitTables) : ConfigWrite → Prop
  | .write tenant x => x.Refits g tenant
  | .adopt _ => True

/-- A write through to its end. -/
def configStep (g : GitTables) (x : ConfigWrite) : GitTables := (x.script.run g).2

/-- Every repository is addressable in every state on the way of a write. -/
def StaysAddressable (g : GitTables) (x : ConfigWrite) : Prop :=
  ∀ g' ∈ x.script.visited g, EveryAddressable g'

/-- An adoption validates what it writes. -/
theorem Closed.stepAdoptLegacy {I : GitTables → Prop} (hI : Closed I) (rows : List LegacyRow)
    (h : I g) : (Steps.adoptLegacy rows).Keeps I (fun _ _ ↦ True) g := by
  induction rows generalizing g with
  | nil => exact .pure h trivial
  | cons row rest ih =>
    have hread : (Steps.connections row.tenant).Keeps I (fun _ _ ↦ True) g :=
      .atomic h h fun _ _ ↦ trivial
    apply hread.bind
    intro existing g₁ h₁ _
    split
    · exact ih h₁
    · have hadopt : (Steps.adoptConfig row.tenant row).Keeps I (fun _ _ ↦ True) g₁ := by
        apply (hI.stepCreateConnection h₁ _ _).bind
        intro c g₂ h₂ _
        have hverified : (Steps.patchConnection row.tenant c.id row.verified).Keeps I
            (fun _ _ ↦ True) g₂ := hI.stepPatchConnection h₂ c.id fun _ ↦ ⟨rfl, rfl, rfl⟩
        apply hverified.bind
        intro _ g₃ h₃ _
        cases row.project.filter (· ≠ "") with
        | none => exact .pure h₃ trivial
        | some project =>
          exact (hI.stepCreateRepository h₃ _ _ _).bind fun _ _ h₄ _ ↦ .pure h₄ trivial
      exact hadopt.bind fun _ _ h₅ _ ↦ ih h₅

/-- One write leaves every repository addressable exactly if it refits what it moves. -/
private theorem staysAddressable_iff (h : Placed g) (x : ConfigWrite) :
    StaysAddressable g x ↔ x.Refits g := by
  have hranked : x.script.Keeps Ranked (fun _ _ ↦ True) g := by
    cases x with
    | write tenant x => exact keeps_ranked h.toRanked x
    | adopt rows => exact closed_ranked.stepAdoptLegacy rows h.toRanked
  have hplaced : StaysAddressable g x ↔ ∀ g' ∈ x.script.visited g, Placed g' := by
    constructor
    · exact fun hx g' hg' ↦ (everyAddressable_iff (hranked.visited g' hg')).mp (hx g' hg')
    · exact fun hx g' hg' ↦ (everyAddressable_iff (hranked.visited g' hg')).mpr (hx g' hg')
  rw [hplaced]
  cases x with
  | write tenant x => exact ⟨refits_of_placed h, fun hx ↦ (keeps_placed h hx).visited⟩
  | adopt rows => exact ⟨fun _ ↦ trivial, fun _ ↦ (closed_placed.stepAdoptLegacy rows h).visited⟩

/-- Every repository is addressable throughout a run exactly if no write points a connection at
`azure_devops` whose repositories have other paths. -/
theorem staysAddressable_run_iff (xs : List ConfigWrite) :
    EachStep configStep StaysAddressable {} xs ↔
      EachStep configStep (fun g x ↦ x.Refits g) {} xs := by
  apply eachStep_iff_of_invariant (P := Placed) _ _ placed_empty
  · exact fun g x h ↦ staysAddressable_iff h x
  · intro g x h hx
    have hlast : configStep g x ∈ x.script.visited g := Script.last_mem_visited x.script g
    cases x with
    | write tenant x => exact (keeps_placed h hx).visited _ hlast
    | adopt rows => exact (closed_placed.stepAdoptLegacy rows h).visited _ hlast

/-- A connection to `github` with a repository that is then pointed at `azure_devops`. -/
private def pointedElsewhere : List ConfigWrite :=
  [.write "acme" (.createConnection 0 { provider := "github" }),
   .write "acme" (.createRepository 0 1 { project := "acme/web" }),
   .write "acme" (.updateConnection 1 { provider := some (some "azure_devops") })]

/-- Its repository has no path that `azure_devops` accepts. -/
theorem pointedElsewhere_not_addressable :
    ¬EveryAddressable (pointedElsewhere.foldl configStep {}) := by
  intro hall
  have hrow : ∃ r ∈ (pointedElsewhere.foldl configStep {}).repositories, ∃ c,
      connectionOrNone (pointedElsewhere.foldl configStep {}) r.tenantId r.connectionId = some c ∧
        validateProject (some r.project) c.provider "project" =
          .error (.notThreeParts "project") := by
    refine ⟨_, List.mem_cons_self, _, rfl, ?_⟩
    decide
  obtain ⟨r, hr, c, hc, hrejected⟩ := hrow
  obtain ⟨found, hfound, ⟨value, haccepted⟩, -⟩ := hall r hr
  rw [hc] at hfound
  cases hfound
  rw [hrejected] at haccepted
  cases haccepted

end CFactory.Git
