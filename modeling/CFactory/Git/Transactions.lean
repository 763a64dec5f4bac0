import CFactory.Base.Script
import CFactory.Git.Connections

/-!
# The writes of the configuration, transaction by transaction

`cards.py:1076–1279,1470–1599`. Each write of a tenant's connections and repositories as the
transactions it commits, so that what stands between two of them can be spoken of. A
transaction is taken together with the reads before it. The primary keys that a new row skips
are arguments.
-/

namespace CFactory.Git

open CFactory.Base

/-- A program over the configuration tables. -/
abbrev GitScript := Script GitError GitTables

/-- A transaction that raises or writes. -/
def transacting {α : Type} (f : GitTables → Except GitError (α × GitTables)) : GitScript α :=
  .atomic (.transact f)

/-- A transaction of which nothing is returned. -/
def writing (f : GitTables → Except GitError GitTables) : GitScript Unit :=
  transacting fun g ↦ (f g).map ((), ·)

/-- The rows left when a connection is deleted; `cards.py:1145–1166`. -/
def withoutConnection (g : GitTables) (id : Nat) : GitTables where
  connections := g.connections.filter (·.id ≠ id)
  repositories := g.repositories.filter (·.connectionId ≠ id)

/-- The rows left when a repository is deleted; `cards.py:1242–1245`. -/
def withoutRepository (g : GitTables) (id : Nat) : GitTables :=
  { g with repositories := g.repositories.filter (·.id ≠ id) }

/-- The row that `create_repository` inserts; `cards.py:1203`. -/
def newRepository (g : GitTables) (tenant : String) (skipped connectionId : Nat)
    (fields : RepositoryFields) : GitRepositoryRow where
  id := nextId (g.repositories.map (·.id)) skipped
  tenantId := tenant
  connectionId := connectionId
  project := fields.project
  intakeProject := fields.intakeProject
  aifactoryProjectId := fields.aifactoryProjectId
  defaultLabels := fields.defaultLabels

/-- The insert of `create_repository`: the new key, and whether the repository is to become the
default; `cards.py:1190–1209`. -/
def insertRepository (g : GitTables) (tenant : String) (skipped connectionId : Nat)
    (body : GitRepositoryCreate) : Except GitError ((Nat × Bool) × GitTables) :=
  if !body.valid then .error .invalid
  else do
    let c ← connection g tenant connectionId
    let fields ← repositoryFields body c.provider
    let makeDefault := body.makeDefault || (defaultRepository g tenant).isNone
    let row := newRepository g tenant skipped connectionId fields
    if holdsProject g row.id connectionId fields.project then
      .error (.repositoryExists (some fields.project))
    else return ((row.id, makeDefault), { g with repositories := g.repositories ++ [row] })

namespace Steps

/-- `create_connection`; `cards.py:1076–1095`. -/
def createConnection (tenant : String) (skipped : Nat) (body : GitConnectionCreate) :
    GitScript GitConnectionRow :=
  transacting fun g ↦ Git.createConnection g tenant skipped body

/-- `update_connection`; `cards.py:1097–1127`. -/
def updateConnection (tenant : String) (id : Nat) (body : GitConnectionUpdate) :
    GitScript GitConnectionRow :=
  transacting fun g ↦ Git.updateConnection g tenant id body

/-- `_ensure_default_repository`; `cards.py:1274–1279`. -/
def ensureDefaultRepository (tenant : String) : GitScript Unit :=
  writing fun g ↦ .ok (Git.ensureDefaultRepository g tenant)

/-- `delete_connection`; `cards.py:1129–1168`. -/
def deleteConnection (tenant : String) (id : Nat) : GitScript Unit := do
  writing fun g ↦ (connection g tenant id).map fun _ ↦ withoutConnection g id
  ensureDefaultRepository tenant

/-- `set_default_repository`; `cards.py:1249–1272`. -/
def setDefaultRepository (tenant : String) (id : Nat) : GitScript Unit :=
  writing fun g ↦ Git.setDefaultRepository g tenant id

/-- `create_repository`; `cards.py:1190–1213`. -/
def createRepository (tenant : String) (skipped connectionId : Nat) (body : GitRepositoryCreate) :
    GitScript Unit := do
  let created ← transacting fun g ↦ insertRepository g tenant skipped connectionId body
  if created.2 then setDefaultRepository tenant created.1

/-- `update_repository`; `cards.py:1215–1237`. -/
def updateRepository (tenant : String) (id : Nat) (body : GitRepositoryUpdate) : GitScript Unit :=
  writing fun g ↦ Git.updateRepository g tenant id body

/-- `delete_repository`; `cards.py:1239–1247`. -/
def deleteRepository (tenant : String) (id : Nat) : GitScript Unit := do
  writing fun g ↦ (repository g tenant id).map fun _ ↦ withoutRepository g id
  ensureDefaultRepository tenant

/-- `_patch_connection`; `cards.py:2251–2259`. -/
def patchConnection (tenant : String) (id : Nat) (f : GitConnectionRow → GitConnectionRow) :
    GitScript Unit :=
  writing fun g ↦ (connection g tenant id).map fun _ ↦ modifyConnection g id f

/-- `_clear_default_repository`; `cards.py:1593–1599`. -/
def clearDefaultRepository (tenant : String) : GitScript Unit :=
  writing fun g ↦ .ok (Git.clearDefaultRepository g tenant)

/-- The repository a single-configuration write replaces; `cards.py:1503–1506`. -/
def existingRepository (tenant : String) (connectionId : Nat) (project : String) :
    GitScript (Option GitRepositoryRow) :=
  .atomic (.reads fun g ↦ .ok ((repositoriesOf g tenant).find? fun r ↦
    r.connectionId == connectionId && r.project == project))

/-- The part of `set_git_config` after the connection is settled; `cards.py:1492–1521`. -/
def setProject (tenant : String) (skipped connectionId : Nat) (fields : ConfigFields) :
    GitScript Unit :=
  match fields.project with
  | none => clearDefaultRepository tenant
  | some project => do
    match ← existingRepository tenant connectionId project with
    | none =>
      createRepository tenant skipped connectionId
        { project := project
          intakeProject := fields.intakeProject
          aifactoryProjectId := fields.aifactoryProjectId
          defaultLabels := fields.defaultLabels
          makeDefault := true }
    | some existing => do
      updateRepository tenant existing.id
        { project := some (some project)
          intakeProject := some fields.intakeProject
          aifactoryProjectId := some fields.aifactoryProjectId
          defaultLabels := some (some fields.defaultLabels) }
      setDefaultRepository tenant existing.id

/-- `set_git_config`; `cards.py:1470–1521`. -/
def setGitConfig (tenant : String) (skipped skippedRepositories : Nat) (update : GitConfigUpdate) :
    GitScript Unit :=
  if !update.valid then .raise .invalid
  else
    match validatedFields update with
    | .error e => .raise e
    | .ok fields => do
      let c ← transacting fun g ↦ shimConnection g tenant skipped fields.provider fields.baseUrl
      patchConnection tenant c.id unverified
      setProject tenant skippedRepositories c.id fields

end Steps

/-- A write of a tenant. -/
inductive GitWrite where
  | createConnection (skipped : Nat) (body : GitConnectionCreate)
  | updateConnection (id : Nat) (body : GitConnectionUpdate)
  | deleteConnection (id : Nat)
  | createRepository (skipped connectionId : Nat) (body : GitRepositoryCreate)
  | updateRepository (id : Nat) (body : GitRepositoryUpdate)
  | deleteRepository (id : Nat)
  | setDefaultRepository (id : Nat)
  | setGitConfig (skipped skippedRepositories : Nat) (update : GitConfigUpdate)

/-- Its transactions. -/
def GitWrite.script (tenant : String) : GitWrite → GitScript Unit
  | .createConnection skipped body => do
    let _ ← Steps.createConnection tenant skipped body
  | .updateConnection id body => do
    let _ ← Steps.updateConnection tenant id body
  | .deleteConnection id => Steps.deleteConnection tenant id
  | .createRepository skipped connectionId body =>
    Steps.createRepository tenant skipped connectionId body
  | .updateRepository id body => Steps.updateRepository tenant id body
  | .deleteRepository id => Steps.deleteRepository tenant id
  | .setDefaultRepository id => Steps.setDefaultRepository tenant id
  | .setGitConfig skipped skippedRepositories update =>
    Steps.setGitConfig tenant skipped skippedRepositories update

/-- A write through to its end; one that raises leaves what it had committed. -/
def gitStep (g : GitTables) (x : String × GitWrite) : GitTables := ((x.2.script x.1).run g).2

/-! ## One write, taken whole -/

/-- A write that is one transaction. -/
def whole (f : GitTables → Except GitError GitTables) : Call GitError GitTables Unit :=
  .transact fun g ↦ (f g).map ((), ·)

variable {f : GitTables → Except GitError GitTables} {g g' : GitTables} {tenant : String}

theorem whole_ok (h : f g = .ok g') : whole f g = (.ok (), g') := by
  simp only [whole, Call.transact, h, Except.map]

theorem whole_error {e : GitError} (h : f g = .error e) : whole f g = (.error e, g) := by
  simp only [whole, Call.transact, h, Except.map]

/-- A write that returned. -/
theorem whole_returned (h : (whole f g).1 = .ok ()) : ∃ g', f g = .ok g' := by
  cases hf : f g with
  | error e =>
    rw [whole_error hf] at h
    cases h
  | ok g' => exact ⟨g', rfl⟩

/-- A write that raised. -/
theorem whole_raised {e : GitError} (h : (whole f g).1 = .error e) : (whole f g).2 = g := by
  cases hf : f g with
  | error e => rw [whole_error hf]
  | ok g' =>
    rw [whole_ok hf] at h
    cases h

theorem run_writing : (writing f).run g = whole f g := rfl

/-- What a transaction that returned left. -/
theorem run_transacting_ok {α : Type} {f : GitTables → Except GitError (α × GitTables)} {a : α}
    (h : f g = .ok (a, g')) : (transacting f).run g = (.ok a, g') := by
  simp only [transacting, Script.run_atomic, Call.transact, h]

/-- A transaction that raised left nothing. -/
theorem run_transacting_error {α : Type} {f : GitTables → Except GitError (α × GitTables)}
    {e : GitError} (h : f g = .error e) : (transacting f).run g = (.error e, g) := by
  simp only [transacting, Script.run_atomic, Call.transact, h]

/-- A deletion and the default it promotes. -/
theorem run_deleteConnection (id : Nat) : (Steps.deleteConnection tenant id).run g =
    whole (fun g ↦ deleteConnection g tenant id) g := by
  cases hc : connection g tenant id with
  | error e =>
    rw [whole_error (by rw [deleteConnection, hc]; rfl)]
    exact Script.run_bind_error (by rw [run_writing, whole_error (by rw [hc]; rfl)])
  | ok c =>
    have hdelete : deleteConnection g tenant id =
        .ok (Git.ensureDefaultRepository (withoutConnection g id) tenant) := by
      rw [deleteConnection, hc]
      rfl
    rw [whole_ok hdelete]
    exact Script.run_bind_ok (by rw [run_writing, whole_ok (by rw [hc]; rfl)])

/-- A deletion and the default it promotes. -/
theorem run_deleteRepository (id : Nat) : (Steps.deleteRepository tenant id).run g =
    whole (fun g ↦ deleteRepository g tenant id) g := by
  cases hr : repository g tenant id with
  | error e =>
    rw [whole_error (by rw [deleteRepository, hr]; rfl)]
    exact Script.run_bind_error (by rw [run_writing, whole_error (by rw [hr]; rfl)])
  | ok r =>
    have hdelete : deleteRepository g tenant id =
        .ok (Git.ensureDefaultRepository (withoutRepository g id) tenant) := by
      rw [deleteRepository, hr]
      rfl
    rw [whole_ok hdelete]
    exact Script.run_bind_ok (by rw [run_writing, whole_ok (by rw [hr]; rfl)])

/-- A created repository is inserted, and made the default where it is to be. -/
theorem createRepository_eq (skipped connectionId : Nat) (body : GitRepositoryCreate) :
    createRepository g tenant skipped connectionId body =
      (insertRepository g tenant skipped connectionId body) >>= fun done ↦
        if done.1.2 then setDefaultRepository done.2 tenant done.1.1 else .ok done.2 := by
  rw [createRepository, insertRepository]
  split
  · rfl
  · cases connection g tenant connectionId with
    | error e => rfl
    | ok c =>
      dsimp only [bind, Except.bind]
      cases repositoryFields body c.provider with
      | error e => rfl
      | ok fields =>
        have hid : (newRepository g tenant skipped connectionId fields).id =
            nextId (g.repositories.map (·.id)) skipped := rfl
        dsimp only
        rw [hid]
        by_cases hproject : holdsProject g (nextId (g.repositories.map (·.id)) skipped)
            connectionId fields.project = true
        · rw [if_pos hproject, if_pos hproject]
        · rw [if_neg hproject, if_neg hproject]
          rfl

/-- What an insert that succeeded did. -/
theorem insertRepository_ok {skipped connectionId : Nat} {body : GitRepositoryCreate}
    {created : Nat × Bool}
    (h : insertRepository g tenant skipped connectionId body = .ok (created, g')) :
    ∃ c fields, connection g tenant connectionId = .ok c ∧
      repositoryFields body c.provider = .ok fields ∧
      created = ((newRepository g tenant skipped connectionId fields).id,
        body.makeDefault || (defaultRepository g tenant).isNone) ∧
      g' = ⟨g.connections,
        g.repositories ++ [newRepository g tenant skipped connectionId fields]⟩ := by
  rw [insertRepository] at h
  split at h
  · cases h
  · rw [bind_eq_ok] at h
    obtain ⟨c, hc, h⟩ := h
    rw [bind_eq_ok] at h
    obtain ⟨fields, hfields, h⟩ := h
    dsimp only at h
    split at h
    · cases h
    · cases h
      exact ⟨c, fields, hc, hfields, rfl, rfl⟩

/-- A row of the tenant is found. -/
theorem exists_repository {r : GitRepositoryRow} (hr : r ∈ g.repositories)
    (htenant : r.tenantId = tenant) : ∃ found, repository g tenant r.id = .ok found := by
  have hfound : (g.repositories.find? fun q ↦ q.id == r.id && q.tenantId == tenant).isSome :=
    List.find?_isSome.mpr ⟨r, hr, by rw [htenant, beq_self_eq_true, beq_self_eq_true]; rfl⟩
  obtain ⟨found, hfound⟩ := Option.isSome_iff_exists.mp hfound
  exact ⟨found, by rw [repository, hfound]⟩

/-- A row of the tenant can be made the default. -/
theorem exists_setDefaultRepository {r : GitRepositoryRow} (hr : r ∈ g.repositories)
    (htenant : r.tenantId = tenant) : ∃ g', setDefaultRepository g tenant r.id = .ok g' := by
  obtain ⟨found, hfound⟩ := exists_repository hr htenant
  exact ⟨_, by rw [setDefaultRepository, hfound]; rfl⟩

/-- What was inserted can be made the default. -/
theorem setDefaultRepository_inserted {skipped connectionId : Nat} {body : GitRepositoryCreate}
    {created : Nat × Bool}
    (h : insertRepository g tenant skipped connectionId body = .ok (created, g')) :
    ∃ g'', setDefaultRepository g' tenant created.1 = .ok g'' := by
  obtain ⟨c, fields, -, -, rfl, rfl⟩ := insertRepository_ok h
  exact exists_setDefaultRepository
    (List.mem_append_right g.repositories (List.mem_singleton_self _)) rfl

/-- An insert and the default it may become. -/
theorem run_createRepository (skipped connectionId : Nat) (body : GitRepositoryCreate) :
    (Steps.createRepository tenant skipped connectionId body).run g =
      whole (fun g ↦ createRepository g tenant skipped connectionId body) g := by
  rw [Steps.createRepository]
  cases hinsert : insertRepository g tenant skipped connectionId body with
  | error e =>
    rw [whole_error (by rw [createRepository_eq, hinsert]; rfl)]
    exact Script.run_bind_error (run_transacting_error hinsert)
  | ok done =>
    obtain ⟨⟨id, makeDefault⟩, g'⟩ := done
    rw [Script.run_bind_ok (run_transacting_ok hinsert)]
    dsimp only
    cases makeDefault with
    | false =>
      rw [whole_ok (by rw [createRepository_eq, hinsert]; rfl)]
      rfl
    | true =>
      obtain ⟨g'', hset⟩ := setDefaultRepository_inserted hinsert
      rw [whole_ok (by rw [createRepository_eq, hinsert]; exact hset), if_pos rfl]
      exact whole_ok (f := fun g ↦ setDefaultRepository g tenant id) hset

/-- Where a transaction ends, whether it returned or raised. -/
theorem state_transacting {α : Type} {P : GitTables → Prop}
    {f : GitTables → Except GitError (α × GitTables)} (hg : P g)
    (hf : ∀ a g', f g = .ok (a, g') → P g') : P ((transacting f).run g).2 := by
  cases hrun : f g with
  | error e =>
    rw [run_transacting_error hrun]
    exact hg
  | ok done =>
    rw [run_transacting_ok hrun]
    exact hf done.1 done.2 hrun

/-- Where a write ends. -/
theorem state_whole {P : GitTables → Prop} (hg : P g) (hf : ∀ g', f g = .ok g' → P g') :
    P (whole f g).2 := by
  cases hrun : f g with
  | error e =>
    rw [whole_error hrun]
    exact hg
  | ok g' =>
    rw [whole_ok hrun]
    exact hf g' hrun

/-- What a transaction that returned did. -/
theorem transacting_inv {α : Type} {f : GitTables → Except GitError (α × GitTables)} {a : α}
    (h : (transacting f).run g = (.ok a, g')) : f g = .ok (a, g') := by
  rw [transacting, Script.run_atomic, Call.transact] at h
  cases hf : f g with
  | error e =>
    rw [hf] at h
    cases h
  | ok done =>
    rw [hf] at h
    cases h
    rfl

/-- A transaction that keeps an assertion where it commits keeps it. -/
theorem keeps_transacting {α : Type} {I : GitTables → Prop} {Q : α → GitTables → Prop}
    {f : GitTables → Except GitError (α × GitTables)} (hg : I g)
    (hf : ∀ a g', f g = .ok (a, g') → I g' ∧ Q a g') : (transacting f).Keeps I Q g := by
  cases hrun : f g with
  | error e =>
    have hcall : Call.transact f g = (.error e, g) := run_transacting_error hrun
    apply Script.Keeps.atomic hg
    · rw [hcall]
      exact hg
    · intro a ha
      rw [hcall] at ha
      cases ha
  | ok done =>
    obtain ⟨a, g'⟩ := done
    have hcall : Call.transact f g = (.ok a, g') := run_transacting_ok hrun
    apply Script.Keeps.atomic hg
    · rw [hcall]
      exact (hf a g' hrun).1
    · intro b hb
      rw [hcall] at hb ⊢
      cases hb
      exact (hf a g' hrun).2

/-- So does a write. -/
theorem keeps_writing {I : GitTables → Prop} {Q : GitTables → Prop} (hg : I g)
    (hf : ∀ g', f g = .ok g' → I g' ∧ Q g') : (writing f).Keeps I (fun _ ↦ Q) g := by
  apply keeps_transacting hg
  intro a g' h
  cases hrun : f g with
  | error e =>
    rw [hrun] at h
    cases h
  | ok g'' =>
    rw [hrun] at h
    cases h
    exact hf g' hrun

/-! ## What every transaction keeps -/

/-- A property of the tables that every transaction keeps, but for those that may point a
connection at another host. -/
structure Closed (I : GitTables → Prop) : Prop where
  createConnection : ∀ {g g' : GitTables} {tenant : String}, I g → ∀ {skipped : Nat}
    {body : GitConnectionCreate} {c : GitConnectionRow},
    createConnection g tenant skipped body = .ok (c, g') → I g'
  patchConnection : ∀ {g : GitTables} {tenant : String}, I g → ∀ {id : Nat}
    {c : GitConnectionRow}, connection g tenant id = .ok c →
    ∀ {f : GitConnectionRow → GitConnectionRow},
    (∀ c, (f c).id = c.id ∧ (f c).tenantId = c.tenantId ∧ (f c).provider = c.provider) →
    I (modifyConnection g id f)
  withoutConnection : ∀ {g : GitTables} {tenant : String}, I g → ∀ {id : Nat}
    {c : GitConnectionRow}, connection g tenant id = .ok c → I (withoutConnection g id)
  withoutRepository : ∀ {g : GitTables} {tenant : String}, I g → ∀ {id : Nat}
    {r : GitRepositoryRow}, repository g tenant id = .ok r → I (withoutRepository g id)
  insertRepository : ∀ {g g' : GitTables} {tenant : String}, I g → ∀ {skipped connectionId : Nat}
    {body : GitRepositoryCreate} {created : Nat × Bool},
    insertRepository g tenant skipped connectionId body = .ok (created, g') → I g'
  updateRepository : ∀ {g g' : GitTables} {tenant : String}, I g → ∀ {id : Nat}
    {body : GitRepositoryUpdate}, updateRepository g tenant id body = .ok g' → I g'
  setDefaultRepository : ∀ {g g' : GitTables} {tenant : String}, I g → ∀ {id : Nat},
    setDefaultRepository g tenant id = .ok g' → I g'
  ensureDefaultRepository : ∀ {g : GitTables}, I g → ∀ tenant : String,
    I (ensureDefaultRepository g tenant)
  clearDefaultRepository : ∀ {g : GitTables}, I g → ∀ tenant : String,
    I (clearDefaultRepository g tenant)

/-- A write of one row that was found. -/
private theorem keeps_found {α : Type} {I : GitTables → Prop} {find : GitTables → Except GitError α}
    {write : GitTables → GitTables} (h : I g) (hwrite : ∀ a, find g = .ok a → I (write g)) :
    (writing fun g ↦ (find g).map fun _ ↦ write g).Keeps I (fun _ _ ↦ True) g := by
  apply keeps_writing h
  intro g' hdone
  cases hfound : find g with
  | error e =>
    rw [hfound] at hdone
    cases hdone
  | ok a =>
    rw [hfound] at hdone
    cases hdone
    exact ⟨hwrite a hfound, trivial⟩

namespace Closed

variable {I : GitTables → Prop} (hI : Closed I)

include hI

private theorem stepSetDefault (h : I g) (id : Nat) :
    (Steps.setDefaultRepository tenant id).Keeps I (fun _ _ ↦ True) g :=
  keeps_writing h fun _ hset ↦ ⟨hI.setDefaultRepository h hset, trivial⟩

private theorem stepUpdateRepository (h : I g) (id : Nat) (body : GitRepositoryUpdate) :
    (Steps.updateRepository tenant id body).Keeps I (fun _ _ ↦ True) g :=
  keeps_writing h fun _ hupdate ↦ ⟨hI.updateRepository h hupdate, trivial⟩

private theorem stepEnsureDefault (h : I g) :
    (Steps.ensureDefaultRepository tenant).Keeps I (fun _ _ ↦ True) g := by
  apply keeps_writing h
  intro g' hensure
  cases hensure
  exact ⟨hI.ensureDefaultRepository h tenant, trivial⟩

theorem stepCreateConnection (h : I g) (skipped : Nat) (body : GitConnectionCreate) :
    (Steps.createConnection tenant skipped body).Keeps I (fun _ _ ↦ True) g :=
  keeps_transacting h fun _ _ hdone ↦ ⟨hI.createConnection h hdone, trivial⟩

theorem stepCreateRepository (h : I g) (skipped connectionId : Nat) (body : GitRepositoryCreate) :
    (Steps.createRepository tenant skipped connectionId body).Keeps I (fun _ _ ↦ True) g := by
  have hinsert : (transacting fun g ↦ Git.insertRepository g tenant skipped connectionId body).Keeps
      I (fun _ _ ↦ True) g :=
    keeps_transacting h fun _ _ hdone ↦ ⟨hI.insertRepository h hdone, trivial⟩
  apply hinsert.bind
  intro created g' hg' _
  split
  · exact hI.stepSetDefault hg' created.1
  · exact .pure hg' trivial

private theorem stepDeleteConnection (h : I g) (id : Nat) :
    (Steps.deleteConnection tenant id).Keeps I (fun _ _ ↦ True) g :=
  (keeps_found h fun _ hc ↦ hI.withoutConnection h hc).bind fun _ _ hg' _ ↦
    hI.stepEnsureDefault hg'

private theorem stepDeleteRepository (h : I g) (id : Nat) :
    (Steps.deleteRepository tenant id).Keeps I (fun _ _ ↦ True) g :=
  (keeps_found h fun _ hr ↦ hI.withoutRepository h hr).bind fun _ _ hg' _ ↦
    hI.stepEnsureDefault hg'

theorem stepPatchConnection (h : I g) (id : Nat) {f : GitConnectionRow → GitConnectionRow}
    (hf : ∀ c, (f c).id = c.id ∧ (f c).tenantId = c.tenantId ∧ (f c).provider = c.provider) :
    (Steps.patchConnection tenant id f).Keeps I (fun _ _ ↦ True) g :=
  keeps_found h fun _ hc ↦ hI.patchConnection h hc hf

private theorem stepSetProject (h : I g) (skipped connectionId : Nat) (fields : ConfigFields) :
    (Steps.setProject tenant skipped connectionId fields).Keeps I (fun _ _ ↦ True) g := by
  rw [Steps.setProject]
  cases fields.project with
  | none =>
    apply keeps_writing h
    intro g' hclear
    cases hclear
    exact ⟨hI.clearDefaultRepository h tenant, trivial⟩
  | some project =>
    have hread : (Steps.existingRepository tenant connectionId project).Keeps I
        (fun _ _ ↦ True) g := .atomic h h fun _ _ ↦ trivial
    apply hread.bind
    intro existing g' hg' _
    cases existing with
    | none => exact hI.stepCreateRepository hg' _ _ _
    | some existing =>
      exact (hI.stepUpdateRepository hg' _ _).bind fun _ _ hg'' _ ↦ hI.stepSetDefault hg'' _

/-- A write keeps it on the whole way, where it does when it patches or moves a connection. -/
theorem script (h : I g) (x : GitWrite)
    (hupdate : ∀ id body c g', x = .updateConnection id body →
      Git.updateConnection g tenant id body = .ok (c, g') → I g')
    (hshim : ∀ skipped skippedRepositories update fields c g',
      x = .setGitConfig skipped skippedRepositories update → update.valid = true →
      validatedFields update = .ok fields →
      shimConnection g tenant skipped fields.provider fields.baseUrl = .ok (c, g') → I g') :
    (x.script tenant).Keeps I (fun _ _ ↦ True) g := by
  cases x with
  | createConnection skipped body =>
    exact (hI.stepCreateConnection h skipped body).bind fun _ _ hg' _ ↦ .pure hg' trivial
  | updateConnection id body =>
    have hpatch : (Steps.updateConnection tenant id body).Keeps I (fun _ _ ↦ True) g :=
      keeps_transacting h fun c g' hdone ↦ ⟨hupdate id body c g' rfl hdone, trivial⟩
    exact hpatch.bind fun _ _ hg' _ ↦ .pure hg' trivial
  | deleteConnection id => exact hI.stepDeleteConnection h id
  | createRepository skipped connectionId body => exact hI.stepCreateRepository h _ _ _
  | updateRepository id body => exact hI.stepUpdateRepository h id body
  | deleteRepository id => exact hI.stepDeleteRepository h id
  | setDefaultRepository id => exact hI.stepSetDefault h id
  | setGitConfig skipped skippedRepositories update =>
    rw [GitWrite.script, Steps.setGitConfig]
    split
    · exact .raise h
    · next hvalid =>
      split
      · exact .raise h
      · next fields hfields =>
        have hvalid : update.valid = true := by simpa using hvalid
        have hmove : (transacting fun g ↦ shimConnection g tenant skipped fields.provider
            fields.baseUrl).Keeps I (fun _ _ ↦ True) g :=
          keeps_transacting h fun c g' hdone ↦
            ⟨hshim _ _ _ fields c g' rfl hvalid hfields hdone, trivial⟩
        apply hmove.bind
        intro c g' hg' _
        have hpatch : (Steps.patchConnection tenant c.id unverified).Keeps I (fun _ _ ↦ True) g' :=
          hI.stepPatchConnection hg' c.id fun _ ↦ ⟨rfl, rfl, rfl⟩
        exact hpatch.bind fun _ _ hg'' _ ↦ hI.stepSetProject hg'' _ _ _

end Closed

/-! ## What a run that returned did -/

/-- What a write that returned did. -/
theorem whole_inv (h : whole f g = (.ok (), g')) : f g = .ok g' := by
  have hdone := transacting_inv (f := fun g ↦ (f g).map ((), ·)) h
  cases hf : f g with
  | error e =>
    rw [hf] at hdone
    cases hdone
  | ok g'' =>
    rw [hf] at hdone
    cases hdone
    rfl

theorem writing_inv (h : (writing f).run g = (.ok (), g')) : f g = .ok g' := whole_inv h

/-- The single configuration, where it returned. -/
theorem setGitConfig_of_run {skipped skippedRepositories : Nat} {update : GitConfigUpdate}
    (h : (Steps.setGitConfig tenant skipped skippedRepositories update).run g = (.ok (), g')) :
    setGitConfig g tenant skipped skippedRepositories update = .ok g' := by
  rw [Steps.setGitConfig] at h
  rw [setGitConfig]
  by_cases hvalid : (!update.valid) = true
  · rw [if_pos hvalid] at h
    cases h
  · rw [if_neg hvalid] at h ⊢
    cases hfields : validatedFields update with
    | error e =>
      rw [hfields] at h
      cases h
    | ok fields =>
      rw [hfields] at h
      obtain ⟨c, g₁, hshim, h⟩ := Script.run_bind_inv h
      obtain ⟨⟨⟩, g₂, hpatch, h⟩ := Script.run_bind_inv h
      have hshim := transacting_inv hshim
      have hpatched : modifyConnection g₁ c.id unverified = g₂ := by
        have hwhole := writing_inv hpatch
        cases hc : connection g₁ tenant c.id with
        | error e =>
          rw [hc] at hwhole
          cases hwhole
        | ok found =>
          rw [hc] at hwhole
          exact Except.ok.inj hwhole
      dsimp only [bind, Except.bind]
      rw [hshim]
      dsimp only
      rw [hpatched]
      rw [Steps.setProject] at h
      cases hproject : fields.project with
      | none =>
        rw [hproject] at h
        exact writing_inv h
      | some project =>
        rw [hproject] at h
        obtain ⟨existing, g₃, hread, h⟩ := Script.run_bind_inv h
        cases hread
        dsimp only at h ⊢
        cases hfind : (repositoriesOf g₂ tenant).find? fun r ↦
            r.connectionId == c.id && r.project == project with
        | none =>
          rw [hfind] at h
          rw [run_createRepository] at h
          exact whole_inv h
        | some existing =>
          rw [hfind] at h
          obtain ⟨⟨⟩, g₄, hupdate, h⟩ := Script.run_bind_inv h
          have hupdated : updateRepository g₂ tenant existing.id _ = .ok g₄ := writing_inv hupdate
          dsimp only
          rw [hupdated]
          exact writing_inv h

end CFactory.Git
