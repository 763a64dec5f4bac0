import CFactory.Git.Config

/-!
# Connections and repositories

`git_connections.py:92–177,341–391`, `cards.py:1042–1329,1470–1599`. A tenant's connections to
git hosts and the repositories reached through them, with the writes of the store, the
default repository, and the single-configuration writes of older clients expressed on them.
-/

namespace CFactory.Git

open CFactory.Model

/-- `GitConnectionRow`; `git_connections.py:92–127`. -/
structure GitConnectionRow where
  id : Nat
  tenantId : String
  provider : Provider
  /-- Empty for the provider's own host. -/
  baseUrl : String
  label : String
  verifiedAt : Option Time := none
  verifyError : Option String := none
  credentialRejected : Option Bool := none
  deriving DecidableEq, Repr

/-- `GitRepositoryRow`; `git_connections.py:130–174`. -/
structure GitRepositoryRow where
  id : Nat
  tenantId : String
  connectionId : Nat
  project : String
  intakeProject : Option String := none
  aifactoryProjectId : Option String := none
  defaultLabels : List String := []
  /-- The tenant whose default it is. -/
  defaultForTenant : Option String := none
  deriving DecidableEq, Repr

/-- The two tables, in primary-key order. -/
structure GitTables where
  connections : List GitConnectionRow := []
  repositories : List GitRepositoryRow := []
  deriving DecidableEq, Repr

/-- A primary key above those in use; `skipped` counts the keys that rows now gone have
used up. -/
def nextId (ids : List Nat) (skipped : Nat) : Nat := ids.foldl max 0 + 1 + skipped

/-! ## Reads -/

/-- `connections`; `cards.py:1047–1059`. -/
def connectionsOf (g : GitTables) (tenant : String) : List GitConnectionRow :=
  g.connections.filter (·.tenantId == tenant)

/-- `_connection_or_none`; `cards.py:1068–1074`. -/
def connectionOrNone (g : GitTables) (tenant : String) (id : Nat) : Option GitConnectionRow :=
  g.connections.find? fun c ↦ c.id == id && c.tenantId == tenant

/-- `connection`; `cards.py:1061–1066`. -/
def connection (g : GitTables) (tenant : String) (id : Nat) : Except GitError GitConnectionRow :=
  match connectionOrNone g tenant id with
  | some c => .ok c
  | none => .error (.noConnection id)

/-- `repositories`; `cards.py:1170–1176`. -/
def repositoriesOf (g : GitTables) (tenant : String) : List GitRepositoryRow :=
  g.repositories.filter (·.tenantId == tenant)

/-- `repository`; `cards.py:1178–1188`. -/
def repository (g : GitTables) (tenant : String) (id : Nat) : Except GitError GitRepositoryRow :=
  match g.repositories.find? fun r ↦ r.id == id && r.tenantId == tenant with
  | some r => .ok r
  | none => .error (.noRepository id)

/-- `ResolvedRepository`; `git_connections.py:348–358`. -/
structure ResolvedRepository where
  connection : GitConnectionRow
  repository : GitRepositoryRow
  deriving DecidableEq, Repr

/-- `default_repository`; `cards.py:1281–1291`. -/
def defaultRepository (g : GitTables) (tenant : String) : Option ResolvedRepository :=
  (g.repositories.find? fun r ↦ r.defaultForTenant == some tenant).bind fun r ↦
    (connectionOrNone g tenant r.connectionId).map fun c ↦ ⟨c, r⟩

/-- The repository with a path, the default one first; `cards.py:1317–1322`. -/
def repositoryAt (g : GitTables) (tenant : String) (path : String) : Option GitRepositoryRow :=
  let hits := (repositoriesOf g tenant).filter (·.project == path)
  (hits.find? (·.defaultForTenant.isSome)).or hits.head?

/-- The steps of the resolution after the explicit id; `cards.py:1316–1329`. -/
def resolveByPath (g : GitTables) (tenant : String) (project : Option String) :
    Option ResolvedRepository :=
  let wanted := stripped project
  let chosen := if wanted = "" then none else
    (repositoryAt g tenant wanted).bind fun r ↦
      (connectionOrNone g tenant r.connectionId).map fun c ↦ ⟨c, r⟩
  chosen.or (defaultRepository g tenant)

/-- `resolve_repository`; `cards.py:1293–1329`. -/
def resolveRepository (g : GitTables) (tenant : String) (repositoryId : Option Nat)
    (project : Option String) : Except GitError (Option ResolvedRepository) :=
  match repositoryId with
  | none => .ok (resolveByPath g tenant project)
  | some id =>
    (repository g tenant id).map fun r ↦
      match connectionOrNone g tenant r.connectionId with
      | some c => some ⟨c, r⟩
      | none => resolveByPath g tenant project

/-! ## Connection writes -/

/-- Another row of the tenant is a connection to the host; the unique index
`(tenant_id, provider, base_url)`; `git_connections.py:118–127`. -/
def holdsHost (g : GitTables) (id : Nat) (tenant : String) (provider : Provider)
    (baseUrl : String) : Bool :=
  g.connections.any fun c ↦
    c.id ≠ id && c.tenantId == tenant && c.provider == provider && c.baseUrl == baseUrl

/-- `create_connection`; `cards.py:1076–1095`. -/
def createConnection (g : GitTables) (tenant : String) (skipped : Nat)
    (body : GitConnectionCreate) : Except GitError (GitConnectionRow × GitTables) :=
  if !body.valid then .error .invalid
  else do
    let fields ← connectionFields (some body.provider) body.baseUrl body.label
    let row : GitConnectionRow :=
      { id := nextId (g.connections.map (·.id)) skipped
        tenantId := tenant
        provider := fields.provider
        baseUrl := fields.baseUrl
        label := fields.label }
    if holdsHost g row.id tenant fields.provider fields.baseUrl then
      .error (.connectionExists fields.provider fields.baseUrl)
    else return (row, { g with connections := g.connections ++ [row] })

/-- The columns of a patched connection; a move clears the verification;
`cards.py:1107–1120`. -/
def ConnectionFields.apply (fields : ConnectionFields) (c : GitConnectionRow) :
    GitConnectionRow :=
  let moved := (fields.provider, fields.baseUrl) ≠ (c.provider, c.baseUrl)
  { c with
    provider := fields.provider
    baseUrl := fields.baseUrl
    label := fields.label
    verifiedAt := if moved then none else c.verifiedAt
    verifyError := if moved then none else c.verifyError
    credentialRejected := if moved then none else c.credentialRejected }

/-- Replace one connection. -/
def modifyConnection (g : GitTables) (id : Nat) (f : GitConnectionRow → GitConnectionRow) :
    GitTables :=
  { g with connections := g.connections.map fun c ↦ if c.id = id then f c else c }

/-- `update_connection`; `cards.py:1097–1127`. -/
def updateConnection (g : GitTables) (tenant : String) (id : Nat) (body : GitConnectionUpdate) :
    Except GitError (GitConnectionRow × GitTables) :=
  if !body.valid then .error .invalid
  else do
    let current ← connection g tenant id
    let fields ← connectionFields (body.provider.getD (some current.provider.text))
      (body.baseUrl.getD (some current.baseUrl)) (body.label.getD (some current.label))
    if holdsHost g id tenant fields.provider fields.baseUrl then
      .error (.connectionExists fields.provider fields.baseUrl)
    else return (fields.apply current, modifyConnection g id fields.apply)

/-! ## The default repository -/

/-- Replace one repository. -/
def modifyRepository (g : GitTables) (id : Nat) (f : GitRepositoryRow → GitRepositoryRow) :
    GitTables :=
  { g with repositories := g.repositories.map fun r ↦ if r.id = id then f r else r }

/-- `_clear_default_repository`; `cards.py:1593–1599`. -/
def clearDefaultRepository (g : GitTables) (tenant : String) : GitTables :=
  { g with
    repositories := g.repositories.map fun r ↦
      if r.defaultForTenant = some tenant then { r with defaultForTenant := none } else r }

/-- `set_default_repository`; `cards.py:1249–1272`. -/
def setDefaultRepository (g : GitTables) (tenant : String) (id : Nat) :
    Except GitError GitTables := do
  let _ ← repository g tenant id
  return modifyRepository (clearDefaultRepository g tenant) id fun r ↦
    { r with defaultForTenant := some tenant }

/-- `_ensure_default_repository`; `cards.py:1274–1279`. -/
def ensureDefaultRepository (g : GitTables) (tenant : String) : GitTables :=
  match repositoriesOf g tenant with
  | [] => g
  | first :: rest =>
    if (first :: rest).any (·.defaultForTenant.isSome) then g
    else ((setDefaultRepository g tenant first.id).toOption).getD g

/-- `delete_connection`, credentials and installs aside; `cards.py:1129–1168`. -/
def deleteConnection (g : GitTables) (tenant : String) (id : Nat) : Except GitError GitTables := do
  let _ ← connection g tenant id
  return ensureDefaultRepository
    { connections := g.connections.filter (·.id ≠ id)
      repositories := g.repositories.filter (·.connectionId ≠ id) } tenant

/-! ## Repository writes -/

/-- Another repository of the connection has the path; the unique index
`(connection_id, project)`; `git_connections.py:168–172`. -/
def holdsProject (g : GitTables) (id connectionId : Nat) (project : String) : Bool :=
  g.repositories.any fun r ↦ r.id ≠ id && r.connectionId == connectionId && r.project == project

/-- `create_repository`; `cards.py:1190–1213`. -/
def createRepository (g : GitTables) (tenant : String) (skipped connectionId : Nat)
    (body : GitRepositoryCreate) : Except GitError GitTables :=
  if !body.valid then .error .invalid
  else do
    let c ← connection g tenant connectionId
    let fields ← repositoryFields body c.provider
    let makeDefault := body.makeDefault || (defaultRepository g tenant).isNone
    let row : GitRepositoryRow :=
      { id := nextId (g.repositories.map (·.id)) skipped
        tenantId := tenant
        connectionId := connectionId
        project := fields.project
        intakeProject := fields.intakeProject
        aifactoryProjectId := fields.aifactoryProjectId
        defaultLabels := fields.defaultLabels }
    if holdsProject g row.id connectionId fields.project then
      .error (.repositoryExists (some fields.project))
    else
      let g' := { g with repositories := g.repositories ++ [row] }
      if makeDefault then setDefaultRepository g' tenant row.id else return g'

/-- `setattr` for every assigned column; `cards.py:1229–1230`. -/
def RepositoryPatch.apply (patch : RepositoryPatch) (r : GitRepositoryRow) : GitRepositoryRow :=
  { r with
    project := patch.project.getD r.project
    intakeProject := patch.intakeProject.getD r.intakeProject
    aifactoryProjectId := patch.aifactoryProjectId.getD r.aifactoryProjectId
    defaultLabels := patch.defaultLabels.getD r.defaultLabels }

/-- `update_repository`; `cards.py:1215–1237`. -/
def updateRepository (g : GitTables) (tenant : String) (id : Nat) (body : GitRepositoryUpdate) :
    Except GitError GitTables :=
  if !body.valid then .error .invalid
  else do
    let current ← repository g tenant id
    let c ← connection g tenant current.connectionId
    let patch ← repositoryPatch body c.provider
    if patch = {} then return g
    else if holdsProject g id current.connectionId (patch.apply current).project then
      .error (.repositoryExists patch.project)
    else return modifyRepository g id patch.apply

/-- `delete_repository`; `cards.py:1239–1247`. -/
def deleteRepository (g : GitTables) (tenant : String) (id : Nat) : Except GitError GitTables := do
  let _ ← repository g tenant id
  return ensureDefaultRepository
    { g with repositories := g.repositories.filter (·.id ≠ id) } tenant

/-! ## The single configuration -/

/-- The connection to a host among the tenant's; `cards.py:1540–1547,1580–1588`. -/
def connectionTo (g : GitTables) (tenant : String) (provider : Provider) (baseUrl : String) :
    Option GitConnectionRow :=
  (connectionsOf g tenant).find? fun c ↦ c.provider == provider && c.baseUrl == baseUrl

/-- `_connection_for`; `cards.py:1568–1591`. -/
def connectionFor (g : GitTables) (tenant : String) (skipped : Nat) (provider : Provider)
    (baseUrl : Option String) : Except GitError (GitConnectionRow × GitTables) :=
  let url := baseUrl.bind fun url ↦ if url = "" then none else some url
  match createConnection g tenant skipped { provider := provider.text, baseUrl := url } with
  | .ok done => .ok done
  | .error e =>
    if e.isLookup then .error e
    else do
      let wanted ← connectionFields (some provider.text) url none
      match connectionTo g tenant wanted.provider wanted.baseUrl with
      | some c => return (c, g)
      | none => .error e

/-- The connection a single-configuration write may move: the default repository's, or the
only one; `cards.py:1550–1553`. -/
def editableConnection (g : GitTables) (tenant : String) : Option GitConnectionRow :=
  ((defaultRepository g tenant).map ResolvedRepository.connection).or
    (match connectionsOf g tenant with
    | [only] => some only
    | _ => none)

/-- `_shim_connection`; `cards.py:1523–1566`. -/
def shimConnection (g : GitTables) (tenant : String) (skipped : Nat) (provider : Provider)
    (baseUrl : Option String) : Except GitError (GitConnectionRow × GitTables) := do
  let wanted ← connectionFields (some provider.text) baseUrl none
  match connectionTo g tenant wanted.provider wanted.baseUrl with
  | some c => return (c, g)
  | none =>
    match editableConnection g tenant with
    | none => connectionFor g tenant skipped provider baseUrl
    | some editable =>
      match updateConnection g tenant editable.id
        { provider := some (some wanted.provider.text), baseUrl := some (some wanted.baseUrl) } with
      | .ok done => return done
      | .error e =>
        if e.isLookup then .error e else connectionFor g tenant skipped provider baseUrl

/-- A connection without what a verification proved; `cards.py:1489–1491`. -/
def unverified (c : GitConnectionRow) : GitConnectionRow :=
  { c with verifiedAt := none, verifyError := none, credentialRejected := none }

/-- `set_git_config`; the seed and the adoption of older rows write no other shape;
`cards.py:1470–1521`. -/
def setGitConfig (g : GitTables) (tenant : String) (skipped skippedRepositories : Nat)
    (update : GitConfigUpdate) : Except GitError GitTables :=
  if !update.valid then .error .invalid
  else do
    let fields ← validatedFields update
    let (c, moved) ← shimConnection g tenant skipped fields.provider fields.baseUrl
    let g' := modifyConnection moved c.id unverified
    match fields.project with
    | none => return clearDefaultRepository g' tenant
    | some project =>
      match (repositoriesOf g' tenant).find? fun r ↦
        r.connectionId == c.id && r.project == project with
      | none =>
        createRepository g' tenant skippedRepositories c.id
          { project := project
            intakeProject := fields.intakeProject
            aifactoryProjectId := fields.aifactoryProjectId
            defaultLabels := fields.defaultLabels
            makeDefault := true }
      | some existing => do
        let g'' ← updateRepository g' tenant existing.id
          { project := some (some project)
            intakeProject := some fields.intakeProject
            aifactoryProjectId := some fields.aifactoryProjectId
            defaultLabels := some (some fields.defaultLabels) }
        setDefaultRepository g'' tenant existing.id

end CFactory.Git
