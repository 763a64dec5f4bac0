import CFactory.Base.Isolation
import CFactory.Credentials.Migration
import CFactory.Git.Access
import CFactory.Git.Tenant
import CFactory.Import.Comments
import CFactory.Import.Freshness
import CFactory.Intake.Dispatch

/-!
# The operations of a scoped store

`cards.py:753–2516`, but for `adopt_legacy_git_config` and `consume_install_state`, which are
not scoped. The tables of the store and every operation that a tenant performs on them, each
transaction on its own: what was committed before an operation raises stays. What the clock and
the random source hand to an operation are its arguments.
-/

namespace CFactory.Tenants

open CFactory.Base CFactory.Model CFactory.Cards CFactory.Git CFactory.Import
open CFactory.Credentials (Sealed KeyRing Nonce Randomness CredentialError)

/-- A tenant as `resolve_tenant` names it; `config.py:433–443`. -/
structure Tenant where
  name : String
  nonempty : name ≠ ""
  deriving DecidableEq

/-- The next primary keys of the tables whose rows are read by key. -/
structure Keys where
  git : GitKeys := {}
  card : Nat := 1
  credential : Nat := 1
  install : Nat := 1
  pending : Nat := 1
  deriving DecidableEq, Repr

/-- The next key of a table after a transaction: a key is drawn when a row has taken it. -/
def advance (next : Nat) (ids : List Nat) : Nat := if next ∈ ids then next + 1 else next

/-- The next keys after a transaction on the tables behind the hosts. -/
def Keys.after (k : Keys) (t : AccessTables) : Keys :=
  { k with
    git :=
      { connection := advance k.git.connection (t.git.connections.map (·.id))
        repository := advance k.git.repository (t.git.repositories.map (·.id)) }
    credential := advance k.credential (t.credentials.map (·.id))
    install := advance k.install (t.installs.map (·.id))
    pending := advance k.pending (t.pending.map (·.id)) }

/-- The tables of the store. -/
structure Database where
  cards : CardTable := []
  comments : List CommentRow := []
  access : AccessTables := {}
  states : ImportStates := []
  keys : Keys := {}
  deriving DecidableEq

/-- What an operation raises. -/
inductive StoreError where
  | git (e : GitError)
  | card (e : CardError)
  | credential (e : CredentialError)
  /-- `credential must not be empty`. -/
  | emptyCredential
  /-- `cannot store a credential: …`, or what is wrong with the key. -/
  | noKeyring
  /-- A unique index that no handler is written for. -/
  | integrity
  deriving DecidableEq

/-- `new_state` and `state_digest`; `git_install.py:243–257`. Tokens are as many random bits as
their digests are bits, and no two of them are taken to share one. -/
structure StateSource where
  token : Nat → String
  digest : String → String
  distinct : ∀ m n, digest (token m) = digest (token n) → m = n

/-- The outcome of an operation on the tables. -/
abbrev StoreCall := Call StoreError Database

/-! ## Transactions -/

/-- A read of the configuration tables. -/
def readsGit {α : Type} (f : GitTables → Except GitError α) : StoreCall α :=
  .reads fun db ↦ (f db.access.git).mapError .git

/-- A transaction on the tables behind the hosts. -/
def onAccess {α : Type} (f : Keys → AccessTables → Except StoreError (α × AccessTables)) :
    StoreCall α :=
  .transact fun db ↦ (f db.keys db.access).map fun done ↦
    (done.1, { db with access := done.2, keys := db.keys.after done.2 })

/-- A transaction on the configuration tables; `f` is handed how many keys of either table
are used up. -/
def onGit {α : Type} (f : Nat → Nat → GitTables → Except GitError (α × GitTables)) : StoreCall α :=
  onAccess fun k t ↦
    ((f (skippedTo (t.git.connections.map (·.id)) k.git.connection)
      (skippedTo (t.git.repositories.map (·.id)) k.git.repository) t.git).map fun done ↦
        (done.1, { t with git := done.2 })).mapError .git

/-! ## Cards -/

/-- A card as reads return it, with its `comment_count`; `cards.py:330–376,576–585`. -/
def viewOf (db : Database) (c : Card) : Card × Nat :=
  (c, (db.comments.filter fun q ↦ q.tenantId == c.tenantId && q.cardKey == c.cardKey).length)

/-- The column value of a status. -/
def statusText : CardStatus → String
  | .backlog => "backlog"
  | .ready => "ready"
  | .inProgress => "in_progress"
  | .blocked => "blocked"
  | .done => "done"

/-- What `list` is asked for. -/
structure ListFilters where
  status : Option String := none
  milestone : Option String := none
  assignee : Option String := none
  tier : Option String := none

/-- The columns equal what was asked for; a null equals nothing. -/
def ListFilters.admits (f : ListFilters) (c : Card) : Bool :=
  f.status.all (· == statusText c.status) && f.milestone.all (some · == c.milestone) &&
    f.assignee.all (some · == c.assignee) &&
      f.tier.all fun tier ↦ c.tier.isSome && tier == Intake.tierText c.tier

/-- `list`; `cards.py:787–807`. -/
def list (db : Database) (tenant : String) (f : ListFilters) : List (Card × Nat) :=
  (((db.cards.filter fun r ↦ visible (some tenant) r && f.admits r.card).map
    CardRow.card).insertionSort
    fun a b ↦ a.priority < b.priority ∨ a.priority = b.priority ∧ a.createdAt ≤ b.createdAt).map
      (viewOf db)

/-- `create` with the next primary key, on a validated body; `cards.py:841–866`. -/
def createAt (id : Nat) (t : CardTable) (scope : Option String) (d : CardCreate) (now : Time) :
    Except CardError (Card × CardTable) :=
  if !d.valid then .error .invalid
  else
    match keyFor t scope d with
    | none => .error .unreadableKey
    | some key =>
      if Cards.holdsKey t (tenantOf scope) key || holdsIssue t id (tenantOf scope) d.issueRef then
        match d.issueRef with
        | some ref =>
          if ref ≠ "" ∧ (getByIssueRef t scope ref).isSome then .error .duplicateIssueRef
          else .error .duplicateCardKey
        | none => .error .duplicateCardKey
      else
        let card := d.card (tenantOf scope) key now
        .ok (card, t ++ [⟨id, card⟩])

/-- The key of a table without gaps is the one above all others. -/
theorem create_eq_createAt (t : CardTable) (scope : Option String) (d : CardCreate) (now : Time) :
    create t scope d now = createAt (freshId t) t scope d now := rfl

/-- `create`; `cards.py:841–866`. -/
def create (tenant : String) (d : CardCreate) (now : Time) : StoreCall (Card × Nat) :=
  .transact fun db ↦ ((createAt db.keys.card db.cards (some tenant) d now).mapError .card).map
    fun done ↦ (viewOf db done.1,
      { db with cards := done.2, keys := { db.keys with card := db.keys.card + 1 } })

/-- `update` with the columns of a request or of the sync; `cards.py:887–908`. -/
def updateCard (tenant key : String) (ch : CardChanges) (now : Time) :
    StoreCall (Option (Card × Nat)) :=
  .transact fun db ↦ ((Cards.updateCard db.cards (some tenant) key ch now).mapError .card).map
    fun done ↦ (done.1.map (viewOf db), { db with cards := done.2 })

/-- `update` with the columns of a stage action; `cards.py:887–908`. -/
def updateStages (tenant key : String) (ch : StageChanges) (now : Time) :
    StoreCall (Option (Card × Nat)) :=
  .writes fun db ↦
    let done := update db.cards (some tenant) key ch now
    (done.1.map (viewOf db), { db with cards := done.2 })

/-- `delete`; `cards.py:910–926`. -/
def delete (tenant key : String) (now : Time) : StoreCall Bool :=
  .writes fun db ↦
    let done := deleteCard db.cards (some tenant) key now
    (done.1, { db with cards := done.2 })

/-- `comments`; `cards.py:953–968`. -/
def comments (db : Database) (tenant key : String) : List IssueComment :=
  ((db.comments.filter fun q ↦ q.cardKey == key && q.tenantId == tenant).map
    CommentRow.comment).insertionSort fun a b ↦ a.createdAt ≤ b.createdAt

/-- `store_comments`; `cards.py:970–1029`. -/
def storeComments (tenant key : String) (thread : List IssueComment) (syncedAt : Time) :
    StoreCall Nat :=
  .transact fun db ↦
    match Import.storeComments db.cards db.comments (some tenant) key thread syncedAt with
    | some (cards, comments) =>
      .ok (thread.length, { db with cards := cards, comments := comments })
    | none => .error .integrity

/-! ## Connections and repositories -/

/-- `create_connection`; `cards.py:1076–1095`. -/
def createConnection (tenant : String) (body : GitConnectionCreate) : StoreCall GitConnectionRow :=
  onGit fun skipped _ g ↦ Git.createConnection g tenant skipped body

/-- `update_connection`; `cards.py:1097–1127`. -/
def updateConnection (tenant : String) (id : Nat) (body : GitConnectionUpdate) :
    StoreCall GitConnectionRow :=
  onGit fun _ _ g ↦ Git.updateConnection g tenant id body

/-- `delete_connection`; `cards.py:1129–1168`. -/
def deleteConnection (tenant : String) (id : Nat) : StoreCall Bool :=
  onAccess fun _ t ↦ ((Git.deleteConnection t.git tenant id).mapError .git).map fun g ↦
    (true,
      { git := g
        credentials := t.credentials.filter (·.connectionId ≠ some id)
        installs := t.installs.filter (·.connectionId ≠ id)
        pending := t.pending.filter (·.connectionId ≠ id) })

/-- `repositories`; `cards.py:1170–1176`. -/
def repositories (g : GitTables) (tenant : String) (connectionId : Option Nat) :
    List GitRepositoryRow :=
  (repositoriesOf g tenant).filter fun r ↦ connectionId.all (· == r.connectionId)

/-- `set_default_repository`; `cards.py:1249–1272`. -/
def setDefaultRepository (tenant : String) (id : Nat) : StoreCall GitRepositoryRow := do
  onGit fun _ _ g ↦ (Git.setDefaultRepository g tenant id).map ((), ·)
  readsGit fun g ↦ repository g tenant id

/-- `create_repository`; `cards.py:1190–1213`. -/
def createRepository (tenant : String) (connectionId : Nat) (body : GitRepositoryCreate) :
    StoreCall GitRepositoryRow := do
  let created ← onGit fun _ skipped g ↦
    (Git.createRepository g tenant skipped connectionId body).map
      (nextId (g.repositories.map (·.id)) skipped, ·)
  readsGit fun g ↦ repository g tenant created

/-- `update_repository`; `cards.py:1215–1237`. -/
def updateRepository (tenant : String) (id : Nat) (body : GitRepositoryUpdate) :
    StoreCall GitRepositoryRow := do
  onGit fun _ _ g ↦ (Git.updateRepository g tenant id body).map ((), ·)
  readsGit fun g ↦ repository g tenant id

/-- `delete_repository`; `cards.py:1239–1247`. -/
def deleteRepository (tenant : String) (id : Nat) : StoreCall Bool :=
  onGit fun _ _ g ↦ (Git.deleteRepository g tenant id).map (true, ·)

/-! ## The single configuration -/

/-- `_patch_connection`; `cards.py:2251–2259`. -/
def patchConnection (tenant : String) (id : Nat) (f : GitConnectionRow → GitConnectionRow) :
    StoreCall Unit :=
  onGit fun _ _ g ↦ (connection g tenant id).map fun _ ↦ ((), modifyConnection g id f)

/-- `_clear_default_repository`; `cards.py:1593–1599`. -/
def clearDefaultRepository (tenant : String) : StoreCall Unit :=
  onGit fun _ _ g ↦ .ok ((), Git.clearDefaultRepository g tenant)

/-- `set_git_config`; `cards.py:1470–1521`. -/
def setGitConfig (tenant : String) (update : GitConfigUpdate) : StoreCall Unit :=
  if !update.valid then .raise (.git .invalid)
  else do
    let fields ← readsGit fun _ ↦ validatedFields update
    let c ← onGit fun skipped _ g ↦ shimConnection g tenant skipped fields.provider fields.baseUrl
    patchConnection tenant c.id unverified
    match fields.project with
    | none => clearDefaultRepository tenant
    | some project => do
      let existing ← readsGit fun g ↦ .ok ((repositories g tenant (some c.id)).find?
        (·.project == project))
      match existing with
      | none => do
        let _ ← createRepository tenant c.id
          { project := project
            intakeProject := fields.intakeProject
            aifactoryProjectId := fields.aifactoryProjectId
            defaultLabels := fields.defaultLabels
            makeDefault := true }
      | some existing => do
        let _ ← updateRepository tenant existing.id
          { project := some (some project)
            intakeProject := some fields.intakeProject
            aifactoryProjectId := some fields.aifactoryProjectId
            defaultLabels := some (some fields.defaultLabels) }
        let _ ← setDefaultRepository tenant existing.id

/-- The write both callers derive from the environment; `cards.py:1448–1456,2238–2246`. -/
def envUpdate (settings : GitSettings) (tenant : String) : GitConfigUpdate :=
  let env := targetFromSettings settings tenant {}
  { provider := env.provider
    baseUrl := some env.baseUrl
    project := env.project
    aifactoryProjectId := env.aifactoryProjectId }

/-- `seed_git_config_from_env`; of the config that is returned, the target it is the view of;
`cards.py:1408–1457`. -/
def seedGitConfigFromEnv (tenant : String) (settings : GitSettings) :
    StoreCall (Option GitTarget) := do
  let stored ← readsGit fun g ↦ .ok (connectionsOf g tenant)
  let env := targetFromSettings settings tenant {}
  if stored ≠ [] ∨ !(Model.truthy env.project || Model.truthy env.aifactoryProjectId) then
    pure none
  else do
    setGitConfig tenant (envUpdate settings tenant)
    .reads fun db ↦ ((Git.gitTargetFor db.access tenant settings none none).mapError .git).map some

/-- `_connection_for` on the environment's provider, which nothing has validated;
`cards.py:1568–1591`. -/
def connectionForEnv (g : GitTables) (tenant : String) (skipped : Nat) (provider : String)
    (baseUrl : Option String) : Except GitError (GitConnectionRow × GitTables) :=
  let url := baseUrl.bind fun url ↦ if url = "" then none else some url
  match Git.createConnection g tenant skipped { provider := provider, baseUrl := url } with
  | .ok done => .ok done
  | .error e =>
    if e.isLookup || e == .invalid then .error e
    else do
      let wanted ← connectionFields (some provider) url none
      match connectionTo g tenant wanted.provider wanted.baseUrl with
      | some c => return (c, g)
      | none => .error e

/-- `_default_connection`; `cards.py:1601–1618`. -/
def defaultConnection (tenant : String) (settings : GitSettings) : StoreCall GitConnectionRow :=
  onGit fun skipped _ g ↦
    match ((defaultRepository g tenant).map ResolvedRepository.connection).or
      (connectionsOf g tenant).head? with
    | some c => .ok (c, g)
    | none =>
      connectionForEnv g tenant skipped (envProvider settings) (some (envBaseUrl settings))

/-- `record_connection_verification`; `cards.py:2205–2218`. -/
def recordConnectionVerification (tenant : String) (id : Nat) (error : Option String)
    (rejected : Option Bool) (now : Time) : StoreCall Unit :=
  patchConnection tenant id fun c ↦
    { c with
      verifiedAt := if Model.truthy error then none else some now
      verifyError := error
      credentialRejected := if Model.truthy error then some (rejected.getD false) else none }

/-- `record_git_verification`; `cards.py:2220–2249`. -/
def recordGitVerification (tenant : String) (settings : GitSettings) (error : Option String)
    (rejected : Option Bool) (now : Time) : StoreCall Unit := do
  let stored ← readsGit fun g ↦ .ok (connectionsOf g tenant)
  if stored = [] then setGitConfig tenant (envUpdate settings tenant)
  let c ← defaultConnection tenant settings
  recordConnectionVerification tenant c.id error rejected now

/-! ## Credentials -/

/-- `_store_sealed`; the retry finds what the first attempt found; `cards.py:1918–1954`. -/
def storeSealed (tenant : String) (id : Nat) (record : Sealed) (now : Time) : StoreCall Unit :=
  onAccess fun k t ↦
    match credentialRow t tenant id with
    | some row =>
      .ok ((),
        { t with
          credentials := t.credentials.map fun r ↦
            if r.id = row.id then { r with record := record, updatedAt := now } else r })
    | none =>
      if t.credentials.any (·.connectionId == some id) then .error .integrity
      else .ok ((), { t with credentials := t.credentials ++
        [⟨k.credential, tenant, some id, record, now⟩] })

/-- `set_connection_credential`; `cards.py:1843–1872`. -/
def setConnectionCredential (A : Aead UInt8) (tenant : String) (id : Nat) (secret : String)
    (keyring : Option KeyRing) (fresh : Randomness) (now : Time) : StoreCall CredentialInfo := do
  let _ ← readsGit fun g ↦ connection g tenant id
  if stripped (some secret) = "" then .raise .emptyCredential
  else match keyring with
  | none => .raise .noKeyring
  | some ring => do
    let record := Sealed.seal A fresh (stripped (some secret)) tenant id ring
    storeSealed tenant id record now
    patchConnection tenant id fun c ↦ { c with credentialRejected := none }
    pure
      { configured := true
        source := .tenant
        updatedAt := some now
        keyVersion := some record.keyVersion }

/-- `store_install_secret`; `cards.py:2193–2203`. -/
def storeInstallSecret (A : Aead UInt8) (tenant : String) (id : Nat) (secret : String)
    (keyring : Option KeyRing) (fresh : Randomness) (now : Time) : StoreCall Unit := do
  let _ ← setConnectionCredential A tenant id secret keyring fresh now

/-- `set_git_credential`; `cards.py:1874–1886`. -/
def setGitCredential (A : Aead UInt8) (tenant secret : String) (settings : GitSettings)
    (fresh : Randomness) (now : Time) : StoreCall CredentialInfo := do
  let c ← defaultConnection tenant settings
  setConnectionCredential A tenant c.id secret settings.keyring fresh now

/-- `clear_connection_credential`; `cards.py:1888–1905`. -/
def clearConnectionCredential (tenant : String) (id : Nat) : StoreCall Bool :=
  onAccess fun _ t ↦ ((connection t.git tenant id).mapError .git).map fun _ ↦
    match credentialRow t tenant id with
    | none => (false, t)
    | some row => (true, { t with credentials := t.credentials.filter (·.id ≠ row.id) })

/-- `clear_git_credential`; `cards.py:1907–1916`. -/
def clearGitCredential (tenant : String) : StoreCall Bool := do
  let c ← readsGit fun g ↦ .ok (((defaultRepository g tenant).map
    ResolvedRepository.connection).or (connectionsOf g tenant).head?)
  match c with
  | none => pure false
  | some c => clearConnectionCredential tenant c.id

/-- Return or raise what the crypto layer does. -/
def sealing {α : Type} (x : Except CredentialError α) : StoreCall α :=
  .reads fun _ ↦ x.mapError .credential

/-- `_migrate_sealed`; `cards.py:1784–1836`. -/
def migrateSealed (A : Aead UInt8) (tenant : String) (id : Nat) (row : Sealed) (ring : KeyRing)
    (wrapNonce : Nonce) (fresh : Randomness) (now : Time) : StoreCall Unit :=
  let migrate : StoreCall Unit := do
    let current ← match ← sealing (row.rewrap A wrapNonce tenant id ring) with
      | some rewrapped => do
        storeSealed tenant id rewrapped now
        pure rewrapped
      | none => pure row
    match ← sealing (current.reseal A fresh tenant id ring) with
      | some resealed => storeSealed tenant id resealed now
      | none => pure ()
  migrate.catching fun
    | .credential e => if e.caught then pure () else .raise (.credential e)
    | e => .raise e

/-- `_fetch_credential`, the audit entry aside; `cards.py:1744–1782`. -/
def fetchCredential (A : Aead UInt8) (tenant : String) (id : Nat) (keyring : Option KeyRing)
    (wrapNonce : Nonce) (fresh : Randomness) (now : Time) : StoreCall (Option String) := do
  let row ← .reads fun db ↦ .ok (credentialRow db.access tenant id)
  match row, keyring with
  | some row, some ring =>
    match row.record.unseal A tenant id ring with
    | .error e => if e.caught then pure none else .raise (.credential e)
    | .ok secret => do
      migrateSealed A tenant id row.record ring wrapNonce fresh now
      pure (some secret)
  | _, _ => pure none

/-! ## Installs -/

/-- `state_expiry` from now, in microseconds; `git_install.py:88,267–268`. -/
def stateTtl : Time := 600000000

/-- `start_install`; `cards.py:2037–2062`. -/
def startInstall (source : StateSource) (tenant : String) (id : Nat) (redirectUri : String)
    (now : Time) : StoreCall String :=
  onAccess fun k t ↦ ((connection t.git tenant id).mapError .git).bind fun c ↦
    let state := source.token k.pending
    if t.pending.any (·.stateHash == source.digest state) then .error .integrity
    else .ok (state, { t with pending := t.pending ++
      [⟨k.pending, source.digest state, tenant, c.id, c.provider, redirectUri,
        some (now + stateTtl)⟩] })

/-- `record_install`; `cards.py:2107–2137`. -/
def recordInstall (tenant : String) (id : Nat) (provider : Provider)
    (installationId account : Option String) (now : Time) : StoreCall GitInstallRow :=
  onAccess fun k t ↦ ((connection t.git tenant id).mapError .git).bind fun _ ↦
    let installed (row : GitInstallRow) : GitInstallRow :=
      { row with
        provider := provider
        installationId := installationId
        account := account
        status := .installed
        error := none
        updatedAt := now }
    match installRow t tenant id with
    | some row =>
      .ok (installed row,
        { t with
          installs := t.installs.map fun r ↦ if r.id = row.id then installed r else r })
    | none =>
      if t.installs.any (·.connectionId == id) then .error .integrity
      else
        let row := installed
          ⟨k.install, tenant, id, provider, none, none, .installed, none, now⟩
        .ok (row, { t with installs := t.installs ++ [row] })

/-- `delete_install`; `cards.py:2139–2160`. -/
def deleteInstall (tenant : String) (id : Nat) : StoreCall Bool := do
  let was ← onAccess fun _ t ↦ ((connection t.git tenant id).mapError .git).map fun _ ↦
    match installRow t tenant id with
    | none => (false, t)
    | some row => (true, { t with installs := t.installs.filter (·.id ≠ row.id) })
  if !was then pure false
  else do
    let _ ← clearConnectionCredential tenant id
    pure true

/-- `_patch_install`; `cards.py:2179–2191`. -/
def patchInstall (tenant : String) (id : Nat) (status : InstallStatus) (error : Option String)
    (now : Time) : StoreCall Unit :=
  onAccess fun _ t ↦
    match installRow t tenant id with
    | none => .ok ((), t)
    | some row =>
      .ok ((),
        { t with
          installs := t.installs.map fun r ↦
            if r.id = row.id then { r with status := status, error := error, updatedAt := now }
            else r })

/-- `degrade_install`; `cards.py:2162–2171`. -/
def degradeInstall (tenant : String) (id : Nat) (reason : String) (now : Time) : StoreCall Unit :=
  patchInstall tenant id .degraded (some (String.ofList (reason.toList.take 512))) now

/-- `recover_install`; `cards.py:2173–2177`. -/
def recoverInstall (tenant : String) (id : Nat) (now : Time) : StoreCall Unit := do
  let row ← .reads fun db ↦ .ok (installRow db.access tenant id)
  if row.any (·.status ≠ .installed) then patchInstall tenant id .installed none now

/-! ## Import states -/

/-- `ImportState`; `cards.py:552–563`. -/
structure ImportState where
  project : String
  lastPolledAt : Option Time
  watermarkAt : Option Time
  deriving DecidableEq, Repr

/-- `import_states`; `cards.py:2424–2443`. -/
def importStates (s : ImportStates) (tenant : String) : Dict String ImportState :=
  (s.filter (·.tenantId == tenant)).foldl
    (fun d r ↦ d.set r.project ⟨r.project, r.lastPolledAt, r.lastSyncedAt⟩) .empty

/-- A write of the import states. -/
def onStates {α : Type} (f : ImportStates → α × ImportStates) : StoreCall α :=
  .writes fun db ↦ ((f db.states).1, { db with states := (f db.states).2 })

/-! ## The operations -/

/-- The operations of a scoped store, with what each is given. `fetch` calls the handle that
`connection_credential` returns of a stored credential. -/
inductive StoreOp where
  | list (filters : ListFilters)
  | get (key : String)
  | getByCorrelationKey (key : String)
  | getByIssueRef (ref : String)
  | create (data : CardCreate) (now : Time)
  | update (key : String) (changes : CardChanges) (now : Time)
  | updateStages (key : String) (changes : StageChanges) (now : Time)
  | delete (key : String) (now : Time)
  | cardsForProject (nocase : Bool) (project : String)
  | comments (key : String)
  | storeComments (key : String) (thread : List IssueComment) (syncedAt : Time)
  | connections
  | connection (id : Nat)
  | createConnection (body : GitConnectionCreate)
  | updateConnection (id : Nat) (body : GitConnectionUpdate)
  | deleteConnection (id : Nat)
  | repositories (connectionId : Option Nat)
  | repository (id : Nat)
  | createRepository (connectionId : Nat) (body : GitRepositoryCreate)
  | updateRepository (id : Nat) (body : GitRepositoryUpdate)
  | deleteRepository (id : Nat)
  | setDefaultRepository (id : Nat)
  | defaultRepository
  | resolveRepository (repositoryId : Option Nat) (project : Option String)
  | gitTarget (settings : GitSettings)
  | gitTargetFor (settings : GitSettings) (repositoryId : Option Nat) (project : Option String)
  | gitTargetForCard (settings : GitSettings) (card : Card)
  | seedGitConfigFromEnv (settings : GitSettings)
  | setGitConfig (update : GitConfigUpdate)
  | recordConnectionVerification (id : Nat) (error : Option String) (rejected : Option Bool)
      (now : Time)
  | recordGitVerification (settings : GitSettings) (error : Option String)
      (rejected : Option Bool) (now : Time)
  | credentialRow (id : Nat)
  | sealedFor (id : Nat)
  | connectionCredential (id : Nat) (settings : GitSettings)
  | gitCredential (settings : GitSettings)
  | fetch (id : Nat) (keyring : Option KeyRing) (wrapNonce : Nonce) (fresh : Randomness)
      (now : Time)
  | setConnectionCredential (id : Nat) (secret : String) (keyring : Option KeyRing)
      (fresh : Randomness) (now : Time)
  | setGitCredential (secret : String) (settings : GitSettings) (fresh : Randomness) (now : Time)
  | storeInstallSecret (id : Nat) (secret : String) (keyring : Option KeyRing)
      (fresh : Randomness) (now : Time)
  | clearConnectionCredential (id : Nat)
  | clearGitCredential
  | installRow (id : Nat)
  | startInstall (id : Nat) (redirectUri : String) (now : Time)
  | recordInstall (id : Nat) (provider : Provider) (installationId account : Option String)
      (now : Time)
  | deleteInstall (id : Nat)
  | degradeInstall (id : Nat) (reason : String) (now : Time)
  | recoverInstall (id : Nat) (now : Time)
  | getWatermark (project : String)
  | setWatermark (project : String) (when : Time)
  | importStates
  | markPolled (project : String) (when : Time)
  | claimImportLease (project : String) (ttl now : Time)

/-- What an operation returns. -/
abbrev StoreOp.Res : StoreOp → Type
  | .list _ => List (Card × Nat)
  | .get _ => Option (Card × Nat)
  | .getByCorrelationKey _ => Option (Card × Nat)
  | .getByIssueRef _ => Option (Card × Nat)
  | .create _ _ => Card × Nat
  | .update _ _ _ => Option (Card × Nat)
  | .updateStages _ _ _ => Option (Card × Nat)
  | .delete _ _ => Bool
  | .cardsForProject _ _ => List (Card × Nat)
  | .comments _ => List IssueComment
  | .storeComments _ _ _ => Nat
  | .connections => List GitConnectionRow
  | .connection _ => GitConnectionRow
  | .createConnection _ => GitConnectionRow
  | .updateConnection _ _ => GitConnectionRow
  | .deleteConnection _ => Bool
  | .repositories _ => List GitRepositoryRow
  | .repository _ => GitRepositoryRow
  | .createRepository _ _ => GitRepositoryRow
  | .updateRepository _ _ => GitRepositoryRow
  | .deleteRepository _ => Bool
  | .setDefaultRepository _ => GitRepositoryRow
  | .defaultRepository => Option ResolvedRepository
  | .resolveRepository _ _ => Option ResolvedRepository
  | .gitTarget _ => GitTarget
  | .gitTargetFor _ _ _ => GitTarget
  | .gitTargetForCard _ _ => GitTarget
  | .seedGitConfigFromEnv _ => Option GitTarget
  | .setGitConfig _ => Unit
  | .recordConnectionVerification _ _ _ _ => Unit
  | .recordGitVerification _ _ _ _ => Unit
  | .credentialRow _ => Option GitCredentialRow
  | .sealedFor _ => Option Sealed
  | .connectionCredential _ _ => Credential
  | .gitCredential _ => Credential
  | .fetch _ _ _ _ _ => Option String
  | .setConnectionCredential _ _ _ _ _ => CredentialInfo
  | .setGitCredential _ _ _ _ => CredentialInfo
  | .storeInstallSecret _ _ _ _ _ => Unit
  | .clearConnectionCredential _ => Bool
  | .clearGitCredential => Bool
  | .installRow _ => Option GitInstallRow
  | .startInstall _ _ _ => String
  | .recordInstall _ _ _ _ _ => GitInstallRow
  | .deleteInstall _ => Bool
  | .degradeInstall _ _ _ => Unit
  | .recoverInstall _ _ => Unit
  | .getWatermark _ => Option Time
  | .setWatermark _ _ => Unit
  | .importStates => Dict String ImportState
  | .markPolled _ _ => Unit
  | .claimImportLease _ _ _ => Bool

/-- Perform an operation as a tenant. -/
def perform (A : Aead UInt8) (source : StateSource) (tenant : Tenant) :
    (o : StoreOp) → StoreCall o.Res
  | .list filters => .reads fun db ↦ .ok (list db tenant.name filters)
  | .get key => .reads fun db ↦ .ok ((Cards.get db.cards (some tenant.name) key).map (viewOf db))
  | .getByCorrelationKey key => .reads fun db ↦
      .ok ((Cards.getByCorrelationKey db.cards (some tenant.name) key).map (viewOf db))
  | .getByIssueRef ref => .reads fun db ↦
      .ok ((Cards.getByIssueRef db.cards (some tenant.name) ref).map (viewOf db))
  | .create data now => create tenant.name data now
  | .update key changes now => updateCard tenant.name key changes now
  | .updateStages key changes now => updateStages tenant.name key changes now
  | .delete key now => delete tenant.name key now
  | .cardsForProject nocase project => .reads fun db ↦
      .ok ((Import.cardsForProject nocase db.cards (some tenant.name) project).map (viewOf db))
  | .comments key => .reads fun db ↦ .ok (comments db tenant.name key)
  | .storeComments key thread syncedAt => storeComments tenant.name key thread syncedAt
  | .connections => readsGit fun g ↦ .ok (connectionsOf g tenant.name)
  | .connection id => readsGit fun g ↦ Git.connection g tenant.name id
  | .createConnection body => createConnection tenant.name body
  | .updateConnection id body => updateConnection tenant.name id body
  | .deleteConnection id => deleteConnection tenant.name id
  | .repositories connectionId => readsGit fun g ↦ .ok (repositories g tenant.name connectionId)
  | .repository id => readsGit fun g ↦ Git.repository g tenant.name id
  | .createRepository connectionId body => createRepository tenant.name connectionId body
  | .updateRepository id body => updateRepository tenant.name id body
  | .deleteRepository id => deleteRepository tenant.name id
  | .setDefaultRepository id => setDefaultRepository tenant.name id
  | .defaultRepository => readsGit fun g ↦ .ok (Git.defaultRepository g tenant.name)
  | .resolveRepository repositoryId project => readsGit fun g ↦
      Git.resolveRepository g tenant.name repositoryId project
  | .gitTarget settings => .reads fun db ↦
      (Git.gitTargetFor db.access tenant.name settings none none).mapError .git
  | .gitTargetFor settings repositoryId project => .reads fun db ↦
      (Git.gitTargetFor db.access tenant.name settings repositoryId project).mapError .git
  | .gitTargetForCard settings card => .reads fun db ↦
      (Git.gitTargetForCard db.access tenant.name settings card).mapError .git
  | .seedGitConfigFromEnv settings => seedGitConfigFromEnv tenant.name settings
  | .setGitConfig update => setGitConfig tenant.name update
  | .recordConnectionVerification id error rejected now =>
      recordConnectionVerification tenant.name id error rejected now
  | .recordGitVerification settings error rejected now =>
      recordGitVerification tenant.name settings error rejected now
  | .credentialRow id => .reads fun db ↦ .ok (Git.credentialRow db.access tenant.name id)
  | .sealedFor id => .reads fun db ↦
      .ok ((Git.credentialRow db.access tenant.name id).map GitCredentialRow.record)
  | .connectionCredential id settings => .reads fun db ↦
      .ok (Git.connectionCredential db.access tenant.name id settings)
  | .gitCredential settings => .reads fun db ↦
      .ok (tenantCredential db.access tenant.name settings)
  | .fetch id keyring wrapNonce fresh now =>
      fetchCredential A tenant.name id keyring wrapNonce fresh now
  | .setConnectionCredential id secret keyring fresh now =>
      setConnectionCredential A tenant.name id secret keyring fresh now
  | .setGitCredential secret settings fresh now =>
      setGitCredential A tenant.name secret settings fresh now
  | .storeInstallSecret id secret keyring fresh now =>
      storeInstallSecret A tenant.name id secret keyring fresh now
  | .clearConnectionCredential id => clearConnectionCredential tenant.name id
  | .clearGitCredential => clearGitCredential tenant.name
  | .installRow id => .reads fun db ↦ .ok (Git.installRow db.access tenant.name id)
  | .startInstall id redirectUri now => startInstall source tenant.name id redirectUri now
  | .recordInstall id provider installationId account now =>
      recordInstall tenant.name id provider installationId account now
  | .deleteInstall id => deleteInstall tenant.name id
  | .degradeInstall id reason now => degradeInstall tenant.name id reason now
  | .recoverInstall id now => recoverInstall tenant.name id now
  | .getWatermark project => .reads fun db ↦ .ok (getWatermark db.states tenant.name project)
  | .setWatermark project when => onStates fun s ↦ ((), setWatermark s tenant.name project when)
  | .importStates => .reads fun db ↦ .ok (importStates db.states tenant.name)
  | .markPolled project when => onStates fun s ↦ ((), markPolled s tenant.name project when)
  | .claimImportLease project ttl now => onStates fun s ↦
      claimImportLease s tenant.name project ttl now

end CFactory.Tenants
