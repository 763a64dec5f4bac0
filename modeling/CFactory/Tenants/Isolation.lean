import CFactory.Tenants.Access
import CFactory.Tenants.Board

/-!
# Tenants are isolated

`cards.py:753–2516`. Whatever a tenant does through its scoped store, the rows of every other
tenant stay as they are, and it is answered the same whatever those rows are.
-/

namespace CFactory.Tenants

open CFactory.Base CFactory.Model CFactory.Cards CFactory.Git CFactory.Import

variable {A : Aead UInt8} {source : StateSource}

/-! ## One operation -/

/-- Every operation of a tenant is apart from the rows of the others. -/
theorem apart_perform (tenant : Tenant) (o : StoreOp) {db : Database} (hs : Sound source db) :
    IsApart source tenant.name (perform A source tenant o) db := by
  have htenanted := hs.access.tenanted
  cases o with
  | list filters => exact Apart.reads hs (congrArg _ (list_of db _ filters)) fun _ _ ↦ trivial
  | get key => exact apart_get hs key
  | getByCorrelationKey key => exact apart_getByCorrelationKey hs key
  | getByIssueRef ref => exact apart_getByIssueRef hs ref
  | create data now => exact apart_create hs data now
  | update key changes now => exact apart_updateCard hs key changes now
  | updateStages key changes now => exact apart_updateStages hs key changes now
  | delete key now => exact apart_delete hs key now
  | cardsForProject nocase project => exact apart_cardsForProject hs nocase project
  | comments key => exact Apart.reads hs (congrArg _ (comments_of db _ key)) fun _ _ ↦ trivial
  | storeComments key thread syncedAt => exact apart_storeComments hs key thread syncedAt
  | connections =>
    exact .readsGit (f := fun g ↦ .ok (connectionsOf g tenant.name)) hs
      (congrArg Except.ok (connectionsOf_of db.access.git tenant.name))
  | connection id =>
    exact .readsGit (f := fun g ↦ connection g tenant.name id) hs
      (connection_of db.access.git tenant.name id)
  | createConnection body => exact apart_createConnection hs body
  | updateConnection id body => exact apart_updateConnection hs id body
  | deleteConnection id => exact apart_deleteConnection hs id
  | repositories connectionId =>
    exact .readsGit (f := fun g ↦ .ok (repositories g tenant.name connectionId)) hs
      (by simp only [repositories, repositoriesOf_of])
  | repository id => exact apart_repository hs id
  | createRepository connectionId body => exact apart_createRepository hs connectionId body
  | updateRepository id body => exact apart_updateRepository hs id body
  | deleteRepository id => exact apart_deleteRepository hs id
  | setDefaultRepository id => exact apart_setDefaultRepository hs id
  | defaultRepository =>
    exact .readsGit (f := fun g ↦ .ok (defaultRepository g tenant.name)) hs
      (congrArg Except.ok (defaultRepository_of htenanted tenant.name))
  | resolveRepository repositoryId project =>
    exact .readsGit (f := fun g ↦ resolveRepository g tenant.name repositoryId project) hs
      (resolveRepository_of htenanted tenant.name repositoryId project)
  | gitTarget settings =>
    exact Apart.reads hs (congrArg (Except.mapError _)
      (gitTargetFor_accessOf htenanted _ settings none none)) fun _ _ ↦ trivial
  | gitTargetFor settings repositoryId project =>
    exact Apart.reads hs (congrArg (Except.mapError _)
      (gitTargetFor_accessOf htenanted _ settings repositoryId project)) fun _ _ ↦ trivial
  | gitTargetForCard settings card =>
    exact Apart.reads hs (congrArg (Except.mapError _)
      (gitTargetFor_accessOf htenanted _ settings _ _)) fun _ _ ↦ trivial
  | seedGitConfigFromEnv settings => exact apart_seedGitConfigFromEnv hs settings
  | setGitConfig update => exact apart_setGitConfig hs update
  | recordConnectionVerification id error rejected now =>
    exact apart_recordConnectionVerification hs id error rejected now
  | recordGitVerification settings error rejected now =>
    exact apart_recordGitVerification hs settings error rejected now
  | credentialRow id =>
    exact Apart.reads hs (congrArg _ (credentialRow_accessOf db.access _ id)) fun _ _ ↦ trivial
  | sealedFor id =>
    exact Apart.reads hs (congrArg (fun row ↦ Except.ok (Option.map _ row))
      (credentialRow_accessOf db.access _ id)) fun _ _ ↦ trivial
  | connectionCredential id settings =>
    exact Apart.reads hs (congrArg _ (connectionCredential_accessOf db.access _ id settings))
      fun _ _ ↦ trivial
  | gitCredential settings =>
    exact Apart.reads hs (congrArg _ (tenantCredential_accessOf htenanted _ settings))
      fun _ _ ↦ trivial
  | fetch id keyring wrapNonce fresh now =>
    exact apart_fetchCredential hs id keyring wrapNonce fresh now
  | setConnectionCredential id secret keyring fresh now =>
    exact apart_setConnectionCredential hs id secret keyring fresh now
  | setGitCredential secret settings fresh now =>
    exact apart_setGitCredential hs secret settings fresh now
  | storeInstallSecret id secret keyring fresh now =>
    exact IsApart.bind (apart_setConnectionCredential hs id secret keyring fresh now)
      fun _ _ hs ↦ .pure hs _
  | clearConnectionCredential id => exact apart_clearConnectionCredential hs id
  | clearGitCredential => exact apart_clearGitCredential hs
  | installRow id =>
    exact Apart.reads hs (congrArg _ (installRow_accessOf db.access _ id)) fun _ _ ↦ trivial
  | startInstall id redirectUri now => exact apart_startInstall hs id redirectUri now
  | recordInstall id provider installationId account now =>
    exact apart_recordInstall hs id provider installationId account now
  | deleteInstall id => exact apart_deleteInstall hs id
  | degradeInstall id reason now => exact apart_patchInstall hs id _ _ _
  | recoverInstall id now => exact apart_recoverInstall hs id now
  | getWatermark project =>
    exact Apart.reads hs (congrArg (fun row ↦ Except.ok (Option.bind row _))
      (stateOf_of db.states _ project)) fun _ _ ↦ trivial
  | setWatermark project when => exact apart_upsertImportState hs project fun _ ↦ ⟨rfl, rfl⟩
  | importStates =>
    exact Apart.reads hs (congrArg _ (importStates_of db.states _)) fun _ _ ↦ trivial
  | markPolled project when => exact apart_upsertImportState hs project fun _ ↦ ⟨rfl, rfl⟩
  | claimImportLease project ttl now => exact apart_claimImportLease hs project ttl now

/-! ## Whole runs -/

/-- The store: a database in order. -/
structure Store (source : StateSource) where
  db : Database
  sound : Sound source db

/-- The store without a row. -/
def Store.empty (source : StateSource) : Store source := ⟨{}, sound_empty source⟩

/-- A client of a scoped store, which performs operations one at a time and chooses each by the
answers so far. -/
abbrev Client (α : Type) := Prog StoreOp (fun o ↦ Except StoreError o.Res) α

/-- What a client of a tenant returns, and the store it leaves. -/
def Store.run {α : Type} (A : Aead UInt8) (s : Store source) (tenant : Tenant) (p : Client α) :
    α × Store source :=
  ((p.run (perform A source tenant) s.db).1,
    { db := (p.run (perform A source tenant) s.db).2
      sound := (run_own (fun o _ hs ↦ apart_perform tenant o hs) p s.sound).1 })

/-- The rows of a tenant in every table. -/
def Store.rows (s : Store source) (tenant : Tenant) : Database :=
  { s.db.of tenant.name with keys := {} }

/-- The stores differ in rows of other tenants at most, and their next keys are the same. -/
def Store.SameFor (tenant : Tenant) (s s' : Store source) : Prop :=
  s.rows tenant = s'.rows tenant ∧ s.db.keys = s'.db.keys

/-- The rows of a tenant are among those that are not another one's. -/
private theorem rows_of_others {a b : Tenant} (h : b ≠ a) {db db' : Database}
    (hothers : db.others a.name = db'.others a.name) :
    { db.of b.name with keys := {} } = ({ db'.of b.name with keys := {} } : Database) := by
  have hname : ∀ name, (name == b.name) = true → (!(name == a.name)) = true := by
    intro name hb
    rw [Bool.not_eq_true', beq_eq_false_iff_ne]
    intro ha
    apply h
    cases a
    cases b
    simp_all
  have hof : ∀ db : Database, ({ db.of b.name with keys := {} } : Database) =
      { (db.others a.name).of b.name with keys := {} } := by
    intro db
    simp only [Database.of, Database.others, accessOf, accessOthers, GitTables.of,
      GitTables.others, Base.others]
    simp only [filter_own fun r hr ↦ hname _ hr]
  rw [hof db, hof db', hothers]

/-- Tenant isolation: whatever a client of a tenant does, in every order and by whatever it is
answered, it leaves every row of every other tenant as it was in every table, and what it
returns is the same for any two stores that differ in rows of others at most. -/
theorem tenant_isolation {α : Type} (A : Aead UInt8) (source : StateSource) (a b : Tenant)
    (hab : b ≠ a) (p : Client α) (s s' : Store source) (hsame : Store.SameFor a s s') :
    (s.run A a p).2.rows b = s.rows b ∧ (s.run A a p).1 = (s'.run A a p).1 := by
  have hapart := fun o db (hs : Sound source db) ↦ apart_perform (A := A) a o hs
  constructor
  · exact rows_of_others hab (run_own hapart p s.sound).2.1
  · apply (run_eq_of_own hapart p s.sound s'.sound _).1
    have hrows := hsame.1
    rw [Store.rows, Store.rows, Database.mk.injEq] at hrows
    show s.db.of a.name = s'.db.of a.name
    rw [Database.of, Database.of, Database.mk.injEq]
    exact ⟨hrows.1, hrows.2.1, hrows.2.2.1, hrows.2.2.2.1, hsame.2⟩

/-- States that count up. -/
def countedStates : StateSource where
  token n := String.ofList (List.replicate n '0')
  digest := id
  distinct := by
    intro m n h
    simpa using congrArg String.length h

def acme : Tenant := ⟨"acme", by decide⟩

def globex : Tenant := ⟨"globex", by decide⟩

/-- A board of one card of `globex`. -/
def globexBoard (title : String) : Store countedStates :=
  ((Store.empty countedStates).run (Aead.symbolic UInt8) globex
    (.op (.create { cardKey := some "G-1", title := title } 0) fun _ ↦ .pure ())).2

/-- `acme` plans a card and lists its board. -/
def plansAndLists : Client (Except StoreError (List (Card × Nat))) :=
  .op (.create { title := "Log in" } 1) fun _ ↦ .op (.list {}) .pure

/-- It sees the same board and leaves the other tenant's, whichever that is. -/
theorem globex_unseen_and_kept :
    ((globexBoard "Secret").run (Aead.symbolic UInt8) acme plansAndLists).2.rows globex =
        (globexBoard "Secret").rows globex ∧
      ((globexBoard "Secret").run (Aead.symbolic UInt8) acme plansAndLists).1 =
        ((globexBoard "Other").run (Aead.symbolic UInt8) acme plansAndLists).1 :=
  tenant_isolation (Aead.symbolic UInt8) countedStates acme globex (by decide) plansAndLists
    (globexBoard "Secret") (globexBoard "Other") ⟨by decide, by decide⟩

end CFactory.Tenants
