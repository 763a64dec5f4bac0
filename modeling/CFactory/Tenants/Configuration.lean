import CFactory.Tenants.Division

/-!
# The configuration operations are apart

`cards.py:1047–1618,2205–2259`. Connections, repositories, the default repository and the
single-configuration writes, each a chain of transactions on the tenant's rows.
-/

namespace CFactory.Tenants

open CFactory.Base CFactory.Model CFactory.Cards CFactory.Git CFactory.Import

variable {source : StateSource} {tenant : String} {db : Database}

/-- The call is apart, whatever it returns. -/
abbrev IsApart (source : StateSource) (tenant : String) {α : Type} (x : StoreCall α)
    (db : Database) : Prop :=
  Apart (division tenant) (Sound source) (fun _ _ ↦ True) x db

/-- One call after another. -/
theorem IsApart.bind {α β : Type} {x : StoreCall α} {f : α → StoreCall β}
    (hx : IsApart source tenant x db)
    (hf : ∀ a db, Sound source db → IsApart source tenant (f a) db) :
    IsApart source tenant (x >>= f) db :=
  Apart.bind hx fun a db' hs' _ ↦ hf a db' hs'

theorem IsApart.pure {α : Type} (hs : Sound source db) (a : α) :
    IsApart source tenant (Pure.pure a : StoreCall α) db :=
  Apart.pure hs trivial

theorem IsApart.raise {α : Type} (hs : Sound source db) (e : StoreError) :
    IsApart source tenant (.raise e : StoreCall α) db :=
  Apart.raise hs

theorem IsApart.readsGit {α : Type} {f : GitTables → Except GitError α} (hs : Sound source db)
    (hown : f (db.access.git.of tenant) = f db.access.git) :
    IsApart source tenant (readsGit f) db :=
  apart_readsGit hs hown fun _ _ ↦ trivial

/-! ## Connections -/

theorem apart_createConnection (hs : Sound source db) (body : GitConnectionCreate) :
    IsApart source tenant (createConnection tenant body) db := by
  apply apart_onGit hs
  · exact fun _ _ _ _ hkey _ ↦ createConnection_of body hkey
  · exact fun _ _ _ _ hkey _ hdone ↦ .createConnection hs.access.tenanted hkey hdone
  · exact fun _ _ _ ↦ trivial

theorem apart_updateConnection (hs : Sound source db) (id : Nat) (body : GitConnectionUpdate) :
    IsApart source tenant (updateConnection tenant id body) db := by
  apply apart_onGit hs
  · exact fun _ _ _ _ _ _ ↦ updateConnection_of db.access.git tenant id body
  · exact fun _ _ _ _ _ _ hdone ↦ .updateConnection hs.access.tenanted hdone
  · exact fun _ _ _ ↦ trivial

theorem apart_patchConnection (hs : Sound source db) (id : Nat)
    {f : GitConnectionRow → GitConnectionRow}
    (hf : ∀ c, (f c).id = c.id ∧ (f c).tenantId = c.tenantId) :
    IsApart source tenant (patchConnection tenant id f) db := by
  apply apart_onGit hs
  · intro _ _ _ _ _ _
    rw [connection_of]
    cases connection db.access.git tenant id with
    | error e => rfl
    | ok c =>
      apply congrArg fun g ↦ Except.ok ((), g)
      exact modifyConnection_of (fun c ↦ (hf c).2) _ _ _
  · intro _ _ a g _ _ hdone
    cases hc : connection db.access.git tenant id with
    | error e => rw [hc] at hdone; cases hdone
    | ok c =>
      rw [hc] at hdone
      cases hdone
      exact .modifyConnection hs.access.tenanted (connectionOrNone_of_connection hc) hf
  · exact fun _ _ _ ↦ trivial

/-! ## Repositories -/

theorem apart_repository (hs : Sound source db) (id : Nat) :
    IsApart source tenant (readsGit fun g ↦ repository g tenant id) db :=
  .readsGit hs (repository_of db.access.git tenant id)

theorem apart_setDefaultRepository (hs : Sound source db) (id : Nat) :
    IsApart source tenant (setDefaultRepository tenant id) db := by
  apply IsApart.bind
  · apply apart_onGit hs
    · intro _ _ _ _ _ _
      rw [setDefaultRepository_of]
      cases Git.setDefaultRepository db.access.git tenant id <;> rfl
    · intro _ _ a g _ _ hdone
      cases hset : Git.setDefaultRepository db.access.git tenant id with
      | error e => rw [hset] at hdone; cases hdone
      | ok g' =>
        rw [hset] at hdone
        cases hdone
        exact .setDefaultRepository hs.access.tenanted hset
    · exact fun _ _ _ ↦ trivial
  · exact fun _ _ hs' ↦ apart_repository hs' id

theorem apart_createRepository (hs : Sound source db) (connectionId : Nat)
    (body : GitRepositoryCreate) :
    IsApart source tenant (createRepository tenant connectionId body) db := by
  apply IsApart.bind
  · apply apart_onGit hs
    · intro _ s' _ r' _ hkey
      rw [createRepository_of hs.access.tenanted body hkey, hkey]
      cases Git.createRepository db.access.git tenant _ connectionId body <;> rfl
    · intro _ r a g _ hkey hdone
      cases hcreate : Git.createRepository db.access.git tenant r connectionId body with
      | error e => rw [hcreate] at hdone; cases hdone
      | ok g' =>
        rw [hcreate] at hdone
        cases hdone
        exact .createRepository hs.access.tenanted hkey hcreate
    · exact fun _ _ _ ↦ trivial
  · exact fun created _ hs' ↦ apart_repository hs' created

theorem apart_updateRepository (hs : Sound source db) (id : Nat) (body : GitRepositoryUpdate) :
    IsApart source tenant (updateRepository tenant id body) db := by
  apply IsApart.bind
  · apply apart_onGit hs
    · intro _ _ _ _ _ _
      rw [updateRepository_of hs.access.tenanted]
      cases Git.updateRepository db.access.git tenant id body <;> rfl
    · intro _ _ a g _ _ hdone
      cases hupdate : Git.updateRepository db.access.git tenant id body with
      | error e => rw [hupdate] at hdone; cases hdone
      | ok g' =>
        rw [hupdate] at hdone
        cases hdone
        exact .updateRepository hs.access.tenanted hupdate
    · exact fun _ _ _ ↦ trivial
  · exact fun _ _ hs' ↦ apart_repository hs' id

theorem apart_deleteRepository (hs : Sound source db) (id : Nat) :
    IsApart source tenant (deleteRepository tenant id) db := by
  apply apart_onGit hs
  · intro _ _ _ _ _ _
    rw [deleteRepository_of]
    cases Git.deleteRepository db.access.git tenant id <;> rfl
  · intro _ _ a g _ _ hdone
    cases hdelete : Git.deleteRepository db.access.git tenant id with
    | error e => rw [hdelete] at hdone; cases hdone
    | ok g' =>
      rw [hdelete] at hdone
      cases hdone
      exact .deleteRepository hs.access.tenanted hdelete
  · exact fun _ _ _ ↦ trivial

/-! ## The single configuration -/

theorem apart_clearDefaultRepository (hs : Sound source db) :
    IsApart source tenant (clearDefaultRepository tenant) db := by
  apply apart_onGit hs
  · intro _ _ _ _ _ _
    rw [clearDefaultRepository_of]
    rfl
  · intro _ _ a g _ _ hdone
    cases hdone
    exact .clearDefaultRepository hs.access.tenanted
  · exact fun _ _ _ ↦ trivial

theorem apart_setGitConfig (hs : Sound source db) (update : GitConfigUpdate) :
    IsApart source tenant (setGitConfig tenant update) db := by
  unfold setGitConfig
  split
  · exact .raise hs _
  · apply IsApart.bind (.readsGit hs rfl)
    intro fields db hs
    apply IsApart.bind
    · apply apart_onGit hs
      · exact fun _ _ _ _ hkey _ ↦ shimConnection_of hs.access.tenanted _ _ hkey
      · exact fun _ _ _ _ hkey _ hdone ↦ .shimConnection hs.access.tenanted hkey hdone
      · exact fun _ _ _ ↦ trivial
    · intro c db hs
      apply IsApart.bind (apart_patchConnection hs c.id (f := unverified) fun _ ↦ ⟨rfl, rfl⟩)
      intro _ db hs
      cases fields.project with
      | none => exact apart_clearDefaultRepository hs
      | some project =>
        apply IsApart.bind (.readsGit hs (by simp only [repositories, repositoriesOf_of]))
        intro existing db hs
        cases existing with
        | none =>
          apply IsApart.bind (apart_createRepository hs c.id _)
          exact fun _ _ hs ↦ .pure hs _
        | some existing =>
          apply IsApart.bind (apart_updateRepository hs existing.id _)
          intro _ db hs
          apply IsApart.bind (apart_setDefaultRepository hs existing.id)
          exact fun _ _ hs ↦ .pure hs _

theorem connectionForEnv_of {g : GitTables} {s s' : Nat} (provider : String)
    (baseUrl : Option String)
    (hkey : nextId ((g.of tenant).connections.map (·.id)) s' =
      nextId (g.connections.map (·.id)) s) :
    connectionForEnv (g.of tenant) tenant s' provider baseUrl =
      (connectionForEnv g tenant s provider baseUrl).map fun done ↦
        (done.1, done.2.of tenant) := by
  rw [connectionForEnv, connectionForEnv, createConnection_of _ hkey]
  cases Git.createConnection g tenant s _ with
  | ok done => rfl
  | error e =>
    show (if e.isLookup || e == .invalid then _ else _) =
      Except.map _ (if e.isLookup || e == .invalid then _ else _)
    split
    · rfl
    · cases connectionFields (some provider)
        (baseUrl.bind fun url ↦ if url = "" then none else some url) none with
      | error e => rfl
      | ok wanted =>
        dsimp only [bind, Except.bind]
        rw [connectionTo_of]
        split <;> rfl

theorem write_connectionForEnv {g g' : GitTables} {keys : GitKeys} (h : Tenanted g)
    {skipped : Nat} {provider : String} {baseUrl : Option String} {c : GitConnectionRow}
    (hkey : nextId (g.connections.map (·.id)) skipped = keys.connection)
    (hfor : connectionForEnv g tenant skipped provider baseUrl = .ok (c, g')) :
    TenantWrite tenant keys none g g' := by
  rw [connectionForEnv] at hfor
  split at hfor
  · rename_i hcreate
    cases hfor
    exact .createConnection h hkey hcreate
  · split at hfor
    · cases hfor
    · rw [bind_eq_ok] at hfor
      obtain ⟨wanted, -, hfor⟩ := hfor
      split at hfor
      · cases hfor
        exact .refl h
      · cases hfor

theorem apart_defaultConnection (hs : Sound source db) (settings : GitSettings) :
    IsApart source tenant (defaultConnection tenant settings) db := by
  apply apart_onGit hs
  · intro _ _ _ _ hkey _
    rw [defaultRepository_of hs.access.tenanted, connectionsOf_of,
      connectionForEnv_of _ _ hkey]
    split <;> rfl
  · intro _ _ a g hkey _ hdone
    split at hdone
    · cases hdone
      exact .refl hs.access.tenanted
    · exact write_connectionForEnv hs.access.tenanted hkey hdone
  · exact fun _ _ _ ↦ trivial

theorem apart_recordConnectionVerification (hs : Sound source db) (id : Nat)
    (error : Option String) (rejected : Option Bool) (now : Time) :
    IsApart source tenant (recordConnectionVerification tenant id error rejected now) db :=
  apart_patchConnection hs id fun _ ↦ ⟨rfl, rfl⟩

theorem apart_recordGitVerification (hs : Sound source db) (settings : GitSettings)
    (error : Option String) (rejected : Option Bool) (now : Time) :
    IsApart source tenant (recordGitVerification tenant settings error rejected now) db := by
  have hrecord : ∀ db, Sound source db → IsApart source tenant (do
      let c ← defaultConnection tenant settings
      recordConnectionVerification tenant c.id error rejected now) db :=
    fun db hs ↦ IsApart.bind (apart_defaultConnection hs settings)
      fun c _ hs ↦ apart_recordConnectionVerification hs c.id error rejected now
  apply IsApart.bind (.readsGit hs (by rw [connectionsOf_of]))
  intro stored db hs
  dsimp only
  split
  · exact IsApart.bind (apart_setGitConfig hs _) fun _ db hs ↦ hrecord db hs
  · exact hrecord db hs

/-! ## The single configuration in one step -/

/-- A read that returned wrote nothing. -/
theorem readsGit_ok {α : Type} {f : GitTables → Except GitError α} {a : α} {db' : Database}
    (h : readsGit f db = (.ok a, db')) : db' = db ∧ f db.access.git = .ok a := by
  have hunfold : readsGit f db = ((f db.access.git).mapError .git, db) := rfl
  rw [hunfold, Prod.mk.injEq] at h
  refine ⟨h.2.symm, ?_⟩
  cases hf : f db.access.git with
  | error e => rw [hf] at h; cases h.1
  | ok b => rw [hf] at h; cases h.1; rfl

/-- A transaction that returned wrote what its function gives. -/
theorem onGit_ok {α : Type} {f : Nat → Nat → GitTables → Except GitError (α × GitTables)} {a : α}
    {db' : Database} (h : onGit f db = (.ok a, db')) :
    ∃ s r, f s r db.access.git = .ok (a, db'.access.git) := by
  refine ⟨skippedTo (db.access.git.connections.map (·.id)) db.keys.git.connection,
    skippedTo (db.access.git.repositories.map (·.id)) db.keys.git.repository, ?_⟩
  rw [onGit, onAccess, Call.transact] at h
  cases hf : f (skippedTo (db.access.git.connections.map (·.id)) db.keys.git.connection)
    (skippedTo (db.access.git.repositories.map (·.id)) db.keys.git.repository) db.access.git with
  | error e => rw [hf] at h; cases h
  | ok done => rw [hf] at h; cases h; rfl

/-- A patch that returned was of a connection of the tenant. -/
theorem patchConnection_ok {id : Nat} {f : GitConnectionRow → GitConnectionRow} {db' : Database}
    (h : patchConnection tenant id f db = (.ok (), db')) :
    db'.access.git = modifyConnection db.access.git id f := by
  rw [patchConnection] at h
  have hpatch := onGit_ok h
  obtain ⟨_, _, hpatch⟩ := hpatch
  cases hc : connection db.access.git tenant id with
  | error e => rw [hc] at hpatch; cases hpatch
  | ok found =>
    rw [hc] at hpatch
    exact (Prod.mk.inj (Except.ok.inj hpatch)).2.symm

/-- A write that was read back was made in the tables. -/
private theorem readBack_ok {α β : Type} {F : Nat → Nat → GitTables → Except GitError GitTables}
    {k : Nat → Nat → GitTables → α} {read : α → GitTables → Except GitError β} {b : β}
    {db' : Database}
    (h : (do
      let a ← onGit fun s r g ↦ (F s r g).map (k s r g, ·)
      readsGit (read a)) db = (.ok b, db')) :
    ∃ s r, F s r db.access.git = .ok db'.access.git := by
  obtain ⟨a, db₁, hset, hread⟩ := Call.bind_ok h
  have hset := onGit_ok hset
  have hread := readsGit_ok hread
  obtain ⟨s, r, hset⟩ := hset
  refine ⟨s, r, ?_⟩
  cases hg : F s r db.access.git with
  | error e => rw [hg] at hset; cases hset
  | ok g =>
    rw [hg] at hset
    rw [hread.1]
    exact congrArg Except.ok (Prod.mk.inj (Except.ok.inj hset)).2

/-- A default that was set and read back was set in the tables. -/
theorem setDefaultRepository_ok {id : Nat} {row : GitRepositoryRow} {db' : Database}
    (h : setDefaultRepository tenant id db = (.ok row, db')) :
    Git.setDefaultRepository db.access.git tenant id = .ok db'.access.git := by
  obtain ⟨_, _, hset⟩ := readBack_ok h
  exact hset

/-- A repository that was updated and read back was updated in the tables. -/
theorem updateRepository_ok {id : Nat} {body : GitRepositoryUpdate} {row : GitRepositoryRow}
    {db' : Database} (h : updateRepository tenant id body db = (.ok row, db')) :
    Git.updateRepository db.access.git tenant id body = .ok db'.access.git := by
  obtain ⟨_, _, hset⟩ := readBack_ok h
  exact hset

/-- A repository that was created and read back was created in the tables. -/
theorem createRepository_ok {connectionId : Nat} {body : GitRepositoryCreate}
    {row : GitRepositoryRow} {db' : Database}
    (h : createRepository tenant connectionId body db = (.ok row, db')) :
    ∃ r, Git.createRepository db.access.git tenant r connectionId body = .ok db'.access.git := by
  obtain ⟨_, r, hset⟩ := readBack_ok h
  exact ⟨r, hset⟩

/-- The repository of a connection that a project names. -/
private theorem find?_repositories (g : GitTables) (tenant : String) (id : Nat) (project : String) :
    (repositories g tenant (some id)).find? (·.project == project) =
      (repositoriesOf g tenant).find? fun r ↦ r.connectionId == id && r.project == project := by
  rw [repositories, List.find?_filter]
  congr 1
  funext r
  rw [Option.all_some, Bool.decide_and, Bool.decide_eq_true, Bool.decide_eq_true,
    BEq.comm (a := r.connectionId)]

/-- A configuration write that returned wrote what the write of the tables alone gives. -/
theorem setGitConfig_ok {update : GitConfigUpdate} {db' : Database}
    (h : setGitConfig tenant update db = (.ok (), db')) :
    ∃ s r, Git.setGitConfig db.access.git tenant s r update = .ok db'.access.git := by
  rw [setGitConfig] at h
  cases hvalid : update.valid with
  | false => rw [hvalid] at h; cases h
  | true =>
    rw [hvalid, if_neg (by decide)] at h
    obtain ⟨fields, db₁, hfields, h⟩ := Call.bind_ok h
    have hfields := readsGit_ok hfields
    obtain ⟨c, db₂, hshim, h⟩ := Call.bind_ok h
    obtain ⟨s, _, hshim⟩ := onGit_ok hshim
    obtain ⟨_, db₃, hpatch, h⟩ := Call.bind_ok h
    have hpatch := patchConnection_ok hpatch
    rw [hfields.1] at hshim
    cases hproject : fields.project with
    | none =>
      rw [hproject] at h
      obtain ⟨_, _, hclear⟩ := onGit_ok h
      have hcleared := (Prod.mk.inj (Except.ok.inj hclear)).2
      refine ⟨s, 0, ?_⟩
      rw [Git.setGitConfig, hvalid, if_neg (by decide), hfields.2]
      dsimp only [Bind.bind, Except.bind]
      rw [hshim]
      dsimp only
      rw [hproject, ← hpatch, ← hcleared]
      rfl
    | some project =>
      rw [hproject] at h
      obtain ⟨existing, db₄, hexisting, h⟩ := Call.bind_ok h
      have hexisting := readsGit_ok hexisting
      have hfound := Except.ok.inj hexisting.2
      rw [find?_repositories] at hfound
      have hpure : ∀ r, existing.elim
          (Git.createRepository db₃.access.git tenant r c.id
            { project := project
              intakeProject := fields.intakeProject
              aifactoryProjectId := fields.aifactoryProjectId
              defaultLabels := fields.defaultLabels
              makeDefault := true })
          (fun found ↦ (Git.updateRepository db₃.access.git tenant found.id
            { project := some (some project)
              intakeProject := some fields.intakeProject
              aifactoryProjectId := some fields.aifactoryProjectId
              defaultLabels := some (some fields.defaultLabels) }).bind
            fun g ↦ Git.setDefaultRepository g tenant found.id) = .ok db'.access.git →
          Git.setGitConfig db.access.git tenant s r update = .ok db'.access.git := by
        intro r hr
        rw [Git.setGitConfig, hvalid, if_neg (by decide), hfields.2]
        dsimp only [Bind.bind, Except.bind]
        rw [hshim]
        dsimp only
        rw [hproject, ← hpatch]
        dsimp only
        rw [hfound]
        cases existing with
        | none => exact hr
        | some found => exact hr
      rw [hexisting.1] at h
      cases existing with
      | none =>
        obtain ⟨row, db₅, hcreate, h⟩ := Call.bind_ok h
        obtain ⟨r, hcreate⟩ := createRepository_ok hcreate
        have hlast : db' = db₅ := (Prod.mk.inj h).2.symm
        exact ⟨s, r, hpure r (hlast ▸ hcreate)⟩
      | some found =>
        obtain ⟨_, db₅, hupdate, h⟩ := Call.bind_ok h
        obtain ⟨_, db₆, hset, h⟩ := Call.bind_ok h
        have hlast : db' = db₆ := (Prod.mk.inj h).2.symm
        refine ⟨s, 0, hpure 0 ?_⟩
        dsimp only [Option.elim, Except.bind]
        rw [updateRepository_ok hupdate, hlast]
        exact setDefaultRepository_ok hset

end CFactory.Tenants
