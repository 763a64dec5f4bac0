import CFactory.Base.Script
import CFactory.Git.Adoption
import CFactory.Tenants.Access

/-!
# Adopting the rows of the single configuration

`cards.py:2263–2377`, `app.py:108`. Each row of the single configuration becomes a connection, what
was verified of it, a default repository, and the owner of the tenant's credential, transaction by
transaction. A tenant that has a connection is skipped.
-/

namespace CFactory.Tenants

open CFactory.Base CFactory.Model CFactory.Git
open CFactory.Credentials

/-- A program over the database. -/
abbrev StoreScript := Script StoreError Database

/-! ## The transactions -/

/-- The tenant's credential that no connection has; `cards.py:2347–2352`. -/
def legacyCredential (t : AccessTables) (tenant : String) : Option GitCredentialRow :=
  t.credentials.find? fun r ↦ r.connectionId.isNone && r.tenantId == tenant

/-- A credential attached to a connection, with the binding it had; `cards.py:2355–2356`. -/
def attach (id : Nat) (now : Time) (r : GitCredentialRow) : GitCredentialRow :=
  { r with
    connectionId := some id
    record := { r.record with aadVersion := legacyAadVersion }
    updatedAt := now }

/-- The first transaction of `_adopt_credential`; `cards.py:2347–2356`. -/
def attachCredential (tenant : String) (id : Nat) (now : Time) : StoreCall Bool :=
  onAccess fun _ t ↦
    match legacyCredential t tenant with
    | none => .ok (false, t)
    | some row =>
      if t.credentials.any (·.connectionId == some id) then .error .integrity
      else
        .ok (true,
          { t with
            credentials := t.credentials.map fun r ↦ if r.id = row.id then attach id now r else r })

/-- The insert of `create_repository`; `cards.py:1190–1209`. -/
def insertRepository (tenant : String) (connectionId : Nat) (body : GitRepositoryCreate) :
    StoreCall (Nat × Bool) :=
  onGit fun _ skipped g ↦ Git.insertRepository g tenant skipped connectionId body

/-- The write of `set_default_repository`; `cards.py:1249–1272`. -/
def markDefault (tenant : String) (id : Nat) : StoreCall Unit :=
  onGit fun _ _ g ↦ (Git.setDefaultRepository g tenant id).map ((), ·)

/-! ## The programs -/

/-- `create_repository`; `cards.py:1190–1213`. -/
def createDefault (tenant : String) (connectionId : Nat) (body : GitRepositoryCreate) :
    StoreScript Unit := do
  let created ← .atomic (insertRepository tenant connectionId body)
  if created.2 then .atomic (markDefault tenant created.1)

/-- `_adopt_credential`; `cards.py:2340–2377`. -/
def adoptCredential (A : Aead UInt8) (tenant : String) (id : Nat) (keyring : Option KeyRing)
    (fresh : Randomness) (now : Time) : StoreScript Unit := do
  let attached ← .atomic (attachCredential tenant id now)
  if attached then do
    let row ← .atomic (.reads fun db ↦ .ok (credentialRow db.access tenant id))
    match row, keyring with
    | some row, some ring =>
      match row.record.reseal A fresh tenant id ring with
      | .error e => if e.caught then pure () else .raise (.credential e)
      | .ok none => pure ()
      | .ok (some resealed) => .atomic (storeSealed tenant id resealed now)
    | _, _ => pure ()

/-- `_adopt_one`; `cards.py:2304–2338`. -/
def adoptOne (A : Aead UInt8) (tenant : String) (row : GitConfigRow) (keyring : Option KeyRing)
    (fresh : Randomness) (now : Time) : StoreScript Unit := do
  let c ← .atomic (createConnection tenant row.connection)
  .atomic (patchConnection tenant c.id row.verified)
  match row.named with
  | none => pure ()
  | some project => createDefault tenant c.id (row.repository project)
  adoptCredential A tenant c.id keyring fresh now

/-- What the random source and the clock hand to a run, for each tenant. -/
structure Chance where
  fresh : String → Randomness
  now : String → Time

/-- `adopt_legacy_git_config`, how many tenants were adopted; `cards.py:2263–2302`. -/
def adoptLegacyGitConfig (A : Aead UInt8) (keyring : Option KeyRing) (chance : Chance) :
    List GitConfigRow → StoreScript Nat
  | [] => pure 0
  | row :: rest => do
    let existing ← .atomic (readsGit fun g ↦ .ok (connectionsOf g row.tenant))
    if existing ≠ [] then adoptLegacyGitConfig A keyring chance rest
    else do
      adoptOne A row.tenant row keyring (chance.fresh row.tenant) (chance.now row.tenant)
      let adopted ← adoptLegacyGitConfig A keyring chance rest
      pure (adopted + 1)

/-! ## The transactions are apart -/

variable {source : StateSource} {tenant : String} {db : Database}

/-- The insert does to the tenant's rows what it would do to them alone. -/
theorem insertRepository_of {g : GitTables} (h : Tenanted g) {s s' connectionId : Nat}
    (body : GitRepositoryCreate)
    (hkey : nextId ((g.of tenant).repositories.map (·.id)) s' =
      nextId (g.repositories.map (·.id)) s) :
    Git.insertRepository (g.of tenant) tenant s' connectionId body =
      (Git.insertRepository g tenant s connectionId body).map
        fun done ↦ (done.1, done.2.of tenant) := by
  rw [Git.insertRepository, Git.insertRepository, connection_of, defaultRepository_of h]
  split
  · rfl
  · cases hc : connection g tenant connectionId with
    | error e => rfl
    | ok c =>
      dsimp only [bind, Except.bind]
      cases repositoryFields body c.provider with
      | error e => rfl
      | ok fields =>
        have hfound := connectionOrNone_of_connection hc
        have hrow : newRepository (g.of tenant) tenant s' connectionId fields =
            newRepository g tenant s connectionId fields := by
          rw [newRepository, newRepository, hkey]
        dsimp only
        rw [hrow, holdsProject_of h hfound]
        split
        · rfl
        · exact congrArg (fun g' ↦ Except.ok (_, g')) (addRepository_of g tenant rfl)

/-- The insert is a write of the tenant. -/
theorem write_insertRepository {g g' : GitTables} {keys : GitKeys} (h : Tenanted g)
    {skipped connectionId : Nat} {body : GitRepositoryCreate} {created : Nat × Bool}
    (hkey : nextId (g.repositories.map (·.id)) skipped = keys.repository)
    (hinsert : Git.insertRepository g tenant skipped connectionId body = .ok (created, g')) :
    TenantWrite tenant keys none g g' := by
  obtain ⟨c, fields, hc, hfields, -, rfl⟩ := insertRepository_ok hinsert
  obtain ⟨hmem, hid, htenant⟩ := connection_ok hc
  exact .addRepository h (nextId_fresh (g.repositories.map (·.id)) skipped) hmem ⟨hid, htenant⟩
    (paths_of_repositoryFields hfields) hkey rfl rfl

theorem apart_insertRepository (hs : Sound source db) (connectionId : Nat)
    (body : GitRepositoryCreate) :
    IsApart source tenant (insertRepository tenant connectionId body) db := by
  apply apart_onGit hs
  · exact fun _ _ _ _ _ hkey ↦ insertRepository_of hs.access.tenanted body hkey
  · exact fun _ _ _ _ _ hkey hdone ↦ write_insertRepository hs.access.tenanted hkey hdone
  · exact fun _ _ _ ↦ trivial

theorem apart_markDefault (hs : Sound source db) (id : Nat) :
    IsApart source tenant (markDefault tenant id) db := by
  apply apart_onGit hs
  · intro _ _ _ _ _ _
    rw [setDefaultRepository_of]
    cases Git.setDefaultRepository db.access.git tenant id <;> rfl
  · intro _ _ a g _ _ hdone
    cases hset : Git.setDefaultRepository db.access.git tenant id with
    | error e => rw [hset] at hdone; cases hdone
    | ok g' =>
      rw [hset] at hdone
      cases hdone
      exact .setDefaultRepository hs.access.tenanted hset
  · exact fun _ _ _ ↦ trivial

@[simp] theorem legacyCredential_accessOf (t : AccessTables) (tenant : String) :
    legacyCredential (accessOf t tenant) tenant = legacyCredential t tenant := by
  apply find?_own
  intro r hr
  rw [Bool.and_eq_true] at hr
  exact hr.2

theorem legacyCredential_spec {t : AccessTables} {row : GitCredentialRow}
    (h : legacyCredential t tenant = some row) :
    row ∈ t.credentials ∧ row.connectionId = none ∧ row.tenantId = tenant := by
  have hfound := List.find?_some h
  rw [Bool.and_eq_true, Option.isNone_iff_eq_none, beq_iff_eq] at hfound
  exact ⟨List.mem_of_find?_eq_some h, hfound⟩

theorem apart_attachCredential (hs : Sound source db) {id : Nat} (hhas : HasConnection tenant id db)
    (now : Time) : IsApart source tenant (attachCredential tenant id now) db := by
  obtain ⟨c, hc⟩ := hhas
  have hheld : (accessOf db.access tenant).credentials.any (·.connectionId == some id) =
      db.access.credentials.any (·.connectionId == some id) :=
    any_own_of_mem fun r hr hid ↦ beq_iff_eq.mpr (tenant_of_homed hs.access.tenanted
      hs.access.credentialsHomed hc hr (beq_iff_eq.mp hid))
  apply apart_onAccess hs
  · rw [legacyCredential_accessOf, hheld]
    cases legacyCredential db.access tenant with
    | none => rfl
    | some row =>
      dsimp only
      split
      · rfl
      · apply congrArg fun t ↦ Except.ok (true, t)
        apply accessOf_credentials
        apply map_own
        intro r
        split <;> rfl
  · intro a t hdone
    refine ⟨?_, trivial⟩
    cases hrow : legacyCredential db.access tenant with
    | none =>
      rw [hrow] at hdone
      cases hdone
      exact write_nothing hs.access
    | some row =>
      rw [hrow] at hdone
      dsimp only at hdone
      split at hdone
      · cases hdone
      · cases hdone
        obtain ⟨hmem, -, htenant⟩ := legacyCredential_spec hrow
        have hkeys : ∀ r : GitCredentialRow,
            (if r.id = row.id then attach id now r else r).id = r.id := by
          intro r
          split <;> rfl
        apply write_credentials hs.access
        · exact others_map_key hs.access.credentialIds hmem (beq_iff_eq.mpr htenant) fun _ ↦ rfl
        · rw [map_key hkeys]
          exact hs.access.credentialIds
        · rw [map_key hkeys]
          exact .refl _ _
        · intro r' hr' id' hid'
          obtain ⟨r, hr, rfl⟩ := List.mem_map.mp hr'
          by_cases hsame : r.id = row.id
          · have hrr : r = row :=
              List.inj_on_of_nodup_map hs.access.credentialIds hr hmem hsame
            rw [if_pos hsame] at hid' ⊢
            cases hid'
            obtain ⟨hcmem, hcid, hctenant⟩ := connectionOrNone_spec hc
            exact ⟨c, hcmem, hcid, hctenant.trans (hrr ▸ htenant).symm⟩
          · rw [if_neg hsame] at hid' ⊢
            exact hs.access.credentialsHomed r hr id' hid'

end CFactory.Tenants
