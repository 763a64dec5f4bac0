import CFactory.Tenants.Configuration

/-!
# Credentials and installs are apart

`cards.py:1129–1168,1643–1954,1980–2259`. Each transaction on the tables behind the hosts reads
and writes the tenant's rows alone, and so does every operation that is composed of them.
-/

namespace CFactory.Tenants

open CFactory.Base CFactory.Model CFactory.Cards CFactory.Git CFactory.Import
open CFactory.Credentials (Sealed KeyRing Nonce Randomness CredentialError)

variable {source : StateSource} {tenant : String} {db : Database}

/-! ## Reads -/

@[simp] theorem git_accessOf (t : AccessTables) (tenant : String) :
    (accessOf t tenant).git = t.git.of tenant := rfl

@[simp] theorem credentialRow_accessOf (t : AccessTables) (tenant : String) (id : Nat) :
    credentialRow (accessOf t tenant) tenant id = credentialRow t tenant id := by
  apply find?_own
  intro r hr
  rw [Bool.and_eq_true] at hr
  exact hr.2

@[simp] theorem installRow_accessOf (t : AccessTables) (tenant : String) (id : Nat) :
    installRow (accessOf t tenant) tenant id = installRow t tenant id := by
  apply find?_own
  intro r hr
  rw [Bool.and_eq_true] at hr
  exact hr.2

@[simp] theorem connectionCredential_accessOf (t : AccessTables) (tenant : String) (id : Nat)
    (settings : GitSettings) :
    connectionCredential (accessOf t tenant) tenant id settings =
      connectionCredential t tenant id settings := by
  simp only [connectionCredential, installRow_accessOf, credentialRow_accessOf,
    installCredential, git_accessOf, connectionOrNone_of]

theorem tenantCredential_accessOf {t : AccessTables} (h : Tenanted t.git) (tenant : String)
    (settings : GitSettings) :
    tenantCredential (accessOf t tenant) tenant settings = tenantCredential t tenant settings := by
  simp only [tenantCredential, git_accessOf, defaultRepository_of h, connectionsOf_of,
    connectionCredential_accessOf]

theorem gitTargetFor_accessOf {t : AccessTables} (h : Tenanted t.git) (tenant : String)
    (settings : GitSettings) (repositoryId : Option Nat) (project : Option String) :
    Git.gitTargetFor (accessOf t tenant) tenant settings repositoryId project =
      Git.gitTargetFor t tenant settings repositoryId project := by
  simp only [Git.gitTargetFor, git_accessOf, resolveRepository_of h, tenantCredential_accessOf h,
    connectionCredential_accessOf]

/-- A read of the tables behind the hosts is apart if it answers from the tenant's rows. -/
theorem IsApart.readsAccess {α : Type} {f : AccessTables → Except StoreError α}
    (hs : Sound source db) (hown : f (accessOf db.access tenant) = f db.access) :
    IsApart source tenant (.reads fun db ↦ f db.access) db :=
  Apart.reads hs hown fun _ _ ↦ trivial

/-! ## Rows found for the tenant -/

theorem credentialRow_spec {t : AccessTables} {id : Nat} {row : GitCredentialRow}
    (h : credentialRow t tenant id = some row) :
    row ∈ t.credentials ∧ row.connectionId = some id ∧ row.tenantId = tenant := by
  have hfound := List.find?_some h
  rw [Bool.and_eq_true, beq_iff_eq, beq_iff_eq] at hfound
  exact ⟨List.mem_of_find?_eq_some h, hfound⟩

theorem installRow_spec {t : AccessTables} {id : Nat} {row : GitInstallRow}
    (h : installRow t tenant id = some row) :
    row ∈ t.installs ∧ row.connectionId = id ∧ row.tenantId = tenant := by
  have hfound := List.find?_some h
  rw [Bool.and_eq_true, beq_iff_eq, beq_iff_eq] at hfound
  exact ⟨List.mem_of_find?_eq_some h, hfound⟩

/-- The tenant has the connection. -/
def HasConnection (tenant : String) (id : Nat) (db : Database) : Prop :=
  ∃ c, connectionOrNone db.access.git tenant id = some c

/-- A stored credential is that of a connection. -/
theorem hasConnection_of_row (hs : Sound source db) {id : Nat} {row : GitCredentialRow}
    (h : credentialRow db.access tenant id = some row) : HasConnection tenant id db := by
  obtain ⟨hmem, hid, htenant⟩ := credentialRow_spec h
  obtain ⟨c, hc, hcid, hctenant⟩ := hs.access.credentialsHomed row hmem id hid
  cases hfound : connectionOrNone db.access.git tenant id with
  | some q => exact ⟨q, hfound⟩
  | none =>
    have hnone := List.find?_eq_none.mp hfound c hc
    simp [hcid, hctenant, htenant] at hnone

/-- A row with the tenant's connection is the tenant's. -/
theorem tenant_of_homed {α : Type} {g : GitTables} {tenantId : α → String}
    {connectionId : α → Option Nat} {rows : List α} {id : Nat} {c : GitConnectionRow} {r : α}
    (hg : Tenanted g) (h : Homed g tenantId connectionId rows)
    (hc : connectionOrNone g tenant id = some c) (hr : r ∈ rows)
    (hid : connectionId r = some id) : tenantId r = tenant := by
  obtain ⟨q, hq, hqid, hqtenant⟩ := h r hr id hid
  rw [← hqtenant, hg.tenant_of_id hc hq hqid]

/-! ## Transactions -/

theorem apart_deleteConnection (hs : Sound source db) (id : Nat) :
    IsApart source tenant (deleteConnection tenant id) db := by
  apply apart_onAccess hs
  · dsimp only [accessOf]
    rw [deleteConnection_of]
    cases Git.deleteConnection db.access.git tenant id with
    | error e => rfl
    | ok g =>
      apply congrArg Except.ok
      dsimp only
      rw [Prod.mk.injEq, AccessTables.mk.injEq]
      exact ⟨rfl, rfl, (delete_own _ _).symm, (delete_own _ _).symm, (delete_own _ _).symm⟩
  · intro a t hdone
    refine ⟨?_, trivial⟩
    cases hg : Git.deleteConnection db.access.git tenant id with
    | error e => rw [hg] at hdone; cases hdone
    | ok g =>
      rw [hg] at hdone
      cases hdone
      have hwrite : TenantWrite tenant db.keys.git (some id) db.access.git g :=
        .deleteConnection hs.access.tenanted hg
      rw [Git.deleteConnection, bind_eq_ok] at hg
      obtain ⟨c, hc, -⟩ := hg
      exact .deleteConnection hs.access (connectionOrNone_of_connection hc) hwrite

/-- What the tenant sees of other credentials, and of other installs. -/
theorem accessOf_credentials {t : AccessTables} {rows rows' : List GitCredentialRow}
    (h : rows.filter (·.tenantId == tenant) = rows') :
    (⟨(accessOf t tenant).git, rows', (accessOf t tenant).installs, (accessOf t tenant).pending⟩ :
      AccessTables) = accessOf ⟨t.git, rows, t.installs, t.pending⟩ tenant := by
  rw [← h]
  rfl

private theorem accessOf_installs {t : AccessTables} {rows rows' : List GitInstallRow}
    (h : rows.filter (·.tenantId == tenant) = rows') :
    (⟨(accessOf t tenant).git, (accessOf t tenant).credentials, rows',
      (accessOf t tenant).pending⟩ : AccessTables) =
        accessOf ⟨t.git, t.credentials, rows, t.pending⟩ tenant := by
  rw [← h]
  rfl

/-- Credentials of the tenant written over the old ones. -/
theorem write_credentials {k : Keys} {t : AccessTables} {rows : List GitCredentialRow}
    (hs : AccessSound source k t)
    (hothers : Base.others (·.tenantId == tenant) rows =
      Base.others (·.tenantId == tenant) t.credentials)
    (hids : (rows.map (·.id)).Nodup)
    (hnew : NextOnly k.credential (t.credentials.map (·.id)) (rows.map (·.id)))
    (hhomed : Homed t.git GitCredentialRow.tenantId (·.connectionId) rows) :
    AccessWrite source tenant k t { t with credentials := rows } where
  others := by
    rw [accessOthers, accessOthers, hothers]
  sound := by
    apply hs.after
    · exact hs.tenanted
    · exact .refl _ _
    · exact .refl _ _
    · exact ⟨hids, hnew, hhomed⟩
    · exact ⟨hs.installIds, .refl _ _, hs.installsHomed⟩
    · exact ⟨.refl _ _, hs.pendingHomed⟩
    · exact fun r hr n hn ↦ hs.undrawn_after hr hn

/-- Installs of the tenant written over the old ones. -/
private theorem write_installs {k : Keys} {t : AccessTables} {rows : List GitInstallRow}
    (hs : AccessSound source k t)
    (hothers : Base.others (·.tenantId == tenant) rows =
      Base.others (·.tenantId == tenant) t.installs)
    (hids : (rows.map (·.id)).Nodup)
    (hnew : NextOnly k.install (t.installs.map (·.id)) (rows.map (·.id)))
    (hhomed : Homed t.git GitInstallRow.tenantId (some ·.connectionId) rows) :
    AccessWrite source tenant k t { t with installs := rows } where
  others := by
    rw [accessOthers, accessOthers, hothers]
  sound := by
    apply hs.after
    · exact hs.tenanted
    · exact .refl _ _
    · exact .refl _ _
    · exact ⟨hs.credentialIds, .refl _ _, hs.credentialsHomed⟩
    · exact ⟨hids, hnew, hhomed⟩
    · exact ⟨.refl _ _, hs.pendingHomed⟩
    · exact fun r hr n hn ↦ hs.undrawn_after hr hn

/-- Nothing written. -/
theorem write_nothing {k : Keys} {t : AccessTables} (hs : AccessSound source k t) :
    AccessWrite source tenant k t t :=
  .git hs (.refl hs.tenanted)

theorem apart_storeSealed (hs : Sound source db) {id : Nat} (hhas : HasConnection tenant id db)
    (record : Sealed) (now : Time) :
    Apart (division tenant) (Sound source) (fun _ ↦ HasConnection tenant id)
      (storeSealed tenant id record now) db := by
  obtain ⟨c, hc⟩ := hhas
  have hheld : (accessOf db.access tenant).credentials.any (·.connectionId == some id) =
      db.access.credentials.any (·.connectionId == some id) :=
    any_own_of_mem fun r hr hid ↦ beq_iff_eq.mpr (tenant_of_homed hs.access.tenanted
      hs.access.credentialsHomed hc hr (beq_iff_eq.mp hid))
  apply apart_onAccess hs
  · rw [credentialRow_accessOf, hheld]
    cases credentialRow db.access tenant id with
    | some row =>
      apply congrArg fun t ↦ Except.ok ((), t)
      apply accessOf_credentials
      apply map_own
      intro r
      split <;> rfl
    | none =>
      dsimp only
      split
      · rfl
      · apply congrArg fun t ↦ Except.ok ((), t)
        apply accessOf_credentials
        apply append_own
        intro r hr
        cases List.mem_singleton.mp hr
        exact beq_self_eq_true tenant
  · intro a t hdone
    cases hrow : credentialRow db.access tenant id with
    | some row =>
      rw [hrow] at hdone
      cases hdone
      obtain ⟨hmem, -, htenant⟩ := credentialRow_spec hrow
      refine ⟨write_credentials hs.access ?_ ?_ ?_ ?_, c, hc⟩
      · exact others_map_key hs.access.credentialIds hmem (beq_iff_eq.mpr htenant) fun _ ↦ rfl
      · rw [map_key (fun r ↦ by split <;> rfl)]
        exact hs.access.credentialIds
      · rw [map_key (fun r ↦ by split <;> rfl)]
        exact .refl _ _
      · intro r' hr' id' hid'
        obtain ⟨r, hr, rfl⟩ := List.mem_map.mp hr'
        have hsame : ∀ q : GitCredentialRow,
            (if r.id = row.id then { r with record := record, updatedAt := now } else r) = q →
              q.connectionId = r.connectionId ∧ q.tenantId = r.tenantId := by
          rintro q rfl
          split <;> exact ⟨rfl, rfl⟩
        obtain ⟨hconnection, htenant'⟩ := hsame _ rfl
        rw [htenant']
        exact hs.access.credentialsHomed r hr id' (hconnection.symm.trans hid')
    | none =>
      rw [hrow] at hdone
      dsimp only at hdone
      split at hdone
      · cases hdone
      · cases hdone
        refine ⟨write_credentials hs.access ?_ ?_ ?_ ?_, c, hc⟩
        · apply others_append
          intro r hr
          cases List.mem_singleton.mp hr
          exact beq_self_eq_true tenant
        · exact nodup_append_next hs.access.credentialIds hs.access.credentialKeys rfl
        · exact nextOnly_append _ rfl
        · intro r hr id' hid'
          cases List.mem_append.mp hr with
          | inl hold => exact hs.access.credentialsHomed r hold id' hid'
          | inr hnew =>
            cases List.mem_singleton.mp hnew
            cases hid'
            obtain ⟨hmem, hcid, htenant⟩ := connectionOrNone_spec hc
            exact ⟨c, hmem, hcid, htenant⟩

/-- A credential of the tenant deleted. -/
private theorem write_deleted {k : Keys} {t : AccessTables} {id : Nat} {row : GitCredentialRow}
    (hs : AccessSound source k t) (hrow : credentialRow t tenant id = some row) :
    AccessWrite source tenant k t
      { t with credentials := t.credentials.filter (·.id ≠ row.id) } := by
  obtain ⟨hmem, -, htenant⟩ := credentialRow_spec hrow
  apply write_credentials hs
  · exact others_delete_key hs.credentialIds hmem (beq_iff_eq.mpr htenant)
  · exact hs.credentialIds.sublist (List.filter_sublist.map _)
  · exact fun i hi ↦ .inl ((List.filter_sublist.map _).subset hi)
  · exact hs.credentialsHomed.mem fun r hr ↦ List.mem_of_mem_filter hr

/-- What is looked up for the tenant behind a guard on its connection. -/
private theorem guarded {α : Type} {t : AccessTables} {id : Nat}
    {f g : GitConnectionRow → Except StoreError (α × AccessTables)}
    (h : ∀ c, connectionOrNone t.git tenant id = some c →
      f c = (g c).map fun done ↦ (done.1, accessOf done.2 tenant)) :
    ((connection (accessOf t tenant).git tenant id).mapError StoreError.git).bind f =
      (((connection t.git tenant id).mapError StoreError.git).bind g).map fun done ↦
        (done.1, accessOf done.2 tenant) := by
  rw [git_accessOf, connection_of]
  cases hc : connection t.git tenant id with
  | error e => rfl
  | ok c => exact h c (connectionOrNone_of_connection hc)

/-- What is done behind a guard is done with the connection there. -/
private theorem guarded_ok {α : Type} {t t' : AccessTables} {id : Nat} {a : α}
    {f : GitConnectionRow → Except StoreError (α × AccessTables)}
    (h : ((connection t.git tenant id).mapError StoreError.git).bind f = .ok (a, t')) :
    ∃ c, connectionOrNone t.git tenant id = some c ∧ f c = .ok (a, t') := by
  cases hc : connection t.git tenant id with
  | error e => rw [hc] at h; cases h
  | ok c => rw [hc] at h; exact ⟨c, connectionOrNone_of_connection hc, h⟩

theorem apart_clearConnectionCredential (hs : Sound source db) (id : Nat) :
    IsApart source tenant (clearConnectionCredential tenant id) db := by
  apply apart_onAccess hs
  · rw [git_accessOf, connection_of, credentialRow_accessOf]
    cases connection db.access.git tenant id with
    | error e => rfl
    | ok c =>
      cases credentialRow db.access tenant id with
      | none => rfl
      | some row =>
        apply congrArg fun t ↦ Except.ok (true, t)
        exact accessOf_credentials (delete_own _ _)
  · intro a t hdone
    refine ⟨?_, trivial⟩
    obtain ⟨c, hc, hdone⟩ := guarded_ok hdone
    cases hrow : credentialRow db.access tenant id with
    | none =>
      rw [hrow] at hdone
      cases hdone
      exact write_nothing hs.access
    | some row =>
      rw [hrow] at hdone
      cases hdone
      exact write_deleted hs.access hrow

theorem apart_startInstall (hs : Sound source db) (id : Nat) (redirectUri : String) (now : Time) :
    IsApart source tenant (startInstall source tenant id redirectUri now) db := by
  -- the token is one still to be drawn, so no pending install of anyone has its digest
  have hfree : db.access.pending.any
      (·.stateHash == source.digest (source.token db.keys.pending)) = false := by
    rw [List.any_eq_false]
    intro r hr hhash
    exact hs.access.undrawn r hr _ (Nat.le_refl _) (beq_iff_eq.mp hhash)
  have hfreeOwn : (accessOf db.access tenant).pending.any
      (·.stateHash == source.digest (source.token db.keys.pending)) = false := by
    rw [List.any_eq_false] at hfree ⊢
    exact fun r hr ↦ hfree r (List.mem_of_mem_filter hr)
  apply apart_onAccess hs
  · apply guarded
    intro c hc
    dsimp only
    rw [hfree, hfreeOwn]
    apply congrArg fun rows ↦ Except.ok (_, AccessTables.mk (db.access.git.of tenant)
      (accessOf db.access tenant).credentials (accessOf db.access tenant).installs rows)
    apply (append_own _ _).symm
    intro r hr
    cases List.mem_singleton.mp hr
    exact beq_self_eq_true tenant
  · intro a t hdone
    refine ⟨?_, trivial⟩
    obtain ⟨c, hc, hdone⟩ := guarded_ok hdone
    dsimp only at hdone
    rw [hfree] at hdone
    cases hdone
    constructor
    · rw [accessOthers, accessOthers, AccessTables.mk.injEq]
      refine ⟨rfl, rfl, rfl, ?_⟩
      apply others_append
      intro r hr
      cases List.mem_singleton.mp hr
      exact beq_self_eq_true tenant
    · apply hs.access.after
      · exact hs.access.tenanted
      · exact .refl _ _
      · exact .refl _ _
      · exact ⟨hs.access.credentialIds, .refl _ _, hs.access.credentialsHomed⟩
      · exact ⟨hs.access.installIds, .refl _ _, hs.access.installsHomed⟩
      · refine ⟨nextOnly_append _ rfl, ?_⟩
        intro r hr i hi
        cases List.mem_append.mp hr with
        | inl hold => exact hs.access.pendingHomed r hold i hi
        | inr hnew =>
          cases List.mem_singleton.mp hnew
          cases hi
          obtain ⟨hmem, -, htenant⟩ := connectionOrNone_spec hc
          exact ⟨c, hmem, rfl, htenant⟩
      · intro r hr n hn
        cases List.mem_append.mp hr with
        | inl hold => exact hs.access.undrawn_after hold hn
        | inr hnew =>
          cases List.mem_singleton.mp hnew
          rw [advance, if_pos (by simp)] at hn
          intro hsame
          have heq := source.distinct _ _ hsame
          omega

/-- An install of the tenant changed in place. -/
private theorem write_install {k : Keys} {t : AccessTables} {id : Nat} {row : GitInstallRow}
    {f : GitInstallRow → GitInstallRow}
    (hs : AccessSound source k t) (hrow : installRow t tenant id = some row)
    (hf : ∀ r, (f r).id = r.id ∧ (f r).tenantId = r.tenantId ∧
      (f r).connectionId = r.connectionId) :
    AccessWrite source tenant k t
      { t with installs := t.installs.map fun r ↦ if r.id = row.id then f r else r } := by
  obtain ⟨hmem, -, htenant⟩ := installRow_spec hrow
  have hsame : ∀ r : GitInstallRow, (if r.id = row.id then f r else r).id = r.id ∧
      (if r.id = row.id then f r else r).tenantId = r.tenantId ∧
        (if r.id = row.id then f r else r).connectionId = r.connectionId := by
    intro r
    split
    · exact hf r
    · exact ⟨rfl, rfl, rfl⟩
  apply write_installs hs
  · apply others_map_key hs.installIds hmem
    · exact beq_iff_eq.mpr htenant
    · intro r
      rw [(hf r).2.1]
  · rw [map_key fun r ↦ (hsame r).1]
    exact hs.installIds
  · rw [map_key fun r ↦ (hsame r).1]
    exact .refl _ _
  · intro r' hr' id' hid'
    obtain ⟨r, hr, rfl⟩ := List.mem_map.mp hr'
    rw [(hsame r).2.1]
    exact hs.installsHomed r hr id' ((congrArg some (hsame r).2.2).symm.trans hid')

theorem apart_patchInstall (hs : Sound source db) (id : Nat) (status : InstallStatus)
    (error : Option String) (now : Time) :
    IsApart source tenant (patchInstall tenant id status error now) db := by
  apply apart_onAccess hs
  · rw [installRow_accessOf]
    cases installRow db.access tenant id with
    | none => rfl
    | some row =>
      apply congrArg fun t ↦ Except.ok ((), t)
      apply accessOf_installs
      apply map_own
      intro r
      split <;> rfl
  · intro a t hdone
    refine ⟨?_, trivial⟩
    cases hrow : installRow db.access tenant id with
    | none =>
      rw [hrow] at hdone
      cases hdone
      exact write_nothing hs.access
    | some row =>
      rw [hrow] at hdone
      cases hdone
      exact write_install hs.access hrow fun _ ↦ ⟨rfl, rfl, rfl⟩

theorem apart_recordInstall (hs : Sound source db) (id : Nat) (provider : Provider)
    (installationId account : Option String) (now : Time) :
    IsApart source tenant (recordInstall tenant id provider installationId account now) db := by
  have hheld : ∀ c, connectionOrNone db.access.git tenant id = some c →
      (accessOf db.access tenant).installs.any (·.connectionId == id) =
        db.access.installs.any (·.connectionId == id) :=
    fun c hc ↦ any_own_of_mem fun r hr hid ↦ beq_iff_eq.mpr (tenant_of_homed hs.access.tenanted
      hs.access.installsHomed hc hr (congrArg some (beq_iff_eq.mp hid)))
  apply apart_onAccess hs
  · apply guarded
    intro c hc
    rw [installRow_accessOf, hheld c hc]
    cases installRow db.access tenant id with
    | some row =>
      apply congrArg fun t ↦ Except.ok (_, t)
      apply accessOf_installs
      apply map_own
      intro r
      split <;> rfl
    | none =>
      dsimp only
      split
      · rfl
      · apply congrArg fun t ↦ Except.ok (_, t)
        apply accessOf_installs
        apply append_own
        intro r hr
        cases List.mem_singleton.mp hr
        exact beq_self_eq_true tenant
  · intro a t hdone
    refine ⟨?_, trivial⟩
    obtain ⟨c, hc, hdone⟩ := guarded_ok hdone
    cases hrow : installRow db.access tenant id with
    | some row =>
      rw [hrow] at hdone
      cases hdone
      exact write_install hs.access hrow fun _ ↦ ⟨rfl, rfl, rfl⟩
    | none =>
      rw [hrow] at hdone
      dsimp only at hdone
      split at hdone
      · cases hdone
      · cases hdone
        apply write_installs hs.access
        · apply others_append
          intro r hr
          cases List.mem_singleton.mp hr
          exact beq_self_eq_true tenant
        · exact nodup_append_next hs.access.installIds hs.access.installKeys rfl
        · exact nextOnly_append _ rfl
        · intro r hr i hi
          cases List.mem_append.mp hr with
          | inl hold => exact hs.access.installsHomed r hold i hi
          | inr hnew =>
            cases List.mem_singleton.mp hnew
            cases hi
            obtain ⟨hmem, hcid, htenant⟩ := connectionOrNone_spec hc
            exact ⟨c, hmem, hcid, htenant⟩

/-! ## Operations of several transactions -/

theorem apart_deleteInstall (hs : Sound source db) (id : Nat) :
    IsApart source tenant (deleteInstall tenant id) db := by
  apply IsApart.bind
  · apply apart_onAccess hs
    · rw [git_accessOf, connection_of, installRow_accessOf]
      cases connection db.access.git tenant id with
      | error e => rfl
      | ok c =>
        cases installRow db.access tenant id with
        | none => rfl
        | some row =>
          apply congrArg fun t ↦ Except.ok (true, t)
          exact accessOf_installs (delete_own _ _)
    · intro a t hdone
      refine ⟨?_, trivial⟩
      obtain ⟨c, hc, hdone⟩ := guarded_ok hdone
      cases hrow : installRow db.access tenant id with
      | none =>
        rw [hrow] at hdone
        cases hdone
        exact write_nothing hs.access
      | some row =>
        rw [hrow] at hdone
        cases hdone
        obtain ⟨hmem, -, htenant⟩ := installRow_spec hrow
        apply write_installs hs.access
        · exact others_delete_key hs.access.installIds hmem (beq_iff_eq.mpr htenant)
        · exact hs.access.installIds.sublist (List.filter_sublist.map _)
        · exact fun i hi ↦ .inl ((List.filter_sublist.map _).subset hi)
        · exact hs.access.installsHomed.mem fun r hr ↦ List.mem_of_mem_filter hr
  · intro was db hs
    split
    · exact .pure hs _
    · apply IsApart.bind (apart_clearConnectionCredential hs id)
      exact fun _ _ hs ↦ .pure hs _

theorem apart_recoverInstall (hs : Sound source db) (id : Nat) (now : Time) :
    IsApart source tenant (recoverInstall tenant id now) db := by
  apply IsApart.bind
  · apply IsApart.readsAccess (f := fun t ↦ .ok (installRow t tenant id)) hs
    rw [installRow_accessOf]
  · intro row db hs
    split
    · exact apart_patchInstall hs id _ _ _
    · exact .pure hs _

theorem apart_seedGitConfigFromEnv (hs : Sound source db) (settings : GitSettings) :
    IsApart source tenant (seedGitConfigFromEnv tenant settings) db := by
  apply IsApart.bind (.readsGit hs (by rw [connectionsOf_of]))
  intro stored db hs
  dsimp only
  split
  · exact .pure hs _
  · apply IsApart.bind (apart_setGitConfig hs _)
    intro _ db hs
    apply IsApart.readsAccess (f := fun t ↦
      ((Git.gitTargetFor t tenant settings none none).mapError .git).map some) hs
    rw [gitTargetFor_accessOf hs.access.tenanted]

/-- The guarded read of a connection promises that it is there. -/
theorem apart_guard (hs : Sound source db) (id : Nat) :
    Apart (division tenant) (Sound source) (fun _ ↦ HasConnection tenant id)
      (readsGit fun g ↦ connection g tenant id) db := by
  apply apart_readsGit hs (connection_of db.access.git tenant id)
  exact fun c hc ↦ ⟨c, connectionOrNone_of_connection hc⟩

variable {A : Aead UInt8}

theorem apart_setConnectionCredential (hs : Sound source db) (id : Nat) (secret : String)
    (keyring : Option KeyRing) (fresh : Randomness) (now : Time) :
    IsApart source tenant (setConnectionCredential A tenant id secret keyring fresh now) db := by
  apply Apart.bind (apart_guard hs id)
  intro _ db hs hhas
  dsimp only
  split
  · exact .raise hs
  · cases keyring with
    | none => exact .raise hs
    | some ring =>
      apply Apart.bind (apart_storeSealed hs hhas _ now)
      intro _ db hs _
      apply IsApart.bind (apart_patchConnection hs id
        (f := fun c ↦ { c with credentialRejected := none }) fun _ ↦ ⟨rfl, rfl⟩)
      exact fun _ _ hs ↦ .pure hs _

theorem apart_setGitCredential (hs : Sound source db) (secret : String) (settings : GitSettings)
    (fresh : Randomness) (now : Time) :
    IsApart source tenant (setGitCredential A tenant secret settings fresh now) db := by
  apply IsApart.bind (apart_defaultConnection hs settings)
  exact fun c _ hs ↦ apart_setConnectionCredential hs c.id secret _ fresh now

theorem apart_clearGitCredential (hs : Sound source db) :
    IsApart source tenant (clearGitCredential tenant) db := by
  apply IsApart.bind
  · apply IsApart.readsGit hs
    rw [defaultRepository_of hs.access.tenanted, connectionsOf_of]
  · intro c db hs
    cases c with
    | none => exact .pure hs _
    | some c => exact apart_clearConnectionCredential hs c.id

/-- What the crypto layer does touches no row. -/
private theorem apart_sealing {α : Type} {Q : Database → Prop} (hs : Sound source db) (hQ : Q db)
    (x : Except CredentialError α) :
    Apart (division tenant) (Sound source) (fun _ ↦ Q) (sealing x) db :=
  Apart.reads hs rfl fun _ _ ↦ hQ

/-- A second layer that is resealed is stored; one that is not is left. -/
private theorem apart_resealing (hs : Sound source db) {id : Nat}
    (hhas : HasConnection tenant id db)
    {store : Option Sealed → StoreCall Unit} {now : Time} (hnone : store none = pure ())
    (hsome : ∀ record, store (some record) = storeSealed tenant id record now)
    (x : Except CredentialError (Option Sealed)) :
    IsApart source tenant (sealing x >>= store) db := by
  apply Apart.bind (apart_sealing hs hhas _)
  intro resealed db hs hhas
  cases resealed with
  | none =>
    rw [hnone]
    exact .pure hs trivial
  | some record =>
    rw [hsome]
    exact (apart_storeSealed hs hhas record now).mono fun _ _ _ _ ↦ trivial

theorem apart_migrateSealed (hs : Sound source db) {id : Nat} (hhas : HasConnection tenant id db)
    (row : Sealed) (ring : KeyRing) (wrapNonce : Nonce) (fresh : Randomness) (now : Time) :
    IsApart source tenant (migrateSealed A tenant id row ring wrapNonce fresh now) db := by
  apply Apart.catching
  · apply Apart.bind (apart_sealing hs hhas _)
    intro rewrapped db hs hhas
    cases rewrapped with
    | none => exact apart_resealing hs hhas rfl (fun _ ↦ rfl) _
    | some rewrapped =>
      apply Apart.bind (apart_storeSealed hs hhas rewrapped now)
      exact fun _ db hs hhas ↦ apart_resealing hs hhas rfl (fun _ ↦ rfl) _
  · intro e db hs
    cases e with
    | credential e =>
      dsimp only
      split
      · exact .pure hs trivial
      · exact .raise hs
    | _ => exact .raise hs

theorem apart_fetchCredential (hs : Sound source db) (id : Nat) (keyring : Option KeyRing)
    (wrapNonce : Nonce) (fresh : Randomness) (now : Time) :
    IsApart source tenant (fetchCredential A tenant id keyring wrapNonce fresh now) db := by
  have hread : Apart (division tenant) (Sound source)
      (fun row db ↦ row.isSome → HasConnection tenant id db)
      (.reads fun db ↦ .ok (credentialRow db.access tenant id) : StoreCall _) db := by
    apply Apart.reads hs
    · exact congrArg Except.ok (credentialRow_accessOf db.access tenant id)
    · intro row hrow hsome
      obtain ⟨found, hfound⟩ := Option.isSome_iff_exists.mp hsome
      exact hasConnection_of_row hs ((Except.ok.inj hrow).trans hfound)
  apply Apart.bind hread
  intro row db hs hhas
  split
  · rename_i row ring
    cases row.record.unseal A tenant id ring with
    | error e =>
      dsimp only
      split
      · exact .pure hs trivial
      · exact .raise hs
    | ok secret =>
      apply IsApart.bind (apart_migrateSealed hs (hhas rfl) row.record ring wrapNonce fresh now)
      exact fun _ _ hs ↦ .pure hs _
  · exact .pure hs trivial

end CFactory.Tenants
