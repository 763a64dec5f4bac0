import CFactory.Base.Rows
import CFactory.Tenants.Database

/-!
# The database as one tenant sees it

`cards.py:753–785`. The rows of a tenant, the rows of the others, and what every operation keeps
true of the keys by which rows are found without their tenant. A transaction on the tables
behind the hosts is apart from the others if it is so on those tables.
-/

namespace CFactory.Tenants

open CFactory.Base CFactory.Model CFactory.Cards CFactory.Git CFactory.Import

/-! ## The division -/

/-- The rows of a tenant. -/
def accessOf (t : AccessTables) (tenant : String) : AccessTables where
  git := t.git.of tenant
  credentials := t.credentials.filter (·.tenantId == tenant)
  installs := t.installs.filter (·.tenantId == tenant)
  pending := t.pending.filter (·.tenantId == tenant)

/-- The rows of the others. -/
def accessOthers (t : AccessTables) (tenant : String) : AccessTables where
  git := t.git.others tenant
  credentials := others (·.tenantId == tenant) t.credentials
  installs := others (·.tenantId == tenant) t.installs
  pending := others (·.tenantId == tenant) t.pending

/-- What a tenant sees: its rows, and the keys its next rows take. -/
def Database.of (db : Database) (tenant : String) : Database where
  cards := db.cards.filter (·.card.tenantId == tenant)
  comments := db.comments.filter (·.tenantId == tenant)
  access := accessOf db.access tenant
  states := db.states.filter (·.tenantId == tenant)
  keys := db.keys

/-- The rows of the others. -/
def Database.others (db : Database) (tenant : String) : Database where
  cards := Base.others (·.card.tenantId == tenant) db.cards
  comments := Base.others (·.tenantId == tenant) db.comments
  access := accessOthers db.access tenant
  states := Base.others (·.tenantId == tenant) db.states

/-- The database divided by tenant. -/
def division (tenant : String) : Division Database Database where
  own := (·.of tenant)
  rest := (·.others tenant)

/-! ## What every operation keeps -/

/-- The keys in use lie below the next one. -/
def Below (next : Nat) (ids : List Nat) : Prop := ∀ id ∈ ids, id < next

/-- Every connection id is that of a connection of the row's tenant. -/
def Homed {α : Type} (g : GitTables) (tenantId : α → String) (connectionId : α → Option Nat)
    (rows : List α) : Prop :=
  ∀ r ∈ rows, ∀ id, connectionId r = some id →
    ∃ c ∈ g.connections, c.id = id ∧ c.tenantId = tenantId r

/-- The tables behind the hosts are in order under the next keys. -/
structure AccessSound (source : StateSource) (k : Keys) (t : AccessTables) : Prop where
  tenanted : Tenanted t.git
  positive : 0 < k.git.connection ∧ 0 < k.git.repository
  connectionKeys : Below k.git.connection (t.git.connections.map (·.id))
  repositoryKeys : Below k.git.repository (t.git.repositories.map (·.id))
  credentialIds : (t.credentials.map (·.id)).Nodup
  credentialKeys : Below k.credential (t.credentials.map (·.id))
  installIds : (t.installs.map (·.id)).Nodup
  installKeys : Below k.install (t.installs.map (·.id))
  pendingKeys : Below k.pending (t.pending.map (·.id))
  credentialsHomed : Homed t.git GitCredentialRow.tenantId (·.connectionId) t.credentials
  installsHomed : Homed t.git GitInstallRow.tenantId (some ·.connectionId) t.installs
  pendingHomed : Homed t.git InstallStateRow.tenantId (some ·.connectionId) t.pending
  /-- No pending install has the digest of a token that is still to be drawn. -/
  undrawn : ∀ r ∈ t.pending, ∀ n, k.pending ≤ n → r.stateHash ≠ source.digest (source.token n)

/-- The database is in order. -/
structure Sound (source : StateSource) (db : Database) : Prop where
  access : AccessSound source db.keys db.access
  cardIds : (db.cards.map CardRow.id).Nodup
  cardKeys : Below db.keys.card (db.cards.map CardRow.id)

theorem sound_empty (source : StateSource) : Sound source {} where
  access :=
    { tenanted := tenanted_empty
      positive := ⟨Nat.one_pos, Nat.one_pos⟩
      connectionKeys := nofun
      repositoryKeys := nofun
      credentialIds := List.nodup_nil
      credentialKeys := nofun
      installIds := List.nodup_nil
      installKeys := nofun
      pendingKeys := nofun
      credentialsHomed := nofun
      installsHomed := nofun
      pendingHomed := nofun
      undrawn := nofun }
  cardIds := List.nodup_nil
  cardKeys := nofun

/-! ## Keys -/

/-- The new keys of a table are the old ones and the next one. -/
def NextOnly (next : Nat) (ids ids' : List Nat) : Prop := ∀ id ∈ ids', id ∈ ids ∨ id = next

theorem le_advance (next : Nat) (ids : List Nat) : next ≤ advance next ids := by
  rw [advance]
  split <;> omega

/-- The keys after a transaction lie below the next one then. -/
theorem Below.advance {next : Nat} {ids ids' : List Nat} (h : Below next ids)
    (hnew : NextOnly next ids ids') : Below (advance next ids') ids' := by
  intro id hid
  cases hnew id hid with
  | inl hold => exact Nat.lt_of_lt_of_le (h id hold) (le_advance next ids')
  | inr heq =>
    rw [Tenants.advance, if_pos (heq ▸ hid), heq]
    exact Nat.lt_succ_self next

/-- Whether the next key was taken shows in the tenant's rows, where the rows of the others
are as they were. -/
theorem advance_own {α : Type} {next : Nat} {id : α → Nat} {p : α → Bool} {l l' : List α}
    (h : Below next (l.map id)) (hothers : others p l' = others p l) :
    advance next ((l'.filter p).map id) = advance next (l'.map id) := by
  have hiff : next ∈ (l'.filter p).map id ↔ next ∈ l'.map id := by
    rw [List.mem_map, List.mem_map]
    constructor
    · rintro ⟨a, ha, hid⟩
      exact ⟨a, List.mem_of_mem_filter ha, hid⟩
    · rintro ⟨a, ha, hid⟩
      refine ⟨a, List.mem_filter.mpr ⟨ha, ?_⟩, hid⟩
      by_contra hnot
      have hother : a ∈ others p l := by
        rw [← hothers]
        exact List.mem_filter.mpr ⟨ha, by simpa using hnot⟩
      have hlt := h (id a) (List.mem_map_of_mem (List.mem_of_mem_filter hother))
      omega
  rw [advance, advance]
  simp only [hiff]

/-- A row with the next key has a key of its own. -/
theorem nodup_append_next {α : Type} {id : α → Nat} {next : Nat} {rows : List α} {row : α}
    (hids : (rows.map id).Nodup) (hbelow : Below next (rows.map id)) (hrow : id row = next) :
    ((rows ++ [row]).map id).Nodup := by
  rw [List.map_append]
  apply hids.append (List.nodup_singleton _)
  apply List.disjoint_singleton.mpr
  intro hmem
  have hlt := hbelow _ hmem
  omega

theorem nextOnly_append {α : Type} {id : α → Nat} {next : Nat} (rows : List α) {row : α}
    (hrow : id row = next) : NextOnly next (rows.map id) ((rows ++ [row]).map id) := by
  intro i hi
  rw [List.map_append, List.mem_append] at hi
  cases hi with
  | inl hold => exact .inl hold
  | inr hnew => exact .inr ((List.mem_singleton.mp hnew).trans hrow)

/-! ## Transactions -/

/-- A transaction of a tenant keeps the tables in order and the rows of the others, and new
rows take the next keys. -/
structure AccessWrite (source : StateSource) (tenant : String) (k : Keys) (t t' : AccessTables) :
    Prop where
  others : accessOthers t' tenant = accessOthers t tenant
  sound : AccessSound source (k.after t') t'

variable {source : StateSource} {tenant : String} {k : Keys} {t t' : AccessTables}

/-- The next keys are those the tenant sees. -/
theorem after_accessOf (hs : AccessSound source k t)
    (hothers : accessOthers t' tenant = accessOthers t tenant) :
    k.after (accessOf t' tenant) = k.after t' := by
  have hgit := congrArg AccessTables.git hothers
  rw [Keys.after, Keys.after]
  congr 1
  · congr 1
    · exact advance_own hs.connectionKeys (congrArg GitTables.connections hgit)
    · exact advance_own hs.repositoryKeys (congrArg GitTables.repositories hgit)
  · exact advance_own hs.credentialKeys (congrArg AccessTables.credentials hothers)
  · exact advance_own hs.installKeys (congrArg AccessTables.installs hothers)
  · exact advance_own hs.pendingKeys (congrArg AccessTables.pending hothers)

/-- A transaction that is apart on the tables behind the hosts is apart. -/
theorem apart_onAccess {α : Type} {Q : α → Database → Prop} {db : Database}
    {f : Keys → AccessTables → Except StoreError (α × AccessTables)} (hs : Sound source db)
    (hown : f db.keys (accessOf db.access tenant) =
      (f db.keys db.access).map fun done ↦ (done.1, accessOf done.2 tenant))
    (hok : ∀ a t, f db.keys db.access = .ok (a, t) →
      AccessWrite source tenant db.keys db.access t ∧
        Q a { db with access := t, keys := db.keys.after t }) :
    Apart (division tenant) (Sound source) Q (onAccess f) db := by
  apply Apart.transact hs
  · show (f db.keys (accessOf db.access tenant)).map _ = ((f db.keys db.access).map _).map _
    rw [hown]
    cases hf : f db.keys db.access with
    | error e => rfl
    | ok done =>
      obtain ⟨a, t⟩ := done
      have hkeys := after_accessOf hs.access (hok a t hf).1.others
      show Except.ok _ = Except.ok _
      dsimp only [division, Database.of]
      rw [hkeys]
  · intro a db' hdone
    cases hf : f db.keys db.access with
    | error e => rw [hf] at hdone; cases hdone
    | ok done =>
      rw [hf] at hdone
      cases hdone
      obtain ⟨hwrite, hQ⟩ := hok done.1 done.2 hf
      refine ⟨⟨hwrite.sound, hs.cardIds, hs.cardKeys⟩, ?_, hQ⟩
      dsimp only [division, Database.others]
      rw [hwrite.others]

/-- A read of the configuration tables is apart if it answers from the tenant's rows. -/
theorem apart_readsGit {α : Type} {Q : α → Database → Prop} {db : Database}
    {f : GitTables → Except GitError α} (hs : Sound source db)
    (hown : f (db.access.git.of tenant) = f db.access.git)
    (hQ : ∀ a, f db.access.git = .ok a → Q a db) :
    Apart (division tenant) (Sound source) Q (readsGit f) db := by
  apply Apart.reads hs
  · show (f (db.access.git.of tenant)).mapError _ = _
    rw [hown]
  · intro a ha
    cases hf : f db.access.git with
    | error e => rw [hf] at ha; cases ha
    | ok b => rw [hf] at ha; cases ha; exact hQ a hf

/-! ## Transactions on the configuration tables -/

theorem NextOnly.refl (next : Nat) (ids : List Nat) : NextOnly next ids ids := fun _ h ↦ .inl h

/-- What a transaction must leave for the tables to be in order under the keys after it. -/
theorem AccessSound.after (hs : AccessSound source k t) (htenanted : Tenanted t'.git)
    (hconnections : NextOnly k.git.connection (t.git.connections.map (·.id))
      (t'.git.connections.map (·.id)))
    (hrepositories : NextOnly k.git.repository (t.git.repositories.map (·.id))
      (t'.git.repositories.map (·.id)))
    (hcredentials : (t'.credentials.map (·.id)).Nodup ∧
      NextOnly k.credential (t.credentials.map (·.id)) (t'.credentials.map (·.id)) ∧
        Homed t'.git GitCredentialRow.tenantId (·.connectionId) t'.credentials)
    (hinstalls : (t'.installs.map (·.id)).Nodup ∧
      NextOnly k.install (t.installs.map (·.id)) (t'.installs.map (·.id)) ∧
        Homed t'.git GitInstallRow.tenantId (some ·.connectionId) t'.installs)
    (hpending : NextOnly k.pending (t.pending.map (·.id)) (t'.pending.map (·.id)) ∧
      Homed t'.git InstallStateRow.tenantId (some ·.connectionId) t'.pending)
    (hundrawn : ∀ r ∈ t'.pending, ∀ n, advance k.pending (t'.pending.map (·.id)) ≤ n →
      r.stateHash ≠ source.digest (source.token n)) :
    AccessSound source (k.after t') t' where
  tenanted := htenanted
  positive :=
    ⟨Nat.lt_of_lt_of_le hs.positive.1 (le_advance _ _),
      Nat.lt_of_lt_of_le hs.positive.2 (le_advance _ _)⟩
  connectionKeys := hs.connectionKeys.advance hconnections
  repositoryKeys := hs.repositoryKeys.advance hrepositories
  credentialIds := hcredentials.1
  credentialKeys := hs.credentialKeys.advance hcredentials.2.1
  installIds := hinstalls.1
  installKeys := hs.installKeys.advance hinstalls.2.1
  pendingKeys := hs.pendingKeys.advance hpending.1
  credentialsHomed := hcredentials.2.2
  installsHomed := hinstalls.2.2
  pendingHomed := hpending.2
  undrawn := hundrawn

/-- Pending installs that were there have the digest of no token that is still to be drawn. -/
theorem AccessSound.undrawn_after (hs : AccessSound source k t) {r : InstallStateRow}
    (hr : r ∈ t.pending) {ids : List Nat} {n : Nat} (hn : advance k.pending ids ≤ n) :
    r.stateHash ≠ source.digest (source.token n) :=
  hs.undrawn r hr n (Nat.le_trans (le_advance _ _) hn)

/-- Connections that stay keep their rows at home. -/
theorem Homed.keeps {α : Type} {g g' : GitTables} {tenantId : α → String}
    {connectionId : α → Option Nat} {rows : List α} (h : Homed g tenantId connectionId rows)
    (hkept : ∀ r ∈ rows, ∀ c ∈ g.connections, connectionId r = some c.id →
      ∃ q ∈ g'.connections, q.id = c.id ∧ q.tenantId = c.tenantId) :
    Homed g' tenantId connectionId rows := by
  intro r hr id hid
  obtain ⟨c, hc, hcid, htenant⟩ := h r hr id hid
  obtain ⟨q, hq, hqid, hqtenant⟩ := hkept r hr c hc (by rw [hid, hcid])
  exact ⟨q, hq, hqid.trans hcid, hqtenant.trans htenant⟩

theorem Homed.mem {α : Type} {g : GitTables} {tenantId : α → String}
    {connectionId : α → Option Nat} {rows rows' : List α} (h : Homed g tenantId connectionId rows)
    (hrows : ∀ r ∈ rows', r ∈ rows) : Homed g tenantId connectionId rows' :=
  fun r hr ↦ h r (hrows r hr)

/-- The keys of a write of the configuration tables. -/
private theorem nextOnly_connections {gone : Option Nat} {g g' : GitTables}
    (h : TenantWrite tenant k.git gone g g') :
    NextOnly k.git.connection (g.connections.map (·.id)) (g'.connections.map (·.id)) := by
  intro id hid
  obtain ⟨c, hc, rfl⟩ := List.mem_map.mp hid
  cases h.connectionKeys c hc with
  | inr hnew => exact .inr hnew
  | inl hold =>
    obtain ⟨q, hq, hqid⟩ := hold
    exact .inl (List.mem_map.mpr ⟨q, hq, hqid⟩)

private theorem nextOnly_repositories {gone : Option Nat} {g g' : GitTables}
    (h : TenantWrite tenant k.git gone g g') :
    NextOnly k.git.repository (g.repositories.map (·.id)) (g'.repositories.map (·.id)) := by
  intro id hid
  obtain ⟨r, hr, rfl⟩ := List.mem_map.mp hid
  cases h.repositoryKeys r hr with
  | inr hnew => exact .inr hnew
  | inl hold =>
    obtain ⟨q, hq, hqid⟩ := hold
    exact .inl (List.mem_map.mpr ⟨q, hq, hqid⟩)

/-- A write of the configuration tables that deletes no connection. -/
theorem AccessWrite.git {g : GitTables} (hs : AccessSound source k t)
    (h : TenantWrite tenant k.git none t.git g) :
    AccessWrite source tenant k t { t with git := g } where
  others := by
    rw [accessOthers, accessOthers, h.others]
  sound := by
    have hkept : ∀ c ∈ t.git.connections,
        ∃ q ∈ g.connections, q.id = c.id ∧ q.tenantId = c.tenantId :=
      fun c hc ↦ h.homes c hc nofun
    apply hs.after h.tenanted (nextOnly_connections h) (nextOnly_repositories h)
    · exact ⟨hs.credentialIds, .refl _ _,
        hs.credentialsHomed.keeps fun _ _ c hc _ ↦ hkept c hc⟩
    · exact ⟨hs.installIds, .refl _ _, hs.installsHomed.keeps fun _ _ c hc _ ↦ hkept c hc⟩
    · exact ⟨.refl _ _, hs.pendingHomed.keeps fun _ _ c hc _ ↦ hkept c hc⟩
    · exact fun r hr n hn ↦ hs.undrawn_after hr hn

/-- A connection deleted with everything that hangs off it. -/
theorem AccessWrite.deleteConnection {g : GitTables} {id : Nat} (hs : AccessSound source k t)
    {c : GitConnectionRow} (hc : connectionOrNone t.git tenant id = some c)
    (h : TenantWrite tenant k.git (some id) t.git g) :
    AccessWrite source tenant k t
      { git := g
        credentials := t.credentials.filter (·.connectionId ≠ some id)
        installs := t.installs.filter (·.connectionId ≠ id)
        pending := t.pending.filter (·.connectionId ≠ id) } where
  others := by
    have hown : ∀ {α : Type} {tenantId : α → String} {connectionId : α → Option Nat}
        {rows : List α}, Homed t.git tenantId connectionId rows →
          Base.others (tenantId · == tenant) (rows.filter fun r ↦ connectionId r ≠ some id) =
            Base.others (tenantId · == tenant) rows := by
      intro α tenantId connectionId rows hhomed
      apply others_delete
      intro r hr hnot
      apply decide_eq_true
      intro hid
      obtain ⟨q, hq, hqid, hqtenant⟩ := hhomed r hr id hid
      rw [← hqtenant, hs.tenanted.tenant_of_id hc hq hqid, beq_self_eq_true] at hnot
      cases hnot
    have hinstalls := hown hs.installsHomed
    have hpending := hown hs.pendingHomed
    simp only [ne_eq, Option.some.injEq] at hinstalls hpending
    rw [accessOthers, accessOthers, AccessTables.mk.injEq]
    exact ⟨h.others, hown hs.credentialsHomed, hinstalls, hpending⟩
  sound := by
    have hkept : ∀ c ∈ t.git.connections, c.id ≠ id →
        ∃ q ∈ g.connections, q.id = c.id ∧ q.tenantId = c.tenantId :=
      fun c hc hne ↦ h.homes c hc fun hgone ↦ hne (Option.some.inj hgone).symm
    apply hs.after h.tenanted (nextOnly_connections h) (nextOnly_repositories h)
    · refine ⟨hs.credentialIds.sublist (List.filter_sublist.map _), ?_, ?_⟩
      · exact fun i hi ↦ .inl ((List.filter_sublist.map _).subset hi)
      · apply (hs.credentialsHomed.mem fun r hr ↦ List.mem_of_mem_filter hr).keeps
        intro r hr c hc hid
        apply hkept c hc
        intro heq
        rw [← heq, ← hid] at hr
        simp at hr
    · refine ⟨hs.installIds.sublist (List.filter_sublist.map _), ?_, ?_⟩
      · exact fun i hi ↦ .inl ((List.filter_sublist.map _).subset hi)
      · apply (hs.installsHomed.mem fun r hr ↦ List.mem_of_mem_filter hr).keeps
        intro r hr c hc hid
        apply hkept c hc
        intro heq
        rw [← heq, ← Option.some.inj hid] at hr
        simp at hr
    · refine ⟨fun i hi ↦ .inl ((List.filter_sublist.map _).subset hi), ?_⟩
      apply (hs.pendingHomed.mem fun r hr ↦ List.mem_of_mem_filter hr).keeps
      intro r hr c hc hid
      apply hkept c hc
      intro heq
      rw [← heq, ← Option.some.inj hid] at hr
      simp at hr
    · exact fun r hr n hn ↦ hs.undrawn_after (List.mem_of_mem_filter hr) hn

/-- The sequences give the next keys, to the tenant alone as to all. -/
theorem AccessSound.nextIds (hs : AccessSound source k t) (tenant : String) :
    (nextId (t.git.connections.map (·.id))
        (skippedTo (t.git.connections.map (·.id)) k.git.connection) = k.git.connection ∧
      nextId ((t.git.of tenant).connections.map (·.id))
        (skippedTo ((t.git.of tenant).connections.map (·.id)) k.git.connection) =
          k.git.connection) ∧
      nextId (t.git.repositories.map (·.id))
        (skippedTo (t.git.repositories.map (·.id)) k.git.repository) = k.git.repository ∧
      nextId ((t.git.of tenant).repositories.map (·.id))
        (skippedTo ((t.git.of tenant).repositories.map (·.id)) k.git.repository) =
          k.git.repository :=
  ⟨⟨nextId_skippedTo hs.positive.1 hs.connectionKeys,
      nextId_skippedTo hs.positive.1 fun id hid ↦
        hs.connectionKeys id ((List.filter_sublist.map _).subset hid)⟩,
    nextId_skippedTo hs.positive.2 hs.repositoryKeys,
    nextId_skippedTo hs.positive.2 fun id hid ↦
      hs.repositoryKeys id ((List.filter_sublist.map _).subset hid)⟩

/-- A transaction on the configuration tables is apart if it does to the tenant's rows what it
would do to them alone, and is a write of the tenant. -/
theorem apart_onGit {α : Type} {Q : α → Database → Prop} {db : Database}
    {f : Nat → Nat → GitTables → Except GitError (α × GitTables)} (hs : Sound source db)
    (hown : ∀ s s' r r',
      nextId ((db.access.git.of tenant).connections.map (·.id)) s' =
        nextId (db.access.git.connections.map (·.id)) s →
      nextId ((db.access.git.of tenant).repositories.map (·.id)) r' =
        nextId (db.access.git.repositories.map (·.id)) r →
      f s' r' (db.access.git.of tenant) =
        (f s r db.access.git).map fun done ↦ (done.1, done.2.of tenant))
    (hwrite : ∀ s r a g, nextId (db.access.git.connections.map (·.id)) s = db.keys.git.connection →
      nextId (db.access.git.repositories.map (·.id)) r = db.keys.git.repository →
      f s r db.access.git = .ok (a, g) → TenantWrite tenant db.keys.git none db.access.git g)
    (hQ : ∀ a db', Sound source db' → Q a db') :
    Apart (division tenant) (Sound source) Q (onGit f) db := by
  obtain ⟨⟨hconnection, hconnection'⟩, hrepository, hrepository'⟩ := hs.access.nextIds tenant
  have hsame := hown _ _ _ _ (hconnection'.trans hconnection.symm)
    (hrepository'.trans hrepository.symm)
  refine Apart.mono (R := fun _ _ ↦ True) ?_ fun a db' hs' _ ↦ hQ a db' hs'
  apply apart_onAccess hs
  · show ((f _ _ (db.access.git.of tenant)).map _).mapError _ = _
    dsimp only [accessOf]
    rw [hsame]
    cases f _ _ db.access.git with
    | error e => rfl
    | ok done => rfl
  · intro a t hdone
    refine ⟨?_, trivial⟩
    cases hf : f (skippedTo (db.access.git.connections.map (·.id)) db.keys.git.connection)
      (skippedTo (db.access.git.repositories.map (·.id)) db.keys.git.repository)
        db.access.git with
    | error e => rw [hf] at hdone; cases hdone
    | ok done =>
      rw [hf] at hdone
      cases hdone
      exact .git hs.access (hwrite _ _ done.1 done.2 hconnection hrepository hf)

end CFactory.Tenants
