import CFactory.Base.Runs
import CFactory.Tenants.InstallFlow

/-!
# Where installs come from

`git_config_ops.py:478–637`, `cards.py:2037–2137`. Every recorded install is traced to the tenant
that began it and to a redirect that a provider confirmed, in every order of what tenants and
callbacks do. A callback touches the rows of one tenant.
-/

namespace CFactory.Tenants

open CFactory.Base CFactory.Model CFactory.Git CFactory.Cards
open CFactory.Credentials (plainKey plainNonce)

/-! ## What a callback has established -/

/-- The row that a begun install leaves pending. -/
structure Start.Opens (source : StateSource) (s : Start) (row : InstallStateRow) : Prop where
  state : row.stateHash = source.digest s.state
  tenant : row.tenantId = s.tenant
  connection : row.connectionId = s.connectionId
  provider : row.provider = s.provider
  redirectUri : row.redirectUri = s.redirectUri
  expires : row.expiresAt = some (s.startedAt + stateTtl)

/-- The row is that of an install that was begun. -/
def Opened (source : StateSource) (events : List FlowEvent) (row : InstallStateRow) : Prop :=
  ∃ s, .started s ∈ events ∧ s.Opens source row

/-- What is confirmed is what the redirect claims, for the provider and the redirect URI that a
row names. -/
def Confirmed.Answers (query : CallbackQuery) (row : InstallStateRow) : Confirmed → Prop
  | .installation _ id _ => row.provider = .github ∧ id = stripped query.installationId ∧
      id ≠ "" ∧ id.toList.all isDigitChar = true
  | .exchange _ code redirectUri _ => row.provider = .gitlab ∧ code = stripped query.code ∧
      code ≠ "" ∧ redirectUri = row.redirectUri

section

variable (source : StateSource) (query : CallbackQuery) (events : List FlowEvent)

/-- The state that was presented is that of the row. -/
def Presents (row : InstallStateRow) : Prop :=
  Opened source events row ∧ row.stateHash = source.digest query.state

/-- It was claimed in time. -/
def Claims (c : Claimed) : Prop :=
  Presents source query events c.row ∧ ∃ u, c.row.expiresAt = some u ∧ c.claimedAt ≤ u

/-- The provider has confirmed the redirect at a host that was checked. -/
structure Confirms (c : Claimed) (how : Confirmed) : Prop where
  claims : Claims source query events c
  checked : .checked how.baseUrl ∈ events
  confirmed : .confirmed how ∈ events
  answers : how.Answers query c.row

/-- What a callback that is so far has established. -/
def Callback.Follows : Callback → Prop
  | .selected row => Presents source query events row
  | .claimed c => Claims source query events c
  | .addressed c baseUrl => Claims source query events c ∧ .checked baseUrl ∈ events
  | .confirmed c how => Confirms source query events c how
  | .sealed c how => Confirms source query events c how
  | .completed c how => Confirms source query events c how
  | .called => True
  | .cancelled => True
  | .refused _ => True

end

/-- The install that a callback records. -/
def Claimed.records (c : Claimed) (how : Confirmed) : Installed :=
  ⟨c.row.tenantId, c.row.connectionId, c.row.provider, how.installationId, how.account⟩

/-- The tenant of the row that a callback works on. -/
def Callback.tenant : Callback → Option String
  | .selected row => some row.tenantId
  | .claimed c => some c.row.tenantId
  | .addressed c _ => some c.row.tenantId
  | .confirmed c _ => some c.row.tenantId
  | .sealed c _ => some c.row.tenantId
  | .completed c _ => some c.row.tenantId
  | .called => none
  | .cancelled => none
  | .refused _ => none

/-- The key of the row was drawn, and no other row is pending under it. -/
def Drawn (db : Database) (row : InstallStateRow) : Prop :=
  row.id < db.keys.pending ∧ ∀ r ∈ db.access.pending, r.id = row.id → r = row

/-- The tables are in order, every pending row was begun, every callback has established what it
has to, and every install was recorded by a callback that is completed. -/
structure Bound {ι : Type} (source : StateSource) (query : ι → CallbackQuery) (w : InstallFlow ι) :
    Prop where
  sound : Sound source w.db
  pending : ∀ row ∈ w.db.access.pending, Opened source w.events row ∧ Drawn w.db row
  selected : ∀ i row, w.callback i = .selected row → Drawn w.db row
  callbacks : ∀ i, (w.callback i).Follows source (query i) w.events
  installs : ∀ r ∈ w.db.access.installs, ∃ i c how, w.callback i = .completed c how ∧
    installed r = c.records how

section

variable {A : Aead UInt8} {source : StateSource} {query : CallbackQuery} {events : List FlowEvent}
  {x : CallbackInputs} {db : Database}

/-! ## What stays -/

theorem Opened.append {row : InstallStateRow} (h : Opened source events row)
    (more : List FlowEvent) : Opened source (events ++ more) row := by
  obtain ⟨s, hs, hopens⟩ := h
  exact ⟨s, List.mem_append_left _ hs, hopens⟩

theorem Claims.append {c : Claimed} (h : Claims source query events c) (more : List FlowEvent) :
    Claims source query (events ++ more) c :=
  ⟨⟨h.1.1.append more, h.1.2⟩, h.2⟩

theorem Confirms.append {c : Claimed} {how : Confirmed} (h : Confirms source query events c how)
    (more : List FlowEvent) : Confirms source query (events ++ more) c how :=
  ⟨h.claims.append more, List.mem_append_left _ h.checked, List.mem_append_left _ h.confirmed,
    h.answers⟩

/-- What was established stays so, whatever else happens. -/
theorem Callback.Follows.append {k : Callback} (h : k.Follows source query events)
    (more : List FlowEvent) : k.Follows source query (events ++ more) := by
  cases k with
  | selected row => exact ⟨Opened.append h.1 more, h.2⟩
  | claimed c => exact Claims.append h more
  | addressed c baseUrl => exact ⟨h.1.append more, List.mem_append_left _ h.2⟩
  | confirmed c how => exact Confirms.append h more
  | sealed c how => exact Confirms.append h more
  | completed c how => exact Confirms.append h more
  | called => trivial
  | cancelled => trivial
  | refused why => trivial

/-! ## Beginning -/

/-- An operation of the store that raises within the flow. -/
theorem ofStore_error {α : Type} {f : StoreCall α} {db' : Database} {e : StoreError}
    (h : f db = (.error e, db')) : ofStore f db = (.error (.store e), db') := by
  simp only [ofStore, Call.mapError, h, Except.mapError]

/-- One that returns. -/
theorem ofStore_ok {α : Type} {f : StoreCall α} {db' : Database} {a : α}
    (h : f db = (.ok a, db')) : ofStore f db = (.ok a, db') := by
  simp only [ofStore, Call.mapError, h, Except.mapError]

/-- A state is handed out with the row it is stored by, or nothing is written. -/
theorem startInstall_cases {tenant : String} {id : Nat} {c : GitConnectionRow}
    (hc : connection db.access.git tenant id = .ok c) (redirectUri : String) (now : Time) :
    (∃ e, startInstall source tenant id redirectUri now db = (.error e, db)) ∨
      ∃ state row, (startInstall source tenant id redirectUri now db).1 = .ok state ∧
        row.id = db.keys.pending ∧
        (startInstall source tenant id redirectUri now db).2.access =
          { db.access with pending := db.access.pending ++ [row] } ∧
        Start.Opens source ⟨tenant, id, c.provider, redirectUri, state, now⟩ row := by
  rcases onAccess_cases _ db with ⟨e, hraised⟩ | ⟨state, t, hrun, hdone⟩
  · exact .inl ⟨e, hraised⟩
  · right
    rw [startInstall, hdone]
    rw [hc] at hrun
    dsimp only [Except.mapError, Except.bind] at hrun
    split at hrun
    · cases hrun
    · cases hrun
      exact ⟨_, _, rfl, rfl, rfl, ⟨rfl, rfl, (connection_ok hc).2.1, rfl, rfl, rfl⟩⟩

/-- An install that cannot be begun leaves the tables; one that is begun adds its row. -/
theorem startGitInstall_cases (source : StateSource) (tenant : String)
    (settings : InstallSettings) (id : Nat) (now : Time) (db : Database) :
    (∃ e, startGitInstall source tenant settings id now db = (.error e, db)) ∨
      ∃ s row, startGitInstall source tenant settings id now db =
          (.ok s, (startInstall source tenant id s.redirectUri now db).2) ∧
        row.id = db.keys.pending ∧
        (startInstall source tenant id s.redirectUri now db).2.access =
          { db.access with pending := db.access.pending ++ [row] } ∧ s.Opens source row := by
  rw [startGitInstall]
  cases hc : connection db.access.git tenant id with
  | error e =>
    left
    have hread : (readsGit fun g ↦ connection g tenant id) db = (.error (.git e), db) := by
      rw [readsGit, Call.reads, hc]
      rfl
    exact ⟨_, Call.bind_of_error (ofStore_error hread)⟩
  | ok c =>
    have hread : (readsGit fun g ↦ connection g tenant id) db = (.ok c, db) := by
      rw [readsGit, Call.reads, hc]
      rfl
    rw [Call.bind_of_ok (ofStore_ok hread)]
    split
    · exact .inl ⟨_, rfl⟩
    · split
      · exact .inl ⟨_, rfl⟩
      · cases hurl : callbackUrl settings with
        | error e => exact .inl ⟨.install e, rfl⟩
        | ok redirectUri =>
          have hreads : (Call.reads fun _ ↦ (Except.ok redirectUri : Except InstallError _).mapError
              FlowError.install : FlowCall String) db = (.ok redirectUri, db) := rfl
          rw [Call.bind_of_ok hreads]
          rcases startInstall_cases hc redirectUri now with
            ⟨e, hraised⟩ | ⟨state, row, hstate, hid, haccess, hopens⟩
          · exact .inl ⟨_, Call.bind_of_error (ofStore_error hraised)⟩
          · right
            refine ⟨_, row, Call.bind_of_ok (ofStore_ok (Prod.ext hstate rfl)), hid, haccess,
              hopens⟩

/-! ## Recording -/

/-- An install is recorded with what was confirmed, in place of the one on its connection, or
nothing is written. -/
theorem recordConfirmed_cases (hs : Sound source db) (c : Claimed) (how : Confirmed) (now : Time) :
    (∃ e, recordConfirmed c how now db = (.error e, db)) ∨
      ∃ row, (recordConfirmed c how now db).1 = .ok row ∧
        (recordConfirmed c how now db).2.access.pending = db.access.pending ∧
        db.keys.pending ≤ (recordConfirmed c how now db).2.keys.pending ∧
        ∀ r ∈ (recordConfirmed c how now db).2.access.installs,
          r ∈ db.access.installs ∨ installed r = c.records how := by
  rw [recordConfirmed]
  rcases onAccess_cases _ db with ⟨e, hraised⟩ | ⟨row, t, hrun, hdone⟩
  · exact .inl ⟨e, hraised⟩
  · right
    rw [recordInstall, hdone]
    cases hc : connection db.access.git c.row.tenantId c.row.connectionId with
    | error e =>
      rw [hc] at hrun
      cases hrun
    | ok found =>
      rw [hc] at hrun
      dsimp only [Except.mapError, Except.bind] at hrun
      cases hrow : installRow db.access c.row.tenantId c.row.connectionId with
      | some old =>
        rw [hrow] at hrun
        cases hrun
        obtain ⟨hold, hid, htenant⟩ := installRow_spec hrow
        refine ⟨_, rfl, rfl, le_advance _ _, fun r' hr' ↦ ?_⟩
        obtain ⟨r, hr, rfl⟩ := List.mem_map.mp hr'
        split
        · next hsame =>
          right
          have hrold := List.inj_on_of_nodup_map hs.access.installIds hr hold hsame
          rw [hrold, Claimed.records, ← hid, ← htenant]
          rfl
        · exact .inl hr
      | none =>
        rw [hrow] at hrun
        dsimp only at hrun
        split at hrun
        · cases hrun
        · cases hrun
          refine ⟨_, rfl, rfl, le_advance _ _, fun r hr ↦ ?_⟩
          rcases List.mem_append.mp hr with hr | hr
          · exact .inl hr
          · cases List.mem_singleton.mp hr
            exact .inr rfl

/-! ## One statement of a callback -/

/-- What a provider confirms is what the redirect claims, at the host it was asked at. -/
theorem confirm_ok {c : Claimed} {baseUrl : String} {how : Confirmed}
    (h : confirm query c baseUrl x = .ok how) :
    how.baseUrl = baseUrl ∧ how.Answers query c.row := by
  rw [confirm] at h
  split at h
  · next hprovider =>
    dsimp only at h
    split at h
    · cases h
    · next hid =>
      cases hverify : verifyInstallation x.appKey x.installation (stripped query.installationId)
      with
      | error e =>
        rw [hverify] at h
        cases h
      | ok account =>
        rw [hverify] at h
        cases h
        rw [not_or] at hid
        exact ⟨rfl, hprovider, rfl, hid.1, by simpa using hid.2⟩
  · next hprovider =>
    dsimp only at h
    split at h
    · cases h
    · next hcode =>
      cases htokens : exchangeCode x.settings x.tokens x.clock with
      | error e =>
        rw [htokens] at h
        cases h
      | ok tokens =>
        rw [htokens] at h
        cases h
        exact ⟨rfl, hprovider, rfl, hcode, rfl⟩
  · cases h

/-- What a statement of a callback leaves: at most the pending rows, what it has established, and
at most the installs and the one of a callback that is completed by it. -/
structure Leaves (source : StateSource) (query : CallbackQuery) (events : List FlowEvent)
    (db : Database) (next : (Callback × Database) × List FlowEvent) : Prop where
  pending : next.1.2.access.pending ⊆ db.access.pending
  keys : db.keys.pending ≤ next.1.2.keys.pending
  follows : next.1.1.Follows source query (events ++ next.2)
  selected : ∀ row, next.1.1 = .selected row → row ∈ db.access.pending
  installs : ∀ r ∈ next.1.2.access.installs,
    (∃ q ∈ db.access.installs, installed q = installed r) ∨
      ∃ c how, next.1.1 = .completed c how ∧ installed r = c.records how

/-- A statement that leaves the tables. -/
theorem Leaves.same {k : Callback} {more : List FlowEvent}
    (h : k.Follows source query (events ++ more))
    (hselected : ∀ row, k = .selected row → row ∈ db.access.pending) :
    Leaves source query events db ((k, db), more) :=
  ⟨fun _ hr ↦ hr, Nat.le_refl _, h, hselected, fun r hr ↦ .inl ⟨r, hr, rfl⟩⟩

theorem leaves_recorded (hs : Sound source db) {c : Claimed} {how : Confirmed}
    (h : Confirms source query events c how) (now : Time) :
    Leaves source query events db (recorded c how now db, []) := by
  rw [recorded]
  rcases recordConfirmed_cases hs c how now with
    ⟨e, hraised⟩ | ⟨row, hrow, hpending, hkeys, hinstalls⟩
  · rw [hraised]
    exact .same trivial nofun
  · rw [show recordConfirmed c how now db = (.ok row, (recordConfirmed c how now db).2) from
      Prod.ext hrow rfl]
    refine ⟨fun r hr ↦ hpending ▸ hr, hkeys, ?_, nofun, fun r hr ↦ ?_⟩
    · rw [List.append_nil]
      exact h
    · rcases hinstalls r hr with hold | hnew
      · exact .inl ⟨r, hold, rfl⟩
      · exact .inr ⟨c, how, rfl, hnew⟩

/-- A claimed row is one that was selected, and its expiry had not passed. -/
theorem claims_of_unexpired {row claimed : InstallStateRow}
    (h : Presents source query events row) {now : Time}
    (hclaim : unexpired row now = some claimed) :
    Claims source query events ⟨claimed, now⟩ := by
  rw [unexpired] at hclaim
  split at hclaim
  · cases hclaim
  · next expires hexpires =>
    split at hclaim
    · cases hclaim
    · next hlive =>
      cases hclaim
      exact ⟨h, expires, hexpires, not_lt.mp hlive⟩

/-- Every statement of a callback establishes what it has to. -/
theorem leaves_callbackNext (hs : Sound source db)
    (hpending : ∀ row ∈ db.access.pending, Opened source events row) {k : Callback}
    (hk : k.Follows source query events) :
    Leaves source query events db (callbackNext A source query x k db) := by
  cases k with
  | called =>
    rw [callbackNext]
    split
    · exact .same trivial nofun
    · split
      · exact .same trivial nofun
      · cases hfind : db.access.pending.find? (·.stateHash == source.digest query.state) with
        | none => exact .same trivial nofun
        | some row =>
          have hrow := List.mem_of_find?_eq_some hfind
          have hhash := List.find?_some hfind
          apply Leaves.same
          · rw [List.append_nil]
            exact ⟨hpending row hrow, beq_iff_eq.mp hhash⟩
          · intro row' hrow'
            cases hrow'
            exact hrow
  | selected row =>
    rw [callbackNext]
    have hrows : ∀ (k' : Callback), k'.Follows source query events → (∀ r, k' ≠ .selected r) →
        Leaves source query events db ((k', { db with access :=
          { db.access with pending := db.access.pending.filter (·.id ≠ row.id) } }), []) := by
      intro k' hk' hnot
      refine ⟨List.filter_subset_self _, Nat.le_refl _, ?_, fun r hr ↦ absurd hr (hnot r),
        fun r hr ↦ .inl ⟨r, hr, rfl⟩⟩
      rw [List.append_nil]
      exact hk'
    dsimp only
    cases hclaim : unexpired row x.clock with
    | none => exact hrows (.refused (.install .invalidLink)) trivial nofun
    | some claimed =>
      exact hrows (.claimed ⟨claimed, x.clock⟩) (claims_of_unexpired hk hclaim) nofun
  | claimed c =>
    rw [callbackNext]
    split
    · exact .same trivial nofun
    · dsimp only
      split
      · exact .same trivial nofun
      · refine .same (k := .addressed c _) ⟨Claims.append hk _, ?_⟩ nofun
        exact List.mem_append_right _ (List.mem_singleton_self _)
  | addressed c baseUrl =>
    rw [callbackNext]
    cases hconfirm : confirm query c baseUrl x with
    | error e => exact .same trivial nofun
    | ok how =>
      obtain ⟨hurl, hanswers⟩ := confirm_ok hconfirm
      refine .same (k := .confirmed c how) ?_ nofun
      exact ⟨hk.1.append _, List.mem_append_left _ (hurl ▸ hk.2),
        List.mem_append_right _ (List.mem_singleton_self _), hanswers⟩
  | confirmed c how =>
    cases how with
    | installation baseUrl id account => exact leaves_recorded hs hk x.clock
    | exchange baseUrl code redirectUri tokens =>
      rw [callbackNext]
      split
      · exact .same trivial nofun
      · next secret _ =>
        have hreduces : Call.Reduces installsOf (storeInstallSecret A c.row.tenantId
            c.row.connectionId secret x.keyring x.fresh x.clock) :=
          installs_storeInstallSecret c.row.connectionId secret x.keyring x.fresh x.clock
        replace hreduces := hreduces db
        split
        · next stored db' hrun =>
          rw [hrun, installsOf_le] at hreduces
          obtain ⟨hrows, hinstalls, hkeys⟩ := hreduces
          refine ⟨hrows, hkeys, ?_, nofun, fun r hr ↦ .inl ?_⟩
          · rw [List.append_nil]
            exact hk
          · exact List.mem_map.mp (hinstalls (List.mem_map_of_mem hr))
        · next e db' hrun =>
          rw [hrun, installsOf_le] at hreduces
          obtain ⟨hrows, hinstalls, hkeys⟩ := hreduces
          refine ⟨hrows, hkeys, trivial, nofun, fun r hr ↦ .inl ?_⟩
          exact List.mem_map.mp (hinstalls (List.mem_map_of_mem hr))
  | sealed c how => exact leaves_recorded hs hk x.clock
  | completed c how => exact .same (Callback.Follows.append (k := .completed c how) hk _) nofun
  | cancelled => exact .same trivial nofun
  | refused why => exact .same trivial nofun

/-! ## Whose rows a callback touches -/

/-- The tables are in order, and so are the rows of the others. -/
structure Within (source : StateSource) (tenant : String) (db db' : Database) : Prop where
  sound : Sound source db'
  others : db'.others tenant = db.others tenant

theorem Within.refl (hs : Sound source db) (tenant : String) : Within source tenant db db :=
  ⟨hs, rfl⟩

/-- What is apart stays within the tenant's rows. -/
theorem Within.of_apart {α : Type} {tenant : String} {f : StoreCall α}
    (h : IsApart source tenant f db) : Within source tenant db (f db).2 :=
  ⟨h.invariant, h.rest⟩

/-- A pending row that is deleted is a row of its tenant. -/
theorem within_delete (hs : Sound source db) {row : InstallStateRow} (hrow : Drawn db row) :
    Within source row.tenantId db { db with access :=
      { db.access with pending := db.access.pending.filter (·.id ≠ row.id) } } where
  sound :=
    { hs with
      access :=
        { hs.access with
          pendingKeys := fun id hid ↦ by
            obtain ⟨r, hr, rfl⟩ := List.mem_map.mp hid
            exact hs.access.pendingKeys _ (List.mem_map_of_mem (List.mem_of_mem_filter hr))
          pendingHomed := hs.access.pendingHomed.mem fun _ hr ↦ List.mem_of_mem_filter hr
          undrawn := fun r hr ↦ hs.access.undrawn r (List.mem_of_mem_filter hr) } }
  others := by
    have hrows : Base.others (·.tenantId == row.tenantId)
        (db.access.pending.filter (·.id ≠ row.id)) =
          Base.others (·.tenantId == row.tenantId) db.access.pending := by
      apply others_delete
      intro r hr hother
      apply decide_eq_true
      rintro hid
      rw [hrow.2 r hr hid, beq_self_eq_true] at hother
      cases hother
    simp only [Database.others, accessOthers, hrows]

theorem within_recorded (hs : Sound source db) (c : Claimed) (how : Confirmed) (now : Time) :
    Within source c.row.tenantId db (recorded c how now db).2 := by
  have hapart : IsApart source c.row.tenantId (recordConfirmed c how now) db :=
    apart_recordInstall hs _ _ _ _ _
  have hwithin := Within.of_apart hapart
  rw [recorded]
  split
  · next row db' hrun =>
    rw [hrun] at hwithin
    exact hwithin
  · next e db' hrun =>
    rw [hrun] at hwithin
    exact hwithin

/-- Every statement of a callback stays within the rows of the tenant whose row it works on. -/
theorem within_callbackNext (hs : Sound source db) {k : Callback}
    (hrow : ∀ row, k = .selected row → Drawn db row) {tenant : String}
    (htenant : ∀ t ∈ k.tenant, t = tenant) :
    Within source tenant db (callbackNext A source query x k db).1.2 := by
  cases k with
  | called =>
    rw [callbackNext]
    split
    · exact .refl hs tenant
    · split
      · exact .refl hs tenant
      · split
        · exact .refl hs tenant
        · exact .refl hs tenant
  | selected row =>
    cases htenant row.tenantId rfl
    rw [callbackNext]
    dsimp only
    split
    · exact within_delete hs (hrow row rfl)
    · exact within_delete hs (hrow row rfl)
  | claimed c =>
    rw [callbackNext]
    split
    · exact .refl hs tenant
    · dsimp only
      split
      · exact .refl hs tenant
      · exact .refl hs tenant
  | addressed c baseUrl =>
    rw [callbackNext]
    split
    · exact .refl hs tenant
    · exact .refl hs tenant
  | confirmed c how =>
    cases htenant c.row.tenantId rfl
    cases how with
    | installation baseUrl id account => exact within_recorded hs c _ x.clock
    | exchange baseUrl code redirectUri tokens =>
      rw [callbackNext]
      split
      · exact .refl hs _
      · next secret _ =>
        have hapart : IsApart source c.row.tenantId (storeInstallSecret A c.row.tenantId
            c.row.connectionId secret x.keyring x.fresh x.clock) db :=
          IsApart.bind (apart_setConnectionCredential hs _ _ _ _ _) fun _ _ hs ↦ .pure hs _
        have hwithin := Within.of_apart hapart
        split
        · next stored db' hrun =>
          rw [hrun] at hwithin
          exact hwithin
        · next e db' hrun =>
          rw [hrun] at hwithin
          exact hwithin
  | sealed c how =>
    cases htenant c.row.tenantId rfl
    exact within_recorded hs c how x.clock
  | completed c how => exact .refl hs tenant
  | cancelled => exact .refl hs tenant
  | refused why => exact .refl hs tenant

end

/-! ## Any order of moves -/

section

variable {ι : Type} {A : Aead UInt8} {source : StateSource} {query : ι → CallbackQuery}
  {w : InstallFlow ι} {db : Database}

theorem bound_empty : Bound source query (.empty ι) where
  sound := sound_empty source
  pending := nofun
  selected := nofun
  callbacks := fun _ ↦ trivial
  installs := nofun

/-- A drawn key stays drawn while no other row is given it. -/
theorem Drawn.keep {db' : Database} {row : InstallStateRow} (h : Drawn db row)
    (hpending : ∀ r ∈ db'.access.pending, r ∈ db.access.pending ∨ r.id = db.keys.pending)
    (hkeys : db.keys.pending ≤ db'.keys.pending) : Drawn db' row := by
  refine ⟨Nat.lt_of_lt_of_le h.1 hkeys, fun r hr hid ↦ ?_⟩
  cases hpending r hr with
  | inl hold => exact h.2 r hold hid
  | inr hnew =>
    have hlt := h.1
    omega

/-- What is bound stays bound when the tables lose rows. -/
theorem Bound.reduce (h : Bound source query w) (hs : Sound source db)
    (hreduces : installsOf db ≤ installsOf w.db) : Bound source query { w with db := db } := by
  obtain ⟨hpending, hinstalls, hkeys⟩ := installsOf_le.mp hreduces
  refine ⟨hs, fun row hrow ↦ ?_, fun i row hrow ↦ ?_, h.callbacks, fun r hr ↦ ?_⟩
  · obtain ⟨hbegun, hdrawn⟩ := h.pending row (hpending hrow)
    exact ⟨hbegun, hdrawn.keep (fun r hr ↦ .inl (hpending hr)) hkeys⟩
  · exact (h.selected i row hrow).keep (fun r hr ↦ .inl (hpending hr)) hkeys
  · obtain ⟨q, hq, heq⟩ := List.mem_map.mp (hinstalls (List.mem_map_of_mem hr))
    rw [← heq]
    exact h.installs q hq

/-- A begun install keeps all bound. -/
theorem Bound.begin (h : Bound source query w) (hs : Sound source db) {s : Start}
    {row : InstallStateRow} (hid : row.id = w.db.keys.pending)
    (haccess : db.access = { w.db.access with pending := w.db.access.pending ++ [row] })
    (hopens : s.Opens source row) :
    Bound source query { w with db := db, events := w.events ++ [.started s] } := by
  have hmem : ∀ r ∈ db.access.pending, r ∈ w.db.access.pending ∨ r = row := by
    intro r hr
    rw [haccess] at hr
    exact (List.mem_append.mp hr).imp_right List.mem_singleton.mp
  have hnext : row.id < db.keys.pending := by
    apply hs.access.pendingKeys
    rw [haccess]
    exact List.mem_map_of_mem (List.mem_append_right _ (List.mem_singleton_self row))
  have hkeys : w.db.keys.pending ≤ db.keys.pending := hid ▸ Nat.le_of_lt hnext
  have hnew : ∀ r ∈ db.access.pending, r ∈ w.db.access.pending ∨ r.id = w.db.keys.pending :=
    fun r hr ↦ (hmem r hr).imp_right fun heq ↦ by rw [heq, hid]
  refine ⟨hs, fun r hr ↦ ?_, fun i r hr ↦ (h.selected i r hr).keep hnew hkeys,
    fun i ↦ (h.callbacks i).append _, fun r hr ↦ ?_⟩
  · cases hmem r hr with
    | inl hold => exact ⟨(h.pending r hold).1.append _, (h.pending r hold).2.keep hnew hkeys⟩
    | inr heq =>
      subst heq
      refine ⟨⟨s, List.mem_append_right _ (List.mem_singleton_self _), hopens⟩, hnext,
        fun q hq hqid ↦ ?_⟩
      cases hmem q hq with
      | inl hold =>
        have hlt := h.sound.access.pendingKeys q.id (List.mem_map_of_mem hold)
        omega
      | inr heq => exact heq
  · rw [haccess] at hr
    exact h.installs r hr

variable [DecidableEq ι]

/-- A statement of a callback stays within the rows of its tenant. -/
theorem Bound.within (h : Bound source query w) (i : ι) (x : CallbackInputs) {tenant : String}
    (htenant : ∀ t ∈ (w.callback i).tenant, t = tenant) :
    Within source tenant w.db (installMove A source query w (.callback i x)).db :=
  within_callbackNext h.sound (h.selected i) htenant

/-- A statement of a callback keeps all bound. -/
theorem Bound.callback (h : Bound source query w) (i : ι) (x : CallbackInputs) :
    Bound source query (installMove A source query w (.callback i x)) := by
  have hleaves : Leaves source (query i) w.events w.db
      (callbackNext A source (query i) x (w.callback i) w.db) :=
    leaves_callbackNext h.sound (fun row hrow ↦ (h.pending row hrow).1) (h.callbacks i)
  have hcompleted : ∀ c how, w.callback i = .completed c how →
      (callbackNext A source (query i) x (w.callback i) w.db).1.1 = .completed c how := by
    intro c how hc
    rw [hc]
    rfl
  have hwithin : Within source ((w.callback i).tenant.getD "") w.db
      (callbackNext A source (query i) x (w.callback i) w.db).1.2 := by
    apply within_callbackNext h.sound (h.selected i)
    intro t ht
    rw [Option.mem_def.mp ht, Option.getD_some]
  rw [installMove]
  generalize callbackNext A source (query i) x (w.callback i) w.db = next at *
  obtain ⟨⟨k, db⟩, more⟩ := next
  obtain ⟨hpending, hkeys, hfollows, hselected, hinstalls⟩ := hleaves
  dsimp only at hpending hkeys hfollows hselected hinstalls hcompleted
  have hkeep : ∀ row, Drawn w.db row → Drawn db row :=
    fun row hrow ↦ hrow.keep (fun r hr ↦ .inl (hpending hr)) hkeys
  refine ⟨hwithin.sound, fun row hrow ↦ ?_, ?_, ?_, fun r hr ↦ ?_⟩
  · obtain ⟨hbegun, hdrawn⟩ := h.pending row (hpending hrow)
    exact ⟨hbegun.append more, hkeep row hdrawn⟩
  · refine (Function.forall_update_iff _
      (p := fun _ k ↦ ∀ row, k = Callback.selected row → Drawn db row)).mpr ⟨?_, ?_⟩
    · exact fun row hrow ↦ hkeep row (h.pending row (hselected row hrow)).2
    · exact fun j _ row hrow ↦ hkeep row (h.selected j row hrow)
  · exact (Function.forall_update_iff _
      (p := fun j k ↦ Callback.Follows source (query j) (w.events ++ more) k)).mpr
      ⟨hfollows, fun j _ ↦ (h.callbacks j).append more⟩
  · rcases hinstalls r hr with ⟨q, hq, hsame⟩ | ⟨c, how, hk, hnew⟩
    · obtain ⟨j, c, how, hj, hrecords⟩ := h.installs q hq
      refine ⟨j, c, how, ?_, hsame ▸ hrecords⟩
      by_cases hji : j = i
      · subst hji
        exact (Function.update_self ..).trans (hcompleted c how hj)
      · exact (Function.update_of_ne hji _ _).trans hj
    · exact ⟨i, c, how, (Function.update_self ..).trans hk, hnew⟩

/-- Every move keeps all bound. -/
theorem bound_move (h : Bound source query w) (m : InstallMove ι) :
    Bound source query (installMove A source query w m) := by
  cases m with
  | operation tenant o =>
    exact h.reduce (apart_perform tenant o.val h.sound).invariant
      (installs_perform tenant o.val o.property w.db)
  | start tenant settings id now =>
    rw [installMove]
    rcases startGitInstall_cases source tenant.name settings id now w.db with
      ⟨e, hraised⟩ | ⟨s, row, hrun, hid, haccess, hopens⟩
    · rw [hraised]
      exact h
    · rw [hrun]
      exact h.begin (apart_startInstall h.sound id s.redirectUri now).invariant hid haccess hopens
  | callback i x => exact h.callback i x

/-- All is bound after any moves. -/
theorem bound_installFlow (moves : List (InstallMove ι)) :
    Bound source query (installFlow A source query moves) :=
  foldl_invariant (P := Bound source query) (fun _ m h ↦ bound_move h m) bound_empty moves

/-- Where a recorded install comes from: its tenant began it on its own connection, a callback
presented the state that was handed out then and claimed it in time, and the provider confirmed
what that redirect claims, at a host that had been checked. -/
def Attributed (source : StateSource) (query : ι → CallbackQuery) (w : InstallFlow ι)
    (r : GitInstallRow) : Prop :=
  ∃ i c how s, w.callback i = .completed c how ∧
    .started s ∈ w.events ∧ s.tenant = r.tenantId ∧ s.connectionId = r.connectionId ∧
    s.provider = r.provider ∧ source.digest (query i).state = source.digest s.state ∧
    c.claimedAt ≤ s.startedAt + stateTtl ∧
    .confirmed how ∈ w.events ∧ .checked how.baseUrl ∈ w.events ∧ how.Answers (query i) c.row ∧
    c.row.redirectUri = s.redirectUri ∧
    r.installationId = how.installationId ∧ r.account = how.account

/-- Whatever tenants and callbacks do, in every order: every install on a connection comes from a
start of the tenant of that connection and from a redirect that its provider has confirmed, and no
statement of a callback touches a row of any tenant but the one whose pending row it works on. -/
theorem installs_attributed (A : Aead UInt8) (source : StateSource) (query : ι → CallbackQuery)
    (moves : List (InstallMove ι)) :
    (∀ r ∈ (installFlow A source query moves).db.access.installs,
      Attributed source query (installFlow A source query moves) r) ∧
    ∀ i x tenant, (∀ t ∈ ((installFlow A source query moves).callback i).tenant, t = tenant) →
      (installFlow A source query (moves ++ [.callback i x])).db.others tenant =
        (installFlow A source query moves).db.others tenant := by
  have hbound : Bound source query (installFlow A source query moves) := bound_installFlow moves
  constructor
  · intro r hr
    obtain ⟨i, c, how, hi, hrecords⟩ := hbound.installs r hr
    have hfollows := hbound.callbacks i
    rw [hi] at hfollows
    obtain ⟨⟨⟨⟨s, hs, hopens⟩, hhash⟩, u, hexpires, hclaimed⟩, hchecked, hconfirmed, hanswers⟩ :=
      hfollows
    rw [installed, Claimed.records, Installed.mk.injEq] at hrecords
    obtain ⟨htenant, hconnection, hprovider, hinstallation, haccount⟩ := hrecords
    rw [hopens.expires, Option.some.injEq] at hexpires
    exact ⟨i, c, how, s, hi, hs, hopens.tenant.symm.trans htenant.symm,
      hopens.connection.symm.trans hconnection.symm, hopens.provider.symm.trans hprovider.symm,
      hhash.symm.trans hopens.state, hexpires ▸ hclaimed, hconfirmed, hchecked, hanswers,
      hopens.redirectUri, hinstallation, haccount⟩
  · intro i x tenant htenant
    rw [installFlow, List.foldl_append]
    exact (hbound.within i x htenant).others

end

/-- A redirect from GitHub, taken through to its end. -/
def octoMoves : List (InstallMove Unit) :=
  .operation acme ⟨.createConnection { provider := "github" }, rfl⟩ ::
    .start acme
      { callbackBaseUrl := some "https://board/", githubAppId := some "7",
        githubAppSlug := some "app", githubAppPrivateKey := some "key" } 1 0 ::
      List.replicate 5 (.callback ()
        { clock := 1
          installation := .found (some (.str "octo", .null))
          fresh := ⟨plainKey 7, plainNonce 8, plainNonce 9⟩ })

example : (installFlow (Aead.symbolic UInt8) countedStates
    (fun _ ↦ { state := "0", installationId := some " 42 " }) octoMoves).db.access.installs.map
      installed = [⟨"acme", 1, .github, some "42", some "octo"⟩] := by decide +kernel

end CFactory.Tenants
