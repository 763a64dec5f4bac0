import CFactory.Base.Runs
import CFactory.Credentials.Rotation
import CFactory.Git.InstallToken
import CFactory.Tenants.Hosts

/-!
# Minted tokens

`git_install.py:740–844`, `cards.py:1097–1168,1470–1566,1989–2035,2107–2203`. A process keeps the
tokens it minted under the tenant and the id of the connection. They are forgotten with the
connection and with its install, and not when the connection is pointed elsewhere; the install
keeps the provider it was recorded for.
-/

namespace CFactory.Tenants

open CFactory.Base CFactory.Model CFactory.Git
open CFactory.Credentials (KeyRing Nonce Randomness plainKey plainNonce)

/-! ## The cache -/

/-- What a token was minted from: which recording of the connection's install, the provider, and
the host. -/
structure Origin where
  recording : Nat
  provider : Provider
  baseUrl : String
  deriving DecidableEq, Repr

/-- An entry of `_TOKEN_CACHE`, with where it comes from. -/
structure Cached where
  minted : MintedToken
  origin : Origin
  deriving DecidableEq, Repr

/-- The store and the process: its tables, `_TOKEN_CACHE`, and how often an install was recorded
on each connection. -/
structure TokenWorld where
  db : Database := {}
  cache : String → Nat → Option Cached := fun _ _ ↦ none
  recordings : String → Nat → Nat := fun _ _ ↦ 0

/-- One entry replaced. -/
def put {α : Type} (f : String → Nat → α) (tenant : String) (id : Nat) (a : α) :
    String → Nat → α :=
  fun t i ↦ if t = tenant ∧ i = id then a else f t i

@[simp] theorem put_self {α : Type} (f : String → Nat → α) (tenant : String) (id : Nat) (a : α) :
    put f tenant id a tenant id = a := if_pos ⟨rfl, rfl⟩

theorem put_other {α : Type} (f : String → Nat → α) {tenant t : String} {id i : Nat} (a : α)
    (h : ¬(t = tenant ∧ i = id)) : put f tenant id a t i = f t i := if_neg h

/-- What the outside supplies to a fetch: the clock and the provider's answers, the settings, and
what the random source hands to the sealings. -/
structure FetchInputs where
  outside : Outside
  /-- What `safe_git_base_url` raises, if anything. -/
  refusedUrl : Option String := none
  clientId : Option String := none
  clientSecret : Option String := none
  keyring : Option KeyRing := none
  wrapNonce : Nonce
  resealing : Randomness
  sealing : Randomness
  /-- The text of what was raised. -/
  reason : String := ""

variable (A : Aead UInt8) (tenant : String)

/-- `_mint`; none where it raises anything but an error of the store; `git_install.py:816–844`. -/
def mint (install : GitInstallRow) (x : FetchInputs) : StoreCall (Option MintedToken) :=
  if x.refusedUrl.isSome then pure none
  else
    match install.provider with
    | .github =>
      pure (if install.installationId.getD "" = "" then none else x.outside.installation.toOption)
    | .gitlab => do
      let stored ← fetchCredential A tenant install.connectionId x.keyring x.wrapNonce x.resealing
        x.outside.clock
      if stored.getD "" = "" then pure none
      else if stripped x.clientId = "" ∨ stripped x.clientSecret = "" then pure none
      else
        match x.outside.tokens with
        | .error _ => pure none
        | .ok tokens => do
          if tokens.refresh.getD "" ≠ "" ∧ tokens.refresh ≠ stored then
            storeInstallSecret A tenant install.connectionId (tokens.refresh.getD "") x.keyring
              x.sealing x.outside.clock
          pure (some ⟨tokens.access, tokens.expiresAt⟩)
    | .azureDevops => pure none

/-- The host that `_install_credential` hands to the mint; `cards.py:2008–2011`. -/
def mintUrl (t : AccessTables) (install : GitInstallRow) : String :=
  resolvedBaseUrl install.provider.text
    (((connectionOrNone t.git tenant install.connectionId).map (·.baseUrl)).getD "")

/-- The handle of an installed connection mints for that host. -/
theorem fetch_connectionCredential {t : AccessTables} {id : Nat} {install : GitInstallRow}
    (h : installRow t tenant id = some install) (settings : GitSettings) :
    (connectionCredential t tenant id settings).fetch =
      .install install.connectionId (mintUrl tenant t install) := by
  rw [connectionCredential, h]
  rfl

/-- A fetch through `connection_credential` of an installed connection: the token it returns and
where it was minted; `git_install.py:785–814`. -/
def fetchToken (id : Nat) (x : FetchInputs) (w : TokenWorld) :
    Option (String × Origin) × TokenWorld :=
  match installRow w.db.access tenant id with
  | none => (none, w)
  | some install =>
    match (w.cache tenant id).filter fun c ↦
      (freshToken (some c.minted) x.outside.clock).isSome with
    | some c => (some (c.minted.token, c.origin), w)
    | none =>
      match mint A tenant install x w.db with
      | (.ok (some m), db) =>
        let origin : Origin :=
          ⟨w.recordings tenant id, install.provider, mintUrl tenant w.db.access install⟩
        (some (m.token, origin),
          { w with
            db := (recoverInstall tenant id x.outside.clock db).2
            cache := put w.cache tenant id (some ⟨m, origin⟩) })
      | (_, db) =>
        (none,
          { w with
            db := (degradeInstall tenant id x.reason x.outside.clock db).2
            cache := put w.cache tenant id none })

/-! ## The operations -/

/-- An operation on a tenant's connections, installs and tokens. -/
inductive TokenOp where
  | createConnection (body : GitConnectionCreate)
  | updateConnection (id : Nat) (body : GitConnectionUpdate)
  | deleteConnection (id : Nat)
  | setGitConfig (update : GitConfigUpdate)
  | recordInstall (id : Nat) (provider : Provider) (installationId account : Option String)
      (now : Time)
  | deleteInstall (id : Nat)
  | fetch (id : Nat) (x : FetchInputs)

/-- `forget_token`, where the connection was found first; `cards.py:1142–1143,2117–2118`. -/
def TokenWorld.forget (w : TokenWorld) (id : Nat) : TokenWorld :=
  if (connectionOrNone w.db.access.git tenant id).isSome then
    { w with cache := put w.cache tenant id none }
  else w

/-- What an operation leaves. -/
def tokenOp : TokenOp → TokenWorld → TokenWorld
  | .createConnection body, w => { w with db := (createConnection tenant body w.db).2 }
  | .updateConnection id body, w => { w with db := (updateConnection tenant id body w.db).2 }
  | .deleteConnection id, w =>
    { w.forget tenant id with db := (deleteConnection tenant id w.db).2 }
  | .setGitConfig update, w => { w with db := (setGitConfig tenant update w.db).2 }
  | .recordInstall id provider installationId account now, w =>
    let done := recordInstall tenant id provider installationId account now w.db
    { w.forget tenant id with
      db := done.2
      recordings :=
        if done.1.isOk then put w.recordings tenant id (w.recordings tenant id + 1)
        else w.recordings }
  | .deleteInstall id, w => { w.forget tenant id with db := (deleteInstall tenant id w.db).2 }
  | .fetch id x, w => (fetchToken A tenant id x w).2

/-- One operation of a tenant. -/
def tokenStep (w : TokenWorld) (x : String × TokenOp) : TokenWorld := tokenOp A x.1 x.2 w

/-- The token that a fetch returns for an installed connection was minted from the install that
is recorded, for the connection's provider and host. -/
def TokenMatches (w : TokenWorld) (x : String × TokenOp) : Prop :=
  ∀ id inputs, x.2 = .fetch id inputs → ∀ c, connectionOrNone w.db.access.git x.1 id = some c →
    ∀ token origin, (fetchToken A x.1 id inputs w).1 = some (token, origin) →
      origin = ⟨w.recordings x.1 id, c.provider, resolvedBaseUrl c.provider.text c.baseUrl⟩

/-- A patch that is accepted leaves an installed connection its provider, and one whose token is
kept its host. -/
def LeavesHost (w : TokenWorld) (id : Nat) (body : GitConnectionUpdate) : Prop :=
  ∀ current fields, connection w.db.access.git tenant id = .ok current →
    connectionFields (body.provider.getD (some current.provider.text))
      (body.baseUrl.getD (some current.baseUrl)) (body.label.getD (some current.label)) =
        .ok fields →
    (∃ done, Git.updateConnection w.db.access.git tenant id body = .ok done) →
      ((installRow w.db.access tenant id).isSome → fields.provider = current.provider) ∧
        ((w.cache tenant id).isSome → resolvedBaseUrl fields.provider.text fields.baseUrl =
          resolvedBaseUrl current.provider.text current.baseUrl)

/-- The operation points no installed connection elsewhere, and records an install for the
provider of its connection. -/
def TokenOp.KeepsHosts (w : TokenWorld) : TokenOp → Prop
  | .updateConnection id body => LeavesHost tenant w id body
  | .setGitConfig update => ∀ fields wanted c, update.valid = true →
      validatedFields update = .ok fields →
      connectionFields (some fields.provider.text) fields.baseUrl none = .ok wanted →
      connectionTo w.db.access.git tenant wanted.provider wanted.baseUrl = none →
      editableConnection w.db.access.git tenant = some c →
        LeavesHost tenant w c.id (moveTo wanted)
  | .recordInstall id provider _ _ _ => ∀ c, connection w.db.access.git tenant id = .ok c →
      provider = c.provider
  | _ => True

/-! ## What every operation keeps -/

/-- An install is for the provider of its connection, and a kept token was minted from it for
the host the connection has. -/
structure Matched (source : StateSource) (w : TokenWorld) : Prop where
  sound : Sound source w.db
  installed : ∀ t id, ∀ provider ∈ (pointers w.db).installs t id, ∀ host,
    (pointers w.db).host t id = some host → provider = host.1
  cached : ∀ t id c, w.cache t id = some c → ∀ provider ∈ (pointers w.db).installs t id, ∀ host,
    (pointers w.db).host t id = some host →
      c.origin = ⟨w.recordings t id, host.1, resolvedBaseUrl host.1.text host.2⟩

variable {A} {tenant} {source : StateSource} {w : TokenWorld} {db' : Database}

theorem matched_empty : Matched source {} where
  sound := sound_empty source
  installed := by
    intro t id provider hprovider
    cases hprovider
  cached := by
    intro t id c h
    cases h

/-- Fewer installs, on connections that point where they did. -/
private theorem Matched.shrink (h : Matched source w) (hs : Sound source db')
    (hinstalls : ∀ t id, ∀ provider ∈ (pointers db').installs t id,
      provider ∈ (pointers w.db).installs t id)
    (hhost : ∀ t id, ∀ provider ∈ (pointers w.db).installs t id, ∀ host,
      (pointers db').host t id = some host → (pointers w.db).host t id = some host) :
    Matched source { w with db := db' } where
  sound := hs
  installed := by
    intro t id provider hprovider host hto
    have hmem := hinstalls t id provider hprovider
    exact h.installed t id provider hmem host (hhost t id provider hmem host hto)
  cached := by
    intro t id c hc provider hprovider host hto
    have hmem := hinstalls t id provider hprovider
    exact h.cached t id c hc provider hmem host (hhost t id provider hmem host hto)

/-- Whatever moves nothing. -/
private theorem Matched.of_pointers (h : Matched source w) (hs : Sound source db')
    (hp : pointers db' = pointers w.db) : Matched source { w with db := db' } := by
  apply h.shrink hs
  · rw [hp]
    exact fun _ _ _ hprovider ↦ hprovider
  · rw [hp]
    exact fun _ _ _ _ _ hto ↦ hto

/-- A token forgotten. -/
private theorem Matched.uncache (h : Matched source w) (tenant : String) (id : Nat) :
    Matched source { w with cache := put w.cache tenant id none } where
  sound := h.sound
  installed := h.installed
  cached := by
    intro t i c hc
    dsimp only at hc
    by_cases hit : t = tenant ∧ i = id
    · rw [hit.1, hit.2, put_self] at hc
      cases hc
    · rw [put_other _ _ hit] at hc
      exact h.cached t i c hc

private theorem Matched.forget (h : Matched source w) (id : Nat) :
    Matched source (w.forget tenant id) := by
  rw [TokenWorld.forget]
  split
  · exact h.uncache tenant id
  · exact h

@[simp] theorem db_forget (id : Nat) : (w.forget tenant id).db = w.db := by
  rw [TokenWorld.forget]
  split
  · rfl
  · rfl

@[simp] theorem recordings_forget (id : Nat) :
    (w.forget tenant id).recordings = w.recordings := by
  rw [TokenWorld.forget]
  split
  · rfl
  · rfl

/-- An install stands on a connection. -/
private theorem Matched.homed (h : Matched source w) {t : String} {id : Nat} {provider : Provider}
    (hprovider : provider ∈ (pointers w.db).installs t id) :
    ∃ c, connectionOrNone w.db.access.git t id = some c := by
  obtain ⟨r, hr, hid, htenant, -⟩ := mem_installedFor.mp hprovider
  obtain ⟨c, hc, hcid, hctenant⟩ := h.sound.access.installsHomed r hr r.connectionId rfl
  have hsome : (connectionOrNone w.db.access.git t id).isSome := by
    rw [connectionOrNone, List.find?_isSome]
    refine ⟨c, hc, ?_⟩
    rw [hcid, hid, hctenant, htenant, beq_self_eq_true, beq_self_eq_true]
    rfl
  exact Option.isSome_iff_exists.mp hsome

/-- A connection more. -/
private theorem Matched.createConnection (h : Matched source w) (hs : Sound source db')
    {g : GitTables} {skipped : Nat} {body : GitConnectionCreate} {c : GitConnectionRow}
    (hcreate : Git.createConnection w.db.access.git tenant skipped body = .ok (c, g))
    (hp : pointers db' = pointersWith w.db g) : Matched source { w with db := db' } := by
  apply h.shrink hs
  · rw [hp]
    exact fun _ _ _ hprovider ↦ hprovider
  · intro t id provider hprovider host hto
    obtain ⟨q, hq⟩ := h.homed hprovider
    have hstays : (pointers db').host t id = (pointers w.db).host t id := by
      rw [hp]
      show (connectionOrNone g t id).map _ = (connectionOrNone w.db.access.git t id).map _
      rw [hq, connectionOrNone_createConnection hcreate hq]
    rw [← hstays]
    exact hto

/-- A connection pointed at a host that its install and its kept token are for. -/
private theorem Matched.updateConnection (h : Matched source w) (hs : Sound source db')
    {g : GitTables} {id : Nat} {body : GitConnectionUpdate} {c : GitConnectionRow}
    (hupdate : Git.updateConnection w.db.access.git tenant id body = .ok (c, g))
    (hleaves : LeavesHost tenant w id body) (hp : pointers db' = pointersWith w.db g) :
    Matched source { w with db := db' } := by
  have hfind := connectionOrNone_updateConnection h.sound.access.tenanted hupdate
  obtain ⟨current, fields, hcurrent, hfields, rfl, -⟩ := updateConnection_ok hupdate
  obtain ⟨hprovider, hurl⟩ := hleaves current fields hcurrent hfields ⟨_, hupdate⟩
  have hwas : (pointers w.db).host tenant id = some (current.provider, current.baseUrl) := by
    show (connectionOrNone w.db.access.git tenant id).map _ = _
    rw [connectionOrNone_of_connection hcurrent]
    rfl
  have hhost : ∀ t i, (pointers db').host t i =
      if t = tenant ∧ i = id then some (fields.provider, fields.baseUrl)
      else (pointers w.db).host t i := by
    intro t i
    rw [hp]
    show (connectionOrNone g t i).map _ = _
    rw [hfind t i]
    split
    · rfl
    · rfl
  have hinstalls : (pointers db').installs = (pointers w.db).installs := by
    rw [hp]
    rfl
  constructor
  · exact hs
  · intro t i provider hmem host hto
    rw [hinstalls] at hmem
    rw [hhost] at hto
    by_cases hit : t = tenant ∧ i = id
    · rw [if_pos hit] at hto
      cases hto
      rw [hit.1, hit.2] at hmem
      exact (h.installed tenant id provider hmem _ hwas).trans
        (hprovider (installRow_isSome hmem)).symm
    · rw [if_neg hit] at hto
      exact h.installed t i provider hmem host hto
  · intro t i kept hc provider hmem host hto
    rw [hinstalls] at hmem
    rw [hhost] at hto
    by_cases hit : t = tenant ∧ i = id
    · rw [if_pos hit] at hto
      cases hto
      obtain ⟨rfl, rfl⟩ := hit
      have hcached : (w.cache t i).isSome := by
        rw [show w.cache t i = some kept from hc]
        rfl
      rw [hurl hcached, hprovider (installRow_isSome hmem)]
      exact h.cached t i kept hc provider hmem _ hwas
    · rw [if_neg hit] at hto
      exact h.cached t i kept hc provider hmem host hto

private theorem Matched.setGitConfig (h : Matched source w) {update : GitConfigUpdate}
    (hkeeps : TokenOp.KeepsHosts tenant w (.setGitConfig update)) :
    Matched source { w with db := (Tenants.setGitConfig tenant update w.db).2 } := by
  have hs : Sound source (Tenants.setGitConfig tenant update w.db).2 :=
    (apart_setGitConfig h.sound update).invariant
  rcases pointers_setGitConfig update w.db with hsame | hmoved
  · exact h.of_pointers hs hsame
  · obtain ⟨fields, s, c, g, hvalid, hfields, hshim, hp⟩ := hmoved
    rcases shimConnection_moves hshim with hsame | ⟨body, hcreate⟩ | hmove
    · apply h.of_pointers hs
      rw [hp, hsame]
      rfl
    · exact h.createConnection hs hcreate hp
    · obtain ⟨wanted, editable, hwanted, hto, heditable, hupdate⟩ := hmove
      exact h.updateConnection hs hupdate
        (hkeeps fields wanted editable hvalid hfields hwanted hto heditable) hp

private theorem Matched.deleteConnection (h : Matched source w) (id : Nat) :
    Matched source { w with db := (Tenants.deleteConnection tenant id w.db).2 } := by
  have hs : Sound source (Tenants.deleteConnection tenant id w.db).2 :=
    (apart_deleteConnection h.sound id).invariant
  rcases pointers_deleteConnection id w.db with hsame | hgone
  · exact h.of_pointers hs hsame
  · apply h.shrink hs
    · exact fun t i ↦ (hgone t i).2
    · intro t i provider _ host hto
      rw [(hgone t i).1] at hto
      split at hto
      · cases hto
      · exact hto

private theorem Matched.deleteInstall (h : Matched source w) (id : Nat) :
    Matched source { w with db := (Tenants.deleteInstall tenant id w.db).2 } := by
  have hs : Sound source (Tenants.deleteInstall tenant id w.db).2 :=
    (apart_deleteInstall h.sound id).invariant
  obtain ⟨hhost, hinstalls⟩ := pointers_deleteInstall id w.db
  apply h.shrink hs hinstalls
  intro t i provider _ host hto
  rw [← hhost]
  exact hto

/-- A recorded install, for the provider of its connection, whose kept token was forgotten. -/
private theorem Matched.recordInstall (h : Matched source w) (id : Nat) (provider : Provider)
    (installationId account : Option String) (now : Time)
    (hkeeps : TokenOp.KeepsHosts tenant w (.recordInstall id provider installationId account now)) :
    Matched source
      (tokenOp A tenant (.recordInstall id provider installationId account now) w) := by
  have hs : Sound source (Tenants.recordInstall tenant id provider installationId account now
      w.db).2 := (apart_recordInstall h.sound id provider installationId account now).invariant
  have hforgotten : Matched source (w.forget tenant id) := h.forget id
  rw [tokenOp]
  rcases pointers_recordInstall h.sound id provider installationId account now
    with ⟨hraised, hsame⟩ | ⟨hdone, ⟨c, hc⟩, hhost, hinstalls⟩
  · rw [hraised, hsame, if_neg Bool.false_ne_true]
    have hkept : Matched source
        ⟨w.db, (w.forget tenant id).cache, (w.forget tenant id).recordings⟩ :=
      hforgotten.of_pointers h.sound (by rw [db_forget])
    rw [recordings_forget] at hkept
    exact hkept
  · rw [hdone, if_pos rfl]
    have hfound := connectionOrNone_of_connection hc
    have hnow : (pointers w.db).host tenant id = some (c.provider, c.baseUrl) := by
      show (connectionOrNone w.db.access.git tenant id).map _ = _
      rw [hfound]
      rfl
    constructor
    · exact hs
    · intro t i p hp host hto
      rw [hhost] at hto
      rcases hinstalls t i p hp with ⟨rfl, rfl, rfl⟩ | hold
      · rw [hnow] at hto
        cases hto
        exact hkeeps c hc
      · exact h.installed t i p hold host hto
    · intro t i kept hkept p hp host hto
      rw [hhost] at hto
      dsimp only at hkept ⊢
      have hcache : (w.forget tenant id).cache = put w.cache tenant id none := by
        rw [TokenWorld.forget, if_pos]
        rw [hfound]
        rfl
      rw [hcache] at hkept
      by_cases hit : t = tenant ∧ i = id
      · rw [hit.1, hit.2, put_self] at hkept
        cases hkept
      · rw [put_other _ _ hit] at hkept ⊢
        rcases hinstalls t i p hp with ⟨rfl, rfl, -⟩ | hold
        · exact absurd ⟨rfl, rfl⟩ hit
        · exact h.cached t i kept hkept p hold host hto

/-- A mint moves nothing. -/
private theorem preserves_mint (install : GitInstallRow) (x : FetchInputs) :
    Call.Preserves pointers (mint A tenant install x) := by
  rw [mint]
  split
  · exact Call.Preserves.pure _
  · split
    · exact Call.Preserves.pure _
    · apply (preserves_fetchCredential A _ _ _ _ _).bind
      intro stored
      split
      · exact Call.Preserves.pure _
      · split
        · exact Call.Preserves.pure _
        · split
          · exact Call.Preserves.pure _
          · split
            · exact (preserves_storeInstallSecret A _ _ _ _ _).bind fun _ ↦ Call.Preserves.pure _
            · exact Call.Preserves.pure _
    · exact Call.Preserves.pure _

/-- A rotated refresh token is written as the tenant. -/
private theorem apart_storeInstallSecret {db : Database} (hs : Sound source db) (id : Nat)
    (secret : String) (keyring : Option KeyRing) (fresh : Randomness) (now : Time) :
    IsApart source tenant (storeInstallSecret A tenant id secret keyring fresh now) db :=
  IsApart.bind (apart_setConnectionCredential hs id secret keyring fresh now)
    fun _ _ hs ↦ .pure hs _

/-- A mint keeps the tables in order. -/
private theorem apart_mint {db : Database} (hs : Sound source db) (install : GitInstallRow)
    (x : FetchInputs) : IsApart source tenant (mint A tenant install x) db := by
  rw [mint]
  split
  · exact .pure hs _
  · split
    · exact .pure hs _
    · apply IsApart.bind (apart_fetchCredential hs _ _ _ _ _)
      intro stored db hs
      split
      · exact .pure hs _
      · split
        · exact .pure hs _
        · split
          · exact .pure hs _
          · split
            · exact IsApart.bind (apart_storeInstallSecret hs _ _ _ _ _) fun _ _ hs ↦ .pure hs _
            · exact .pure hs _
    · exact .pure hs _

/-- Where the install is for the provider of its connection, the mint is for the connection's
host. -/
private theorem Matched.mintUrl (h : Matched source w) {id : Nat} {install : GitInstallRow}
    (hinstall : installRow w.db.access tenant id = some install) {c : GitConnectionRow}
    (hc : connectionOrNone w.db.access.git tenant id = some c) :
    install.provider = c.provider ∧ Tenants.mintUrl tenant w.db.access install =
      resolvedBaseUrl c.provider.text c.baseUrl := by
  have hnow : (pointers w.db).host tenant id = some (c.provider, c.baseUrl) := by
    show (connectionOrNone w.db.access.git tenant id).map _ = _
    rw [hc]
    rfl
  have hprovider : install.provider = c.provider :=
    h.installed tenant id _ (installedFor_of_installRow hinstall) _ hnow
  refine ⟨hprovider, ?_⟩
  rw [Tenants.mintUrl, (installRow_spec hinstall).2.1, hc, hprovider]
  rfl

/-- A token kept that was minted for the host its connection has. -/
private theorem Matched.keep (h : Matched source w) {id : Nat} {c : Cached}
    (hc : ∀ host, (pointers w.db).host tenant id = some host →
      c.origin = ⟨w.recordings tenant id, host.1, resolvedBaseUrl host.1.text host.2⟩) :
    Matched source { w with cache := put w.cache tenant id (some c) } where
  sound := h.sound
  installed := h.installed
  cached := by
    intro t i kept hkept provider hprovider host hto
    dsimp only at hkept
    by_cases hit : t = tenant ∧ i = id
    · obtain ⟨rfl, rfl⟩ := hit
      rw [put_self] at hkept
      cases hkept
      exact hc host hto
    · rw [put_other _ _ hit] at hkept
      exact h.cached t i kept hkept provider hprovider host hto

/-- What a fetch returns matches the connection, and what it leaves does. -/
private theorem Matched.fetch (h : Matched source w) (id : Nat) (x : FetchInputs) :
    Matched source (fetchToken A tenant id x w).2 ∧
      ∀ c, connectionOrNone w.db.access.git tenant id = some c →
        ∀ token origin, (fetchToken A tenant id x w).1 = some (token, origin) →
          origin = ⟨w.recordings tenant id, c.provider,
            resolvedBaseUrl c.provider.text c.baseUrl⟩ := by
  rw [fetchToken]
  cases hinstall : installRow w.db.access tenant id with
  | none =>
    refine ⟨h, ?_⟩
    intro c _ token origin hnone
    cases hnone
  | some install =>
    dsimp only
    cases hkept : (w.cache tenant id).filter fun c ↦
        (freshToken (some c.minted) x.outside.clock).isSome with
    | some kept =>
      refine ⟨h, ?_⟩
      intro c hc token origin hreturned
      cases hreturned
      have hcached := (Option.filter_eq_some_iff.mp hkept).1
      apply h.cached tenant id kept hcached _ (installedFor_of_installRow hinstall)
        (c.provider, c.baseUrl)
      show (connectionOrNone w.db.access.git tenant id).map _ = _
      rw [hc]
      rfl
    | none =>
      dsimp only
      have hmoved : pointers (mint A tenant install x w.db).2 = pointers w.db :=
        preserves_mint install x w.db
      have hsound : Sound source (mint A tenant install x w.db).2 :=
        (apart_mint h.sound install x).invariant
      cases hmint : mint A tenant install x w.db with
      | mk result db =>
        rw [hmint] at hmoved hsound
        have hfailed : Matched source
            ⟨(degradeInstall tenant id x.reason x.outside.clock db).2,
              put w.cache tenant id none, w.recordings⟩ := by
          have hdegraded : Matched source
              ⟨(degradeInstall tenant id x.reason x.outside.clock db).2, w.cache, w.recordings⟩ :=
            h.of_pointers (apart_patchInstall hsound id _ _ _).invariant
              ((preserves_degradeInstall id _ _ db).trans hmoved)
          exact hdegraded.uncache tenant id
        cases result with
        | error e => exact ⟨hfailed, fun _ _ _ _ hnone ↦ by cases hnone⟩
        | ok minted =>
          cases minted with
          | none => exact ⟨hfailed, fun _ _ _ _ hnone ↦ by cases hnone⟩
          | some m =>
            dsimp only
            have hpointers : pointers (recoverInstall tenant id x.outside.clock db).2 =
                pointers w.db := (preserves_recoverInstall id x.outside.clock db).trans hmoved
            have hrecovered : Matched source
                ⟨(recoverInstall tenant id x.outside.clock db).2, w.cache, w.recordings⟩ :=
              h.of_pointers (apart_recoverInstall hsound id _).invariant hpointers
            constructor
            · apply hrecovered.keep
              intro host hto
              rw [hpointers] at hto
              obtain ⟨c, hc, rfl⟩ := Option.map_eq_some_iff.mp hto
              obtain ⟨hprovider, hurl⟩ := h.mintUrl hinstall hc
              rw [hprovider, hurl]
            · intro c hc token origin hreturned
              cases hreturned
              obtain ⟨hprovider, hurl⟩ := h.mintUrl hinstall hc
              rw [hprovider, hurl]

/-- Every operation that keeps the hosts of installed connections keeps what is minted matched
to them. -/
private theorem Matched.step (h : Matched source w) (x : String × TokenOp)
    (hkeeps : x.2.KeepsHosts x.1 w) : Matched source (tokenStep A w x) := by
  obtain ⟨tenant, x⟩ := x
  rw [tokenStep]
  cases x with
  | createConnection body =>
    have hs : Sound source (Tenants.createConnection tenant body w.db).2 :=
      (apart_createConnection h.sound body).invariant
    rcases pointers_onGit _ w.db with hsame | ⟨s, r, c, g, hcreate, hp⟩
    · exact h.of_pointers hs hsame
    · exact h.createConnection hs hcreate hp
  | updateConnection id body =>
    have hs : Sound source (Tenants.updateConnection tenant id body w.db).2 :=
      (apart_updateConnection h.sound id body).invariant
    rcases pointers_onGit _ w.db with hsame | ⟨s, r, c, g, hupdate, hp⟩
    · exact h.of_pointers hs hsame
    · exact h.updateConnection hs hupdate hkeeps hp
  | deleteConnection id =>
    have hforgotten : Matched source (w.forget tenant id) := h.forget id
    have hdeleted : Matched source { w.forget tenant id with
        db := (Tenants.deleteConnection tenant id (w.forget tenant id).db).2 } :=
      hforgotten.deleteConnection id
    rw [db_forget] at hdeleted
    exact hdeleted
  | setGitConfig update => exact h.setGitConfig hkeeps
  | recordInstall id provider installationId account now =>
    exact h.recordInstall id provider installationId account now hkeeps
  | deleteInstall id =>
    have hforgotten : Matched source (w.forget tenant id) := h.forget id
    have hdeleted : Matched source { w.forget tenant id with
        db := (Tenants.deleteInstall tenant id (w.forget tenant id).db).2 } :=
      hforgotten.deleteInstall id
    rw [db_forget] at hdeleted
    exact hdeleted
  | fetch id x => exact (h.fetch id x).1

/-- In every run whose operations keep the hosts of installed connections, every token that is
returned for an installed connection was minted from its install for the host it has. -/
theorem token_matches (A : Aead UInt8) (xs : List (String × TokenOp))
    (hkeeps : EachStep (tokenStep A) (fun w x ↦ x.2.KeepsHosts x.1 w) {} xs) :
    EachStep (tokenStep A) (TokenMatches A) {} xs := by
  apply eachStep_of_invariant (P := Matched countedStates) _ matched_empty hkeeps
  intro w x h hx
  refine ⟨?_, h.step x hx⟩
  intro id inputs hfetch c hc token origin hreturned
  exact (h.fetch id inputs).2 c hc token origin hreturned

/-- A fetch that the provider answers with a token of an hour. -/
private def answered : FetchInputs where
  outside := ⟨0, .ok ⟨"ghs_1", 3600000000⟩, .error .nothingStored⟩
  wrapNonce := plainNonce 1
  resealing := ⟨plainKey 2, plainNonce 3, plainNonce 4⟩
  sealing := ⟨plainKey 5, plainNonce 6, plainNonce 7⟩

/-- A connection is installed and its token fetched. -/
private def installs : List (String × TokenOp) :=
  [("acme", .createConnection { provider := "github" }),
   ("acme", .recordInstall 1 .github (some "42") none 0),
   ("acme", .fetch 1 answered)]

theorem token_matches_installs :
    EachStep (tokenStep (Aead.symbolic UInt8)) (TokenMatches (Aead.symbolic UInt8)) {}
      installs := by
  apply token_matches
  refine ⟨trivial, ?_, trivial, trivial⟩
  intro c hc
  have hcreated : ∃ created, connection (tokenStep (Aead.symbolic UInt8) {}
      ("acme", .createConnection { provider := "github" })).db.access.git "acme" 1 = .ok created ∧
        created.provider = .github := ⟨_, rfl, rfl⟩
  obtain ⟨created, hcreated, hprovider⟩ := hcreated
  rw [hcreated] at hc
  cases hc
  exact hprovider.symm

/-- Then the connection is pointed at another host and its token fetched again. -/
private def moves : List (String × TokenOp) :=
  installs ++
    [("acme", .updateConnection 1 { baseUrl := some (some "https://ghe.acme.dev") }),
     ("acme", .fetch 1 answered)]

/-- The token of the first host is returned for the second. -/
theorem not_token_matches_moves :
    ¬EachStep (tokenStep (Aead.symbolic UInt8)) (TokenMatches (Aead.symbolic UInt8)) {} moves := by
  intro h
  obtain ⟨-, -, -, -, hlast, -⟩ := h
  have hc : ∃ c, connectionOrNone ((installs ++ [("acme", TokenOp.updateConnection 1
      { baseUrl := some (some "https://ghe.acme.dev") })]).foldl (tokenStep (Aead.symbolic UInt8))
        {}).db.access.git "acme" 1 = some c ∧ c.baseUrl = "https://ghe.acme.dev" :=
    ⟨_, rfl, rfl⟩
  obtain ⟨c, hc, hurl⟩ := hc
  have horigin := hlast 1 answered rfl c hc "ghs_1" ⟨1, .github, "https://api.github.com"⟩ rfl
  rw [hurl] at horigin
  have hhosts : "https://api.github.com" = resolvedBaseUrl c.provider.text "https://ghe.acme.dev" :=
    congrArg Origin.baseUrl horigin
  have hmoved : resolvedBaseUrl c.provider.text "https://ghe.acme.dev" = "https://ghe.acme.dev" :=
    rfl
  rw [hmoved] at hhosts
  exact absurd hhosts (by decide)

end CFactory.Tenants
