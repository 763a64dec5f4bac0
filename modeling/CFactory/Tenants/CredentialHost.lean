import CFactory.Credentials.Rotation
import CFactory.Tenants.Isolation

/-!
# Which host a credential is sent to

`cards.py:1359–1406,1658–1733`, `git_config.py:487–514`. A target pairs a host with a credential.
Where a repository is resolved both come from its connection; where none is, the host comes
from the environment and the credential from the tenant's oldest connection.
-/

namespace CFactory.Tenants

open CFactory.Base CFactory.Model CFactory.Cards CFactory.Git
open CFactory.Credentials (KeyRing Randomness plainKey plainNonce)

/-- A target whose credential is the stored credential or the install of a connection names
that connection's provider and host. -/
def OwnHost (t : AccessTables) (tenant : String) (target : GitTarget) : Prop :=
  ∀ id, target.credential.connection = some id → ∃ c, connectionOrNone t.git tenant id = some c ∧
    target.provider = c.provider.text ∧
      target.baseUrl = resolvedBaseUrl c.provider.text c.baseUrl

/-- Something authenticates the connection: an install or a stored credential. -/
def Authenticated (t : AccessTables) (tenant : String) (id : Nat) : Prop :=
  (installRow t tenant id).isSome ∨ (credentialRow t tenant id).isSome

/-- The environment names the connection's own provider and host. -/
def EnvNames (settings : GitSettings) (c : GitConnectionRow) : Prop :=
  envProvider settings = c.provider.text ∧
    envBaseUrl settings = resolvedBaseUrl c.provider.text c.baseUrl

/-! ## Handles -/

/-- The environment's credential is no connection's. -/
theorem connection_envCredential (token : Option String) :
    (envCredential token).connection = none := by
  unfold envCredential
  split <;> rfl

/-- A handle reads the connection it was asked for, if anything authenticates it. -/
theorem connection_connectionCredential (t : AccessTables) (tenant : String) (id : Nat)
    (settings : GitSettings) :
    (connectionCredential t tenant id settings).connection = some id ∧ Authenticated t tenant id ∨
      (connectionCredential t tenant id settings).connection = none ∧
        ¬Authenticated t tenant id := by
  unfold connectionCredential Authenticated
  cases hinstall : installRow t tenant id with
  | some install =>
    have hid : install.connectionId = id := by
      have hfound := List.find?_some hinstall
      rw [Bool.and_eq_true, beq_iff_eq] at hfound
      exact hfound.1
    exact .inl ⟨congrArg some hid, .inl rfl⟩
  | none =>
    cases hrow : credentialRow t tenant id with
    | some row => exact .inl ⟨rfl, .inr rfl⟩
    | none => exact .inr ⟨connection_envCredential _, by simp⟩

/-! ## Connections of a tenant -/

/-- The oldest connection of a tenant is the one found under its id. -/
theorem connectionOrNone_oldest {g : GitTables} {tenant : String} {c : GitConnectionRow}
    (h : (connectionsOf g tenant).head? = some c) : connectionOrNone g tenant c.id = some c := by
  rw [connectionsOf, List.head?_filter] at h
  rw [connectionOrNone]
  revert h
  generalize g.connections = rows
  intro h
  induction rows with
  | nil => cases h
  | cons row rows ih =>
    by_cases htenant : (row.tenantId == tenant) = true
    · simp only [List.find?_cons, htenant] at h ⊢
      cases h
      simp
    · simp only [List.find?_cons, htenant, Bool.and_false] at h ⊢
      exact ih h

/-! ## Targets -/

/-- A target of a resolved repository names the host of the connection it reads. -/
theorem ownHost_resolved {t : AccessTables} {tenant : String} (settings : GitSettings)
    {resolved : ResolvedRepository}
    (h : connectionOrNone t.git tenant resolved.connection.id = some resolved.connection) :
    OwnHost t tenant (targetFromRepository resolved
      (connectionCredential t tenant resolved.connection.id settings)) := by
  intro id hid
  have hread : (connectionCredential t tenant resolved.connection.id settings).connection =
      some id := hid
  cases connection_connectionCredential t tenant resolved.connection.id settings with
  | inl hown =>
    cases hown.1.symm.trans hread
    exact ⟨resolved.connection, h, rfl, rfl⟩
  | inr hnone => cases hnone.1.symm.trans hread

/-- A target from the environment names the host of the oldest connection, whose credential it
carries, only if the environment happens to. -/
theorem ownHost_env {t : AccessTables} {tenant : String} (settings : GitSettings)
    (hdefault : defaultRepository t.git tenant = none) :
    OwnHost t tenant (targetFromSettings settings tenant (tenantCredential t tenant settings)) ↔
      ∀ c, (connectionsOf t.git tenant).head? = some c →
        Authenticated t tenant c.id → EnvNames settings c := by
  cases holdest : (connectionsOf t.git tenant).head? with
  | none =>
    have hcredential : tenantCredential t tenant settings =
        envCredential (providerToken settings) := by
      rw [tenantCredential, hdefault, holdest]
      rfl
    have hnone := connection_envCredential (providerToken settings)
    rw [← hcredential] at hnone
    apply iff_of_true
    · intro id hid
      cases hnone.symm.trans hid
    · intro c hc
      cases hc
  | some c =>
    have hcredential : tenantCredential t tenant settings =
        connectionCredential t tenant c.id settings := by
      rw [tenantCredential, hdefault, holdest]
      rfl
    have hfound : connectionOrNone t.git tenant c.id = some c := connectionOrNone_oldest holdest
    rw [hcredential]
    constructor
    · intro hown c' hc' hauth
      cases hc'
      cases connection_connectionCredential t tenant c.id settings with
      | inl hread =>
        obtain ⟨c', hc', hnames⟩ := hown c.id hread.1
        cases hfound.symm.trans hc'
        exact hnames
      | inr hnone => exact absurd hauth hnone.2
    · intro hnames id hid
      have hread : (connectionCredential t tenant c.id settings).connection = some id := hid
      cases connection_connectionCredential t tenant c.id settings with
      | inl hown =>
        cases hown.1.symm.trans hread
        exact ⟨c, hfound, hnames c rfl hown.2⟩
      | inr hnone => cases hnone.1.symm.trans hread

/-- The host of the environment does not come into it, or is that of the oldest connection where
something authenticates that one. -/
def HostFits (t : AccessTables) (tenant : String) (settings : GitSettings)
    (repositoryId : Option Nat) (project : Option String) : Prop :=
  resolveRepository t.git tenant repositoryId project = .ok none →
    ∀ c, (connectionsOf t.git tenant).head? = some c → Authenticated t tenant c.id →
      EnvNames settings c

/-- A target that is resolved carries a credential of its own host exactly if that fits. -/
theorem ownHost_iff_fits {t : AccessTables} {tenant : String} {settings : GitSettings}
    {repositoryId : Option Nat} {project : Option String} {target : GitTarget}
    (h : Git.gitTargetFor t tenant settings repositoryId project = .ok target) :
    OwnHost t tenant target ↔ HostFits t tenant settings repositoryId project := by
  rw [Git.gitTargetFor] at h
  cases hresolve : resolveRepository t.git tenant repositoryId project with
  | error e => rw [hresolve] at h; cases h
  | ok resolved =>
    rw [hresolve] at h
    cases resolved with
    | some resolved =>
      cases h
      refine iff_of_true (ownHost_resolved settings (resolves hresolve).connection) ?_
      intro hnone
      rw [hresolve] at hnone
      cases hnone
    | none =>
      cases h
      rw [ownHost_env settings (defaultRepository_none hresolve)]
      exact ⟨fun hnames _ ↦ hnames, fun hnames ↦ hnames hresolve⟩

/-- A credential travels with its own host exactly if a repository is resolved, or the oldest
connection of the tenant is not authenticated, or the environment names its provider and host:
for every state of the tables, all settings, every repository and project asked for, and every
card. -/
theorem own_host_iff (t : AccessTables) (tenant : String) (settings : GitSettings) :
    (∀ repositoryId project target,
      Git.gitTargetFor t tenant settings repositoryId project = .ok target →
        (OwnHost t tenant target ↔ HostFits t tenant settings repositoryId project)) ∧
    ∀ card target, Git.gitTargetForCard t tenant settings card = .ok target →
      (OwnHost t tenant target ↔
        HostFits t tenant settings card.repositoryId (issueProject card.issueRef)) :=
  ⟨fun _ _ _ h ↦ ownHost_iff_fits h, fun _ _ h ↦ ownHost_iff_fits h⟩

/-- A connection of `acme` to the public host of a provider, and a token stored for it. -/
def tokenStored (provider : String) : Store countedStates :=
  ((Store.empty countedStates).run (Aead.symbolic UInt8) acme
    (.op (.createConnection { provider := provider }) fun _ ↦
      .op (.setConnectionCredential 1 "token" (some (KeyRing.single ("v1", plainKey 1)))
        ⟨plainKey 7, plainNonce 8, plainNonce 9⟩ 0) fun _ ↦ .pure ())).2

/-- A deployment for one project on the public GitHub. -/
def githubSettings : GitSettings where
  githubRepo := some "acme/widgets"

/-- Where the connection is to the host that the environment names, its token goes there. -/
theorem github_token_stays :
    OwnHost (tokenStored "github").db.access "acme" (targetFromSettings githubSettings "acme"
      (tenantCredential (tokenStored "github").db.access "acme" githubSettings)) :=
  ((own_host_iff (tokenStored "github").db.access "acme" githubSettings).1 none none _ rfl).mpr
    (by
      intro _ c hc _
      cases hc
      exact ⟨by decide, by decide⟩)

/-- A tenant whose only connection is to GitLab and that has no repository gets a target that
sends its GitLab token to GitHub. -/
theorem gitlab_token_sent_to_github :
    ¬ ∀ (s : Store countedStates) (settings : GitSettings) (repositoryId : Option Nat)
        (project : Option String) (target : GitTarget),
      Git.gitTargetFor s.db.access "acme" settings repositoryId project = .ok target →
        OwnHost s.db.access "acme" target := by
  intro hall
  have hfits : HostFits (tokenStored "gitlab").db.access "acme" githubSettings none none :=
    (ownHost_iff_fits rfl).mp (hall (tokenStored "gitlab") githubSettings none none _ rfl)
  have hnames := hfits rfl
    { id := 1, tenantId := "acme", provider := .gitlab, baseUrl := "", label := "gitlab" } rfl
    (.inr rfl)
  exact absurd hnames.1 (by decide)

end CFactory.Tenants
