import CFactory.Cards.Card
import CFactory.Credentials.Sealing
import CFactory.Git.Configured
import CFactory.Git.InstallState

/-!
# What a git host is reached with

`git_config.py:396–514`, `git_connections.py:340–391`, `cards.py:1331–1406,1643–1742,1980–2035`.
The rows that authenticate a connection, the credential handle of a connection and of a
tenant, and the target a repository, a card or the environment describes.
-/

namespace CFactory.Git

open CFactory.Model CFactory.Credentials CFactory.Cards

/-! ## The rows -/

/-- `GitCredentialRow`; `credentials.py:394–441`. -/
structure GitCredentialRow where
  id : Nat
  tenantId : String
  /-- Empty on a record not yet adopted by a connection. -/
  connectionId : Option Nat
  record : Sealed
  updatedAt : Time
  deriving DecidableEq

/-- `INSTALLED` and `INSTALL_DEGRADED`. -/
inductive InstallStatus where
  | installed
  | degraded
  deriving DecidableEq, Repr

/-- `GitInstallRow`; `git_install.py:150–189`. -/
structure GitInstallRow where
  id : Nat
  tenantId : String
  connectionId : Nat
  provider : Provider
  installationId : Option String
  account : Option String
  status : InstallStatus
  error : Option String
  updatedAt : Time
  deriving DecidableEq, Repr

/-- The tables behind a tenant's access to its hosts, in primary-key order. -/
structure AccessTables where
  git : GitTables := {}
  credentials : List GitCredentialRow := []
  installs : List GitInstallRow := []
  pending : List InstallStateRow := []
  deriving DecidableEq

/-- The settings a target is resolved with; `config.py:106–146,335`. -/
structure GitSettings where
  gitProvider : String := "github"
  gitProviderUrl : Option String := none
  githubApiUrl : String := "https://api.github.com"
  githubRepo : Option String := none
  intakeProjectId : Option String := none
  gitProviderToken : Option String := none
  githubToken : Option String := none
  /-- What `load_keyring` returns; none also where it raises. -/
  keyring : Option KeyRing := none

/-! ## Credential handles -/

/-- `CredentialInfo.source`; `credentials.py:470–474`. -/
inductive CredentialSource where
  | none
  | env
  | tenant
  | install
  deriving DecidableEq, Repr

/-- `CredentialInfo`; `credentials.py:444–460`. -/
structure CredentialInfo where
  configured : Bool := false
  source : CredentialSource := .none
  updatedAt : Option Time := none
  keyVersion : Option String := none
  deriving DecidableEq, Repr

/-- What a handle's `fetch` reads when it is called. -/
inductive Fetch where
  | nothing
  | env (token : String)
  | stored (connectionId : Nat)
  /-- A mint from the connection's install, at a host. -/
  | install (connectionId : Nat) (baseUrl : String)
  deriving DecidableEq, Repr

/-- `Credential`; `credentials.py:470–510`. -/
structure Credential where
  info : CredentialInfo := {}
  fetch : Fetch := .nothing
  deriving DecidableEq, Repr

/-- The connection whose stored credential or install the handle reads. -/
def Credential.connection : Credential → Option Nat
  | ⟨_, .stored id⟩ => some id
  | ⟨_, .install id _⟩ => some id
  | _ => none

/-- The truth value of an optional text. -/
def truthy (text : Option String) : Option String := text.filter (· ≠ "")

/-- `env_credential`; `credentials.py:513–523`. -/
def envCredential (token : Option String) : Credential :=
  match truthy token with
  | none => {}
  | some t => { info := { configured := true, source := .env }, fetch := .env t }

/-- `provider_token`; `git_config.py:396–412`. -/
def providerToken (settings : GitSettings) : Option String :=
  (truthy settings.gitProviderToken).or settings.githubToken

/-- `PROVIDER_DEFAULT_BASE_URL`; `git_config.py:102–106`. -/
def defaultBaseUrl (provider : String) : String :=
  if provider = "github" then "https://api.github.com"
  else if provider = "gitlab" then "https://gitlab.com"
  else if provider = "azure_devops" then "https://dev.azure.com"
  else ""

/-- `resolved_base_url`; `git_connections.py:343–345`. -/
def resolvedBaseUrl (provider baseUrl : String) : String :=
  (truthy (some baseUrl)).getD (defaultBaseUrl provider)

/-- `credential_row`; `cards.py:1643–1656`. -/
def credentialRow (t : AccessTables) (tenant : String) (connectionId : Nat) :
    Option GitCredentialRow :=
  t.credentials.find? fun r ↦ r.connectionId == some connectionId && r.tenantId == tenant

/-- `install_row`; `cards.py:1980–1987`. -/
def installRow (t : AccessTables) (tenant : String) (connectionId : Nat) :
    Option GitInstallRow :=
  t.installs.find? fun r ↦ r.connectionId == connectionId && r.tenantId == tenant

/-- `_holds_key`; `cards.py:1735–1742`. -/
def holdsKey (settings : GitSettings) (keyVersion : String) : Bool :=
  settings.keyring.any fun ring ↦ (ring.find keyVersion).isSome

/-- `_install_credential`; `cards.py:1989–2035`. -/
def installCredential (t : AccessTables) (tenant : String) (install : GitInstallRow) :
    Credential where
  info :=
    { configured := install.status == .installed
      source := .install
      updatedAt := some install.updatedAt }
  fetch := .install install.connectionId (resolvedBaseUrl install.provider.text
    (((connectionOrNone t.git tenant install.connectionId).map (·.baseUrl)).getD ""))

/-- `connection_credential`; `cards.py:1658–1702`. -/
def connectionCredential (t : AccessTables) (tenant : String) (connectionId : Nat)
    (settings : GitSettings) : Credential :=
  match installRow t tenant connectionId with
  | some install => installCredential t tenant install
  | none =>
    match credentialRow t tenant connectionId with
    | none => envCredential (providerToken settings)
    | some row =>
      { info :=
          { configured := holdsKey settings row.record.keyVersion
            source := .tenant
            updatedAt := some row.updatedAt
            keyVersion := some row.record.keyVersion }
        fetch := .stored connectionId }

/-- `_tenant_credential`; `cards.py:1715–1733`. -/
def tenantCredential (t : AccessTables) (tenant : String) (settings : GitSettings) :
    Credential :=
  let connection := ((defaultRepository t.git tenant).map ResolvedRepository.connection).or
    (connectionsOf t.git tenant).head?
  match connection with
  | none => envCredential (providerToken settings)
  | some c => connectionCredential t tenant c.id settings

/-! ## Targets -/

/-- `GitTarget`; `git_config.py:418–456`. -/
structure GitTarget where
  tenant : String
  provider : String
  baseUrl : String
  project : Option String
  importProject : Option String
  aifactoryProjectId : Option String
  defaultLabels : List String
  credential : Credential
  stored : Bool
  verifiedAt : Option Time := none
  verifyError : Option String := none
  credentialRejected : Option Bool := none
  connectionId : Option Nat := none
  repositoryId : Option Nat := none
  deriving DecidableEq, Repr

/-- The provider the environment names; `git_config.py:497`. -/
def envProvider (settings : GitSettings) : String :=
  String.ofList ((stripped (some ((truthy (some settings.gitProvider)).getD "github"))).toList.map
    Status.lower)

/-- The host the environment names; `git_config.py:498–502`. -/
def envBaseUrl (settings : GitSettings) : String :=
  ((truthy settings.gitProviderUrl).or
    (if envProvider settings = "github" then truthy (some settings.githubApiUrl) else none)).getD
      (defaultBaseUrl (envProvider settings))

/-- `target_from_settings`; `git_config.py:487–514`. -/
def targetFromSettings (settings : GitSettings) (tenant : String) (credential : Credential) :
    GitTarget where
  tenant := tenant
  provider := envProvider settings
  baseUrl := envBaseUrl settings
  project := strippedOrNone settings.githubRepo
  importProject := strippedOrNone settings.githubRepo
  aifactoryProjectId := strippedOrNone settings.intakeProjectId
  defaultLabels := []
  credential := credential
  stored := false

/-- `target_from_repository`; `git_connections.py:361–391`. -/
def targetFromRepository (resolved : ResolvedRepository) (credential : Credential) :
    GitTarget where
  tenant := resolved.connection.tenantId
  provider := resolved.connection.provider.text
  baseUrl := resolvedBaseUrl resolved.connection.provider.text resolved.connection.baseUrl
  project := some resolved.repository.project
  importProject := (truthy resolved.repository.intakeProject).or (some resolved.repository.project)
  aifactoryProjectId := resolved.repository.aifactoryProjectId
  defaultLabels := resolved.repository.defaultLabels
  credential := credential
  stored := true
  verifiedAt := resolved.connection.verifiedAt
  verifyError := resolved.connection.verifyError
  credentialRejected := resolved.connection.credentialRejected
  connectionId := some resolved.connection.id
  repositoryId := some resolved.repository.id

/-- `git_target_for`; `cards.py:1359–1383`. -/
def gitTargetFor (t : AccessTables) (tenant : String) (settings : GitSettings)
    (repositoryId : Option Nat) (project : Option String) : Except GitError GitTarget :=
  (resolveRepository t.git tenant repositoryId project).map fun
    | none => targetFromSettings settings tenant (tenantCredential t tenant settings)
    | some resolved =>
      targetFromRepository resolved
        (connectionCredential t tenant resolved.connection.id settings)

/-- `_issue_project`; `cards.py:139–149`. -/
def issueProject (issueRef : Option String) : Option String :=
  match issueRef with
  | none => none
  | some ref =>
    match (ref.toList.reverse.dropWhile (· ≠ '#')) with
    | [] => none
    | _ :: project => strippedOrNone (some (String.ofList project.reverse))

/-- `git_target_for_card`; `cards.py:1385–1406`. -/
def gitTargetForCard (t : AccessTables) (tenant : String) (settings : GitSettings) (card : Card) :
    Except GitError GitTarget :=
  gitTargetFor t tenant settings card.repositoryId (issueProject card.issueRef)

end CFactory.Git
