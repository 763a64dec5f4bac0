import CFactory.Git.InstallToken
import CFactory.Intake.Action
import CFactory.Tenants.InstallRows

/-!
# The install flow

`git_config_ops.py:478–521,556–637`, `git_install.py:306–344,475–521,596–727`,
`cards.py:2037–2137`, `routes_install.py:100–202`. A tenant begins an install of one of its
connections, and a provider sends some browser back with a state. Callbacks are handled side by
side, statement by statement, among whatever the tenants do meanwhile. The clock, what the URL
check raises and what the providers answer are inputs of the steps.
-/

namespace CFactory.Tenants

open CFactory.Base CFactory.Model CFactory.Git CFactory.Cards
open CFactory.Actions (JsonValue)
open CFactory.Credentials (KeyRing Randomness)

/-! ## Beginning an install -/

/-- The settings an install is begun and completed with. -/
structure InstallSettings where
  callbackBaseUrl : Option String := none
  githubAppId : Option String := none
  githubAppSlug : Option String := none
  githubAppPrivateKeyFile : Option String := none
  githubAppPrivateKey : Option String := none
  gitlabClientId : Option String := none
  gitlabClientSecret : Option String := none

/-- What the flow raises. -/
inductive InstallError where
  /-- `{provider} has no install flow (RFC-0020 §3.4 covers github and gitlab) — …`. -/
  | noInstallFlow (provider : Provider)
  /-- `this deployment has no {provider} app registered, so an install cannot be started. …`. -/
  | noApp (provider : Provider)
  /-- `this deployment has no install callback URL configured
  (CFACTORY_INSTALL_CALLBACK_BASE_URL), so an install cannot be started`. -/
  | noCallbackUrl
  /-- `this install link is not valid. It may have already been used, or expired — …`. -/
  | invalidLink
  /-- The message that `safe_git_base_url` raises. -/
  | refusedUrl (message : String)
  /-- `GitHub returned no installation id, so nothing was stored`. -/
  | noInstallationId
  /-- What `app_jwt` raises. -/
  | appKey (message : String)
  /-- `GitHub does not report installation {id!r} for this App. Nothing was stored.` -/
  | unknownInstallation (id : String)
  /-- `GitLab returned no authorization code, so nothing was stored`. -/
  | noCode
  /-- `this deployment has no GitLab OAuth application configured (…)`. -/
  | noOAuthApplication
  /-- `GitLab refused the token request ({status}). Nothing was stored.` -/
  | tokenRefused (status : Nat)
  /-- `GitLab returned no access token`. -/
  | noAccessToken
  /-- `a GitHub installation token is never persisted (RFC-0020 §3.4): …`. -/
  | neverPersisted
  /-- `GitLab returned no refresh token, so this install cannot survive … Nothing was stored.` -/
  | noRefreshToken
  /-- `{provider} has no install flow, so it stores nothing from one`. -/
  | storesNothing (provider : Provider)
  deriving DecidableEq, Repr

/-- `install_available`, of a provider that has a flow; `git_install.py:306–328`. -/
def installAvailable (settings : InstallSettings) (provider : Provider) : Bool :=
  stripped settings.callbackBaseUrl ≠ "" &&
    match provider with
    | .github => stripped settings.githubAppId ≠ "" && stripped settings.githubAppSlug ≠ "" &&
        (Model.truthy settings.githubAppPrivateKeyFile || Model.truthy settings.githubAppPrivateKey)
    | .gitlab => stripped settings.gitlabClientId ≠ "" && stripped settings.gitlabClientSecret ≠ ""
    | .azureDevops => false

/-- `callback_url`; `git_install.py:331–344`. -/
def callbackUrl (settings : InstallSettings) : Except InstallError String :=
  let base := (stripped settings.callbackBaseUrl).toList.reverse.dropWhile (· = '/')
  if base = [] then .error .noCallbackUrl
  else .ok (String.ofList base.reverse ++ "/git/install/callback")

/-- What a callback or a begun install raises. -/
inductive FlowError where
  | install (e : InstallError)
  | store (e : StoreError)
  /-- Anything else. -/
  | failed
  deriving DecidableEq

/-- The outcome of a part of the flow on the tables. -/
abbrev FlowCall := Call FlowError Database

/-- An operation of the store within the flow. -/
def ofStore {α : Type} (x : StoreCall α) : FlowCall α := x.mapError .store

/-- An install that was begun, with the state that was handed out. -/
structure Start where
  tenant : String
  connectionId : Nat
  provider : Provider
  redirectUri : String
  state : String
  startedAt : Time
  deriving DecidableEq

/-- `start_git_install`, up to the URL it hands out; `git_config_ops.py:478–508`. -/
def startGitInstall (source : StateSource) (tenant : String) (settings : InstallSettings) (id : Nat)
    (now : Time) : FlowCall Start := do
  let c ← ofStore (readsGit fun g ↦ connection g tenant id)
  if c.provider = .azureDevops then .raise (.install (.noInstallFlow c.provider))
  else if !installAvailable settings c.provider then .raise (.install (.noApp c.provider))
  else do
    let redirectUri ← .reads fun _ ↦ (callbackUrl settings).mapError .install
    let state ← ofStore (startInstall source tenant id redirectUri now)
    pure ⟨tenant, id, c.provider, redirectUri, state, now⟩

/-! ## What the providers answer -/

/-- What GitHub answers about an installation of this App. -/
inductive InstallationAnswer where
  | notFound
  /-- The call, its status or the JSON of its body raises. -/
  | failed
  /-- The `login` and the `slug` of the account, if the body has one. -/
  | found (account : Option (JsonValue × JsonValue))

/-- The text of a value, if it is true. -/
def textOf (v : JsonValue) : Option String := if v.truthy then some v.text else none

/-- `verify_installation`; `git_install.py:475–505`. -/
def verifyInstallation (appKey : Option String) (answer : InstallationAnswer) (id : String) :
    Except FlowError (Option String) :=
  match appKey with
  | some message => .error (.install (.appKey message))
  | none =>
    match answer with
    | .notFound => .error (.install (.unknownInstallation id))
    | .failed => .error .failed
    | .found account => .ok (account.bind fun a ↦ (textOf a.1).or (textOf a.2))

/-- What GitLab answers to a token request. -/
inductive TokenAnswer where
  | refused (status : Nat)
  /-- The call, the JSON of its body or the whole number of seconds raises. -/
  | failed
  /-- `access_token`, `refresh_token` and, where it is a number, the whole part of `expires_in`,
  if the body is an object. -/
  | answered (body : Option (JsonValue × JsonValue × Option Int))

/-- A text that is not empty. -/
def textValue : JsonValue → Option String
  | .str s => if s = "" then none else some s
  | _ => none

/-- `_DEFAULT_TOKEN_SECONDS`; `git_install.py:103`. -/
def defaultTokenSeconds : Int := 1800

/-- `_gitlab_token_call`; `git_install.py:596–629`. -/
def gitlabTokenCall (answer : TokenAnswer) (now : Time) : Except FlowError OAuthTokens :=
  match answer with
  | .refused status => .error (.install (.tokenRefused status))
  | .failed => .error .failed
  | .answered none => .error (.install .noAccessToken)
  | .answered (some (access, refresh, expiresIn)) =>
    match textValue access with
    | none => .error (.install .noAccessToken)
    | some access =>
      .ok ⟨access, textValue refresh, now + expiresIn.getD defaultTokenSeconds * 1000000⟩

/-- `exchange_code`; `git_install.py:632–658`. -/
def exchangeCode (settings : InstallSettings) (answer : TokenAnswer) (now : Time) :
    Except FlowError OAuthTokens :=
  if stripped settings.gitlabClientId = "" ∨ stripped settings.gitlabClientSecret = "" then
    .error (.install .noOAuthApplication)
  else gitlabTokenCall answer now

/-- `persistable_secret`; `git_install.py:696–727`. -/
def persistableSecret (provider : Provider) (tokens : OAuthTokens) : Except InstallError String :=
  match provider with
  | .github => .error .neverPersisted
  | .gitlab =>
    match tokens.refresh with
    | none => .error .noRefreshToken
    | some refresh => if refresh = "" then .error .noRefreshToken else .ok refresh
  | .azureDevops => .error (.storesNothing .azureDevops)

/-- What a provider has confirmed of a redirect, and at which host. -/
inductive Confirmed where
  /-- An installation of this App, and its account. -/
  | installation (baseUrl id : String) (account : Option String)
  /-- A code that was exchanged under a redirect URI. -/
  | exchange (baseUrl code redirectUri : String) (tokens : OAuthTokens)
  deriving DecidableEq

/-- The host that confirmed. -/
def Confirmed.baseUrl : Confirmed → String
  | .installation baseUrl _ _ => baseUrl
  | .exchange baseUrl _ _ _ => baseUrl

/-- The installation that is recorded. -/
def Confirmed.installationId : Confirmed → Option String
  | .installation _ id _ => some id
  | .exchange _ _ _ _ => none

/-- The account that is recorded. -/
def Confirmed.account : Confirmed → Option String
  | .installation _ _ account => account
  | .exchange _ _ _ _ => none

/-! ## The callback -/

/-- `CallbackQuery`, without what is only logged; `routes_install.py:100–117`. -/
structure CallbackQuery where
  state : String := ""
  installationId : Option String := none
  code : Option String := none
  error : Option String := none
  deriving DecidableEq

/-- What the outside supplies to a step of a callback: the clock, the settings, what
`safe_git_base_url` and `app_jwt` raise, if anything, what the providers answer, and what a
sealing draws. -/
structure CallbackInputs where
  clock : Time
  settings : InstallSettings := {}
  refusedUrl : String → Option String := fun _ ↦ none
  appKey : Option String := none
  installation : InstallationAnswer := .failed
  tokens : TokenAnswer := .failed
  keyring : Option KeyRing := none
  fresh : Randomness

/-- A state that was claimed, and when its expiry was checked. -/
structure Claimed where
  row : InstallStateRow
  claimedAt : Time
  deriving DecidableEq

/-- How far a callback is handled. -/
inductive Callback where
  | called
  | cancelled
  /-- The row is read and its delete not committed. -/
  | selected (row : InstallStateRow)
  | claimed (c : Claimed)
  /-- The host is read off the connection and checked. -/
  | addressed (c : Claimed) (baseUrl : String)
  | confirmed (c : Claimed) (how : Confirmed)
  /-- The secret of the install is sealed. -/
  | sealed (c : Claimed) (how : Confirmed)
  | completed (c : Claimed) (how : Confirmed)
  | refused (why : FlowError)

/-- What happened outside the tables: installs begun, hosts checked, redirects confirmed. -/
inductive FlowEvent where
  | started (s : Start)
  | checked (baseUrl : String)
  | confirmed (how : Confirmed)

/-- The provider is asked; `git_config_ops.py:608–623`. -/
def confirm (query : CallbackQuery) (c : Claimed) (baseUrl : String) (x : CallbackInputs) :
    Except FlowError Confirmed :=
  match c.row.provider with
  | .github =>
    let id := stripped query.installationId
    if id = "" ∨ id.toList.all isDigitChar = false then .error (.install .noInstallationId)
    else (verifyInstallation x.appKey x.installation id).map (.installation baseUrl id)
  | .gitlab =>
    let code := stripped query.code
    if code = "" then .error (.install .noCode)
    else (exchangeCode x.settings x.tokens x.clock).map (.exchange baseUrl code c.row.redirectUri)
  | .azureDevops => .error (.install (.noInstallFlow .azureDevops))

/-- `scoped.record_install`; `git_config_ops.py:625–630`. -/
def recordConfirmed (c : Claimed) (how : Confirmed) (now : Time) : StoreCall GitInstallRow :=
  recordInstall c.row.tenantId c.row.connectionId c.row.provider how.installationId how.account now

/-- The last statement of a callback. -/
def recorded (c : Claimed) (how : Confirmed) (now : Time) (db : Database) : Callback × Database :=
  match recordConfirmed c how now db with
  | (.ok _, db) => (.completed c how, db)
  | (.error e, db) => (.refused (.store e), db)

/-- The next statement of a callback: where it leads, the tables, and what happened outside;
`routes_install.py:138–157`, `git_config_ops.py:588–637`, `cards.py:2064–2105`. -/
def callbackNext (A : Aead UInt8) (source : StateSource) (query : CallbackQuery)
    (x : CallbackInputs) : Callback → Database → (Callback × Database) × List FlowEvent
  | .called, db =>
    if Model.truthy query.error then ((.cancelled, db), [])
    else if stripped (some query.state) = "" then ((.refused (.install .invalidLink), db), [])
    else
      match db.access.pending.find? (·.stateHash == source.digest query.state) with
      | none => ((.refused (.install .invalidLink), db), [])
      | some row => ((.selected row, db), [])
  | .selected row, db =>
    -- the row may be gone, deleted by a callback that selected it as well
    let db := { db with
      access := { db.access with pending := db.access.pending.filter (·.id ≠ row.id) } }
    match unexpired row x.clock with
    | none => ((.refused (.install .invalidLink), db), [])
    | some row => ((.claimed ⟨row, x.clock⟩, db), [])
  | .claimed c, db =>
    match connection db.access.git c.row.tenantId c.row.connectionId with
    | .error e => ((.refused (.store (.git e)), db), [])
    | .ok found =>
      let baseUrl := resolvedBaseUrl c.row.provider.text found.baseUrl
      match x.refusedUrl baseUrl with
      | some message => ((.refused (.install (.refusedUrl message)), db), [])
      | none => ((.addressed c baseUrl, db), [.checked baseUrl])
  | .addressed c baseUrl, db =>
    match confirm query c baseUrl x with
    | .error e => ((.refused e, db), [])
    | .ok how => ((.confirmed c how, db), [.confirmed how])
  | .confirmed c (.exchange baseUrl code redirectUri tokens), db =>
    match persistableSecret .gitlab tokens with
    | .error e => ((.refused (.install e), db), [])
    | .ok secret =>
      match storeInstallSecret A c.row.tenantId c.row.connectionId secret x.keyring x.fresh x.clock
          db with
      | (.ok _, db) => ((.sealed c (.exchange baseUrl code redirectUri tokens), db), [])
      | (.error e, db) => ((.refused (.store e), db), [])
  | .confirmed c (.installation baseUrl id account), db =>
    (recorded c (.installation baseUrl id account) x.clock db, [])
  | .sealed c how, db => (recorded c how x.clock db, [])
  | .completed c how, db => ((.completed c how, db), [])
  | .cancelled, db => ((.cancelled, db), [])
  | .refused why, db => ((.refused why, db), [])

/-! ## The tenants and the callbacks -/

/-- The callbacks, the tables, and what happened outside, oldest first. -/
structure InstallFlow (ι : Type) where
  callback : ι → Callback
  db : Database
  events : List FlowEvent

/-- Nothing is begun. -/
def InstallFlow.empty (ι : Type) : InstallFlow ι := ⟨fun _ ↦ .called, {}, []⟩

/-- An operation that a tenant performs. -/
abbrev TenantOp := { o : StoreOp // o.addsNoInstall = true }

/-- A tenant performs an operation or begins an install, or a callback takes a step. -/
inductive InstallMove (ι : Type) where
  | operation (tenant : Tenant) (o : TenantOp)
  | start (tenant : Tenant) (settings : InstallSettings) (id : Nat) (now : Time)
  | callback (i : ι) (x : CallbackInputs)

section

variable {ι : Type} [DecidableEq ι] (A : Aead UInt8) (source : StateSource)
  (query : ι → CallbackQuery)

/-- One move. -/
def installMove (w : InstallFlow ι) : InstallMove ι → InstallFlow ι
  | .operation tenant o => { w with db := (perform A source tenant o.val w.db).2 }
  | .start tenant settings id now =>
    match startGitInstall source tenant.name settings id now w.db with
    | (.ok s, db) => { w with db := db, events := w.events ++ [.started s] }
    | (.error _, db) => { w with db := db }
  | .callback i x =>
    let next := callbackNext A source (query i) x (w.callback i) w.db
    { callback := Function.update w.callback i next.1.1
      db := next.1.2
      events := w.events ++ next.2 }

/-- Any moves, in any order. -/
def installFlow (moves : List (InstallMove ι)) : InstallFlow ι :=
  moves.foldl (installMove A source query) (.empty ι)

end

end CFactory.Tenants
