import CFactory.Access.Keys

/-!
# The gate of the HTTP surface

`auth.py:70–80,120–280`, `app.py:152–190`, `api_deps.py:223–238` and the route modules. What a
request has to present for its handler to run: the middleware's scope for its path and the scope
the route itself asks for. The framework's own documentation pages are left out.
-/

namespace CFactory.Access

open CFactory.Base
open CFactory.Status

/-! ## The key store -/

/-- The configured keys, as they are read from the settings, and the development opt-in;
`auth.py:120–141,210–214`. -/
structure KeyStore where
  keys : Keys
  spelled : ∀ e ∈ keys.entries, Spelled e
  devOpen : Bool

/-- `get_keystore`; `auth.py:210–214`. -/
def KeyStore.ofSettings (apiKeys : Option String) (devOpen : Bool) : KeyStore :=
  ⟨parseApiKeys apiKeys, spelled_parseApiKeys apiKeys, devOpen⟩

/-- What is raised instead of letting a request through: an HTTP error, with or without the
`WWW-Authenticate` header, or a `TypeError`, which nobody catches. -/
inductive Denial where
  | http (status : Nat) (detail : String) (bearer : Bool)
  | typeError
  deriving DecidableEq, Repr

/-- `KeyStore.configured`; `auth.py:138–141`. -/
def KeyStore.configured (ks : KeyStore) : Bool := ks.keys.entries ≠ []

/-- `KeyStore.open`; `auth.py:143–146`. -/
def KeyStore.isOpen (ks : KeyStore) : Bool := !ks.configured && ks.devOpen

/-- A text that a comparison in constant time is defined for. -/
def isAscii (s : String) : Bool := s.toList.all (·.val < 128)

/-- `secret_matches`; `auth.py:70–80`. -/
def secretMatches (candidate expected : Option String) : Except Denial Bool :=
  let c := candidate.getD ""
  let e := expected.getD ""
  if c = "" ∨ e = "" then .ok false
  else if isAscii c ∧ isAscii e then .ok (decide (c = e))
  else .error .typeError

/-- Every configured key is compared, and the last match counts; `auth.py:160–164`. -/
def matchKey (key : String) (matched : Option (List String)) :
    List (String × List String) → Except Denial (Option (List String))
  | [] => .ok matched
  | (known, scopes) :: rest =>
    match secretMatches (some key) (some known) with
    | .error d => .error d
    | .ok true => matchKey key (some scopes) rest
    | .ok false => matchKey key matched rest

/-- `KeyStore.scopes_for`; `auth.py:148–164`. -/
def KeyStore.scopesFor (ks : KeyStore) (key : Option String) :
    Except Denial (Option (List String)) :=
  match key with
  | none => .ok none
  | some k => matchKey k none ks.keys.entries

/-- The first key with a scope, in the order of the configuration. -/
def firstWith (scope : Scope) (entries : List (String × List String)) : Option String :=
  (entries.find? (scope.text ∈ ·.2)).map Prod.fst

/-- `KeyStore.preferred_key`; `auth.py:166–180`. -/
def KeyStore.preferredKey (ks : KeyStore) : Option String :=
  (firstWith .write ks.keys.entries).or
    ((firstWith .read ks.keys.entries).or (ks.keys.entries.head?.map Prod.fst))

/-- `KeyStore.authorize`; `auth.py:182–207`. -/
def KeyStore.authorize (ks : KeyStore) (key : Option String) (scope : Scope) :
    Except Denial Unit :=
  if !ks.configured then
    if ks.devOpen then .ok ()
    else .error (.http 401 ("no API keys configured: set CFACTORY_API_KEYS " ++
      "(or CFACTORY_API_DEV_OPEN=true for local dev only)") true)
  else
    match ks.scopesFor key with
    | .error d => .error d
    | .ok none => .error (.http 401 "missing or invalid API key" true)
    | .ok (some scopes) =>
      if scope.text ∈ scopes then .ok ()
      else .error (.http 403 ("API key lacks required scope: '" ++ scope.text ++ "'") false)

/-- The headers that carry a key. -/
structure Headers where
  authorization : Option String
  xApiKey : Option String
  deriving DecidableEq, Repr

/-- The text of a header, trimmed; no header and a blank one carry nothing. -/
def headerText (header : Option String) : Option String :=
  let text := trim isSpace (header.getD "").toList
  if text = [] then none else some (String.ofList text)

/-- The token of an `Authorization: Bearer` header; `auth.py:234–237`. -/
def bearerToken (authorization : Option String) : Option String :=
  let (scheme, token) := partition ' ' (authorization.getD "").toList
  if lowerText (String.ofList scheme) = "bearer" then headerText (some (String.ofList token))
  else none

/-- `extract_key`; `auth.py:232–240`. -/
def extractKey (h : Headers) : Option String :=
  (bearerToken h.authorization).or (headerText h.xApiKey)

/-- `authorize_headers`, and `require_scope`, which does the same for one route;
`auth.py:243–280`. -/
def authorizeHeaders (ks : KeyStore) (h : Headers) (scope : Scope) : Except Denial Unit :=
  if ks.isOpen then .ok () else ks.authorize (extractKey h) scope

/-! ## The routes -/

/-- How a route is asked for. -/
inductive Method where
  | get
  | post
  | put
  | patch
  | delete
  | websocket
  deriving DecidableEq, Repr

/-- A route: the texts of its path between the parameters, and the scope it asks for itself. -/
structure Route where
  method : Method
  path : List String
  requires : Option Scope
  deriving DecidableEq, Repr

/-- `routes_health.py`. -/
def healthRoutes : List Route :=
  [⟨.get, ["/health"], none⟩]

/-- `routes_well_known.py`. -/
def wellKnownRoutes : List Route :=
  [⟨.get, ["/.well-known/agent-skills/index.json"], none⟩,
    ⟨.get, ["/.well-known/agent-skills/fleet.json"], none⟩]

/-- `routes_events.py`. -/
def eventRoutes : List Route :=
  [⟨.post, ["/api/events"], none⟩, ⟨.post, ["/api/events/completion"], none⟩,
    ⟨.post, ["/api/refresh"], none⟩]

/-- `routes_services.py`. -/
def serviceRoutes : List Route :=
  [⟨.get, ["/api/services"], none⟩, ⟨.get, ["/api/provider-health"], none⟩,
    ⟨.put, ["/api/services/", ""], some .write⟩]

/-- `routes_workitems.py`. -/
def workitemRoutes : List Route :=
  [⟨.get, ["/api/workitems"], none⟩, ⟨.get, ["/api/search"], none⟩,
    ⟨.get, ["/api/needs-you/count"], none⟩, ⟨.get, ["/api/rollups"], none⟩,
    ⟨.get, ["/api/tokens"], none⟩, ⟨.get, ["/api/tokens/by_worker"], none⟩,
    ⟨.get, ["/api/tasks/", "/worker-progress"], none⟩,
    ⟨.get, ["/api/tasks/", "/cost-routing"], none⟩, ⟨.get, ["/api/progress"], none⟩,
    ⟨.get, ["/api/anomalies"], none⟩, ⟨.get, ["/api/workitems/", ""], none⟩,
    ⟨.get, ["/api/workitems/", "/timeline"], none⟩, ⟨.get, ["/api/workitems/", "/process"], none⟩,
    ⟨.get, ["/api/workitems/", "/evidence/", "/", ""], none⟩]

/-- `routes_live_agents.py`. -/
def liveAgentRoutes : List Route :=
  [⟨.get, ["/api/live-agents"], none⟩, ⟨.websocket, ["/api/live-agents/", "/ws"], none⟩]

/-- `routes_actions.py`. -/
def actionRoutes : List Route :=
  [⟨.post, ["/api/actions/propose"], none⟩, ⟨.post, ["/api/actions/execute"], some .write⟩,
    ⟨.get, ["/api/audit"], none⟩, ⟨.get, ["/api/audit/chain"], none⟩,
    ⟨.get, ["/api/activity"], none⟩]

/-- `routes_cards.py`. -/
def cardRoutes : List Route :=
  [⟨.get, ["/api/cards"], some .read⟩, ⟨.post, ["/api/cards"], some .write⟩,
    ⟨.post, ["/api/cards/import"], some .write⟩, ⟨.get, ["/api/cards/sync-state"], some .read⟩,
    ⟨.get, ["/api/cards/", ""], some .read⟩, ⟨.get, ["/api/cards/", "/comments"], some .read⟩,
    ⟨.patch, ["/api/cards/", ""], some .write⟩,
    ⟨.post, ["/api/cards/", "/sync-github"], some .write⟩,
    ⟨.post, ["/api/cards/", "/actions/plan"], some .write⟩,
    ⟨.post, ["/api/cards/", "/actions/code"], some .write⟩,
    ⟨.post, ["/api/cards/", "/actions/test"], some .write⟩,
    ⟨.post, ["/api/cards/", "/actions/run"], some .write⟩,
    ⟨.delete, ["/api/cards/", ""], some .write⟩]

/-- `routes_git_config.py`. -/
def gitConfigRoutes : List Route :=
  [⟨.get, ["/api/tenants/", "/git-capabilities"], some .read⟩,
    ⟨.get, ["/api/tenants/", "/git-config"], some .read⟩,
    ⟨.put, ["/api/tenants/", "/git-config"], some .write⟩,
    ⟨.post, ["/api/tenants/", "/git-config:verify"], some .write⟩,
    ⟨.put, ["/api/tenants/", "/git-credential"], some .write⟩,
    ⟨.delete, ["/api/tenants/", "/git-credential"], some .write⟩,
    ⟨.get, ["/api/tenants/", "/git-connections"], some .read⟩,
    ⟨.post, ["/api/tenants/", "/git-connections"], some .write⟩,
    ⟨.patch, ["/api/tenants/", "/git-connections/", ""], some .write⟩,
    ⟨.delete, ["/api/tenants/", "/git-connections/", ""], some .write⟩,
    ⟨.post, ["/api/tenants/", "/git-connections/", ":verify"], some .write⟩,
    ⟨.put, ["/api/tenants/", "/git-connections/", "/credential"], some .write⟩,
    ⟨.delete, ["/api/tenants/", "/git-connections/", "/credential"], some .write⟩,
    ⟨.post, ["/api/tenants/", "/git-connections/", "/install:start"], some .write⟩,
    ⟨.delete, ["/api/tenants/", "/git-connections/", "/install"], some .write⟩,
    ⟨.get, ["/api/tenants/", "/git-repositories"], some .read⟩,
    ⟨.post, ["/api/tenants/", "/git-connections/", "/repositories"], some .write⟩,
    ⟨.patch, ["/api/tenants/", "/git-repositories/", ""], some .write⟩,
    ⟨.delete, ["/api/tenants/", "/git-repositories/", ""], some .write⟩,
    ⟨.post, ["/api/tenants/", "/git-repositories/", ":default"], some .write⟩]

/-- `routes_install.py`. -/
def installRoutes : List Route :=
  [⟨.get, ["/git/install/callback"], none⟩]

/-- `routes_copilot.py`. -/
def copilotRoutes : List Route :=
  [⟨.post, ["/api/copilot/ask"], none⟩, ⟨.get, ["/api/copilot/provider"], none⟩,
    ⟨.get, ["/api/settings"], none⟩, ⟨.put, ["/api/settings/copilot"], some .write⟩]

/-- `routes_connect.py`. -/
def connectRoutes : List Route :=
  [⟨.get, ["/api/settings/token"], none⟩, ⟨.get, ["/connect/vscode"], none⟩]

/-- `routes_ws.py`. -/
def feedRoutes : List Route :=
  [⟨.websocket, ["/api/ws"], none⟩]

/-- `mcp.py`. -/
def mcpRoutes : List Route :=
  [⟨.post, ["/mcp"], none⟩]

/-- All routers of the application; `app.py:191–216`. -/
def routes : List Route :=
  healthRoutes ++ wellKnownRoutes ++ eventRoutes ++ serviceRoutes ++ workitemRoutes ++
    liveAgentRoutes ++ actionRoutes ++ cardRoutes ++ gitConfigRoutes ++ installRoutes ++
    copilotRoutes ++ connectRoutes ++ feedRoutes ++ mcpRoutes

/-- A path with its parameters filled in. -/
def fillPath : List String → List String → String
  | [], _ => ""
  | [last], _ => last
  | text :: rest, [] => text ++ fillPath rest []
  | text :: rest, arg :: args => text ++ (arg ++ fillPath rest args)

/-- `path.startswith`. -/
def startsWith (path start : String) : Bool := decide (start.toList <+: path.toList)

/-- The paths the middleware guards; `app.py:166`. -/
def guarded (path : String) : Bool := startsWith path "/api/" || startsWith path "/connect/"

/-- The paths of the inbound webhook; `app.py:83,168`. -/
def isEvents (path : String) : Bool := startsWith path "/api/events"

/-- Whether a refused webhook call is let through; `app.py:177`. -/
def warns (eventsAuthMode : String) : Bool :=
  lowerText (String.ofList (trim isSpace eventsAuthMode.toList)) = "warn"

/-- `enforce_api_key`; `app.py:163–189`. -/
def enforceApiKey (ks : KeyStore) (eventsAuthMode path : String) (h : Headers) :
    Except Denial Unit :=
  if guarded path then
    match authorizeHeaders ks h (if isEvents path then .write else .read) with
    | .ok () => .ok ()
    | .error .typeError => .error .typeError
    | .error d => if isEvents path && warns eventsAuthMode then .ok () else .error d
  else .ok ()

/-- Whether the handler of a route runs: the middleware, then the route's own scope. No
middleware runs for a WebSocket, whose handler asks for READ itself; `api_deps.py:223–238`. -/
def letIn (ks : KeyStore) (eventsAuthMode : String) (r : Route) (args : List String)
    (h : Headers) : Except Denial Unit :=
  if r.method = .websocket then authorizeHeaders ks h .read
  else
    match enforceApiKey ks eventsAuthMode (fillPath r.path args) h with
    | .error d => .error d
    | .ok () =>
      match r.requires with
      | none => .ok ()
      | some scope => authorizeHeaders ks h scope

/-! ## What a key is allowed -/

/-- A key that can be compared with every one of these. -/
def comparable (key : String) (entries : List (String × List String)) : Bool :=
  entries.all fun e ↦ isAscii key && isAscii e.1

/-- A presented key that can be compared with every configured one. -/
def Comparable (ks : KeyStore) (key : String) : Prop := comparable key ks.keys.entries = true

instance (ks : KeyStore) (key : String) : Decidable (Comparable ks key) :=
  inferInstanceAs (Decidable (comparable key ks.keys.entries = true))

/-- The key is configured with the scope. -/
def Holds (ks : KeyStore) (key : String) (scope : Scope) : Prop :=
  Comparable ks key ∧ ∃ scopes, ks.keys.get? key = some scopes ∧ scope.text ∈ scopes

/-- The request presents a key that has the scope. -/
def Presents (ks : KeyStore) (h : Headers) (scope : Scope) : Prop :=
  ∃ key, extractKey h = some key ∧ Holds ks key scope

theorem headerText_ne {header : Option String} {key : String} (h : headerText header = some key) :
    key ≠ "" := by
  rw [headerText] at h
  split at h
  · cases h
  · next hne =>
    rintro rfl
    apply hne
    rw [← String.toList_ofList (l := trim isSpace (header.getD "").toList), Option.some.inj h]
    rfl

/-- No empty key is extracted. -/
theorem extractKey_ne {h : Headers} {key : String} (hkey : extractKey h = some key) : key ≠ "" := by
  rw [extractKey] at hkey
  cases hb : bearerToken h.authorization with
  | none =>
    rw [hb, Option.none_or] at hkey
    exact headerText_ne hkey
  | some token =>
    rw [hb, Option.some_or] at hkey
    rw [bearerToken] at hb
    split at hb
    rw [← Option.some.inj hkey]
    split at hb
    · exact headerText_ne hb
    · cases hb

/-- Comparing goes through all keys, and the last match counts. -/
theorem matchKey_eq {key : String} (hkey : key ≠ "") (matched : Option (List String))
    {entries : List (String × List String)} (hentries : ∀ e ∈ entries, e.1 ≠ "")
    (hnodup : (entries.map Prod.fst).Nodup) :
    matchKey key matched entries =
      if comparable key entries then .ok ((entries.lookup key).or matched)
      else .error .typeError := by
  induction entries generalizing matched with
  | nil => simp [matchKey, comparable]
  | cons e rest ih =>
    obtain ⟨known, scopes⟩ := e
    have hknown : known ≠ "" := hentries (known, scopes) List.mem_cons_self
    obtain ⟨hnotin, hrest⟩ := List.nodup_cons.mp hnodup
    have ih' := fun m ↦ ih m (fun x hx ↦ hentries x (List.mem_cons_of_mem _ hx)) hrest
    have hmatch : secretMatches (some key) (some known) =
        if isAscii key && isAscii known then .ok (decide (key = known))
        else .error .typeError := by
      simp [secretMatches, hkey, hknown]
    rw [matchKey, hmatch, comparable, List.all_cons]
    cases hascii : isAscii key && isAscii known with
    | false => simp
    | true =>
      simp only [if_true, Bool.true_and]
      by_cases heq : key = known
      · subst heq
        have habsent : rest.lookup key = none := by
          rw [List.lookup_eq_none_iff]
          intro x hx
          have hne : x.1 ≠ key := by
            rintro rfl
            exact hnotin (List.mem_map.mpr ⟨x, hx, rfl⟩)
          simpa using Ne.symm hne
        simp only [decide_true]
        rw [ih', habsent, List.lookup_cons_self]
        rfl
      · have hne : (key == known) = false := by simpa using heq
        simp only [heq, decide_false]
        rw [ih', List.lookup_cons, hne]
        rfl

/-- `scopes_for` looks the key up, or raises for a text that cannot be compared. -/
theorem scopesFor_eq (ks : KeyStore) {key : String} (hkey : key ≠ "") :
    ks.scopesFor (some key) =
      if Comparable ks key then .ok (ks.keys.get? key) else .error .typeError := by
  have hentries : ∀ e ∈ ks.keys.entries, e.1 ≠ "" := by
    rintro e he hempty
    apply (ks.spelled e he).key.nonempty
    rw [hempty]
    rfl
  rw [KeyStore.scopesFor, matchKey_eq hkey none hentries ks.keys.nodup, Option.or_none]
  rfl

theorem not_holds_of_unconfigured {ks : KeyStore} (h : ks.configured = false) (key : String)
    (scope : Scope) : ¬ Holds ks key scope := by
  rintro ⟨-, scopes, hget, -⟩
  have hmem := (Dict.get?_eq_some_iff ks.keys key scopes).mp hget
  have hnil : ks.keys.entries = [] := by simpa [KeyStore.configured] using h
  rw [hnil] at hmem
  cases hmem

/-- A request is authorized exactly in the open mode or with a key that has the scope. -/
theorem authorizeHeaders_ok_iff (ks : KeyStore) (h : Headers) (scope : Scope) :
    authorizeHeaders ks h scope = .ok () ↔ ks.isOpen = true ∨ Presents ks h scope := by
  rw [authorizeHeaders]
  by_cases hopen : ks.isOpen = true
  · simp [hopen]
  · rw [if_neg hopen]
    simp only [hopen, Bool.false_eq_true, false_or]
    rw [KeyStore.authorize]
    cases hconf : ks.configured with
    | false =>
      have hdev : ks.devOpen = false := by
        simpa [KeyStore.isOpen, hconf] using hopen
      simp only [hdev, Bool.not_false, if_true, Bool.false_eq_true, if_false, reduceCtorEq,
        false_iff]
      rintro ⟨key, -, hholds⟩
      exact not_holds_of_unconfigured hconf key scope hholds
    | true =>
      simp only [Bool.not_true, Bool.false_eq_true, if_false]
      cases hkey : extractKey h with
      | none => simp [KeyStore.scopesFor, Presents, hkey]
      | some key =>
        rw [scopesFor_eq ks (extractKey_ne hkey)]
        simp only [Presents, hkey, Option.some.injEq, exists_eq_left', Holds]
        by_cases hcomp : Comparable ks key
        · rw [if_pos hcomp]
          cases hget : ks.keys.get? key with
          | none => simp [hcomp]
          | some scopes => simp [hcomp]
        · rw [if_neg hcomp]
          simp [hcomp]

/-- A request raises out of its authorization exactly where keys are configured and it presents
one that cannot be compared. -/
theorem authorizeHeaders_typeError_iff (ks : KeyStore) (h : Headers) (scope : Scope) :
    authorizeHeaders ks h scope = .error .typeError ↔
      ∃ key, extractKey h = some key ∧ ¬ Comparable ks key := by
  rw [authorizeHeaders, KeyStore.authorize]
  cases hconf : ks.configured with
  | false =>
    have hnil : ks.keys.entries = [] := by simpa [KeyStore.configured] using hconf
    have hall : ∀ key, Comparable ks key := by simp [Comparable, comparable, hnil]
    cases hdev : ks.devOpen <;> simp [KeyStore.isOpen, hconf, hdev, hall]
  | true =>
    simp only [KeyStore.isOpen, hconf, Bool.not_true, Bool.false_and, Bool.false_eq_true, if_false]
    cases hkey : extractKey h with
    | none => simp [KeyStore.scopesFor]
    | some key =>
      rw [scopesFor_eq ks (extractKey_ne hkey)]
      by_cases hcomp : Comparable ks key
      · rw [if_pos hcomp]
        cases hget : ks.keys.get? key with
        | none => simp [hcomp]
        | some scopes =>
          simp only [Option.some.injEq, exists_eq_left', hcomp, not_true, iff_false]
          split <;> simp
      · rw [if_neg hcomp]
        simp [hcomp]

/-! ## Which requests reach a handler -/

/-- A fixed text begins a path or not, whatever the path's parameters. -/
theorem startsWith_fillPath {start text : String} {rest args : List String}
    (h : text.toList <+: start.toList → start.toList <+: text.toList) (hrest : rest ≠ []) :
    startsWith (fillPath (text :: rest) args) start = startsWith text start := by
  obtain ⟨more, hfill⟩ : ∃ more, (fillPath (text :: rest) args).toList = text.toList ++ more := by
    cases rest with
    | nil => exact absurd rfl hrest
    | cons next rest =>
      cases args with
      | nil => exact ⟨(fillPath (next :: rest) []).toList, by simp [fillPath]⟩
      | cons arg args => exact ⟨(arg ++ fillPath (next :: rest) args).toList, by simp [fillPath]⟩
  simp only [startsWith, hfill, decide_eq_decide]
  constructor
  · intro hpath
    rcases List.prefix_or_prefix_of_prefix hpath (List.prefix_append text.toList more) with hp | hp
    · exact hp
    · exact h hp
  · intro htext
    exact htext.trans (List.prefix_append text.toList more)

/-- The text of a path before its first parameter. -/
def Route.root (r : Route) : String := r.path.head?.getD ""

/-- The texts that the middleware looks for. -/
def starts : List String := ["/api/", "/connect/", "/api/events"]

/-- The text of a path before its first parameter tells whether the path begins with a text that
the middleware looks for. -/
def Route.decides (r : Route) : Bool :=
  r.path ≠ [] && starts.all fun start ↦
    !decide (r.root.toList <+: start.toList) || decide (start.toList <+: r.root.toList)

private theorem decides_routes : routes.all Route.decides = true := by decide +kernel

theorem startsWith_route {r : Route} (h : r.decides = true) (args : List String) {start : String}
    (hstart : start ∈ starts) :
    startsWith (fillPath r.path args) start = startsWith r.root start := by
  rw [Route.decides, Bool.and_eq_true, List.all_eq_true] at h
  obtain ⟨hne, hall⟩ := h
  have hbegin := hall start hstart
  obtain ⟨method, path, requires⟩ := r
  match path with
  | [] => simp at hne
  | [text] => rfl
  | text :: next :: rest =>
    refine startsWith_fillPath (fun hp ↦ ?_) (by simp)
    have hroot : Route.root ⟨method, text :: next :: rest, requires⟩ = text := rfl
    rw [hroot, decide_eq_true hp] at hbegin
    simpa using hbegin

/-- Whether the middleware guards a route. -/
def Route.guarded (r : Route) : Bool := Access.guarded r.root && r.method ≠ .websocket

/-- Whether a route belongs to the inbound webhook. -/
def Route.events (r : Route) : Bool := isEvents r.root

/-- What a request needs for the handler of a route: the scope of the surface and that of the
route. -/
def Route.needs (r : Route) : List Scope :=
  if r.method = .websocket then [.read]
  else (if r.guarded then [if r.events then .write else .read] else []) ++ r.requires.toList

/-- The webhook's routes are guarded and ask for no scope of their own. -/
def Route.plainEvents (r : Route) : Bool := !r.events || (r.guarded && r.requires.isNone)

private theorem plainEvents_routes : routes.all Route.plainEvents = true := by decide +kernel

theorem Route.guarded_fill {r : Route} (h : r.decides = true) (args : List String) :
    Access.guarded (fillPath r.path args) = Access.guarded r.root ∧
      isEvents (fillPath r.path args) = r.events := by
  refine ⟨?_, startsWith_route h args (by simp [starts])⟩
  rw [Access.guarded, Access.guarded, startsWith_route h args (by simp [starts]),
    startsWith_route h args (by simp [starts])]

theorem letIn_of_ok {ks : KeyStore} {eventsAuthMode : String} {r : Route} {args : List String}
    {h : Headers} (hws : r.method ≠ .websocket)
    (hgate : enforceApiKey ks eventsAuthMode (fillPath r.path args) h = .ok ()) :
    letIn ks eventsAuthMode r args h = .ok () ↔
      ks.isOpen = true ∨ ∀ scope ∈ r.requires, Presents ks h scope := by
  rw [letIn, if_neg hws, hgate]
  cases hreq : r.requires with
  | none => simp
  | some scope => simp [authorizeHeaders_ok_iff]

theorem letIn_of_error {ks : KeyStore} {eventsAuthMode : String} {r : Route} {args : List String}
    {h : Headers} (hws : r.method ≠ .websocket) {d : Denial}
    (hgate : enforceApiKey ks eventsAuthMode (fillPath r.path args) h = .error d) :
    letIn ks eventsAuthMode r args h ≠ .ok () := by
  rw [letIn, if_neg hws, hgate]
  simp

/-- A request reaches the handler of a route exactly if it has every scope the route needs, where
keys are asked for at all; but a call of the webhook is let through in the warn mode, unless its
key cannot be compared. -/
theorem letIn_iff (ks : KeyStore) (eventsAuthMode : String) {r : Route} (hr : r ∈ routes)
    (args : List String) (h : Headers) :
    letIn ks eventsAuthMode r args h = .ok () ↔
      ks.isOpen = true ∨ (∀ scope ∈ r.needs, Presents ks h scope) ∨
        (r.events = true ∧ warns eventsAuthMode = true ∧
          ∀ key, extractKey h = some key → Comparable ks key) := by
  obtain ⟨hguard, hevents⟩ := Route.guarded_fill (List.all_eq_true.mp decides_routes r hr) args
  have hplain : r.events = true → r.guarded = true ∧ r.requires = none := by
    intro he
    have hall := List.all_eq_true.mp plainEvents_routes r hr
    simpa [Route.plainEvents, he] using hall
  by_cases hws : r.method = .websocket
  · have hno : r.events = false := by
      rw [Bool.eq_false_iff]
      intro he
      have := (hplain he).1
      simp [Route.guarded, hws] at this
    rw [letIn, if_pos hws, authorizeHeaders_ok_iff]
    simp [Route.needs, hws, hno]
  have hgr : r.guarded = Access.guarded r.root := by simp [Route.guarded, hws]
  cases hg : Access.guarded r.root with
  | false =>
    -- Nothing is guarded here, so nothing of it belongs to the webhook.
    have hno : r.events = false := by
      rw [Bool.eq_false_iff]
      intro he
      have := (hplain he).1
      rw [hgr, hg] at this
      cases this
    have hgate : enforceApiKey ks eventsAuthMode (fillPath r.path args) h = .ok () := by
      rw [enforceApiKey, hguard, hg]
      rfl
    rw [letIn_of_ok hws hgate]
    simp [Route.needs, hws, hgr, hg, hno]
  | true =>
    have hneeds : r.needs = (if r.events then .write else .read) :: r.requires.toList := by
      rw [Route.needs, if_neg hws, hgr, hg]
      rfl
    rw [hneeds, List.forall_mem_cons]
    have hok := authorizeHeaders_ok_iff ks h (if r.events then .write else .read)
    have htype := authorizeHeaders_typeError_iff ks h (if r.events then .write else .read)
    have hgate : enforceApiKey ks eventsAuthMode (fillPath r.path args) h =
        match authorizeHeaders ks h (if r.events then .write else .read) with
        | .ok () => .ok ()
        | .error .typeError => .error .typeError
        | .error d => if r.events && warns eventsAuthMode then .ok () else .error d := by
      rw [enforceApiKey, hguard, hg, hevents, if_pos rfl]
    match hauth : authorizeHeaders ks h (if r.events then .write else .read) with
    | .ok () =>
      rw [hauth] at hgate hok
      have hpass := hok.mp rfl
      rw [letIn_of_ok hws hgate]
      constructor
      · rintro (hopen | hreq)
        · exact .inl hopen
        · exact hpass.imp_right fun hpresents ↦ .inl ⟨hpresents, by simpa using hreq⟩
      · rintro (hopen | ⟨-, hreq⟩ | ⟨he, -, -⟩)
        · exact .inl hopen
        · exact .inr (by simpa using hreq)
        · exact .inr (by simp [(hplain he).2])
    | .error .typeError =>
      rw [hauth] at hgate hok htype
      obtain ⟨key, hkey, hcomp⟩ := htype.mp rfl
      have hnot : ¬ (ks.isOpen = true ∨ Presents ks h (if r.events then .write else .read)) :=
        fun hp ↦ absurd (hok.mpr hp) (by simp)
      refine iff_of_false (letIn_of_error hws hgate) ?_
      rintro (hopen | ⟨hpresents, -⟩ | ⟨-, -, hall⟩)
      · exact hnot (.inl hopen)
      · exact hnot (.inr hpresents)
      · exact hcomp (hall key hkey)
    | .error (.http status detail bearer) =>
      rw [hauth] at hgate hok htype
      have hnot : ¬ (ks.isOpen = true ∨ Presents ks h (if r.events then .write else .read)) :=
        fun hp ↦ absurd (hok.mpr hp) (by simp)
      have hcomp : ∀ key, extractKey h = some key → Comparable ks key := by
        intro key hkey
        by_contra hncomp
        exact absurd (htype.mpr ⟨key, hkey, hncomp⟩) (by simp)
      cases hwarn : r.events && warns eventsAuthMode with
      | true =>
        simp only [hwarn, if_true] at hgate
        obtain ⟨he, hw⟩ := Bool.and_eq_true_iff.mp hwarn
        rw [letIn_of_ok hws hgate]
        exact iff_of_true (.inr (by simp [(hplain he).2])) (.inr (.inr ⟨he, hw, hcomp⟩))
      | false =>
        simp only [hwarn, Bool.false_eq_true, if_false] at hgate
        refine iff_of_false (letIn_of_error hws hgate) ?_
        rintro (hopen | ⟨hpresents, -⟩ | ⟨he, hw, -⟩)
        · exact hnot (.inl hopen)
        · exact hnot (.inr hpresents)
        · rw [he, hw] at hwarn
          cases hwarn

/-- The routes that no key guards. -/
def openRoutes : List Route := healthRoutes ++ wellKnownRoutes ++ installRoutes ++ mcpRoutes

private theorem needs_openRoutes : ∀ r ∈ routes, r.needs = [] ↔ r ∈ openRoutes := by
  decide +kernel

/-- Whatever keys are configured and whatever a request carries: it reaches the handler of a route
exactly if it has every scope the route needs, where keys are asked for at all, or if it is a call
of the webhook in the warn mode whose key can be compared. Once keys are configured, a request
without one reaches the open routes, and the webhook in the warn mode, and nothing else. -/
theorem gate_exact (ks : KeyStore) (eventsAuthMode : String) (r : Route) (hr : r ∈ routes)
    (args : List String) (h : Headers) :
    (letIn ks eventsAuthMode r args h = .ok () ↔
      ks.isOpen = true ∨ (∀ scope ∈ r.needs, Presents ks h scope) ∨
        (r.events = true ∧ warns eventsAuthMode = true ∧
          ∀ key, extractKey h = some key → Comparable ks key)) ∧
    (ks.configured = true → extractKey h = none →
      (letIn ks eventsAuthMode r args h = .ok () ↔
        r ∈ openRoutes ∨ (r.events = true ∧ warns eventsAuthMode = true))) := by
  refine ⟨letIn_iff ks eventsAuthMode hr args h, fun hconf hkey ↦ ?_⟩
  have hclosed : ks.isOpen = false := by simp [KeyStore.isOpen, hconf]
  have hnone : ∀ scope, ¬ Presents ks h scope := by
    rintro scope ⟨key, hsome, -⟩
    rw [hkey] at hsome
    cases hsome
  have hneeds : (∀ scope ∈ r.needs, Presents ks h scope) ↔ r.needs = [] := by
    simp only [hnone, imp_false, List.eq_nil_iff_forall_not_mem]
  rw [letIn_iff ks eventsAuthMode hr args h, hneeds, needs_openRoutes r hr, hclosed, hkey]
  simp

/-- A key with both scopes executes an action, and no action is executed without a key. -/
theorem gate_exact_execute :
    (letIn (KeyStore.ofSettings (some "k1:read,write") false) "warn"
      ⟨.post, ["/api/actions/execute"], some .write⟩ [] ⟨none, some "k1"⟩ = .ok ()) ∧
    letIn (KeyStore.ofSettings (some "k1:read,write") false) "warn"
      ⟨.post, ["/api/actions/execute"], some .write⟩ [] ⟨none, none⟩ ≠ .ok () := by
  have hroute : ⟨.post, ["/api/actions/execute"], some .write⟩ ∈ routes := by decide +kernel
  constructor
  · refine (gate_exact _ _ _ hroute _ _).1.mpr (.inr (.inl fun scope _ ↦ ?_))
    refine ⟨"k1", by decide +kernel, by decide +kernel, ["read", "write"], by decide +kernel, ?_⟩
    cases scope <;> decide
  · intro hletIn
    have hopen :=
      ((gate_exact _ _ _ hroute _ _).2 (by decide +kernel) (by decide +kernel)).mp hletIn
    exact absurd hopen (by decide +kernel)

end CFactory.Access
