import CFactory.Access.Actor
import CFactory.Relay.Message

/-!
# The MCP endpoint

`mcp.py:915–1050,1338–1538`. One JSON-RPC request: who is granted which scopes, which tool runs
and what is answered. What a tool does to the board is its handler's, and the catalog's texts are
left out.
-/

namespace CFactory.Access

open CFactory.Audit
open CFactory.Base
open CFactory.Relay
open CFactory.Status

/-! ## Tools -/

/-- `TOOL_SCOPES`; `mcp.py:920–976`. -/
def toolScopes : List (String × Scope) :=
  [("cfactory_list_workitems", .read), ("cfactory_get_workitem", .read),
    ("cfactory_get_timeline", .read), ("cfactory_get_rollups", .read),
    ("cfactory_get_anomalies", .read), ("cfactory_list_cards", .read),
    ("cfactory_card_sync_state", .read), ("cfactory_get_card", .read),
    ("cfactory_card_comments", .read), ("cfactory_create_card", .write),
    ("cfactory_update_card", .write), ("cfactory_move_card", .write),
    ("cfactory_reprioritise_card", .write), ("cfactory_sync_card_github", .write),
    ("cfactory_import_cards", .write), ("cfactory_plan_card", .write),
    ("cfactory_code_card", .write), ("cfactory_test_card", .write), ("cfactory_run_card", .write),
    ("cfactory_delete_card", .write), ("cfactory_get_git_config", .read),
    ("cfactory_set_git_config", .write), ("cfactory_verify_git_config", .write),
    ("cfactory_set_git_credential", .write), ("cfactory_delete_git_credential", .write),
    ("cfactory_git_capabilities", .read), ("cfactory_list_git_connections", .read),
    ("cfactory_create_git_connection", .write), ("cfactory_update_git_connection", .write),
    ("cfactory_delete_git_connection", .write), ("cfactory_verify_git_connection", .write),
    ("cfactory_set_git_connection_credential", .write),
    ("cfactory_delete_git_connection_credential", .write), ("cfactory_start_git_install", .write),
    ("cfactory_delete_git_install", .write), ("cfactory_list_git_repositories", .read),
    ("cfactory_create_git_repository", .write), ("cfactory_update_git_repository", .write),
    ("cfactory_delete_git_repository", .write), ("cfactory_set_default_git_repository", .write)]

/-- The tools that have a handler, which are those with a scope; `_TOOL_HANDLERS`,
`mcp.py:1338–1380`. -/
def toolHandlers : List String := toolScopes.map Prod.fst

/-- What a handler raises that is answered with its reason; `_TOOL_ERRORS`, `mcp.py:1386–1421`. -/
inductive ToolError where
  | cardNotFound (key : String)
  | duplicateCardKey (key : String)
  | duplicateIssueRef (ref : String)
  | stageRefused (code message : String)
  /-- `GitConfigError`, `GitResourceNotFoundError`, `CredentialError`, `InstallError`. -/
  | reason (message : String)
  | validation (details : Json)

/-- How a domain error is rendered; `mcp.py:1386–1421`. -/
def ToolError.render (isprintable : Char → Bool) : ToolError → Json
  | .cardNotFound key => .object [("error", .string ("no card " ++ reprString isprintable key))]
  | .duplicateCardKey key =>
    .object [("error", .string ("card already exists: " ++ reprString isprintable key))]
  | .duplicateIssueRef ref =>
    .object [("error", .string ("another card already tracks issue " ++
      reprString isprintable ref))]
  | .stageRefused code message => .object [("error", .string message), ("reason", .string code)]
  | .reason message => .object [("error", .string message)]
  | .validation details =>
    .object [("error", .string "invalid arguments"), ("details", details)]

/-- What a handler does: it returns a payload, which may hold something that is no JSON, or it
raises a domain error or anything else. -/
inductive Outcome where
  | payload (value : Json)
  | unserialisable
  | domain (e : ToolError)
  | other

/-- The board behind the tools: what a handler does with its arguments for an actor. -/
structure Board (σ : Type) where
  handle : String → Json → String → σ → Outcome × σ

/-! ## Scopes -/

/-- The settings of the endpoint; `mcp.py:992–1034`. -/
structure McpSettings where
  mcpSecret : Option String
  legacySecretMode : String
  mcpDevOpen : Bool

/-- A legacy secret is configured. -/
def McpSettings.hasSecret (st : McpSettings) : Bool := st.mcpSecret.getD "" ≠ ""

/-- The legacy secret still grants everything; `mcp.py:1001`. -/
def McpSettings.allowsLegacy (st : McpSettings) : Bool :=
  lowerText (String.ofList (trim isSpace st.legacySecretMode.toList)) = "allow"

/-- `FULL_SCOPE`; `mcp.py:983`. -/
def fullScope : List String := [Scope.read.text, Scope.write.text]

/-- `_authenticate`; `mcp.py:986–1034`. -/
def authenticate (st : McpSettings) (ks : KeyStore) (h : Headers) : Except Denial (List String) :=
  let token := extractKey h
  match if st.hasSecret then secretMatches token st.mcpSecret else .ok false with
  | .error d => .error d
  | .ok legacy =>
    if legacy && st.allowsLegacy then .ok fullScope
    else
      match if ks.configured then ks.scopesFor token else .ok none with
      | .error d => .error d
      | .ok (some scopes) => .ok scopes
      | .ok none =>
        if st.hasSecret || ks.configured then .error (.http 401 "Invalid MCP token" false)
        else if st.mcpDevOpen then .ok fullScope
        else .error (.http 401 ("MCP is not configured: set CFACTORY_MCP_SECRET or " ++
          "CFACTORY_API_KEYS (or CFACTORY_MCP_DEV_OPEN=true for local dev)") false)

/-- `dict.get` of a tool's name: a list or an object cannot be looked up. -/
def hashable : Json → Bool
  | .array _ | .object _ => false
  | _ => true

/-- The scope a tool requires; a tool that has none requires WRITE; `mcp.py:1043`. -/
def requiredScope : Json → Scope
  | .string name => (toolScopes.lookup name).getD .write
  | _ => .write

/-- `_require_tool_scope`; `mcp.py:1037–1045`. -/
def requireToolScope (name : Json) (granted : List String) : Except Denial Unit :=
  if !hashable name then .error .typeError
  else if (requiredScope name).text ∈ granted then .ok ()
  else .error (.http 403 ("MCP token lacks required scope: '" ++ (requiredScope name).text ++ "'")
    false)

/-! ## The endpoint -/

/-- What a result holds. -/
inductive Content where
  | initialized
  | tools
  | text (payload : Json)
  | error (code : Int) (message : String)

/-- What the endpoint answers: an HTTP error, a crash, an empty body, or a JSON-RPC message under
an HTTP status and an id. -/
inductive Reply where
  | denied (d : Denial)
  | crash
  | accepted
  | message (status : Nat) (id : Json) (content : Content)

/-- The answer, the tools that ran with their arguments, and the board after them. -/
structure Served (σ : Type) where
  reply : Reply
  calls : List (String × Json)
  world : σ

/-- Python truth of a JSON value. -/
def truthy (isZero : String → Bool) : Json → Bool
  | .null => false
  | .bool b => b
  | .number text => !isZero text
  | .string s => s ≠ ""
  | .array items => !items.isEmpty
  | .object fields => !fields.isEmpty

/-- A request: its headers, the ID token, and its body, if that can be parsed. -/
structure McpRequest where
  headers : Headers
  idToken : Option String
  body : Option Json

/-- What the endpoint uses: the settings, the identity provider, the board, which characters are
printed as they are and which numbers are zero. -/
structure McpServer (σ : Type) where
  settings : McpSettings
  audit : AuditStore
  oidcIssuer : String
  verify : Verifier
  board : Board σ
  isprintable : Char → Bool
  isZero : String → Bool

variable {σ : Type} (server : McpServer σ)

/-- What comes of a tool call: a payload to answer with, an exception that is caught, or a payload
that cannot be written down. -/
inductive Ran where
  | payload (value : Json)
  | failed
  | unserialisable

/-- What comes of what a handler does; `mcp.py:1434–1437,1522–1533`. -/
def Outcome.ran (isprintable : Char → Bool) : Outcome → Ran
  | .payload value => .payload value
  | .domain e => .payload (e.render isprintable)
  | .other => .failed
  | .unserialisable => .unserialisable

/-- `_dispatch_tool`, for a caller whose actor could be named; `mcp.py:1424–1437`. -/
def dispatchTool (name arguments : Json) (actor : String) (world : σ) :
    Ran × List (String × Json) × σ :=
  match name with
  | .string tool =>
    if tool ∈ toolHandlers then
      let (outcome, world') := server.board.handle tool arguments actor world
      (outcome.ran server.isprintable, [(tool, arguments)], world')
    else (.payload (.object [("error", .string ("unknown tool: " ++ tool))]), [], world)
  | other =>
    (.payload (.object [("error", .string ("unknown tool: " ++ other.str server.isprintable))]),
      [], world)

/-- The answer to a tool call; `mcp.py:1524–1534`. -/
def Ran.reply (id : Json) : Ran → Reply
  | .payload value => .message 200 id (.text value)
  | .failed => .message 200 id (.error (-32603) "Internal error")
  | .unserialisable => .crash

/-- The arguments of a tool call; `mcp.py:1520`. -/
def argumentsOf (params : List (String × Json)) : Json :=
  let given := (params.lookup "arguments").getD (.object [])
  if truthy server.isZero given then given else .object []

/-- A tool call; `mcp.py:1518–1534`. -/
def callTool (ks : KeyStore) (granted : List String) (req : McpRequest) (id params : Json)
    (world : σ) : Served σ :=
  match params with
  | .object params =>
    let name := (params.lookup "name").getD (.string "")
    match requireToolScope name granted with
    | .error .typeError => ⟨.crash, [], world⟩
    | .error d => ⟨.denied d, [], world⟩
    | .ok () =>
      match identityDep server.audit ks server.oidcIssuer server.verify req.headers req.idToken with
      -- A caller that cannot be named is an internal error, like a handler that raises.
      | .error _ => ⟨Ran.failed.reply id, [], world⟩
      | .ok actor =>
        let (ran, calls, world') := dispatchTool server name (argumentsOf server params) actor world
        ⟨ran.reply id, calls, world'⟩
  | _ => ⟨.crash, [], world⟩

/-- `mcp_endpoint`; `mcp.py:1482–1538`. -/
def mcpEndpoint (ks : KeyStore) (req : McpRequest) (world : σ) : Served σ :=
  match authenticate server.settings ks req.headers with
  | .error .typeError => ⟨.crash, [], world⟩
  | .error d => ⟨.denied d, [], world⟩
  | .ok granted =>
    match req.body with
    | none => ⟨.message 400 .null (.error (-32700) "Parse error"), [], world⟩
    | some (.object fields) =>
      match fields.lookup "id" with
      | none => ⟨.accepted, [], world⟩
      | some id =>
        match (fields.lookup "method").getD (.string "") with
        | .string "initialize" => ⟨.message 200 id .initialized, [], world⟩
        | .string "tools/list" => ⟨.message 200 id .tools, [], world⟩
        | .string "tools/call" =>
          callTool server ks granted req id ((fields.lookup "params").getD (.object [])) world
        | method =>
          ⟨.message 400 id (.error (-32601) ("Method not found: " ++
            method.str server.isprintable)), [], world⟩
    | some _ => ⟨.crash, [], world⟩

/-! ## What is granted -/

/-- The request presents the legacy secret while that still grants everything. -/
def PresentsLegacy (st : McpSettings) (h : Headers) : Prop :=
  st.allowsLegacy = true ∧ st.hasSecret = true ∧ extractKey h = st.mcpSecret

/-- The presented key can be compared with the legacy secret, if there is one. -/
def LegacyComparable (st : McpSettings) (h : Headers) : Prop :=
  st.hasSecret = true → ∀ key ∈ extractKey h, ∀ secret ∈ st.mcpSecret,
    isAscii key = true ∧ isAscii secret = true

/-- What looking up the presented key tells about its scopes. -/
theorem scopesFor_presents (ks : KeyStore) (h : Headers) (scope : Scope) :
    (∀ d, ks.scopesFor (extractKey h) = .error d → ¬ Presents ks h scope) ∧
      (ks.scopesFor (extractKey h) = .ok none → ¬ Presents ks h scope) ∧
      ∀ scopes, ks.scopesFor (extractKey h) = .ok (some scopes) →
        (scope.text ∈ scopes ↔ Presents ks h scope) := by
  cases hkey : extractKey h with
  | none => simp [KeyStore.scopesFor, Presents, hkey]
  | some key =>
    rw [scopesFor_eq ks (extractKey_ne hkey)]
    by_cases hcomp : Comparable ks key
    · rw [if_pos hcomp]
      simp only [Presents, hkey, Option.some.injEq, exists_eq_left', Holds, hcomp, true_and]
      cases hget : ks.keys.get? key <;> simp
    · rw [if_neg hcomp]
      simp [Presents, hkey, Holds, hcomp]

theorem mem_fullScope (scope : Scope) : scope.text ∈ fullScope := by
  cases scope <;> decide

/-- Past the legacy secret, the keys decide. -/
theorem grants_of_not_legacy {st : McpSettings} {ks : KeyStore} {h : Headers} (legacy : Bool)
    (hfirst : (if st.hasSecret then secretMatches (extractKey h) st.mcpSecret else .ok false) =
      .ok legacy) (hlegacy : (legacy && st.allowsLegacy) = false) (scope : Scope) :
    (∃ granted, authenticate st ks h = .ok granted ∧ scope.text ∈ granted) ↔
      Presents ks h scope ∨
        (st.hasSecret = false ∧ ks.configured = false ∧ st.mcpDevOpen = true) := by
  rw [authenticate]
  simp only [hfirst, hlegacy, Bool.false_eq_true, if_false]
  cases hconf : ks.configured with
  | false =>
    have hno : ¬ Presents ks h scope := by
      rintro ⟨key, -, hholds⟩
      exact not_holds_of_unconfigured hconf key scope hholds
    cases hsecret : st.hasSecret <;> cases hdev : st.mcpDevOpen <;>
      simp [hno, mem_fullScope]
  | true =>
    obtain ⟨herror, hnone, hsome⟩ := scopesFor_presents ks h scope
    simp only [if_true, Bool.or_true, reduceCtorEq, false_and, and_false, or_false]
    cases hscopes : ks.scopesFor (extractKey h) with
    | error d => simp [herror d hscopes]
    | ok found =>
      cases found with
      | none => simp [hnone hscopes]
      | some scopes => simp [hsome scopes hscopes]

/-- A scope is granted for the legacy secret, for a key that has it, or where nothing is
configured and the endpoint is open for development. -/
theorem authenticate_grants_iff (st : McpSettings) (ks : KeyStore) (h : Headers) (scope : Scope) :
    (∃ granted, authenticate st ks h = .ok granted ∧ scope.text ∈ granted) ↔
      LegacyComparable st h ∧ (PresentsLegacy st h ∨ Presents ks h scope ∨
        (st.hasSecret = false ∧ ks.configured = false ∧ st.mcpDevOpen = true)) := by
  cases hsecret : st.hasSecret with
  | false =>
    rw [grants_of_not_legacy false (by rw [hsecret]; rfl) rfl]
    simp [LegacyComparable, PresentsLegacy, hsecret]
  | true =>
    obtain ⟨secret, hvalue, hne⟩ : ∃ secret, st.mcpSecret = some secret ∧ secret ≠ "" := by
      cases hm : st.mcpSecret with
      | none => simp [McpSettings.hasSecret, hm] at hsecret
      | some secret => exact ⟨secret, rfl, by simpa [McpSettings.hasSecret, hm] using hsecret⟩
    cases hkey : extractKey h with
    | none =>
      rw [grants_of_not_legacy false (by simp [hsecret, hkey, secretMatches]) rfl]
      simp [LegacyComparable, PresentsLegacy, hsecret, hkey, hvalue]
    | some key =>
      have hfirst : (if st.hasSecret then secretMatches (extractKey h) st.mcpSecret
          else .ok false) = if isAscii key ∧ isAscii secret then .ok (decide (key = secret))
            else .error .typeError := by
        simp [hsecret, hkey, hvalue, secretMatches, extractKey_ne hkey, hne]
      by_cases hascii : isAscii key ∧ isAscii secret
      · rw [if_pos hascii] at hfirst
        have hcomp : LegacyComparable st h := by
          simp [LegacyComparable, hkey, hvalue, hascii]
        by_cases hlegacy : key = secret ∧ st.allowsLegacy = true
        · have hpresents : PresentsLegacy st h :=
            ⟨hlegacy.2, hsecret, by rw [hkey, hvalue, hlegacy.1]⟩
          have hok : authenticate st ks h = .ok fullScope := by
            rw [authenticate]
            simp only [hfirst, hlegacy.1, hlegacy.2, decide_true, Bool.and_self, if_true]
          simp [hok, mem_fullScope, hcomp, hpresents]
        · have hnot : ¬ PresentsLegacy st h := by
            rintro ⟨hallows, -, hsame⟩
            rw [hkey, hvalue] at hsame
            exact hlegacy ⟨Option.some.inj hsame, hallows⟩
          rw [grants_of_not_legacy _ hfirst (by simpa using hlegacy)]
          simp [hcomp, hnot, hsecret]
      · rw [if_neg hascii] at hfirst
        have hcomp : ¬ LegacyComparable st h := by
          simp only [LegacyComparable, hsecret, hkey, hvalue, Option.mem_some_iff, forall_eq',
            true_imp_iff]
          exact hascii
        have herror : authenticate st ks h = .error .typeError := by
          rw [authenticate]
          simp only [hfirst]
        simp [herror, hcomp]

/-! ## Which tools run -/

/-- The request is a call of the tool with these arguments. -/
def CallsTool (req : McpRequest) (tool : String) (arguments : Json) : Prop :=
  ∃ fields id params, req.body = some (.object fields) ∧ fields.lookup "id" = some id ∧
    fields.lookup "method" = some (.string "tools/call") ∧
    (fields.lookup "params").getD (.object []) = .object params ∧
    params.lookup "name" = some (.string tool) ∧ arguments = argumentsOf server params

/-- The id that a request carries. What cannot be parsed is answered under null. -/
def McpRequest.id (req : McpRequest) : Option Json :=
  match req.body with
  | none => some .null
  | some (.object fields) => fields.lookup "id"
  | some _ => none

/-- The caller's actor can be named; a key that cannot be compared raises. -/
def Named (ks : KeyStore) (req : McpRequest) : Prop :=
  ∃ actor, identityDep server.audit ks server.oidcIssuer server.verify req.headers req.idToken =
    .ok actor

theorem requireToolScope_ok_iff {name : Json} {granted : List String} :
    requireToolScope name granted = .ok () ↔
      hashable name = true ∧ (requiredScope name).text ∈ granted := by
  rw [requireToolScope]
  cases hhash : hashable name with
  | false => simp
  | true => by_cases hmem : (requiredScope name).text ∈ granted <;> simp [hmem]

/-- Dispatching runs the tool that is named, if it has a handler. -/
theorem dispatchTool_calls (name arguments : Json) (actor : String) (world : σ) :
    (∃ tool ∈ toolHandlers, name = .string tool ∧
        (dispatchTool server name arguments actor world).2.1 = [(tool, arguments)]) ∨
      ((∀ tool ∈ toolHandlers, name ≠ .string tool) ∧
        (dispatchTool server name arguments actor world).2 = ([], world)) := by
  cases name with
  | string tool =>
    by_cases htool : tool ∈ toolHandlers
    · exact .inl ⟨tool, htool, rfl, by simp [dispatchTool, htool]⟩
    · refine .inr ⟨?_, by simp [dispatchTool, htool]⟩
      rintro other hother heq
      cases heq
      exact htool hother
  | null | bool | number | array | object => exact .inr ⟨by simp, rfl⟩

theorem empty_not_mem_toolHandlers : "" ∉ toolHandlers := by decide +kernel

/-- A tool call runs the tool it names, if that has a handler, its scope is granted and the caller
can be named; it runs no other tool, and where none runs the board is as it was. -/
theorem callTool_calls (ks : KeyStore) (granted : List String) (req : McpRequest) (id : Json)
    (params : List (String × Json)) (world : σ) (tool : String) (arguments : Json) :
    let served := callTool server ks granted req id (.object params) world
    (served.calls = [(tool, arguments)] ↔ params.lookup "name" = some (.string tool) ∧
      tool ∈ toolHandlers ∧ (requiredScope (.string tool)).text ∈ granted ∧ Named server ks req ∧
      arguments = argumentsOf server params) ∧
    (served.calls = [] ∨ ∃ ran args, served.calls = [(ran, args)]) ∧
    (served.calls = [] → served.world = world) := by
  intro served
  -- Where nothing runs, something that the call needs is missing.
  have hnone : served.calls = [] → served.world = world →
      (params.lookup "name" = some (.string tool) → tool ∈ toolHandlers →
        (requiredScope (.string tool)).text ∈ granted → ¬ Named server ks req) →
      (served.calls = [(tool, arguments)] ↔ params.lookup "name" = some (.string tool) ∧
        tool ∈ toolHandlers ∧ (requiredScope (.string tool)).text ∈ granted ∧
        Named server ks req ∧ arguments = argumentsOf server params) ∧
      (served.calls = [] ∨ ∃ ran args, served.calls = [(ran, args)]) ∧
      (served.calls = [] → served.world = world) := by
    intro hcalls hworld hmissing
    refine ⟨?_, .inl hcalls, fun _ ↦ hworld⟩
    rw [hcalls]
    refine iff_of_false (by simp) ?_
    rintro ⟨hname, htool, hscope, hnamed, -⟩
    exact hmissing hname htool hscope hnamed
  cases hreq : requireToolScope ((params.lookup "name").getD (.string "")) granted with
  | error d =>
    have hserved : served.calls = [] ∧ served.world = world := by
      cases d <;> simp [served, callTool, hreq]
    refine hnone hserved.1 hserved.2 fun hname _ hscope ↦ ?_
    have hok : requireToolScope (.string tool) granted = .ok () :=
      requireToolScope_ok_iff.mpr ⟨rfl, hscope⟩
    rw [hname, Option.getD_some, hok] at hreq
    cases hreq
  | ok u =>
    cases hid : identityDep server.audit ks server.oidcIssuer server.verify req.headers
        req.idToken with
    | error d =>
      have hserved : served.calls = [] ∧ served.world = world := by
        simp [served, callTool, hreq, hid]
      refine hnone hserved.1 hserved.2 fun _ _ _ hnamed ↦ ?_
      obtain ⟨actor, hactor⟩ := hnamed
      rw [hid] at hactor
      cases hactor
    | ok actor =>
      have hserved : served.calls = (dispatchTool server ((params.lookup "name").getD
            (.string "")) (argumentsOf server params) actor world).2.1 ∧
          served.world = (dispatchTool server ((params.lookup "name").getD (.string ""))
            (argumentsOf server params) actor world).2.2 := by
        simp [served, callTool, hreq, hid]
      rcases dispatchTool_calls server ((params.lookup "name").getD (.string ""))
        (argumentsOf server params) actor world with ⟨ran, hran, hname, hcalls⟩ | ⟨hno, hcalls⟩
      · rw [hcalls] at hserved
        have hlookup : params.lookup "name" = some (.string ran) := by
          cases hl : params.lookup "name" with
          | none =>
            rw [hl, Option.getD_none] at hname
            cases hname
            exact absurd hran empty_not_mem_toolHandlers
          | some name =>
            rw [hl, Option.getD_some] at hname
            rw [hname]
        have hscope := (requireToolScope_ok_iff.mp hreq).2
        rw [hname] at hscope
        refine ⟨?_, .inr ⟨ran, _, hserved.1⟩, fun hempty ↦ ?_⟩
        · rw [hserved.1, hlookup]
          constructor
          · intro h
            obtain ⟨rfl, rfl⟩ := Prod.mk.inj (List.singleton_inj.mp h)
            exact ⟨rfl, hran, hscope, ⟨actor, hid⟩, rfl⟩
          · rintro ⟨hsame, -, -, -, rfl⟩
            cases hsame
            rfl
        · rw [hserved.1] at hempty
          cases hempty
      · rw [hcalls] at hserved
        refine hnone hserved.1 hserved.2 fun hname htool ↦ ?_
        exact absurd (by rw [hname, Option.getD_some]) (hno tool htool)

/-- A tool call is answered under its id. -/
theorem callTool_reply_id (ks : KeyStore) (granted : List String) (req : McpRequest)
    (id params : Json) (world : σ) {status : Nat} {id' : Json} {content : Content}
    (h : (callTool server ks granted req id params world).reply = .message status id' content) :
    id' = id := by
  have hran : ∀ ran : Ran, ran.reply id = .message status id' content → id' = id := by
    intro ran hran
    cases ran with
    | payload value => cases hran; rfl
    | failed => cases hran; rfl
    | unserialisable => cases hran
  cases params with
  | object params =>
    simp only [callTool] at h
    split at h
    · cases h
    · cases h
    · split at h
      · exact hran .failed h
      · exact hran (dispatchTool server _ _ _ _).1 h
  | null | bool | number | string | array => cases h

/-- The request is a tool call that the endpoint passes on to its tool. -/
structure PassedOn (ks : KeyStore) (req : McpRequest) (granted : List String) (id : Json)
    (params : List (String × Json)) : Prop where
  authenticated : authenticate server.settings ks req.headers = .ok granted
  body : ∃ fields, req.body = some (.object fields) ∧ fields.lookup "id" = some id ∧
    fields.lookup "method" = some (.string "tools/call") ∧
    (fields.lookup "params").getD (.object []) = .object params

/-- A request is passed on to its tool, or it is answered without running any. -/
theorem mcpEndpoint_cases (ks : KeyStore) (req : McpRequest) (world : σ) :
    (∃ granted id params, PassedOn server ks req granted id params ∧
        mcpEndpoint server ks req world =
          callTool server ks granted req id (.object params) world) ∨
      ((∀ granted id params, ¬ PassedOn server ks req granted id params) ∧
        ∃ reply, mcpEndpoint server ks req world = ⟨reply, [], world⟩ ∧
          ∀ status id content, reply = .message status id content → req.id = some id) := by
  cases hauth : authenticate server.settings ks req.headers with
  | error d =>
    refine .inr ⟨fun granted id params h ↦ ?_, ?_⟩
    · have := h.authenticated
      rw [hauth] at this
      cases this
    · cases d with
      | typeError => exact ⟨.crash, by simp [mcpEndpoint, hauth], by simp⟩
      | http status detail bearer =>
        exact ⟨.denied (.http status detail bearer), by simp [mcpEndpoint, hauth], by simp⟩
  | ok granted =>
    have hreplied : ∀ reply, mcpEndpoint server ks req world = ⟨reply, [], world⟩ →
        (∀ status id content, reply = .message status id content → req.id = some id) →
        (∀ g id params, ¬ PassedOn server ks req g id params) →
        (∃ granted id params, PassedOn server ks req granted id params ∧
          mcpEndpoint server ks req world =
            callTool server ks granted req id (.object params) world) ∨
        ((∀ granted id params, ¬ PassedOn server ks req granted id params) ∧
          ∃ reply, mcpEndpoint server ks req world = ⟨reply, [], world⟩ ∧
            ∀ status id content, reply = .message status id content → req.id = some id) :=
      fun reply hreply hid hnot ↦ .inr ⟨hnot, reply, hreply, hid⟩
    cases hbody : req.body with
    | none =>
      refine hreplied (.message 400 .null (.error (-32700) "Parse error"))
        (by simp [mcpEndpoint, hauth, hbody]) ?_ ?_
      · rintro status id content h
        cases h
        simp [McpRequest.id, hbody]
      · rintro g id params ⟨-, fields, hb, -⟩
        rw [hbody] at hb
        cases hb
    | some body =>
      cases body with
      | object fields =>
        have hfields : ∀ {g id params}, PassedOn server ks req g id params →
            fields.lookup "id" = some id ∧
              fields.lookup "method" = some (.string "tools/call") ∧
              (fields.lookup "params").getD (.object []) = .object params := by
          rintro g id params ⟨-, fields', hb, hrest⟩
          rw [hbody] at hb
          cases hb
          exact hrest
        cases hid : fields.lookup "id" with
        | none =>
          refine hreplied .accepted (by simp [mcpEndpoint, hauth, hbody, hid]) (by simp) ?_
          intro g id params h
          have := (hfields h).1
          rw [hid] at this
          cases this
        | some id =>
          have hreqid : req.id = some id := by simp [McpRequest.id, hbody, hid]
          by_cases hmethod : fields.lookup "method" = some (.string "tools/call")
          · have hend : mcpEndpoint server ks req world = callTool server ks granted req id
                ((fields.lookup "params").getD (.object [])) world := by
              simp [mcpEndpoint, hauth, hbody, hid, hmethod]
            cases hparams : (fields.lookup "params").getD (.object []) with
            | object params =>
              exact .inl ⟨granted, id, params, ⟨hauth, fields, hbody, hid, hmethod, hparams⟩,
                by rw [hend, hparams]⟩
            | null | bool | number | string | array =>
              refine hreplied .crash (by rw [hend, hparams]; rfl) (by simp) ?_
              intro g i params h
              have := (hfields h).2.2
              rw [hparams] at this
              cases this
          · have hanswer : ∃ status content,
                mcpEndpoint server ks req world = ⟨.message status id content, [], world⟩ := by
              simp only [mcpEndpoint, hauth, hbody, hid]
              split
              · exact ⟨_, _, rfl⟩
              · exact ⟨_, _, rfl⟩
              · next hcall =>
                exfalso
                cases hl : fields.lookup "method" with
                | none =>
                  rw [hl, Option.getD_none] at hcall
                  exact absurd (Json.string.inj hcall) (by decide)
                | some method =>
                  rw [hl, Option.getD_some] at hcall
                  rw [hl, hcall] at hmethod
                  exact hmethod rfl
              · exact ⟨_, _, rfl⟩
            obtain ⟨status, content, hanswer⟩ := hanswer
            refine hreplied _ hanswer ?_ fun g i params h ↦ hmethod (hfields h).2.1
            rintro status' id' content' h
            cases h
            exact hreqid
      | null | bool | number | string | array =>
        refine hreplied .crash (by simp [mcpEndpoint, hauth, hbody]) (by simp) ?_
        rintro g id params ⟨-, fields, hb, -⟩
        rw [hbody] at hb
        cases hb

/-- Each request runs at most one tool: the one it calls, if it carries an id, the tool has a
handler, the caller is granted the tool's scope and can be named. Where none runs the board is as
it was. Every message is answered under the id of its request, so that a notification, which has
none, is answered with no message. -/
theorem mcpEndpoint_serves (ks : KeyStore) (req : McpRequest) (world : σ) :
    let served := mcpEndpoint server ks req world
    (∀ tool arguments, served.calls = [(tool, arguments)] ↔
      CallsTool server req tool arguments ∧ tool ∈ toolHandlers ∧ Named server ks req ∧
        ∃ granted, authenticate server.settings ks req.headers = .ok granted ∧
          (requiredScope (.string tool)).text ∈ granted) ∧
    (served.calls = [] ∨ ∃ tool arguments, served.calls = [(tool, arguments)]) ∧
    (served.calls = [] → served.world = world) ∧
    ∀ status id content, served.reply = .message status id content → req.id = some id := by
  intro served
  rcases mcpEndpoint_cases server ks req world with
    ⟨granted, id, params, hpassed, hserved⟩ | ⟨hnot, reply, hserved, hid⟩
  · obtain ⟨fields, hbody, hfid, hmethod, hparams⟩ := hpassed.body
    have hcalls := callTool_calls server ks granted req id params world
    rw [← hserved] at hcalls
    refine ⟨fun tool arguments ↦ ?_, (hcalls "" .null).2.1, (hcalls "" .null).2.2, ?_⟩
    · rw [(hcalls tool arguments).1]
      constructor
      · rintro ⟨hname, htool, hscope, hnamed, hargs⟩
        exact ⟨⟨fields, id, params, hbody, hfid, hmethod, hparams, hname, hargs⟩, htool, hnamed,
          granted, hpassed.authenticated, hscope⟩
      · rintro ⟨⟨fields', id', params', hbody', -, -, hparams', hname, hargs⟩, htool, hnamed,
          granted', hauth, hscope⟩
        rw [hbody] at hbody'
        cases hbody'
        rw [hparams] at hparams'
        cases hparams'
        rw [hpassed.authenticated] at hauth
        cases hauth
        exact ⟨hname, htool, hscope, hnamed, hargs⟩
    · intro status id' content hreply
      have hsame : id' = id := by
        apply callTool_reply_id server ks granted req id (.object params) world
        rw [← hserved]
        exact hreply
      rw [hsame, McpRequest.id, hbody]
      exact hfid
  · have hcalls : served.calls = [] := by simp only [served, hserved]
    refine ⟨fun tool arguments ↦ ?_, .inl hcalls, fun _ ↦ by simp only [served, hserved], ?_⟩
    · rw [hcalls]
      refine iff_of_false (by simp) ?_
      rintro ⟨⟨fields, id, params, hbody, hfid, hmethod, hparams, -, -⟩, -, -, granted, hauth, -⟩
      exact hnot granted id params ⟨hauth, fields, hbody, hfid, hmethod, hparams⟩
    · intro status id content hreply
      refine hid status id content ?_
      rw [← hreply]
      simp only [served, hserved]

end CFactory.Access
