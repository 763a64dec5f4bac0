import CFactory.Base.Dict
import CFactory.Git.Tenant
import CFactory.Intake.IssueNumber

/-!
# The links of issues

`apps/frontend-web/src/cards.ts:172–253` against `git_config_ops.py:312–350` and
`cards.py:1293–1406`. The cockpit builds the link of a card's issue from the payload of the
tenant's connections: by the repository that the card names, or else by the default one. The
backend resolves the same card by its repository, by the path of its issue, or by the default.
-/

namespace CFactory.Cockpit

open CFactory.Base CFactory.Model CFactory.Cards CFactory.Git CFactory.Intake

/-! ## The payload of the connections -/

/-- `GitConnection`, as far as the links read it; `git_connections.py:409–446`. -/
structure ConnectionView where
  provider : String
  baseUrl : String
  /-- The ids of its repositories. -/
  repositories : List Nat

/-- `GitConnections`; `api.ts:708–716`. -/
structure GitConnections where
  connections : List ConnectionView
  defaultRepositoryId : Option Nat

/-- `connection_view`; `git_connections.py:409–446`. -/
def connectionView (c : GitConnectionRow) (repositories : List GitRepositoryRow) :
    ConnectionView where
  provider := c.provider.text
  baseUrl := resolvedBaseUrl c.provider.text c.baseUrl
  repositories := repositories.map GitRepositoryRow.id

/-- `list_git_connections`; `git_config_ops.py:312–350`. -/
def listGitConnections (g : GitTables) (tenant : String) : GitConnections where
  connections := (connectionsOf g tenant).map fun c ↦
    connectionView c ((repositoriesOf g tenant).filter (·.connectionId == c.id))
  defaultRepositoryId := (defaultRepository g tenant).map (·.repository.id)

/-! ## The links -/

/-- The characters of white space of `trim` and of the class `\s`, a range of them apart. -/
def jsSpaces : List Char :=
  ['\t', '\n', Char.ofNat 0xb, Char.ofNat 0xc, '\r', ' ', Char.ofNat 0xa0, Char.ofNat 0x1680,
    Char.ofNat 0x2028, Char.ofNat 0x2029, Char.ofNat 0x202f, Char.ofNat 0x205f,
    Char.ofNat 0x3000, Char.ofNat 0xfeff]

/-- White space to `trim` and to the class `\s`. -/
def isJsSpace (c : Char) : Bool :=
  jsSpaces.contains c || (0x2000 ≤ c.toNat && c.toNat ≤ 0x200a)

/-- `trim`. -/
def trim (s : List Char) : List Char := (s.dropWhile isJsSpace).rdropWhile isJsSpace

/-- The project and the number of a reference: `/^([^\s#]+)#(\d+)$/`; `cards.ts:193–195`. -/
def readRef (s : List Char) : Option (List Char × List Char) :=
  match s.splitOn '#' with
  | [project, number] =>
    if (project ≠ [] ∧ project.all (!isJsSpace ·) = true) ∧
        (number ≠ [] ∧ number.all Char.isDigit = true) then some (project, number)
    else none
  | _ => none

/-- `root.replace(/\/api\/v3$/, "")`; `cards.ts:201`. -/
def withoutApiRoot (root : List Char) : List Char :=
  if "/api/v3".toList.isSuffixOf root then root.take (root.length - 7) else root

/-- The root of the pages of a host; `cards.ts:196–206`. -/
def webRoot (provider baseUrl : String) : List Char :=
  let root := (trim baseUrl.toList).rdropWhile (· == '/')
  if provider = "github" then
    if root = "https://api.github.com".toList ∨ root = [] then "https://github.com".toList
    else withoutApiRoot root
  else if root = [] then "https://gitlab.com".toList
  else root

/-- `issueUrl`; `cards.ts:188–208`. -/
def issueUrl (issueRef : Option String) (provider baseUrl : String) : Option String :=
  (readRef (trim (issueRef.getD "").toList)).bind fun ref ↦
    let web := webRoot provider baseUrl
    if provider = "github" then
      some (String.ofList (web ++ '/' :: ref.1 ++ "/issues/".toList ++ ref.2))
    else if provider = "gitlab" then
      some (String.ofList (web ++ '/' :: ref.1 ++ "/-/issues/".toList ++ ref.2))
    else none

/-- `IssueHost`; `cards.ts:210–211`. -/
structure IssueHost where
  provider : String
  baseUrl : String
  deriving DecidableEq

/-- The provider, and the root that its links start with. -/
def IssueHost.web (host : IssueHost) : String × List Char :=
  (host.provider, webRoot host.provider host.baseUrl)

/-- The host of each repository of the payload; `cards.ts:235–243`. -/
def byRepository (connections : GitConnections) : Dict Nat IssueHost :=
  connections.connections.foldl (fun hosts connection ↦
    connection.repositories.foldl (fun hosts repository ↦
      hosts.set repository ⟨connection.provider, connection.baseUrl⟩) hosts) .empty

/-- The host whose link a card gets; `cards.ts:244–250`. -/
def issueHost (connections : GitConnections) (card : Card) : Option IssueHost :=
  let fallback := connections.defaultRepositoryId.bind (byRepository connections).get?
  let named := card.repositoryId.bind (byRepository connections).get?
  named.or fallback

/-- `issueUrlResolver`; `cards.ts:231–253`. -/
def issueUrlResolver (connections : Option GitConnections) (card : Card) : Option String :=
  connections.bind fun connections ↦
    (issueHost connections card).bind fun host ↦
      issueUrl card.issueRef host.provider host.baseUrl

/-! ## The hosts of repositories -/

variable {g : GitTables} {tenant : String}

/-- The host of a connection. -/
def hostOf (c : GitConnectionRow) : IssueHost :=
  ⟨c.provider.text, resolvedBaseUrl c.provider.text c.baseUrl⟩

/-- The repositories of the payload, each with the host of its connection. -/
private def hosts (g : GitTables) (tenant : String) : List (Nat × IssueHost) :=
  (connectionsOf g tenant).flatMap fun c ↦
    ((repositoriesOf g tenant).filter (·.connectionId == c.id)).map fun r ↦ (r.id, hostOf c)

private theorem mem_hosts {e : Nat × IssueHost} :
    e ∈ hosts g tenant ↔ ∃ c ∈ connectionsOf g tenant, ∃ r ∈ repositoriesOf g tenant,
      r.connectionId = c.id ∧ e = (r.id, hostOf c) := by
  simp only [hosts, List.mem_flatMap, List.mem_map, List.mem_filter, beq_iff_eq]
  constructor
  · rintro ⟨c, hc, r, ⟨hr, hid⟩, rfl⟩
    exact ⟨c, hc, r, hr, hid, rfl⟩
  · rintro ⟨c, hc, r, hr, hid, rfl⟩
    exact ⟨c, hc, r, ⟨hr, hid⟩, rfl⟩

/-- The host of a repository is the last one that its id is given. -/
private theorem byRepository_eq (id : Nat) :
    (byRepository (listGitConnections g tenant)).get? id =
      ((hosts g tenant).filter (·.1 == id)).getLast?.map Prod.snd := by
  have hflat : byRepository (listGitConnections g tenant) =
      (hosts g tenant).foldl (fun d e ↦ d.set e.1 e.2) .empty := by
    rw [byRepository, listGitConnections, hosts, List.foldl_flatMap, List.foldl_map]
    simp only [connectionView, List.foldl_map, hostOf]
  have hempty : (Dict.empty : Dict Nat IssueHost).get? id = none := rfl
  rw [hflat, Dict.get?_foldl (p := fun e ↦ e.1 == id) (v := Prod.snd), hempty, Option.or_none]
  intro d e
  rw [Dict.get?_set]
  by_cases hid : e.1 = id
  · rw [if_pos hid.symm, if_pos (beq_iff_eq.mpr hid)]
  · rw [if_neg (Ne.symm hid), if_neg fun hsame ↦ hid (beq_iff_eq.mp hsame)]

/-- The cockpit finds the host of a repository of the tenant, that of its connection. -/
theorem byRepository_get? (h : Tenanted g) (id : Nat) :
    (byRepository (listGitConnections g tenant)).get? id =
      (repository g tenant id).toOption.bind fun r ↦
        (connectionOrNone g tenant r.connectionId).map hostOf := by
  rw [byRepository_eq]
  cases hrepository : repository g tenant id with
  | error e =>
    have hnone : (hosts g tenant).filter (·.1 == id) = [] := by
      rw [List.filter_eq_nil_iff]
      intro e he hid
      obtain ⟨c, -, r, hr, -, rfl⟩ := mem_hosts.mp he
      have hfound := h.repository_self hr
      have hsame : r.id = id := beq_iff_eq.mp hid
      rw [hsame, hrepository] at hfound
      cases hfound
    rw [hnone]
    rfl
  | ok r =>
    obtain ⟨hr, rfl⟩ := repository_ok hrepository
    obtain ⟨hmem, rfl⟩ := mem_repositoriesOf.mp hr
    obtain ⟨c, hc, hcmem, hcid, honly⟩ := h.home hmem
    have hlisted : (r.id, hostOf c) ∈ (hosts g r.tenantId).filter (·.1 == r.id) := by
      rw [List.mem_filter, mem_hosts]
      exact ⟨⟨c, List.mem_filter.mpr ⟨hcmem, beq_iff_eq.mpr (connectionOrNone_spec hc).2.2⟩, r, hr,
        hcid.symm, rfl⟩, beq_self_eq_true _⟩
    have hsame : ∀ e ∈ (hosts g r.tenantId).filter (·.1 == r.id), e.2 = hostOf c := by
      intro e he
      rw [List.mem_filter, mem_hosts, beq_iff_eq] at he
      obtain ⟨⟨c', hc', r', hr', hid', rfl⟩, hid⟩ := he
      have hrow : r' = r :=
        List.inj_on_of_nodup_map h.ids (mem_repositoriesOf.mp hr').1 hmem hid
      rw [hrow] at hid'
      rw [honly c' (List.mem_filter.mp hc').1 hid'.symm]
    rw [Except.toOption, Option.bind_some, hc, Option.map_some]
    cases hlast : ((hosts g r.tenantId).filter (·.1 == r.id)).getLast? with
    | none => exact absurd (List.getLast?_eq_none_iff.mp hlast) (List.ne_nil_of_mem hlisted)
    | some e => exact congrArg some (hsame e (List.mem_of_getLast? hlast))

/-! ## The two resolutions -/

/-- The default repository is one of the tenant, with its connection. -/
private theorem default_spec (h : Tenanted g) {resolved : ResolvedRepository}
    (hdefault : defaultRepository g tenant = some resolved) :
    resolved.repository ∈ repositoriesOf g tenant ∧
      connectionOrNone g tenant resolved.repository.connectionId = some resolved.connection := by
  obtain ⟨r, hfind, hr⟩ := Option.bind_eq_some_iff.mp hdefault
  obtain ⟨c, hc, rfl⟩ := Option.map_eq_some_iff.mp hr
  have hmem := List.mem_of_find?_eq_some hfind
  have hmarked := List.find?_some hfind
  rw [beq_iff_eq] at hmarked
  exact ⟨mem_repositoriesOf.mpr ⟨hmem, h.defaults r hmem tenant hmarked⟩, hc⟩

/-- The cockpit takes the host of the named repository, or that of the default one. -/
theorem issueHost_eq (h : Tenanted g) (card : Card) :
    issueHost (listGitConnections g tenant) card =
      (card.repositoryId.bind fun id ↦ (repository g tenant id).toOption.bind fun r ↦
        (connectionOrNone g tenant r.connectionId).map hostOf).or
        ((defaultRepository g tenant).map fun resolved ↦ hostOf resolved.connection) := by
  have hfallback : (listGitConnections g tenant).defaultRepositoryId.bind
      (byRepository (listGitConnections g tenant)).get? =
        (defaultRepository g tenant).map fun resolved ↦ hostOf resolved.connection := by
    cases hdefault : defaultRepository g tenant with
    | none => simp [listGitConnections, hdefault]
    | some resolved =>
      obtain ⟨hr, hc⟩ := default_spec h hdefault
      have hid : (listGitConnections g tenant).defaultRepositoryId =
          some resolved.repository.id := by rw [listGitConnections, hdefault, Option.map_some]
      rw [hid, Option.bind_some, byRepository_get? h, h.repository_self hr, Except.toOption,
        Option.bind_some, hc]
      rfl
  rw [issueHost, hfallback]
  congr 2
  funext id
  exact byRepository_get? h id

/-- The text is a project path, the mark and digits; the path of two parts is one of them. -/
def SpelledOut (text : String) : Prop :=
  ∃ project digits, text.toList = project ++ '#' :: digits ∧ isProject project = true ∧
    digits ≠ [] ∧ digits.all Char.isDigit = true

/-- A reference that is spelled out gets a link on GitHub and on GitLab, and on no other host. -/
theorem issueUrl_isSome {text : String} (h : SpelledOut text) (provider baseUrl : String) :
    (issueUrl (some text) provider baseUrl).isSome = true ↔
      provider = "github" ∨ provider = "gitlab" := by
  obtain ⟨project, digits, htext, hproject, hne, hdigits⟩ := h
  have hplain : ∀ c ∈ project, plainChar c = true := fun c hc ↦ plainChar_of_mem hproject hc
  have hdigit : ∀ c ∈ digits, plainChar c = true := by
    intro c hc
    simp [plainChar, List.all_eq_true.mp hdigits c hc]
  have hspace : ∀ c, plainChar c = true → isJsSpace c = false := by
    intro c hc
    obtain ⟨hlow, hhigh, -⟩ := plainChar_val hc
    have hspaces : (jsSpaces.all fun d ↦ decide (d.val.toNat < 33 ∨ 122 < d.val.toNat)) = true := by
      decide
    rw [isJsSpace, Bool.or_eq_false_iff, Bool.and_eq_false_iff, decide_eq_false_iff_not]
    constructor
    · rw [← Bool.not_eq_true, List.contains_iff_mem]
      intro hmem
      have hrange := of_decide_eq_true (List.all_eq_true.mp hspaces c hmem)
      omega
    · exact .inl (Nat.not_le.mpr (Nat.lt_of_le_of_lt hhigh (by decide)))
  have htrim : trim text.toList = text.toList := by
    apply trim_eq_self
    intro c hc
    rw [htext, List.mem_append, List.mem_cons] at hc
    rcases hc with hc | rfl | hc
    · exact hspace c (hplain c hc)
    · decide
    · exact hspace c (hdigit c hc)
  have hsplit : text.toList.splitOn '#' = [project, digits] :=
    splitOn_pair_iff.mpr ⟨htext, fun hc ↦ (plainChar_spec (hplain _ hc)).2 rfl,
      fun hc ↦ (plainChar_spec (hdigit _ hc)).2 rfl⟩
  have hread : readRef (trim text.toList) = some (project, digits) := by
    have hfilled : project ≠ [] := by
      rintro rfl
      exact absurd hproject (by decide)
    have hall : project.all (!isJsSpace ·) = true :=
      List.all_eq_true.mpr fun c hc ↦ by rw [hspace c (hplain c hc)]; rfl
    rw [htrim, readRef, hsplit]
    exact if_pos ⟨⟨hfilled, hall⟩, hne, hdigits⟩
  rw [issueUrl, Option.getD_some, hread, Option.bind_some]
  dsimp only
  by_cases hgithub : provider = "github"
  · rw [if_pos hgithub]
    exact iff_of_true rfl (.inl hgithub)
  · rw [if_neg hgithub]
    by_cases hgitlab : provider = "gitlab"
    · rw [if_pos hgitlab]
      exact iff_of_true rfl (.inr hgitlab)
    · rw [if_neg hgitlab]
      exact iff_of_false Bool.false_ne_true (not_or.mpr ⟨hgithub, hgitlab⟩)

/-! ## Where the two agree -/

/-- Where the card gets a link, it is one to the provider and the web root of the connection that
the backend resolves for the card. -/
def FollowsBackend (t : AccessTables) (tenant : String) (settings : GitSettings) (card : Card) :
    Prop :=
  ∀ url, issueUrlResolver (some (listGitConnections t.git tenant)) card = some url →
    ∃ target host, gitTargetForCard t tenant settings card = .ok target ∧
      target.connectionId.isSome = true ∧
      issueHost (listGitConnections t.git tenant) card = some host ∧
      host.web = IssueHost.web ⟨target.provider, target.baseUrl⟩

/-- The default repository is on GitHub or GitLab, and the card names a repository that the tenant
does not have, or it names none and the path of its issue is that of a repository on another
host. -/
def Misled (g : GitTables) (tenant : String) (card : Card) : Prop :=
  ∃ fallback, defaultRepository g tenant = some fallback ∧
    fallback.connection.provider ≠ .azureDevops ∧
    ((∃ id, card.repositoryId = some id ∧ ∀ r ∈ repositoriesOf g tenant, r.id ≠ id) ∨
      (card.repositoryId = none ∧ ∃ path r c, issueProject card.issueRef = some path ∧
        repositoryAt g tenant path = some r ∧
        connectionOrNone g tenant r.connectionId = some c ∧
        (hostOf c).web ≠ (hostOf fallback.connection).web))

variable {t : AccessTables} {settings : GitSettings} {card : Card}

/-- What the backend resolves tells its connection. -/
private theorem target_of_resolved {resolved : ResolvedRepository}
    (h : resolveRepository t.git tenant card.repositoryId (issueProject card.issueRef) =
      .ok (some resolved)) :
    ∃ target, gitTargetForCard t tenant settings card = .ok target ∧
      target.connectionId.isSome = true ∧
      (⟨target.provider, target.baseUrl⟩ : IssueHost) = hostOf resolved.connection := by
  rw [gitTargetForCard, Git.gitTargetFor, h]
  exact ⟨_, rfl, rfl, rfl⟩

/-- A card with a spelled-out reference gets a link where its host is known, and no Azure DevOps. -/
private theorem link_isSome {ref : String} (hspelled : SpelledOut ref)
    (href : card.issueRef = some ref) {connections : GitConnections} {c : GitConnectionRow}
    (hhost : issueHost connections card = some (hostOf c)) :
    (issueUrlResolver (some connections) card).isSome = true ↔ c.provider ≠ .azureDevops := by
  rw [issueUrlResolver, Option.bind_some, hhost, Option.bind_some, href, issueUrl_isSome hspelled,
    hostOf]
  cases c.provider with
  | github => exact iff_of_true (.inl rfl) (by decide)
  | gitlab => exact iff_of_true (.inr rfl) (by decide)
  | azureDevops =>
    have hother :
        ¬ (Provider.azureDevops.text = "github" ∨ Provider.azureDevops.text = "gitlab") := by decide
    exact iff_of_false hother (not_not.mpr rfl)

/-- Where the backend resolves a connection, the cockpit follows it if it takes the same host, or
gives no link. -/
private theorem follows_of_resolved {ref : String} (hspelled : SpelledOut ref)
    (href : card.issueRef = some ref) {resolved : ResolvedRepository} {c : GitConnectionRow}
    (h : resolveRepository t.git tenant card.repositoryId (issueProject card.issueRef) =
      .ok (some resolved))
    (hhost : issueHost (listGitConnections t.git tenant) card = some (hostOf c)) :
    FollowsBackend t tenant settings card ↔
      c.provider = .azureDevops ∨ (hostOf c).web = (hostOf resolved.connection).web := by
  obtain ⟨target, htarget, hconnection, hsame⟩ :=
    @target_of_resolved tenant t settings card resolved h
  have hlink := link_isSome hspelled href hhost
  constructor
  · intro hfollows
    by_cases hazure : c.provider = .azureDevops
    · exact .inl hazure
    · obtain ⟨url, hurl⟩ := Option.isSome_iff_exists.mp (hlink.mpr hazure)
      obtain ⟨target', host, htarget', -, hhost', hweb⟩ := hfollows url hurl
      rw [htarget] at htarget'
      cases htarget'
      rw [hhost] at hhost'
      cases hhost'
      rw [hsame] at hweb
      exact .inr hweb
  · rintro (hazure | hequal)
    · intro url hurl
      exact absurd hazure (hlink.mp (by rw [hurl]; rfl))
    · intro url hurl
      exact ⟨target, hostOf c, htarget, hconnection, hhost, by rw [hsame, hequal]⟩

/-- A card without a host gets no link. -/
private theorem follows_of_none (h : issueHost (listGitConnections t.git tenant) card = none) :
    FollowsBackend t tenant settings card := by
  intro url hurl
  rw [issueUrlResolver, Option.bind_some, h] at hurl
  cases hurl

/-- The path of an issue that is spelled out is what the backend looks a repository up by. -/
private theorem stripped_issueProject {ref : String} (hspelled : SpelledOut ref) :
    ∃ path, issueProject (some ref) = some path ∧ stripped (some path) = path ∧ path ≠ "" := by
  obtain ⟨project, digits, htext, hproject, -, hdigits⟩ := hspelled
  have hmark : '#' ∉ digits := fun hmem ↦ absurd (List.all_eq_true.mp hdigits '#' hmem) (by decide)
  have hfilled : project ≠ [] := by
    rintro rfl
    exact absurd hproject (by decide)
  refine ⟨String.ofList project, ?_, ?_, ?_⟩
  · rw [issueProject_marked htext hmark, strip_project hproject, if_neg hfilled]
  · rw [stripped, Option.getD_some, String.toList_ofList]
    exact congrArg String.ofList (strip_project hproject)
  · intro hempty
    rw [← String.toList_inj, String.toList_ofList] at hempty
    exact hfilled hempty

/-- Of a card that names a repository of the tenant both take the connection. -/
private theorem follows_named (h : Tenanted t.git) {ref : String} (hspelled : SpelledOut ref)
    (href : card.issueRef = some ref) {r : GitRepositoryRow} (hr : r ∈ repositoriesOf t.git tenant)
    (hid : card.repositoryId = some r.id) : FollowsBackend t tenant settings card := by
  have hhost := @issueHost_eq t.git tenant h card
  have hrepository := h.repository_self hr
  obtain ⟨hmem, rfl⟩ := mem_repositoriesOf.mp hr
  obtain ⟨c, hc, -⟩ := h.home hmem
  rw [hid, Option.bind_some, hrepository, Except.toOption, Option.bind_some, hc, Option.map_some,
    Option.some_or] at hhost
  have hresolved : resolveRepository t.git r.tenantId card.repositoryId
      (issueProject card.issueRef) = .ok (some ⟨c, r⟩) := by
    rw [hid, resolveRepository, hrepository]
    simp only [Except.map, hc]
  exact (follows_of_resolved hspelled href hresolved hhost).mpr (.inr rfl)

/-- Of a card that names a repository that is gone the backend raises, and the cockpit takes the
default. -/
private theorem follows_gone (h : Tenanted t.git) {ref : String} (hspelled : SpelledOut ref)
    (href : card.issueRef = some ref) {id : Nat} (hid : card.repositoryId = some id)
    (hgone : ∀ r ∈ repositoriesOf t.git tenant, r.id ≠ id) :
    FollowsBackend t tenant settings card ↔
      ∀ fallback, defaultRepository t.git tenant = some fallback →
        fallback.connection.provider = .azureDevops := by
  have hhost := @issueHost_eq t.git tenant h card
  cases hrepository : repository t.git tenant id with
  | ok r => exact absurd (repository_ok hrepository).2 (hgone r (repository_ok hrepository).1)
  | error e =>
    have hraises : ∀ target, gitTargetForCard t tenant settings card ≠ .ok target := by
      intro target htarget
      rw [gitTargetForCard, Git.gitTargetFor, hid, resolveRepository, hrepository] at htarget
      cases htarget
    rw [hid, Option.bind_some, hrepository, Except.toOption, Option.bind_none, Option.none_or]
      at hhost
    cases hdefault : defaultRepository t.git tenant with
    | none =>
      rw [hdefault] at hhost
      exact iff_of_true (follows_of_none hhost) (by simp)
    | some resolved =>
      rw [hdefault, Option.map_some] at hhost
      have hlink := link_isSome hspelled href hhost
      constructor
      · rintro hfollows fallback hfallback
        cases hfallback
        by_contra hprovider
        obtain ⟨url, hurl⟩ := Option.isSome_iff_exists.mp (hlink.mpr hprovider)
        obtain ⟨target, -, htarget, -⟩ := hfollows url hurl
        exact hraises target htarget
      · intro hazure url hurl
        exact absurd (hazure resolved rfl) (hlink.mp (by rw [hurl]; rfl))

/-- Of a card that names no repository the backend takes that of the issue's path, and the cockpit
the default one. -/
private theorem follows_unnamed (h : Tenanted t.git) {ref : String} (hspelled : SpelledOut ref)
    (href : card.issueRef = some ref) (hid : card.repositoryId = none) :
    FollowsBackend t tenant settings card ↔
      ∀ fallback, defaultRepository t.git tenant = some fallback →
        fallback.connection.provider = .azureDevops ∨
          ∀ path r c, issueProject card.issueRef = some path →
            repositoryAt t.git tenant path = some r →
            connectionOrNone t.git tenant r.connectionId = some c →
            (hostOf c).web = (hostOf fallback.connection).web := by
  have hhost := @issueHost_eq t.git tenant h card
  rw [hid, Option.bind_none, Option.none_or] at hhost
  cases hdefault : defaultRepository t.git tenant with
  | none =>
    rw [hdefault] at hhost
    exact iff_of_true (follows_of_none hhost) (by simp)
  | some resolved =>
    rw [hdefault, Option.map_some] at hhost
    obtain ⟨path, hpath, hstripped, hfilled⟩ := stripped_issueProject hspelled
    rw [← href] at hpath
    have hresolve : ∀ o, resolveByPath t.git tenant (some path) = o →
        resolveRepository t.git tenant card.repositoryId (issueProject card.issueRef) = .ok o := by
      rintro o rfl
      rw [hid, hpath]
      rfl
    cases hat : repositoryAt t.git tenant path with
    | none =>
      have hresolved := hresolve (some resolved) (by
        rw [resolveByPath, hstripped, if_neg hfilled, hat, Option.bind_none, Option.none_or,
          hdefault])
      rw [follows_of_resolved hspelled href hresolved hhost]
      refine iff_of_true (.inr rfl) ?_
      rintro fallback -
      refine .inr fun path' r c hpath' hr _ ↦ ?_
      rw [hpath] at hpath'
      cases hpath'
      rw [hat] at hr
      cases hr
    | some r =>
      obtain ⟨hmem, rfl⟩ := mem_repositoriesOf.mp (repositoryAt_mem hat)
      obtain ⟨c, hc, -⟩ := h.home hmem
      have hresolved := hresolve (some ⟨c, r⟩) (by
        rw [resolveByPath, hstripped, if_neg hfilled, hat, Option.bind_some, hc]
        rfl)
      rw [follows_of_resolved hspelled href hresolved hhost]
      constructor
      · rintro hfollows fallback hfallback
        cases hfallback
        refine hfollows.imp id fun hsame path' r' c' hpath' hr hc' ↦ ?_
        rw [hpath] at hpath'
        cases hpath'
        rw [hat] at hr
        cases hr
        rw [hc] at hc'
        cases hc'
        exact hsame.symm
      · intro hright
        exact (hright resolved rfl).imp id fun hsame ↦ (hsame path r c hpath hat hc).symm

/-- A link follows the backend exactly where the default repository does not mislead it. -/
theorem issue_links_iff (h : Tenanted t.git) {ref : String} (hspelled : SpelledOut ref)
    (href : card.issueRef = some ref) :
    FollowsBackend t tenant settings card ↔ ¬ Misled t.git tenant card := by
  cases hid : card.repositoryId with
  | none =>
    rw [follows_unnamed h hspelled href hid]
    constructor
    · rintro hfollows ⟨fallback, hfallback, hprovider, ⟨id, hsome, -⟩ | ⟨-, hpath⟩⟩
      · rw [hid] at hsome
        cases hsome
      · obtain ⟨path, r, c, hpath, hr, hc, hother⟩ := hpath
        cases hfollows fallback hfallback with
        | inl hazure => exact hprovider hazure
        | inr hsame => exact hother (hsame path r c hpath hr hc)
    · intro hright fallback hfallback
      by_cases hprovider : fallback.connection.provider = .azureDevops
      · exact .inl hprovider
      · refine .inr fun path r c hpath hr hc ↦ ?_
        by_contra hother
        exact hright ⟨fallback, hfallback, hprovider, .inr ⟨hid, path, r, c, hpath, hr, hc, hother⟩⟩
  | some id =>
    by_cases hgone : ∀ r ∈ repositoriesOf t.git tenant, r.id ≠ id
    · rw [follows_gone h hspelled href hid hgone]
      constructor
      · rintro hazure ⟨fallback, hfallback, hprovider, -⟩
        exact hprovider (hazure fallback hfallback)
      · intro hright fallback hfallback
        by_contra hprovider
        exact hright ⟨fallback, hfallback, hprovider, .inl ⟨id, hid, hgone⟩⟩
    · have hnamed : ∃ r ∈ repositoriesOf t.git tenant, r.id = id := by
        simpa only [not_forall, not_not, exists_prop] using hgone
      obtain ⟨r, hr, rfl⟩ := hnamed
      apply iff_of_true (follows_named h hspelled href hr hid)
      rintro ⟨fallback, -, -, ⟨id, hsome, hall⟩ | ⟨hnone, -⟩⟩
      · rw [hid] at hsome
        exact hall r hr (Option.some.inj hsome)
      · rw [hid] at hnone
        cases hnone

/-! ## A tenant of two hosts -/

/-- The default repository on GitHub, and another on a GitLab of the tenant's own. -/
def twoHosts : AccessTables where
  git := {
    connections := [⟨1, "acme", .github, "", "GitHub", none, none, none⟩,
      ⟨2, "acme", .gitlab, "https://gitlab.corp", "GitLab", none, none, none⟩]
    repositories := [⟨11, "acme", 1, "acme/app", none, none, [], some "acme"⟩,
      ⟨21, "acme", 2, "grp/proj", none, none, [], none⟩] }

/-- A card of the issue `grp/proj#12`, by the repository it names. -/
def gitlabCard (repositoryId : Option Nat) : Card :=
  { cardKey := "PROJ-12", tenantId := "acme", title := "Proj", issueRef := some "grp/proj#12",
    repositoryId }

/-- The card that names the repository of its issue gets its link. -/
theorem issue_links_gitlabCard : FollowsBackend twoHosts "acme" {} (gitlabCard (some 21)) := by
  have h : Tenanted twoHosts.git := {
    ids := by decide
    homed := by decide
    addressed := by
      intro r hr
      have hproject : ∀ q ∈ twoHosts.git.repositories,
          isProject q.project.toList = true ∧ q.intakeProject = none := by decide +kernel
      refine ⟨(hproject r hr).1, fun p hp ↦ ?_⟩
      rw [(hproject r hr).2] at hp
      cases hp
    connectionIds := by decide
    defaults := by
      intro r hr t ht
      have hdefault : ∀ q ∈ twoHosts.git.repositories,
          q.defaultForTenant = none ∨ q.defaultForTenant = some q.tenantId := by decide
      rcases hdefault r hr with hnone | hsome
      · rw [hnone] at ht
        cases ht
      · rw [hsome] at ht
        exact Option.some.inj ht }
  have hspelled : SpelledOut "grp/proj#12" :=
    ⟨"grp/proj".toList, "12".toList, rfl, by decide +kernel, by decide, by decide⟩
  rw [issue_links_iff h hspelled rfl]
  rintro ⟨-, -, -, ⟨id, hid, hgone⟩ | ⟨hnone, -⟩⟩
  · exact hgone ⟨21, "acme", 2, "grp/proj", none, none, [], none⟩ (by decide)
      (Option.some.inj hid)
  · cases hnone

/-- The card that names none gets a link to GitHub, and the backend resolves the GitLab. -/
theorem issue_strays_gitlabCard :
    issueUrlResolver (some (listGitConnections twoHosts.git "acme")) (gitlabCard none) =
        some "https://github.com/grp/proj/issues/12" ∧
      ¬ FollowsBackend twoHosts "acme" {} (gitlabCard none) := by
  have hurl : issueUrlResolver (some (listGitConnections twoHosts.git "acme")) (gitlabCard none) =
      some "https://github.com/grp/proj/issues/12" := by decide +kernel
  refine ⟨hurl, fun hfollows ↦ ?_⟩
  obtain ⟨target, host, htarget, -, hhost, hweb⟩ := hfollows _ hurl
  have hprovider : (gitTargetForCard twoHosts "acme" {} (gitlabCard none)).toOption.map
      (·.provider) = some "gitlab" := by decide +kernel
  have hgithub : (issueHost (listGitConnections twoHosts.git "acme") (gitlabCard none)).map
      (·.provider) = some "github" := by decide +kernel
  rw [htarget] at hprovider
  rw [hhost] at hgithub
  have hsame : host.provider = target.provider := congrArg Prod.fst hweb
  rw [Option.map_some, hsame] at hgithub
  exact absurd (hgithub.symm.trans hprovider) (by decide)

end CFactory.Cockpit
