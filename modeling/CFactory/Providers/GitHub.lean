import CFactory.Base.Comprehension
import CFactory.Intake.IssueNumber
import CFactory.Relay.Message

/-!
# The GitHub provider

`git_providers.py:80–85,169–470`, `protocol.py:69–147,257–268`. Issues and comments are read from
the REST API page by page, and each item of a page is parsed to what the board knows of it.
-/

namespace CFactory.Providers

open CFactory.Base CFactory.Model CFactory.Cards CFactory.Intake CFactory.Relay
open CFactory.Progress (DateTime)

/-- What the provider takes from the standard library: the characters that `repr` leaves as they
are, `datetime.fromisoformat`, none where it raises, and the text of a time in UTC. -/
structure Library where
  isprintable : Char → Bool
  fromIsoFormat : String → Option DateTime
  isoUtc : DateTime → String

/-- What a read raises. -/
inductive ProviderError where
  /-- What the client raises: no response, an error status, or a body that is no JSON. -/
  | request (text : String)
  /-- `{repo}: response carried no issue number`; a `ValueError`. -/
  | noIssueNumber (repo : String)
  /-- The `ValueError` of `int`. -/
  | notAnInt
  /-- An `AttributeError`: the value has no such method. -/
  | attribute
  /-- A `TypeError`: the value is not iterable, or the two times do not compare. -/
  | type
  /-- `GitHub comment read failed for {path} (page {page}): {text}`. -/
  | commentRead (path : String) (page : Nat) (text : String)
  /-- `GitHub returned a non-list comment page for {path}: {typeName}`. -/
  | commentNotAList (path typeName : String)
  /-- `GitHub comment read for {path} exceeded 50 pages; …`. -/
  | commentTooLong (path : String)
  deriving DecidableEq

/-- What the host answers to one request. -/
inductive Answer where
  | failed (text : String)
  | json (value : Json)

/-- The host, by the path, the parameters and the page of a request. -/
abbrev Host := String → List (String × String) → Nat → Answer

/-- `_GITHUB_PAGE_SIZE`; `git_providers.py:80`. -/
def githubPageSize : Nat := 100

/-- `_COMMENT_MAX_PAGES`; `git_providers.py:85`. -/
def commentMaxPages : Nat := 50

/-! ## JSON values -/

/-- Python truth of a value. -/
def truthy : Json → Bool
  | .null => false
  | .bool b => b
  | .number text => text ∉ ["0", "0.0", "-0.0"]
  | .string s => s ≠ ""
  | .array items => !items.isEmpty
  | .object fields => !fields.isEmpty

/-- `isinstance(value, dict)`. -/
def isObject : Json → Bool
  | .object _ => true
  | _ => false

/-- `data.get(key)` of an object. -/
def field (data : Json) (key : String) : Json := (data.get? key).getD .null

/-- `str(value or "")`. -/
def textOr (x : Library) (value : Json) : String :=
  if truthy value then value.str x.isprintable else ""

/-- A number that is written with decimal digits alone. -/
def digitsOf (digits : List Char) : Option Int :=
  if digits ≠ [] ∧ digits.all Char.isDigit = true then (intOf digits).map Int.ofNat else none

/-- The value, if `isinstance(value, int)`; a truth value is one. -/
def int? : Json → Option Int
  | .bool b => some (if b then 1 else 0)
  | .number text =>
    match text.toList with
    | '-' :: digits => (digitsOf digits).map Neg.neg
    | digits => digitsOf digits
  | _ => none

/-- The value, if it is a string. -/
def string? : Json → Option String
  | .string s => some s
  | _ => none

/-- `type(value).__name__`. -/
def typeName : Json → String
  | .null => "NoneType"
  | .bool _ => "bool"
  | .number text => if (int? (.number text)).isSome then "int" else "float"
  | .string _ => "str"
  | .array _ => "list"
  | .object _ => "dict"

/-- What `for item in value or []` goes over. -/
def itemsOr (value : Json) : Except ProviderError (List Json) :=
  if truthy value = false then .ok []
  else
    match value with
    | .array items => .ok items
    | .object fields => .ok (fields.map fun f ↦ .string f.1)
    | .string s => .ok (s.toList.map fun c ↦ .string (String.ofList [c]))
    | _ => .error .type

/-- The strings among the items, where an object stands for its value under the key. -/
def namesIn (key : String) (items : List Json) : List String :=
  items.filterMap fun item ↦ string? (if isObject item then field item key else item)

/-- `value.replace("Z", "+00:00")`. -/
def replaceZ (value : String) : String :=
  String.ofList (value.toList.flatMap fun c ↦ if c = 'Z' then "+00:00".toList else [c])

/-- `_parse_datetime`: a text that is read, or else the clock's time in UTC;
`git_providers.py:461–469`. -/
def parseDatetime (x : Library) (now : Time) : Json → DateTime
  | .string s => (x.fromIsoFormat (replaceZ s)).getD ⟨now, some 0⟩
  | _ => ⟨now, some 0⟩

/-- `_milestone_title`; `git_providers.py:453–458`. -/
def milestoneTitle (milestone : Json) : Option String :=
  string? (if isObject milestone then field milestone "title" else milestone)

/-! ## Issues -/

/-- `IssueData`; `protocol.py:69–91`. -/
structure IssueData where
  number : Int
  title : String
  body : String
  author : String
  state : String
  labels : List String
  createdAt : DateTime
  updatedAt : DateTime
  url : String
  assignees : List String
  milestone : Option String
  rawData : Json

/-- `IssueFilters`; `protocol.py:257–268`. -/
structure IssueFilters where
  state : String := "open"
  labels : List String := []
  author : Option String := none
  assignee : Option String := none
  since : Option DateTime := none
  limit : Int := 100
  includePrs : Bool := false

/-- `(user or {}).get("login")`, as a text. -/
def loginOf (x : Library) (user : Json) : Except ProviderError String :=
  if truthy user = false then .ok ""
  else if isObject user then .ok (textOr x (field user "login"))
  else .error .attribute

/-- `_parse_issue`, with the readings of the clock; `git_providers.py:405–440`. -/
def parseIssue (x : Library) (repo : String) (now : Time × Time) (item : Json) :
    Except ProviderError IssueData := do
  let issue := if isObject item then item else .object []
  match int? (field issue "number") with
  | none => .error (.noIssueNumber repo)
  | some number =>
    let author ← loginOf x (field issue "user")
    let labels ← itemsOr (field issue "labels")
    let assignees ← itemsOr (field issue "assignees")
    return { number
             title := textOr x (field issue "title")
             body := textOr x (field issue "body")
             author
             state := textOr x (field issue "state")
             labels := namesIn "name" labels
             createdAt := parseDatetime x now.1 (field issue "created_at")
             updatedAt := parseDatetime x now.2 (field issue "updated_at")
             url := textOr x (field issue "html_url")
             assignees := namesIn "login" assignees
             milestone := milestoneTitle (field issue "milestone")
             rawData := issue }

/-- The parameters of a list of issues; `git_providers.py:247–257`. -/
def issueParams (x : Library) (filters : IssueFilters) : List (String × String) :=
  [("state", filters.state), ("per_page", toString githubPageSize)] ++
    (if filters.labels = [] then [] else [("labels", ",".intercalate filters.labels)]) ++
    ((filters.assignee.filter (· ≠ "")).map (Prod.mk "assignee")).toList ++
    ((filters.author.filter (· ≠ "")).map (Prod.mk "creator")).toList ++
    (filters.since.map fun since ↦ ("since", x.isoUtc since)).toList

/-- An item with a key `pull_request`; `git_providers.py:270–274`. -/
def isPullRequest (item : Json) : Bool := (item.get? "pull_request").isSome

/-- The items of a page, parsed behind those of the pages before; `git_providers.py:269–276`. -/
def parseBatch (x : Library) (repo : String) (clock : Nat → Time × Time)
    (filters : IssueFilters) : List IssueData → List Json → Except ProviderError (List IssueData)
  | issues, [] => .ok issues
  | issues, item :: rest =>
    if !filters.includePrs && isPullRequest item then parseBatch x repo clock filters issues rest
    else do
      let issue ← parseIssue x repo (clock issues.length) item
      parseBatch x repo clock filters (issues ++ [issue]) rest

/-- The loop over the pages, none where the fuel does not reach its end;
`git_providers.py:259–279`. -/
def issuePages (x : Library) (repo : String) (clock : Nat → Time × Time) (filters : IssueFilters)
    (answer : Nat → Answer) :
    Nat → Nat → List IssueData → Option (Except ProviderError (List IssueData))
  | 0, _, _ => none
  | fuel + 1, page, issues =>
    if (issues.length : Int) < filters.limit then
      match answer page with
      | .failed text => some (.error (.request text))
      | .json (.array []) => some (.ok issues)
      | .json (.array batch) =>
        match parseBatch x repo clock filters issues batch with
        | .error e => some (.error e)
        | .ok issues =>
          if batch.length < githubPageSize then some (.ok issues)
          else issuePages x repo clock filters answer fuel (page + 1) issues
      | .json _ => some (.ok issues)
    else some (.ok issues)

/-- `fetch_issues`. A limit below zero leaves the list empty, and there is nothing to slice;
`git_providers.py:231–280`. -/
def fetchIssues (x : Library) (host : Host) (repo : String) (clock : Nat → Time × Time)
    (filters : Option IssueFilters) (fuel : Nat) :
    Option (Except ProviderError (List IssueData)) :=
  let filters := filters.getD {}
  let answer := host ("/repos/" ++ repo ++ "/issues") (issueParams x filters)
  (issuePages x repo clock filters answer fuel 1 []).map fun result ↦
    result.map (List.take filters.limit.toNat)

/-! ## Comments -/

/-- `IssueComment`; `protocol.py:94–117`. What the host sends in place of a text stays as it is. -/
structure IssueComment where
  id : String
  issueNumber : Int
  author : Json
  body : Json
  createdAt : DateTime
  updatedAt : DateTime
  url : Json
  rawData : Json

/-- `value or other`. -/
def orElse (value other : Json) : Json := if truthy value then value else other

/-- `_parse_comment`, with the readings of the clock; `git_providers.py:374–389`. -/
def parseComment (x : Library) (now : Time × Time) (issueNumber : Int) (data : Json) :
    IssueComment :=
  let user := field data "user"
  let created := field data "created_at"
  { id := ((data.get? "id").getD (.string "")).str x.isprintable
    issueNumber
    author :=
      if isObject user then (user.get? "login").getD (.string "") else .string (textOr x user)
    body := orElse (field data "body") (.string "")
    createdAt := parseDatetime x now.1 created
    updatedAt := parseDatetime x now.2 (orElse (field data "updated_at") created)
    url := orElse (field data "html_url") (.string "")
    rawData := data }

/-- The instant of a time; one without an offset is read as it stands. -/
def instant (t : DateTime) : Time := t.reading - t.utcoffset.getD 0

/-- `to_utc`; `protocol.py:130–132`. -/
def toUtc (t : DateTime) : DateTime :=
  if t.utcoffset.isSome then t else { t with utcoffset := some 0 }

/-- A time with an offset and one without do not compare. -/
def comparable (comments : List IssueComment) : Bool :=
  comments.all (·.createdAt.utcoffset.isSome) || comments.all (·.createdAt.utcoffset.isNone)

/-- `oldest_first`; `protocol.py:140–148`. -/
def oldestFirst (comments : List IssueComment) : Except ProviderError (List IssueComment) :=
  if comparable comments then
    .ok (comments.insertionSort fun a b ↦ instant a.createdAt ≤ instant b.createdAt)
  else .error .type

/-- `_comment_pages`, with the pages that are left; `git_providers.py:341–372`. -/
def commentPages (path : String) (answer : Nat → Answer) :
    Nat → Nat → List Json → Except ProviderError (List Json)
  | 0, _, _ => .error (.commentTooLong path)
  | left + 1, page, collected =>
    match answer page with
    | .failed text => .error (.commentRead path page text)
    | .json (.array batch) =>
      let collected := collected ++ batch.filter isObject
      if batch.length < githubPageSize then .ok collected
      else commentPages path answer left (page + 1) collected
    | .json value => .error (.commentNotAList path (typeName value))

/-- The parameters of a request for comments; `git_providers.py:291–293,326,354`. -/
def commentParams (x : Library) (since : Option DateTime) (more : List (String × String)) :
    List (String × String) :=
  (since.map fun since ↦ ("since", x.isoUtc (toUtc since))).toList ++ more ++
    [("per_page", toString githubPageSize)]

/-- The clock at each comment of a stream: that of an issue, or that of the repository. -/
abbrev Clock := Option Int → Nat → Time × Time

/-- `fetch_comments`; `git_providers.py:282–296`. -/
def fetchComments (x : Library) (host : Host) (repo : String) (clock : Clock) (issueNumber : Int)
    (since : Option DateTime) : Except ProviderError (List IssueComment) := do
  let path := "/repos/" ++ repo ++ "/issues/" ++ toString issueNumber ++ "/comments"
  let raw ← commentPages path (host path (commentParams x since [])) commentMaxPages 1 []
  oldestFirst (raw.mapIdx fun i item ↦
    parseComment x (clock (some issueNumber) i) issueNumber item)

/-- The last part of a URL, slashes at its end apart. -/
def lastPart (url : String) : List Char :=
  (url.toList.rdropWhile (· == '/')).rtakeWhile (· ≠ '/')

/-- `_issue_number_from_url`; `git_providers.py:443–450`. -/
def issueNumberFromUrl (url : Json) : Except ProviderError (Option Int) :=
  match orElse url (.string "") with
  | .string s =>
    if lastPart s ≠ [] ∧ (lastPart s).all isDigitChar = true then
      match pyInt (lastPart s) with
      | .ok number => .ok (some number)
      | .error _ => .error .notAnInt
    else .ok none
  | _ => .error .attribute

/-- The comments of a stream under the issues that are asked for; `git_providers.py:329–335`. -/
def groupComments (x : Library) (clock : Nat → Time × Time) :
    Nat → List Json → Dict Int (List IssueComment) →
      Except ProviderError (Dict Int (List IssueComment))
  | _, [], grouped => .ok grouped
  | i, item :: rest, grouped => do
    let number ← issueNumberFromUrl ((item.get? "issue_url").getD (.string ""))
    match number.bind fun n ↦ (grouped.get? n).map (Prod.mk n) with
    | none => groupComments x clock (i + 1) rest grouped
    | some (n, comments) =>
      groupComments x clock (i + 1) rest
        (grouped.set n (comments ++ [parseComment x (clock i) n item]))

/-- `fetch_comments_bulk`; `git_providers.py:298–339`. -/
def fetchCommentsBulk (x : Library) (host : Host) (repo : String) (clock : Clock)
    (issueNumbers : List Int) (since : Option DateTime) :
    Except ProviderError (Dict Int (List IssueComment)) :=
  let wanted := issueNumbers.dedup.insertionSort (· ≤ ·)
  if wanted = [] then .ok Dict.empty
  else
    match since with
    | none =>
      Dict.comprehend id (fun number ↦ fetchComments x host repo clock number none) wanted
        Dict.empty
    | some since => do
      let path := "/repos/" ++ repo ++ "/issues/comments"
      let params := commentParams x (some since) [("sort", "updated"), ("direction", "asc")]
      let raw ← commentPages path (host path params) commentMaxPages 1 []
      let grouped ← groupComments x (clock none) 0 raw
        (wanted.foldl (fun grouped number ↦ grouped.set number []) Dict.empty)
      Dict.comprehend Prod.fst (fun entry ↦ oldestFirst entry.2) grouped.entries Dict.empty

end CFactory.Providers
