import CFactory.Import.Issue

/-!
# The import pass over the cards

`issue_import.py:228–307,493–571`. The upsert of one issue, the fold over the issues a
provider returned, and the cursor the next pass asks from. An upsert may raise for reasons
outside the table (a database error, a card key lost to a concurrent create); such a fault is
an input.
-/

namespace CFactory.Import

open CFactory.Model
open CFactory.Cards

/-- Where an upsert raises, for a reason the table does not show. -/
inductive Fault where
  | none
  /-- Before anything was written, a lost card key included. -/
  | early
  /-- Between the insert of a new card and the update that follows it. -/
  | late
  deriving DecidableEq, Repr

/-- What an upsert answers to the tally, or that it raised; `issue_import.py:257–307`. -/
inductive Outcome where
  | imported
  | updated
  | skipped
  | raised
  deriving DecidableEq, Repr

/-- The body an issue's card is created from; `issue_import.py:271–286`. -/
def cardCreate (ref : IssueRef) (issue : IssueData) (repositoryId : Option Nat) : CardCreate :=
  let m := mapping issue
  { issueRef := some ref.text
    status := statusFor issue.state
    priority := importPriority
    title := m.title
    description := m.description
    tier := m.tier
    assignee := m.assignee
    milestone := m.milestone
    repositoryId := repositoryId }

/-- The update of a card that is there; `issue_import.py:302–307`. -/
def refreshCard (t : CardTable) (scope : Option String) (existing : Card) (issue : IssueData)
    (now : Time) : Outcome × CardTable :=
  if existing.deletedAt.isSome then (.skipped, t)
  else if changesFor existing issue = {} then (.updated, t)
  else
    match updateCard t scope existing.cardKey (changesFor existing issue) now with
    | .ok (_, t') => (.updated, t')
    | .error _ => (.raised, t)

/-- `_import_one`; `issue_import.py:257–307`. -/
def importOne (scope : Option String) (repositoryId : Option Nat) (now : Time) (t : CardTable)
    (ref : IssueRef) (issue : IssueData) (fault : Fault) : Outcome × CardTable :=
  if fault = .early then (.raised, t)
  else
    match getByIssueRef t scope ref.text with
    | some existing => refreshCard t scope existing issue now
    | none =>
      match create t scope (cardCreate ref issue repositoryId) now with
      | .ok (card, t1) =>
        if fault = .late then (.raised, t1)
        else
          match updateCard t1 scope card.cardKey
            { labels := some (mapping issue).labels
              issueState := some (mapping issue).issueState } now with
          | .ok (_, t2) => (.imported, t2)
          | .error _ =>
            match getByIssueRef t1 scope ref.text with
            | none => (.skipped, t1)
            | some existing => refreshCard t1 scope existing issue now
      | .error .duplicateIssueRef =>
        match getByIssueRef t scope ref.text with
        | none => (.skipped, t)
        | some existing => refreshCard t scope existing issue now
      | .error _ => (.raised, t)

/-- An issue a provider returned, with the fault its upsert meets. -/
structure Returned where
  issue : IssueData
  fault : Fault := .none
  deriving DecidableEq

/-- The issues that are not pull requests; `issue_import.py:521`. -/
def issuesOnly (returned : List Returned) : List Returned :=
  returned.filter fun r ↦ !isPullRequest r.issue

/-- The reference of an issue in the project a pass reads. -/
def refOf (project : String) (issue : IssueData) : IssueRef := ⟨project, issue.number⟩

/-- What a pass did with the issues it was given; `issue_import.py:523`. -/
structure Tally where
  imported : Nat := 0
  updated : Nat := 0
  skipped : Nat := 0
  deriving DecidableEq, Repr

/-- One issue counted; a raised upsert counts as skipped; `issue_import.py:524–531`. -/
def Tally.add (n : Tally) : Outcome → Tally
  | .imported => { n with imported := n.imported + 1 }
  | .updated => { n with updated := n.updated + 1 }
  | .skipped => { n with skipped := n.skipped + 1 }
  | .raised => { n with skipped := n.skipped + 1 }

/-- The upsert of one returned issue. -/
def upsert (scope : Option String) (project : String) (repositoryId : Option Nat) (now : Time)
    (t : CardTable) (r : Returned) : Outcome × CardTable :=
  importOne scope repositoryId now t (refOf project r.issue) r.issue r.fault

/-- The upserts of one pass, in the order the provider returned the issues;
`issue_import.py:523–531`. -/
def importAll (scope : Option String) (project : String) (repositoryId : Option Nat) (now : Time)
    (t : CardTable) (returned : List Returned) : CardTable :=
  (issuesOnly returned).foldl (fun t r ↦ (upsert scope project repositoryId now t r).2) t

/-- The tally of one pass; `issue_import.py:523–531`. -/
def tally (scope : Option String) (project : String) (repositoryId : Option Nat) (now : Time)
    (t : CardTable) (returned : List Returned) : Tally :=
  ((issuesOnly returned).foldl (fun (acc : Tally × CardTable) r ↦
    let (outcome, t') := upsert scope project repositoryId now acc.2 r
    (acc.1.add outcome, t')) ({}, t)).1

/-- `_OVERLAP`, in microseconds; `issue_import.py:88`. -/
def overlap : Time := 60000000

/-- `_next_watermark`; `issue_import.py:248–254`. -/
def nextWatermark (issues : List IssueData) (previous : Option Time) : Option Time :=
  match issues.map IssueData.updatedAt with
  | [] => previous
  | stamp :: rest => some (rest.foldl max stamp - overlap)

/-- The settings an import reads; `config.py:154–161`. -/
structure ImportSettings where
  importState : String := "open"
  importLabels : String := ""
  importMax : Int := 1000

/-- `IssueFilters`, as far as an import fills it; `protocol.py:257–268`. -/
structure IssueFilters where
  state : String
  labels : List String
  since : Option Time
  limit : Int
  includePrs : Bool
  deriving DecidableEq

/-- `_filters`; `issue_import.py:228–245`. -/
def filtersFor (settings : ImportSettings) (since : Option Time) : IssueFilters where
  state := if since.isSome then "all" else settings.importState
  labels := ((settings.importLabels.toList.splitOn ',').filter (strip · ≠ [])).map String.ofList
  since := since
  limit := max 1 settings.importMax
  includePrs := false

/-- The cursor a pass asks from; `issue_import.py:493`. -/
def sinceFor (full : Bool) (watermark : Option Time) : Option Time :=
  if full then none else watermark

/-- What `import_issues` reports of a pass that read its issues; `issue_import.py:552–571`. -/
structure PassReport where
  incremental : Bool
  seen : Nat
  truncated : Bool
  importMax : Int
  lastSyncedAt : Option Time
  tally : Tally
  deriving DecidableEq

/-- `import_issues` after the read of the issues, comments aside: the cards, the watermark to
store, and the report; `issue_import.py:521–571`. -/
def importIssues (scope : Option String) (project : String) (repositoryId : Option Nat)
    (filters : IssueFilters) (now : Time) (t : CardTable) (returned : List Returned) :
    CardTable × Option Time × PassReport :=
  let issues := issuesOnly returned
  let watermark := nextWatermark (issues.map Returned.issue) filters.since
  (importAll scope project repositoryId now t returned, watermark,
    { incremental := filters.since.isSome
      seen := issues.length
      truncated := decide (filters.limit ≤ issues.length)
      importMax := filters.limit
      lastSyncedAt := watermark
      tally := tally scope project repositoryId now t returned })

end CFactory.Import
