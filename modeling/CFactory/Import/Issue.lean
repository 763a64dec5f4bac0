import CFactory.Cards.Store

/-!
# Issues and the card fields they own

`issue_import.py:75–225`, `protocol.py:69–90`. An issue as a provider hands it over, the
mapping to the mirrored card fields, and the update an imported card takes from a later pass.
-/

namespace CFactory.Import

open CFactory.Model
open CFactory.Cards
open CFactory.Status

/-- `IssueData`, as far as a card reads it; `protocol.py:69–90`. -/
structure IssueData where
  number : Int
  title : String
  body : String := ""
  state : String := "open"
  labels : List String := []
  updatedAt : Time := 0
  assignees : List String := []
  milestone : Option String := none
  /-- The keys of the raw payload. -/
  rawKeys : List String := []
  deriving DecidableEq, Repr

/-- `IMPORT_PRIORITY`; `issue_import.py:83`. -/
def importPriority : Int := 100

/-- `_PR_KEYS`; `issue_import.py:92`. -/
def prKeys : List String := ["pull_request", "merge_request", "merge_requests_count"]

/-- `_is_pull_request`; `issue_import.py:131–132`. -/
def isPullRequest (issue : IssueData) : Bool := prKeys.any fun key ↦ issue.rawKeys.contains key

/-- The tiers by name; `_TIERS`, `issue_import.py:76`. -/
def tierNamed : List Char → Option CardTier
  | ['l', 'o', 'w'] => some .low
  | ['m', 'e', 'd', 'i', 'u', 'm'] => some .medium
  | ['h', 'a', 'r', 'd'] => some .hard
  | _ => none

/-- The tier of one label; `issue_import.py:142–146`. -/
def tierOfLabel (label : String) : Option CardTier :=
  let lowered := label.toList.map lower
  if "factory:".toList.isPrefixOf lowered then tierNamed (strip (lowered.drop 8)) else none

/-- `_tier_of`; `issue_import.py:135–147`. -/
def tierOf (labels : List String) : Option CardTier := labels.findSome? tierOfLabel

/-- `_status_for`; `issue_import.py:150–157`. -/
def statusFor (issueState : String) : CardStatus :=
  if issueState = "closed" then .done else .backlog

/-- A text, or `None` for the empty one. -/
def orNone (s : String) : Option String := if s = "" then none else some s

/-- The mirrored fields; `MIRRORED_FIELDS`, `issue_import.py:108–119`. -/
structure Mirrored where
  title : String
  description : Option String
  labels : List String
  tier : Option CardTier
  assignee : Option String
  milestone : Option String
  issueState : Option String
  githubSyncError : Option String
  deriving DecidableEq

/-- `_mapping`; `issue_import.py:160–192`. -/
def mapping (issue : IssueData) : Mirrored where
  title := if issue.title = "" then "(untitled issue)" else issue.title
  description := orNone issue.body
  labels := issue.labels
  tier := tierOf issue.labels
  assignee := issue.assignees.head?
  milestone := issue.milestone
  issueState := orNone issue.state
  githubSyncError := none

/-- The mirrored fields of a card. -/
def mirrored (c : Card) : Mirrored where
  title := c.title
  description := c.description
  labels := c.labels
  tier := c.tier
  assignee := c.assignee
  milestone := c.milestone
  issueState := c.issueState
  githubSyncError := c.githubSyncError

/-- `bool(card.stage_runs)`: a record is there for some stage. -/
def hasRuns (runs : StageRuns) : Bool :=
  [Stage.plan, Stage.code, Stage.test].any fun stage ↦ (runs stage).isSome

/-- `_entered_the_factory`; `issue_import.py:195–208`. -/
def enteredTheFactory (c : Card) : Bool := c.correlationKey.isSome || hasRuns c.stageRuns

/-- The value to assign, where it differs from the one there. -/
def assign {α : Type} [DecidableEq α] (old new : α) : Option α :=
  if old = new then none else some new

/-- Nothing is assigned where the value is there already. -/
theorem assign_eq_none {α : Type} [DecidableEq α] {old new : α} :
    assign old new = none ↔ old = new := by
  rw [assign]
  by_cases h : old = new
  · simp [h]
  · simp [h]

/-- After the assignment the value is there. -/
theorem getD_assign {α : Type} [DecidableEq α] (old new : α) : (assign old new).getD old = new := by
  rw [assign]
  by_cases h : old = new
  · rw [if_pos h, Option.getD_none, h]
  · rw [if_neg h, Option.getD_some]

/-- `_changes_for`; `issue_import.py:211–225`. -/
def changesFor (c : Card) (issue : IssueData) : CardChanges :=
  let m := mapping issue
  { title := assign c.title m.title
    description := assign c.description m.description
    labels := assign c.labels m.labels
    tier := assign c.tier m.tier
    assignee := assign c.assignee m.assignee
    milestone := assign c.milestone m.milestone
    issueState := assign c.issueState m.issueState
    githubSyncError := assign c.githubSyncError m.githubSyncError
    status := if enteredTheFactory c then none else assign c.status (statusFor issue.state) }

example : tierOf ["bug", "Factory: HARD "] = some .hard := by decide +kernel

example : tierOf ["factory:blocked"] = none := by decide +kernel

end CFactory.Import
