import CFactory.Git.Configured
import CFactory.Import.Freshness
import CFactory.Import.Safety

/-!
# The import of a repository

`git_connections.py:361–391`, `cards.py:1359–1383`, `issue_import.py:438–571`. Which project a
pass reads and which repository its new cards name, and the pass from there to the cards, the
comments and the import state it leaves.
-/

namespace CFactory.Import

open CFactory.Model
open CFactory.Cards
open CFactory.Git

/-- `import_project` of a stored repository; `git_connections.py:381`. -/
def importProject (r : GitRepositoryRow) : String :=
  match r.intakeProject with
  | some intake => if intake = "" then r.project else intake
  | none => r.project

/-- What an import uses of a `GitTarget`; `git_config.py:418–456`. -/
structure ImportTarget where
  importProject : Option String
  repositoryId : Option Nat
  deriving DecidableEq, Repr

/-- `git_target_for`, with the project the environment names for a tenant without
repositories; `cards.py:1359–1383`, `git_config.py:487–514`. -/
def gitTargetFor (g : GitTables) (tenant : String) (githubRepo : Option String)
    (repositoryId : Option Nat) (project : Option String) : Except GitError ImportTarget :=
  (resolveRepository g tenant repositoryId project).map fun
    | some resolved => ⟨some (importProject resolved.repository), some resolved.repository.id⟩
    | none => ⟨strippedOrNone githubRepo, none⟩

/-- The tables of a board. -/
structure Board where
  git : GitTables := {}
  cards : CardTable := []
  comments : List CommentRow := []
  states : ImportStates := []

/-- What a pass meets outside the tables: its settings, whether the target has a credential,
and what the provider answers, `none` where the read raises. -/
structure ImportRead where
  settings : ImportSettings := {}
  githubRepo : Option String := none
  enabled : Bool := true
  full : Bool := false
  answer : IssueFilters → Option (List Returned)
  comments : Option (Group → GroupAnswer) := none
  backfillMax : Int := 25
  now : Time
  polledAt : Time

/-- `import_issues`: the report, where the pass read its issues, and the board after it;
`nocase` is the database's reading of `LIKE`. `issue_import.py:438–571`. -/
def importRepository (nocase : Bool) (scope : Option String) (b : Board)
    (repositoryId : Option Nat) (project : Option String) (read : ImportRead) :
    Except GitError (Option PassReport × Board) :=
  let tenant := tenantOf scope
  (gitTargetFor b.git tenant read.githubRepo repositoryId project).map fun git ↦
    let target := stripped (if project.getD "" = "" then git.importProject else project)
    if !read.enabled || !isProject target.toList then (none, b)
    else
      let filters := filtersFor read.settings (sinceFor read.full
        (getWatermark b.states tenant target))
      match read.answer filters with
      | none => (none, b)
      | some returned =>
        let (cards, comments) := importPass nocase scope target git.repositoryId read.backfillMax
          read.comments read.now b.cards b.comments returned
        let (_, watermark, report) := importIssues scope target git.repositoryId filters read.now
          b.cards returned
        let states := match watermark with
          | some when => setWatermark b.states tenant target when
          | none => b.states
        (some report,
          { b with
            cards := cards
            comments := comments
            states := markPolled states tenant target read.polledAt })

/-! ## An import by its repository -/

/-- What a repository imports from is a project path. -/
theorem isProject_importProject {r : GitRepositoryRow} (h : Addressed r) :
    isProject (importProject r).toList = true := by
  rw [importProject]
  cases hintake : r.intakeProject with
  | none => exact h.1
  | some intake =>
    show isProject (if intake = "" then r.project else intake).toList = true
    split
    · exact h.1
    · exact h.2 intake hintake

/-- The import state after a pass that read its issues. -/
def statesAfter (s : ImportStates) (tenant project : String) (watermark : Option Time)
    (polledAt : Time) : ImportStates :=
  markPolled (match watermark with
    | some when => setWatermark s tenant project when
    | none => s) tenant project polledAt

/-- An import of a stored repository leaves the board alone, or is a pass over its import
project in its name. -/
theorem importRepository_eq {nocase : Bool} {scope : Option String} {b : Board}
    (h : Configured b.git) {r : GitRepositoryRow} (hr : r ∈ repositoriesOf b.git (tenantOf scope))
    (read : ImportRead) :
    importRepository nocase scope b (some r.id) none read =
      .ok (if read.enabled then
        let filters := filtersFor read.settings (sinceFor read.full
          (getWatermark b.states (tenantOf scope) (importProject r)))
        match read.answer filters with
        | none => (none, b)
        | some returned =>
          let after := importPass nocase scope (importProject r) (some r.id) read.backfillMax
            read.comments read.now b.cards b.comments returned
          let pass := importIssues scope (importProject r) (some r.id) filters read.now b.cards
            returned
          (some pass.2.2,
            { b with
              cards := after.1
              comments := after.2
              states := statesAfter b.states (tenantOf scope) (importProject r) pass.2.1
                read.polledAt })
      else (none, b)) := by
  have haddressed := isProject_importProject (h.addressed r (mem_repositoriesOf.mp hr).1)
  obtain ⟨c, hresolve⟩ := h.resolve hr none
  have htarget : gitTargetFor b.git (tenantOf scope) read.githubRepo (some r.id) none =
      .ok ⟨some (importProject r), some r.id⟩ := by
    rw [gitTargetFor, hresolve]
    rfl
  have hproject : stripped (if (none : Option String).getD "" = "" then
      some (importProject r) else none) = importProject r :=
    stripped_project haddressed
  rw [importRepository]
  dsimp only
  rw [htarget]
  show Except.ok _ = _
  dsimp only
  rw [hproject, haddressed]
  cases read.enabled with
  | false => rfl
  | true => rfl

end CFactory.Import
