import CFactory.Git.Transactions

/-!
# Adopting the single configuration

`git_config.py:147–190`, `cards.py:2263–2337`. The rows of the single configuration become a
connection and a default repository each, when the process starts. A row whose tenant has a
connection is left alone. The credential that follows a row onto its connection writes none of
these tables.
-/

namespace CFactory.Git

open CFactory.Base CFactory.Model
open CFactory.Status

/-- `GitConfigRow`; `git_config.py:151–193`. -/
structure GitConfigRow where
  tenantId : String
  provider : String := "github"
  baseUrl : Option String := none
  project : Option String := none
  intakeProject : Option String := none
  aifactoryProjectId : Option String := none
  /-- What the column holds; an element that is no text is `none`. -/
  defaultLabels : List (Option String) := []
  verifiedAt : Option Time := none
  verifyError : Option String := none
  credentialRejected : Option Bool := none
  deriving DecidableEq, Repr

/-- A row and how many keys its new connection and repository skip. -/
structure LegacyRow extends GitConfigRow where
  skipped : Nat := 0
  skippedRepositories : Nat := 0

/-- `tenant` of the store that is scoped to a row; `cards.py:759–767`. -/
def GitConfigRow.tenant (row : GitConfigRow) : String :=
  if row.tenantId = "" then "default" else row.tenantId

/-- The provider a row names; `cards.py:2306`. -/
def GitConfigRow.kind (row : GitConfigRow) : String :=
  let provider := if row.provider = "" then "github" else row.provider
  String.ofList ((stripped (some provider)).toList.map lower)

/-- The connection takes over what a verification proved; `cards.py:2310–2317`. -/
def GitConfigRow.verified (row : GitConfigRow) (c : GitConnectionRow) : GitConnectionRow :=
  { c with
    verifiedAt := row.verifiedAt
    verifyError := row.verifyError
    credentialRejected := row.credentialRejected }

/-- The repository a row names; `cards.py:2321–2329`. -/
def GitConfigRow.repository (row : GitConfigRow) (project : String) : GitRepositoryCreate where
  project := project
  intakeProject := row.intakeProject
  aifactoryProjectId := row.aifactoryProjectId
  defaultLabels := row.defaultLabels.filterMap id
  makeDefault := true

/-- The connection a row names; `cards.py:2307–2309`. -/
def GitConfigRow.connection (row : GitConfigRow) : GitConnectionCreate where
  provider := row.kind
  baseUrl := row.baseUrl

/-- The project a row names; `cards.py:2318`. -/
def GitConfigRow.named (row : GitConfigRow) : Option String := row.project.filter (· ≠ "")

namespace Steps

/-- `_adopt_one` up to the credential; `cards.py:2304–2338`. -/
def adoptConfig (tenant : String) (row : LegacyRow) : GitScript GitConnectionRow := do
  let c ← createConnection tenant row.skipped { provider := row.kind, baseUrl := row.baseUrl }
  patchConnection tenant c.id row.verified
  match row.project.filter (· ≠ "") with
  | none => return c
  | some project => do
    createRepository tenant row.skippedRepositories c.id (row.repository project)
    return c

/-- The tenant's connections are read; `cards.py:2298`. -/
def connections (tenant : String) : GitScript (List GitConnectionRow) :=
  .atomic (.reads fun g ↦ .ok (connectionsOf g tenant))

/-- `adopt_legacy_git_config`, credentials aside; `cards.py:2263–2302`. -/
def adoptLegacy : List LegacyRow → GitScript Unit
  | [] => pure ()
  | row :: rest => do
    let existing ← connections row.tenant
    if existing ≠ [] then adoptLegacy rest
    else do
      let _ ← adoptConfig row.tenant row
      adoptLegacy rest

end Steps

end CFactory.Git
