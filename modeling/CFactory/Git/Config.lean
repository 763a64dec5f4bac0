import CFactory.Cards.IssueRef
import CFactory.Model.Types

/-!
# Git configuration

`git_config.py:89–318`, `git_connections.py:209–337`. The providers, the bodies of connection
and repository writes, and their validation to stored column values.
-/

namespace CFactory.Git

open CFactory.Cards
open CFactory.Status

/-- `SUPPORTED_PROVIDERS`; `git_config.py:97`. -/
inductive Provider where
  | github
  | gitlab
  | azureDevops
  deriving DecidableEq, Repr

/-- What a configuration write raises; `git_config.py:142–144`, `git_connections.py:82–89`. -/
inductive GitError where
  /-- The body is outside the bounds of its model. -/
  | invalid
  /-- `unknown provider: {provider!r} (expected one of github, gitlab, azure_devops)`. -/
  | unknownProvider (provider : String)
  /-- `{field} must be a provider project path such as 'owner/repo' (got {project!r})`. -/
  | notAPath (field project : String)
  /-- `{field} on azure_devops must be 'organization/project/repo'`. -/
  | notThreeParts (field : String)
  /-- `base_url must start with http:// or https://`. -/
  | badBaseUrl
  /-- `label must be at most 128 characters`. -/
  | labelTooLong
  /-- `default_labels must not contain the intake trigger {label!r}: …`. -/
  | intakeTrigger (label : String)
  /-- `project is required: a repository is a project path`. -/
  | projectRequired
  /-- `project must not be cleared: a repository is a project path`. -/
  | projectCleared
  /-- `this tenant already has a {provider} connection to {base_url}`. -/
  | connectionExists (provider : Provider) (baseUrl : String)
  /-- `{project!r} is already a repository on this connection`. -/
  | repositoryExists (project : Option String)
  /-- `no git connection {id} for this tenant`; a lookup error. -/
  | noConnection (id : Nat)
  /-- `no git repository {id} for this tenant`; a lookup error. -/
  | noRepository (id : Nat)
  deriving DecidableEq, Repr

/-- A lookup error, which no handler of a `GitConfigError` catches. -/
def GitError.isLookup : GitError → Bool
  | .noConnection _ => true
  | .noRepository _ => true
  | _ => false

/-- `(text or "").strip()`. -/
def stripped (text : Option String) : String := String.ofList (strip (text.getD "").toList)

/-- `(text or "").strip() or None`. -/
def strippedOrNone (text : Option String) : Option String :=
  if stripped text = "" then none else some (stripped text)

/-- `validate_provider`; `git_config.py:240–246`. -/
def validateProvider (provider : Option String) : Except GitError Provider :=
  match (stripped provider).toList.map lower with
  | ['g', 'i', 't', 'h', 'u', 'b'] => .ok .github
  | ['g', 'i', 't', 'l', 'a', 'b'] => .ok .gitlab
  | ['a', 'z', 'u', 'r', 'e', '_', 'd', 'e', 'v', 'o', 'p', 's'] => .ok .azureDevops
  | _ => .error (.unknownProvider (provider.getD ""))

/-- `validate_project`; `git_config.py:249–265`. -/
def validateProject (project : Option String) (provider : Provider) (field : String) :
    Except GitError (Option String) :=
  let value := stripped project
  if value = "" then .ok none
  else if isProject value.toList = false then .error (.notAPath field (project.getD ""))
  else if provider = .azureDevops ∧ (value.toList.splitOn '/').length ≠ 3 then
    .error (.notThreeParts field)
  else .ok (some value)

/-- `validate_base_url`; `git_config.py:268–279`. -/
def validateBaseUrl (baseUrl : Option String) : Except GitError (Option String) :=
  let value := (stripped baseUrl).toList.rdropWhile (· == '/')
  if value = [] then .ok none
  else if "http://".toList.isPrefixOf value || "https://".toList.isPrefixOf value then
    .ok (some (String.ofList value))
  else .error .badBaseUrl

/-- A label that starts with `factory:`; `git_config.py:292`. -/
def isTrigger (label : String) : Bool :=
  "factory:".toList.isPrefixOf (label.toList.map lower)

/-- `validate_labels`; `git_config.py:282–299`. -/
def validateLabels (labels : Option (List String)) : Except GitError (List String) :=
  let cleaned := ((labels.getD []).map fun label ↦ stripped (some label)).filter (· ≠ "")
  match cleaned.find? isTrigger with
  | some label => .error (.intakeTrigger label)
  | none => .ok cleaned

/-- The column value of a provider. -/
def Provider.text : Provider → String
  | .github => "github"
  | .gitlab => "gitlab"
  | .azureDevops => "azure_devops"

/-- `LABEL_MAX`; `git_connections.py:68`. -/
def labelMax : Nat := 128

/-- `validate_label`; `git_connections.py:284–289`. -/
def validateLabel (label : Option String) (provider : Provider) : Except GitError String :=
  let value := stripped label
  if labelMax < value.length then .error .labelTooLong
  else .ok (if value = "" then provider.text else value)

/-! ## Connections -/

/-- The columns a connection write assigns. -/
structure ConnectionFields where
  provider : Provider
  baseUrl : String
  label : String
  deriving DecidableEq, Repr

/-- `connection_fields`; an empty host is the provider's own; `git_connections.py:292–299`. -/
def connectionFields (provider baseUrl label : Option String) :
    Except GitError ConnectionFields := do
  let kind ← validateProvider provider
  let url ← validateBaseUrl baseUrl
  let name ← validateLabel label kind
  return { provider := kind, baseUrl := url.getD "", label := name }

/-- `GitConnectionCreate`; `git_connections.py:231–237`. -/
structure GitConnectionCreate where
  provider : String := "github"
  baseUrl : Option String := none
  label : Option String := none

/-- Its length bounds. -/
def GitConnectionCreate.valid (body : GitConnectionCreate) : Bool :=
  body.baseUrl.all (·.length ≤ 512) && body.label.all (·.length ≤ labelMax)

/-- `GitConnectionUpdate`: a field not sent is `none`, one sent as null is `some none`;
`git_connections.py:240–251`. -/
structure GitConnectionUpdate where
  provider : Option (Option String) := none
  baseUrl : Option (Option String) := none
  label : Option (Option String) := none

/-- Its length bounds. -/
def GitConnectionUpdate.valid (body : GitConnectionUpdate) : Bool :=
  body.baseUrl.all (·.all (·.length ≤ 512)) && body.label.all (·.all (·.length ≤ labelMax))

/-! ## Repositories -/

/-- `GitRepositoryCreate`; `git_connections.py:254–264`. -/
structure GitRepositoryCreate where
  project : String
  intakeProject : Option String := none
  aifactoryProjectId : Option String := none
  defaultLabels : List String := []
  makeDefault : Bool := false

/-- Its length bounds. -/
def GitRepositoryCreate.valid (body : GitRepositoryCreate) : Bool :=
  decide (1 ≤ body.project.length ∧ body.project.length ≤ 256) &&
    body.intakeProject.all (·.length ≤ 256) && body.aifactoryProjectId.all (·.length ≤ 128)

/-- `GitRepositoryUpdate`: a field not sent is `none`, one sent as null is `some none`;
`git_connections.py:267–278`. -/
structure GitRepositoryUpdate where
  project : Option (Option String) := none
  intakeProject : Option (Option String) := none
  aifactoryProjectId : Option (Option String) := none
  defaultLabels : Option (Option (List String)) := none

/-- Its length bounds. -/
def GitRepositoryUpdate.valid (body : GitRepositoryUpdate) : Bool :=
  body.project.all (·.all fun p ↦ 1 ≤ p.length && p.length ≤ 256) &&
    body.intakeProject.all (·.all (·.length ≤ 256)) &&
    body.aifactoryProjectId.all (·.all (·.length ≤ 128))

/-- The columns a repository write assigns. -/
structure RepositoryFields where
  project : String
  intakeProject : Option String
  aifactoryProjectId : Option String
  defaultLabels : List String
  deriving DecidableEq, Repr

/-- `repository_fields`; `git_connections.py:302–317`. -/
def repositoryFields (body : GitRepositoryCreate) (provider : Provider) :
    Except GitError RepositoryFields := do
  match ← validateProject (some body.project) provider "project" with
  | none => .error .projectRequired
  | some project =>
    let intake ← validateProject body.intakeProject provider "intake_project"
    let labels ← validateLabels (some body.defaultLabels)
    return { project := project
             intakeProject := intake
             aifactoryProjectId := strippedOrNone body.aifactoryProjectId
             defaultLabels := labels }

/-- The columns a patch assigns: one left alone is `none`. -/
structure RepositoryPatch where
  project : Option String := none
  intakeProject : Option (Option String) := none
  aifactoryProjectId : Option (Option String) := none
  defaultLabels : Option (List String) := none
  deriving DecidableEq, Repr

/-- The value of a field that was sent, validated. -/
def sentField {α β : Type} (sent : Option α) (validate : α → Except GitError β) :
    Except GitError (Option β) :=
  match sent with
  | none => .ok none
  | some value => (validate value).map some

/-- The project of a patch, which cannot be cleared; `git_connections.py:324–328`. -/
def validatePatchProject (provider : Provider) (project : Option String) :
    Except GitError String := do
  match ← validateProject project provider "project" with
  | none => .error .projectCleared
  | some value => return value

/-- `repository_patch`; `git_connections.py:320–337`. -/
def repositoryPatch (body : GitRepositoryUpdate) (provider : Provider) :
    Except GitError RepositoryPatch := do
  let project ← sentField body.project (validatePatchProject provider)
  let intake ← sentField body.intakeProject fun p ↦
    validateProject p provider "intake_project"
  let labels ← sentField body.defaultLabels validateLabels
  return { project := project
           intakeProject := intake
           aifactoryProjectId := body.aifactoryProjectId.map strippedOrNone
           defaultLabels := labels }

/-! ## The single configuration -/

/-- `GitConfigUpdate`; `git_config.py:225–234`. -/
structure GitConfigUpdate where
  provider : String := "github"
  baseUrl : Option String := none
  project : Option String := none
  intakeProject : Option String := none
  aifactoryProjectId : Option String := none
  defaultLabels : List String := []

/-- Its length bounds. -/
def GitConfigUpdate.valid (update : GitConfigUpdate) : Bool :=
  update.baseUrl.all (·.length ≤ 512) && update.project.all (·.length ≤ 256) &&
    update.intakeProject.all (·.length ≤ 256) && update.aifactoryProjectId.all (·.length ≤ 128)

/-- The columns of a configuration write; that it clears the verification is left to the
writer. -/
structure ConfigFields where
  provider : Provider
  baseUrl : Option String
  project : Option String
  intakeProject : Option String
  aifactoryProjectId : Option String
  defaultLabels : List String
  deriving DecidableEq, Repr

/-- `validated_fields`; `git_config.py:302–318`. -/
def validatedFields (update : GitConfigUpdate) : Except GitError ConfigFields := do
  let provider ← validateProvider (some update.provider)
  let baseUrl ← validateBaseUrl update.baseUrl
  let project ← validateProject update.project provider "project"
  let intake ← validateProject update.intakeProject provider "intake_project"
  let labels ← validateLabels (some update.defaultLabels)
  return { provider := provider
           baseUrl := baseUrl
           project := project
           intakeProject := intake
           aifactoryProjectId := strippedOrNone update.aifactoryProjectId
           defaultLabels := labels }

/-! ## Validated values -/

/-- A bound step that succeeded did so in both halves. -/
theorem bind_eq_ok {ε α β : Type} {x : Except ε α} {f : α → Except ε β} {b : β} :
    (x >>= f) = .ok b ↔ ∃ a, x = .ok a ∧ f a = .ok b := by
  cases x with
  | error e => simp [bind, Except.bind]
  | ok a => simp [bind, Except.bind]

/-- A translated error is no value. -/
theorem mapError_eq_ok {ε ε' α : Type} {x : Except ε α} {f : ε → ε'} {a : α} :
    x.mapError f = .ok a ↔ x = .ok a := by
  cases x with
  | error e => simp [Except.mapError]
  | ok b => simp [Except.mapError]

/-- An accepted project is a project path. -/
theorem isProject_of_validateProject {project : Option String} {provider : Provider}
    {field value : String} (h : validateProject project provider field = .ok (some value)) :
    isProject value.toList = true := by
  rw [validateProject] at h
  by_cases hempty : stripped project = ""
  · rw [if_pos hempty] at h
    cases h
  · rw [if_neg hempty] at h
    by_cases hpath : isProject (stripped project).toList = false
    · rw [if_pos hpath] at h
      cases h
    · rw [if_neg hpath] at h
      split at h
      · cases h
      · cases h
        simpa using hpath

/-- A project path is stripped to itself. -/
theorem stripped_project {p : String} (h : isProject p.toList = true) :
    stripped (some p) = p := by
  rw [stripped, Option.getD_some, strip_project h, String.ofList_toList]

/-- The paths of an accepted repository are accepted. -/
theorem accepted_of_repositoryFields {body : GitRepositoryCreate} {provider : Provider}
    {fields : RepositoryFields} (h : repositoryFields body provider = .ok fields) :
    validateProject (some body.project) provider "project" = .ok (some fields.project) ∧
      validateProject body.intakeProject provider "intake_project" = .ok fields.intakeProject := by
  rw [repositoryFields, bind_eq_ok] at h
  obtain ⟨project, hproject, h⟩ := h
  cases project with
  | none => cases h
  | some project =>
    rw [bind_eq_ok] at h
    obtain ⟨intake, hintake, h⟩ := h
    rw [bind_eq_ok] at h
    obtain ⟨labels, -, h⟩ := h
    cases h
    exact ⟨hproject, hintake⟩

/-- The paths of an accepted repository are project paths. -/
theorem paths_of_repositoryFields {body : GitRepositoryCreate} {provider : Provider}
    {fields : RepositoryFields} (h : repositoryFields body provider = .ok fields) :
    isProject fields.project.toList = true ∧
      ∀ p, fields.intakeProject = some p → isProject p.toList = true := by
  obtain ⟨hproject, hintake⟩ := accepted_of_repositoryFields h
  refine ⟨isProject_of_validateProject hproject, ?_⟩
  intro p hp
  rw [hp] at hintake
  exact isProject_of_validateProject hintake

/-- A field of a patch is one that was sent and accepted. -/
private theorem sentField_ok {α β : Type} {sent : Option α} {validate : α → Except GitError β}
    {value : β} (h : sentField sent validate = .ok (some value)) :
    ∃ a, sent = some a ∧ validate a = .ok value := by
  cases sent with
  | none => cases h
  | some a =>
    rw [sentField] at h
    cases hvalue : validate a with
    | error e =>
      rw [hvalue] at h
      cases h
    | ok accepted =>
      rw [hvalue] at h
      cases h
      exact ⟨a, rfl, hvalue⟩

/-- The paths of an accepted patch are accepted. -/
theorem accepted_of_repositoryPatch {body : GitRepositoryUpdate} {provider : Provider}
    {patch : RepositoryPatch} (h : repositoryPatch body provider = .ok patch) :
    (∀ p, patch.project = some p →
        ∃ sent, validateProject sent provider "project" = .ok (some p)) ∧
      ∀ p, patch.intakeProject = some p →
        ∃ sent, validateProject sent provider "intake_project" = .ok p := by
  rw [repositoryPatch, bind_eq_ok] at h
  obtain ⟨project, hproject, h⟩ := h
  rw [bind_eq_ok] at h
  obtain ⟨intake, hintake, h⟩ := h
  rw [bind_eq_ok] at h
  obtain ⟨labels, -, h⟩ := h
  cases h
  constructor
  · intro p hp
    cases hp
    obtain ⟨sent, -, hvalid⟩ := sentField_ok hproject
    rw [validatePatchProject, bind_eq_ok] at hvalid
    obtain ⟨accepted, haccepted, hvalid⟩ := hvalid
    cases accepted with
    | none => cases hvalid
    | some accepted =>
      cases hvalid
      exact ⟨sent, haccepted⟩
  · intro p hp
    cases hp
    obtain ⟨sent, -, hvalid⟩ := sentField_ok hintake
    exact ⟨sent, hvalid⟩

/-- The paths of an accepted patch are project paths. -/
theorem paths_of_repositoryPatch {body : GitRepositoryUpdate} {provider : Provider}
    {patch : RepositoryPatch} (h : repositoryPatch body provider = .ok patch) :
    (∀ p, patch.project = some p → isProject p.toList = true) ∧
      ∀ p, patch.intakeProject = some (some p) → isProject p.toList = true := by
  obtain ⟨hproject, hintake⟩ := accepted_of_repositoryPatch h
  constructor
  · intro p hp
    obtain ⟨sent, haccepted⟩ := hproject p hp
    exact isProject_of_validateProject haccepted
  · intro p hp
    obtain ⟨sent, haccepted⟩ := hintake _ hp
    exact isProject_of_validateProject haccepted

end CFactory.Git
