import CFactory.Git.Access
import CFactory.Intake.Dispatch
import CFactory.Sync.SyncCard
import CFactory.Tenants.Database

/-!
# Entry points and the target they resolve

`card_intake.py:186–230,591–744`, `github_sync.py:118–141,265–343`. A stage action and a sync
resolve the card's target before they do anything else with it, and outside every handler of
exceptions; what the resolution raises they raise. The comment on `CardRow.repository_id` and
the docstring of `delete_repository` promise a card of a deleted repository the default one.
-/

namespace CFactory.Targets

open CFactory.Base CFactory.Model CFactory.Cards CFactory.Git CFactory.Import CFactory.Sync
open CFactory.Intake (IntakeM IntakeOp IntakeEnv DispatchResult stageStatus defaultStage)

/-! ## The entry points -/

/-- What a call is handed besides the card: the tables its target is resolved on. -/
structure Deployment where
  access : AccessTables
  tenant : String
  settings : GitSettings

/-- `git_target_for_card` of the store. -/
def Deployment.target (d : Deployment) (card : Card) : Except GitError GitTarget :=
  gitTargetForCard d.access d.tenant d.settings card

/-- A stage action whose target is resolved first: `aifactory_project_id`, `repo_ref` and
`card_clone_url` all resolve it anew on the same tables; `card_intake.py:186–230`. -/
def Deployment.resolving (d : Deployment) (env : IntakeEnv) (card : Card)
    (action : IntakeEnv → IntakeM DispatchResult) : IntakeM (Except GitError DispatchResult) :=
  match d.target card with
  | .error e => return .error e
  | .ok target => do
    let result ← action { env with gitProject := fun _ _ ↦ target.aifactoryProjectId }
    return .ok result

/-- `dispatch_card`; `card_intake.py:591–632`. -/
def dispatchCard (d : Deployment) (env : IntakeEnv) (card : Card) :
    IntakeM (Except GitError DispatchResult) :=
  if stageStatus card (defaultStage card) = some .dispatched ∨
      stageStatus card (defaultStage card) = some .done then do
    let result ← Intake.dispatchCard env card
    return .ok result
  else d.resolving env card fun env ↦ Intake.dispatchCard env card

/-- `dispatch_stage`; `card_intake.py:653–696`. -/
def dispatchStage (d : Deployment) (env : IntakeEnv) (card : Card) (stage : Stage) :
    IntakeM (Except GitError DispatchResult) :=
  if stageStatus card stage = some .done then do
    let result ← Intake.dispatchStage env card stage
    return .ok result
  else d.resolving env card fun env ↦ Intake.dispatchStage env card stage

/-- `start_sequence`: the stages are queued before the first one resolves the target;
`card_intake.py:699–744`. -/
def startSequence (d : Deployment) (env : IntakeEnv) (card : Card) :
    IntakeM (Except GitError DispatchResult) :=
  if card.tier = none then return .ok (Intake.refusedResult (Intake.noTier card) .plan)
  else
    match Intake.SEQUENCE.find? fun s ↦ stageStatus card s = some .dispatched with
    | some live => return .ok (Intake.refusedResult (Intake.alreadyInMotion card live) live)
    | none =>
      match Intake.owedStages card with
      | [] => do
        let result ← Intake.startSequence env card
        return .ok result
      | first :: rest => do
        let card ← Intake.writeRuns card (Intake.queuedFields (first :: rest)) {}
        let result ← dispatchStage d env card first
        return result.map fun result ↦ { result with sequence := some (first :: rest) }

/-- What `sync_card` returns; `github_sync.py:287,323–343`. -/
structure SyncResult where
  synced : Bool
  ok : Bool
  created : Option Bool := none
  reason : Option String := none
  error : Option String := none
  issueRef : Option String := none
  mirrored : List String := []
  deriving DecidableEq

/-- `Credential.installed`; `credentials.py:491–502`. -/
def installed (credential : Credential) : Bool := credential.info.source == .install

/-- `sync_enabled`; `github_sync.py:118–141`. -/
def syncEnabled (target : GitTarget) : Bool :=
  target.credential.info.configured || installed target.credential

/-- The names of the assigned columns, sorted, the sync error left out. -/
def mirroredFields (ch : CardChanges) : List String :=
  (if ch.description.isSome then ["description"] else []) ++
  (if ch.issueRef.isSome then ["issue_ref"] else []) ++
  (if ch.issueState.isSome then ["issue_state"] else []) ++
  (if ch.labels.isSome then ["labels"] else []) ++
  (if ch.status.isSome then ["status"] else []) ++
  (if ch.title.isSome then ["title"] else [])

/-- What a sync reports once the host has answered; `github_sync.py:297–343`. -/
def reported (cards : CardTable) (scope : Option String) (created : Bool) (now : Time)
    (errorId : String) : Phase → SyncResult
  | .read _ => { synced := false, ok := false }
  | .failed _ _ =>
    { synced := false, ok := false, created := some false
      error := some ("the provider call failed (reference " ++ errorId ++ ")") }
  | .mirroring card ref issue =>
    let changes := mirror card ref issue
    let duplicate : SyncResult :=
      { synced := false, ok := false, created := some created
        error := some ("another card already tracks " ++ ref.text) }
    let done : SyncResult :=
      { synced := true, ok := true, created := some created, issueRef := some ref.text
        mirrored := mirroredFields changes }
    if changes = {} then done
    else
      match updateCard cards scope card.cardKey changes now with
      | .ok _ => done
      | .error _ => duplicate

/-- `sync_card`, alone on its board; `github_sync.py:265–343`. -/
def syncCard (d : Deployment) (cards : CardTable) (card : Card) (answer : Answer) (now : Time)
    (errorId : String) : Except GitError (SyncResult × CardTable) := do
  let target ← d.target card
  if !syncEnabled target then
    return ({ synced := false, ok := true, reason := some "github sync not configured" }, cards)
  else
    let phase := ask card target.project answer
    let created := (IssueRef.parse card.issueRef).isNone
    return (reported cards (some d.tenant) created now errorId phase,
      finish cards (some d.tenant) phase now errorId)

/-! ## Cards of a repository that is gone -/

/-- The card names a repository that the tenant does not have. -/
def NamesNoRepository (d : Deployment) (card : Card) : Prop :=
  ∃ id, card.repositoryId = some id ∧
    ∀ r ∈ d.access.git.repositories, r.tenantId = d.tenant → r.id ≠ id

/-- A program returns a value and does not raise, whatever the outside answers. -/
def Returns {α : Type} (p : IntakeM (Except GitError α)) : Prop :=
  ∀ (σ : Type) (h : Handler IntakeOp IntakeOp.Res σ) (s : σ), ∃ a, (p.run h s).1 = .ok a

/-- The card is served as one that names no repository is, and nothing raises on it. -/
structure Served (d : Deployment) (card : Card) : Prop where
  target : ∃ target, d.target card = .ok target ∧
    d.target { card with repositoryId := none } = .ok target
  dispatchCard : ∀ env, Returns (dispatchCard d env card)
  dispatchStage : ∀ env stage, Returns (dispatchStage d env card stage)
  startSequence : ∀ env, Returns (startSequence d env card)
  syncCard : ∀ cards answer now errorId, ∃ done, syncCard d cards card answer now errorId = .ok done

/-- The resolution of a card whose repository is gone raises a lookup error. -/
theorem target_of_namesNoRepository {d : Deployment} {card : Card} {id : Nat}
    (hid : card.repositoryId = some id)
    (hgone : ∀ r ∈ d.access.git.repositories, r.tenantId = d.tenant → r.id ≠ id) :
    d.target card = .error (.noRepository id) := by
  have hfind : (d.access.git.repositories.find? fun r ↦ r.id == id && r.tenantId == d.tenant) =
      none := by
    rw [List.find?_eq_none]
    intro r hr hmatch
    rw [Bool.and_eq_true, beq_iff_eq, beq_iff_eq] at hmatch
    exact hgone r hr hmatch.2 hmatch.1
  rw [Deployment.target, gitTargetForCard, Git.gitTargetFor, hid, resolveRepository, repository,
    hfind]
  rfl

/-- A card that names no repository always has a target. -/
theorem target_of_cleared (d : Deployment) (card : Card) :
    ∃ target, d.target { card with repositoryId := none } = .ok target :=
  ⟨_, rfl⟩

/-- Where the resolution raises, so does a stage action that needs it. -/
private theorem resolving_of_error {d : Deployment} {card : Card} {e : GitError}
    (h : d.target card = .error e) (env : IntakeEnv)
    (action : IntakeEnv → IntakeM DispatchResult) :
    d.resolving env card action = return .error e := by
  rw [Deployment.resolving, h]

/-- Where the resolution raises, `dispatch_card` raises unless the card was dispatched before. -/
theorem dispatchCard_of_error {d : Deployment} {card : Card} {e : GitError}
    (h : d.target card = .error e) (env : IntakeEnv)
    (hfresh : stageStatus card (defaultStage card) ≠ some .dispatched ∧
      stageStatus card (defaultStage card) ≠ some .done) :
    dispatchCard d env card = return .error e := by
  rw [dispatchCard, if_neg (not_or.mpr hfresh), resolving_of_error h]

/-- Where the resolution raises, `dispatch_stage` raises unless the stage is complete. -/
theorem dispatchStage_of_error {d : Deployment} {card : Card} {e : GitError}
    (h : d.target card = .error e) (env : IntakeEnv) {stage : Stage}
    (hfresh : stageStatus card stage ≠ some .done) :
    dispatchStage d env card stage = return .error e := by
  rw [dispatchStage, if_neg hfresh, resolving_of_error h]

/-- Where the resolution raises, so does `sync_card`. -/
theorem syncCard_of_error {d : Deployment} {card : Card} {e : GitError}
    (h : d.target card = .error e) (cards : CardTable) (answer : Answer) (now : Time)
    (errorId : String) : syncCard d cards card answer now errorId = .error e := by
  rw [syncCard, h]
  rfl

/-- A card of a repository that is gone is not served as one that names none. -/
theorem not_served {d : Deployment} {card : Card} (h : NamesNoRepository d card) :
    ¬Served d card := by
  intro hserved
  obtain ⟨id, hid, hgone⟩ := h
  obtain ⟨target, htarget, -⟩ := hserved.target
  rw [target_of_namesNoRepository hid hgone] at htarget
  cases htarget

/-! ## Deletions -/

/-- A deletion of a tenant. -/
inductive Deletion where
  | repository (id : Nat)
  | connection (id : Nat)

/-- `delete_repository` and `delete_connection`; one that raises changes nothing. -/
def delete (db : Tenants.Database) (x : String × Deletion) : Tenants.Database :=
  match x.2 with
  | .repository id => (Tenants.deleteRepository x.1 id db).2
  | .connection id => (Tenants.deleteConnection x.1 id db).2

/-- What a call of a tenant is handed. -/
def deployment (db : Tenants.Database) (tenant : String) (settings : GitSettings) : Deployment :=
  ⟨db.access, tenant, settings⟩

/-- The ids of the repositories. -/
private def ids (g : GitTables) : List Nat := g.repositories.map (·.id)

private theorem ids_map {g : GitTables} {f : GitRepositoryRow → GitRepositoryRow}
    (hf : ∀ r, (f r).id = r.id) :
    ids { g with repositories := g.repositories.map f } = ids g := by
  rw [ids, ids, List.map_map]
  exact List.map_congr_left fun r _ ↦ hf r

/-- A promotion keeps the ids. -/
private theorem ids_ensureDefaultRepository (g : GitTables) (tenant : String) :
    ids (ensureDefaultRepository g tenant) = ids g := by
  rw [ensureDefaultRepository]
  split
  · rfl
  · next first rest _ =>
    split
    · rfl
    · cases hset : setDefaultRepository g tenant first.id with
      | error e => rfl
      | ok g' =>
        rw [setDefaultRepository, bind_eq_ok] at hset
        obtain ⟨found, -, hset⟩ := hset
        cases hset
        have hchosen := ids_map (g := clearDefaultRepository g tenant)
          (f := fun r ↦ if r.id = first.id then { r with defaultForTenant := some tenant } else r)
          fun r ↦ by split <;> rfl
        have hcleared := ids_map (g := g)
          (f := fun r ↦ if r.defaultForTenant = some tenant then
            { r with defaultForTenant := none } else r) fun r ↦ by split <;> rfl
        exact hchosen.trans hcleared

/-- A deletion of a repository that returned, on the tables. -/
private theorem git_deleteRepository {db : Tenants.Database} {tenant : String} {id : Nat}
    (h : (Tenants.deleteRepository tenant id db).1 = .ok true) :
    Git.deleteRepository db.access.git tenant id =
      .ok (delete db (tenant, .repository id)).access.git := by
  have hdelete : delete db (tenant, .repository id) =
      (Tenants.deleteRepository tenant id db).2 := rfl
  rw [hdelete]
  rw [Tenants.deleteRepository, Tenants.onGit, Tenants.onAccess, Call.transact] at h ⊢
  cases hg : Git.deleteRepository db.access.git tenant id with
  | error e =>
    rw [hg] at h
    cases h
  | ok g' => rfl

/-- A repository that its tenant deletes strands the cards that name it. -/
theorem namesNoRepository_of_deleteRepository {db : Tenants.Database} {tenant : String} {id : Nat}
    (hdelete : (Tenants.deleteRepository tenant id db).1 = .ok true) (settings : GitSettings)
    {card : Card} (hcard : card.repositoryId = some id) :
    NamesNoRepository (deployment (delete db (tenant, .repository id)) tenant settings) card := by
  have hgit := git_deleteRepository hdelete
  rw [Git.deleteRepository, bind_eq_ok] at hgit
  obtain ⟨found, -, hgit⟩ := hgit
  have hleft := Except.ok.inj hgit
  refine ⟨id, hcard, ?_⟩
  intro r hr _ hid
  have hmem : id ∈ ids (delete db (tenant, .repository id)).access.git :=
    List.mem_map.mpr ⟨r, hr, hid⟩
  rw [← hleft, ids_ensureDefaultRepository, ids, List.mem_map] at hmem
  obtain ⟨q, hq, hqid⟩ := hmem
  exact of_decide_eq_true (List.mem_filter.mp hq).2 hqid

/-- After any deletions, no card of a repository that is gone is served as one that names none. -/
theorem stranded (db : Tenants.Database) (xs : List (String × Deletion)) (tenant : String)
    (settings : GitSettings) (card : Card)
    (h : NamesNoRepository (deployment (xs.foldl delete db) tenant settings) card) :
    ¬Served (deployment (xs.foldl delete db) tenant settings) card :=
  not_served h

/-- A tenant with a connection and two repositories on it, the first of them the default. -/
private def twoRepositories : Tenants.Database where
  access :=
    { git :=
        { connections := [{ id := 1, tenantId := "acme", provider := .github
                            baseUrl := "https://api.github.com", label := "" }]
          repositories :=
            [{ id := 1, tenantId := "acme", connectionId := 1, project := "acme/web"
               defaultForTenant := some "acme" },
             { id := 2, tenantId := "acme", connectionId := 1, project := "acme/api" }] } }

/-- A card that names the second repository. -/
private def apiCard : Card where
  cardKey := "CARD-1"
  tenantId := "acme"
  title := "Rate limits"
  repositoryId := some 2

theorem stranded_apiCard :
    ¬Served (deployment ([("acme", .repository 2)].foldl delete twoRepositories) "acme" {})
      apiCard :=
  stranded twoRepositories [("acme", .repository 2)] "acme" {} apiCard ⟨2, rfl, by decide⟩

/-- The default repository is still there, and the card of the deleted one is not served. -/
theorem deleted_repository_not_default :
    NamesNoRepository (deployment (delete twoRepositories ("acme", .repository 2)) "acme" {})
        apiCard ∧
      ((defaultRepository (delete twoRepositories ("acme", .repository 2)).access.git
        "acme").isSome = true) ∧
      ¬Served (deployment (delete twoRepositories ("acme", .repository 2)) "acme" {}) apiCard := by
  have hgone : NamesNoRepository
      (deployment (delete twoRepositories ("acme", .repository 2)) "acme" {}) apiCard :=
    ⟨2, rfl, by decide⟩
  exact ⟨hgone, by decide, not_served hgone⟩

end CFactory.Targets
