import CFactory.Cards.Card
import CFactory.Intake.Action

/-!
# Stage dispatch

`card_intake.py:69–744`. Every function that touches the card store
or an upstream is a program over `IntakeOp`, so the same definition is run alone and
interleaved. The brief and the request payloads are left out, and the intake project that
the tenant's git configuration resolves for a card is a parameter of each call.
-/

namespace CFactory.Intake

open CFactory.Base CFactory.Model CFactory.Cards CFactory.Actions

/-- The result dictionary of a stage action. -/
structure DispatchResult where
  dispatched : Bool
  ok : Bool
  stage : Option Stage := none
  targetService : Option Service := none
  reason : Option String := none
  refused : Option String := none
  skipped : Option String := none
  correlationKey : Option String := none
  statusCode : Nat := 0
  warnings : List String := []
  sequence : Option (List Stage) := none
  action : Option ActionResult := none
  deriving DecidableEq

/-- The outside world as stage actions use it: the card store, the upstream services and
the audit sink of a self-advancing sequence. -/
inductive IntakeOp where
  | get (cardKey : String)
  | getByCorrelationKey (key : String)
  | update (cardKey : String) (changes : StageChanges)
  | request (service : Service) (step : ActionStep)
  | report (cardKey : String) (result : DispatchResult)

/-- Answers to `IntakeOp`. -/
abbrev IntakeOp.Res : IntakeOp → Type
  | .get _ => Option Card
  | .getByCorrelationKey _ => Option Card
  | .update _ _ => Option Card
  | .request _ _ => HttpOutcome
  | .report _ _ => Unit

/-- Programs of the intake layer. -/
abbrev IntakeM := Prog IntakeOp IntakeOp.Res

/-- `store.get(card_key)`. -/
abbrev getCard (cardKey : String) : IntakeM (Option Card) := Prog.perform (IntakeOp.get cardKey)

/-- `cards.get_by_correlation_key(key)`. -/
abbrev getJoined (key : String) : IntakeM (Option Card) :=
  Prog.perform (IntakeOp.getByCorrelationKey key)

/-- `store.update(card_key, changes)`. -/
abbrev updateCard (cardKey : String) (changes : StageChanges) : IntakeM (Option Card) :=
  Prog.perform (IntakeOp.update cardKey changes)

/-- One request of `execute_action`. -/
abbrev request (service : Service) (step : ActionStep) : IntakeM HttpOutcome :=
  Prog.perform (IntakeOp.request service step)

/-- `on_dispatch(card_key, result)`. -/
abbrev reportDispatch (cardKey : String) (result : DispatchResult) : IntakeM Unit :=
  Prog.perform (IntakeOp.report cardKey result)

/-- What one call is handed besides the store: the intake project that the tenant's git
configuration gives for a repository and an issue, the clock reading stamped on a dispatch,
and whether the call audits its own dispatches. -/
structure IntakeEnv where
  gitProject : Option Nat → Option String → Option String := fun _ _ ↦ none
  dispatchedAt : Time := 0
  onDispatch : Bool := false

/-- `aifactory_project_id`: it reads the card's repository and issue only;
`card_intake.py:214–230` and `cards.py:1385–1406`. -/
def IntakeEnv.aifactoryProjectId (env : IntakeEnv) (card : Card) : Option String :=
  env.gitProject card.repositoryId card.issueRef

/-- `SEQUENCE`; `card_intake.py:86`. -/
def SEQUENCE : List Stage := [.plan, .code, .test]

/-- Every stage is part of the sequence. -/
@[simp] theorem mem_SEQUENCE (s : Stage) : s ∈ SEQUENCE := by cases s <;> decide

/-- `StageRefusal`; `card_intake.py:105–114`. -/
structure StageRefusal where
  code : String
  message : String
  deriving DecidableEq

/-! ### The per-stage dispatch record -/

/-- `stage_status`; `card_intake.py:463–465`. -/
def stageStatus (card : Card) (stage : Stage) : Option RunStatus :=
  (card.stageRuns stage).bind StageRun.status

/-- `pending_stages`; `card_intake.py:468–474`. -/
def pendingStages (card : Card) : List Stage :=
  SEQUENCE.filter fun s ↦
    stageStatus card s = some .queued ∨ stageStatus card s = some .dispatched

/-- Fields merged into a dispatch record; an absent field is kept as it was, and an inner
`none` stores a null. -/
structure RunFields where
  service : Option Service := none
  status : RunStatus
  dispatchedAt : Option Time := none
  ref : Option (Option String) := none
  detail : Option (Option String) := none

/-- `{**runs.get(name, {}), **fields}`. -/
def RunFields.merge (fields : RunFields) (run : StageRun) : StageRun :=
  { service := fields.service.or run.service
    status := some fields.status
    dispatchedAt := fields.dispatchedAt.or run.dispatchedAt
    ref := fields.ref.getD run.ref
    detail := fields.detail.getD run.detail }

/-- The stage map after merging updates into it. -/
def mergeRuns (runs : StageRuns) (updates : Stage → Option RunFields) : StageRuns := fun s ↦
  match updates s with
  | none => runs s
  | some fields => some (fields.merge ((runs s).getD {}))

/-- `_write_runs`: the stage map of the caller's card, merged and stored whole, with any
further card fields; `card_intake.py:477–484`. -/
def writeRuns (card : Card) (updates : Stage → Option RunFields) (fields : StageChanges) :
    IntakeM Card := do
  let stored ← updateCard card.cardKey
    { fields with stageRuns := some (mergeRuns card.stageRuns updates) }
  return stored.getD card

/-! ### Preparing a dispatch -/

/-- `repr` of a plain string. -/
def quoted (s : String) : String := "'" ++ s ++ "'"

/-- The text of a tier. -/
def tierText : Option CardTier → String
  | none => "None"
  | some .low => quoted "low"
  | some .medium => quoted "medium"
  | some .hard => quoted "hard"

/-- `default_stage`; `card_intake.py:177–183`. -/
def defaultStage (card : Card) : Stage := if card.tier = some .hard then .plan else .code

/-- The intake door of a stage; `card_intake.py:69–71`. -/
def Stage.endpoint : Stage → String
  | .plan => "/api/plan/sessions/ingest-text"
  | .code => "/api/tasks/from-issue"
  | .test => "/api/specs/ingest"

/-- The prepared intake write of a stage. Its target is the stage's own service, which is
where `_send` reads the stage back from. -/
structure StageAction where
  stage : Stage
  action : PreparedAction
  target_eq : action.targetService = stage.service.value
  single : action.followUps = []
  endpoint_eq : action.endpoint = Stage.endpoint stage

/-- The rationale texts of `prepare_stage`. -/
def stageRationale (card : Card) : Stage → String
  | .plan => "Plan " ++ quoted card.cardKey ++ " in PFactory — tier " ++ tierText card.tier ++
      " decides the decomposition depth (RFC-0011 §3); planning runs before any code."
  | .code => "Build " ++ quoted card.cardKey ++ " in AIFactory — tier " ++ tierText card.tier ++
      " supplies the classifier label and the model picks (RFC-0011 §2)."
  | .test => "Verify " ++ quoted card.cardKey ++ " in TFactory — the acceptance criteria on the " ++
      "card become the spec the verification lanes are generated from."

/-- The intake write that `prepare_stage` builds for a stage. -/
def stageAction (card : Card) (stage : Stage) : StageAction where
  stage := stage
  action :=
    { kind := "dispatch_card"
      correlationKey := card.cardKey
      targetService := stage.service.value
      method := "POST"
      endpoint := Stage.endpoint stage
      rationale := stageRationale card stage }
  target_eq := rfl
  single := rfl
  endpoint_eq := rfl

/-- `prepare_stage`; `card_intake.py:233–335`. -/
def prepareStage (card : Card) (stage : Stage) (projectId : Option String) :
    Option StageAction :=
  if stage ≠ .plan ∧ truthy projectId = false then none else some (stageAction card stage)

/-- `prepare_dispatch`; `card_intake.py:356–360`. -/
def prepareDispatch (card : Card) (projectId : Option String) : Option StageAction :=
  prepareStage card (defaultStage card) projectId

/-- `_no_tier`; `card_intake.py:388–395`. -/
def noTier (card : Card) : StageRefusal :=
  { code := "no_tier"
    message := card.cardKey ++ " has no difficulty tier, so there is no payload to build " ++
      "(the tier decides decomposition depth and the factory:<tier> label). Set a tier first." }

/-- The `stage_already_running` refusal of one stage. -/
def alreadyRunning (card : Card) (stage : Stage) : StageRefusal :=
  { code := "stage_already_running"
    message := "the " ++ stage.value ++ " stage of " ++ card.cardKey ++
      " is already running upstream; wait for it to finish rather than starting a second one." }

/-- The `no_build_to_verify` refusal. -/
def noBuildToVerify (card : Card) : StageRefusal :=
  { code := "no_build_to_verify"
    message := card.cardKey ++ " has no completed build to verify — run the code stage to " ++
      "completion first, otherwise TFactory would generate lanes against nothing." }

/-- The `no_intake_project` refusal. -/
def noIntakeProject (stage : Stage) : StageRefusal :=
  { code := "no_intake_project"
    message := "no AIFactory project configured, so the " ++ stage.value ++
      " stage has no target — set it in Settings > Git integration." }

/-- `refuse_reason`; `card_intake.py:398–421`. -/
def refuseReason (card : Card) (stage : Stage) (projectId : Option String) :
    Option StageRefusal :=
  if card.tier = none then some (noTier card)
  else if stageStatus card stage = some .dispatched then some (alreadyRunning card stage)
  else if stage = .test ∧
      (truthy card.correlationKey = false ∨ stageStatus card .code ≠ some .done) then
    some (noBuildToVerify card)
  else if stage ≠ .plan ∧ truthy projectId = false then some (noIntakeProject stage)
  else none

/-- `stage_warnings`; `card_intake.py:424–447`. -/
def stageWarnings (card : Card) (stage : Stage) : List String :=
  (if stage = .code ∧ card.tier = some .hard ∧ stageStatus card .plan ≠ some .done then
    ["plan_skipped: tier " ++ tierText card.tier ++ " would normally be decomposed by PFactory " ++
      "first; building straight from the card skips that stage."] else []) ++
  (if stage ≠ defaultStage card ∧ stage ≠ .test then
    ["tier_override: tier " ++ tierText card.tier ++ " routes to " ++
      quoted (defaultStage card).value ++ " by default; this action sends it to " ++
      quoted stage.value ++ " instead."] else [])

/-- `_refused`; `card_intake.py:487–495`. -/
def refusedResult (refusal : StageRefusal) (stage : Stage) : DispatchResult :=
  { dispatched := false, ok := false, stage := some stage
    refused := some refusal.code, reason := some refusal.message }

/-! ### Sending -/

/-- The first truthy value among the response's key candidates. -/
def firstKey (body : Body) : List String → Option String
  | [] => none
  | key :: rest =>
    match body.get? key with
    | some value => if value.truthy then some value.text else firstKey body rest
    | none => firstKey body rest

/-- `_upstream_key`; `card_intake.py:498–520`. -/
def upstreamKey (body : Body) (service : Service) : Option String :=
  let specId := (body.get? "spec_id").filter JsonValue.truthy
  let explicit := (body.get? "correlation_key").filter JsonValue.truthy
  if service = .aifactory ∧ explicit = none ∧ specId.isSome then
    specId.map fun v ↦ "af-" ++ v.text
  else firstKey body ["correlation_key", "task_id", "session_id", "id", "spec_id"]

/-- The record of a dispatch that failed. -/
def failedFields (stage : Stage) (reason : String) : RunFields :=
  { service := some stage.service, status := .failed, detail := some (some reason) }

/-- The record of an accepted dispatch. -/
def dispatchedFields (stage : Stage) (stampedAt : Time) (ref : Option String) : RunFields :=
  { service := some stage.service, status := .dispatched, dispatchedAt := some stampedAt
    ref := some ref, detail := some none }

/-- Updates that concern one stage only. -/
def only (stage : Stage) (fields : RunFields) : Stage → Option RunFields := fun s ↦
  if s = stage then some fields else none

/-- The key a card is joined on once a dispatch was accepted. -/
def joinKey (card : Card) (ref : Option String) : String :=
  if truthy card.correlationKey then card.correlationKey.getD ""
  else if truthy ref then ref.getD "" else card.cardKey

/-- `_send`; `card_intake.py:523–588`. -/
def send (env : IntakeEnv) (card : Card) (action : StageAction) : IntakeM DispatchResult := do
  let stage := action.stage
  let result ← executeAction request action.action
  if result.ok = false then
    let reason := "dispatch failed: HTTP " ++ toString result.statusCode
    let _ ← writeRuns card (only stage (failedFields stage reason)) { status := some .blocked }
    return { dispatched := false, ok := false, stage := some stage
             targetService := some stage.service, reason := some reason
             statusCode := result.statusCode, action := some result }
  else
    let ref := result.body.bind fun body ↦ upstreamKey body stage.service
    let _ ← writeRuns card (only stage (dispatchedFields stage env.dispatchedAt ref))
      { status := some .inProgress, correlationKey := some (joinKey card ref) }
    return { dispatched := true, ok := true, stage := some stage
             targetService := some stage.service
             correlationKey := some (joinKey card ref)
             statusCode := result.statusCode, action := some result }

/-! ### Entry points -/

/-- `dispatch_stage`; `card_intake.py:653–696`. -/
def dispatchStage (env : IntakeEnv) (card : Card) (stage : Stage) : IntakeM DispatchResult :=
  if stageStatus card stage = some .done then
    return { dispatched := false, ok := true, stage := some stage
             reason := some ("the " ++ stage.value ++ " stage of " ++ card.cardKey ++
               " has already completed")
             skipped := some "stage_already_complete", correlationKey := card.correlationKey }
  else
    let projectId := env.aifactoryProjectId card
    match refuseReason card stage projectId with
    | some refusal => return refusedResult refusal stage
    | none =>
      match prepareStage card stage projectId with
      | none =>
        return refusedResult
          ⟨"no_intake_project", "no payload can be built for " ++ stage.value⟩ stage
      | some action => do
        let result ← send env card action
        return { result with warnings := stageWarnings card stage }

/-- `dispatch_card`; `card_intake.py:591–632`. -/
def dispatchCard (env : IntakeEnv) (card : Card) : IntakeM DispatchResult :=
  let stage := defaultStage card
  if stageStatus card stage = some .dispatched ∨ stageStatus card stage = some .done then
    return { dispatched := false, ok := true, reason := some "already dispatched"
             stage := some stage, correlationKey := card.correlationKey }
  else
    match prepareDispatch card (env.aifactoryProjectId card) with
    | none => do
      let _ ← updateCard card.cardKey { status := some .blocked }
      return { dispatched := false, ok := false
               reason := some ("no AIFactory project configured — set one in Settings > Git " ++
                 "integration to dispatch a low/medium card to AIFactory") }
    | some action => send env card action

/-- `maybe_dispatch`; `card_intake.py:635–650`. -/
def maybeDispatch (env : IntakeEnv) (card : Card) : IntakeM (Option DispatchResult) :=
  if card.status ≠ .ready ∨ card.tier = none then return none
  else return some (← dispatchCard env card)

/-- The records `start_sequence` queues. -/
def queuedFields (todo : List Stage) : Stage → Option RunFields := fun s ↦
  if s ∈ todo then some { service := some s.service, status := .queued, detail := some none }
  else none

/-- The stages `start_sequence` still owes the card. -/
def owedStages (card : Card) : List Stage :=
  SEQUENCE.filter fun s ↦ stageStatus card s ≠ some .done

/-- The refusal of a sequence that is already in motion. -/
def alreadyInMotion (card : Card) (live : Stage) : StageRefusal :=
  { code := "stage_already_running"
    message := "the " ++ live.value ++ " stage of " ++ card.cardKey ++ " is already running, so " ++
      "the sequence is already in motion; nothing to start." }

/-- `start_sequence`; `card_intake.py:699–744`. -/
def startSequence (env : IntakeEnv) (card : Card) : IntakeM DispatchResult :=
  if card.tier = none then return refusedResult (noTier card) .plan
  else
    match SEQUENCE.find? fun s ↦ stageStatus card s = some .dispatched with
    | some live => return refusedResult (alreadyInMotion card live) live
    | none =>
      match owedStages card with
      | [] =>
        return { dispatched := false, ok := true
                 reason := some ("every stage of " ++ card.cardKey ++ " has already completed")
                 skipped := some "sequence_already_complete", sequence := some [] }
      | first :: rest => do
        let card ← writeRuns card (queuedFields (first :: rest)) {}
        let result ← dispatchStage env card first
        return { result with sequence := some (first :: rest) }

end CFactory.Intake
