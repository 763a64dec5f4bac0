import CFactory.Intake.Dispatch
import CFactory.Status.Taxonomy

/-!
# Status write-back

`card_intake.py:747–851`. A completion event settles the stages in flight, advances a
sequence to its next stage, and maps the work item onto the card's board column.
-/

namespace CFactory.Intake

open CFactory.Base CFactory.Model CFactory.Cards CFactory.Actions CFactory.Status

/-- `_STAGE_ORDER`, furthest along first; `card_intake.py:79`. -/
def stageOrder : List Service := [.tfactory, .aifactory, .pfactory]

/-- The record a reported status settles a stage to, if it settles it. -/
def settledFields (status : String) : Option RunFields :=
  if isFailureOrStuck (some status) then
    some { status := .failed, detail := some (some status) }
  else if isDone (some status) then
    some { status := .done, detail := some (some status) }
  else none

/-- The updates `_settle` collects; `card_intake.py:753–763`. -/
def settleUpdates (card : Card) (item : WorkItem) : Stage → Option RunFields := fun stage ↦
  if stageStatus card stage ≠ some .dispatched then none
  else
    match (item.slice stage.service).status with
    | none => none
    | some status => if status = "" then none else settledFields status

/-- `_settle`; `card_intake.py:747–764`. -/
def settle (card : Card) (item : WorkItem) : IntakeM Card :=
  let updates := settleUpdates card item
  if SEQUENCE.any fun s ↦ (updates s).isSome then writeRuns card updates {}
  else return card

/-- `_advance`; `card_intake.py:767–793`. -/
def advance (env : IntakeEnv) (card : Card) : IntakeM Card :=
  if SEQUENCE.any fun s ↦ stageStatus card s = some .dispatched then return card
  else if SEQUENCE.any fun s ↦ stageStatus card s = some .failed then do
    let stored ← updateCard card.cardKey { status := some .blocked }
    return stored.getD card
  else
    match SEQUENCE.find? fun s ↦ stageStatus card s = some .queued with
    | none => return card
    | some nxt => do
      let result ← dispatchStage env card nxt
      if env.onDispatch then reportDispatch card.cardKey result
      let stored ← getCard card.cardKey
      return stored.getD card

/-- The board column of one slice's status. -/
def columnFor (service : Service) (status : String) (remaining : Bool) : CardStatus :=
  if isFailureOrStuck (some status) then .blocked
  else if isDone (some status) then
    if remaining ∨ service = .pfactory then .inProgress else .done
  else .inProgress

/-- The furthest slice that carries a status, in the given order. -/
def furthest (item : WorkItem) : List Service → Option (Service × String)
  | [] => none
  | service :: rest =>
    match (item.slice service).status with
    | none => furthest item rest
    | some status => if status = "" then furthest item rest else some (service, status)

/-- `card_status_for`; `card_intake.py:796–820`. -/
def cardStatusFor (item : WorkItem) (remaining : Bool) : Option CardStatus :=
  (furthest item stageOrder).map fun x ↦ columnFor x.1 x.2 remaining

/-- `apply_status` after its lookup found a card; `card_intake.py:843–851`. -/
def writeBack (env : IntakeEnv) (card : Card) (item : WorkItem) : IntakeM (Option Card) := do
  let settled ← settle card item
  let advanced ← advance env settled
  match cardStatusFor item (pendingStages advanced ≠ []) with
  | none => return if advanced ≠ card then some advanced else none
  | some status =>
    if status = advanced.status then return if advanced ≠ card then some advanced else none
    else updateCard card.cardKey { status := some status }

/-- `apply_status`; `card_intake.py:823–851`. -/
def applyStatus (env : IntakeEnv) (item : WorkItem) : IntakeM (Option Card) := do
  match ← getJoined item.correlationKey with
  | none => return none
  | some card => writeBack env card item

end CFactory.Intake
