import CFactory.Intake.Semantics

/-!
# What a call does

Normal forms of the stage actions as sequences of operations, and the card that each leaves
behind on a desk. Every property of the board is read off these, not off the programs.
-/

namespace CFactory.Intake

open CFactory.Base CFactory.Model CFactory.Cards CFactory.Actions CFactory.Status

/-! ### Statuses of the dispatch records -/

/-- Statuses after a merge. -/
def mergeStatus (f : Stage → Option RunStatus) (updates : Stage → Option RunFields) :
    Stage → Option RunStatus := fun s ↦
  match updates s with
  | none => f s
  | some fields => some fields.status

/-- A card that holds a merged map has the merged statuses. -/
theorem stageStatus_of_merged {card c : Card} {updates : Stage → Option RunFields}
    (h : c.stageRuns = mergeRuns card.stageRuns updates) :
    stageStatus c = mergeStatus (stageStatus card) updates := by
  funext s
  cases hu : updates s <;> simp [stageStatus, h, mergeRuns, mergeStatus, hu, RunFields.merge]

/-- Storing a merged map stores the merged statuses, whatever card it is stored on. -/
@[simp] theorem stageStatus_merge (card c : Card) (updates : Stage → Option RunFields)
    (fields : StageChanges) (now : Time) :
    stageStatus (StageChanges.apply
        { fields with stageRuns := some (mergeRuns card.stageRuns updates) } now c) =
      mergeStatus (stageStatus card) updates :=
  stageStatus_of_merged rfl

/-- An update that assigns no stage map keeps the statuses. -/
theorem stageStatus_apply (ch : StageChanges) (h : ch.stageRuns = none) (now : Time) (c : Card) :
    stageStatus (ch.apply now c) = stageStatus c := by
  funext s
  simp [stageStatus, h]

/-- A merge that concerns one stage changes that stage's status. -/
@[simp] theorem mergeStatus_only (f : Stage → Option RunStatus) (stage : Stage)
    (fields : RunFields) :
    mergeStatus f (only stage fields) = Function.update f stage (some fields.status) := by
  funext s
  by_cases h : s = stage
  · subst h
    simp [mergeStatus, only]
  · simp [mergeStatus, only, h]

/-! ### Dispatching -/

/-- The stage passes every check of `dispatch_stage`. -/
def Sendable (env : IntakeEnv) (card : Card) (stage : Stage) : Prop :=
  stageStatus card stage ≠ some .done ∧
    refuseReason card stage (env.aifactoryProjectId card) = none

instance (env : IntakeEnv) (card : Card) (stage : Stage) : Decidable (Sendable env card stage) :=
  inferInstanceAs (Decidable (_ ∧ _))

/-- The checks of `dispatch_stage`, spelled out. -/
theorem sendable_iff (env : IntakeEnv) (card : Card) (s : Stage) :
    Sendable env card s ↔
      (stageStatus card s ≠ some .done ∧ stageStatus card s ≠ some .dispatched) ∧
      card.tier ≠ none ∧
      (s = .test → truthy card.correlationKey = true ∧ stageStatus card .code = some .done) ∧
      (s ≠ .plan → truthy (env.aifactoryProjectId card) = true) := by
  unfold Sendable refuseReason
  by_cases ht : card.tier = none
  · simp [ht]
  by_cases hd : stageStatus card s = some .dispatched
  · simp [ht, hd]
  simp only [ht, hd, ↓reduceIte, ne_eq, not_false_eq_true, true_and, and_true]
  apply and_congr_right
  intro _
  by_cases htest : s = .test ∧ (truthy card.correlationKey = false ∨
      stageStatus card .code ≠ some .done)
  · rw [if_pos htest]
    simp only [reduceCtorEq, false_iff, not_and]
    intro h
    obtain ⟨hk, hc⟩ := h htest.1
    rcases htest.2 with hk' | hc'
    · exact absurd (hk.symm.trans hk') (by simp)
    · exact absurd hc hc'
  · rw [if_neg htest]
    have hgood : s = .test →
        truthy card.correlationKey = true ∧ stageStatus card .code = some .done := by
      intro hs
      have hn : ¬ (truthy card.correlationKey = false ∨ stageStatus card .code ≠ some .done) :=
        fun h ↦ htest ⟨hs, h⟩
      rw [not_or, Bool.not_eq_false, not_not] at hn
      exact hn
    by_cases hp : s ≠ .plan ∧ truthy (env.aifactoryProjectId card) = false
    · rw [if_pos hp]
      simp [hp.1, hp.2]
    · rw [if_neg hp]
      simp only [true_iff]
      refine ⟨hgood, fun hs ↦ ?_⟩
      simpa using fun h ↦ hp ⟨hs, h⟩

/-- The upstream's own id in an answer. -/
def answerRef (stage : Stage) : HttpOutcome → Option String
  | .httpError _ => none
  | .response _ body => upstreamKey body stage.service

/-- The text recorded for an answer that was not accepted. -/
def failureReason (stage : Stage) (o : HttpOutcome) : String :=
  "dispatch failed: HTTP " ++
    toString (singleResult ⟨"POST", Stage.endpoint stage⟩ o).statusCode

/-- The card update after an answer: the record of the stage, merged into the caller's map,
and the board column. -/
def sendChanges (env : IntakeEnv) (card : Card) (stage : Stage) (o : HttpOutcome) :
    StageChanges :=
  if accepted o then
    { stageRuns := some (mergeRuns card.stageRuns
        (only stage (dispatchedFields stage env.dispatchedAt (answerRef stage o))))
      status := some .inProgress
      correlationKey := some (joinKey card (answerRef stage o)) }
  else
    { stageRuns := some (mergeRuns card.stageRuns (only stage (failedFields stage
        (failureReason stage o))))
      status := some .blocked }

/-- The update after an accepted answer. -/
theorem sendChanges_of_accepted (env : IntakeEnv) (card : Card) (stage : Stage) {o : HttpOutcome}
    (h : accepted o = true) : sendChanges env card stage o =
      { stageRuns := some (mergeRuns card.stageRuns
          (only stage (dispatchedFields stage env.dispatchedAt (answerRef stage o))))
        status := some .inProgress
        correlationKey := some (joinKey card (answerRef stage o)) } := by
  simp [sendChanges, h]

/-- The update after any other answer. -/
theorem sendChanges_of_refused (env : IntakeEnv) (card : Card) (stage : Stage) {o : HttpOutcome}
    (h : accepted o = false) : sendChanges env card stage o =
      { stageRuns := some (mergeRuns card.stageRuns
          (only stage (failedFields stage (failureReason stage o))))
        status := some .blocked } := by
  simp [sendChanges, h]

/-- The statuses a send stores are the caller's, with the stage in flight or failed. -/
@[simp] theorem stageStatus_sendChanges (env : IntakeEnv) (card c : Card) (stage : Stage)
    (o : HttpOutcome) (now : Time) :
    stageStatus ((sendChanges env card stage o).apply now c) =
      Function.update (stageStatus card) stage
        (some (if accepted o then .dispatched else .failed)) := by
  cases h : accepted o
  · rw [sendChanges_of_refused env card stage h]
    exact (stageStatus_merge card c _ { status := some .blocked } now).trans
      (mergeStatus_only _ _ _)
  · rw [sendChanges_of_accepted env card stage h]
    exact (stageStatus_merge card c _
      { status := some .inProgress, correlationKey := some (joinKey card (answerRef stage o)) }
      now).trans (mergeStatus_only _ _ _)

/-- The board column after a send. -/
@[simp] theorem status_sendChanges (env : IntakeEnv) (card c : Card) (stage : Stage)
    (o : HttpOutcome) (now : Time) :
    ((sendChanges env card stage o).apply now c).status =
      if accepted o then .inProgress else .blocked := by
  cases h : accepted o <;> simp [sendChanges, h]

/-- Every intake door is a root-relative path. -/
theorem isSafeEndpoint_stage (stage : Stage) : isSafeEndpoint (Stage.endpoint stage) = true := by
  cases stage <;> decide

/-- The result of `_send` over the one answer it got. -/
def sendResult (card : Card) (stage : Stage) (o : HttpOutcome) : DispatchResult :=
  let result := singleResult ⟨"POST", Stage.endpoint stage⟩ o
  if accepted o then
    { dispatched := true, ok := true, stage := some stage, targetService := some stage.service
      correlationKey := some (joinKey card (answerRef stage o))
      statusCode := result.statusCode, action := some result }
  else
    { dispatched := false, ok := false, stage := some stage
      targetService := some stage.service, reason := some (failureReason stage o)
      statusCode := result.statusCode, action := some result }

/-- The response body that `_send` reads the upstream's id from. -/
theorem body_singleResult (stage : Stage) (step : ActionStep) (o : HttpOutcome) :
    ((singleResult step o).body.bind fun body ↦ upstreamKey body stage.service) =
      answerRef stage o := by
  cases o <;> rfl

/-- A send is one request and one update of the card. -/
theorem send_eq (env : IntakeEnv) (card : Card) (stage : Stage) :
    send env card (stageAction card stage) =
      .op (.request stage.service ⟨"POST", Stage.endpoint stage⟩) fun o ↦
        .op (.update card.cardKey (sendChanges env card stage o)) fun _ ↦
          Pure.pure (sendResult card stage o) := by
  rw [send, executeAction_single request (stageAction card stage).action stage.service rfl rfl
    (isSafeEndpoint_stage stage), bind_assoc, Prog.perform_bind]
  congr 1
  funext o
  rw [Prog.pure_bind, ok_singleResult]
  cases h : accepted o
  · rw [sendChanges_of_refused env card stage h]
    simp only [↓reduceIte, writeRuns, Prog.perform_bind, Prog.op_bind, sendResult, h,
      Bool.false_eq_true, Prog.pure_bind]
    rfl
  · rw [sendChanges_of_accepted env card stage h, ← body_singleResult stage _ o]
    simp only [↓reduceIte, writeRuns, Prog.perform_bind, Prog.op_bind, sendResult, h,
      Bool.true_eq_false, Prog.pure_bind]
    rw [← body_singleResult stage _ o]
    rfl

/-- An allowed dispatch is one request and one update of the card. -/
theorem dispatchStage_of_sendable {env : IntakeEnv} {card : Card} {stage : Stage}
    (h : Sendable env card stage) :
    dispatchStage env card stage =
      .op (.request stage.service ⟨"POST", Stage.endpoint stage⟩) fun o ↦
        .op (.update card.cardKey (sendChanges env card stage o)) fun _ ↦
          Pure.pure { sendResult card stage o with warnings := stageWarnings card stage } := by
  have hprep : prepareStage card stage (env.aifactoryProjectId card) =
      some (stageAction card stage) := by
    have hr := h.2
    simp only [refuseReason] at hr
    repeat' split at hr
    all_goals first | (simp at hr; done) | skip
    next hp => simp [prepareStage, hp]
  simp only [dispatchStage, h.1, ↓reduceIte, h.2, hprep, send_eq, Prog.op_bind, Prog.pure_bind]

/-- A dispatch that is not allowed performs no operation. -/
theorem dispatchStage_of_not_sendable {env : IntakeEnv} {card : Card} {stage : Stage}
    (h : ¬ Sendable env card stage) :
    ∃ result, dispatchStage env card stage = Pure.pure result := by
  unfold dispatchStage
  split
  · exact ⟨_, rfl⟩
  · next hd =>
    cases hr : refuseReason card stage (env.aifactoryProjectId card) with
    | some refusal =>
      refine ⟨refusedResult refusal stage, ?_⟩
      simp only [hr]
    | none => exact absurd ⟨hd, hr⟩ h

/-- The desk after a dispatch on the card as it stands. -/
def dispatchedDesk (w : World) (env : IntakeEnv) (stage : Stage) (d : Desk) : Desk :=
  if Sendable env d.card stage then
    ⟨(sendChanges env d.card stage (w.reply d.steps)).apply (w.clock (d.steps + 1)) d.card,
      d.steps + 2⟩
  else d

/-- A dispatch on the card as it stands leaves that desk. -/
theorem run_dispatchStage (w : World) (env : IntakeEnv) (stage : Stage) (d : Desk) :
    (Prog.run (deskHandler w) (dispatchStage env d.card stage) d).2 =
      dispatchedDesk w env stage d := by
  by_cases h : Sendable env d.card stage
  · have hu := deskHandler_update w ⟨d.card, d.steps + 1⟩
    simp only at hu
    rw [dispatchStage_of_sendable h, dispatchedDesk, if_pos h]
    simp only [Prog.run_op, deskHandler_request, hu, Prog.run_pure]
  · obtain ⟨result, hr⟩ := dispatchStage_of_not_sendable h
    rw [hr, dispatchedDesk, if_neg h, Prog.run_pure]

/-! ### Settling -/

/-- The outcome that a stage's slice reports, if it reports one. -/
def outcome (item : WorkItem) (stage : Stage) : Option RunStatus :=
  if isFailureOrStuck (item.slice stage.service).status then some .failed
  else if isDone (item.slice stage.service).status then some .done
  else none

/-- The statuses once every stage in flight is settled by its slice's outcome. -/
def settledStatus (f : Stage → Option RunStatus) (item : WorkItem) :
    Stage → Option RunStatus := fun s ↦
  if f s = some .dispatched then (outcome item s).or (some .dispatched) else f s

/-- `_settle` collects an update exactly for a stage in flight whose slice reports an
outcome. -/
theorem settleUpdates_eq (card : Card) (item : WorkItem) (s : Stage) :
    (settleUpdates card item s).map RunFields.status =
      if stageStatus card s = some .dispatched then outcome item s else none := by
  by_cases hd : stageStatus card s = some .dispatched
  · simp only [settleUpdates, outcome, hd, ne_eq, not_true_eq_false, ↓reduceIte]
    cases hs : (item.slice s.service).status with
    | none => simp
    | some status =>
      by_cases he : status = ""
      · subst he
        simp
      · simp only [he, ↓reduceIte, settledFields]
        split
        · rfl
        · split <;> rfl
  · simp [settleUpdates, hd]

/-- Merging what `_settle` collects settles the stages in flight. -/
theorem mergeStatus_settleUpdates (card : Card) (item : WorkItem) :
    mergeStatus (stageStatus card) (settleUpdates card item) =
      settledStatus (stageStatus card) item := by
  funext s
  have h := settleUpdates_eq card item s
  unfold mergeStatus settledStatus
  cases hu : settleUpdates card item s with
  | none =>
    rw [hu] at h
    split at h
    · next hd => rw [if_pos hd, ← h, hd]; rfl
    · next hd => rw [if_neg hd]
  | some fields =>
    rw [hu] at h
    split at h
    · next hd => rw [if_pos hd, ← h]; rfl
    · exact absurd h (by simp)

/-- Some stage of the sequence meets a test exactly when some stage does. -/
theorem any_SEQUENCE (p : Stage → Bool) : SEQUENCE.any p = true ↔ ∃ s, p s = true := by
  simp [List.any_eq_true]

/-- The desk after `_settle`. -/
def settledDesk (w : World) (item : WorkItem) (d : Desk) : Desk :=
  if SEQUENCE.any fun s ↦ (settleUpdates d.card item s).isSome then
    ⟨StageChanges.apply
      { stageRuns := some (mergeRuns d.card.stageRuns (settleUpdates d.card item)) }
      (w.clock d.steps) d.card, d.steps + 1⟩
  else d

/-- `_settle` returns the card it leaves. -/
theorem run_settle (w : World) (item : WorkItem) (d : Desk) :
    Prog.run (deskHandler w) (settle d.card item) d =
      ((settledDesk w item d).card, settledDesk w item d) := by
  unfold settle settledDesk
  by_cases h : (SEQUENCE.any fun s ↦ (settleUpdates d.card item s).isSome) = true
  · simp only [h, ↓reduceIte, writeRuns, Prog.perform_bind, Prog.run_op, deskHandler_update,
      Prog.run_pure, Option.getD_some]
  · simp only [h, Bool.false_eq_true, ↓reduceIte, Prog.run_pure]

/-- The statuses after `_settle`. -/
@[simp] theorem stageStatus_settledDesk (w : World) (item : WorkItem) (d : Desk) :
    stageStatus (settledDesk w item d).card = settledStatus (stageStatus d.card) item := by
  rw [← mergeStatus_settleUpdates]
  unfold settledDesk
  split
  · exact stageStatus_merge d.card d.card _ {} _
  · next h =>
    funext s
    rw [any_SEQUENCE] at h
    have hn : settleUpdates d.card item s = none := by
      simpa using fun hs ↦ h ⟨s, hs⟩
    simp [mergeStatus, hn]

/-- `_settle` keeps the card's key. -/
@[simp] theorem cardKey_settledDesk (w : World) (item : WorkItem) (d : Desk) :
    (settledDesk w item d).card.cardKey = d.card.cardKey := by
  unfold settledDesk
  split <;> rfl

/-- `_settle` keeps the tier. -/
@[simp] theorem tier_settledDesk (w : World) (item : WorkItem) (d : Desk) :
    (settledDesk w item d).card.tier = d.card.tier := by
  unfold settledDesk
  split <;> rfl

/-- `_settle` keeps the correlation key. -/
@[simp] theorem correlationKey_settledDesk (w : World) (item : WorkItem) (d : Desk) :
    (settledDesk w item d).card.correlationKey = d.card.correlationKey := by
  unfold settledDesk
  split <;> rfl

/-- `_settle` keeps what a project is looked up by. -/
@[simp] theorem aifactoryProjectId_settledDesk (env : IntakeEnv) (w : World) (item : WorkItem)
    (d : Desk) :
    env.aifactoryProjectId (settledDesk w item d).card = env.aifactoryProjectId d.card := by
  unfold settledDesk
  split <;> rfl

/-! ### Advancing -/

/-- Some stage of the card is in flight. -/
def InFlight (card : Card) : Prop := ∃ s, stageStatus card s = some .dispatched

/-- Some stage of the card is recorded failed. -/
def HasFailed (card : Card) : Prop := ∃ s, stageStatus card s = some .failed

instance (card : Card) : Decidable (InFlight card) := Fintype.decidableExistsFintype

instance (card : Card) : Decidable (HasFailed card) := Fintype.decidableExistsFintype

/-- The first queued stage of the sequence. -/
def firstQueued (card : Card) : Option Stage :=
  SEQUENCE.find? fun s ↦ stageStatus card s = some .queued

/-- The desk after `_advance`. -/
def advancedDesk (w : World) (env : IntakeEnv) (d : Desk) : Desk :=
  if InFlight d.card then d
  else if HasFailed d.card then
    ⟨StageChanges.apply { status := some .blocked } (w.clock d.steps) d.card, d.steps + 1⟩
  else
    match firstQueued d.card with
    | none => d
    | some nxt =>
      let sent := dispatchedDesk w env nxt d
      ⟨sent.card, sent.steps + (if env.onDispatch then 2 else 1)⟩

/-- A dispatch keeps the card's key. -/
@[simp] theorem cardKey_dispatchedDesk (w : World) (env : IntakeEnv) (stage : Stage) (d : Desk) :
    (dispatchedDesk w env stage d).card.cardKey = d.card.cardKey := by
  unfold dispatchedDesk
  split <;> rfl

/-- Reading a live card back returns the desk's card. -/
theorem run_reread (w : World) (card : Card) (d : Desk) {key : String}
    (hkey : key = d.card.cardKey) :
    Prog.run (deskHandler w) (do let stored ← getCard key; return stored.getD card) d =
      (d.card, ⟨d.card, d.steps + 1⟩) := by
  subst hkey
  rw [Prog.perform_bind, Prog.run_op, deskHandler_get, Prog.run_pure, Option.getD_some]

/-- `_advance` returns the card it leaves. -/
theorem run_advance (w : World) (env : IntakeEnv) (d : Desk) :
    Prog.run (deskHandler w) (advance env d.card) d =
      ((advancedDesk w env d).card, advancedDesk w env d) := by
  unfold advance advancedDesk
  simp only [any_SEQUENCE, decide_eq_true_eq]
  by_cases hf : InFlight d.card
  · simp only [hf, ↓reduceIte, if_pos (show ∃ s, stageStatus d.card s = some .dispatched from hf),
      Prog.run_pure]
  · rw [if_neg hf, if_neg (show ¬ ∃ s, stageStatus d.card s = some .dispatched from hf)]
    by_cases hx : HasFailed d.card
    · rw [if_pos hx, if_pos (show ∃ s, stageStatus d.card s = some .failed from hx)]
      simp only [Prog.perform_bind, Prog.run_op, deskHandler_update, Prog.run_pure,
        Option.getD_some]
    · rw [if_neg hx, if_neg (show ¬ ∃ s, stageStatus d.card s = some .failed from hx)]
      change Prog.run (deskHandler w) (match firstQueued d.card with | none => _ | some nxt => _) d
        = _
      cases hq : firstQueued d.card with
      | none => rfl
      | some nxt =>
        simp only [Prog.run_bind, run_dispatchStage]
        have hkey := cardKey_dispatchedDesk w env nxt d
        cases env.onDispatch with
        | false =>
          exact run_reread w _ (dispatchedDesk w env nxt d) hkey.symm
        | true =>
          exact run_reread w _ ⟨(dispatchedDesk w env nxt d).card,
            (dispatchedDesk w env nxt d).steps + 1⟩ hkey.symm

/-! ### The write-back -/

/-- The board column a work item asks for, given what the card still has pending. -/
def verdict (item : WorkItem) (card : Card) : Option CardStatus :=
  cardStatusFor item (pendingStages card ≠ [])

/-- The desk after a column was asked for; a column the card is in already is not written. -/
def columnDesk (w : World) (column : Option CardStatus) (d : Desk) : Desk :=
  match column with
  | none => d
  | some status =>
    if status = d.card.status then d
    else ⟨StageChanges.apply { status := some status } (w.clock d.steps) d.card, d.steps + 1⟩

/-- The card is in the column that was asked for. -/
@[simp] theorem status_columnDesk (w : World) (column : Option CardStatus) (d : Desk) :
    (columnDesk w column d).card.status = column.getD d.card.status := by
  cases column with
  | none => rfl
  | some status =>
    rw [columnDesk]
    split
    · next h => exact h.symm
    · rfl

/-- Asking for a column leaves the records alone. -/
@[simp] theorem stageStatus_columnDesk (w : World) (column : Option CardStatus) (d : Desk) :
    stageStatus (columnDesk w column d).card = stageStatus d.card := by
  cases column with
  | none => rfl
  | some status =>
    rw [columnDesk]
    split
    · rfl
    · exact stageStatus_apply _ rfl _ _

/-- Asking for a column keeps the card's key. -/
@[simp] theorem cardKey_columnDesk (w : World) (column : Option CardStatus) (d : Desk) :
    (columnDesk w column d).card.cardKey = d.card.cardKey := by
  cases column with
  | none => rfl
  | some status =>
    rw [columnDesk]
    split <;> rfl

/-- The desk after `apply_status` found its card. -/
def writtenDesk (w : World) (env : IntakeEnv) (item : WorkItem) (d : Desk) : Desk :=
  let advanced := advancedDesk w env (settledDesk w item d)
  columnDesk w (verdict item advanced.card) advanced

/-- `_advance` keeps the card's key. -/
@[simp] theorem cardKey_advancedDesk (w : World) (env : IntakeEnv) (d : Desk) :
    (advancedDesk w env d).card.cardKey = d.card.cardKey := by
  unfold advancedDesk
  split
  · rfl
  · split
    · rfl
    · split <;> simp

/-- The write-back leaves this desk. -/
theorem run_writeBack (w : World) (env : IntakeEnv) (item : WorkItem) (d : Desk) :
    (Prog.run (deskHandler w) (writeBack env d.card item) d).2 = writtenDesk w env item d := by
  simp only [writeBack, Prog.run_bind, run_settle, run_advance]
  rw [writtenDesk, verdict]
  have hkey : d.card.cardKey =
      (advancedDesk w env (settledDesk w item d)).card.cardKey := by simp
  generalize advancedDesk w env (settledDesk w item d) = advanced at hkey
  cases cardStatusFor item (pendingStages advanced.card ≠ []) with
  | none =>
    simp only [columnDesk]
    split <;> rfl
  | some status =>
    simp only [columnDesk]
    by_cases he : status = advanced.card.status
    · rw [if_pos he, if_pos he]
      split <;> rfl
    · rw [if_neg he, if_neg he, updateCard, Prog.perform, Prog.run_op, hkey,
        deskHandler_update, Prog.run]

/-- The write-back keeps the card's key. -/
@[simp] theorem cardKey_writtenDesk (w : World) (env : IntakeEnv) (item : WorkItem) (d : Desk) :
    (writtenDesk w env item d).card.cardKey = d.card.cardKey := by
  simp [writtenDesk]

/-- The board column after the write-back: the work item's verdict where it has one. -/
theorem status_writtenDesk (w : World) (env : IntakeEnv) (item : WorkItem) (d : Desk) :
    (writtenDesk w env item d).card.status =
      (verdict item (advancedDesk w env (settledDesk w item d)).card).getD
        (advancedDesk w env (settledDesk w item d)).card.status :=
  status_columnDesk w _ _

/-- The board column is the last thing the write-back touches: the records are those after
the sequence advanced. -/
@[simp] theorem stageStatus_writtenDesk (w : World) (env : IntakeEnv) (item : WorkItem)
    (d : Desk) :
    stageStatus (writtenDesk w env item d).card =
      stageStatus (advancedDesk w env (settledDesk w item d)).card :=
  stageStatus_columnDesk w _ _

/-! ### Only the card's key is named -/

/-- The returned card and the desk's are rows of one key. -/
def Keeps (key : String) (c : Card) (d : Desk) : Prop :=
  c.cardKey = key ∧ d.card.cardKey = key

/-- An update under the card's own key answers with a card of that key. -/
theorem onKey_update (w : World) (card : Card) (ch : StageChanges) (d : Desk)
    (hk : d.card.cardKey = card.cardKey) :
    Prog.Safe (deskHandler w) (fun _ o ↦ OnKey card.cardKey o) (Keeps card.cardKey)
      (do let stored ← updateCard card.cardKey ch; return stored.getD card) d := by
  rw [Prog.perform_bind, Prog.safe_op, ← hk, deskHandler_update, hk]
  exact ⟨rfl, hk, hk⟩

/-- A dispatch names only its card's key. -/
theorem onKey_dispatchStage (w : World) (env : IntakeEnv) (card : Card) (stage : Stage) (d : Desk)
    (hk : d.card.cardKey = card.cardKey) :
    Prog.Safe (deskHandler w) (fun _ o ↦ OnKey card.cardKey o)
      (fun _ d' ↦ d'.card.cardKey = card.cardKey) (dispatchStage env card stage) d := by
  by_cases h : Sendable env card stage
  · have hu := deskHandler_update w ⟨d.card, d.steps + 1⟩
    rw [dispatchStage_of_sendable h, Prog.safe_op, deskHandler_request, Prog.safe_op, ← hk, hu]
    exact ⟨trivial, rfl, rfl⟩
  · obtain ⟨result, hr⟩ := dispatchStage_of_not_sendable h
    rw [hr, Prog.safe_pure]
    exact hk

/-- `_settle` names only its card's key. -/
theorem onKey_settle (w : World) (card : Card) (item : WorkItem) (d : Desk)
    (hk : d.card.cardKey = card.cardKey) :
    Prog.Safe (deskHandler w) (fun _ o ↦ OnKey card.cardKey o) (Keeps card.cardKey)
      (settle card item) d := by
  unfold settle
  simp only
  split
  · exact onKey_update w card _ d hk
  · exact ⟨rfl, hk⟩

/-- `_advance` names only its card's key. -/
theorem onKey_advance (w : World) (env : IntakeEnv) (card : Card) (d : Desk)
    (hk : d.card.cardKey = card.cardKey) :
    Prog.Safe (deskHandler w) (fun _ o ↦ OnKey card.cardKey o) (Keeps card.cardKey)
      (advance env card) d := by
  unfold advance
  split
  · exact ⟨rfl, hk⟩
  · split
    · exact onKey_update w card _ d hk
    · split
      · exact ⟨rfl, hk⟩
      · rw [Prog.safe_bind]
        refine (onKey_dispatchStage w env card _ d hk).mono ?_
        intro result d' hk'
        have hread : ∀ d' : Desk, d'.card.cardKey = card.cardKey →
            Prog.Safe (deskHandler w) (fun _ o ↦ OnKey card.cardKey o) (Keeps card.cardKey)
              (do let stored ← getCard card.cardKey; return stored.getD card) d' := by
          intro d' hk'
          rw [Prog.perform_bind, Prog.safe_op, ← hk', deskHandler_get, hk']
          exact ⟨rfl, hk', hk'⟩
        split
        · exact ⟨trivial, hread _ hk'⟩
        · exact hread d' hk'

/-- The write-back names only its card's key. -/
theorem onKey_writeBack (w : World) (env : IntakeEnv) (card : Card) (item : WorkItem) (d : Desk)
    (hk : d.card.cardKey = card.cardKey) :
    Prog.Safe (deskHandler w) (fun _ o ↦ OnKey card.cardKey o) (fun _ _ ↦ True)
      (writeBack env card item) d := by
  unfold writeBack
  rw [Prog.safe_bind]
  refine (onKey_settle w card item d hk).mono ?_
  rintro settled d₁ ⟨hc₁, hd₁⟩
  rw [Prog.safe_bind]
  have hadv := onKey_advance w env settled d₁ (hd₁.trans hc₁.symm)
  rw [hc₁] at hadv
  refine hadv.mono ?_
  intro advanced d₂ _
  split
  · split <;> trivial
  · split
    · split <;> trivial
    · exact ⟨rfl, trivial⟩

/-! ### What a call performs -/

/-- The operations of a dispatch on the card as it stands. -/
theorem trace_dispatchStage (w : World) (env : IntakeEnv) (stage : Stage) (d : Desk) :
    Prog.trace (deskHandler w) (dispatchStage env d.card stage) d =
      if Sendable env d.card stage then
        [(d, .request stage.service ⟨"POST", Stage.endpoint stage⟩),
          (⟨d.card, d.steps + 1⟩,
            .update d.card.cardKey (sendChanges env d.card stage (w.reply d.steps)))]
      else [] := by
  by_cases h : Sendable env d.card stage
  · rw [dispatchStage_of_sendable h, if_pos h]
    simp only [Prog.trace_op, deskHandler_request, Prog.trace_pure]
  · obtain ⟨result, hr⟩ := dispatchStage_of_not_sendable h
    rw [hr, if_neg h, Prog.trace_pure]

/-- The operations of `_settle`. -/
theorem trace_settle (w : World) (item : WorkItem) (d : Desk) :
    Prog.trace (deskHandler w) (settle d.card item) d =
      if SEQUENCE.any fun s ↦ (settleUpdates d.card item s).isSome then
        [(d, .update d.card.cardKey
          { stageRuns := some (mergeRuns d.card.stageRuns (settleUpdates d.card item)) })]
      else [] := by
  unfold settle
  by_cases h : (SEQUENCE.any fun s ↦ (settleUpdates d.card item s).isSome) = true
  · simp only [h, ↓reduceIte, writeRuns, Prog.perform_bind, Prog.trace_op, Prog.trace_pure]
  · simp only [h, Bool.false_eq_true, ↓reduceIte, Prog.trace_pure]

/-- The operations of `_advance` once the next stage was tried: the report of a sequence that
audits itself, and the read of the card as stored. -/
def afterTry (env : IntakeEnv) (result : DispatchResult) (d : Desk) : List (Desk × IntakeOp) :=
  if env.onDispatch then
    [(d, .report d.card.cardKey result), (⟨d.card, d.steps + 1⟩, .get d.card.cardKey)]
  else [(d, .get d.card.cardKey)]

/-- The operations of `_advance`. -/
theorem trace_advance (w : World) (env : IntakeEnv) (d : Desk) :
    Prog.trace (deskHandler w) (advance env d.card) d =
      if InFlight d.card then []
      else if HasFailed d.card then
        [(d, .update d.card.cardKey { status := some .blocked })]
      else
        match firstQueued d.card with
        | none => []
        | some nxt =>
          Prog.trace (deskHandler w) (dispatchStage env d.card nxt) d ++
            afterTry env (Prog.run (deskHandler w) (dispatchStage env d.card nxt) d).1
              (dispatchedDesk w env nxt d) := by
  unfold advance
  simp only [any_SEQUENCE, decide_eq_true_eq]
  by_cases hf : InFlight d.card
  · rw [if_pos hf, if_pos (show ∃ s, stageStatus d.card s = some .dispatched from hf)]
    rfl
  · rw [if_neg hf, if_neg (show ¬ ∃ s, stageStatus d.card s = some .dispatched from hf)]
    by_cases hx : HasFailed d.card
    · rw [if_pos hx, if_pos (show ∃ s, stageStatus d.card s = some .failed from hx)]
      rfl
    · rw [if_neg hx, if_neg (show ¬ ∃ s, stageStatus d.card s = some .failed from hx)]
      change Prog.trace (deskHandler w) (match firstQueued d.card with
        | none => _ | some nxt => _) d = _
      cases hq : firstQueued d.card with
      | none => rfl
      | some nxt =>
        simp only [Prog.trace_bind, run_dispatchStage]
        have hkey := cardKey_dispatchedDesk w env nxt d
        congr 1
        unfold afterTry
        rw [hkey]
        cases env.onDispatch <;> rfl

/-- The operations of a column write. -/
def columnTrace (column : Option CardStatus) (d : Desk) : List (Desk × IntakeOp) :=
  match column with
  | none => []
  | some status =>
    if status = d.card.status then []
    else [(d, .update d.card.cardKey { status := some status })]

/-- The operations of the write-back, in its three parts. -/
theorem trace_writeBack (w : World) (env : IntakeEnv) (item : WorkItem) (d : Desk) :
    Prog.trace (deskHandler w) (writeBack env d.card item) d =
      Prog.trace (deskHandler w) (settle d.card item) d ++
        (Prog.trace (deskHandler w) (advance env (settledDesk w item d).card)
            (settledDesk w item d) ++
          columnTrace (verdict item (advancedDesk w env (settledDesk w item d)).card)
            (advancedDesk w env (settledDesk w item d))) := by
  simp only [writeBack, Prog.trace_bind, run_settle, run_advance, verdict]
  congr 2
  have hkey : d.card.cardKey =
      (advancedDesk w env (settledDesk w item d)).card.cardKey := by simp
  generalize advancedDesk w env (settledDesk w item d) = advanced at hkey
  cases cardStatusFor item (pendingStages advanced.card ≠ []) with
  | none =>
    simp only [columnTrace]
    split <;> rfl
  | some status =>
    simp only [columnTrace]
    by_cases he : status = advanced.card.status
    · rw [if_pos he, if_pos he]
      split <;> rfl
    · rw [if_neg he, if_neg he, hkey]
      rfl

end CFactory.Intake
