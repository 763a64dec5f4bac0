import CFactory.Intake.Press
import CFactory.Store.Calls

/-!
# Dispatches and the reports that settle them

`card_intake.py:523–764` and `store.py:230–325,467–605`. A card and the work item it is joined
to, in serial runs of stage requests, write-backs, and writes of the store. A write-back
settles a dispatch by the status its slice has at that moment; two ghost clocks remember when
the dispatch was recorded and when the status was written.
-/

namespace CFactory.Intake

open CFactory.Base CFactory.Model CFactory.Cards CFactory.Actions CFactory.Status CFactory.Store

/-! ### Runs on a card and its work item -/

/-- One call on the card, or one write of the store. -/
inductive BoardCall where
  | press (p : Press)
  | applyStatus (env : IntakeEnv)
  | write (call : StoreCall)

/-- The card, the table with its work item, the number of the next step, and the ghost clocks:
the last step that recorded a stage as dispatched, and the last one that wrote the status of
a service's slice. -/
structure Board where
  desk : Desk
  table : WorkItemTable
  step : Nat
  sentAt : Stage → Nat
  reportedAt : Service → Nat

/-- A board on which no step has been made yet. -/
def Board.start (card : Card) (table : WorkItemTable) : Board :=
  ⟨⟨card, 0⟩, table, 1, fun _ ↦ 0, fun _ ↦ 0⟩

/-- The desk after a call: a write-back is handed the work item as stored. -/
def Board.nextDesk (w : World) (key : String) (b : Board) : BoardCall → Desk
  | .press p => (Prog.run (deskHandler w) (p.program b.desk.card.cardKey) b.desk).2
  | .applyStatus env =>
    match b.table.row? key with
    | none => b.desk
    | some r => (Prog.run (deskHandler w) (applyStatus env r.item) b.desk).2
  | .write _ => b.desk

/-- A write puts a status into a slice of the work item: an ordinary event that is new, or a
poll that is not skipped. -/
def writesStatus (t : WorkItemTable) (key : String) (service : Service) : BoardCall → Bool
  | .write ⟨scope, _, .event event⟩ =>
    event.correlationKey == key && event.service == service && isScalar event &&
      (t.row? key).all fun r ↦ Store.inScope scope r && !alreadyRecorded r.item.timeline event
  | .write ⟨scope, _, .snapshot snap⟩ =>
    snap.correlationKey == key && snap.service == service &&
      (t.row? key).all fun r ↦ Store.inScope scope r && !skips snap r.item
  | _ => false

/-- The table after a call. -/
def Board.nextTable (b : Board) : BoardCall → WorkItemTable
  | .write call => call.table b.table
  | _ => b.table

/-- The board after a call. -/
def Board.next (w : World) (key : String) (b : Board) (call : BoardCall) : Board where
  desk := b.nextDesk w key call
  table := b.nextTable call
  step := b.step + 1
  sentAt stage :=
    if stageStatus b.desk.card stage ≠ some .dispatched ∧
        stageStatus (b.nextDesk w key call).card stage = some .dispatched then b.step
    else b.sentAt stage
  reportedAt service := if writesStatus b.table key service call then b.step
    else b.reportedAt service

/-- The outcome that the work item reports for a stage, if it reports one. -/
def reported (t : WorkItemTable) (key : String) (stage : Stage) : Option RunStatus :=
  (t.row? key).bind fun r ↦ outcome r.item stage

/-- A write-back that settles a dispatch finds a status that was written after the dispatch
was recorded. -/
def SettlesFresh (w : World) (key : String) (b : Board) (call : BoardCall) : Prop :=
  match call with
  | .applyStatus _ => ∀ stage, stageStatus b.desk.card stage = some .dispatched →
      (stageStatus (b.nextDesk w key call).card stage = some .done ∨
        stageStatus (b.nextDesk w key call).card stage = some .failed) →
      b.sentAt stage < b.reportedAt stage.service
  | _ => True

/-- The stage that advancing dispatches after a work item was settled: nothing stays in flight,
nothing has failed, the stage is the next queued one, and its request is accepted. -/
def advances (w : World) (env : IntakeEnv) (item : WorkItem) (d : Desk) : Option Stage :=
  if StaysInFlight d.card item ∨ FailureReported d.card item then none
  else (firstQueued d.card).filter fun s ↦
    decide (Sendable env (settledDesk w item d).card s) &&
      accepted (w.reply (settledDesk w item d).steps)

/-- The number of operations that a press makes before its request. -/
def Press.opsBefore (p : Press) : Nat :=
  match p.kind with
  | .startSequence => 2
  | _ => 1

/-- The stage that a call dispatches: the one it decides to send, if the request is
accepted. -/
def dispatches (w : World) (key : String) (b : Board) : BoardCall → Option Stage
  | .press p => (p.target b.desk.card).filter fun _ ↦
      accepted (w.reply (b.desk.steps + p.opsBefore))
  | .applyStatus env =>
    match b.table.row? key with
    | none => none
    | some r =>
      if b.desk.card.correlationKey = some r.item.correlationKey then
        advances w env r.item ⟨b.desk.card, b.desk.steps + 1⟩
      else none
  | .write _ => none

/-- A call dispatches no stage whose slice already reads as done or failed. -/
def DispatchesFresh (w : World) (key : String) (b : Board) (call : BoardCall) : Prop :=
  ∀ stage, dispatches w key b call = some stage → reported b.table key stage = none

/-! ### What a call dispatches -/

/-- A stage is recorded as dispatched that was not before. -/
def NewlyDispatched (c c' : Card) (s : Stage) : Prop :=
  stageStatus c s ≠ some .dispatched ∧ stageStatus c' s = some .dispatched

private theorem sent_eq_dispatched (b : Bool) :
    (some (if b then RunStatus.dispatched else .failed) = some .dispatched) ↔ b = true := by
  cases b <;> simp

/-- A send on the card as it stands leaves that desk. -/
theorem run_sending (w : World) (env : IntakeEnv) (stage : Stage) (d : Desk) :
    (Prog.run (deskHandler w) (sending env d.card stage) d).2 =
      ⟨(sendChanges env d.card stage (w.reply d.steps)).apply (w.clock (d.steps + 1)) d.card,
        d.steps + 2⟩ := by
  have hu := deskHandler_update w ⟨d.card, d.steps + 1⟩
  simp only at hu
  simp only [sending, Prog.run_op, deskHandler_request, hu, Prog.run_pure]

/-- Trying a send on the card as it stands leaves the desk of a dispatch. -/
theorem run_trySending (w : World) (env : IntakeEnv) (stage : Stage) (d : Desk) :
    (Prog.run (deskHandler w) (trySending env d.card stage) d).2 =
      dispatchedDesk w env stage d := by
  unfold trySending dispatchedDesk
  split
  · exact run_sending w env stage d
  · rfl

/-- What a dispatch records as dispatched. -/
theorem newly_dispatchedDesk (w : World) (env : IntakeEnv) (stage : Stage) (d : Desk)
    (s : Stage) :
    NewlyDispatched d.card (dispatchedDesk w env stage d).card s ↔
      s = stage ∧ Sendable env d.card stage ∧ accepted (w.reply d.steps) = true := by
  unfold NewlyDispatched dispatchedDesk
  by_cases hsend : Sendable env d.card stage
  · rw [if_pos hsend, stageStatus_sendChanges, Function.update_apply]
    by_cases hs : s = stage
    · have hfree := ((sendable_iff env d.card stage).mp hsend).1.2
      rw [if_pos hs, sent_eq_dispatched, hs]
      simp [hfree, hsend]
    · rw [if_neg hs]
      simp [hs]
  · rw [if_neg hsend]
    simp [hsend]

/-- Queueing what is owed does not change whether the first of it may be sent. -/
theorem sendable_queued_iff {c q : Card} {first : Stage} {rest : List Stage} (env : IntakeEnv)
    (hf : ¬ InFlight c) (howed : owedStages c = first :: rest)
    (hstatus : stageStatus q = owedStatus (stageStatus c)) (htier : q.tier = c.tier)
    (hjoin : q.correlationKey = c.correlationKey) (hrepo : q.repositoryId = c.repositoryId)
    (hissue : q.issueRef = c.issueRef) : Sendable env q first ↔ Sendable env c first := by
  have hmem : first ∈ owedStages c := by simp [howed]
  have hfirst : stageStatus c first ≠ some .done := by
    simpa [owedStages] using hmem
  have hfree : stageStatus c first ≠ some .dispatched := fun h ↦ hf ⟨first, h⟩
  have hcode : stageStatus q .code = some .done ↔ stageStatus c .code = some .done := by
    rw [hstatus, owedStatus]
    by_cases hd : stageStatus c .code = some .done <;> simp [hd]
  have hqueued : stageStatus q first = some .queued := by
    rw [hstatus, owedStatus, if_neg hfirst]
  have hproject : env.aifactoryProjectId q = env.aifactoryProjectId c := by
    rw [IntakeEnv.aifactoryProjectId, IntakeEnv.aifactoryProjectId, hrepo, hissue]
  rw [sendable_iff, sendable_iff, hqueued, htier, hjoin, hproject, hcode]
  simp [hfirst, hfree]

/-- What sending a stage records as dispatched. -/
private theorem newly_sending (w : World) (env : IntakeEnv) (d : Desk) (stage s : Stage)
    (hfree : stageStatus d.card stage ≠ some .dispatched) :
    NewlyDispatched d.card (Prog.run (deskHandler w) (sending env d.card stage) d).2.card s ↔
      stage = s ∧ accepted (w.reply d.steps) = true := by
  rw [run_sending]
  simp only [NewlyDispatched, stageStatus_sendChanges, Function.update_apply]
  by_cases hs : s = stage
  · rw [if_pos hs, sent_eq_dispatched, hs]
    simp [hfree]
  · rw [if_neg hs]
    simp [Ne.symm hs]

/-- What a press on the card records as dispatched. -/
private theorem newly_dispatchCard (w : World) (env : IntakeEnv) (d : Desk) (s : Stage) :
    NewlyDispatched d.card
        (Prog.run (deskHandler w) (Press.body ⟨env, .dispatchCard⟩ d.card) d).2.card s ↔
      Press.target ⟨env, .dispatchCard⟩ d.card = some s ∧
        accepted (w.reply d.steps) = true := by
  rw [body_dispatchCard]
  simp only [Press.target]
  by_cases hquiet : stageStatus d.card (defaultStage d.card) = some .dispatched ∨
      stageStatus d.card (defaultStage d.card) = some .done
  · rw [if_pos hquiet, if_pos (hquiet.imp id Or.inl)]
    simp [NewlyDispatched]
  · rw [if_neg hquiet]
    by_cases hproject : defaultStage d.card ≠ .plan ∧
        truthy (env.aifactoryProjectId d.card) = false
    · have hrec := stageStatus_apply { status := some .blocked } rfl (w.clock d.steps) d.card
      have hu := deskHandler_update w d { status := some .blocked }
      rw [if_pos hproject, if_pos (Or.inr (Or.inr hproject)), Prog.run_op, hu, Prog.run_pure]
      simp only [NewlyDispatched, hrec]
      simp
    · have hsends : ¬ (stageStatus d.card (defaultStage d.card) = some .dispatched ∨
          stageStatus d.card (defaultStage d.card) = some .done ∨
          (defaultStage d.card ≠ .plan ∧ truthy (env.aifactoryProjectId d.card) = false)) := by
        rintro (h | h | h)
        · exact hquiet (Or.inl h)
        · exact hquiet (Or.inr h)
        · exact hproject h
      rw [if_neg hproject, if_neg hsends,
        newly_sending w env d (defaultStage d.card) s (not_or.mp hquiet).1, Option.some.injEq]

/-- What the start of a sequence records as dispatched. -/
private theorem newly_startSequence (w : World) (env : IntakeEnv) (d : Desk) (s : Stage) :
    NewlyDispatched d.card
        (Prog.run (deskHandler w) (Press.body ⟨env, .startSequence⟩ d.card) d).2.card s ↔
      Press.target ⟨env, .startSequence⟩ d.card = some s ∧
        accepted (w.reply (d.steps + 1)) = true := by
  simp only [Press.target]
  rcases body_startSequence env d.card with ⟨hquiet, hr⟩ | ⟨⟨ht, hf⟩, first, rest, howed, hr⟩
  · have hnone : (if d.card.tier = none ∨ InFlight d.card then none
        else (owedStages d.card).head?.filter fun s ↦ decide (Sendable env d.card s)) = none := by
      rcases hquiet with h | h | h
      · exact if_pos (Or.inl h)
      · exact if_pos (Or.inr h)
      · simp [h]
    rw [hr, hnone, Prog.run_pure]
    simp [NewlyDispatched]
  · -- The owed stages are queued first, and the request decides on the card it gets back.
    obtain ⟨q, hq⟩ : ∃ q,
        q = (queueChanges d.card (first :: rest)).apply (w.clock d.steps) d.card := ⟨_, rfl⟩
    have hu := deskHandler_update w d (queueChanges d.card (first :: rest))
    rw [← hq] at hu
    rw [hr, Prog.run_op, hu, Option.getD_some]
    have hrun := run_trySending w env first ⟨q, d.steps + 1⟩
    have hnew := newly_dispatchedDesk w env first ⟨q, d.steps + 1⟩ s
    simp only at hrun hnew
    have hstatus : stageStatus q = owedStatus (stageStatus d.card) := by
      rw [hq, ← mergeStatus_queuedFields, howed]
      exact stageStatus_merge d.card d.card _ {} _
    have hclear : ∀ x, owedStatus (stageStatus d.card) x ≠ some .dispatched := by
      intro x
      unfold owedStatus
      split <;> simp
    have hbefore : stageStatus d.card s ≠ some .dispatched := fun h ↦ hf ⟨s, h⟩
    have hsame : NewlyDispatched d.card (dispatchedDesk w env first ⟨q, d.steps + 1⟩).card s ↔
        NewlyDispatched q (dispatchedDesk w env first ⟨q, d.steps + 1⟩).card s := by
      unfold NewlyDispatched
      rw [hstatus]
      simp only [hbefore, hclear, ne_eq, not_false_eq_true, true_and]
    have hsendable : Sendable env q first ↔ Sendable env d.card first :=
      sendable_queued_iff env hf howed hstatus (by rw [hq]; rfl) (by rw [hq]; rfl) (by rw [hq]; rfl)
        (by rw [hq]; rfl)
    rw [if_neg (not_or.mpr ⟨ht, hf⟩), howed, hrun, hsame, hnew, hsendable, List.head?_cons,
      Option.filter_some]
    by_cases hsend : Sendable env d.card first
    · rw [if_pos (decide_eq_true hsend), Option.some.injEq, eq_comm]
      exact and_congr_right fun _ ↦ and_iff_right hsend
    · rw [if_neg (by simpa using hsend)]
      simp [hsend]

/-- What a press records as dispatched is the stage it decides on, if that is accepted. -/
theorem newly_press (w : World) (p : Press) (d : Desk) (s : Stage) :
    NewlyDispatched d.card (Prog.run (deskHandler w) (p.program d.card.cardKey) d).2.card s ↔
      (p.target d.card).filter (fun _ ↦ accepted (w.reply (d.steps + p.opsBefore))) = some s := by
  have hread : (Prog.run (deskHandler w) (p.program d.card.cardKey) d).2 =
      (Prog.run (deskHandler w) (p.body d.card) ⟨d.card, d.steps + 1⟩).2 := by
    rw [Press.program, Prog.perform_bind, Prog.run_op, deskHandler_get]
  rw [hread, Option.filter_eq_some_iff]
  obtain ⟨env, kind⟩ := p
  cases kind with
  | dispatchStage stage =>
    have hrun := run_trySending w env stage ⟨d.card, d.steps + 1⟩
    have hnew := newly_dispatchedDesk w env stage ⟨d.card, d.steps + 1⟩ s
    rw [body_dispatchStage, hrun, hnew]
    simp only [Press.target, Press.opsBefore]
    by_cases hsend : Sendable env d.card stage
    · rw [if_pos hsend, Option.some.injEq, eq_comm]
      exact and_congr_right fun _ ↦ and_iff_right hsend
    · rw [if_neg hsend]
      simp [hsend]
  | dispatchCard => exact newly_dispatchCard w env ⟨d.card, d.steps + 1⟩ s
  | startSequence => exact newly_startSequence w env ⟨d.card, d.steps + 1⟩ s

/-- What a write-back records as dispatched is the stage it advances to. -/
theorem newly_writtenDesk (w : World) (env : IntakeEnv) (item : WorkItem) (d : Desk)
    (s : Stage) :
    NewlyDispatched d.card (writtenDesk w env item d).card s ↔
      advances w env item d = some s := by
  unfold NewlyDispatched advances
  rw [stageStatus_writtenDesk]
  have hstay := inFlight_settledDesk w item d
  have hfail := hasFailed_settledDesk w item d
  have hrec : stageStatus (settledDesk w item d).card =
      settledStatus (stageStatus d.card) item := stageStatus_settledDesk w item d
  by_cases hin : StaysInFlight d.card item
  · rw [if_pos (Or.inl hin), advancedDesk_of_inFlight (hstay.mpr hin), hrec]
    rcases settledStatus_cases (stageStatus d.card) item s with he | ⟨-, he | he⟩
    · rw [he]
      simp
    · rw [he]
      simp
    · rw [he]
      simp
  have hclear : ¬ InFlight (settledDesk w item d).card := fun h ↦ hin (hstay.mp h)
  have hsettled : settledStatus (stageStatus d.card) item s ≠ some .dispatched := by
    intro h
    exact hclear ⟨s, by rw [hrec, h]⟩
  by_cases hbad : FailureReported d.card item
  · rw [if_pos (Or.inr hbad), advancedDesk_of_failed hclear (hfail.mpr hbad)]
    rw [stageStatus_apply _ rfl, hrec]
    simp [hsettled]
  have hgood : ¬ HasFailed (settledDesk w item d).card := fun h ↦ hbad (hfail.mp h)
  rw [if_neg (not_or.mpr ⟨hin, hbad⟩), advancedDesk_of_clear hclear hgood,
    firstQueued_settledDesk]
  cases hq : firstQueued d.card with
  | none =>
    simp only [Option.filter_none, reduceCtorEq, iff_false, not_and, hrec]
    exact fun _ ↦ hsettled
  | some nxt =>
    have hnew := newly_dispatchedDesk w env nxt (settledDesk w item d) s
    rw [Option.filter_some]
    have hsame : (stageStatus d.card s ≠ some .dispatched ∧
        stageStatus (dispatchedDesk w env nxt (settledDesk w item d)).card s =
          some .dispatched) ↔
        NewlyDispatched (settledDesk w item d).card
          (dispatchedDesk w env nxt (settledDesk w item d)).card s := by
      constructor
      · rintro ⟨-, h⟩
        exact ⟨by rw [hrec]; exact hsettled, h⟩
      · intro h
        refine ⟨?_, h.2⟩
        obtain ⟨hs, -⟩ := hnew.mp h
        rw [hs, queued_of_firstQueued hq]
        simp
    simp only
    rw [hsame, hnew]
    by_cases hsend : Sendable env (settledDesk w item d).card nxt
    · cases haccept : accepted (w.reply (settledDesk w item d).steps) <;>
        simp [hsend, eq_comm]
    · simp [hsend]

/-- A write-back on a desk: the card is read by its join key first. -/
theorem run_applyStatus (w : World) (env : IntakeEnv) (item : WorkItem) (d : Desk) :
    (Prog.run (deskHandler w) (applyStatus env item) d).2 =
      if d.card.correlationKey = some item.correlationKey then
        writtenDesk w env item ⟨d.card, d.steps + 1⟩
      else ⟨d.card, d.steps + 1⟩ := by
  have hrun := run_writeBack w env item ⟨d.card, d.steps + 1⟩
  unfold applyStatus
  rw [Prog.perform_bind, Prog.run_op]
  by_cases hj : d.card.correlationKey = some item.correlationKey
  · simp only [deskHandler, hj, ↓reduceIte]
    exact hrun
  · simp only [deskHandler, hj, ↓reduceIte, Prog.run_pure]

/-- What a call records as dispatched. -/
theorem newly_iff (w : World) (key : String) (b : Board) (call : BoardCall) (s : Stage) :
    NewlyDispatched b.desk.card (b.nextDesk w key call).card s ↔
      dispatches w key b call = some s := by
  cases call with
  | press p => exact newly_press w p b.desk s
  | write call => simp [NewlyDispatched, Board.nextDesk, dispatches]
  | applyStatus env =>
    simp only [Board.nextDesk, dispatches]
    cases b.table.row? key with
    | none => simp [NewlyDispatched]
    | some r =>
      simp only
      rw [run_applyStatus]
      by_cases hj : b.desk.card.correlationKey = some r.item.correlationKey
      · rw [if_pos hj, if_pos hj]
        exact newly_writtenDesk w env r.item ⟨b.desk.card, b.desk.steps + 1⟩ s
      · rw [if_neg hj, if_neg hj]
        simp [NewlyDispatched]

/-! ### What a write-back settles -/

/-- A stage in flight is settled exactly if its slice reports an outcome. -/
theorem settles_iff (w : World) (env : IntakeEnv) (item : WorkItem) (d : Desk) {s : Stage}
    (hd : stageStatus d.card s = some .dispatched) :
    (stageStatus (writtenDesk w env item d).card s = some .done ∨
      stageStatus (writtenDesk w env item d).card s = some .failed) ↔ outcome item s ≠ none := by
  rw [stageStatus_writtenDesk_of_dispatched w env item hd]
  unfold outcome
  split
  · simp
  · split <;> simp

/-! ### What a write reports -/

/-- An event that is no ordinary one leaves the status of its slice alone. -/
theorem status_applyEvent {event : CompletionEvent} (h : isScalar event = false)
    (prev : ServiceState) : (applyEvent prev event).status = prev.status := by
  obtain ⟨⟨x, hx⟩, hbeat | hworker⟩ := worker_of_not_scalar h
  · rw [applyEvent_of_progress hx hbeat]
    rfl
  · rw [applyEvent_of_worker hx hworker]
    rfl

/-- The outcome of a stage is read off the status of its slice. -/
theorem outcome_congr {item item' : WorkItem} {s : Stage}
    (h : (item'.slice s.service).status = (item.slice s.service).status) :
    outcome item' s = outcome item s := by
  unfold outcome
  rw [h]

/-- A slice without a status reports no outcome. -/
theorem outcome_of_missing {item : WorkItem} {s : Stage}
    (h : (item.slice s.service).status = none) : outcome item s = none := by
  simp [outcome, h]

/-- The outcome reported under a key follows the status of the slice. -/
theorem reported_of_row {t : WorkItemTable} {key : String} {r : WorkItemRow}
    (hrow : t.row? key = some r) (s : Stage) : reported t key s = outcome r.item s := by
  rw [reported, hrow, Option.bind_some]

/-- A row whose slice has its old status reports what it did. -/
theorem reported_same {t u : WorkItemTable} {key : String} {r r' : WorkItemRow} {s : Stage}
    (hrow : t.row? key = some r) (hrow' : u.row? key = some r')
    (h : (r'.item.slice s.service).status = (r.item.slice s.service).status) :
    reported u key s = reported t key s := by
  rw [reported_of_row hrow, reported_of_row hrow', outcome_congr h]

/-- A row whose slice has no status reports nothing. -/
theorem reported_missing {t : WorkItemTable} {key : String} {r : WorkItemRow} {s : Stage}
    (hrow : t.row? key = some r) (h : (r.item.slice s.service).status = none) :
    reported t key s = none := by
  rw [reported_of_row hrow, outcome_of_missing h]

/-- Housekeeping leaves a slice's status or clears it. -/
theorem reported_run {t u : WorkItemTable} {key : String} {s : Stage} {service : Service}
    {f : WorkItemRow → RowAction} (hu : u.row? key = (t.row? key).bind fun r ↦ (f r).run r)
    (hf : ∀ r, Tidies service (f r)) :
    reported u key s = none ∨ reported u key s = reported t key s := by
  cases hrow : u.row? key with
  | none => exact Or.inl (by rw [reported, hrow, Option.bind_none])
  | some q =>
    rw [hrow] at hu
    obtain ⟨r, hr, hrun⟩ := Option.bind_eq_some_iff.mp hu.symm
    by_cases hs : s.service = service
    · subst hs
      rcases (hf r).slice_own hrun with h | h
      · exact Or.inr (reported_same hr hrow (by rw [h]))
      · exact Or.inl (reported_missing hrow (by rw [h]; rfl))
    · exact Or.inr (reported_same hr hrow (by rw [(hf r).slice_other hrun hs]))

/-- The status of a slice after an event that is no ordinary one of its service. -/
theorem status_eventChanges {event : CompletionEvent} {service : Service}
    (h : event.service = service → isScalar event = false) (item : WorkItem) (now : Time) :
    (((eventChanges item event now).apply item).slice service).status =
      (item.slice service).status := by
  simp only [eventChanges, RowChanges.apply]
  by_cases hs : service = event.service
  · subst hs
    rw [Function.update_self, status_applyEvent (h rfl)]
  · rw [Function.update_of_ne hs]

/-- The status of a slice after a poll of another service. -/
theorem status_snapshotChanges {snap : Snapshot} {service : Service} (h : snap.service ≠ service)
    (item : WorkItem) (now : Time) :
    (((snapshotChanges snap item now).apply item).slice service).status =
      (item.slice service).status := by
  simp only [snapshotChanges, RowChanges.apply]
  rw [Function.update_of_ne (Ne.symm h)]

/-- A write that puts no status into a slice reports nothing new for its stage. -/
theorem reported_write (t : WorkItemTable) (key : String) (call : StoreCall) (s : Stage)
    (h : writesStatus t key s.service (.write call) = false) :
    reported (call.table t) key s = none ∨
      reported (call.table t) key s = reported t key s := by
  have hrow := row_table t call key
  obtain ⟨scope, now, writer⟩ := call
  cases writer with
  | event event =>
    simp only [StoreCall.onRow] at hrow
    by_cases hk : key = event.correlationKey
    · rw [if_pos hk] at hrow
      cases hold : t.row? key with
      | none =>
        rw [hold] at hrow
        have hkind : event.service = s.service → isScalar event = false := by
          intro hs
          simpa [writesStatus, hk, hs, hk ▸ hold] using h
        exact Or.inl (reported_missing hrow (status_eventChanges hkind _ now))
      | some r =>
        rw [hold] at hrow
        refine Or.inr (reported_same hold hrow ?_)
        simp only [upsertRow, reviseByEvent]
        cases hin : Store.inScope scope r with
        | false => rfl
        | true =>
          cases hrec : alreadyRecorded r.item.timeline event with
          | true => rfl
          | false =>
            apply status_eventChanges
            intro hs
            simpa [writesStatus, hk, hs, hk ▸ hold, hin, hrec] using h
    · rw [if_neg hk] at hrow
      exact Or.inr (by rw [reported, reported, hrow])
  | snapshot snap =>
    simp only [StoreCall.onRow] at hrow
    by_cases hk : key = snap.correlationKey
    · rw [if_pos hk] at hrow
      cases hold : t.row? key with
      | none =>
        rw [hold] at hrow
        have hother : snap.service ≠ s.service := by
          simpa [writesStatus, hk, hk ▸ hold] using h
        exact Or.inl (reported_missing hrow (status_snapshotChanges hother _ now))
      | some r =>
        rw [hold] at hrow
        refine Or.inr (reported_same hold hrow ?_)
        simp only [upsertRow, reviseBySnapshot]
        cases hin : Store.inScope scope r with
        | false => rfl
        | true =>
          cases hskip : skips snap r.item with
          | true => rfl
          | false =>
            apply status_snapshotChanges
            simpa [writesStatus, hk, hk ▸ hold, hin, hskip] using h
    · rw [if_neg hk] at hrow
      exact Or.inr (by rw [reported, reported, hrow])
  | reconcile service liveTaskIds =>
    exact reported_run hrow fun r ↦ tidies_reconcile _ service _ _ r
  | pruneDead maxAge =>
    exact reported_run hrow fun r ↦ tidies_pruneDead s.service _ _ _ r
  | pruneDuplicates service taskIdToKey =>
    exact reported_run hrow fun r ↦ tidies_pruneDuplicate _ service _ _ r

/-! ### Every dispatch is settled by a later report -/

/-- A stage in flight whose slice reads as an outcome has been reported since its dispatch. -/
structure FreshBoard (key : String) (b : Board) : Prop where
  past : ∀ s, b.sentAt s < b.step
  fresh : ∀ s, stageStatus b.desk.card s = some .dispatched → reported b.table key s ≠ none →
    b.sentAt s < b.reportedAt s.service

variable {w : World} {key : String} {b : Board}

/-- A call that dispatches something writes no table. -/
theorem nextTable_of_dispatches {call : BoardCall} {s : Stage}
    (h : dispatches w key b call = some s) :
    b.nextTable call = b.table ∧ ∀ service, writesStatus b.table key service call = false := by
  cases call with
  | write call => exact absurd h (by simp [dispatches])
  | _ => exact ⟨rfl, fun _ ↦ rfl⟩

/-- Reading the work item settles only what has been reported. -/
theorem settlesFresh_of_freshBoard (h : FreshBoard key b) (call : BoardCall) :
    SettlesFresh w key b call := by
  cases call with
  | press p => exact True.intro
  | write call => exact True.intro
  | applyStatus env =>
    intro s hd hs
    simp only [Board.nextDesk] at hs
    cases hrow : b.table.row? key with
    | none =>
      rw [hrow] at hs
      simp [hd] at hs
    | some r =>
      rw [hrow] at hs
      simp only at hs
      rw [run_applyStatus] at hs
      by_cases hj : b.desk.card.correlationKey = some r.item.correlationKey
      · rw [if_pos hj, settles_iff w env r.item ⟨b.desk.card, b.desk.steps + 1⟩ hd] at hs
        exact h.fresh s hd (by rw [reported_of_row hrow]; exact hs)
      · rw [if_neg hj] at hs
        simp [hd] at hs

/-- A call that dispatches nothing stale keeps the board fresh. -/
theorem freshBoard_next (h : FreshBoard key b) {call : BoardCall}
    (hc : DispatchesFresh w key b call) : FreshBoard key (b.next w key call) := by
  have hnew := newly_iff w key b call
  constructor
  · intro s
    simp only [Board.next]
    have := h.past s
    split <;> omega
  · intro s hd hr
    simp only [Board.next] at hd hr ⊢
    by_cases hsent : NewlyDispatched b.desk.card (b.nextDesk w key call).card s
    · have hdis := (hnew s).mp hsent
      rw [(nextTable_of_dispatches hdis).1] at hr
      exact absurd (hc s hdis) hr
    · have hbefore : stageStatus b.desk.card s = some .dispatched := by
        by_contra hn
        exact hsent ⟨hn, hd⟩
      rw [if_neg (show ¬ (_ ∧ _) from hsent)]
      cases hw : writesStatus b.table key s.service call with
      | true =>
        rw [if_pos rfl]
        exact h.past s
      | false =>
        rw [if_neg Bool.false_ne_true]
        have hsame : reported (b.nextTable call) key s = reported b.table key s := by
          cases call with
          | write call => exact (reported_write b.table key call s hw).resolve_left hr
          | _ => rfl
        rw [hsame] at hr
        exact h.fresh s hbefore hr

/-! ### A stale dispatch is settled at once -/

/-- A send keeps the join key that the card has. -/
theorem joined_sendChanges {card : Card} (hj : card.correlationKey = some key) (hk : key ≠ "")
    (env : IntakeEnv) (stage : Stage) (o : HttpOutcome) (now : Time) :
    ((sendChanges env card stage o).apply now card).correlationKey = some key := by
  rw [correlationKey_apply]
  cases ha : accepted o with
  | true =>
    rw [sendChanges_of_accepted env card stage ha]
    simp [joinKey, hj, truthy, hk]
  | false =>
    rw [sendChanges_of_refused env card stage ha]
    simpa using hj

/-- A dispatch keeps the join key that the card has. -/
theorem joined_dispatchedDesk {d : Desk} (hj : d.card.correlationKey = some key) (hk : key ≠ "")
    (env : IntakeEnv) (stage : Stage) :
    (dispatchedDesk w env stage d).card.correlationKey = some key := by
  unfold dispatchedDesk
  split
  · exact joined_sendChanges hj hk env stage _ _
  · exact hj

/-- A write-back keeps the join key that the card has. -/
theorem joined_writtenDesk {d : Desk} (hj : d.card.correlationKey = some key) (hk : key ≠ "")
    (env : IntakeEnv) (item : WorkItem) :
    (writtenDesk w env item d).card.correlationKey = some key := by
  have hsettled : (settledDesk w item d).card.correlationKey = some key := by
    rw [correlationKey_settledDesk]
    exact hj
  have hadv : (advancedDesk w env (settledDesk w item d)).card.correlationKey = some key := by
    unfold advancedDesk
    split
    · exact hsettled
    · split
      · simpa using hsettled
      · split
        · exact hsettled
        · exact joined_dispatchedDesk hsettled hk env _
  simp only [writtenDesk, columnDesk]
  split
  · exact hadv
  · split
    · exact hadv
    · simpa using hadv

/-- A press keeps the join key. -/
theorem joined_press {d : Desk} (hj : d.card.correlationKey = some key) (hk : key ≠ "")
    (p : Press) :
    (Prog.run (deskHandler w) (p.program d.card.cardKey) d).2.card.correlationKey = some key := by
  rw [Press.program, Prog.perform_bind, Prog.run_op, deskHandler_get]
  obtain ⟨env, kind⟩ := p
  have hu := deskHandler_update w ⟨d.card, d.steps + 1⟩
  simp only at hu
  cases kind with
  | dispatchStage stage =>
    simp only
    rw [body_dispatchStage]
    have hrun := run_trySending w env stage ⟨d.card, d.steps + 1⟩
    rw [hrun]
    exact joined_dispatchedDesk (d := ⟨d.card, d.steps + 1⟩) hj hk env stage
  | dispatchCard =>
    simp only
    rw [body_dispatchCard]
    split
    · exact hj
    · split
      · rw [Prog.run_op, hu, Prog.run_pure]
        simpa using hj
      · have hrun := run_sending w env (defaultStage d.card) ⟨d.card, d.steps + 1⟩
        simp only at hrun
        rw [hrun]
        exact joined_sendChanges hj hk env _ _ _
  | startSequence =>
    simp only
    rcases body_startSequence env d.card with ⟨-, hr⟩ | ⟨-, first, rest, -, hr⟩
    · rw [hr]
      exact hj
    · rw [hr, Prog.run_op, hu, Option.getD_some]
      have hrun := run_trySending w env first
        ⟨(queueChanges d.card (first :: rest)).apply (w.clock (d.steps + 1)) d.card,
          d.steps + 1 + 1⟩
      simp only at hrun
      rw [hrun]
      apply joined_dispatchedDesk _ hk
      simpa [queueChanges] using hj

/-- A call keeps the join key. -/
theorem joined_next (hj : b.desk.card.correlationKey = some key) (hk : key ≠ "")
    (call : BoardCall) : (b.nextDesk w key call).card.correlationKey = some key := by
  cases call with
  | press p => exact joined_press hj hk p
  | write call => exact hj
  | applyStatus env =>
    simp only [Board.nextDesk]
    split
    · exact hj
    · rw [run_applyStatus]
      split
      · exact joined_writtenDesk (d := ⟨b.desk.card, b.desk.steps + 1⟩) hj hk env _
      · exact hj

/-- A write-back of a joined card settles every stage in flight that reads as an outcome. -/
theorem reportedSince_of_settlesFresh {s : Stage}
    (hd : stageStatus b.desk.card s = some .dispatched)
    (hj : b.desk.card.correlationKey = some key) (hr : reported b.table key s ≠ none)
    {env : IntakeEnv} (h : SettlesFresh w key b (.applyStatus env)) :
    b.sentAt s < b.reportedAt s.service := by
  apply h s hd
  simp only [Board.nextDesk]
  cases hrow : b.table.row? key with
  | none =>
    rw [reported, hrow] at hr
    exact absurd rfl hr
  | some r =>
    have hitem : r.item.correlationKey = key := WorkItemTable.key_of_row hrow
    rw [reported_of_row hrow] at hr
    simp only
    rw [run_applyStatus, if_pos (by rw [hitem]; exact hj)]
    exact (settles_iff w env r.item ⟨b.desk.card, b.desk.steps + 1⟩ hd).mpr hr

/-- A stage that was dispatched over a leftover outcome is settled by it at the next
write-back. -/
theorem not_settlesFresh_of_stale (hj : b.desk.card.correlationKey = some key) (hk : key ≠ "")
    (hpast : ∀ service, b.reportedAt service < b.step) {call : BoardCall} {s : Stage}
    (hdis : dispatches w key b call = some s) (hr : reported b.table key s ≠ none)
    (env : IntakeEnv) : ¬ SettlesFresh w key (b.next w key call) (.applyStatus env) := by
  intro hfresh
  obtain ⟨htable, hwrites⟩ := nextTable_of_dispatches hdis
  have hnew := (newly_iff w key b call s).mpr hdis
  have hsent : (b.next w key call).sentAt s = b.step := if_pos hnew
  have hreported : (b.next w key call).reportedAt s.service = b.reportedAt s.service := by
    simp only [Board.next, hwrites, Bool.false_eq_true, ↓reduceIte]
  have hleft : reported (b.next w key call).table key s ≠ none := by
    simp only [Board.next, htable]
    exact hr
  have hclocks := reportedSince_of_settlesFresh hnew.2 (joined_next hj hk call) hleft hfresh
  rw [hsent, hreported] at hclocks
  have := hpast s.service
  omega

/-- Where a write-back at any point of a run settles only what was reported since, no call of
the run dispatches a stage over a leftover outcome. -/
theorem dispatchesFresh_of_settlesFresh (calls : List BoardCall) {b : Board}
    (hj : b.desk.card.correlationKey = some key) (hk : key ≠ "")
    (hpast : ∀ service, b.reportedAt service < b.step)
    (hfresh : ∀ n env, EachStep (Board.next w key) (SettlesFresh w key) b
      (calls.take n ++ [.applyStatus env])) :
    EachStep (Board.next w key) (DispatchesFresh w key) b calls := by
  induction calls generalizing b with
  | nil => exact True.intro
  | cons call rest ih =>
    constructor
    · intro s hdis
      by_contra hr
      have hsecond := (hfresh 1 { gitProject := fun _ _ ↦ none }).2.1
      exact not_settlesFresh_of_stale hj hk hpast hdis hr _ hsecond
    · apply ih
      · exact joined_next hj hk call
      · intro service
        simp only [Board.next]
        have := hpast service
        split <;> omega
      · intro n env
        exact (hfresh (n + 1) env).2

/-- On a card with nothing in flight and its work item, in every run whose calls dispatch no
stage over a leftover outcome, every write-back settles only what was reported since its
dispatch; and on a card that is joined already, no weaker condition makes that hold of
write-backs at every point of the run. -/
theorem settled_by_later_report (w : World) (key : String) (card : Card) (table : WorkItemTable)
    (calls : List BoardCall) (hidle : ∀ s, stageStatus card s ≠ some .dispatched) :
    (EachStep (Board.next w key) (DispatchesFresh w key) (Board.start card table) calls →
      ∀ n env, EachStep (Board.next w key) (SettlesFresh w key) (Board.start card table)
        (calls.take n ++ [.applyStatus env])) ∧
    (card.correlationKey = some key → key ≠ "" →
      (∀ n env, EachStep (Board.next w key) (SettlesFresh w key) (Board.start card table)
        (calls.take n ++ [.applyStatus env])) →
      EachStep (Board.next w key) (DispatchesFresh w key) (Board.start card table) calls) := by
  constructor
  · intro h n env
    have hstart : FreshBoard key (Board.start card table) :=
      ⟨fun _ ↦ Nat.one_pos, fun s hd ↦ absurd hd (hidle s)⟩
    have hpart : EachStep (Board.next w key) (DispatchesFresh w key) (Board.start card table)
        (calls.take n) := by
      rw [← List.take_append_drop n calls, eachStep_append] at h
      exact h.1
    have hlast := (throughout_of_step (P := FreshBoard key)
      (fun _ _ hc hcall ↦ freshBoard_next hc hcall) hstart hpart).last
    have hall := eachStep_of_invariant (P := FreshBoard key) (D := SettlesFresh w key)
      (fun _ call hc hcall ↦ ⟨settlesFresh_of_freshBoard hc call, freshBoard_next hc hcall⟩)
      hstart hpart
    rw [eachStep_append]
    exact ⟨hall, settlesFresh_of_freshBoard hlast _, True.intro⟩
  · intro hj hk hfresh
    exact dispatchesFresh_of_settlesFresh calls hj hk (fun _ ↦ Nat.one_pos) hfresh

/-! ### A plan that is dispatched again -/

/-- A card whose plan failed. -/
def failedCard : Card :=
  { cardKey := "C-1", title := "Add a health check", tier := some .medium, status := .blocked
    correlationKey := some "pf-1"
    stageRuns := fun s ↦
      match s with
      | .plan => some { service := some .pfactory, status := some .failed }
      | _ => none }

/-- The event that reported the failure. -/
def failedEvent : CompletionEvent :=
  { id := some "e-1", correlationKey := "pf-1", service := .pfactory, taskId := "pf-1"
    status := "failed" }

/-- A heartbeat of the new attempt. -/
def attemptEvent : CompletionEvent :=
  { correlationKey := "pf-1", service := .pfactory, taskId := "pf-1", status := "running"
    phase := some "worker_progress", worker := some { workerId := "w1" } }

/-- The completion of the new attempt. -/
def completedEvent : CompletionEvent :=
  { id := some "e-2", correlationKey := "pf-1", service := .pfactory, taskId := "pf-1"
    status := "completed" }

/-- On a new database a plan is dispatched, completes, and is settled by that report. -/
theorem settled_by_completion :
    EachStep (Board.next acceptingWorld "pf-1") (SettlesFresh acceptingWorld "pf-1")
      (Board.start { failedCard with stageRuns := fun _ ↦ none } .empty)
      ([.press ⟨configuredEnv, .dispatchStage .plan⟩, .write ⟨none, 1, .event completedEvent⟩].take
        2 ++ [.applyStatus configuredEnv]) := by
  apply (settled_by_later_report acceptingWorld "pf-1" _ .empty _ ?_).1
  · refine ⟨?_, ?_, True.intro⟩
    · intro s _
      rfl
    · intro s hs
      exact absurd hs (by simp [dispatches])
  · intro s
    simp [stageStatus]

/-- The plan is dispatched again while its slice still reads as failed, and the write-back of
a heartbeat settles the new attempt as failed. -/
theorem settled_by_leftover :
    ¬ EachStep (Board.next acceptingWorld "pf-1") (SettlesFresh acceptingWorld "pf-1")
      (Board.start failedCard (serve .empty [⟨none, 0, .event failedEvent⟩]))
      [.press ⟨configuredEnv, .dispatchStage .plan⟩, .write ⟨none, 1, .event attemptEvent⟩,
        .applyStatus configuredEnv] := by
  intro h
  have hclocks := h.2.2.1 .plan (by decide) (Or.inr (by decide))
  revert hclocks
  decide

end CFactory.Intake
