import CFactory.Intake.Effects

/-!
# A failed stage on the board

`card_intake.py:747–851`. The write-back has three writers: `_settle` writes the records,
`_advance` blocks the card or sends its next stage, and the work item's verdict is written
over the column last. This module finds when that last write leaves a failure visible.
-/

namespace CFactory.Intake

open CFactory.Base CFactory.Model CFactory.Cards CFactory.Actions CFactory.Status

/-- A card with a failed stage and nothing in flight sits in the blocked column. -/
def FailureShown (card : Card) : Prop :=
  HasFailed card → ¬ InFlight card → card.status = .blocked

instance (card : Card) : Decidable (FailureShown card) :=
  inferInstanceAs (Decidable (_ → _ → _))

/-- A stage is in flight and its slice reports no outcome. -/
def StaysInFlight (card : Card) (item : WorkItem) : Prop :=
  ∃ s, stageStatus card s = some .dispatched ∧ outcome item s = none

/-- A stage is recorded failed, or is in flight and its slice reports a failure. -/
def FailureReported (card : Card) (item : WorkItem) : Prop :=
  ∃ s, stageStatus card s = some .failed ∨
    (stageStatus card s = some .dispatched ∧ outcome item s = some .failed)

instance (card : Card) (item : WorkItem) : Decidable (StaysInFlight card item) :=
  Fintype.decidableExistsFintype

instance (card : Card) (item : WorkItem) : Decidable (FailureReported card item) :=
  Fintype.decidableExistsFintype

/-- A stage is in flight and its slice reports an outcome, which is settled first. -/
def OutcomeReported (card : Card) (item : WorkItem) : Prop :=
  ∃ s, stageStatus card s = some .dispatched ∧ outcome item s ≠ none

instance (card : Card) (item : WorkItem) : Decidable (OutcomeReported card item) :=
  Fintype.decidableExistsFintype

/-- A queued stage passes the checks of a send: it has a tier, the test stage has a build to
verify, and any stage but the plan has a project. -/
def MaySend (env : IntakeEnv) (card : Card) (item : WorkItem) (s : Stage) : Prop :=
  card.tier ≠ none ∧
  (s = .test → truthy card.correlationKey = true ∧
    (stageStatus card .code = some .done ∨
      (stageStatus card .code = some .dispatched ∧ outcome item .code = some .done))) ∧
  (s ≠ .plan → truthy (env.aifactoryProjectId card) = true)

/-- The next queued stage may be sent, and the upstream's answer, which comes after the write
of what is settled, does not accept it. -/
def NextRefused (w : World) (env : IntakeEnv) (item : WorkItem) (d : Desk) : Prop :=
  ∃ s, firstQueued d.card = some s ∧ MaySend env d.card item s ∧
    accepted (w.reply (if OutcomeReported d.card item then d.steps + 1 else d.steps)) = false

/-- The furthest slice that carries a status reports a failure, or none carries one. -/
def VerdictBlocks (item : WorkItem) : Prop :=
  ∀ x, furthest item stageOrder = some x → isFailureOrStuck (some x.2) = true

/-- The inputs on which the write-back leaves a failure visible. -/
def KeepsFailure (w : World) (env : IntakeEnv) (item : WorkItem) (d : Desk) : Prop :=
  StaysInFlight d.card item ∨ VerdictBlocks item ∨
    (¬ FailureReported d.card item ∧ ¬ NextRefused w env item d)

/-! ### Records after settling -/

/-- A stage is in flight after settling exactly if its slice reports no outcome. -/
theorem inFlight_settledDesk (w : World) (item : WorkItem) (d : Desk) :
    InFlight (settledDesk w item d).card ↔ StaysInFlight d.card item := by
  unfold InFlight StaysInFlight
  apply exists_congr
  intro s
  rw [stageStatus_settledDesk, settledStatus]
  by_cases hd : stageStatus d.card s = some .dispatched
  · rw [if_pos hd]
    unfold outcome
    split
    · simp
    · split <;> simp [hd]
  · rw [if_neg hd]
    simp [hd]

/-- A stage is recorded failed after settling exactly if it was, or reports a failure. -/
theorem hasFailed_settledDesk (w : World) (item : WorkItem) (d : Desk) :
    HasFailed (settledDesk w item d).card ↔ FailureReported d.card item := by
  unfold HasFailed FailureReported
  apply exists_congr
  intro s
  rw [stageStatus_settledDesk, settledStatus]
  by_cases hd : stageStatus d.card s = some .dispatched
  · rw [if_pos hd, hd]
    cases outcome item s <;> simp
  · rw [if_neg hd]
    simp [hd]

/-- Settling touches no queued stage. -/
theorem firstQueued_settledDesk (w : World) (item : WorkItem) (d : Desk) :
    firstQueued (settledDesk w item d).card = firstQueued d.card := by
  unfold firstQueued
  congr 1
  funext s
  rw [stageStatus_settledDesk, settledStatus]
  by_cases hd : stageStatus d.card s = some .dispatched
  · rw [if_pos hd, hd]
    unfold outcome
    split
    · simp
    · split <;> simp
  · rw [if_neg hd]

/-- A first queued stage is queued. -/
theorem queued_of_firstQueued {card : Card} {s : Stage} (h : firstQueued card = some s) :
    stageStatus card s = some .queued := by
  simpa using List.find?_some h

/-- Settling is an operation exactly if it has something to settle. -/
theorem steps_settledDesk (w : World) (item : WorkItem) (d : Desk) :
    (settledDesk w item d).steps =
      if OutcomeReported d.card item then d.steps + 1 else d.steps := by
  have hany : (SEQUENCE.any fun s ↦ (settleUpdates d.card item s).isSome) = true ↔
      OutcomeReported d.card item := by
    rw [any_SEQUENCE, OutcomeReported]
    apply exists_congr
    intro s
    have h := settleUpdates_eq d.card item s
    by_cases hd : stageStatus d.card s = some .dispatched
    · rw [if_pos hd] at h
      rw [← h]
      cases settleUpdates d.card item s <;> simp [hd]
    · rw [if_neg hd, Option.map_eq_none_iff] at h
      simp [h, hd]
  unfold settledDesk
  by_cases hs : OutcomeReported d.card item
  · rw [if_pos (hany.mpr hs), if_pos hs]
  · rw [if_neg (mt hany.mp hs), if_neg hs]

/-- After settling a queued stage may be sent exactly if it passes the checks. -/
theorem sendable_settledDesk (w : World) (env : IntakeEnv) {item : WorkItem} {d : Desk}
    {s : Stage} (h : firstQueued d.card = some s) :
    Sendable env (settledDesk w item d).card s ↔ MaySend env d.card item s := by
  have hqueued := queued_of_firstQueued h
  have hstatus : stageStatus (settledDesk w item d).card s = some .queued := by
    simp [settledStatus, hqueued]
  have hcode : stageStatus (settledDesk w item d).card .code = some .done ↔
      stageStatus d.card .code = some .done ∨
        (stageStatus d.card .code = some .dispatched ∧ outcome item .code = some .done) := by
    rw [stageStatus_settledDesk, settledStatus]
    by_cases hd : stageStatus d.card .code = some .dispatched
    · rw [if_pos hd, hd]
      cases outcome item .code <;> simp
    · rw [if_neg hd]
      simp [hd]
  rw [sendable_iff, hstatus, hcode]
  simp [MaySend]

/-- The refusal of the next stage, as the settled card meets it. -/
theorem nextRefused_iff (w : World) (env : IntakeEnv) (item : WorkItem) (d : Desk) :
    NextRefused w env item d ↔ ∃ s, firstQueued d.card = some s ∧
      Sendable env (settledDesk w item d).card s ∧
        accepted (w.reply (settledDesk w item d).steps) = false := by
  unfold NextRefused
  rw [steps_settledDesk]
  apply exists_congr
  intro s
  constructor
  · rintro ⟨hs, hmay, hreply⟩
    exact ⟨hs, (sendable_settledDesk w env hs).mpr hmay, hreply⟩
  · rintro ⟨hs, hsend, hreply⟩
    exact ⟨hs, (sendable_settledDesk w env hs).mp hsend, hreply⟩

/-! ### The card after advancing -/

/-- With a stage in flight nothing advances. -/
theorem advancedDesk_of_inFlight {w : World} {env : IntakeEnv} {d : Desk}
    (h : InFlight d.card) : advancedDesk w env d = d := by
  rw [advancedDesk, if_pos h]

/-- A failed stage blocks the card and keeps the records. -/
theorem advancedDesk_of_failed {w : World} {env : IntakeEnv} {d : Desk}
    (hf : ¬ InFlight d.card) (hx : HasFailed d.card) :
    (advancedDesk w env d).card =
      StageChanges.apply { status := some .blocked } (w.clock d.steps) d.card := by
  rw [advancedDesk, if_neg hf, if_pos hx]

/-- Without a failed stage the next queued one, if any, is dispatched. -/
theorem advancedDesk_of_clear {w : World} {env : IntakeEnv} {d : Desk}
    (hf : ¬ InFlight d.card) (hx : ¬ HasFailed d.card) :
    (advancedDesk w env d).card =
      match firstQueued d.card with
      | none => d.card
      | some nxt => (dispatchedDesk w env nxt d).card := by
  rw [advancedDesk, if_neg hf, if_neg hx]
  cases firstQueued d.card <;> rfl

/-- Advancing changes no record but that of a queued stage. -/
theorem stageStatus_advancedDesk {w : World} {env : IntakeEnv} {d : Desk} {s : Stage}
    (h : stageStatus d.card s ≠ some .queued) :
    stageStatus (advancedDesk w env d).card s = stageStatus d.card s := by
  by_cases hf : InFlight d.card
  · rw [advancedDesk_of_inFlight hf]
  · by_cases hx : HasFailed d.card
    · rw [advancedDesk_of_failed hf hx, stageStatus_apply _ rfl]
    · rw [advancedDesk_of_clear hf hx]
      cases hq : firstQueued d.card with
      | none => rfl
      | some nxt =>
        have hne : s ≠ nxt := by
          rintro rfl
          exact h (queued_of_firstQueued hq)
        dsimp only
        rw [dispatchedDesk]
        split
        · rw [stageStatus_sendChanges, Function.update_of_ne hne]
        · rfl

/-- The write-back records what the slice of a stage in flight reports, or leaves it in flight. -/
theorem stageStatus_writtenDesk_of_dispatched (w : World) (env : IntakeEnv) (item : WorkItem)
    {d : Desk} {s : Stage} (hs : stageStatus d.card s = some .dispatched) :
    stageStatus (writtenDesk w env item d).card s = (outcome item s).or (some .dispatched) := by
  have hsettled : stageStatus (settledDesk w item d).card s =
      (outcome item s).or (some .dispatched) := by
    rw [stageStatus_settledDesk, settledStatus, if_pos hs]
  have hqueued : stageStatus (settledDesk w item d).card s ≠ some .queued := by
    rw [hsettled, outcome]
    split
    · simp
    · split <;> simp
  rw [stageStatus_writtenDesk, stageStatus_advancedDesk hqueued, hsettled]

/-- Where advancing leaves a failure with nothing in flight, the card is blocked, and the
failure was reported or the next stage was refused upstream. -/
theorem failed_advancedDesk (w : World) (env : IntakeEnv) (d : Desk) :
    (HasFailed (advancedDesk w env d).card ∧ ¬ InFlight (advancedDesk w env d).card ↔
      ¬ InFlight d.card ∧ (HasFailed d.card ∨ ∃ s, firstQueued d.card = some s ∧
        Sendable env d.card s ∧ accepted (w.reply d.steps) = false)) ∧
    (HasFailed (advancedDesk w env d).card → ¬ InFlight (advancedDesk w env d).card →
      (advancedDesk w env d).card.status = .blocked) := by
  by_cases hf : InFlight d.card
  · rw [advancedDesk_of_inFlight hf]
    simp [hf]
  by_cases hx : HasFailed d.card
  · have hs := stageStatus_apply { status := some .blocked } rfl (w.clock d.steps) d.card
    rw [advancedDesk_of_failed hf hx]
    have hrec : ∀ c : Card, stageStatus c = stageStatus d.card →
        (HasFailed c ↔ HasFailed d.card) ∧ (InFlight c ↔ InFlight d.card) := by
      intro c hc
      simp only [HasFailed, InFlight, hc, and_self]
    obtain ⟨hfail, hin⟩ := hrec _ hs
    rw [hfail, hin]
    exact ⟨by simp [hf, hx], fun _ _ ↦ rfl⟩
  rw [advancedDesk_of_clear hf hx]
  cases hq : firstQueued d.card with
  | none => simp [hf, hx]
  | some nxt =>
    by_cases hsend : Sendable env d.card nxt
    · have hcard : (dispatchedDesk w env nxt d).card =
          (sendChanges env d.card nxt (w.reply d.steps)).apply (w.clock (d.steps + 1)) d.card := by
        rw [dispatchedDesk, if_pos hsend]
      simp only [hcard]
      cases ha : accepted (w.reply d.steps) with
      | true =>
        have hin : InFlight ((sendChanges env d.card nxt (w.reply d.steps)).apply
            (w.clock (d.steps + 1)) d.card) := ⟨nxt, by simp [ha]⟩
        simp [hin, hx]
      | false =>
        have hfail : HasFailed ((sendChanges env d.card nxt (w.reply d.steps)).apply
            (w.clock (d.steps + 1)) d.card) := ⟨nxt, by simp [ha]⟩
        have hin : ¬ InFlight ((sendChanges env d.card nxt (w.reply d.steps)).apply
            (w.clock (d.steps + 1)) d.card) := by
          rintro ⟨s, hs⟩
          rw [stageStatus_sendChanges, Function.update_apply] at hs
          split at hs
          · simp [ha] at hs
          · exact hf ⟨s, hs⟩
        rw [status_sendChanges, ha]
        simp [hin, hfail, hf, hsend]
    · have hcard : (dispatchedDesk w env nxt d).card = d.card := by
        rw [dispatchedDesk, if_neg hsend]
      simp only [hcard]
      simp [hf, hx, hsend]

/-- A verdict other than blocked is exactly a furthest status that reports no failure. -/
theorem verdict_blocks_iff (item : WorkItem) (card : Card) :
    (verdict item card).getD .blocked = .blocked ↔ VerdictBlocks item := by
  unfold verdict cardStatusFor VerdictBlocks
  cases furthest item stageOrder with
  | none => simp
  | some x =>
    simp only [Option.map_some, Option.getD_some, Option.some.injEq, forall_eq']
    unfold columnFor
    by_cases hf : isFailureOrStuck (some x.2) = true
    · simp [hf]
    · simp only [hf]
      simp only [Bool.false_eq_true, ↓reduceIte, iff_false]
      split
      · split <;> simp
      · simp

/-- On one card the write-back leaves a failure visible exactly under the condition. -/
theorem failureShown_writtenDesk_iff (w : World) (env : IntakeEnv) (item : WorkItem) (d : Desk) :
    FailureShown (writtenDesk w env item d).card ↔ KeepsFailure w env item d := by
  have hrec : stageStatus (writtenDesk w env item d).card =
      stageStatus (advancedDesk w env (settledDesk w item d)).card :=
    stageStatus_writtenDesk w env item d
  obtain ⟨hiff, hblocked⟩ := failed_advancedDesk w env (settledDesk w item d)
  rw [inFlight_settledDesk, hasFailed_settledDesk, firstQueued_settledDesk] at hiff
  unfold FailureShown KeepsFailure
  rw [status_writtenDesk]
  simp only [HasFailed, InFlight, hrec]
  change (HasFailed _ → ¬ InFlight _ → _) ↔ _
  by_cases hboth : HasFailed (advancedDesk w env (settledDesk w item d)).card ∧
      ¬ InFlight (advancedDesk w env (settledDesk w item d)).card
  · have hcond := hiff.mp hboth
    rw [hblocked hboth.1 hboth.2, verdict_blocks_iff]
    have hr : FailureReported d.card item ∨ NextRefused w env item d :=
      hcond.2.imp_right (nextRefused_iff w env item d).mpr
    constructor
    · intro h
      exact Or.inr (Or.inl (h hboth.1 hboth.2))
    · rintro (h | h | h) _ _
      · exact absurd h hcond.1
      · exact h
      · exact absurd hr (not_or.mpr h)
  · have hcond := mt hiff.mpr hboth
    refine ⟨fun _ ↦ ?_, fun _ hx hf ↦ absurd ⟨hx, hf⟩ hboth⟩
    by_cases hs : StaysInFlight d.card item
    · exact Or.inl hs
    · refine Or.inr (Or.inr ?_)
      rw [← not_or]
      exact fun hr ↦ hcond ⟨hs, hr.imp_right (nextRefused_iff w env item d).mp⟩

/-! ### The write-back on a table -/

/-- The row that a card is joined by is stored under its primary key. -/
theorem stored_of_joinedRow {t : CardTable} {scope : Option String} {key : String} {r : CardRow}
    (ht : Keyed t) (hr : joinedRow t scope key = some r) : stored t r.id = some r.card :=
  stored_of_mem ht (joinedRow_spec hr).1

/-- The row that a card is joined by can be resolved through its card key. -/
theorem getRow_of_joinedRow {t : CardTable} {scope : Option String} {key : String} {r : CardRow}
    (hr : joinedRow t scope key = some r) : ∃ r', getRow t scope r.card.cardKey = some r' := by
  obtain ⟨hmem, hvis, -⟩ := joinedRow_spec hr
  rw [← Option.isSome_iff_exists, getRow, List.find?_isSome]
  exact ⟨r, hmem, by simp [hvis]⟩

/-- Under distinct primary keys a row is determined by its key. -/
theorem row_eq_of_id {t : CardTable} (ht : Keyed t) {r r' : CardRow} (hr : r ∈ t) (hr' : r' ∈ t)
    (hid : r.id = r'.id) : r = r' := by
  have hcard : r.card = r'.card := by
    have h := stored_of_mem ht hr
    rw [hid, stored_of_mem ht hr'] at h
    exact (Option.some.inj h).symm
  cases r
  cases r'
  simp_all

/-- What `apply_status` leaves in the joined row: the desk's card where the store resolves
the card key to that row, and the row as it was where it resolves it to another one. -/
theorem stored_applyStatus (w : World) (env : IntakeEnv) (item : WorkItem) {t : CardTable}
    {scope : Option String} {r : CardRow} (n : Nat) (ht : Keyed t)
    (hr : joinedRow t scope item.correlationKey = some r) :
    stored (Prog.run (tableHandler w scope) (applyStatus env item) ⟨t, n⟩).2.cards r.id =
      if getRow t scope r.card.cardKey = some r then
        some (writtenDesk w env item ⟨r.card, n + 1⟩).card
      else some r.card := by
  have hstart : Prog.run (tableHandler w scope) (applyStatus env item) ⟨t, n⟩ =
      Prog.run (tableHandler w scope) (writeBack env r.card item) ⟨t, n + 1⟩ := by
    rw [applyStatus, Prog.perform_bind, Prog.run_op]
    simp only [tableHandler, getByCorrelationKey, hr, Option.map_some]
  obtain ⟨r', hr'⟩ := getRow_of_joinedRow hr
  have hkey := cardKey_of_getRow hr'
  obtain ⟨-, hserves⟩ := run_table_eq_desk w ht hr' (n + 1) (writeBack env r.card item)
    (onKey_writeBack w env r.card item ⟨r'.card, n + 1⟩ hkey)
  rw [hstart]
  by_cases hsame : getRow t scope r.card.cardKey = some r
  · obtain rfl : r = r' := Option.some.inj (hsame.symm.trans hr')
    rw [if_pos hsame, ← run_writeBack]
    have hrow := hserves.row
    exact stored_of_mem hserves.keyed (List.mem_of_find?_eq_some hrow)
  · rw [if_neg hsame, hserves.frame, stored_of_joinedRow ht hr]
    intro hid
    obtain rfl := row_eq_of_id ht (joinedRow_spec hr).1 (List.mem_of_find?_eq_some hr') hid
    exact hsame hr'

/-- After `apply_status` the joined card shows its failure in exactly these cases: the store
resolves its card key to it and the write-back's condition holds, or the store resolves the
key to another row and the failure was shown before. -/
theorem failureShown_applyStatus_iff (w : World) (env : IntakeEnv) (item : WorkItem)
    (t : CardTable) (scope : Option String) (r : CardRow) (n : Nat) (ht : Keyed t)
    (hr : joinedRow t scope item.correlationKey = some r) :
    ∃ c, stored (Prog.run (tableHandler w scope) (applyStatus env item) ⟨t, n⟩).2.cards r.id =
        some c ∧
      (FailureShown c ↔
        if getRow t scope r.card.cardKey = some r then KeepsFailure w env item ⟨r.card, n + 1⟩
        else FailureShown r.card) := by
  rw [stored_applyStatus w env item n ht hr]
  by_cases hsame : getRow t scope r.card.cardKey = some r
  · rw [if_pos hsame, if_pos hsame]
    exact ⟨_, rfl, failureShown_writtenDesk_iff w env item ⟨r.card, n + 1⟩⟩
  · rw [if_neg hsame, if_neg hsame]
    exact ⟨_, rfl, Iff.rfl⟩

/-! ### A completed plan over a refused build -/

/-- A card whose sequence waits for its plan, with the code stage next. -/
def plannedCard : Card :=
  { cardKey := "C-1", title := "Add a health check", tier := some .medium
    status := .inProgress, correlationKey := some "pf-1"
    stageRuns := fun s ↦
      match s with
      | .plan => some { service := some .pfactory, status := some .dispatched }
      | .code => some { service := some .aifactory, status := some .queued }
      | .test => some { service := some .tfactory, status := some .queued } }

/-- Its work item once the plan is reported complete. -/
def plannedItem : WorkItem :=
  { correlationKey := "pf-1"
    slice := fun s ↦
      match s with
      | .pfactory => { status := some "completed" }
      | _ => .column }

/-- Every request is answered with an internal error. -/
def failingWorld : World := ⟨fun _ ↦ .response 500 (.other "error"), fun n ↦ n⟩

/-- Every request is accepted. -/
def acceptingWorld : World := ⟨fun _ ↦ .response 200 (.other ""), fun n ↦ n⟩

/-- An intake project is configured for every card. -/
def configuredEnv : IntakeEnv := { gitProject := fun _ _ ↦ some "proj" }

/-- The instance of the condition on a table that holds the card: the plan settles, the
refused build is recorded failed, and the completed plan's verdict masks it. -/
theorem plannedCard_condition :
    Keyed [⟨1, plannedCard⟩] ∧
    joinedRow [⟨1, plannedCard⟩] (some "default") plannedItem.correlationKey =
      some ⟨1, plannedCard⟩ ∧
    ∃ c, stored (Prog.run (tableHandler failingWorld (some "default"))
        (applyStatus configuredEnv plannedItem) ⟨[⟨1, plannedCard⟩], 0⟩).2.cards 1 = some c ∧
      (FailureShown c ↔
        if getRow [⟨1, plannedCard⟩] (some "default") plannedCard.cardKey =
            some ⟨1, plannedCard⟩ then
          KeepsFailure failingWorld configuredEnv plannedItem ⟨plannedCard, 0 + 1⟩
        else FailureShown plannedCard) :=
  ⟨by simp [Keyed], by decide, failureShown_applyStatus_iff failingWorld configuredEnv plannedItem
    [⟨1, plannedCard⟩] (some "default") ⟨1, plannedCard⟩ 0 (by simp [Keyed]) (by decide)⟩

/-- The plan completes, the code stage is refused with HTTP 500 and recorded failed, and the
card is left in progress. -/
theorem refused_build_is_masked :
    ∃ c, stored (Prog.run (tableHandler failingWorld (some "default"))
        (applyStatus configuredEnv plannedItem) ⟨[⟨1, plannedCard⟩], 0⟩).2.cards 1 = some c ∧
      stageStatus c .code = some .failed ∧ c.status = .inProgress ∧ ¬ FailureShown c := by
  refine ⟨_, rfl, ?_⟩
  decide

end CFactory.Intake
