import CFactory.Intake.Blocked

/-!
# A stage its upstream has given up on

`card_intake.py:747–851`, `status_taxonomy.py:94–109`. The write-back settles a stage as failed
on a failure or a stuck marker; a stage is dead on a stuck or a stalled marker. This module finds
when a dead stage in flight is recorded failed, sends nothing and blocks its card.
-/

namespace CFactory.Intake

open CFactory.Base CFactory.Model CFactory.Cards CFactory.Actions CFactory.Status

/-- The operation sends a stage to its upstream. -/
def IntakeOp.isRequest : IntakeOp → Bool
  | .request _ _ => true
  | _ => false

/-- After `apply_status` the row's card records the stage as failed and is blocked, and no
stage was sent. -/
def DeadStageBlocks (w : World) (env : IntakeEnv) (scope : Option String) (item : WorkItem)
    (t : CardTable) (n : Nat) (id : Nat) (s : Stage) : Prop :=
  (∃ c, stored (Prog.run (tableHandler w scope) (applyStatus env item) ⟨t, n⟩).2.cards id =
      some c ∧ stageStatus c s = some .failed ∧ c.status = .blocked) ∧
    ∀ x ∈ Prog.trace (tableHandler w scope) (applyStatus env item) ⟨t, n⟩, x.2.isRequest = false

/-! ### The furthest slice -/

/-- A work item with a status in a slice of the order has a furthest one. -/
theorem furthest_isSome {item : WorkItem} {service : Service} {status : String}
    {order : List Service} (hmem : service ∈ order)
    (hstatus : (item.slice service).status = some status) (hne : status ≠ "") :
    (furthest item order).isSome = true := by
  induction order with
  | nil => exact absurd hmem List.not_mem_nil
  | cons first rest ih =>
    rw [furthest]
    split
    · next hnone =>
      cases List.mem_cons.mp hmem with
      | inl h => rw [h, hnone] at hstatus; cases hstatus
      | inr h => exact ih h
    · next text hsome =>
      split
      · next hempty =>
        cases List.mem_cons.mp hmem with
        | inl h =>
          rw [h, hsome] at hstatus
          exact absurd ((Option.some.inj hstatus).symm.trans hempty) hne
        | inr h => exact ih h
      · rfl

/-- Every service has a place in the order. -/
theorem mem_stageOrder (service : Service) : service ∈ stageOrder := by
  cases service <;> decide

/-- A dead slice carries a status. -/
theorem status_of_dead {status : Option String} (h : isDeadStage status = true) :
    ∃ text, status = some text ∧ text ≠ "" := by
  cases status with
  | none => cases h
  | some text =>
    refine ⟨text, rfl, ?_⟩
    intro hempty
    rw [hempty] at h
    exact absurd h (by decide)

/-- With a status in some slice the card is blocked exactly if the furthest one reports a
failure. -/
theorem blocked_writtenDesk_iff (w : World) (env : IntakeEnv) {item : WorkItem}
    (h : (furthest item stageOrder).isSome = true) (d : Desk) :
    (writtenDesk w env item d).card.status = .blocked ↔ VerdictBlocks item := by
  rw [status_writtenDesk, ← verdict_blocks_iff item
    (advancedDesk w env (settledDesk w item d)).card]
  unfold verdict cardStatusFor
  cases hf : furthest item stageOrder with
  | none => rw [hf] at h; cases h
  | some x => rw [Option.map_some, Option.getD_some, Option.getD_some]

/-! ### The records -/

/-- A stage in flight is recorded failed exactly if its slice's status settles as a failure. -/
theorem recorded_failed_iff (w : World) (env : IntakeEnv) (item : WorkItem) {d : Desk} {s : Stage}
    (hs : stageStatus d.card s = some .dispatched) :
    stageStatus (writtenDesk w env item d).card s = some .failed ↔
      isFailureOrStuck (item.slice s.service).status = true := by
  rw [stageStatus_writtenDesk_of_dispatched w env item hs, outcome]
  cases hfail : isFailureOrStuck (item.slice s.service).status with
  | true => simp
  | false =>
    cases isDone (item.slice s.service).status with
    | true => simp
    | false => simp

/-! ### What is performed -/

/-- Where settling leaves a failure the write-back sends no stage. -/
theorem writeBack_sends_nothing (w : World) (env : IntakeEnv) {item : WorkItem} {d : Desk}
    (hfailed : HasFailed (settledDesk w item d).card) :
    ∀ x ∈ Prog.trace (deskHandler w) (writeBack env d.card item) d, x.2.isRequest = false := by
  intro x hx
  rw [trace_writeBack, trace_settle, trace_advance, if_pos hfailed, List.mem_append,
    List.mem_append] at hx
  rcases hx with hx | hx | hx
  · split at hx
    · cases List.mem_singleton.mp hx
      rfl
    · cases hx
  · split at hx
    · cases hx
    · cases List.mem_singleton.mp hx
      rfl
  · unfold columnTrace at hx
    split at hx
    · cases hx
    · split at hx
      · cases hx
      · cases List.mem_singleton.mp hx
        rfl

/-- What `apply_status` performs on a table is its lookup, and on the row that the store
resolves the card key to what the write-back performs on that row's card. -/
theorem trace_applyStatus (w : World) (env : IntakeEnv) (item : WorkItem) {t : CardTable}
    {scope : Option String} {r : CardRow} (n : Nat) (ht : Keyed t)
    (hr : joinedRow t scope item.correlationKey = some r)
    (hsame : getRow t scope r.card.cardKey = some r) :
    (Prog.trace (tableHandler w scope) (applyStatus env item) ⟨t, n⟩).map Prod.snd =
      .getByCorrelationKey item.correlationKey ::
        (Prog.trace (deskHandler w) (writeBack env r.card item) ⟨r.card, n + 1⟩).map Prod.snd := by
  have hstart : Prog.trace (tableHandler w scope) (applyStatus env item) ⟨t, n⟩ =
      (⟨t, n⟩, .getByCorrelationKey item.correlationKey) ::
        Prog.trace (tableHandler w scope) (writeBack env r.card item) ⟨t, n + 1⟩ := by
    rw [applyStatus, Prog.perform_bind, Prog.trace_op]
    simp only [tableHandler, getByCorrelationKey, hr, Option.map_some]
  rw [hstart, List.map_cons]
  congr 1
  exact Prog.trace_sim (Serves t scope r.card.cardKey r.id) (tableHandler_refines w) _
    ⟨t, n + 1⟩ ⟨r.card, n + 1⟩ ⟨hsame, rfl, ht, fun _ _ ↦ rfl⟩
    (onKey_writeBack w env r.card item ⟨r.card, n + 1⟩ rfl)

/-! ### Dead stages -/

/-- A stage in flight whose slice is dead is recorded failed, sends nothing further and blocks
its card exactly if the store resolves the card key to the joined row, the slice's status also
settles as a failure, and the furthest slice that carries a status reports one. -/
theorem dead_stage_blocks_iff (w : World) (env : IntakeEnv) (item : WorkItem) (t : CardTable)
    (scope : Option String) (r : CardRow) (n : Nat) (s : Stage) (ht : Keyed t)
    (hr : joinedRow t scope item.correlationKey = some r)
    (hs : stageStatus r.card s = some .dispatched)
    (hdead : isDeadStage (item.slice s.service).status = true) :
    DeadStageBlocks w env scope item t n r.id s ↔
      getRow t scope r.card.cardKey = some r ∧
        isFailureOrStuck (item.slice s.service).status = true ∧ VerdictBlocks item := by
  obtain ⟨text, htext, hne⟩ := status_of_dead hdead
  have hfurthest := furthest_isSome (mem_stageOrder s.service) htext hne
  unfold DeadStageBlocks
  rw [stored_applyStatus w env item n ht hr]
  by_cases hsame : getRow t scope r.card.cardKey = some r
  · rw [if_pos hsame]
    have hrecord := recorded_failed_iff w env item (d := ⟨r.card, n + 1⟩) hs
    have hcolumn := blocked_writtenDesk_iff w env hfurthest ⟨r.card, n + 1⟩
    constructor
    · rintro ⟨⟨c, hc, hfailed, hblocked⟩, -⟩
      cases hc
      exact ⟨hsame, hrecord.mp hfailed, hcolumn.mp hblocked⟩
    · rintro ⟨-, hfail, hverdict⟩
      have hsettled : HasFailed (settledDesk w item ⟨r.card, n + 1⟩).card := by
        rw [hasFailed_settledDesk]
        refine ⟨s, .inr ⟨hs, ?_⟩⟩
        rw [outcome, if_pos hfail]
      refine ⟨⟨_, rfl, hrecord.mpr hfail, hcolumn.mpr hverdict⟩, ?_⟩
      intro x hx
      have hop : x.2 ∈ (Prog.trace (tableHandler w scope) (applyStatus env item)
          ⟨t, n⟩).map Prod.snd := List.mem_map_of_mem hx
      rw [trace_applyStatus w env item n ht hr hsame, List.mem_cons] at hop
      cases hop with
      | inl hread => rw [hread]; rfl
      | inr hdesk =>
        obtain ⟨y, hy, hxy⟩ := List.mem_map.mp hdesk
        rw [← hxy]
        exact writeBack_sends_nothing w env hsettled y hy
  · rw [if_neg hsame]
    constructor
    · rintro ⟨⟨c, hc, hfailed, -⟩, -⟩
      cases hc
      rw [hs] at hfailed
      cases hfailed
    · exact fun h ↦ absurd h.1 hsame

/-! ### A stalled build -/

/-- A card whose build is in flight. -/
def buildingCard : Card :=
  { cardKey := "C-1", title := "Add a health check", tier := some .medium
    status := .inProgress, correlationKey := some "af-1"
    stageRuns := fun s ↦
      match s with
      | .plan => some { service := some .pfactory, status := some .done }
      | .code => some { service := some .aifactory, status := some .dispatched }
      | .test => some { service := some .tfactory, status := some .queued } }

/-- Its work item once the build reports a status. -/
def buildingItem (status : String) : WorkItem :=
  { correlationKey := "af-1"
    slice := fun s ↦
      match s with
      | .aifactory => { status := some status }
      | _ => {} }

/-- A stuck build is recorded failed and blocks its card. -/
theorem stuck_build_blocks :
    DeadStageBlocks acceptingWorld configuredEnv (some "default") (buildingItem "agent_stuck")
      [⟨1, buildingCard⟩] 0 1 .code :=
  (dead_stage_blocks_iff acceptingWorld configuredEnv (buildingItem "agent_stuck")
    [⟨1, buildingCard⟩] (some "default") ⟨1, buildingCard⟩ 0 .code (by simp [Keyed]) (by decide)
    (by decide) (by decide)).mpr ⟨by decide, by decide, by
      intro x hx
      cases hx
      decide⟩

/-- A stalled build stays in flight, and its card in progress. -/
theorem stalled_build_hangs :
    (Keyed [⟨1, buildingCard⟩] ∧
      joinedRow [⟨1, buildingCard⟩] (some "default") "af-1" = some ⟨1, buildingCard⟩ ∧
      stageStatus buildingCard .code = some .dispatched ∧
      isDeadStage ((buildingItem "watchdog_stalled").slice .aifactory).status = true) ∧
    ¬DeadStageBlocks acceptingWorld configuredEnv (some "default") (buildingItem "watchdog_stalled")
      [⟨1, buildingCard⟩] 0 1 .code := by
  refine ⟨⟨by simp [Keyed], by decide, by decide, by decide⟩, ?_⟩
  rintro ⟨⟨c, hc, hfailed, -⟩, -⟩
  cases hc
  exact absurd hfailed (by decide)

end CFactory.Intake
