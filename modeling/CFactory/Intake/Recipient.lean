import CFactory.Cards.Index
import CFactory.Intake.Blocked

/-!
# Which card a write-back reaches

`card_intake.py:477–484,747–851`, `cards.py:769–827`. A write-back finds its card by correlation
key and writes through the card key. Human keys are unique within a tenant only, so on a store
without a tenant filter the two may name different rows.
-/

namespace CFactory.Intake

open CFactory.Base CFactory.Model CFactory.Cards CFactory.Actions CFactory.Status

/-- No card is changed but the one joined to the work item. -/
def OthersKept (scope : Option String) (item : WorkItem) (t t' : CardTable) : Prop :=
  ∀ id, (∀ r, joinedRow t scope item.correlationKey = some r → r.id ≠ id) →
    stored t' id = stored t id

/-! ## When nothing is written -/

/-- The card is in the column its work item maps to, if it maps to one. -/
def InColumn (item : WorkItem) (card : Card) : Prop :=
  ∀ status, cardStatusFor item (pendingStages card ≠ []) = some status → status = card.status

/-- `_advance` writes nothing: a stage is in flight, or none has failed and no queued stage is
next or the next one may not be sent. -/
def Rests (env : IntakeEnv) (card : Card) : Prop :=
  (SEQUENCE.any fun s ↦ stageStatus card s = some .dispatched) = true ∨
    (SEQUENCE.any fun s ↦ stageStatus card s = some .failed) = false ∧
      ∀ nxt, (SEQUENCE.find? fun s ↦ stageStatus card s = some .queued) = some nxt →
        ¬Sendable env card nxt

/-- The card `_advance` returns where it writes nothing: the one in hand, or after a queued
stage was tried the one its key resolves to. -/
def inHand (card held : Card) : Card :=
  if SEQUENCE.any fun s ↦ stageStatus card s = some .dispatched then card
  else
    match SEQUENCE.find? fun s ↦ stageStatus card s = some .queued with
    | none => card
    | some _ => held

/-- A write-back of the joined card has nothing to write, where its key resolves to `held`: no
stage in flight has ended, the sequence rests, and the column is the mapped one. -/
def Idle (env : IntakeEnv) (item : WorkItem) (card held : Card) : Prop :=
  (∀ s, settleUpdates card item s = none) ∧ Rests env card ∧ InColumn item (inHand card held)

/-- The desk's card carries a reading of the clock. -/
def Stamped (w : World) (d : Desk) : Prop := ∃ n, d.card.updatedAt = w.clock n

/-- A stamped card stays stamped. -/
theorem Stamped.run {w : World} {d : Desk} (h : Stamped w d) {α : Type} (p : IntakeM α) :
    Stamped w (Prog.run (deskHandler w) p d).2 := by
  induction p generalizing d with
  | pure a => exact h
  | op o next ih =>
    apply ih
    cases o with
    | update key ch =>
      rw [deskHandler]
      split
      · exact ⟨d.steps, rfl⟩
      · exact h
    | _ => exact h

/-- An update under the card's key stamps it. -/
theorem stamped_updateCard (w : World) {card : Card} {d : Desk}
    (hkey : d.card.cardKey = card.cardKey) (ch : StageChanges) :
    Stamped w (Prog.run (deskHandler w) (updateCard card.cardKey ch) d).2 := by
  show Stamped w (deskHandler w (.update card.cardKey ch) d).2
  rw [← hkey, deskHandler_update]
  exact ⟨d.steps, rfl⟩

/-- So does one whose answer falls back on the card in hand. -/
theorem stamped_update (w : World) {card : Card} {d : Desk} (hkey : d.card.cardKey = card.cardKey)
    (ch : StageChanges) :
    Stamped w (Prog.run (deskHandler w)
      (do let stored ← updateCard card.cardKey ch; return stored.getD card) d).2 := by
  rw [Prog.run_bind]
  exact (stamped_updateCard w hkey ch).run _

/-! ## The three writes -/

/-- `_settle` without a stage to settle returns the card in hand. -/
theorem run_settle_none {w : World} {item : WorkItem} {card : Card} {d : Desk}
    (h : ∀ s, settleUpdates card item s = none) :
    Prog.run (deskHandler w) (settle card item) d = (card, d) := by
  have hnone : (SEQUENCE.any fun s ↦ (settleUpdates card item s).isSome) = false := by
    rw [List.any_eq_false]
    intro s _
    simp [h s]
  simp only [settle, hnone, Bool.false_eq_true, if_false, Prog.run_pure]

/-- `_settle` with a stage to settle writes. -/
theorem stamped_settle {w : World} {item : WorkItem} {card : Card} {d : Desk}
    (hkey : d.card.cardKey = card.cardKey) (h : ¬∀ s, settleUpdates card item s = none) :
    Stamped w (Prog.run (deskHandler w) (settle card item) d).2 := by
  have hsome : (SEQUENCE.any fun s ↦ (settleUpdates card item s).isSome) = true := by
    obtain ⟨s, hs⟩ := not_forall.mp h
    rw [any_SEQUENCE]
    exact ⟨s, Option.isSome_iff_ne_none.mpr hs⟩
  simp only [settle, hsome, if_true]
  exact stamped_update w hkey _

/-- A dispatch that is sent writes. -/
theorem stamped_dispatchStage {w : World} {env : IntakeEnv} {card : Card} {stage : Stage} {d : Desk}
    (hkey : d.card.cardKey = card.cardKey) (h : Sendable env card stage) :
    Stamped w (Prog.run (deskHandler w) (dispatchStage env card stage) d).2 := by
  have hu := deskHandler_update w ⟨d.card, d.steps + 1⟩
  rw [dispatchStage_of_sendable h, Prog.run_op, deskHandler_request, Prog.run_op, ← hkey, hu]
  exact ⟨d.steps + 1, rfl⟩

/-- `_advance` at rest returns the card that `inHand` names. -/
theorem run_advance_rests {w : World} {env : IntakeEnv} {card : Card} {d : Desk}
    (hkey : d.card.cardKey = card.cardKey) (h : Rests env card) :
    ∃ steps, Prog.run (deskHandler w) (advance env card) d =
      (inHand card d.card, ⟨d.card, steps⟩) := by
  unfold advance inHand
  cases hflight : SEQUENCE.any fun s ↦ stageStatus card s = some .dispatched with
  | true => exact ⟨d.steps, rfl⟩
  | false =>
    obtain ⟨hfailed, hnext⟩ := h.resolve_left (by rw [hflight]; exact Bool.false_ne_true)
    simp only [Bool.false_eq_true, if_false, hfailed]
    cases hqueued : SEQUENCE.find? fun s ↦ stageStatus card s = some .queued with
    | none => exact ⟨d.steps, rfl⟩
    | some nxt =>
      obtain ⟨result, hresult⟩ := dispatchStage_of_not_sendable (hnext nxt hqueued)
      simp only [hresult, Prog.pure_bind]
      have hget : ∀ n, deskHandler w (.get card.cardKey) ⟨d.card, n⟩ =
          (some d.card, ⟨d.card, n + 1⟩) := by
        intro n
        rw [← hkey]
        exact deskHandler_get w ⟨d.card, n⟩
      split
      · refine ⟨d.steps + 2, ?_⟩
        simp only [Prog.perform_bind, Prog.run_op, deskHandler_report, hget, Prog.run_pure,
          Option.getD_some]
      · refine ⟨d.steps + 1, ?_⟩
        have hread := hget d.steps
        simp only [Prog.perform_bind, Prog.run_op, hread, Prog.run_pure, Option.getD_some]

/-- `_advance` writes where it does not rest. -/
theorem stamped_advance {w : World} {env : IntakeEnv} {card : Card} {d : Desk}
    (hkey : d.card.cardKey = card.cardKey) (h : ¬Rests env card) :
    Stamped w (Prog.run (deskHandler w) (advance env card) d).2 := by
  rw [Rests, not_or, Bool.not_eq_true] at h
  obtain ⟨hflight, hnext⟩ := h
  unfold advance
  simp only [hflight, Bool.false_eq_true, if_false]
  cases hfailed : SEQUENCE.any fun s ↦ stageStatus card s = some .failed with
  | true => exact stamped_update w hkey _
  | false =>
    simp only [hfailed, true_and, not_forall, not_not] at hnext
    obtain ⟨nxt, hqueued, hsend⟩ := hnext
    simp only [Bool.false_eq_true, if_false, hqueued, Prog.run_bind]
    exact (stamped_dispatchStage hkey hsend).run _

/-- A write-back that is not idle writes the card its key resolves to, whatever card it
joined. -/
theorem stamped_writeBack (w : World) {env : IntakeEnv} {item : WorkItem} {card : Card} {d : Desk}
    (hkey : d.card.cardKey = card.cardKey) (h : ¬Idle env item card d.card) :
    Stamped w (Prog.run (deskHandler w) (writeBack env card item) d).2 := by
  rw [writeBack, Prog.run_bind]
  by_cases hsettle : ∀ s, settleUpdates card item s = none
  · rw [run_settle_none hsettle, Prog.run_bind]
    by_cases hrests : Rests env card
    · obtain ⟨steps, hadvance⟩ := run_advance_rests (w := w) hkey hrests
      have hcolumn : ¬InColumn item (inHand card d.card) := fun hin ↦ h ⟨hsettle, hrests, hin⟩
      simp only [InColumn, not_forall] at hcolumn
      obtain ⟨status, hstatus, hne⟩ := hcolumn
      simp only [hadvance, hstatus, if_neg hne]
      exact stamped_updateCard w (d := ⟨d.card, steps⟩) hkey _
    · exact (stamped_advance hkey hrests).run _
  · exact (stamped_settle hkey hsettle).run _

/-- An idle write-back leaves the card its key resolves to. -/
theorem run_writeBack_idle (w : World) {env : IntakeEnv} {item : WorkItem} {card : Card} {d : Desk}
    (hkey : d.card.cardKey = card.cardKey) (h : Idle env item card d.card) :
    (Prog.run (deskHandler w) (writeBack env card item) d).2.card = d.card := by
  obtain ⟨hsettle, hrests, hcolumn⟩ := h
  obtain ⟨steps, hadvance⟩ := run_advance_rests (w := w) hkey hrests
  rw [writeBack, Prog.run_bind, run_settle_none hsettle, Prog.run_bind, hadvance]
  simp only
  cases hstatus : cardStatusFor item (pendingStages (inHand card d.card) ≠ []) with
  | none =>
    simp only
    split <;> rfl
  | some status =>
    simp only [if_pos (hcolumn status hstatus)]
    split <;> rfl

/-! ## The card that is reached -/

/-- A write-back changes no card but the joined one exactly if the joined card's key resolves
to the joined card, or there is nothing to write. -/
theorem othersKept_iff (scope : Option String) (env : IntakeEnv) (item : WorkItem) (t : CardTable)
    (n : Nat) (ht : Keyed t) :
    (∀ w, OthersKept scope item t
      (Prog.run (tableHandler w scope) (applyStatus env item) ⟨t, n⟩).2.cards) ↔
      ∀ r, joinedRow t scope item.correlationKey = some r →
        ∀ held, getRow t scope r.card.cardKey = some held →
          held = r ∨ Idle env item r.card held.card := by
  cases hr : joinedRow t scope item.correlationKey with
  | none =>
    constructor
    · intro _ r hr
      cases hr
    · intro _ w id _
      rw [applyStatus, Prog.perform_bind, Prog.run_op]
      simp only [tableHandler, getByCorrelationKey, hr, Option.map_none, Prog.run_pure]
  | some r =>
    obtain ⟨r', hr'⟩ := getRow_of_joinedRow hr
    have hkey := cardKey_of_getRow hr'
    have hmem := List.mem_of_find?_eq_some hr'
    have hserves : ∀ w, Serves t scope r.card.cardKey r'.id
        (Prog.run (tableHandler w scope) (applyStatus env item) ⟨t, n⟩).2
        (Prog.run (deskHandler w) (writeBack env r.card item) ⟨r'.card, n + 1⟩).2 := by
      intro w
      have hstart : Prog.run (tableHandler w scope) (applyStatus env item) ⟨t, n⟩ =
          Prog.run (tableHandler w scope) (writeBack env r.card item) ⟨t, n + 1⟩ := by
        rw [applyStatus, Prog.perform_bind, Prog.run_op]
        simp only [tableHandler, getByCorrelationKey, hr, Option.map_some]
      rw [hstart]
      exact (run_table_eq_desk w ht hr' (n + 1) (writeBack env r.card item)
        (onKey_writeBack w env r.card item ⟨r'.card, n + 1⟩ hkey)).2
    -- the row the key resolves to holds the desk's card at the end
    have hrow : ∀ w, stored (Prog.run (tableHandler w scope) (applyStatus env item) ⟨t, n⟩).2.cards
        r'.id = some (Prog.run (deskHandler w) (writeBack env r.card item)
          ⟨r'.card, n + 1⟩).2.card :=
      fun w ↦ stored_of_mem (hserves w).keyed (List.mem_of_find?_eq_some (hserves w).row)
    constructor
    · intro hkept q hq held hheld
      cases hq
      cases hr'.symm.trans hheld
      by_contra hboth
      obtain ⟨hne, hbusy⟩ := not_or.mp hboth
      have hid : r.id ≠ r'.id :=
        fun hid ↦ hne (row_eq_of_id ht hmem (joinedRow_spec hr).1 hid.symm)
      -- a clock that shows a later time than the row's stamp
      let w : World := ⟨fun _ ↦ .httpError "", fun _ ↦ r'.card.updatedAt + 1⟩
      have hstays := hkept w r'.id fun q hq ↦ by
        cases hr.symm.trans hq
        exact hid
      rw [hrow w, stored_of_mem ht hmem] at hstays
      obtain ⟨m, hm⟩ := stamped_writeBack w (d := ⟨r'.card, n + 1⟩) hkey hbusy
      rw [Option.some.inj hstays] at hm
      exact absurd hm (Int.ne_of_lt (Int.lt_succ _))
    · intro h w id hid
      have hnot : r.id ≠ id := hid r hr
      by_cases hheld : id = r'.id
      · subst hheld
        cases h r rfl r' hr' with
        | inl hsame => exact absurd (congrArg CardRow.id hsame.symm) hnot
        | inr hidle =>
          rw [hrow w, run_writeBack_idle w (d := ⟨r'.card, n + 1⟩) hkey hidle,
            stored_of_mem ht hmem]
      · exact (hserves w).frame id hheld

/-- In a scope that sees one tenant a write-back reaches the joined card. -/
theorem othersKept_oneTenant {scope : Option String} {t : CardTable} (ht : Indexed t)
    (hone : OneTenant scope t) (env : IntakeEnv) (item : WorkItem) (n : Nat) (w : World) :
    OthersKept scope item t
      (Prog.run (tableHandler w scope) (applyStatus env item) ⟨t, n⟩).2.cards := by
  revert w
  rw [othersKept_iff scope env item t n ht.ids]
  intro r hr held hheld
  obtain ⟨hmem, hvisible, -⟩ := joinedRow_spec hr
  rw [ht.getRow_self hone hmem hvisible] at hheld
  exact .inl (Option.some.inj hheld).symm

/-- Two tenants own a card of the same key, and the second one's waits for its plan. -/
def twoBoards : CardTable :=
  [⟨1, { cardKey := "C-1", tenantId := "acme", title := "Rotate the keys" }⟩, ⟨2, plannedCard⟩]

/-- Their primary keys are distinct. -/
theorem keyed_twoBoards : Keyed twoBoards := by
  show [1, 2].Nodup
  decide

end CFactory.Intake
