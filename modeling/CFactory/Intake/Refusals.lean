import CFactory.Intake.DeadStage
import CFactory.Intake.Press

/-!
# What a refusal leaves behind

`card_intake.py:363–421,653–744` and `card_ops.py:395–410`. A refused `dispatch_stage` performs
no operation at all. `start_sequence` queues the stages it owes before it delegates to the check
of the first one, so it may refuse after it has written.
-/

namespace CFactory.Intake

open CFactory.Base CFactory.Model CFactory.Cards CFactory.Actions CFactory.Status

/-- Where the program returns a refusal, it has requested nothing upstream and left every column
of every card as it was. -/
def RefusalKeepsCards (w : World) (scope : Option String) (s : TableState)
    (p : IntakeM DispatchResult) : Prop :=
  (Prog.run (tableHandler w scope) p s).1.refused ≠ none →
    (∀ x ∈ Prog.trace (tableHandler w scope) p s, x.2.isRequest = false) ∧
      (Prog.run (tableHandler w scope) p s).2.cards = s.cards

/-- The card that a write under the caller's card lands on: the stored one, or the caller's where
there is none. -/
def heldCard (t : CardTable) (scope : Option String) (card : Card) : Card :=
  (get t scope card.cardKey).getD card

/-- The sequence starts, and the check of its first stage fails on the card that the queue
records were written on: it has no tier, no build to verify, or no project. -/
def RefusedAfterQueueing (env : IntakeEnv) (card held : Card) : Prop :=
  card.tier ≠ none ∧ ¬ InFlight card ∧ ∃ first, (owedStages card).head? = some first ∧
    (held.tier = none ∨ (first = .test ∧ truthy held.correlationKey = false) ∨
      (first ≠ .plan ∧ truthy (env.aifactoryProjectId held) = false))

/-- The queue records would change no column: no such card is stored, or it holds them already,
stamped at this very moment. -/
def StandsQueued (t : CardTable) (scope : Option String) (card : Card) (now : Time) : Prop :=
  ∀ r, getRow t scope card.cardKey = some r →
    (queueChanges card (owedStages card)).apply now r.card = r.card

instance (env : IntakeEnv) (card held : Card) : Decidable (RefusedAfterQueueing env card held) :=
  haveI : Decidable (∃ first, (owedStages card).head? = some first ∧
      (held.tier = none ∨ (first = .test ∧ truthy held.correlationKey = false) ∨
        (first ≠ .plan ∧ truthy (env.aifactoryProjectId held) = false))) :=
    Fintype.decidableExistsFintype
  inferInstanceAs (Decidable (_ ∧ _ ∧ _))

/-! ### Single stages -/

/-- A result of `_send` carries no refusal. -/
theorem refused_sendResult (card : Card) (stage : Stage) (o : HttpOutcome) :
    (sendResult card stage o).refused = none := by
  unfold sendResult
  dsimp only
  split <;> rfl

/-- A refused dispatch performs no operation. -/
theorem dispatchStage_of_refused {w : World} {scope : Option String} {s : TableState}
    {env : IntakeEnv} {card : Card} {stage : Stage}
    (h : (Prog.run (tableHandler w scope) (dispatchStage env card stage) s).1.refused ≠ none) :
    ¬ Sendable env card stage ∧ ∃ result, dispatchStage env card stage = Pure.pure result := by
  have hnot : ¬ Sendable env card stage := by
    intro hsend
    rw [dispatchStage_of_sendable hsend] at h
    exact h (refused_sendResult card stage _)
  exact ⟨hnot, dispatchStage_of_not_sendable hnot⟩

/-- A dispatch that may not be sent, and is not complete, is refused. -/
theorem refused_of_not_sendable {w : World} {scope : Option String} {env : IntakeEnv}
    {card : Card} {stage : Stage} (hdone : stageStatus card stage ≠ some .done)
    (h : ¬ Sendable env card stage) (s : TableState) :
    (Prog.run (tableHandler w scope) (dispatchStage env card stage) s).1.refused ≠ none := by
  cases hr : refuseReason card stage (env.aifactoryProjectId card) with
  | none => exact absurd ⟨hdone, hr⟩ h
  | some refusal =>
    have hresult : dispatchStage env card stage = Pure.pure (refusedResult refusal stage) := by
      rw [dispatchStage, if_neg hdone]
      simp only [hr]
    rw [hresult, Prog.run_pure]
    exact Option.some_ne_none _

/-- A refused `dispatch_stage` leaves all as it was. -/
theorem dispatchStage_refusal (w : World) (env : IntakeEnv) (scope : Option String) (card : Card)
    (stage : Stage) (s : TableState) :
    RefusalKeepsCards w scope s (dispatchStage env card stage) := by
  intro h
  obtain ⟨-, result, hresult⟩ := dispatchStage_of_refused h
  rw [hresult]
  exact ⟨fun x hx ↦ absurd hx List.not_mem_nil, rfl⟩

/-! ### The whole sequence -/

/-- The first stage owed is not complete, and where it is the test stage the build is. -/
theorem head_owedStages {card : Card} {first : Stage}
    (h : (owedStages card).head? = some first) :
    stageStatus card first ≠ some .done ∧
      (first = .test → stageStatus card .code = some .done) := by
  have hmem : first ∈ owedStages card := List.mem_of_head? h
  refine ⟨by simpa using (List.mem_filter.mp hmem).2, ?_⟩
  rintro rfl
  by_contra hcode
  rw [owedStages, SEQUENCE, List.filter_cons] at h
  split at h
  · cases h
  · rw [List.filter_cons_of_pos (by simpa using hcode)] at h
    cases h

/-- The card that the first stage is checked on: the stored one with the queue records, or the
caller's where none is stored. -/
def queuedCard (t : CardTable) (scope : Option String) (card : Card) (now : Time) : Card :=
  (update t scope card.cardKey (queueChanges card (owedStages card)) now).1.getD card

/-- The queue records leave what a target and a check read of the card as it was. -/
theorem queuedCard_held (t : CardTable) (scope : Option String) (card : Card) (now : Time) :
    (queuedCard t scope card now).tier = (heldCard t scope card).tier ∧
      (queuedCard t scope card now).correlationKey = (heldCard t scope card).correlationKey ∧
      (queuedCard t scope card now).repositoryId = (heldCard t scope card).repositoryId ∧
      (queuedCard t scope card now).issueRef = (heldCard t scope card).issueRef := by
  unfold queuedCard heldCard update Cards.get
  cases getRow t scope card.cardKey with
  | none => exact ⟨rfl, rfl, rfl, rfl⟩
  | some r => exact ⟨rfl, rfl, rfl, rfl⟩

/-- Once queued, the first stage owed is neither complete nor running, and the build it may need
is still complete. -/
theorem stageStatus_queuedCard (t : CardTable) (scope : Option String) {card : Card}
    (now : Time) {first : Stage} (hflight : ¬ InFlight card)
    (hfirst : (owedStages card).head? = some first) :
    (stageStatus (queuedCard t scope card now) first ≠ some .done ∧
      stageStatus (queuedCard t scope card now) first ≠ some .dispatched) ∧
      (first = .test → stageStatus (queuedCard t scope card now) .code = some .done) := by
  obtain ⟨hdone, hbuild⟩ := head_owedStages hfirst
  unfold queuedCard update
  cases getRow t scope card.cardKey with
  | none => exact ⟨⟨hdone, fun hs ↦ hflight ⟨first, hs⟩⟩, hbuild⟩
  | some r =>
    have hmerged : stageStatus (StageChanges.apply (queueChanges card (owedStages card)) now
        r.card) = mergeStatus (stageStatus card) (queuedFields (owedStages card)) :=
      stageStatus_of_merged rfl
    dsimp only
    rw [Option.getD_some, hmerged]
    constructor
    · have hqueued : mergeStatus (stageStatus card) (queuedFields (owedStages card)) first =
          some .queued := by
        simp [mergeStatus, queuedFields, List.mem_of_head? hfirst]
      rw [hqueued]
      simp
    · intro htest
      have hcode : .code ∉ owedStages card := by
        intro hmem
        exact absurd (hbuild htest) (by simpa using (List.mem_filter.mp hmem).2)
      simp only [mergeStatus, queuedFields, if_neg hcode]
      exact hbuild htest

/-- The first stage owed passes its check exactly where the held card has what it needs. -/
theorem sendable_queuedCard (env : IntakeEnv) (t : CardTable) (scope : Option String)
    {card : Card} (now : Time) {first : Stage} (hflight : ¬ InFlight card)
    (hfirst : (owedStages card).head? = some first) :
    Sendable env (queuedCard t scope card now) first ↔
      (heldCard t scope card).tier ≠ none ∧
      (first = .test → truthy (heldCard t scope card).correlationKey = true) ∧
      (first ≠ .plan → truthy (env.aifactoryProjectId (heldCard t scope card)) = true) := by
  have hstatus := stageStatus_queuedCard t scope now hflight hfirst
  obtain ⟨htier, hkey, hrepo, hissue⟩ := queuedCard_held t scope card now
  rw [sendable_iff, IntakeEnv.aifactoryProjectId, IntakeEnv.aifactoryProjectId, htier, hkey, hrepo,
    hissue]
  constructor
  · rintro ⟨-, htier, htest, hproject⟩
    exact ⟨htier, fun h ↦ (htest h).1, hproject⟩
  · rintro ⟨htier, htest, hproject⟩
    exact ⟨hstatus.1, htier, fun h ↦ ⟨htest h, hstatus.2 h⟩, hproject⟩

/-- A write under a card's key changes no row exactly where it leaves the card as it is. -/
theorem update_same_iff {t : CardTable} (ht : Keyed t) (scope : Option String) (key : String)
    (ch : StageChanges) (now : Time) :
    (update t scope key ch now).2 = t ↔
      ∀ r, getRow t scope key = some r → ch.apply now r.card = r.card := by
  unfold update
  cases hrow : getRow t scope key with
  | none => simp
  | some r =>
    have hmem : r ∈ t := List.mem_of_find?_eq_some hrow
    have hstored := stored_of_mem ht hmem
    constructor
    · intro hsame q hq
      cases hq
      have hwritten : stored (modifyRow t r.id (ch.apply now)) r.id =
          some (ch.apply now r.card) := by
        rw [stored, find_modify t r.id _ _ fun _ ↦ rfl]
        rw [stored] at hstored
        cases hfind : t.find? fun q ↦ q.id == r.id with
        | none =>
          rw [hfind] at hstored
          cases hstored
        | some q =>
          rw [hfind] at hstored
          have hid : q.id = r.id := by simpa using List.find?_some hfind
          have hcard : q.card = r.card := Option.some.inj hstored
          simp [hid, hcard]
      dsimp only at hsame
      rw [hsame, hstored] at hwritten
      exact (Option.some.inj hwritten).symm
    · intro hsame
      have hleft : ∀ q ∈ t, (if q.id = r.id then { q with card := ch.apply now q.card } else q) =
          q := by
        intro q hq
        by_cases hid : q.id = r.id
        · have hcard : q.card = r.card := by
            have hq' := stored_of_mem ht hq
            rw [hid, hstored] at hq'
            exact (Option.some.inj hq').symm
          rw [if_pos hid, hcard, hsame r rfl, ← hcard]
        · rw [if_neg hid]
      exact (List.map_congr_left hleft).trans (List.map_id t)

/-- A refused `start_sequence` leaves all as it was exactly where it is not refused after it has
queued its stages, or where the queue records stood there before. -/
theorem startSequence_refusal_iff (w : World) (env : IntakeEnv) (scope : Option String)
    (card : Card) {t : CardTable} (ht : Keyed t) (n : Nat) :
    RefusalKeepsCards w scope ⟨t, n⟩ (startSequence env card) ↔
      (RefusedAfterQueueing env card (heldCard t scope card) →
        StandsQueued t scope card (w.clock n)) := by
  rcases startSequence_cases env card with
    ⟨hidle, result, hresult⟩ | ⟨⟨htier, hflight⟩, first, rest, howed, hprog⟩
  · have hnever : ¬ RefusedAfterQueueing env card (heldCard t scope card) := by
      rintro ⟨htier, hflight, first, hfirst, -⟩
      rcases hidle with h | h | h
      · exact htier h
      · exact hflight h
      · rw [h] at hfirst
        cases hfirst
    rw [RefusalKeepsCards, hresult]
    simp [hnever]
  · have hfirst : (owedStages card).head? = some first := by rw [howed]; rfl
    rw [← howed] at hprog
    have hlate : RefusedAfterQueueing env card (heldCard t scope card) ↔
        ¬ Sendable env (queuedCard t scope card (w.clock n)) first := by
      rw [sendable_queuedCard env t scope (w.clock n) hflight hfirst, RefusedAfterQueueing]
      constructor
      · rintro ⟨-, -, head, hhead, hlacks⟩ ⟨hheldTier, hbuild, hproject⟩
        obtain rfl : first = head := Option.some.inj (hfirst.symm.trans hhead)
        rcases hlacks with hnone | ⟨htest, hempty⟩ | ⟨hplan, hempty⟩
        · exact hheldTier hnone
        · exact absurd (hbuild htest) (by simp [hempty])
        · exact absurd (hproject hplan) (by simp [hempty])
      · intro hlacks
        refine ⟨htier, hflight, first, hfirst, ?_⟩
        by_contra hnot
        simp only [not_or, not_and, Bool.not_eq_false] at hnot
        exact hlacks hnot
    have hrun : Prog.run (tableHandler w scope) (startSequence env card) ⟨t, n⟩ =
        Prog.run (tableHandler w scope)
          (dispatchStage env (queuedCard t scope card (w.clock n)) first >>= fun result ↦
            Pure.pure { result with sequence := some (owedStages card) })
          ⟨(update t scope card.cardKey (queueChanges card (owedStages card)) (w.clock n)).2,
            n + 1⟩ := by
      rw [hprog]
      rfl
    by_cases hsend : Sendable env (queuedCard t scope card (w.clock n)) first
    · have hnever : ¬ RefusedAfterQueueing env card (heldCard t scope card) :=
        fun h ↦ hlate.mp h hsend
      refine iff_of_true ?_ fun h ↦ absurd h hnever
      intro hrefused
      refine absurd ?_ hrefused
      rw [hrun, Prog.run_bind, dispatchStage_of_sendable hsend]
      exact refused_sendResult _ first _
    · obtain ⟨result, hresult⟩ := dispatchStage_of_not_sendable hsend
      have hrefused : result.refused ≠ none := by
        have hstage : (Prog.run (tableHandler w scope)
            (dispatchStage env (queuedCard t scope card (w.clock n)) first) ⟨t, n⟩).1.refused ≠
              none :=
          refused_of_not_sendable (stageStatus_queuedCard t scope (w.clock n) hflight hfirst).1.1
            hsend ⟨t, n⟩
        rwa [hresult, Prog.run_pure] at hstage
      have htrace : Prog.trace (tableHandler w scope) (startSequence env card) ⟨t, n⟩ =
          [(⟨t, n⟩, .update card.cardKey (queueChanges card (owedStages card)))] := by
        rw [hprog, writeRuns, Prog.perform_bind, Prog.op_bind, Prog.trace_op]
        congr 1
        exact (congrArg (fun p ↦ Prog.trace (tableHandler w scope) (p >>= fun result ↦
          Pure.pure { result with sequence := some (owedStages card) }) _) hresult).trans rfl
      rw [hresult, Prog.pure_bind, Prog.run_pure] at hrun
      rw [RefusalKeepsCards, hrun, htrace, hlate, StandsQueued, ← update_same_iff ht]
      simp [hsend, hrefused, IntakeOp.isRequest]

/-- Both calls leave all as it was where they refuse, exactly where no sequence is refused after
its queue records changed the row. -/
theorem refusal_keeps_iff (w : World) (env : IntakeEnv) (scope : Option String) (card : Card)
    {t : CardTable} (ht : Keyed t) (n : Nat) :
    ((∀ stage, RefusalKeepsCards w scope ⟨t, n⟩ (dispatchStage env card stage)) ∧
      RefusalKeepsCards w scope ⟨t, n⟩ (startSequence env card)) ↔
      (RefusedAfterQueueing env card (heldCard t scope card) →
        StandsQueued t scope card (w.clock n)) := by
  rw [← startSequence_refusal_iff w env scope card ht n]
  exact and_iff_right fun stage ↦ dispatchStage_refusal w env scope card stage ⟨t, n⟩

/-! ### A planned card on a board without a project -/

/-- A planned card of medium tier, with no intake project configured. -/
def unplacedCard : Card :=
  { cardKey := "FCT-1", title := "Add a health check", tier := some .medium
    status := .ready, correlationKey := some "p-1"
    stageRuns := fun s ↦
      if s = .plan then some { service := some .pfactory, status := some .done } else none }

/-- With a project the same sequence is sent, so no refusal touches the card. -/
theorem refusal_keeps_placedCard :
    (∀ stage, RefusalKeepsCards acceptingWorld (some "default") ⟨[⟨1, unplacedCard⟩], 0⟩
      (dispatchStage configuredEnv unplacedCard stage)) ∧
    RefusalKeepsCards acceptingWorld (some "default") ⟨[⟨1, unplacedCard⟩], 0⟩
      (startSequence configuredEnv unplacedCard) :=
  (refusal_keeps_iff acceptingWorld configuredEnv (some "default") unplacedCard
    (by simp [Keyed]) 0).mpr fun h ↦ absurd h (by decide)

/-- Without one the sequence is refused, with its remaining stages recorded as queued. -/
theorem refused_sequence_queues_unplacedCard :
    Keyed [⟨1, unplacedCard⟩] ∧
      ¬ RefusalKeepsCards acceptingWorld (some "default") ⟨[⟨1, unplacedCard⟩], 0⟩
        (startSequence {} unplacedCard) ∧
      (Prog.run (tableHandler acceptingWorld (some "default")) (startSequence {} unplacedCard)
        ⟨[⟨1, unplacedCard⟩], 0⟩).1.refused = some "no_intake_project" ∧
      ((stored (Prog.run (tableHandler acceptingWorld (some "default"))
        (startSequence {} unplacedCard) ⟨[⟨1, unplacedCard⟩], 0⟩).2.cards 1).bind
          fun c ↦ stageStatus c .code) = some .queued := by
  refine ⟨by simp [Keyed], ?_, by decide, by decide⟩
  intro hkeeps
  have hsame := (hkeeps (by decide)).2
  have hstatus : stageStatus unplacedCard .code = some .queued := by
    have hrow := congrArg (fun t : CardTable ↦ (stored t 1).bind fun c ↦ stageStatus c .code) hsame
    exact hrow.symm.trans (by decide)
  exact absurd hstatus (by decide)

end CFactory.Intake
