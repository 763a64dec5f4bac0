import CFactory.Intake.DoublePress

/-!
# Settlements beside a dispatch

`card_intake.py:476–588,747–764`. A dispatch reads the card, waits for its answer, and
stores the whole stage map of that reading with its own record merged in. Write-backs run
beside it, operation by operation. A settlement stored between the reading and the record
is what such a map can take back.
-/

namespace CFactory.Intake

open CFactory.Base CFactory.Model CFactory.Cards CFactory.Actions CFactory.Status

/-- An operation of an interleaving: its side, the desk it met, and what it was. The left side
dispatches, the right side writes back. -/
abbrev Performed := Bool × Desk × IntakeOp

/-- The status an update stores for a stage. -/
def StageChanges.stored (ch : StageChanges) (s : Stage) : Option RunStatus :=
  ch.stageRuns.bind fun runs ↦ (runs s).bind StageRun.status

/-- `_settle` stores a stage as done or failed: a write-back's update of the records alone. -/
def Settles (s : Stage) (x : Performed) : Prop :=
  x.1 = false ∧ ∃ key ch, x.2.2 = .update key ch ∧ ch.status = none ∧
    (StageChanges.stored ch s = some .done ∨ StageChanges.stored ch s = some .failed)

/-- An update stores a stage as in flight. -/
def StoresInFlight (s : Stage) (x : Performed) : Prop :=
  ∃ key ch, x.2.2 = .update key ch ∧ StageChanges.stored ch s = some .dispatched

/-- A stage was settled and has not been sent since. -/
def SettledSince (s : Stage) (tr : List Performed) : Prop :=
  ∃ before x after, tr = before ++ x :: after ∧ Settles s x ∧ ∀ z ∈ after, ¬ Sends s z.2

/-- A settled stage other than the dispatched one was stored back as in flight. -/
def SettlementLost (stage : Stage) (tr : List Performed) : Prop :=
  ∃ s, s ≠ stage ∧ ∃ before y after, tr = before ++ y :: after ∧ SettledSince s before ∧
    StoresInFlight s y

/-- The dispatch read a card with the stage in flight, and a settlement of that stage was
stored afterwards. -/
def SettledBehind (s : Stage) (tr : List Performed) : Prop :=
  ∃ before x after, tr = before ++ x :: after ∧ Settles s x ∧
    ∃ r ∈ before, r.1 = true ∧ (∃ key, r.2.2 = .get key) ∧
      stageStatus r.2.1.card s = some .dispatched

/-- Between the dispatch's reading, which found another stage in flight, and its record, that
stage was settled. -/
def SettledInWindow (stage : Stage) (tr : List Performed) : Prop :=
  ∃ s, s ≠ stage ∧ ∃ before y after, tr = before ++ y :: after ∧ SettledBehind s before ∧
    y.1 = true ∧ ∃ key ch, y.2.2 = .update key ch

/-! ### Histories that grow -/

/-- A settlement stays settled until its stage is sent. -/
theorem settledSince_snoc {s : Stage} {tr : List Performed} {z : Performed} :
    SettledSince s (tr ++ [z]) ↔ (SettledSince s tr ∧ ¬ Sends s z.2) ∨ Settles s z := by
  constructor
  · rintro ⟨before, x, after, heq, hx, hafter⟩
    rcases List.eq_nil_or_concat after with rfl | ⟨rest, y, rfl⟩
    · have := List.append_inj_right' heq rfl
      obtain rfl : z = x := by simpa using this
      exact Or.inr hx
    · have heq' : tr ++ [z] = (before ++ x :: rest) ++ [y] := by simpa using heq
      obtain ⟨rfl, hz⟩ := List.append_inj' heq' rfl
      obtain rfl : z = y := by simpa using hz
      refine Or.inl ⟨⟨before, x, rest, rfl, hx, ?_⟩, hafter z (by simp)⟩
      intro y hy
      exact hafter y (by simp [hy])
  · rintro (⟨⟨before, x, after, rfl, hx, hafter⟩, hz⟩ | hz)
    · refine ⟨before, x, after ++ [z], by simp, hx, ?_⟩
      intro y hy
      rcases List.mem_append.mp hy with hy | hy
      · exact hafter y hy
      · rw [List.mem_singleton.mp hy]
        exact hz
    · exact ⟨tr, z, [], rfl, hz, fun _ h ↦ absurd h (by simp)⟩

/-- A settlement behind a reading stays behind it. -/
theorem SettledBehind.snoc {s : Stage} {tr : List Performed} (z : Performed)
    (h : SettledBehind s tr) : SettledBehind s (tr ++ [z]) := by
  obtain ⟨before, x, after, rfl, hx, hr⟩ := h
  exact ⟨before, x, after ++ [z], by simp, hx, hr⟩

/-- A settlement in the window stays there. -/
theorem SettledInWindow.snoc {stage : Stage} {tr : List Performed} (z : Performed)
    (h : SettledInWindow stage tr) : SettledInWindow stage (tr ++ [z]) := by
  obtain ⟨s, hs, before, y, after, rfl, hb, hy⟩ := h
  exact ⟨s, hs, before, y, after ++ [z], by simp, hb, hy⟩

/-- The last operation loses a settlement, or one was lost before. -/
theorem settlementLost_snoc {stage : Stage} {tr : List Performed} {z : Performed} :
    SettlementLost stage (tr ++ [z]) ↔
      SettlementLost stage tr ∨ ∃ s, s ≠ stage ∧ SettledSince s tr ∧ StoresInFlight s z := by
  constructor
  · rintro ⟨s, hs, before, y, after, heq, hb, hy⟩
    rcases List.eq_nil_or_concat after with rfl | ⟨rest, u, rfl⟩
    · obtain ⟨rfl, hz⟩ := List.append_inj' heq rfl
      obtain rfl : z = y := by simpa using hz
      exact Or.inr ⟨s, hs, hb, hy⟩
    · have heq' : tr ++ [z] = (before ++ y :: rest) ++ [u] := by simpa using heq
      obtain ⟨rfl, -⟩ := List.append_inj' heq' rfl
      exact Or.inl ⟨s, hs, before, y, rest, rfl, hb, hy⟩
  · rintro (⟨s, hs, before, y, after, rfl, hb, hy⟩ | ⟨s, hs, hb, hy⟩)
    · exact ⟨s, hs, before, y, after ++ [z], by simp, hb, hy⟩
    · exact ⟨s, hs, tr, z, [], rfl, hb, hy⟩

/-! ### What a write-back may store -/

/-- The stages a write-back may store as in flight: those in flight on the card it saw last,
and those it requested since. -/
def seenInFlight (v : Stage → Prop) : (o : IntakeOp) → IntakeOp.Res o → Stage → Prop
  | .get _, some card => fun s ↦ stageStatus card s = some .dispatched
  | .getByCorrelationKey _, some card => fun s ↦ stageStatus card s = some .dispatched
  | .update _ _, some card => fun s ↦ stageStatus card s = some .dispatched
  | .request service _, _ => fun s ↦ v s ∨ s = service.stage
  | _, _ => v

/-- Cards are answered under the key that is asked for. -/
def Named {V : Type} (key : String) (_ : V) : (o : IntakeOp) → IntakeOp.Res o → Prop
  | .get _, r => ∀ card, r = some card → card.cardKey = key
  | .getByCorrelationKey _, r => ∀ card, r = some card → card.cardKey = key
  | .update _ _, r => ∀ card, r = some card → card.cardKey = key
  | _, _ => True

/-- An update goes to the card and stores nothing else as in flight. -/
def WriteBackOp (key : String) (v : Stage → Prop) : IntakeOp → Prop
  | .update k ch => k = key ∧ ∀ s, StageChanges.stored ch s = some .dispatched → v s
  | _ => True

/-- The card in hand is the last one seen, as far as stages in flight go. -/
def InHand (key : String) (card : Card) (v : Stage → Prop) : Prop :=
  card.cardKey = key ∧ ∀ s, stageStatus card s = some .dispatched → v s

/-- The statuses that a merged map stores. -/
theorem stored_merged (runs : StageRuns) (card : Card) (updates : Stage → Option RunFields)
    (fields : StageChanges) (h : card.stageRuns = runs) :
    StageChanges.stored { fields with stageRuns := some (mergeRuns runs updates) } =
      mergeStatus (stageStatus card) updates := by
  subst h
  exact stageStatus_of_merged (c := { card with stageRuns := mergeRuns card.stageRuns updates })
    rfl

/-- An update whose map is covered leaves its answer in hand. -/
theorem obeys_writeCard {key : String} {card : Card} {v : Stage → Prop} (ch : StageChanges)
    (hc : InHand key card v)
    (hch : ∀ s, StageChanges.stored ch s = some .dispatched → v s) :
    Prog.Obeys seenInFlight (Named key) (WriteBackOp key) (InHand key) v
      (do let stored ← updateCard card.cardKey ch; return stored.getD card) := by
  rw [Prog.perform_bind, Prog.obeys_op]
  refine ⟨⟨hc.1, hch⟩, ?_⟩
  intro r hr
  cases r with
  | none => exact hc
  | some stored => exact ⟨hr stored rfl, fun s hs ↦ hs⟩

/-- `_settle` stores nothing as in flight that it did not see in flight. -/
theorem obeys_settle {key : String} {card : Card} {v : Stage → Prop} (item : WorkItem)
    (hc : InHand key card v) :
    Prog.Obeys seenInFlight (Named key) (WriteBackOp key) (InHand key) v (settle card item) := by
  unfold settle
  simp only
  split
  · apply obeys_writeCard _ hc
    intro s hs
    rw [stored_merged card.stageRuns card _ {} rfl, mergeStatus_settleUpdates] at hs
    rcases settledStatus_cases (stageStatus card) item s with he | ⟨-, he | he⟩
    · exact hc.2 s (he ▸ hs)
    · exact absurd (hs.symm.trans he) (by simp)
    · exact absurd (hs.symm.trans he) (by simp)
  · exact hc

/-- A dispatch stores as in flight the stage it requested. -/
theorem obeys_dispatch {key : String} {card : Card} {v : Stage → Prop} (env : IntakeEnv)
    (stage : Stage) (hc : InHand key card v) :
    Prog.Obeys seenInFlight (Named key) (WriteBackOp key) (fun _ _ ↦ True) v
      (dispatchStage env card stage) := by
  by_cases h : Sendable env card stage
  · rw [dispatchStage_of_sendable h, Prog.obeys_op]
    refine ⟨trivial, fun o _ ↦ ⟨⟨hc.1, ?_⟩, fun _ _ ↦ trivial⟩⟩
    intro s hs
    have hstored : StageChanges.stored (sendChanges env card stage o) =
        stageStatus ((sendChanges env card stage o).apply 0 card) := by
      ext1 s
      unfold sendChanges
      split <;> rfl
    rw [hstored, stageStatus_sendChanges, Function.update_apply] at hs
    split at hs
    · next he =>
      right
      rw [stage_service]
      exact he
    · left
      exact hc.2 s hs
  · obtain ⟨result, hr⟩ := dispatchStage_of_not_sendable h
    rw [hr]
    trivial

/-- `_advance` stores as in flight what it saw in flight or requested. -/
theorem obeys_advance {key : String} {card : Card} {v : Stage → Prop} (env : IntakeEnv)
    (hc : InHand key card v) :
    Prog.Obeys seenInFlight (Named key) (WriteBackOp key) (InHand key) v (advance env card) := by
  unfold advance
  split
  · exact hc
  · next hf =>
    split
    · exact obeys_writeCard _ hc fun s hs ↦ absurd hs (by simp [StageChanges.stored])
    · split
      · exact hc
      · rw [Prog.obeys_bind]
        refine (obeys_dispatch env _ hc).mono ?_
        intro result u _
        -- nothing was in flight on the card in hand, so it covers itself
        have hself : ∀ u : Stage → Prop, InHand key card u := by
          intro u
          refine ⟨hc.1, fun s hs ↦ ?_⟩
          rw [any_SEQUENCE] at hf
          exact absurd ⟨s, by simpa using hs⟩ hf
        have hread : ∀ u : Stage → Prop,
            Prog.Obeys seenInFlight (Named key) (WriteBackOp key) (InHand key) u
              (do let stored ← getCard card.cardKey; return stored.getD card) := by
          intro u
          rw [Prog.perform_bind, Prog.obeys_op]
          refine ⟨trivial, ?_⟩
          intro r hr
          cases r with
          | none => exact hself _
          | some stored => exact ⟨hr stored rfl, fun s hs ↦ hs⟩
        split
        · exact ⟨trivial, fun _ _ ↦ hread _⟩
        · exact hread u

/-- A serial run of write-backs obeys. -/
theorem obeys_writeBacks (key : String) (calls : List (IntakeEnv × WorkItem))
    (v : Stage → Prop) :
    Prog.Obeys seenInFlight (Named key) (WriteBackOp key) (fun _ _ ↦ True) v
      (serial key (calls.map fun x ↦ .apply x.1 x.2)) := by
  induction calls generalizing v with
  | nil => trivial
  | cons call rest ih =>
    rw [List.map_cons, serial, Prog.obeys_bind]
    simp only [SequenceCall.program, applyStatus, Prog.perform_bind, Prog.op_bind]
    refine ⟨trivial, ?_⟩
    intro r hr
    cases r with
    | none => exact ih _
    | some card =>
      simp only [writeBack, bind_assoc]
      rw [Prog.obeys_bind]
      have hc : InHand key card (seenInFlight v (.getByCorrelationKey call.2.correlationKey)
          (some card)) := ⟨hr card rfl, fun s hs ↦ hs⟩
      refine (obeys_settle call.2 hc).mono ?_
      intro settled u hsettled
      rw [Prog.obeys_bind]
      refine (obeys_advance call.1 hsettled).mono ?_
      intro advanced u' hadvanced
      split
      · exact ih _
      · split
        · exact ih _
        · refine ⟨⟨hr card rfl, ?_⟩, fun _ _ ↦ ih _⟩
          intro s hs
          exact absurd hs (by simp [StageChanges.stored])

/-! ### What the dispatch stores -/

/-- How far the dispatch has come: its reading, while it is open. -/
inductive Window where
  | unread
  | holding (seen : Stage → Option RunStatus)
  | closed

/-- A reading opens the window, and the record closes it. -/
def window (v : Window) : (o : IntakeOp) → IntakeOp.Res o → Window
  | .get _, some card => .holding (stageStatus card)
  | .get _, none => .closed
  | .update _ _, _ => .closed
  | _, _ => v

/-- The dispatch reads once, requests its stage, and stores its reading with only its own
stage changed. -/
def DispatchOp (key : String) (stage : Stage) (v : Window) : IntakeOp → Prop
  | .get _ => v = .unread
  | .request service _ => service.stage = stage
  | .update k ch => k = key ∧ ∃ seen, v = .holding seen ∧
      ∀ s, s ≠ stage → StageChanges.stored ch s = seen s
  | _ => False

/-- A dispatch obeys. -/
theorem obeys_dispatchPress (key : String) (env : IntakeEnv) (stage : Stage) :
    Prog.Obeys window (Named key) (DispatchOp key stage) (fun _ _ ↦ True) .unread
      ((⟨env, .dispatchStage stage⟩ : Press).program key) := by
  rw [Press.program, Prog.perform_bind, Prog.obeys_op]
  refine ⟨rfl, ?_⟩
  intro r hr
  cases r with
  | none => trivial
  | some card =>
    simp only [body_dispatchStage, trySending]
    split
    · refine ⟨stage_service stage, fun o _ ↦ ⟨⟨hr card rfl, stageStatus card, rfl, ?_⟩, ?_⟩⟩
      · intro s hs
        have hstored : StageChanges.stored (sendChanges env card stage o) =
            stageStatus ((sendChanges env card stage o).apply 0 card) := by
          ext1 s
          unfold sendChanges
          split <;> rfl
        rw [hstored, stageStatus_sendChanges, Function.update_of_ne hs]
      · intro _ _
        trivial
    · trivial

/-! ### No settlement is lost outside the window -/

/-- A settled stage is not in flight, on the card or in any hand but the dispatch's, and
where the dispatch holds it in flight the settlement was stored behind its reading. -/
structure Kempt (stage : Stage) (tr : List Performed) (c : Card) (v : Window)
    (u : Stage → Prop) : Prop where
  notLost : ¬ SettlementLost stage tr
  reading : ∀ seen, v = .holding seen → ∃ r ∈ tr, r.1 = true ∧ (∃ k, r.2.2 = .get k) ∧
    seen = stageStatus r.2.1.card
  notInFlight : ∀ s, s ≠ stage → SettledSince s tr → stageStatus c s ≠ some .dispatched
  notSeen : ∀ s, s ≠ stage → SettledSince s tr → ¬ u s
  behind : ∀ s, s ≠ stage → SettledSince s tr → ∀ seen, v = .holding seen →
    seen s = some .dispatched → SettledBehind s tr

/-- The status of a stage after an update of the card. -/
theorem stageStatus_stored (ch : StageChanges) (now : Time) (c : Card) (s : Stage) :
    stageStatus (ch.apply now c) s =
      if ch.stageRuns = none then stageStatus c s else StageChanges.stored ch s := by
  cases h : ch.stageRuns with
  | none => simp [stageStatus, h]
  | some runs => simp [stageStatus, StageChanges.stored, h]

/-- An update under the card's key changes the card. -/
theorem desk_update (w : World) {key : String} {e : Desk} (hkey : e.card.cardKey = key)
    (ch : StageChanges) :
    deskHandler w (.update key ch) e =
      (some (ch.apply (w.clock e.steps) e.card),
        ⟨ch.apply (w.clock e.steps) e.card, e.steps + 1⟩) := by
  subst hkey
  exact deskHandler_update w e ch

/-- The desk answers with its own card or with none. -/
theorem named_desk (w : World) {V : Type} (v : V) {key : String} (o : IntakeOp) {e : Desk}
    (hkey : e.card.cardKey = key) : Named key v o (deskHandler w o e).1 := by
  cases o with
  | get k =>
    intro card hc
    simp only [deskHandler] at hc
    split at hc
    · rw [← Option.some.inj hc]
      exact hkey
    · exact absurd hc (by simp)
  | getByCorrelationKey k =>
    intro card hc
    simp only [deskHandler] at hc
    split at hc
    · rw [← Option.some.inj hc]
      exact hkey
    · exact absurd hc (by simp)
  | update k ch =>
    intro card hc
    simp only [deskHandler] at hc
    split at hc
    · rw [← Option.some.inj hc]
      exact hkey
    · exact absurd hc (by simp)
  | request service step => trivial
  | report k result => trivial

/-- An operation that is no update settles nothing. -/
theorem settledSince_of_snoc {s : Stage} {tr : List Performed} {side : Bool} {e : Desk}
    {o : IntakeOp} (ho : ∀ key ch, o ≠ .update key ch)
    (h : SettledSince s (tr ++ [(side, e, o)])) :
    SettledSince s tr ∧ ¬ Sends s (e, o) := by
  rcases settledSince_snoc.mp h with h | ⟨-, key, ch, hop, -⟩
  · exact h
  · exact absurd hop (ho key ch)

/-- An operation that is no update keeps the invariant, where no hand comes to see a settled
stage in flight. -/
theorem Kempt.step {stage : Stage} {tr : List Performed} {c : Card} {v v' : Window}
    {u u' : Stage → Prop} (h : Kempt stage tr c v u) {side : Bool} {e : Desk} {o : IntakeOp}
    (ho : ∀ key ch, o ≠ .update key ch)
    (hreading : ∀ seen, v' = .holding seen → v = .holding seen ∨
      (side = true ∧ (∃ k, o = .get k) ∧ seen = stageStatus e.card ∧ e.card = c))
    (hu : ∀ s, s ≠ stage → SettledSince s tr → ¬ Sends s (e, o) → ¬ u' s) :
    Kempt stage (tr ++ [(side, e, o)]) c v' u' where
  notLost := by
    rw [settlementLost_snoc]
    rintro (hl | ⟨s, -, -, key, ch, hop, -⟩)
    · exact h.notLost hl
    · exact ho key ch hop
  reading := by
    intro seen hv
    rcases hreading seen hv with hv | ⟨hside, hget, hseen, -⟩
    · obtain ⟨r, hr, hrest⟩ := h.reading seen hv
      exact ⟨r, List.mem_append_left _ hr, hrest⟩
    · exact ⟨(side, e, o), List.mem_append_right _ (List.mem_singleton.mpr rfl), hside, hget,
        hseen⟩
  notInFlight := by
    intro s hs hset
    exact h.notInFlight s hs (settledSince_of_snoc ho hset).1
  notSeen := by
    intro s hs hset
    obtain ⟨hset, hsend⟩ := settledSince_of_snoc ho hset
    exact hu s hs hset hsend
  behind := by
    intro s hs hset seen hv hseen
    have hset := (settledSince_of_snoc ho hset).1
    rcases hreading seen hv with hv | ⟨-, -, he, hc⟩
    · exact (h.behind s hs hset seen hv hseen).snoc _
    · -- a settled stage is not in flight when the dispatch reads
      rw [he, hc] at hseen
      exact absurd hseen (h.notInFlight s hs hset)

/-- The dispatch's operations keep the invariant or find a settlement in the window. -/
theorem kempt_left (w : World) {key : String} {stage : Stage} {tr : List Performed} {e : Desk}
    {v : Window} {u : Stage → Prop} (h : Kempt stage tr e.card v u)
    (hkey : e.card.cardKey = key) (o : IntakeOp) (ho : DispatchOp key stage v o) :
    SettledInWindow stage (tr ++ [(true, e, o)]) ∨
      Kempt stage (tr ++ [(true, e, o)]) (deskHandler w o e).2.card
        (window v o (deskHandler w o e).1) u := by
  cases o with
  | get k =>
    right
    apply h.step (by simp)
    · intro seen hv
      have hv₀ : v = .unread := ho
      right
      simp only [deskHandler] at hv
      split at hv
      · simp only [window, Window.holding.injEq] at hv
        exact ⟨rfl, ⟨k, rfl⟩, hv.symm, rfl⟩
      · exact absurd hv (by simp [window])
    · intro s hs hset _
      exact h.notSeen s hs hset
  | request service step =>
    right
    apply h.step (by simp)
    · intro seen hv
      exact Or.inl hv
    · intro s hs hset _
      exact h.notSeen s hs hset
  | update k ch =>
    obtain ⟨hk, seen, hv, hstored⟩ := ho
    subst hk
    rw [desk_update w hkey ch]
    have hsince : ∀ s, SettledSince s (tr ++ [(true, e, .update k ch)]) → SettledSince s tr := by
      intro s hset
      rcases settledSince_snoc.mp hset with hset | ⟨hside, -⟩
      · exact hset.1
      · exact absurd hside (by simp)
    by_cases hwin : ∃ s, s ≠ stage ∧ SettledSince s tr ∧ seen s = some .dispatched
    · left
      obtain ⟨s, hs, hset, hseen⟩ := hwin
      exact ⟨s, hs, tr, (true, e, .update k ch), [], rfl, h.behind s hs hset seen hv hseen, rfl,
        k, ch, rfl⟩
    · right
      constructor
      · rw [settlementLost_snoc]
        rintro (hl | ⟨s, hs, hset, key', ch', hop, hst⟩)
        · exact h.notLost hl
        · cases hop
          rw [hstored s hs] at hst
          exact hwin ⟨s, hs, hset, hst⟩
      · intro seen' hv'
        exact absurd hv' (by simp [window])
      · intro s hs hset
        rw [stageStatus_stored]
        split
        · exact h.notInFlight s hs (hsince s hset)
        · rw [hstored s hs]
          exact fun hseen ↦ hwin ⟨s, hs, hsince s hset, hseen⟩
      · intro s hs hset
        exact h.notSeen s hs (hsince s hset)
      · intro s hs hset seen' hv'
        exact absurd hv' (by simp [window])
  | getByCorrelationKey k => exact ho.elim
  | report k result => exact ho.elim

/-- The write-backs' operations keep the invariant. -/
theorem kempt_right (w : World) {key : String} {stage : Stage} {tr : List Performed} {e : Desk}
    {v : Window} {u : Stage → Prop} (h : Kempt stage tr e.card v u)
    (hkey : e.card.cardKey = key) (o : IntakeOp) (ho : WriteBackOp key u o) :
    Kempt stage (tr ++ [(false, e, o)]) (deskHandler w o e).2.card v
      (seenInFlight u o (deskHandler w o e).1) := by
  cases o with
  | get k =>
    apply h.step (by simp) (fun seen hv ↦ Or.inl hv)
    intro s hs hset _
    simp only [deskHandler]
    split
    · exact h.notInFlight s hs hset
    · exact h.notSeen s hs hset
  | getByCorrelationKey k =>
    apply h.step (by simp) (fun seen hv ↦ Or.inl hv)
    intro s hs hset _
    simp only [deskHandler]
    split
    · exact h.notInFlight s hs hset
    · exact h.notSeen s hs hset
  | request service step =>
    apply h.step (by simp) (fun seen hv ↦ Or.inl hv)
    intro s hs hset hsend hu
    rcases hu with hu | rfl
    · exact h.notSeen s hs hset hu
    · exact hsend ⟨service, step, rfl, rfl⟩
  | report k result =>
    apply h.step (by simp) (fun seen hv ↦ Or.inl hv)
    intro s hs hset _
    exact h.notSeen s hs hset
  | update k ch =>
    obtain ⟨hk, hcover⟩ := ho
    subst hk
    rw [desk_update w hkey ch]
    have hafter : ∀ s, s ≠ stage → SettledSince s (tr ++ [(false, e, .update k ch)]) →
        stageStatus (ch.apply (w.clock e.steps) e.card) s ≠ some .dispatched := by
      intro s hs hset
      rw [stageStatus_stored]
      rcases settledSince_snoc.mp hset with ⟨hset, -⟩ | ⟨-, key', ch', hop, -, hst⟩
      · split
        · exact h.notInFlight s hs hset
        · exact fun hst ↦ h.notSeen s hs hset (hcover s hst)
      · cases hop
        split
        · next hnone =>
          rw [StageChanges.stored, hnone] at hst
          exact absurd hst (by simp)
        · rcases hst with hst | hst
          · rw [hst]
            simp
          · rw [hst]
            simp
    constructor
    · rw [settlementLost_snoc]
      rintro (hl | ⟨s, hs, hset, key', ch', hop, hst⟩)
      · exact h.notLost hl
      · cases hop
        exact h.notSeen s hs hset (hcover s hst)
    · intro seen hv
      obtain ⟨r, hr, hrest⟩ := h.reading seen hv
      exact ⟨r, List.mem_append_left _ hr, hrest⟩
    · exact hafter
    · exact hafter
    · intro s hs hset seen hv hseen
      rcases settledSince_snoc.mp hset with ⟨hset, -⟩ | hsettles
      · exact (h.behind s hs hset seen hv hseen).snoc _
      · obtain ⟨r, hr, hside, hget, rfl⟩ := h.reading seen hv
        exact ⟨tr, _, [], rfl, hsettles, r, hr, hside, hget, hseen⟩

/-- A dispatch about to run beside a serial run of write-backs. -/
def overlapPool (env : IntakeEnv) (stage : Stage) (calls : List (IntakeEnv × WorkItem))
    (d : Desk) : Pool IntakeOp IntakeOp.Res Unit Unit Desk :=
  ⟨(⟨env, .dispatchStage stage⟩ : Press).program d.card.cardKey,
    serial d.card.cardKey (calls.map fun x ↦ .apply x.1 x.2), d⟩

/-- In every interleaving of a dispatch with write-backs in which no stage that the dispatch
read as in flight is settled before the dispatch writes its record, no settlement is lost. -/
theorem settlement_kept (w : World) (env : IntakeEnv) (stage : Stage)
    (calls : List (IntakeEnv × WorkItem)) (d : Desk) (schedule : List Bool)
    (hwindow : ¬ SettledInWindow stage
      (Pool.trace (deskHandler w) (overlapPool env stage calls d) schedule)) :
    ¬ SettlementLost stage
      (Pool.trace (deskHandler w) (overlapPool env stage calls d) schedule) := by
  have hstart : Kempt stage [] d.card .unread fun _ ↦ False := by
    have hnone : ∀ s, ¬ SettledSince s [] := by
      rintro s ⟨before, x, after, heq, -⟩
      exact absurd heq (by simp)
    constructor
    · rintro ⟨s, -, before, y, after, heq, -⟩
      exact absurd heq (by simp)
    · intro seen hv
      exact absurd hv (by simp)
    · intro s _ hset
      exact absurd hset (hnone s)
    · intro s _ hset
      exact absurd hset (hnone s)
    · intro s _ hset
      exact absurd hset (hnone s)
  obtain ⟨v, u, -, -, -, hend⟩ := Pool.obeys_run (deskHandler w)
    (fun tr e v u o (hi : e.card.cardKey = d.card.cardKey ∧
        (SettledInWindow stage tr ∨ Kempt stage tr e.card v u)) hg ↦
      ⟨named_desk w v o hi.1, (cardKey_desk w o e).trans hi.1,
        hi.2.elim (fun hwin ↦ Or.inl (hwin.snoc _)) fun hk ↦ kempt_left w hk hi.1 o hg⟩)
    (fun tr e v u o hi hg ↦
      ⟨named_desk w u o hi.1, (cardKey_desk w o e).trans hi.1,
        hi.2.elim (fun hwin ↦ Or.inl (hwin.snoc _)) fun hk ↦
          Or.inr (kempt_right w hk hi.1 o hg)⟩)
    schedule (overlapPool env stage calls d) [] .unread (fun _ ↦ False)
    (obeys_dispatchPress d.card.cardKey env stage)
    (obeys_writeBacks d.card.cardKey calls _) ⟨rfl, Or.inr hstart⟩
  rw [List.nil_append] at hend
  exact (hend.resolve_left hwindow).notLost

/-- A dispatch that has returned before the first write-back has no settlement in its
window. -/
theorem not_settledInWindow_of_before {stage : Stage} {tr : List Performed}
    (h : (tr.map Prod.fst).Pairwise fun a b ↦ a = false → b = false) :
    ¬ SettledInWindow stage tr := by
  rintro ⟨s, -, before, y, after, rfl, ⟨before', x, after', rfl, ⟨hx, -⟩, -⟩, hy, -⟩
  rw [List.map_append, List.pairwise_append] at h
  have hxy := h.2.2 x.1 (by simp) y.1 (by simp) hx
  rw [hy] at hxy
  exact absurd hxy (by simp)

/-! ### A build dispatched over a completing plan -/

/-- A card whose plan is in flight. -/
def planningCard : Card :=
  { cardKey := "C-1", title := "Add a health check", tier := some .medium
    status := .inProgress, correlationKey := some "pf-1"
    stageRuns := fun s ↦
      match s with
      | .plan => some { service := some .pfactory, status := some .dispatched }
      | _ => none }

/-- The build is dispatched first and the plan's completion written back after it. -/
theorem settlement_kept_after :
    ¬ SettledInWindow .code (Pool.trace (deskHandler acceptingWorld)
      (overlapPool configuredEnv .code [(configuredEnv, plannedItem)] ⟨planningCard, 0⟩)
      [true, true, true, false, false]) ∧
    ¬ SettlementLost .code (Pool.trace (deskHandler acceptingWorld)
      (overlapPool configuredEnv .code [(configuredEnv, plannedItem)] ⟨planningCard, 0⟩)
      [true, true, true, false, false]) := by
  have hwindow : ¬ SettledInWindow .code (Pool.trace (deskHandler acceptingWorld)
      (overlapPool configuredEnv .code [(configuredEnv, plannedItem)] ⟨planningCard, 0⟩)
      [true, true, true, false, false]) := by
    apply not_settledInWindow_of_before
    decide
  exact ⟨hwindow, settlement_kept acceptingWorld configuredEnv .code
    [(configuredEnv, plannedItem)] ⟨planningCard, 0⟩ [true, true, true, false, false] hwindow⟩

/-- The plan's completion is settled while the build's answer is awaited, and the build's
record puts the plan back in flight. -/
theorem settlement_taken_back :
    SettlementLost .code (Pool.trace (deskHandler acceptingWorld)
      (overlapPool configuredEnv .code [(configuredEnv, plannedItem)] ⟨planningCard, 0⟩)
      [true, true, false, false, true]) ∧
    stageStatus (Pool.run (deskHandler acceptingWorld)
      (overlapPool configuredEnv .code [(configuredEnv, plannedItem)] ⟨planningCard, 0⟩)
      [true, true, false, false, true]).shared.card .plan = some .dispatched := by
  constructor
  · generalize htr : Pool.trace (deskHandler acceptingWorld)
      (overlapPool configuredEnv .code [(configuredEnv, plannedItem)] ⟨planningCard, 0⟩)
      [true, true, false, false, true] = tr
    have hsplit : tr = tr.take 4 ++ tr.drop 4 := (List.take_append_drop 4 tr).symm
    subst htr
    refine ⟨.plan, by decide, _, _, [], hsplit, ?_, ?_⟩
    · exact ⟨_, _, [], (List.take_append_drop 3 _).symm, ⟨rfl, _, _, rfl, rfl, Or.inl rfl⟩,
        by simp⟩
    · exact ⟨_, _, rfl, rfl⟩
  · decide

end CFactory.Intake
