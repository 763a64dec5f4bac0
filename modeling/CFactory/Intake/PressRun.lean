import CFactory.Intake.Press

/-!
# The run of one request

`card_intake.py:523–744`. What a request sends: at most its target, whatever runs beside it,
and alone exactly what the card that it read calls for. A run of requests one after another
is one dispatch.
-/

namespace CFactory.Intake

open CFactory.Base CFactory.Model CFactory.Cards CFactory.Actions CFactory.Status

/-! ### Sends -/

/-- An operation that requests a stage. -/
def Sends (s : Stage) (x : Desk × IntakeOp) : Prop :=
  ∃ service step, x.2 = .request service step ∧ service.stage = s

/-- A request whose answer is accepted. -/
def Accepts (w : World) (x : Desk × IntakeOp) : Prop := accepted (w.reply x.1.steps) = true

/-- No stage is sent while an earlier send of it, in this run or before it, was accepted and
is not settled. -/
structure OneDispatch (w : World) (c : Card) (ops : List (Desk × IntakeOp)) : Prop where
  once : ops.Pairwise fun x y ↦ ∀ s, Sends s x → Accepts w x → ¬ Sends s y
  notInFlight : ∀ s, stageStatus c s = some .dispatched → ∀ x ∈ ops, ¬ Sends s x

/-- Whether an operation requests a stage. -/
def isSend (x : Desk × IntakeOp) : Bool :=
  match x.2 with
  | .request _ _ => true
  | _ => false

/-- The first request of a run is accepted. -/
def FirstAccepted (w : World) (ops : List (Desk × IntakeOp)) : Prop :=
  ∃ x, ops.find? isSend = some x ∧ Accepts w x

/-! ### What a request keeps, whatever runs beside it -/

/-- Columns that no stage action changes, and a join key that is never cleared. -/
structure Kept (c c' : Card) : Prop where
  cardKey : c'.cardKey = c.cardKey
  tier : c'.tier = c.tier
  repositoryId : c'.repositoryId = c.repositoryId
  issueRef : c'.issueRef = c.issueRef
  joined : truthy c.correlationKey = true → truthy c'.correlationKey = true

/-- A similar reading keeps these columns. -/
theorem Similar.kept {c c' : Card} (h : Similar c c') : Kept c c' :=
  ⟨h.cardKey, h.tier, h.repositoryId, h.issueRef, fun hj ↦ h.joined.trans hj⟩

/-- The stages a request has sent so far. -/
def sentSoFar (v : List Stage) (o : IntakeOp) (_ : IntakeOp.Res o) : List Stage :=
  match o with
  | .request service _ => v ++ [service.stage]
  | _ => v

/-- An update is answered with the stored card, which holds what was assigned. -/
def Answered (c : Card) (_ : List Stage) : (o : IntakeOp) → IntakeOp.Res o → Prop
  | .update _ ch, r =>
    ∃ card, r = some card ∧ Kept c card ∧ ∀ runs, ch.stageRuns = some runs → card.stageRuns = runs
  | _, _ => True

/-- A request updates its own card, clears no join key, and reads no further. -/
def PressOp (c : Card) (_ : List Stage) : IntakeOp → Prop
  | .update key ch => key = c.cardKey ∧
      (truthy c.correlationKey = true → ∀ x, ch.correlationKey = some x → x ≠ "")
  | .request _ _ => True
  | _ => False

/-- The desk answers such an operation as assumed, and keeps these columns. -/
theorem answered_desk (w : World) (c : Card) (v : List Stage) (o : IntakeOp) (d : Desk)
    (hk : Kept c d.card) (ho : PressOp c v o) :
    Answered c v o (deskHandler w o d).1 ∧ Kept c (deskHandler w o d).2.card := by
  cases o with
  | get key => exact ho.elim
  | getByCorrelationKey key => exact ho.elim
  | report key result => exact ho.elim
  | request service step => exact ⟨trivial, hk⟩
  | update key ch =>
    obtain ⟨hkey, hcorr⟩ := ho
    rw [hkey, ← hk.cardKey, deskHandler_update]
    have hkept : Kept c (ch.apply (w.clock d.steps) d.card) := by
      refine ⟨hk.cardKey, hk.tier, hk.repositoryId, hk.issueRef, ?_⟩
      intro hj
      rw [correlationKey_apply]
      cases hc : ch.correlationKey with
      | none => exact hk.joined hj
      | some x =>
        have hx := hcorr hj x hc
        simp [truthy, hx]
    refine ⟨⟨_, rfl, hkept, ?_⟩, hkept⟩
    intro runs hr
    rw [stageRuns_apply, hr, Option.getD_some]

/-- A truthy join key stays the join key. -/
theorem joinKey_of_joined {card : Card} (h : truthy card.correlationKey = true)
    (ref : Option String) : joinKey card ref ≠ "" := by
  rw [joinKey, if_pos h]
  simpa [truthy] using h

/-- A send adds its stage to what was sent, whatever runs beside it. -/
theorem obeys_sending {c card : Card} (env : IntakeEnv) (s : Stage) {Φ : List Stage → Prop}
    {v : List Stage} (hk : Kept c card) (hΦ : Φ (v ++ [s])) :
    Prog.Obeys sentSoFar (Answered c) (PressOp c) (fun _ ↦ Φ) v (sending env card s) := by
  refine ⟨trivial, fun o _ ↦ ⟨⟨hk.cardKey, ?_⟩, fun r _ ↦ ?_⟩⟩
  · intro hj x hx
    cases ha : accepted o with
    | true =>
      rw [sendChanges_of_accepted env card s ha] at hx
      obtain rfl : joinKey card (answerRef s o) = x := Option.some.inj hx
      exact joinKey_of_joined (hk.joined hj) _
    | false =>
      rw [sendChanges_of_refused env card s ha] at hx
      exact absurd hx (by simp)
  · have hv : sentSoFar (sentSoFar v (.request s.service ⟨"POST", Stage.endpoint s⟩) o)
        (.update card.cardKey (sendChanges env card s o)) r = v ++ [s] := by
      simp [sentSoFar]
    rw [Prog.obeys_pure, hv]
    exact hΦ

/-- A stage that a start owes first may be sent on the queued card if it could before; the
other way, only a join key that appeared meanwhile can have made the difference. -/
theorem sendable_queued {c c' card : Card} {first : Stage} {rest : List Stage} (env : IntakeEnv)
    (hs : Similar c c') (hk : Kept c card) (hflight : ¬ InFlight c')
    (howed : owedStages c' = first :: rest)
    (hruns : card.stageRuns = mergeRuns c'.stageRuns (queuedFields (first :: rest))) :
    (Sendable env c' first → Sendable env card first) ∧
      (Sendable env card first → Sendable env c' first ∨
        (first = .test ∧ truthy c.correlationKey = false)) := by
  have hstatus : stageStatus card = owedStatus (stageStatus c') := by
    rw [← mergeStatus_queuedFields, howed]
    exact stageStatus_of_merged hruns
  have hmem : first ∈ owedStages c' := by simp [howed]
  have hfirst : stageStatus c' first ≠ some .done := by
    simpa [owedStages] using hmem
  have hproject : env.aifactoryProjectId card = env.aifactoryProjectId c' := by
    rw [hs.project, IntakeEnv.aifactoryProjectId, IntakeEnv.aifactoryProjectId, hk.repositoryId,
      hk.issueRef]
  have htier : card.tier = c'.tier := hk.tier.trans hs.tier.symm
  have hcode : stageStatus card .code = some .done ↔ stageStatus c' .code = some .done := by
    rw [hstatus, owedStatus]
    by_cases hd : stageStatus c' .code = some .done <;> simp [hd]
  have hqueued : stageStatus card first = some .queued := by
    rw [hstatus, owedStatus, if_neg hfirst]
  rw [sendable_iff, sendable_iff, hqueued, htier, hproject, hcode]
  constructor
  · rintro ⟨-, ht, htest, hp⟩
    refine ⟨by simp, ht, ?_, hp⟩
    intro h
    obtain ⟨hj, hd⟩ := htest h
    exact ⟨hk.joined (hs.joined.symm.trans hj), hd⟩
  · rintro ⟨-, ht, htest, hp⟩
    by_cases hj : first = .test ∧ truthy c.correlationKey = false
    · exact Or.inr hj
    · refine Or.inl ⟨⟨hfirst, fun h ↦ hflight ⟨first, h⟩⟩, ht, ?_, hp⟩
      intro h
      refine ⟨?_, (htest h).2⟩
      rw [hs.joined]
      simpa using fun hf ↦ hj ⟨h, hf⟩

/-- What a request has sent by its end: its target, or the test stage of a start that found
no join key when it read the card. -/
def SentTarget (p : Press) (c : Card) (v : List Stage) : Prop :=
  v = (p.target c).toList ∨
    (p.kind = .startSequence ∧ p.target c = none ∧ truthy c.correlationKey = false ∧
      (owedStages c).head? = some .test ∧ ¬ InFlight c ∧ v = [.test])

/-- A dispatch of the card sends its target. -/
private theorem obeys_dispatchCard {c c' : Card} (env : IntakeEnv) (hs : Similar c c') :
    Prog.Obeys sentSoFar (Answered c) (PressOp c) (fun _ ↦ SentTarget ⟨env, .dispatchCard⟩ c) []
      (Press.body ⟨env, .dispatchCard⟩ c') := by
  have htarget := hs.target ⟨env, .dispatchCard⟩
  rw [body_dispatchCard]
  simp only [Press.target] at htarget
  by_cases hd : stageStatus c' (defaultStage c') = some .dispatched ∨
      stageStatus c' (defaultStage c') = some .done
  · rw [if_pos hd]
    rw [if_pos (or_assoc.mp (Or.inl hd))] at htarget
    refine Or.inl ?_
    simp only [Press.target, ← htarget, Option.toList_none]
  · rw [if_neg hd]
    by_cases hp : defaultStage c' ≠ .plan ∧ truthy (env.aifactoryProjectId c') = false
    · rw [if_pos hp]
      rw [if_pos (Or.inr (Or.inr hp))] at htarget
      refine ⟨⟨hs.cardKey, by simp⟩, fun r _ ↦ Or.inl ?_⟩
      simp only [Press.target, ← htarget, Option.toList_none, sentSoFar]
    · rw [if_neg hp]
      rw [if_neg (mt or_assoc.mpr (not_or.mpr ⟨hd, hp⟩))] at htarget
      refine obeys_sending env _ hs.kept (Or.inl ?_)
      simp only [Press.target, ← htarget, List.nil_append, Option.toList_some]

/-- So does the start of a sequence, whose stages are queued first. -/
private theorem obeys_startSequence {c c' : Card} (env : IntakeEnv) (hs : Similar c c') :
    Prog.Obeys sentSoFar (Answered c) (PressOp c) (fun _ ↦ SentTarget ⟨env, .startSequence⟩ c) []
      (Press.body ⟨env, .startSequence⟩ c') := by
  have htarget := hs.target ⟨env, .startSequence⟩
  simp only [Press.target] at htarget
  rcases body_startSequence env c' with ⟨hq, hr⟩ | ⟨⟨htier, hflight⟩, first, rest, howed, hr⟩
  · rw [hr]
    refine Or.inl ?_
    have hnone : (Press.target ⟨env, .startSequence⟩ c) = none := by
      simp only [Press.target, ← htarget]
      rcases hq with hq | hq | hq
      · rw [if_pos (Or.inl hq)]
      · rw [if_pos (Or.inr hq)]
      · split
        · rfl
        · rw [hq]
          rfl
    rw [hnone]
    rfl
  · rw [hr]
    have hhead : (owedStages c).head? = some first := by
      rw [← hs.owedStages, howed]
      rfl
    rw [if_neg (not_or.mpr ⟨htier, hflight⟩), howed, List.head?_cons] at htarget
    refine ⟨⟨hs.cardKey, by simp [queueChanges]⟩, ?_⟩
    rintro r ⟨card, rfl, hk, hruns⟩
    obtain ⟨hto, hfrom⟩ := sendable_queued env hs hk hflight howed (hruns _ rfl)
    simp only [Option.getD_some, trySending, sentSoFar]
    by_cases h : Sendable env c' first
    · have hfilter : (some first).filter (fun s ↦ decide (Sendable env c' s)) = some first := by
        simp [h]
      rw [hfilter] at htarget
      rw [if_pos (hto h)]
      refine obeys_sending env first hk (Or.inl ?_)
      simp only [Press.target, ← htarget, List.nil_append, Option.toList_some]
    · have hfilter : (some first).filter (fun s ↦ decide (Sendable env c' s)) = none := by
        simp [h]
      rw [hfilter] at htarget
      by_cases h' : Sendable env card first
      · rw [if_pos h']
        obtain ⟨rfl, hj⟩ := (hfrom h').resolve_left h
        have hflight' : ¬ InFlight c := by
          rintro ⟨s, h⟩
          exact hflight ⟨s, (hs.dispatched s).mpr h⟩
        refine obeys_sending env .test hk (Or.inr ⟨rfl, ?_, hj, hhead, hflight', rfl⟩)
        simp only [Press.target, ← htarget]
      · rw [if_neg h']
        refine Or.inl ?_
        simp only [Press.target, ← htarget, Option.toList_none]

/-- A request that made a similar reading sends its target, whatever runs beside it. -/
theorem obeys_body {c c' : Card} (p : Press) (hs : Similar c c') :
    Prog.Obeys sentSoFar (Answered c) (PressOp c) (fun _ ↦ SentTarget p c) [] (p.body c') := by
  obtain ⟨env, kind⟩ := p
  cases kind with
  | dispatchStage s =>
    have htarget := hs.target ⟨env, .dispatchStage s⟩
    rw [body_dispatchStage, trySending]
    simp only [Press.target] at htarget
    by_cases h : Sendable env c' s
    · rw [if_pos h] at htarget ⊢
      refine obeys_sending env s hs.kept (Or.inl ?_)
      simp only [Press.target, ← htarget, List.nil_append, Option.toList_some]
    · rw [if_neg h] at htarget ⊢
      refine Or.inl ?_
      simp only [Press.target, ← htarget, Option.toList_none]
  | dispatchCard => exact obeys_dispatchCard env hs
  | startSequence => exact obeys_startSequence env hs

/-! ### One request alone -/

/-- The card once what it owes is queued decides as before. -/
theorem similar_queued {c : Card} {first : Stage} {rest : List Stage} (hflight : ¬ InFlight c)
    (howed : owedStages c = first :: rest) (now : Time) :
    Similar c ((queueChanges c (first :: rest)).apply now c) := by
  have hstatus : stageStatus ((queueChanges c (first :: rest)).apply now c) =
      owedStatus (stageStatus c) := by
    rw [← mergeStatus_queuedFields, howed]
    exact stageStatus_merge c c _ {} now
  refine ⟨rfl, rfl, rfl, rfl, ?_, ?_, ?_⟩
  · rw [correlationKey_apply]
    rfl
  · intro s
    rw [hstatus, owedStatus]
    by_cases hd : stageStatus c s = some .done <;> simp [hd]
  · intro s
    rw [hstatus, owedStatus]
    constructor
    · intro h
      split at h <;> simp at h
    · intro h
      exact absurd ⟨s, h⟩ hflight

/-- Until a request has performed its last operation, the card decides as it did when the
request read it. -/
theorem similar_alone (w : World) (p : Press) (c : Card) (n : Nat) :
    Prog.Safe (deskHandler w) (fun d _ ↦ Similar c d.card) (fun _ _ ↦ True) (p.body c) ⟨c, n⟩ := by
  have hsending : ∀ (env : IntakeEnv) (card : Card) (s : Stage) (m : Nat), Similar c card →
      Prog.Safe (deskHandler w) (fun d _ ↦ Similar c d.card) (fun _ _ ↦ True)
        (sending env card s) ⟨card, m⟩ :=
    fun _ _ _ _ hs ↦ ⟨hs, hs, trivial⟩
  obtain ⟨env, kind⟩ := p
  cases kind with
  | dispatchStage s =>
    rw [body_dispatchStage, trySending]
    split
    · exact hsending env c s n (Similar.refl c)
    · trivial
  | dispatchCard =>
    rw [body_dispatchCard]
    split
    · trivial
    · split
      · exact ⟨Similar.refl c, trivial⟩
      · exact hsending env c _ n (Similar.refl c)
  | startSequence =>
    rcases body_startSequence env c with ⟨-, hr⟩ | ⟨⟨-, hflight⟩, first, rest, howed, hr⟩
    · rw [hr]
      trivial
    · have hu := deskHandler_update w ⟨c, n⟩ (queueChanges c (first :: rest))
      rw [hr, Prog.safe_op, hu, Option.getD_some, trySending]
      refine ⟨Similar.refl c, ?_⟩
      split
      · exact hsending env _ first (n + 1) (similar_queued hflight howed _)
      · trivial

/-- What a request run alone does to the records it found. -/
structure Alone (w : World) (c : Card) (tr : List (Desk × IntakeOp)) (d' : Desk) : Prop where
  single : tr.Pairwise fun x y ↦ isSend x = true → isSend y = false
  checked : ∀ x ∈ tr, ∀ s, Sends s x → stageStatus c s ≠ some .dispatched
  recorded : ∀ x ∈ tr, ∀ s, Sends s x → Accepts w x → stageStatus d'.card s = some .dispatched
  keeps : ∀ s, stageStatus c s = some .dispatched → stageStatus d'.card s = some .dispatched

/-- An operation that requests a stage is a request. -/
theorem isSend_of_sends {s : Stage} {x : Desk × IntakeOp} (h : Sends s x) : isSend x = true := by
  obtain ⟨service, step, hx, -⟩ := h
  rw [isSend, hx]

/-- Nothing performed, nothing changed. -/
theorem alone_nil (w : World) (d : Desk) : Alone w d.card [] d :=
  ⟨List.Pairwise.nil, fun _ h ↦ absurd h (by simp), fun _ h ↦ absurd h (by simp), fun _ h ↦ h⟩

/-- Operations before the first send that keep what is in flight. -/
theorem Alone.cons {w : World} {c : Card} {d d' : Desk} {tr : List (Desk × IntakeOp)}
    {x : Desk × IntakeOp} (h : Alone w d.card tr d') (hx : isSend x = false)
    (hc : ∀ s, stageStatus c s = some .dispatched ↔ stageStatus d.card s = some .dispatched) :
    Alone w c (x :: tr) d' := by
  have hnone : ∀ s, ¬ Sends s x := fun s hs ↦ by simp [isSend_of_sends hs] at hx
  refine ⟨?_, ?_, ?_, fun s hs ↦ h.keeps s ((hc s).mp hs)⟩
  · rw [List.pairwise_cons]
    exact ⟨fun y _ h ↦ by simp [hx] at h, h.single⟩
  · intro y hy s hs
    rcases List.mem_cons.mp hy with rfl | hy
    · exact absurd hs (hnone s)
    · exact fun hd ↦ h.checked y hy s hs ((hc s).mp hd)
  · intro y hy s hs ha
    rcases List.mem_cons.mp hy with rfl | hy
    · exact absurd hs (hnone s)
    · exact h.recorded y hy s hs ha

/-- A send of a stage that is not in flight. -/
theorem alone_sending (w : World) (env : IntakeEnv) (d : Desk) (s : Stage)
    (hs : stageStatus d.card s ≠ some .dispatched) :
    Alone w d.card (Prog.trace (deskHandler w) (sending env d.card s) d)
      (Prog.run (deskHandler w) (sending env d.card s) d).2 := by
  have hu := deskHandler_update w ⟨d.card, d.steps + 1⟩
  simp only [sending, Prog.trace_op, Prog.run_op, deskHandler_request, hu, Prog.trace_pure,
    Prog.run_pure]
  have hsends : ∀ x ∈ [(d, IntakeOp.request s.service ⟨"POST", Stage.endpoint s⟩),
      (⟨d.card, d.steps + 1⟩,
        .update d.card.cardKey (sendChanges env d.card s (w.reply d.steps)))],
      ∀ t, Sends t x → t = s ∧ x.1 = d := by
    intro x hx t ht
    obtain ⟨service, step, ho, rfl⟩ := ht
    rcases List.mem_cons.mp hx with rfl | hx
    · cases ho
      exact ⟨stage_service s, rfl⟩
    · obtain rfl := List.mem_singleton.mp hx
      exact absurd ho (by simp)
  refine ⟨?_, ?_, ?_, ?_⟩
  · simp [isSend]
  · intro x hx t ht
    rw [(hsends x hx t ht).1]
    exact hs
  · intro x hx t ht ha
    obtain ⟨rfl, hd⟩ := hsends x hx t ht
    rw [Accepts, hd] at ha
    rw [stageStatus_sendChanges, Function.update_self, ha]
    rfl
  · intro t ht
    rw [stageStatus_sendChanges, Function.update_apply]
    split
    · next he =>
      subst he
      exact absurd ht hs
    · exact ht

/-- A stage whose checks pass is not in flight. -/
theorem not_dispatched_of_sendable {env : IntakeEnv} {card : Card} {s : Stage}
    (h : Sendable env card s) : stageStatus card s ≠ some .dispatched :=
  ((sendable_iff env card s).mp h).1.2

/-- A request run alone. -/
theorem alone_body (w : World) (p : Press) (d : Desk) :
    Alone w d.card (Prog.trace (deskHandler w) (p.body d.card) d)
      (Prog.run (deskHandler w) (p.body d.card) d).2 := by
  obtain ⟨env, kind⟩ := p
  have htry : ∀ (d : Desk) (s : Stage),
      Alone w d.card (Prog.trace (deskHandler w) (trySending env d.card s) d)
        (Prog.run (deskHandler w) (trySending env d.card s) d).2 := by
    intro d s
    unfold trySending
    split
    · next h => exact alone_sending w env d s (not_dispatched_of_sendable h)
    · exact alone_nil w d
  cases kind with
  | dispatchStage s =>
    rw [body_dispatchStage]
    exact htry d s
  | dispatchCard =>
    rw [body_dispatchCard]
    split
    · exact alone_nil w d
    · next hd =>
      split
      · simp only [Prog.trace_op, Prog.run_op, deskHandler_update, Prog.trace_pure, Prog.run_pure]
        have hs := stageStatus_apply { status := some .blocked } rfl (w.clock d.steps)
          d.card
        exact (alone_nil w _).cons rfl fun s ↦ by rw [hs]
      · exact alone_sending w env d _ fun h ↦ hd (Or.inl h)
  | startSequence =>
    rcases body_startSequence env d.card with ⟨-, hr⟩ | ⟨⟨-, hflight⟩, first, rest, howed, hr⟩
    · rw [hr]
      exact alone_nil w d
    · rw [hr]
      simp only [Prog.trace_op, Prog.run_op, deskHandler_update, Option.getD_some]
      have hsim := similar_queued hflight howed (w.clock d.steps)
      exact (htry ⟨_, d.steps + 1⟩ first).cons rfl fun s ↦ (hsim.dispatched s).symm

/-- Two requests one after the other are one dispatch. -/
theorem oneDispatch_serial (w : World) (p q : Press) (d : Desk) :
    OneDispatch w d.card (Prog.trace (deskHandler w) (p.program d.card.cardKey) d ++
      Prog.trace (deskHandler w) (q.program d.card.cardKey)
        (Prog.run (deskHandler w) (p.program d.card.cardKey) d).2) := by
  have halone : ∀ (r : Press) (e : Desk), e.card.cardKey = d.card.cardKey →
      Alone w e.card (Prog.trace (deskHandler w) (r.program d.card.cardKey) e)
        (Prog.run (deskHandler w) (r.program d.card.cardKey) e).2 := by
    intro r e he
    rw [← he]
    simp only [Press.program, Prog.perform_bind, Prog.trace_op, Prog.run_op, deskHandler_get]
    exact (alone_body w r ⟨e.card, e.steps + 1⟩).cons rfl fun s ↦ Iff.rfl
  have hp := halone p d rfl
  have hq := halone q _ (cardKey_run w (p.program d.card.cardKey) d)
  have honce : ∀ {c : Card} {tr : List (Desk × IntakeOp)} {e : Desk}, Alone w c tr e →
      tr.Pairwise fun x y ↦ ∀ s, Sends s x → Accepts w x → ¬ Sends s y := by
    intro c tr e h
    refine h.single.imp ?_
    intro x y hxy s hs _ hs'
    have := hxy (isSend_of_sends hs)
    simp [isSend_of_sends hs'] at this
  constructor
  · rw [List.pairwise_append]
    refine ⟨honce hp, honce hq, ?_⟩
    intro x hx y hy s hs ha hs'
    exact hq.checked y hy s hs' (hp.recorded x hx s hs ha)
  · intro s hd x hx hs
    rcases List.mem_append.mp hx with hx | hx
    · exact hp.checked x hx s hs hd
    · exact hq.checked x hx s hs (hp.keeps s hd)

end CFactory.Intake
