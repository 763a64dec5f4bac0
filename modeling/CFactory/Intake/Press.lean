import CFactory.Intake.Sequence
import CFactory.Base.Pool

/-!
# Stage requests

`card_intake.py:591–744`. A press of a stage button is one of three requests. Each reads the
card, decides on that reading which stage it sends, and writes the stage's record after the
answer. This module gives the decision and the operations that follow it.
-/

namespace CFactory.Intake

open CFactory.Base CFactory.Model CFactory.Cards CFactory.Actions CFactory.Status

/-- The three entry points that send a stage. -/
inductive PressKind where
  | dispatchStage (stage : Stage)
  | dispatchCard
  | startSequence

/-- One request for a stage of a card. -/
structure Press where
  env : IntakeEnv
  kind : PressKind

/-- The request once it has read its card. -/
def Press.body (p : Press) (card : Card) : IntakeM Unit :=
  match p.kind with
  | .dispatchStage stage => do
    let _ ← Intake.dispatchStage p.env card stage
    return ()
  | .dispatchCard => do
    let _ ← Intake.dispatchCard p.env card
    return ()
  | .startSequence => do
    let _ ← Intake.startSequence p.env card
    return ()

/-- The request: the card is read first, and a missing one is not sent anywhere. -/
def Press.program (p : Press) (key : String) : IntakeM Unit := do
  match ← getCard key with
  | none => return ()
  | some card => p.body card

/-- The stage that a request sends on the card it read. -/
def Press.target (p : Press) (card : Card) : Option Stage :=
  match p.kind with
  | .dispatchStage stage => if Sendable p.env card stage then some stage else none
  | .dispatchCard =>
    if stageStatus card (defaultStage card) = some .dispatched ∨
        stageStatus card (defaultStage card) = some .done ∨
        (defaultStage card ≠ .plan ∧ truthy (p.env.aifactoryProjectId card) = false) then none
    else some (defaultStage card)
  | .startSequence =>
    if card.tier = none ∨ InFlight card then none
    else (owedStages card).head?.filter fun s ↦ decide (Sendable p.env card s)

/-! ### Readings that decide alike -/

/-- Readings on which every request decides alike. -/
structure Similar (c c' : Card) : Prop where
  cardKey : c'.cardKey = c.cardKey
  tier : c'.tier = c.tier
  repositoryId : c'.repositoryId = c.repositoryId
  issueRef : c'.issueRef = c.issueRef
  joined : truthy c'.correlationKey = truthy c.correlationKey
  done : ∀ s, stageStatus c' s = some .done ↔ stageStatus c s = some .done
  dispatched : ∀ s, stageStatus c' s = some .dispatched ↔ stageStatus c s = some .dispatched

/-- A reading is similar to itself. -/
theorem Similar.refl (c : Card) : Similar c c :=
  ⟨rfl, rfl, rfl, rfl, rfl, fun _ ↦ Iff.rfl, fun _ ↦ Iff.rfl⟩

/-- The intake project does not depend on what stage actions write. -/
theorem Similar.project {c c' : Card} (h : Similar c c') (env : IntakeEnv) :
    env.aifactoryProjectId c' = env.aifactoryProjectId c := by
  rw [IntakeEnv.aifactoryProjectId, IntakeEnv.aifactoryProjectId, h.repositoryId, h.issueRef]

/-- Similar readings allow the same stages. -/
theorem Similar.sendable {c c' : Card} (h : Similar c c') (env : IntakeEnv) (s : Stage) :
    Sendable env c' s ↔ Sendable env c s := by
  rw [sendable_iff, sendable_iff, h.tier, h.joined, h.project env]
  simp only [ne_eq, h.done, h.dispatched]

/-- Similar readings have the same default stage. -/
theorem Similar.defaultStage {c c' : Card} (h : Similar c c') :
    defaultStage c' = defaultStage c := by
  rw [Intake.defaultStage, Intake.defaultStage, h.tier]

/-- Similar readings owe the same stages. -/
theorem Similar.owedStages {c c' : Card} (h : Similar c c') : owedStages c' = owedStages c := by
  unfold Intake.owedStages
  congr 1
  funext s
  simp only [ne_eq, h.done]

/-- Every request decides alike on similar readings. -/
theorem Similar.target {c c' : Card} (h : Similar c c') (p : Press) : p.target c' = p.target c := by
  have hflight : InFlight c' ↔ InFlight c := exists_congr h.dispatched
  unfold Press.target
  cases p.kind with
  | dispatchStage stage => simp only [h.sendable]
  | dispatchCard => simp only [h.defaultStage, h.project, h.done, h.dispatched]
  | startSequence => simp only [h.tier, hflight, h.owedStages, h.sendable]

/-! ### What a request performs -/

/-- One request upstream and the record of its answer. -/
def sending (env : IntakeEnv) (card : Card) (s : Stage) : IntakeM Unit :=
  .op (.request s.service ⟨"POST", Stage.endpoint s⟩) fun o ↦
    .op (.update card.cardKey (sendChanges env card s o)) fun _ ↦ Pure.pure ()

/-- The stage is sent if its checks pass. -/
def trySending (env : IntakeEnv) (card : Card) (s : Stage) : IntakeM Unit :=
  if Sendable env card s then sending env card s else Pure.pure ()

/-- The update that queues what is owed. -/
def queueChanges (card : Card) (todo : List Stage) : StageChanges :=
  { stageRuns := some (mergeRuns card.stageRuns (queuedFields todo)) }

/-- A stage request performs its send, or nothing. -/
theorem body_dispatchStage (env : IntakeEnv) (card : Card) (s : Stage) :
    (⟨env, .dispatchStage s⟩ : Press).body card = trySending env card s := by
  unfold trySending
  by_cases h : Sendable env card s
  · rw [if_pos h]
    simp only [Press.body, dispatchStage_of_sendable h, Prog.op_bind, Prog.pure_bind]
    rfl
  · obtain ⟨result, hr⟩ := dispatchStage_of_not_sendable h
    rw [if_neg h]
    simp only [Press.body, hr, Prog.pure_bind]

/-- A card request is quiet, blocks the card, or sends the stage its tier routes to. -/
theorem body_dispatchCard (env : IntakeEnv) (card : Card) :
    (⟨env, .dispatchCard⟩ : Press).body card =
      if stageStatus card (defaultStage card) = some .dispatched ∨
          stageStatus card (defaultStage card) = some .done then Pure.pure ()
      else if defaultStage card ≠ .plan ∧ truthy (env.aifactoryProjectId card) = false then
        .op (.update card.cardKey { status := some .blocked }) fun _ ↦ Pure.pure ()
      else sending env card (defaultStage card) := by
  simp only [Press.body, dispatchCard, prepareDispatch, prepareStage]
  split
  · rfl
  · by_cases hp : defaultStage card ≠ .plan ∧ truthy (env.aifactoryProjectId card) = false
    · rw [if_pos hp, if_pos hp]
      rfl
    · rw [if_neg hp, if_neg hp]
      simp only [send_eq, Prog.op_bind, Prog.pure_bind]
      rfl

/-- A start is quiet, or queues what is owed and tries the first of it on the card it gets
back. -/
theorem body_startSequence (env : IntakeEnv) (card : Card) :
    ((card.tier = none ∨ InFlight card ∨ owedStages card = []) ∧
      (⟨env, .startSequence⟩ : Press).body card = Pure.pure ()) ∨
    ((card.tier ≠ none ∧ ¬ InFlight card) ∧ ∃ first rest, owedStages card = first :: rest ∧
      (⟨env, .startSequence⟩ : Press).body card =
        .op (.update card.cardKey (queueChanges card (first :: rest))) fun stored ↦
          trySending env (stored.getD card) first) := by
  rcases startSequence_cases env card with ⟨hq, result, hr⟩ | ⟨hc, first, rest, howed, hr⟩
  · refine Or.inl ⟨hq, ?_⟩
    simp only [Press.body, hr, Prog.pure_bind]
  · refine Or.inr ⟨hc, first, rest, howed, ?_⟩
    simp only [Press.body, hr, writeRuns, Prog.perform_bind, Prog.op_bind, Prog.pure_bind,
      queueChanges, bind_assoc]
    congr 1
    funext stored
    exact body_dispatchStage env (stored.getD card) first

end CFactory.Intake
