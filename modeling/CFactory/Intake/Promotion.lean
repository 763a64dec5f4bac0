import CFactory.Cards.Patch
import CFactory.Intake.DeadStage
import CFactory.Intake.Press
import CFactory.Intake.Targets

/-!
# Promotion by a PATCH

`card_ops.py:117–192,343–366`, `card_intake.py:591–650`, `github_sync.py:346–380`. `update_card`
stores the body, syncs the card with its issue and hands it to the intake hook, which guards the
stage that the card's tier routes to and no other.
-/

namespace CFactory.Targets

open CFactory.Base CFactory.Model CFactory.Cards CFactory.Git CFactory.Sync
open CFactory.Import (IssueData)
open CFactory.Intake (IntakeM IntakeOp IntakeEnv DispatchResult World TableState stageStatus
  defaultStage tableHandler InFlight)

/-! ## The hooks of a card write -/

/-- `maybe_sync`; `github_sync.py:346–378`. -/
def maybeSync (d : Deployment) (cards : CardTable) (card : Card) (answer : Answer) (now : Time)
    (errorId : String) : Except GitError (Option (SyncResult × CardTable)) := do
  let target ← d.target card
  if !syncEnabled target then return none
  else if Model.truthy card.issueRef = false ∧
      ¬ (card.status = .ready ∧ Model.truthy target.project = true) then return none
  else return some (← syncCard d cards card answer now errorId)

/-- `maybe_dispatch`; `card_intake.py:635–650`. -/
def maybeDispatch (d : Deployment) (env : IntakeEnv) (card : Card) :
    IntakeM (Except GitError (Option DispatchResult)) :=
  if card.status ≠ .ready ∨ card.tier = none then return .ok none
  else do
    let result ← dispatchCard d env card
    return result.map some

/-- What a card write meets outside the store: the host's answer to the sync, the upstreams' to
the dispatch, and the readings of the clock. -/
structure Outside where
  world : World
  env : IntakeEnv := {}
  answer : Answer := .refused
  patchedAt : Time := 0
  syncedAt : Time := 0
  errorId : String := ""

/-- What `update_card` raises. -/
inductive WriteError where
  | store (e : PatchError)
  | notFound (key : String)
  | target (e : GitError)

/-- What a card write returns or raises, the cards it leaves, and what its intake hook has
performed. -/
structure CardWrite where
  result : Except WriteError Card
  cards : CardTable
  performed : List IntakeOp

/-- `_github`; `card_ops.py:170–190`. -/
def github (d : Deployment) (o : Outside) (cards : CardTable) (card : Card) :
    Except GitError (Card × CardTable) :=
  (maybeSync d cards card o.answer o.syncedAt o.errorId).map fun
    | none => (card, cards)
    | some (_, cards) => ((get cards (some d.tenant) card.cardKey).getD card, cards)

/-- `_intake`; `card_ops.py:115–137`. -/
def intake (d : Deployment) (o : Outside) (cards : CardTable) (card : Card) : CardWrite :=
  let run := Prog.run (tableHandler o.world (some d.tenant)) (maybeDispatch d o.env card) ⟨cards, 0⟩
  { result :=
      match run.1 with
      | .error e => .error (.target e)
      | .ok none => .ok card
      | .ok (some _) => .ok ((get run.2.cards (some d.tenant) card.cardKey).getD card)
    cards := run.2.cards
    performed :=
      (Prog.trace (tableHandler o.world (some d.tenant)) (maybeDispatch d o.env card)
        ⟨cards, 0⟩).map Prod.snd }

/-- `update_card`; `card_ops.py:343–366`. -/
def updateCard (binds : CardUpdate → Bool) (d : Deployment) (o : Outside) (key : String)
    (body : CardUpdate) (t : CardTable) : CardWrite :=
  match patch binds (some d.tenant) key body o.patchedAt t with
  | (.error e, t) => ⟨.error (.store e), t, []⟩
  | (.ok none, t) => ⟨.error (.notFound key), t, []⟩
  | (.ok (some card), t) =>
    match github d o t card with
    | .error e => ⟨.error (.target e), t, []⟩
    | .ok (card, t) => intake d o t card

/-! ## What the intake hook sends -/

/-- The intake hook sends the card: it is ready and has a tier, the stage its tier routes to is
neither in flight nor complete, and its target resolves, to a project unless it is planned. -/
def Promoted (d : Deployment) (card : Card) : Prop :=
  card.status = .ready ∧ card.tier ≠ none ∧
    ¬ (stageStatus card (defaultStage card) = some .dispatched ∨
      stageStatus card (defaultStage card) = some .done) ∧
    ∃ target, d.target card = .ok target ∧
      (defaultStage card = .plan ∨ Model.truthy target.aifactoryProjectId = true)

/-- Nothing was sent to an upstream. -/
def SendsNothing (performed : List IntakeOp) : Prop := ∀ op ∈ performed, op.isRequest = false

/-- What is done with the value of a program performs nothing more. -/
private theorem trace_mapped {α β : Type} {σ : Type} (h : Handler IntakeOp IntakeOp.Res σ)
    (p : IntakeM α) (f : α → β) (s : σ) :
    Prog.trace h (p >>= fun a ↦ Pure.pure (f a)) s = Prog.trace h p s := by
  rw [Prog.trace_bind, Prog.trace_pure, List.append_nil]

/-- A dispatch by tier requests an upstream exactly where the stage is neither in flight nor
complete, and has a project or is a plan. -/
theorem dispatchCard_requests_iff (env : IntakeEnv) (card : Card) (w : World)
    (scope : Option String) (s : TableState) :
    (∃ x ∈ Prog.trace (tableHandler w scope) (Intake.dispatchCard env card) s,
      x.2.isRequest = true) ↔
      ¬ (stageStatus card (defaultStage card) = some .dispatched ∨
        stageStatus card (defaultStage card) = some .done) ∧
      (defaultStage card = .plan ∨ Model.truthy (env.aifactoryProjectId card) = true) := by
  have hbody : Prog.trace (tableHandler w scope) (Intake.dispatchCard env card) s =
      Prog.trace (tableHandler w scope) ((⟨env, .dispatchCard⟩ : Intake.Press).body card) s :=
    (trace_mapped _ (Intake.dispatchCard env card) (fun _ ↦ ()) s).symm
  rw [hbody, Intake.body_dispatchCard]
  by_cases hrecorded : stageStatus card (defaultStage card) = some .dispatched ∨
      stageStatus card (defaultStage card) = some .done
  · rw [if_pos hrecorded]
    simp [hrecorded]
  rw [if_neg hrecorded]
  by_cases hproject : defaultStage card ≠ .plan ∧
      Model.truthy (env.aifactoryProjectId card) = false
  · rw [if_pos hproject]
    simp [IntakeOp.isRequest, hproject.1, hproject.2]
  · rw [if_neg hproject]
    have hmay : defaultStage card = .plan ∨ Model.truthy (env.aifactoryProjectId card) = true := by
      by_contra h
      rw [not_or, Bool.not_eq_true] at h
      exact hproject h
    simp [Intake.sending, IntakeOp.isRequest, hrecorded, hmay]

/-- The intake hook sends nothing exactly on a card that it does not promote. -/
theorem intake_sends_nothing_iff (d : Deployment) (o : Outside) (cards : CardTable) (card : Card) :
    SendsNothing (intake d o cards card).performed ↔ ¬ Promoted d card := by
  have hrequests : SendsNothing (intake d o cards card).performed ↔
      ¬ ∃ x ∈ Prog.trace (tableHandler o.world (some d.tenant)) (maybeDispatch d o.env card)
        ⟨cards, 0⟩, x.2.isRequest = true := by
    rw [SendsNothing, intake, List.forall_mem_map]
    simp
  rw [hrequests, not_iff_not, Promoted, maybeDispatch]
  by_cases hintake : card.status ≠ .ready ∨ card.tier = none
  · rw [if_pos hintake]
    constructor
    · rintro ⟨x, hx, -⟩
      exact absurd hx List.not_mem_nil
    · rintro ⟨hready, htier, -⟩
      exact absurd hintake (by simp [hready, htier])
  rw [if_neg hintake, trace_mapped, dispatchCard]
  rw [not_or, not_not] at hintake
  by_cases hrecorded : stageStatus card (defaultStage card) = some .dispatched ∨
      stageStatus card (defaultStage card) = some .done
  · rw [if_pos hrecorded, trace_mapped, dispatchCard_requests_iff]
    simp [hrecorded]
  rw [if_neg hrecorded, Deployment.resolving]
  cases htarget : d.target card with
  | error e => simp
  | ok target =>
    dsimp only
    rw [trace_mapped, dispatchCard_requests_iff]
    simp [hintake.1, hintake.2, IntakeEnv.aifactoryProjectId]

/-! ## The card that the intake hook gets -/

/-- A write syncs the card: sync is configured, and the card has an issue, or is ready and there
is a project to open one in; `github_sync.py:373–379`. -/
def Syncs (target : GitTarget) (card : Card) : Prop :=
  syncEnabled target = true ∧ (Model.truthy card.issueRef = true ∨
    (card.status = .ready ∧ Model.truthy target.project = true))

instance (target : GitTarget) (card : Card) : Decidable (Syncs target card) :=
  inferInstanceAs (Decidable (_ ∧ (_ ∨ (_ ∧ _))))

/-- The issue that the end of a sync mirrors onto the card of a row: one that the host has
answered with, and that no other card tracks; `github_sync.py:323–335`. -/
def mirroredBy (t : CardTable) (r : CardRow) : Phase → Option (IssueRef × IssueData)
  | .mirroring _ ref issue =>
    if holdsIssue t r.id r.card.tenantId (some ref.text) then none else some (ref, issue)
  | _ => none

/-- The issue that a write mirrors onto the card of a row, if it syncs the card. -/
def mirroredIssue (d : Deployment) (t : CardTable) (r : CardRow) (answer : Answer) :
    Option (IssueRef × IssueData) :=
  match d.target r.card with
  | .error _ => none
  | .ok target =>
    if Syncs target r.card then mirroredBy t r (ask r.card target.project answer) else none

/-- What the sync of a card leaves of it. -/
structure Hooked (card card' : Card) (mirrored : Option (IssueRef × IssueData)) : Prop where
  tier : card'.tier = card.tier
  stageRuns : card'.stageRuns = card.stageRuns
  repositoryId : card'.repositoryId = card.repositoryId
  issueRef : card'.issueRef = (mirrored.map fun x ↦ x.1.text).or card.issueRef
  ready : card'.status = .ready ↔
    card.status = .ready ∧ ∀ ref issue, mirrored = some (ref, issue) → issue.state ≠ "closed"

/-- A card that nothing is mirrored onto, and whose row is at most marked. -/
private theorem hooked_none {card card' : Card} (htier : card'.tier = card.tier)
    (hruns : card'.stageRuns = card.stageRuns) (hrepo : card'.repositoryId = card.repositoryId)
    (href : card'.issueRef = card.issueRef) (hstatus : card'.status = card.status) :
    Hooked card card' none where
  tier := htier
  stageRuns := hruns
  repositoryId := hrepo
  issueRef := href
  ready := by rw [hstatus]; simp

/-- An update that leaves the issue alone is what the next read finds. -/
private theorem get_written {t : CardTable} (ht : Indexed t) {scope : Option String} {r : CardRow}
    (hr : getRow t scope r.card.cardKey = some r) (ch : CardChanges) (hch : ch.issueRef = none)
    (now : Time) :
    ∃ t', Cards.updateCard t scope r.card.cardKey ch now =
        .ok (some (ch.apply now r.card), t') ∧
      get t' scope r.card.cardKey = some (ch.apply now r.card) := by
  have hkept : (ch.apply now r.card).issueRef = r.card.issueRef := by
    rw [CardChanges.apply, hch]
    rfl
  have hfree : holdsIssue t r.id r.card.tenantId (ch.apply now r.card).issueRef = false := by
    rw [hkept]
    exact ht.holdsIssue_self (getRow_spec hr).1
  obtain ⟨t', hok, hrow⟩ := updateCard_ok hr hfree
  exact ⟨t', hok, by rw [Cards.get, hrow]; rfl⟩

/-- What the end of a sync leaves of the card. -/
private theorem hooked_finish {t : CardTable} (ht : Indexed t) {scope : Option String}
    {r : CardRow} (hr : getRow t scope r.card.cardKey = some r) (project : Option String)
    (answer : Answer) (now : Time) (errorId : String) :
    Hooked r.card
      ((Cards.get (finish t scope (ask r.card project answer) now errorId) scope
        r.card.cardKey).getD r.card)
      (mirroredBy t r (ask r.card project answer)) := by
  have hget : Cards.get t scope r.card.cardKey = some r.card := by rw [Cards.get, hr]; rfl
  rcases ask_cases r.card project answer with ⟨missing, hask⟩ | ⟨ref, issue, hask⟩
  · have hnone : mirroredBy t r (.failed r.card missing) = none := rfl
    obtain ⟨t', hok, hrow⟩ := get_written ht hr
      { githubSyncError := some (some ("the provider call failed (reference " ++ errorId ++ ")"))
        issueState := if missing then some (some "missing") else none } rfl now
    rw [hask, hnone]
    simp only [finish, hok, hrow, Option.getD_some]
    exact hooked_none rfl rfl rfl rfl rfl
  · have hby : mirroredBy t r (.mirroring r.card ref issue) =
        if holdsIssue t r.id r.card.tenantId (some ref.text) then none else some (ref, issue) := rfl
    have href := issueRef_mirror r.card ref issue now
    have hready := ready_mirror_iff r.card ref issue now
    rw [hask, hby]
    by_cases hheld : holdsIssue t r.id r.card.tenantId (some ref.text) = true
    · have hchanges : mirror r.card ref issue ≠ {} := by
        intro hempty
        have hown : r.card.issueRef = some ref.text := by
          rw [hempty] at href
          exact href
        rw [← hown, ht.holdsIssue_self (getRow_spec hr).1] at hheld
        cases hheld
      have herror : Cards.updateCard t scope r.card.cardKey (mirror r.card ref issue) now =
          .error .duplicateIssueRef := by
        rw [Cards.updateCard, hr]
        exact if_pos (by rw [href]; exact hheld)
      obtain ⟨t', hok, hrow⟩ := get_written ht hr
        { githubSyncError := some (some ("another card already tracks " ++ ref.text)) } rfl now
      rw [if_pos hheld]
      simp only [finish, if_neg hchanges, herror, hok, hrow, Option.getD_some]
      exact hooked_none rfl rfl rfl rfl rfl
    · rw [if_neg hheld]
      rw [Bool.not_eq_true] at hheld
      have hwritten : Cards.get (finish t scope (.mirroring r.card ref issue) now errorId) scope
          r.card.cardKey = some r.card ∧ mirror r.card ref issue = {} ∨
          Cards.get (finish t scope (.mirroring r.card ref issue) now errorId) scope
            r.card.cardKey = some ((mirror r.card ref issue).apply now r.card) := by
        by_cases hempty : mirror r.card ref issue = {}
        · left
          simp only [finish, if_pos hempty]
          exact ⟨hget, hempty⟩
        · right
          have hfree : holdsIssue t r.id r.card.tenantId
              ((mirror r.card ref issue).apply now r.card).issueRef = false := by
            rw [href]
            exact hheld
          obtain ⟨t', hok, hrow⟩ := updateCard_ok hr hfree
          simp only [finish, if_neg hempty, hok]
          rw [Cards.get, hrow]
          rfl
      have hstate : (∀ ref' issue', some (ref, issue) = some (ref', issue') →
          issue'.state ≠ "closed") ↔ issue.state ≠ "closed" := by
        constructor
        · exact fun h ↦ h ref issue rfl
        · intro h ref' issue' hsame
          cases hsame
          exact h
      rcases hwritten with ⟨hsame, hempty⟩ | hrow
      · rw [hempty] at href hready
        rw [hsame, Option.getD_some]
        exact ⟨rfl, rfl, rfl, href, by rw [hstate]; exact hready⟩
      · rw [hrow, Option.getD_some]
        exact ⟨rfl, rfl, rfl, href, by rw [hstate]; exact hready⟩

/-- Once its target is resolved, the sync hook syncs the card or does nothing. -/
private theorem maybeSync_of_target {d : Deployment} {card : Card} {target : GitTarget}
    (h : d.target card = .ok target) (t : CardTable) (answer : Answer) (now : Time)
    (errorId : String) :
    (¬ Syncs target card ∧ maybeSync d t card answer now errorId = .ok none) ∨
      (Syncs target card ∧ ∃ result, maybeSync d t card answer now errorId =
        .ok (some (result,
          finish t (some d.tenant) (ask card target.project answer) now errorId))) := by
  rw [maybeSync, h]
  dsimp only [Bind.bind, Except.bind]
  by_cases henabled : syncEnabled target = true
  · by_cases hevent : Model.truthy card.issueRef = false ∧
        ¬ (card.status = .ready ∧ Model.truthy target.project = true)
    · left
      rw [if_neg (by simp [henabled]), if_pos hevent]
      refine ⟨?_, rfl⟩
      rintro ⟨-, hissue | hproject⟩
      · rw [hevent.1] at hissue
        cases hissue
      · exact hevent.2 hproject
    · right
      rw [if_neg (by simp [henabled]), if_neg hevent, syncCard, h]
      dsimp only [Bind.bind, Except.bind]
      rw [if_neg (by simp [henabled])]
      refine ⟨⟨henabled, ?_⟩, _, rfl⟩
      by_contra hnot
      rw [not_or, Bool.not_eq_true] at hnot
      exact hevent hnot
  · left
    rw [if_pos (by simpa using henabled)]
    exact ⟨fun hsyncs ↦ henabled hsyncs.1, rfl⟩

/-- What the sync hook of a write leaves of the card, unless its target does not resolve. -/
theorem github_spec {d : Deployment} {t : CardTable} (ht : Indexed t) {r : CardRow}
    (hr : getRow t (some d.tenant) r.card.cardKey = some r) (o : Outside) :
    (∃ e, d.target r.card = .error e ∧ github d o t r.card = .error e) ∨
      ∃ target card' t', d.target r.card = .ok target ∧ github d o t r.card = .ok (card', t') ∧
        Hooked r.card card' (mirroredIssue d t r o.answer) := by
  cases htarget : d.target r.card with
  | error e =>
    left
    refine ⟨e, rfl, ?_⟩
    rw [github, maybeSync, htarget]
    rfl
  | ok target =>
    right
    rcases maybeSync_of_target htarget t o.answer o.syncedAt o.errorId with
      ⟨hquiet, hrun⟩ | ⟨hsyncs, result, hrun⟩
    · have hnone : mirroredIssue d t r o.answer = none := by
        rw [mirroredIssue, htarget]
        exact if_neg hquiet
      refine ⟨target, r.card, t, rfl, ?_, ?_⟩
      · rw [github, hrun]
        rfl
      · rw [hnone]
        exact hooked_none rfl rfl rfl rfl rfl
    · have hsome : mirroredIssue d t r o.answer =
          mirroredBy t r (ask r.card target.project o.answer) := by
        rw [mirroredIssue, htarget]
        exact if_pos hsyncs
      let t' := finish t (some d.tenant) (ask r.card target.project o.answer) o.syncedAt o.errorId
      refine ⟨target, (Cards.get t' (some d.tenant) r.card.cardKey).getD r.card, t', rfl, ?_, ?_⟩
      · rw [github, hrun]
        rfl
      · rw [hsome]
        exact hooked_finish ht hr target.project o.answer o.syncedAt o.errorId

/-- A card that the intake hook gets is promoted exactly where it was to be promoted with the
issue mirrored onto it, and that issue is not closed. -/
theorem promoted_hooked_iff {d : Deployment} {card card' : Card}
    {mirrored : Option (IssueRef × IssueData)} (h : Hooked card card' mirrored) :
    Promoted d card' ↔
      Promoted d { card with issueRef := (mirrored.map fun x ↦ x.1.text).or card.issueRef } ∧
        ∀ ref issue, mirrored = some (ref, issue) → issue.state ≠ "closed" := by
  have htarget : d.target card' =
      d.target { card with issueRef := (mirrored.map fun x ↦ x.1.text).or card.issueRef } := by
    rw [Deployment.target, Deployment.target, gitTargetForCard, gitTargetForCard, h.repositoryId,
      h.issueRef]
  have hstage : defaultStage card' = defaultStage card := by
    rw [defaultStage, defaultStage, h.tier]
  have hruns : ∀ s, stageStatus card' s = stageStatus card s := by
    intro s
    rw [stageStatus, stageStatus, h.stageRuns]
  rw [Promoted, Promoted, h.ready, h.tier, htarget, hstage, hruns]
  constructor
  · rintro ⟨⟨hready, hopen⟩, htier, hfresh, hproject⟩
    exact ⟨⟨hready, htier, hfresh, hproject⟩, hopen⟩
  · rintro ⟨⟨hready, htier, hfresh, hproject⟩, hopen⟩
    exact ⟨⟨hready, hopen⟩, htier, hfresh, hproject⟩

/-! ## A PATCH while a stage is in flight -/

/-- The PATCH is stored and its target resolves. It leaves the card ready and with a tier, no
closed issue is mirrored onto it, the stage its tier routes to is itself neither in flight nor
complete, and that stage has a project or is a plan. -/
def Overtakes (binds : CardUpdate → Bool) (d : Deployment) (o : Outside) (t : CardTable)
    (r : CardRow) (body : CardUpdate) : Prop :=
  let card := body.changes.apply o.patchedAt r.card
  let mirrored := mirroredIssue d t { r with card := card } o.answer
  (binds body = true ∧ ¬ (body.NullsColumn ∨ IssueTaken t r body) ∧ ¬ body.NullsCriteria) ∧
    (∃ target, d.target card = .ok target) ∧
    Promoted d { card with issueRef := (mirrored.map fun x ↦ x.1.text).or card.issueRef } ∧
    ∀ ref issue, mirrored = some (ref, issue) → issue.state ≠ "closed"

/-- A change of a row leaves the issues of the others as they are. -/
private theorem holdsIssue_modifyRow (t : CardTable) (id : Nat) (f : Card → Card)
    (tenant : String) (ref : Option String) :
    holdsIssue (modifyRow t id f) id tenant ref = holdsIssue t id tenant ref := by
  cases ref with
  | none => rfl
  | some ref =>
    rw [holdsIssue, holdsIssue, modifyRow, List.any_map]
    congr 1
    funext q
    by_cases hid : q.id = id
    · simp [hid]
    · simp [hid]

/-- What is mirrored does not depend on the write of the row itself. -/
private theorem mirroredIssue_modifyRow (d : Deployment) (t : CardTable) (r : CardRow)
    (f : Card → Card) (answer : Answer) :
    mirroredIssue d (modifyRow t r.id f) r answer = mirroredIssue d t r answer := by
  have hby : mirroredBy (modifyRow t r.id f) r = mirroredBy t r := by
    funext phase
    cases phase with
    | mirroring card ref issue => simp only [mirroredBy, holdsIssue_modifyRow]
    | read card => rfl
    | failed card missing => rfl
  rw [mirroredIssue, mirroredIssue, hby]

/-- A PATCH of a card sends nothing exactly where it does not overtake. -/
theorem updateCard_sends_nothing_iff {t : CardTable} (ht : Indexed t) {d : Deployment}
    {key : String} {r : CardRow} (hr : getRow t (some d.tenant) key = some r)
    (binds : CardUpdate → Bool) (o : Outside) (body : CardUpdate) :
    SendsNothing (updateCard binds d o key body t).performed ↔ ¬ Overtakes binds d o t r body := by
  have hnothing : SendsNothing [] := fun op hop ↦ absurd hop List.not_mem_nil
  have hmem := (getRow_spec hr).1
  have hpatch := patch_of_row hr binds body o.patchedAt
  rcases patchRow_cases ht hmem binds body o.patchedAt with
    ⟨hbinds, hrun⟩ | ⟨-, hbroken, hrun⟩ | ⟨-, -, hcriteria, hrun⟩ |
      ⟨hbinds, hfree, hcriteria, hrun⟩
  · rw [updateCard, hpatch, Call.transact_of_error hrun]
    refine iff_of_true hnothing fun h ↦ ?_
    exact Bool.false_ne_true (hbinds.symm.trans h.1.1)
  · rw [updateCard, hpatch, Call.transact_of_error hrun]
    exact iff_of_true hnothing fun h ↦ h.1.2.1 hbroken
  · rw [updateCard, hpatch, Call.transact_of_error hrun]
    exact iff_of_true hnothing fun h ↦ h.1.2.2 hcriteria
  rw [updateCard, hpatch, Call.transact_of_ok hrun]
  dsimp only
  -- The row as the PATCH leaves it, on the table as the PATCH leaves it.
  let row : CardRow := { r with card := body.changes.apply o.patchedAt r.card }
  let t' := modifyRow t r.id (body.changes.apply o.patchedAt)
  have hkey : row.card.cardKey = key := (getRow_spec hr).2.2
  have hheld : holdsIssue t r.id r.card.tenantId row.card.issueRef = false := by
    rw [← Bool.not_eq_true]
    exact fun h ↦ hfree (.inr ((holdsIssue_patched_iff ht hmem body o.patchedAt).mp h))
  have hindexed : Indexed t' := indexed_updateCard ht hr hheld
  have hrow : getRow t' (some d.tenant) row.card.cardKey = some row := by
    rw [hkey, getRow_modifyRow (body.changes.apply_found o.patchedAt), hr, Option.map_some,
      if_pos rfl]
  rcases github_spec hindexed hrow o with
    ⟨e, herror, hhook⟩ | ⟨target, card', t'', htarget, hhook, hcard⟩
  · have hraised : github d o (modifyRow t r.id (body.changes.apply o.patchedAt))
        (body.changes.apply o.patchedAt r.card) = .error e := hhook
    rw [hraised]
    refine iff_of_true hnothing fun h ↦ ?_
    obtain ⟨target, htarget⟩ := h.2.1
    exact absurd (herror.symm.trans htarget) (by simp)
  · have hreturned : github d o (modifyRow t r.id (body.changes.apply o.patchedAt))
        (body.changes.apply o.patchedAt r.card) = .ok (card', t'') := hhook
    rw [hreturned]
    dsimp only
    rw [mirroredIssue_modifyRow d t row] at hcard
    rw [intake_sends_nothing_iff, promoted_hooked_iff hcard, not_iff_not]
    constructor
    · exact fun h ↦ ⟨⟨hbinds, hfree, hcriteria⟩, ⟨target, htarget⟩, h⟩
    · exact fun h ↦ h.2.2

/-- A tenant without repositories, whose deployment names an intake project. -/
def projectOnly : Deployment := ⟨{}, "default", { intakeProjectId := some "proj" }⟩

/-- A card whose plan is in flight. -/
def planningCard (tier : CardTier) : Card :=
  { cardKey := "FCT-1", title := "Add a health check", tier := some tier
    status := .inProgress, correlationKey := some "p-1"
    stageRuns := fun s ↦
      if s = .plan then some { service := some .pfactory, status := some .dispatched } else none }

/-- The indexes hold of a single card. -/
theorem indexed_planningCard (tier : CardTier) : Indexed [⟨1, planningCard tier⟩] := by
  constructor
  · simp [Keyed]
  · simp
  · simp

end CFactory.Targets
