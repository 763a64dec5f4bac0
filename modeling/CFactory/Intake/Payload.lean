import CFactory.Intake.Brief
import CFactory.Intake.IssueNumber
import CFactory.Intake.Refusals
import CFactory.Intake.Targets

/-!
# Payloads and what building one raises

`card_intake.py:186–353,591–744`, `git_config.py:336–372`. A stage is sent with a payload that is
built from the card's free text and from the target it resolves to. Building it happens outside
every handler of exceptions.
-/

namespace CFactory.Payload

open CFactory.Base CFactory.Model CFactory.Cards CFactory.Git CFactory.Status
open CFactory.Targets (Deployment)
open CFactory.Intake

/-- What building a payload uses of the standard library: the characters that `\w` matches, and
the host that `urlsplit` finds in a URL, or none where it raises. -/
structure Library where
  isWord : Char → Bool
  netloc : String → Option String

/-- `kind` in `qualify_repo` and `clone_url`; `git_config.py:344,364`. -/
def providerKind (provider : String) : String :=
  String.ofList ((stripped (if provider = "" then some "github" else some provider)).toList.map
    lower)

/-- `qualify_repo`; `git_config.py:336–345`. -/
def qualifyRepo (provider : String) (project : Option String) : Option String :=
  (Git.truthy project).map fun project ↦
    if providerKind provider = "github" then project
    else providerKind provider ++ ":" ++ project

/-- `project.strip('/')`. -/
def stripSlashes (project : String) : String :=
  String.ofList ((project.toList.dropWhile (· == '/')).rdropWhile (· == '/'))

/-- `clone_url`; `git_config.py:348–372`. -/
def cloneUrl (x : Library) (provider baseUrl : String) (project : Option String) :
    Except ValueError (Option String) :=
  match Git.truthy project with
  | none => .ok none
  | some project =>
    match x.netloc (stripped (some baseUrl)) with
    | none => .error .value
    | some netloc =>
      let host :=
        if providerKind provider = "github" then
          if netloc ≠ "" ∧ netloc ≠ "api.github.com" then some netloc else some "github.com"
        else Git.truthy (some netloc)
      .ok (host.map fun host ↦ "https://" ++ host ++ "/" ++ stripSlashes project ++ ".git")

/-- The request bodies of the three intake doors; `card_intake.py:264–334`. -/
inductive StagePayload where
  | plan (title category channel text : String) (repo : Option String)
  | test (projectId specId specText : String) (gitUrl repo : Option String)
  | code (projectId title body : String) (labels : List String) (number : Option Int)
      (autoContinue : Bool) (repo : Option String)
  deriving DecidableEq

/-- The text of a tier in a label. -/
def tierName : Option CardTier → String
  | none => "None"
  | some .low => "low"
  | some .medium => "medium"
  | some .hard => "hard"

/-- The payload of `prepare_stage`, or none where no project is configured;
`card_intake.py:233–335`. -/
def stagePayload (x : Library) (card : Card) (stage : Stage)
    (projectId repo gitUrl : Option String) : Except ValueError (Option StagePayload) :=
  match stage with
  | .plan =>
    .ok (some (.plan card.title "software" "cfactory" (brief x.isWord card) (Git.truthy repo)))
  | .test =>
    .ok ((Git.truthy projectId).map fun project ↦
      .test project card.cardKey (brief x.isWord card) (Git.truthy gitUrl) (Git.truthy repo))
  | .code =>
    match Git.truthy projectId with
    | none => .ok none
    | some project =>
      (issueNumberPayload card.issueRef).map fun number ↦
        some (.code project card.title (brief x.isWord card) ["factory:" ++ tierName card.tier]
          number true (Git.truthy repo))

/-! ## The entry points -/

/-- What an entry point raises: the error of a target that does not resolve, or that of a payload
that is not built. -/
inductive Raised where
  | target (e : GitError)
  | value (e : ValueError)
  deriving DecidableEq

/-- The environment of a call whose target is resolved. -/
def resolved (env : IntakeEnv) (target : GitTarget) : IntakeEnv :=
  { env with gitProject := fun _ _ ↦ target.aifactoryProjectId }

/-- `repo_ref`; `card_intake.py:186–201`. -/
def repoRef (target : GitTarget) : Option String := qualifyRepo target.provider target.project

/-- `card_clone_url`; `card_intake.py:204–211`. -/
def cardCloneUrl (x : Library) (target : GitTarget) : Except ValueError (Option String) :=
  cloneUrl x target.provider target.baseUrl target.project

/-- Return what the program returns. -/
def returning (p : IntakeM DispatchResult) : IntakeM (Except Raised DispatchResult) := do
  let result ← p
  return .ok result

/-- `dispatch_card`; `card_intake.py:591–632`. -/
def dispatchCard (x : Library) (d : Deployment) (env : IntakeEnv) (card : Card) :
    IntakeM (Except Raised DispatchResult) :=
  if stageStatus card (defaultStage card) = some .dispatched ∨
      stageStatus card (defaultStage card) = some .done then
    returning (Intake.dispatchCard env card)
  else
    match d.target card with
    | .error e => return .error (.target e)
    | .ok target =>
      match stagePayload x card (defaultStage card) target.aifactoryProjectId (repoRef target)
        none with
      | .error e => return .error (.value e)
      | .ok _ => returning (Intake.dispatchCard (resolved env target) card)

/-- `dispatch_stage`; `card_intake.py:653–696`. -/
def dispatchStage (x : Library) (d : Deployment) (env : IntakeEnv) (card : Card) (stage : Stage) :
    IntakeM (Except Raised DispatchResult) :=
  if stageStatus card stage = some .done then returning (Intake.dispatchStage env card stage)
  else
    match d.target card with
    | .error e => return .error (.target e)
    | .ok target =>
      if refuseReason card stage target.aifactoryProjectId ≠ none then
        returning (Intake.dispatchStage (resolved env target) card stage)
      else
        match cardCloneUrl x target with
        | .error e => return .error (.value e)
        | .ok gitUrl =>
          match stagePayload x card stage target.aifactoryProjectId (repoRef target) gitUrl with
          | .error e => return .error (.value e)
          | .ok _ => returning (Intake.dispatchStage (resolved env target) card stage)

/-- `start_sequence`; `card_intake.py:699–744`. -/
def startSequence (x : Library) (d : Deployment) (env : IntakeEnv) (card : Card) :
    IntakeM (Except Raised DispatchResult) :=
  match owedStages card with
  | [] => returning (Intake.startSequence env card)
  | first :: rest =>
    if card.tier = none ∨ InFlight card then returning (Intake.startSequence env card)
    else do
      let stored ← writeRuns card (queuedFields (first :: rest)) {}
      let result ← dispatchStage x d env stored first
      return result.map fun result ↦ { result with sequence := some (first :: rest) }

/-! ## What is raised -/

/-- The text after the last mark is made of digits, and `int` raises on it: one of them is no
decimal digit, or there are too many. -/
def NumberRaises (issueRef : Option String) : Prop :=
  ∃ text head tail, issueRef = some text ∧ text.toList = head ++ '#' :: tail ∧ '#' ∉ tail ∧
    (strip tail ≠ [] ∧ (strip tail).all isDigitChar = true) ∧
    (maxStrDigits < (strip tail).length ∨ ∃ c ∈ strip tail, decimalValue c = none)

/-- `urlsplit` raises on the host of the project that is to be cloned. -/
def CloneRaises (x : Library) (target : GitTarget) : Prop :=
  (Git.truthy target.project).isSome = true ∧
    x.netloc (stripped (some target.baseUrl)) = none

/-- The number of a build raises exactly where `int` does. -/
theorem issueNumberPayload_raises_iff (issueRef : Option String) :
    (∃ e, issueNumberPayload issueRef = .error e) ↔ NumberRaises issueRef := by
  cases issueRef with
  | none =>
    apply iff_of_false
    · rintro ⟨e, he⟩
      cases he
    · rintro ⟨text, -, -, htext, -⟩
      cases htext
  | some text =>
    by_cases hmark : '#' ∈ text.toList
    · obtain ⟨head, tail, hs, htail⟩ := exists_last hmark
      have hraises : NumberRaises (some text) ↔
          (strip tail ≠ [] ∧ (strip tail).all isDigitChar = true) ∧
            (maxStrDigits < (strip tail).length ∨ ∃ c ∈ strip tail, decimalValue c = none) := by
        constructor
        · rintro ⟨text', head', tail', htext, hs', htail', hraises⟩
          obtain rfl : text = text' := Option.some.inj htext
          obtain ⟨-, rfl⟩ := split_last htail htail' (hs.symm.trans hs')
          exact hraises
        · exact fun h ↦ ⟨text, head, tail, rfl, hs, htail, h⟩
      rw [issueNumberPayload_marked hs htail, hraises, ← pyInt_raises_iff]
      by_cases hdigits : strip tail ≠ [] ∧ (strip tail).all isDigitChar = true
      · rw [if_pos hdigits, and_iff_right hdigits]
        cases hint : pyInt (strip tail) with
        | error e => simp [Except.map]
        | ok n => simp [Except.map]
      · rw [if_neg hdigits]
        apply iff_of_false
        · rintro ⟨e, he⟩
          cases he
        · exact fun h ↦ hdigits h.1
    · apply iff_of_false
      · rintro ⟨e, he⟩
        rw [(issueNumberPayload_unmarked hmark)] at he
        cases he
      · rintro ⟨text', head, tail, htext, hs, -⟩
        obtain rfl : text = text' := Option.some.inj htext
        rw [hs] at hmark
        exact hmark (List.mem_append_right _ List.mem_cons_self)

/-- A text that is there is one that Python takes for true. -/
theorem isSome_truthy (text : Option String) :
    (Git.truthy text).isSome = Model.truthy text := by
  cases text with
  | none => rfl
  | some text =>
    by_cases hempty : text = ""
    · rw [hempty]
      rfl
    · simp [Git.truthy, Model.truthy, hempty]

/-- A payload is not built exactly where a build is sent under a number that raises. -/
theorem stagePayload_raises_iff (x : Library) (card : Card) (stage : Stage)
    (projectId repo gitUrl : Option String) :
    (∃ e, stagePayload x card stage projectId repo gitUrl = .error e) ↔
      stage = .code ∧ Model.truthy projectId = true ∧ NumberRaises card.issueRef := by
  rw [← isSome_truthy, ← issueNumberPayload_raises_iff]
  cases stage with
  | plan => simp [stagePayload]
  | test => simp [stagePayload]
  | code =>
    cases hproject : Git.truthy projectId with
    | none => simp [stagePayload, hproject]
    | some project =>
      cases hnumber : issueNumberPayload card.issueRef with
      | error e => simp [stagePayload, hproject, hnumber, Except.map]
      | ok number => simp [stagePayload, hproject, hnumber, Except.map]

/-- A clone URL is not built exactly where `urlsplit` raises. -/
theorem cardCloneUrl_raises_iff (x : Library) (target : GitTarget) :
    (∃ e, cardCloneUrl x target = .error e) ↔ CloneRaises x target := by
  rw [cardCloneUrl, cloneUrl, CloneRaises]
  cases hproject : Git.truthy target.project with
  | none => simp
  | some project =>
    cases hnetloc : x.netloc (stripped (some target.baseUrl)) with
    | none => exact iff_of_true ⟨_, rfl⟩ ⟨rfl, rfl⟩
    | some netloc => simp

/-! ## Who returns a result -/

/-- The program returns a result dictionary. -/
def Answers (w : World) (scope : Option String) (s : TableState)
    (p : IntakeM (Except Raised DispatchResult)) : Prop :=
  ∃ result, (Prog.run (tableHandler w scope) p s).1 = .ok result

/-- Building the payload of a stage raises: the host of its repository has no reading, or it is a
build whose number has none. -/
def BuildRaises (x : Library) (target : GitTarget) (card : Card) (stage : Stage) : Prop :=
  CloneRaises x target ∨ (stage = .code ∧ NumberRaises card.issueRef)

theorem answers_returning (w : World) (scope : Option String) (s : TableState)
    (p : IntakeM DispatchResult) : Answers w scope s (returning p) := by
  rw [Answers, returning, Prog.run_bind]
  exact ⟨_, rfl⟩

theorem not_answers_error (w : World) (scope : Option String) (s : TableState) (e : Raised) :
    ¬ Answers w scope s (Pure.pure (.error e)) := by
  rintro ⟨result, h⟩
  cases h

/-- A dispatch by tier returns unless it routes to a build whose number raises. -/
theorem dispatchCard_answers_iff (x : Library) {d : Deployment} {card : Card} {target : GitTarget}
    (htarget : d.target card = .ok target) (env : IntakeEnv) (w : World) (scope : Option String)
    (s : TableState) :
    Answers w scope s (dispatchCard x d env card) ↔
      ¬ ((stageStatus card .code ≠ some .dispatched ∧ stageStatus card .code ≠ some .done) ∧
        card.tier ≠ some .hard ∧ Model.truthy target.aifactoryProjectId = true ∧
        NumberRaises card.issueRef) := by
  have hroute : defaultStage card = .code ↔ card.tier ≠ some .hard := by
    rw [defaultStage]
    split
    · next hhard => simp [hhard]
    · next hother => simp [hother]
  rw [dispatchCard]
  by_cases hrecorded : stageStatus card (defaultStage card) = some .dispatched ∨
      stageStatus card (defaultStage card) = some .done
  · rw [if_pos hrecorded]
    refine iff_of_true (answers_returning w scope s _) ?_
    rintro ⟨hfresh, htier, -⟩
    rw [hroute.mpr htier] at hrecorded
    exact hrecorded.elim hfresh.1 hfresh.2
  rw [if_neg hrecorded, htarget]
  dsimp only
  have hraises := stagePayload_raises_iff x card (defaultStage card) target.aifactoryProjectId
    (repoRef target) none
  cases hpayload : stagePayload x card (defaultStage card) target.aifactoryProjectId
      (repoRef target) none with
  | error e =>
    obtain ⟨hcode, hproject, hnumber⟩ := hraises.mp ⟨e, hpayload⟩
    rw [hcode, not_or] at hrecorded
    exact iff_of_false (not_answers_error w scope s _)
      (not_not.mpr ⟨hrecorded, hroute.mp hcode, hproject, hnumber⟩)
  | ok payload =>
    refine iff_of_true (answers_returning w scope s _) ?_
    rintro ⟨-, htier, hproject, hnumber⟩
    obtain ⟨e, he⟩ := hraises.mpr ⟨hroute.mpr htier, hproject, hnumber⟩
    rw [hpayload] at he
    cases he

/-- A dispatch of a stage returns unless the stage may be sent and building its payload raises. -/
theorem dispatchStage_answers_iff (x : Library) {d : Deployment} {card : Card}
    {target : GitTarget} (htarget : d.target card = .ok target) (env : IntakeEnv) (stage : Stage)
    (w : World) (scope : Option String) (s : TableState) :
    Answers w scope s (dispatchStage x d env card stage) ↔
      ¬ (Sendable (resolved env target) card stage ∧ BuildRaises x target card stage) := by
  rw [dispatchStage]
  by_cases hdone : stageStatus card stage = some .done
  · rw [if_pos hdone]
    exact iff_of_true (answers_returning w scope s _) fun h ↦ h.1.1 hdone
  rw [if_neg hdone, htarget]
  dsimp only
  by_cases hrefused : refuseReason card stage target.aifactoryProjectId ≠ none
  · rw [if_pos hrefused]
    exact iff_of_true (answers_returning w scope s _) fun h ↦ hrefused h.1.2
  rw [if_neg hrefused]
  rw [not_not] at hrefused
  have hsend : Sendable (resolved env target) card stage := ⟨hdone, hrefused⟩
  rw [and_iff_right hsend, BuildRaises, ← cardCloneUrl_raises_iff]
  cases hclone : cardCloneUrl x target with
  | error e =>
    exact iff_of_false (not_answers_error w scope s _) (not_not.mpr (.inl ⟨e, rfl⟩))
  | ok gitUrl =>
    dsimp only
    have hraises := stagePayload_raises_iff x card stage target.aifactoryProjectId
      (repoRef target) gitUrl
    cases hpayload : stagePayload x card stage target.aifactoryProjectId (repoRef target)
        gitUrl with
    | error e =>
      obtain ⟨hcode, -, hnumber⟩ := hraises.mp ⟨e, hpayload⟩
      exact iff_of_false (not_answers_error w scope s _) (not_not.mpr (.inr ⟨hcode, hnumber⟩))
    | ok payload =>
      refine iff_of_true (answers_returning w scope s _) ?_
      rintro (⟨e, he⟩ | ⟨hcode, hnumber⟩)
      · cases he
      · have hproject := ((sendable_iff _ card stage).mp hsend).2.2.2 (by rw [hcode]; decide)
        obtain ⟨e, he⟩ := hraises.mpr ⟨hcode, hproject, hnumber⟩
        rw [hpayload] at he
        cases he

/-- What the first stage of a sequence is sent with: a tier, a build to verify and a project,
where it needs them. -/
def FirstStageReady (target : GitTarget) (held : Card) (first : Stage) : Prop :=
  held.tier ≠ none ∧ (first = .test → Model.truthy held.correlationKey = true) ∧
    (first ≠ .plan → Model.truthy target.aifactoryProjectId = true)

/-- A sequence returns unless it starts, its first stage is ready to be sent, and building its
payload on the card that the queue records landed on raises. -/
theorem startSequence_answers_iff (x : Library) {d : Deployment} {card : Card} {t : CardTable}
    {scope : Option String} {target : GitTarget}
    (htarget : d.target (heldCard t scope card) = .ok target) (env : IntakeEnv) (w : World)
    (n : Nat) :
    Answers w scope ⟨t, n⟩ (startSequence x d env card) ↔
      ¬ (card.tier ≠ none ∧ ¬ InFlight card ∧ ∃ first, (owedStages card).head? = some first ∧
        FirstStageReady target (heldCard t scope card) first ∧
        BuildRaises x target (heldCard t scope card) first) := by
  rw [startSequence]
  cases howed : owedStages card with
  | nil =>
    refine iff_of_true (answers_returning w scope _ _) ?_
    rintro ⟨-, -, first, hfirst, -⟩
    cases hfirst
  | cons first rest =>
    dsimp only
    by_cases hidle : card.tier = none ∨ InFlight card
    · rw [if_pos hidle]
      refine iff_of_true (answers_returning w scope _ _) ?_
      rintro ⟨htier, hflight, -⟩
      exact hidle.elim htier hflight
    rw [if_neg hidle]
    rw [not_or] at hidle
    have hfirst : (owedStages card).head? = some first := by rw [howed]; rfl
    -- The run goes on from the queue records, on the card that they landed on.
    let queued := queuedCard t scope card (w.clock n)
    let s' : TableState :=
      ⟨(update t scope card.cardKey (queueChanges card (owedStages card)) (w.clock n)).2, n + 1⟩
    have hrun : Answers w scope ⟨t, n⟩ (do
        let stored ← writeRuns card (queuedFields (first :: rest)) {}
        let result ← dispatchStage x d env stored first
        return result.map fun result ↦ { result with sequence := some (first :: rest) }) ↔
          Answers w scope s' (dispatchStage x d env queued first) := by
      have hstep : Prog.run (tableHandler w scope) (do
          let stored ← writeRuns card (queuedFields (first :: rest)) {}
          let result ← dispatchStage x d env stored first
          return result.map fun result ↦ { result with sequence := some (first :: rest) }) ⟨t, n⟩ =
            Prog.run (tableHandler w scope) (dispatchStage x d env queued first >>= fun result ↦
              Pure.pure (result.map fun result ↦
                { result with sequence := some (first :: rest) })) s' := by
        rw [← howed]
        rfl
      rw [Answers, hstep, Prog.run_bind, Prog.run_pure, Answers]
      cases (Prog.run (tableHandler w scope) (dispatchStage x d env queued first) s').1 with
      | error e => simp [Except.map]
      | ok result => simp [Except.map]
    obtain ⟨-, -, hrepo, hissue⟩ := queuedCard_held t scope card (w.clock n)
    have hqueued : d.target queued = .ok target := by
      rw [← htarget, Deployment.target, Deployment.target, gitTargetForCard, gitTargetForCard,
        hrepo, hissue]
    have hready : Sendable (resolved env target) queued first ↔
        FirstStageReady target (heldCard t scope card) first :=
      sendable_queuedCard (resolved env target) t scope (w.clock n) hidle.2 hfirst
    have hbuild : BuildRaises x target queued first ↔
        BuildRaises x target (heldCard t scope card) first := by
      rw [BuildRaises, BuildRaises, hissue]
    rw [hrun, dispatchStage_answers_iff x hqueued env first w scope s', hready, hbuild, not_iff_not]
    constructor
    · exact fun h ↦ ⟨hidle.1, hidle.2, first, rfl, h⟩
    · rintro ⟨-, -, head, hhead, h⟩
      cases hhead
      exact h

/-! ## Every entry point -/

/-- None of the entry points raises on the card. -/
structure DispatchReturns (x : Library) (d : Deployment) (env : IntakeEnv) (w : World)
    (scope : Option String) (s : TableState) (card : Card) : Prop where
  dispatchCard : Answers w scope s (dispatchCard x d env card)
  dispatchStage : ∀ stage, Answers w scope s (dispatchStage x d env card stage)
  startSequence : Answers w scope s (startSequence x d env card)

/-- The card is routed by its tier to a build that is neither in flight nor complete, its target
has a project, and the number in its reference raises. -/
def RoutedBuildRaises (d : Deployment) (card : Card) : Prop :=
  (stageStatus card .code ≠ some .dispatched ∧ stageStatus card .code ≠ some .done) ∧
    card.tier ≠ some .hard ∧ NumberRaises card.issueRef ∧
    ∃ target, d.target card = .ok target ∧ Model.truthy target.aifactoryProjectId = true

/-- The stage passes every check, and building its payload raises. -/
def SentStageRaises (x : Library) (d : Deployment) (env : IntakeEnv) (card : Card)
    (stage : Stage) : Prop :=
  ∃ target, d.target card = .ok target ∧ Sendable (resolved env target) card stage ∧
    BuildRaises x target card stage

/-- The sequence starts, its first stage is ready to be sent on the card that is held, and
building its payload raises. -/
def FirstStageRaises (x : Library) (d : Deployment) (card held : Card) : Prop :=
  card.tier ≠ none ∧ ¬ InFlight card ∧ ∃ first, (owedStages card).head? = some first ∧
    ∃ target, d.target held = .ok target ∧ FirstStageReady target held first ∧
      BuildRaises x target held first

/-- A card that names no repository has a target. -/
private theorem target_of_none (d : Deployment) {card : Card} (h : card.repositoryId = none) :
    ∃ target, d.target card = .ok target := by
  obtain ⟨target, htarget⟩ := Targets.target_of_cleared d card
  rw [← h] at htarget
  exact ⟨target, htarget⟩

/-- Of a resolved target, there is one. -/
private theorem exists_target_iff {d : Deployment} {card : Card} {target : GitTarget}
    (h : d.target card = .ok target) (P : GitTarget → Prop) :
    (∃ target, d.target card = .ok target ∧ P target) ↔ P target := by
  constructor
  · rintro ⟨other, hother, hp⟩
    rw [h] at hother
    cases hother
    exact hp
  · exact fun hp ↦ ⟨target, h, hp⟩

/-- The library on ASCII texts, for a host that has a reading. -/
def asciiLibrary : Library where
  isWord := fun c ↦ c.isAlphanum || c == '_'
  netloc := fun _ ↦ some "api.github.com"

/-- A tenant without repositories, whose deployment names an intake project. -/
def builtTenant : Deployment := ⟨{}, "default", { intakeProjectId := some "proj" }⟩

/-- A card with a reference to an issue. -/
def referencedCard (ref : String) : Card :=
  { cardKey := "FCT-1", title := "Add a health check", tier := some .medium, status := .ready
    issueRef := some ref }

/-- The numeral that `str.isdigit` takes and `int` does not. -/
theorem numberRaises_superscript : NumberRaises (some "acme/app#²") :=
  ⟨_, "acme/app".toList, ['²'], rfl, rfl, by decide, by decide +kernel,
    .inr ⟨'²', List.mem_singleton_self _, by decide +kernel⟩⟩

end CFactory.Payload
