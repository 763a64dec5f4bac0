import CFactory.Cards.Spelling
import CFactory.Git.Access
import CFactory.Import.Board
import CFactory.Sync.OneIssue

/-!
# One card for one issue

`cards.py:829–926,1385–1406`, `github_sync.py:83–115,265–343`, `issue_import.py:257–307`. A board
under the calls of its stores, the imports, and any number of syncs step by step. Imports and
syncs write references as they render; a create and an update write what they are given.
-/

namespace CFactory.Sync

open CFactory.Base
open CFactory.Model
open CFactory.Cards
open CFactory.Git
open CFactory.Import

/-- A board and the syncs in flight on its cards. -/
structure SyncedBoard where
  board : Board := {}
  syncs : Nat → Option Phase := fun _ ↦ none

/-- A call of a store or an import through it, or a step of `sync_card`. -/
inductive CardStep where
  | store (call : BoardCall)
  | readCard (sync : Nat) (key : String)
  | askHost (sync : Nat) (settings : GitSettings) (answer : Answer)
  | storeMirror (sync : Nat) (now : Time) (errorId : String)

/-- The project of the card's target, where a new issue is opened; `github_sync.py:285,163`. -/
def targetProject (g : GitTables) (tenant : String) (settings : GitSettings) (card : Card) :
    Except GitError (Option String) :=
  (gitTargetForCard { git := g } tenant settings card).map GitTarget.project

/-- One step through a store with a scope. A sync whose target cannot be resolved raises. -/
def cardStep (nocase : Bool) (x : SyncedBoard) : Option String × CardStep → SyncedBoard
  | (scope, .store call) => { x with board := boardCall nocase scope x.board call }
  | (scope, .readCard c key) =>
    match get x.board.cards scope key with
    | none => x
    | some card => { x with syncs := Function.update x.syncs c (some (.read card)) }
  | (scope, .askHost c settings answer) =>
    match x.syncs c with
    | some (.read card) =>
      { x with
        syncs := Function.update x.syncs c
          ((targetProject x.board.git (tenantOf scope) settings card).toOption.map fun project ↦
            ask card project answer) }
    | _ => x
  | (scope, .storeMirror c now errorId) =>
    match x.syncs c with
    | some (.read _) => x
    | some phase =>
      { board := { x.board with cards := finish x.board.cards scope phase now errorId }
        syncs := Function.update x.syncs c none }
    | none => x

/-- What a create and an update are given as a reference is spelled as it renders. -/
def WritesCanonical (_ : SyncedBoard) : Option String × CardStep → Prop
  | (_, .store (.createCard body _)) => ∀ ref, body.issueRef = some ref → Canonical ref
  | (_, .store (.updateCard _ changes _)) =>
    ∀ ref, changes.issueRef = some (some ref) → Canonical ref
  | _ => True

/-- The tables are in order, and every reference stored or about to be stored is canonical. -/
structure Tracked (x : SyncedBoard) : Prop where
  sound : Sound x.board
  refs : CanonicalRefs x.board.cards
  syncs : ∀ c card ref issue, x.syncs c = some (.mirroring card ref issue) → Canonical ref.text

/-! ## Imports -/

/-- An upsert in a project adds canonical references only. -/
theorem canonicalRefs_importOne {t : CardTable} (h : CanonicalRefs t) {ref : IssueRef}
    (href : Canonical ref.text) (scope : Option String) (repositoryId : Option Nat) (now : Time)
    (issue : IssueData) (fault : Fault) :
    CanonicalRefs (importOne scope repositoryId now t ref issue fault).2 := by
  rcases importOne_cases scope repositoryId now t ref issue fault with
    ht | ⟨c, q, -, -, -, -, ht⟩ | ⟨key, -, -, ht⟩
  · rw [ht]
    exact h
  · rw [ht]
    exact h.modifyRow q.id fun c ref hc ↦ .inl hc
  · rw [ht]
    apply h.append
    intro text htext
    split at htext
    · cases htext
      exact href
    · cases htext
      exact href

/-- A pass over a project adds canonical references only. -/
theorem canonicalRefs_importPass {t : CardTable} (h : CanonicalRefs t) {project : String}
    (hproject : isProject project.toList = true) (nocase : Bool) (scope : Option String)
    (repositoryId : Option Nat) (backfillMax : Int) (comments : Option (Group → GroupAnswer))
    (now : Time) (rows : List CommentRow) (returned : List Returned) :
    CanonicalRefs (importPass nocase scope project repositoryId backfillMax comments now t rows
      returned).1 := by
  have hall : CanonicalRefs (importAll scope project repositoryId now t returned) := by
    apply foldl_invariant _ h
    intro t' r ht'
    exact canonicalRefs_importOne ht' (canonical_text _ (head_project hproject)) _ _ _ _ _
  intro r hr ref href
  obtain ⟨q, hq, -, hcard⟩ := mem_of_unmarked (unmarked_importPass ..) hr
  rw [hcard] at href
  exact hall q hq ref href

/-- An import adds canonical references only. -/
theorem canonicalRefs_importRepository {b b' : Board} (h : CanonicalRefs b.cards) {nocase : Bool}
    {scope : Option String} {repositoryId : Option Nat} {project : Option String}
    {read : ImportRead} {report : Option PassReport}
    (himport : importRepository nocase scope b repositoryId project read = .ok (report, b')) :
    CanonicalRefs b'.cards := by
  rw [importRepository] at himport
  dsimp only at himport
  cases htarget : Import.gitTargetFor b.git (tenantOf scope) read.githubRepo repositoryId
      project with
  | error e =>
    rw [htarget] at himport
    cases himport
  | ok target =>
    rw [htarget] at himport
    have hpass := Except.ok.inj himport
    dsimp only at hpass
    generalize stripped (if project.getD "" = "" then target.importProject else project) = path
      at hpass
    split at hpass
    · cases hpass
      exact h
    · next hguard =>
      rw [Bool.or_eq_true, not_or, Bool.not_eq_true, Bool.not_eq_true, Bool.not_eq_false',
        Bool.not_eq_false'] at hguard
      split at hpass
      · cases hpass
        exact h
      · cases hpass
        exact canonicalRefs_importPass h hguard.2 _ _ _ _ _ _ _ _

/-! ## Syncs -/

/-- A target's project starts with no white space: it is a stored project path, or the
environment's text stripped. -/
theorem head_targetProject {g : GitTables} (h : Configured g) {tenant : String}
    {settings : GitSettings} {card : Card} {p : String}
    (hp : targetProject g tenant settings card = .ok (some p)) :
    ∀ c ∈ p.toList.head?, Status.isSpace c = false := by
  rw [targetProject, gitTargetForCard, Git.gitTargetFor] at hp
  dsimp only at hp
  cases hresolve : resolveRepository g tenant card.repositoryId (issueProject card.issueRef) with
  | error e =>
    rw [hresolve] at hp
    cases hp
  | ok resolved =>
    rw [hresolve] at hp
    have hproject := Except.ok.inj hp
    cases resolved with
    | none =>
      have henv : strippedOrNone settings.githubRepo = some p := hproject
      rw [strippedOrNone] at henv
      split at henv
      · cases henv
      · cases henv
        rw [stripped, String.toList_ofList]
        exact head_strip _
    | some resolved =>
      have hstored : some resolved.repository.project = some p := hproject
      cases hstored
      exact head_project (h.addressed _ (resolves hresolve).repository).1

/-- A card that was read and its host's answer give a canonical reference. -/
theorem canonical_ask {card : Card} {project : Option String} {answer : Answer}
    (hproject : ∀ p, project = some p → ∀ c ∈ p.toList.head?, Status.isSpace c = false)
    {card' : Card} {ref : IssueRef} {issue : IssueData}
    (h : ask card project answer = .mirroring card' ref issue) : Canonical ref.text := by
  cases hparse : IssueRef.parse card.issueRef with
  | some parsed =>
    simp only [ask, hparse] at h
    cases answer with
    | answered issue =>
      cases h
      exact canonical_of_parse hparse
    | _ => cases h
  | none =>
    simp only [ask, hparse] at h
    cases project with
    | none => cases h
    | some p =>
      cases answer with
      | answered issue =>
        cases h
        exact canonical_text _ (hproject p rfl)
      | _ => cases h

/-- An update of a sync keeps the indexes and writes its own reference, if any. -/
private theorem tracked_updated {t : CardTable} {scope : Option String} {key : String}
    {ch : CardChanges} {now : Time} (ht : Indexed t ∧ CanonicalRefs t)
    (hch : ∀ ref, ch.issueRef = some (some ref) → Canonical ref) {o : Option Card} {t' : CardTable}
    (hok : updateCard t scope key ch now = .ok (o, t')) : Indexed t' ∧ CanonicalRefs t' :=
  ⟨indexed_updateCard_ok ht.1 hok, ht.2.updateCard hch hok⟩

/-- So does the end of a sync. -/
theorem tracked_finish {t : CardTable} (ht : Indexed t ∧ CanonicalRefs t) (scope : Option String)
    {phase : Phase} (now : Time) (errorId : String)
    (hphase : ∀ card ref issue, phase = .mirroring card ref issue → Canonical ref.text) :
    Indexed (finish t scope phase now errorId) ∧
      CanonicalRefs (finish t scope phase now errorId) := by
  cases phase with
  | read card => exact ht
  | failed card missing =>
    simp only [finish]
    split
    · next hok => exact tracked_updated ht (by simp) hok
    · exact ht
  | mirroring card ref issue =>
    have hmirror : ∀ text, (mirror card ref issue).issueRef = some (some text) →
        Canonical text := by
      intro text htext
      have hassigned : assign card.issueRef (some ref.text) = some (some text) := htext
      rw [assign] at hassigned
      split at hassigned
      · cases hassigned
      · cases hassigned
        exact hphase card ref issue rfl
    simp only [finish]
    split
    · exact ht
    · split
      · next hok => exact tracked_updated ht hmirror hok
      · split
        · next hok => exact tracked_updated ht (by simp) hok
        · exact ht

/-! ## Every step -/

/-- A call keeps the references canonical, if it writes none or a canonical one. -/
private theorem canonicalRefs_call {nocase : Bool} {scope : Option String} {x : SyncedBoard}
    {call : BoardCall} (h : CanonicalRefs x.board.cards)
    (hwrites : WritesCanonical x (scope, .store call)) :
    CanonicalRefs (boardCall nocase scope x.board call).cards := by
  cases call with
  | createCard body now =>
    show CanonicalRefs (keep x.board.cards ((create x.board.cards scope body now).map Prod.snd))
    cases hok : create x.board.cards scope body now with
    | error e => exact h
    | ok done => exact h.create hwrites hok
  | updateCard key changes now =>
    show CanonicalRefs (keep x.board.cards
      ((updateCard x.board.cards scope key changes now).map Prod.snd))
    cases hok : updateCard x.board.cards scope key changes now with
    | error e => exact h
    | ok done => exact h.updateCard hwrites hok
  | updateStage key changes now =>
    show CanonicalRefs (update x.board.cards scope key changes now).2
    rw [update]
    cases getRow x.board.cards scope key with
    | none => exact h
    | some r => exact h.modifyRow r.id fun c ref hc ↦ .inl hc
  | deleteCard key now =>
    show CanonicalRefs (deleteCard x.board.cards scope key now).2
    rw [deleteCard]
    cases getRow x.board.cards scope key with
    | none => exact h
    | some r => exact h.modifyRow r.id fun c ref hc ↦ .inl hc
  | importRepository repositoryId project read =>
    show CanonicalRefs (keep x.board
      ((importRepository nocase scope x.board repositoryId project read).map Prod.snd)).cards
    cases hok : importRepository nocase scope x.board repositoryId project read with
    | error e => exact h
    | ok done => exact canonicalRefs_importRepository h hok
  | _ => exact h

/-- One step keeps the board tracked, if what it is given as a reference is canonical. -/
theorem Tracked.step {nocase : Bool} {x : SyncedBoard} (h : Tracked x)
    (step : Option String × CardStep) (hwrites : WritesCanonical x step) :
    Tracked (cardStep nocase x step) := by
  obtain ⟨scope, step⟩ := step
  -- a sync that turns to another phase
  have hturned : ∀ c (phase : Option Phase), (∀ card ref issue,
      phase = some (.mirroring card ref issue) → Canonical ref.text) →
      ∀ d card ref issue, Function.update x.syncs c phase d = some (.mirroring card ref issue) →
        Canonical ref.text := by
    intro c phase hphase d card ref issue hd
    by_cases hsame : d = c
    · rw [hsame, Function.update_self] at hd
      exact hphase card ref issue hd
    · rw [Function.update_of_ne hsame] at hd
      exact h.syncs d card ref issue hd
  cases step with
  | store call =>
    exact ⟨h.sound.call scope call, canonicalRefs_call h.refs hwrites, h.syncs⟩
  | readCard c key =>
    rw [cardStep]
    split
    · exact h
    · exact ⟨h.sound, h.refs, hturned c _ (by simp)⟩
  | askHost c settings answer =>
    rw [cardStep]
    split
    · next card _ =>
      refine ⟨h.sound, h.refs, hturned c _ ?_⟩
      intro card' ref issue hask
      cases hproject : targetProject x.board.git (tenantOf scope) settings card with
      | error e =>
        rw [hproject] at hask
        cases hask
      | ok project =>
        rw [hproject] at hask
        apply canonical_ask _ (Option.some.inj hask)
        intro p hp
        subst hp
        exact head_targetProject h.sound.configured hproject
    · exact h
  | storeMirror c now errorId =>
    rw [cardStep]
    split
    · exact h
    · next phase _ hphase =>
      obtain ⟨hindexed, hrefs⟩ := tracked_finish ⟨h.sound.indexed, h.refs⟩ scope now errorId
        fun card ref issue hcase ↦ h.syncs c card ref issue (hphase.trans (congrArg some hcase))
      exact ⟨⟨h.sound.configured, hindexed⟩, hrefs, hturned c _ (by simp)⟩
    · exact h

/-- Every run from an empty database in which creates and updates are given references as
they render keeps one card for each issue of a tenant: whatever the imports read, and however
the syncs overlap. -/
theorem one_issue_one_card (nocase : Bool) (steps : List (Option String × CardStep))
    (h : EachStep (cardStep nocase) WritesCanonical {} steps) :
    Throughout (cardStep nocase) (fun x ↦ OneCardPerIssue x.board.cards) {} steps := by
  have hempty : Tracked {} :=
    ⟨⟨configured_empty, ⟨List.nodup_nil, by simp, by simp⟩⟩, by simp [CanonicalRefs], by simp⟩
  have htracked : Throughout (cardStep nocase) Tracked {} steps :=
    throughout_of_step (fun x step hx hstep ↦ hx.step step hstep) hempty h
  exact htracked.imp fun x hx ↦ oneCardPerIssue_of_canonical hx.sound.indexed hx.refs

/-- A card is planned for an issue, and a second one for no issue. -/
def plannedSteps : List (Option String × CardStep) :=
  [(some "acme", .store (.createCard { title := "Login", issueRef := some "acme/app#7" } 1)),
    (some "acme", .store (.createCard { title := "Logout" } 2))]

/-- The instance of the law on these steps. -/
theorem planned_one_card :
    EachStep (cardStep false) WritesCanonical {} plannedSteps ∧
      Throughout (cardStep false) (fun x ↦ OneCardPerIssue x.board.cards) {} plannedSteps := by
  have hwrites : EachStep (cardStep false) WritesCanonical {} plannedSteps := by
    refine ⟨?_, by simp [WritesCanonical], trivial⟩
    intro ref href
    cases href
    exact canonical_text (p := "acme/app") 7 (head_project (by decide +kernel))
  exact ⟨hwrites, one_issue_one_card false plannedSteps hwrites⟩

/-- Two creates that spell the number of one issue differently leave two cards for it. -/
theorem second_spelling_duplicates :
    ¬∀ steps : List (Option String × CardStep),
      Throughout (cardStep false) (fun x ↦ OneCardPerIssue x.board.cards) {} steps := by
  intro h
  have hlast := (h
    [(some "acme", .store (.createCard { title := "Login", issueRef := some "acme/app#7" } 1)),
      (some "acme", .store (.createCard { title := "Log in", issueRef := some "acme/app#07" } 2))]
    ).last
  have hsame := hlast
    ⟨1, { cardKey := "FCT-1", tenantId := "acme", title := "Login"
          issueRef := some "acme/app#7", createdAt := 1, updatedAt := 1 }⟩ (by decide +kernel)
    ⟨2, { cardKey := "FCT-2", tenantId := "acme", title := "Log in"
          issueRef := some "acme/app#07", createdAt := 2, updatedAt := 2 }⟩ (by decide +kernel)
    rfl ⟨"acme/app", 7⟩ (by decide +kernel) (by decide +kernel)
  cases hsame

/-! ## Any other spelling -/

/-- A card is created under one spelling of an issue, and another is pointed at the issue as it
renders. -/
def splitSteps (ref : String) (r : IssueRef) : List (Option String × CardStep) :=
  [(some "acme",
      .store (.createCard { cardKey := some "A", title := "Login", issueRef := some ref } 1)),
    (some "acme", .store (.createCard { cardKey := some "B", title := "Log in" } 2)),
    (some "acme", .store (.updateCard "B" { issueRef := some (some r.text) } 3))]

/-- Every spelling other than the rendering leaves two cards for one issue in such a run. -/
theorem other_spelling_splits (nocase : Bool) {ref : String} {r : IssueRef}
    (hparse : IssueRef.parse (some ref) = some r) (hother : r.text ≠ ref)
    (hlength : ref.length ≤ 256) :
    ¬Throughout (cardStep nocase) (fun x ↦ OneCardPerIssue x.board.cards) {}
      (splitSteps ref r) := by
  intro h
  have hlast := h.last
  have hcards : ((splitSteps ref r).foldl (cardStep nocase) {}).board.cards =
      [⟨1, { cardKey := "A", tenantId := "acme", title := "Login", issueRef := some ref
             createdAt := 1, updatedAt := 1 }⟩,
        ⟨2, { cardKey := "B", tenantId := "acme", title := "Log in", issueRef := some r.text
              createdAt := 2, updatedAt := 3 }⟩] := by
    have hlogin : ¬512 < "Login".length := by decide
    have hlog : ¬512 < "Log in".length := by decide
    have hA : ¬128 < "A".length := by decide
    have hB : ¬128 < "B".length := by decide
    have hAB : ("A" == "B") = false := by decide
    have hne : (ref == r.text) = false := beq_false_of_ne (Ne.symm hother)
    simp [splitSteps, cardStep, boardCall, create, CardCreate.valid, hlength, keyFor,
      Cards.holdsKey, holdsIssue, keep, Except.map, updateCard, getRow, visible, tenantOf, freshId,
      CardCreate.card, modifyRow, CardChanges.apply, hne, hlogin, hlog, hA, hB, hAB]
  rw [hcards] at hlast
  have hrow := hlast _ List.mem_cons_self _ (List.mem_cons_of_mem _ List.mem_cons_self) rfl r hparse
    (parse_text_of_parse hparse)
  cases hrow
end CFactory.Sync
