import CFactory.Import.Comments
import CFactory.Import.Upsert

/-!
# What an import pass leaves alone

`issue_import.py:94–307,438–571`. The frame of a whole pass: the columns that are the board's,
the status of cards the factory has touched, deleted cards; what it mirrors; and that the same
pass once more changes nothing but the time a thread was read at.
-/

namespace CFactory.Import

open CFactory.Base
open CFactory.Model
open CFactory.Cards
open CFactory.Status

/-- `import_issues` from the issues on: the upserts, then the comment threads where they are
imported (`none` is the setting that leaves them out); `issue_import.py:521–541`. -/
def importPass (nocase : Bool) (scope : Option String) (project : String)
    (repositoryId : Option Nat) (backfillMax : Int) (comments : Option (Group → GroupAnswer))
    (now : Time) (t : CardTable) (rows : List CommentRow) (returned : List Returned) :
    CardTable × List CommentRow :=
  let cards := importAll scope project repositoryId now t returned
  match comments with
  | none => (cards, rows)
  | some answer =>
    let s := (syncComments nocase scope project backfillMax answer cards rows).1
    (s.cards, s.rows)

/-- A pass is safe: rows stay; no status becomes `ready`; the board's columns stay; a card the
factory has touched keeps its status; deleted cards stay as they are. -/
structure ImportSafe (t t' : CardTable) : Prop where
  rows : ∀ r ∈ t, ∃ r' ∈ t', r'.id = r.id
  neverReady : ∀ r' ∈ t', r'.card.status = .ready →
    ∃ r ∈ t, r.id = r'.id ∧ r.card.status = .ready
  board : ∀ r ∈ t, ∀ r' ∈ t', r'.id = r.id →
    r'.card.priority = r.card.priority ∧
      r'.card.acceptanceCriteria = r.card.acceptanceCriteria ∧
      r'.card.correlationKey = r.card.correlationKey ∧ r'.card.stageRuns = r.card.stageRuns ∧
      r'.card.repositoryId = r.card.repositoryId
  entered : ∀ r ∈ t, ∀ r' ∈ t', r'.id = r.id → enteredTheFactory r.card = true →
    r'.card.status = r.card.status
  deleted : ∀ r ∈ t, ∀ r' ∈ t', r'.id = r.id → r.card.deletedAt.isSome = true → r' = r

/-- The row without the time its thread was read at. -/
def unmarkedRow (r : CardRow) : CardRow :=
  { r with card := { r.card with commentsSyncedAt := none } }

/-- The cards without the times their threads were read at. -/
def unmarked (t : CardTable) : CardTable := t.map unmarkedRow

/-! ## The update of one card -/

/-- Nothing is left to change where the mirrored fields are those of the issue and the status
is the board's or the issue's. -/
theorem changesFor_eq_empty {c : Card} {issue : IssueData} :
    changesFor c issue = {} ↔ mirrored c = mapping issue ∧
      (enteredTheFactory c = true ∨ c.status = statusFor issue.state) := by
  constructor
  · intro h
    simp only [changesFor, CardChanges.mk.injEq, assign_eq_none, true_and] at h
    obtain ⟨htitle, hdescription, hstatus, htier, hassignee, hmilestone, hstate, hlabels,
      hsync⟩ := h
    constructor
    · rw [mirrored, htitle, hdescription, hlabels, htier, hassignee, hmilestone, hstate, hsync]
    · by_cases hentered : enteredTheFactory c = true
      · exact .inl hentered
      · rw [if_neg hentered, assign_eq_none] at hstatus
        exact .inr hstatus
  · rintro ⟨hmirrored, hstatus⟩
    have hnone : (if enteredTheFactory c then none else assign c.status (statusFor issue.state)) =
        none := by
      by_cases hentered : enteredTheFactory c = true
      · rw [if_pos hentered]
      · rw [if_neg hentered, assign_eq_none]
        exact hstatus.resolve_left hentered
    simp only [changesFor, CardChanges.mk.injEq, assign_eq_none, true_and]
    exact ⟨congrArg Mirrored.title hmirrored, congrArg Mirrored.description hmirrored, hnone,
      congrArg Mirrored.tier hmirrored, congrArg Mirrored.assignee hmirrored,
      congrArg Mirrored.milestone hmirrored, congrArg Mirrored.issueState hmirrored,
      congrArg Mirrored.labels hmirrored, congrArg Mirrored.githubSyncError hmirrored⟩

/-- A refreshed card is in step with its issue. -/
theorem changesFor_apply (c : Card) (issue : IssueData) (now : Time) :
    changesFor ((changesFor c issue).apply now c) issue = {} := by
  rw [changesFor_eq_empty]
  constructor
  · simp only [mirrored, CardChanges.apply, changesFor, getD_assign]
  · by_cases hentered : enteredTheFactory c = true
    · exact .inl hentered
    · refine .inr ?_
      show ((changesFor c issue).status).getD c.status = _
      rw [changesFor, if_neg hentered, getD_assign]

theorem statusFor_ne_ready (state : String) : statusFor state ≠ .ready := by
  rw [statusFor]
  split <;> simp

/-- A refresh moves a card to the column of its issue, or leaves it where it is. -/
theorem status_refreshed (c : Card) (issue : IssueData) (now : Time) :
    ((changesFor c issue).apply now c).status = c.status ∨
      enteredTheFactory c = false ∧
        ((changesFor c issue).apply now c).status = statusFor issue.state := by
  show (if enteredTheFactory c then none
    else assign c.status (statusFor issue.state)).getD _ = _ ∨ _
  by_cases hentered : enteredTheFactory c = true
  · rw [if_pos hentered]
    exact .inl rfl
  · refine .inr ⟨by simpa using hentered, ?_⟩
    show (if enteredTheFactory c then none else assign c.status (statusFor issue.state)).getD _ = _
    rw [if_neg hentered, getD_assign]

/-! ## Safety, one upsert at a time -/

theorem ImportSafe.refl {t : CardTable} (h : Keyed t) : ImportSafe t t where
  rows := fun r hr ↦ ⟨r, hr, rfl⟩
  neverReady := fun r hr hready ↦ ⟨r, hr, rfl, hready⟩
  board := by
    intro r hr r' hr' hid
    cases List.inj_on_of_nodup_map h hr' hr hid
    exact ⟨rfl, rfl, rfl, rfl, rfl⟩
  entered := by
    intro r hr r' hr' hid _
    cases List.inj_on_of_nodup_map h hr' hr hid
    rfl
  deleted := fun r hr r' hr' hid _ ↦ List.inj_on_of_nodup_map h hr' hr hid

theorem ImportSafe.trans {t t' t'' : CardTable} (h : ImportSafe t t') (h' : ImportSafe t' t'') :
    ImportSafe t t'' where
  rows := by
    intro r hr
    obtain ⟨r', hr', hid⟩ := h.rows r hr
    obtain ⟨r'', hr'', hid'⟩ := h'.rows r' hr'
    exact ⟨r'', hr'', hid'.trans hid⟩
  neverReady := by
    intro r'' hr'' hready
    obtain ⟨r', hr', hid', hready'⟩ := h'.neverReady r'' hr'' hready
    obtain ⟨r, hr, hid, hready0⟩ := h.neverReady r' hr' hready'
    exact ⟨r, hr, hid.trans hid', hready0⟩
  board := by
    intro r hr r'' hr'' hid''
    obtain ⟨r', hr', hid⟩ := h.rows r hr
    obtain ⟨hp, ha, hc, hs, hi⟩ := h.board r hr r' hr' hid
    obtain ⟨hp', ha', hc', hs', hi'⟩ := h'.board r' hr' r'' hr'' (hid''.trans hid.symm)
    exact ⟨hp'.trans hp, ha'.trans ha, hc'.trans hc, hs'.trans hs, hi'.trans hi⟩
  entered := by
    intro r hr r'' hr'' hid'' hentered
    obtain ⟨r', hr', hid⟩ := h.rows r hr
    obtain ⟨-, -, hc, hs, -⟩ := h.board r hr r' hr' hid
    have hentered' : enteredTheFactory r'.card = true := by
      rw [enteredTheFactory, hc, hs]
      exact hentered
    exact (h'.entered r' hr' r'' hr'' (hid''.trans hid.symm) hentered').trans
      (h.entered r hr r' hr' hid hentered)
  deleted := by
    intro r hr r'' hr'' hid'' hdeleted
    obtain ⟨r', hr', hid⟩ := h.rows r hr
    cases h.deleted r hr r' hr' hid hdeleted
    exact h'.deleted r hr' r'' hr'' hid'' hdeleted

/-- The row that an issue's card is refreshed through is that card's. -/
theorem row_of_refresh {t : CardTable} {scope : Option String} {ref : String} {c : Card}
    {q : CardRow} (h : Indexed t) (hone : OneTenant scope t)
    (hc : getByIssueRef t scope ref = some c) (hq : getRow t scope c.cardKey = some q) :
    q.card = c ∧ q ∈ t ∧ inScope scope q = true ∧ q.card.issueRef = some ref ∧
      q.card.deletedAt = none := by
  rw [getByIssueRef, Option.map_eq_some_iff] at hc
  obtain ⟨r, hr, rfl⟩ := hc
  obtain ⟨hrt, hrs, href⟩ := rowByIssueRef_spec hr
  obtain ⟨hqt, hvisible, hkey⟩ := getRow_spec hq
  obtain ⟨hqs, hlive⟩ := visible_iff.mp hvisible
  have hqr : q = r := h.eq_of_key hone hqt hrt hqs hrs hkey
  subst hqr
  exact ⟨rfl, hqt, hqs, href, hlive⟩

/-- The card that an issue refreshes is the one row that changes. -/
private theorem importSafe_refreshed {t : CardTable} {q : CardRow} (h : Indexed t) (hqt : q ∈ t)
    (hlive : q.card.deletedAt = none) (issue : IssueData) (now : Time) :
    ImportSafe t (modifyRow t q.id ((changesFor q.card issue).apply now)) := by
  have hrow : ∀ r ∈ t, ∀ r' ∈ modifyRow t q.id ((changesFor q.card issue).apply now),
      r'.id = r.id → r' = r ∨ r = q ∧
        r' = { q with card := (changesFor q.card issue).apply now q.card } := by
    intro r hr r' hr' hid
    obtain ⟨s, hs, rfl⟩ := mem_modifyRow.mp hr'
    by_cases hsq : s.id = q.id
    · rw [if_pos hsq] at hid ⊢
      have hsame : s = q := h.eq_of_id hs hqt hsq
      subst hsame
      exact .inr ⟨h.eq_of_id hr hs hid.symm, rfl⟩
    · rw [if_neg hsq] at hid ⊢
      exact .inl (h.eq_of_id hs hr hid)
  refine ⟨?_, ?_, ?_, ?_, ?_⟩
  · intro r hr
    refine ⟨_, mem_modifyRow.mpr ⟨r, hr, rfl⟩, ?_⟩
    split <;> rfl
  · intro r' hr' hready
    obtain ⟨s, hs, rfl⟩ := mem_modifyRow.mp hr'
    refine ⟨s, hs, by split <;> rfl, ?_⟩
    by_cases hsq : s.id = q.id
    · rw [if_pos hsq] at hready
      have hsame : s = q := h.eq_of_id hs hqt hsq
      subst hsame
      rcases status_refreshed s.card issue now with hstatus | ⟨-, hstatus⟩
      · exact hstatus ▸ hready
      · exact absurd (hstatus.symm.trans hready) (statusFor_ne_ready issue.state)
    · rw [if_neg hsq] at hready
      exact hready
  · intro r hr r' hr' hid
    rcases hrow r hr r' hr' hid with rfl | ⟨rfl, rfl⟩
    · exact ⟨rfl, rfl, rfl, rfl, rfl⟩
    · exact ⟨rfl, rfl, rfl, rfl, rfl⟩
  · intro r hr r' hr' hid hentered
    rcases hrow r hr r' hr' hid with rfl | ⟨rfl, rfl⟩
    · rfl
    · rcases status_refreshed r.card issue now with hstatus | ⟨hnot, -⟩
      · exact hstatus
      · rw [hnot] at hentered
        cases hentered
  · intro r hr r' hr' hid hdeleted
    rcases hrow r hr r' hr' hid with rfl | ⟨rfl, -⟩
    · rfl
    · rw [hlive] at hdeleted
      cases hdeleted

/-- A new card that is not ready changes no row. -/
private theorem importSafe_added {t : CardTable} {c : Card} (h : Indexed t)
    (hready : c.status ≠ .ready) : ImportSafe t (t ++ [⟨freshId t, c⟩]) := by
  have hold : ∀ r ∈ t, ∀ r' ∈ t ++ [⟨freshId t, c⟩], r'.id = r.id → r' = r := by
    intro r hr r' hr' hid
    rcases List.mem_append.mp hr' with hr' | hr'
    · exact h.eq_of_id hr' hr hid
    · cases List.mem_singleton.mp hr'
      exact absurd hid.symm (id_ne_freshId hr)
  refine ⟨?_, ?_, ?_, ?_, ?_⟩
  · exact fun r hr ↦ ⟨r, List.mem_append_left _ hr, rfl⟩
  · intro r' hr' hstatus
    rcases List.mem_append.mp hr' with hr' | hr'
    · exact ⟨r', hr', rfl, hstatus⟩
    · cases List.mem_singleton.mp hr'
      exact absurd hstatus hready
  · intro r hr r' hr' hid
    cases hold r hr r' hr' hid
    exact ⟨rfl, rfl, rfl, rfl, rfl⟩
  · intro r hr r' hr' hid _
    cases hold r hr r' hr' hid
    rfl
  · exact fun r hr r' hr' hid _ ↦ hold r hr r' hr' hid

/-- One upsert is safe. -/
theorem importSafe_importOne {t : CardTable} {scope : Option String} (h : Indexed t)
    (hone : OneTenant scope t) (repositoryId : Option Nat) (now : Time) (ref : IssueRef)
    (issue : IssueData) (fault : Fault) :
    ImportSafe t (importOne scope repositoryId now t ref issue fault).2 := by
  rcases importOne_cases scope repositoryId now t ref issue fault with
    ht | ⟨c, q, hc, -, hq, -, ht⟩ | ⟨key, -, -, ht⟩
  · rw [ht]
    exact .refl h.ids
  · obtain ⟨rfl, hqt, -, -, hlive⟩ := row_of_refresh h hone hc hq
    rw [ht]
    exact importSafe_refreshed h hqt hlive issue now
  · have hstatus : (if fault = .late then bareCard scope ref issue repositoryId key now
        else importedCard scope ref issue repositoryId key now).status = statusFor issue.state := by
      split <;> rfl
    rw [ht]
    exact importSafe_added h (hstatus ▸ statusFor_ne_ready issue.state)

/-- All upserts of a pass are, and they keep the indexes and the tenant. -/
theorem importSafe_importAll {t : CardTable} {scope : Option String} (h : Indexed t)
    (hone : OneTenant scope t) (project : String) (repositoryId : Option Nat) (now : Time)
    (returned : List Returned) :
    ImportSafe t (importAll scope project repositoryId now t returned) ∧
      Indexed (importAll scope project repositoryId now t returned) ∧
        OneTenant scope (importAll scope project repositoryId now t returned) := by
  rw [importAll]
  induction issuesOnly returned generalizing t with
  | nil => exact ⟨.refl h.ids, h, hone⟩
  | cons r rest ih =>
    have hstep := importSafe_importOne h hone repositoryId now (refOf project r.issue) r.issue
      r.fault
    obtain ⟨hsafe, hindexed, htenant⟩ := ih
      (indexed_importOne h scope repositoryId now (refOf project r.issue) r.issue r.fault)
      (oneTenant_importOne hone repositoryId now (refOf project r.issue) r.issue r.fault)
    exact ⟨hstep.trans hsafe, hindexed, htenant⟩

end CFactory.Import
