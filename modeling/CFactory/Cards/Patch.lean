import Mathlib.Algebra.Ring.Int.Defs
import CFactory.Base.Isolation
import CFactory.Cards.Index

/-!
# What a PATCH of a card raises

`cards.py:164–258,423–451,887–908`. The body of a PATCH may leave a field out, null it or set it.
`update` reports every broken constraint as an issue that is already tracked, and the card is read
back from the row before the transaction commits.
-/

namespace CFactory.Cards

open CFactory.Base CFactory.Model

/-- `CardUpdate`: a field that is not sent is `none`, one sent as a null `some none`;
`cards.py:423–492`. -/
structure CardUpdate where
  title : Option (Option String) := none
  description : Option (Option String) := none
  acceptanceCriteria : Option (Option (List String)) := none
  status : Option (Option CardStatus) := none
  priority : Option (Option Int) := none
  tier : Option (Option CardTier) := none
  assignee : Option (Option String) := none
  milestone : Option (Option String) := none
  correlationKey : Option (Option String) := none
  issueRef : Option (Option String) := none
  repositoryId : Option (Option Int) := none
  deriving DecidableEq

/-- What `CardUpdate` accepts: at least one field, its length bounds, and criteria that are
stripped and not empty; `cards.py:117,434–476`. -/
def CardUpdate.valid (body : CardUpdate) : Bool :=
  body ≠ {} && body.title.join.all (fun s ↦ decide (1 ≤ s.length ∧ s.length ≤ 512)) &&
    body.acceptanceCriteria.join.all (fun cs ↦ cs.all fun c ↦
      c ≠ "" && strip c.toList == c.toList) &&
    body.assignee.join.all (·.length ≤ 128) && body.milestone.join.all (·.length ≤ 128) &&
    body.correlationKey.join.all (·.length ≤ 128) && body.issueRef.join.all (·.length ≤ 256)

/-- The columns the body assigns. A null in a column that takes none is left out, and a repository
id below zero is stored as zero, which names no row either; `cards.py:902–903`. -/
def CardUpdate.changes (body : CardUpdate) : CardChanges where
  title := body.title.join
  description := body.description
  acceptanceCriteria := body.acceptanceCriteria.join
  status := body.status.join
  priority := body.priority.join
  tier := body.tier
  assignee := body.assignee
  milestone := body.milestone
  correlationKey := body.correlationKey
  issueRef := body.issueRef
  repositoryId := body.repositoryId.map (·.map Int.toNat)

/-- The body nulls a column that takes no null; `cards.py:174–184`. -/
def CardUpdate.NullsColumn (body : CardUpdate) : Prop :=
  body.title = some none ∨ body.status = some none ∨ body.priority = some none

/-- The body nulls the criteria. Their JSON column takes the null, and the card that is read back
does not; `cards.py:180,331`. -/
def CardUpdate.NullsCriteria (body : CardUpdate) : Prop := body.acceptanceCriteria = some none

instance (body : CardUpdate) : Decidable body.NullsColumn :=
  inferInstanceAs (Decidable (_ ∨ _ ∨ _))

instance (body : CardUpdate) : Decidable body.NullsCriteria :=
  inferInstanceAs (Decidable (_ = _))

/-- What `update` raises. -/
inductive PatchError where
  /-- `DuplicateIssueRefError`, with the reference the body sets. -/
  | duplicateIssueRef (ref : Option String)
  /-- The driver's error for a value that no column of its database holds. -/
  | unbindable
  /-- The validation error of the card read back. -/
  | unreadableCard
  deriving DecidableEq

/-- The integers SQLite's driver binds: those of 64 bits. -/
def sqliteInt (n : Int) : Bool := decide (-2 ^ 63 ≤ n ∧ n < 2 ^ 63)

/-- The values SQLite's driver binds. -/
def sqliteBinds (body : CardUpdate) : Bool :=
  body.priority.join.all sqliteInt && body.repositoryId.join.all sqliteInt

/-- The transaction of `update` on a row that was found. `binds` tells the bodies whose values the
database's driver binds; `cards.py:897–908`. -/
def patchRow (binds : CardUpdate → Bool) (t : CardTable) (r : CardRow) (body : CardUpdate)
    (now : Time) : Except PatchError (Option Card × CardTable) :=
  let card := body.changes.apply now r.card
  if binds body = false then .error .unbindable
  else if body.NullsColumn ∨ holdsIssue t r.id card.tenantId card.issueRef = true then
    .error (.duplicateIssueRef body.issueRef.join)
  else if body.NullsCriteria then .error .unreadableCard
  else .ok (some card, modifyRow t r.id (body.changes.apply now))

/-- `update` on a PATCH body; `cards.py:887–908`. -/
def patch (binds : CardUpdate → Bool) (scope : Option String) (key : String) (body : CardUpdate)
    (now : Time) : Call PatchError CardTable (Option Card) :=
  .transact fun t ↦
    match getRow t scope key with
    | none => .ok (none, t)
    | some r => patchRow binds t r body now

/-- Another row of the tenant, live or deleted, holds the issue that the body sets. -/
def IssueTaken (t : CardTable) (r : CardRow) (body : CardUpdate) : Prop :=
  ∃ ref, body.issueRef = some (some ref) ∧
    ∃ q ∈ t, q.id ≠ r.id ∧ q.card.tenantId = r.card.tenantId ∧ q.card.issueRef = some ref

/-- `update` reports a tracked issue exactly where it is one, returns otherwise, and where it
raises it changes no card. -/
structure ConflictDiagnosed (t : CardTable) (r : CardRow) (body : CardUpdate)
    (result : Except PatchError (Option Card) × CardTable) : Prop where
  raises : (∃ ref, result.1 = .error (.duplicateIssueRef ref)) ↔ IssueTaken t r body
  returns : ¬ IssueTaken t r body → ∃ card, result.1 = .ok (some card)
  kept : ∀ e, result.1 = .error e → result.2 = t

/-! ## What the indexes see -/

/-- A row whose issue the body leaves alone or clears conflicts with none; one that it points at
an issue conflicts where that issue is taken. -/
theorem holdsIssue_patched_iff {t : CardTable} (ht : Indexed t) {r : CardRow} (hr : r ∈ t)
    (body : CardUpdate) (now : Time) :
    holdsIssue t r.id r.card.tenantId (body.changes.apply now r.card).issueRef = true ↔
      IssueTaken t r body := by
  cases hsent : body.issueRef with
  | none =>
    have hkept : (body.changes.apply now r.card).issueRef = r.card.issueRef := by
      rw [CardChanges.apply, CardUpdate.changes, hsent]
      rfl
    rw [hkept, ht.holdsIssue_self hr]
    apply iff_of_false Bool.false_ne_true
    rintro ⟨ref, href, -⟩
    rw [hsent] at href
    cases href
  | some sent =>
    have hset : (body.changes.apply now r.card).issueRef = sent := by
      rw [CardChanges.apply, CardUpdate.changes, hsent]
      rfl
    rw [hset]
    cases sent with
    | none =>
      apply iff_of_false Bool.false_ne_true
      rintro ⟨ref, href, -⟩
      rw [hsent] at href
      cases href
    | some ref =>
      rw [holdsIssue, List.any_eq_true]
      constructor
      · rintro ⟨q, hq, hholds⟩
        simp only [Bool.and_eq_true, decide_eq_true_eq, beq_iff_eq] at hholds
        exact ⟨ref, hsent, q, hq, hholds.1.1, hholds.1.2, hholds.2⟩
      · rintro ⟨ref', href, q, hq, hid, htenant, hissue⟩
        obtain rfl : ref = ref' := Option.some.inj (Option.some.inj (hsent.symm.trans href))
        exact ⟨q, hq, by simp [hid, htenant, hissue]⟩

/-- The four ways the transaction of an update ends. -/
theorem patchRow_cases {t : CardTable} (ht : Indexed t) {r : CardRow} (hr : r ∈ t)
    (binds : CardUpdate → Bool) (body : CardUpdate) (now : Time) :
    (binds body = false ∧ patchRow binds t r body now = .error .unbindable) ∨
    (binds body = true ∧ (body.NullsColumn ∨ IssueTaken t r body) ∧
      patchRow binds t r body now = .error (.duplicateIssueRef body.issueRef.join)) ∨
    (binds body = true ∧ ¬ (body.NullsColumn ∨ IssueTaken t r body) ∧ body.NullsCriteria ∧
      patchRow binds t r body now = .error .unreadableCard) ∨
    (binds body = true ∧ ¬ (body.NullsColumn ∨ IssueTaken t r body) ∧ ¬ body.NullsCriteria ∧
      patchRow binds t r body now =
        .ok (some (body.changes.apply now r.card), modifyRow t r.id (body.changes.apply now))) := by
  have hconflict : (body.NullsColumn ∨ holdsIssue t r.id (body.changes.apply now r.card).tenantId
      (body.changes.apply now r.card).issueRef = true) ↔
        (body.NullsColumn ∨ IssueTaken t r body) :=
    or_congr_right (holdsIssue_patched_iff ht hr body now)
  unfold patchRow
  by_cases hbinds : binds body = false
  · exact .inl ⟨hbinds, if_pos hbinds⟩
  dsimp only
  rw [if_neg hbinds]
  rw [Bool.not_eq_false] at hbinds
  by_cases hbroken : body.NullsColumn ∨ IssueTaken t r body
  · exact .inr (.inl ⟨hbinds, hbroken, if_pos (hconflict.mpr hbroken)⟩)
  rw [if_neg (mt hconflict.mp hbroken)]
  by_cases hcriteria : body.NullsCriteria
  · exact .inr (.inr (.inl ⟨hbinds, hbroken, hcriteria, if_pos hcriteria⟩))
  · exact .inr (.inr (.inr ⟨hbinds, hbroken, hcriteria, if_neg hcriteria⟩))

/-- On a card that is there, an update is the transaction on its row. -/
theorem patch_of_row {t : CardTable} {scope : Option String} {key : String} {r : CardRow}
    (hr : getRow t scope key = some r) (binds : CardUpdate → Bool) (body : CardUpdate)
    (now : Time) :
    patch binds scope key body now t = Call.transact (fun t ↦ patchRow binds t r body now) t := by
  rw [patch, Call.transact, Call.transact, hr]

/-- An update that raises changes no card. -/
theorem patch_kept {binds : CardUpdate → Bool} {scope : Option String} {key : String}
    {body : CardUpdate} {now : Time} {t : CardTable} {e : PatchError}
    (h : (patch binds scope key body now t).1 = .error e) :
    (patch binds scope key body now t).2 = t := by
  rw [patch, Call.transact] at h ⊢
  split
  · next hdone =>
    rw [hdone] at h
    cases h
  · rfl

/-- A conflict is diagnosed exactly where the driver binds the body, and where the body nulls
neither a column that takes no null nor the criteria, or sets an issue that is taken. -/
theorem conflict_diagnosed_iff {t : CardTable} (ht : Indexed t) {scope : Option String}
    {key : String} {r : CardRow} (hr : getRow t scope key = some r) (binds : CardUpdate → Bool)
    (body : CardUpdate) (now : Time) :
    ConflictDiagnosed t r body (patch binds scope key body now t) ↔
      binds body = true ∧ (body.NullsColumn ∨ body.NullsCriteria → IssueTaken t r body) := by
  have hpatch := patch_of_row hr binds body now
  have hkept : ∀ e, (patch binds scope key body now t).1 = .error e →
      (patch binds scope key body now t).2 = t := fun _ ↦ patch_kept
  rcases patchRow_cases ht (getRow_spec hr).1 binds body now with
    ⟨hbinds, hrun⟩ | ⟨hbinds, hbroken, hrun⟩ | ⟨hbinds, hfree, hcriteria, hrun⟩ |
      ⟨hbinds, hfree, hcriteria, hrun⟩
  · have hresult := hpatch.trans (Call.transact_of_error hrun)
    rw [hresult] at hkept ⊢
    apply iff_of_false
    · intro h
      by_cases htaken : IssueTaken t r body
      · obtain ⟨ref, href⟩ := h.raises.mpr htaken
        cases href
      · obtain ⟨card, hcard⟩ := h.returns htaken
        cases hcard
    · intro h
      rw [hbinds] at h
      exact Bool.false_ne_true h.1
  · have hresult := hpatch.trans (Call.transact_of_error hrun)
    rw [hresult] at hkept ⊢
    constructor
    · exact fun h ↦ ⟨hbinds, fun _ ↦ h.raises.mp ⟨_, rfl⟩⟩
    · intro h
      have htaken : IssueTaken t r body := hbroken.elim (fun hnull ↦ h.2 (.inl hnull)) id
      exact ⟨iff_of_true ⟨_, rfl⟩ htaken, fun hfree ↦ absurd htaken hfree, hkept⟩
  · have hresult := hpatch.trans (Call.transact_of_error hrun)
    rw [hresult] at hkept ⊢
    apply iff_of_false
    · intro h
      obtain ⟨card, hcard⟩ := h.returns fun htaken ↦ hfree (.inr htaken)
      cases hcard
    · exact fun h ↦ hfree (.inr (h.2 (.inr hcriteria)))
  · have hresult := hpatch.trans (Call.transact_of_ok hrun)
    rw [hresult] at hkept ⊢
    apply iff_of_true
    · refine ⟨iff_of_false ?_ fun htaken ↦ hfree (.inr htaken), fun _ ↦ ⟨_, rfl⟩, hkept⟩
      rintro ⟨ref, href⟩
      cases href
    · refine ⟨hbinds, ?_⟩
      rintro (hnull | hnull)
      · exact absurd (.inl hnull) hfree
      · exact absurd hnull hcriteria

/-! ## A PATCH that nulls the title -/

/-- Two cards of a board, each with an issue. -/
def trackedPair : CardTable :=
  [⟨1, { cardKey := "FCT-1", title := "Add a health check", issueRef := some "acme/app#1" }⟩,
    ⟨2, { cardKey := "FCT-2", title := "Add a metric", issueRef := some "acme/app#2" }⟩]

/-- Their keys and issues differ. -/
theorem indexed_trackedPair : Indexed trackedPair := by
  constructor
  · simp [Keyed, trackedPair]
  · decide
  · decide

/-- A PATCH that points the second card at the first one's issue is diagnosed. -/
theorem repointed_pair_diagnosed :
    ConflictDiagnosed trackedPair
      ⟨2, { cardKey := "FCT-2", title := "Add a metric", issueRef := some "acme/app#2" }⟩
      { issueRef := some (some "acme/app#1") }
      (patch sqliteBinds (some "default") "FCT-2" { issueRef := some (some "acme/app#1") } 5
        trackedPair) :=
  (conflict_diagnosed_iff indexed_trackedPair (by decide) sqliteBinds _ 5).mpr
    ⟨by decide, fun h ↦ absurd h (by decide)⟩

/-- A PATCH that nulls the title is accepted, and is answered with a conflict that is none. -/
theorem nulled_title_misdiagnosed :
    (CardUpdate.valid { title := some none } = true ∧ Indexed trackedPair) ∧
      (patch sqliteBinds (some "default") "FCT-2" { title := some none } 5 trackedPair).1 =
        .error (.duplicateIssueRef none) ∧
      ¬ ConflictDiagnosed trackedPair
        ⟨2, { cardKey := "FCT-2", title := "Add a metric", issueRef := some "acme/app#2" }⟩
        { title := some none }
        (patch sqliteBinds (some "default") "FCT-2" { title := some none } 5 trackedPair) := by
  refine ⟨⟨by decide, indexed_trackedPair⟩, by decide, ?_⟩
  intro h
  obtain ⟨ref, href, -⟩ := h.raises.mp ⟨none, by decide⟩
  cases href

end CFactory.Cards
