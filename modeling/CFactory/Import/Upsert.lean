import CFactory.Cards.Index
import CFactory.Import.Pass

/-!
# What one upsert does

`issue_import.py:257–307`. Every upsert leaves the table as it was, refreshes the row of a
live card, or adds one row; which of them is decided by the card the scope holds for the
issue. What a pass does to the table is read off from that, one issue at a time.
-/

namespace CFactory.Import

open CFactory.Base
open CFactory.Model
open CFactory.Cards

/-- A new card for the issue is accepted: its body validates and every key of the scope can
be read. -/
def Creatable (t : CardTable) (scope : Option String) (ref : IssueRef) (issue : IssueData) :
    Prop :=
  (cardCreate ref issue none).valid = true ∧ (nextCardKey t scope).isSome = true

instance (t : CardTable) (scope : Option String) (ref : IssueRef) (issue : IssueData) :
    Decidable (Creatable t scope ref issue) :=
  inferInstanceAs (Decidable (_ ∧ _))

/-- The card an import leaves for a new issue; `issue_import.py:270–294`. -/
def importedCard (scope : Option String) (ref : IssueRef) (issue : IssueData)
    (repositoryId : Option Nat) (key : String) (now : Time) : Card :=
  { (cardCreate ref issue repositoryId).card (tenantOf scope) key now with
    labels := issue.labels
    issueState := orNone issue.state }

/-- The card left where the second of the two writes did not happen. -/
def bareCard (scope : Option String) (ref : IssueRef) (issue : IssueData)
    (repositoryId : Option Nat) (key : String) (now : Time) : Card :=
  (cardCreate ref issue repositoryId).card (tenantOf scope) key now

theorem changesFor_issueRef (c : Card) (issue : IssueData) :
    (changesFor c issue).issueRef = none :=
  rfl

/-- A refresh leaves the table as it was, or assigns the mapped fields to the row that the
card's key finds. -/
theorem refreshCard_cases (t : CardTable) (scope : Option String) (c : Card) (issue : IssueData)
    (now : Time) :
    (refreshCard t scope c issue now).2 = t ∨
      ∃ q, c.deletedAt = none ∧ changesFor c issue ≠ {} ∧ getRow t scope c.cardKey = some q ∧
        (refreshCard t scope c issue now).2 =
          modifyRow t q.id ((changesFor c issue).apply now) := by
  rw [refreshCard]
  by_cases hdeleted : c.deletedAt.isSome = true
  · rw [if_pos hdeleted]
    exact .inl rfl
  · rw [if_neg hdeleted]
    by_cases hchanges : changesFor c issue = {}
    · rw [if_pos hchanges]
      exact .inl rfl
    · rw [if_neg hchanges]
      rcases updateCard_cases t scope c.cardKey (changesFor c issue) now with
        ⟨-, h⟩ | ⟨q, hq, h | h⟩
      · rw [h]
        exact .inl rfl
      · rw [h]
        exact .inl rfl
      · rw [h]
        have hlive : c.deletedAt = none := by simpa using hdeleted
        exact .inr ⟨q, hlive, hchanges, hq, rfl⟩

/-- With the indexes in place a live card that differs from its issue is refreshed. -/
theorem refreshCard_live {t : CardTable} {scope : Option String} {c : Card} {issue : IssueData}
    {now : Time} {q : CardRow} (h : Indexed t) (hlive : c.deletedAt = none)
    (hq : getRow t scope c.cardKey = some q) :
    (refreshCard t scope c issue now).2 =
      if changesFor c issue = {} then t else modifyRow t q.id ((changesFor c issue).apply now) := by
  rw [refreshCard, hlive, Option.isSome_none, if_neg Bool.false_ne_true]
  by_cases hchanges : changesFor c issue = {}
  · rw [if_pos hchanges, if_pos hchanges]
  · have hfree : holdsIssue t q.id q.card.tenantId
        ((changesFor c issue).apply now q.card).issueRef = false :=
      h.holdsIssue_self (getRow_spec hq).1
    obtain ⟨t', hupdate, -⟩ := updateCard_ok hq hfree
    rw [if_neg hchanges, if_neg hchanges, hupdate]
    rw [updateCard, hq] at hupdate
    have hok : Except.ok (some ((changesFor c issue).apply now q.card),
        modifyRow t q.id ((changesFor c issue).apply now)) =
          (Except.ok (some ((changesFor c issue).apply now q.card), t') :
            Except CardError (Option Card × CardTable)) := by
      rw [← hupdate]
      exact (if_neg (by rw [Bool.not_eq_true]; exact hfree)).symm
    cases hok
    rfl

/-! ## One upsert, case by case -/

theorem importOne_early (scope : Option String) (repositoryId : Option Nat) (now : Time)
    (t : CardTable) (ref : IssueRef) (issue : IssueData) :
    importOne scope repositoryId now t ref issue .early = (.raised, t) := by
  rw [importOne, if_pos rfl]

/-- An issue the scope holds a card for. -/
theorem importOne_known {scope : Option String} {repositoryId : Option Nat} {now : Time}
    {t : CardTable} {ref : IssueRef} {issue : IssueData} {fault : Fault} {c : Card}
    (hfault : fault ≠ .early) (hc : getByIssueRef t scope ref.text = some c) :
    importOne scope repositoryId now t ref issue fault = refreshCard t scope c issue now := by
  rw [importOne, if_neg hfault, hc]

private theorem cardCreate_valid (ref : IssueRef) (issue : IssueData) (repositoryId : Option Nat) :
    (cardCreate ref issue repositoryId).valid = (cardCreate ref issue none).valid :=
  rfl

/-- The row just added is the one its fresh key finds. -/
private theorem getRow_added {t : CardTable} {scope : Option String} {key : String} {c : Card}
    (hnext : nextCardKey t scope = some key) (htenant : c.tenantId = tenantOf scope)
    (hkey : c.cardKey = key) (hlive : c.deletedAt = none) :
    getRow (t ++ [⟨freshId t, c⟩]) scope key = some ⟨freshId t, c⟩ := by
  have hnone : (t.find? fun r ↦ visible scope r && r.card.cardKey == key) = none := by
    rw [List.find?_eq_none]
    intro r hr hfound
    rw [Bool.and_eq_true, beq_iff_eq] at hfound
    exact nextCardKey_fresh hnext hr (visible_iff.mp hfound.1).1 hfound.2
  have hvisible : visible scope ⟨freshId t, c⟩ = true :=
    visible_iff.mpr ⟨inScope_of_tenantOf htenant, hlive⟩
  rw [getRow, List.find?_append, hnone, Option.none_or, List.find?_singleton, hvisible, hkey]
  simp

private theorem modifyRow_added {t : CardTable} {c : Card} (f : Card → Card) :
    modifyRow (t ++ [⟨freshId t, c⟩]) (freshId t) f = t ++ [⟨freshId t, f c⟩] := by
  rw [modifyRow, List.map_append, List.map_singleton, if_pos rfl]
  congr 1
  rw [List.map_congr_left, List.map_id]
  intro r hr
  rw [if_neg (id_ne_freshId hr), id]

/-- A new issue whose card is accepted. -/
theorem importOne_new {scope : Option String} {repositoryId : Option Nat} {now : Time}
    {t : CardTable} {ref : IssueRef} {issue : IssueData} {fault : Fault} {key : String}
    (hfault : fault ≠ .early) (hnew : ¬Holds t scope ref.text)
    (hvalid : (cardCreate ref issue none).valid = true) (hnext : nextCardKey t scope = some key) :
    importOne scope repositoryId now t ref issue fault =
      if fault = .late then
        (.raised, t ++ [⟨freshId t, bareCard scope ref issue repositoryId key now⟩])
      else (.imported, t ++ [⟨freshId t, importedCard scope ref issue repositoryId key now⟩]) := by
  have hnone : getByIssueRef t scope ref.text = none := by
    rw [← Option.not_isSome_iff_eq_none, getByIssueRef_isSome]
    exact hnew
  have hfree : ∀ r, (cardCreate ref issue repositoryId).issueRef = some r → ¬Holds t scope r := by
    intro r hr
    cases hr
    exact hnew
  have hcreate : create t scope (cardCreate ref issue repositoryId) now =
      .ok (bareCard scope ref issue repositoryId key now,
        t ++ [⟨freshId t, bareCard scope ref issue repositoryId key now⟩]) :=
    create_ok rfl (by rw [cardCreate_valid]; exact hvalid) hnext hfree
  rw [importOne, if_neg hfault, hnone]
  dsimp only
  rw [hcreate]
  by_cases hlate : fault = .late
  · rw [if_pos hlate]
    exact if_pos hlate
  · rw [if_neg hlate]
    refine (if_neg hlate).trans ?_
    have hrow := getRow_added (c := bareCard scope ref issue repositoryId key now) hnext rfl rfl rfl
    have hother : holdsIssue (t ++ [⟨freshId t, bareCard scope ref issue repositoryId key now⟩])
        (freshId t) (tenantOf scope) (some ref.text) = false := by
      rw [holdsIssue, List.any_eq_false]
      intro q hq hall
      rw [Bool.and_eq_true, Bool.and_eq_true, beq_iff_eq, beq_iff_eq, decide_eq_true_eq] at hall
      rcases List.mem_append.mp hq with hq | hq
      · exact hnew ⟨q, hq, inScope_of_tenantOf hall.1.2, hall.2⟩
      · cases List.mem_singleton.mp hq
        exact hall.1.1 rfl
    have hupdate : updateCard (t ++ [⟨freshId t, bareCard scope ref issue repositoryId key now⟩])
        scope key { labels := some (mapping issue).labels
                    issueState := some (mapping issue).issueState } now =
        .ok (some (importedCard scope ref issue repositoryId key now),
          t ++ [⟨freshId t, importedCard scope ref issue repositoryId key now⟩]) := by
      rw [updateCard, hrow]
      refine (if_neg (by rw [Bool.not_eq_true]; exact hother)).trans ?_
      rw [modifyRow_added]
      rfl
    have hkey : (bareCard scope ref issue repositoryId key now).cardKey = key := rfl
    rw [hkey, hupdate]

/-- A new issue whose card is refused. -/
theorem importOne_refused {scope : Option String} {repositoryId : Option Nat} {now : Time}
    {t : CardTable} {ref : IssueRef} {issue : IssueData} {fault : Fault}
    (hnew : ¬Holds t scope ref.text) (hrefused : ¬Creatable t scope ref issue) :
    importOne scope repositoryId now t ref issue fault = (.raised, t) := by
  by_cases hfault : fault = .early
  · rw [hfault, importOne_early]
  · have hnone : getByIssueRef t scope ref.text = none := by
      rw [← Option.not_isSome_iff_eq_none, getByIssueRef_isSome]
      exact hnew
    have hreason : (cardCreate ref issue repositoryId).valid = false ∨
        nextCardKey t scope = none := by
      rw [cardCreate_valid]
      by_cases hvalid : (cardCreate ref issue none).valid = true
      · refine .inr ?_
        rw [← Option.not_isSome_iff_eq_none]
        exact fun hnext ↦ hrefused ⟨hvalid, hnext⟩
      · exact .inl (by simpa using hvalid)
    obtain ⟨e, he, hother⟩ : ∃ e, create t scope (cardCreate ref issue repositoryId) now =
        .error e ∧ e ≠ .duplicateIssueRef := create_refused rfl hreason
    rw [importOne, if_neg hfault, hnone]
    dsimp only
    rw [he]
    cases e with
    | duplicateIssueRef => exact absurd rfl hother
    | _ => rfl

/-- What one upsert leaves: the table as it was, the row of the issue's card refreshed, or one
row more. -/
theorem importOne_cases (scope : Option String) (repositoryId : Option Nat) (now : Time)
    (t : CardTable) (ref : IssueRef) (issue : IssueData) (fault : Fault) :
    (importOne scope repositoryId now t ref issue fault).2 = t ∨
      (∃ c q, getByIssueRef t scope ref.text = some c ∧ c.deletedAt = none ∧
        getRow t scope c.cardKey = some q ∧ changesFor c issue ≠ {} ∧
        (importOne scope repositoryId now t ref issue fault).2 =
          modifyRow t q.id ((changesFor c issue).apply now)) ∨
      ∃ key, ¬Holds t scope ref.text ∧ nextCardKey t scope = some key ∧
        (importOne scope repositoryId now t ref issue fault).2 =
          t ++ [⟨freshId t, if fault = .late then bareCard scope ref issue repositoryId key now
            else importedCard scope ref issue repositoryId key now⟩] := by
  by_cases hfault : fault = .early
  · rw [hfault, importOne_early]
    exact .inl rfl
  · cases hc : getByIssueRef t scope ref.text with
    | some c =>
      rw [importOne_known hfault hc]
      rcases refreshCard_cases t scope c issue now with h | ⟨q, hlive, hchanges, hq, h⟩
      · exact .inl h
      · exact .inr (.inl ⟨c, q, rfl, hlive, hq, hchanges, h⟩)
    | none =>
      have hnew : ¬Holds t scope ref.text := by
        rw [← getByIssueRef_isSome, hc]
        simp
      by_cases hcreatable : Creatable t scope ref issue
      · obtain ⟨hvalid, hnext⟩ := hcreatable
        obtain ⟨key, hkey⟩ := Option.isSome_iff_exists.mp hnext
        refine .inr (.inr ⟨key, hnew, hkey, ?_⟩)
        rw [importOne_new hfault hnew hvalid hkey]
        by_cases hlate : fault = .late
        · rw [if_pos hlate, if_pos hlate]
        · rw [if_neg hlate, if_neg hlate]
      · exact .inl (by rw [importOne_refused hnew hcreatable])

/-! ## What every upsert keeps -/

private theorem importedRow_spec (scope : Option String) (ref : IssueRef) (issue : IssueData)
    (repositoryId : Option Nat) (key : String) (now : Time) (fault : Fault) :
    let c := if fault = .late then bareCard scope ref issue repositoryId key now
      else importedCard scope ref issue repositoryId key now
    c.tenantId = tenantOf scope ∧ c.cardKey = key ∧ c.issueRef = some ref.text ∧
      c.commentsSyncedAt = none := by
  intro c
  by_cases hlate : fault = .late
  · have hc : c = bareCard scope ref issue repositoryId key now := if_pos hlate
    rw [hc]
    exact ⟨rfl, rfl, rfl, rfl⟩
  · have hc : c = importedCard scope ref issue repositoryId key now := if_neg hlate
    rw [hc]
    exact ⟨rfl, rfl, rfl, rfl⟩

/-- The unique indexes hold after an upsert. -/
theorem indexed_importOne {t : CardTable} (h : Indexed t) (scope : Option String)
    (repositoryId : Option Nat) (now : Time) (ref : IssueRef) (issue : IssueData)
    (fault : Fault) : Indexed (importOne scope repositoryId now t ref issue fault).2 := by
  rcases importOne_cases scope repositoryId now t ref issue fault with
    ht | ⟨c, q, -, -, -, -, ht⟩ | ⟨key, hnew, hkey, ht⟩
  · rw [ht]
    exact h
  · rw [ht]
    exact h.modifyRow q.id (keepsKeys_apply (changesFor_issueRef c issue))
  · obtain ⟨htenant, hcard, href, -⟩ :=
      importedRow_spec scope ref issue repositoryId key now fault
    rw [ht]
    apply h.append rfl
    · intro q hq hsame
      rw [htenant] at hsame
      rw [hcard]
      exact nextCardKey_fresh hkey hq (inScope_of_tenantOf hsame)
    · intro q hq hsame _ hissue
      rw [htenant] at hsame
      rw [href] at hissue
      exact hnew ⟨q, hq, inScope_of_tenantOf hsame, hissue⟩

/-- The tenant, the card key, the issue and the comment marker of a row. -/
def SameCard (r r' : CardRow) : Prop :=
  r'.id = r.id ∧ r'.card.tenantId = r.card.tenantId ∧ r'.card.cardKey = r.card.cardKey ∧
    r'.card.issueRef = r.card.issueRef ∧ r'.card.commentsSyncedAt = r.card.commentsSyncedAt

/-- Rows after an upsert are the rows before it, with their keys, their issue and their marker,
and at most one new row, of the store's tenant, under a key no row of the scope carries. -/
theorem rows_importOne (t : CardTable) (scope : Option String) (repositoryId : Option Nat)
    (now : Time) (ref : IssueRef) (issue : IssueData) (fault : Fault) :
    (∀ r' ∈ (importOne scope repositoryId now t ref issue fault).2,
      (∃ r ∈ t, SameCard r r') ∨
        r'.card.tenantId = tenantOf scope ∧ r'.card.commentsSyncedAt = none ∧
          ∀ q ∈ t, inScope scope q = true → q.card.cardKey ≠ r'.card.cardKey) ∧
    ∀ r ∈ t, ∃ r' ∈ (importOne scope repositoryId now t ref issue fault).2, SameCard r r' := by
  have hself : ∀ r : CardRow, SameCard r r := fun r ↦ ⟨rfl, rfl, rfl, rfl, rfl⟩
  rcases importOne_cases scope repositoryId now t ref issue fault with
    ht | ⟨c, q, -, -, -, -, ht⟩ | ⟨key, hnew, hkey, ht⟩
  · rw [ht]
    exact ⟨fun r hr ↦ .inl ⟨r, hr, hself r⟩, fun r hr ↦ ⟨r, hr, hself r⟩⟩
  · rw [ht]
    have hrow : ∀ r : CardRow, SameCard r
        (if r.id = q.id then { r with card := (changesFor c issue).apply now r.card } else r) := by
      intro r
      by_cases hr : r.id = q.id
      · rw [if_pos hr]
        exact ⟨rfl, rfl, rfl, rfl, rfl⟩
      · rw [if_neg hr]
        exact hself r
    constructor
    · intro r' hr'
      obtain ⟨r, hr, rfl⟩ := mem_modifyRow.mp hr'
      exact .inl ⟨r, hr, hrow r⟩
    · intro r hr
      exact ⟨_, mem_modifyRow.mpr ⟨r, hr, rfl⟩, hrow r⟩
  · obtain ⟨htenant, hcard, -, hmarker⟩ :=
      importedRow_spec scope ref issue repositoryId key now fault
    rw [ht]
    constructor
    · intro r' hr'
      rcases List.mem_append.mp hr' with hr' | hr'
      · exact .inl ⟨r', hr', hself r'⟩
      · cases List.mem_singleton.mp hr'
        refine .inr ⟨htenant, hmarker, ?_⟩
        intro q hq hscope
        rw [hcard]
        exact nextCardKey_fresh hkey hq hscope
    · intro r hr
      exact ⟨r, List.mem_append_left _ hr, hself r⟩

/-- The scope sees one tenant after an upsert where it did before. -/
theorem oneTenant_importOne {t : CardTable} {scope : Option String} (h : OneTenant scope t)
    (repositoryId : Option Nat) (now : Time) (ref : IssueRef) (issue : IssueData)
    (fault : Fault) : OneTenant scope (importOne scope repositoryId now t ref issue fault).2 := by
  intro r' hr' hscope
  rcases (rows_importOne t scope repositoryId now ref issue fault).1 r' hr' with
    ⟨r, hr, -, htenant, -⟩ | ⟨htenant, -⟩
  · rw [inScope, htenant] at hscope
    rw [htenant]
    exact h r hr hscope
  · exact htenant

end CFactory.Import
