import CFactory.Import.Safety
import CFactory.Import.Cursor

/-!
# What an import pass mirrors, and the same pass again

`issue_import.py:94–307,438–571`, `cards.py:970–1029`. After a pass every card of a returned
issue is in step with it, deleted, or was refused; and an issue whose card is one of these is
left alone by every later upsert of the same data. The store of comment threads changes nothing
but the time they were read at.
-/

namespace CFactory.Import

open CFactory.Base
open CFactory.Model
open CFactory.Cards
open CFactory.Status

/-! ## Cards in step with their issues -/

/-- Importing the issue changes nothing: its card is deleted or in step with it, or there is no
card and none is accepted. -/
def Settled (t : CardTable) (scope : Option String) (ref : IssueRef) (issue : IssueData) : Prop :=
  (∃ r ∈ t, inScope scope r = true ∧ r.card.issueRef = some ref.text ∧
    (r.card.deletedAt.isSome = true ∨ changesFor r.card issue = {})) ∨
  ¬Holds t scope ref.text ∧ ¬Creatable t scope ref issue

/-- A settled issue is left alone, whatever its upsert meets. -/
theorem importOne_settled {t : CardTable} {scope : Option String} {ref : IssueRef}
    {issue : IssueData} (h : Indexed t) (hone : OneTenant scope t)
    (hsettled : Settled t scope ref issue) (repositoryId : Option Nat) (now : Time)
    (fault : Fault) : (importOne scope repositoryId now t ref issue fault).2 = t := by
  by_cases hfault : fault = .early
  · rw [hfault, importOne_early]
  · rcases hsettled with ⟨r, hr, hscope, href, hcase⟩ | ⟨hnew, hrefused⟩
    · rw [importOne_known hfault (getByIssueRef_eq h hone hr hscope href), refreshCard]
      rcases hcase with hdeleted | hchanges
      · rw [if_pos hdeleted]
      · by_cases hdeleted : r.card.deletedAt.isSome = true
        · rw [if_pos hdeleted]
        · rw [if_neg hdeleted, if_pos hchanges]
    · rw [importOne_refused hnew hrefused]

/-- An upsert that meets no fault settles its issue. -/
theorem settled_importOne {t : CardTable} {scope : Option String} (h : Indexed t)
    (hone : OneTenant scope t) (repositoryId : Option Nat) (now : Time) (ref : IssueRef)
    (issue : IssueData) :
    Settled (importOne scope repositoryId now t ref issue .none).2 scope ref issue := by
  have hfault : Fault.none ≠ .early := by decide
  by_cases hheld : Holds t scope ref.text
  · obtain ⟨r, hr, hscope, href⟩ := hheld
    rw [importOne_known hfault (getByIssueRef_eq h hone hr hscope href)]
    cases hdeleted : r.card.deletedAt with
    | some d =>
      have hsome : r.card.deletedAt.isSome = true := by rw [hdeleted]; rfl
      rw [refreshCard, if_pos hsome]
      exact .inl ⟨r, hr, hscope, href, .inl hsome⟩
    | none =>
      have hrow := h.getRow_self hone hr (visible_iff.mpr ⟨hscope, hdeleted⟩)
      rw [refreshCard_live h hdeleted hrow]
      by_cases hchanges : changesFor r.card issue = {}
      · rw [if_pos hchanges]
        exact .inl ⟨r, hr, hscope, href, .inr hchanges⟩
      · rw [if_neg hchanges]
        refine .inl ⟨_, mem_modifyRow.mpr ⟨r, hr, rfl⟩, ?_⟩
        rw [if_pos rfl]
        exact ⟨hscope, href, .inr (changesFor_apply r.card issue now)⟩
  · by_cases hcreatable : Creatable t scope ref issue
    · obtain ⟨key, hkey⟩ := Option.isSome_iff_exists.mp hcreatable.2
      rw [importOne_new hfault hheld hcreatable.1 hkey, if_neg (by decide)]
      refine .inl ⟨_, List.mem_append_right _ (List.mem_singleton_self _), ?_⟩
      refine ⟨inScope_of_tenantOf rfl, rfl, .inr ?_⟩
      rw [changesFor_eq_empty]
      exact ⟨rfl, .inr rfl⟩
    · rw [importOne_refused hheld hcreatable]
      exact .inr ⟨hheld, hcreatable⟩

/-- A settled issue stays settled through the upsert of another. -/
theorem settled_other {t : CardTable} {scope : Option String} {ref other : IssueRef}
    {issue : IssueData} (h : Indexed t) (hone : OneTenant scope t)
    (hsettled : Settled t scope ref issue) (hne : ref ≠ other) (repositoryId : Option Nat)
    (now : Time) (otherIssue : IssueData) (fault : Fault) :
    Settled (importOne scope repositoryId now t other otherIssue fault).2 scope ref issue := by
  have htext : ref.text ≠ other.text := fun htext ↦ hne (text_injective htext)
  rcases hsettled with ⟨r, hr, hscope, href, hcase⟩ | ⟨hnew, hrefused⟩
  · refine .inl ⟨r, ?_, hscope, href, hcase⟩
    rcases importOne_cases scope repositoryId now t other otherIssue fault with
      ht | ⟨c, q, hc, -, hq, -, ht⟩ | ⟨key, -, -, ht⟩
    · rw [ht]
      exact hr
    · obtain ⟨-, hqt, -, hqref, -⟩ := row_of_refresh h hone hc hq
      rw [ht]
      refine mem_modifyRow.mpr ⟨r, hr, ?_⟩
      rw [if_neg]
      intro hid
      rw [h.eq_of_id hr hqt hid, hqref] at href
      exact htext (Option.some.inj href).symm
    · rw [ht]
      exact List.mem_append_left _ hr
  · refine .inr ⟨?_, ?_⟩
    · rw [holds_importOne]
      rintro (hheld | ⟨hsame, -⟩)
      · exact hnew hheld
      · exact htext hsame
    · rw [Creatable, keysReadable_importOne]
      exact hrefused

/-- After a pass that met no fault every returned issue is settled. -/
theorem settled_importAll {t : CardTable} {scope : Option String} (h : Indexed t)
    (hone : OneTenant scope t) (project : String) (repositoryId : Option Nat) (now : Time)
    {returned : List Returned} (hdistinct : (returned.map fun r ↦ r.issue.number).Nodup)
    (hfaults : ∀ r ∈ returned, r.fault = .none) :
    ∀ x ∈ issuesOnly returned, Settled (importAll scope project repositoryId now t returned) scope
      (refOf project x.issue) x.issue := by
  have hdistinct' : ((issuesOnly returned).map fun r ↦ r.issue.number).Nodup :=
    hdistinct.sublist (List.filter_sublist.map _)
  have hfaults' : ∀ r ∈ issuesOnly returned, r.fault = .none :=
    fun r hr ↦ hfaults r (List.mem_filter.mp hr).1
  rw [importAll]
  -- Issues settled before stay settled, so the run over the rest settles all of them.
  have hrun : ∀ (rest : List Returned) (t : CardTable), Indexed t → OneTenant scope t →
      (rest.map fun r ↦ r.issue.number).Nodup → (∀ r ∈ rest, r.fault = .none) →
        ∀ x : Returned, (x ∈ rest ∨ Settled t scope (refOf project x.issue) x.issue ∧
          x.issue.number ∉ rest.map fun r ↦ r.issue.number) →
            Settled (rest.foldl (fun t r ↦ (upsert scope project repositoryId now t r).2) t) scope
              (refOf project x.issue) x.issue := by
    intro rest
    induction rest with
    | nil =>
      intro t _ _ _ _ x hx
      rcases hx with hx | hx
      · cases hx
      · exact hx.1
    | cons r rest ih =>
      intro t hindexed htenant hnodup hnone x hx
      rw [List.map_cons, List.nodup_cons] at hnodup
      rw [List.foldl_cons]
      apply ih _ (indexed_importOne hindexed scope repositoryId now _ r.issue r.fault)
        (oneTenant_importOne htenant repositoryId now _ r.issue r.fault) hnodup.2
        (fun s hs ↦ hnone s (List.mem_cons_of_mem _ hs))
      rcases hx with hx | ⟨hsettled, hnumber⟩
      · rcases List.mem_cons.mp hx with rfl | hx
        · refine .inr ⟨?_, hnodup.1⟩
          have hown := settled_importOne hindexed htenant repositoryId now (refOf project x.issue)
            x.issue
          rw [← hnone x List.mem_cons_self] at hown
          exact hown
        · exact .inl hx
      · rw [List.map_cons, List.mem_cons, not_or] at hnumber
        refine .inr ⟨?_, hnumber.2⟩
        apply settled_other hindexed htenant hsettled
        intro hsame
        rw [refOf, refOf, IssueRef.mk.injEq] at hsame
        exact hnumber.1 hsame.2
  exact fun x hx ↦ hrun _ t h hone hdistinct' hfaults' x (.inl hx)

/-- A pass over settled issues leaves the cards alone. -/
theorem importAll_settled {t : CardTable} {scope : Option String} {project : String}
    {returned : List Returned} (h : Indexed t) (hone : OneTenant scope t)
    (hsettled : ∀ x ∈ issuesOnly returned, Settled t scope (refOf project x.issue) x.issue)
    (repositoryId : Option Nat) (now : Time) :
    importAll scope project repositoryId now t returned = t := by
  rw [importAll]
  revert hsettled
  induction issuesOnly returned with
  | nil => exact fun _ ↦ rfl
  | cons r rest ih =>
    intro hsettled
    have hstep : (upsert scope project repositoryId now t r).2 = t :=
      importOne_settled h hone (hsettled r List.mem_cons_self) repositoryId now r.fault
    rw [List.foldl_cons, hstep]
    exact ih fun x hx ↦ hsettled x (List.mem_cons_of_mem _ hx)

/-! ## What the comment threads change -/

theorem unmarked_markSynced (t : CardTable) (scope : Option String) (key : String)
    (syncedAt : Time) : unmarked (markSynced t scope key syncedAt) = unmarked t := by
  rw [unmarked, unmarked, markSynced, List.map_map]
  apply List.map_congr_left
  intro r _
  show unmarkedRow (if inScope scope r && r.card.cardKey == key then
    { r with card := marked syncedAt r.card } else r) = unmarkedRow r
  split <;> rfl

/-- One thread stored: markers apart, the cards stay as they are. -/
private theorem unmarked_storeOne (scope : Option String) (targets : Dict Int Card)
    (syncedAt : Time) (fault : Int → Bool) (s : CommentSync) (thread : Thread) :
    unmarked (storeOne scope targets syncedAt fault s thread).cards = unmarked s.cards := by
  rw [storeOne]
  cases targets.get? thread.1 with
  | none => rfl
  | some target =>
    show unmarked (if _ then _ else _ : CommentSync).cards = _
    split
    · rfl
    · rw [storeComments]
      cases storeThread s.rows (tenantOf scope) target.cardKey thread.2 with
      | none => rfl
      | some rows => exact unmarked_markSynced s.cards scope target.cardKey syncedAt

theorem unmarked_syncComments (nocase : Bool) (scope : Option String) (project : String)
    (backfillMax : Int) (answer : Group → GroupAnswer) (t : CardTable) (rows : List CommentRow) :
    unmarked (syncComments nocase scope project backfillMax answer t rows).1.cards =
      unmarked t := by
  apply syncComments_invariant (P := fun s ↦ unmarked s.cards = unmarked t) nocase scope project
    backfillMax answer t rows rfl
  · exact fun s hs ↦ hs
  · intro g s thread hs
    exact (unmarked_storeOne scope _ (answer g).syncedAt (answer g).fault s thread).trans hs

theorem deleted_syncComments {t : CardTable} {scope : Option String} (h : Indexed t)
    (hone : OneTenant scope t) (nocase : Bool) (project : String) (backfillMax : Int)
    (answer : Group → GroupAnswer) (rows : List CommentRow) {r : CardRow} (hr : r ∈ t)
    (hdeleted : r.card.deletedAt.isSome = true) :
    r ∈ (syncComments nocase scope project backfillMax answer t rows).1.cards := by
  apply mem_syncComments hr
  intro c hc hscope hkey
  obtain ⟨e, he, rfl⟩ := List.mem_map.mp hc
  obtain ⟨v, hv, hvisible, hcard⟩ := mem_cardsForProject (mem_byNumber he)
  obtain ⟨hvs, hlive⟩ := visible_iff.mp hvisible
  have hrv : r = v := h.eq_of_key hone hr hv hscope hvs (by rw [hkey, hcard])
  rw [hrv, hlive] at hdeleted
  cases hdeleted

/-! ## Tables that differ in their markers -/

private theorem unmarkedRow_id (r : CardRow) : (unmarkedRow r).id = r.id :=
  rfl

/-- Rows of two such tables correspond. -/
theorem mem_of_unmarked {t t' : CardTable} (hu : unmarked t' = unmarked t) {r' : CardRow}
    (hr' : r' ∈ t') : ∃ r ∈ t, r'.id = r.id ∧
      r'.card = { r.card with commentsSyncedAt := r'.card.commentsSyncedAt } := by
  have hmem : unmarkedRow r' ∈ unmarked t := hu ▸ List.mem_map_of_mem hr'
  obtain ⟨r, hr, hsame⟩ := List.mem_map.mp hmem
  have hcard : { r.card with commentsSyncedAt := none } =
      { r'.card with commentsSyncedAt := none } := congrArg CardRow.card hsame
  refine ⟨r, hr, (congrArg CardRow.id hsame).symm, ?_⟩
  calc r'.card = { ({ r'.card with commentsSyncedAt := none } : Card) with
        commentsSyncedAt := r'.card.commentsSyncedAt } := rfl
    _ = { r.card with commentsSyncedAt := r'.card.commentsSyncedAt } := by rw [← hcard]

theorem keyed_of_unmarked {t t' : CardTable} (h : Keyed t) (hu : unmarked t' = unmarked t) :
    Keyed t' := by
  have hids : ∀ u : CardTable, (unmarked u).map CardRow.id = u.map CardRow.id := by
    intro u
    rw [unmarked, List.map_map]
    exact List.map_congr_left fun r _ ↦ unmarkedRow_id r
  rw [Keyed, ← hids, hu, hids]
  exact h

theorem indexed_of_unmarked {t t' : CardTable} (h : Indexed t) (hu : unmarked t' = unmarked t) :
    Indexed t' where
  ids := keyed_of_unmarked h.ids hu
  keys := by
    intro a ha b hb htenant hkey
    obtain ⟨a0, ha0, haid, hacard⟩ := mem_of_unmarked hu ha
    obtain ⟨b0, hb0, hbid, hbcard⟩ := mem_of_unmarked hu hb
    rw [hacard, hbcard] at htenant hkey
    rw [haid, hbid]
    exact h.keys a0 ha0 b0 hb0 htenant hkey
  refs := by
    intro a ha b hb htenant hsome href
    obtain ⟨a0, ha0, haid, hacard⟩ := mem_of_unmarked hu ha
    obtain ⟨b0, hb0, hbid, hbcard⟩ := mem_of_unmarked hu hb
    rw [hacard, hbcard] at htenant href
    rw [hacard] at hsome
    rw [haid, hbid]
    exact h.refs a0 ha0 b0 hb0 htenant hsome href

theorem oneTenant_of_unmarked {t t' : CardTable} {scope : Option String} (h : OneTenant scope t)
    (hu : unmarked t' = unmarked t) : OneTenant scope t' := by
  intro r' hr' hscope
  obtain ⟨r, hr, -, hcard⟩ := mem_of_unmarked hu hr'
  rw [inScope, hcard] at hscope
  rw [hcard]
  exact h r hr hscope

/-- Nothing a pass must leave alone differs. -/
theorem importSafe_of_unmarked {t t' : CardTable} (h : Keyed t) (hu : unmarked t' = unmarked t)
    (hdeleted : ∀ r ∈ t, r.card.deletedAt.isSome = true → r ∈ t') : ImportSafe t t' := by
  have hrow : ∀ r ∈ t, ∀ r' ∈ t', r'.id = r.id →
      r'.card = { r.card with commentsSyncedAt := r'.card.commentsSyncedAt } := by
    intro r hr r' hr' hid
    obtain ⟨r0, hr0, hid0, hcard⟩ := mem_of_unmarked hu hr'
    have hsame : r0 = r := List.inj_on_of_nodup_map h hr0 hr (hid0.symm.trans hid)
    rw [← hsame]
    exact hcard
  refine ⟨?_, ?_, ?_, ?_, ?_⟩
  · intro r hr
    obtain ⟨r', hr', hid, -⟩ := mem_of_unmarked hu.symm hr
    exact ⟨r', hr', hid.symm⟩
  · intro r' hr' hready
    obtain ⟨r, hr, hid, hcard⟩ := mem_of_unmarked hu hr'
    rw [hcard] at hready
    exact ⟨r, hr, hid.symm, hready⟩
  · intro r hr r' hr' hid
    rw [hrow r hr r' hr' hid]
    exact ⟨rfl, rfl, rfl, rfl, rfl⟩
  · intro r hr r' hr' hid _
    rw [hrow r hr r' hr' hid]
  · intro r hr r' hr' hid hgone
    exact List.inj_on_of_nodup_map (keyed_of_unmarked h hu) hr' (hdeleted r hr hgone) hid

/-- A settled issue is settled in the other table. -/
theorem settled_of_unmarked {t t' : CardTable} {scope : Option String} {ref : IssueRef}
    {issue : IssueData} (hsettled : Settled t scope ref issue) (hu : unmarked t' = unmarked t) :
    Settled t' scope ref issue := by
  rcases hsettled with ⟨r, hr, hscope, href, hcase⟩ | ⟨hnew, hrefused⟩
  · obtain ⟨r', hr', -, hcard⟩ := mem_of_unmarked hu.symm hr
    rw [inScope, hcard] at hscope
    rw [hcard] at href hcase
    exact .inl ⟨r', hr', hscope, href, hcase⟩
  · refine .inr ⟨?_, ?_⟩
    · rintro ⟨r', hr', hscope, href⟩
      obtain ⟨r, hr, -, hcard⟩ := mem_of_unmarked hu hr'
      rw [inScope, hcard] at hscope
      rw [hcard] at href
      exact hnew ⟨r, hr, hscope, href⟩
    · rintro ⟨hvalid, hnext⟩
      refine hrefused ⟨hvalid, ?_⟩
      rw [nextCardKey_isSome] at hnext ⊢
      intro r hr hscope
      obtain ⟨r', hr', -, hcard⟩ := mem_of_unmarked hu.symm hr
      rw [inScope, hcard] at hscope
      rw [hcard]
      exact hnext r' hr' hscope

/-! ## The whole pass -/

/-- The cards after a pass are those after its upserts, markers apart. -/
theorem unmarked_importPass (nocase : Bool) (scope : Option String) (project : String)
    (repositoryId : Option Nat) (backfillMax : Int) (comments : Option (Group → GroupAnswer))
    (now : Time) (t : CardTable) (rows : List CommentRow) (returned : List Returned) :
    unmarked (importPass nocase scope project repositoryId backfillMax comments now t rows
      returned).1 = unmarked (importAll scope project repositoryId now t returned) := by
  cases comments with
  | none => rfl
  | some answer => exact unmarked_syncComments nocase scope project backfillMax answer _ rows

/-- Every pass is safe; one that meets no fault mirrors the issues it was given, and the same
pass again changes no column of a card but the time its thread was read at. -/
theorem import_safe (nocase : Bool) (scope : Option String) (project : String)
    (repositoryId : Option Nat) (backfillMax : Int) (comments : Option (Group → GroupAnswer))
    (now : Time) (t : CardTable) (rows : List CommentRow) (returned : List Returned)
    (hindexed : Indexed t) (hone : OneTenant scope t) :
    let after := importPass nocase scope project repositoryId backfillMax comments now t rows
      returned
    ImportSafe t after.1 ∧
      ((returned.map fun x ↦ x.issue.number).Nodup → (∀ x ∈ returned, x.fault = .none) →
        (∀ r ∈ after.1, inScope scope r = true → r.card.deletedAt = none →
          ∀ x ∈ issuesOnly returned, r.card.issueRef = some (refOf project x.issue).text →
            mirrored r.card = mapping x.issue) ∧
        ∀ backfillMax' comments' now',
          unmarked (importPass nocase scope project repositoryId backfillMax' comments' now' after.1
            after.2 returned).1 = unmarked after.1) := by
  intro after
  obtain ⟨hsafe, hindexed1, hone1⟩ := importSafe_importAll hindexed hone project repositoryId now
    returned
  have hu : unmarked after.1 = unmarked (importAll scope project repositoryId now t returned) :=
    unmarked_importPass ..
  have hindexed2 : Indexed after.1 := indexed_of_unmarked hindexed1 hu
  have hone2 : OneTenant scope after.1 := oneTenant_of_unmarked hone1 hu
  have hdeleted : ∀ r ∈ importAll scope project repositoryId now t returned,
      r.card.deletedAt.isSome = true → r ∈ after.1 := by
    intro r hr hgone
    cases comments with
    | none => exact hr
    | some answer =>
      exact deleted_syncComments hindexed1 hone1 nocase project backfillMax answer rows hr hgone
  refine ⟨hsafe.trans (importSafe_of_unmarked hindexed1.ids hu hdeleted), ?_⟩
  intro hdistinct hfaults
  have hsettled : ∀ x ∈ issuesOnly returned, Settled after.1 scope (refOf project x.issue)
      x.issue := fun x hx ↦ settled_of_unmarked
    (settled_importAll hindexed hone project repositoryId now hdistinct hfaults x hx) hu
  constructor
  · intro r hr hscope hlive x hx href
    rcases hsettled x hx with ⟨q, hq, hqs, hqref, hcase⟩ | ⟨hnew, -⟩
    · have hrq : r = q := hindexed2.eq_of_ref hone2 hr hq hscope hqs href hqref
      subst hrq
      rw [hlive] at hcase
      exact (changesFor_eq_empty.mp (hcase.resolve_left (by simp))).1
    · exact absurd ⟨r, hr, hscope, href⟩ hnew
  · intro backfillMax' comments' now'
    rw [unmarked_importPass, importAll_settled hindexed2 hone2 hsettled]

/-- A board with a dispatched card, an imported one and a deleted one. -/
def plannedBoard : CardTable :=
  [⟨1, { cardKey := "FCT-1", tenantId := "acme", title := "Login", status := .inProgress
         correlationKey := some "acme/app#1", issueRef := some "acme/app#1" }⟩,
    ⟨2, { cardKey := "FCT-2", tenantId := "acme", title := "Logout"
          issueRef := some "acme/app#2" }⟩,
    ⟨3, { cardKey := "FCT-3", tenantId := "acme", title := "Search"
          issueRef := some "acme/app#3", deletedAt := some 5 }⟩]

/-- The issues of its project: one closed, two edited, and one that is new. -/
def plannedIssues : List Returned :=
  [⟨{ number := 1, title := "Sign in", state := "closed" }, .none⟩,
    ⟨{ number := 2, title := "Sign out", labels := ["factory:low"] }, .none⟩,
    ⟨{ number := 3, title := "Find" }, .none⟩, ⟨{ number := 4, title := "Export" }, .none⟩]

/-- An answer without comments, given a second after a time. -/
def noComments (now : Time) (g : Group) : GroupAnswer :=
  { threads := some (g.numbers.map fun n ↦ (n, [])), syncedAt := now + 1000000 }

theorem import_safe_planned :
    let after := importPass true (some "acme") "acme/app" none 25 (some (noComments 10)) 10
      plannedBoard [] plannedIssues
    ImportSafe plannedBoard after.1 ∧
      (∀ r ∈ after.1, inScope (some "acme") r = true → r.card.deletedAt = none →
        ∀ x ∈ issuesOnly plannedIssues, r.card.issueRef = some (refOf "acme/app" x.issue).text →
          mirrored r.card = mapping x.issue) ∧
      ∀ backfillMax' comments' now', unmarked (importPass true (some "acme") "acme/app" none
        backfillMax' comments' now' after.1 after.2 plannedIssues).1 = unmarked after.1 := by
  have hids : Keyed plannedBoard := by
    rw [Keyed]
    decide
  have h := import_safe true (some "acme") "acme/app" none 25 (some (noComments 10)) 10
    plannedBoard [] plannedIssues ⟨hids, by decide +kernel, by decide +kernel⟩
    (oneTenant_scoped "acme" plannedBoard)
  exact ⟨h.1, h.2 (by decide +kernel) (by decide +kernel)⟩

/-- The dispatched card of one tenant, and a card of another under the same key. -/
def twoTenants : CardTable :=
  [⟨1, { cardKey := "FCT-1", tenantId := "acme", title := "Login", status := .inProgress
         correlationKey := some "acme/app#1" }⟩,
    ⟨2, { cardKey := "FCT-1", title := "Logout", issueRef := some "acme/app#2" }⟩]

/-- The same pass again marks threads as read anew; a pull request does not reach the card of
its number; a create that raised half way leaves the labels behind; and an unscoped store over
two tenants moves a dispatched card of the other tenant. -/
theorem pass_changes_more :
    (importPass true (some "acme") "acme/app" none 25 (some (noComments 10)) 10
        (importPass true (some "acme") "acme/app" none 25 (some (noComments 0)) 0 plannedBoard []
          plannedIssues).1 [] plannedIssues).1 ≠
      (importPass true (some "acme") "acme/app" none 25 (some (noComments 0)) 0 plannedBoard []
        plannedIssues).1 ∧
    (∃ r ∈ (importPass true (some "acme") "acme/app" none 25 none 0 plannedBoard []
        [⟨{ number := 2, title := "Sign out", rawKeys := ["pull_request"] }, .none⟩]).1,
      r.card.deletedAt = none ∧ r.card.issueRef = some "acme/app#2" ∧
        mirrored r.card ≠
          mapping { number := 2, title := "Sign out", rawKeys := ["pull_request"] }) ∧
    (∃ r ∈ (importPass true (some "acme") "acme/app" none 25 none 0 [] []
        [⟨{ number := 5, title := "Audit", labels := ["bug"] }, .late⟩]).1,
      r.card.deletedAt = none ∧ r.card.issueRef = some "acme/app#5" ∧
        mirrored r.card ≠ mapping { number := 5, title := "Audit", labels := ["bug"] }) ∧
    ∃ r ∈ twoTenants, ∃ r' ∈ (importPass true none "acme/app" none 25 none 0 twoTenants []
        [⟨{ number := 2, title := "Sign out", state := "closed" }, .none⟩]).1,
      r'.id = r.id ∧ enteredTheFactory r.card = true ∧ r'.card.status ≠ r.card.status := by
  decide +kernel

end CFactory.Import
