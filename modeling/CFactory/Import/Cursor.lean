import CFactory.Base.Extremes
import CFactory.Import.Upsert
import CFactory.Base.Runs
import Mathlib.Logic.Function.Basic

/-!
# Which issues the cursor leaves behind

`issue_import.py:228–307,438–571`, `cards.py:2381–2396`. Passes over the projects of a tenant
against a host that changes between them. A pass stores the newest stamp it was given, less
the overlap, whether or not every issue at or before that stamp became a card; the issues it
leaves behind are those truncated away and those whose upsert raised.
-/

namespace CFactory.Import

open CFactory.Base
open CFactory.Model
open CFactory.Cards

/-! ## What a pass adds to the cards -/

private theorem holds_modifyRow {t : CardTable} {scope : Option String} {ref : String} {id : Nat}
    {f : Card → Card} (hf : KeepsKeys f) :
    Holds (modifyRow t id f) scope ref ↔ Holds t scope ref := by
  have hrow : ∀ r : CardRow, inScope scope (if r.id = id then { r with card := f r.card } else r) =
      inScope scope r ∧ (if r.id = id then { r with card := f r.card } else r).card.issueRef =
        r.card.issueRef := by
    intro r
    by_cases hr : r.id = id
    · rw [if_pos hr, inScope, inScope, (hf r.card).1, (hf r.card).2.2]
      exact ⟨rfl, rfl⟩
    · rw [if_neg hr]
      exact ⟨rfl, rfl⟩
  constructor
  · rintro ⟨q, hq, hscope, href⟩
    obtain ⟨r, hr, rfl⟩ := mem_modifyRow.mp hq
    rw [(hrow r).1] at hscope
    rw [(hrow r).2] at href
    exact ⟨r, hr, hscope, href⟩
  · rintro ⟨r, hr, hscope, href⟩
    refine ⟨_, mem_modifyRow.mpr ⟨r, hr, rfl⟩, ?_, ?_⟩
    · rw [(hrow r).1]
      exact hscope
    · rw [(hrow r).2]
      exact href

private theorem holds_append {t : CardTable} {scope : Option String} {ref : String} {r : CardRow}
    (hr : inScope scope r = true) :
    Holds (t ++ [r]) scope ref ↔ Holds t scope ref ∨ r.card.issueRef = some ref := by
  constructor
  · rintro ⟨q, hq, hscope, href⟩
    rcases List.mem_append.mp hq with hq | hq
    · exact .inl ⟨q, hq, hscope, href⟩
    · cases List.mem_singleton.mp hq
      exact .inr href
  · rintro (⟨q, hq, hscope, href⟩ | href)
    · exact ⟨q, List.mem_append_left _ hq, hscope, href⟩
    · exact ⟨r, by simp, hr, href⟩

/-- After an upsert the scope holds what it held, and the issue where the upsert did not raise
before its insert. -/
theorem holds_importOne (scope : Option String) (repositoryId : Option Nat) (now : Time)
    (t : CardTable) (ref : IssueRef) (issue : IssueData) (fault : Fault) (other : String) :
    Holds (importOne scope repositoryId now t ref issue fault).2 scope other ↔
      Holds t scope other ∨ other = ref.text ∧ fault ≠ .early ∧ Creatable t scope ref issue := by
  by_cases hheld : Holds t scope ref.text
  · have hkeeps : Holds (importOne scope repositoryId now t ref issue fault).2 scope other ↔
        Holds t scope other := by
      rcases importOne_cases scope repositoryId now t ref issue fault with
        h | ⟨c, q, -, -, -, -, h⟩ | ⟨key, hnew, -⟩
      · rw [h]
      · rw [h, holds_modifyRow (keepsKeys_apply (changesFor_issueRef c issue))]
      · exact absurd hheld hnew
    rw [hkeeps]
    constructor
    · exact .inl
    · rintro (h | ⟨rfl, -⟩)
      · exact h
      · exact hheld
  · by_cases hfault : fault = .early
    · rw [hfault, importOne_early]
      simp
    · by_cases hcreatable : Creatable t scope ref issue
      · obtain ⟨key, hkey⟩ := Option.isSome_iff_exists.mp hcreatable.2
        have hscope : ∀ c : Card, c.tenantId = tenantOf scope →
            inScope scope ⟨freshId t, c⟩ = true := fun c hc ↦ inScope_of_tenantOf hc
        rw [importOne_new hfault hheld hcreatable.1 hkey]
        have hadded : ∀ c : Card, c.tenantId = tenantOf scope → c.issueRef = some ref.text →
            (Holds (t ++ [⟨freshId t, c⟩]) scope other ↔ Holds t scope other ∨
              other = ref.text ∧ fault ≠ .early ∧ Creatable t scope ref issue) := by
          intro c htenant href
          rw [holds_append (hscope c htenant), href, Option.some.injEq, eq_comm]
          constructor
          · exact Or.imp_right fun h ↦ ⟨h, hfault, hcreatable⟩
          · exact Or.imp_right And.left
        by_cases hlate : fault = .late
        · rw [if_pos hlate]
          exact hadded _ rfl rfl
        · rw [if_neg hlate]
          exact hadded _ rfl rfl
      · rw [importOne_refused hheld hcreatable]
        constructor
        · exact .inl
        · rintro (h | ⟨-, -, h⟩)
          · exact h
          · exact absurd h hcreatable

/-- Keys stay readable through an upsert, and become so through none. -/
theorem keysReadable_importOne (scope : Option String) (repositoryId : Option Nat) (now : Time)
    (t : CardTable) (ref : IssueRef) (issue : IssueData) (fault : Fault) :
    (nextCardKey (importOne scope repositoryId now t ref issue fault).2 scope).isSome = true ↔
      (nextCardKey t scope).isSome = true := by
  rcases importOne_cases scope repositoryId now t ref issue fault with
    h | ⟨c, q, -, -, -, -, h⟩ | ⟨key, -, hkey, h⟩
  · rw [h]
  · rw [h, nextCardKey_modifyRow (keepsKeys_apply (changesFor_issueRef c issue))]
  · rw [h, hkey]
    refine iff_of_true (nextCardKey_append hkey ?_) rfl
    split <;> rfl

/-- What the scope holds after a pass. -/
theorem holds_importAll (scope : Option String) (project : String) (repositoryId : Option Nat)
    (now : Time) (t : CardTable) (returned : List Returned) (other : String) :
    Holds (importAll scope project repositoryId now t returned) scope other ↔
      Holds t scope other ∨ ∃ r ∈ issuesOnly returned, other = (refOf project r.issue).text ∧
        r.fault ≠ .early ∧ Creatable t scope (refOf project r.issue) r.issue := by
  rw [importAll]
  induction issuesOnly returned generalizing t with
  | nil => simp
  | cons r rest ih =>
    have hcreatable : ∀ s : Returned,
        Creatable (importOne scope repositoryId now t (refOf project r.issue) r.issue r.fault).2
          scope (refOf project s.issue) s.issue ↔
            Creatable t scope (refOf project s.issue) s.issue := by
      intro s
      rw [Creatable, Creatable, keysReadable_importOne]
    rw [List.foldl_cons, ih, upsert, holds_importOne]
    simp only [hcreatable, List.exists_mem_cons_iff, or_assoc]

/-! ## Runs of passes -/

/-- One pass: the project it reads, the settings, the issues on the host at the time, and what
the provider returned, or `none` where no provider could be asked or the call raised. -/
structure ImportPass where
  project : String
  repositoryId : Option Nat := none
  full : Bool := false
  settings : ImportSettings := {}
  host : List IssueData
  answer : Option (List Returned)
  now : Time

/-- The cards, the watermark of every project, and the issues of the host that matched the
filters of the pass that stored it. -/
structure CursorState where
  cards : CardTable
  watermark : String → Option Time
  matched : String → List IssueData

/-- Any cards, and no watermark yet. -/
def CursorState.start (t : CardTable) : CursorState := ⟨t, fun _ ↦ none, fun _ ↦ []⟩

variable (scope : Option String) (admits : IssueFilters → IssueData → Bool)

/-- The filters a pass asks with; `issue_import.py:493–494`. -/
def ImportPass.filters (x : ImportPass) (st : CursorState) : IssueFilters :=
  filtersFor x.settings (sinceFor x.full (st.watermark x.project))

/-- One pass of `import_issues`, with the issues `admits` selects on the host as those that
match its filters; `issue_import.py:493–549`, `cards.py:2381–2396`. -/
def passStep (st : CursorState) (x : ImportPass) : CursorState :=
  match x.answer with
  | none => st
  | some returned =>
    let filters := x.filters st
    let (cards, watermark, _) :=
      importIssues scope x.project x.repositoryId filters x.now st.cards returned
    match watermark with
    | none => { st with cards := cards }
    | some w =>
      { cards := cards
        watermark := Function.update st.watermark x.project (some w)
        matched := Function.update st.matched x.project (x.host.filter (admits filters)) }

/-- No issue is lost: one that matched when the watermark was stored, and whose stamp lies at
or before it, has a card, live or deleted, unless it is a pull request. -/
def NoIssueLost (st : CursorState) : Prop :=
  ∀ project, ∀ issue ∈ st.matched project, isPullRequest issue = false →
    ∀ w, st.watermark project = some w → issue.updatedAt ≤ w →
      (getByIssueRef st.cards scope (refOf project issue).text).isSome = true

/-- The issue's stamp is at least the overlap older than one the pass was given, or, where the
pass was given no issue, no newer than the cursor it asked from. -/
def Behind (since : Option Time) (returned : List Returned) (issue : IssueData) : Prop :=
  (∃ r ∈ issuesOnly returned, issue.updatedAt + overlap ≤ r.issue.updatedAt) ∨
    issuesOnly returned = [] ∧ ∃ w, since = some w ∧ issue.updatedAt ≤ w

/-- The issue was returned, its upsert did not raise before its insert, and its body and the
keys of the scope pass the checks of a create. -/
def Lands (t : CardTable) (project : String) (returned : List Returned) (issue : IssueData) :
    Prop :=
  ∃ r ∈ issuesOnly returned, r.issue.number = issue.number ∧ r.fault ≠ .early ∧
    Creatable t scope (refOf project issue) r.issue

/-- No matching issue that the pass puts behind the cursor is truncated away or raises, unless
it has a card already. -/
def LeavesNoneBehind (st : CursorState) (x : ImportPass) : Prop :=
  ∀ returned, x.answer = some returned →
    ∀ issue ∈ x.host.filter (admits (x.filters st)), isPullRequest issue = false →
      Behind (x.filters st).since returned issue →
        Holds st.cards scope (refOf x.project issue).text ∨
          Lands scope st.cards x.project returned issue

variable {scope admits}

/-- The stamps at or before the next watermark are those behind an issue of the pass. -/
theorem le_nextWatermark {since : Option Time} {returned : List Returned} {issue : IssueData}
    {w : Time} (h : nextWatermark ((issuesOnly returned).map Returned.issue) since = some w) :
    issue.updatedAt ≤ w ↔ Behind since returned issue := by
  rw [Behind]
  cases hissues : issuesOnly returned with
  | nil =>
    rw [hissues] at h
    have hsince : since = some w := h
    rw [hsince]
    simp
  | cons r rest =>
    rw [hissues] at h
    have hw : ((rest.map Returned.issue).map IssueData.updatedAt).foldl max r.issue.updatedAt -
        overlap = w := Option.some.inj h
    have hle : issue.updatedAt ≤ w ↔ issue.updatedAt + overlap ≤
        ((rest.map Returned.issue).map IssueData.updatedAt).foldl max r.issue.updatedAt := by
      rw [← hw]
      exact ⟨Int.add_le_of_le_sub_right, Int.le_sub_right_of_add_le⟩
    rw [hle, le_foldl_max, List.exists_mem_cons_iff]
    simp

/-- A pass that was given no issue and asked from no cursor stores none. -/
theorem behind_of_watermark {since : Option Time} {returned : List Returned} {issue : IssueData}
    (h : Behind since returned issue) :
    ∃ w, nextWatermark ((issuesOnly returned).map Returned.issue) since = some w := by
  cases hissues : issuesOnly returned with
  | nil =>
    rw [Behind, hissues] at h
    rcases h with ⟨r, hr, -⟩ | ⟨-, w, hw, -⟩
    · cases hr
    · exact ⟨w, hw⟩
  | cons r rest => exact ⟨_, rfl⟩

/-- What a pass makes of an issue's card. -/
theorem card_after_pass (st : CursorState) (x : ImportPass) (returned : List Returned)
    (project : String) (issue : IssueData) :
    (getByIssueRef (importAll scope x.project x.repositoryId x.now st.cards returned) scope
      (refOf project issue).text).isSome = true ↔
      Holds st.cards scope (refOf project issue).text ∨
        project = x.project ∧ Lands scope st.cards x.project returned issue := by
  rw [getByIssueRef_isSome, holds_importAll]
  refine or_congr_right ?_
  constructor
  · rintro ⟨r, hr, htext, hfault, hcreatable⟩
    have href := text_injective htext
    rw [refOf, refOf, IssueRef.mk.injEq] at href
    refine ⟨href.1, r, hr, href.2.symm, hfault, ?_⟩
    rw [refOf, href.2]
    exact hcreatable
  · rintro ⟨rfl, r, hr, hnumber, hfault, hcreatable⟩
    refine ⟨r, hr, ?_, hfault, ?_⟩
    · rw [refOf, refOf, hnumber]
    · rw [refOf, hnumber]
      exact hcreatable

/-- One pass keeps every issue exactly where it leaves none behind. -/
theorem noIssueLost_step (st : CursorState) (x : ImportPass) (h : NoIssueLost scope st) :
    NoIssueLost scope (passStep scope admits st x) ↔ LeavesNoneBehind scope admits st x := by
  cases hanswer : x.answer with
  | none =>
    have hstep : passStep scope admits st x = st := by rw [passStep, hanswer]
    rw [hstep, LeavesNoneBehind, hanswer]
    exact iff_of_true h (by simp)
  | some returned =>
    have hkept : ∀ project, ∀ issue ∈ st.matched project, isPullRequest issue = false →
        ∀ w, st.watermark project = some w → issue.updatedAt ≤ w →
          (getByIssueRef (importAll scope x.project x.repositoryId x.now st.cards returned) scope
            (refOf project issue).text).isSome = true := by
      intro project issue hissue hpr w hw hle
      rw [card_after_pass]
      exact .inl (getByIssueRef_isSome.mp (h project issue hissue hpr w hw hle))
    cases hw : nextWatermark ((issuesOnly returned).map Returned.issue) (x.filters st).since with
    | none =>
      have hstep : passStep scope admits st x =
          { st with
            cards := importAll scope x.project x.repositoryId x.now st.cards returned } := by
        rw [passStep, hanswer]
        simp only [importIssues, hw]
      rw [hstep]
      refine iff_of_true hkept ?_
      intro returned' hreturned issue _ _ hbehind
      rw [hanswer] at hreturned
      cases hreturned
      obtain ⟨w, hsome⟩ := behind_of_watermark hbehind
      rw [hw] at hsome
      cases hsome
    | some w =>
      have hstep : passStep scope admits st x =
          { cards := importAll scope x.project x.repositoryId x.now st.cards returned
            watermark := Function.update st.watermark x.project (some w)
            matched := Function.update st.matched x.project
              (x.host.filter (admits (x.filters st))) } := by
        rw [passStep, hanswer]
        simp only [importIssues, hw]
      rw [hstep]
      constructor
      · intro hlost returned' hreturned issue hissue hpr hbehind
        rw [hanswer] at hreturned
        cases hreturned
        have hmatched : issue ∈ Function.update st.matched x.project
            (x.host.filter (admits (x.filters st))) x.project := by
          rw [Function.update_self]
          exact hissue
        have hcard := hlost x.project issue hmatched hpr w (Function.update_self ..)
          ((le_nextWatermark hw).mpr hbehind)
        rw [card_after_pass] at hcard
        exact hcard.imp_right And.right
      · intro hnone project issue hissue hpr w' hw' hle
        by_cases hproject : project = x.project
        · subst hproject
          have hissue' : issue ∈ x.host.filter (admits (x.filters st)) := by
            have hmem := hissue
            simp only [Function.update_self] at hmem
            exact hmem
          have hsame : w = w' := by
            have hstored := hw'
            simp only [Function.update_self] at hstored
            exact Option.some.inj hstored
          subst hsame
          rw [card_after_pass]
          exact (hnone returned hanswer issue hissue' hpr ((le_nextWatermark hw).mp hle)).imp_right
            fun hlands ↦ ⟨rfl, hlands⟩
        · have hmatched : issue ∈ st.matched project := by
            have hmem := hissue
            simp only [Function.update_of_ne hproject] at hmem
            exact hmem
          have hstored : st.watermark project = some w' := by
            have hold := hw'
            simp only [Function.update_of_ne hproject] at hold
            exact hold
          exact hkept project issue hmatched hpr w' hstored hle

/-- Over every run of passes, against any host and any provider, no issue is lost exactly where
no pass leaves one behind. -/
theorem import_loses_no_issue_iff (scope : Option String)
    (admits : IssueFilters → IssueData → Bool) (t : CardTable) (passes : List ImportPass) :
    Throughout (passStep scope admits) (NoIssueLost scope) (.start t) passes ↔
      EachStep (passStep scope admits) (LeavesNoneBehind scope admits) (.start t) passes := by
  apply throughout_iff_eachStep (D := fun _ _ ↦ True) (fun st x _ h ↦ noIssueLost_step st x h)
  · exact eachStep_of_all fun _ _ ↦ True.intro
  · intro project issue hissue
    cases hissue

/-- An issue in a milestone whose title is longer than a card's column. -/
def longMilestone : IssueData :=
  { number := 7, title := "Login", milestone := some (String.ofList (List.replicate 129 'm')) }

/-- A pass that is given it together with an issue two minutes younger. -/
def passOverBoth : ImportPass :=
  let younger : IssueData := { number := 8, title := "Logout", updatedAt := 120000000 }
  { project := "acme/app"
    host := [longMilestone, younger]
    answer := some [⟨longMilestone, .none⟩, ⟨younger, .none⟩]
    now := 130000000 }

/-- The body of its card fails the validation, and the watermark passes it all the same. -/
theorem refused_issue_is_lost :
    ¬Throughout (passStep (some "acme") fun f issue ↦ f.state == "all" || f.state == issue.state)
      (NoIssueLost (some "acme")) (.start []) [passOverBoth] := by
  intro h
  have hcard := h.2 "acme/app" longMilestone (by decide +kernel) (by decide +kernel) 60000000
    (by decide +kernel) (by decide +kernel)
  exact absurd hcard (by decide +kernel)

end CFactory.Import
