import CFactory.Base.Latest
import CFactory.Import.Repository

/-!
# Which cards an import reaches

`issue_import.py:257–435`, `cards.py:784–839,930–951`. The rows the upserts of a project's
issues refresh and those whose threads it reads. A row that is neither keeps every column
through a whole pass: what the pass adds or refreshes before it reads threads does not bring a
row within its reach.
-/

namespace CFactory.Import

open CFactory.Base
open CFactory.Model
open CFactory.Cards
open CFactory.Git

/-- An issue of the project would refresh the row. -/
def Refreshes (t : CardTable) (scope : Option String) (project : String) (r : CardRow) : Prop :=
  ∃ n c, getByIssueRef t scope (IssueRef.text ⟨project, n⟩) = some c ∧ c.deletedAt = none ∧
    getRow t scope c.cardKey = some r

/-- A thread of the project would mark the row. -/
def Threads (nocase : Bool) (t : CardTable) (scope : Option String) (project : String)
    (r : CardRow) : Prop :=
  inScope scope r = true ∧
    ∃ c ∈ (byNumber (cardsForProject nocase t scope project)).values, r.card.cardKey = c.cardKey

theorem Refreshes.mem {t : CardTable} {scope : Option String} {project : String} {r : CardRow}
    (h : Refreshes t scope project r) : r ∈ t := by
  obtain ⟨n, c, -, -, hrow⟩ := h
  exact (getRow_spec hrow).1

/-- Where the scope sees one tenant, the rows its issues refresh are the live ones whose
reference is one of the project. -/
theorem refreshes_iff {t : CardTable} {scope : Option String} (h : Indexed t)
    (hone : OneTenant scope t) {project : String} {r : CardRow} :
    Refreshes t scope project r ↔ r ∈ t ∧ visible scope r = true ∧
      ∃ n, r.card.issueRef = some (IssueRef.text ⟨project, n⟩) := by
  constructor
  · rintro ⟨n, c, hc, -, hrow⟩
    obtain ⟨-, hmem, hscope, href, hlive⟩ := row_of_refresh h hone hc hrow
    exact ⟨hmem, visible_iff.mpr ⟨hscope, hlive⟩, n, href⟩
  · rintro ⟨hmem, hvisible, n, href⟩
    obtain ⟨hscope, hlive⟩ := visible_iff.mp hvisible
    exact ⟨n, r.card, getByIssueRef_eq h hone hmem hscope href, hlive,
      h.getRow_self hone hmem hvisible⟩

/-! ## The cards whose threads are read -/

/-- The card's reference reads back to this number. -/
def numbered (n : Int) (c : Card) : Bool := (IssueRef.parse c.issueRef).any (·.number == n)

/-- The last card with a number is the one read under it. -/
theorem get?_byNumber (cards : List Card) (n : Int) :
    (byNumber cards).get? n = (cards.filter (numbered n)).getLast? := by
  have hempty : (Dict.empty : Dict Int Card).get? n = none := rfl
  rw [byNumber, Dict.get?_foldl (p := numbered n) (v := id), hempty, Option.or_none,
    Option.map_id_fun, id]
  intro d c
  cases hparse : IssueRef.parse c.issueRef with
  | none => simp [numbered, hparse]
  | some ref =>
    have hnumber : numbered n c = decide (n = ref.number) := by
      rw [numbered, hparse, Option.any_some, BEq.comm, beq_eq_decide]
    dsimp only
    rw [Dict.get?_set, hnumber]
    simp only [decide_eq_true_eq, id]

/-- The row is a live one of the project with this number. -/
def candidate (nocase : Bool) (scope : Option String) (project : String) (n : Int)
    (r : CardRow) : Bool :=
  decide (strip project.toList ≠ []) &&
    (visible scope r && ofProject nocase (strip project.toList) r) &&
    numbered n r.card

/-- When the card of a row was created. -/
def created (r : CardRow) : Time := r.card.createdAt

/-- The card read under a number is that of the newest row with the number. -/
theorem get?_threads (nocase : Bool) (t : CardTable) (scope : Option String) (project : String)
    (n : Int) :
    (byNumber (cardsForProject nocase t scope project)).get? n =
      (latest created (t.filter (candidate nocase scope project n))).map CardRow.card := by
  rw [get?_byNumber, cardsForProject]
  by_cases hname : strip project.toList = []
  · have hnone : t.filter (candidate nocase scope project n) = [] := by
      rw [List.filter_eq_nil_iff]
      intro r _
      simp [candidate, hname]
    rw [if_pos hname, hnone]
    rfl
  · have hsame : t.filter (candidate nocase scope project n) =
        (t.filter fun r ↦ visible scope r && ofProject nocase (strip project.toList) r).filter
          (numbered n ∘ CardRow.card) := by
      rw [List.filter_filter]
      apply List.filter_congr
      intro r _
      simp only [candidate, hname, ne_eq, not_false_eq_true, decide_true, Bool.true_and,
        Function.comp_apply]
      exact Bool.and_comm _ _
    rw [if_neg hname]
    show (List.filter (numbered n) (List.insertionSort (fun a b ↦ a.createdAt ≤ b.createdAt)
      _)).getLast? = _
    rw [getLast_filter_insertionSort Card.createdAt, List.filter_map, hsame,
      latest_map Card.createdAt created fun r ↦ rfl]

/-! ## Tables that grew -/

/-- What a row is found by and whose it is. -/
def Alike (r r' : CardRow) : Prop :=
  r'.id = r.id ∧ r'.card.tenantId = r.card.tenantId ∧ r'.card.cardKey = r.card.cardKey ∧
    r'.card.issueRef = r.card.issueRef ∧ r'.card.deletedAt = r.card.deletedAt ∧
    r'.card.createdAt = r.card.createdAt ∧ r'.card.repositoryId = r.card.repositoryId

/-- The rows of before in their places, some of their other columns changed, and new rows of
the importing repository under new keys; rows of the other repository stay as they are. -/
def Grown (scope : Option String) (own other : Nat) (t t' : CardTable) : Prop :=
  ∃ (f : CardRow → CardRow) (added : CardTable), t' = t.map f ++ added ∧
    (∀ r, Alike r (f r)) ∧ (∀ r ∈ t, r.card.repositoryId = some other → f r = r) ∧
    ∀ a ∈ added, a.card.repositoryId = some own ∧
      ∀ q ∈ t, inScope scope q = true → q.card.cardKey ≠ a.card.cardKey

variable {scope : Option String} {own other : Nat} {t t' : CardTable} {project : String}

theorem Grown.refl (scope : Option String) (own other : Nat) (t : CardTable) :
    Grown scope own other t t :=
  ⟨id, [], by simp, fun _ ↦ ⟨rfl, rfl, rfl, rfl, rfl, rfl, rfl⟩, fun _ _ _ ↦ rfl, by simp⟩

theorem Alike.visible {r r' : CardRow} (h : Alike r r') : visible scope r' = visible scope r := by
  obtain ⟨-, htenant, -, -, hdeleted, -⟩ := h
  rw [Cards.visible, Cards.visible, htenant, hdeleted]

theorem Alike.inScope {r r' : CardRow} (h : Alike r r') :
    inScope scope r' = inScope scope r := by
  rw [Cards.inScope, Cards.inScope, h.2.1]

/-- The rows of the other repository are those there were. -/
theorem Grown.mem_iff (h : Grown scope own other t t') (hne : own ≠ other) {r : CardRow}
    (hr : r.card.repositoryId = some other) : r ∈ t' ↔ r ∈ t := by
  obtain ⟨f, added, rfl, halike, hsame, hadded⟩ := h
  constructor
  · intro hmem
    rcases List.mem_append.mp hmem with hmem | hmem
    · obtain ⟨q, hq, rfl⟩ := List.mem_map.mp hmem
      have hnamed : q.card.repositoryId = some other := by
        rw [← (halike q).2.2.2.2.2.2]
        exact hr
      rw [hsame q hq hnamed]
      exact hq
    · rw [(hadded r hmem).1] at hr
      exact absurd (Option.some.inj hr) hne
  · intro hmem
    exact List.mem_append_left _ (List.mem_map.mpr ⟨r, hmem, hsame r hmem hr⟩)

/-- A row that an upsert on the grown table would refresh was one before, or is new. -/
theorem Grown.refreshes (h : Grown scope own other t t') {r : CardRow}
    (hr : Refreshes t' scope project r) :
    r.card.repositoryId = some own ∨ ∃ q, Refreshes t scope project q ∧ Alike q r := by
  obtain ⟨f, added, rfl, halike, -, hadded⟩ := h
  obtain ⟨n, c, hc, hlive, hrow⟩ := hr
  have hkey := (getRow_spec hrow).2.2
  -- the row that the key finds: an old one where the key is an old card's
  have hfind : getRow (t.map f ++ added) scope c.cardKey =
      ((getRow t scope c.cardKey).map f).or (getRow added scope c.cardKey) := by
    rw [getRow, List.find?_append, List.find?_map]
    congr 3
    funext q
    show (visible scope (f q) && (f q).card.cardKey == c.cardKey) = _
    rw [(halike q).visible, (halike q).2.2.1]
  rw [hfind] at hrow
  cases hold : getRow t scope c.cardKey with
  | none =>
    rw [hold, Option.map_none, Option.none_or] at hrow
    exact .inl (hadded r (getRow_spec hrow).1).1
  | some q =>
    rw [hold, Option.map_some, Option.some_or, Option.some.injEq] at hrow
    subst hrow
    refine .inr ⟨q, ?_, halike q⟩
    obtain ⟨hqt, hqv, hqkey⟩ := getRow_spec hold
    have hissue : getByIssueRef (t.map f ++ added) scope (IssueRef.text ⟨project, n⟩) =
        (((rowByIssueRef t scope (IssueRef.text ⟨project, n⟩)).map f).or
          (rowByIssueRef added scope (IssueRef.text ⟨project, n⟩))).map CardRow.card := by
      rw [getByIssueRef, rowByIssueRef, List.find?_append, List.find?_map]
      congr 4
      funext q
      show (inScope scope (f q) && (f q).card.issueRef == some _) = _
      rw [(halike q).inScope, (halike q).2.2.2.1]
    rw [hissue] at hc
    cases hrow : rowByIssueRef t scope (IssueRef.text ⟨project, n⟩) with
    | none =>
      rw [hrow, Option.map_none, Option.none_or, Option.map_eq_some_iff] at hc
      obtain ⟨a, ha, rfl⟩ := hc
      exact absurd hqkey ((hadded a (rowByIssueRef_spec ha).1).2 q hqt (visible_iff.mp hqv).1)
    | some s =>
      rw [hrow, Option.map_some, Option.some_or, Option.map_some, Option.some.injEq] at hc
      subst hc
      refine ⟨n, s.card, by rw [getByIssueRef, hrow]; rfl, ?_, ?_⟩
      · rw [← (halike s).2.2.2.2.1]
        exact hlive
      · rw [(halike s).2.2.1] at hold
        exact hold

/-- A row whose thread is read on the grown table is one whose thread was read before, or is
new. -/
theorem Grown.threads (h : Grown scope own other t t') {nocase : Bool} {r : CardRow} (hr : r ∈ t')
    (hthread : Threads nocase t' scope project r) :
    r.card.repositoryId = some own ∨ ∃ q ∈ t, Threads nocase t scope project q ∧ Alike q r := by
  obtain ⟨f, added, rfl, halike, -, hadded⟩ := h
  rcases List.mem_append.mp hr with hr | hr
  · obtain ⟨q, hq, rfl⟩ := List.mem_map.mp hr
    obtain ⟨hscope, c, hc, hkey⟩ := hthread
    rw [(halike q).inScope] at hscope
    rw [(halike q).2.2.1] at hkey
    obtain ⟨n, hn⟩ := Dict.exists_key hc
    rw [get?_threads, List.filter_append, Option.map_eq_some_iff] at hn
    obtain ⟨x, hx, rfl⟩ := hn
    have hcandidate : candidate nocase scope project n ∘ f = candidate nocase scope project n := by
      funext s
      show candidate nocase scope project n (f s) = _
      rw [candidate, candidate, ofProject, ofProject, numbered, numbered, (halike s).visible,
        (halike s).2.2.2.1]
    rcases latest_append hx with hx | hx
    · exact absurd hkey ((hadded x (List.mem_filter.mp hx).1).2 q hq hscope)
    · rw [List.filter_map, hcandidate,
        latest_map created created fun s ↦ (halike s).2.2.2.2.2.1,
        Option.map_eq_some_iff] at hx
      obtain ⟨s, hs, rfl⟩ := hx
      have hvalue : s.card ∈ (byNumber (cardsForProject nocase t scope project)).values := by
        apply Dict.mem_values (k := n)
        rw [get?_threads, hs, Option.map_some]
      rw [(halike s).2.2.1] at hkey
      exact .inr ⟨q, hq, ⟨hscope, s.card, hvalue, hkey⟩, halike q⟩
  · exact .inl (hadded r hr).1

/-! ## A whole pass -/

private theorem alike_apply (c : Card) (issue : IssueData) (now : Time) (id : Nat) (r : CardRow) :
    Alike r
      (if r.id = id then { r with card := (changesFor c issue).apply now r.card } else r) := by
  split <;> exact ⟨rfl, rfl, rfl, rfl, rfl, rfl, rfl⟩

theorem Alike.trans {r r' r'' : CardRow} (h : Alike r r') (h' : Alike r' r'') : Alike r r'' := by
  obtain ⟨h1, h2, h3, h4, h5, h6, h7⟩ := h
  obtain ⟨h1', h2', h3', h4', h5', h6', h7'⟩ := h'
  exact ⟨h1'.trans h1, h2'.trans h2, h3'.trans h3, h4'.trans h4, h5'.trans h5, h6'.trans h6,
    h7'.trans h7⟩

/-- One upsert on a grown table, none of whose issues is on a row of the other repository. -/
theorem Grown.importOne (h : Grown scope own other t t') (hne : own ≠ other) (hkeyed : Keyed t)
    (hindexed : Indexed t')
    (hspared : ∀ r ∈ t, r.card.repositoryId = some other → ¬Refreshes t scope project r)
    (now : Time) (issue : IssueData) (fault : Fault) :
    Grown scope own other t
      (importOne scope (some own) now t' (refOf project issue) issue fault).2 := by
  rcases importOne_cases scope (some own) now t' (refOf project issue) issue fault with
    hsame | ⟨c, q, hc, hlive, hq, -, hsame⟩ | ⟨key, -, hkey, hsame⟩
  · rw [hsame]
    exact h
  · -- the refreshed row is not one of the other repository
    have hqt := (getRow_spec hq).1
    have hrefreshed : Refreshes t' scope project q := ⟨issue.number, c, hc, hlive, hq⟩
    have hforeign : q.card.repositoryId ≠ some other := by
      intro hnamed
      rcases h.refreshes hrefreshed with hown | ⟨s, hs, halike⟩
      · rw [hnamed] at hown
        exact hne (Option.some.inj hown).symm
      · have hst := hs.mem
        have hqold : q ∈ t := (h.mem_iff hne hnamed).mp hqt
        have hsq : s = q := List.inj_on_of_nodup_map hkeyed hst hqold halike.1.symm
        subst hsq
        exact hspared s hst hnamed hs
    obtain ⟨f, added, rfl, halike, hkept, hadded⟩ := h
    rw [hsame]
    refine ⟨fun r ↦ if (f r).id = q.id then
        { f r with card := (changesFor c issue).apply now (f r).card } else f r,
      modifyRow added q.id ((changesFor c issue).apply now), ?_, ?_, ?_, ?_⟩
    · rw [modifyRow, List.map_append, List.map_map]
      rfl
    · exact fun r ↦ (halike r).trans (alike_apply c issue now q.id (f r))
    · intro r hr hnamed
      have hfr := hkept r hr hnamed
      show (if (f r).id = q.id then _ else f r) = r
      rw [hfr, if_neg]
      intro hid
      have hrt : r ∈ t.map f ++ added :=
        List.mem_append_left _ (List.mem_map.mpr ⟨r, hr, hfr⟩)
      rw [hindexed.eq_of_id hrt hqt hid] at hnamed
      exact hforeign hnamed
    · intro a ha
      obtain ⟨b, hb, rfl⟩ := mem_modifyRow.mp ha
      obtain ⟨-, -, hcardKey, -, -, -, hrepository⟩ := alike_apply c issue now q.id b
      rw [hcardKey, hrepository]
      exact hadded b hb
  · obtain ⟨f, added, rfl, halike, hkept, hadded⟩ := h
    rw [hsame]
    refine ⟨f, added ++ [_], by rw [List.append_assoc], halike, hkept, ?_⟩
    intro a ha
    rcases List.mem_append.mp ha with ha | ha
    · exact hadded a ha
    · cases List.mem_singleton.mp ha
      have hcard : ∀ c : Card, c = bareCard scope (refOf project issue) issue (some own) key now ∨
          c = importedCard scope (refOf project issue) issue (some own) key now →
            c.repositoryId = some own ∧ c.cardKey = key := by
        rintro c (rfl | rfl) <;> exact ⟨rfl, rfl⟩
      obtain ⟨hrepository, hcardKey⟩ := hcard _ (ite_eq_or_eq (fault = .late)
        (bareCard scope (refOf project issue) issue (some own) key now)
        (importedCard scope (refOf project issue) issue (some own) key now))
      refine ⟨hrepository, ?_⟩
      intro r hr hscope
      rw [hcardKey, ← (halike r).2.2.1]
      have hmem : f r ∈ t.map f ++ added := List.mem_append_left _ (List.mem_map_of_mem hr)
      exact nextCardKey_fresh hkey hmem (by rw [(halike r).inScope]; exact hscope)

/-- All upserts of a pass. -/
theorem grown_importAll (hne : own ≠ other) (hindexed : Indexed t)
    (hspared : ∀ r ∈ t, r.card.repositoryId = some other → ¬Refreshes t scope project r)
    (now : Time) (returned : List Returned) :
    Grown scope own other t (importAll scope project (some own) now t returned) := by
  have hboth : Grown scope own other t (importAll scope project (some own) now t returned) ∧
      Indexed (importAll scope project (some own) now t returned) := by
    apply foldl_invariant (P := fun t' ↦ Grown scope own other t t' ∧ Indexed t')
    · rintro t' r ⟨hgrown, ht'⟩
      exact ⟨hgrown.importOne hne hindexed.ids ht' hspared now r.issue r.fault,
        indexed_importOne ht' scope (some own) now (refOf project r.issue) r.issue r.fault⟩
    · exact ⟨.refl scope own other t, hindexed⟩
  exact hboth.1

/-- A card of another repository that no issue of the project refreshes and no thread of it
marks is as it was after the pass. -/
theorem mem_importPass (hne : own ≠ other) (hindexed : Indexed t) {nocase : Bool}
    (hrefresh : ∀ r ∈ t, r.card.repositoryId = some other → ¬Refreshes t scope project r)
    (hthread : ∀ r ∈ t, r.card.repositoryId = some other → ¬Threads nocase t scope project r)
    (backfillMax : Int) (comments : Option (Group → GroupAnswer)) (now : Time)
    (rows : List CommentRow) (returned : List Returned) {r : CardRow} (hr : r ∈ t)
    (hnamed : r.card.repositoryId = some other) :
    r ∈ (importPass nocase scope project (some own) backfillMax comments now t rows
      returned).1 := by
  have hgrown := grown_importAll hne hindexed hrefresh now returned
  have hmem := (hgrown.mem_iff hne hnamed).mpr hr
  cases comments with
  | none => exact hmem
  | some answer =>
    apply mem_syncComments hmem
    intro c hc hscope hkey
    rcases hgrown.threads hmem ⟨hscope, c, hc, hkey⟩ with hown | ⟨q, hq, hthreads, halike⟩
    · rw [hnamed] at hown
      exact hne (Option.some.inj hown).symm
    · have hqnamed : q.card.repositoryId = some other := by
        rw [← halike.2.2.2.2.2.2]
        exact hnamed
      exact hthread q hq hqnamed hthreads

end CFactory.Import
