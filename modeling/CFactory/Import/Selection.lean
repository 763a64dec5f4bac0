import CFactory.Import.Comments
import CFactory.Intake.IssueNumber

/-!
# Which cards a refresh of threads selects

`cards.py:930–951`, `issue_import.py:318–435`. The cards of a project are selected by a pattern
over the text of their references, while the project of a reference is what the parser reads.
-/

namespace CFactory.Import

open CFactory.Base
open CFactory.Model
open CFactory.Cards
open CFactory.Intake
open CFactory.Status

/-- Sync reads the reference as one of the project; `github_sync.py:101–107`. -/
def parsesTo (project : String) (issueRef : Option String) : Bool :=
  match readIssueRef issueRef with
  | .ok (some ref) => ref.project == project
  | _ => false

/-- `_sync_comments`, which raises on a selected card whose reference raises when it is read;
`issue_import.py:318–435`. -/
def refreshThreads (nocase : Bool) (scope : Option String) (project : String) (backfillMax : Int)
    (answer : Group → GroupAnswer) (t : CardTable) (rows : List CommentRow) :
    Except ValueError (CommentSync × CommentReport) := do
  let _ ← (cardsForProject nocase t scope project).mapM fun c ↦ readIssueRef c.issueRef
  return syncComments nocase scope project backfillMax answer t rows

/-- The comments that are stored under a key. -/
def storedUnder (tenant key : String) (rows : List CommentRow) : List CommentRow :=
  rows.filter fun q ↦ q.tenantId == tenant && q.cardKey == key

/-- The cards that are selected for a project are the live ones of the tenant whose reference is
one of the project, oldest first. -/
def SelectsExactly (nocase : Bool) (t : CardTable) (tenant project : String) : Prop :=
  cardsForProject nocase t (some tenant) project =
    ((t.filter fun r ↦ visible (some tenant) r && parsesTo project r.card.issueRef).map
      CardRow.card).insertionSort fun a b ↦ a.createdAt ≤ b.createdAt

/-- A refresh of the project's threads neither marks nor stores a comment against a card of the
tenant whose reference is not one of the project. -/
def SparesOthers (nocase : Bool) (t : CardTable) (tenant project : String) : Prop :=
  ∀ (backfillMax : Int) (answer : Group → GroupAnswer) (rows : List CommentRow) (s : CommentSync)
    (report : CommentReport),
    refreshThreads nocase (some tenant) project backfillMax answer t rows = .ok (s, report) →
    ∀ r ∈ t, inScope (some tenant) r = true → parsesTo project r.card.issueRef = false →
      r ∈ s.cards ∧
        storedUnder tenant r.card.cardKey s.rows = storedUnder tenant r.card.cardKey rows

/-! ## The references on which the pattern and the parser differ -/

/-- Decimal digits that `int` reads, white space after them apart. -/
def Numeral (tail : List Char) : Prop :=
  (tail.rdropWhile isSpace ≠ [] ∧ (tail.rdropWhile isSpace).all Char.isDigit = true) ∧
    (tail.rdropWhile isSpace).length ≤ maxStrDigits

/-- The text begins with another path that the pattern takes for the project: it differs in the
case of a letter, or where the project has an underscore. -/
def Collides (nocase : Bool) (project text : List Char) : Prop :=
  ∃ path tail, text = path ++ '#' :: tail ∧ path ≠ project ∧
    List.Forall₂ (fun p c ↦ likeChar nocase p c = true) project path

/-- The text begins with the project, and what follows the mark is no number. -/
def Unnumbered (project text : List Char) : Prop :=
  ∃ tail, text = project ++ '#' :: tail ∧ ¬ Numeral tail

/-- The text is a reference to the project with white space before it. -/
def Indented (project text : List Char) : Prop :=
  ∃ blanks tail, text = blanks ++ project ++ '#' :: tail ∧ Numeral tail ∧
    blanks.all isSpace = true ∧ blanks ≠ []

/-! ## What the parser reads -/

/-- A number holds no mark. -/
private theorem Numeral.unmarked {tail : List Char} (h : Numeral tail) : '#' ∉ tail := by
  intro hmem
  rw [← List.mem_reverse, ← List.takeWhile_append_dropWhile (p := isSpace) (l := tail.reverse),
    List.mem_append] at hmem
  rcases hmem with hblank | hdigit
  · exact absurd (List.mem_takeWhile_imp hblank) (by decide)
  · have hin : '#' ∈ tail.rdropWhile isSpace := by
      rw [List.rdropWhile, List.mem_reverse]
      exact hdigit
    exact absurd (List.all_eq_true.mp h.1.2 '#' hin) (by decide)

/-- A project holds no mark, nor white space. -/
private theorem project_plain {project : List Char} (h : isProject project = true) :
    ∀ c ∈ project, isSpace c = false ∧ c ≠ '#' := by
  intro c hc
  apply plainChar_spec
  rcases mem_project h hc with hsegment | hslash
  · simp [plainChar, hsegment]
  · simp [plainChar, hslash]

/-- Of a text with a mark, the parser reads the project before its last mark and the number after
it. -/
private theorem parsesTo_marked {project text : String} (hp : isProject project.toList = true)
    {head tail : List Char} (hs : text.toList = head ++ '#' :: tail) (htail : '#' ∉ tail) :
    parsesTo project (some text) = true ↔
      head.dropWhile isSpace = project.toList ∧ Numeral tail := by
  have hread := readIssueRef_marked hs htail
  rw [parsesTo]
  by_cases hvalid : isProject (head.dropWhile isSpace) = true ∧ tail.rdropWhile isSpace ≠ [] ∧
      (tail.rdropWhile isSpace).all Char.isDigit = true
  · rw [if_pos hvalid] at hread
    rcases pyInt_digits hvalid.2.2 with ⟨hshort, n, hint⟩ | ⟨hlong, hint⟩
    · rw [hread, hint]
      have hnumeral : Numeral tail := ⟨hvalid.2, hshort⟩
      rw [and_iff_left hnumeral]
      dsimp only [Except.map]
      rw [beq_iff_eq, ← String.toList_inj, String.toList_ofList]
    · rw [hread, hint]
      exact iff_of_false (by simp [Except.map]) fun h ↦ hlong h.2.2
  · rw [hread, if_neg hvalid]
    apply iff_of_false (by simp)
    rintro ⟨hhead, hnumeral⟩
    rw [← hhead] at hp
    exact hvalid ⟨hp, hnumeral.1⟩

/-- The texts that sync reads as references to a project. -/
theorem parsesTo_iff {project : String} (hp : isProject project.toList = true) (text : String) :
    parsesTo project (some text) = true ↔
      ∃ blanks tail, text.toList = blanks ++ project.toList ++ '#' :: tail ∧ Numeral tail ∧
        blanks.all isSpace = true := by
  by_cases hmark : '#' ∈ text.toList
  swap
  · apply iff_of_false
    · rw [parsesTo, readIssueRef_unmarked hmark]
      simp
    · rintro ⟨blanks, tail, hs, -⟩
      rw [hs] at hmark
      exact hmark (List.mem_append_right _ List.mem_cons_self)
  obtain ⟨head, tail, hs, htail⟩ := exists_last hmark
  rw [parsesTo_marked hp hs htail]
  constructor
  · rintro ⟨hhead, hnumeral⟩
    refine ⟨head.takeWhile isSpace, tail, ?_, hnumeral, ?_⟩
    · rw [hs, ← hhead, List.takeWhile_append_dropWhile]
    · exact List.all_eq_true.mpr fun c hc ↦ List.mem_takeWhile_imp hc
  · rintro ⟨blanks, tail', hs', hnumeral, hblanks⟩
    obtain ⟨rfl, rfl⟩ := split_last htail hnumeral.unmarked (hs.symm.trans hs')
    refine ⟨?_, hnumeral⟩
    rw [List.dropWhile_append_of_pos (List.all_eq_true.mp hblanks), List.dropWhile_eq_self_iff]
    intro hpos
    simp [project_plain hp _ (List.getElem_mem hpos)]

/-! ## What the pattern takes -/

/-- A character of the pattern takes itself. -/
private theorem likeChar_self (nocase : Bool) (p : Char) : likeChar nocase p p = true := by
  simp [likeChar]

/-- The mark of the pattern takes nothing else. -/
private theorem likeChar_mark (nocase : Bool) (c : Char) :
    likeChar nocase '#' c = true ↔ c = '#' := by
  constructor
  · intro h
    rw [likeChar] at h
    simp only [Bool.or_eq_true, Bool.and_eq_true, beq_iff_eq, Char.reduceEq, false_and,
      false_or] at h
    rcases h with heq | ⟨-, hlower⟩
    · exact heq.symm
    · delta Char.toLower at hlower
      split at hlower
      · next hupper => exact absurd hupper (by decide)
      · split at hlower
        · next hupper =>
          have hval := congrArg (fun c ↦ c.val.toNat) hlower
          simp only [ge_iff_le, UInt32.le_iff_toNat_le, UInt32.toNat_add, UInt32.toNat_sub]
            at hupper hval
          have hA : 'A'.val.toNat = 65 := rfl
          have hZ : 'Z'.val.toNat = 90 := rfl
          have ha : 'a'.val.toNat = 97 := rfl
          have hmark : '#'.val.toNat = 35 := rfl
          omega
        · exact hlower.symm
  · rintro rfl
    exact likeChar_self nocase '#'

/-- The pattern of a project takes the texts that go on with the mark after as many characters,
each taken by that of the project. -/
theorem likePrefix_marked_iff (nocase : Bool) (project text : List Char) :
    likePrefix nocase (project ++ ['#']) text = true ↔
      ∃ path tail, text = path ++ '#' :: tail ∧
        List.Forall₂ (fun p c ↦ likeChar nocase p c = true) project path := by
  induction project generalizing text with
  | nil =>
    cases text with
    | nil => simp [likePrefix]
    | cons c rest =>
      simp [likePrefix, likeChar_mark]
  | cons p project ih =>
    cases text with
    | nil => simp [likePrefix]
    | cons c rest =>
      rw [List.cons_append, likePrefix, Bool.and_eq_true, ih]
      constructor
      · rintro ⟨hc, path, tail, rfl, hpath⟩
        exact ⟨c :: path, tail, rfl, .cons hc hpath⟩
      · rintro ⟨path, tail, htext, hpath⟩
        cases hpath with
        | cons hc hpath =>
          rw [List.cons_append, List.cons.injEq] at htext
          obtain ⟨rfl, rfl⟩ := htext
          exact ⟨hc, _, tail, rfl, hpath⟩

/-! ## Where they agree -/

/-- The pattern takes a text that the parser reads as a reference to the project only where
nothing stands before it. -/
private theorem taken_parsed {nocase : Bool} {project path tail blanks tail' : List Char}
    (hp : isProject project = true) (hpath : List.Forall₂ (fun p c ↦ likeChar nocase p c = true)
      project path) (hnumeral : Numeral tail') (hblanks : blanks.all isSpace = true)
    (hs : blanks ++ project ++ '#' :: tail' = path ++ '#' :: tail) :
    blanks = [] ∧ path = project ∧ tail = tail' := by
  have hfree : '#' ∉ blanks ++ project := by
    intro hmem
    rcases List.mem_append.mp hmem with hmem | hmem
    · exact absurd (List.all_eq_true.mp hblanks '#' hmem) (by decide)
    · exact (project_plain hp '#' hmem).2 rfl
  obtain ⟨hwhole, htail⟩ := split_only hfree hnumeral.unmarked hs
  have hlength := hpath.length_eq
  rw [← hwhole, List.length_append] at hlength
  have hempty : blanks = [] := List.eq_nil_of_length_eq_zero (by omega)
  rw [hempty, List.nil_append] at hwhole
  exact ⟨hempty, hwhole.symm, htail.symm⟩

/-- The pattern and the parser agree on a text exactly where it does not begin with another path
that the pattern takes for the project, a reference to the project has a number, and nothing
stands before it. -/
theorem selected_iff (nocase : Bool) {project : String} (hp : isProject project.toList = true)
    (text : String) :
    likePrefix nocase (project.toList ++ ['#']) text.toList = parsesTo project (some text) ↔
      ¬ Collides nocase project.toList text.toList ∧ ¬ Unnumbered project.toList text.toList ∧
        ¬ Indented project.toList text.toList := by
  have htaken := likePrefix_marked_iff nocase project.toList text.toList
  have hread := parsesTo_iff hp text
  have hself : List.Forall₂ (fun p c ↦ likeChar nocase p c = true) project.toList project.toList :=
    List.forall₂_same.mpr fun c _ ↦ likeChar_self nocase c
  rw [Bool.eq_iff_iff]
  constructor
  · intro hagree
    refine ⟨?_, ?_, ?_⟩
    · rintro ⟨path, tail, hs, hother, hpath⟩
      obtain ⟨blanks, tail', hs', hnumeral, hblanks⟩ :=
        hread.mp (hagree.mp (htaken.mpr ⟨path, tail, hs, hpath⟩))
      exact hother (taken_parsed hp hpath hnumeral hblanks (hs'.symm.trans hs)).2.1
    · rintro ⟨tail, hs, hnone⟩
      obtain ⟨blanks, tail', hs', hnumeral, hblanks⟩ :=
        hread.mp (hagree.mp (htaken.mpr ⟨_, tail, hs, hself⟩))
      obtain ⟨-, -, rfl⟩ := taken_parsed hp hself hnumeral hblanks (hs'.symm.trans hs)
      exact hnone hnumeral
    · rintro ⟨blanks, tail, hs, hnumeral, hblanks, hfilled⟩
      obtain ⟨path, tail', hs', hpath⟩ :=
        htaken.mp (hagree.mpr (hread.mpr ⟨blanks, tail, hs, hnumeral, hblanks⟩))
      exact hfilled (taken_parsed hp hpath hnumeral hblanks (hs.symm.trans hs')).1
  · rintro ⟨hcollides, hunnumbered, hindented⟩
    constructor
    · intro hlike
      obtain ⟨path, tail, hs, hpath⟩ := htaken.mp hlike
      have hsame : path = project.toList := by
        by_contra hother
        exact hcollides ⟨path, tail, hs, hother, hpath⟩
      rw [hsame] at hs
      have hnumeral : Numeral tail := by
        by_contra hnone
        exact hunnumbered ⟨tail, hs, hnone⟩
      exact hread.mpr ⟨[], tail, hs, hnumeral, rfl⟩
    · intro hparses
      obtain ⟨blanks, tail, hs, hnumeral, hblanks⟩ := hread.mp hparses
      have hempty : blanks = [] := by
        by_contra hfilled
        exact hindented ⟨blanks, tail, hs, hnumeral, hblanks, hfilled⟩
      rw [hempty, List.nil_append] at hs
      exact htaken.mpr ⟨_, tail, hs, hself⟩

/-! ## The selection -/

variable {nocase : Bool} {t : CardTable} {tenant project : String}

/-- The cards that the pattern selects. -/
theorem mem_selected (hp : isProject project.toList = true) {c : Card} :
    c ∈ cardsForProject nocase t (some tenant) project ↔
      ∃ r ∈ t, visible (some tenant) r = true ∧ ofProject nocase project.toList r = true ∧
        r.card = c := by
  have hname : project.toList ≠ [] := by
    intro hempty
    rw [hempty] at hp
    exact absurd hp (by decide)
  rw [cardsForProject, strip_project hp]
  simp only [hname, if_false, List.mem_insertionSort, List.mem_map, List.mem_filter,
    Bool.and_eq_true, and_assoc]

/-- The selection is exact where the pattern and the parser agree on every live card of the
tenant. -/
theorem selectsExactly_iff (hp : isProject project.toList = true) :
    SelectsExactly nocase t tenant project ↔
      ∀ r ∈ t, visible (some tenant) r = true →
        ofProject nocase project.toList r = parsesTo project r.card.issueRef := by
  constructor
  · intro hexact r hr hvisible
    have hsame : r.card ∈ cardsForProject nocase t (some tenant) project ↔
        r.card ∈ ((t.filter fun r ↦ visible (some tenant) r &&
          parsesTo project r.card.issueRef).map CardRow.card).insertionSort
            fun a b ↦ a.createdAt ≤ b.createdAt := by rw [hexact]
    rw [mem_selected hp, List.mem_insertionSort, List.mem_map] at hsame
    rw [Bool.eq_iff_iff]
    constructor
    · intro hlike
      obtain ⟨q, hq, hcard⟩ := hsame.mp ⟨r, hr, hvisible, hlike, rfl⟩
      rw [List.mem_filter, Bool.and_eq_true, hcard] at hq
      exact hq.2.2
    · intro hparses
      obtain ⟨q, -, -, hlike, hcard⟩ := hsame.mpr
        ⟨r, List.mem_filter.mpr ⟨hr, by rw [hvisible, hparses]; rfl⟩, rfl⟩
      rw [ofProject, hcard] at hlike
      exact hlike
  · intro hagree
    have hname : project.toList ≠ [] := by
      intro hempty
      rw [hempty] at hp
      exact absurd hp (by decide)
    rw [SelectsExactly, cardsForProject, strip_project hp]
    simp only [hname, if_false]
    congr 2
    apply List.filter_congr
    intro r hr
    cases hvisible : visible (some tenant) r with
    | false => rfl
    | true => rw [hagree r hr hvisible]

/-! ## What a refresh stores -/

/-- A thread that is stored under one key leaves what is stored under another. -/
private theorem storedUnder_storeThread {rows rows' : List CommentRow} {key other : String}
    {comments : List IssueComment} (h : storeThread rows tenant key comments = some rows')
    (hother : other ≠ key) : storedUnder tenant other rows' = storedUnder tenant other rows := by
  rw [storeThread] at h
  split at h
  swap
  · cases h
  cases h
  have hfound : (fun q : CommentRow ↦ q.tenantId == tenant && q.cardKey == other) ∘
      refreshRow tenant key comments = fun q ↦ q.tenantId == tenant && q.cardKey == other := by
    funext q
    obtain ⟨htenant, hkey, -⟩ := refreshRow_spec tenant key comments q
    rw [Function.comp_apply, htenant, hkey]
  have hrefreshed : (storedUnder tenant other rows).map (refreshRow tenant key comments) =
      storedUnder tenant other rows := by
    rw [← List.map_id (storedUnder tenant other rows), List.map_map]
    apply List.map_congr_left
    intro q hq
    rw [storedUnder, List.mem_filter, Bool.and_eq_true, beq_iff_eq, beq_iff_eq] at hq
    exact if_neg fun hkey ↦ hother (hq.2.2.symm.trans hkey.2)
  have hfresh : storedUnder tenant other ((comments.filter fun c ↦
      !storedId rows tenant key c.id).map fun c ↦ ⟨tenant, key, c⟩) = [] := by
    rw [storedUnder, List.filter_eq_nil_iff]
    intro q hq
    obtain ⟨c, -, rfl⟩ := List.mem_map.mp hq
    simp [hother.symm]
  rw [storedUnder] at hfresh hrefreshed ⊢
  rw [List.filter_append, hfresh, List.append_nil, List.filter_map, hfound, hrefreshed, storedUnder]

/-- A refresh stores nothing under a key that none of its cards has. -/
private theorem storedUnder_storeOne {targets : Dict Int Card} {other : String}
    (hother : ∀ c ∈ targets.values, other ≠ c.cardKey) (syncedAt : Time) (fault : Int → Bool)
    (s : CommentSync) (thread : Thread) :
    storedUnder tenant other (storeOne (some tenant) targets syncedAt fault s thread).rows =
      storedUnder tenant other s.rows := by
  rw [storeOne]
  cases htarget : targets.get? thread.1 with
  | none => rfl
  | some target =>
    dsimp only
    split
    · rfl
    · rw [storeComments]
      cases hstored : storeThread s.rows (tenantOf (some tenant)) target.cardKey thread.2 with
      | none => rfl
      | some rows => exact storedUnder_storeThread hstored (hother target (Dict.mem_values htarget))

/-- A refresh of cards that are all the project's touches no other card. -/
theorem sparesOthers_of_exact (hindexed : Indexed t) (hp : isProject project.toList = true)
    (hexact : SelectsExactly nocase t tenant project) : SparesOthers nocase t tenant project := by
  intro backfillMax answer rows s report hrun r hr hscope hforeign
  have hs : s = (syncComments nocase (some tenant) project backfillMax answer t rows).1 := by
    rw [refreshThreads] at hrun
    cases hread : (cardsForProject nocase t (some tenant) project).mapM
        fun c ↦ readIssueRef c.issueRef with
    | error e =>
      rw [hread] at hrun
      cases hrun
    | ok refs =>
      rw [hread] at hrun
      exact (congrArg Prod.fst (Except.ok.inj hrun)).symm
  have hother : ∀ c ∈ (byNumber (cardsForProject nocase t (some tenant) project)).values,
      r.card.cardKey ≠ c.cardKey := by
    intro c hc hkey
    obtain ⟨n, hn⟩ := Dict.exists_key hc
    obtain ⟨q, hq, hvisible, hlike, rfl⟩ :=
      (mem_selected hp).mp (mem_byNumber ((Dict.get?_eq_some_iff _ n c).mp hn))
    rw [(selectsExactly_iff hp).mp hexact q hq hvisible] at hlike
    have hsame : r = q := hindexed.eq_of_key (oneTenant_scoped tenant t) hr hq hscope
      (visible_iff.mp hvisible).1 hkey
    rw [hsame, hlike] at hforeign
    cases hforeign
  rw [hs]
  constructor
  · exact mem_syncComments hr (fun c hc _ ↦ hother c hc) backfillMax answer rows
  · apply syncComments_invariant
      (P := fun s ↦
        storedUnder tenant r.card.cardKey s.rows = storedUnder tenant r.card.cardKey rows)
    · rfl
    · exact fun s hs ↦ hs
    · intro g s thread hs
      rw [← hs]
      exact storedUnder_storeOne hother _ _ s thread

/-- The cards of a project are selected exactly, and no other card is stored against, exactly
where no live card of the tenant has a reference on which the pattern and the parser differ. -/
theorem selection_exact_iff (hindexed : Indexed t) (hp : isProject project.toList = true) :
    SelectsExactly nocase t tenant project ∧ SparesOthers nocase t tenant project ↔
      ∀ r ∈ t, visible (some tenant) r = true → ∀ ref, r.card.issueRef = some ref →
        ¬ Collides nocase project.toList ref.toList ∧ ¬ Unnumbered project.toList ref.toList ∧
          ¬ Indented project.toList ref.toList := by
  rw [and_iff_left_of_imp (sparesOthers_of_exact hindexed hp), selectsExactly_iff hp]
  constructor
  · intro hagree r hr hvisible ref href
    have hsame := hagree r hr hvisible
    rw [ofProject, href, Option.any_some] at hsame
    exact (selected_iff nocase hp ref).mp hsame
  · intro hclear r hr hvisible
    rw [ofProject]
    cases href : r.card.issueRef with
    | none => rfl
    | some ref => exact (selected_iff nocase hp ref).mpr (hclear r hr hvisible ref href)

/-- The board holds an issue of each of two projects. -/
def twoProjects (first second : String) : CardTable :=
  [⟨1, { cardKey := "FCT-1", title := "Add a health check", issueRef := some first }⟩,
    ⟨2, { cardKey := "FCT-2", title := "Add a metric", issueRef := some second }⟩]

/-- The indexes hold of two cards with two issues. -/
theorem indexed_twoProjects {first second : String} (h : first ≠ second) :
    Indexed (twoProjects first second) := by
  constructor
  · simp [Keyed, twoProjects]
  · simp [twoProjects]
  · simp [twoProjects, h, h.symm]

/-- Where the paths are unlike, the project's card is selected and no other. -/
theorem selection_exact_twoProjects :
    SelectsExactly true (twoProjects "acme/app#1" "acme/web#7") "default" "acme/app" ∧
      SparesOthers true (twoProjects "acme/app#1" "acme/web#7") "default" "acme/app" := by
  have hp : isProject "acme/app".toList = true := by decide +kernel
  apply (selection_exact_iff (indexed_twoProjects (by decide)) hp).mpr
  intro r hr _ ref href
  have hrefs : ref = "acme/app#1" ∨ ref = "acme/web#7" := by
    simp only [twoProjects, List.mem_cons, List.not_mem_nil, or_false] at hr
    rcases hr with rfl | rfl
    · exact .inl (Option.some.inj href).symm
    · exact .inr (Option.some.inj href).symm
  rcases hrefs with rfl | rfl
  · exact (selected_iff true hp _).mp (by decide +kernel)
  · exact (selected_iff true hp _).mp (by decide +kernel)

/-- An answer with a comment on issue 7. -/
def answeredSeven (_ : Group) : GroupAnswer :=
  { threads := some [(7, [{ id := "c1" }])], syncedAt := 10 }

/-- A project with an underscore selects the card of one with a hyphen in its place, and stores
the thread of its own issue against it. -/
theorem underscore_selects_twoProjects :
    ¬ SelectsExactly true (twoProjects "acme/my_app#1" "acme/my-app#7") "default" "acme/my_app" ∧
      ¬ SparesOthers true (twoProjects "acme/my_app#1" "acme/my-app#7") "default"
        "acme/my_app" := by
  constructor
  · intro h
    have hlength := congrArg List.length h
    revert hlength
    decide +kernel
  · intro h
    have hread : (cardsForProject true (twoProjects "acme/my_app#1" "acme/my-app#7")
        (some "default") "acme/my_app").mapM (fun c ↦ readIssueRef c.issueRef) =
          .ok [some ⟨"acme/my_app", 1⟩, some ⟨"acme/my-app", 7⟩] := by decide +kernel
    have hspared := h 100 answeredSeven [] _ _ (by rw [refreshThreads, hread]; rfl)
      ⟨2, { cardKey := "FCT-2", title := "Add a metric", issueRef := some "acme/my-app#7" }⟩
      (List.mem_cons_of_mem _ List.mem_cons_self) (by decide) (by decide +kernel)
    revert hspared
    decide +kernel

end CFactory.Import
