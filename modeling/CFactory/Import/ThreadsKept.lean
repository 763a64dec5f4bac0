import CFactory.Import.Threads

/-!
# The invariant behind a comment marker

`issue_import.py:310–435`, `cards.py:230–239,887–908`. Every comment posted since the last read
of a card began is younger than the window the next read will ask with, and every older one is
stored. Here it is kept by time, by comments on the host, by changes of the cards, and by a
request that goes out or is answered.
-/

namespace CFactory.Import

open CFactory.Base
open CFactory.Model
open CFactory.Cards

/-! ## Stored comments -/

theorem storedId_iff {rows : List CommentRow} {tenant key id : String} :
    storedId rows tenant key id = true ↔
      ∃ q ∈ rows, q.tenantId = tenant ∧ q.cardKey = key ∧ q.comment.id = id := by
  simp only [storedId, List.any_eq_true, Bool.and_eq_true, beq_iff_eq, and_assoc]

/-- A thread that was stored adds its comments to those of its card, and nothing else. -/
theorem storedId_storeThread {rows rows' : List CommentRow} {tenant key : String}
    {comments : List IssueComment} (h : storeThread rows tenant key comments = some rows')
    (other card id : String) :
    storedId rows' other card id = true ↔ storedId rows other card id = true ∨
      other = tenant ∧ card = key ∧ ∃ c ∈ comments, c.id = id := by
  rw [storeThread] at h
  have hrows : rows.map (refreshRow tenant key comments) ++
      (comments.filter fun c ↦ !storedId rows tenant key c.id).map (fun c ↦ ⟨tenant, key, c⟩) =
        rows' := by
    split at h
    · exact Option.some.inj h
    · cases h
  rw [← hrows, storedId_iff]
  constructor
  · rintro ⟨q, hq, htenant, hkey, hid⟩
    rcases List.mem_append.mp hq with hq | hq
    · obtain ⟨r, hr, rfl⟩ := List.mem_map.mp hq
      obtain ⟨ht, hk, hi⟩ := refreshRow_spec tenant key comments r
      exact .inl (storedId_iff.mpr ⟨r, hr, ht ▸ htenant, hk ▸ hkey, hi ▸ hid⟩)
    · obtain ⟨c, hc, rfl⟩ := List.mem_map.mp hq
      exact .inr ⟨htenant.symm, hkey.symm, c, (List.mem_filter.mp hc).1, hid⟩
  · intro hstored
    have hold : storedId rows other card id = true →
        ∃ q ∈ rows.map (refreshRow tenant key comments) ++
          (comments.filter fun c ↦ !storedId rows tenant key c.id).map (fun c ↦ ⟨tenant, key, c⟩),
          q.tenantId = other ∧ q.cardKey = card ∧ q.comment.id = id := by
      intro hin
      obtain ⟨r, hr, htenant, hkey, hid⟩ := storedId_iff.mp hin
      obtain ⟨ht, hk, hi⟩ := refreshRow_spec tenant key comments r
      exact ⟨_, List.mem_append_left _ (List.mem_map_of_mem hr), ht.trans htenant, hk.trans hkey,
        hi.trans hid⟩
    rcases hstored with hin | ⟨rfl, rfl, c, hc, rfl⟩
    · exact hold hin
    · by_cases hin : storedId rows other card c.id = true
      · exact hold hin
      · have hfresh : c ∈ comments.filter fun c ↦ !storedId rows other card c.id :=
          List.mem_filter.mpr ⟨hc, by simpa using hin⟩
        exact ⟨⟨other, card, c⟩, List.mem_append_right _ (List.mem_map_of_mem hfresh), rfl, rfl,
          rfl⟩

/-! ## The invariant -/

/-- A read began when so many comments were on the host; all others are younger. -/
structure Began (st : ThreadState) (seen : Nat) (began : Time) : Prop where
  seen_le : seen ≤ st.posted.length
  began_le : began ≤ st.clock
  younger : ∀ e ∈ st.posted.drop seen, began ≤ e.2.updatedAt

/-- The groups a refresh has not finished. -/
def Refresh.unfinished (q : Refresh) : List Group :=
  (match q.phase with
    | .idle => []
    | .fetching g _ _ => [g]
    | .storing g _ _ _ _ => [g]) ++ q.groups

/-- What holds of a refresh under way: the cards it has still to store are joined to the issues
it reads, and hold every comment too old for the window of their read. -/
structure RefreshKept (scope : Option String) (st : ThreadState) (q : Refresh) : Prop where
  targets : ∀ e ∈ q.targets.entries, e.1 ∈ q.ahead → ∃ r ∈ st.cards, inScope scope r = true ∧
    r.card.cardKey = e.2.cardKey ∧ issueOf r = some ⟨q.project, e.1⟩
  windows : ∀ g ∈ q.unfinished, ∀ w, g.window = some w → w ≤ st.clock ∧
    ∀ e ∈ q.targets.entries, e.1 ∈ g.numbers → e.1 ∈ q.ahead →
      ∀ r ∈ st.cards, inScope scope r = true → r.card.cardKey = e.2.cardKey →
        ∀ v ∈ st.posted, v.1 = ⟨q.project, e.1⟩ → v.2.updatedAt < w → Stores st r v.2.id
  fetching : ∀ g seen began, q.phase = .fetching g seen began → Began st seen began
  storing : ∀ g threads syncedAt seen began, q.phase = .storing g threads syncedAt seen began →
    Began st seen began ∧ syncedAt ≤ began + commentOverlap ∧
      ∀ thread ∈ threads, Answers st q.project g seen thread

/-- The invariant of a run: a card without a marker stores nothing; one with a marker stores
every comment of its issue that was there when its last read began, at most the overlap before
the marker, and no comment of another issue. -/
structure ThreadsKept (scope : Option String) (st : ThreadState) : Prop where
  indexed : Indexed st.cards
  oneTenant : OneTenant scope st.cards
  owned : ∀ tenant key id, storedId st.comments tenant key id = true →
    ∃ r ∈ st.cards, r.card.tenantId = tenant ∧ r.card.cardKey = key
  unread : ∀ r ∈ st.cards, inScope scope r = true → r.card.commentsSyncedAt = none →
    ∀ id, ¬Stores st r id
  read : ∀ r ∈ st.cards, inScope scope r = true → ∀ m, r.card.commentsSyncedAt = some m →
    ∃ n began, st.lastRead r.id = some n ∧ Began st n began ∧ m ≤ began + commentOverlap ∧
      ∀ e ∈ st.posted.take n, issueOf r = some e.1 → Stores st r e.2.id
  own : ∀ r ∈ st.cards, inScope scope r = true → ∀ id, Stores st r id →
    ∃ e ∈ st.posted, issueOf r = some e.1 ∧ e.2.id = id
  refreshes : ∀ p q, st.refreshes.get? p = some q → RefreshKept scope st q

/-- The invariant says that threads are whole. -/
theorem ThreadsKept.whole {scope : Option String} {st : ThreadState} (h : ThreadsKept scope st) :
    ThreadsWhole scope st := by
  intro r hr hscope hmarker
  obtain ⟨m, hm⟩ := Option.isSome_iff_exists.mp hmarker
  obtain ⟨n, -, hread, -, -, hstored⟩ := h.read r hr hscope m hm
  exact ⟨⟨n, hread, hstored⟩, h.own r hr hscope⟩

/-! ## Time passes, comments are posted -/

variable {scope : Option String} {st : ThreadState}

private theorem began_grow {seen : Nat} {began later : Time}
    {new : List (IssueRef × IssueComment)} (h : Began st seen began) (hlater : st.clock ≤ later)
    (hnew : ∀ e ∈ new, st.clock ≤ e.2.updatedAt) :
    Began { st with posted := st.posted ++ new, clock := later } seen began where
  seen_le := by
    rw [List.length_append]
    exact le_trans h.seen_le (Nat.le_add_right _ _)
  began_le := le_trans h.began_le hlater
  younger := by
    intro e he
    rw [List.drop_append_of_le_length h.seen_le] at he
    rcases List.mem_append.mp he with he | he
    · exact h.younger e he
    · exact le_trans h.began_le (hnew e he)

/-- Comments that are posted or edited, and time that passes. -/
theorem kept_grow {later : Time} {new : List (IssueRef × IssueComment)}
    (h : ThreadsKept scope st) (hlater : st.clock ≤ later)
    (hnew : ∀ e ∈ new, st.clock ≤ e.2.updatedAt) :
    ThreadsKept scope { st with posted := st.posted ++ new, clock := later } where
  indexed := h.indexed
  oneTenant := h.oneTenant
  owned := h.owned
  unread := h.unread
  read := by
    intro r hr hscope m hm
    obtain ⟨n, began, hread, hbegan, hmarker, hstored⟩ := h.read r hr hscope m hm
    refine ⟨n, began, hread, began_grow hbegan hlater hnew, hmarker, ?_⟩
    intro e he
    rw [List.take_append_of_le_length hbegan.seen_le] at he
    exact hstored e he
  own := by
    intro r hr hscope id hid
    obtain ⟨e, he, hissue⟩ := h.own r hr hscope id hid
    exact ⟨e, List.mem_append_left _ he, hissue⟩
  refreshes := by
    intro p q hq
    have hkept := h.refreshes p q hq
    refine ⟨hkept.targets, ?_, ?_, ?_⟩
    · intro g hg w hw
      obtain ⟨hle, hstored⟩ := hkept.windows g hg w hw
      refine ⟨le_trans hle hlater, ?_⟩
      intro e he hnumber hahead r hr hscope hkey v hv hissue hold
      rcases List.mem_append.mp hv with hv | hv
      · exact hstored e he hnumber hahead r hr hscope hkey v hv hissue hold
      · exact absurd hold (Int.not_lt.mpr (le_trans hle (hnew v hv)))
    · intro g seen began hphase
      exact began_grow (hkept.fetching g seen began hphase) hlater hnew
    · intro g threads syncedAt seen began hphase
      obtain ⟨hbegan, hsynced, hanswers⟩ := hkept.storing g threads syncedAt seen began hphase
      refine ⟨began_grow hbegan hlater hnew, hsynced, ?_⟩
      intro thread hthread
      obtain ⟨hnumber, hcomplete, hsound⟩ := hanswers thread hthread
      refine ⟨hnumber, ?_, ?_⟩
      · intro e he
        rw [List.take_append_of_le_length hbegan.seen_le] at he
        exact hcomplete e he
      · intro c hc
        obtain ⟨e, he, hissue⟩ := hsound c hc
        exact ⟨e, List.mem_append_left _ he, hissue⟩

/-! ## Cards change -/

/-- The row is the same but for columns that threads do not depend on, or the row's thread was
never read and is not about to be. -/
private def Follows (st : ThreadState) (r r' : CardRow) : Prop :=
  (r'.id = r.id ∧ r'.card.tenantId = r.card.tenantId ∧ r'.card.cardKey = r.card.cardKey ∧
    r'.card.commentsSyncedAt = r.card.commentsSyncedAt) ∧
      (issueOf r' = issueOf r ∨
        r.card.commentsSyncedAt = none ∧ ¬BeingRead st r.card.cardKey)

theorem inScope_congr {r r' : CardRow} (h : r'.card.tenantId = r.card.tenantId) :
    inScope scope r' = inScope scope r := by
  rw [inScope, inScope, h]

private theorem stores_congr {r r' : CardRow} (htenant : r'.card.tenantId = r.card.tenantId)
    (hkey : r'.card.cardKey = r.card.cardKey) (id : String) : Stores st r' id ↔ Stores st r id := by
  rw [Stores, Stores, htenant, hkey]

/-- Cards that change but for what their threads depend on, and cards that are added. -/
private theorem kept_cards {t : CardTable} (h : ThreadsKept scope st) (hindexed : Indexed t)
    (hone : OneTenant scope t)
    (hrows : ∀ r' ∈ t, (∃ r ∈ st.cards, Follows st r r') ∨
      r'.card.tenantId = tenantOf scope ∧ r'.card.commentsSyncedAt = none ∧
        ∀ q ∈ st.cards, inScope scope q = true → q.card.cardKey ≠ r'.card.cardKey)
    (hkept : ∀ r ∈ st.cards, ∃ r' ∈ t, Follows st r r') :
    ThreadsKept scope { st with cards := t } := by
  have hnew : ∀ r' : CardRow, r'.card.tenantId = tenantOf scope →
      (∀ q ∈ st.cards, inScope scope q = true → q.card.cardKey ≠ r'.card.cardKey) →
        ∀ id, ¬Stores st r' id := by
    intro r' htenant hfresh id hid
    obtain ⟨q, hq, hqt, hqk⟩ := h.owned _ _ _ hid
    exact hfresh q hq (inScope_of_tenantOf (hqt.trans htenant)) hqk
  refine ⟨hindexed, hone, ?_, ?_, ?_, ?_, ?_⟩
  · intro tenant key id hid
    obtain ⟨r, hr, htenant, hkey⟩ := h.owned tenant key id hid
    obtain ⟨r', hr', ⟨-, ht, hk, -⟩, -⟩ := hkept r hr
    exact ⟨r', hr', ht.trans htenant, hk.trans hkey⟩
  · intro r' hr' hscope hmarker id hid
    rcases hrows r' hr' with ⟨r, hr, ⟨-, ht, hk, hm⟩, -⟩ | ⟨htenant, -, hfresh⟩
    · rw [inScope_congr ht] at hscope
      exact h.unread r hr hscope (hm ▸ hmarker) id ((stores_congr ht hk id).mp hid)
    · exact hnew r' htenant hfresh id hid
  · intro r' hr' hscope m hmarker
    rcases hrows r' hr' with ⟨r, hr, ⟨hid, ht, hk, hm⟩, hissue⟩ | ⟨-, hnone, -⟩
    · rw [inScope_congr ht] at hscope
      obtain ⟨n, began, hread, hbegan, hle, hstored⟩ := h.read r hr hscope m (hm ▸ hmarker)
      have hsame : issueOf r' = issueOf r := by
        rcases hissue with hissue | ⟨hnone, -⟩
        · exact hissue
        · rw [hm, hnone] at hmarker
          cases hmarker
      refine ⟨n, began, ?_, ⟨hbegan.seen_le, hbegan.began_le, hbegan.younger⟩, hle, ?_⟩
      · rw [hid]
        exact hread
      · intro e he hjoined
        exact (stores_congr ht hk _).mpr (hstored e he (hsame ▸ hjoined))
    · rw [hnone] at hmarker
      cases hmarker
  · intro r' hr' hscope id hid
    rcases hrows r' hr' with ⟨r, hr, ⟨-, ht, hk, -⟩, hissue⟩ | ⟨htenant, -, hfresh⟩
    · rw [inScope_congr ht] at hscope
      have hold : Stores st r id := (stores_congr ht hk id).mp hid
      rcases hissue with hissue | ⟨hnone, -⟩
      · obtain ⟨e, he, hjoined, heid⟩ := h.own r hr hscope id hold
        exact ⟨e, he, hissue.trans hjoined, heid⟩
      · exact absurd hold (h.unread r hr hscope hnone id)
    · exact absurd hid (hnew r' htenant hfresh id)
  · intro p q hq
    have hrefresh := h.refreshes p q hq
    refine ⟨?_, ?_, ?_, ?_⟩
    · intro e he hahead
      obtain ⟨r, hr, hscope, hkey, hjoined⟩ := hrefresh.targets e he hahead
      obtain ⟨r', hr', ⟨-, ht, hk, -⟩, hissue⟩ := hkept r hr
      refine ⟨r', hr', ?_, hk.trans hkey, ?_⟩
      · rw [inScope_congr ht]
        exact hscope
      · rcases hissue with hissue | ⟨-, hnot⟩
        · exact hissue.trans hjoined
        · exact absurd ⟨q, Dict.mem_values hq, e, he, hahead, hkey.symm⟩ hnot
    · intro g hg w hw
      obtain ⟨hle, hstored⟩ := hrefresh.windows g hg w hw
      refine ⟨hle, ?_⟩
      intro e he hnumber hahead r' hr' hscope hkey v hv hissue hold
      rcases hrows r' hr' with ⟨r, hr, ⟨-, ht, hk, -⟩, -⟩ | ⟨htenant, -, hfresh⟩
      · rw [inScope_congr ht] at hscope
        exact (stores_congr ht hk _).mpr
          (hstored e he hnumber hahead r hr hscope (hk ▸ hkey) v hv hissue hold)
      · obtain ⟨r, hr, hrscope, hrkey, -⟩ := hrefresh.targets e he hahead
        exact absurd (hrkey.trans hkey.symm) (hfresh r hr hrscope)
    · intro g seen began hphase
      have hbegan := hrefresh.fetching g seen began hphase
      exact ⟨hbegan.seen_le, hbegan.began_le, hbegan.younger⟩
    · intro g threads syncedAt seen began hphase
      obtain ⟨hbegan, hrest⟩ := hrefresh.storing g threads syncedAt seen began hphase
      exact ⟨⟨hbegan.seen_le, hbegan.began_le, hbegan.younger⟩, hrest⟩

private theorem follows_of_sameCard {r r' : CardRow} (h : SameCard r r') : Follows st r r' := by
  obtain ⟨hid, htenant, hkey, hissue, hmarker⟩ := h
  refine ⟨⟨hid, htenant, hkey, hmarker⟩, .inl ?_⟩
  rw [issueOf, issueOf, hissue]

/-- The upserts of a pass. -/
theorem kept_importAll (project : String) (repositoryId : Option Nat) (now : Time)
    (returned : List Returned) (h : ThreadsKept scope st) :
    ThreadsKept scope
      { st with cards := importAll scope project repositoryId now st.cards returned } := by
  rw [importAll]
  induction issuesOnly returned generalizing st with
  | nil => exact h
  | cons r rest ih =>
    have hstep : ThreadsKept scope
        { st with cards := (upsert scope project repositoryId now st.cards r).2 } := by
      obtain ⟨hrows, hkept⟩ := rows_importOne st.cards scope repositoryId now
        (refOf project r.issue) r.issue r.fault
      apply kept_cards h (indexed_importOne h.indexed scope repositoryId now _ r.issue r.fault)
        (oneTenant_importOne h.oneTenant repositoryId now _ r.issue r.fault)
      · intro r' hr'
        exact (hrows r' hr').imp_left fun ⟨q, hq, hsame⟩ ↦ ⟨q, hq, follows_of_sameCard hsame⟩
      · intro q hq
        obtain ⟨r', hr', hsame⟩ := hkept q hq
        exact ⟨r', hr', follows_of_sameCard hsame⟩
    exact ih hstep

/-- An update of a card, where it leaves the issue alone or comes before every read. -/
theorem kept_update (nocase : Bool) (key : String) (changes : CardChanges)
    (h : ThreadsKept scope st) (hkeeps : KeepsThreads nocase scope st (.update key changes)) :
    ThreadsKept scope (threadStep nocase scope st (.update key changes)) := by
  rw [threadStep]
  rcases updateCard_cases st.cards scope key changes st.clock with
    ⟨-, hu⟩ | ⟨r, hr, hu | hu⟩
  · rw [hu]
    exact h
  · rw [hu]
    exact h
  · have hfree := updateCard_free hr hu
    rw [hu]
    have hrow : ∀ q ∈ st.cards, Follows st q
        (if q.id = r.id then { q with card := changes.apply st.clock q.card } else q) := by
      intro q hq
      by_cases hid : q.id = r.id
      · obtain ⟨hmem, -, hkey⟩ := getRow_spec hr
        have hqr : q = r := h.indexed.eq_of_id hq hmem hid
        rw [if_pos hid]
        refine ⟨⟨rfl, rfl, rfl, rfl⟩, ?_⟩
        rw [hqr, hkey]
        exact hkeeps r hr
      · rw [if_neg hid]
        exact ⟨⟨rfl, rfl, rfl, rfl⟩, .inl rfl⟩
    apply kept_cards h (indexed_updateCard h.indexed hr hfree)
    · intro q' hq' hscope
      obtain ⟨q, hq, rfl⟩ := mem_modifyRow.mp hq'
      obtain ⟨⟨-, htenant, -⟩, -⟩ := hrow q hq
      rw [inScope_congr htenant] at hscope
      rw [htenant]
      exact h.oneTenant q hq hscope
    · intro q' hq'
      obtain ⟨q, hq, rfl⟩ := mem_modifyRow.mp hq'
      exact .inl ⟨q, hq, hrow q hq⟩
    · intro q hq
      exact ⟨_, mem_modifyRow.mpr ⟨q, hq, rfl⟩, hrow q hq⟩

/-! ## A refresh goes on -/

/-- The refresh under a number is another one, of which the same is kept. -/
theorem kept_setRefresh (p : Nat) {q : Refresh} (h : ThreadsKept scope st)
    (hq : RefreshKept scope st q) : ThreadsKept scope (st.setRefresh p q) := by
  refine ⟨h.indexed, h.oneTenant, h.owned, h.unread, ?_, h.own, ?_⟩
  · intro r hr hscope m hm
    obtain ⟨n, began, hread, hbegan, hrest⟩ := h.read r hr hscope m hm
    exact ⟨n, began, hread, ⟨hbegan.seen_le, hbegan.began_le, hbegan.younger⟩, hrest⟩
  · have hall : ∀ q', RefreshKept scope st q' → RefreshKept scope (st.setRefresh p q) q' := by
      intro q' hq'
      refine ⟨hq'.targets, hq'.windows, ?_, ?_⟩
      · intro g seen began hphase
        have hbegan := hq'.fetching g seen began hphase
        exact ⟨hbegan.seen_le, hbegan.began_le, hbegan.younger⟩
      · intro g threads syncedAt seen began hphase
        obtain ⟨hbegan, hrest⟩ := hq'.storing g threads syncedAt seen began hphase
        exact ⟨⟨hbegan.seen_le, hbegan.began_le, hbegan.younger⟩, hrest⟩
    intro p' q' hq'
    by_cases hp : p' = p
    · subst hp
      have hsame : q = q' := by
        simpa [ThreadState.setRefresh, Dict.get?_set] using hq'
      exact hsame ▸ hall q hq
    · have hold : st.refreshes.get? p' = some q' := by
        simpa [ThreadState.setRefresh, Dict.get?_set, hp] using hq'
      exact hall q' (h.refreshes p' q' hold)

/-- A refresh of which less is ahead. -/
theorem kept_less {project : String} {targets : Dict Int Card} {groups groups' : List Group}
    {phase phase' : ReadPhase} (h : RefreshKept scope st ⟨project, targets, groups, phase⟩)
    (hahead : ∀ n ∈ Refresh.ahead ⟨project, targets, groups', phase'⟩,
      n ∈ Refresh.ahead ⟨project, targets, groups, phase⟩)
    (hunfinished : ∀ g ∈ Refresh.unfinished ⟨project, targets, groups', phase'⟩,
      g ∈ Refresh.unfinished ⟨project, targets, groups, phase⟩)
    (hfetching : ∀ g seen began, phase' = .fetching g seen began → Began st seen began)
    (hstoring : ∀ g threads syncedAt seen began, phase' = .storing g threads syncedAt seen began →
      Began st seen began ∧ syncedAt ≤ began + commentOverlap ∧
        ∀ thread ∈ threads, Answers st project g seen thread) :
    RefreshKept scope st ⟨project, targets, groups', phase'⟩ where
  targets := fun e he hin ↦ h.targets e he (hahead _ hin)
  windows := by
    intro g hg w hw
    obtain ⟨hle, hstored⟩ := h.windows g (hunfinished g hg) w hw
    exact ⟨hle, fun e he hnumber hin ↦ hstored e he hnumber (hahead _ hin)⟩
  fetching := hfetching
  storing := hstoring

theorem kept_fetch (nocase : Bool) (p : Nat) (h : ThreadsKept scope st) :
    ThreadsKept scope (threadStep nocase scope st (.fetch p)) := by
  rw [threadStep]
  split
  · next project targets g groups hq =>
    apply kept_setRefresh p h
    have hkept := h.refreshes p _ hq
    apply kept_less hkept
    · intro n hn
      simpa [Refresh.ahead] using hn
    · intro g' hg'
      simpa [Refresh.unfinished] using hg'
    · intro g' seen began hphase
      cases hphase
      exact ⟨le_refl _, le_refl _, by simp⟩
    · intro g' threads syncedAt seen began hphase
      cases hphase
  · exact h

theorem kept_answer (nocase : Bool) (p : Nat) (threads : Option (List Thread))
    (h : ThreadsKept scope st) (hprovides : Provides st (.answer p threads))
    (hkeeps : KeepsThreads nocase scope st (.answer p threads)) :
    ThreadsKept scope (threadStep nocase scope st (.answer p threads)) := by
  rw [threadStep]
  split
  · next project targets groups g seen began hq =>
    have hkept := h.refreshes p _ hq
    cases threads with
    | none =>
      apply kept_setRefresh p h
      apply kept_less hkept
      · intro n hn
        simp only [Refresh.ahead, List.nil_append] at hn
        simp [Refresh.ahead, hn]
      · intro g' hg'
        simp only [Refresh.unfinished, List.nil_append] at hg'
        simp [Refresh.unfinished, hg']
      · intro g' seen' began' hphase
        cases hphase
      · intro g' threads' syncedAt' seen' began' hphase
        cases hphase
    | some threads =>
      have hanswers : ∀ thread ∈ threads, Answers st project g seen thread := by
        simp only [Provides, hq] at hprovides
        exact hprovides
      have hsoon : st.clock ≤ began + commentOverlap := by
        simp only [KeepsThreads, InTime, hq] at hkeeps
        exact hkeeps
      apply kept_setRefresh p h
      apply kept_less hkept
      · intro n hn
        rcases List.mem_append.mp hn with hn | hn
        · obtain ⟨thread, hthread, rfl⟩ := List.mem_map.mp hn
          exact List.mem_append_left _ (hanswers thread hthread).1
        · exact List.mem_append_right _ hn
      · exact fun g' hg' ↦ hg'
      · intro g' seen' began' hphase
        cases hphase
      · intro g' threads' syncedAt' seen' began' hphase
        cases hphase
        exact ⟨hkept.fetching g seen began rfl, hsoon, hanswers⟩
  · exact h

end CFactory.Import
