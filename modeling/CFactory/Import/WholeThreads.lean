import CFactory.Base.Extremes
import CFactory.Import.ThreadsKept

/-!
# Whole threads over runs of refreshes

`issue_import.py:310–435`, `cards.py:230–239,970–1029`. A refresh that begins and one that stores
a thread keep the invariant behind the markers, so every run of steps that keep threads whole
does. They are lost where a card is re-pointed under its marker, where a refresh reads a card
of another project, and where a read outlasts the overlap.
-/

namespace CFactory.Import

open CFactory.Base
open CFactory.Model
open CFactory.Cards

variable {scope : Option String} {st : ThreadState}

/-! ## A refresh begins -/

/-- The window reaches back the overlap before every marker of the group, and there is one. -/
private theorem windowOf_spec {d : Dict Int Card} {w : Time} (h : windowOf d = some w) :
    (∃ e ∈ d.entries, e.2.commentsSyncedAt.isSome = true) ∧
      ∀ e ∈ d.entries, ∀ m, e.2.commentsSyncedAt = some m → w + commentOverlap ≤ m := by
  have hvalue : ∀ m, m ∈ d.values.filterMap Card.commentsSyncedAt ↔
      ∃ e ∈ d.entries, e.2.commentsSyncedAt = some m := by
    intro m
    rw [List.mem_filterMap, Dict.values]
    simp only [List.mem_map, exists_exists_and_eq_and]
  rw [windowOf] at h
  cases hmarkers : d.values.filterMap Card.commentsSyncedAt with
  | nil =>
    rw [hmarkers] at h
    cases h
  | cons marker rest =>
    rw [hmarkers] at h hvalue
    have hw : rest.foldl min marker - commentOverlap = w := Option.some.inj h
    constructor
    · obtain ⟨e, he, hm⟩ := (hvalue marker).mp List.mem_cons_self
      exact ⟨e, he, by rw [hm]; rfl⟩
    · intro e he m hm
      have hle : rest.foldl min marker ≤ m := by
        rw [foldl_min_le]
        rcases List.mem_cons.mp ((hvalue m).mpr ⟨e, he, hm⟩) with rfl | hin
        · exact .inl (le_refl m)
        · exact .inr ⟨m, hin, le_refl m⟩
      rw [← hw, Int.sub_add_cancel]
      exact hle

/-- The group with a window is that of the cards that were read before. -/
private theorem warm_of_window {d : Dict Int Card} {backfillMax : Int} {g : Group} {w : Time}
    (hg : g ∈ groupsOf d backfillMax) (hw : g.window = some w) :
    windowOf d = some w ∧ ∀ n ∈ g.numbers, n ∈ warm d := by
  have hmem := (List.mem_filter.mp hg).1
  simp only [List.mem_cons, List.not_mem_nil, or_false] at hmem
  rcases hmem with rfl | rfl
  · exact ⟨hw, fun n hn ↦ (List.mem_insertionSort _).mp hn⟩
  · cases hw

private theorem marker_of_warm {d : Dict Int Card} {e : Int × Card} (he : e ∈ d.entries)
    (hwarm : e.1 ∈ warm d) : e.2.commentsSyncedAt.isSome = true := by
  obtain ⟨e', he', hnumber⟩ := List.mem_map.mp hwarm
  obtain ⟨hmem, hmarker⟩ := List.mem_filter.mp he'
  have hsame : e'.2 = e.2 := by
    have h1 := (Dict.get?_eq_some_iff d e'.1 e'.2).mpr hmem
    have h2 := (Dict.get?_eq_some_iff d e.1 e.2).mpr he
    rw [hnumber, h2] at h1
    exact (Option.some.inj h1).symm
  rw [← hsame]
  exact hmarker

/-- When a refresh reads a card with a marker, every comment of its issue older than the window
is stored. -/
private theorem stored_before_window {cards : List Card} {e : Int × Card} {r : CardRow} {w : Time}
    (h : ThreadsKept scope st) (he : e ∈ (byNumber cards).entries)
    (hmarker : e.2.commentsSyncedAt.isSome = true) (hw : windowOf (byNumber cards) = some w)
    (hr : r ∈ st.cards) (hscope : inScope scope r = true) (hcard : r.card = e.2) :
    w ≤ st.clock ∧
      ∀ v ∈ st.posted, issueOf r = some v.1 → v.2.updatedAt < w → Stores st r v.2.id := by
  obtain ⟨m, hm⟩ := Option.isSome_iff_exists.mp hmarker
  have hwm : w + commentOverlap ≤ m := (windowOf_spec hw).2 e he m hm
  obtain ⟨n, began, -, hbegan, hle, hstored⟩ := h.read r hr hscope m (by rw [hcard]; exact hm)
  have hwb : w ≤ began := Int.le_of_add_le_add_right (le_trans hwm hle)
  refine ⟨le_trans hwb hbegan.began_le, ?_⟩
  intro v hv hjoined hold
  apply hstored v _ hjoined
  rw [← List.take_append_drop n st.posted] at hv
  rcases List.mem_append.mp hv with hv | hv
  · exact hv
  · exact absurd (lt_of_lt_of_le hold hwb) (Int.not_lt.mpr (hbegan.younger v hv))

private theorem kept_list (nocase : Bool) (p : Nat) (project : String) (backfillMax : Int)
    (h : ThreadsKept scope st)
    (hkeeps : KeepsThreads nocase scope st (.list p project backfillMax)) :
    ThreadsKept scope (threadStep nocase scope st (.list p project backfillMax)) := by
  have hrow : ∀ e ∈ (byNumber (cardsForProject nocase st.cards scope project)).entries,
      ∃ r ∈ st.cards, inScope scope r = true ∧ r.card = e.2 :=
    by
    intro e he
    obtain ⟨r, hr, hvisible, hcard⟩ := mem_cardsForProject (mem_byNumber he)
    exact ⟨r, hr, (visible_iff.mp hvisible).1, hcard⟩
  rw [threadStep]
  apply kept_setRefresh p h
  refine ⟨?_, ?_, ?_, ?_⟩
  · intro e he hahead
    obtain ⟨r, hr, hscope, hcard⟩ := hrow e he
    refine ⟨r, hr, hscope, by rw [hcard], ?_⟩
    rw [issueOf, hcard]
    exact hkeeps e he (by simpa [Refresh.ahead] using hahead)
  · intro g hg w hw
    have hgroup : g ∈ groupsOf (byNumber (cardsForProject nocase st.cards scope project))
        backfillMax := by
      simpa [Refresh.unfinished] using hg
    obtain ⟨hwindow, hwarm⟩ := warm_of_window hgroup hw
    constructor
    · obtain ⟨e, he, hmarker⟩ := (windowOf_spec hwindow).1
      obtain ⟨r, hr, hscope, hcard⟩ := hrow e he
      exact (stored_before_window h he hmarker hwindow hr hscope hcard).1
    · intro e he hnumber hahead r hr hscope hkey v hv hissue hold
      obtain ⟨r0, hr0, hscope0, hcard⟩ := hrow e he
      have hsame : r = r0 :=
        h.indexed.eq_of_key h.oneTenant hr hr0 hscope hscope0 (by rw [hkey, hcard])
      subst hsame
      have hmarker := marker_of_warm he (hwarm _ hnumber)
      apply (stored_before_window h he hmarker hwindow hr hscope hcard).2 v hv _ hold
      rw [issueOf, hcard, hissue]
      exact hkeeps e he (by simpa [Refresh.ahead] using hahead)
  · intro g seen began hphase
    cases hphase
  · intro g threads syncedAt seen began hphase
    cases hphase

/-! ## A thread is stored -/

private theorem keepsKeys_marked (syncedAt : Time) : KeepsKeys (marked syncedAt) :=
  fun _ ↦ ⟨rfl, rfl, rfl⟩

private theorem markSynced_eq {t : CardTable} {r : CardRow} (h : Indexed t)
    (hone : OneTenant scope t) (hr : r ∈ t) (hscope : inScope scope r = true) (syncedAt : Time) :
    markSynced t scope r.card.cardKey syncedAt =
      modifyRow t r.id (marked syncedAt) := by
  apply List.map_congr_left
  intro q hq
  by_cases hid : q.id = r.id
  · have hqr : q = r := h.eq_of_id hq hr hid
    subst hqr
    rw [if_pos rfl, hscope, beq_self_eq_true, Bool.and_self, if_pos rfl]
  · rw [if_neg hid, if_neg]
    intro hboth
    rw [Bool.and_eq_true, beq_iff_eq] at hboth
    exact hid (congrArg CardRow.id (h.eq_of_key hone hq hr hboth.1 hscope hboth.2))

private theorem recordRead_eq {t : CardTable} {r q : CardRow} (h : Indexed t)
    (hone : OneTenant scope t) (hr : r ∈ t) (hscope : inScope scope r = true)
    (seen : Nat) (lastRead : Nat → Option Nat) :
    recordRead t scope r.card.cardKey seen lastRead q.id =
      if q.id = r.id then some seen else lastRead q.id := by
  have hany : (t.any fun x ↦ x.id == q.id && inScope scope x && x.card.cardKey == r.card.cardKey) =
      true ↔ q.id = r.id := by
    simp only [List.any_eq_true, Bool.and_eq_true, beq_iff_eq]
    constructor
    · rintro ⟨x, hx, ⟨hid, hsx⟩, hkey⟩
      rw [← hid]
      exact congrArg CardRow.id (h.eq_of_key hone hx hr hsx hscope hkey)
    · intro hid
      exact ⟨r, hr, ⟨hid.symm, hscope⟩, rfl⟩
  rw [recordRead]
  by_cases hid : q.id = r.id
  · rw [if_pos hid, if_pos (hany.mpr hid)]
  · rw [if_neg hid, if_neg (fun hin ↦ hid (hany.mp hin))]

/-- The row is the same but for its marker. -/
private structure SameButMarker (q q' : CardRow) : Prop where
  id : q'.id = q.id
  tenant : q'.card.tenantId = q.card.tenantId
  key : q'.card.cardKey = q.card.cardKey
  issue : issueOf q' = issueOf q

/-- A row of the marked table is an old one, with its marker set where it is the card's. -/
private theorem row_of_marked {t : CardTable} {r q' : CardRow} {syncedAt : Time} (h : Indexed t)
    (hr : r ∈ t) (hq' : q' ∈ modifyRow t r.id (marked syncedAt)) :
    ∃ q ∈ t, SameButMarker q q' ∧ (q = r ∧ q'.card.commentsSyncedAt = some syncedAt ∨
      q.id ≠ r.id ∧ q'.card.commentsSyncedAt = q.card.commentsSyncedAt) := by
  obtain ⟨q, hq, rfl⟩ := mem_modifyRow.mp hq'
  refine ⟨q, hq, ?_⟩
  by_cases hid : q.id = r.id
  · rw [if_pos hid]
    exact ⟨⟨rfl, rfl, rfl, rfl⟩, .inl ⟨h.eq_of_id hq hr hid, rfl⟩⟩
  · rw [if_neg hid]
    exact ⟨⟨rfl, rfl, rfl, rfl⟩, .inr ⟨hid, rfl⟩⟩

/-- Every old row is still there. -/
private theorem marked_of_row {t : CardTable} {q : CardRow} (id : Nat) (syncedAt : Time)
    (hq : q ∈ t) : ∃ q' ∈ modifyRow t id (marked syncedAt), SameButMarker q q' := by
  refine ⟨_, mem_modifyRow.mpr ⟨q, hq, rfl⟩, ?_⟩
  by_cases hid : q.id = id
  · rw [if_pos hid]
    exact ⟨rfl, rfl, rfl, rfl⟩
  · rw [if_neg hid]
    exact ⟨rfl, rfl, rfl, rfl⟩

/-- A refresh goes on as it did where the rows differ in their markers alone and no comment is
lost. -/
private theorem RefreshKept.stored {st' : ThreadState} {q : Refresh} (h : RefreshKept scope st q)
    (hback : ∀ x' ∈ st'.cards, ∃ x ∈ st.cards, SameButMarker x x')
    (hforth : ∀ x ∈ st.cards, ∃ x' ∈ st'.cards, SameButMarker x x')
    (hcomments : ∀ tenant key id, storedId st.comments tenant key id = true →
      storedId st'.comments tenant key id = true)
    (hposted : st'.posted = st.posted) (hclock : st'.clock = st.clock) :
    RefreshKept scope st' q := by
  have hbegan : ∀ {seen began}, Began st seen began → Began st' seen began := by
    intro seen began hb
    constructor
    · rw [hposted]
      exact hb.seen_le
    · rw [hclock]
      exact hb.began_le
    · rw [hposted]
      exact hb.younger
  refine ⟨?_, ?_, ?_, ?_⟩
  · intro e he hahead
    obtain ⟨x, hx, hxs, hxk, hjoined⟩ := h.targets e he hahead
    obtain ⟨x', hx', hsame⟩ := hforth x hx
    refine ⟨x', hx', ?_, hsame.key.trans hxk, hsame.issue.trans hjoined⟩
    rw [inScope_congr hsame.tenant]
    exact hxs
  · intro g hg w hw
    obtain ⟨hle, hstored⟩ := h.windows g hg w hw
    refine ⟨hclock ▸ hle, ?_⟩
    intro e he hnumber hahead x' hx' hxs hkey v hv hissue hyoung
    obtain ⟨x, hx, hsame⟩ := hback x' hx'
    rw [inScope_congr hsame.tenant] at hxs
    rw [Stores, hsame.tenant, hsame.key]
    exact hcomments _ _ _
      (hstored e he hnumber hahead x hx hxs (hsame.key ▸ hkey) v (hposted ▸ hv) hissue hyoung)
  · intro g seen began hphase
    exact hbegan (h.fetching g seen began hphase)
  · intro g threads syncedAt seen began hphase
    obtain ⟨hb, hsynced, hanswers⟩ := h.storing g threads syncedAt seen began hphase
    refine ⟨hbegan hb, hsynced, fun thread hthread ↦ ?_⟩
    obtain ⟨hnumber, hcomplete, hsound⟩ := hanswers thread hthread
    exact ⟨hnumber, hposted ▸ hcomplete, hposted ▸ hsound⟩

section

variable {r : CardRow} {rows : List CommentRow} {comments : List IssueComment}
  {syncedAt began : Time} {seen : Nat}

/-- A thread that is stored adds to another row nothing. -/
private theorem stores_of_other {q : CardRow} (h : ThreadsKept scope st) (hr : r ∈ st.cards)
    (hscope : inScope scope r = true)
    (hrows : storeThread st.comments (tenantOf scope) r.card.cardKey comments = some rows)
    (hq : q ∈ st.cards) (hqs : inScope scope q = true) (hid : q.id ≠ r.id) {id : String}
    (hin : storedId rows q.card.tenantId q.card.cardKey id = true) : Stores st q id := by
  rcases (storedId_storeThread hrows _ _ _).mp hin with hin | ⟨-, hkey, -⟩
  · exact hin
  · exact absurd (congrArg CardRow.id (h.indexed.eq_of_key h.oneTenant hq hr hqs hscope hkey)) hid

/-- The marker of every row stands for a read after the thread is stored. -/
private theorem read_stored {q' : CardRow} {m : Time} (h : ThreadsKept scope st)
    (hr : r ∈ st.cards) (hscope : inScope scope r = true)
    (hrows : storeThread st.comments (tenantOf scope) r.card.cardKey comments = some rows)
    (hbegan : Began st seen began) (hsynced : syncedAt ≤ began + commentOverlap)
    (hcomplete : ∀ e ∈ st.posted.take seen, issueOf r = some e.1 →
      Stores st r e.2.id ∨ ∃ c ∈ comments, c.id = e.2.id)
    (hq' : q' ∈ modifyRow st.cards r.id (marked syncedAt)) (hqs' : inScope scope q' = true)
    (hmarker : q'.card.commentsSyncedAt = some m) :
    ∃ n b, recordRead st.cards scope r.card.cardKey seen st.lastRead q'.id = some n ∧
      Began st n b ∧ m ≤ b + commentOverlap ∧ ∀ e ∈ st.posted.take n, issueOf q' = some e.1 →
        storedId rows q'.card.tenantId q'.card.cardKey e.2.id = true := by
  obtain ⟨q, hq, hsame, hcase⟩ := row_of_marked h.indexed hr hq'
  rw [inScope_congr hsame.tenant] at hqs'
  rw [hsame.id, hsame.issue, hsame.tenant, hsame.key,
    recordRead_eq h.indexed h.oneTenant hr hscope seen st.lastRead]
  rcases hcase with ⟨rfl, hset⟩ | ⟨hid, hkept⟩
  · rw [hset] at hmarker
    cases hmarker
    refine ⟨seen, began, if_pos rfl, hbegan, hsynced, fun e he hjoined ↦ ?_⟩
    exact (storedId_storeThread hrows _ _ _).mpr
      ((hcomplete e he hjoined).imp_right fun hc ↦ ⟨h.oneTenant q hr hscope, rfl, hc⟩)
  · obtain ⟨n, b, hread, hb, hle, hstored⟩ := h.read q hq hqs' m (hkept ▸ hmarker)
    refine ⟨n, b, (if_neg hid).trans hread, hb, hle, fun e he hjoined ↦ ?_⟩
    exact (storedId_storeThread hrows _ _ _).mpr (.inl (hstored e he hjoined))

/-- The thread of a card is stored and its marker set. -/
private theorem kept_stored (h : ThreadsKept scope st) (hr : r ∈ st.cards)
    (hscope : inScope scope r = true)
    (hrows : storeThread st.comments (tenantOf scope) r.card.cardKey comments = some rows)
    (hbegan : Began st seen began) (hsynced : syncedAt ≤ began + commentOverlap)
    (hcomplete : ∀ e ∈ st.posted.take seen, issueOf r = some e.1 →
      Stores st r e.2.id ∨ ∃ c ∈ comments, c.id = e.2.id)
    (hsound : ∀ c ∈ comments, ∃ e ∈ st.posted, issueOf r = some e.1 ∧ e.2.id = c.id) :
    ThreadsKept scope
      { st with
        cards := markSynced st.cards scope r.card.cardKey syncedAt
        comments := rows
        lastRead := recordRead st.cards scope r.card.cardKey seen st.lastRead } := by
  rw [markSynced_eq h.indexed h.oneTenant hr hscope]
  refine ⟨h.indexed.modifyRow r.id (keepsKeys_marked syncedAt), ?_, ?_, ?_, ?_, ?_, ?_⟩
  · intro q' hq' hqs
    obtain ⟨q, hq, hsame, -⟩ := row_of_marked h.indexed hr hq'
    rw [inScope_congr hsame.tenant] at hqs
    rw [hsame.tenant]
    exact h.oneTenant q hq hqs
  · intro tenant key id hin
    rcases (storedId_storeThread hrows tenant key id).mp hin with hin | ⟨rfl, rfl, -⟩
    · obtain ⟨q, hq, hqt, hqk⟩ := h.owned tenant key id hin
      obtain ⟨q', hq', hsame⟩ := marked_of_row r.id syncedAt hq
      exact ⟨q', hq', hsame.tenant.trans hqt, hsame.key.trans hqk⟩
    · obtain ⟨q', hq', hsame⟩ := marked_of_row r.id syncedAt hr
      exact ⟨q', hq', hsame.tenant.trans (h.oneTenant r hr hscope), hsame.key⟩
  · intro q' hq' hqs hmarker id hin
    obtain ⟨q, hq, hsame, hcase⟩ := row_of_marked h.indexed hr hq'
    rw [inScope_congr hsame.tenant] at hqs
    rcases hcase with ⟨-, hset⟩ | ⟨hid, hkept⟩
    · rw [hset] at hmarker
      cases hmarker
    · rw [Stores, hsame.tenant, hsame.key] at hin
      exact h.unread q hq hqs (hkept ▸ hmarker) id
        (stores_of_other h hr hscope hrows hq hqs hid hin)
  · intro q' hq' hqs m hmarker
    obtain ⟨n, b, hread, hb, hle, hstored⟩ :=
      read_stored h hr hscope hrows hbegan hsynced hcomplete hq' hqs hmarker
    exact ⟨n, b, hread, ⟨hb.seen_le, hb.began_le, hb.younger⟩, hle, hstored⟩
  · intro q' hq' hqs id hin
    obtain ⟨q, hq, hsame, hcase⟩ := row_of_marked h.indexed hr hq'
    rw [inScope_congr hsame.tenant] at hqs
    rw [Stores, hsame.tenant, hsame.key] at hin
    rw [hsame.issue]
    rcases hcase with ⟨rfl, -⟩ | ⟨hid, -⟩
    · rcases (storedId_storeThread hrows _ _ _).mp hin with hin | ⟨-, -, c, hc, rfl⟩
      · exact h.own q hq hqs id hin
      · exact hsound c hc
    · exact h.own q hq hqs id (stores_of_other h hr hscope hrows hq hqs hid hin)
  · intro p q hq
    apply (h.refreshes p q hq).stored
    · intro x' hx'
      obtain ⟨x, hx, hsame, -⟩ := row_of_marked h.indexed hr hx'
      exact ⟨x, hx, hsame⟩
    · exact fun x hx ↦ marked_of_row r.id syncedAt hx
    · exact fun tenant key id hin ↦ (storedId_storeThread hrows tenant key id).mpr (.inl hin)
    · rfl
    · rfl

end

/-- The next thread of an answer is stored. -/
private theorem kept_storeNext {p : Nat} {project : String} {targets : Dict Int Card}
    {groups : List Group} {g : Group} {thread : Thread} {rest : List Thread} {syncedAt began : Time}
    {seen : Nat} (fault : Bool) (h : ThreadsKept scope st)
    (hq : st.refreshes.get? p =
      some ⟨project, targets, groups, .storing g (thread :: rest) syncedAt seen began⟩) :
    ThreadsKept scope (storeNext scope targets thread syncedAt seen fault st) := by
  rw [storeNext]
  cases htarget : targets.get? thread.1 with
  | none => exact h
  | some target =>
    have hkept := h.refreshes p _ hq
    obtain ⟨hbegan, hsynced, hanswers⟩ := hkept.storing g _ syncedAt seen began rfl
    obtain ⟨hnumber, hcomplete, hsound⟩ := hanswers thread List.mem_cons_self
    have hentry : (thread.1, target) ∈ targets.entries :=
      (Dict.get?_eq_some_iff targets thread.1 target).mp htarget
    have hahead : thread.1 ∈ Refresh.ahead
        ⟨project, targets, groups, .storing g (thread :: rest) syncedAt seen began⟩ := by
      simp [Refresh.ahead]
    obtain ⟨r, hr, hscope, hkey, hjoined⟩ := hkept.targets _ hentry hahead
    show ThreadsKept scope (if fault = true then st else _)
    cases fault with
    | true => exact h
    | false =>
      rw [if_neg Bool.false_ne_true, storeComments]
      cases hrows : storeThread st.comments (tenantOf scope) target.cardKey thread.2 with
      | none => exact h
      | some rows =>
        have hcardKey : r.card.cardKey = target.cardKey := hkey
        rw [← hcardKey] at hrows ⊢
        apply kept_stored h hr hscope hrows hbegan hsynced
        · intro e he hissue
          have hsame : e.1 = ⟨project, thread.1⟩ := Option.some.inj (hissue.symm.trans hjoined)
          by_cases hin : ∀ w, g.window = some w → w ≤ e.2.updatedAt
          · exact .inr (hcomplete e he hsame hin)
          · push Not at hin
            obtain ⟨w, hw, hyoung⟩ := hin
            have hunfinished : g ∈ Refresh.unfinished
                ⟨project, targets, groups, .storing g (thread :: rest) syncedAt seen began⟩ := by
              simp [Refresh.unfinished]
            exact .inl ((hkept.windows g hunfinished w hw).2 _ hentry hnumber hahead r hr hscope
              hkey e (List.mem_of_mem_take he) hsame hyoung)
        · intro c hc
          obtain ⟨e, he, hissue, hid⟩ := hsound c hc
          exact ⟨e, he, by rw [hjoined, hissue], hid⟩

private theorem refreshes_storeNext (scope : Option String) (targets : Dict Int Card)
    (thread : Thread) (syncedAt : Time) (seen : Nat) (fault : Bool) (st : ThreadState) :
    (storeNext scope targets thread syncedAt seen fault st).refreshes = st.refreshes := by
  rw [storeNext]
  split
  · rfl
  · split
    · rfl
    · split <;> rfl

private theorem kept_store (nocase : Bool) (p : Nat) (fault : Bool) (h : ThreadsKept scope st) :
    ThreadsKept scope (threadStep nocase scope st (.store p fault)) := by
  rw [threadStep]
  split
  · next project targets groups g threads syncedAt seen began hq =>
    cases threads with
    | nil =>
      apply kept_setRefresh p h
      apply kept_less (h.refreshes p _ hq)
      · intro n hn
        simpa [Refresh.ahead] using hn
      · intro g' hg'
        simp only [Refresh.unfinished, List.nil_append] at hg'
        simp [Refresh.unfinished, hg']
      · intro g' seen' began' hphase
        cases hphase
      · intro g' threads' syncedAt' seen' began' hphase
        cases hphase
    | cons thread rest =>
      have hnext := kept_storeNext fault h hq
      apply kept_setRefresh p hnext
      have hkept := hnext.refreshes p _
        ((congrArg (Dict.get? · p) (refreshes_storeNext ..)).trans hq)
      obtain ⟨hbegan, hsynced, hanswers⟩ := hkept.storing g _ syncedAt seen began rfl
      apply kept_less hkept
      · intro n hn
        rcases List.mem_append.mp hn with hn | hn
        · exact List.mem_append_left _ (List.mem_cons_of_mem _ hn)
        · exact List.mem_append_right _ hn
      · exact fun g' hg' ↦ hg'
      · intro g' seen' began' hphase
        cases hphase
      · intro g' threads' syncedAt' seen' began' hphase
        cases hphase
        exact ⟨hbegan, hsynced, fun t ht ↦ hanswers t (List.mem_cons_of_mem _ ht)⟩
  · exact h

/-! ## Runs -/

/-- Every step keeps the invariant, where the provider keeps its promise and the step is one
that keeps threads whole. -/
theorem kept_threadStep (nocase : Bool) (x : ThreadStep) (h : ThreadsKept scope st)
    (hprovides : Provides st x) (hkeeps : KeepsThreads nocase scope st x) :
    ThreadsKept scope (threadStep nocase scope st x) := by
  cases x with
  | tick elapsed =>
    have hlater : st.clock ≤ st.clock + elapsed :=
      Int.le_add_of_nonneg_right (Int.natCast_nonneg elapsed)
    have hgrow : ThreadsKept scope
        { st with posted := st.posted ++ [], clock := st.clock + elapsed } :=
      kept_grow h hlater (by simp)
    rw [List.append_nil] at hgrow
    exact hgrow
  | post issue comment =>
    apply kept_grow h (le_refl st.clock)
    intro e he
    cases List.mem_singleton.mp he
    exact le_refl st.clock
  | update key changes => exact kept_update nocase key changes h hkeeps
  | upserts project repositoryId returned =>
    exact kept_importAll project repositoryId st.clock returned h
  | list p project backfillMax => exact kept_list nocase p project backfillMax h hkeeps
  | fetch p => exact kept_fetch nocase p h
  | answer p threads => exact kept_answer nocase p threads h hprovides hkeeps
  | store p fault => exact kept_store nocase p fault h

theorem threadsKept_start {t : CardTable} (posted : List (IssueRef × IssueComment)) (clock : Time)
    (hindexed : Indexed t) (hone : OneTenant scope t)
    (hunread : ∀ r ∈ t, r.card.commentsSyncedAt = none) :
    ThreadsKept scope (.start t posted clock) where
  indexed := hindexed
  oneTenant := hone
  owned := by
    intro tenant key id hin
    cases hin
  unread := by
    intro r _ _ _ id hin
    cases hin
  read := by
    intro r hr _ m hm
    have hnone := hunread r hr
    rw [hm] at hnone
    cases hnone
  own := by
    intro r _ _ id hin
    cases hin
  refreshes := by
    intro p q hq
    cases hq

/-- Over every run of refreshes, import passes and updates, in any interleaving and with any
failures, threads are whole where every step is one that keeps them so. -/
theorem threads_whole (nocase : Bool) (scope : Option String) (t : CardTable)
    (posted : List (IssueRef × IssueComment)) (clock : Time) (steps : List ThreadStep)
    (hindexed : Indexed t) (hone : OneTenant scope t)
    (hunread : ∀ r ∈ t, r.card.commentsSyncedAt = none)
    (hrun : EachStep (threadStep nocase scope)
      (fun st x ↦ Provides st x ∧ KeepsThreads nocase scope st x) (.start t posted clock) steps) :
    Throughout (threadStep nocase scope) (ThreadsWhole scope) (.start t posted clock) steps := by
  have hkept : Throughout (threadStep nocase scope) (ThreadsKept scope) (.start t posted clock)
      steps :=
    throughout_of_step (fun st x h hx ↦ kept_threadStep nocase x h hx.1 hx.2)
      (threadsKept_start posted clock hindexed hone hunread) hrun
  exact hkept.imp fun st h ↦ h.whole

/-! ## A run, and three that go wrong -/

/-- A card of the tenant joined to an issue. -/
def joinedCard (ref : String) : CardRow :=
  ⟨1, { cardKey := "FCT-1", tenantId := "acme", title := "Login", issueRef := some ref }⟩

/-- A comment on an issue. -/
def reply : IssueComment := { id := "c1" }

/-- One refresh of a project, with a second between request and answer. -/
def refreshOnce (project : String) (threads : List Thread) : List ThreadStep :=
  [.list 0 project 25, .fetch 0, .tick 1000000, .answer 0 (some threads), .store 0 false]

/-- A comment is posted and read, the card is renamed, and its thread is read again. -/
theorem threads_whole_renamed :
    Throughout (threadStep true (some "acme")) (ThreadsWhole (some "acme"))
      (.start [joinedCard "acme/app#7"] [] 0)
      (.post ⟨"acme/app", 7⟩ reply :: refreshOnce "acme/app" [(7, [reply])] ++
        .update "FCT-1" { title := some "Sign in" } :: refreshOnce "acme/app" [(7, [reply])]) := by
  apply threads_whole
  · exact ⟨List.nodup_singleton 1, by decide +kernel, by decide +kernel⟩
  · exact oneTenant_scoped "acme" _
  · decide +kernel
  · decide +kernel

/-- A stored comment that is not of the card's issue. -/
private theorem not_whole_of_foreign (id : String)
    (h : ∃ r ∈ st.cards, inScope scope r = true ∧ r.card.commentsSyncedAt.isSome = true ∧
      storedId st.comments r.card.tenantId r.card.cardKey id = true ∧
        ∀ e ∈ st.posted, issueOf r = some e.1 → e.2.id ≠ id) : ¬ThreadsWhole scope st := by
  intro hwhole
  obtain ⟨r, hr, hscope, hmarker, hstored, hforeign⟩ := h
  obtain ⟨e, he, hissue, hid⟩ := (hwhole r hr hscope hmarker).2 id hstored
  exact hforeign e he hissue hid

/-- A comment the last read should have brought. -/
private theorem not_whole_of_missing
    (h : ∃ r ∈ st.cards, inScope scope r = true ∧ r.card.commentsSyncedAt.isSome = true ∧
      ∃ e ∈ st.posted.take ((st.lastRead r.id).getD 0), issueOf r = some e.1 ∧
        storedId st.comments r.card.tenantId r.card.cardKey e.2.id = false) :
    ¬ThreadsWhole scope st := by
  intro hwhole
  obtain ⟨r, hr, hscope, hmarker, e, he, hissue, hmissing⟩ := h
  obtain ⟨n, hn, hstored⟩ := (hwhole r hr hscope hmarker).1
  rw [hn, Option.getD_some] at he
  have hin : storedId st.comments r.card.tenantId r.card.cardKey e.2.id = true :=
    hstored e he hissue
  rw [hmissing] at hin
  cases hin

/-- A card keeps the thread of its old issue when it is re-pointed; a refresh of `acme/my_app`
stores its comments on a card of `acme/my-app`; and a comment posted during a read of seven
minutes is never asked for again. -/
theorem threads_not_whole :
    (EachStep (threadStep true (some "acme")) Provides (.start [joinedCard "acme/app#7"] [] 0)
        (.post ⟨"acme/app", 7⟩ reply :: refreshOnce "acme/app" [(7, [reply])] ++
          [.update "FCT-1" { issueRef := some (some "acme/app#8") }]) ∧
      ¬Throughout (threadStep true (some "acme")) (ThreadsWhole (some "acme"))
        (.start [joinedCard "acme/app#7"] [] 0)
        (.post ⟨"acme/app", 7⟩ reply :: refreshOnce "acme/app" [(7, [reply])] ++
          [.update "FCT-1" { issueRef := some (some "acme/app#8") }])) ∧
    (EachStep (threadStep true (some "acme")) Provides (.start [joinedCard "acme/my-app#7"] [] 0)
        (.post ⟨"acme/my_app", 7⟩ reply :: refreshOnce "acme/my_app" [(7, [reply])]) ∧
      ¬Throughout (threadStep true (some "acme")) (ThreadsWhole (some "acme"))
        (.start [joinedCard "acme/my-app#7"] [] 0)
        (.post ⟨"acme/my_app", 7⟩ reply :: refreshOnce "acme/my_app" [(7, [reply])])) ∧
    EachStep (threadStep true (some "acme")) Provides (.start [joinedCard "acme/app#7"] [] 0)
        ([.list 0 "acme/app" 25, .fetch 0, .post ⟨"acme/app", 7⟩ reply, .tick 420000000,
          .answer 0 (some [(7, [])]), .store 0 false] ++ refreshOnce "acme/app" [(7, [])]) ∧
      ¬Throughout (threadStep true (some "acme")) (ThreadsWhole (some "acme"))
        (.start [joinedCard "acme/app#7"] [] 0)
        ([.list 0 "acme/app" 25, .fetch 0, .post ⟨"acme/app", 7⟩ reply, .tick 420000000,
          .answer 0 (some [(7, [])]), .store 0 false] ++ refreshOnce "acme/app" [(7, [])]) := by
  refine ⟨⟨by decide +kernel, ?_⟩, ⟨by decide +kernel, ?_⟩, by decide +kernel, ?_⟩
  · intro h
    exact not_whole_of_foreign "c1" (by decide +kernel) h.last
  · intro h
    exact not_whole_of_foreign "c1" (by decide +kernel) h.last
  · intro h
    exact not_whole_of_missing (by decide +kernel) h.last

end CFactory.Import
