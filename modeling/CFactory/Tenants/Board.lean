import CFactory.Cards.Index
import CFactory.Tenants.Configuration

/-!
# Cards, threads and import states are apart

`cards.py:769–1029,2379–2516`. The reads and writes of the tables that are scoped row by row.
-/

namespace CFactory.Tenants

open CFactory.Base CFactory.Model CFactory.Cards CFactory.Import

variable {source : StateSource} {tenant : String} {db : Database}

/-- The cards of a tenant. -/
abbrev cardsOf (t : CardTable) (tenant : String) : CardTable :=
  t.filter (·.card.tenantId == tenant)

/-! ## Reads -/

/-- What a scoped store selects is the tenant's. -/
theorem own_of_inScope {r : CardRow} (h : inScope (some tenant) r = true) :
    (r.card.tenantId == tenant) = true :=
  beq_iff_eq.mpr (beq_iff_eq.mp h).symm

theorem own_of_visible {r : CardRow} (h : visible (some tenant) r = true) :
    (r.card.tenantId == tenant) = true :=
  own_of_inScope (visible_iff.mp h).1

@[simp] theorem getRow_cardsOf (t : CardTable) (tenant key : String) :
    getRow (cardsOf t tenant) (some tenant) key = getRow t (some tenant) key := by
  apply find?_own
  intro r hr
  rw [Bool.and_eq_true] at hr
  exact own_of_visible hr.1

@[simp] theorem rowByIssueRef_cardsOf (t : CardTable) (tenant ref : String) :
    rowByIssueRef (cardsOf t tenant) (some tenant) ref = rowByIssueRef t (some tenant) ref := by
  apply find?_own
  intro r hr
  rw [Bool.and_eq_true] at hr
  exact own_of_inScope hr.1

@[simp] theorem joinedRow_cardsOf (t : CardTable) (tenant key : String) :
    joinedRow (cardsOf t tenant) (some tenant) key = joinedRow t (some tenant) key := by
  rw [joinedRow, joinedRow, filter_own]
  intro r hr
  rw [Bool.and_eq_true] at hr
  exact own_of_visible hr.1

@[simp] theorem cardsForProject_cardsOf (nocase : Bool) (t : CardTable) (tenant project : String) :
    cardsForProject nocase (cardsOf t tenant) (some tenant) project =
      cardsForProject nocase t (some tenant) project := by
  rw [cardsForProject, cardsForProject, filter_own]
  intro r hr
  rw [Bool.and_eq_true] at hr
  exact own_of_visible hr.1

@[simp] theorem getByIssueRef_cardsOf (t : CardTable) (tenant ref : String) :
    getByIssueRef (cardsOf t tenant) (some tenant) ref = getByIssueRef t (some tenant) ref := by
  rw [getByIssueRef, rowByIssueRef_cardsOf, getByIssueRef]

@[simp] theorem holdsKey_cardsOf (t : CardTable) (tenant key : String) :
    Cards.holdsKey (cardsOf t tenant) tenant key = Cards.holdsKey t tenant key := by
  apply any_own
  intro q hq
  rw [Bool.and_eq_true] at hq
  exact hq.1

@[simp] theorem holdsIssue_cardsOf (t : CardTable) (id : Nat) (tenant : String)
    (ref : Option String) : holdsIssue (cardsOf t tenant) id tenant ref =
      holdsIssue t id tenant ref := by
  cases ref with
  | none => rfl
  | some ref =>
    apply any_own
    intro q hq
    simp only [Bool.and_eq_true] at hq
    exact hq.1.2

@[simp] theorem keyFor_cardsOf (t : CardTable) (tenant : String) (d : CardCreate) :
    keyFor (cardsOf t tenant) (some tenant) d = keyFor t (some tenant) d := by
  have hnext : nextCardKey (cardsOf t tenant) (some tenant) = nextCardKey t (some tenant) := by
    rw [nextCardKey, nextCardKey, filter_own]
    exact fun r hr ↦ own_of_inScope hr
  rw [keyFor, keyFor, hnext]

/-- A card of the tenant has the comments the tenant sees. -/
theorem viewOf_of {c : Card} (h : c.tenantId = tenant) :
    viewOf (db.of tenant) c = viewOf db c := by
  have hown : (db.of tenant).comments.filter
      (fun q ↦ q.tenantId == c.tenantId && q.cardKey == c.cardKey) =
        db.comments.filter fun q ↦ q.tenantId == c.tenantId && q.cardKey == c.cardKey := by
    apply filter_own
    intro q hq
    rw [Bool.and_eq_true, h] at hq
    exact hq.1
  rw [viewOf, viewOf, hown]

/-- So has a card of the tenant that was looked up. -/
theorem view_map_of {o : Option CardRow} (h : ∀ r, o = some r → r.card.tenantId = tenant) :
    (o.map CardRow.card).map (viewOf (db.of tenant)) = (o.map CardRow.card).map (viewOf db) := by
  cases o with
  | none => rfl
  | some r => exact congrArg some (viewOf_of (h r rfl))

/-- A listing of cards of the tenant. -/
theorem view_list_of {cards : List Card} (h : ∀ c ∈ cards, c.tenantId = tenant) :
    cards.map (viewOf (db.of tenant)) = cards.map (viewOf db) :=
  List.map_congr_left fun c hc ↦ viewOf_of (h c hc)

theorem list_of (db : Database) (tenant : String) (f : ListFilters) :
    list (db.of tenant) tenant f = list db tenant f := by
  have hrows : (db.of tenant).cards.filter
      (fun r ↦ visible (some tenant) r && f.admits r.card) =
        db.cards.filter fun r ↦ visible (some tenant) r && f.admits r.card := by
    apply filter_own
    intro r hr
    rw [Bool.and_eq_true] at hr
    exact own_of_visible hr.1
  rw [list, list, hrows]
  apply view_list_of
  intro c hc
  rw [List.mem_insertionSort, List.mem_map] at hc
  obtain ⟨r, hr, rfl⟩ := hc
  have hvisible := (List.mem_filter.mp hr).2
  rw [Bool.and_eq_true] at hvisible
  exact beq_iff_eq.mp (own_of_visible hvisible.1)

theorem comments_of (db : Database) (tenant key : String) :
    comments (db.of tenant) tenant key = comments db tenant key := by
  have hrows : (db.of tenant).comments.filter (fun q ↦ q.cardKey == key && q.tenantId == tenant) =
      db.comments.filter fun q ↦ q.cardKey == key && q.tenantId == tenant := by
    apply filter_own
    intro q hq
    rw [Bool.and_eq_true] at hq
    exact hq.2
  rw [comments, comments, hrows]

theorem tenant_of_getRow {t : CardTable} {key : String} {r : CardRow}
    (h : getRow t (some tenant) key = some r) : r.card.tenantId = tenant :=
  beq_iff_eq.mp (own_of_visible (getRow_spec h).2.1)

theorem apart_getByIssueRef (hs : Sound source db) (ref : String) :
    IsApart source tenant (.reads fun db ↦
      .ok ((getByIssueRef db.cards (some tenant) ref).map (viewOf db))) db := by
  apply Apart.reads hs _ fun _ _ ↦ trivial
  apply congrArg Except.ok
  rw [getByIssueRef, getByIssueRef]
  show Option.map _ (Option.map _ (rowByIssueRef (cardsOf db.cards tenant) _ _)) = _
  rw [rowByIssueRef_cardsOf]
  apply view_map_of
  intro r hr
  have hfound := List.find?_some hr
  rw [Bool.and_eq_true] at hfound
  exact beq_iff_eq.mp (own_of_inScope hfound.1)

theorem apart_get (hs : Sound source db) (key : String) :
    IsApart source tenant (.reads fun db ↦
      .ok ((Cards.get db.cards (some tenant) key).map (viewOf db))) db := by
  apply Apart.reads hs _ fun _ _ ↦ trivial
  apply congrArg Except.ok
  rw [Cards.get, Cards.get]
  show Option.map _ (Option.map _ (getRow (cardsOf db.cards tenant) _ _)) = _
  rw [getRow_cardsOf]
  exact view_map_of fun r hr ↦ tenant_of_getRow hr

theorem apart_getByCorrelationKey (hs : Sound source db) (key : String) :
    IsApart source tenant (.reads fun db ↦
      .ok ((getByCorrelationKey db.cards (some tenant) key).map (viewOf db))) db := by
  apply Apart.reads hs _ fun _ _ ↦ trivial
  apply congrArg Except.ok
  rw [getByCorrelationKey, getByCorrelationKey]
  show Option.map _ (Option.map _ (joinedRow (cardsOf db.cards tenant) _ _)) = _
  rw [joinedRow_cardsOf]
  apply view_map_of
  intro r hr
  exact beq_iff_eq.mp (own_of_visible (joinedRow_spec hr).2.1)

theorem apart_cardsForProject (hs : Sound source db) (nocase : Bool) (project : String) :
    IsApart source tenant (.reads fun db ↦
      .ok ((cardsForProject nocase db.cards (some tenant) project).map (viewOf db))) db := by
  apply Apart.reads hs _ fun _ _ ↦ trivial
  apply congrArg Except.ok
  show List.map _ (cardsForProject nocase (cardsOf db.cards tenant) _ _) = _
  rw [cardsForProject_cardsOf]
  apply view_list_of
  intro c hc
  rw [cardsForProject] at hc
  split at hc
  · cases hc
  · rw [List.mem_insertionSort, List.mem_map] at hc
    obtain ⟨r, hr, rfl⟩ := hc
    have hvisible := (List.mem_filter.mp hr).2
    rw [Bool.and_eq_true] at hvisible
    exact beq_iff_eq.mp (own_of_visible hvisible.1)

/-! ## Writes of cards -/

/-- Cards of the tenant written over the old ones. -/
private theorem sound_cards {cards : CardTable} {next : Nat} (hs : Sound source db)
    (hids : (cards.map CardRow.id).Nodup) (hkeys : Below next (cards.map CardRow.id)) :
    Sound source { db with cards := cards, keys := { db.keys with card := next } } where
  access := { hs.access with }
  cardIds := hids
  cardKeys := hkeys

/-- A change of a card that leaves its tenant. -/
def KeepsTenant (f : Card → Card) : Prop := ∀ c, (f c).tenantId = c.tenantId

theorem modifyRow_cardsOf {f : Card → Card} (hf : KeepsTenant f) (t : CardTable) (tenant : String)
    (id : Nat) : modifyRow (cardsOf t tenant) id f = cardsOf (modifyRow t id f) tenant := by
  rw [modifyRow, modifyRow, cardsOf, cardsOf, map_own]
  intro r
  by_cases hr : r.id = id
  · rw [if_pos hr, hf]
  · rw [if_neg hr]

/-- One card of the tenant changed. -/
private theorem apart_modifyRow (hs : Sound source db) {key : String} {r : CardRow}
    (hr : getRow db.cards (some tenant) key = some r) {f : Card → Card} (hf : KeepsTenant f) :
    Sound source { db with cards := modifyRow db.cards r.id f } ∧
      ({ db with cards := modifyRow db.cards r.id f } : Database).others tenant =
        db.others tenant := by
  obtain ⟨hmem, hvisible, -⟩ := getRow_spec hr
  constructor
  · apply sound_cards hs
    · rw [modifyRow_ids]
      exact hs.cardIds
    · rw [modifyRow_ids]
      exact hs.cardKeys
  · rw [Database.others, Database.others]
    congr 1
    apply others_map_key hs.cardIds hmem
    · exact own_of_visible hvisible
    · intro q
      rw [hf]

theorem apart_updateCard (hs : Sound source db) (key : String) (ch : CardChanges) (now : Time) :
    IsApart source tenant (updateCard tenant key ch now) db := by
  apply Apart.transact hs
  · show (Except.mapError _ (Cards.updateCard (cardsOf db.cards tenant) _ _ _ _)).map _ = _
    rw [Cards.updateCard, Cards.updateCard, getRow_cardsOf]
    cases hr : getRow db.cards (some tenant) key with
    | none => rfl
    | some r =>
      have htenant := tenant_of_getRow hr
      dsimp only
      have hsame : (ch.apply now r.card).tenantId = tenant := htenant
      rw [hsame, holdsIssue_cardsOf]
      split
      · rfl
      · apply congrArg Except.ok
        rw [Prod.mk.injEq]
        refine ⟨congrArg some (viewOf_of hsame), ?_⟩
        show ({ db.of tenant with cards := modifyRow (cardsOf db.cards tenant) _ _ } :
          Database) = _
        rw [modifyRow_cardsOf (f := ch.apply now) fun _ ↦ rfl]
        rfl
  · intro a db' hdone
    cases updateCard_cases db.cards (some tenant) key ch now with
    | inl hnone =>
      rw [hnone.2] at hdone
      cases hdone
      exact ⟨hs, rfl, trivial⟩
    | inr hsome =>
      obtain ⟨r, hr, hdo⟩ := hsome
      cases hdo with
      | inl hrefused => rw [hrefused] at hdone; cases hdone
      | inr hwritten =>
        rw [hwritten] at hdone
        cases hdone
        obtain ⟨hsound, hothers⟩ := apart_modifyRow hs hr fun c ↦ (ch.apply_found now c).2.1
        exact ⟨hsound, hothers, trivial⟩

/-- A write of the card that a key finds, which nothing refuses. -/
private theorem apart_writeRow {α : Type} (hs : Sound source db) (key : String)
    {f : Card → Card} (hf : KeepsTenant f) {g : Database → Option Card → α}
    (hg : ∀ c, c.tenantId = tenant → g (db.of tenant) (some c) = g db (some c))
    (hnone : g (db.of tenant) none = g db none) :
    IsApart source tenant (.writes fun db ↦
      match getRow db.cards (some tenant) key with
      | none => (g db none, db)
      | some r => (g db (some (f r.card)), { db with cards := modifyRow db.cards r.id f })) db := by
  cases hr : getRow db.cards (some tenant) key with
  | none =>
    apply Apart.writes
    · show (match getRow (cardsOf db.cards tenant) (some tenant) key with
        | none => _
        | some r => _) = _
      rw [getRow_cardsOf, hr]
      exact congrArg (·, db.of tenant) hnone
    · rw [hr]
      exact hs
    · rw [hr]
    · trivial
  | some r =>
    have htenant := tenant_of_getRow hr
    obtain ⟨hsound, hothers⟩ := apart_modifyRow hs hr hf
    apply Apart.writes
    · show (match getRow (cardsOf db.cards tenant) (some tenant) key with
        | none => _
        | some r => _) = _
      rw [getRow_cardsOf, hr, Prod.mk.injEq]
      refine ⟨hg _ ((hf r.card).trans htenant), ?_⟩
      show ({ db.of tenant with cards := modifyRow (cardsOf db.cards tenant) _ _ } :
        Database) = _
      rw [modifyRow_cardsOf hf]
      rfl
    · rw [hr]
      exact hsound
    · rw [hr]
      exact hothers
    · trivial

theorem apart_updateStages (hs : Sound source db) (key : String) (ch : StageChanges)
    (now : Time) : IsApart source tenant (updateStages tenant key ch now) db := by
  have hsame : updateStages tenant key ch now = .writes fun db ↦
      match getRow db.cards (some tenant) key with
      | none => (Option.map (viewOf db) none, db)
      | some r => (Option.map (viewOf db) (some (ch.apply now r.card)),
          { db with cards := modifyRow db.cards r.id (ch.apply now) }) := by
    apply congrArg Call.writes
    funext db
    rw [update]
    cases getRow db.cards (some tenant) key <;> rfl
  rw [hsame]
  apply apart_writeRow hs key (f := ch.apply now) (g := fun db c ↦ c.map (viewOf db))
  · exact fun _ ↦ rfl
  · exact fun c hc ↦ congrArg some (viewOf_of hc)
  · rfl

theorem apart_delete (hs : Sound source db) (key : String) (now : Time) :
    IsApart source tenant (delete tenant key now) db := by
  have hsame : delete tenant key now = .writes fun db ↦
      match getRow db.cards (some tenant) key with
      | none => (Option.isSome (none : Option Card), db)
      | some r => (Option.isSome (some (tombstoned now r.card)),
          { db with cards := modifyRow db.cards r.id (tombstoned now) }) := by
    apply congrArg Call.writes
    funext db
    rw [deleteCard]
    cases getRow db.cards (some tenant) key <;> rfl
  rw [hsame]
  apply apart_writeRow hs key (f := tombstoned now) (g := fun _ c ↦ c.isSome)
  · exact fun _ ↦ rfl
  · exact fun _ _ ↦ rfl
  · rfl

/-! ## A new card -/

/-- A card that is created is the tenant's, under the next key. -/
theorem createAt_ok {id : Nat} {t t' : CardTable} {d : CardCreate} {now : Time} {c : Card}
    (h : createAt id t (some tenant) d now = .ok (c, t')) :
    c.tenantId = tenant ∧ t' = t ++ [⟨id, c⟩] := by
  rw [createAt] at h
  split at h
  · cases h
  · split at h
    · cases h
    · dsimp only at h
      split at h
      · split at h
        · split at h <;> cases h
        · cases h
      · cases h
        exact ⟨rfl, rfl⟩

/-- A card is created among the tenant's. -/
theorem createAt_cardsOf (id : Nat) (t : CardTable) (tenant : String) (d : CardCreate)
    (now : Time) :
    createAt id (cardsOf t tenant) (some tenant) d now =
      (createAt id t (some tenant) d now).map fun done ↦ (done.1, cardsOf done.2 tenant) := by
  have hrow : ∀ c : Card, c.tenantId = tenant →
      cardsOf t tenant ++ [⟨id, c⟩] = cardsOf (t ++ [⟨id, c⟩]) tenant := by
    intro c hc
    rw [cardsOf, cardsOf, append_own]
    intro r hr
    cases List.mem_singleton.mp hr
    exact beq_iff_eq.mpr hc
  have htenant : tenantOf (some tenant) = tenant := rfl
  rw [createAt, createAt, keyFor_cardsOf, htenant]
  simp only [getByIssueRef_cardsOf, holdsKey_cardsOf, holdsIssue_cardsOf]
  split
  · rfl
  · cases keyFor t (some tenant) d with
    | none => rfl
    | some key =>
      dsimp only
      by_cases hheld : (Cards.holdsKey t tenant key || holdsIssue t id tenant d.issueRef) = true
      · rw [if_pos hheld, if_pos hheld]
        cases d.issueRef with
        | none => rfl
        | some ref =>
          dsimp only
          split <;> rfl
      · rw [if_neg hheld, if_neg hheld]
        exact congrArg (fun t ↦ Except.ok (_, t)) (hrow _ rfl)

theorem apart_create (hs : Sound source db) (d : CardCreate) (now : Time) :
    IsApart source tenant (create tenant d now) db := by
  apply Apart.transact hs
  · show (Except.mapError _ (createAt db.keys.card (cardsOf db.cards tenant) _ _ _)).map _ = _
    rw [createAt_cardsOf]
    cases hcreate : createAt db.keys.card db.cards (some tenant) d now with
    | error e => rfl
    | ok done =>
      apply congrArg Except.ok
      rw [Prod.mk.injEq]
      exact ⟨viewOf_of (createAt_ok hcreate).1, rfl⟩
  · intro a db' hdone
    cases hcreate : createAt db.keys.card db.cards (some tenant) d now with
    | error e => rw [hcreate] at hdone; cases hdone
    | ok done =>
      obtain ⟨c, t'⟩ := done
      rw [hcreate] at hdone
      cases hdone
      obtain ⟨htenant, rfl⟩ := createAt_ok hcreate
      refine ⟨?_, ?_, trivial⟩
      · apply sound_cards hs
        · exact nodup_append_next hs.cardIds hs.cardKeys rfl
        · intro id hid
          cases nextOnly_append db.cards rfl id hid with
          | inl hold => exact Nat.lt_succ_of_lt (hs.cardKeys id hold)
          | inr hnew =>
            rw [hnew]
            exact Nat.lt_succ_self _
      · dsimp only [division, Database.others]
        rw [others_append]
        intro r hr
        cases List.mem_singleton.mp hr
        exact beq_iff_eq.mpr htenant

/-! ## Threads -/

/-- A refreshed row stays with its tenant, and a row of another tenant stays as it is. -/
private theorem refreshRow_spec (tenant key : String) (thread : List IssueComment)
    (q : CommentRow) :
    (refreshRow tenant key thread q).tenantId = q.tenantId ∧
      (q.tenantId ≠ tenant → refreshRow tenant key thread q = q) := by
  rw [refreshRow]
  split
  · rename_i hthread
    refine ⟨?_, fun hnot ↦ absurd hthread.1 hnot⟩
    split <;> rfl
  · exact ⟨rfl, fun _ ↦ rfl⟩

/-- A thread is stored among the tenant's comments. -/
theorem storeThread_of (rows : List CommentRow) (tenant key : String)
    (thread : List IssueComment) :
    storeThread (rows.filter (·.tenantId == tenant)) tenant key thread =
      (storeThread rows tenant key thread).map (·.filter (·.tenantId == tenant)) ∧
    ∀ rows', storeThread rows tenant key thread = some rows' →
      Base.others (·.tenantId == tenant) rows' = Base.others (·.tenantId == tenant) rows := by
  have hstored : ∀ id, storedId (rows.filter (·.tenantId == tenant)) tenant key id =
      storedId rows tenant key id := by
    intro id
    apply any_own
    intro q hq
    simp only [Bool.and_eq_true] at hq
    exact hq.1.1
  have hkept : ∀ q : CommentRow, ((refreshRow tenant key thread q).tenantId == tenant) =
      (q.tenantId == tenant) := fun q ↦ by rw [(refreshRow_spec tenant key thread q).1]
  have hnew : ∀ fresh : List IssueComment, ∀ q ∈ fresh.map fun c ↦ (⟨tenant, key, c⟩ : CommentRow),
      (q.tenantId == tenant) = true := by
    intro fresh q hq
    obtain ⟨c, -, rfl⟩ := List.mem_map.mp hq
    exact beq_self_eq_true tenant
  rw [storeThread, storeThread]
  simp only [hstored]
  split
  · constructor
    · apply congrArg some
      show _ = List.filter _ (_ ++ _)
      rw [append_own (hnew _), map_own hkept]
    · intro rows' hrows
      cases hrows
      rw [others_append (hnew _), others_map fun q _ ↦ hkept q]
      intro q _ hnot
      exact (refreshRow_spec tenant key thread q).2 (by simpa using hnot)
  · exact ⟨rfl, fun _ hrows ↦ by cases hrows⟩

/-- The marker is set on the tenant's cards. -/
theorem markSynced_of (t : CardTable) (tenant key : String) (syncedAt : Time) :
    markSynced (cardsOf t tenant) (some tenant) key syncedAt =
        cardsOf (markSynced t (some tenant) key syncedAt) tenant ∧
      Base.others (·.card.tenantId == tenant) (markSynced t (some tenant) key syncedAt) =
        Base.others (·.card.tenantId == tenant) t ∧
      (markSynced t (some tenant) key syncedAt).map CardRow.id = t.map CardRow.id := by
  have hkept : ∀ r : CardRow, ((if inScope (some tenant) r && r.card.cardKey == key then
      { r with card := marked syncedAt r.card } else r).card.tenantId == tenant) =
        (r.card.tenantId == tenant) := by
    intro r
    split <;> rfl
  refine ⟨?_, ?_, ?_⟩
  · rw [markSynced, markSynced, cardsOf, cardsOf, map_own hkept]
  · rw [markSynced, others_map fun r _ ↦ hkept r]
    intro r _ hnot
    apply if_neg
    intro hscope
    rw [Bool.and_eq_true] at hscope
    rw [own_of_inScope hscope.1] at hnot
    cases hnot
  · rw [markSynced, map_key]
    intro r
    split <;> rfl

theorem apart_storeComments (hs : Sound source db) (key : String) (thread : List IssueComment)
    (syncedAt : Time) : IsApart source tenant (storeComments tenant key thread syncedAt) db := by
  obtain ⟨hown, hothers⟩ := storeThread_of db.comments tenant key thread
  obtain ⟨hcards, hcardsOthers, hids⟩ := markSynced_of db.cards tenant key syncedAt
  have hall : Import.storeComments db.cards db.comments (some tenant) key thread syncedAt =
      (storeThread db.comments tenant key thread).map fun rows ↦
        (markSynced db.cards (some tenant) key syncedAt, rows) := rfl
  have halone : Import.storeComments (db.of tenant).cards (db.of tenant).comments (some tenant) key
      thread syncedAt = ((storeThread db.comments tenant key thread).map
        (·.filter (·.tenantId == tenant))).map fun rows ↦
          (cardsOf (markSynced db.cards (some tenant) key syncedAt) tenant, rows) := by
    rw [← hown, ← hcards]
    rfl
  apply Apart.transact hs
  · dsimp only [division]
    rw [hall, halone]
    cases storeThread db.comments tenant key thread <;> rfl
  · intro a db' hdone
    rw [hall] at hdone
    cases hrows : storeThread db.comments tenant key thread with
    | none => rw [hrows] at hdone; cases hdone
    | some rows =>
      rw [hrows] at hdone
      cases hdone
      refine ⟨?_, ?_, trivial⟩
      · exact ⟨hs.access, by rw [hids]; exact hs.cardIds, by rw [hids]; exact hs.cardKeys⟩
      · dsimp only [division, Database.others]
        rw [hothers rows hrows, hcardsOthers]

/-! ## Import states -/

@[simp] theorem stateOf_of (s : ImportStates) (tenant project : String) :
    stateOf (s.filter (·.tenantId == tenant)) tenant project = stateOf s tenant project := by
  apply find?_own
  intro r hr
  rw [keyed, Bool.and_eq_true] at hr
  exact hr.1

theorem importStates_of (s : ImportStates) (tenant : String) :
    importStates (s.filter (·.tenantId == tenant)) tenant = importStates s tenant := by
  rw [importStates, filter_own fun _ h ↦ h, importStates]

/-- A state of a project is written among the tenant's. -/
theorem upsertImportState_of (s : ImportStates) (tenant project : String)
    {f : ImportStateRow → ImportStateRow} (hf : KeepsProject f) :
    upsertImportState (s.filter (·.tenantId == tenant)) tenant project f =
        (upsertImportState s tenant project f).filter (·.tenantId == tenant) ∧
      Base.others (·.tenantId == tenant) (upsertImportState s tenant project f) =
        Base.others (·.tenantId == tenant) s := by
  have hnew : ∀ r ∈ [f { tenantId := tenant, project := project }],
      (r.tenantId == tenant) = true := by
    intro r hr
    cases List.mem_singleton.mp hr
    rw [(hf _).1, beq_self_eq_true]
  have hkept : ∀ r, ((if keyed tenant project r then f r else r).tenantId == tenant) =
      (r.tenantId == tenant) := by
    intro r
    split
    · rw [(hf r).1]
    · rfl
  rw [upsertImportState, upsertImportState, stateOf_of]
  cases stateOf s tenant project with
  | none => exact ⟨(append_own hnew s).symm, others_append hnew s⟩
  | some row =>
    refine ⟨(map_own hkept s).symm, ?_⟩
    apply others_map fun r _ ↦ hkept r
    intro r _ hnot
    apply if_neg
    intro hkey
    rw [keyed, Bool.and_eq_true, hnot] at hkey
    cases hkey.1

/-- A write of the import states is apart if it does to the tenant's what it would do to them
alone. -/
theorem apart_onStates {α : Type} {f : ImportStates → α × ImportStates} (hs : Sound source db)
    (hown : f (db.states.filter (·.tenantId == tenant)) =
      ((f db.states).1, (f db.states).2.filter (·.tenantId == tenant)))
    (hothers : Base.others (·.tenantId == tenant) (f db.states).2 =
      Base.others (·.tenantId == tenant) db.states) :
    IsApart source tenant (onStates f) db := by
  apply Apart.writes
  · show ((f (db.states.filter (·.tenantId == tenant))).1, _) = _
    dsimp only [division, Database.of]
    rw [hown]
  · exact ⟨hs.access, hs.cardIds, hs.cardKeys⟩
  · dsimp only [division, Database.others]
    rw [hothers]
  · trivial

theorem apart_upsertImportState (hs : Sound source db) (project : String)
    {f : ImportStateRow → ImportStateRow} (hf : KeepsProject f) :
    IsApart source tenant (onStates fun s ↦ ((), upsertImportState s tenant project f)) db := by
  obtain ⟨hown, hothers⟩ := upsertImportState_of db.states tenant project hf
  exact apart_onStates hs (congrArg ((), ·) hown) hothers

theorem apart_claimImportLease (hs : Sound source db) (project : String) (ttl now : Time) :
    IsApart source tenant (onStates fun s ↦ claimImportLease s tenant project ttl now) db := by
  obtain ⟨hown, hothers⟩ := upsertImportState_of db.states tenant project
    (f := fun r ↦ { r with pollLeasedUntil := some (now + ttl) }) fun _ ↦ ⟨rfl, rfl⟩
  apply apart_onStates hs
  · rw [claimImportLease, claimImportLease, leased, leased, stateOf_of]
    split
    · rfl
    · exact congrArg (true, ·) hown
  · rw [claimImportLease]
    split
    · rfl
    · exact hothers

end CFactory.Tenants
