import CFactory.Audit.Chain

/-!
# Serial chains

Which rows of a table are anomalous when every row carries its own digest and no digest
occurs twice, and why a serial sequence of appends leaves no anomaly at all.
-/

namespace CFactory.Audit

open CFactory.Base
open CFactory.Model

/-! ## Walking a table -/

/-- Another row is chained to the parent of this one. -/
def Shared (rows : List AuditEntry) (r : AuditEntry) : Prop :=
  ∃ q ∈ rows, q.id ≠ r.id ∧ q.prevHash = r.prevHash

/-- The digest of a row's own columns; `audit.py:517`. -/
def recomputed (s : AuditStore) (r : AuditEntry) : String :=
  computeEntryHash s.hmac s.secret r.values r.prevHash

private theorem mem_scanFrom {s : AuditStore} {rows rest : List AuditEntry}
    {expected : Option String} {b : ChainBreak} :
    b ∈ scanFrom s rows expected rest ↔ ∃ front r back, rest = front ++ r :: back ∧
      classify r (recomputed s r)
        (match front.getLast? with | none => expected | some q => some q.entryHash) rows =
          some b := by
  induction rest generalizing expected with
  | nil => simp [scanFrom]
  | cons row rest ih =>
    rw [scanFrom, List.mem_append, Option.mem_toList, ih]
    constructor
    · intro h
      cases h with
      | inl h => exact ⟨[], row, rest, rfl, h⟩
      | inr h =>
        obtain ⟨front, r, back, rfl, hb⟩ := h
        refine ⟨row :: front, r, back, rfl, ?_⟩
        cases hl : front.getLast? with
        | none => rw [List.getLast?_eq_none_iff.mp hl] at hb ⊢; exact hb
        | some q => rw [List.getLast?_cons, hl]; rw [hl] at hb; exact hb
    · rintro ⟨front, r, back, hrest, hb⟩
      cases front with
      | nil =>
        obtain ⟨rfl, rfl⟩ := List.cons.inj hrest
        exact .inl hb
      | cons row' front =>
        obtain ⟨rfl, rfl⟩ := List.cons.inj hrest
        refine .inr ⟨front, r, back, rfl, ?_⟩
        cases hl : front.getLast? with
        | none => rw [List.getLast?_eq_none_iff.mp hl] at hb; exact hb
        | some q => rw [List.getLast?_cons, hl] at hb; exact hb

/-- Every anomaly is that of a row, classified against the row before it. -/
theorem mem_check {s : AuditStore} {t : AuditTable} {b : ChainBreak} :
    b ∈ check s t ↔ ∃ front r back, t.rows = front ++ r :: back ∧
      classify r (recomputed s r) (chainTail front) t.rows = some b := by
  have htail : ∀ front : List AuditEntry, (match front.getLast? with
      | none => none | some q => some q.entryHash) = chainTail front := by
    intro front
    rw [chainTail]
    cases front.getLast? <;> rfl
  rw [check, scan, mem_scanFrom]
  simp only [htail]

/-- The alarm is quiet exactly when every anomaly is a fork. -/
theorem verify_eq_nil_iff {s : AuditStore} {t : AuditTable} :
    verify s t = [] ↔ ∀ b ∈ check s t, b.kind = .forked := by
  rw [verify, List.map_eq_nil_iff, List.filter_eq_nil_iff]
  simp

/-! ## Genuine rows -/

/-- Every row carries the digest of its own columns, and no two rows the same digest. -/
structure Genuine (s : AuditStore) (rows : List AuditEntry) : Prop where
  own : ∀ r ∈ rows, r.entryHash = recomputed s r
  distinct : (rows.map AuditEntry.entryHash).Nodup

theorem Genuine.sublist {s : AuditStore} {rows rest : List AuditEntry} (h : Genuine s rows)
    (hsub : rest.Sublist rows) : Genuine s rest :=
  ⟨fun r hr ↦ h.own r (hsub.subset hr), h.distinct.sublist (hsub.map _)⟩

theorem Genuine.no_twins {s : AuditStore} {rows : List AuditEntry} (h : Genuine s rows)
    {r : AuditEntry} (hr : r ∈ rows) : (byHash rows r.entryHash).filter (· ≠ r.id) = [] := by
  rw [List.filter_eq_nil_iff]
  intro i hi
  obtain ⟨q, hq, rfl⟩ := List.mem_map.mp hi
  obtain ⟨hq, hhash⟩ := List.mem_filter.mp hq
  have hsame : q = r := List.inj_on_of_nodup_map h.distinct hq hr (of_decide_eq_true hhash)
  simp [hsame]

theorem shared_iff {rows : List AuditEntry} {r : AuditEntry} :
    (byParent rows r.prevHash).filter (· ≠ r.id) ≠ [] ↔ Shared rows r := by
  rw [Ne, List.filter_eq_nil_iff]
  simp only [byParent, Shared, List.mem_map, List.mem_filter, decide_eq_true_eq]
  constructor
  · intro h
    by_contra hnone
    apply h
    rintro i ⟨q, ⟨hq, hprev⟩, rfl⟩ hne
    exact hnone ⟨q, hq, hne, hprev⟩
  · rintro ⟨q, hq, hne, hprev⟩ h
    exact h q.id ⟨q, ⟨hq, hprev⟩, rfl⟩ hne

/-- Among genuine rows only a wrong link is anomalous: a fork where the parent exists and
another row shares it, else a gap. -/
theorem Genuine.classify_eq {s : AuditStore} {rows : List AuditEntry} (h : Genuine s rows)
    {r : AuditEntry} (hr : r ∈ rows) (expected : Option String) :
    (classify r (recomputed s r) expected rows = none ↔ r.prevHash = expected) ∧
      ∀ b, classify r (recomputed s r) expected rows = some b →
        b.id = r.id ∧ (b.kind = .forked ↔ Shared rows r ∧ parentExists rows r.prevHash) := by
  have hown : ¬ (r.entryHash ≠ recomputed s r) := not_not.mpr (h.own r hr)
  have htwins : ¬ ((byHash rows r.entryHash).filter (· ≠ r.id) ≠ []) := not_not.mpr (h.no_twins hr)
  simp only [classify, if_neg hown, if_neg htwins, ← shared_iff]
  by_cases hlink : r.prevHash = expected
  · simp [hlink]
  · rw [if_neg hlink]
    by_cases hfork : (byParent rows r.prevHash).filter (· ≠ r.id) ≠ [] ∧
        parentExists rows r.prevHash
    · rw [if_pos hfork]
      refine ⟨⟨fun hc ↦ absurd hc (by simp), fun hc ↦ absurd hc hlink⟩, fun b hb ↦ ?_⟩
      rw [← Option.some.inj hb]
      exact ⟨rfl, ⟨fun _ ↦ hfork, fun _ ↦ rfl⟩⟩
    · rw [if_neg hfork]
      refine ⟨⟨fun hc ↦ absurd hc (by simp), fun hc ↦ absurd hc hlink⟩, fun b hb ↦ ?_⟩
      rw [← Option.some.inj hb]
      exact ⟨rfl, ⟨fun hc ↦ absurd hc (by simp), fun hc ↦ absurd hc hfork⟩⟩

/-- Genuine rows raise no anomaly exactly when each is chained to the row before it. -/
theorem Genuine.check_eq_nil_iff {s : AuditStore} {t : AuditTable} (h : Genuine s t.rows) :
    check s t = [] ↔
      ∀ front r back, t.rows = front ++ r :: back → r.prevHash = chainTail front := by
  rw [List.eq_nil_iff_forall_not_mem]
  constructor
  · intro hnone front r back hrows
    have hr : r ∈ t.rows := by rw [hrows]; simp
    rw [← (h.classify_eq hr (chainTail front)).1, Option.eq_none_iff_forall_ne_some]
    exact fun b hb ↦ hnone b (mem_check.mpr ⟨front, r, back, hrows, hb⟩)
  · intro hlinks b hb
    obtain ⟨front, r, back, hrows, hclass⟩ := mem_check.mp hb
    have hr : r ∈ t.rows := by rw [hrows]; simp
    rw [(h.classify_eq hr (chainTail front)).1.mpr (hlinks front r back hrows)] at hclass
    exact absurd hclass (by simp)

/-- Genuine rows leave the alarm quiet exactly when each is chained to the row before it or
shares an existing parent. -/
theorem Genuine.verify_eq_nil_iff {s : AuditStore} {t : AuditTable} (h : Genuine s t.rows) :
    verify s t = [] ↔ ∀ front r back, t.rows = front ++ r :: back →
      r.prevHash = chainTail front ∨ (Shared t.rows r ∧ parentExists t.rows r.prevHash) := by
  rw [CFactory.Audit.verify_eq_nil_iff]
  constructor
  · intro hforks front r back hrows
    have hr : r ∈ t.rows := by rw [hrows]; simp
    obtain ⟨hnone, hsome⟩ := h.classify_eq hr (chainTail front)
    cases hc : classify r (recomputed s r) (chainTail front) t.rows with
    | none => exact .inl (hnone.mp hc)
    | some b =>
      have hkind := hforks b (mem_check.mpr ⟨front, r, back, hrows, hc⟩)
      exact .inr ((hsome b hc).2.mp hkind)
  · intro hlinks b hb
    obtain ⟨front, r, back, hrows, hclass⟩ := mem_check.mp hb
    have hr : r ∈ t.rows := by rw [hrows]; simp
    obtain ⟨hnone, hsome⟩ := h.classify_eq hr (chainTail front)
    cases hlinks front r back hrows with
    | inl hlink => rw [hnone.mpr hlink] at hclass; exact absurd hclass (by simp)
    | inr hshared => exact (hsome b hclass).2.mpr hshared

/-! ## Serial appends -/

/-- Each row is chained to the row before it. -/
def Linked (rows : List AuditEntry) : Prop :=
  ∀ front r back, rows = front ++ r :: back → r.prevHash = chainTail front

/-- The digest at the end of genuine rows. -/
theorem Genuine.tail_digest {s : AuditStore} {rows : List AuditEntry} (h : Genuine s rows) :
    ∃ d : Option Digest, chainTail rows = d.map Digest.text := by
  rw [chainTail]
  cases hl : rows.getLast? with
  | none => exact ⟨none, rfl⟩
  | some r =>
    have hown := h.own r (List.mem_of_getLast? hl)
    exact ⟨some ⟨r.entryHash, by rw [hown]; exact s.hmac.hex _ _, by
      rw [hown]; exact s.hmac.nonempty _ _⟩, rfl⟩

/-- Genuine rows with the same digest as a new row are chained to the same parent as it. -/
theorem prevHash_eq_of_hash {s : AuditStore} {v w : Fields} {p q : Option Digest}
    (h : computeEntryHash s.hmac s.secret v (p.map Digest.text) =
      computeEntryHash s.hmac s.secret w (q.map Digest.text)) : p = q :=
  prev_of_message_eq (s.hmac.injective _ _ _ h)

/-- A proper front of genuine rows does not end in the digest that all of them end in. -/
theorem Genuine.tail_ne {s : AuditStore} {front back : List AuditEntry} {r : AuditEntry}
    (h : Genuine s (front ++ r :: back)) : chainTail front ≠ chainTail (front ++ r :: back) := by
  have hnodup := h.distinct
  rw [List.map_append, List.nodup_append'] at hnodup
  obtain ⟨last, hlast⟩ : ∃ q, (r :: back).getLast? = some q := by
    rw [← Option.isSome_iff_exists]
    simp
  rw [chainTail, chainTail, List.getLast?_append, hlast]
  cases hf : front.getLast? with
  | none => simp
  | some q =>
    intro heq
    have hsame : q.entryHash = last.entryHash := by simpa using heq
    have hfront : q.entryHash ∈ front.map AuditEntry.entryHash :=
      List.mem_map_of_mem (List.mem_of_getLast? hf)
    have hback : last.entryHash ∈ (r :: back).map AuditEntry.entryHash :=
      List.mem_map_of_mem (List.mem_of_getLast? hlast)
    exact hnodup.2.2 hfront (hsame ▸ hback)

theorem Linked.front {front back : List AuditEntry} (h : Linked (front ++ back)) :
    Linked front := by
  intro f r b hrows
  exact h f r (b ++ back) (by rw [hrows]; simp)

/-- A row chained to the newest of linked genuine rows has a digest of its own. -/
theorem Genuine.append {s : AuditStore} {rows : List AuditEntry} (h : Genuine s rows)
    (hlinked : Linked rows) {r : AuditEntry} (hown : r.entryHash = recomputed s r)
    (hprev : r.prevHash = chainTail rows) : Genuine s (rows ++ [r]) := by
  constructor
  · intro q hq
    cases List.mem_append.mp hq with
    | inl hq => exact h.own q hq
    | inr hq => rw [List.mem_singleton.mp hq]; exact hown
  · rw [List.map_append, List.map_singleton, List.nodup_append']
    refine ⟨h.distinct, List.nodup_singleton _, ?_⟩
    intro hash hin hnew
    obtain ⟨q, hq, rfl⟩ := List.mem_map.mp hin
    have heq : q.entryHash = r.entryHash := List.mem_singleton.mp hnew
    obtain ⟨front, back, rfl⟩ := List.append_of_mem hq
    obtain ⟨d, hd⟩ := (h.sublist (List.sublist_append_left front _)).tail_digest
    obtain ⟨e, he⟩ := h.tail_digest
    have hlink := hlinked front q back rfl
    rw [h.own q hq, hown, recomputed, recomputed, hlink, hprev, hd, he] at heq
    have hde := prevHash_eq_of_hash heq
    exact h.tail_ne (by rw [hd, he, hde])

theorem Linked.append {rows : List AuditEntry} (h : Linked rows) {r : AuditEntry}
    (hprev : r.prevHash = chainTail rows) : Linked (rows ++ [r]) := by
  intro front q back hrows
  rcases List.eq_nil_or_concat back with rfl | ⟨mid, last, rfl⟩
  · obtain ⟨rfl, hq⟩ := List.append_inj' hrows rfl
    rw [← (List.cons.inj hq).1]
    exact hprev
  · rw [List.concat_eq_append, ← List.cons_append, ← List.append_assoc] at hrows
    obtain ⟨hfront, -⟩ := List.append_inj' hrows rfl
    exact h front q mid hfront

/-- A serial sequence of appends leaves genuine rows, each chained to the row before it. -/
theorem recordAll_linked (s : AuditStore) (calls : List RecordCall) :
    Genuine s (recordAll s calls).rows ∧ Linked (recordAll s calls).rows := by
  induction calls using List.reverseRecOn with
  | nil =>
    refine ⟨⟨fun r hr ↦ absurd hr List.not_mem_nil, List.nodup_nil⟩, fun front r back h ↦ ?_⟩
    exact absurd h (by simp [recordAll, AuditTable.empty])
  | append_singleton calls c ih =>
    obtain ⟨hgen, hlink⟩ := ih
    have hrows : (recordAll s (calls ++ [c])).rows = (recordAll s calls).rows ++
        [newEntry s c (chainTail (recordAll s calls).rows)
          (nextId (recordAll s calls).rows c.gap)] := by
      rw [recordAll, List.foldl_append]
      rfl
    rw [hrows]
    exact ⟨hgen.append hlink rfl rfl, hlink.append rfl⟩

/-- A serial sequence of appends raises no anomaly. -/
theorem check_recordAll (s : AuditStore) (calls : List RecordCall) :
    check s (recordAll s calls) = [] := by
  obtain ⟨hgen, hlink⟩ := recordAll_linked s calls
  exact hgen.check_eq_nil_iff.mpr hlink

end CFactory.Audit
