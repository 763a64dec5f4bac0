import CFactory.Audit.Digests
import CFactory.Audit.Serial

/-!
# Deleting rows of a serial chain

`audit.py:8–13,463–520`. A row whose predecessor was removed dangles, so that a deletion
raises the alarm whenever a row recorded after a removed one is still there. A deletion at
the end of the chain leaves a shorter chain of the same form.
-/

namespace CFactory.Audit

/-- Linked genuine rows have parents of their own. -/
theorem Linked.parent_injective {s : AuditStore} {rows : List AuditEntry} (h : Linked rows)
    (hgen : Genuine s rows) {q r : AuditEntry} (hq : q ∈ rows) (hr : r ∈ rows)
    (hprev : q.prevHash = r.prevHash) : q = r := by
  -- Of two positions the later one has the earlier row in front of it, whose chain ends
  -- before the chain in front of the later one does.
  have hlater : ∀ {front mid back : List AuditEntry} {a b : AuditEntry},
      rows = front ++ a :: (mid ++ b :: back) → a.prevHash ≠ b.prevHash := by
    intro front mid back a b hrows heq
    have ha := h front a _ hrows
    have hb := h (front ++ a :: mid) b back (by rw [hrows]; simp)
    have hsub : (front ++ a :: mid).Sublist rows := by
      rw [hrows]
      apply List.Sublist.append_left
      exact List.Sublist.cons_cons a (List.sublist_append_left mid _)
    exact (hgen.sublist hsub).tail_ne (by rw [← ha, ← hb, heq])
  obtain ⟨front, back, rfl⟩ := List.append_of_mem hq
  rcases List.mem_append.mp hr with hf | hb
  · obtain ⟨a, b, rfl⟩ := List.append_of_mem hf
    exact absurd hprev.symm (@hlater a b back r q (by simp))
  · rcases List.mem_cons.mp hb with rfl | hb
    · rfl
    · obtain ⟨a, b, rfl⟩ := List.append_of_mem hb
      exact absurd hprev (@hlater front a b q r rfl)

/-- Deleting rows of a linked genuine table leaves the alarm quiet exactly when the rows
that are left are still linked. -/
theorem verify_delete_iff {s : AuditStore} {t : AuditTable} (hgen : Genuine s t.rows)
    (hlink : Linked t.rows) (ids : List Int) :
    verify s (t.delete ids) = [] ↔ Linked (t.delete ids).rows := by
  have hsub : (t.delete ids).rows.Sublist t.rows := List.filter_sublist
  have hleft := hgen.sublist hsub
  have halone : ∀ r ∈ (t.delete ids).rows, ¬ Shared (t.delete ids).rows r := by
    rintro r hr ⟨q, hq, hne, hprev⟩
    have hsame := hlink.parent_injective hgen (hsub.subset hq) (hsub.subset hr) hprev
    exact hne (congrArg AuditEntry.id hsame)
  rw [hleft.verify_eq_nil_iff]
  constructor
  · intro h front r back hrows
    cases h front r back hrows with
    | inl hprev => exact hprev
    | inr hshared =>
      have hr : r ∈ (t.delete ids).rows := by rw [hrows]; simp
      exact absurd hshared.1 (halone r hr)
  · exact fun h front r back hrows ↦ .inl (h front r back hrows)

/-- Rows left in front of every removed row are a front of the table. -/
theorem delete_isPrefix {t : AuditTable} {ids : List Int}
    (h : ∀ r ∈ t.rows, ∀ q ∈ t.rows, r.id ∈ ids → q.id ∉ ids → ¬ r.id < q.id) :
    (t.delete ids).rows <+: t.rows := by
  obtain ⟨rows, hord⟩ := t
  show rows.filter (·.id ∉ ids) <+: rows
  induction rows with
  | nil => exact List.prefix_rfl
  | cons r rest ih =>
    obtain ⟨hhead, htail⟩ := List.pairwise_cons.mp hord
    by_cases hr : r.id ∈ ids
    · -- The first removed row: nothing behind it is left.
      have hnone : (r :: rest).filter (·.id ∉ ids) = [] := by
        rw [List.filter_eq_nil_iff]
        intro q hq
        cases List.mem_cons.mp hq with
        | inl hq => simp [hq, hr]
        | inr hq =>
          have hlt := hhead q hq
          by_contra hkept
          exact h r List.mem_cons_self q (List.mem_cons_of_mem _ hq) hr (by simpa using hkept) hlt
      rw [hnone]
      exact List.nil_prefix
    · rw [List.filter_cons_of_pos (by simpa using hr), List.prefix_cons_inj]
      exact ih htail fun a ha b hb ↦ h a (List.mem_cons_of_mem _ ha) b (List.mem_cons_of_mem _ hb)

/-- A row left behind a removed one breaks the links. -/
theorem not_linked_delete {s : AuditStore} {t : AuditTable} (hgen : Genuine s t.rows)
    (hlink : Linked t.rows) {ids : List Int} {r q : AuditEntry} (hr : r ∈ t.rows)
    (hq : q ∈ t.rows) (hremoved : r.id ∈ ids) (hkept : q.id ∉ ids) (hlt : r.id < q.id) :
    ¬ Linked (t.delete ids).rows := by
  obtain ⟨front, back, hrows⟩ := List.append_of_mem hr
  have hord := t.ordered
  rw [hrows, List.pairwise_append] at hord
  have hback : q ∈ back := by
    rw [hrows] at hq
    rcases List.mem_append.mp hq with hf | hb
    · have hqr := hord.2.2 q hf r List.mem_cons_self
      omega
    · cases List.mem_cons.mp hb with
      | inl hb => exact absurd hremoved (hb ▸ hkept)
      | inr hb => exact hb
  -- The first row left behind the removed one stands behind the rows left in front of it.
  obtain ⟨next, hnext⟩ : ∃ p, back.find? (·.id ∉ ids) = some p := by
    rw [← Option.isSome_iff_exists, List.find?_isSome]
    exact ⟨q, hback, by simpa using hkept⟩
  obtain ⟨hnextKept, between, rest, hbackEq, hbetween⟩ := List.find?_eq_some_iff_append.mp hnext
  have hleft : (t.delete ids).rows =
      front.filter (·.id ∉ ids) ++ next :: rest.filter (·.id ∉ ids) := by
    have hnone : between.filter (·.id ∉ ids) = [] := by
      rw [List.filter_eq_nil_iff]
      intro p hp
      simpa using hbetween p hp
    show t.rows.filter (·.id ∉ ids) = _
    rw [hrows, List.filter_append, List.filter_cons_of_neg (by simpa using hremoved), hbackEq,
      List.filter_append, hnone, List.filter_cons_of_pos (by simpa using hnextKept),
      List.nil_append]
  intro hleftLinked
  have hchained : next.prevHash = chainTail (front ++ r :: between) := by
    refine hlink (front ++ r :: between) next rest ?_
    rw [hrows, hbackEq]
    simp
  have hchainedLeft := hleftLinked _ next _ hleft
  -- The row before `next` was removed, so no row that is left carries its digest.
  obtain ⟨before, hbefore⟩ : ∃ p, (r :: between).getLast? = some p := by
    rw [← Option.isSome_iff_exists]
    simp
  have hbeforeMem := List.mem_of_getLast? hbefore
  have hbeforeRemoved : before.id ∈ ids := by
    cases List.mem_cons.mp hbeforeMem with
    | inl he => rw [he]; exact hremoved
    | inr hin => simpa using hbetween before hin
  have htail : chainTail (front ++ r :: between) = some before.entryHash := by
    rw [chainTail, List.getLast?_append, hbefore]
    rfl
  rw [hchained, htail, chainTail] at hchainedLeft
  cases hlast : (front.filter (·.id ∉ ids)).getLast? with
  | none => rw [hlast] at hchainedLeft; exact absurd hchainedLeft (by simp)
  | some last =>
    have hin := List.mem_filter.mp (List.mem_of_getLast? hlast)
    rw [hlast] at hchainedLeft
    have hhash : before.entryHash = last.entryHash := Option.some.inj hchainedLeft
    have hsame : before = last := by
      refine List.inj_on_of_nodup_map hgen.distinct ?_ ?_ hhash
      · rw [hrows, hbackEq, ← List.cons_append]
        exact List.mem_append_right _ (List.mem_append_left _ hbeforeMem)
      · rw [hrows]
        exact List.mem_append_left _ hin.1
    exact absurd (hsame ▸ hbeforeRemoved) (by simpa using hin.2)

/-- A deletion from a serial chain raises the alarm exactly when a row recorded after a
removed one is left. -/
theorem deletion_detected_iff (s : AuditStore) (calls : List RecordCall) (ids : List Int) :
    verify s ((recordAll s calls).delete ids) ≠ [] ↔
      ∃ r ∈ (recordAll s calls).rows, ∃ q ∈ (recordAll s calls).rows,
        r.id ∈ ids ∧ q.id ∉ ids ∧ r.id < q.id := by
  obtain ⟨hgen, hlink⟩ := recordAll_linked s calls
  rw [Ne, verify_delete_iff hgen hlink]
  constructor
  · intro hbroken
    by_contra hnone
    apply hbroken
    obtain ⟨gone, hgone⟩ : ((recordAll s calls).delete ids).rows <+: (recordAll s calls).rows := by
      apply delete_isPrefix
      intro r hr q hq hremoved hkept hlt
      exact hnone ⟨r, hr, q, hq, hremoved, hkept, hlt⟩
    rw [← hgone] at hlink
    exact hlink.front
  · rintro ⟨r, hr, q, hq, hremoved, hkept, hlt⟩
    exact not_linked_delete hgen hlink hr hq hremoved hkept hlt

/-- The newest row of two can be deleted without a trace. -/
theorem deletion_undetected :
    ¬ ∀ (s : AuditStore) (calls : List RecordCall) (ids : List Int),
      (∃ r ∈ (recordAll s calls).rows, r.id ∈ ids) →
        verify s ((recordAll s calls).delete ids) ≠ [] := by
  intro h
  have hquiet : verify sampleStore
      ((recordAll sampleStore [sampleCall "1" 0, sampleCall "3" 2]).delete [2]) = [] := by
    decide +kernel
  exact h sampleStore _ [2] (by decide +kernel) hquiet

end CFactory.Audit
