import CFactory.Audit.Deletion

/-!
# The operator's report

`audit.py:522–591`. The report splits the anomalies of one walk into acknowledged forks and
findings; its verdict is what the findings say. Acknowledging an id forgives a fork and
nothing else.
-/

namespace CFactory.Audit

open CFactory.Base
open CFactory.Model

theorem classify_id {r : AuditEntry} {digest : String} {expected : Option String}
    {rows : List AuditEntry} {b : ChainBreak} (h : classify r digest expected rows = some b) :
    b.id = r.id := by
  simp only [classify] at h
  split at h
  · rw [← Option.some.inj h]
  · split at h
    · rw [← Option.some.inj h]
    · split at h
      · exact absurd h (by simp)
      · split at h
        · rw [← Option.some.inj h]
        · rw [← Option.some.inj h]

private theorem scanFrom_ordered {s : AuditStore} {all rows : List AuditEntry}
    {expected : Option String} (h : rows.Pairwise fun r q ↦ r.id < q.id) :
    (scanFrom s all expected rows).Pairwise (fun a b ↦ a.id < b.id) ∧
      ∀ b ∈ scanFrom s all expected rows, ∃ r ∈ rows, b.id = r.id := by
  induction rows generalizing expected with
  | nil => exact ⟨.nil, fun b hb ↦ absurd hb List.not_mem_nil⟩
  | cons r rest ih =>
    obtain ⟨hhead, htail⟩ := List.pairwise_cons.mp h
    obtain ⟨hord, hids⟩ := @ih (some r.entryHash) htail
    have hfirst : ∀ b ∈ (classify r (computeEntryHash s.hmac s.secret r.values r.prevHash)
        expected all).toList, b.id = r.id := fun b hb ↦ classify_id (Option.mem_toList.mp hb)
    rw [scanFrom]
    constructor
    · rw [List.pairwise_append]
      refine ⟨?_, hord, fun a ha b hb ↦ ?_⟩
      · cases classify r (computeEntryHash s.hmac s.secret r.values r.prevHash) expected all with
        | none => exact .nil
        | some b => exact List.pairwise_singleton _ _
      · obtain ⟨q, hq, hbq⟩ := hids b hb
        rw [hfirst a ha, hbq]
        exact hhead q hq
    · intro b hb
      cases List.mem_append.mp hb with
      | inl hb => exact ⟨r, List.mem_cons_self, hfirst b hb⟩
      | inr hb =>
        obtain ⟨q, hq, hbq⟩ := hids b hb
        exact ⟨q, List.mem_cons_of_mem _ hq, hbq⟩

/-- Anomalies are reported in id order, at most one for each row. -/
theorem check_ordered (s : AuditStore) (t : AuditTable) :
    (check s t).Pairwise fun a b ↦ a.id < b.id :=
  (scanFrom_ordered t.ordered).1

/-- The sorted ids of the acknowledged forks are their ids in the order they were found. -/
theorem acknowledgedForks_eq (s : AuditStore) (t : AuditTable) (checkedAt : Time) :
    (computeReport s t checkedAt).acknowledgedForks =
      ((check s t).filter s.forgives).map ChainBreak.id := by
  show (((check s t).filter s.forgives).map ChainBreak.id).mergeSort (· ≤ ·) = _
  apply List.mergeSort_eq_self
  rw [List.pairwise_map]
  have hord := (check_ordered s t).filter s.forgives
  exact hord.imp fun h ↦ by simpa using Int.le_of_lt h

/-- What a report says of the anomalies of a table. -/
structure Reports (s : AuditStore) (t : AuditTable) (r : ChainReport) : Prop where
  tampered : r.verdict = .tampered ↔ verify s t ≠ []
  ok : r.verdict = .ok ↔ ∀ b ∈ check s t, b.kind = .forked ∧ b.id ∈ s.acknowledged
  forked : r.verdict = .forked ↔
    verify s t = [] ∧ ∃ b ∈ check s t, ¬ (b.kind = .forked ∧ b.id ∈ s.acknowledged)
  findings : r.findings = (check s t).filter fun b ↦ !s.forgives b
  acknowledged : r.acknowledgedForks = ((check s t).filter s.forgives).map ChainBreak.id
  split : (r.findings.map ChainBreak.id ++ r.acknowledgedForks).Perm
    ((check s t).map ChainBreak.id)
  disjoint : ∀ b ∈ r.findings, b.id ∉ r.acknowledgedForks

private theorem forgives_iff {s : AuditStore} {b : ChainBreak} :
    s.forgives b = true ↔ b.kind = .forked ∧ b.id ∈ s.acknowledged := by
  rw [AuditStore.forgives, decide_eq_true_iff]

/-- The alarm rings exactly when a finding is no fork: no configuration forgives one. -/
private theorem any_finding_iff {s : AuditStore} {t : AuditTable} :
    ((check s t).filter fun b ↦ !s.forgives b).any (fun b ↦ b.kind ≠ .forked) = true ↔
      verify s t ≠ [] := by
  rw [Ne, verify_eq_nil_iff, List.any_eq_true]
  constructor
  · rintro ⟨b, hb, hkind⟩ hforks
    exact of_decide_eq_true hkind (hforks b (List.mem_filter.mp hb).1)
  · intro h
    by_contra hnone
    apply h
    intro b hb
    by_contra hkind
    refine hnone ⟨b, List.mem_filter.mpr ⟨hb, ?_⟩, by simpa using hkind⟩
    cases hf : s.forgives b with
    | false => rfl
    | true => exact absurd (forgives_iff.mp hf).1 hkind

private theorem findings_eq_nil_iff {s : AuditStore} {t : AuditTable} :
    ((check s t).filter fun b ↦ !s.forgives b) = [] ↔
      ∀ b ∈ check s t, b.kind = .forked ∧ b.id ∈ s.acknowledged := by
  rw [List.filter_eq_nil_iff]
  constructor
  · intro h b hb
    have hf := h b hb
    exact forgives_iff.mp (by simpa using hf)
  · intro h b hb
    have hf := forgives_iff.mpr (h b hb)
    simp [hf]

private theorem verify_nil_of_forgiven {s : AuditStore} {t : AuditTable}
    (h : ∀ b ∈ check s t, b.kind = .forked ∧ b.id ∈ s.acknowledged) : verify s t = [] :=
  verify_eq_nil_iff.mpr fun b hb ↦ (h b hb).1

/-- The report over a fresh walk says what the walk found. -/
theorem reports_computeReport (s : AuditStore) (t : AuditTable) (checkedAt : Time) :
    Reports s t (computeReport s t checkedAt) := by
  have hack := acknowledgedForks_eq s t checkedAt
  have hfind : (computeReport s t checkedAt).findings =
      (check s t).filter fun b ↦ !s.forgives b := rfl
  have hverdict : (computeReport s t checkedAt).verdict =
      if verify s t ≠ [] then .tampered
      else if ∃ b ∈ check s t, ¬ (b.kind = .forked ∧ b.id ∈ s.acknowledged) then .forked
      else .ok := by
    show (if ((check s t).filter fun b ↦ !s.forgives b).any (fun b ↦ b.kind ≠ .forked) = true
      then Verdict.tampered
      else if ((check s t).filter fun b ↦ !s.forgives b) ≠ [] then .forked else .ok) = _
    simp only [any_finding_iff, Ne, findings_eq_nil_iff, not_forall, exists_prop]
  constructor
  case tampered =>
    rw [hverdict]
    split
    · next h => exact ⟨fun _ ↦ h, fun _ ↦ rfl⟩
    · next h =>
      refine ⟨fun hv ↦ ?_, fun hv ↦ absurd hv h⟩
      split at hv
      · exact absurd hv (by decide)
      · exact absurd hv (by decide)
  case ok =>
    rw [hverdict]
    split
    · next h =>
      refine ⟨fun hv ↦ absurd hv (by decide), fun hall ↦ ?_⟩
      exact absurd (verify_nil_of_forgiven hall) h
    · split
      · next hsome =>
        refine ⟨fun hv ↦ absurd hv (by decide), fun hall ↦ ?_⟩
        obtain ⟨b, hb, hnot⟩ := hsome
        exact absurd (hall b hb) hnot
      · next hnone =>
        refine ⟨fun _ b hb ↦ ?_, fun _ ↦ rfl⟩
        by_contra hnot
        exact hnone ⟨b, hb, hnot⟩
  case forked =>
    rw [hverdict]
    split
    · next h => exact ⟨fun hv ↦ absurd hv (by decide), fun hv ↦ absurd hv.1 h⟩
    · next h =>
      split
      · next hsome => exact ⟨fun _ ↦ ⟨not_not.mp h, hsome⟩, fun _ ↦ rfl⟩
      · next hnone => exact ⟨fun hv ↦ absurd hv (by decide), fun hv ↦ absurd hv.2 hnone⟩
  case findings => exact hfind
  case acknowledged => exact hack
  case split =>
    rw [hfind, hack, ← List.map_append]
    apply List.Perm.map
    have hperm := List.filter_append_perm (fun b ↦ !s.forgives b) (check s t)
    simpa using hperm
  case disjoint =>
    rw [hfind, hack]
    intro b hb hin
    obtain ⟨hb, hkept⟩ := List.mem_filter.mp hb
    obtain ⟨a, ha, hid⟩ := List.mem_map.mp hin
    obtain ⟨ha, hforgiven⟩ := List.mem_filter.mp ha
    -- Ids are distinct, so the acknowledged anomaly of this id is the finding itself.
    have hnodup : ((check s t).map ChainBreak.id).Nodup := by
      rw [List.nodup_iff_pairwise_ne, List.pairwise_map]
      exact (check_ordered s t).imp fun h ↦ by omega
    have hsame : a = b := List.inj_on_of_nodup_map hnodup ha hb hid
    rw [hsame] at hforgiven
    rw [hforgiven] at hkept
    exact absurd hkept (by decide)

/-- Serial chains are silent, and a report that is not served from the cache says what the
walk found: acknowledged ids forgive forks and nothing else. -/
theorem audit_verdicts (s : AuditStore) :
    (∀ calls : List RecordCall, check s (recordAll s calls) = []) ∧
      ∀ (t : AuditTable) (cached : Option ChainReport) (now checkedAt : Time),
        (∀ last ∈ cached, reportTtl ≤ now - last.checkedAt) →
          Reports s t (report s t cached now checkedAt) := by
  refine ⟨check_recordAll s, fun t cached now checkedAt hstale ↦ ?_⟩
  have hfresh : report s t cached now checkedAt = computeReport s t checkedAt := by
    cases cached with
    | none => rfl
    | some last =>
      have hold := hstale last rfl
      simp only [report]
      rw [if_neg (Int.not_lt.mpr hold)]
  rw [hfresh]
  exact reports_computeReport s t checkedAt

/-- A report served an hour ago is not served again. -/
theorem audit_verdicts_stale :
    Reports sampleStore (recordAll sampleStore [sampleCall "1" 0, sampleCall "3" 2])
      (report sampleStore (recordAll sampleStore [sampleCall "1" 0, sampleCall "3" 2])
        (some ⟨.forked, 2, 0, [], []⟩) 3600000000 3600000001) :=
  (audit_verdicts sampleStore).2 _ _ _ _ fun last hlast ↦ by
    rw [← Option.some.inj hlast]
    decide

end CFactory.Audit
