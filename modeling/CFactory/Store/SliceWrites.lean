import CFactory.Store.Workers

/-!
# What is written to one slice

`store.py:467–701`. A slice is written by the events that are applied to its row, by the polls that
are not skipped, and by the housekeeping that blanks it. Along a run that keeps the row, the slice
is what these writes make of it, one after the other.
-/

namespace CFactory.Store

open CFactory.Base CFactory.Model CFactory.Status

/-! ## One write -/

/-- A write of one slice. -/
inductive SliceWrite where
  | event (event : CompletionEvent)
  | snapshot (state : ServiceState)
  | clear

/-- The slice after a write. -/
def SliceWrite.apply (s : ServiceState) : SliceWrite → ServiceState
  | .event e => applyEvent s e
  | .snapshot state => carryForward s state
  | .clear => .blank

/-- The slice of a service in a row; a row that is not there has none. -/
def sliceOf (row : Option WorkItemRow) (service : Service) : ServiceState :=
  (row.map fun r ↦ r.item.slice service).getD .column

@[simp] theorem sliceOf_some (r : WorkItemRow) (service : Service) :
    sliceOf (some r) service = r.item.slice service := rfl

@[simp] theorem sliceOf_none (service : Service) : sliceOf none service = .column := rfl

theorem sliceOf_row (t : WorkItemTable) (key : String) (service : Service) :
    sliceOf (t.row? key) service = sliceAt t key service := rfl

/-- The row applies the event: `upsert_from_event` returns `True`. -/
def applies (call : StoreCall) (event : CompletionEvent) (row : Option WorkItemRow) : Bool :=
  row.all fun r ↦ inScope call.scope r && !alreadyRecorded r.item.timeline event

/-- The row takes the snapshot. -/
def polls (call : StoreCall) (snap : Snapshot) (row : Option WorkItemRow) : Bool :=
  row.all fun r ↦ inScope call.scope r && !skips snap r.item

/-- Housekeeping of a row blanks a slice. -/
def RowAction.clears (service : Service) : RowAction → Bool
  | .change ch => ch.slice.any fun written ↦ written.1 == service
  | _ => false

/-- What a call writes to a slice of the row under a key. -/
def StoreCall.sliceWrite (key : String) (service : Service) (call : StoreCall)
    (row : Option WorkItemRow) : Option SliceWrite :=
  match call.writer with
  | .event event =>
    if event.correlationKey = key ∧ event.service = service ∧ applies call event row = true then
      some (.event event)
    else none
  | .snapshot snap =>
    if snap.correlationKey = key ∧ snap.service = service ∧ polls call snap row = true then
      some (.snapshot snap.state)
    else none
  | .reconcile of ids =>
    if row.any fun r ↦ (reconcileAction call.scope of ids call.now r).clears service then
      some .clear
    else none
  | .pruneDead _ => none
  | .pruneDuplicates of canon =>
    if row.any fun r ↦ (pruneDuplicateAction call.scope of canon call.now r).clears service then
      some .clear
    else none

/-- An event is applied where `upsert_from_event` says so. -/
theorem applies_iff (t : WorkItemTable) (call : StoreCall) (event : CompletionEvent) :
    applies call event (t.row? event.correlationKey) = true ↔
      ∃ item, (deliver t call.scope event call.now).1 = .ok (item, true) := by
  rw [result_deliver]
  cases t.row? event.correlationKey with
  | none => exact ⟨fun _ ↦ ⟨_, rfl⟩, fun _ ↦ rfl⟩
  | some r =>
    simp only [applies, Option.all_some, upsertResult, reviseByEvent]
    cases hs : inScope call.scope r with
    | false => simp
    | true =>
      cases hrec : alreadyRecorded r.item.timeline event with
      | true => simp
      | false => simp

/-! ## One call -/

section
variable {key : String} {service : Service} {call : StoreCall} {row : Option WorkItemRow}

private theorem slice_event {event : CompletionEvent} {now : Time} :
    (upsertRow call.scope (reviseByEvent event now) (ingest (newItem event.correlationKey now)
      event now) row).item.slice service =
      if event.service = service ∧ applies call event row = true then
        applyEvent (sliceOf row service) event
      else sliceOf row service := by
  cases row with
  | none =>
    rw [upsertRow, slice_ingest]
    simp only [applies, Option.all_none, and_true]
    rfl
  | some r =>
    simp only [upsertRow, applies, Option.all_some, sliceOf_some, Bool.and_eq_true,
      Bool.not_eq_true', reviseByEvent]
    by_cases hs : inScope call.scope r = true
    · rw [if_pos hs]
      cases hrec : alreadyRecorded r.item.timeline event with
      | true => simp
      | false =>
        rw [if_neg Bool.false_ne_true, Option.elim_some]
        simp only [hs, and_self, and_true]
        exact slice_ingest r.item event now service
    · rw [if_neg hs, if_neg fun h ↦ hs h.2.1]

private theorem slice_snapshot {snap : Snapshot} {now : Time} :
    (upsertRow call.scope (reviseBySnapshot snap now) (snapshotItem snap now) row).item.slice
      service =
      if snap.service = service ∧ polls call snap row = true then
        carryForward (sliceOf row service) snap.state
      else sliceOf row service := by
  have hchanges : ∀ item : WorkItem, ((snapshotChanges snap item now).apply item).slice service =
      if snap.service = service then carryForward (item.slice service) snap.state
      else item.slice service := by
    intro item
    rw [snapshotChanges, RowChanges.apply]
    dsimp only
    by_cases hservice : snap.service = service
    · subst hservice
      rw [if_pos rfl, Function.update_self]
      rfl
    · rw [if_neg hservice, Function.update_of_ne (Ne.symm hservice)]
  cases row with
  | none =>
    rw [upsertRow, snapshotItem, hchanges]
    simp only [polls, Option.all_none, and_true]
    rfl
  | some r =>
    simp only [upsertRow, polls, Option.all_some, sliceOf_some, Bool.and_eq_true,
      Bool.not_eq_true', reviseBySnapshot]
    by_cases hs : inScope call.scope r = true
    · rw [if_pos hs]
      cases hskip : skips snap r.item with
      | true => simp
      | false =>
        rw [if_neg Bool.false_ne_true, Option.elim_some, hchanges]
        simp only [hs, and_self, and_true]
    · rw [if_neg hs, if_neg fun h ↦ hs h.2.1]

private theorem slice_tidied {a : RowAction} {r q : WorkItemRow} {of : Service}
    (h : Tidies of a) (hrun : a.run r = some q) :
    q.item.slice service = if a.clears service then .blank else r.item.slice service := by
  cases h with
  | keep =>
    rw [← Option.some.inj hrun]
    rfl
  | clear now =>
    rw [← Option.some.inj hrun]
    show Function.update r.item.slice of .blank service = _
    by_cases hservice : of = service
    · subst hservice
      simp [RowAction.clears]
    · simp [RowAction.clears, hservice, Function.update_of_ne (Ne.symm hservice)]
  | delete => cases hrun

/-- A call that leaves a row writes to its slice what `sliceWrite` tells. -/
theorem slice_onRow {q : WorkItemRow} (h : call.onRow key row = some q) :
    q.item.slice service =
      ((call.sliceWrite key service row).map (SliceWrite.apply (sliceOf row service))).getD
        (sliceOf row service) := by
  unfold StoreCall.onRow at h
  unfold StoreCall.sliceWrite
  cases hcall : call.writer with
  | event event =>
    simp only [hcall] at h
    by_cases hkey : key = event.correlationKey
    · rw [if_pos hkey] at h
      rw [← Option.some.inj h, slice_event]
      simp only [hkey, true_and]
      split
      · rfl
      · rfl
    · rw [if_neg hkey] at h
      dsimp only
      rw [h, if_neg fun both ↦ hkey both.1.symm]
      rfl
  | snapshot snap =>
    simp only [hcall] at h
    by_cases hkey : key = snap.correlationKey
    · rw [if_pos hkey] at h
      rw [← Option.some.inj h, slice_snapshot]
      simp only [hkey, true_and]
      split
      · rfl
      · rfl
    · rw [if_neg hkey] at h
      dsimp only
      rw [h, if_neg fun both ↦ hkey both.1.symm]
      rfl
  | reconcile of ids =>
    simp only [hcall] at h
    obtain ⟨r, rfl, hrun⟩ := Option.bind_eq_some_iff.mp h
    rw [slice_tidied (tidies_reconcile _ _ _ _ _) hrun]
    simp only [Option.any_some]
    split
    · rfl
    · rfl
  | pruneDead maxAge =>
    simp only [hcall] at h
    obtain ⟨r, rfl, hrun⟩ := Option.bind_eq_some_iff.mp h
    rw [pruneDead_kept hrun]
    rfl
  | pruneDuplicates of canon =>
    simp only [hcall] at h
    obtain ⟨r, rfl, hrun⟩ := Option.bind_eq_some_iff.mp h
    rw [slice_tidied (tidies_pruneDuplicate _ _ _ _ _) hrun]
    simp only [Option.any_some]
    split
    · rfl
    · rfl

/-- What a call writes is its event, its snapshot, or a blank slice. -/
theorem sliceWrite_cases {w : SliceWrite} (h : call.sliceWrite key service row = some w) :
    (∃ event, call.writer = .event event ∧ w = .event event) ∨
      (∃ snap, call.writer = .snapshot snap ∧ w = .snapshot snap.state) ∨ w = .clear := by
  unfold StoreCall.sliceWrite at h
  cases hcall : call.writer with
  | event event =>
    simp only [hcall, Option.ite_none_right_eq_some] at h
    exact .inl ⟨event, rfl, (Option.some.inj h.2).symm⟩
  | snapshot snap =>
    simp only [hcall, Option.ite_none_right_eq_some] at h
    exact .inr (.inl ⟨snap, rfl, (Option.some.inj h.2).symm⟩)
  | reconcile of ids =>
    simp only [hcall, Option.ite_none_right_eq_some] at h
    exact .inr (.inr (Option.some.inj h.2).symm)
  | pruneDead maxAge =>
    simp only [hcall] at h
    cases h
  | pruneDuplicates of canon =>
    simp only [hcall, Option.ite_none_right_eq_some] at h
    exact .inr (.inr (Option.some.inj h.2).symm)

/-- Where there is no row before and after a call, it writes to none. -/
theorem sliceWrite_of_absent (h : call.onRow key none = none) :
    call.sliceWrite key service none = none := by
  unfold StoreCall.onRow at h
  unfold StoreCall.sliceWrite
  cases hcall : call.writer with
  | event event =>
    simp only [hcall] at h
    split at h
    · cases h
    · next hkey => exact if_neg fun both ↦ hkey both.1.symm
  | snapshot snap =>
    simp only [hcall] at h
    split at h
    · cases h
    · next hkey => exact if_neg fun both ↦ hkey both.1.symm
  | reconcile of ids => rfl
  | pruneDead maxAge => rfl
  | pruneDuplicates of canon => rfl

/-- A call that leaves a row out deletes it, or finds none. -/
theorem onRow_eq_none (h : call.onRow key row = none) (hrow : row ≠ none) :
    (∃ maxAge, call.writer = .pruneDead maxAge) ∨
      ∃ of canon, call.writer = .pruneDuplicates of canon := by
  unfold StoreCall.onRow at h
  cases hcall : call.writer with
  | event event =>
    simp only [hcall] at h
    split at h
    · cases h
    · exact absurd h hrow
  | snapshot snap =>
    simp only [hcall] at h
    split at h
    · cases h
    · exact absurd h hrow
  | reconcile of ids =>
    simp only [hcall] at h
    obtain ⟨r, rfl⟩ := Option.ne_none_iff_exists'.mp hrow
    obtain ⟨q, hq⟩ := reconcile_survives call.scope of ids call.now r
    rw [Option.bind_some, hq] at h
    cases h
  | pruneDead maxAge => exact .inl ⟨maxAge, rfl⟩
  | pruneDuplicates of canon => exact .inr ⟨of, canon, rfl⟩

end

/-- Where a call leaves a row, its slice is what the call's write made of it. -/
theorem sliceAt_table {t : WorkItemTable} {key : String} (call : StoreCall)
    (h : (call.table t).row? key ≠ none) (service : Service) :
    sliceAt (call.table t) key service =
      ((call.sliceWrite key service (t.row? key)).map
        (SliceWrite.apply (sliceAt t key service))).getD (sliceAt t key service) := by
  obtain ⟨q, hrow⟩ := Option.ne_none_iff_exists'.mp h
  rw [← sliceOf_row, hrow, sliceOf_some, slice_onRow ((row_table t call key).symm.trans hrow),
    sliceOf_row]

/-- Where there is no row, a slice is the column's default. -/
theorem sliceAt_absent {t : WorkItemTable} {key : String} (h : t.row? key = none)
    (service : Service) : sliceAt t key service = .column := by
  rw [sliceAt, h]
  rfl

/-! ## Whole runs -/

/-- The writes of a run to a slice of the row under a key, in the order of its calls. -/
def sliceWrites (key : String) (service : Service) : WorkItemTable → List StoreCall →
    List SliceWrite
  | _, [] => []
  | t, call :: rest =>
    (call.sliceWrite key service (t.row? key)).toList ++ sliceWrites key service (call.table t) rest

/-- While no call deletes its row, a slice is what the writes make of it. -/
theorem sliceAt_serve (key : String) (service : Service) (calls : List StoreCall)
    (t : WorkItemTable)
    (hkept : EachStep StoreCall.table (fun t call ↦ t.row? key ≠ none →
      (call.table t).row? key ≠ none) t calls) :
    sliceAt (serve t calls) key service =
      (sliceWrites key service t calls).foldl SliceWrite.apply (sliceAt t key service) := by
  induction calls generalizing t with
  | nil => rfl
  | cons call rest ih =>
    have hone : sliceAt (call.table t) key service =
        ((call.sliceWrite key service (t.row? key)).toList).foldl SliceWrite.apply
          (sliceAt t key service) := by
      by_cases hrow : (call.table t).row? key = none
      · have habsent : t.row? key = none := by
          by_contra hpresent
          exact hkept.1 hpresent hrow
        have hnothing : call.onRow key none = none := by
          have honRow := row_table t call key
          rw [habsent, hrow] at honRow
          exact honRow.symm
        rw [habsent, sliceWrite_of_absent hnothing, sliceAt_absent hrow, sliceAt_absent habsent]
        rfl
      · rw [sliceAt_table call hrow]
        cases call.sliceWrite key service (t.row? key) with
        | none => rfl
        | some w => rfl
    rw [sliceWrites, List.foldl_append, ← hone]
    exact ih _ hkept.2

end CFactory.Store
