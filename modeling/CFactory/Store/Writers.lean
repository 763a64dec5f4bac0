import CFactory.Store.Table

/-!
# The five writers

`store.py:178–227,467–701`. `upsert_from_event`, `upsert_snapshot`, `reconcile_snapshot`,
`prune_dead` and `prune_duplicate_stages`, and what each makes of the row under a key.
-/

namespace CFactory.Store

open CFactory.Base CFactory.Model CFactory.Status

/-! ### Statements -/

/-- The statements of the two upserts. A select names the scope of the store that issues it. -/
inductive StoreOp where
  | select (scope : Option String) (key : String)
  | insert (row : WorkItemRow)
  | update (key : String) (ch : RowChanges)

/-- Answers to `StoreOp`; an insert answers false for an `IntegrityError`. -/
abbrev StoreOp.Res : StoreOp → Type
  | .select _ _ => Option WorkItemRow
  | .insert _ => Bool
  | .update _ _ => Unit

/-- Programs of the store. -/
abbrev StoreM := Prog StoreOp StoreOp.Res

/-- Update the row under a key, which is the row that was selected. -/
def updateRow (t : WorkItemTable) (key : String) (ch : RowChanges) : WorkItemTable :=
  t.act fun r ↦ if r.key = key then .change ch else .keep

/-- Execute one statement. -/
def storeHandler : Handler StoreOp StoreOp.Res WorkItemTable
  | .select scope key, t => (t.getRow scope key, t)
  | .insert row, t => t.insert row
  | .update key ch, t => ((), updateRow t key ch)

/-- What a store call raises. -/
inductive StoreError where
  | integrityError
  deriving DecidableEq

/-- `for attempt in range(2)`: an `IntegrityError` is retried once and then raised. -/
def withRetry {α : Type} (attempt : StoreM (Option α)) : StoreM (Except StoreError α) := do
  match ← attempt with
  | some a => return .ok a
  | none =>
    match ← attempt with
    | some a => return .ok a
    | none => return .error .integrityError

/-- The tenant that a store's writes stamp. -/
def tenantOf (scope : Option String) : String :=
  if truthy scope then scope.getD "" else DEFAULT_TENANT

/-- A work item before its first write. -/
def newItem (key : String) (now : Time) : WorkItem :=
  { correlationKey := key, createdAt := now, updatedAt := now }

/-- The transaction that both upserts make: select the row, revise it or leave it, or insert
a fresh one. The flag says whether anything was written. -/
def upsert (scope : Option String) (key : String) (revise : WorkItem → Option RowChanges)
    (fresh : WorkItem) : StoreM (Except StoreError (WorkItem × Bool)) :=
  withRetry do
    match ← Prog.perform (StoreOp.select scope key) with
    | some row =>
      match revise row.item with
      | none => return some (row.item, false)
      | some ch =>
        let _ ← Prog.perform (StoreOp.update row.key ch)
        return some (ch.apply row.item, true)
    | none =>
      if ← Prog.perform (StoreOp.insert ⟨tenantOf scope, fresh⟩) then return some (fresh, true)
      else return none

/-! ### Ingesting an event -/

/-- `_already_recorded`; `store.py:178–227`. -/
def alreadyRecorded (timeline : List CompletionEvent) (event : CompletionEvent) : Bool :=
  if isWorkerProgressEvent event then false
  else if truthy event.id then timeline.any fun e ↦ e.id == event.id
  else if isWorkerEvent event then
    timeline.any fun e ↦ e.service == event.service &&
      e.worker.map WorkerUsage.workerId == event.worker.map WorkerUsage.workerId
  else false

/-- The columns an event assigns; a heartbeat leaves the timeline alone. -/
def eventChanges (item : WorkItem) (event : CompletionEvent) (now : Time) : RowChanges :=
  { slice := some (event.service, applyEvent (item.slice event.service) event)
    timeline := if isWorkerProgressEvent event then none else some (item.timeline ++ [event])
    updatedAt := now }

/-- The work item an event leaves. -/
def ingest (item : WorkItem) (event : CompletionEvent) (now : Time) : WorkItem :=
  (eventChanges item event now).apply item

/-- What an event makes of its row: nothing, if it is already recorded. -/
def reviseByEvent (event : CompletionEvent) (now : Time) (item : WorkItem) : Option RowChanges :=
  if alreadyRecorded item.timeline event then none else some (eventChanges item event now)

/-- `upsert_from_event`; `store.py:467–524`. -/
def upsertFromEvent (scope : Option String) (event : CompletionEvent) (now : Time) :
    StoreM (Except StoreError (WorkItem × Bool)) :=
  upsert scope event.correlationKey (reviseByEvent event now)
    (ingest (newItem event.correlationKey now) event now)

/-! ### Ingesting a snapshot -/

/-- A polled snapshot on its way into the store. -/
structure Snapshot where
  correlationKey : String
  service : Service
  state : ServiceState
  title : Option String := none
  newest : Bool := false

/-- The row has no title yet and the snapshot brings one. -/
def titleNeeded (snap : Snapshot) (item : WorkItem) : Bool :=
  truthy snap.title && !truthy item.title

/-- The slice a snapshot writes over an existing one. -/
def Snapshot.slice (snap : Snapshot) (item : WorkItem) : ServiceState :=
  carryForward (item.slice snap.service) snap.state

/-- The row is left as it is, clock included; `store.py:586–605`. -/
def skips (snap : Snapshot) (item : WorkItem) : Bool :=
  unchanged (item.slice snap.service) (snap.slice item) (titleNeeded snap item) ||
    superseded (item.slice snap.service) (snap.slice item) snap.newest

/-- The columns a snapshot assigns. -/
def snapshotChanges (snap : Snapshot) (item : WorkItem) (now : Time) : RowChanges :=
  { slice := some (snap.service, snap.slice item)
    title := if titleNeeded snap item then snap.title else none
    updatedAt := now }

/-- What a snapshot makes of its row. -/
def reviseBySnapshot (snap : Snapshot) (now : Time) (item : WorkItem) : Option RowChanges :=
  if skips snap item then none else some (snapshotChanges snap item now)

/-- The work item a snapshot creates. -/
def snapshotItem (snap : Snapshot) (now : Time) : WorkItem :=
  (snapshotChanges snap (newItem snap.correlationKey now) now).apply
    (newItem snap.correlationKey now)

/-- `upsert_snapshot`; `store.py:526–605`. -/
def upsertSnapshot (scope : Option String) (snap : Snapshot) (now : Time) :
    StoreM (Except StoreError WorkItem) := do
  let r ← upsert scope snap.correlationKey (reviseBySnapshot snap now) (snapshotItem snap now)
  return r.map Prod.fst

/-! ### Housekeeping -/

/-- What `reconcile_snapshot` does to a row; `store.py:621–630`. -/
def reconcileAction (scope : Option String) (service : Service) (liveTaskIds : List String)
    (now : Time) (r : WorkItemRow) : RowAction :=
  let data := r.item.slice service
  if !inScope scope r || !truthy data.status || isTerminal data.status ||
      isDeadStage data.status then .keep
  else
    match data.taskId with
    | none => .keep
    | some taskId =>
      if taskId ∈ liveTaskIds then .keep
      else .change { slice := some (service, .blank), updatedAt := now }

/-- `reconcile_snapshot`; `store.py:607–631`. -/
def reconcileSnapshot (t : WorkItemTable) (scope : Option String) (service : Service)
    (liveTaskIds : List String) (now : Time) : WorkItemTable :=
  t.act (reconcileAction scope service liveTaskIds now)

/-- The current stage of a row: its furthest slice with a status; `store.py:653–660`. -/
def frontier (item : WorkItem) : Option ServiceState :=
  ([Service.tfactory, .aifactory, .pfactory].map item.slice).find? fun s ↦ truthy s.status

/-- What `prune_dead` does to a row; the age limit is in microseconds; `store.py:652–672`. -/
def pruneDeadAction (scope : Option String) (now maxAge : Time) (r : WorkItemRow) : RowAction :=
  match frontier r.item with
  | none => .keep
  | some data =>
    if inScope scope r ∧ isDeadStage data.status ∧ now - r.item.updatedAt > maxAge then .delete
    else .keep

/-- `prune_dead`; `store.py:633–673`. -/
def pruneDead (t : WorkItemTable) (scope : Option String) (now maxAge : Time) : WorkItemTable :=
  t.act (pruneDeadAction scope now maxAge)

/-- `_row_has_stage_data`; `store.py:115–122`. -/
def rowHasStageData (item : WorkItem) : Bool :=
  [Service.pfactory, .aifactory, .tfactory].any fun s ↦
    truthy (item.slice s).status || truthy (item.slice s).taskId

/-- What `prune_duplicate_stages` does to a row; `store.py:688–700`. -/
def pruneDuplicateAction (scope : Option String) (service : Service)
    (taskIdToKey : String → Option String) (now : Time) (r : WorkItemRow) : RowAction :=
  match (r.item.slice service).taskId.bind taskIdToKey with
  | none => .keep
  | some canon =>
    if inScope scope r ∧ canon ≠ r.key then
      let ch : RowChanges := { slice := some (service, .blank), updatedAt := now }
      if rowHasStageData (ch.apply r.item) then .change ch else .delete
    else .keep

/-- `prune_duplicate_stages`; `store.py:675–701`. -/
def pruneDuplicateStages (t : WorkItemTable) (scope : Option String) (service : Service)
    (taskIdToKey : String → Option String) (now : Time) : WorkItemTable :=
  t.act (pruneDuplicateAction scope service taskIdToKey now)

/-- What `delete` does to a row. -/
def deleteAction (scope : Option String) (key : String) (r : WorkItemRow) : RowAction :=
  if inScope scope r ∧ r.key = key then .delete else .keep

/-- `delete`; `store.py:713–727`. -/
def deleteItem (t : WorkItemTable) (scope : Option String) (key : String) :
    Bool × WorkItemTable :=
  ((t.getRow scope key).isSome, t.act (deleteAction scope key))

/-- What housekeeping does to a row: it keeps the row, clears one slice, or deletes the row. -/
inductive Tidies (service : Service) : RowAction → Prop
  | keep : Tidies service .keep
  | clear (now : Time) :
    Tidies service (.change { slice := some (service, .blank), updatedAt := now })
  | delete : Tidies service .delete

/-- Reconciling is housekeeping of its slice. -/
theorem tidies_reconcile (scope : Option String) (service : Service) (liveTaskIds : List String)
    (now : Time) (r : WorkItemRow) :
    Tidies service (reconcileAction scope service liveTaskIds now r) := by
  simp only [reconcileAction]
  split
  · exact .keep
  · split
    · exact .keep
    · split
      · exact .keep
      · exact .clear now

/-- Reconciling deletes no row. -/
theorem reconcile_survives (scope : Option String) (service : Service)
    (liveTaskIds : List String) (now : Time) (r : WorkItemRow) :
    ∃ q, (reconcileAction scope service liveTaskIds now r).run r = some q := by
  simp only [reconcileAction]
  split
  · exact ⟨_, rfl⟩
  · split
    · exact ⟨_, rfl⟩
    · split <;> exact ⟨_, rfl⟩

/-- Pruning the dead leaves the rows that it keeps alone. -/
theorem pruneDead_kept {scope : Option String} {now maxAge : Time} {r q : WorkItemRow}
    (h : (pruneDeadAction scope now maxAge r).run r = some q) : q = r := by
  unfold pruneDeadAction at h
  split at h
  · exact (Option.some.inj h).symm
  · split at h
    · exact absurd h (by simp [RowAction.run])
    · exact (Option.some.inj h).symm

/-- Pruning the dead is housekeeping of any slice. -/
theorem tidies_pruneDead (service : Service) (scope : Option String) (now maxAge : Time)
    (r : WorkItemRow) : Tidies service (pruneDeadAction scope now maxAge r) := by
  unfold pruneDeadAction
  split
  · exact .keep
  · split
    · exact .delete
    · exact .keep

/-- Pruning duplicates is housekeeping of its slice. -/
theorem tidies_pruneDuplicate (scope : Option String) (service : Service)
    (taskIdToKey : String → Option String) (now : Time) (r : WorkItemRow) :
    Tidies service (pruneDuplicateAction scope service taskIdToKey now r) := by
  unfold pruneDuplicateAction
  split
  · exact .keep
  · split
    · simp only
      split
      · exact .clear now
      · exact .delete
    · exact .keep

section
variable {service : Service} {a : RowAction} {r q : WorkItemRow}

/-- Housekeeping leaves the timeline of a row that survives alone. -/
theorem Tidies.timeline (h : Tidies service a) (hrun : a.run r = some q) :
    q.item.timeline = r.item.timeline := by
  cases h with
  | keep => rw [← Option.some.inj hrun]
  | clear now =>
    rw [← Option.some.inj hrun]
    rfl
  | delete => exact absurd hrun (by simp [RowAction.run])

/-- Housekeeping leaves the title of a row that survives alone. -/
theorem Tidies.title (h : Tidies service a) (hrun : a.run r = some q) :
    q.item.title = r.item.title := by
  cases h with
  | keep => rw [← Option.some.inj hrun]
  | clear now =>
    rw [← Option.some.inj hrun]
    rfl
  | delete => exact absurd hrun (by simp [RowAction.run])

/-- Housekeeping of one slice leaves the other slices of a row that survives alone. -/
theorem Tidies.slice_other (h : Tidies service a) (hrun : a.run r = some q) {other : Service}
    (hother : other ≠ service) : q.item.slice other = r.item.slice other := by
  cases h with
  | keep => rw [← Option.some.inj hrun]
  | clear now =>
    rw [← Option.some.inj hrun]
    exact Function.update_of_ne hother _ _
  | delete => exact absurd hrun (by simp [RowAction.run])

/-- Housekeeping leaves its slice of a row that survives, or clears it. -/
theorem Tidies.slice_own (h : Tidies service a) (hrun : a.run r = some q) :
    q.item.slice service = r.item.slice service ∨ q.item.slice service = .blank := by
  cases h with
  | keep =>
    rw [← Option.some.inj hrun]
    exact Or.inl rfl
  | clear now =>
    rw [← Option.some.inj hrun]
    exact Or.inr (Function.update_self _ _ _)
  | delete => exact absurd hrun (by simp [RowAction.run])

end

/-! ### What an upsert makes of a row -/

/-- The row under a key after an upsert of that key. A row of another tenant makes both
passes fail and stays as it is. -/
def upsertRow (scope : Option String) (revise : WorkItem → Option RowChanges) (fresh : WorkItem) :
    Option WorkItemRow → WorkItemRow
  | none => ⟨tenantOf scope, fresh⟩
  | some r =>
    if inScope scope r then { r with item := (revise r.item).elim r.item fun ch ↦ ch.apply r.item }
    else r

/-- What an upsert returns or raises. -/
def upsertResult (scope : Option String) (revise : WorkItem → Option RowChanges)
    (fresh : WorkItem) : Option WorkItemRow → Except StoreError (WorkItem × Bool)
  | none => .ok (fresh, true)
  | some r =>
    if inScope scope r then
      .ok ((revise r.item).elim (r.item, false) fun ch ↦ (ch.apply r.item, true))
    else .error .integrityError

/-- A removal takes the row under its key, if it is in scope, and no other. -/
theorem row_deleteItem (t : WorkItemTable) (scope : Option String) (key k : String) :
    (deleteItem t scope key).2.row? k =
      if k = key then (t.row? k).filter (fun r ↦ !inScope scope r) else t.row? k := by
  rw [deleteItem, WorkItemTable.row_act]
  cases h : t.row? k with
  | none => simp
  | some r =>
    have hr : r.key = k := WorkItemTable.key_of_row h
    rw [Option.bind_some, deleteAction, hr]
    by_cases hk : k = key
    · rw [if_pos hk, Option.filter_some]
      cases inScope scope r <;> simp [hk, RowAction.run]
    · rw [if_neg hk, if_neg fun hboth ↦ hk hboth.2]
      rfl

/-- Updating one key changes that row alone. -/
theorem row_updateRow (t : WorkItemTable) (key : String) (ch : RowChanges) (k : String) :
    (updateRow t key ch).row? k =
      if k = key then (t.row? k).map fun r ↦ { r with item := ch.apply r.item }
      else t.row? k := by
  rw [updateRow, WorkItemTable.row_act]
  cases h : t.row? k with
  | none => simp
  | some r =>
    have hr : r.key = k := WorkItemTable.key_of_row h
    rw [Option.bind_some, hr]
    by_cases hk : k = key
    · rw [if_pos hk, if_pos hk]
      rfl
    · rw [if_neg hk, if_neg hk]
      rfl

/-- An upsert that leaves its row as it is only reads. -/
theorem run_upsert_kept {t : WorkItemTable} {scope : Option String} {key : String}
    {revise : WorkItem → Option RowChanges} {row : WorkItemRow}
    (hrow : t.getRow scope key = some row) (hkeep : revise row.item = none) (fresh : WorkItem) :
    Prog.run storeHandler (upsert scope key revise fresh) t = (.ok (row.item, false), t) := by
  unfold upsert withRetry
  rw [bind_assoc, Prog.perform_bind, Prog.run_op]
  simp only [storeHandler]
  rw [hrow]
  simp only [hkeep, Prog.pure_bind, Prog.run_pure]

/-- An upsert changes the row under its key, and answers accordingly. -/
theorem run_upsert (t : WorkItemTable) (scope : Option String) (key : String)
    (revise : WorkItem → Option RowChanges) (fresh : WorkItem)
    (hfresh : fresh.correlationKey = key) :
    (Prog.run storeHandler (upsert scope key revise fresh) t).1 =
        upsertResult scope revise fresh (t.row? key) ∧
      ∀ k, (Prog.run storeHandler (upsert scope key revise fresh) t).2.row? k =
        if k = key then some (upsertRow scope revise fresh (t.row? k)) else t.row? k := by
  have hget := t.getRow_eq scope key
  obtain ⟨hins, hrows⟩ := t.insert_eq ⟨tenantOf scope, fresh⟩
  have hkey : WorkItemRow.key ⟨tenantOf scope, fresh⟩ = key := hfresh
  rw [hkey] at hins hrows
  unfold upsert withRetry
  rw [bind_assoc, Prog.perform_bind, Prog.run_op]
  simp only [storeHandler]
  cases hrow : t.row? key with
  | none =>
    rw [hrow, Option.filter_none] at hget
    rw [hrow, Option.isNone_none] at hins
    rw [hget]
    simp only [Prog.perform_bind, Prog.op_bind, Prog.run_op, storeHandler, hins, ↓reduceIte,
      Prog.pure_bind, Prog.run_pure]
    refine ⟨rfl, ?_⟩
    intro k
    rw [hrows]
    by_cases hk : k = key
    · rw [if_pos hk, if_pos hk, hk, hrow]
      rfl
    · rw [if_neg hk, if_neg hk]
  | some r =>
    rw [hrow] at hget
    rw [hrow, Option.isNone_some] at hins
    by_cases hs : inScope scope r = true
    · have hget : t.getRow scope key = some r := by
        rw [hget, Option.filter_some, if_pos hs]
      rw [hget]
      simp only [upsertResult, upsertRow, hs, ↓reduceIte]
      cases hrev : revise r.item with
      | none =>
        simp only [Prog.pure_bind, Prog.run_pure]
        refine ⟨rfl, ?_⟩
        intro k
        by_cases hk : k = key
        · rw [if_pos hk, hk, hrow]
          simp [hs, hrev]
        · rw [if_neg hk]
      | some ch =>
        simp only [Prog.perform_bind, Prog.op_bind, Prog.run_op, storeHandler, Prog.pure_bind,
          Prog.run_pure]
        refine ⟨rfl, ?_⟩
        intro k
        have hr : r.key = key := WorkItemTable.key_of_row hrow
        rw [row_updateRow, hr]
        by_cases hk : k = key
        · rw [if_pos hk, if_pos hk, hk, hrow]
          simp [hs, hrev]
        · rw [if_neg hk, if_neg hk]
    · have hget : t.getRow scope key = none := by
        rw [hget, Option.filter_some, if_neg hs]
      have htaken : t.insert ⟨tenantOf scope, fresh⟩ = (false, t) :=
        WorkItemTable.insert_of_taken (hkey ▸ hrow)
      rw [hget]
      simp only [Prog.perform_bind, Prog.op_bind, Prog.run_op, storeHandler, htaken,
        Bool.false_eq_true, ↓reduceIte, Prog.pure_bind, hget, Prog.run_pure]
      simp only [upsertResult, upsertRow, hs, Bool.false_eq_true, ↓reduceIte, true_and]
      intro k
      by_cases hk : k = key
      · rw [if_pos hk, hk, hrow]
        simp [hs]
      · rw [if_neg hk]

end CFactory.Store
