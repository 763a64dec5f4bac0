import CFactory.Base.Runs
import CFactory.Store.Writers

/-!
# Serial runs of the writers

`store.py:467–701`. One call is made through a store of some tenant scope, at some clock
reading, and runs to its end before the next begins. Every call works on each row by
itself, so a run can be followed key by key.
-/

namespace CFactory.Store

open CFactory.Base CFactory.Model CFactory.Status

/-- The five writers with their arguments. -/
inductive Writer where
  | event (event : CompletionEvent)
  | snapshot (snap : Snapshot)
  | reconcile (service : Service) (liveTaskIds : List String)
  | pruneDead (maxAge : Time)
  | pruneDuplicates (service : Service) (taskIdToKey : String → Option String)

/-- A call of a writer. -/
structure StoreCall where
  scope : Option String
  now : Time
  writer : Writer

/-- The outcome of one event: what `upsert_from_event` returns, and the table after it. -/
def deliver (t : WorkItemTable) (scope : Option String) (event : CompletionEvent) (now : Time) :
    Except StoreError (WorkItem × Bool) × WorkItemTable :=
  Prog.run storeHandler (upsertFromEvent scope event now) t

/-- The table after one call. -/
def StoreCall.table (t : WorkItemTable) (call : StoreCall) : WorkItemTable :=
  match call.writer with
  | .event event => (deliver t call.scope event call.now).2
  | .snapshot snap => (Prog.run storeHandler (upsertSnapshot call.scope snap call.now) t).2
  | .reconcile service liveTaskIds => reconcileSnapshot t call.scope service liveTaskIds call.now
  | .pruneDead maxAge => pruneDead t call.scope call.now maxAge
  | .pruneDuplicates service taskIdToKey =>
    pruneDuplicateStages t call.scope service taskIdToKey call.now

/-- The table after a serial run. -/
def serve (t : WorkItemTable) (calls : List StoreCall) : WorkItemTable :=
  calls.foldl StoreCall.table t

/-- What one call makes of the row under a key. -/
def StoreCall.onRow (key : String) (call : StoreCall) (row : Option WorkItemRow) :
    Option WorkItemRow :=
  match call.writer with
  | .event event =>
    if key = event.correlationKey then
      some (upsertRow call.scope (reviseByEvent event call.now)
        (ingest (newItem event.correlationKey call.now) event call.now) row)
    else row
  | .snapshot snap =>
    if key = snap.correlationKey then
      some (upsertRow call.scope (reviseBySnapshot snap call.now) (snapshotItem snap call.now) row)
    else row
  | .reconcile service liveTaskIds =>
    row.bind fun r ↦ (reconcileAction call.scope service liveTaskIds call.now r).run r
  | .pruneDead maxAge => row.bind fun r ↦ (pruneDeadAction call.scope call.now maxAge r).run r
  | .pruneDuplicates service taskIdToKey =>
    row.bind fun r ↦ (pruneDuplicateAction call.scope service taskIdToKey call.now r).run r

/-- A delivery answers by the row under the event's key. -/
theorem result_deliver (t : WorkItemTable) (scope : Option String) (event : CompletionEvent)
    (now : Time) :
    (deliver t scope event now).1 = upsertResult scope (reviseByEvent event now)
      (ingest (newItem event.correlationKey now) event now) (t.row? event.correlationKey) :=
  (run_upsert t scope event.correlationKey _ _ rfl).1

/-- A call works on the row under each key. -/
theorem row_table (t : WorkItemTable) (call : StoreCall) (key : String) :
    (call.table t).row? key = call.onRow key (t.row? key) := by
  unfold StoreCall.table StoreCall.onRow
  cases call.writer with
  | event event => exact (run_upsert t call.scope event.correlationKey _ _ rfl).2 key
  | snapshot snap =>
    simp only [upsertSnapshot, Prog.run_bind, Prog.run_pure]
    exact (run_upsert t call.scope snap.correlationKey _ _ rfl).2 key
  | reconcile service liveTaskIds => exact t.row_act _ key
  | pruneDead maxAge => exact t.row_act _ key
  | pruneDuplicates service taskIdToKey => exact t.row_act _ key

/-- An event in the row's scope revises its row. -/
theorem row_event {t : WorkItemTable} {call : StoreCall} {event : CompletionEvent}
    (hcall : call.writer = .event event) {r : WorkItemRow}
    (hrow : t.row? event.correlationKey = some r) (hs : inScope call.scope r = true) :
    (call.table t).row? event.correlationKey = some { r with
      item := (reviseByEvent event call.now r.item).elim r.item fun ch ↦ ch.apply r.item } := by
  rw [row_table, StoreCall.onRow, hcall, hrow]
  simp [upsertRow, hs]

/-- A poll in the row's scope revises its row. -/
theorem row_snapshot {t : WorkItemTable} {call : StoreCall} {snap : Snapshot}
    (hcall : call.writer = .snapshot snap) {r : WorkItemRow}
    (hrow : t.row? snap.correlationKey = some r) (hs : inScope call.scope r = true) :
    (call.table t).row? snap.correlationKey = some { r with
      item := (reviseBySnapshot snap call.now r.item).elim r.item fun ch ↦ ch.apply r.item } := by
  rw [row_table, StoreCall.onRow, hcall, hrow]
  simp [upsertRow, hs]

/-- An upsert of another key, or out of the row's scope, leaves the row alone. -/
theorem row_upsert_other {t : WorkItemTable} {call : StoreCall} {key : String} {r : WorkItemRow}
    (hrow : t.row? key = some r)
    (hother : match call.writer with
      | .event event => key = event.correlationKey → inScope call.scope r = false
      | .snapshot snap => key = snap.correlationKey → inScope call.scope r = false
      | _ => False) : (call.table t).row? key = some r := by
  rw [row_table, StoreCall.onRow, hrow]
  split at hother
  · next event hcall =>
    rw [hcall]
    by_cases hk : key = event.correlationKey
    · simp [hk, upsertRow, hother hk]
    · simp [hk]
  · next snap hcall =>
    rw [hcall]
    by_cases hk : key = snap.correlationKey
    · simp [hk, upsertRow, hother hk]
    · simp [hk]
  · exact absurd hother id

end CFactory.Store
