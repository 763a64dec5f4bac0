import CFactory.Base.Guarded
import CFactory.Progress.SecondPoll

/-!
# A manual refresh after a poll

`routes_events.py:75–110`. The refresh hydrates a service's listing as it stands: in its order,
dead tasks included, and with none of them counted as the newest. A row keeps the task that the
poll gave it where the last listed task that gets past the guards of its snapshot is that one.
-/

namespace CFactory.Progress

open CFactory.Base CFactory.Model CFactory.Status CFactory.Store

/-- The turn of one service in a refresh: hydrate what is listed, then reconcile with all of
it; `routes_events.py:84–90`. -/
def refreshListing (env : PollEnv) (service : Service) (items : List AdapterItem) (n : Nat)
    (t : WorkItemTable) : WorkItemTable :=
  reconcileSnapshot (hydrate env [] items n t) none service (items.map AdapterItem.taskId)
    (env.now (n + items.length))

/-- Every row of the first table is in the second, and its slice shows the same task at the same
status and phase. -/
def SameShown (service : Service) (t u : WorkItemTable) : Prop :=
  ∀ key r, t.row? key = some r → ∃ q, u.row? key = some q ∧
    (q.item.slice service).taskId = (r.item.slice service).taskId ∧
    (q.item.slice service).status = (r.item.slice service).status ∧
    (q.item.slice service).phase = (r.item.slice service).phase

/-! ### The guards of a snapshot -/

/-- What the guards of a snapshot read of a row. -/
structure Showing where
  taskId : Option String
  status : Option String
  phase : Option String
  titled : Bool
  deriving DecidableEq

/-- What a work item shows in a service's slice. -/
def showing (service : Service) (item : WorkItem) : Showing :=
  ⟨(item.slice service).taskId, (item.slice service).status, (item.slice service).phase,
    truthy item.title⟩

namespace Showing

/-- The guards pass over a task: it is shown at the same status and phase with no title to
add, or it is dead and another task finished there; `store.py:587–605`. -/
def overlooks (s : Showing) (i : AdapterItem) : Bool :=
  ((!truthy i.title || s.titled) && s.status == i.status && s.phase == i.phase) ||
    (isDone s.status && s.taskId != some i.taskId && isDeadStage i.status)

/-- What is shown once a task is written. -/
def take (s : Showing) (i : AdapterItem) : Showing :=
  ⟨some i.taskId, i.status, i.phase, s.titled || truthy i.title⟩

/-- The task, the status and the phase. -/
def shown (s : Showing) : Option String × Option String × Option String :=
  (s.taskId, s.status, s.phase)

end Showing

/-- The last listed task of a row's key that the guards let through, each task compared with
what the row shows after those before it. -/
def lastLetThrough (service : Service) (items : List AdapterItem) (r : WorkItemRow) :
    Option AdapterItem :=
  lastTaken Showing.overlooks Showing.take (showing service r.item) (tasksOn items r.key)

/-- The last listed task that gets past the guards, if any does, is the one the row shows. -/
def KeepsTask (service : Service) (items : List AdapterItem) (r : WorkItemRow) : Prop :=
  ∀ i ∈ lastLetThrough service items r, Shows i (r.item.slice service)

variable {env : PollEnv} {service : Service} {items : List AdapterItem} {key : String}
  {t : WorkItemTable}

/-- A row skips a task exactly where the guards overlook it. -/
theorem overlooks_eq (i : AdapterItem) (r : WorkItemRow) :
    (showing i.service r.item).overlooks i = skips (i.snapshot []) r.item := by
  rw [Bool.eq_iff_iff, skips_iff_reads, barred_iff]
  simp only [Showing.overlooks, showing, Reads, Bool.or_eq_true, Bool.and_eq_true,
    Bool.not_eq_true', beq_iff_eq, bne_iff_ne, List.not_mem_nil, not_false_eq_true, true_and,
    and_assoc]
  apply or_congr_left
  cases truthy i.title <;> simp

/-- A written title is there where the row had one or the task brings one. -/
theorem titled_written (i : AdapterItem) (newest : List String) (item : WorkItem) (now : Time) :
    truthy ((snapshotChanges (i.snapshot newest) item now).apply item).title =
      (truthy item.title || truthy i.title) := by
  have hkept := title_written (i.snapshot newest) item now
  rw [Bool.eq_iff_iff, Bool.or_eq_true]
  refine ⟨?_, fun h ↦ h.elim hkept.1 hkept.2⟩
  intro h
  by_contra hno
  rw [not_or, Bool.not_eq_true, Bool.not_eq_true] at hno
  have hneeded : titleNeeded (i.snapshot newest) item = false := by
    show (truthy i.title && !truthy item.title) = false
    rw [hno.2, Bool.false_and]
  have htitle : ((snapshotChanges (i.snapshot newest) item now).apply item).title =
      item.title := by
    show Option.or (if titleNeeded (i.snapshot newest) item then i.title else none) item.title = _
    rw [hneeded, if_neg Bool.false_ne_true, Option.none_or]
  rw [htitle, hno.1] at h
  exact absurd h Bool.false_ne_true

/-- One task's snapshot makes of a row what the guards make of what it shows. -/
theorem showing_upsertRow (i : AdapterItem) (now : Time) (r : WorkItemRow) :
    showing i.service (upsertRow none (reviseBySnapshot (i.snapshot []) now)
        (snapshotItem (i.snapshot []) now) (some r)).item =
      guarded Showing.overlooks Showing.take (showing i.service r.item) i := by
  rw [guarded, overlooks_eq]
  cases hskip : skips (i.snapshot []) r.item with
  | true => rw [upsertRow_skipped hskip, if_pos rfl]
  | false =>
    obtain ⟨item, hitem, hwritten⟩ := @upsertRow_written (i.snapshot []) (some r)
      (fun q hq ↦ by rw [← Option.some.inj hq, hskip]) now
    obtain ⟨hid, hstatus, hphase⟩ := (shows_written i [] item now).1
    rw [hwritten, if_neg Bool.false_ne_true, showing, hid, hstatus, hphase, titled_written,
      hitem r rfl]
    rfl

/-- Hydrating a listing leaves a row showing what the tasks of its key make of it, in the order
of the listing. -/
theorem showing_hydrate (hown : ∀ i ∈ items, i.service = service) (n : Nat) {r : WorkItemRow}
    (hrow : t.row? key = some r) :
    ∃ q, (hydrate env [] items n t).row? key = some q ∧
      showing service q.item =
        (tasksOn items key).foldl (guarded Showing.overlooks Showing.take)
          (showing service r.item) := by
  induction items generalizing n t r with
  | nil => exact ⟨r, hrow, rfl⟩
  | cons i rest ih =>
    have hrest : ∀ j ∈ rest, j.service = service := fun j hj ↦ hown j (List.mem_cons_of_mem i hj)
    rw [hydrate]
    by_cases hk : i.correlationKey = key
    · have hcons : tasksOn (i :: rest) key = i :: tasksOn rest key :=
        List.filter_cons_of_pos (decide_eq_true hk)
      subst hk
      obtain ⟨q, hq, hshowing⟩ := ih hrest (n + 1) (row_snapshot_own t (env.now n) i [])
      refine ⟨q, hq, ?_⟩
      rw [hshowing, hrow, hcons, List.foldl_cons, ← hown i List.mem_cons_self, showing_upsertRow]
    · have hcons : tasksOn (i :: rest) key = tasksOn rest key :=
        List.filter_cons_of_neg (by simpa using hk)
      rw [hcons]
      exact ih hrest (n + 1) ((row_snapshot_other t (env.now n) [] hk).trans hrow)

/-! ### Reconciling after the refresh -/

/-- A poll leaves every running slice on a task it has hydrated. -/
theorem tidy_pollProgressOnce (env : PollEnv) (hub : LiveProgressHub) (t : WorkItemTable)
    {adapters : List Adapter} (hone : (adapters.map Adapter.service).Nodup) {a : Adapter}
    (ha : a ∈ adapters) (hlist : a.listing = some items) (key : String) :
    Tidy env items key
      (sliceAt (pollProgressOnce env hub adapters t).table key a.service) := by
  rw [table_pollProgressOnce]
  exact tidy_pruned (@tidy_turns env adapters hone _ a ha items hlist key)

/-- What a refresh makes of a row that is tidy: it is as it was where no task gets past the
guards, and else it shows the last one that does. -/
theorem row_refreshListing (hown : ∀ i ∈ items, i.service = service) (n : Nat) {r : WorkItemRow}
    (hrow : t.row? key = some r) (htidy : Tidy env items key (r.item.slice service)) :
    ∃ q, (refreshListing env service items n t).row? key = some q ∧
      (lastLetThrough service items r = none ∧
          showing service q.item = showing service r.item ∨
        ∃ i, lastLetThrough service items r = some i ∧ Shows i (q.item.slice service)) := by
  obtain ⟨q, hq, hshowing⟩ : ∃ q, (hydrate env [] items n t).row? key = some q ∧
      showing service q.item = (tasksOn items key).foldl
        (guarded Showing.overlooks Showing.take) (showing service r.item) :=
    showing_hydrate hown n hrow
  have hkey : r.key = key := WorkItemTable.key_of_row hrow
  have hcases : (lastLetThrough service items r = none ∧
        showing service q.item = showing service r.item) ∨
      ∃ i ∈ items, lastLetThrough service items r = some i ∧ Shows i (q.item.slice service) := by
    rw [← hkey] at hshowing
    cases hlast : lastLetThrough service items r with
    | none => exact .inl ⟨rfl, hshowing.trans (foldl_of_lastTaken_none hlast)⟩
    | some i =>
      right
      have htell : ∀ (s : Showing) (i : AdapterItem),
          (s.take i).shown = (some i.taskId, i.status, i.phase) := fun _ _ ↦ rfl
      obtain ⟨hmem, htold⟩ := foldl_of_lastTaken_some htell hlast
      rw [← hshowing] at htold
      simp only [Showing.shown, showing, Prod.mk.injEq] at htold
      exact ⟨i, (List.mem_filter.mp hmem).1, rfl, htold⟩
  have hkept : (reconcileAction none service (items.map AdapterItem.taskId)
      (env.now (n + items.length)) q).run q = some q := by
    rw [run_reconcile, if_pos]
    intro id hid hrun
    cases hcases with
    | inl hsame =>
      have hslice := hsame.2
      simp only [showing, Showing.mk.injEq] at hslice
      rw [hslice.1] at hid
      rw [hslice.2.1] at hrun
      obtain ⟨i, hi, hiid⟩ := List.mem_map.mp ((htidy id hid).1 hrun)
      rw [← hiid]
      exact List.mem_map_of_mem (listed_of_live hi)
    | inr hwritten =>
      obtain ⟨i, hi, -, hshows⟩ := hwritten
      rw [hshows.1] at hid
      rw [← Option.some.inj hid]
      exact List.mem_map_of_mem hi
  refine ⟨q, ?_, ?_⟩
  · rw [refreshListing, reconcileSnapshot, WorkItemTable.row_act, hq, Option.bind_some, hkept]
  · cases hcases with
    | inl hsame => exact .inl hsame
    | inr hwritten =>
      obtain ⟨i, -, hlast, hshows⟩ := hwritten
      exact .inr ⟨i, hlast, hshows⟩

/-- Right after a poll, a refresh of a service's listing keeps the task, the status and the phase
of every row's slice exactly where, for each of the rows that the poll left, the last listed task
of its key that gets past the guards is the one the row shows, if there is any. -/
theorem refresh_keeps_iff (env : PollEnv) (now : Nat → Time) (hub : LiveProgressHub)
    (t : WorkItemTable) {adapters : List Adapter} (hone : (adapters.map Adapter.service).Nodup)
    {a : Adapter} (ha : a ∈ adapters) (hlist : a.listing = some items) (n : Nat) :
    SameShown a.service (pollProgressOnce env hub adapters t).table
        (refreshListing (env.later now) a.service items n
          (pollProgressOnce env hub adapters t).table) ↔
      ∀ r ∈ (pollProgressOnce env hub adapters t).table.rows, KeepsTask a.service items r := by
  have hown := a.own items hlist
  have htidy : ∀ key r, (pollProgressOnce env hub adapters t).table.row? key = some r →
      Tidy (env.later now) items key (r.item.slice a.service) := by
    intro key r hrow
    rw [← sliceAt_row hrow]
    exact tidy_pollProgressOnce env hub t hone ha hlist key
  constructor
  · intro hsame r hr i hi
    have hrow := WorkItemTable.row_of_mem hr
    obtain ⟨q, hq, hcases⟩ := row_refreshListing hown n hrow (htidy r.key r hrow)
    obtain ⟨p, hp, hid, hstatus, hphase⟩ := hsame r.key r hrow
    rw [hq] at hp
    cases hp
    rcases hcases with ⟨hnone, -⟩ | ⟨j, hj, hshows⟩
    · rw [hnone] at hi
      cases hi
    · rw [hj] at hi
      cases hi
      exact ⟨hid ▸ hshows.1, hstatus ▸ hshows.2.1, hphase ▸ hshows.2.2⟩
  · intro hkeeps key r hrow
    obtain ⟨q, hq, hcases⟩ := row_refreshListing hown n hrow (htidy key r hrow)
    refine ⟨q, hq, ?_⟩
    rcases hcases with ⟨-, hsame⟩ | ⟨i, hi, hshows⟩
    · simp only [showing, Showing.mk.injEq] at hsame
      exact ⟨hsame.1, hsame.2.1, hsame.2.2.1⟩
    · have hkept := hkeeps r (List.mem_of_find?_eq_some hrow) i hi
      exact ⟨hshows.1.trans hkept.1.symm, hshows.2.1.trans hkept.2.1.symm,
        hshows.2.2.trans hkept.2.2.symm⟩

/-! ### A finished task and its re-run -/

instance (items : List AdapterItem) (r : WorkItemRow) :
    Decidable (KeepsTask service items r) :=
  inferInstanceAs (Decidable (∀ i ∈ lastLetThrough service items r, Shows i _))

/-- An adapter that lists a running re-run after the finished task of its issue. -/
def rerunLast : Adapter :=
  { service := .aifactory
    listing := some [firstRun, rerun "in_progress"]
    own := by simp [firstRun, rerun] }

/-- An adapter that lists it before. -/
def rerunFirst : Adapter :=
  { service := .aifactory
    listing := some [rerun "in_progress", firstRun]
    own := by simp [firstRun, rerun] }

/-- The instance of a listing in the order of creation: the re-run keeps its row. -/
theorem refresh_keeps_rerunLast :
    SameShown rerunLast.service (pollProgressOnce juneEnv Dict.empty [rerunLast] .empty).table
      (refreshListing (juneEnv.later anHourLater) rerunLast.service
        [firstRun, rerun "in_progress"] 0
        (pollProgressOnce juneEnv Dict.empty [rerunLast] .empty).table) :=
  (refresh_keeps_iff juneEnv anHourLater Dict.empty .empty (by simp) (List.mem_singleton.mpr rfl)
    rfl 0).mpr (by decide)

/-- Listed the other way around the finished task takes the row that the poll gave to its
re-run. -/
theorem refresh_undoes_rerunFirst :
    Shows (rerun "in_progress") (sliceAt
      (pollProgressOnce juneEnv Dict.empty [rerunFirst] .empty).table "a/x#7" .aifactory) ∧
    Shows firstRun (sliceAt (refreshListing (juneEnv.later anHourLater) rerunFirst.service
      [rerun "in_progress", firstRun] 0
      (pollProgressOnce juneEnv Dict.empty [rerunFirst] .empty).table) "a/x#7" .aifactory) ∧
    ¬ SameShown rerunFirst.service
      (pollProgressOnce juneEnv Dict.empty [rerunFirst] .empty).table
      (refreshListing (juneEnv.later anHourLater) rerunFirst.service
        [rerun "in_progress", firstRun] 0
        (pollProgressOnce juneEnv Dict.empty [rerunFirst] .empty).table) := by
  have hpolled : Shows (rerun "in_progress") (sliceAt
      (pollProgressOnce juneEnv Dict.empty [rerunFirst] .empty).table "a/x#7" .aifactory) := by
    decide
  have hrefreshed : Shows firstRun (sliceAt (refreshListing (juneEnv.later anHourLater)
      rerunFirst.service [rerun "in_progress", firstRun] 0
      (pollProgressOnce juneEnv Dict.empty [rerunFirst] .empty).table) "a/x#7" .aifactory) := by
    decide
  refine ⟨hpolled, hrefreshed, ?_⟩
  intro hsame
  cases hrow : (pollProgressOnce juneEnv Dict.empty [rerunFirst] .empty).table.row? "a/x#7" with
  | none =>
    rw [sliceAt, hrow] at hpolled
    exact absurd hpolled.1 (by decide)
  | some r =>
    obtain ⟨q, hq, hid, -⟩ := hsame "a/x#7" r hrow
    rw [sliceAt_row hrow] at hpolled
    rw [sliceAt_row hq] at hrefreshed
    have hids := hrefreshed.1.symm.trans (hid.trans hpolled.1)
    exact absurd hids (by decide)

end CFactory.Progress
