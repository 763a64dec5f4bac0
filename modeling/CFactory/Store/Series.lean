import CFactory.Store.SliceWrites
import Mathlib.Data.List.DropRight

/-!
# The series of heartbeats

`store.py:138–142,230–325,541–631`. A heartbeat is appended to the series of its worker, which keeps
its last points. A terminal event empties the series of its slice, and so does housekeeping that
blanks it; a poll carries them forward, whatever status it brings.
-/

namespace CFactory.Store

open CFactory.Base CFactory.Model CFactory.Status

variable {s : ServiceState} {worker : String} {w : SliceWrite} {ws : List SliceWrite}

/-! ## The last window of the stream -/

/-- The sample that a heartbeat brings. -/
def samplePoint (event : CompletionEvent) (w : WorkerUsage) : ProgressPoint :=
  ⟨coerceTsMs event, w.totalTokens, w.costUsd, w.elapsedMs⟩

/-- The sample that a write brings of a worker. -/
def SliceWrite.beat (worker : String) : SliceWrite → Option ProgressPoint
  | .event e =>
    if isWorkerProgressEvent e then
      (e.worker.filter (·.workerId == worker)).map (samplePoint e)
    else none
  | .snapshot _ => none
  | .clear => none

/-- The write ends the series of its slice: an ordinary event with a terminal status, or one that
blanks the slice. -/
def SliceWrite.resets : SliceWrite → Bool
  | .event e => isScalar e && isTerminal (some e.status)
  | .snapshot _ => false
  | .clear => true

/-- A poll that brings no series of its own. -/
def SliceWrite.seriesless : SliceWrite → Prop
  | .snapshot state => state.workerProgress.entries = []
  | _ => True

/-- The last samples of a worker since the series were last ended. -/
def window (worker : String) (ws : List SliceWrite) : List ProgressPoint :=
  ((ws.rtakeWhile (!·.resets)).filterMap (·.beat worker)).rtake PROGRESS_SERIES_CAP

/-- The series of a worker. -/
def series (s : ServiceState) (worker : String) : List ProgressPoint :=
  s.workerProgress.getD worker []

theorem series_of_empty (h : s.workerProgress.entries = []) (worker : String) :
    series s worker = [] := by
  rw [series, Dict.getD, Dict.get?, h]
  rfl

/-- The last of a window and one more are the last of all and one more. -/
theorem rtake_rtake_concat {α : Type} (xs : List α) (x : α) (n : Nat) :
    (xs.rtake n ++ [x]).rtake n = (xs ++ [x]).rtake n := by
  cases n with
  | zero => rw [List.rtake_zero, List.rtake_zero]
  | succ n =>
    rw [List.rtake_concat_succ, List.rtake_concat_succ]
    simp only [List.rtake_eq_reverse_take_reverse, List.reverse_reverse, List.take_take,
      Nat.min_eq_left (Nat.le_succ n)]

/-- What one more write makes of the window. -/
theorem window_concat (worker : String) (ws : List SliceWrite) (w : SliceWrite) :
    window worker (ws ++ [w]) =
      if w.resets then []
      else (window worker ws ++ (w.beat worker).toList).rtake PROGRESS_SERIES_CAP := by
  rw [window, List.rtakeWhile_concat]
  cases hresets : w.resets with
  | true => simp
  | false =>
    rw [if_pos (by simp), if_neg Bool.false_ne_true, List.filterMap_append, window]
    cases hbeat : w.beat worker with
    | none => simp [hbeat, List.rtake_eq_reverse_take_reverse, List.take_take]
    | some p =>
      simp only [List.filterMap_cons, hbeat, List.filterMap_nil, Option.toList_some]
      exact (rtake_rtake_concat _ p _).symm

/-! ## One write -/

/-- A write that ends no series and brings none leaves the points that there are, and adds its
own. -/
theorem series_apply (hless : w.seriesless)
    (hcap : (series s worker).length ≤ PROGRESS_SERIES_CAP) :
    series (w.apply s) worker =
      if w.resets then []
      else (series s worker ++ (w.beat worker).toList).rtake PROGRESS_SERIES_CAP := by
  have hself : (series s worker).rtake PROGRESS_SERIES_CAP = series s worker := by
    rw [List.rtake, Nat.sub_eq_zero_of_le hcap, List.drop_zero]
  cases w with
  | clear => rfl
  | snapshot state =>
    have hkept : series (carryForward s state) worker = series s worker := by
      have hnone : state.workerProgress.entries = [] := hless
      rw [series, series, carryForward, if_pos hnone]
    rw [SliceWrite.apply, hkept, SliceWrite.resets, if_neg Bool.false_ne_true, SliceWrite.beat,
      Option.toList_none, List.append_nil, hself]
  | event e =>
    rw [SliceWrite.apply]
    cases hscalar : isScalar e with
    | true =>
      have hbeat : isWorkerProgressEvent e = false := by
        simp only [isScalar, Bool.and_eq_true, Bool.not_eq_true'] at hscalar
        exact hscalar.1
      rw [applyEvent_of_scalar hscalar, SliceWrite.resets, hscalar, SliceWrite.beat, hbeat,
        if_neg Bool.false_ne_true, Option.toList_none, List.append_nil, hself]
      rw [series, attachAccessVerification, applyTerminalOrScalar, Bool.true_and]
      dsimp only
      split
      · rfl
      · rfl
    | false =>
      obtain ⟨⟨u, hu⟩, hkind⟩ := worker_of_not_scalar hscalar
      rw [SliceWrite.resets, hscalar, Bool.false_and, if_neg Bool.false_ne_true, SliceWrite.beat]
      rcases hkind with hbeat | hworker
      · have hget : (applyWorkerProgress s e u).workerProgress.get? worker =
            if worker = u.workerId then
              some ((series s u.workerId ++ [samplePoint e u]).rtake PROGRESS_SERIES_CAP)
            else s.workerProgress.get? worker := Dict.get?_set _ _ _ _
        rw [applyEvent_of_progress hu hbeat, if_pos hbeat, hu, Option.filter_some, series,
          Dict.getD, hget]
        by_cases hsame : worker = u.workerId
        · rw [if_pos hsame, if_pos (beq_iff_eq.mpr hsame.symm), hsame, Option.getD_some,
            Option.map_some, Option.toList_some]
        · rw [if_neg hsame, if_neg fun h ↦ hsame (beq_iff_eq.mp h).symm, Option.map_none,
            Option.toList_none, List.append_nil, hself]
          rfl
      · have hbeat : isWorkerProgressEvent e = false := not_progress_of_worker hworker
        rw [applyEvent_of_worker hu hworker, hbeat, if_neg Bool.false_ne_true, Option.toList_none,
          List.append_nil, hself]
        rfl

/-! ## Whole runs -/

theorem length_window_le (worker : String) (ws : List SliceWrite) :
    (window worker ws).length ≤ PROGRESS_SERIES_CAP := by
  rw [window, List.rtake_eq_reverse_take_reverse, List.length_reverse]
  exact List.length_take_le _ _

/-- What a run of writes leaves of a series that was empty. -/
theorem series_foldl (hempty : s.workerProgress.entries = []) (worker : String)
    (ws : List SliceWrite) (hless : ∀ w ∈ ws, w.seriesless) :
    series (ws.foldl SliceWrite.apply s) worker = window worker ws := by
  induction ws using List.reverseRecOn with
  | nil => exact series_of_empty hempty worker
  | append_singleton ws w ih =>
    have hprev := ih fun u hu ↦ hless u (List.mem_append_left _ hu)
    have hcap := length_window_le worker ws
    rw [← hprev] at hcap
    rw [List.foldl_append, List.foldl_cons, List.foldl_nil, window_concat,
      series_apply (hless w (List.mem_append_right _ (List.mem_singleton_self w))) hcap, hprev]

/-- A call of one of the two upserts or of `reconcile_snapshot`; a polled snapshot brings no
series. -/
def Feeds (call : StoreCall) : Prop :=
  match call.writer with
  | .event _ => True
  | .snapshot snap => snap.state.workerProgress.entries = []
  | .reconcile _ _ => True
  | .pruneDead _ => False
  | .pruneDuplicates _ _ => False

/-- Such a call deletes no row. -/
theorem Feeds.keeps {call : StoreCall} (h : Feeds call) {t : WorkItemTable} {key : String}
    (hrow : t.row? key ≠ none) : (call.table t).row? key ≠ none := by
  intro hgone
  rw [row_table] at hgone
  rcases onRow_eq_none hgone hrow with ⟨maxAge, hcall⟩ | ⟨of, canon, hcall⟩
  · rw [Feeds, hcall] at h
    exact h
  · rw [Feeds, hcall] at h
    exact h

/-- What it writes brings no series. -/
theorem Feeds.seriesless {call : StoreCall} (h : Feeds call) {key : String} {service : Service}
    {row : Option WorkItemRow} (hw : call.sliceWrite key service row = some w) :
    w.seriesless := by
  rcases sliceWrite_cases hw with ⟨event, -, rfl⟩ | ⟨snap, hcall, rfl⟩ | rfl
  · trivial
  · rw [Feeds, hcall] at h
    exact h
  · trivial

theorem seriesless_of_feeds {key : String} {service : Service} {calls : List StoreCall}
    {t : WorkItemTable} (h : ∀ call ∈ calls, Feeds call) :
    ∀ w ∈ sliceWrites key service t calls, w.seriesless := by
  induction calls generalizing t with
  | nil =>
    intro w hw
    cases hw
  | cons call rest ih =>
    intro w hw
    rcases List.mem_append.mp hw with hw | hw
    · exact (h call List.mem_cons_self).seriesless (Option.mem_toList.mp hw)
    · exact ih (fun c hc ↦ h c (List.mem_cons_of_mem _ hc)) w hw

/-- In every run of the two upserts and of `reconcile_snapshot` from a slice without series, the
series of a worker is the last samples of its heartbeats since the series were last ended. -/
theorem progress_series_window (key : String) (service : Service) (worker : String)
    (t : WorkItemTable) (hempty : (sliceAt t key service).workerProgress.entries = [])
    (calls : List StoreCall) (hcalls : ∀ call ∈ calls, Feeds call) :
    series (sliceAt (serve t calls) key service) worker =
      window worker (sliceWrites key service t calls) := by
  have hkept : EachStep StoreCall.table (fun t call ↦ t.row? key ≠ none →
      (call.table t).row? key ≠ none) t calls :=
    eachStep_of_mem fun call hcall t hrow ↦ (hcalls call hcall).keeps hrow
  rw [sliceAt_serve key service calls t hkept]
  exact series_foldl hempty worker _ (seriesless_of_feeds hcalls)

/-- A heartbeat of the build. -/
def heartbeat (tokens : Int) : CompletionEvent :=
  { correlationKey := "42", service := .aifactory, taskId := "af-1", status := "running"
    phase := some "worker_progress"
    worker := some { workerId := "w1", totalTokens := tokens } }

/-- The build's end. -/
def buildDone : CompletionEvent :=
  { id := some "e-9", correlationKey := "42", service := .aifactory, taskId := "af-1"
    status := "done" }

/-- After a build has ended and begun again, the series holds the samples of the second run. -/
theorem series_of_second_run :
    series (sliceAt (serve .empty [⟨none, 1, .event (heartbeat 100)⟩, ⟨none, 2, .event buildDone⟩,
        ⟨none, 3, .event (heartbeat 20)⟩]) "42" .aifactory) "w1" = [⟨0, 20, 0, 0⟩] := by
  rw [progress_series_window "42" .aifactory "w1" .empty rfl]
  · decide +kernel
  · intro call hcall
    simp only [List.mem_cons, List.not_mem_nil, or_false] at hcall
    rcases hcall with rfl | rfl | rfl
    · trivial
    · trivial
    · trivial

/-! ## Series of finished slices -/

/-- A slice with a terminal status has no series. -/
def Pruned (s : ServiceState) : Prop := isTerminal s.status = true → s.workerProgress.entries = []

instance (s : ServiceState) : Decidable (Pruned s) := inferInstanceAs (Decidable (_ → _))

/-- The write leaves no series in a finished slice: it is no heartbeat after the end, and no poll
that ends a slice whose series is still there. -/
def SliceWrite.Prunes (s : ServiceState) : SliceWrite → Prop
  | .event e => isWorkerProgressEvent e = true → isTerminal s.status = false
  | .snapshot state =>
    isTerminal state.status = true →
      state.workerProgress.entries = [] ∧ s.workerProgress.entries = []
  | .clear => True

private theorem entries_set_ne_nil {κ α : Type} [DecidableEq κ] (d : Dict κ α) (k : κ) (a : α) :
    (d.set k a).entries ≠ [] := by
  intro hnone
  have hget := Dict.get?_set d k k a
  rw [Dict.get?, hnone, if_pos rfl] at hget
  cases hget

/-- A write of a slice keeps it pruned exactly where it prunes. -/
theorem pruned_apply (h : Pruned s) (w : SliceWrite) : Pruned (w.apply s) ↔ w.Prunes s := by
  cases w with
  | clear =>
    refine iff_of_true (fun hterminal ↦ ?_) trivial
    cases hterminal
  | snapshot state =>
    have hentries : (carryForward s state).workerProgress.entries = [] ↔
        state.workerProgress.entries = [] ∧ s.workerProgress.entries = [] := by
      rw [carryForward]
      dsimp only
      split
      · next hnone => simp [hnone]
      · next hsome => simp [hsome]
    rw [SliceWrite.Prunes, ← hentries]
    rfl
  | event e =>
    rw [SliceWrite.apply, SliceWrite.Prunes]
    cases hscalar : isScalar e with
    | true =>
      have hbeat : isWorkerProgressEvent e = false := by
        simp only [isScalar, Bool.and_eq_true, Bool.not_eq_true'] at hscalar
        exact hscalar.1
      rw [applyEvent_of_scalar hscalar]
      refine iff_of_true (fun hterminal ↦ ?_) (fun hprogress ↦ ?_)
      · have hterminal : isTerminal (some e.status) = true := hterminal
        rw [attachAccessVerification, applyTerminalOrScalar]
        dsimp only
        rw [if_pos hterminal]
        rfl
      · rw [hbeat] at hprogress
        cases hprogress
    | false =>
      obtain ⟨⟨u, hu⟩, hkind⟩ := worker_of_not_scalar hscalar
      rcases hkind with hbeat | hworker
      · rw [applyEvent_of_progress hu hbeat, forall_prop_of_true hbeat]
        constructor
        · intro hnext
          cases hterminal : isTerminal s.status with
          | false => rfl
          | true => exact absurd (hnext hterminal) (entries_set_ne_nil _ _ _)
        · intro hrunning hterminal
          have hterminal : isTerminal s.status = true := hterminal
          rw [hrunning] at hterminal
          cases hterminal
      · rw [applyEvent_of_worker hu hworker, not_progress_of_worker hworker]
        refine iff_of_true h fun hprogress ↦ ?_
        cases hprogress

/-- No finished slice of any row has a series. -/
def AllPruned (t : WorkItemTable) : Prop := ∀ key service, Pruned (sliceAt t key service)

/-- Each write of the call prunes. -/
def PrunesAll (t : WorkItemTable) (call : StoreCall) : Prop :=
  ∀ key service, ∀ w ∈ call.sliceWrite key service (t.row? key), w.Prunes (sliceAt t key service)

/-- An event prunes where it is no heartbeat of a finished slice. -/
theorem prunesAll_event {t : WorkItemTable} {call : StoreCall} {event : CompletionEvent}
    (hcall : call.writer = .event event) :
    PrunesAll t call ↔
      (applies call event (t.row? event.correlationKey) = true →
        isWorkerProgressEvent event = true →
          isTerminal (sliceAt t event.correlationKey event.service).status = false) := by
  constructor
  · intro h happlies
    apply h event.correlationKey event.service (.event event)
    rw [StoreCall.sliceWrite, hcall]
    exact if_pos ⟨rfl, rfl, happlies⟩
  · intro h key service w hw
    rw [StoreCall.sliceWrite, hcall] at hw
    dsimp only at hw
    split at hw
    · next hboth =>
      obtain ⟨rfl, rfl, happlies⟩ := hboth
      cases hw
      exact h happlies
    · cases hw

/-- What a call that deletes rows writes blanks slices. -/
private theorem prunes_of_deleting {call : StoreCall} {key : String} {service : Service}
    {row : Option WorkItemRow}
    (hcall : (∃ maxAge, call.writer = .pruneDead maxAge) ∨
      ∃ of canon, call.writer = .pruneDuplicates of canon) :
    ∀ w ∈ call.sliceWrite key service row, w.Prunes s := by
  intro w hw
  have hwriter : (∀ event, call.writer ≠ .event event) ∧ ∀ snap, call.writer ≠ .snapshot snap := by
    rcases hcall with ⟨maxAge, hcall⟩ | ⟨of, canon, hcall⟩
    · simp [hcall]
    · simp [hcall]
  rcases sliceWrite_cases hw with ⟨event, hevent, -⟩ | ⟨snap, hsnap, -⟩ | rfl
  · exact absurd hevent (hwriter.1 event)
  · exact absurd hsnap (hwriter.2 snap)
  · trivial

/-- A call keeps all pruned exactly where each of its writes prunes. -/
theorem allPruned_table {t : WorkItemTable} (h : AllPruned t) (call : StoreCall) :
    AllPruned (call.table t) ↔ PrunesAll t call := by
  have hslice : ∀ key service, Pruned (sliceAt (call.table t) key service) ↔
      ∀ w ∈ call.sliceWrite key service (t.row? key), w.Prunes (sliceAt t key service) := by
    intro key service
    by_cases hrow : (call.table t).row? key = none
    · have honRow := row_table t call key
      rw [hrow] at honRow
      have hcolumn : Pruned (sliceAt (call.table t) key service) := by
        rw [sliceAt_absent hrow]
        intro hterminal
        cases hterminal
      refine iff_of_true hcolumn ?_
      by_cases hpresent : t.row? key = none
      · rw [hpresent] at honRow ⊢
        intro w hw
        rw [sliceWrite_of_absent honRow.symm] at hw
        cases hw
      · exact prunes_of_deleting (onRow_eq_none honRow.symm hpresent)
    · rw [sliceAt_table call hrow]
      cases call.sliceWrite key service (t.row? key) with
      | none => simpa using h key service
      | some w => simpa using pruned_apply (h key service) w
  constructor
  · exact fun hnext key service ↦ (hslice key service).mp (hnext key service)
  · exact fun hprunes key service ↦ (hslice key service).mpr (hprunes key service)

/-- In every run from a store where no finished slice has a series, none has one in any state
exactly where each write prunes. -/
theorem allPruned_throughout_iff (t : WorkItemTable) (hstart : AllPruned t)
    (calls : List StoreCall) :
    Throughout StoreCall.table AllPruned t calls ↔ EachStep StoreCall.table PrunesAll t calls :=
  throughout_iff_of_step (fun _ call h ↦ allPruned_table h call) hstart

/-- A heartbeat and the end of its build. -/
def beatThenEnd : List StoreCall :=
  [⟨none, 1, .event (heartbeat 100)⟩, ⟨none, 2, .event buildDone⟩]

theorem allPruned_empty : AllPruned .empty := by
  intro key service hterminal
  cases hterminal

/-- A heartbeat before the end leaves no series in the finished slice. -/
theorem allPruned_beatThenEnd : Throughout StoreCall.table AllPruned .empty beatThenEnd := by
  apply (allPruned_throughout_iff .empty allPruned_empty beatThenEnd).mpr
  refine ⟨?_, ?_, trivial⟩
  · rw [prunesAll_event rfl]
    intro _ _
    rfl
  · rw [prunesAll_event rfl]
    intro _ hprogress
    cases hprogress

/-- One that is delivered after the end does. -/
theorem late_heartbeat_kept : ¬ Throughout StoreCall.table AllPruned .empty
    [⟨none, 1, .event buildDone⟩, ⟨none, 2, .event (heartbeat 100)⟩] := by
  intro h
  have hlast := h.last "42" .aifactory
  revert hlast
  decide +kernel

end CFactory.Store
