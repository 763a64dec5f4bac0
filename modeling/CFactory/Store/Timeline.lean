import CFactory.Store.Calls

/-!
# Timelines

`store.py:178–227,467–701`. A timeline is written by `upsert_from_event` alone, which
appends an event unless it recognises it. Along a serial run no id is recorded twice, and
the timeline of a row that stays only grows by the events that were accepted.
-/

namespace CFactory.Store

open CFactory.Base CFactory.Model CFactory.Status

/-! ### Recognising an event -/

/-- The ids in a timeline; an empty one counts as none. -/
def recordedIds (timeline : List CompletionEvent) : List String :=
  timeline.filterMap fun e ↦ e.id.filter fun i ↦ decide (i ≠ "")

/-- The event has an id, or is a worker sub-event, which is known by its worker. -/
def recognisable (event : CompletionEvent) : Bool := truthy event.id || isWorkerEvent event

private theorem truthy_filter {id : Option String} {i : String}
    (h : (id.filter fun i ↦ decide (i ≠ "")) = some i) : id = some i ∧ truthy id = true := by
  rw [Option.filter_eq_some_iff] at h
  refine ⟨h.1, ?_⟩
  rw [h.1]
  simpa [truthy] using h.2

/-- A recorded event is recognised when it is delivered again. -/
theorem alreadyRecorded_of_mem {timeline : List CompletionEvent} {event : CompletionEvent}
    (hmem : event ∈ timeline) (hbeat : isWorkerProgressEvent event = false)
    (hrec : recognisable event = true) : alreadyRecorded timeline event = true := by
  unfold alreadyRecorded
  rw [hbeat, if_neg Bool.false_ne_true]
  split
  · rw [List.any_eq_true]
    exact ⟨event, hmem, beq_self_eq_true _⟩
  · next hid =>
    rw [recognisable, Bool.eq_false_of_not_eq_true hid, Bool.false_or] at hrec
    rw [if_pos hrec, List.any_eq_true]
    exact ⟨event, hmem, by simp⟩

/-- An event that can not be recognised is taken for a new one. -/
theorem not_alreadyRecorded {event : CompletionEvent} (hrec : recognisable event = false)
    (timeline : List CompletionEvent) : alreadyRecorded timeline event = false := by
  rw [recognisable, Bool.or_eq_false_iff] at hrec
  unfold alreadyRecorded
  rw [hrec.1, hrec.2]
  simp

/-- The id of an event that is not recognised is not in the timeline. -/
theorem fresh_of_not_recorded {timeline : List CompletionEvent} {event : CompletionEvent}
    (hbeat : isWorkerProgressEvent event = false)
    (hrec : alreadyRecorded timeline event = false) {i : String} (hi : event.id = some i)
    (htruthy : truthy event.id = true) : i ∉ recordedIds timeline := by
  intro hmem
  obtain ⟨e, he, hei⟩ := List.mem_filterMap.mp hmem
  have hid : e.id = some i := (truthy_filter hei).1
  rw [alreadyRecorded, hbeat, if_neg Bool.false_ne_true, if_pos htruthy,
    List.any_eq_false] at hrec
  exact hrec e he (by rw [hid, hi]; exact beq_self_eq_true _)

/-- What every timeline keeps: no id twice, and no heartbeats. -/
structure TimelineOk (timeline : List CompletionEvent) : Prop where
  idsOnce : (recordedIds timeline).Nodup
  noHeartbeat : ∀ e ∈ timeline, isWorkerProgressEvent e = false

/-- An empty timeline is in order. -/
theorem timelineOk_nil : TimelineOk [] := ⟨List.nodup_nil, by simp⟩

/-- Appending an event that is not recognised keeps a timeline in order. -/
theorem TimelineOk.append {timeline : List CompletionEvent} (h : TimelineOk timeline)
    {event : CompletionEvent} (hbeat : isWorkerProgressEvent event = false)
    (hrec : alreadyRecorded timeline event = false) : TimelineOk (timeline ++ [event]) := by
  constructor
  · rw [recordedIds, List.filterMap_append]
    apply h.idsOnce.append
    · rw [List.filterMap_cons]
      split
      · exact List.nodup_nil
      · exact List.nodup_singleton _
    · intro i hi hi'
      have hid : (event.id.filter fun i ↦ decide (i ≠ "")) = some i := by simpa using hi'
      have ht := truthy_filter hid
      exact fresh_of_not_recorded hbeat hrec ht.1 ht.2 hi
  · intro e he
    rcases List.mem_append.mp he with he | he
    · exact h.noHeartbeat e he
    · rw [List.mem_singleton.mp he]
      exact hbeat

/-! ### One call -/

/-- The timeline under a key; a missing row has none. -/
def timelineAt (t : WorkItemTable) (key : String) : List CompletionEvent :=
  ((t.row? key).map fun r ↦ r.item.timeline).getD []

/-- The event that a call has accepted for a key: not a heartbeat, and reported as applied. -/
def StoreCall.accepted (key : String) (t : WorkItemTable) (call : StoreCall) :
    List CompletionEvent :=
  match call.writer with
  | .event event =>
    if event.correlationKey = key ∧ isWorkerProgressEvent event = false then
      match (deliver t call.scope event call.now).1 with
      | .ok (_, true) => [event]
      | _ => []
    else []
  | _ => []

/-- The events that a run has accepted for a key, in the order of its calls. -/
def accepted (key : String) : WorkItemTable → List StoreCall → List CompletionEvent
  | _, [] => []
  | t, call :: rest => call.accepted key t ++ accepted key (call.table t) rest

/-- A snapshot leaves the timeline alone. -/
theorem timeline_snapshotRow (scope : Option String) (snap : Snapshot) (now : Time)
    (row : Option WorkItemRow) :
    (upsertRow scope (reviseBySnapshot snap now) (snapshotItem snap now) row).item.timeline =
      (row.map fun r ↦ r.item.timeline).getD [] := by
  cases row with
  | none => rfl
  | some r =>
    simp only [upsertRow, reviseBySnapshot, Option.map_some, Option.getD_some]
    by_cases hs : inScope scope r = true
    · rw [if_pos hs]
      by_cases hskip : skips snap r.item = true
      · rw [if_pos hskip]
        rfl
      · rw [if_neg hskip]
        rfl
    · rw [if_neg hs]

/-- An event extends the timeline exactly when it is accepted. -/
theorem timeline_eventRow (t : WorkItemTable) (call : StoreCall) (event : CompletionEvent)
    (hcall : call.writer = .event event) :
    (upsertRow call.scope (reviseByEvent event call.now)
        (ingest (newItem event.correlationKey call.now) event call.now)
        (t.row? event.correlationKey)).item.timeline =
      timelineAt t event.correlationKey ++ call.accepted event.correlationKey t := by
  have htimeline : ∀ item : WorkItem, ((eventChanges item event call.now).apply item).timeline =
      item.timeline ++ if isWorkerProgressEvent event = false then [event] else [] := by
    intro item
    cases hbeat : isWorkerProgressEvent event <;>
      simp [eventChanges, RowChanges.apply, hbeat]
  rw [StoreCall.accepted, hcall]
  simp only [result_deliver, true_and, timelineAt]
  cases t.row? event.correlationKey with
  | none => exact htimeline _
  | some r =>
    simp only [upsertRow, upsertResult, reviseByEvent, Option.map_some, Option.getD_some]
    by_cases hs : inScope call.scope r = true
    · rw [if_pos hs, if_pos hs]
      by_cases hrec : alreadyRecorded r.item.timeline event = true
      · rw [if_pos hrec]
        simp
      · rw [if_neg hrec]
        exact htimeline _
    · rw [if_neg hs, if_neg hs]
      simp

/-- One call extends the timeline of a row that is there afterwards by what it accepted. -/
theorem timeline_table (t : WorkItemTable) (call : StoreCall) (key : String) {r : WorkItemRow}
    (h : (call.table t).row? key = some r) :
    r.item.timeline = timelineAt t key ++ call.accepted key t := by
  rw [row_table] at h
  cases hcall : call.writer with
  | event event =>
    simp only [StoreCall.onRow, hcall] at h
    by_cases hk : key = event.correlationKey
    · subst hk
      rw [if_pos rfl] at h
      rw [← Option.some.inj h]
      exact timeline_eventRow t call event hcall
    · rw [if_neg hk] at h
      rw [StoreCall.accepted, hcall, timelineAt, h]
      simp [Ne.symm hk]
  | snapshot snap =>
    simp only [StoreCall.onRow, hcall] at h
    rw [StoreCall.accepted, hcall, List.append_nil]
    by_cases hk : key = snap.correlationKey
    · rw [if_pos hk] at h
      rw [← Option.some.inj h]
      exact timeline_snapshotRow _ _ _ _
    · rw [if_neg hk] at h
      rw [timelineAt, h]
      rfl
  | reconcile service liveTaskIds =>
    simp only [StoreCall.onRow, hcall] at h
    obtain ⟨r₀, hr₀, hrun⟩ := Option.bind_eq_some_iff.mp h
    rw [StoreCall.accepted, hcall, List.append_nil, timelineAt, hr₀]
    exact (tidies_reconcile _ _ _ _ _).timeline hrun
  | pruneDead maxAge =>
    simp only [StoreCall.onRow, hcall] at h
    obtain ⟨r₀, hr₀, hrun⟩ := Option.bind_eq_some_iff.mp h
    rw [StoreCall.accepted, hcall, List.append_nil, timelineAt, hr₀]
    rw [pruneDead_kept hrun]
    rfl
  | pruneDuplicates service taskIdToKey =>
    simp only [StoreCall.onRow, hcall] at h
    obtain ⟨r₀, hr₀, hrun⟩ := Option.bind_eq_some_iff.mp h
    rw [StoreCall.accepted, hcall, List.append_nil, timelineAt, hr₀]
    exact (tidies_pruneDuplicate _ _ _ _ _).timeline hrun

/-- An accepted event is no heartbeat and was not recognised. -/
theorem fresh_of_accepted {key : String} {t : WorkItemTable} {call : StoreCall}
    {event : CompletionEvent} (h : event ∈ call.accepted key t) :
    isWorkerProgressEvent event = false ∧ alreadyRecorded (timelineAt t key) event = false ∧
      call.accepted key t = [event] := by
  unfold StoreCall.accepted at h ⊢
  split at h
  · next e hcall =>
    split at h
    · next hk =>
      obtain ⟨rfl, hbeat⟩ := hk
      split at h
      · next item hres =>
        obtain rfl : event = e := List.mem_singleton.mp h
        refine ⟨hbeat, ?_, by simp only [hbeat, and_self, ↓reduceIte]⟩
        rw [result_deliver] at hres
        rw [timelineAt]
        cases hrow : t.row? event.correlationKey with
        | none =>
          unfold alreadyRecorded
          simp
        | some r =>
          rw [hrow] at hres
          by_contra hrec
          have hrec : alreadyRecorded r.item.timeline event = true :=
            Bool.of_not_eq_false hrec
          simp only [upsertResult, reviseByEvent, hrec, ↓reduceIte] at hres
          split at hres
          · simp at hres
          · simp at hres
      · simp at h
    · simp at h
  · simp at h

/-! ### Whole runs -/

/-- Every call keeps every timeline in order. -/
theorem timelineOk_table {t : WorkItemTable} (h : ∀ key, TimelineOk (timelineAt t key))
    (call : StoreCall) (key : String) : TimelineOk (timelineAt (call.table t) key) := by
  cases hrow : (call.table t).row? key with
  | none =>
    rw [timelineAt, hrow]
    exact timelineOk_nil
  | some r =>
    rw [timelineAt, hrow, Option.map_some, Option.getD_some, timeline_table t call key hrow]
    cases hacc : call.accepted key t with
    | nil =>
      rw [List.append_nil]
      exact h key
    | cons event rest =>
      have hmem : event ∈ call.accepted key t := by rw [hacc]; exact List.mem_cons_self
      obtain ⟨hbeat, hrec, hone⟩ := fresh_of_accepted hmem
      rw [← hacc, hone]
      exact (h key).append hbeat hrec

/-- Along any serial run from a new database, every timeline stays in order. -/
theorem timelineOk_serve (calls : List StoreCall) (key : String) :
    TimelineOk (timelineAt (serve .empty calls) key) := by
  have hinit : ∀ key, TimelineOk (timelineAt .empty key) := fun _ ↦ timelineOk_nil
  have hstep : ∀ (t : WorkItemTable) (call : StoreCall),
      (∀ key, TimelineOk (timelineAt t key)) → ∀ key, TimelineOk (timelineAt (call.table t) key) :=
    fun _ call h ↦ timelineOk_table h call
  exact foldl_invariant hstep hinit calls key

/-- While its row stays, a timeline grows by what is accepted, in that order. -/
theorem timeline_serve (calls : List StoreCall) (t : WorkItemTable) (key : String)
    (hstays : Throughout StoreCall.table (fun t ↦ t.row? key ≠ none) t calls) :
    timelineAt (serve t calls) key = timelineAt t key ++ accepted key t calls := by
  induction calls generalizing t with
  | nil => exact (List.append_nil _).symm
  | cons call rest ih =>
    obtain ⟨r, hr⟩ := Option.ne_none_iff_exists'.mp hstays.2.start
    have hone : timelineAt (call.table t) key = timelineAt t key ++ call.accepted key t := by
      rw [timelineAt, hr]
      exact timeline_table t call key hr
    rw [accepted, ← List.append_assoc, ← hone]
    exact ih _ hstays.2

/-! ### Delivering again -/

/-- Delivering an event that its row recognises reads the row and writes nothing. -/
theorem deliver_of_recorded {t : WorkItemTable} {scope : Option String} {event : CompletionEvent}
    {row : WorkItemRow} (hrow : t.getRow scope event.correlationKey = some row)
    (hrec : alreadyRecorded row.item.timeline event = true) (now : Time) :
    deliver t scope event now = (.ok (row.item, false), t) :=
  run_upsert_kept hrow (if_pos hrec) _

/-- Delivering an event that its row does not recognise applies it. -/
theorem deliver_of_new {t : WorkItemTable} {scope : Option String} {event : CompletionEvent}
    {row : WorkItemRow} (hrow : t.getRow scope event.correlationKey = some row)
    (hrec : alreadyRecorded row.item.timeline event = false) (now : Time) :
    (deliver t scope event now).1 = .ok (ingest row.item event now, true) := by
  have hfilter := t.getRow_eq scope event.correlationKey
  rw [hrow] at hfilter
  obtain ⟨hsome, hs⟩ := Option.filter_eq_some_iff.mp hfilter.symm
  rw [result_deliver, hsome]
  simp [upsertResult, hs, reviseByEvent, hrec, ingest]

/-- A second delivery of a recorded event, through a store whose scope covers the row,
reports nothing applied and leaves the whole table as it was. -/
def RedeliveryIgnored (t : WorkItemTable) (event : CompletionEvent) : Prop :=
  ∀ scope now row, t.getRow scope event.correlationKey = some row →
    event ∈ row.item.timeline → isWorkerProgressEvent event = false →
    deliver t scope event now = (.ok (row.item, false), t)

/-- A second delivery of a recorded event is recorded a second time. -/
def RedeliveryRecorded (t : WorkItemTable) (event : CompletionEvent) : Prop :=
  ∀ scope now row, t.getRow scope event.correlationKey = some row →
    event ∈ row.item.timeline → isWorkerProgressEvent event = false →
    ∃ item, (deliver t scope event now).1 = .ok (item, true) ∧
      item.timeline = row.item.timeline ++ [event]

/-- In every serial run no id is recorded twice; a recorded event that can be recognised is
ignored when it comes again, and any other is recorded again; and while a row stays, its
timeline grows only by the accepted events in the order of their calls. -/
theorem timeline_exactly_once (calls more : List StoreCall) (key : String) :
    (∀ row, (serve .empty calls).row? key = some row → (recordedIds row.item.timeline).Nodup) ∧
    (∀ event, if recognisable event then RedeliveryIgnored (serve .empty calls) event
      else RedeliveryRecorded (serve .empty calls) event) ∧
    (Throughout StoreCall.table (fun t ↦ t.row? key ≠ none) (serve .empty calls) more →
      timelineAt (serve .empty (calls ++ more)) key =
        timelineAt (serve .empty calls) key ++ accepted key (serve .empty calls) more) := by
  refine ⟨?_, ?_, ?_⟩
  · intro row hrow
    have hok := timelineOk_serve calls key
    rw [timelineAt, hrow] at hok
    exact hok.idsOnce
  · intro event
    split
    · next hrec =>
      intro scope now row hrow hmem hbeat
      exact deliver_of_recorded hrow (alreadyRecorded_of_mem hmem hbeat hrec) now
    · next hrec =>
      intro scope now row hrow hmem hbeat
      have hnew := not_alreadyRecorded (Bool.eq_false_of_not_eq_true hrec) row.item.timeline
      refine ⟨_, deliver_of_new hrow hnew now, ?_⟩
      simp [ingest, eventChanges, RowChanges.apply, hbeat]
  · intro hstays
    rw [serve, List.foldl_append]
    exact timeline_serve more _ key hstays

/-- A status event of a producer that stamps no id. -/
def idlessEvent : CompletionEvent :=
  { correlationKey := "42", service := .aifactory, taskId := "af-1", status := "coding" }

/-- An event without an id is recorded again when it is delivered again. -/
theorem idless_event_recorded_twice :
    ¬ RedeliveryIgnored (serve .empty [⟨none, 0, .event idlessEvent⟩]) idlessEvent := by
  intro h
  have hrow : (serve .empty [⟨none, 0, .event idlessEvent⟩]).getRow none
      idlessEvent.correlationKey =
        some ⟨DEFAULT_TENANT, ingest (newItem "42" 0) idlessEvent 0⟩ := by rfl
  have hrec : recognisable idlessEvent = false := by decide
  have hignored := h none 1 _ hrow (by decide) (by decide)
  have happlied := deliver_of_new hrow (not_alreadyRecorded hrec _) 1
  rw [hignored] at happlied
  simp at happlied

end CFactory.Store
