import CFactory.Store.Timeline

/-!
# The records of workers

`store.py:178–275,467–524`. A worker sub-event replaces the record of its worker in the slice,
unless the timeline holds the event already. What the slice should hold is told by the events
that were delivered, recorded or not.
-/

namespace CFactory.Store

open CFactory.Base CFactory.Model CFactory.Status

/-- A call of `upsert_from_event`. -/
structure Arrival where
  scope : Option String
  now : Time
  event : CompletionEvent

/-- The database, and the events that were delivered so far. -/
structure Observed where
  table : WorkItemTable
  delivered : List CompletionEvent

/-- One delivery. -/
def observe (st : Observed) (d : Arrival) : Observed :=
  ⟨(deliver st.table d.scope d.event d.now).2, st.delivered ++ [d.event]⟩

/-- The slice of a service in the row under a key. -/
def sliceAt (t : WorkItemTable) (key : String) (service : Service) : ServiceState :=
  ((t.row? key).map fun r ↦ r.item.slice service).getD .column

/-- The record that the last event of a service brought for a worker. -/
def lastRecord (service : Service) (events : List CompletionEvent) (worker : String) :
    Option WorkerUsage :=
  ((events.filterMap fun e ↦ if e.service = service then e.worker else none).filter
    (·.workerId == worker)).getLast?

/-- The slice holds the last record that was delivered for each worker, and its rollups are those
of these records. -/
structure HoldsLast (key : String) (service : Service) (st : Observed) : Prop where
  workers : ∀ worker, (sliceAt st.table key service).workers.get? worker =
    lastRecord service st.delivered worker
  byProvider : (sliceAt st.table key service).byProvider =
    rollupBy (sliceAt st.table key service).workers .provider
  byModel : (sliceAt st.table key service).byModel =
    rollupBy (sliceAt st.table key service).workers .model

/-- The call is on the row under the key. Where its event is one of the service, it is a worker
sub-event, and where it has an id, no event before it had the same. -/
structure OnRow (key : String) (service : Service) (st : Observed) (d : Arrival) : Prop where
  same : d.event.correlationKey = key
  covers : ∀ r, st.table.row? key = some r → inScope d.scope r = true
  worker : d.event.service = service → isWorkerEvent d.event = true
  fresh : truthy d.event.id = true → ∀ e ∈ st.delivered, e.id ≠ d.event.id

/-- An event without an id brings a record for a worker of which the slice holds another. -/
def Corrects (key : String) (service : Service) (st : Observed) (d : Arrival) : Prop :=
  d.event.service = service ∧ truthy d.event.id = false ∧
    ∃ w held, d.event.worker = some w ∧
      (sliceAt st.table key service).workers.get? w.workerId = some held ∧ held ≠ w

/-! ## One delivery -/

/-- The work item of a row, or a new one. -/
def itemAt (t : WorkItemTable) (key : String) (now : Time) : WorkItem :=
  ((t.row? key).map WorkItemRow.item).getD (newItem key now)

theorem sliceAt_eq (t : WorkItemTable) (key : String) (service : Service) (now : Time) :
    sliceAt t key service = (itemAt t key now).slice service := by
  rw [sliceAt, itemAt]
  cases t.row? key with
  | none => rfl
  | some r => rfl

theorem timelineAt_eq (t : WorkItemTable) (key : String) (now : Time) :
    timelineAt t key = (itemAt t key now).timeline := by
  rw [timelineAt, itemAt]
  cases t.row? key with
  | none => rfl
  | some r => rfl

/-- A delivery on a row ingests its event unless the row recognises it. -/
theorem itemAt_deliver {t : WorkItemTable} {scope : Option String} {event : CompletionEvent}
    (hscope : ∀ r, t.row? event.correlationKey = some r → inScope scope r = true) (now : Time)
    (later : Time) :
    itemAt (deliver t scope event now).2 event.correlationKey later =
      if alreadyRecorded (timelineAt t event.correlationKey) event = true then
        itemAt t event.correlationKey now
      else ingest (itemAt t event.correlationKey now) event now := by
  have hrow := (run_upsert t scope event.correlationKey (reviseByEvent event now)
    (ingest (newItem event.correlationKey now) event now) rfl).2 event.correlationKey
  rw [if_pos rfl] at hrow
  rw [itemAt, deliver, upsertFromEvent, hrow, itemAt, timelineAt]
  cases h : t.row? event.correlationKey with
  | none =>
    have hnew : alreadyRecorded [] event = false := by
      rw [alreadyRecorded]
      simp
    simp only [Option.map_none, Option.getD_none, hnew, Bool.false_eq_true, if_false]
    rfl
  | some r =>
    simp only [upsertRow, hscope r h, if_true, Option.map_some, Option.getD_some, reviseByEvent]
    split
    · rfl
    · rfl

/-- The timeline after an event was ingested. -/
theorem timeline_ingest (item : WorkItem) (event : CompletionEvent) (now : Time) :
    (ingest item event now).timeline =
      if isWorkerProgressEvent event = true then item.timeline else item.timeline ++ [event] := by
  rw [ingest, eventChanges, RowChanges.apply]
  split
  · rfl
  · rfl

/-- The slice after an event was ingested: its service's own is applied to, and any other stays. -/
theorem slice_ingest (item : WorkItem) (event : CompletionEvent) (now : Time)
    (service : Service) :
    (ingest item event now).slice service =
      if event.service = service then applyEvent (item.slice service) event
      else item.slice service := by
  rw [ingest, eventChanges, RowChanges.apply]
  dsimp only
  by_cases hservice : event.service = service
  · rw [if_pos hservice, hservice, Function.update_self]
  · rw [if_neg hservice, Function.update_of_ne (Ne.symm hservice)]

/-- What an event of the service adds to the last records. -/
theorem lastRecord_append (service : Service) (events : List CompletionEvent)
    (event : CompletionEvent) (worker : String) :
    lastRecord service (events ++ [event]) worker =
      if event.service = service ∧ event.worker.map WorkerUsage.workerId = some worker then
        event.worker
      else lastRecord service events worker := by
  rw [lastRecord, List.filterMap_append, List.filter_append, List.getLast?_append]
  by_cases hservice : event.service = service
  · cases hw : event.worker with
    | none => simp [hservice, hw, lastRecord]
    | some w =>
      by_cases hworker : w.workerId = worker
      · simp [hservice, hw, hworker]
      · simp [hservice, hw, hworker, lastRecord]
  · simp [hservice, lastRecord]

/-- A worker has a last record where an event of the service brought one. -/
theorem lastRecord_isSome (service : Service) (events : List CompletionEvent) (worker : String) :
    (lastRecord service events worker).isSome = true ↔
      ∃ e ∈ events, e.service = service ∧ e.worker.map WorkerUsage.workerId = some worker := by
  rw [lastRecord, List.getLast?_isSome]
  constructor
  · intro h
    obtain ⟨w, hw⟩ := List.exists_mem_of_ne_nil _ h
    rw [List.mem_filter, List.mem_filterMap, beq_iff_eq] at hw
    obtain ⟨⟨e, he, hsome⟩, rfl⟩ := hw
    split at hsome
    · next hservice => exact ⟨e, he, hservice, by rw [hsome]; rfl⟩
    · cases hsome
  · rintro ⟨e, he, hservice, hworker⟩
    obtain ⟨w, hw, hid⟩ := Option.map_eq_some_iff.mp hworker
    apply List.ne_nil_of_mem (a := w)
    rw [List.mem_filter, List.mem_filterMap, beq_iff_eq]
    exact ⟨⟨e, he, by rw [if_pos hservice, hw]⟩, hid⟩

/-! ## The timeline and what was delivered -/

/-- The row's timeline holds events that were delivered, and one of each worker of the service. -/
structure Tracked (key : String) (service : Service) (st : Observed) : Prop where
  listed : ∀ q ∈ timelineAt st.table key, q ∈ st.delivered
  known : ∀ e ∈ st.delivered, e.service = service → ∃ q ∈ timelineAt st.table key,
    q.service = service ∧ q.worker.map WorkerUsage.workerId = e.worker.map WorkerUsage.workerId

variable {key : String} {service : Service} {st : Observed} {d : Arrival}

/-- The row recognises an event of the service that has no id where a record was delivered for its
worker before. -/
theorem recorded_iff (htracked : Tracked key service st) (hd : OnRow key service st d)
    (hservice : d.event.service = service) {w : WorkerUsage} (hw : d.event.worker = some w) :
    alreadyRecorded (timelineAt st.table key) d.event = true ↔
      truthy d.event.id = false ∧
        (lastRecord service st.delivered w.workerId).isSome = true := by
  have hworker := hd.worker hservice
  rw [alreadyRecorded, not_progress_of_worker hworker, if_neg Bool.false_ne_true, hworker,
    if_pos rfl]
  cases hid : truthy d.event.id with
  | true =>
    rw [if_pos rfl]
    apply iff_of_false
    · rw [List.any_eq_true]
      rintro ⟨q, hq, hsame⟩
      exact hd.fresh hid q (htracked.listed q hq) (beq_iff_eq.mp hsame)
    · rintro ⟨hnone, -⟩
      cases hnone
  | false =>
    rw [if_neg Bool.false_ne_true, and_iff_right rfl, lastRecord_isSome, List.any_eq_true]
    constructor
    · rintro ⟨q, hq, hsame⟩
      rw [Bool.and_eq_true, beq_iff_eq, beq_iff_eq, hw] at hsame
      exact ⟨q, htracked.listed q hq, hsame.1.trans hservice, hsame.2⟩
    · rintro ⟨e, he, hes, hew⟩
      obtain ⟨q, hq, hqs, hqw⟩ := htracked.known e he hes
      refine ⟨q, hq, ?_⟩
      rw [hqs, hqw, hew, hservice, hw]
      simp

/-- The timeline after a delivery. -/
private theorem timelineAt_observe (hd : OnRow key service st d) :
    timelineAt (observe st d).table key =
      if alreadyRecorded (timelineAt st.table key) d.event = true ∨
          isWorkerProgressEvent d.event = true then timelineAt st.table key
      else timelineAt st.table key ++ [d.event] := by
  obtain ⟨rfl, hcovers, -, -⟩ := hd
  rw [timelineAt_eq _ _ 0, observe, itemAt_deliver hcovers, timelineAt_eq st.table _ d.now]
  by_cases hrecorded : alreadyRecorded (itemAt st.table d.event.correlationKey d.now).timeline
      d.event = true
  · rw [if_pos hrecorded, if_pos (.inl hrecorded)]
  · rw [if_neg hrecorded, timeline_ingest]
    by_cases hprogress : isWorkerProgressEvent d.event = true
    · rw [if_pos hprogress, if_pos (.inr hprogress)]
    · rw [if_neg hprogress, if_neg (not_or.mpr ⟨hrecorded, hprogress⟩)]

/-- The slice after a delivery. -/
private theorem sliceAt_observe (hd : OnRow key service st d) :
    sliceAt (observe st d).table key service =
      if alreadyRecorded (timelineAt st.table key) d.event = false ∧ d.event.service = service then
        applyEvent (sliceAt st.table key service) d.event
      else sliceAt st.table key service := by
  obtain ⟨rfl, hcovers, -, -⟩ := hd
  rw [sliceAt_eq _ _ _ 0, observe, itemAt_deliver hcovers, sliceAt_eq st.table _ _ d.now]
  cases hrecorded : alreadyRecorded (timelineAt st.table d.event.correlationKey) d.event with
  | true => simp
  | false =>
    rw [if_neg Bool.false_ne_true, slice_ingest]
    simp only [true_and]

/-- A delivery keeps track. -/
theorem Tracked.observe (h : Tracked key service st) (hd : OnRow key service st d) :
    Tracked key service (observe st d) := by
  have htimeline := timelineAt_observe hd
  have hgrows : ∀ q ∈ timelineAt st.table key,
      q ∈ timelineAt (Store.observe st d).table key := by
    intro q hq
    rw [htimeline]
    split
    · exact hq
    · exact List.mem_append_left _ hq
  constructor
  · intro q hq
    rw [htimeline] at hq
    split at hq
    · exact List.mem_append_left _ (h.listed q hq)
    · rcases List.mem_append.mp hq with hq | hq
      · exact List.mem_append_left _ (h.listed q hq)
      · exact List.mem_append_right _ hq
  · intro e he hservice
    rcases List.mem_append.mp he with he | he
    · obtain ⟨q, hq, hsame⟩ := h.known e he hservice
      exact ⟨q, hgrows q hq, hsame⟩
    · cases List.mem_singleton.mp he
      have hworker := hd.worker hservice
      obtain ⟨w, hw⟩ := (worker_of_not_scalar (by rw [isScalar, hworker]; simp)).1
      by_cases hrecorded : alreadyRecorded (timelineAt st.table key) d.event = true
      · obtain ⟨e, he, hes, hew⟩ := (lastRecord_isSome _ _ _).mp
          ((recorded_iff h hd hservice hw).mp hrecorded).2
        obtain ⟨q, hq, hqs, hqw⟩ := h.known e he hes
        exact ⟨q, hgrows q hq, hqs, by rw [hqw, hew, hw]; rfl⟩
      · refine ⟨d.event, ?_, hservice, rfl⟩
        rw [htimeline, if_neg (by simp [hrecorded, not_progress_of_worker hworker])]
        exact List.mem_append_right _ (List.mem_singleton_self _)

/-! ## The slice and what was delivered -/

/-- An event of another service touches neither the slice nor what was delivered for it. -/
private theorem holdsLast_other (h : HoldsLast key service st) (hd : OnRow key service st d)
    (hservice : d.event.service ≠ service) : HoldsLast key service (observe st d) := by
  have hslice := sliceAt_observe hd
  rw [if_neg fun hboth ↦ hservice hboth.2] at hslice
  refine ⟨?_, ?_, ?_⟩
  · intro worker
    rw [hslice, observe, lastRecord_append, if_neg fun hboth ↦ hservice hboth.1]
    exact h.workers worker
  · rw [hslice]
    exact h.byProvider
  · rw [hslice]
    exact h.byModel

/-- The last record of each worker after an event of the service. -/
private theorem lastRecord_observe (st : Observed) (hservice : d.event.service = service)
    {w : WorkerUsage} (hw : d.event.worker = some w) (worker : String) :
    lastRecord service (observe st d).delivered worker =
      if worker = w.workerId then some w else lastRecord service st.delivered worker := by
  rw [observe, lastRecord_append, hw, Option.map_some]
  by_cases hsame : worker = w.workerId
  · rw [if_pos ⟨hservice, congrArg some hsame.symm⟩, if_pos hsame]
  · rw [if_neg fun hboth ↦ hsame (Option.some.inj hboth.2).symm, if_neg hsame]

/-- An event that is passed over leaves the slice with the record that it holds, which is the last
one just if the event carries the same. -/
private theorem holdsLast_passed {w held : WorkerUsage} (h : HoldsLast key service st)
    (hd : OnRow key service st d) (hservice : d.event.service = service)
    (hw : d.event.worker = some w)
    (hpassed : alreadyRecorded (timelineAt st.table key) d.event = true)
    (hheld : (sliceAt st.table key service).workers.get? w.workerId = some held) :
    HoldsLast key service (observe st d) ↔ held = w := by
  have hslice := sliceAt_observe hd
  have hlast := lastRecord_observe st hservice hw
  rw [hpassed, if_neg (by simp)] at hslice
  constructor
  · intro hnext
    have hown := hnext.workers w.workerId
    rw [hslice, hlast, if_pos rfl, hheld] at hown
    exact Option.some.inj hown
  · rintro rfl
    refine ⟨?_, ?_, ?_⟩
    · intro worker
      rw [hslice, hlast]
      split
      · next hsame => rw [hsame, hheld]
      · exact h.workers worker
    · rw [hslice]
      exact h.byProvider
    · rw [hslice]
      exact h.byModel

/-- An event that is recorded replaces the record there was. -/
private theorem holdsLast_recorded {w : WorkerUsage} (h : HoldsLast key service st)
    (hd : OnRow key service st d) (hservice : d.event.service = service)
    (hw : d.event.worker = some w)
    (hrecorded : alreadyRecorded (timelineAt st.table key) d.event = false) :
    HoldsLast key service (observe st d) := by
  have hslice := sliceAt_observe hd
  rw [if_pos ⟨hrecorded, hservice⟩, applyEvent_of_worker hw (hd.worker hservice)] at hslice
  refine ⟨?_, ?_, ?_⟩
  · intro worker
    rw [hslice, lastRecord_observe st hservice hw]
    show ((sliceAt st.table key service).workers.set w.workerId w).get? worker = _
    rw [Dict.get?_set, h.workers]
  · rw [hslice]
    rfl
  · rw [hslice]
    rfl

/-- A delivery keeps the last records in the slice unless it is one without an id that corrects
the record of its worker. -/
theorem holdsLast_observe (h : HoldsLast key service st) (htracked : Tracked key service st)
    (hd : OnRow key service st d) :
    HoldsLast key service (observe st d) ↔ ¬ Corrects key service st d := by
  by_cases hservice : d.event.service = service
  swap
  · exact iff_of_true (holdsLast_other h hd hservice) fun hcorrects ↦ hservice hcorrects.1
  have hworker := hd.worker hservice
  obtain ⟨w, hw⟩ := (worker_of_not_scalar (by rw [isScalar, hworker]; simp)).1
  have hrecorded := recorded_iff htracked hd hservice hw
  rw [← h.workers] at hrecorded
  cases hold : alreadyRecorded (timelineAt st.table key) d.event with
  | true =>
    obtain ⟨hidless, hheld⟩ := hrecorded.mp hold
    obtain ⟨held, hheld⟩ := Option.isSome_iff_exists.mp hheld
    have hcorrects : Corrects key service st d ↔ held ≠ w := by
      constructor
      · rintro ⟨-, -, w', held', hw', hheld', hne⟩
        rw [hw] at hw'
        cases hw'
        rw [hheld] at hheld'
        cases hheld'
        exact hne
      · exact fun hne ↦ ⟨hservice, hidless, w, held, hw, hheld, hne⟩
    rw [hcorrects, not_not]
    exact holdsLast_passed h hd hservice hw hold hheld
  | false =>
    refine iff_of_true (holdsLast_recorded h hd hservice hw hold) ?_
    rintro ⟨-, hidless, w', held, hw', hheld, -⟩
    rw [hw] at hw'
    cases hw'
    have hpassed := hrecorded.mpr ⟨hidless, by rw [hheld]; rfl⟩
    rw [hold] at hpassed
    cases hpassed

/-- Along a run of deliveries on one row that starts without it, the slice of a service whose
events are worker sub-events holds the last record of each worker in every state exactly where no
event without an id corrects a record that the slice holds. -/
theorem workers_last_iff (key : String) (service : Service) {t : WorkItemTable}
    (hnew : t.row? key = none) {run : List Arrival}
    (hrun : EachStep observe (OnRow key service) ⟨t, []⟩ run) :
    Throughout observe (HoldsLast key service) ⟨t, []⟩ run ↔
      EachStep observe (fun st d ↦ ¬ Corrects key service st d) ⟨t, []⟩ run := by
  have htracked : Tracked key service ⟨t, []⟩ := by
    constructor
    · intro q hq
      rw [timelineAt, hnew] at hq
      cases hq
    · intro e he
      cases he
  have hstart : HoldsLast key service ⟨t, []⟩ := by
    have hslice : sliceAt t key service = .column := by rw [sliceAt, hnew]; rfl
    refine ⟨fun worker ↦ ?_, ?_, ?_⟩
    · rw [hslice]
      rfl
    · rw [hslice]
      rfl
    · rw [hslice]
      rfl
  have hboth : Throughout observe (fun st ↦ Tracked key service st ∧ HoldsLast key service st)
      ⟨t, []⟩ run ↔ EachStep observe (fun st d ↦ ¬ Corrects key service st d) ⟨t, []⟩ run := by
    apply throughout_iff_eachStep _ hrun ⟨htracked, hstart⟩
    intro st d hd h
    rw [and_iff_right (h.1.observe hd)]
    exact holdsLast_observe h.2 h.1 hd
  rw [throughout_and_iff, and_iff_right (throughout_of_step (fun st d h hd ↦ h.observe hd)
    htracked hrun)] at hboth
  exact hboth

/-- A worker sub-event of the build that tells how many tokens were used. -/
def tokensEvent (id : Option String) (tokens : Int) : CompletionEvent :=
  { id := id, correlationKey := "42", service := .aifactory, taskId := "af-1"
    status := "worker_done", phase := some "worker"
    worker := some { workerId := "w1", provider := some "claude", totalTokens := tokens } }

/-- A record of a worker, and another one of the same worker. -/
def twoRecords (id id' : Option String) (tokens tokens' : Int) : List Arrival :=
  [⟨none, 1, tokensEvent id tokens⟩, ⟨none, 2, tokensEvent id' tokens'⟩]

/-- Both are deliveries on the row, where they do not share an id. -/
theorem onRow_twoRecords {id id' : Option String} (h : truthy id' = true → id ≠ id')
    (tokens tokens' : Int) :
    EachStep observe (OnRow "42" .aifactory) ⟨.empty, []⟩ (twoRecords id id' tokens tokens') := by
  refine ⟨⟨rfl, fun r _ ↦ rfl, fun _ ↦ rfl, fun _ e he ↦ ?_⟩,
    ⟨rfl, fun r _ ↦ rfl, fun _ ↦ rfl, fun hid e he ↦ ?_⟩, trivial⟩
  · cases he
  · cases List.mem_singleton.mp he
    exact h hid

/-- A correction with an id of its own is held. -/
theorem workers_last_twoRecords :
    Throughout observe (HoldsLast "42" .aifactory) ⟨.empty, []⟩
      (twoRecords none (some "e2") 150 300) := by
  apply (workers_last_iff "42" .aifactory rfl (onRow_twoRecords (by simp) 150 300)).mpr
  refine ⟨?_, ?_, trivial⟩
  · rintro ⟨-, -, w, held, -, hheld, -⟩
    cases hheld
  · rintro ⟨-, hidless, -⟩
    revert hidless
    decide

/-- A correction without one is not: the slice keeps the first record. -/
theorem workers_first_twoRecords :
    EachStep observe (OnRow "42" .aifactory) ⟨.empty, []⟩ (twoRecords none none 150 300) ∧
      ¬ HoldsLast "42" .aifactory ((twoRecords none none 150 300).foldl observe ⟨.empty, []⟩) := by
  refine ⟨onRow_twoRecords (by simp) 150 300, ?_⟩
  intro h
  have hown := h.workers "w1"
  revert hown
  decide +kernel

end CFactory.Store
