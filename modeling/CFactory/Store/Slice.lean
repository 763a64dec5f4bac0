import CFactory.Model.Types
import CFactory.Status.Taxonomy

/-!
# Writing a service slice

`store.py:125–364,541–601` and `usage.py:15–35`. An event builds its service's next slice in
one of three ways, by its phase: a heartbeat, a worker sub-event, or an ordinary event. A
poll builds it from a snapshot.
-/

namespace CFactory.Store

open CFactory.Base CFactory.Model CFactory.Status

/-- `_is_worker_event`; `store.py:125–127`. -/
def isWorkerEvent (event : CompletionEvent) : Bool :=
  event.phase = some "worker" ∧ event.worker.isSome

/-- `_is_worker_progress_event`; `store.py:130–135`. -/
def isWorkerProgressEvent (event : CompletionEvent) : Bool :=
  event.phase = some "worker_progress" ∧ event.worker.isSome

/-- A heartbeat is no worker sub-event. -/
theorem not_worker_of_progress {event : CompletionEvent}
    (h : isWorkerProgressEvent event = true) : isWorkerEvent event = false := by
  simp only [isWorkerProgressEvent, decide_eq_true_eq] at h
  simp [isWorkerEvent, h.1]

/-- A worker sub-event is no heartbeat. -/
theorem not_progress_of_worker {event : CompletionEvent} (h : isWorkerEvent event = true) :
    isWorkerProgressEvent event = false := by
  rw [← Bool.not_eq_true]
  intro hprogress
  rw [not_worker_of_progress hprogress] at h
  cases h

/-- `_PROGRESS_SERIES_CAP`; `store.py:142`. -/
def PROGRESS_SERIES_CAP : Nat := 120

/-- `_coerce_ts_ms`; `store.py:145–153`. -/
def coerceTsMs (event : CompletionEvent) : Int := event.updatedAt.tdiv 1000

/-! ### Rollups -/

/-- The dimensions of `rollup_by`. -/
inductive Dim where
  | provider
  | model
  deriving DecidableEq

/-- `wd.get(dim)`. -/
def Dim.of (dim : Dim) (w : WorkerUsage) : Option String :=
  match dim with
  | .provider => w.provider
  | .model => w.model

/-- `empty_bucket`; `usage.py:15–19`. -/
def emptyBucket : Bucket :=
  { inputTokens := some 0, outputTokens := some 0, totalTokens := some 0, costUsd := some 0
    workers := some 0, durationMs := none, billingMode := none }

/-- `add_usage` for one worker; `usage.py:22–35`. -/
def addUsage (b : Bucket) (w : WorkerUsage) : Bucket :=
  { b with
    inputTokens := b.inputTokens.map (· + w.inputTokens)
    outputTokens := b.outputTokens.map (· + w.outputTokens)
    totalTokens := b.totalTokens.map (· + w.totalTokens)
    costUsd := b.costUsd.map (· + w.costUsd)
    workers := b.workers.map (· + 1) }

/-- One round of `rollup_by` on the worker's bucket: usage, duration, and the first billing
mode. -/
def addWorker (b : Bucket) (w : WorkerUsage) : Bucket :=
  { addUsage b w with
    durationMs := some (b.durationMs.getD 0 + w.durationMs)
    billingMode := if truthy w.billingMode then b.billingMode.or w.billingMode
      else b.billingMode }

/-- The bucket a worker falls into. -/
def bucketKey (dim : Dim) (w : WorkerUsage) : String :=
  if truthy (dim.of w) then (dim.of w).getD "" else "unknown"

/-- `rollup_by`; `store.py:156–175`. -/
def rollupBy (workers : Dict String WorkerUsage) (dim : Dim) : Rollup :=
  workers.values.foldl
    (fun out w ↦ out.set (bucketKey dim w) (addWorker (out.getD (bucketKey dim w) emptyBucket) w))
    Dict.empty

/-! ### The event path -/

/-- `_apply_worker_progress`; `store.py:230–256`. -/
def applyWorkerProgress (prev : ServiceState) (event : CompletionEvent) (w : WorkerUsage) :
    ServiceState :=
  let point : ProgressPoint := ⟨coerceTsMs event, w.totalTokens, w.costUsd, w.elapsedMs⟩
  let series := prev.workerProgress.getD w.workerId [] ++ [point]
  { prev with
    workerProgress := prev.workerProgress.set w.workerId
      (series.drop (series.length - PROGRESS_SERIES_CAP))
    taskIdKey := prev.taskIdKey.or (some (some event.taskId)) }

/-- `_apply_worker`; `store.py:259–275`. -/
def applyWorker (prev : ServiceState) (event : CompletionEvent) (w : WorkerUsage) :
    ServiceState :=
  let workers := prev.workers.set w.workerId w
  { prev with
    taskIdKey := some (if truthy prev.taskId then prev.taskId else some event.taskId)
    workers
    byProvider := rollupBy workers .provider
    byModel := rollupBy workers .model }

/-- The worker map once a terminal event's own workers are merged in. -/
def mergeWorkers (workers : Dict String WorkerUsage) (usage : Option TokenUsage) :
    Dict String WorkerUsage :=
  ((usage.bind TokenUsage.workers).getD []).foldl (fun m w ↦ m.set w.workerId w) workers

/-- A breakdown that the event carries and that is not empty. -/
def explicitRollup (usage : Option TokenUsage) (dim : Dim) : Option Rollup :=
  (usage.bind fun u ↦
    match dim with
    | .provider => u.byProvider
    | .model => u.byModel).filter fun r ↦ decide (r.entries ≠ [])

/-- `_apply_terminal_or_scalar`; `store.py:284–325`. -/
def applyTerminalOrScalar (prev : ServiceState) (event : CompletionEvent) : ServiceState :=
  let workers := mergeWorkers prev.workers event.usage
  { ServiceState.blank with
    taskIdKey := some (some event.taskId)
    status := some event.status
    phase := event.phase
    usage := event.usage.or prev.usage
    workers
    byProvider := (explicitRollup event.usage .provider).getD (rollupBy workers .provider)
    byModel := (explicitRollup event.usage .model).getD (rollupBy workers .model)
    workerProgress := if isTerminal (some event.status) then Dict.empty else prev.workerProgress }

/-- An annotation block that is present and not empty. -/
def carried (annotations : Annotations) (f : AnnotationField) : Option Block :=
  (annotations f).filter fun b ↦ decide (b ≠ [])

/-- `_attach_access_verification`; `store.py:349–364`. -/
def attachAccessVerification (slice : ServiceState) (event : CompletionEvent) : ServiceState :=
  { slice with extra := fun f ↦ (carried event.annotations f).or (slice.extra f) }

/-- The slice an event leaves, by the branch of `upsert_from_event` it takes;
`store.py:495–510`. -/
def applyEvent (prev : ServiceState) (event : CompletionEvent) : ServiceState :=
  match event.worker with
  | none => attachAccessVerification (applyTerminalOrScalar prev event) event
  | some w =>
    if isWorkerProgressEvent event then applyWorkerProgress prev event w
    else if isWorkerEvent event then attachAccessVerification (applyWorker prev event w) event
    else attachAccessVerification (applyTerminalOrScalar prev event) event

/-- An ordinary event: neither a heartbeat nor a worker sub-event. -/
def isScalar (event : CompletionEvent) : Bool :=
  !isWorkerProgressEvent event && !isWorkerEvent event

/-- The slice after a heartbeat. -/
theorem applyEvent_of_progress {event : CompletionEvent} {w : WorkerUsage}
    (hw : event.worker = some w) (h : isWorkerProgressEvent event = true) (prev : ServiceState) :
    applyEvent prev event = applyWorkerProgress prev event w := by
  simp only [applyEvent, hw, h, ↓reduceIte]

/-- The slice after a worker sub-event. -/
theorem applyEvent_of_worker {event : CompletionEvent} {w : WorkerUsage}
    (hw : event.worker = some w) (h : isWorkerEvent event = true) (prev : ServiceState) :
    applyEvent prev event = attachAccessVerification (applyWorker prev event w) event := by
  have hp := not_progress_of_worker h
  simp only [applyEvent, hw, h, hp, ↓reduceIte, Bool.false_eq_true]

/-- The slice after an ordinary event. -/
theorem applyEvent_of_scalar {event : CompletionEvent} (h : isScalar event = true)
    (prev : ServiceState) :
    applyEvent prev event = attachAccessVerification (applyTerminalOrScalar prev event) event := by
  simp only [isScalar, Bool.and_eq_true, Bool.not_eq_true'] at h
  unfold applyEvent
  split
  · rfl
  · simp only [h.1, h.2, Bool.false_eq_true, ↓reduceIte]

/-- A heartbeat or a worker sub-event carries a worker. -/
theorem worker_of_not_scalar {event : CompletionEvent} (h : isScalar event = false) :
    (∃ w, event.worker = some w) ∧
      (isWorkerProgressEvent event = true ∨ isWorkerEvent event = true) := by
  have hcase : isWorkerProgressEvent event = true ∨ isWorkerEvent event = true := by
    by_contra hn
    rw [not_or, Bool.not_eq_true, Bool.not_eq_true] at hn
    simp [isScalar, hn.1, hn.2] at h
  refine ⟨?_, hcase⟩
  apply Option.isSome_iff_exists.mp
  rcases hcase with hc | hc
  · simp only [isWorkerProgressEvent, decide_eq_true_eq] at hc
    exact hc.2
  · simp only [isWorkerEvent, decide_eq_true_eq] at hc
    exact hc.2

/-! ### The poll path -/

/-- A snapshot with the fields of `_POLL_BLIND_FIELDS` carried forward where it has none;
`store.py:281,574–576`. -/
def carryForward (existing state : ServiceState) : ServiceState :=
  { state with
    usage := state.usage.or existing.usage
    workers := if state.workers.entries = [] then existing.workers else state.workers
    workerProgress := if state.workerProgress.entries = [] then existing.workerProgress
      else state.workerProgress
    byProvider := if state.byProvider.entries = [] then existing.byProvider else state.byProvider
    byModel := if state.byModel.entries = [] then existing.byModel else state.byModel }

/-- `==` of two optional breakdowns. -/
def sameRollup : Option Rollup → Option Rollup → Bool
  | none, none => true
  | some d, some e => d.equal e
  | _, _ => false

/-- `==` of two optional usage records. -/
def sameUsage : Option TokenUsage → Option TokenUsage → Bool
  | none, none => true
  | some u, some v =>
    decide ({ u with byProvider := none, byModel := none } =
      { v with byProvider := none, byModel := none }) &&
      sameRollup u.byProvider v.byProvider && sameRollup u.byModel v.byModel
  | _, _ => false

/-- A usage record equals itself. -/
@[simp] theorem sameUsage_self (usage : Option TokenUsage) : sameUsage usage usage = true := by
  have hroll : ∀ r : Option Rollup, sameRollup r r = true := by
    intro r
    cases r with
    | none => rfl
    | some d => exact d.equal_self
  cases usage with
  | none => rfl
  | some u => simp [sameUsage, hroll]

/-- The row keeps its clock when status, phase and usage are re-reported; `store.py:587–593`. -/
def unchanged (existing new : ServiceState) (titleNeeded : Bool) : Bool :=
  !titleNeeded && existing.status == new.status && existing.phase == new.phase &&
    sameUsage existing.usage new.usage

/-- A dead task does not take a slice back from another task that finished there;
`store.py:598–603`. -/
def superseded (existing new : ServiceState) (newest : Bool) : Bool :=
  !newest && isDone existing.status && existing.taskId != new.taskId && isDeadStage new.status

end CFactory.Store
