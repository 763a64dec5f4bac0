import CFactory.Base.Buckets
import CFactory.Copilot.Tokens
import CFactory.Store.LastKnownGood
import CFactory.Store.SliceWrites
import Mathlib.Algebra.Group.Prod

/-!
# Tokens by worker

`copilot/tools.py:216–261`, `usage.py:15–35` and `store.py:156–175,259–325`. The workers of every
slice are listed, and the breakdowns that are stored beside them are merged. The writers of a slice
keep its breakdowns those of its workers, unless a producer brings a breakdown of its own.
-/

namespace CFactory.Copilot

open CFactory.Base CFactory.Model CFactory.Store

/-! ## The breakdown -/

/-- `add_usage` for a bucket that carries its own count of workers; `usage.py:22–35`. -/
def addRollup (dst src : Bucket) : Bucket :=
  { dst with
    inputTokens := dst.inputTokens.map (· + src.inputTokens.getD 0)
    outputTokens := dst.outputTokens.map (· + src.outputTokens.getD 0)
    totalTokens := dst.totalTokens.map (· + src.totalTokens.getD 0)
    costUsd := dst.costUsd.map (· + src.costUsd.getD 0)
    workers := dst.workers.map (· + src.workers.getD 0) }

/-- `_merge_rollup`; `tools.py:216–220`. -/
def mergeRollup (dst src : Rollup) : Rollup :=
  src.entries.foldl (fun d e ↦ d.set e.1 (addRollup (d.getD e.1 emptyBucket) e.2)) dst

/-- A worker's row. -/
structure WorkerRow where
  service : Service
  worker : WorkerUsage

/-- A work item with its workers. -/
structure ItemWorkers where
  correlationKey : String
  title : Option String
  workers : List WorkerRow

/-- What `token_by_worker` returns. -/
structure TokenByWorker where
  byProvider : Rollup := Dict.empty
  byModel : Rollup := Dict.empty
  byWorkItem : List ItemWorkers := []

/-- The workers of a work item, service by service; `tools.py:239–242`. -/
def workerRows (wi : WorkItem) : List WorkerRow :=
  services.flatMap fun svc ↦ (wi.slice svc).workers.values.map fun w ↦ ⟨svc, w⟩

/-- One work item; `tools.py:237–254`. -/
def addItemWorkers (acc : TokenByWorker) (wi : WorkItem) : TokenByWorker :=
  { byProvider :=
      services.foldl (fun d svc ↦ mergeRollup d (wi.slice svc).byProvider) acc.byProvider
    byModel := services.foldl (fun d svc ↦ mergeRollup d (wi.slice svc).byModel) acc.byModel
    byWorkItem :=
      if workerRows wi ≠ [] then
        acc.byWorkItem ++ [⟨wi.correlationKey, wi.title, (workerRows wi).insertionSort fun v w ↦
          w.worker.totalTokens ≤ v.worker.totalTokens⟩]
      else acc.byWorkItem }

/-- The tokens of a work item's workers. -/
def ItemWorkers.totalTokens (item : ItemWorkers) : Int :=
  (item.workers.map fun w ↦ w.worker.totalTokens).sum

/-- `token_by_worker`; `tools.py:223–261`. -/
def tokenByWorker (t : WorkItemTable) (scope : Option String) : TokenByWorker :=
  let acc := (storeList t scope).foldl addItemWorkers {}
  { acc with byWorkItem := acc.byWorkItem.insertionSort fun i j ↦ j.totalTokens ≤ i.totalTokens }

/-! ## What the buckets hold -/

/-- The amounts of a worker, and that it is one. -/
def workerAmounts (w : WorkerUsage) : Amounts × Int :=
  (⟨w.inputTokens, w.outputTokens, w.totalTokens, w.costUsd⟩, 1)

/-- The amounts of a bucket, and its count of workers. -/
def bucketAmounts (b : Bucket) : Amounts × Int :=
  (⟨b.inputTokens.getD 0, b.outputTokens.getD 0, b.totalTokens.getD 0, b.costUsd.getD 0⟩,
    b.workers.getD 0)

/-- What the worker rows hold together. -/
def rowsAmounts (items : List ItemWorkers) : Amounts × Int :=
  (items.map fun item ↦ (item.workers.map fun w ↦ workerAmounts w.worker).sum).sum

/-- A bucket that has all its fields. -/
def Full (b : Bucket) : Prop :=
  b.inputTokens.isSome ∧ b.outputTokens.isSome ∧ b.totalTokens.isSome ∧ b.costUsd.isSome ∧
    b.workers.isSome

theorem full_emptyBucket : Full emptyBucket ∧ bucketAmounts emptyBucket = 0 :=
  ⟨⟨rfl, rfl, rfl, rfl, rfl⟩, rfl⟩

/-- A full bucket by its fields. -/
private theorem full_cases {b : Bucket} (h : Full b) :
    ∃ i o t c n, b.inputTokens = some i ∧ b.outputTokens = some o ∧ b.totalTokens = some t ∧
      b.costUsd = some c ∧ b.workers = some n := by
  obtain ⟨hi, ho, ht, hc, hn⟩ := h
  exact ⟨_, _, _, _, _, (Option.some_get hi).symm, (Option.some_get ho).symm,
    (Option.some_get ht).symm, (Option.some_get hc).symm, (Option.some_get hn).symm⟩

/-- A bucket gains the amounts of the worker that is added. -/
theorem full_addWorker (b : Bucket) (w : WorkerUsage) (h : Full b) :
    Full (addWorker b w) ∧ bucketAmounts (addWorker b w) = bucketAmounts b + workerAmounts w := by
  obtain ⟨i, o, t, c, n, hi, ho, ht, hc, hn⟩ := full_cases h
  simp only [Full, bucketAmounts, addWorker, addUsage, workerAmounts, hi, ho, ht, hc, hn]
  exact ⟨⟨rfl, rfl, rfl, rfl, rfl⟩, rfl⟩

/-- A bucket gains the amounts of the bucket that is added. -/
theorem full_addRollup (b : Bucket) (e : String × Bucket) (h : Full b) :
    Full (addRollup b e.2) ∧
      bucketAmounts (addRollup b e.2) = bucketAmounts b + bucketAmounts e.2 := by
  obtain ⟨i, o, t, c, n, hi, ho, ht, hc, hn⟩ := full_cases h
  simp only [Full, bucketAmounts, addRollup, hi, ho, ht, hc, hn]
  exact ⟨⟨rfl, rfl, rfl, rfl, rfl⟩, rfl⟩

/-- The breakdown of some workers holds what they have used, whatever the dimension. -/
theorem total_rollupBy (workers : Dict String WorkerUsage) (dim : Dim) :
    (rollupBy workers dim).total bucketAmounts = workers.total workerAmounts := by
  have hfold := (Dict.total_foldl_set (bucketKey dim) full_emptyBucket full_addWorker workers.values
    (d := Dict.empty) fun b hb ↦ absurd hb List.not_mem_nil).2
  rw [rollupBy, hfold]
  exact zero_add _

/-- A merge holds what both breakdowns hold. -/
theorem total_mergeRollup {dst : Rollup} (h : ∀ b ∈ dst.values, Full b) (src : Rollup) :
    (∀ b ∈ (mergeRollup dst src).values, Full b) ∧
      (mergeRollup dst src).total bucketAmounts =
        dst.total bucketAmounts + src.total bucketAmounts := by
  have hfold := Dict.total_foldl_set Prod.fst full_emptyBucket full_addRollup src.entries h
  rw [src.total_entries]
  exact hfold

/-! ## One work item -/

/-- What the workers of a slice have used. -/
def sliceWorkers (wi : WorkItem) (svc : Service) : Amounts × Int :=
  (wi.slice svc).workers.total workerAmounts

/-- Merging the breakdowns of some slices, each of which is that of its workers, adds what the
workers have used. -/
theorem total_mergeSlices (wi : WorkItem) (rollup : ServiceState → Rollup) (svcs : List Service)
    (hsame : ∀ svc ∈ svcs, (rollup (wi.slice svc)).total bucketAmounts = sliceWorkers wi svc)
    {d : Rollup} (hd : ∀ b ∈ d.values, Full b) :
    (∀ b ∈ (svcs.foldl (fun d svc ↦ mergeRollup d (rollup (wi.slice svc))) d).values, Full b) ∧
      (svcs.foldl (fun d svc ↦ mergeRollup d (rollup (wi.slice svc))) d).total bucketAmounts =
        d.total bucketAmounts + (svcs.map (sliceWorkers wi)).sum := by
  induction svcs generalizing d with
  | nil => exact ⟨hd, (add_zero _).symm⟩
  | cons svc rest ih =>
    obtain ⟨hfull, htotal⟩ := total_mergeRollup hd (rollup (wi.slice svc))
    obtain ⟨hrest, hsum⟩ := ih (fun s hs ↦ hsame s (List.mem_cons_of_mem svc hs)) hfull
    refine ⟨hrest, ?_⟩
    rw [List.foldl_cons, hsum, htotal, hsame svc List.mem_cons_self, List.map_cons, List.sum_cons,
      add_assoc]

/-- The rows of a work item hold what the workers of its slices have used. -/
theorem sum_workerRows (wi : WorkItem) :
    ((workerRows wi).map fun w ↦ workerAmounts w.worker).sum =
      (services.map (sliceWorkers wi)).sum := by
  rw [workerRows]
  induction services with
  | nil => rfl
  | cons svc rest ih =>
    rw [List.flatMap_cons, List.map_append, List.sum_append, ih, List.map_cons, List.sum_cons,
      List.map_map, sliceWorkers, Dict.total]
    rfl

/-- The breakdowns of a work item's slices are those of their workers. -/
def ItemConsistent (wi : WorkItem) : Prop := ∀ svc, Consistent (wi.slice svc)

/-- A consistent slice's breakdowns hold what its workers have used. -/
theorem total_of_consistent {wi : WorkItem} (h : ItemConsistent wi) (svc : Service) :
    (wi.slice svc).byProvider.total bucketAmounts = sliceWorkers wi svc ∧
      (wi.slice svc).byModel.total bucketAmounts = sliceWorkers wi svc := by
  obtain ⟨hprovider, hmodel⟩ := h svc
  rw [Dict.total_same hprovider, Dict.total_same hmodel, total_rollupBy, total_rollupBy]
  exact ⟨rfl, rfl⟩

/-- What is returned for consistent work items holds the same in both breakdowns and in its
rows. -/
structure Balanced (r : TokenByWorker) : Prop where
  byProvider : r.byProvider.total bucketAmounts = rowsAmounts r.byWorkItem
  byModel : r.byModel.total bucketAmounts = rowsAmounts r.byWorkItem

theorem balanced_addItem {acc : TokenByWorker} {wi : WorkItem} (h : ItemConsistent wi)
    (hprovider : ∀ b ∈ acc.byProvider.values, Full b) (hmodel : ∀ b ∈ acc.byModel.values, Full b)
    (hacc : Balanced acc) :
    (∀ b ∈ (addItemWorkers acc wi).byProvider.values, Full b) ∧
      (∀ b ∈ (addItemWorkers acc wi).byModel.values, Full b) ∧
        Balanced (addItemWorkers acc wi) := by
  obtain ⟨hprovider', hptotal⟩ := total_mergeSlices wi ServiceState.byProvider services
    (fun svc _ ↦ (total_of_consistent h svc).1) hprovider
  obtain ⟨hmodel', hmtotal⟩ := total_mergeSlices wi ServiceState.byModel services
    (fun svc _ ↦ (total_of_consistent h svc).2) hmodel
  have hrows : rowsAmounts (addItemWorkers acc wi).byWorkItem =
      rowsAmounts acc.byWorkItem + (services.map (sliceWorkers wi)).sum := by
    rw [← sum_workerRows, addItemWorkers, rowsAmounts, rowsAmounts]
    dsimp only
    split
    · rw [List.map_append, List.sum_append, List.map_singleton, List.sum_singleton,
        ((List.perm_insertionSort _ (workerRows wi)).map fun w ↦ workerAmounts w.worker).sum_eq]
    · next hnone =>
      rw [not_not] at hnone
      rw [hnone]
      exact (add_zero _).symm
  refine ⟨hprovider', hmodel', ?_, ?_⟩
  · rw [hrows, ← hacc.byProvider]
    exact hptotal
  · rw [hrows, ← hacc.byModel]
    exact hmtotal

theorem balanced_foldl {items : List WorkItem} (h : ∀ wi ∈ items, ItemConsistent wi)
    {acc : TokenByWorker} (hprovider : ∀ b ∈ acc.byProvider.values, Full b)
    (hmodel : ∀ b ∈ acc.byModel.values, Full b) (hacc : Balanced acc) :
    Balanced (items.foldl addItemWorkers acc) := by
  induction items generalizing acc with
  | nil => exact hacc
  | cons wi rest ih =>
    obtain ⟨hprovider', hmodel', hnext⟩ :=
      balanced_addItem (h wi List.mem_cons_self) hprovider hmodel hacc
    exact ih (fun w hw ↦ h w (List.mem_cons_of_mem wi hw)) hprovider' hmodel' hnext

/-- Over consistent work items nothing is lost or invented. -/
theorem balanced_tokenByWorker {t : WorkItemTable} {scope : Option String}
    (h : ∀ wi ∈ storeList t scope, ItemConsistent wi) : Balanced (tokenByWorker t scope) := by
  have hfold : Balanced ((storeList t scope).foldl addItemWorkers {}) :=
    balanced_foldl h (fun b hb ↦ absurd hb List.not_mem_nil)
      (fun b hb ↦ absurd hb List.not_mem_nil) ⟨rfl, rfl⟩
  have hsorted : rowsAmounts (tokenByWorker t scope).byWorkItem =
      rowsAmounts ((storeList t scope).foldl addItemWorkers {}).byWorkItem := by
    rw [rowsAmounts, rowsAmounts, tokenByWorker]
    exact ((List.perm_insertionSort _ _).map _).sum_eq
  exact ⟨hfold.byProvider.trans hsorted.symm, hfold.byModel.trans hsorted.symm⟩

/-! ## Whole runs -/

/-- A call that brings no breakdown of its own: an event without an explicit one, a snapshot without
workers and breakdowns, or housekeeping. -/
def WithoutRollups (call : StoreCall) : Prop :=
  match call.writer with
  | .event event =>
    explicitRollup event.usage .provider = none ∧ explicitRollup event.usage .model = none
  | .snapshot snap =>
    snap.state.workers.entries = [] ∧ snap.state.byProvider.entries = [] ∧
      snap.state.byModel.entries = []
  | .reconcile _ _ => True
  | .pruneDead _ => True
  | .pruneDuplicates _ _ => True

/-- A write that brings no breakdown of its own. -/
def rollupless : SliceWrite → Prop
  | .event e => explicitRollup e.usage .provider = none ∧ explicitRollup e.usage .model = none
  | .snapshot state =>
    state.workers.entries = [] ∧ state.byProvider.entries = [] ∧ state.byModel.entries = []
  | .clear => True

/-- The breakdowns of a slice stay those of its workers. -/
theorem consistent_apply {s : ServiceState} {w : SliceWrite} (h : Consistent s)
    (hw : rollupless w) : Consistent (w.apply s) := by
  cases w with
  | clear => exact ⟨Dict.Same.refl _, Dict.Same.refl _⟩
  | snapshot state =>
    obtain ⟨hworkers, hprovider, hmodel⟩ := hw
    rw [SliceWrite.apply, Consistent, carryForward]
    dsimp only
    rw [if_pos hworkers, if_pos hprovider, if_pos hmodel]
    exact h
  | event e =>
    rw [SliceWrite.apply]
    cases hscalar : isScalar e with
    | true =>
      rw [applyEvent_of_scalar hscalar, Consistent, attachAccessVerification, applyTerminalOrScalar]
      dsimp only
      rw [hw.1, hw.2]
      exact ⟨Dict.Same.refl _, Dict.Same.refl _⟩
    | false =>
      obtain ⟨⟨u, hu⟩, hkind⟩ := worker_of_not_scalar hscalar
      rcases hkind with hbeat | hworker
      · rw [applyEvent_of_progress hu hbeat]
        exact h
      · rw [applyEvent_of_worker hu hworker]
        exact ⟨Dict.Same.refl _, Dict.Same.refl _⟩

/-- The breakdowns of every slice are those of its workers. -/
def AllConsistent (t : WorkItemTable) : Prop := ∀ key service, Consistent (sliceAt t key service)

theorem WithoutRollups.rollupless {call : StoreCall} (h : WithoutRollups call) {key : String}
    {service : Service} {row : Option WorkItemRow} {w : SliceWrite}
    (hw : call.sliceWrite key service row = some w) : rollupless w := by
  rcases sliceWrite_cases hw with ⟨event, hcall, rfl⟩ | ⟨snap, hcall, rfl⟩ | rfl
  · rw [WithoutRollups, hcall] at h
    exact h
  · rw [WithoutRollups, hcall] at h
    exact h
  · trivial

theorem allConsistent_table {t : WorkItemTable} {call : StoreCall} (h : AllConsistent t)
    (hcall : WithoutRollups call) : AllConsistent (call.table t) := by
  intro key service
  by_cases hrow : (call.table t).row? key = none
  · rw [sliceAt_absent hrow]
    exact ⟨Dict.Same.refl _, Dict.Same.refl _⟩
  · rw [sliceAt_table call hrow]
    cases hw : call.sliceWrite key service (t.row? key) with
    | none => exact h key service
    | some w => exact consistent_apply (h key service) (hcall.rollupless hw)

/-- The work items that are listed have the slices of the table. -/
theorem itemConsistent_of_table {t : WorkItemTable} (h : AllConsistent t) {scope : Option String} :
    ∀ wi ∈ storeList t scope, ItemConsistent wi := by
  intro wi hwi svc
  obtain ⟨r, hr, rfl⟩ := List.mem_map.mp hwi
  have hmem : r ∈ t.rows := (List.mem_filter.mp ((List.mem_insertionSort _).mp hr)).1
  have hslice := h r.key svc
  rwa [sliceAt, WorkItemTable.row_of_mem hmem] at hslice

/-- In every run that brings no explicit breakdown, `token_by_worker` returns breakdowns by provider
and by model that hold the amounts and the number of its worker rows. -/
theorem rollups_balanced (t : WorkItemTable) (hstart : AllConsistent t) (calls : List StoreCall)
    (hcalls : ∀ call ∈ calls, WithoutRollups call) (scope : Option String) :
    Balanced (tokenByWorker (serve t calls) scope) := by
  have hrun : Throughout StoreCall.table AllConsistent t calls :=
    throughout_of_step (C := fun _ call ↦ WithoutRollups call)
      (fun _ _ h hcall ↦ allConsistent_table h hcall) hstart
      (eachStep_of_mem fun call hcall _ ↦ hcalls call hcall)
  exact balanced_tokenByWorker (itemConsistent_of_table hrun.last)

/-- A worker of the build, and the end of the build with its usage. -/
def oneWorker : List StoreCall :=
  [⟨none, 1, .event { correlationKey := "42", service := .aifactory, taskId := "af-1"
                      status := "running", phase := some "worker"
                      worker := some { workerId := "w1", provider := some "claude"
                                       totalTokens := 150, costUsd := 1 / 10 } }⟩,
    ⟨none, 2, .event { id := some "e-9", correlationKey := "42", service := .aifactory
                       taskId := "af-1", status := "done", usage := some { totalTokens := 150 } }⟩]

theorem oneWorker_balanced : Balanced (tokenByWorker (serve .empty oneWorker) none) := by
  apply rollups_balanced .empty (fun _ _ ↦ ⟨Dict.Same.refl _, Dict.Same.refl _⟩)
  intro call hcall
  simp only [oneWorker, List.mem_cons, List.not_mem_nil, or_false] at hcall
  rcases hcall with rfl | rfl
  · exact ⟨rfl, rfl⟩
  · exact ⟨rfl, rfl⟩

end CFactory.Copilot
