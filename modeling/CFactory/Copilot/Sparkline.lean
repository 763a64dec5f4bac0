import CFactory.Base.Overwrites
import CFactory.Base.Sweep
import CFactory.Copilot.Tokens
import Mathlib.Data.List.Dedup
import Mathlib.Tactic.Linarith

/-!
# The sparkline of a running task

`copilot/tools.py:264–312`. The series of all workers of a work item are gathered by worker id, and
merged into one that sums, at each timestamp, the latest sample of each. Two services that use one
worker id share an entry there: the later service's series takes the place of the earlier one's.
-/

namespace CFactory.Copilot

open CFactory.Base CFactory.Model CFactory.Store

/-! ## The merged series -/

/-- What a worker's last sample counts. -/
structure Totals where
  totalTokens : Int := 0
  costUsd : Rat := 0
  deriving DecidableEq

/-- What a sample counts. -/
def sampleTotals (p : ProgressPoint) : Totals := ⟨p.totalTokens, p.costUsd⟩

/-- A point of the merged series. -/
structure SeriesPoint where
  ts : Int
  totalTokens : Int
  costUsd : Rat
  deriving DecidableEq

/-- The series by worker id; `tools.py:277–282`. -/
def rawSeries (item : WorkItem) : Dict String (List ProgressPoint) :=
  services.foldl
    (fun raw svc ↦
      (item.slice svc).workerProgress.entries.foldl (fun raw e ↦ raw.set e.1 e.2) raw)
    Dict.empty

/-- The distinct timestamps in rising order; `tools.py:288`. -/
def stamps (raw : Dict String (List ProgressPoint)) : List Int :=
  ((raw.values.flatMap fun pts ↦ pts.map ProgressPoint.ts).dedup).insertionSort (· ≤ ·)

/-- The merged series; `tools.py:290–310`. -/
def fleetSeries (raw : Dict String (List ProgressPoint)) : List SeriesPoint :=
  (sweep ProgressPoint.ts sampleTotals (stamps raw)
    (raw.values.map fun pts ↦ (pts.insertionSort fun p q ↦ p.ts ≤ q.ts, {}))).map fun tick ↦
      ⟨tick.1, (tick.2.map Totals.totalTokens).sum, (tick.2.map Totals.costUsd).sum⟩

/-- What `worker_progress` returns. -/
structure WorkerProgress where
  correlationKey : String
  series : List SeriesPoint
  workers : Dict String (List ProgressPoint)

/-- `worker_progress`; `tools.py:264–312`. -/
def workerProgress (t : WorkItemTable) (scope : Option String) (key : String) : WorkerProgress :=
  let raw := ((t.getRow scope key).map fun r ↦ rawSeries r.item).getD Dict.empty
  ⟨key, fleetSeries raw, raw⟩

/-! ## The whole fleet -/

/-- The series of every service and worker of a work item. -/
def itemSeries (item : WorkItem) : List (String × List ProgressPoint) :=
  services.flatMap fun svc ↦ (item.slice svc).workerProgress.entries

/-- What a series counts at a time: its latest sample up to then, or nothing. -/
def countsAt (pts : List ProgressPoint) (ts : Int) : Totals :=
  valueAt ProgressPoint.ts sampleTotals {} pts ts

/-- The tokens and the cost that some series count together at a time. -/
def tokensAt (es : List (String × List ProgressPoint)) (ts : Int) : Int :=
  (es.map fun e ↦ (countsAt e.2 ts).totalTokens).sum

def costAt (es : List (String × List ProgressPoint)) (ts : Int) : Rat :=
  (es.map fun e ↦ (countsAt e.2 ts).costUsd).sum

/-- One of the series has a sample at the time. -/
def SampledAt (es : List (String × List ProgressPoint)) (ts : Int) : Prop :=
  ∃ e ∈ es, ∃ p ∈ e.2, p.ts = ts

/-- A merged series that sums all series of a work item: at their distinct timestamps in rising
order, the latest sample of each. -/
def SumsFleet (item : WorkItem) (series : List SeriesPoint) : Prop :=
  (series.map SeriesPoint.ts).Pairwise (· < ·) ∧
    (∀ ts, ts ∈ series.map SeriesPoint.ts ↔ SampledAt (itemSeries item) ts) ∧
    ∀ point ∈ series, point.totalTokens = tokensAt (itemSeries item) point.ts ∧
      point.costUsd = costAt (itemSeries item) point.ts

/-- The series that a later service's series of the same worker id takes the place of count for
nothing: they have no timestamp of their own, and at each of the others they sum to zero. -/
def HiddenCountNothing (item : WorkItem) : Prop :=
  ∀ ts, SampledAt (itemSeries item) ts →
    SampledAt (kept (itemSeries item)) ts ∧ tokensAt (overwritten (itemSeries item)) ts = 0 ∧
      costAt (overwritten (itemSeries item)) ts = 0

section
variable {item : WorkItem}

theorem rawSeries_eq (item : WorkItem) : rawSeries item = Dict.empty.setAll (itemSeries item) := by
  rw [rawSeries, itemSeries, Dict.setAll, List.foldl_flatMap]

/-- The timestamps of the merged series are those of the series that are kept. -/
theorem mem_stamps_iff (ts : Int) :
    ts ∈ stamps (rawSeries item) ↔ SampledAt (kept (itemSeries item)) ts := by
  have hentries := entries_setAll (itemSeries item)
  rw [rawSeries_eq, stamps, List.mem_insertionSort, List.mem_dedup, List.mem_flatMap, SampledAt]
  constructor
  · rintro ⟨pts, hpts, hts⟩
    obtain ⟨e, he, rfl⟩ := List.mem_map.mp hpts
    exact ⟨e, hentries.mem_iff.mp he, List.mem_map.mp hts⟩
  · rintro ⟨e, he, hp⟩
    exact ⟨e.2, List.mem_map_of_mem (hentries.mem_iff.mpr he), List.mem_map.mpr hp⟩

theorem stamps_rising (raw : Dict String (List ProgressPoint)) : (stamps raw).Pairwise (· < ·) := by
  have hsorted : (stamps raw).Pairwise (· ≤ ·) := List.pairwise_insertionSort _ _
  have hnodup : (stamps raw).Nodup :=
    (List.perm_insertionSort _ _).nodup_iff.mpr (List.nodup_dedup _)
  exact hsorted.imp₂ (fun _ _ hle hne ↦ lt_of_le_of_ne hle hne) hnodup

/-- The merged series sums the latest samples of the series that are kept. -/
theorem fleetSeries_eq (item : WorkItem) :
    fleetSeries (rawSeries item) = (stamps (rawSeries item)).map fun ts ↦
      ⟨ts, ((rawSeries item).values.map fun pts ↦ (countsAt pts ts).totalTokens).sum,
        ((rawSeries item).values.map fun pts ↦ (countsAt pts ts).costUsd).sum⟩ := by
  have hsorted : (stamps (rawSeries item)).Pairwise (· ≤ ·) := List.pairwise_insertionSort _ _
  rw [fleetSeries, sweep_sorted hsorted, List.map_map]
  apply List.map_congr_left
  intro ts _
  simp only [Function.comp_apply, List.map_map]
  rfl

/-- With what the hidden series count, the merged series has the whole fleet's totals. -/
theorem totals_split (item : WorkItem) (ts : Int) :
    ((rawSeries item).values.map fun pts ↦ (countsAt pts ts).totalTokens).sum +
        tokensAt (overwritten (itemSeries item)) ts = tokensAt (itemSeries item) ts ∧
      ((rawSeries item).values.map fun pts ↦ (countsAt pts ts).costUsd).sum +
        costAt (overwritten (itemSeries item)) ts = costAt (itemSeries item) ts := by
  rw [rawSeries_eq]
  exact ⟨sum_setAll _ _, sum_setAll _ _⟩

theorem sampledAt_of_kept {es : List (String × List ProgressPoint)} {ts : Int}
    (h : SampledAt (kept es) ts) : SampledAt es ts := by
  obtain ⟨e, he, hp⟩ := h
  exact ⟨e, mem_of_mem_kept he, hp⟩

/-- Nothing is hidden where no worker id is used by two services. -/
theorem hiddenCountNothing_of_apart (h : overwritten (itemSeries item) = []) :
    HiddenCountNothing item := by
  have hperm := kept_append_overwritten (itemSeries item)
  rw [h, List.append_nil] at hperm
  rintro ts ⟨e, he, hp⟩
  rw [h]
  exact ⟨⟨e, hperm.mem_iff.mpr he, hp⟩, rfl, rfl⟩

end

/-- `worker_progress` sums the whole fleet exactly where the hidden series count for nothing. -/
theorem worker_progress_sums_iff (t : WorkItemTable) (scope : Option String) (key : String)
    (row : WorkItemRow) (hrow : t.getRow scope key = some row) :
    SumsFleet row.item (workerProgress t scope key).series ↔ HiddenCountNothing row.item := by
  have hseries : (workerProgress t scope key).series = fleetSeries (rawSeries row.item) := by
    rw [workerProgress, hrow]
    rfl
  have hstamps : (fleetSeries (rawSeries row.item)).map SeriesPoint.ts =
      stamps (rawSeries row.item) := by
    rw [fleetSeries_eq, List.map_map]
    exact List.map_id _
  rw [hseries, SumsFleet, hstamps]
  constructor
  · rintro ⟨-, htimes, hsums⟩ ts hts
    have hstamp := (htimes ts).mpr hts
    have hpoint := hsums _ (by
      rw [fleetSeries_eq]
      exact List.mem_map_of_mem hstamp)
    have hsplit := totals_split row.item ts
    dsimp only at hpoint
    exact ⟨(mem_stamps_iff ts).mp hstamp, by linarith [hpoint.1, hsplit.1],
      by linarith [hpoint.2, hsplit.2]⟩
  · intro hhidden
    refine ⟨stamps_rising _, fun ts ↦ ?_, fun point hpoint ↦ ?_⟩
    · rw [mem_stamps_iff]
      exact ⟨sampledAt_of_kept, fun hts ↦ (hhidden ts hts).1⟩
    · rw [fleetSeries_eq] at hpoint
      obtain ⟨ts, hts, rfl⟩ := List.mem_map.mp hpoint
      have hcount := (hhidden ts (sampledAt_of_kept ((mem_stamps_iff ts).mp hts))).2
      have hsplit := totals_split row.item ts
      rw [hcount.1, hcount.2, add_zero, add_zero] at hsplit
      exact hsplit

/-- A work item with one worker of the plan and one of the build, each with a sample. -/
def planAndBuild (planWorker : String) : WorkItem :=
  { correlationKey := "42"
    slice := fun
      | .pfactory => { workerProgress := Dict.empty.set planWorker [⟨1, 100, 0, 0⟩] }
      | .aifactory => { workerProgress := Dict.empty.set "w1" [⟨2, 20, 0, 0⟩] }
      | .tfactory => {} }

/-- Workers of two names are summed. -/
theorem apart_summed :
    SumsFleet (planAndBuild "p1") (workerProgress (storing (planAndBuild "p1")) none "42").series :=
  (worker_progress_sums_iff _ none "42" ⟨DEFAULT_TENANT, planAndBuild "p1"⟩ rfl).mpr
    (hiddenCountNothing_of_apart (by decide))

/-- Of two workers of one name, the plan's is left out. -/
theorem namesake_left_out :
    ¬ SumsFleet (planAndBuild "w1")
      (workerProgress (storing (planAndBuild "w1")) none "42").series := by
  intro h
  have hstamp := (h.2.1 1).mpr
    ⟨("w1", [⟨1, 100, 0, 0⟩]), by decide, ⟨1, 100, 0, 0⟩, by decide, rfl⟩
  revert hstamp
  decide +kernel

end CFactory.Copilot
