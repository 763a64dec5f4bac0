import CFactory.Store.Timeline

/-!
# Last-known-good cost

`store.py:156–175,278–325,545–601`. A producer that knows no cost must not blank the cost
that is stored. A poll carries the four cost fields forward as they are; an event without
usage carries the usage and the workers forward and derives the two breakdowns from the
workers again.
-/

namespace CFactory.Store

open CFactory.Base CFactory.Model CFactory.Status

/-- The four cost fields are as they were; breakdowns are compared as mappings. -/
structure SameCost (s s' : ServiceState) : Prop where
  usage : s'.usage = s.usage
  workers : s'.workers = s.workers
  byProvider : s.byProvider.Same s'.byProvider
  byModel : s.byModel.Same s'.byModel

/-- The stored breakdowns are those of the worker map. -/
def Consistent (s : ServiceState) : Prop :=
  s.byProvider.Same (rollupBy s.workers .provider) ∧ s.byModel.Same (rollupBy s.workers .model)

/-- A write that brings no cost: an ordinary event without usage, or a snapshot whose usage,
workers and breakdowns are empty. It is made for one slice of one row, in the row's scope. -/
def QuietWrite (key : String) (service : Service) (tenant : String) (call : StoreCall) : Prop :=
  call.scope.all (· == tenant) = true ∧
    match call.writer with
    | .event event =>
      event.correlationKey = key ∧ event.service = service ∧ isScalar event = true ∧
        event.usage = none
    | .snapshot snap =>
      snap.correlationKey = key ∧ snap.service = service ∧ snap.state.usage = none ∧
        snap.state.workers.entries = [] ∧ snap.state.byProvider.entries = [] ∧
        snap.state.byModel.entries = []
    | _ => False

/-- The call brings no event that the timeline does not have. -/
def BringsNothingNew (timeline : List CompletionEvent) (call : StoreCall) : Prop :=
  ∀ event, call.writer = .event event → alreadyRecorded timeline event = true

/-- Cost fields that agree exactly are the same cost. -/
theorem sameCost_of_eq {s s₁ s₂ : ServiceState} (h : SameCost s s₁) (husage : s₂.usage = s₁.usage)
    (hworkers : s₂.workers = s₁.workers) (hprov : s₂.byProvider = s₁.byProvider)
    (hmodel : s₂.byModel = s₁.byModel) : SameCost s s₂ := by
  constructor
  · rw [husage, h.usage]
  · rw [hworkers, h.workers]
  · rw [hprov]
    exact h.byProvider
  · rw [hmodel]
    exact h.byModel

/-! ### One write -/

/-- An ordinary event without usage keeps usage and workers, and derives the breakdowns. -/
theorem quiet_event {event : CompletionEvent} (hscalar : isScalar event = true)
    (husage : event.usage = none) (prev : ServiceState) :
    (applyEvent prev event).usage = prev.usage ∧ (applyEvent prev event).workers = prev.workers ∧
      (applyEvent prev event).byProvider = rollupBy prev.workers .provider ∧
      (applyEvent prev event).byModel = rollupBy prev.workers .model := by
  rw [applyEvent_of_scalar hscalar]
  simp [attachAccessVerification, applyTerminalOrScalar, mergeWorkers, explicitRollup, husage]

/-- An empty snapshot carries the four fields forward. -/
theorem quiet_snapshot {snap : Snapshot} (husage : snap.state.usage = none)
    (hworkers : snap.state.workers.entries = []) (hprov : snap.state.byProvider.entries = [])
    (hmodel : snap.state.byModel.entries = []) (item : WorkItem) :
    (snap.slice item).usage = (item.slice snap.service).usage ∧
      (snap.slice item).workers = (item.slice snap.service).workers ∧
      (snap.slice item).byProvider = (item.slice snap.service).byProvider ∧
      (snap.slice item).byModel = (item.slice snap.service).byModel := by
  simp [Snapshot.slice, carryForward, husage, hworkers, hprov, hmodel]

/-- What a quiet write makes of its row: a new event keeps usage and workers and derives the
breakdowns; anything else keeps all four fields, and the timeline too. -/
theorem quiet_row {t : WorkItemTable} {key : String} {service : Service} {r : WorkItemRow}
    (hrow : t.row? key = some r) {call : StoreCall}
    (hquiet : QuietWrite key service r.tenantId call) :
    ∃ r', (call.table t).row? key = some r' ∧ r'.tenantId = r.tenantId ∧
      (r'.item.slice service).usage = (r.item.slice service).usage ∧
      (r'.item.slice service).workers = (r.item.slice service).workers ∧
      ((BringsNothingNew r.item.timeline call ∧ r'.item.timeline = r.item.timeline ∧
          (r'.item.slice service).byProvider = (r.item.slice service).byProvider ∧
          (r'.item.slice service).byModel = (r.item.slice service).byModel) ∨
        (¬ BringsNothingNew r.item.timeline call ∧
          (r'.item.slice service).byProvider =
            rollupBy (r.item.slice service).workers .provider ∧
          (r'.item.slice service).byModel = rollupBy (r.item.slice service).workers .model)) := by
  obtain ⟨hscope, hwrite⟩ := hquiet
  have hs : inScope call.scope r = true := hscope
  split at hwrite
  · next event hcall =>
    obtain ⟨rfl, rfl, hscalar, husage⟩ := hwrite
    refine ⟨_, row_event hcall hrow hs, rfl, ?_⟩
    by_cases hrec : alreadyRecorded r.item.timeline event = true
    · have hnone : reviseByEvent event call.now r.item = none := if_pos hrec
      have hnothing : BringsNothingNew r.item.timeline call := by
        intro e he
        rw [hcall] at he
        cases he
        exact hrec
      rw [hnone]
      exact ⟨rfl, rfl, Or.inl ⟨hnothing, rfl, rfl, rfl⟩⟩
    · have hsome : reviseByEvent event call.now r.item =
          some (eventChanges r.item event call.now) := if_neg hrec
      have hnew : ¬ BringsNothingNew r.item.timeline call := fun h ↦ hrec (h event hcall)
      obtain ⟨hu, hw, hp, hm⟩ := quiet_event hscalar husage (r.item.slice event.service)
      rw [hsome]
      simp only [Option.elim_some, eventChanges, RowChanges.apply, Function.update_self]
      exact ⟨hu, hw, Or.inr ⟨hnew, hp, hm⟩⟩
  · next snap hcall =>
    obtain ⟨rfl, rfl, husage, hworkers, hprov, hmodel⟩ := hwrite
    have hnothing : BringsNothingNew r.item.timeline call := by
      intro e he
      rw [hcall] at he
      exact absurd he (by simp)
    refine ⟨_, row_snapshot hcall hrow hs, rfl, ?_⟩
    by_cases hskip : skips snap r.item = true
    · have hnone : reviseBySnapshot snap call.now r.item = none := if_pos hskip
      rw [hnone]
      exact ⟨rfl, rfl, Or.inl ⟨hnothing, rfl, rfl, rfl⟩⟩
    · have hsome : reviseBySnapshot snap call.now r.item =
          some (snapshotChanges snap r.item call.now) := if_neg hskip
      obtain ⟨hu, hw, hp, hm⟩ := quiet_snapshot husage hworkers hprov hmodel r.item
      rw [hsome]
      simp only [Option.elim_some, snapshotChanges, RowChanges.apply, Function.update_self]
      exact ⟨hu, hw, Or.inl ⟨hnothing, rfl, hp, hm⟩⟩
  · exact absurd hwrite id

/-! ### Runs of quiet writes -/

/-- The row under a key holds a slice of the same cost. -/
def CostKept (key : String) (service : Service) (s : ServiceState) (t : WorkItemTable) : Prop :=
  ∃ row, t.row? key = some row ∧ SameCost s (row.item.slice service)

variable {key : String} {service : Service} {s : ServiceState}

private theorem kept_of_consistent (hs : Consistent s) {calls : List StoreCall}
    {t : WorkItemTable} {r : WorkItemRow} (hrow : t.row? key = some r)
    (hcost : SameCost s (r.item.slice service))
    (hquiet : ∀ call ∈ calls, QuietWrite key service r.tenantId call) :
    Throughout StoreCall.table (CostKept key service s) t calls := by
  induction calls generalizing t r with
  | nil => exact ⟨r, hrow, hcost⟩
  | cons call rest ih =>
    obtain ⟨r', hr', htenant, hu, hw, hcase⟩ := quiet_row hrow (hquiet call List.mem_cons_self)
    have hnext : SameCost s (r'.item.slice service) := by
      rcases hcase with ⟨-, -, hp, hm⟩ | ⟨-, hp, hm⟩
      · exact sameCost_of_eq hcost hu hw hp hm
      · constructor
        · rw [hu, hcost.usage]
        · rw [hw, hcost.workers]
        · rw [hp, hcost.workers]
          exact hs.1
        · rw [hm, hcost.workers]
          exact hs.2
    refine ⟨⟨r, hrow, hcost⟩, ih hr' hnext ?_⟩
    intro c hc
    rw [htenant]
    exact hquiet c (List.mem_cons_of_mem _ hc)

private theorem kept_of_nothing_new {calls : List StoreCall} {t : WorkItemTable} {r : WorkItemRow}
    (hrow : t.row? key = some r) (hcost : SameCost s (r.item.slice service))
    (hquiet : ∀ call ∈ calls, QuietWrite key service r.tenantId call)
    (hnothing : ∀ call ∈ calls, BringsNothingNew r.item.timeline call) :
    Throughout StoreCall.table (CostKept key service s) t calls := by
  induction calls generalizing t r with
  | nil => exact ⟨r, hrow, hcost⟩
  | cons call rest ih =>
    obtain ⟨r', hr', htenant, hu, hw, hcase⟩ := quiet_row hrow (hquiet call List.mem_cons_self)
    rcases hcase with ⟨-, htl, hp, hm⟩ | ⟨hnew, -⟩
    · refine ⟨⟨r, hrow, hcost⟩, ih hr' (sameCost_of_eq hcost hu hw hp hm) ?_ ?_⟩
      · intro c hc
        rw [htenant]
        exact hquiet c (List.mem_cons_of_mem _ hc)
      · intro c hc
        rw [htl]
        exact hnothing c (List.mem_cons_of_mem _ hc)
    · exact absurd (hnothing call List.mem_cons_self) hnew

/-- The first new event of the run shows whether the breakdowns were those of the workers. -/
private theorem consistent_or_nothing_new {calls : List StoreCall} {t : WorkItemTable}
    {r : WorkItemRow} (hrow : t.row? key = some r) (hcost : SameCost s (r.item.slice service))
    (hquiet : ∀ call ∈ calls, QuietWrite key service r.tenantId call)
    (hkept : Throughout StoreCall.table (CostKept key service s) t calls) :
    Consistent s ∨ ∀ call ∈ calls, BringsNothingNew r.item.timeline call := by
  induction calls generalizing t r with
  | nil => exact Or.inr (by simp)
  | cons call rest ih =>
    obtain ⟨r', hr', htenant, hu, hw, hcase⟩ := quiet_row hrow (hquiet call List.mem_cons_self)
    obtain ⟨r'', hr'', hnext⟩ := hkept.2.start
    obtain rfl : r' = r'' := Option.some.inj (hr'.symm.trans hr'')
    rcases hcase with ⟨hnothing, htl, -, -⟩ | ⟨-, hp, hm⟩
    · have hrest : ∀ c ∈ rest, QuietWrite key service r'.tenantId c := by
        intro c hc
        rw [htenant]
        exact hquiet c (List.mem_cons_of_mem _ hc)
      apply (ih hr' hnext hrest hkept.2).imp id
      intro hall c hc
      rcases List.mem_cons.mp hc with rfl | hc
      · exact hnothing
      · rw [← htl]
        exact hall c hc
    · left
      constructor
      · have := hnext.byProvider
        rwa [hp, hcost.workers] at this
      · have := hnext.byModel
        rwa [hm, hcost.workers] at this

/-- A run of quiet writes keeps the cost throughout exactly when the stored breakdowns are
those of the worker map, or every event of the run is already in the timeline. -/
theorem cost_kept_iff (t : WorkItemTable) (key : String) (service : Service) (r : WorkItemRow)
    (calls : List StoreCall) (hrow : t.row? key = some r)
    (hquiet : ∀ call ∈ calls, QuietWrite key service r.tenantId call) :
    Throughout StoreCall.table (CostKept key service (r.item.slice service)) t calls ↔
      Consistent (r.item.slice service) ∨
        ∀ call ∈ calls, BringsNothingNew r.item.timeline call := by
  have hself : SameCost (r.item.slice service) (r.item.slice service) :=
    ⟨rfl, rfl, Dict.Same.refl _, Dict.Same.refl _⟩
  constructor
  · exact consistent_or_nothing_new hrow hself hquiet
  · rintro (hs | hnothing)
    · exact kept_of_consistent hs hrow hself hquiet
    · exact kept_of_nothing_new hrow hself hquiet hnothing

/-- A worker sub-event with a cost. -/
def workerEvent : CompletionEvent :=
  { id := some "w-1", correlationKey := "42", service := .aifactory, taskId := "af-1"
    status := "worker_done", phase := some "worker"
    worker := some { workerId := "w1", provider := some "claude", totalTokens := 900 } }

/-- The breakdown that a producer reports. -/
def reportedRollup : Rollup :=
  ⟨[("claude", { emptyBucket with totalTokens := some 900 })], by decide⟩

/-- A terminal event with its own breakdown and no worker list. -/
def pricedEvent : CompletionEvent :=
  { id := some "e-1", correlationKey := "42", service := .aifactory, taskId := "af-1"
    status := "coding_complete"
    usage := some { totalTokens := 900, byProvider := some reportedRollup } }

/-- A transition that carries no usage. -/
def reviewEvent : CompletionEvent :=
  { id := some "e-2", correlationKey := "42", service := .aifactory, taskId := "af-1"
    status := "human_review" }

/-- After a worker sub-event the cost survives a transition without usage. -/
theorem worker_cost_kept :
    Throughout StoreCall.table
      (CostKept "42" .aifactory ((ingest (newItem "42" 0) workerEvent 0).slice .aifactory))
      (serve .empty [⟨none, 0, .event workerEvent⟩]) [⟨none, 1, .event reviewEvent⟩] := by
  have hrow : (serve .empty [⟨none, 0, .event workerEvent⟩]).row? "42" =
      some ⟨DEFAULT_TENANT, ingest (newItem "42" 0) workerEvent 0⟩ := by rfl
  apply (cost_kept_iff _ "42" .aifactory _ [⟨none, 1, .event reviewEvent⟩] hrow ?_).mpr
  · left
    constructor
    · exact Dict.Same.refl _
    · exact Dict.Same.refl _
  · intro call hcall
    rw [List.mem_singleton.mp hcall]
    exact ⟨rfl, rfl, rfl, by decide, rfl⟩

/-- The breakdown of a terminal event is lost at the next transition without usage. -/
theorem explicit_breakdown_lost :
    ¬ Throughout StoreCall.table
      (CostKept "42" .aifactory ((ingest (newItem "42" 0) pricedEvent 0).slice .aifactory))
      (serve .empty [⟨none, 0, .event pricedEvent⟩]) [⟨none, 1, .event reviewEvent⟩] := by
  intro h
  obtain ⟨row, hrow, hcost⟩ := h.2.start
  have hafter : (StoreCall.table (serve .empty [⟨none, 0, .event pricedEvent⟩])
      ⟨none, 1, .event reviewEvent⟩).row? "42" = some ⟨DEFAULT_TENANT,
        ingest (ingest (newItem "42" 0) pricedEvent 0) reviewEvent 1⟩ := by rfl
  obtain rfl := Option.some.inj (hafter.symm.trans hrow)
  have hlost := hcost.byProvider "claude"
  revert hlost
  decide

end CFactory.Store
