import CFactory.Store.Table
import Mathlib.Algebra.BigOperators.Group.List.Basic
import Mathlib.Algebra.Order.Field.Rat
import Mathlib.Data.List.Sort

/-!
# Token totals

`copilot/tools.py:80–213`. The usage of every slice is added up three times in one loop: over the
fleet, by service, and by work item. The work items are listed where their tokens or their cost are
not zero.
-/

namespace CFactory.Copilot

open CFactory.Base CFactory.Model CFactory.Store

/-- The services in the order in which the tools read their slices. -/
def services : List Service := [.pfactory, .aifactory, .tfactory]

/-- `list`: the rows in scope, those changed last first; `store.py:708–711`. -/
def storeList (t : WorkItemTable) (scope : Option String) : List WorkItem :=
  ((t.rows.filter (inScope scope)).insertionSort fun r q ↦
    q.item.updatedAt ≤ r.item.updatedAt).map WorkItemRow.item

/-! ## Amounts -/

/-- The four amounts that are added up. -/
@[ext] structure Amounts where
  inputTokens : Int := 0
  outputTokens : Int := 0
  totalTokens : Int := 0
  costUsd : Rat := 0
  deriving DecidableEq

namespace Amounts

instance : Zero Amounts := ⟨{}⟩

instance : Add Amounts :=
  ⟨fun a b ↦ ⟨a.inputTokens + b.inputTokens, a.outputTokens + b.outputTokens,
    a.totalTokens + b.totalTokens, a.costUsd + b.costUsd⟩⟩

@[simp] theorem inputTokens_zero : (0 : Amounts).inputTokens = 0 := rfl

@[simp] theorem outputTokens_zero : (0 : Amounts).outputTokens = 0 := rfl

@[simp] theorem totalTokens_zero : (0 : Amounts).totalTokens = 0 := rfl

@[simp] theorem costUsd_zero : (0 : Amounts).costUsd = 0 := rfl

section
variable (a b : Amounts)

@[simp] theorem inputTokens_add : (a + b).inputTokens = a.inputTokens + b.inputTokens := rfl

@[simp] theorem outputTokens_add : (a + b).outputTokens = a.outputTokens + b.outputTokens := rfl

@[simp] theorem totalTokens_add : (a + b).totalTokens = a.totalTokens + b.totalTokens := rfl

@[simp] theorem costUsd_add : (a + b).costUsd = a.costUsd + b.costUsd := rfl

end

/-- Amounts are added field by field. -/
instance : AddCancelCommMonoid Amounts where
  add_assoc a b c := by ext <;> simp [add_assoc]
  zero_add a := by ext <;> simp
  add_zero a := by ext <;> simp
  add_comm a b := by ext <;> simp [add_comm]
  nsmul := nsmulRec
  add_left_cancel a b c h := by
    ext
    · exact add_left_cancel (congrArg inputTokens h)
    · exact add_left_cancel (congrArg outputTokens h)
    · exact add_left_cancel (congrArg totalTokens h)
    · exact add_left_cancel (congrArg costUsd h)

end Amounts

/-- The amounts of a usage block. -/
def usageAmounts (u : TokenUsage) : Amounts :=
  ⟨u.inputTokens, u.outputTokens, u.totalTokens, u.costUsd⟩

/-! ## What a row shows beside its amounts -/

/-- `_METERED_MODES`; `tools.py:80`. -/
def METERED_MODES : List String := ["api", "cloud"]

/-- What one billing mode has used. -/
structure BillingSlot where
  totalTokens : Int := 0
  costUsd : Rat := 0
  durationMs : Int := 0

/-- A work item's usage by billing mode. -/
structure Billing where
  modes : List String
  byMode : Dict String BillingSlot
  meteredCostUsd : Rat
  nonmeteredTokens : Int
  hasMetered : Bool

/-- One provider's bucket in its billing mode; `tools.py:105–110`. -/
def addBilling (byMode : Dict String BillingSlot) (vals : Bucket) : Dict String BillingSlot :=
  let mode := if truthy vals.billingMode then vals.billingMode.getD "" else "unknown"
  let slot := byMode.getD mode {}
  byMode.set mode
    { totalTokens := slot.totalTokens + vals.totalTokens.getD 0
      costUsd := roundTo (slot.costUsd + vals.costUsd.getD 0) 6
      durationMs := slot.durationMs + vals.durationMs.getD 0 }

/-- `_billing_summary`; `tools.py:93–125`. -/
def billingSummary (wi : WorkItem) : Option Billing :=
  let byMode := services.foldl
    (fun byMode svc ↦ (wi.slice svc).byProvider.values.foldl addBilling byMode) Dict.empty
  let metered := byMode.entries.filter fun e ↦ decide (e.1 ∈ METERED_MODES)
  let nonmetered := byMode.entries.filter fun e ↦ decide (e.1 ∉ METERED_MODES)
  if byMode.entries = [] then none
  else some
    { modes := (byMode.entries.map Prod.fst).insertionSort (· ≤ ·)
      byMode
      meteredCostUsd := roundTo (metered.map fun e ↦ e.2.costUsd).sum 6
      nonmeteredTokens := (nonmetered.map fun e ↦ e.2.totalTokens).sum
      hasMetered := metered ≠ [] }

/-- `_wi_elapsed_seconds`; `tools.py:83–90`. -/
def elapsedSeconds (wi : WorkItem) : Option Int :=
  let times := wi.timeline.map CompletionEvent.updatedAt
  times.max?.bind fun last ↦ times.min?.map fun first ↦ max 0 ((last - first).tdiv 1000000)

/-- `_routing_block`; `tools.py:315–329`. -/
def routingBlock (wi : WorkItem) : Option Block :=
  services.findSome? fun svc ↦ ((wi.slice svc).extra .routing).filter fun b ↦ decide (b ≠ [])

/-- The routing saving of a row, for metered work alone; `savingsUsd` reads the number in the
block; `tools.py:186–193`. -/
def routingSavings (savingsUsd : Block → Option Rat) (wi : WorkItem) (billing : Option Billing) :
    Option Rat :=
  if billing.any Billing.hasMetered then
    (((routingBlock wi).bind savingsUsd).filter fun saving ↦ decide (0 < saving)).map (roundTo · 6)
  else none

/-! ## The three sums -/

/-- A service's total; `instrumented` where any slice of it carries usage. -/
structure ServiceTotal where
  amounts : Amounts := 0
  instrumented : Bool := false

/-- A row of `by_work_item`. -/
structure ItemRow where
  correlationKey : String
  title : Option String
  amounts : Amounts
  budget : Option BudgetInfo
  billing : Option Billing
  elapsedSeconds : Option Int
  routingSavingsUsd : Option Rat

/-- The fleet's total. -/
structure FleetTotal where
  amounts : Amounts
  meteredCostUsd : Rat
  hasBillingModes : Bool
  routingSavingsUsd : Option Rat

/-- What `token_totals` returns. -/
structure TokenTotals where
  total : FleetTotal
  byService : Service → ServiceTotal
  byWorkItem : List ItemRow

/-- The sums as one work item is gone through. -/
structure ItemTally where
  byService : Service → ServiceTotal
  total : Amounts
  item : Amounts := 0
  budget : Option BudgetInfo := none

/-- The sums as the work items are gone through. -/
structure Tally where
  byService : Service → ServiceTotal := fun _ ↦ {}
  total : Amounts := 0
  rows : List ItemRow := []

/-- One slice of a work item; `tools.py:155–174`. -/
def addSlice (wi : WorkItem) (st : ItemTally) (svc : Service) : ItemTally :=
  match (wi.slice svc).usage with
  | none => st
  | some u =>
    { byService := Function.update st.byService svc
        ⟨(st.byService svc).amounts + usageAmounts u, true⟩
      total := st.total + usageAmounts u
      item := st.item + usageAmounts u
      budget := u.budget.or st.budget }

/-- A work item is listed where its tokens or its cost are not zero; `tools.py:175`. -/
def listed (a : Amounts) : Bool := a.totalTokens ≠ 0 ∨ a.costUsd ≠ 0

variable (savingsUsd : Block → Option Rat)

/-- The row of a work item. -/
def itemRow (wi : WorkItem) (st : ItemTally) : ItemRow :=
  let billing := billingSummary wi
  { correlationKey := wi.correlationKey
    title := wi.title
    amounts := st.item
    budget := st.budget
    billing
    elapsedSeconds := elapsedSeconds wi
    routingSavingsUsd := routingSavings savingsUsd wi billing }

/-- One work item; `tools.py:152–194`. -/
def addItem (acc : Tally) (wi : WorkItem) : Tally :=
  let st := services.foldl (addSlice wi) { byService := acc.byService, total := acc.total }
  { byService := st.byService
    total := st.total
    rows := if listed st.item then acc.rows ++ [itemRow savingsUsd wi st] else acc.rows }

/-- `token_totals`; `tools.py:128–213`. -/
def tokenTotals (t : WorkItemTable) (scope : Option String) : TokenTotals :=
  let acc := (storeList t scope).foldl (addItem savingsUsd) {}
  let rows := acc.rows.insertionSort fun r q ↦ q.amounts.totalTokens ≤ r.amounts.totalTokens
  let billings := rows.filterMap ItemRow.billing
  let savings := roundTo (rows.map fun r ↦ r.routingSavingsUsd.getD 0).sum 6
  { total :=
      { amounts := acc.total
        meteredCostUsd :=
          if billings ≠ [] then roundTo (billings.map Billing.meteredCostUsd).sum 6
          else acc.total.costUsd
        hasBillingModes := billings ≠ []
        routingSavingsUsd := if 0 < savings then some savings else none }
    byService := acc.byService
    byWorkItem := rows }

/-! ## Conservation -/

/-- The fleet's total is the sum over the services, and the sum over the rows. -/
def Conserved (r : TokenTotals) : Prop :=
  r.total.amounts = (services.map fun svc ↦ (r.byService svc).amounts).sum ∧
    r.total.amounts = (r.byWorkItem.map ItemRow.amounts).sum

/-- What a slice has used. -/
def sliceAmounts (wi : WorkItem) (svc : Service) : Amounts :=
  ((wi.slice svc).usage.map usageAmounts).getD 0

/-- What a work item has used. -/
def itemAmounts (wi : WorkItem) : Amounts := (services.map (sliceAmounts wi)).sum

/-- What the services have used together. -/
def servicesSum (byService : Service → ServiceTotal) : Amounts :=
  (services.map fun svc ↦ (byService svc).amounts).sum

/-- A slice adds what it has used to the three sums. -/
theorem addSlice_spec (wi : WorkItem) (st : ItemTally) (svc : Service) :
    servicesSum (addSlice wi st svc).byService =
        servicesSum st.byService + sliceAmounts wi svc ∧
      (addSlice wi st svc).total = st.total + sliceAmounts wi svc ∧
      (addSlice wi st svc).item = st.item + sliceAmounts wi svc := by
  rw [addSlice, sliceAmounts]
  cases (wi.slice svc).usage with
  | none => exact ⟨(add_zero _).symm, (add_zero _).symm, (add_zero _).symm⟩
  | some u =>
    refine ⟨?_, rfl, rfl⟩
    cases svc with
    | pfactory => simp [servicesSum, services, add_assoc, add_left_comm, add_comm]
    | aifactory => simp [servicesSum, services, add_assoc, add_left_comm, add_comm]
    | tfactory => simp [servicesSum, services, add_left_comm, add_comm]

theorem foldl_addSlice (wi : WorkItem) (svcs : List Service) (st : ItemTally) :
    servicesSum (svcs.foldl (addSlice wi) st).byService =
        servicesSum st.byService + (svcs.map (sliceAmounts wi)).sum ∧
      (svcs.foldl (addSlice wi) st).total = st.total + (svcs.map (sliceAmounts wi)).sum ∧
      (svcs.foldl (addSlice wi) st).item = st.item + (svcs.map (sliceAmounts wi)).sum := by
  induction svcs generalizing st with
  | nil => exact ⟨(add_zero _).symm, (add_zero _).symm, (add_zero _).symm⟩
  | cons svc rest ih =>
    obtain ⟨hservices, htotal, hitem⟩ := ih (addSlice wi st svc)
    obtain ⟨hservices', htotal', hitem'⟩ := addSlice_spec wi st svc
    rw [List.foldl_cons, List.map_cons, List.sum_cons, hservices, htotal, hitem, hservices',
      htotal', hitem', add_assoc, add_assoc, add_assoc]
    exact ⟨rfl, rfl, rfl⟩

/-- The work items that are not listed. -/
def unlisted (items : List WorkItem) : List WorkItem :=
  items.filter fun wi ↦ !listed (itemAmounts wi)

/-- The work items add what they have used to the fleet and to the services, and those that are
listed to the rows. -/
theorem foldl_addItem (items : List WorkItem) (acc : Tally) :
    servicesSum (items.foldl (addItem savingsUsd) acc).byService =
        servicesSum acc.byService + (items.map itemAmounts).sum ∧
      (items.foldl (addItem savingsUsd) acc).total = acc.total + (items.map itemAmounts).sum ∧
      ((items.foldl (addItem savingsUsd) acc).rows.map ItemRow.amounts).sum +
          ((unlisted items).map itemAmounts).sum =
        (acc.rows.map ItemRow.amounts).sum + (items.map itemAmounts).sum := by
  induction items generalizing acc with
  | nil => exact ⟨(add_zero _).symm, (add_zero _).symm, rfl⟩
  | cons wi rest ih =>
    obtain ⟨hservices, htotal, hrows⟩ := ih (addItem savingsUsd acc wi)
    obtain ⟨hservices', htotal', hitem'⟩ :=
      foldl_addSlice wi services { byService := acc.byService, total := acc.total }
    have hitem : (services.foldl (addSlice wi)
        { byService := acc.byService, total := acc.total }).item = itemAmounts wi :=
      hitem'.trans (zero_add _)
    rw [List.foldl_cons, List.map_cons, List.sum_cons]
    refine ⟨?_, ?_, ?_⟩
    · rw [hservices, ← add_assoc]
      exact congrArg (· + _) hservices'
    · rw [htotal, ← add_assoc]
      exact congrArg (· + _) htotal'
    · have hstep : ((addItem savingsUsd acc wi).rows.map ItemRow.amounts).sum +
          ((unlisted [wi]).map itemAmounts).sum =
            (acc.rows.map ItemRow.amounts).sum + itemAmounts wi := by
        rw [addItem, unlisted]
        dsimp only
        rw [hitem]
        cases hlisted : listed (itemAmounts wi) with
        | true => simp [hlisted, itemRow, hitem]
        | false => simp [hlisted]
      have hunlisted : unlisted (wi :: rest) = unlisted [wi] ++ unlisted rest :=
        List.filter_append [wi] rest
      rw [hunlisted, List.map_append, List.sum_append, add_left_comm, hrows, ← add_assoc,
        ← add_assoc, ← hstep, add_comm ((unlisted [wi]).map itemAmounts).sum]

theorem inputTokens_sum (xs : List Amounts) :
    xs.sum.inputTokens = (xs.map Amounts.inputTokens).sum := by
  induction xs with
  | nil => rfl
  | cons x rest ih => rw [List.sum_cons, Amounts.inputTokens_add, ih, List.map_cons, List.sum_cons]

theorem outputTokens_sum (xs : List Amounts) :
    xs.sum.outputTokens = (xs.map Amounts.outputTokens).sum := by
  induction xs with
  | nil => rfl
  | cons x rest ih => rw [List.sum_cons, Amounts.outputTokens_add, ih, List.map_cons, List.sum_cons]

/-- Amounts that are not listed have no tokens in total and no cost together. -/
theorem sum_unlisted {xs : List Amounts} (h : ∀ a ∈ xs, listed a = false) :
    xs.sum.totalTokens = 0 ∧ xs.sum.costUsd = 0 := by
  induction xs with
  | nil => exact ⟨rfl, rfl⟩
  | cons x rest ih =>
    have hx : x.totalTokens = 0 ∧ x.costUsd = 0 := by
      simpa [listed] using h x List.mem_cons_self
    obtain ⟨htotal, hcost⟩ := ih fun a ha ↦ h a (List.mem_cons_of_mem x ha)
    rw [List.sum_cons, Amounts.totalTokens_add, Amounts.costUsd_add, hx.1, hx.2, htotal, hcost]
    exact ⟨add_zero 0, add_zero 0⟩

/-- The amounts are conserved exactly where the work items that are not listed, those without
tokens in total and without cost, have no input and no output tokens together. -/
theorem token_totals_conserved_iff (t : WorkItemTable) (scope : Option String) :
    Conserved (tokenTotals savingsUsd t scope) ↔
      ((unlisted (storeList t scope)).map fun wi ↦ (itemAmounts wi).inputTokens).sum = 0 ∧
        ((unlisted (storeList t scope)).map fun wi ↦ (itemAmounts wi).outputTokens).sum = 0 := by
  obtain ⟨hservices, htotal, hrows⟩ := foldl_addItem savingsUsd (storeList t scope) {}
  have hnothing : servicesSum ({} : Tally).byService = 0 := by simp [servicesSum, services]
  have hfleet : (tokenTotals savingsUsd t scope).total.amounts =
      ((storeList t scope).map itemAmounts).sum := htotal.trans (zero_add _)
  have hservice : (services.map fun svc ↦
      ((tokenTotals savingsUsd t scope).byService svc).amounts).sum =
        ((storeList t scope).map itemAmounts).sum := by
    rw [hnothing, zero_add] at hservices
    exact hservices
  have hlisted : ((tokenTotals savingsUsd t scope).byWorkItem.map ItemRow.amounts).sum +
      ((unlisted (storeList t scope)).map itemAmounts).sum =
        ((storeList t scope).map itemAmounts).sum := by
    rw [tokenTotals]
    dsimp only
    rw [((List.perm_insertionSort _ _).map ItemRow.amounts).sum_eq, hrows]
    exact zero_add _
  have hnone : ∀ a ∈ (unlisted (storeList t scope)).map itemAmounts, listed a = false := by
    intro a ha
    obtain ⟨wi, hwi, rfl⟩ := List.mem_map.mp ha
    simpa using (List.mem_filter.mp hwi).2
  have hzero : ((unlisted (storeList t scope)).map itemAmounts).sum = 0 ↔
      ((unlisted (storeList t scope)).map fun wi ↦ (itemAmounts wi).inputTokens).sum = 0 ∧
        ((unlisted (storeList t scope)).map fun wi ↦ (itemAmounts wi).outputTokens).sum = 0 := by
    obtain ⟨htokens, hcost⟩ := sum_unlisted hnone
    have hinput := inputTokens_sum ((unlisted (storeList t scope)).map itemAmounts)
    have houtput := outputTokens_sum ((unlisted (storeList t scope)).map itemAmounts)
    rw [List.map_map] at hinput houtput
    rw [Amounts.ext_iff, hinput, houtput, htokens, hcost]
    exact ⟨fun h ↦ ⟨h.1, h.2.1⟩, fun h ↦ ⟨h.1, h.2, rfl, rfl⟩⟩
  rw [Conserved, hfleet, hservice, ← hzero]
  constructor
  · rintro ⟨-, hsame⟩
    rw [← hlisted] at hsame
    exact left_eq_add.mp hsame.symm
  · intro hgone
    rw [hgone, add_zero] at hlisted
    exact ⟨rfl, hlisted.symm⟩

/-- A store with one work item. -/
def storing (item : WorkItem) : WorkItemTable := ⟨[⟨DEFAULT_TENANT, item⟩], List.nodup_singleton _⟩

/-- A build whose producer reports input and output tokens and no total. -/
def withoutTotal : WorkItem :=
  { correlationKey := "42"
    slice := Function.update (fun _ ↦ .column) .aifactory
      { usage := some { inputTokens := 100, outputTokens := 50 } } }

/-- Its tokens are in the fleet's total and in no row. -/
theorem withoutTotal_not_conserved :
    ¬ Conserved (tokenTotals (fun _ ↦ none) (storing withoutTotal) none) := by
  intro h
  have hinput := congrArg Amounts.inputTokens h.2
  revert hinput
  decide +kernel

end CFactory.Copilot
