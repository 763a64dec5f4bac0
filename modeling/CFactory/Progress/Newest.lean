import CFactory.Progress.Poll

/-!
# The newest task of a key

`progress.py:135–171`. Where all tasks on a key have distinct creation times, the newest one
is the only one hydrated on that key, so a turn revises the key's row by its snapshot alone.
-/

namespace CFactory.Progress

open CFactory.Base CFactory.Model CFactory.Status CFactory.Store

variable (env : PollEnv) (items : List AdapterItem)

/-- The tasks that are listed on a key. -/
def tasksOn (key : String) : List AdapterItem :=
  items.filter fun i ↦ decide (i.correlationKey = key)

/-- All tasks on a key have creation times, pairwise distinct, and this is the newest. -/
structure NewestOn (key : String) (o : AdapterItem) : Prop where
  mem : o ∈ tasksOn items key
  stamped : ∀ i ∈ tasksOn items key, created env i ≠ none
  distinct : ((tasksOn items key).map (created env)).Nodup
  latest : ∀ i ∈ tasksOn items key, ∀ t u, created env i = some t → created env o = some u → t ≤ u

variable {env items} {key : String} {o : AdapterItem}

/-! ### Owner selection -/

/-- The newest task of a key is on that key. -/
theorem NewestOn.onKey (h : NewestOn env items key o) : o.correlationKey = key := by
  simpa [tasksOn] using (List.mem_filter.mp h.mem).2

private theorem length_stamped {group : List AdapterItem}
    (h : ∀ i ∈ group, created env i ≠ none) : (stamped env group).length = group.length := by
  induction group with
  | nil => rfl
  | cons i rest ih =>
    obtain ⟨t, ht⟩ := Option.ne_none_iff_exists'.mp (h i List.mem_cons_self)
    have hrest := ih fun j hj ↦ h j (List.mem_cons_of_mem i hj)
    rw [stamped, List.filterMap_cons, ht]
    exact congrArg (· + 1) hrest

/-- A stamped task is one of the group at its creation time. -/
theorem mem_stamped {group : List AdapterItem} {t : Time} {i : AdapterItem} :
    (t, i) ∈ stamped env group ↔ i ∈ group ∧ created env i = some t := by
  unfold stamped
  rw [List.mem_filterMap]
  constructor
  · rintro ⟨j, hj, hjt⟩
    obtain ⟨u, hu, he⟩ := Option.map_eq_some_iff.mp hjt
    cases he
    exact ⟨hj, hu⟩
  · rintro ⟨hi, ht⟩
    exact ⟨i, hi, by rw [ht]; rfl⟩

/-- The latest creation time of a key's tasks is the newest task's. -/
theorem newestOf_stamped (h : NewestOn env items key o) :
    newestOf (stamped env (tasksOn items key)) = some o := by
  obtain ⟨u, hu⟩ := Option.ne_none_iff_exists'.mp (h.stamped o h.mem)
  obtain ⟨t, i, hi, hmem, hle⟩ := newestOf_spec (mem_stamped.mpr ⟨h.mem, hu⟩)
  have hit := mem_stamped.mp hmem
  have hge : t ≤ u := h.latest i hit.1 t u hit.2 hu
  have hsame : created env i = created env o := by rw [hit.2, hu, le_antisymm hge hle]
  rw [hi, List.inj_on_of_nodup_map h.distinct hit.1 h.mem hsame]

private theorem group_of_newest (h : NewestOn env items key o) :
    (key, tasksOn items key) ∈ (groups items).entries := by
  rw [← Dict.get?_eq_some_iff, groups, Dict.get?_groupBy]
  have hne : items.filter (fun i ↦ decide (i.correlationKey = key)) ≠ [] := by
    intro hnil
    have := h.mem
    rw [tasksOn, hnil] at this
    exact absurd this (by simp)
  rw [if_neg hne]
  rfl

private theorem keys_of_group {k : String} {group : List AdapterItem}
    (h : (k, group) ∈ (groups items).entries) : ∀ i ∈ group, i.correlationKey = k := by
  rw [Dict.mem_groupBy _ h]
  intro i hi
  simpa using (List.mem_filter.mp hi).2

private theorem allStamped_of_newest (h : NewestOn env items key o) :
    allStamped env (tasksOn items key) = true :=
  beq_iff_eq.mpr (length_stamped h.stamped)

/-- The only owner on the key is its newest task. -/
theorem owners_on (h : NewestOn env items key o) :
    (owners env items).filter (fun i ↦ decide (i.correlationKey = key)) = [o] := by
  have hother : ∀ e ∈ (groups items).entries, e.1 ≠ key → ∀ i ∈ (if allStamped env e.2 then
      (newestOf (stamped env e.2)).toList else []),
        decide (i.correlationKey = key) = false := by
    intro e he hne i hi
    have hmem : i ∈ e.2 := by
      split at hi
      · rw [Option.mem_toList] at hi
        obtain ⟨t, ht⟩ := mem_of_newestOf hi
        exact (mem_stamped.mp ht).1
      · simp at hi
    rw [decide_eq_false_iff_not, keys_of_group he i hmem]
    exact hne
  rw [owners, Dict.filter_flatMap_values (groups items) _ _ (group_of_newest h) hother,
    if_pos (allStamped_of_newest h), newestOf_stamped h]
  simp [h.onKey]

/-- No other task on the key is hydrated. -/
theorem live_on (h : NewestOn env items key o) :
    (live env items).filter (fun i ↦ decide (i.correlationKey = key)) = [o] := by
  have hother : ∀ e ∈ (groups items).entries, e.1 ≠ key →
      ∀ i ∈ (if allStamped env e.2 then [] else e.2), decide (i.correlationKey = key) = false := by
    intro e he hne i hi
    have hmem : i ∈ e.2 := by
      split at hi
      · simp at hi
      · exact hi
    rw [decide_eq_false_iff_not, keys_of_group he i hmem]
    exact hne
  have hrest : (rest env items).filter (fun i ↦ decide (i.correlationKey = key)) = [] := by
    rw [rest, Dict.filter_flatMap_values (groups items) _ _ (group_of_newest h) hother,
      if_pos (allStamped_of_newest h)]
    rfl
  rw [live, List.filter_append, owners_on h, List.filter_comm, hrest]
  rfl

/-- The newest task is hydrated. -/
theorem mem_live (h : NewestOn env items key o) : o ∈ live env items := by
  have : o ∈ (live env items).filter fun i ↦ decide (i.correlationKey = key) := by
    rw [live_on h]
    exact List.mem_singleton.mpr rfl
  exact (List.mem_filter.mp this).1

/-! ### Hydration of the row -/

/-- Hydrating tasks of other keys leaves a row alone. -/
theorem row_hydrate_other (newest : List String) {tasks : List AdapterItem}
    (h : tasks.filter (fun i ↦ decide (i.correlationKey = key)) = []) (n : Nat)
    (t : WorkItemTable) : (hydrate env newest tasks n t).row? key = t.row? key := by
  induction tasks generalizing n t with
  | nil => rfl
  | cons i rest ih =>
    have hi : ¬ i.correlationKey = key := by
      have := List.filter_eq_nil_iff.mp h i List.mem_cons_self
      simpa using this
    have hrest : rest.filter (fun i ↦ decide (i.correlationKey = key)) = [] := by
      simpa [hi] using h
    rw [hydrate, ih hrest, row_table, StoreCall.onRow]
    exact if_neg (Ne.symm hi)

/-- Hydrating one task of a key revises the row by that task's snapshot. -/
theorem row_hydrate (newest : List String) {tasks : List AdapterItem}
    (h : tasks.filter (fun i ↦ decide (i.correlationKey = key)) = [o]) (n : Nat)
    (t : WorkItemTable) :
    ∃ now, (hydrate env newest tasks n t).row? key =
      some (upsertRow none (reviseBySnapshot (o.snapshot newest) now)
        (snapshotItem (o.snapshot newest) now) (t.row? key)) := by
  induction tasks generalizing n t with
  | nil => simp at h
  | cons i rest ih =>
    by_cases hi : i.correlationKey = key
    · have hcons : i = o ∧ rest.filter (fun i ↦ decide (i.correlationKey = key)) = [] := by
        simpa [hi] using h
      obtain ⟨rfl, hrest⟩ := hcons
      refine ⟨env.now n, ?_⟩
      rw [hydrate, row_hydrate_other newest hrest, row_table, StoreCall.onRow]
      exact if_pos hi.symm
    · have hrest : rest.filter (fun i ↦ decide (i.correlationKey = key)) = [o] := by
        simpa [hi] using h
      obtain ⟨now, hnow⟩ := ih hrest (n + 1)
        (StoreCall.table t ⟨none, env.now n, .snapshot (i.snapshot newest)⟩)
      refine ⟨now, ?_⟩
      have hsame : (StoreCall.table t ⟨none, env.now n, .snapshot (i.snapshot newest)⟩).row? key =
          t.row? key := by
        rw [row_table, StoreCall.onRow]
        exact if_neg (Ne.symm hi)
      rw [hydrate, hnow, hsame]

end CFactory.Progress
