import CFactory.Progress.Hydration

/-!
# Housekeeping after hydration

`progress.py:172–178` and `store.py:607–701`. Each turn ends by clearing running stages whose
task is gone, and stages whose task leads to another key. A slice that both leave alone is
tidy, and every slice is so after the turn.
-/

namespace CFactory.Progress

open CFactory.Base CFactory.Model CFactory.Status CFactory.Store

variable {env : PollEnv} {service : Service} {items : List AdapterItem} {key : String}

/-- A stage that reconciling looks at: neither idle, finished nor dead; `store.py:625`. -/
def running (status : Option String) : Bool :=
  truthy status && !isTerminal status && !isDeadStage status

/-- Housekeeping leaves the slice of a row alone: a running task is live, and the task leads
to no other key. -/
def Tidy (env : PollEnv) (items : List AdapterItem) (key : String) (s : ServiceState) : Prop :=
  ∀ id ∈ s.taskId,
    (running s.status = true → id ∈ (live env items).map AdapterItem.taskId) ∧
      ∀ k ∈ taskIdToKey (live env items) id, k = key

/-- The columns that clearing a stage assigns. -/
def clearStage (service : Service) (now : Time) : RowChanges :=
  { slice := some (service, .blank), updatedAt := now }

/-- A cleared stage is blank. -/
theorem slice_clearStage (now : Time) (item : WorkItem) :
    ((clearStage service now).apply item).slice service = .blank := Function.update_self _ _ _

/-- What housekeeping makes of a row. -/
def housekeep (env : PollEnv) (service : Service) (items : List AdapterItem) (n : Nat)
    (r : WorkItemRow) : Option WorkItemRow :=
  ((reconcileAction none service ((live env items).map AdapterItem.taskId) (env.now n) r).run
    r).bind fun q ↦
      (pruneDuplicateAction none service (taskIdToKey (live env items)) (env.now (n + 1)) q).run q

/-- Pruning takes the row with its last stage; `store.py:115–122,697–700`. -/
def removes (env : PollEnv) (service : Service) (items : List AdapterItem)
    (r : WorkItemRow) : Bool :=
  ((pruneDuplicateAction none service (taskIdToKey (live env items)) 0 r).run r).isNone

/-- A turn hydrates a row and then tidies it. -/
theorem row_pass_housekeep (n : Nat) (t : WorkItemTable) (key : String) :
    (pass env service items n t).row? key =
      ((hydrate env (newestIds env items t) (live env items) n t).row? key).bind
        (housekeep env service items (n + (live env items).length)) := by
  rw [row_pass, Option.bind_assoc]
  rfl

/-- The key that a task's id leads to is one that it is hydrated on. -/
theorem hydrated_of_taskIdToKey {tasks : List AdapterItem} {id k : String}
    (h : taskIdToKey tasks id = some k) : ∃ j ∈ tasks, j.taskId = id ∧ j.correlationKey = k := by
  obtain ⟨j, hj, rfl⟩ := Option.map_eq_some_iff.mp h
  have hmem := List.mem_filter.mp (List.mem_of_getLast? hj)
  exact ⟨j, hmem.1, of_decide_eq_true hmem.2, rfl⟩

/-- A slice without a task is tidy. -/
theorem tidy_of_none {s : ServiceState} (h : s.taskId = none) : Tidy env items key s := by
  intro id hid
  rw [h] at hid
  exact absurd hid (by simp)

/-- Reconciling keeps a row whose slice is idle or shows a listed task, and clears the slice of any
other. -/
theorem run_reconcile (ids : List String) (now : Time) (r : WorkItemRow) :
    (reconcileAction none service ids now r).run r =
      some (if ∀ id ∈ (r.item.slice service).taskId, running (r.item.slice service).status = true →
          id ∈ ids then r
        else { r with item := (clearStage service now).apply r.item }) := by
  have hscope : inScope none r = true := rfl
  unfold reconcileAction
  simp only [hscope, Bool.not_true, Bool.false_or]
  split
  · next hidle =>
    have hrun : running (r.item.slice service).status = false := by
      simp only [Bool.or_eq_true, Bool.not_eq_true'] at hidle
      rcases hidle with (h | h) | h <;> simp [running, h]
    rw [if_pos (by simp [hrun]), RowAction.run]
  · next hidle =>
    have hrun : running (r.item.slice service).status = true := by
      simp only [Bool.or_eq_true, Bool.not_eq_true', not_or, Bool.not_eq_true,
        Bool.not_eq_false] at hidle
      simp [running, hidle]
    cases htask : (r.item.slice service).taskId with
    | none => rw [if_pos (by simp), RowAction.run]
    | some id =>
      by_cases hlisted : id ∈ ids
      · rw [if_pos fun x hx _ ↦ Option.some.inj hx ▸ hlisted]
        simp only [if_pos hlisted, RowAction.run]
      · rw [if_neg fun h ↦ hlisted (h id rfl hrun)]
        simp only [if_neg hlisted, RowAction.run]
        rfl

private theorem prune_keeps {r : WorkItemRow}
    (h : ∀ id ∈ (r.item.slice service).taskId, ∀ k ∈ taskIdToKey (live env items) id, k = r.key)
    (now : Time) :
    pruneDuplicateAction none service (taskIdToKey (live env items)) now r = .keep := by
  unfold pruneDuplicateAction
  split
  · rfl
  · next canon hcanon =>
    obtain ⟨id, hid, hk⟩ := Option.bind_eq_some_iff.mp hcanon
    rw [if_neg]
    rintro ⟨-, hne⟩
    exact hne (h id hid canon hk)

private theorem prune_clears {r : WorkItemRow}
    (h : ¬ ∀ id ∈ (r.item.slice service).taskId, ∀ k ∈ taskIdToKey (live env items) id,
      k = r.key) (now : Time) {q : WorkItemRow}
    (hrun : (pruneDuplicateAction none service (taskIdToKey (live env items)) now r).run r =
      some q) : q.item.slice service = .blank ∧ q.item.updatedAt = now := by
  push Not at h
  obtain ⟨id, hid, k, hk, hne⟩ := h
  have hscope : inScope none r = true := rfl
  have hcanon : (r.item.slice service).taskId.bind (taskIdToKey (live env items)) = some k :=
    Option.bind_eq_some_iff.mpr ⟨id, hid, hk⟩
  simp only [pruneDuplicateAction, hcanon, hscope, ne_eq, hne, not_false_eq_true, and_self,
    ↓reduceIte] at hrun
  split at hrun
  · rw [← Option.some.inj hrun]
    exact ⟨Function.update_self _ _ _, rfl⟩
  · exact absurd hrun (by simp [RowAction.run])

/-- Reconciling leaves a row alone whose slice is tidy. -/
theorem reconcile_tidy {r : WorkItemRow} (h : Tidy env items r.key (r.item.slice service))
    (now : Time) :
    (reconcileAction none service ((live env items).map AdapterItem.taskId) now r).run r =
      some r := by
  rw [run_reconcile, if_pos fun id hid ↦ (h id hid).1]

/-- Pruning leaves a row alone whose slice is tidy. -/
theorem prune_tidy {r : WorkItemRow} (h : Tidy env items r.key (r.item.slice service))
    (now : Time) :
    (pruneDuplicateAction none service (taskIdToKey (live env items)) now r).run r = some r := by
  rw [prune_keeps fun id hid ↦ (h id hid).2, RowAction.run]

/-- Housekeeping leaves a row alone whose slice is tidy. -/
theorem housekeep_tidy {r : WorkItemRow} (h : Tidy env items r.key (r.item.slice service))
    (n : Nat) : housekeep env service items n r = some r := by
  rw [housekeep, reconcile_tidy h, Option.bind_some, prune_tidy h]

/-- Housekeeping clears any other slice, and stamps the row if it does not delete it. -/
theorem housekeep_untidy {r q : WorkItemRow} (h : ¬ Tidy env items r.key (r.item.slice service))
    {n : Nat} (hrun : housekeep env service items n r = some q) :
    q.item.slice service = .blank ∧ ∃ m, q.item.updatedAt = env.now m := by
  rw [housekeep, run_reconcile, Option.bind_some] at hrun
  split at hrun
  · next hlive =>
    have hcanon : ¬ ∀ id ∈ (r.item.slice service).taskId,
        ∀ k ∈ taskIdToKey (live env items) id, k = r.key := by
      intro hcanon
      exact h fun id hid ↦ ⟨hlive id hid, hcanon id hid⟩
    obtain ⟨hblank, hstamp⟩ := prune_clears hcanon _ hrun
    exact ⟨hblank, n + 1, hstamp⟩
  · rw [prune_keeps (by simp [slice_clearStage]), RowAction.run] at hrun
    rw [← Option.some.inj hrun]
    exact ⟨slice_clearStage _ _, n, rfl⟩

/-- Whether pruning takes a row does not depend on the stamp. -/
private theorem prune_stamp (r : WorkItemRow) (u v : Time)
    (h : (pruneDuplicateAction none service (taskIdToKey (live env items)) u r).run r = none) :
    (pruneDuplicateAction none service (taskIdToKey (live env items)) v r).run r = none := by
  have hstamp : rowHasStageData ((clearStage service u).apply r.item) =
    rowHasStageData ((clearStage service v).apply r.item) := rfl
  unfold pruneDuplicateAction at h ⊢
  split at h
  · exact absurd h (by simp [RowAction.run])
  · split at h
    · next hne =>
      simp only [if_pos hne]
      simp only at h
      split at h
      · exact absurd h (by simp [RowAction.run])
      · next hdata => exact congrArg (fun a ↦ RowAction.run a r) (if_neg (hstamp ▸ hdata))
    · exact absurd h (by simp [RowAction.run])

/-- Housekeeping deletes the rows that pruning takes away. -/
theorem housekeep_eq_none_iff {r : WorkItemRow} {n : Nat} :
    housekeep env service items n r = none ↔ removes env service items r = true := by
  rw [removes, Option.isNone_iff_eq_none, housekeep, run_reconcile, Option.bind_some]
  by_cases hlive : ∀ id ∈ (r.item.slice service).taskId,
      running (r.item.slice service).status = true → id ∈ (live env items).map AdapterItem.taskId
  · rw [if_pos hlive]
    exact ⟨prune_stamp r _ _, prune_stamp r _ _⟩
  · rw [if_neg hlive, prune_keeps (by simp [slice_clearStage]), RowAction.run]
    refine ⟨fun h ↦ absurd h (by simp), fun h ↦ absurd ?_ hlive⟩
    -- a task that leads to a key is live
    intro id hid _
    unfold pruneDuplicateAction at h
    split at h
    · exact absurd h (by simp [RowAction.run])
    · next canon hcanon =>
      obtain ⟨id', hid', hk⟩ := Option.bind_eq_some_iff.mp hcanon
      obtain ⟨j, hj, hjid, -⟩ := hydrated_of_taskIdToKey hk
      have hsame : id = id' := Option.some.inj (hid.symm.trans hid')
      rw [hsame, ← hjid]
      exact List.mem_map_of_mem hj

/-- After a service's turn its slices are tidy. -/
theorem tidy_pass (n : Nat) (t : WorkItemTable) (key : String) :
    Tidy env items key (sliceAt (pass env service items n t) key service) := by
  rw [sliceAt]
  cases hq : (pass env service items n t).row? key with
  | none => exact tidy_of_none rfl
  | some q =>
    rw [row_pass_housekeep] at hq
    obtain ⟨r, hr, hq⟩ := Option.bind_eq_some_iff.mp hq
    have hkey : r.key = key := WorkItemTable.key_of_row hr
    by_cases h : Tidy env items r.key (r.item.slice service)
    · rw [housekeep_tidy h] at hq
      rw [← Option.some.inj hq, ← hkey]
      exact h
    · rw [Option.elim_some, (housekeep_untidy h hq).1]
      exact tidy_of_none rfl

end CFactory.Progress
