import CFactory.Progress.Owner

/-!
# Several tasks on a key

`progress.py:135–171`. Where not every task of a key has a creation time, several of them may
be hydrated on it, one after the other. Each writes the row of the key, unless the row reads
like the task already or the guard for finished tasks keeps it out.
-/

namespace CFactory.Progress

open CFactory.Base CFactory.Model CFactory.Status CFactory.Store

variable {env : PollEnv} {items : List AdapterItem} {key : String}

/-! ### Which tasks share a key -/

/-- The tasks that are hydrated on a key. -/
def hydratedOn (env : PollEnv) (items : List AdapterItem) (key : String) : List AdapterItem :=
  (live env items).filter fun i ↦ decide (i.correlationKey = key)

/-- A hydrated task is among those of its key. -/
theorem mem_hydratedOn {i : AdapterItem} :
    i ∈ hydratedOn env items key ↔ i ∈ live env items ∧ i.correlationKey = key := by
  rw [hydratedOn, List.mem_filter, decide_eq_true_iff]

/-- A task of a group is listed on the group's key. -/
private theorem group_of_mem {group : List AdapterItem} (h : group ∈ (groups items).values)
    {i : AdapterItem} (hi : i ∈ group) : group = tasksOn items i.correlationKey := by
  obtain ⟨⟨k, g⟩, he, rfl⟩ := List.mem_map.mp h
  have hg := Dict.mem_groupBy _ he
  have hk : i.correlationKey = k := by
    rw [hg] at hi
    simpa using (List.mem_filter.mp hi).2
  rw [hk]
  exact hg

/-- An owner is the newest task of a fully stamped key. -/
theorem owner_spec {o : AdapterItem} (h : o ∈ owners env items) :
    allStamped env (tasksOn items o.correlationKey) = true ∧
      newestOf (stamped env (tasksOn items o.correlationKey)) = some o := by
  obtain ⟨group, hgroup, ho⟩ := List.mem_flatMap.mp h
  split at ho
  · next hall =>
    rw [Option.mem_toList] at ho
    obtain ⟨t, ht⟩ := mem_of_newestOf ho
    rw [← group_of_mem hgroup (mem_stamped.mp ht).1]
    exact ⟨hall, ho⟩
  · exact absurd ho (by simp)

/-- The other tasks are on keys that are not fully stamped. -/
theorem rest_spec {i : AdapterItem} (h : i ∈ rest env items) :
    allStamped env (tasksOn items i.correlationKey) = false := by
  obtain ⟨group, hgroup, hi⟩ := List.mem_flatMap.mp h
  split at hi
  · exact absurd hi (by simp)
  · next hall =>
    rw [← group_of_mem hgroup hi]
    exact Bool.eq_false_iff.mpr hall

/-- An owner is hydrated. -/
theorem live_of_owner {o : AdapterItem} (h : o ∈ owners env items) : o ∈ live env items :=
  List.mem_append_left _ h

private theorem mem_rest_of_live {i : AdapterItem} (h : i ∈ live env items) :
    i ∈ owners env items ∨ (i ∈ rest env items ∧ (i.taskId ∉ stuckIds items ∨
      (i.correlationKey ∉ aliveKeys env items ∧
        lastDead env items i.correlationKey = some i.taskId))) := by
  rw [live, List.mem_append, List.mem_filter, decide_eq_true_iff] at h
  exact h

private theorem alive_of_rest {i : AdapterItem} (h : i ∈ rest env items)
    (hid : i.taskId ∉ stuckIds items) : i.correlationKey ∈ aliveKeys env items :=
  List.mem_map_of_mem (List.mem_filter.mpr ⟨h, decide_eq_true hid⟩)

private theorem status_of_not_stuck {i : AdapterItem} (h : i ∈ items)
    (hid : i.taskId ∉ stuckIds items) : isDeadStage i.status = false := by
  by_contra hdead
  apply hid
  exact List.mem_map_of_mem (List.mem_filter.mpr ⟨h, Bool.of_not_eq_false hdead⟩)

/-- Two tasks hydrated on one key are entries of one task, or neither of them is dead. -/
theorem hydrated_pair {i j : AdapterItem} (hi : i ∈ live env items) (hj : j ∈ live env items)
    (hkey : i.correlationKey = j.correlationKey) :
    i.taskId = j.taskId ∨ isDeadStage j.status = false := by
  have hjitems := listed_of_live hj
  rcases mem_rest_of_live hi with hi | ⟨hi, hilive⟩
  · rcases mem_rest_of_live hj with hj | ⟨hj, -⟩
    · have hnewest := (owner_spec hi).2
      rw [hkey, (owner_spec hj).2] at hnewest
      exact Or.inl (congrArg AdapterItem.taskId (Option.some.inj hnewest)).symm
    · have hall := (owner_spec hi).1
      rw [hkey, rest_spec hj] at hall
      exact absurd hall Bool.false_ne_true
  · rcases mem_rest_of_live hj with hj | ⟨hj, hjlive⟩
    · have hall := (owner_spec hj).1
      rw [← hkey, rest_spec hi] at hall
      exact absurd hall Bool.false_ne_true
    · rcases hjlive with hjlive | ⟨hnone, hjlast⟩
      · exact Or.inr (status_of_not_stuck hjitems hjlive)
      · rcases hilive with hilive | ⟨-, hilast⟩
        · exact absurd (hkey ▸ alive_of_rest hi hilive) hnone
        · rw [hkey, hjlast] at hilast
          exact Or.inl (Option.some.inj hilast).symm

/-- The task that a row shows, as its slice has it. -/
theorem currentTask_eq (t : WorkItemTable) (o : AdapterItem) :
    currentTask t o = (sliceAt t o.correlationKey o.service).taskId := by
  rw [currentTask, WorkItemTable.getRow_eq, sliceAt]
  cases t.row? o.correlationKey with
  | none => rfl
  | some r => rfl

/-- An owner counts as the newest where its row shows a task of its key. -/
theorem mem_newestIds_iff {t : WorkItemTable} {id : String} :
    id ∈ newestIds env items t ↔ ∃ o ∈ owners env items, o.taskId = id ∧
      ∃ x, currentTask t o = some x ∧
        x ∈ ((groups items).getD o.correlationKey []).map AdapterItem.taskId := by
  rw [newestIds, List.mem_map]
  constructor
  · rintro ⟨o, ho, rfl⟩
    obtain ⟨hown, hshown⟩ := List.mem_filter.mp ho
    refine ⟨o, hown, rfl, ?_⟩
    split at hshown
    · exact absurd hshown Bool.false_ne_true
    · next x hx => exact ⟨x, hx, of_decide_eq_true hshown⟩
  · rintro ⟨o, ho, rfl, x, hx, hmem⟩
    refine ⟨o, List.mem_filter.mpr ⟨ho, ?_⟩, rfl⟩
    rw [hx]
    exact decide_eq_true hmem

/-- Tables that show the same tasks have the same newest tasks. -/
theorem newestIds_congr {t u : WorkItemTable}
    (h : ∀ o ∈ owners env items, currentTask t o = currentTask u o) :
    newestIds env items t = newestIds env items u := by
  rw [newestIds, newestIds]
  congr 1
  apply List.filter_congr
  intro o ho
  rw [h o ho]

/-! ### One snapshot -/

/-- A snapshot that is skipped leaves its row alone. -/
theorem upsertRow_skipped {snap : Snapshot} {r : WorkItemRow} (h : skips snap r.item = true)
    (now : Time) :
    upsertRow none (reviseBySnapshot snap now) (snapshotItem snap now) (some r) = r := by
  have hscope : inScope none r = true := rfl
  rw [upsertRow, if_pos hscope, reviseBySnapshot, if_pos h, Option.elim_none]

/-- A snapshot that is not skipped assigns its columns, to the row or to a fresh one. -/
theorem upsertRow_written {snap : Snapshot} {row : Option WorkItemRow}
    (h : ∀ r, row = some r → skips snap r.item = false) (now : Time) :
    ∃ item : WorkItem, (∀ r, row = some r → item = r.item) ∧
      (upsertRow none (reviseBySnapshot snap now) (snapshotItem snap now) row).item =
        (snapshotChanges snap item now).apply item := by
  cases row with
  | none => exact ⟨newItem snap.correlationKey now, by simp, rfl⟩
  | some r =>
    have hscope : inScope none r = true := rfl
    refine ⟨r.item, fun q hq ↦ by rw [Option.some.inj hq], ?_⟩
    rw [upsertRow, if_pos hscope, reviseBySnapshot, h r rfl, if_neg Bool.false_ne_true,
      Option.elim_some]

/-- After a task has been written, the row shows it and is freshly stamped. -/
theorem shows_written (o : AdapterItem) (newest : List String) (item : WorkItem) (now : Time) :
    Shows o (((snapshotChanges (o.snapshot newest) item now).apply item).slice o.service) ∧
      ((snapshotChanges (o.snapshot newest) item now).apply item).updatedAt = now := by
  have hslice : ((snapshotChanges (o.snapshot newest) item now).apply item).slice o.service =
      carryForward (item.slice o.service) o.toState := Function.update_self _ _ _
  rw [hslice]
  exact ⟨shows_carryForward o _, rfl⟩

/-- A title is never lost to a snapshot, and one that a task brings is there afterwards. -/
theorem title_written (snap : Snapshot) (item : WorkItem) (now : Time) :
    (truthy item.title = true → truthy ((snapshotChanges snap item now).apply item).title = true) ∧
      (truthy snap.title = true →
        truthy ((snapshotChanges snap item now).apply item).title = true) := by
  show (_ → truthy (Option.or (if titleNeeded snap item then snap.title else none) item.title) =
    true) ∧ (_ → truthy (Option.or (if titleNeeded snap item then snap.title else none)
      item.title) = true)
  cases hneeded : titleNeeded snap item with
  | true =>
    have hboth : truthy snap.title = true ∧ truthy item.title = false := by
      simpa [titleNeeded] using hneeded
    rw [if_pos rfl]
    constructor
    · intro h
      rw [hboth.2] at h
      exact absurd h Bool.false_ne_true
    · intro h
      cases hs : snap.title with
      | none => simp [hs, truthy] at h
      | some s => rwa [Option.some_or, ← hs]
  | false =>
    rw [if_neg Bool.false_ne_true, Option.none_or]
    refine ⟨id, ?_⟩
    intro h
    simpa [titleNeeded, h] using hneeded

/-- The row under a task's key after its snapshot. -/
theorem row_snapshot_own (t : WorkItemTable) (now : Time) (i : AdapterItem)
    (newest : List String) :
    (StoreCall.table t ⟨none, now, .snapshot (i.snapshot newest)⟩).row? i.correlationKey =
      some (upsertRow none (reviseBySnapshot (i.snapshot newest) now)
        (snapshotItem (i.snapshot newest) now) (t.row? i.correlationKey)) := by
  rw [row_table, StoreCall.onRow]
  exact if_pos rfl

/-- A task's snapshot leaves the rows of other keys alone. -/
theorem row_snapshot_other (t : WorkItemTable) (now : Time) {i : AdapterItem}
    (newest : List String) (h : i.correlationKey ≠ key) :
    (StoreCall.table t ⟨none, now, .snapshot (i.snapshot newest)⟩).row? key = t.row? key := by
  rw [row_table, StoreCall.onRow]
  exact if_neg (Ne.symm h)

/-- A task whose row skips it leaves the table alone. -/
theorem table_snapshot_skipped {t : WorkItemTable} {i : AdapterItem} {newest : List String}
    {r : WorkItemRow} (hrow : t.row? i.correlationKey = some r)
    (h : skips (i.snapshot newest) r.item = true) (now : Time) :
    StoreCall.table t ⟨none, now, .snapshot (i.snapshot newest)⟩ = t := by
  have hget : t.getRow none (i.snapshot newest).correlationKey = some r := by
    rw [WorkItemTable.getRow_eq]
    show (t.row? i.correlationKey).filter _ = _
    rw [hrow]
    rfl
  have hkeep : reviseBySnapshot (i.snapshot newest) now r.item = none := by
    rw [reviseBySnapshot, if_pos h]
  simp only [StoreCall.table, upsertSnapshot, Prog.run_bind, Prog.run_pure]
  rw [run_upsert_kept hget hkeep]

/-! ### All the tasks of a turn -/

/-- The row under a task's key skips the task. -/
def SkippedBy (t : WorkItemTable) (newest : List String) (i : AdapterItem) : Prop :=
  ∃ r, t.row? i.correlationKey = some r ∧ skips (i.snapshot newest) r.item = true

/-- A row shows one of a key's tasks, and was stamped by the clock of the poll. -/
def Written (env : PollEnv) (tasks : List AdapterItem) (key : String) (r : WorkItemRow) : Prop :=
  (∃ w ∈ tasks, w.correlationKey = key ∧ Shows w (r.item.slice w.service)) ∧
    ∃ n, r.item.updatedAt = env.now n

/-- Where every row skips its tasks, hydrating leaves the table alone. -/
theorem hydrate_skipped {newest : List String} {tasks : List AdapterItem} {t : WorkItemTable}
    (h : ∀ i ∈ tasks, SkippedBy t newest i) (n : Nat) : hydrate env newest tasks n t = t := by
  induction tasks generalizing n with
  | nil => rfl
  | cons i rest ih =>
    obtain ⟨r, hrow, hskip⟩ := h i List.mem_cons_self
    rw [hydrate, table_snapshot_skipped hrow hskip]
    exact ih (fun j hj ↦ h j (List.mem_cons_of_mem i hj)) (n + 1)

/-- A row that is there stays there while tasks are hydrated, and keeps a title it has. -/
theorem hydrate_keeps (newest : List String) (tasks : List AdapterItem) (n : Nat)
    {t : WorkItemTable} {r : WorkItemRow} (hrow : t.row? key = some r) :
    ∃ q, (hydrate env newest tasks n t).row? key = some q ∧
      (truthy r.item.title = true → truthy q.item.title = true) := by
  induction tasks generalizing n t r with
  | nil => exact ⟨r, hrow, id⟩
  | cons i rest ih =>
    rw [hydrate]
    by_cases hk : i.correlationKey = key
    · subst hk
      have hown := row_snapshot_own t (env.now n) i newest
      obtain ⟨q, hq, htitle⟩ := ih (n + 1) hown
      refine ⟨q, hq, fun h ↦ htitle ?_⟩
      rw [hrow]
      cases hs : skips (i.snapshot newest) r.item with
      | true => rwa [upsertRow_skipped hs]
      | false =>
        obtain ⟨item, hitem, hwritten⟩ := @upsertRow_written _ (some r)
          (fun q hq ↦ by rw [← Option.some.inj hq, hs]) (env.now n)
        rw [hwritten]
        apply (title_written _ item _).1
        rwa [hitem r rfl]
    · exact ih (n + 1) ((row_snapshot_other t (env.now n) newest hk).trans hrow)

/-- Where the row of a key skips all its tasks, hydrating leaves it alone. -/
theorem hydrate_left {newest : List String} {tasks : List AdapterItem} {t : WorkItemTable}
    (h : ∀ i ∈ tasks, i.correlationKey = key → SkippedBy t newest i) (n : Nat) :
    (hydrate env newest tasks n t).row? key = t.row? key := by
  induction tasks generalizing n t with
  | nil => rfl
  | cons i rest ih =>
    rw [hydrate]
    by_cases hk : i.correlationKey = key
    · obtain ⟨r, hrow, hskip⟩ := h i List.mem_cons_self hk
      rw [table_snapshot_skipped hrow hskip]
      exact ih (fun j hj ↦ h j (List.mem_cons_of_mem i hj)) (n + 1)
    · have hother := row_snapshot_other t (env.now n) newest hk
      rw [ih _ (n + 1), hother]
      intro j hj hjk
      obtain ⟨r, hrow, hskip⟩ := h j (List.mem_cons_of_mem i hj) hjk
      refine ⟨r, ?_, hskip⟩
      rw [hjk] at hrow ⊢
      rw [hother, hrow]

/-- Either the row of a key skips all its tasks and is left alone, or it ends up written by
one of them. -/
theorem hydrate_cases (newest : List String) (tasks : List AdapterItem) (n : Nat)
    (t : WorkItemTable) (key : String) :
    ((∀ i ∈ tasks, i.correlationKey = key → SkippedBy t newest i) ∧
        (hydrate env newest tasks n t).row? key = t.row? key) ∨
      ∃ r, (hydrate env newest tasks n t).row? key = some r ∧ Written env tasks key r := by
  induction tasks generalizing n t with
  | nil => exact Or.inl ⟨by simp, rfl⟩
  | cons i rest ih =>
    have hwiden : ∀ r, Written env rest key r → Written env (i :: rest) key r := by
      rintro r ⟨⟨w, hw, hshows⟩, hstamp⟩
      exact ⟨⟨w, List.mem_cons_of_mem i hw, hshows⟩, hstamp⟩
    rw [hydrate]
    have hrest := ih (n + 1) (StoreCall.table t ⟨none, env.now n, .snapshot (i.snapshot newest)⟩)
    by_cases hk : i.correlationKey = key
    · subst hk
      by_cases hskip : SkippedBy t newest i
      · obtain ⟨r, hrow, hs⟩ := hskip
        rw [table_snapshot_skipped hrow hs] at hrest ⊢
        rcases hrest with ⟨hall, hsame⟩ | ⟨q, hq, hwritten⟩
        · refine Or.inl ⟨?_, hsame⟩
          intro j hj hjk
          rcases List.mem_cons.mp hj with rfl | hj
          · exact ⟨r, hrow, hs⟩
          · exact hall j hj hjk
        · exact Or.inr ⟨q, hq, hwiden q hwritten⟩
      · right
        rcases hrest with ⟨-, hsame⟩ | ⟨q, hq, hwritten⟩
        · have hfree : ∀ r, t.row? i.correlationKey = some r →
              skips (i.snapshot newest) r.item = false := by
            intro r hrow
            by_contra hs
            exact hskip ⟨r, hrow, Bool.of_not_eq_false hs⟩
          obtain ⟨item, -, hitem⟩ := upsertRow_written hfree (env.now n)
          have hshows := shows_written i newest item (env.now n)
          rw [← hitem] at hshows
          refine ⟨_, hsame.trans (row_snapshot_own t (env.now n) i newest), ?_⟩
          exact ⟨⟨i, List.mem_cons_self, rfl, hshows.1⟩, n, hshows.2⟩
        · exact ⟨q, hq, hwiden q hwritten⟩
    · have hother := row_snapshot_other t (env.now n) newest hk
      rcases hrest with ⟨hall, hsame⟩ | ⟨q, hq, hwritten⟩
      · refine Or.inl ⟨?_, hsame.trans hother⟩
        intro j hj hjk
        rcases List.mem_cons.mp hj with rfl | hj
        · exact absurd hjk hk
        · obtain ⟨r, hrow, hs⟩ := hall j hj hjk
          refine ⟨r, ?_, hs⟩
          rw [hjk] at hrow ⊢
          exact hother ▸ hrow
      · exact Or.inr ⟨q, hq, hwiden q hwritten⟩

/-! ### Tasks that agree -/

/-- Two tasks at the same status and phase. -/
def Agree (i j : AdapterItem) : Prop := i.status = j.status ∧ i.phase = j.phase

/-- The guard for finished tasks bars no live task from a row, and no task from its own. -/
theorem unbarred_of_shows {w i : AdapterItem} {r : WorkItemRow} (newest : List String)
    (hservice : w.service = i.service) (hshows : Shows w (r.item.slice w.service))
    (h : w.taskId = i.taskId ∨ isDeadStage i.status = false) : barred i newest r = false := by
  rw [hservice] at hshows
  have hid : (carryForward (r.item.slice i.service) i.toState).taskId = some i.taskId := rfl
  have hstatus : (carryForward (r.item.slice i.service) i.toState).status = i.status := rfl
  rw [barred, superseded, hid, hstatus, hshows.1]
  rcases h with h | h
  · simp [h]
  · simp [h]

/-- After its snapshot a task that is not barred is what its row reads like. -/
theorem reads_snapshot (t : WorkItemTable) (now : Time) {i : AdapterItem} {newest : List String}
    (hfree : ∀ r, t.row? i.correlationKey = some r → barred i newest r = false) :
    ∃ q, (StoreCall.table t ⟨none, now, .snapshot (i.snapshot newest)⟩).row? i.correlationKey =
        some q ∧ Reads i q ∧
      (t.row? i.correlationKey = some q ∨ Shows i (q.item.slice i.service)) := by
  refine ⟨_, row_snapshot_own t now i newest, ?_⟩
  by_cases hskip : SkippedBy t newest i
  · obtain ⟨r, hrow, hs⟩ := hskip
    rw [hrow, upsertRow_skipped hs]
    refine ⟨?_, Or.inl rfl⟩
    rcases (skips_iff_reads i newest r).mp hs with hreads | hbarred
    · exact hreads
    · rw [hfree r hrow] at hbarred
      exact absurd hbarred Bool.false_ne_true
  · have hwrites : ∀ r, t.row? i.correlationKey = some r →
        skips (i.snapshot newest) r.item = false := by
      intro r hrow
      by_contra hs
      exact hskip ⟨r, hrow, Bool.of_not_eq_false hs⟩
    obtain ⟨item, -, hitem⟩ := upsertRow_written hwrites now
    have hshows := (shows_written i newest item now).1
    rw [Reads, hitem]
    exact ⟨⟨(title_written (i.snapshot newest) item now).2, hshows.2.1, hshows.2.2⟩, Or.inr hshows⟩

/-- A row goes on reading like a task while tasks that agree with it are hydrated. -/
theorem reads_hydrate {newest : List String} {tasks : List AdapterItem} {i : AdapterItem}
    (hown : ∀ j ∈ tasks, j.service = i.service)
    (hagree : ∀ j ∈ tasks, j.correlationKey = i.correlationKey → Agree j i) (n : Nat)
    {t : WorkItemTable} {r : WorkItemRow} (hrow : t.row? i.correlationKey = some r)
    (hreads : Reads i r) :
    ∃ q, (hydrate env newest tasks n t).row? i.correlationKey = some q ∧ Reads i q := by
  induction tasks generalizing n t r with
  | nil => exact ⟨r, hrow, hreads⟩
  | cons j rest ih =>
    have hrest := fun {u q} ↦ ih (fun k hk ↦ hown k (List.mem_cons_of_mem j hk))
      (fun k hk ↦ hagree k (List.mem_cons_of_mem j hk)) (n + 1) (t := u) (r := q)
    rw [hydrate]
    by_cases hk : j.correlationKey = i.correlationKey
    · have hsame := hagree j List.mem_cons_self hk
      have hservice := hown j List.mem_cons_self
      have hown := row_snapshot_own t (env.now n) j newest
      rw [hk, hrow] at hown
      apply hrest hown
      cases hs : skips (j.snapshot newest) r.item with
      | true => rwa [upsertRow_skipped hs]
      | false =>
        obtain ⟨item, hitem, hwritten⟩ := @upsertRow_written _ (some r)
          (fun q hq ↦ by rw [← Option.some.inj hq, hs]) (env.now n)
        have hshows := (shows_written j newest item (env.now n)).1
        rw [hservice] at hshows
        rw [Reads, hwritten]
        refine ⟨fun h ↦ (title_written _ item _).1 ?_, hshows.2.1.trans hsame.1,
          hshows.2.2.trans hsame.2⟩
        rw [hitem r rfl]
        exact hreads.1 h
    · exact hrest ((row_snapshot_other t (env.now n) newest hk).trans hrow) hreads

/-- Tasks of a key that agree, none of them barred, all leave a row that reads like them. -/
theorem hydrate_reads {newest : List String} {tasks : List AdapterItem} {service : Service}
    (hown : ∀ i ∈ tasks, i.service = service)
    (hagree : ∀ i ∈ tasks, i.correlationKey = key → ∀ j ∈ tasks, j.correlationKey = key →
      Agree i j ∧ (i.taskId = j.taskId ∨ isDeadStage j.status = false)) (n : Nat)
    {t : WorkItemTable}
    (hfree : ∀ i ∈ tasks, i.correlationKey = key → ∀ r, t.row? key = some r →
      barred i newest r = false) {i : AdapterItem} (hi : i ∈ tasks)
    (hkey : i.correlationKey = key) :
    ∃ q, (hydrate env newest tasks n t).row? key = some q ∧ Reads i q := by
  induction tasks generalizing n t with
  | nil => exact absurd hi (by simp)
  | cons j rest ih =>
    have hrest := fun {u} ↦ ih (fun k hk ↦ hown k (List.mem_cons_of_mem j hk))
      (fun k hk hkk l hl ↦ hagree k (List.mem_cons_of_mem j hk) hkk l
        (List.mem_cons_of_mem j hl)) (n + 1) (t := u)
    rw [hydrate]
    by_cases hk : j.correlationKey = key
    · obtain ⟨q, hq, hreads, hfrom⟩ := @reads_snapshot t (env.now n) j newest
        (fun r hr ↦ hfree j List.mem_cons_self hk r (hk ▸ hr))
      rcases List.mem_cons.mp hi with rfl | hi
      · subst hkey
        exact reads_hydrate (fun k hk ↦ (hown k (List.mem_cons_of_mem i hk)).trans
          (hown i List.mem_cons_self).symm)
          (fun k hk hkk ↦ (hagree k (List.mem_cons_of_mem i hk) hkk i List.mem_cons_self rfl).1)
          (n + 1) hq hreads
      · apply hrest _ hi
        intro k hkr hkk r hr
        rw [← hk, hq] at hr
        rw [← Option.some.inj hr]
        rcases hfrom with hsame | hshows
        · exact hfree k (List.mem_cons_of_mem j hkr) hkk q (hk ▸ hsame)
        · exact unbarred_of_shows newest ((hown j List.mem_cons_self).trans
            (hown k (List.mem_cons_of_mem j hkr)).symm) hshows
            (hagree j List.mem_cons_self hk k (List.mem_cons_of_mem j hkr) hkk).2
    · rcases List.mem_cons.mp hi with rfl | hi
      · exact absurd hkey hk
      · apply hrest _ hi
        intro k hkr hkk r hr
        rw [row_snapshot_other t (env.now n) newest hk] at hr
        exact hfree k (List.mem_cons_of_mem j hkr) hkk r hr

end CFactory.Progress
