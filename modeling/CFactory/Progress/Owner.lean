import CFactory.Base.Runs
import CFactory.Progress.Newest

/-!
# The row after a poll

`progress.py:110–193` and `store.py:541–701`. A service's turn rewrites one slice of the row
under a key and no other. The newest task of a key gets its slice unless the unchanged
shortcut takes the row for its own, or the pruning of re-keyed tasks takes the slice away.
-/

namespace CFactory.Progress

open CFactory.Base CFactory.Model CFactory.Status CFactory.Store

/-- A service's slice of the row under a key; where there is no row, the column default. -/
def sliceAt (t : WorkItemTable) (key : String) (service : Service) : ServiceState :=
  (t.row? key).elim .column fun r ↦ r.item.slice service

/-- A slice shows a task. -/
def Shows (o : AdapterItem) (s : ServiceState) : Prop :=
  s.taskId = some o.taskId ∧ s.status = o.status ∧ s.phase = o.phase

/-- A slice is empty, or it holds one of the tasks listed on the key. -/
def OpenTo (items : List AdapterItem) (key : String) (s : ServiceState) : Prop :=
  (truthy s.status = false ∧ truthy s.taskId = false) ∨
    ∃ i ∈ tasksOn items key, s.taskId = some i.taskId

/-- A row already reads like a task, at the same status and phase and with no title missing,
but under another task id. -/
def Lookalike (o : AdapterItem) (r : WorkItemRow) : Prop :=
  (truthy o.title = true → truthy r.item.title = true) ∧
    (r.item.slice o.service).status = o.status ∧ (r.item.slice o.service).phase = o.phase ∧
    (r.item.slice o.service).taskId ≠ some o.taskId

/-- A service's turn can hand the row to a task: the row does not already read like it under
another id, and its id leads to no other key. -/
def Claimable (env : PollEnv) (items : List AdapterItem) (key : String) (o : AdapterItem)
    (t : WorkItemTable) : Prop :=
  (∀ r, t.row? key = some r → ¬ Lookalike o r) ∧
    taskIdToKey (live env items) o.taskId = some key

variable {env : PollEnv} {items : List AdapterItem} {key : String} {o : AdapterItem}

/-! ### The newest task's snapshot -/

/-- The slice that a task's snapshot writes shows the task. -/
theorem shows_carryForward (o : AdapterItem) (s : ServiceState) :
    Shows o (carryForward s o.toState) := ⟨rfl, rfl, rfl⟩

/-- The shortcut compares status and phase, and the usage that it has just carried forward. -/
theorem unchanged_toState (o : AdapterItem) (s : ServiceState) (needed : Bool) :
    unchanged s (carryForward s o.toState) needed = true ↔
      needed = false ∧ s.status = o.status ∧ s.phase = o.phase := by
  have husage : (carryForward s o.toState).usage = s.usage := rfl
  have hstatus : (carryForward s o.toState).status = o.status := rfl
  have hphase : (carryForward s o.toState).phase = o.phase := rfl
  rw [unchanged, husage, hstatus, hphase, sameUsage_self]
  simp [and_assoc]

/-- A row reads like a task: at its status and phase, and with no title missing. -/
def Reads (o : AdapterItem) (r : WorkItemRow) : Prop :=
  (truthy o.title = true → truthy r.item.title = true) ∧
    (r.item.slice o.service).status = o.status ∧ (r.item.slice o.service).phase = o.phase

/-- The guard for finished tasks keeps a task out of its row; `store.py:598–603`. -/
def barred (o : AdapterItem) (newest : List String) (r : WorkItemRow) : Bool :=
  superseded (r.item.slice o.service) (carryForward (r.item.slice o.service) o.toState)
    (decide (o.taskId ∈ newest))

/-- A snapshot leaves its row alone where the row reads like the task, or bars it. -/
theorem skips_iff_reads (o : AdapterItem) (newest : List String) (r : WorkItemRow) :
    skips (o.snapshot newest) r.item = true ↔ Reads o r ∨ barred o newest r = true := by
  have hun := unchanged_toState o (r.item.slice o.service) (titleNeeded (o.snapshot newest) r.item)
  have htitle : titleNeeded (o.snapshot newest) r.item = false ↔
      (truthy o.title = true → truthy r.item.title = true) := by
    simp only [titleNeeded, AdapterItem.snapshot, Bool.and_eq_false_iff, Bool.not_eq_false']
    cases truthy o.title <;> simp
  rw [Reads, ← htitle, ← hun]
  show (_ || barred o newest r) = true ↔ _
  rw [Bool.or_eq_true]
  rfl

/-- The newest task counts as such where the row shows a task of its key. -/
theorem mem_newestIds (h : NewestOn env items key o) {t : WorkItemTable} {r : WorkItemRow}
    (hrow : t.row? key = some r) {i : AdapterItem} (hi : i ∈ tasksOn items key)
    (htask : (r.item.slice o.service).taskId = some i.taskId) :
    o.taskId ∈ newestIds env items t := by
  have howner : o ∈ owners env items := by
    have : o ∈ (owners env items).filter fun i ↦ decide (i.correlationKey = key) := by
      rw [owners_on h]
      exact List.mem_singleton.mpr rfl
    exact (List.mem_filter.mp this).1
  have hcurrent : currentTask t o = some i.taskId := by
    have hscope : inScope none r = true := rfl
    rw [currentTask, h.onKey, WorkItemTable.getRow_eq, hrow, Option.filter_some, if_pos hscope]
    exact htask
  have hgroup : (groups items).getD o.correlationKey [] = tasksOn items key := by
    rw [Dict.getD, groups, Dict.get?_groupBy, h.onKey]
    split
    · next hnil => exact absurd h.mem (by rw [tasksOn, hnil]; simp)
    · rfl
  rw [newestIds]
  apply List.mem_map_of_mem
  apply List.mem_filter.mpr
  refine ⟨howner, ?_⟩
  rw [hcurrent, hgroup]
  exact decide_eq_true (List.mem_map_of_mem hi)

/-- The guard for finished tasks does not stop the newest task on an open slice. -/
theorem not_superseded (h : NewestOn env items key o) {t : WorkItemTable} {r : WorkItemRow}
    (hrow : t.row? key = some r) (hopen : OpenTo items key (r.item.slice o.service)) :
    superseded (r.item.slice o.service) (carryForward (r.item.slice o.service) o.toState)
      (decide (o.taskId ∈ newestIds env items t)) = false := by
  rcases hopen with ⟨hstatus, -⟩ | ⟨i, hi, htask⟩
  · have hdone : isDone (r.item.slice o.service).status = false := by
      cases hs : (r.item.slice o.service).status with
      | none => exact isDone_none
      | some s =>
        have : s = "" := by simpa [hs, truthy] using hstatus
        rw [this]
        exact isDone_empty
    simp [superseded, hdone]
  · have hnewest := mem_newestIds h hrow hi htask
    simp [superseded, hnewest]

/-- The newest task's snapshot leaves an open slice alone only if it reads the same. -/
theorem skips_iff (h : NewestOn env items key o) {t : WorkItemTable} {r : WorkItemRow}
    (hrow : t.row? key = some r) (hopen : OpenTo items key (r.item.slice o.service)) :
    skips (o.snapshot (newestIds env items t)) r.item = true ↔
      (truthy o.title = true → truthy r.item.title = true) ∧
        (r.item.slice o.service).status = o.status ∧
        (r.item.slice o.service).phase = o.phase := by
  have hfree : barred o (newestIds env items t) r = false := not_superseded h hrow hopen
  rw [skips_iff_reads, hfree]
  simp [Reads]

/-- Hydration shows the newest task on an open slice, except on a lookalike. -/
theorem hydrate_newest (h : NewestOn env items key o) (t : WorkItemTable) (n : Nat)
    (hopen : OpenTo items key (sliceAt t key o.service)) :
    ∃ r, (hydrate env (newestIds env items t) (live env items) n t).row? key = some r ∧
      ((∀ q, t.row? key = some q → ¬ Lookalike o q) → Shows o (r.item.slice o.service)) ∧
      ((∃ q, t.row? key = some q ∧ Lookalike o q) →
        (r.item.slice o.service).taskId ≠ some o.taskId) := by
  obtain ⟨now, hnow⟩ := row_hydrate (newestIds env items t) (live_on h) n t
  refine ⟨_, hnow, ?_⟩
  cases hrow : t.row? key with
  | none =>
    constructor
    · intro _
      simp only [upsertRow, snapshotItem, snapshotChanges, RowChanges.apply, Snapshot.slice,
        AdapterItem.snapshot, Function.update_self]
      exact shows_carryForward o _
    · rintro ⟨q, hq, -⟩
      exact absurd hq (by simp)
  | some q =>
    rw [sliceAt, hrow, Option.elim_some] at hopen
    have hskip := skips_iff h hrow hopen
    have hrevised : upsertRow none (reviseBySnapshot (o.snapshot (newestIds env items t)) now)
        (snapshotItem (o.snapshot (newestIds env items t)) now) (some q) =
          ⟨q.tenantId, (reviseBySnapshot (o.snapshot (newestIds env items t)) now q.item).elim
            q.item fun ch ↦ ch.apply q.item⟩ := rfl
    rw [hrevised, reviseBySnapshot]
    by_cases hs : skips (o.snapshot (newestIds env items t)) q.item = true
    · rw [if_pos hs, Option.elim_none]
      have hsame := hskip.mp hs
      constructor
      · intro hno
        refine ⟨?_, hsame.2.1, hsame.2.2⟩
        by_contra htask
        exact hno q rfl ⟨hsame.1, hsame.2.1, hsame.2.2, htask⟩
      · rintro ⟨q', hq', hlook⟩
        rw [Option.some.inj hq']
        exact hlook.2.2.2
    · rw [if_neg hs, Option.elim_some]
      constructor
      · intro _
        simp only [snapshotChanges, RowChanges.apply, Snapshot.slice, AdapterItem.snapshot,
          Function.update_self]
        exact shows_carryForward o _
      · rintro ⟨q', hq', hlook⟩
        rw [← Option.some.inj hq'] at hlook
        exact absurd (hskip.mpr ⟨hlook.1, hlook.2.1, hlook.2.2.1⟩) hs

/-! ### Reconciling and pruning -/

/-- Reconciling keeps a slice whose task is live. -/
theorem reconcile_live {service : Service} {live : List String} {now : Time} {r : WorkItemRow}
    {id : String} (htask : (r.item.slice service).taskId = some id) (hlive : id ∈ live) :
    reconcileAction none service live now r = .keep := by
  simp only [reconcileAction, htask, hlive, ↓reduceIte]
  split <;> rfl

/-- Housekeeping brings no task to its slice. -/
theorem taskId_of_tidies {service : Service} {a : RowAction} (h : Tidies service a)
    {r q : WorkItemRow} (hrun : a.run r = some q) {id : String}
    (htask : (r.item.slice service).taskId ≠ some id) :
    (q.item.slice service).taskId ≠ some id := by
  rcases h.slice_own hrun with hs | hs
  · rw [hs]
    exact htask
  · rw [hs]
    simp

/-- Pruning keeps a slice whose task leads to the row's own key. -/
theorem prune_own {service : Service} {canon : String → Option String} {now : Time}
    {r : WorkItemRow} {id : String} (htask : (r.item.slice service).taskId = some id)
    (hcanon : canon id = some r.key) :
    pruneDuplicateAction none service canon now r = .keep := by
  simp [pruneDuplicateAction, htask, hcanon]

/-- Pruning takes a slice away whose task leads to another key. -/
theorem prune_rekeyed {service : Service} {canon : String → Option String} {now : Time}
    {r q : WorkItemRow} {id k : String} (htask : (r.item.slice service).taskId = some id)
    (hcanon : canon id = some k) (hk : k ≠ r.key)
    (hrun : (pruneDuplicateAction none service canon now r).run r = some q) :
    (q.item.slice service).taskId ≠ some id := by
  have hscope : inScope none r = true := rfl
  simp only [pruneDuplicateAction, htask, Option.bind_some, hcanon, hscope, hk, ne_eq,
    not_false_eq_true, and_self, ↓reduceIte] at hrun
  split at hrun
  · rw [← Option.some.inj hrun]
    simp [RowChanges.apply]
  · exact absurd hrun (by simp [RowAction.run])

/-! ### One service's turn -/

/-- The row after a turn, from the row after its hydration. -/
theorem row_pass (env : PollEnv) (service : Service) (items : List AdapterItem) (n : Nat)
    (t : WorkItemTable) (key : String) :
    (pass env service items n t).row? key =
      (((hydrate env (newestIds env items t) (live env items) n t).row? key).bind fun r ↦
        (reconcileAction none service ((live env items).map AdapterItem.taskId)
          (env.now (n + (live env items).length)) r).run r).bind fun r ↦
        (pruneDuplicateAction none service (taskIdToKey (live env items))
          (env.now (n + (live env items).length + 1)) r).run r := by
  rw [pass, pruneDuplicateStages, WorkItemTable.row_act, reconcileSnapshot, WorkItemTable.row_act]

/-- The hydrated task of an id leads to some key. -/
theorem taskIdToKey_of_live {tasks : List AdapterItem} (h : o ∈ tasks) :
    ∃ k, taskIdToKey tasks o.taskId = some k := by
  have hmem : o ∈ tasks.filter fun i ↦ decide (i.taskId = o.taskId) :=
    List.mem_filter.mpr ⟨h, decide_eq_true rfl⟩
  have hne : tasks.filter (fun i ↦ decide (i.taskId = o.taskId)) ≠ [] := List.ne_nil_of_mem hmem
  rw [taskIdToKey, List.getLast?_eq_some_getLast hne]
  exact ⟨_, rfl⟩

/-- A turn hands the row to the newest task where it can be claimed. -/
theorem pass_claimable (h : NewestOn env items key o) {t : WorkItemTable} (n : Nat)
    (hopen : OpenTo items key (sliceAt t key o.service)) (hclaim : Claimable env items key o t) :
    ∃ r, (pass env o.service items n t).row? key = some r ∧ Shows o (r.item.slice o.service) := by
  obtain ⟨r, hr, hshows, -⟩ := hydrate_newest h t n hopen
  have hs := hshows hclaim.1
  have hkey : r.key = key := WorkItemTable.key_of_row hr
  refine ⟨r, ?_, hs⟩
  rw [row_pass, hr, Option.bind_some,
    reconcile_live hs.1 (List.mem_map_of_mem (mem_live h)), RowAction.run, Option.bind_some,
    prune_own hs.1 (by rw [hclaim.2, hkey]), RowAction.run]

/-- Elsewhere the turn leaves the row without the newest task. -/
theorem pass_not_claimable (h : NewestOn env items key o) {t : WorkItemTable} (n : Nat)
    (hopen : OpenTo items key (sliceAt t key o.service)) (hclaim : ¬ Claimable env items key o t) :
    (sliceAt (pass env o.service items n t) key o.service).taskId ≠ some o.taskId := by
  obtain ⟨r, hr, hshows, hlook⟩ := hydrate_newest h t n hopen
  have hkey : r.key = key := WorkItemTable.key_of_row hr
  have hafter : ∀ q, (pass env o.service items n t).row? key = some q →
      (q.item.slice o.service).taskId ≠ some o.taskId := by
    intro q hq
    rw [row_pass, hr, Option.bind_some] at hq
    by_cases hno : ∀ q, t.row? key = some q → ¬ Lookalike o q
    · have hs := hshows hno
      rw [reconcile_live hs.1 (List.mem_map_of_mem (mem_live h)), RowAction.run,
        Option.bind_some] at hq
      obtain ⟨k, hk⟩ := taskIdToKey_of_live (mem_live h)
      have hne : k ≠ r.key := by
        intro he
        exact hclaim ⟨hno, by rw [hk, he, hkey]⟩
      exact prune_rekeyed hs.1 hk hne hq
    · push Not at hno
      obtain ⟨q', hq'⟩ := reconcile_survives none o.service
        ((live env items).map AdapterItem.taskId) (env.now (n + (live env items).length)) r
      have htask := taskId_of_tidies (tidies_reconcile _ _ _ _ r) hq' (hlook hno)
      rw [hq', Option.bind_some] at hq
      exact taskId_of_tidies (tidies_pruneDuplicate _ _ _ _ q') hq htask
  rw [sliceAt]
  cases hrow : (pass env o.service items n t).row? key with
  | none => simp
  | some q => exact hafter q hrow

/-! ### The other services' turns -/

/-- A hydrated task is a listed one. -/
theorem listed_of_live {i : AdapterItem} (h : i ∈ live env items) : i ∈ items := by
  have hgroup : ∀ group ∈ (groups items).values, ∀ j ∈ group, j ∈ items := by
    intro group hgroup j hj
    obtain ⟨e, he, rfl⟩ := List.mem_map.mp hgroup
    rw [Dict.mem_groupBy _ he] at hj
    exact (List.mem_filter.mp hj).1
  rw [live, List.mem_append] at h
  rcases h with h | h
  · obtain ⟨group, hg, hi⟩ := List.mem_flatMap.mp h
    split at hi
    · rw [Option.mem_toList] at hi
      obtain ⟨t, ht⟩ := mem_of_newestOf hi
      exact hgroup group hg i (mem_stamped.mp ht).1
    · exact absurd hi (by simp)
  · obtain ⟨group, hg, hi⟩ := List.mem_flatMap.mp (List.mem_filter.mp h).1
    split at hi
    · exact absurd hi (by simp)
    · exact hgroup group hg i hi

/-- A snapshot of one service leaves the others' slices alone. -/
theorem sliceAt_snapshot (t : WorkItemTable) (now : Time) (snap : Snapshot) (key : String)
    {service : Service} (h : snap.service ≠ service) :
    sliceAt (StoreCall.table t ⟨none, now, .snapshot snap⟩) key service =
      sliceAt t key service := by
  have hslice : ∀ item : WorkItem,
      ((snapshotChanges snap item now).apply item).slice service = item.slice service :=
    fun item ↦ Function.update_of_ne (Ne.symm h) _ _
  have hrow : (StoreCall.table t ⟨none, now, .snapshot snap⟩).row? key =
      if key = snap.correlationKey then
        some (upsertRow none (reviseBySnapshot snap now) (snapshotItem snap now) (t.row? key))
      else t.row? key := row_table t _ key
  rw [sliceAt, hrow, sliceAt]
  by_cases hk : key = snap.correlationKey
  · rw [if_pos hk]
    cases t.row? key with
    | none => exact hslice _
    | some r =>
      have hrevised : upsertRow none (reviseBySnapshot snap now) (snapshotItem snap now) (some r) =
          ⟨r.tenantId, (reviseBySnapshot snap now r.item).elim r.item fun ch ↦ ch.apply r.item⟩ :=
        rfl
      rw [Option.elim_some, hrevised, reviseBySnapshot, Option.elim_some]
      split
      · rfl
      · exact hslice _
  · rw [if_neg hk]

/-- Hydrating one service's tasks leaves the others' slices alone. -/
theorem sliceAt_hydrate (env : PollEnv) (newest : List String) {tasks : List AdapterItem}
    {service : Service} (h : ∀ i ∈ tasks, i.service ≠ service) (n : Nat) (t : WorkItemTable)
    (key : String) :
    sliceAt (hydrate env newest tasks n t) key service = sliceAt t key service := by
  induction tasks generalizing n t with
  | nil => rfl
  | cons i rest ih =>
    rw [hydrate, ih fun j hj ↦ h j (List.mem_cons_of_mem i hj)]
    exact sliceAt_snapshot t _ _ key (h i List.mem_cons_self)

/-- A turn leaves the other services' slices alone, where it leaves the row. -/
theorem sliceAt_pass {service other : Service} (h : service ≠ other) {items : List AdapterItem}
    (hown : ∀ i ∈ items, i.service = service) (n : Nat) (t : WorkItemTable) (key : String) :
    sliceAt (pass env service items n t) key other = sliceAt t key other ∨
      (pass env service items n t).row? key = none := by
  have hlive : ∀ i ∈ live env items, i.service ≠ other := by
    intro i hi
    rw [hown i (listed_of_live hi)]
    exact h
  rw [← sliceAt_hydrate env (newestIds env items t) hlive n t key, sliceAt, sliceAt,
    row_pass]
  cases (hydrate env (newestIds env items t) (live env items) n t).row? key with
  | none => exact Or.inl rfl
  | some r =>
    rw [Option.bind_some, Option.elim_some]
    obtain ⟨p, hp⟩ := reconcile_survives none service ((live env items).map AdapterItem.taskId)
      (env.now (n + (live env items).length)) r
    rw [hp, Option.bind_some,
      ← (tidies_reconcile none service _ _ r).slice_other hp (Ne.symm h)]
    cases hq : (pruneDuplicateAction none service (taskIdToKey (live env items))
      (env.now (n + (live env items).length + 1)) p).run p with
    | none => exact Or.inr rfl
    | some q => exact Or.inl ((tidies_pruneDuplicate none service _ _ p).slice_other hq (Ne.symm h))

/-- An adapter's turn leaves the other services' slices alone, where it leaves the row. -/
theorem sliceAt_pollAdapter {a : Adapter} {other : Service} (h : a.service ≠ other)
    (s : PollState) (key : String) :
    sliceAt (pollAdapter env s a).table key other = sliceAt s.table key other ∨
      (pollAdapter env s a).table.row? key = none := by
  unfold pollAdapter
  split
  · exact Or.inl rfl
  · next items hlist =>
    simp only [table_feed]
    exact sliceAt_pass h (a.own items hlist) _ _ key

/-! ### The whole poll -/

/-- A poll after some turns. -/
def turns (env : PollEnv) (hub : LiveProgressHub) (t : WorkItemTable) (adapters : List Adapter) :
    PollState :=
  adapters.foldl (pollAdapter env) ⟨hub, [], t, 0⟩

/-- More turns follow on those before them. -/
theorem turns_append (env : PollEnv) (hub : LiveProgressHub) (t : WorkItemTable)
    (before later : List Adapter) :
    turns env hub t (before ++ later) = later.foldl (pollAdapter env) (turns env hub t before) :=
  List.foldl_append

/-- A poll removes dead rows after its last turn. -/
theorem table_pollProgressOnce (env : PollEnv) (hub : LiveProgressHub) (adapters : List Adapter)
    (t : WorkItemTable) :
    (pollProgressOnce env hub adapters t).table = pruneDead (turns env hub t adapters).table none
      (env.now (turns env hub t adapters).ticks) env.pruneAge := rfl

/-- There is a row under the key, and its slice shows the task. -/
def RowShows (t : WorkItemTable) (key : String) (o : AdapterItem) : Prop :=
  ∃ r, t.row? key = some r ∧ Shows o (r.item.slice o.service)

/-- The row is there after each of the later turns, and after the closing removal of rows
that have been dead for too long. -/
def RowStays (env : PollEnv) (hub : LiveProgressHub) (adapters later : List Adapter)
    (t : WorkItemTable) (key : String) : Prop :=
  Throughout (pollAdapter env) (fun s ↦ (s.table.row? key).isSome) (turns env hub t adapters)
      later ∧
    ((pollProgressOnce env hub (adapters ++ later) t).table.row? key).isSome

/-- Where the row is there, a row that shows the task is one whose slice does. -/
theorem rowShows_iff {t : WorkItemTable} (h : (t.row? key).isSome) :
    RowShows t key o ↔ Shows o (sliceAt t key o.service) := by
  obtain ⟨r, hr⟩ := Option.isSome_iff_exists.mp h
  rw [RowShows, sliceAt, hr, Option.elim_some]
  constructor
  · rintro ⟨q, hq, hs⟩
    rw [Option.some.inj hq]
    exact hs
  · intro hs
    exact ⟨r, rfl, hs⟩

/-- An open slice is open as a later service's turn finds it. -/
theorem openTo_turns (env : PollEnv) (hub : LiveProgressHub) {t : WorkItemTable}
    {adapters : List Adapter} {service : Service} (hother : ∀ b ∈ adapters, b.service ≠ service)
    (hopen : OpenTo items key (sliceAt t key service)) :
    OpenTo items key (sliceAt (turns env hub t adapters).table key service) := by
  rw [turns]
  refine List.foldlRecOn (motive := fun s ↦ OpenTo items key (sliceAt s.table key service))
    adapters (pollAdapter env) ?_ ?_
  · exact hopen
  · intro s hs b hb
    rcases sliceAt_pollAdapter (hother b hb) s key with h | h
    · rw [h]
      exact hs
    · rw [sliceAt, h]
      exact Or.inl ⟨rfl, rfl⟩

/-- While the row is there, the later turns leave the slice alone. -/
theorem sliceAt_later {s : PollState} {later : List Adapter} {service : Service}
    (hother : ∀ b ∈ later, b.service ≠ service)
    (hstays : Throughout (pollAdapter env) (fun s ↦ (s.table.row? key).isSome) s later) :
    sliceAt (later.foldl (pollAdapter env) s).table key service = sliceAt s.table key service := by
  induction later generalizing s with
  | nil => rfl
  | cons b rest ih =>
    rw [List.foldl_cons, ih (fun c hc ↦ hother c (List.mem_cons_of_mem b hc)) hstays.2]
    rcases sliceAt_pollAdapter (hother b List.mem_cons_self) s key with h | h
    · exact h
    · have hthere := hstays.2.start
      rw [h] at hthere
      exact absurd hthere (by simp)

/-- The removal of dead rows leaves the rows it keeps alone. -/
theorem sliceAt_pruneDead {t : WorkItemTable} {now maxAge : Time} {service : Service}
    (h : ((pruneDead t none now maxAge).row? key).isSome) :
    sliceAt (pruneDead t none now maxAge) key service = sliceAt t key service := by
  have hrow : (pruneDead t none now maxAge).row? key =
      (t.row? key).bind fun r ↦ (pruneDeadAction none now maxAge r).run r := t.row_act _ key
  rw [sliceAt, hrow, sliceAt]
  rw [hrow] at h
  cases hr : t.row? key with
  | none => rfl
  | some r =>
    rw [hr, Option.bind_some] at h
    obtain ⟨q, hq⟩ := Option.isSome_iff_exists.mp h
    rw [Option.bind_some, hq, pruneDead_kept hq]

/-- With one adapter for each service (`build_adapters`), a service's turn makes the row show
the newest task of its key exactly where it can be claimed, and the row then shows it until
the end of the poll, unless it is removed. -/
theorem newest_owns_row_iff (env : PollEnv) (hub : LiveProgressHub) (t : WorkItemTable)
    {before later : List Adapter} {a : Adapter} {items : List AdapterItem} {key : String}
    {o : AdapterItem} (hlist : a.listing = some items)
    (hother : ∀ b ∈ before ++ later, b.service ≠ a.service) (hnewest : NewestOn env items key o)
    (hopen : OpenTo items key (sliceAt t key a.service)) :
    (RowShows (turns env hub t (before ++ [a])).table key o ↔
        Claimable env items key o (turns env hub t before).table) ∧
      (RowStays env hub (before ++ [a]) later t key →
        (RowShows (pollProgressOnce env hub (before ++ a :: later) t).table key o ↔
          Claimable env items key o (turns env hub t before).table)) := by
  have hservice : o.service = a.service :=
    a.own items hlist o (List.mem_filter.mp hnewest.mem).1
  rw [← hservice] at hother hopen
  have hfound := openTo_turns env hub
    (fun b hb ↦ hother b (List.mem_append_left later hb)) hopen
  -- the turn itself, on the store as it finds it
  have hturn : ∃ n, (turns env hub t (before ++ [a])).table =
      pass env o.service items n (turns env hub t before).table := by
    rw [turns_append, List.foldl_cons, List.foldl_nil, hservice]
    exact table_pollAdapter env _ hlist
  obtain ⟨n, hturn⟩ := hturn
  have hclaimed : RowShows (turns env hub t (before ++ [a])).table key o ↔
      Claimable env items key o (turns env hub t before).table := by
    rw [hturn]
    constructor
    · intro hshows
      by_contra hclaim
      have htask := pass_not_claimable hnewest n hfound hclaim
      obtain ⟨r, hr, hs⟩ := hshows
      rw [sliceAt, hr, Option.elim_some] at htask
      exact htask hs.1
    · exact pass_claimable hnewest n hfound
  refine ⟨hclaimed, ?_⟩
  intro hstays
  rw [← hclaimed, rowShows_iff hstays.1.start]
  have hend : (pollProgressOnce env hub (before ++ a :: later) t).table =
      (pollProgressOnce env hub ((before ++ [a]) ++ later) t).table := by
    rw [List.append_assoc, List.singleton_append]
  rw [hend, rowShows_iff hstays.2]
  have hsame : sliceAt (pollProgressOnce env hub ((before ++ [a]) ++ later) t).table key
      o.service = sliceAt (turns env hub t (before ++ [a])).table key o.service := by
    have hpruned := hstays.2
    rw [table_pollProgressOnce] at hpruned ⊢
    rw [sliceAt_pruneDead hpruned, turns_append]
    exact sliceAt_later (fun b hb ↦ hother b (List.mem_append_right before hb)) hstays.1
  rw [hsame]

/-! ### A finished task and its re-run -/

/-- A poll environment that parses the times of the listings below; its clock is a day ahead
of them, and it removes what has been dead for a day. -/
def juneEnv : PollEnv :=
  { fromIsoFormat := fun s ↦
      if s = "2026-06-01T10:00:00Z" then some ⟨1780308000000000, some 0⟩
      else if s = "2026-06-02T10:00:00Z" then some ⟨1780394400000000, some 0⟩
      else none
    now := fun n ↦ 1780480800000000 + n
    pruneAge := 86400000000 }

/-- A finished task on an issue. -/
def firstRun : AdapterItem :=
  { correlationKey := "a/x#7", service := .aifactory, taskId := "a", status := some "done"
    createdAt := some "2026-06-01T10:00:00Z" }

/-- A later task on the same issue. -/
def rerun (status : String) : AdapterItem :=
  { correlationKey := "a/x#7", service := .aifactory, taskId := "c", status := some status
    createdAt := some "2026-06-02T10:00:00Z" }

/-- An adapter that lists both tasks. -/
def bothListed (status : String) : Adapter :=
  { service := .aifactory
    listing := some [firstRun, rerun status]
    own := by simp [firstRun, rerun] }

/-- The store after a poll that lists the first task alone. -/
def firstPoll : WorkItemTable :=
  (pollProgressOnce juneEnv Dict.empty [⟨.aifactory, some [firstRun], by simp [firstRun]⟩]
    .empty).table

instance (o : AdapterItem) (s : ServiceState) : Decidable (Shows o s) :=
  inferInstanceAs (Decidable (_ ∧ _))

/-- After the first poll the row holds the first task, which both listings have. -/
theorem openTo_firstPoll (status : String) :
    OpenTo [firstRun, rerun status] "a/x#7" (sliceAt firstPoll "a/x#7" .aifactory) := by
  have hshows : Shows firstRun (sliceAt firstPoll "a/x#7" .aifactory) := by decide
  exact Or.inr ⟨firstRun, by simp [tasksOn, firstRun, rerun], hshows.1⟩

/-- The later task is the newest on the issue. -/
theorem newestOn_rerun (status : String) :
    NewestOn juneEnv [firstRun, rerun status] "a/x#7" (rerun status) := by
  have htasks : tasksOn [firstRun, rerun status] "a/x#7" = [firstRun, rerun status] := rfl
  have hfirst : created juneEnv firstRun = some 1780308000000000 := by decide
  have hlater : created juneEnv (rerun status) = some 1780394400000000 := rfl
  constructor
  · rw [htasks]
    simp
  · rw [htasks]
    simp [hfirst, hlater]
  · rw [htasks]
    simp [hfirst, hlater]
  · rw [htasks]
    simp [hfirst, hlater]

/-- A later task that has stalled takes the row from a finished one. -/
theorem stalled_rerun_owns_row :
    RowShows (pollProgressOnce juneEnv Dict.empty [bothListed "stalled"] firstPoll).table "a/x#7"
      (rerun "stalled") := by
  have hthere : ((turns juneEnv Dict.empty firstPoll [bothListed "stalled"]).table.row?
      "a/x#7").isSome := by decide
  have hstays : RowStays juneEnv Dict.empty ([] ++ [bothListed "stalled"]) [] firstPoll "a/x#7" :=
    ⟨hthere, by decide⟩
  refine ((@newest_owns_row_iff juneEnv Dict.empty firstPoll [] [] (bothListed "stalled") _ _ _ rfl
    (by simp) (newestOn_rerun "stalled") (openTo_firstPoll "stalled")).2 hstays).mpr ?_
  constructor
  · intro r hr hlook
    have hslice : sliceAt firstPoll "a/x#7" .aifactory = r.item.slice .aifactory := by
      rw [sliceAt, show firstPoll.row? "a/x#7" = some r from hr]
      rfl
    have : (sliceAt firstPoll "a/x#7" .aifactory).status = some "stalled" := by
      rw [hslice]
      exact hlook.2.1
    exact absurd this (by decide)
  · decide

/-- A later task that is done as well does not: at the same status and phase the row is taken
for up to date, and keeps the id of the first one. -/
theorem finished_rerun_left_out :
    NewestOn juneEnv [firstRun, rerun "done"] "a/x#7" (rerun "done") ∧
      OpenTo [firstRun, rerun "done"] "a/x#7" (sliceAt firstPoll "a/x#7" .aifactory) ∧
      Shows firstRun (sliceAt
        (pollProgressOnce juneEnv Dict.empty [bothListed "done"] firstPoll).table "a/x#7"
          .aifactory) ∧
      ¬ RowShows (pollProgressOnce juneEnv Dict.empty [bothListed "done"] firstPoll).table "a/x#7"
        (rerun "done") := by
  have hfirst : Shows firstRun (sliceAt
      (pollProgressOnce juneEnv Dict.empty [bothListed "done"] firstPoll).table "a/x#7"
        .aifactory) := by decide
  refine ⟨newestOn_rerun "done", openTo_firstPoll "done", hfirst, ?_⟩
  rintro ⟨r, hr, hs⟩
  have htask : (sliceAt
      (pollProgressOnce juneEnv Dict.empty [bothListed "done"] firstPoll).table "a/x#7"
        .aifactory).taskId = some "c" := by
    rw [sliceAt, hr]
    exact hs.1
  rw [hfirst.1] at htask
  exact absurd htask (by decide)

end CFactory.Progress
