import CFactory.Progress.Housekeeping

/-!
# A repeated poll

`progress.py:110–193` and `store.py:541–701`. A second poll with the same listings writes
nothing where each turn of the first one left its rows at rest: every hydrated task would be
skipped by its row from then on, and every slice is tidy.
-/

namespace CFactory.Progress

open CFactory.Base CFactory.Model CFactory.Status CFactory.Store

/-! ### Rows at rest -/

section
variable (env : PollEnv) (items : List AdapterItem)

/-- The row of a key skips every task that is hydrated on it. -/
def LeftAlone (t : WorkItemTable) (key : String) : Prop :=
  ∀ i ∈ hydratedOn env items key, SkippedBy t (newestIds env items t) i

/-- Every row skips the tasks that a service's turn hydrates. -/
def AtRest (t : WorkItemTable) : Prop :=
  ∀ i ∈ live env items, SkippedBy t (newestIds env items t) i

/-- What a service's turn has to find for its rows to be at rest afterwards, where the
services before it had their turn. -/
structure Settles (before : List Adapter) (service : Service) (t : WorkItemTable) : Prop where
  /-- No task is hydrated on two keys. -/
  oneKey : ∀ i ∈ live env items, ∀ j ∈ live env items, i.taskId = j.taskId →
    i.correlationKey = j.correlationKey
  /-- A row that is left alone has a tidy slice. -/
  tidy : ∀ i ∈ live env items, LeftAlone env items t i.correlationKey →
    Tidy env items i.correlationKey (sliceAt t i.correlationKey service)
  /-- The tasks of a row that is not left alone agree. -/
  agree : ∀ i ∈ live env items, ¬ LeftAlone env items t i.correlationKey →
    ∀ j ∈ hydratedOn env items i.correlationKey, Agree i j
  /-- No row of an earlier service is removed. -/
  spared : ∀ b ∈ before, ∀ listed ∈ b.listing, ∀ i ∈ live env listed,
    hydratedOn env items i.correlationKey = [] → ∀ r ∈ t.row? i.correlationKey,
      removes env service items r = false

end

variable {env : PollEnv} {service : Service} {items : List AdapterItem} {key : String}
  {t : WorkItemTable}

/-- A task is barred where it is not the newest, and is dead after another one finished. -/
theorem barred_iff {i : AdapterItem} {newest : List String} {r : WorkItemRow} :
    barred i newest r = true ↔ i.taskId ∉ newest ∧
      isDone (r.item.slice i.service).status = true ∧
      (r.item.slice i.service).taskId ≠ some i.taskId ∧ isDeadStage i.status = true := by
  have hid : (carryForward (r.item.slice i.service) i.toState).taskId = some i.taskId := rfl
  have hstatus : (carryForward (r.item.slice i.service) i.toState).status = i.status := rfl
  rw [barred, superseded, hid, hstatus]
  simp [and_assoc]

/-- A slice that shows a task of its key is tidy, if no task is hydrated on two keys. -/
theorem tidy_of_shows
    (hone : ∀ i ∈ live env items, ∀ j ∈ live env items, i.taskId = j.taskId →
      i.correlationKey = j.correlationKey)
    {w : AdapterItem} (hw : w ∈ live env items) {s : ServiceState} (hshows : Shows w s) :
    Tidy env items w.correlationKey s := by
  intro id hid
  have hid : w.taskId = id := Option.some.inj (hshows.1.symm.trans hid)
  constructor
  · intro _
    rw [← hid]
    exact List.mem_map_of_mem hw
  · intro k hk
    obtain ⟨j, hj, hjid, hjkey⟩ := hydrated_of_taskIdToKey hk
    rw [← hjkey]
    exact hone j hj w hw (hjid.trans hid.symm)

/-- The slice of a row, where there is one. -/
theorem sliceAt_row {r : WorkItemRow} (h : t.row? key = some r) (service : Service) :
    sliceAt t key service = r.item.slice service := by
  rw [sliceAt, h, Option.elim_some]

/-- Tasks on a row that is not left alone are not barred from it, if they agree. -/
private theorem unbarred {i : AdapterItem} (hown : ∀ i ∈ items, i.service = service)
    (hleft : ¬ LeftAlone env items t key)
    (hagree : ∀ i ∈ hydratedOn env items key, ∀ j ∈ hydratedOn env items key, Agree i j)
    (hi : i ∈ hydratedOn env items key) {r : WorkItemRow} (hrow : t.row? key = some r) :
    barred i (newestIds env items t) r = false := by
  by_contra hbarred
  have hbar := barred_iff.mp (Bool.of_not_eq_false hbarred)
  apply hleft
  intro j hj
  have hilive := mem_hydratedOn.mp hi
  have hjlive := mem_hydratedOn.mp hj
  -- a dead task is alone on its key, so its other entries are barred as well
  have hid : j.taskId = i.taskId := by
    rcases hydrated_pair hjlive.1 hilive.1 (hjlive.2.trans hilive.2.symm) with h | h
    · exact h
    · rw [hbar.2.2.2] at h
      exact absurd h (by simp)
  have hservice : j.service = i.service :=
    (hown j (listed_of_live hjlive.1)).trans (hown i (listed_of_live hilive.1)).symm
  refine ⟨r, hjlive.2 ▸ hrow, ?_⟩
  rw [skips_iff_reads, barred_iff, hid, hservice, ← (hagree i hi j hj).1]
  exact Or.inr hbar

/-- A turn that finds its rows settled leaves them at rest. -/
theorem Settles.atRest {before : List Adapter} (h : Settles env items before service t)
    (hown : ∀ i ∈ items, i.service = service) (n : Nat) :
    AtRest env items (pass env service items n t) := by
  intro i hi
  have hservice := hown i (listed_of_live hi)
  by_cases hleft : LeftAlone env items t i.correlationKey
  · obtain ⟨r, hrow, hskip⟩ := hleft i (mem_hydratedOn.mpr ⟨hi, rfl⟩)
    have hkey : r.key = i.correlationKey := WorkItemTable.key_of_row hrow
    have hpass : (pass env service items n t).row? i.correlationKey = some r := by
      have htidy := h.tidy i hi hleft
      rw [sliceAt_row hrow, ← hkey] at htidy
      rw [row_pass_housekeep,
        hydrate_left (fun j hj hjk ↦ hleft j (mem_hydratedOn.mpr ⟨hj, hjk⟩)), hrow,
        Option.bind_some, housekeep_tidy htidy]
    refine ⟨r, hpass, ?_⟩
    rw [skips_iff_reads] at hskip ⊢
    rcases hskip with hreads | hbarred
    · exact Or.inl hreads
    · right
      rw [barred_iff] at hbarred ⊢
      refine ⟨?_, hbarred.2⟩
      -- an owner with this id is on this key, where the row shows the same task
      intro hnewest
      obtain ⟨o, ho, hid, x, hx, hmem⟩ := mem_newestIds_iff.mp hnewest
      have hokey := h.oneKey o (live_of_owner ho) i hi hid
      apply hbarred.1
      refine mem_newestIds_iff.mpr ⟨o, ho, hid, x, ?_, hmem⟩
      rw [currentTask_eq, hokey, sliceAt_row hpass] at hx
      rw [currentTask_eq, hokey, sliceAt_row hrow]
      exact hx
  · have hagree : ∀ j ∈ hydratedOn env items i.correlationKey,
        ∀ k ∈ hydratedOn env items i.correlationKey, Agree j k := by
      intro j hj k hk
      have hj' := h.agree i hi hleft j hj
      have hk' := h.agree i hi hleft k hk
      exact ⟨hj'.1.symm.trans hk'.1, hj'.2.symm.trans hk'.2⟩
    have hread : ∃ q, (hydrate env (newestIds env items t) (live env items) n t).row?
        i.correlationKey = some q ∧ Reads i q :=
      hydrate_reads (fun j hj ↦ hown j (listed_of_live hj))
        (fun j hj hjk k hk hkk ↦ ⟨hagree j (mem_hydratedOn.mpr ⟨hj, hjk⟩) k
          (mem_hydratedOn.mpr ⟨hk, hkk⟩), hydrated_pair hj hk (hjk.trans hkk.symm)⟩) n
        (fun j hj hjk r hrow ↦ unbarred hown hleft hagree (mem_hydratedOn.mpr ⟨hj, hjk⟩) hrow)
        hi rfl
    obtain ⟨q, hq, hreads⟩ := hread
    rcases hydrate_cases (newestIds env items t) (live env items) n t i.correlationKey with
      ⟨hall, -⟩ | ⟨p, hp, ⟨w, hw, hwkey, hshows⟩, -⟩
    · exact absurd (fun j hj ↦ hall j (mem_hydratedOn.mp hj).1 (mem_hydratedOn.mp hj).2) hleft
    · rw [hq] at hp
      rw [← Option.some.inj hp, hown w (listed_of_live hw)] at hshows
      have hkey : q.key = i.correlationKey := WorkItemTable.key_of_row hq
      have htidy : Tidy env items q.key (q.item.slice service) := by
        rw [hkey, ← hwkey]
        exact tidy_of_shows h.oneKey hw hshows
      refine ⟨q, ?_, (skips_iff_reads i _ q).mpr (Or.inl hreads)⟩
      rw [row_pass_housekeep, hq, Option.bind_some, housekeep_tidy htidy]

/-! ### Turns of the other services -/

/-- A turn keeps a title that a row has. -/
theorem title_pass {n : Nat} {r q : WorkItemRow} (hrow : t.row? key = some r)
    (hpass : (pass env service items n t).row? key = some q)
    (h : truthy r.item.title = true) : truthy q.item.title = true := by
  obtain ⟨p, hp, htitle⟩ := @hydrate_keeps env key (newestIds env items t) (live env items) n t r
    hrow
  rw [row_pass, hp, Option.bind_some] at hpass
  obtain ⟨p', hp', hq⟩ := Option.bind_eq_some_iff.mp hpass
  rw [(tidies_pruneDuplicate none service _ _ p').title hq,
    (tidies_reconcile none service _ _ p).title hp']
  exact htitle h

/-- Rows at rest stay so in another service's turn that removes none of them. -/
theorem AtRest.other {other : Service} {listed : List AdapterItem} (h : AtRest env listed t)
    (hne : service ≠ other) (hown : ∀ i ∈ items, i.service = service)
    (hlisted : ∀ i ∈ listed, i.service = other) {n : Nat}
    (hstays : ∀ i ∈ live env listed,
      ((pass env service items n t).row? i.correlationKey).isSome) :
    AtRest env listed (pass env service items n t) := by
  have hsame : ∀ i ∈ live env listed,
      sliceAt (pass env service items n t) i.correlationKey other =
        sliceAt t i.correlationKey other := by
    intro i hi
    rcases sliceAt_pass hne hown n t i.correlationKey with hs | hgone
    · exact hs
    · have hthere := hstays i hi
      rw [hgone] at hthere
      exact absurd hthere (by simp)
  have hnewest : newestIds env listed (pass env service items n t) = newestIds env listed t := by
    apply newestIds_congr
    intro o ho
    have holive := live_of_owner ho
    rw [currentTask_eq, currentTask_eq, hlisted o (listed_of_live holive), hsame o holive]
  intro i hi
  obtain ⟨r, hrow, hskip⟩ := h i hi
  obtain ⟨q, hq⟩ := Option.isSome_iff_exists.mp (hstays i hi)
  have hslice : q.item.slice i.service = r.item.slice i.service := by
    rw [hlisted i (listed_of_live hi), ← sliceAt_row hq, ← sliceAt_row hrow]
    exact hsame i hi
  refine ⟨q, hq, ?_⟩
  rw [hnewest]
  rw [skips_iff_reads, Reads, barred_iff] at hskip ⊢
  rw [hslice]
  rcases hskip with ⟨htitle, hreads⟩ | hbarred
  · exact Or.inl ⟨fun hneeded ↦ title_pass hrow hq (htitle hneeded), hreads⟩
  · exact Or.inr hbarred

/-- A turn that finds its rows settled removes no row of an earlier service. -/
theorem Settles.stays {before : List Adapter} (h : Settles env items before service t)
    (hown : ∀ i ∈ items, i.service = service) {b : Adapter} (hb : b ∈ before)
    {listed : List AdapterItem} (hlist : b.listing = some listed) {i : AdapterItem}
    (hi : i ∈ live env listed) (hthere : (t.row? i.correlationKey).isSome) (n : Nat) :
    ((pass env service items n t).row? i.correlationKey).isSome := by
  obtain ⟨r, hrow⟩ := Option.isSome_iff_exists.mp hthere
  by_cases hnone : hydratedOn env items i.correlationKey = []
  · rw [row_pass_housekeep, row_hydrate_other _ hnone, hrow, Option.bind_some]
    by_contra hgone
    have hremoves := housekeep_eq_none_iff.mp (Option.not_isSome_iff_eq_none.mp hgone)
    rw [h.spared b hb listed hlist i hi hnone r hrow] at hremoves
    exact absurd hremoves (by simp)
  · obtain ⟨j, hj⟩ := List.exists_mem_of_ne_nil _ hnone
    obtain ⟨hj, hjkey⟩ := mem_hydratedOn.mp hj
    obtain ⟨q, hq, -⟩ := h.atRest hown n j hj
    rw [← hjkey, hq]
    rfl

/-! ### The whole poll -/

/-- After these adapters' turns every row is at rest, and every slice tidy. -/
def Resting (env : PollEnv) (adapters : List Adapter) (t : WorkItemTable) : Prop :=
  ∀ b ∈ adapters, ∀ listed ∈ b.listing,
    AtRest env listed t ∧ ∀ key, Tidy env listed key (sliceAt t key b.service)

/-- A poll whose turns all find their rows settled, and which removes no row of a hydrated
task as dead for too long. -/
structure Steady (env : PollEnv) (hub : LiveProgressHub) (t : WorkItemTable)
    (adapters : List Adapter) : Prop where
  settles : ∀ before a later items, adapters = before ++ a :: later → a.listing = some items →
    Settles env items before a.service (turns env hub t before).table
  unpruned : ∀ a ∈ adapters, ∀ listed ∈ a.listing, ∀ i ∈ live env listed,
    ∀ r ∈ (turns env hub t adapters).table.row? i.correlationKey,
      (pruneDeadAction none (env.now (turns env hub t adapters).ticks) env.pruneAge r).run r =
        some r

/-- A turn that finds its rows settled brings them to rest, next to those at rest already. -/
theorem Resting.turn {before : List Adapter} {a : Adapter} {s : PollState}
    (h : Resting env before s.table) (hother : ∀ b ∈ before, b.service ≠ a.service)
    (hsettles : ∀ items ∈ a.listing, Settles env items before a.service s.table) :
    Resting env (before ++ [a]) (pollAdapter env s a).table := by
  cases hlist : a.listing with
  | none =>
    rw [pollAdapter_down env s hlist]
    intro b hb listed hlisted
    rcases List.mem_append.mp hb with hb | hb
    · exact h b hb listed hlisted
    · rw [List.mem_singleton.mp hb, hlist] at hlisted
      exact absurd hlisted (by simp)
  | some items =>
    have hown := a.own items hlist
    have hset := hsettles items hlist
    obtain ⟨n, hn⟩ := table_pollAdapter env s hlist
    intro b hb listed hlisted
    rcases List.mem_append.mp hb with hb | hb
    · obtain ⟨hrest, htidy⟩ := h b hb listed hlisted
      constructor
      · rw [hn]
        refine hrest.other (Ne.symm (hother b hb)) hown (b.own listed hlisted) ?_
        intro i hi
        obtain ⟨r, hr, -⟩ := hrest i hi
        exact hset.stays hown hb hlisted hi (by rw [hr]; rfl) n
      · intro key
        rcases sliceAt_pollAdapter (Ne.symm (hother b hb)) s key with hsame | hgone
        · rw [hsame]
          exact htidy key
        · rw [sliceAt, hgone]
          exact tidy_of_none rfl
    · rw [List.mem_singleton.mp hb] at hlisted ⊢
      rw [hlist] at hlisted
      rw [← Option.some.inj hlisted, hn]
      exact ⟨hset.atRest hown n, tidy_pass n s.table⟩

/-- With one adapter for each service, the turns of a steady poll leave all rows at rest. -/
theorem Steady.resting_turns {hub : LiveProgressHub} {adapters : List Adapter}
    (h : Steady env hub t adapters) (hone : (adapters.map Adapter.service).Nodup) :
    Resting env adapters (turns env hub t adapters).table := by
  have hprefix : ∀ before later, adapters = before ++ later →
      Resting env before (turns env hub t before).table := by
    intro before
    induction before using List.reverseRecOn with
    | nil =>
      intro later _ b hb
      exact absurd hb (by simp)
    | append_singleton before a ih =>
      intro later hsplit
      have hsplit' : adapters = before ++ a :: later := by
        rw [hsplit, List.append_assoc, List.singleton_append]
      rw [turns_append, List.foldl_cons, List.foldl_nil]
      refine (ih (a :: later) hsplit').turn ?_ fun items hlist ↦
        h.settles before a later items hsplit' hlist
      intro b hb hsame
      rw [hsplit', List.map_append, List.map_cons] at hone
      exact (List.nodup_append.mp hone).2.2 b.service (List.mem_map_of_mem hb) a.service
        List.mem_cons_self hsame
  exact hprefix adapters [] (List.append_nil adapters).symm

/-- Rows at rest stay so when none of them is removed as dead. -/
theorem AtRest.pruned {now maxAge : Time} (h : AtRest env items t)
    (hkept : ∀ i ∈ live env items, ∀ r ∈ t.row? i.correlationKey,
      (pruneDeadAction none now maxAge r).run r = some r) :
    AtRest env items (pruneDead t none now maxAge) := by
  have hsame : ∀ i ∈ live env items,
      (pruneDead t none now maxAge).row? i.correlationKey = t.row? i.correlationKey := by
    intro i hi
    obtain ⟨r, hr, -⟩ := h i hi
    rw [pruneDead, WorkItemTable.row_act, hr, Option.bind_some, hkept i hi r hr]
  have hnewest : newestIds env items (pruneDead t none now maxAge) = newestIds env items t := by
    apply newestIds_congr
    intro o ho
    rw [currentTask_eq, currentTask_eq, sliceAt, hsame o (live_of_owner ho), sliceAt]
  intro i hi
  obtain ⟨r, hr, hskip⟩ := h i hi
  exact ⟨r, (hsame i hi).trans hr, hnewest ▸ hskip⟩

/-- Removing dead rows leaves slices tidy. -/
theorem tidy_pruned {now maxAge : Time} (h : Tidy env items key (sliceAt t key service)) :
    Tidy env items key (sliceAt (pruneDead t none now maxAge) key service) := by
  cases hrow : (pruneDead t none now maxAge).row? key with
  | none =>
    rw [sliceAt, hrow]
    exact tidy_of_none rfl
  | some q =>
    rw [sliceAt_pruneDead (by rw [hrow]; rfl)]
    exact h

/-- A steady poll leaves all rows at rest. -/
theorem Steady.resting {hub : LiveProgressHub} {adapters : List Adapter}
    (h : Steady env hub t adapters) (hone : (adapters.map Adapter.service).Nodup) :
    Resting env adapters (pollProgressOnce env hub adapters t).table := by
  intro b hb listed hlisted
  obtain ⟨hrest, htidy⟩ := h.resting_turns hone b hb listed hlisted
  rw [table_pollProgressOnce]
  exact ⟨hrest.pruned (h.unpruned b hb listed hlisted), fun key ↦ tidy_pruned (htidy key)⟩

/-- A turn leaves a table at rest alone. -/
theorem pass_still (hrest : AtRest env items t)
    (htidy : ∀ key, Tidy env items key (sliceAt t key service)) (n : Nat) :
    pass env service items n t = t := by
  have hrow : ∀ r ∈ t.rows, Tidy env items r.key (r.item.slice service) := by
    intro r hr
    rw [← sliceAt_row (WorkItemTable.row_of_mem hr)]
    exact htidy r.key
  rw [pass, hydrate_skipped hrest, reconcileSnapshot,
    WorkItemTable.act_kept fun r hr ↦ reconcile_tidy (hrow r hr) _,
    pruneDuplicateStages, WorkItemTable.act_kept fun r hr ↦ prune_tidy (hrow r hr) _]

/-- The turns of a poll leave a table at rest alone. -/
theorem Resting.still {adapters : List Adapter} {s : PollState}
    (h : Resting env adapters s.table) :
    (adapters.foldl (pollAdapter env) s).table = s.table := by
  induction adapters generalizing s with
  | nil => rfl
  | cons a rest ih =>
    have hturn : (pollAdapter env s a).table = s.table := by
      cases hlist : a.listing with
      | none => rw [pollAdapter_down env s hlist]
      | some items =>
        obtain ⟨n, hn⟩ := table_pollAdapter env s hlist
        obtain ⟨hrest, htidy⟩ := h a List.mem_cons_self items hlist
        rw [hn, pass_still hrest htidy]
    rw [List.foldl_cons, ih, hturn]
    rw [hturn]
    exact fun b hb ↦ h b (List.mem_cons_of_mem a hb)

end CFactory.Progress
