import CFactory.Progress.Steady

/-!
# When a repeated poll writes nothing

`progress.py:110–193`. A second poll with the same listings leaves the store as it is where the
first one was steady. Where every listed task has a status or a phase, and one key, it does so
in no other case.
-/

namespace CFactory.Progress

open CFactory.Base CFactory.Model CFactory.Status CFactory.Store

/-- The same environment at later clock readings. -/
def PollEnv.later (env : PollEnv) (now : Nat → Time) : PollEnv := { env with now }

/-- A poll and a second one with the same listings. -/
def secondPoll (env : PollEnv) (now : Nat → Time) (hub : LiveProgressHub) (t : WorkItemTable)
    (adapters : List Adapter) : PollState :=
  let first := pollProgressOnce env hub adapters t
  pollProgressOnce (env.later now) first.hub adapters first.table

/-- No dead row is old enough to be removed at the end of a poll. -/
def NoneOld (env : PollEnv) (s : PollState) : Prop :=
  ∀ r ∈ s.table.rows, (pruneDeadAction none (env.now s.ticks) env.pruneAge r).run r = some r

/-- A listing in which each task has a status or a phase, and one key. -/
structure WellListed (items : List AdapterItem) : Prop where
  staged : ∀ i ∈ items, i.status ≠ none ∨ i.phase ≠ none
  oneKey : ∀ i ∈ items, ∀ j ∈ items, i.taskId = j.taskId → i.correlationKey = j.correlationKey

variable {env : PollEnv} {service : Service} {items : List AdapterItem} {key : String}
  {t : WorkItemTable}

/-- Removing dead rows leaves a table alone that has none old enough. -/
theorem NoneOld.pruneDead {s : PollState} (h : NoneOld env s) :
    pruneDead s.table none (env.now s.ticks) env.pruneAge = s.table :=
  WorkItemTable.act_kept h

/-- Rows at rest are so at any clock readings. -/
theorem Resting.later {adapters : List Adapter} (h : Resting env adapters t) (now : Nat → Time) :
    Resting (env.later now) adapters t := h

/-! ### Rows that a poll left at rest -/

/-- A slice that has a status or a phase, as a column default and a blank slice have not. -/
def Staged (s : ServiceState) : Prop := s.status ≠ none ∨ s.phase ≠ none

/-- The slice of a row that skips a staged task is staged. -/
theorem staged_of_skipped {newest : List String} {i : AdapterItem}
    (h : SkippedBy t newest i) (hstaged : i.status ≠ none ∨ i.phase ≠ none) :
    Staged (sliceAt t i.correlationKey i.service) := by
  obtain ⟨r, hr, hskip⟩ := h
  rw [sliceAt_row hr]
  rcases (skips_iff_reads i newest r).mp hskip with ⟨-, hstatus, hphase⟩ | hbarred
  · rw [Staged, hstatus, hphase]
    exact hstaged
  · left
    intro hnone
    have hdone := (barred_iff.mp hbarred).2.1
    rw [hnone] at hdone
    exact absurd hdone (by simp)

/-- A staged slice is in a row. -/
theorem row_of_staged (h : Staged (sliceAt t key service)) : ∃ r, t.row? key = some r := by
  cases hr : t.row? key with
  | some r => exact ⟨r, rfl⟩
  | none =>
    rw [sliceAt, hr, Option.elim_none] at h
    rcases h with h | h
    · exact absurd rfl h
    · exact absurd rfl h

/-- Later turns leave a slice alone, unless its row is removed. -/
theorem sliceAt_turns {s : PollState} {later : List Adapter}
    (hother : ∀ b ∈ later, b.service ≠ service) (key : String) :
    sliceAt (later.foldl (pollAdapter env) s).table key service = sliceAt s.table key service ∨
      sliceAt (later.foldl (pollAdapter env) s).table key service = .column := by
  induction later generalizing s with
  | nil => exact Or.inl rfl
  | cons b rest ih =>
    have hrest : ∀ c ∈ rest, c.service ≠ service := fun c hc ↦ hother c (List.mem_cons_of_mem b hc)
    rw [List.foldl_cons]
    rcases ih (s := pollAdapter env s b) hrest with h | h
    · rw [h]
      rcases sliceAt_pollAdapter (hother b List.mem_cons_self) s key with hs | hgone
      · exact Or.inl hs
      · right
        rw [sliceAt, hgone, Option.elim_none]
    · exact Or.inr h

/-- A slice that is staged in the end was already so after its own service's turn. -/
theorem sliceAt_of_staged {s : PollState} {later : List Adapter}
    (hother : ∀ b ∈ later, b.service ≠ service)
    (h : Staged (sliceAt (later.foldl (pollAdapter env) s).table key service)) :
    sliceAt s.table key service = sliceAt (later.foldl (pollAdapter env) s).table key service := by
  rcases sliceAt_turns hother key with hs | hs
  · exact hs.symm
  · rw [hs] at h
    rcases h with h | h
    · exact absurd rfl h
    · exact absurd rfl h

/-- A row that has a staged slice after its service's turn was tidy once hydrated. -/
theorem hydrated_of_staged {n : Nat}
    (h : Staged (sliceAt (pass env service items n t) key service)) :
    ∃ r, (hydrate env (newestIds env items t) (live env items) n t).row? key = some r ∧
      (pass env service items n t).row? key = some r ∧
      Tidy env items key (r.item.slice service) := by
  obtain ⟨q, hq⟩ := row_of_staged h
  rw [sliceAt_row hq] at h
  have hpass := hq
  rw [row_pass_housekeep] at hpass
  obtain ⟨r, hr, hkeep⟩ := Option.bind_eq_some_iff.mp hpass
  have hkey : r.key = key := WorkItemTable.key_of_row hr
  by_cases htidy : Tidy env items r.key (r.item.slice service)
  · rw [housekeep_tidy htidy] at hkeep
    rw [← hkey] at hr hq ⊢
    exact ⟨r, hr, by rw [hq, hkeep], htidy⟩
  · rw [(housekeep_untidy htidy hkeep).1] at h
    rcases h with h | h
    · exact absurd rfl h
    · exact absurd rfl h

/-- The rows that a later state of the poll has at rest were settled as a service's turn
found them. -/
theorem settles_of_rest {before later : List Adapter} {a : Adapter} {s : PollState}
    (hlist : a.listing = some items) (hwell : WellListed items)
    (hother : ∀ b ∈ before ++ [a], ∀ c ∈ later, c.service ≠ b.service) {u : WorkItemTable}
    (hslice : ∀ key service, Staged (sliceAt u key service) →
      sliceAt u key service = sliceAt ((a :: later).foldl (pollAdapter env) s).table key service)
    (hrest : ∀ b ∈ before ++ [a], ∀ listed ∈ b.listing, WellListed listed ∧
      ∀ i ∈ live env listed, ∃ newest, SkippedBy u newest i) :
    Settles env items before a.service s.table := by
  have hown := a.own items hlist
  obtain ⟨n, hn⟩ := table_pollAdapter env s hlist
  have hskipped := (hrest a (by simp) items hlist).2
  -- the slice of a hydrated task at the end is the one after this turn
  have hturn : ∀ i ∈ live env items,
      Staged (sliceAt (pass env a.service items n s.table) i.correlationKey a.service) ∧
        sliceAt (pass env a.service items n s.table) i.correlationKey a.service =
          sliceAt u i.correlationKey a.service := by
    intro i hi
    obtain ⟨newest, hskip⟩ := hskipped i hi
    have hstaged := staged_of_skipped hskip (hwell.staged i (listed_of_live hi))
    rw [hown i (listed_of_live hi)] at hstaged
    have hend := hslice i.correlationKey a.service hstaged
    rw [hend, List.foldl_cons] at hstaged
    have hsame := sliceAt_of_staged (hother a (by simp)) hstaged
    rw [hn] at hsame
    rw [hsame, hend, List.foldl_cons]
    exact ⟨hstaged, rfl⟩
  constructor
  · intro i hi j hj hid
    exact hwell.oneKey i (listed_of_live hi) j (listed_of_live hj) hid
  · intro i hi hleft
    obtain ⟨r, hr, -, htidy⟩ := hydrated_of_staged (hturn i hi).1
    rw [hydrate_left fun j hj hjk ↦ hleft j (mem_hydratedOn.mpr ⟨hj, hjk⟩)] at hr
    rw [sliceAt_row hr]
    exact htidy
  · intro i hi hleft
    obtain ⟨r, hr, hpass, -⟩ := hydrated_of_staged (hturn i hi).1
    have hend := (hturn i hi).2
    rw [sliceAt_row hpass] at hend
    rcases hydrate_cases (newestIds env items s.table) (live env items) n s.table
      i.correlationKey with ⟨hall, -⟩ | ⟨p, hp, ⟨w, hw, hwkey, hshows⟩, -⟩
    · exact absurd (fun j hj ↦ hall j (mem_hydratedOn.mp hj).1 (mem_hydratedOn.mp hj).2) hleft
    · rw [hr] at hp
      rw [← Option.some.inj hp, hown w (listed_of_live hw), hend] at hshows
      -- whatever is skipped in the end agrees with the task that wrote the row
      have hwriter : ∀ j ∈ hydratedOn env items i.correlationKey, Agree w j := by
        intro j hj
        obtain ⟨hjlive, hjkey⟩ := mem_hydratedOn.mp hj
        obtain ⟨newest, q, hq, hskip⟩ := hskipped j hjlive
        rw [← hjkey, sliceAt_row hq, ← hown j (listed_of_live hjlive)] at hshows
        rcases (skips_iff_reads j newest q).mp hskip with ⟨-, hstatus, hphase⟩ | hbarred
        · exact ⟨hshows.2.1.symm.trans hstatus, hshows.2.2.symm.trans hphase⟩
        · obtain ⟨-, -, hid, hdead⟩ := barred_iff.mp hbarred
          rcases hydrated_pair hw hjlive (hwkey.trans hjkey.symm) with hsame | hlive
          · exact absurd (hsame ▸ hshows.1) hid
          · rw [hdead] at hlive
            exact absurd hlive (by simp)
      intro j hj
      have hi' := hwriter i (mem_hydratedOn.mpr ⟨hi, rfl⟩)
      have hj' := hwriter j hj
      exact ⟨hi'.1.symm.trans hj'.1, hi'.2.symm.trans hj'.2⟩
  · intro b hb listed hlisted i hi hnone r hr
    by_contra hremoves
    have hgone : (pass env a.service items n s.table).row? i.correlationKey = none := by
      rw [row_pass_housekeep, row_hydrate_other _ hnone, hr, Option.bind_some,
        housekeep_eq_none_iff.mpr (Bool.of_not_eq_false hremoves)]
    obtain ⟨hwellb, hskippedb⟩ := hrest b (List.mem_append_left _ hb) listed hlisted
    obtain ⟨newest, hskip⟩ := hskippedb i hi
    have hstaged := staged_of_skipped hskip (hwellb.staged i (listed_of_live hi))
    rw [b.own listed hlisted i (listed_of_live hi)] at hstaged
    rw [hslice _ _ hstaged, List.foldl_cons] at hstaged
    have hsame := sliceAt_of_staged (hother b (List.mem_append_left _ hb)) hstaged
    rw [← hsame, hn] at hstaged
    obtain ⟨q, hq⟩ := row_of_staged hstaged
    rw [hgone] at hq
    exact absurd hq (by simp)

/-! ### Rows that a second poll writes -/

/-- A row is freshly stamped, if it is there. -/
def Stamped (env : PollEnv) (t : WorkItemTable) (key : String) : Prop :=
  ∀ r, t.row? key = some r → ∃ n, r.item.updatedAt = env.now n

/-- A stamped row stays so until it is removed. -/
theorem Stamped.turns {s : PollState} (h : Stamped env s.table key) (adapters : List Adapter) :
    Stamped env (adapters.foldl (pollAdapter env) s).table key := by
  refine foldl_invariant (P := fun s : PollState ↦ Stamped env s.table key) ?_ h adapters
  intro s a h q hq
  cases hlist : a.listing with
  | none =>
    rw [pollAdapter_down env s hlist] at hq
    exact h q hq
  | some items =>
    obtain ⟨n, hn⟩ := table_pollAdapter env s hlist
    rw [hn, row_pass_housekeep] at hq
    obtain ⟨r, hr, hkeep⟩ := Option.bind_eq_some_iff.mp hq
    have hstamp : ∃ m, r.item.updatedAt = env.now m := by
      rcases hydrate_cases (newestIds env items s.table) (live env items) n s.table key with
        ⟨-, hsame⟩ | ⟨p, hp, hwritten⟩
      · exact h r (hsame ▸ hr)
      · rw [hr] at hp
        rw [Option.some.inj hp]
        exact hwritten.2
    by_cases htidy : Tidy env items r.key (r.item.slice a.service)
    · rw [housekeep_tidy htidy] at hkeep
      rw [← Option.some.inj hkeep]
      exact hstamp
    · exact (housekeep_untidy htidy hkeep).2

/-- A turn removes no row that shows no task of the service. -/
theorem stays_pass (hwell : WellListed items) (hown : ∀ i ∈ items, i.service = service) (n : Nat)
    (hthere : (t.row? key).isSome) (hnone : (sliceAt t key service).taskId = none) :
    ((pass env service items n t).row? key).isSome := by
  have htidy : ∃ r, (hydrate env (newestIds env items t) (live env items) n t).row? key = some r ∧
      Tidy env items r.key (r.item.slice service) := by
    rcases hydrate_cases (newestIds env items t) (live env items) n t key with
      ⟨-, hsame⟩ | ⟨r, hr, ⟨w, hw, hwkey, hshows⟩, -⟩
    · obtain ⟨r, hr⟩ := Option.isSome_iff_exists.mp hthere
      rw [sliceAt_row hr] at hnone
      exact ⟨r, hsame.trans hr, tidy_of_none hnone⟩
    · have hkey : r.key = w.correlationKey := (WorkItemTable.key_of_row hr).trans hwkey.symm
      rw [hown w (listed_of_live hw)] at hshows
      refine ⟨r, hr, ?_⟩
      rw [hkey]
      exact tidy_of_shows (fun i hi j hj ↦ hwell.oneKey i (listed_of_live hi) j
        (listed_of_live hj)) hw hshows
  obtain ⟨r, hr, htidy⟩ := htidy
  rw [row_pass_housekeep, hr, Option.bind_some, housekeep_tidy htidy]
  rfl

/-- The turns of services whose task a row does not show leave the row there. -/
theorem there_turns {s : PollState} {adapters : List Adapter}
    (hone : (adapters.map Adapter.service).Nodup)
    (hwell : ∀ a ∈ adapters, ∀ items ∈ a.listing, WellListed items)
    (hthere : (s.table.row? key).isSome)
    (hnone : ∀ a ∈ adapters, (sliceAt s.table key a.service).taskId = none) :
    ((adapters.foldl (pollAdapter env) s).table.row? key).isSome := by
  induction adapters generalizing s with
  | nil => exact hthere
  | cons a rest ih =>
    have hnd := List.nodup_cons.mp hone
    have hturn : ((pollAdapter env s a).table.row? key).isSome := by
      cases hlist : a.listing with
      | none => rwa [pollAdapter_down env s hlist]
      | some items =>
        obtain ⟨n, hn⟩ := table_pollAdapter env s hlist
        rw [hn]
        exact stays_pass (hwell a List.mem_cons_self items hlist) (a.own items hlist) n hthere
          (hnone a List.mem_cons_self)
    rw [List.foldl_cons]
    apply ih hnd.2 (fun b hb ↦ hwell b (List.mem_cons_of_mem a hb)) hturn
    intro b hb
    have hne : a.service ≠ b.service := by
      intro he
      exact hnd.1 (he ▸ List.mem_map_of_mem hb)
    rcases sliceAt_pollAdapter hne s key with hs | hgone
    · rw [hs]
      exact hnone b (List.mem_cons_of_mem a hb)
    · rw [hgone] at hturn
      exact absurd hturn (by simp)

/-- Turns that leave a table as it is, at clock readings that no row of it has, find all its
rows at rest. -/
theorem rest_of_same {s : PollState} {adapters : List Adapter}
    (hone : (adapters.map Adapter.service).Nodup)
    (hwell : ∀ a ∈ adapters, ∀ items ∈ a.listing, WellListed items)
    (htidy : ∀ a ∈ adapters, ∀ items ∈ a.listing, ∀ key,
      Tidy env items key (sliceAt s.table key a.service))
    (hfresh : ∀ r ∈ s.table.rows, ∀ n, r.item.updatedAt ≠ env.now n)
    (hsame : (adapters.foldl (pollAdapter env) s).table = s.table) :
    ∀ a ∈ adapters, ∀ items ∈ a.listing, AtRest env items s.table := by
  induction adapters generalizing s with
  | nil =>
    intro a ha
    exact absurd ha (by simp)
  | cons a rest ih =>
    have hnd := List.nodup_cons.mp hone
    have hrestwell := fun b hb ↦ hwell b (List.mem_cons_of_mem a hb)
    rw [List.foldl_cons] at hsame
    have hfirst : ∀ items ∈ a.listing, AtRest env items s.table := by
      intro items hlist
      by_contra hnot
      unfold AtRest at hnot
      push Not at hnot
      obtain ⟨i, hi, hwrites⟩ := hnot
      have hw := hwell a List.mem_cons_self items hlist
      obtain ⟨n, hn⟩ := table_pollAdapter env s hlist
      -- the turn writes the row of this task, and housekeeping leaves it there
      have hwritten : ∃ r, (pollAdapter env s a).table.row? i.correlationKey = some r ∧
          ∃ m, r.item.updatedAt = env.now m := by
        rcases hydrate_cases (newestIds env items s.table) (live env items) n s.table
          i.correlationKey with ⟨hall, -⟩ | ⟨r, hr, ⟨w, hw', hwkey, hshows⟩, hstamp⟩
        · exact absurd (hall i hi rfl) hwrites
        · have hkey : r.key = w.correlationKey := (WorkItemTable.key_of_row hr).trans hwkey.symm
          rw [a.own items hlist w (listed_of_live hw')] at hshows
          have htidyr : Tidy env items r.key (r.item.slice a.service) := by
            rw [hkey]
            exact tidy_of_shows (fun j hj k hk ↦ hw.oneKey j (listed_of_live hj) k
              (listed_of_live hk)) hw' hshows
          refine ⟨r, ?_, hstamp⟩
          rw [hn, row_pass_housekeep, hr, Option.bind_some, housekeep_tidy htidyr]
      obtain ⟨r, hr, hstamp⟩ := hwritten
      cases hold : s.table.row? i.correlationKey with
      | some q =>
        have hstamped : Stamped env (pollAdapter env s a).table i.correlationKey := by
          intro p hp
          rw [hr] at hp
          rw [← Option.some.inj hp]
          exact hstamp
        obtain ⟨m, hm⟩ := hstamped.turns rest q (by rw [hsame, hold])
        exact hfresh q (List.mem_of_find?_eq_some hold) m hm
      | none =>
        have hcolumn : ∀ b ∈ rest,
            (sliceAt (pollAdapter env s a).table i.correlationKey b.service).taskId = none := by
          intro b hb
          have hne : a.service ≠ b.service := by
            intro he
            exact hnd.1 (he ▸ List.mem_map_of_mem hb)
          rcases sliceAt_pollAdapter hne s i.correlationKey with hs | hgone
          · rw [hs, sliceAt, hold]
            rfl
          · rw [hgone] at hr
            exact absurd hr (by simp)
        have hthere : ((rest.foldl (pollAdapter env) (pollAdapter env s a)).table.row?
            i.correlationKey).isSome :=
          there_turns hnd.2 hrestwell (by rw [hr]; rfl) hcolumn
        rw [hsame, hold] at hthere
        exact absurd hthere (by simp)
    have hturn : (pollAdapter env s a).table = s.table := by
      cases hlist : a.listing with
      | none => rw [pollAdapter_down env s hlist]
      | some items =>
        obtain ⟨n, hn⟩ := table_pollAdapter env s hlist
        rw [hn, pass_still (hfirst items hlist) (htidy a List.mem_cons_self items hlist)]
    have hrest := @ih (pollAdapter env s a) hnd.2 hrestwell
    rw [hturn] at hrest
    have hlater := hrest (fun b hb ↦ htidy b (List.mem_cons_of_mem a hb)) hfresh hsame
    intro b hb
    rcases List.mem_cons.mp hb with rfl | hb
    · exact hfirst
    · exact hlater b hb

/-! ### Two polls -/

/-- After the turns of a poll the slices of each of its services are tidy. -/
theorem tidy_turns {adapters : List Adapter} (hone : (adapters.map Adapter.service).Nodup)
    (s : PollState) : ∀ a ∈ adapters, ∀ items ∈ a.listing, ∀ key,
      Tidy env items key (sliceAt (adapters.foldl (pollAdapter env) s).table key a.service) := by
  intro a ha items hlist key
  obtain ⟨before, later, rfl⟩ := List.append_of_mem ha
  have hother : ∀ b ∈ later, b.service ≠ a.service := by
    intro b hb he
    rw [List.map_append, List.map_cons] at hone
    have hnd := (List.nodup_append.mp hone).2.1
    exact (List.nodup_cons.mp hnd).1 (he ▸ List.mem_map_of_mem hb)
  obtain ⟨n, hn⟩ := table_pollAdapter env (before.foldl (pollAdapter env) s) hlist
  rw [List.foldl_append, List.foldl_cons]
  rcases sliceAt_turns (s := pollAdapter env (before.foldl (pollAdapter env) s) a) hother key with
    hs | hs
  · rw [hs, hn]
    exact tidy_pass n _ key
  · rw [hs]
    exact tidy_of_none rfl

/-- A poll that leaves all rows at rest, each listing being well formed, was steady. -/
theorem steady_of_rest {hub : LiveProgressHub} {adapters : List Adapter}
    (hone : (adapters.map Adapter.service).Nodup)
    (hwell : ∀ a ∈ adapters, ∀ items ∈ a.listing, WellListed items)
    (hrest : ∀ a ∈ adapters, ∀ items ∈ a.listing,
      AtRest env items (pollProgressOnce env hub adapters t).table) :
    Steady env hub t adapters := by
  have hkept : ∀ key r, (pollProgressOnce env hub adapters t).table.row? key = some r →
      (turns env hub t adapters).table.row? key = some r ∧
        (pruneDeadAction none (env.now (turns env hub t adapters).ticks) env.pruneAge r).run r =
          some r := by
    intro key r hr
    rw [table_pollProgressOnce, pruneDead, WorkItemTable.row_act] at hr
    obtain ⟨q, hq, hrun⟩ := Option.bind_eq_some_iff.mp hr
    have hsame := pruneDead_kept hrun
    subst hsame
    exact ⟨hq, hrun⟩
  constructor
  · intro before a later items hsplit hlist
    have hmem : ∀ b ∈ before ++ [a], b ∈ adapters := by
      intro b hb
      rw [hsplit]
      rcases List.mem_append.mp hb with hb | hb
      · exact List.mem_append_left _ hb
      · rw [List.mem_singleton.mp hb]
        exact List.mem_append_right _ List.mem_cons_self
    refine @settles_of_rest env items before later a _ hlist
      (hwell a (hmem a (by simp)) items hlist) ?_ (pollProgressOnce env hub adapters t).table ?_ ?_
    · intro b hb c hc he
      have hsplit' : adapters = (before ++ [a]) ++ later := by
        rw [hsplit, List.append_assoc, List.singleton_append]
      rw [hsplit', List.map_append] at hone
      exact (List.nodup_append.mp hone).2.2 b.service (List.mem_map_of_mem hb) c.service
        (List.mem_map_of_mem hc) he.symm
    · intro key service hstaged
      obtain ⟨r, hr⟩ := row_of_staged hstaged
      have hend : (a :: later).foldl (pollAdapter env) (turns env hub t before) =
          turns env hub t adapters := by
        rw [hsplit, turns_append]
      rw [hend, sliceAt_row hr, sliceAt_row (hkept key r hr).1]
    · intro b hb listed hlisted
      refine ⟨hwell b (hmem b hb) listed hlisted, ?_⟩
      intro i hi
      exact ⟨_, hrest b (hmem b hb) listed hlisted i hi⟩
  · intro a ha listed hlisted i hi r hr
    obtain ⟨q, hq, -⟩ := hrest a ha listed hlisted i hi
    obtain ⟨hrow, hrun⟩ := hkept i.correlationKey q hq
    rw [Option.mem_def, hrow] at hr
    rw [← Option.some.inj hr]
    exact hrun

/-- With one adapter for each service (`build_adapters`), a second poll with the same listings
leaves every row as it is, its stamp included, where the first was steady. Where each task is
listed with a status or a phase, and under one key, it does so only there. -/
theorem second_poll_same_iff (env : PollEnv) (now : Nat → Time) (hub : LiveProgressHub)
    (t : WorkItemTable) (adapters : List Adapter) (hone : (adapters.map Adapter.service).Nodup)
    (hold : NoneOld (env.later now) (turns (env.later now) (pollProgressOnce env hub adapters t).hub
      (pollProgressOnce env hub adapters t).table adapters)) :
    (Steady env hub t adapters →
      (secondPoll env now hub t adapters).table = (pollProgressOnce env hub adapters t).table) ∧
    ((∀ a ∈ adapters, ∀ items ∈ a.listing, WellListed items) →
      (∀ r ∈ (pollProgressOnce env hub adapters t).table.rows, ∀ n, r.item.updatedAt < now n) →
      (secondPoll env now hub t adapters).table = (pollProgressOnce env hub adapters t).table →
        Steady env hub t adapters) := by
  have hsecond : (secondPoll env now hub t adapters).table =
      (turns (env.later now) (pollProgressOnce env hub adapters t).hub
        (pollProgressOnce env hub adapters t).table adapters).table := hold.pruneDead
  rw [hsecond]
  constructor
  · intro hsteady
    have hrest := (hsteady.resting hone).later now
    exact Resting.still (s := ⟨_, [], (pollProgressOnce env hub adapters t).table, 0⟩) hrest
  · intro hwell hclock hsame
    have htidy : ∀ a ∈ adapters, ∀ items ∈ a.listing, ∀ key, Tidy (env.later now) items key
        (sliceAt (pollProgressOnce env hub adapters t).table key a.service) := by
      intro a ha items hlist key
      rw [table_pollProgressOnce]
      exact tidy_pruned (@tidy_turns env adapters hone _ a ha items hlist key)
    have hrest : ∀ a ∈ adapters, ∀ items ∈ a.listing,
        AtRest (env.later now) items (pollProgressOnce env hub adapters t).table :=
      rest_of_same (s := ⟨_, [], (pollProgressOnce env hub adapters t).table, 0⟩) hone hwell htidy
        (fun r hr n ↦ (hclock r hr n).ne) hsame
    exact steady_of_rest hone hwell hrest

/-! ### Two tasks on one key -/

instance (env : PollEnv) (s : PollState) : Decidable (NoneOld env s) :=
  inferInstanceAs (Decidable (∀ r ∈ s.table.rows, _ = some r))

/-- A task of an issue, from an upstream that sends no creation times. -/
def unstampedRun (id status : String) : AdapterItem :=
  { correlationKey := "a/x#7", service := .aifactory, taskId := id, status := some status }

/-- An adapter that lists two such tasks. -/
def unstampedRuns (first second : String) : Adapter :=
  { service := .aifactory
    listing := some [unstampedRun "old" first, unstampedRun "new" second]
    own := by simp [unstampedRun] }

/-- The clock of a poll an hour after that of `juneEnv`. -/
def anHourLater (n : Nat) : Time := 1780484400000000 + n

/-- A stalled task and its finished re-run leave the second poll nothing to write. -/
theorem finished_rerun_steady :
    Steady juneEnv Dict.empty .empty [unstampedRuns "stalled" "completed"] ∧
      (secondPoll juneEnv anHourLater Dict.empty .empty
          [unstampedRuns "stalled" "completed"]).table =
        (pollProgressOnce juneEnv Dict.empty
          [unstampedRuns "stalled" "completed"] .empty).table := by
  have hboth := second_poll_same_iff juneEnv anHourLater Dict.empty .empty
    [unstampedRuns "stalled" "completed"] (by simp) (by decide)
  have hsteady : Steady juneEnv Dict.empty .empty [unstampedRuns "stalled" "completed"] := by
    refine hboth.2 ?_ ?_ ?_
    · intro a ha items hlist
      rw [List.mem_singleton.mp ha] at hlist
      rw [← Option.some.inj hlist]
      constructor <;> simp [unstampedRun]
    · have hstamps : ∀ r ∈ (pollProgressOnce juneEnv Dict.empty
          [unstampedRuns "stalled" "completed"] .empty).table.rows,
          r.item.updatedAt < 1780484400000000 := by decide
      intro r hr n
      exact lt_of_lt_of_le (hstamps r hr) (Int.le_add_of_nonneg_right (Int.natCast_nonneg n))
    · ext1
      decide
  exact ⟨hsteady, hboth.1 hsteady⟩

/-- Two live tasks at different statuses write their row in every poll, so that its stamp
never ages. -/
theorem unstamped_runs_flip :
    NoneOld (juneEnv.later anHourLater) (turns (juneEnv.later anHourLater)
      (pollProgressOnce juneEnv Dict.empty [unstampedRuns "in_progress" "queued"] .empty).hub
      (pollProgressOnce juneEnv Dict.empty [unstampedRuns "in_progress" "queued"] .empty).table
      [unstampedRuns "in_progress" "queued"]) ∧
    (secondPoll juneEnv anHourLater Dict.empty .empty
        [unstampedRuns "in_progress" "queued"]).table ≠
      (pollProgressOnce juneEnv Dict.empty
        [unstampedRuns "in_progress" "queued"] .empty).table := by
  refine ⟨by decide, ?_⟩
  intro hsame
  have hstamps := congrArg
    (fun t ↦ (t.row? "a/x#7").map fun r : WorkItemRow ↦ r.item.updatedAt) hsame
  exact absurd hstamps (by decide)

end CFactory.Progress
