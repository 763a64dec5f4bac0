import CFactory.Progress.Hydration
import CFactory.Base.Runs

/-!
# Polled facts

`adapters/base.py:24–50`, `adapters/__init__.py:38–50` and `store.py:541–601`. A poll brings the
status, the phase, the repo and the review of a task. The shortcut that protects the stall clock
compares the status and the phase alone: a repo or a review that arrives while they stay the same
does not reach the row.
-/

namespace CFactory.Progress

open CFactory.Base CFactory.Model CFactory.Status CFactory.Store

/-! ### What was polled of a slice -/

/-- A call of `hydrate`: its tasks, the newest ones, and the clock reading that it begins with. -/
structure Hydration where
  items : List AdapterItem
  newest : List String := []
  ticks : Nat := 0

/-- The store, and the items of one slice that were hydrated so far. -/
structure Polled where
  table : WorkItemTable
  seen : List AdapterItem

/-- An item is of a slice. -/
def AdapterItem.isOf (key : String) (service : Service) (i : AdapterItem) : Bool :=
  i.correlationKey == key && i.service == service

/-- The review that an item carries; an empty one is none. -/
def reviewOf (i : AdapterItem) : Option Block := i.review.filter fun b ↦ decide (b ≠ [])

/-- The last review that any of some items carried. -/
def lastReview (seen : List AdapterItem) : Option Block := (seen.filterMap reviewOf).getLast?

variable (env : PollEnv) (key : String) (service : Service)

/-- The store after a call, and the items that it brought of the slice. -/
def Polled.hydrate (p : Polled) (h : Hydration) : Polled :=
  ⟨Progress.hydrate env h.newest h.items h.ticks p.table,
    p.seen ++ h.items.filter (·.isOf key service)⟩

/-- The slice has the facts that the items brought: those of the last one, and the last review. -/
def Reflects (p : Polled) : Prop :=
  (∀ i ∈ p.seen.getLast?,
    (sliceAt p.table key service).status = i.status ∧
      (sliceAt p.table key service).phase = i.phase ∧
      (sliceAt p.table key service).repo = i.repo) ∧
    (sliceAt p.table key service).extra .review = lastReview p.seen

/-- The row is there and already reads like the item, so that the poll is skipped. -/
def Rereported (t : WorkItemTable) (i : AdapterItem) : Prop :=
  ∃ r, t.row? i.correlationKey = some r ∧ Reads i r

/-- The item's repo and review reach the slice: where the poll is skipped they are there already,
and where it is written no earlier review is lost. -/
def Reaches (p : Polled) (i : AdapterItem) : Prop :=
  (Rereported p.table i →
    (sliceAt p.table key service).repo = i.repo ∧
      (sliceAt p.table key service).extra .review = (reviewOf i).or (lastReview p.seen)) ∧
    (¬ Rereported p.table i → reviewOf i = none → lastReview p.seen = none)

/-- The last item that a call brings of the slice reaches it. -/
def LastReaches (p : Polled) (h : Hydration) : Prop :=
  ∀ before i after, h.items = before ++ i :: after → i.isOf key service = true →
    (∀ j ∈ after, j.isOf key service = false) →
      Reaches key service (p.hydrate env key service { h with items := before }) i

/-- The slice is idle, or it holds the task. -/
def HeldBy (task : String) (s : ServiceState) : Prop :=
  s.status = none ∨ s.taskId = some task

variable {env} {key} {service} {p : Polled} {i : AdapterItem} {t : WorkItemTable}
  {newest : List String} {task : String}

theorem isOf_iff : i.isOf key service = true ↔ i.correlationKey = key ∧ i.service = service := by
  rw [AdapterItem.isOf, Bool.and_eq_true, beq_iff_eq, beq_iff_eq]

/-- One more item brings its own review, or leaves the last one. -/
theorem lastReview_concat (seen : List AdapterItem) (i : AdapterItem) :
    lastReview (seen ++ [i]) = (reviewOf i).or (lastReview seen) := by
  rw [lastReview, List.filterMap_append]
  cases hreview : reviewOf i with
  | none => simp [hreview, lastReview]
  | some b => simp [hreview]

/-- Where the slice reflects what was polled, an item at the same status and phase reaches it if its
repo is that of the slice, and so is any review that it carries. -/
theorem reaches_iff_of_reflects (h : Reflects key service p) (i : AdapterItem) :
    Reaches key service p i ↔
      (Rereported p.table i →
        (sliceAt p.table key service).repo = i.repo ∧
          ∀ b ∈ reviewOf i, (sliceAt p.table key service).extra .review = some b) ∧
        (¬ Rereported p.table i → reviewOf i = none →
          (sliceAt p.table key service).extra .review = none) := by
  rw [Reaches, ← h.2]
  cases reviewOf i with
  | none => simp
  | some b => simp

/-- What is re-reported has the status and the phase of the slice. -/
theorem Rereported.facts (h : Rereported t i) :
    (sliceAt t i.correlationKey i.service).status = i.status ∧
      (sliceAt t i.correlationKey i.service).phase = i.phase := by
  obtain ⟨r, hrow, hreads⟩ := h
  rw [sliceAt, hrow, Option.elim_some]
  exact hreads.2

/-! ### One item -/

/-- An item of another slice leaves the slice alone. -/
theorem sliceAt_snapshot_other (h : i.isOf key service = false) (now : Time) :
    sliceAt (StoreCall.table t ⟨none, now, .snapshot (i.snapshot newest)⟩) key service =
      sliceAt t key service := by
  by_cases hkey : i.correlationKey = key
  · have hservice : i.service ≠ service := by
      intro hsame
      rw [isOf_iff.mpr ⟨hkey, hsame⟩] at h
      cases h
    subst hkey
    rw [sliceAt, row_snapshot_own, Option.elim_some, sliceAt]
    cases hrow : t.row? i.correlationKey with
    | none =>
      rw [upsertRow, Option.elim_none]
      exact Function.update_of_ne (Ne.symm hservice) _ _
    | some r =>
      rw [Option.elim_some]
      cases hskip : skips (i.snapshot newest) r.item with
      | true => rw [upsertRow_skipped hskip]
      | false =>
        obtain ⟨item, hitem, hwritten⟩ := @upsertRow_written _ (some r)
          (fun q hq ↦ by rw [← Option.some.inj hq, hskip]) now
        rw [hwritten, hitem r rfl]
        exact Function.update_of_ne (Ne.symm hservice) _ _
  · rw [sliceAt, row_snapshot_other t now newest hkey, sliceAt]

/-- An item of the slice is skipped where it is re-reported, and else writes its facts. -/
theorem sliceAt_snapshot_own (h : i.isOf key service = true)
    (hheld : HeldBy i.taskId (sliceAt t key service)) (newest : List String) (now : Time) :
    (Rereported t i →
      sliceAt (StoreCall.table t ⟨none, now, .snapshot (i.snapshot newest)⟩) key service =
        sliceAt t key service) ∧
      (¬ Rereported t i →
        sliceAt (StoreCall.table t ⟨none, now, .snapshot (i.snapshot newest)⟩) key service =
          carryForward (sliceAt t key service) i.toState) := by
  obtain ⟨rfl, rfl⟩ := isOf_iff.mp h
  -- the guard for finished tasks keeps no task out of its own slice
  have hskips : ∀ r, t.row? i.correlationKey = some r →
      (skips (i.snapshot newest) r.item = true ↔ Reads i r) := by
    intro r hrow
    rw [sliceAt, hrow, Option.elim_some] at hheld
    have hfree : barred i newest r = false := by
      rw [barred, superseded]
      rcases hheld with hidle | htask
      · rw [hidle, isDone_none]
        simp
      · have hid : (carryForward (r.item.slice i.service) i.toState).taskId = some i.taskId := rfl
        rw [htask, hid]
        simp
    rw [skips_iff_reads, hfree]
    simp
  constructor
  · rintro ⟨r, hrow, hreads⟩
    rw [sliceAt, row_snapshot_own, hrow, upsertRow_skipped ((hskips r hrow).mpr hreads), sliceAt,
      hrow]
  · intro hfresh
    have hwrites : ∀ r, t.row? i.correlationKey = some r →
        skips (i.snapshot newest) r.item = false := by
      intro r hrow
      by_contra hskip
      exact hfresh ⟨r, hrow, (hskips r hrow).mp (Bool.of_not_eq_false hskip)⟩
    rw [sliceAt, row_snapshot_own, Option.elim_some, sliceAt]
    cases hrow : t.row? i.correlationKey with
    | none => exact Function.update_self _ _ _
    | some r =>
      obtain ⟨item, hitem, hwritten⟩ := @upsertRow_written _ (some r)
        (fun q hq ↦ by rw [← Option.some.inj hq, hwrites r hrow]) now
      rw [hwritten, hitem r rfl]
      exact Function.update_self _ _ _

/-- A task's own items leave its slice to it. -/
theorem heldBy_snapshot (htask : i.isOf key service = true → i.taskId = task)
    (hheld : HeldBy task (sliceAt t key service)) (now : Time) :
    HeldBy task
      (sliceAt (StoreCall.table t ⟨none, now, .snapshot (i.snapshot newest)⟩) key service) := by
  cases hof : i.isOf key service with
  | false => rwa [sliceAt_snapshot_other hof]
  | true =>
    obtain rfl := htask hof
    have hown := sliceAt_snapshot_own hof hheld newest now
    by_cases hsame : Rereported t i
    · rwa [hown.1 hsame]
    · rw [hown.2 hsame]
      exact .inr rfl

/-- After an item of the slice the slice reflects what was polled exactly where the item reaches
it. -/
theorem reflects_snapshot_iff (h : i.isOf key service = true)
    (hheld : HeldBy i.taskId (sliceAt p.table key service)) (newest : List String) (now : Time) :
    Reflects key service
        ⟨StoreCall.table p.table ⟨none, now, .snapshot (i.snapshot newest)⟩, p.seen ++ [i]⟩ ↔
      Reaches key service p i := by
  have hown := sliceAt_snapshot_own h hheld newest now
  rw [Reflects, Reaches]
  dsimp only
  rw [List.getLast?_concat, lastReview_concat]
  by_cases hsame : Rereported p.table i
  · have hfacts := hsame.facts
    rw [(isOf_iff.mp h).1, (isOf_iff.mp h).2] at hfacts
    rw [hown.1 hsame]
    simp [hfacts, hsame]
  · rw [hown.2 hsame]
    have hextra : (carryForward (sliceAt p.table key service) i.toState).extra .review =
        reviewOf i := rfl
    rw [hextra]
    have hfacts : (carryForward (sliceAt p.table key service) i.toState).status = i.status ∧
        (carryForward (sliceAt p.table key service) i.toState).phase = i.phase ∧
        (carryForward (sliceAt p.table key service) i.toState).repo = i.repo := ⟨rfl, rfl, rfl⟩
    simp only [Option.mem_some_iff, forall_eq', hfacts, and_self, true_and, hsame,
      IsEmpty.forall_iff, not_false_eq_true, forall_const]
    cases reviewOf i with
    | none => simp [eq_comm]
    | some b => simp

/-! ### One call -/

/-- Hydrating tasks is hydrating the first ones and then the others. -/
theorem hydrate_append (newest : List String) (xs ys : List AdapterItem) (n : Nat)
    (t : WorkItemTable) :
    hydrate env newest (xs ++ ys) n t =
      hydrate env newest ys (n + xs.length) (hydrate env newest xs n t) := by
  induction xs generalizing n t with
  | nil => rfl
  | cons x rest ih =>
    rw [List.cons_append, hydrate, ih, hydrate, List.length_cons, Nat.add_right_comm, Nat.add_assoc]

/-- Items of other slices leave the slice alone. -/
theorem sliceAt_hydrate_other {xs : List AdapterItem} (h : ∀ i ∈ xs, i.isOf key service = false)
    (n : Nat) : sliceAt (hydrate env newest xs n t) key service = sliceAt t key service := by
  induction xs generalizing n t with
  | nil => rfl
  | cons x rest ih =>
    rw [hydrate, ih fun i hi ↦ h i (List.mem_cons_of_mem x hi),
      sliceAt_snapshot_other (h x List.mem_cons_self)]

theorem heldBy_hydrate {xs : List AdapterItem}
    (htask : ∀ i ∈ xs, i.isOf key service = true → i.taskId = task)
    (hheld : HeldBy task (sliceAt t key service)) (n : Nat) :
    HeldBy task (sliceAt (hydrate env newest xs n t) key service) := by
  induction xs generalizing n t with
  | nil => exact hheld
  | cons x rest ih =>
    rw [hydrate]
    exact ih (fun i hi ↦ htask i (List.mem_cons_of_mem x hi))
      (heldBy_snapshot (htask x List.mem_cons_self) hheld _) _

/-- A list has no element of a kind, or a last one. -/
theorem none_or_last {α : Type} (q : α → Bool) (xs : List α) :
    (∀ x ∈ xs, q x = false) ∨
      ∃ before x after, xs = before ++ x :: after ∧ q x = true ∧ ∀ y ∈ after, q y = false := by
  induction xs with
  | nil => exact .inl fun x hx ↦ absurd hx List.not_mem_nil
  | cons a rest ih =>
    rcases ih with hnone | ⟨before, x, after, rfl, hx, hafter⟩
    · cases ha : q a with
      | false => exact .inl (List.forall_mem_cons.mpr ⟨ha, hnone⟩)
      | true => exact .inr ⟨[], a, rest, rfl, ha, hnone⟩
    · exact .inr ⟨a :: before, x, after, rfl, hx, hafter⟩

/-- After the last item that a call brings of it, the slice reflects what was polled exactly where
that item reaches it. -/
theorem reflects_last_iff {h : Hydration} {before after : List AdapterItem}
    (heq : h.items = before ++ i :: after) (hi : i.isOf key service = true)
    (hafter : ∀ j ∈ after, j.isOf key service = false)
    (htask : ∀ i ∈ h.items, i.isOf key service = true → i.taskId = task)
    (hheld : HeldBy task (sliceAt p.table key service)) :
    Reflects key service (p.hydrate env key service h) ↔
      Reaches key service (p.hydrate env key service { h with items := before }) i := by
  have hbefore : ∀ j ∈ before, j.isOf key service = true → j.taskId = task :=
    fun j hj ↦ htask j (heq ▸ List.mem_append_left _ hj)
  have hown : i.taskId = task := htask i (heq ▸ List.mem_append_right _ List.mem_cons_self) hi
  subst hown
  have hstate : HeldBy i.taskId
      (sliceAt (hydrate env h.newest before h.ticks p.table) key service) :=
    heldBy_hydrate hbefore hheld h.ticks
  have hnone : after.filter (·.isOf key service) = [] :=
    List.filter_eq_nil_iff.mpr fun j hj ↦ by
      rw [hafter j hj]
      exact Bool.false_ne_true
  rw [← reflects_snapshot_iff hi hstate h.newest (env.now (h.ticks + before.length)),
    Reflects, Reflects, Polled.hydrate, Polled.hydrate]
  dsimp only
  rw [heq, hydrate_append, hydrate, sliceAt_hydrate_other hafter, List.filter_append,
    List.filter_cons_of_pos hi, hnone, List.append_assoc]

/-- After a call the slice reflects what was polled exactly where the last item that the call brings
of it reaches it. -/
theorem reflects_hydrate_iff {h : Hydration} (hreflects : Reflects key service p)
    (htask : ∀ i ∈ h.items, i.isOf key service = true → i.taskId = task)
    (hheld : HeldBy task (sliceAt p.table key service)) :
    Reflects key service (p.hydrate env key service h) ↔ LastReaches env key service p h := by
  constructor
  · intro hnext before i after heq hi hafter
    exact (reflects_last_iff heq hi hafter htask hheld).mp hnext
  · intro hlast
    rcases none_or_last (·.isOf key service) h.items with
      hnone | ⟨before, i, after, heq, hi, hafter⟩
    · have hseen : h.items.filter (·.isOf key service) = [] :=
        List.filter_eq_nil_iff.mpr fun i hi ↦ by
          rw [hnone i hi]
          exact Bool.false_ne_true
      rw [Reflects, Polled.hydrate]
      dsimp only
      rw [hseen, List.append_nil, sliceAt_hydrate_other hnone]
      exact hreflects
    · exact (reflects_last_iff heq hi hafter htask hheld).mpr (hlast before i after heq hi hafter)

/-! ### Whole runs -/

/-- In every run of hydrate calls that bring items of one task for a slice which is empty at the
start, the slice reflects what was polled after each call exactly where the last item that each call
brings of it reaches it. -/
theorem reflects_throughout_iff (env : PollEnv) (key : String) (service : Service) (task : String)
    (t : WorkItemTable)
    (hstart : sliceAt t key service = .column ∨ sliceAt t key service = .blank)
    (calls : List Hydration)
    (htask : ∀ h ∈ calls, ∀ i ∈ h.items, i.isOf key service = true → i.taskId = task) :
    Throughout (Polled.hydrate env key service) (Reflects key service) ⟨t, []⟩ calls ↔
      EachStep (Polled.hydrate env key service) (LastReaches env key service) ⟨t, []⟩ calls := by
  have hone : EachStep (Polled.hydrate env key service)
      (fun _ h ↦ ∀ i ∈ h.items, i.isOf key service = true → i.taskId = task) ⟨t, []⟩ calls :=
    eachStep_of_mem fun h hh _ ↦ htask h hh
  have hidle : HeldBy task (sliceAt t key service) := by
    rcases hstart with hempty | hempty
    · rw [hempty]
      exact .inl rfl
    · rw [hempty]
      exact .inl rfl
  have hnothing : Reflects key service ⟨t, []⟩ := by
    refine ⟨fun i hi ↦ absurd hi (by simp), ?_⟩
    rcases hstart with hempty | hempty
    · rw [hempty]
      rfl
    · rw [hempty]
      rfl
  have hheld : Throughout (Polled.hydrate env key service)
      (fun p ↦ HeldBy task (sliceAt p.table key service)) ⟨t, []⟩ calls :=
    throughout_of_step (fun p h hp hof ↦ heldBy_hydrate hof hp h.ticks) hidle hone
  rw [← throughout_iff_eachStep (P := fun p ↦ Reflects key service p ∧
    HeldBy task (sliceAt p.table key service)) (C := LastReaches env key service) _ hone
    ⟨hnothing, hidle⟩]
  · rw [throughout_and_iff]
    exact ⟨fun h ↦ ⟨h, hheld⟩, fun h ↦ h.1⟩
  · intro p h hof hp
    rw [← reflects_hydrate_iff hp.1 hof hp.2]
    exact and_iff_left (heldBy_hydrate hof hp.2 h.ticks)

/-- A plan as it is queued, and as it waits for its review. -/
def queuedPlan : AdapterItem :=
  { correlationKey := "42", service := .pfactory, taskId := "pf-1", status := some "queued" }

def waitingPlan : AdapterItem := { queuedPlan with status := some "review" }

/-- The plan once a lens has blocked it. -/
def blockedPlan : AdapterItem := { waitingPlan with review := some [("verdict", "blocked")] }

/-- A poll of one item. -/
def pollOf (i : AdapterItem) : Hydration := { items := [i] }

/-- The last item of a poll of one item is that item. -/
theorem lastReaches_pollOf {j : AdapterItem} (h : Reaches key service p j) :
    LastReaches env key service p (pollOf j) := by
  intro before i after heq hi hafter
  cases before with
  | nil =>
    obtain ⟨rfl, rfl⟩ := List.cons.inj heq
    simpa [Polled.hydrate, hydrate] using h
  | cons x before =>
    have hlen := congrArg List.length heq
    simp [pollOf] at hlen

/-- A verdict that comes with a new status reaches the row. -/
theorem verdict_reaches :
    Throughout (Polled.hydrate juneEnv "42" .pfactory) (Reflects "42" .pfactory) ⟨.empty, []⟩
      [pollOf queuedPlan, pollOf blockedPlan] := by
  apply (reflects_throughout_iff juneEnv "42" .pfactory "pf-1" .empty (.inl rfl) _ _).mpr
  · have hqueued : (sliceAt (Polled.hydrate juneEnv "42" .pfactory ⟨.empty, []⟩
        (pollOf queuedPlan)).table "42" .pfactory).status ≠ blockedPlan.status := by
      decide +kernel
    refine ⟨lastReaches_pollOf ⟨?_, fun _ _ ↦ rfl⟩, lastReaches_pollOf ⟨?_, fun _ _ ↦ rfl⟩, trivial⟩
    · rintro ⟨r, hrow, -⟩
      cases hrow
    · exact fun hsame ↦ absurd hsame.facts.1 hqueued
  · intro h hh i hi _
    simp only [List.mem_cons, List.not_mem_nil, or_false] at hh
    rcases hh with rfl | rfl
    · rw [List.mem_singleton.mp hi]
      rfl
    · rw [List.mem_singleton.mp hi]
      rfl

/-- One that comes while the status stays the same does not. -/
theorem verdict_dropped :
    ¬ Throughout (Polled.hydrate juneEnv "42" .pfactory) (Reflects "42" .pfactory) ⟨.empty, []⟩
      [pollOf waitingPlan, pollOf blockedPlan] := by
  intro h
  have hlast := h.last.2
  revert hlast
  decide +kernel

end CFactory.Progress
