import CFactory.Store.Calls
import Mathlib.Algebra.Order.Field.Rat

/-!
# The stall clock

`store.py:40–112,541–605,633–673`. `updated_at` is the clock of a row. A poll that re-reports what
the row shows leaves it alone, so that a stage that hangs grows old; liveness calls a stage stalled
that is past its deadline, and pruning removes a dead one that is past its age.
-/

namespace CFactory.Store

open CFactory.Base CFactory.Model CFactory.Status

/-! ## Liveness -/

/-- `_PIPELINE_ORDER`; `store.py:40`. -/
def PIPELINE_ORDER : List Service := [.pfactory, .aifactory, .tfactory]

/-- `Liveness`; `models.py:347–360`. -/
structure Liveness where
  lastActivityAgeSeconds : Rat
  activeService : Option Service
  activeStatus : Option String
  stalled : Bool
  deadlineSeconds : Rat

/-- The time since the last activity, in seconds; `store.py:96`. -/
def ageSeconds (item : WorkItem) (now : Time) : Rat :=
  ((now - item.updatedAt : Int) : Rat) / 1000000

/-- The last service with a status, and that status; `store.py:98–102`. -/
def lastStage (item : WorkItem) : Option (Service × String) :=
  PIPELINE_ORDER.foldl
    (fun last svc ↦
      if truthy (item.slice svc).status then (item.slice svc).status.map fun s ↦ (svc, s) else last)
    none

/-- `compute_liveness`; `store.py:76–112`. -/
def computeLiveness (item : WorkItem) (now : Time) (deadline : Rat) : Liveness :=
  let age := ageSeconds item now
  let active := (lastStage item).filter fun stage ↦ !isTerminal (some stage.2)
  { lastActivityAgeSeconds := roundTo age 1
    activeService := active.map Prod.fst
    activeStatus := active.map Prod.snd
    stalled := active.isSome && decide (deadline < age)
    deadlineSeconds := deadline }

/-! ## The foremost stage -/

/-- The service is the furthest one that has a status, and this is its status. -/
def Foremost (item : WorkItem) (svc : Service) (status : String) : Prop :=
  (item.slice svc).status = some status ∧ status ≠ "" ∧
    ∀ later, PIPELINE_ORDER.idxOf svc < PIPELINE_ORDER.idxOf later →
      truthy (item.slice later).status = false

section
variable {item : WorkItem} {svc : Service} {status : String}

theorem truthy_some_iff {s : Option String} :
    truthy s = true ↔ ∃ status, s = some status ∧ status ≠ "" := by
  cases s with
  | none => simp [truthy]
  | some s => simp [truthy]

/-- Where a service has a status and no later one does, it alone is foremost. -/
theorem foremost_iff_of_last {last : Service} (h : truthy (item.slice last).status = true)
    (hlater : ∀ later, PIPELINE_ORDER.idxOf last < PIPELINE_ORDER.idxOf later →
      truthy (item.slice later).status = false) :
    Foremost item svc status ↔ svc = last ∧ (item.slice last).status = some status := by
  have hinj : ∀ a b : Service, PIPELINE_ORDER.idxOf a = PIPELINE_ORDER.idxOf b → a = b := by decide
  constructor
  · rintro ⟨hstatus, hne, hafter⟩
    have htruthy : truthy (item.slice svc).status = true := truthy_some_iff.mpr ⟨_, hstatus, hne⟩
    rcases Nat.lt_trichotomy (PIPELINE_ORDER.idxOf svc) (PIPELINE_ORDER.idxOf last) with
      hlt | heq | hgt
    · rw [hafter last hlt] at h
      cases h
    · obtain rfl := hinj svc last heq
      exact ⟨rfl, hstatus⟩
    · rw [hlater svc hgt] at htruthy
      cases htruthy
  · rintro ⟨rfl, hstatus⟩
    refine ⟨hstatus, ?_, hlater⟩
    rintro rfl
    rw [hstatus] at h
    cases h

/-- The pass through the pipeline and the one from its end agree: both find the last service with a
status, or there is none. -/
theorem last_cases (item : WorkItem) :
    (∃ last, truthy (item.slice last).status = true ∧
      (∀ later, PIPELINE_ORDER.idxOf last < PIPELINE_ORDER.idxOf later →
        truthy (item.slice later).status = false) ∧
      lastStage item = (item.slice last).status.map (fun s ↦ (last, s)) ∧
      frontier item = some (item.slice last)) ∨
    ((∀ svc, truthy (item.slice svc).status = false) ∧ lastStage item = none ∧
      frontier item = none) := by
  rw [lastStage, frontier]
  simp only [PIPELINE_ORDER, List.foldl_cons, List.foldl_nil, List.map_cons, List.map_nil,
    List.find?_cons, List.find?_nil]
  cases htest : truthy (item.slice .tfactory).status with
  | true =>
    refine .inl ⟨.tfactory, htest, fun later hlater ↦ ?_, rfl, rfl⟩
    cases later with
    | pfactory => exact absurd hlater (by decide)
    | aifactory => exact absurd hlater (by decide)
    | tfactory => exact absurd hlater (by decide)
  | false =>
    cases hcode : truthy (item.slice .aifactory).status with
    | true =>
      refine .inl ⟨.aifactory, hcode, fun later hlater ↦ ?_, rfl, rfl⟩
      cases later with
      | pfactory => exact absurd hlater (by decide)
      | aifactory => exact absurd hlater (by decide)
      | tfactory => exact htest
    | false =>
      cases hplan : truthy (item.slice .pfactory).status with
      | true =>
        refine .inl ⟨.pfactory, hplan, fun later hlater ↦ ?_, rfl, rfl⟩
        cases later with
        | pfactory => exact absurd hlater (by decide)
        | aifactory => exact hcode
        | tfactory => exact htest
      | false =>
        refine .inr ⟨fun svc ↦ ?_, rfl, rfl⟩
        cases svc with
        | pfactory => exact hplan
        | aifactory => exact hcode
        | tfactory => exact htest

theorem not_foremost (h : ∀ svc, truthy (item.slice svc).status = false) :
    ¬ Foremost item svc status := by
  rintro ⟨hstatus, hne, -⟩
  have hfalse := h svc
  rw [truthy_some_iff.mpr ⟨status, hstatus, hne⟩] at hfalse
  cases hfalse

/-- The pass through the pipeline ends on the foremost stage. -/
theorem lastStage_eq_some_iff : lastStage item = some (svc, status) ↔ Foremost item svc status := by
  rcases last_cases item with ⟨last, htruthy, hlater, hlast, -⟩ | ⟨hnone, hlast, -⟩
  · rw [hlast, foremost_iff_of_last htruthy hlater, Option.map_eq_some_iff]
    constructor
    · rintro ⟨s, hs, heq⟩
      cases heq
      exact ⟨rfl, hs⟩
    · rintro ⟨rfl, hs⟩
      exact ⟨status, hs, rfl⟩
  · rw [hlast]
    exact iff_of_false (by simp) (not_foremost hnone)

/-- The pass from the end of the pipeline finds the foremost stage. -/
theorem frontier_eq_some_iff {s : ServiceState} :
    frontier item = some s ↔ ∃ svc status, Foremost item svc status ∧ item.slice svc = s := by
  rcases last_cases item with ⟨last, htruthy, hlater, -, hfrontier⟩ | ⟨hnone, -, hfrontier⟩
  · simp only [hfrontier, foremost_iff_of_last htruthy hlater]
    constructor
    · intro heq
      obtain ⟨status, hstatus, -⟩ := truthy_some_iff.mp htruthy
      exact ⟨last, status, ⟨rfl, hstatus⟩, Option.some.inj heq⟩
    · rintro ⟨svc, status, ⟨rfl, -⟩, rfl⟩
      rfl
  · rw [hfrontier]
    refine iff_of_false (by simp) ?_
    rintro ⟨svc, status, h, -⟩
    exact not_foremost hnone h

/-- A stage is reported as stalled exactly where the foremost one is still under way and the clock
has stood for longer than the deadline. -/
theorem stalled_iff (item : WorkItem) (now : Time) (deadline : Rat) :
    (computeLiveness item now deadline).stalled = true ↔
      ∃ svc status, Foremost item svc status ∧ isTerminal (some status) = false ∧
        deadline < ageSeconds item now := by
  simp only [computeLiveness, Bool.and_eq_true, decide_eq_true_eq, Option.isSome_iff_exists,
    Option.filter_eq_some_iff, Bool.not_eq_true']
  constructor
  · rintro ⟨⟨⟨svc, status⟩, hstage, hactive⟩, hage⟩
    exact ⟨svc, status, lastStage_eq_some_iff.mp hstage, hactive, hage⟩
  · rintro ⟨svc, status, hforemost, hactive, hage⟩
    exact ⟨⟨(svc, status), lastStage_eq_some_iff.mpr hforemost, hactive⟩, hage⟩

end

/-! ## Pruning -/

/-- The row is in scope, its foremost stage is dead, and its clock has stood for longer than the
limit. -/
def DeadAndOld (scope : Option String) (now maxAge : Time) (r : WorkItemRow) : Prop :=
  inScope scope r = true ∧ (∃ svc status, Foremost r.item svc status ∧ isDeadStage (some status)) ∧
    maxAge < now - r.item.updatedAt

theorem pruneDeadAction_eq (scope : Option String) (now maxAge : Time) (r : WorkItemRow) :
    (DeadAndOld scope now maxAge r → pruneDeadAction scope now maxAge r = .delete) ∧
      (¬ DeadAndOld scope now maxAge r → pruneDeadAction scope now maxAge r = .keep) := by
  rw [pruneDeadAction]
  cases hfrontier : frontier r.item with
  | none =>
    refine ⟨?_, fun _ ↦ rfl⟩
    rintro ⟨-, ⟨svc, status, hforemost, -⟩, -⟩
    rw [frontier_eq_some_iff.mpr ⟨svc, status, hforemost, rfl⟩] at hfrontier
    cases hfrontier
  | some data =>
    obtain ⟨svc, status, hforemost, rfl⟩ := frontier_eq_some_iff.mp hfrontier
    have hdead : DeadAndOld scope now maxAge r ↔
        inScope scope r = true ∧ isDeadStage (r.item.slice svc).status = true ∧
          now - r.item.updatedAt > maxAge := by
      refine and_congr_right fun _ ↦ and_congr_left fun _ ↦ ?_
      constructor
      · rintro ⟨svc', status', hforemost', hdead⟩
        have hsame := (lastStage_eq_some_iff.mpr hforemost).symm.trans
          (lastStage_eq_some_iff.mpr hforemost')
        cases hsame
        rwa [hforemost.1]
      · intro hdead
        rw [hforemost.1] at hdead
        exact ⟨svc, status, hforemost, hdead⟩
    constructor
    · intro h
      exact if_pos (hdead.mp h)
    · intro h
      exact if_neg fun hboth ↦ h (hdead.mpr hboth)

/-- `prune_dead` deletes the dead and old rows in scope, and leaves every other row as it is. -/
theorem mem_pruneDead_iff (t : WorkItemTable) (scope : Option String) (now maxAge : Time)
    (r : WorkItemRow) :
    r ∈ (pruneDead t scope now maxAge).rows ↔ r ∈ t.rows ∧ ¬ DeadAndOld scope now maxAge r := by
  rw [pruneDead, WorkItemTable.act, List.mem_filterMap]
  constructor
  · rintro ⟨q, hq, hrun⟩
    obtain ⟨hdelete, hkeep⟩ := pruneDeadAction_eq scope now maxAge q
    by_cases hdead : DeadAndOld scope now maxAge q
    · rw [hdelete hdead] at hrun
      cases hrun
    · rw [hkeep hdead] at hrun
      cases hrun
      exact ⟨hq, hdead⟩
  · rintro ⟨hr, hdead⟩
    refine ⟨r, hr, ?_⟩
    rw [(pruneDeadAction_eq scope now maxAge r).2 hdead]
    rfl

/-! ## Polls -/

/-- What changed of a row: the status, the phase or the usage of a slice, or a title where there was
none. -/
def Changed (service : Service) (before after : WorkItem) : Prop :=
  (after.slice service).status ≠ (before.slice service).status ∨
    (after.slice service).phase ≠ (before.slice service).phase ∨
    sameUsage (before.slice service).usage (after.slice service).usage = false ∨
    (truthy before.title = false ∧ truthy after.title = true)

/-- A snapshot that is written changes the row. -/
theorem changed_of_written {snap : Snapshot} {item : WorkItem} (h : skips snap item = false)
    (now : Time) : Changed snap.service item ((snapshotChanges snap item now).apply item) := by
  have hslice : ((snapshotChanges snap item now).apply item).slice snap.service = snap.slice item :=
    Function.update_self _ _ _
  rw [Changed, hslice]
  have hunchanged : unchanged (item.slice snap.service) (snap.slice item) (titleNeeded snap item) =
      false := by
    rw [skips, Bool.or_eq_false_iff] at h
    exact h.1
  cases htitle : titleNeeded snap item with
  | true =>
    have hboth : truthy snap.title = true ∧ truthy item.title = false := by
      simpa [titleNeeded] using htitle
    refine .inr (.inr (.inr ⟨hboth.2, ?_⟩))
    obtain ⟨title, htext, hne⟩ := truthy_some_iff.mp hboth.1
    rw [snapshotChanges, RowChanges.apply]
    dsimp only
    rw [if_pos htitle, htext]
    exact truthy_some_iff.mpr ⟨title, rfl, hne⟩
  | false =>
    rw [htitle] at hunchanged
    simp only [unchanged, Bool.not_false, Bool.true_and, Bool.and_eq_false_iff,
      beq_eq_false_iff_ne] at hunchanged
    rcases hunchanged with (hstatus | hphase) | husage
    · exact .inl (Ne.symm hstatus)
    · exact .inr (.inl (Ne.symm hphase))
    · exact .inr (.inr (.inl husage))

/-- A poll moves no clock without a change. -/
def PollKeepsClock (t : WorkItemTable) (call : StoreCall) : Prop :=
  ∀ snap, call.writer = .snapshot snap → ∀ key r, t.row? key = some r →
    ∃ q, (call.table t).row? key = some q ∧
      (q.item.updatedAt ≠ r.item.updatedAt →
        key = snap.correlationKey ∧ Changed snap.service r.item q.item)

theorem pollKeepsClock (t : WorkItemTable) (call : StoreCall) : PollKeepsClock t call := by
  intro snap hcall key r hrow
  have hnext := row_table t call key
  rw [StoreCall.onRow, hcall, hrow] at hnext
  dsimp only at hnext
  by_cases hkey : key = snap.correlationKey
  · rw [if_pos hkey] at hnext
    refine ⟨_, hnext, fun hmoved ↦ ⟨hkey, ?_⟩⟩
    rw [upsertRow] at hmoved ⊢
    by_cases hscope : inScope call.scope r = true
    · rw [if_pos hscope] at hmoved ⊢
      rw [reviseBySnapshot] at hmoved ⊢
      cases hskip : skips snap r.item with
      | true =>
        rw [hskip, if_pos rfl] at hmoved
        exact absurd rfl hmoved
      | false =>
        rw [if_neg Bool.false_ne_true]
        exact changed_of_written hskip call.now
    · rw [if_neg hscope] at hmoved
      exact absurd rfl hmoved
  · rw [if_neg hkey] at hnext
    exact ⟨r, hnext, fun hmoved ↦ absurd rfl hmoved⟩

/-! ## Whole runs -/

/-- A call keeps the promises of the clock: a poll moves none without a change, and pruning deletes
what is dead and old and leaves every other row as it is. -/
structure KeepsClock (t : WorkItemTable) (call : StoreCall) : Prop where
  poll : PollKeepsClock t call
  prune : ∀ maxAge, call.writer = .pruneDead maxAge → ∀ r,
    r ∈ (call.table t).rows ↔ r ∈ t.rows ∧ ¬ DeadAndOld call.scope call.now maxAge r

/-- Liveness reports the rows as stalled whose foremost stage is under way and past the deadline. -/
def LivenessSound (t : WorkItemTable) : Prop :=
  ∀ r ∈ t.rows, ∀ (now : Time) (deadline : Rat),
    (computeLiveness r.item now deadline).stalled = true ↔
      ∃ svc status, Foremost r.item svc status ∧ isTerminal (some status) = false ∧
        deadline < ageSeconds r.item now

/-- In every run each call keeps the promises of the clock, and liveness is sound in every state. -/
theorem stall_clock_sound (t : WorkItemTable) (calls : List StoreCall) :
    EachStep StoreCall.table KeepsClock t calls ∧
      Throughout StoreCall.table LivenessSound t calls := by
  constructor
  · apply eachStep_of_all
    intro t call
    refine ⟨pollKeepsClock t call, fun maxAge hcall r ↦ ?_⟩
    rw [StoreCall.table, hcall]
    exact mem_pruneDead_iff t call.scope call.now maxAge r
  · have hsound : ∀ t, LivenessSound t :=
      fun t r _ now deadline ↦ stalled_iff r.item now deadline
    exact throughout_of_step (C := fun _ _ ↦ True) (fun _ _ _ _ ↦ hsound _) (hsound t)
      (eachStep_of_all fun _ _ ↦ trivial)

/-- A row is still as it was in the status, the phase and the usage of its slices, and in title. -/
def Unmoved (before after : WorkItem) : Prop :=
  (∀ service, (after.slice service).status = (before.slice service).status ∧
    (after.slice service).phase = (before.slice service).phase ∧
    (after.slice service).usage = (before.slice service).usage) ∧
    after.title = before.title

/-- While polls leave the row under a key as it was, its clock stands. -/
theorem clock_stands {key : String} {before : WorkItem} {calls : List StoreCall} {t : WorkItemTable}
    {r : WorkItemRow} (hrow : t.row? key = some r)
    (hpolls : ∀ call ∈ calls, ∃ snap, call.writer = .snapshot snap)
    (hunmoved : Throughout StoreCall.table
      (fun t ↦ ∀ q, t.row? key = some q → Unmoved before q.item) t calls) :
    ∃ q, (serve t calls).row? key = some q ∧ q.item.updatedAt = r.item.updatedAt := by
  induction calls generalizing t r with
  | nil => exact ⟨r, hrow, rfl⟩
  | cons call rest ih =>
    obtain ⟨snap, hcall⟩ := hpolls call List.mem_cons_self
    obtain ⟨q, hq, hmoved⟩ := pollKeepsClock t call snap hcall key r hrow
    obtain ⟨hold, htitle⟩ := hunmoved.1 r hrow
    obtain ⟨hnew, htitle'⟩ := hunmoved.2.start q hq
    have hclock : q.item.updatedAt = r.item.updatedAt := by
      by_contra hne
      obtain ⟨hstatus, hphase, husage⟩ := hold snap.service
      obtain ⟨hstatus', hphase', husage'⟩ := hnew snap.service
      rcases (hmoved hne).2 with hchange | hchange | hchange | ⟨hnone, hsome⟩
      · exact hchange (hstatus'.trans hstatus.symm)
      · exact hchange (hphase'.trans hphase.symm)
      · rw [husage', husage, sameUsage_self] at hchange
        cases hchange
      · rw [htitle', ← htitle, hnone] at hsome
        cases hsome
    obtain ⟨last, hlast, hstands⟩ :=
      ih hq (fun c hc ↦ hpolls c (List.mem_cons_of_mem call hc)) hunmoved.2
    exact ⟨last, hlast, hstands.trans hclock⟩

end CFactory.Store
