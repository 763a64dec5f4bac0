import CFactory.Status.Substring
import CFactory.Store.StallClock
import Mathlib.Data.List.Sort

/-!
# Plan nodes

`task_process.py:67–131`. A node of the plan diagram shows the state of the work item that its child
became. The statuses of the three stages are lowered, pooled, and searched for stems and words, the
failures first; only the dead stages are told by whole tokens.
-/

namespace CFactory.Process

open CFactory.Model CFactory.Status CFactory.Store

/-- `_FAIL_WORDS`; `task_process.py:67`. -/
def FAIL_WORDS : List String := ["fail", "reject", "error", "abort", "cancel", "block", "discard"]

/-- `_ACTIVE_WORDS`; `task_process.py:68–81`. -/
def ACTIVE_WORDS : List String :=
  ["progress", "running", "review", "triag", "generat", "coding", "planning", "executing", "await",
    "building", "queued", "backlog"]

/-- `_DONE_WORDS`; `task_process.py:82–92`. -/
def DONE_WORDS : List String :=
  ["done", "complete", "passed", "merged", "approved", "emitted", "success", "closed", "shipped"]

/-- The statuses of a plan node. -/
inductive ChildStatus where
  | failed
  | stalled
  | completed
  | inProgress
  deriving DecidableEq, Repr

/-- A plan node's status and the times of its clock. -/
structure ChildState where
  status : Option ChildStatus
  startedAt : Option Time
  completedAt : Option Time
  deriving DecidableEq

/-- The lowered statuses of the stages that have one; `task_process.py:102–107`. -/
def childStatuses (wi : WorkItem) : List String :=
  PIPELINE_ORDER.filterMap fun svc ↦
    if truthy (wi.slice svc).status then (wi.slice svc).status.map lowerText else none

/-- The status of the pooled statuses; `task_process.py:109–119`. -/
def pooledStatus (statuses : List String) : Option ChildStatus :=
  if statuses.any (holdsAny FAIL_WORDS) then some .failed
  else if statuses.any fun s ↦ isDeadStage (some s) then some .stalled
  else if statuses.any (holdsAny DONE_WORDS) then some .completed
  else if statuses.any (holdsAny ACTIVE_WORDS) then some .inProgress
  else if statuses ≠ [] then some .inProgress
  else none

/-- `_plan_child_state`; `task_process.py:95–131`. -/
def planChildState (wi : WorkItem) : ChildState :=
  let status := pooledStatus (childStatuses wi)
  let times := (wi.timeline.map CompletionEvent.updatedAt).insertionSort (· ≤ ·)
  { status
    startedAt := times.head?
    completedAt :=
      if status = some .completed ∨ status = some .failed then times.getLast? else none }

/-! ## The node and its child -/

/-- The node is failed exactly where a stage is, and completed only where no stage is failed or dead
and the foremost one is done. -/
structure Truthful (wi : WorkItem) : Prop where
  failed : (planChildState wi).status = some .failed ↔
    ∃ svc, isFailed (wi.slice svc).status = true
  completed : (planChildState wi).status = some .completed →
    (∀ svc, isFailed (wi.slice svc).status = false ∧ isDeadStage (wi.slice svc).status = false) ∧
      ∃ svc status, Foremost wi svc status ∧ isDone (some status) = true

/-- A stage's status holds one of the words. -/
def Mentions (words : List String) (wi : WorkItem) : Prop :=
  ∃ svc, ∃ s ∈ (wi.slice svc).status, holdsAny words (lowerText s) = true

/-- The words that are found stand for what the tokens say: a stem of failure for a failed stage,
and a word of success, where nothing has failed or died, for a foremost stage that is done. -/
structure WordsMeanTokens (wi : WorkItem) : Prop where
  stems : Mentions FAIL_WORDS wi → ∃ svc, isFailed (wi.slice svc).status = true
  words : ¬ Mentions FAIL_WORDS wi → (∀ svc, isDeadStage (wi.slice svc).status = false) →
    Mentions DONE_WORDS wi → ∀ svc status, Foremost wi svc status → isDone (some status) = true

section
variable {wi : WorkItem}

theorem mem_childStatuses {x : String} :
    x ∈ childStatuses wi ↔
      ∃ svc s, (wi.slice svc).status = some s ∧ s ≠ "" ∧ lowerText s = x := by
  have hall : ∀ svc : Service, svc ∈ PIPELINE_ORDER := by decide
  rw [childStatuses, List.mem_filterMap]
  constructor
  · rintro ⟨svc, -, hx⟩
    rw [Option.ite_none_right_eq_some] at hx
    obtain ⟨s, hs, hne⟩ := truthy_some_iff.mp hx.1
    rw [hs] at hx
    exact ⟨svc, s, hs, hne, Option.some.inj hx.2⟩
  · rintro ⟨svc, s, hs, hne, rfl⟩
    refine ⟨svc, hall svc, ?_⟩
    rw [if_pos (truthy_some_iff.mpr ⟨s, hs, hne⟩), hs]
    rfl

/-- No word is in an empty status. -/
theorem any_holdsAny_iff (words : List String) (hempty : holdsAny words "" = false) :
    (childStatuses wi).any (holdsAny words) = true ↔ Mentions words wi := by
  rw [List.any_eq_true]
  constructor
  · rintro ⟨x, hx, hholds⟩
    obtain ⟨svc, s, hs, -, rfl⟩ := mem_childStatuses.mp hx
    exact ⟨svc, s, hs, hholds⟩
  · rintro ⟨svc, s, hs, hholds⟩
    refine ⟨lowerText s, mem_childStatuses.mpr ⟨svc, s, hs, ?_, rfl⟩, hholds⟩
    rintro rfl
    rw [show lowerText "" = "" by decide, hempty] at hholds
    cases hholds

theorem any_dead_iff :
    ((childStatuses wi).any fun s ↦ isDeadStage (some s)) = true ↔
      ∃ svc, isDeadStage (wi.slice svc).status = true := by
  rw [List.any_eq_true]
  constructor
  · rintro ⟨x, hx, hdead⟩
    obtain ⟨svc, s, hs, -, rfl⟩ := mem_childStatuses.mp hx
    rw [isDeadStage_lowerText] at hdead
    exact ⟨svc, by rwa [hs]⟩
  · rintro ⟨svc, hdead⟩
    cases hs : (wi.slice svc).status with
    | none =>
      rw [hs] at hdead
      cases hdead
    | some s =>
      rw [hs] at hdead
      refine ⟨lowerText s, mem_childStatuses.mpr ⟨svc, s, hs, ?_, rfl⟩, ?_⟩
      · rintro rfl
        revert hdead
        decide
      · rwa [isDeadStage_lowerText]

/-- A failed stage's status holds a stem of failure. -/
theorem mentions_of_failed {svc : Service} (h : isFailed (wi.slice svc).status = true) :
    Mentions FAIL_WORDS wi := by
  cases hs : (wi.slice svc).status with
  | none =>
    rw [hs] at h
    cases h
  | some s =>
    rw [hs] at h
    exact ⟨svc, s, hs, holdsAny_of_matches (by decide) h⟩

/-- When the node is failed, and when it is completed. -/
theorem status_iff (wi : WorkItem) :
    ((planChildState wi).status = some .failed ↔ Mentions FAIL_WORDS wi) ∧
      ((planChildState wi).status = some .completed ↔
        ¬ Mentions FAIL_WORDS wi ∧ (∀ svc, isDeadStage (wi.slice svc).status = false) ∧
          Mentions DONE_WORDS wi) := by
  have hdead : (∀ svc, isDeadStage (wi.slice svc).status = false) ↔
      ¬ ((childStatuses wi).any fun s ↦ isDeadStage (some s)) = true := by
    rw [any_dead_iff]
    simp
  rw [← any_holdsAny_iff FAIL_WORDS (by decide), ← any_holdsAny_iff DONE_WORDS (by decide), hdead,
    planChildState]
  dsimp only
  rw [pooledStatus]
  cases (childStatuses wi).any (holdsAny FAIL_WORDS) with
  | true => simp
  | false =>
    cases (childStatuses wi).any fun s ↦ isDeadStage (some s) with
    | true => simp
    | false =>
      cases (childStatuses wi).any (holdsAny DONE_WORDS) with
      | true => simp
      | false =>
        simp only [Bool.false_eq_true, if_false]
        split
        · simp
        · split
          · simp
          · simp

/-- Where a word of success is found, some stage is foremost. -/
theorem exists_foremost {words : List String} (hempty : holdsAny words "" = false)
    (h : Mentions words wi) : ∃ svc status, Foremost wi svc status := by
  obtain ⟨svc, s, hs, hholds⟩ := h
  have hne : s ≠ "" := by
    rintro rfl
    rw [show lowerText "" = "" by decide, hempty] at hholds
    cases hholds
  rcases last_cases wi with ⟨last, htruthy, hlater, -⟩ | ⟨hnone, -⟩
  · obtain ⟨status, hstatus, -⟩ := truthy_some_iff.mp htruthy
    exact ⟨last, status, (foremost_iff_of_last htruthy hlater).mpr ⟨rfl, hstatus⟩⟩
  · have hfalse := hnone svc
    rw [truthy_some_iff.mpr ⟨s, hs, hne⟩] at hfalse
    cases hfalse

end

/-- A plan node tells the truth about its child exactly where the words that are found stand for
what the tokens say. -/
theorem plan_node_truthful_iff (wi : WorkItem) : Truthful wi ↔ WordsMeanTokens wi := by
  obtain ⟨hfailed, hcompleted⟩ := status_iff wi
  constructor
  · intro h
    refine ⟨fun hstem ↦ h.failed.mp (hfailed.mpr hstem), ?_⟩
    intro hstem hdead hdone svc status hforemost
    obtain ⟨-, svc', status', hforemost', hisDone⟩ :=
      h.completed (hcompleted.mpr ⟨hstem, hdead, hdone⟩)
    have hsame := (lastStage_eq_some_iff.mpr hforemost).symm.trans
      (lastStage_eq_some_iff.mpr hforemost')
    cases hsame
    exact hisDone
  · intro h
    refine ⟨?_, fun hstatus ↦ ?_⟩
    · rw [hfailed]
      exact ⟨h.stems, fun ⟨svc, hsvc⟩ ↦ mentions_of_failed hsvc⟩
    · obtain ⟨hstem, hdead, hdone⟩ := hcompleted.mp hstatus
      obtain ⟨svc, status, hforemost⟩ := exists_foremost (by decide) hdone
      refine ⟨fun svc ↦ ⟨?_, hdead svc⟩, svc, status, hforemost,
        h.words hstem hdead hdone svc status hforemost⟩
      rw [← Bool.not_eq_true]
      exact fun hsvc ↦ hstem (mentions_of_failed hsvc)

/-- A child whose plan is approved and whose build is under way. -/
def approvedAndBuilding : WorkItem :=
  { correlationKey := "42"
    slice := fun
      | .pfactory => { status := some "approved" }
      | .aifactory => { status := some "in_progress" }
      | .tfactory => {} }

/-- Its node is completed. -/
theorem building_shown_completed : ¬ Truthful approvedAndBuilding := by
  intro h
  obtain ⟨-, svc, status, hforemost, hdone⟩ := h.completed (by decide +kernel)
  have hlast : lastStage approvedAndBuilding = some (.aifactory, "in_progress") := by decide +kernel
  have hsame := hlast.symm.trans (lastStage_eq_some_iff.mpr hforemost)
  cases hsame
  revert hdone
  decide +kernel

end CFactory.Process
