import CFactory.Access.Gate
import CFactory.Intake.ActionChain
import CFactory.Relay.Message
import CFactory.Store.StallClock

/-!
# Proposed actions

`actions.py:31–366` and `routes_actions.py:26–50`. The cockpit only describes the writes that an
action would make; sending them is a request of its own. A description is built for the stage
that holds the task, or there is a reason why there is none.
-/

namespace CFactory.Actions

open CFactory.Access
open CFactory.Base
open CFactory.Model
open CFactory.Relay
open CFactory.Status
open CFactory.Store

/-! ## What may be sent -/

/-- `ActionKind`; `actions.py:68–78`. -/
def actionKinds : List String :=
  ["approve_plan", "approve_review", "reject_review", "recover", "delete_task", "dispatch_card"]

/-- `_ALLOWED_METHODS`; `actions.py:31`. -/
def allowedMethods : List String := ["GET", "POST", "PUT", "PATCH", "DELETE"]

/-- `str.upper` for one character, as far as the methods can tell. -/
def upper (c : Char) : List Char :=
  if c = 'ſ' then ['S'] else if c = 'ﬅ' ∨ c = 'ﬆ' then ['S', 'T'] else [c.toUpper]

/-- `v.upper()`. -/
def upperText (s : String) : String := String.ofList (s.toList.flatMap upper)

/-- `_MethodEndpointModel`; `actions.py:81–101`. -/
def ActionStep.validated (s : ActionStep) : Option ActionStep :=
  if isSafeEndpoint s.endpoint ∧ upperText s.method ∈ allowedMethods then
    some { s with method := upperText s.method }
  else none

/-- The body of an execute request, once it is validated; `actions.py:104–126`. -/
def PreparedAction.validated (a : PreparedAction) : Option PreparedAction := do
  guard (a.kind ∈ actionKinds)
  let first ← ActionStep.validated ⟨a.method, a.endpoint⟩
  let followUps ← a.followUps.mapM ActionStep.validated
  return { a with method := first.method, followUps }

/-! ## Targets -/

/-- The services from the last stage to the first. -/
def downstreamFirst : List Service := [.tfactory, .aifactory, .pfactory]

/-- The stage holds a task. -/
def holdsTask (wi : WorkItem) (svc : Service) : Bool := truthy (wi.slice svc).taskId

/-- The stage holds a task and has not ended. -/
def inFlight (wi : WorkItem) (svc : Service) : Bool :=
  holdsTask wi svc && !isTerminal (wi.slice svc).status

/-- The furthest stage with a property, and its task. -/
def furthest (wi : WorkItem) (p : WorkItem → Service → Bool) : Option (Service × String) :=
  (downstreamFirst.find? (p wi)).map fun svc ↦ (svc, (wi.slice svc).taskId.getD "")

/-- `_review_target`; `actions.py:129–145`. -/
def reviewTarget (wi : WorkItem) : Option (Service × String) := furthest wi inFlight

/-- `_delete_target`; `actions.py:148–166`. -/
def deleteTarget (wi : WorkItem) : Option (Service × String) := furthest wi holdsTask

/-! ## Proposals -/

/-- A prepared action with the payload of its first step; a follow-up's is empty. -/
structure Proposal where
  action : PreparedAction
  payload : Json

/-- `(note or "").strip()`. -/
def noteText (note : Option String) : String :=
  String.ofList (trim isSpace (note.getD "").toList)

/-- A task endpoint of AIFactory and TFactory; `actions.py:51–56`. -/
def taskEndpoint (taskId rest : String) : String := "/api/tasks/" ++ taskId ++ rest

/-- An endpoint of a plan session; `actions.py:62–64`. -/
def sessionEndpoint (sid rest : String) : String := "/api/plan/sessions/" ++ sid ++ rest

section

variable (isprintable : Char → Bool)

/-- `propose_approve_plan`; `actions.py:169–181`. -/
def proposeApprovePlan (key : String) (wi : WorkItem) : Option Proposal :=
  if holdsTask wi .pfactory then
    some
      { action :=
          { kind := "approve_plan", correlationKey := key, targetService := Service.pfactory.value
            method := "POST"
            endpoint := taskEndpoint ((wi.slice .pfactory).taskId.getD "") "/approve-plan"
            rationale := "Approve the plan gate for " ++ reprString isprintable key ++
              " so it can move downstream." }
        payload := .object [("approver", .string "cockpit")] }
  else none

/-- `propose_approve_review`; `actions.py:184–215`. -/
def proposeApproveReview (key : String) (note : Option String) (wi : WorkItem) :
    Option Proposal :=
  (reviewTarget wi).map fun (service, taskId) ↦
    if service = .pfactory then
      { action :=
          { kind := "approve_review", correlationKey := key, targetService := service.value
            method := "POST", endpoint := sessionEndpoint taskId "/approve"
            rationale := "Approve the plan " ++ reprString isprintable key ++
              " so it can move to code." }
        payload :=
          .object [("approver", .string "cockpit"), ("feedback", .string (noteText note))] }
    else
      { action :=
          { kind := "approve_review", correlationKey := key, targetService := service.value
            method := "POST", endpoint := taskEndpoint taskId "/worktree/create-pr"
            followUps := [⟨"POST", taskEndpoint taskId "/worktree/merge"⟩]
            rationale := "Approve " ++ reprString isprintable key ++
              ": open the pull request for the work, then merge it. " ++
              "This writes to the repository." }
        payload := .object [] }

/-- The reason of a rejection. -/
def reasonText (note : Option String) : String :=
  if noteText note = "" then "Rejected from the cockpit." else noteText note

/-- `propose_reject_review`; `actions.py:218–260`. -/
def proposeRejectReview (key : String) (note : Option String) (wi : WorkItem) : Option Proposal :=
  (reviewTarget wi).map fun (service, taskId) ↦
    let reason := reasonText note
    if service = .pfactory then
      { action :=
          { kind := "reject_review", correlationKey := key, targetService := service.value
            method := "POST", endpoint := sessionEndpoint taskId "/reject"
            rationale := "Reject the plan " ++ reprString isprintable key ++
              " and send it back: " ++ reason }
        payload := .object [("approver", .string "cockpit"), ("feedback", .string reason)] }
    else
      { action :=
          { kind := "reject_review", correlationKey := key, targetService := service.value
            method := "POST", endpoint := taskEndpoint taskId "/apply-correction"
            rationale := "Reject " ++ reprString isprintable key ++
              " and send it back to the fixer: " ++ reason }
        payload := .object [
          ("fix_request_md", .string ("# Review rejected from the cockpit\n\n" ++ reason ++ "\n")),
          ("source", .string "cockpit"), ("confirm", .bool true), ("correlation_key", .string key),
          ("reason", .string reason),
          ("triage", .object [("source", .string "triage"),
            ("failing_tests", .array [.object [("test_id", .string "cockpit-review"),
              ("reason", .string reason)]]),
            ("correlation_key", .string key)])] }

/-- `propose_recover`; `actions.py:263–290`. -/
def proposeRecover (key : String) (wi : WorkItem) : Option Proposal :=
  (reviewTarget wi).map fun (service, taskId) ↦
    if service = .pfactory then
      { action :=
          { kind := "recover", correlationKey := key, targetService := service.value
            method := "POST", endpoint := sessionEndpoint taskId "/process"
            rationale := "Re-process the plan session " ++ reprString isprintable key ++
              " to unstick it." }
        payload := .object [] }
    else
      { action :=
          { kind := "recover", correlationKey := key, targetService := service.value
            method := "POST", endpoint := taskEndpoint taskId "/recover"
            rationale := "Recover (unstick) the stalled task for " ++
              reprString isprintable key ++ "." }
        payload := .object [("source", .string "cockpit")] }

/-- `propose_delete_task`; `actions.py:293–320`. -/
def proposeDeleteTask (key : String) (wi : WorkItem) : Option Proposal :=
  match deleteTarget wi with
  | none => none
  | some (service, taskId) =>
    if service = .pfactory then none
    else some
      { action :=
          { kind := "delete_task", correlationKey := key, targetService := service.value
            method := "DELETE", endpoint := taskEndpoint taskId ""
            rationale := "Delete the task for " ++ reprString isprintable key ++ " from " ++
              service.value ++ ". This permanently removes it upstream." }
        payload := .object [] }

/-- `PROPOSERS` on the item under the key, or none for the `KeyError` of an unknown kind;
`actions.py:323–341`. -/
def proposer (kind key : String) (note : Option String) :
    Option (WorkItem → Option Proposal) :=
  match kind with
  | "approve_plan" => some (proposeApprovePlan isprintable key)
  | "approve_review" => some (proposeApproveReview isprintable key note)
  | "reject_review" => some (proposeRejectReview isprintable key note)
  | "recover" => some (proposeRecover isprintable key)
  | "delete_task" => some (proposeDeleteTask isprintable key)
  | _ => none

/-- `str(status)` with quotes, or None. -/
def reprStatus (status : Option String) : String :=
  (status.map (reprString isprintable)).getD "None"

/-- `_nothing_to_act_on`; `actions.py:344–366`. -/
def nothingToActOn (kind : String) (wi : WorkItem) : String :=
  let head := "nothing to " ++ kind ++ " for " ++ reprString isprintable wi.correlationKey
  if kind = "approve_plan" then head ++ ": no pfactory plan task"
  else if kind = "delete_task" then
    match deleteTarget wi with
    | some (.pfactory, _) => head ++ ": pfactory plan sessions cannot be removed; use reject"
    | _ => head ++ ": no stage holds a task"
  else
    let stages := ([Service.pfactory, .aifactory, .tfactory].filter (holdsTask wi)).map fun svc ↦
      svc.value ++ " is " ++ reprStatus isprintable (wi.slice svc).status
    if stages = [] then head ++ ": no stage holds a task"
    else head ++ ": " ++ ", ".intercalate stages ++ ", no stage is in flight"

/-- `propose_action`. The board is read once for the proposal, and once more where there is none;
`routes_actions.py:26–50`. -/
def proposeAction (scope : Option String) (before after : WorkItemTable) (kind key : String)
    (note : Option String) : Except Denial Proposal :=
  match proposer isprintable kind key note with
  | none => .error (.http 400 ("unknown action kind: " ++ reprString isprintable kind) false)
  | some build =>
    match (before.getRow scope key).bind (build ·.item) with
    | some p => .ok p
    | none =>
      match after.getRow scope key with
      | none => .error (.http 404 ("no work item for " ++ reprString isprintable key) false)
      | some row => .error (.http 409 (nothingToActOn isprintable kind row.item) false)

end

/-! ## Endpoints -/

/-- A path that begins with a slash and a letter is safe, whatever follows. -/
theorem isSafeEndpoint_of_head {start : String} {more : List Char}
    (h : start.toList = '/' :: 'a' :: more) (name rest : String) :
    isSafeEndpoint (start ++ name ++ rest) = true := by
  simp [isSafeEndpoint, h]

/-- The endpoint is one of this task. -/
def OfTask (taskId endpoint : String) : Prop :=
  ∃ rest, endpoint = taskEndpoint taskId rest ∨ endpoint = sessionEndpoint taskId rest

/-- Whatever a task is called, its endpoints are safe. -/
theorem OfTask.safe {taskId endpoint : String} (h : OfTask taskId endpoint) :
    isSafeEndpoint endpoint = true := by
  have htasks : "/api/tasks/".toList = '/' :: 'a' :: "pi/tasks/".toList := by decide +kernel
  have hplan : "/api/plan/sessions/".toList = '/' :: 'a' :: "pi/plan/sessions/".toList := by
    decide +kernel
  obtain ⟨rest, rfl | rfl⟩ := h
  · exact isSafeEndpoint_of_head htasks taskId rest
  · exact isSafeEndpoint_of_head hplan taskId rest

/-- A step with a method as it is sent and a safe endpoint is validated as it is. -/
theorem validated_step {s : ActionStep} (hmethod : s.method ∈ allowedMethods)
    (hsafe : isSafeEndpoint s.endpoint = true) : s.validated = some s := by
  have hupper : ∀ m ∈ allowedMethods, upperText m = m := by decide +kernel
  rw [ActionStep.validated, hupper _ hmethod, if_pos ⟨hsafe, hmethod⟩]

/-- An action of a known kind whose steps are validated as they are is validated as it is. -/
theorem validated_action {a : PreparedAction} (hkind : a.kind ∈ actionKinds)
    (hsteps : ∀ s ∈ a.steps, s.method ∈ allowedMethods ∧ isSafeEndpoint s.endpoint = true) :
    a.validated = some a := by
  have hfirst : ActionStep.validated ⟨a.method, a.endpoint⟩ = some ⟨a.method, a.endpoint⟩ :=
    validated_step (hsteps _ List.mem_cons_self).1 (hsteps _ List.mem_cons_self).2
  have hrest : a.followUps.mapM ActionStep.validated = some a.followUps := by
    have hall : ∀ s ∈ a.followUps, s.validated = some s := fun s hs ↦
      validated_step (hsteps s (List.mem_cons_of_mem _ hs)).1
        (hsteps s (List.mem_cons_of_mem _ hs)).2
    generalize a.followUps = followUps at hall
    induction followUps with
    | nil => rfl
    | cons s rest ih =>
      rw [List.mapM_cons, hall s List.mem_cons_self,
        ih fun t ht ↦ hall t (List.mem_cons_of_mem s ht)]
      rfl
  simp [PreparedAction.validated, hkind, hfirst, hrest, guard]

/-! ## What is proposed, and why not -/

/-- The action is for a task of a service. -/
structure Built (kind key : String) (svc : Service) (taskId : String) (p : Proposal) : Prop where
  kind : p.action.kind = kind
  key : p.action.correlationKey = key
  target : p.action.targetService = svc.value
  steps : ∀ s ∈ p.action.steps, s.method ∈ allowedMethods ∧ OfTask taskId s.endpoint

private theorem post_allowed : "POST" ∈ allowedMethods := by decide

private theorem delete_allowed : "DELETE" ∈ allowedMethods := by decide

/-- An action of one step. -/
theorem Built.one {kind key taskId : String} {svc : Service} {p : Proposal}
    (hkind : p.action.kind = kind) (hkey : p.action.correlationKey = key)
    (htarget : p.action.targetService = svc.value) (hfollow : p.action.followUps = [])
    (hmethod : p.action.method ∈ allowedMethods) (htask : OfTask taskId p.action.endpoint) :
    Built kind key svc taskId p := by
  refine ⟨hkind, hkey, htarget, fun s hs ↦ ?_⟩
  rw [PreparedAction.steps, hfollow, List.mem_singleton] at hs
  rw [hs]
  exact ⟨hmethod, htask⟩

/-- What is built for a task is executed as it is. -/
theorem Built.validated {kind key taskId : String} {svc : Service} {p : Proposal}
    (h : Built kind key svc taskId p) (hkind : kind ∈ actionKinds) :
    p.action.validated = some p.action :=
  validated_action (h.kind ▸ hkind) fun s hs ↦ ⟨(h.steps s hs).1, (h.steps s hs).2.safe⟩

/-- No later stage has the property. -/
def LastWith (p : Service → Bool) (svc : Service) : Prop :=
  p svc = true ∧ ∀ later, PIPELINE_ORDER.idxOf svc < PIPELINE_ORDER.idxOf later → p later = false

/-- The search from the end finds the last stage with the property, or there is none. -/
theorem furthest_cases (wi : WorkItem) (p : WorkItem → Service → Bool) :
    (∃ svc, furthest wi p = some (svc, (wi.slice svc).taskId.getD "") ∧ LastWith (p wi) svc) ∨
      (furthest wi p = none ∧ ∀ svc, p wi svc = false) := by
  rw [furthest]
  simp only [downstreamFirst, List.find?_cons, List.find?_nil]
  cases htest : p wi .tfactory with
  | true =>
    refine .inl ⟨.tfactory, rfl, htest, fun later hlater ↦ ?_⟩
    cases later <;> exact absurd hlater (by decide)
  | false =>
    cases hcode : p wi .aifactory with
    | true =>
      refine .inl ⟨.aifactory, rfl, hcode, fun later hlater ↦ ?_⟩
      cases later with
      | pfactory => exact absurd hlater (by decide)
      | aifactory => exact absurd hlater (by decide)
      | tfactory => exact htest
    | false =>
      cases hplan : p wi .pfactory with
      | true =>
        refine .inl ⟨.pfactory, rfl, hplan, fun later hlater ↦ ?_⟩
        cases later with
        | pfactory => exact absurd hlater (by decide)
        | aifactory => exact hcode
        | tfactory => exact htest
      | false =>
        refine .inr ⟨rfl, fun svc ↦ ?_⟩
        cases svc with
        | pfactory => exact hplan
        | aifactory => exact hcode
        | tfactory => exact htest

theorem taskId_of_holdsTask {wi : WorkItem} {svc : Service} (h : holdsTask wi svc = true) :
    ∃ taskId, (wi.slice svc).taskId = some taskId ∧ taskId ≠ "" := truthy_some_iff.mp h

theorem holdsTask_of_inFlight {wi : WorkItem} {svc : Service} (h : inFlight wi svc = true) :
    holdsTask wi svc = true := (Bool.and_eq_true_iff.mp h).1

/-- There is something to act on for an action of this kind. -/
def Actionable (kind : String) (wi : WorkItem) : Prop :=
  if kind = "approve_plan" then holdsTask wi .pfactory = true
  else if kind = "delete_task" then ∃ svc, svc ≠ .pfactory ∧ holdsTask wi svc = true
  else ∃ svc, inFlight wi svc = true

/-- The stage an action of this kind is for. -/
def IsTarget (kind : String) (wi : WorkItem) (svc : Service) : Prop :=
  if kind = "approve_plan" then svc = .pfactory ∧ holdsTask wi svc = true
  else if kind = "delete_task" then svc ≠ .pfactory ∧ LastWith (holdsTask wi) svc
  else LastWith (inFlight wi) svc

/-- An action is for the task of its stage. -/
structure Addressed (kind key : String) (wi : WorkItem) (p : Proposal) : Prop where
  stage : ∃ svc taskId, IsTarget kind wi svc ∧ (wi.slice svc).taskId = some taskId ∧ taskId ≠ "" ∧
    Built kind key svc taskId p

/-- A proposer builds an action for its stage exactly where there is something to act on. -/
structure Proposes (kind key : String) (build : WorkItem → Option Proposal) : Prop where
  listed : kind ∈ actionKinds
  some_iff : ∀ wi, (build wi).isSome ↔ Actionable kind wi
  addressed : ∀ wi p, build wi = some p → Addressed kind key wi p

/-- The proposers of a review act on the last stage in flight. -/
theorem proposes_review {kind key : String} (hkind : kind ∈ actionKinds)
    (hplan : kind ≠ "approve_plan") (hdelete : kind ≠ "delete_task")
    {f : Service × String → Proposal}
    (hf : ∀ svc taskId, Built kind key svc taskId (f (svc, taskId))) :
    Proposes kind key fun wi ↦ (reviewTarget wi).map f where
  listed := hkind
  some_iff := fun wi ↦ by
    rw [Option.isSome_map, Actionable, if_neg hplan, if_neg hdelete, reviewTarget]
    rcases furthest_cases wi inFlight with ⟨svc, hsome, hlast⟩ | ⟨hnone, hall⟩
    · rw [hsome]
      exact iff_of_true rfl ⟨svc, hlast.1⟩
    · rw [hnone]
      exact iff_of_false (by simp) fun ⟨svc, hsvc⟩ ↦ by simp [hall svc] at hsvc
  addressed := fun wi p hp ↦ by
    rw [Option.map_eq_some_iff] at hp
    obtain ⟨target, htarget, rfl⟩ := hp
    rw [reviewTarget] at htarget
    rcases furthest_cases wi inFlight with ⟨svc, hsome, hlast⟩ | ⟨hnone, -⟩
    · obtain ⟨taskId, hid, hne⟩ := taskId_of_holdsTask (holdsTask_of_inFlight hlast.1)
      rw [hsome, hid] at htarget
      rw [← Option.some.inj htarget]
      refine ⟨svc, taskId, ?_, hid, hne, hf svc taskId⟩
      rw [IsTarget, if_neg hplan, if_neg hdelete]
      exact hlast
    · rw [hnone] at htarget
      cases htarget

variable (isprintable : Char → Bool) (key : String) (note : Option String)

theorem proposes_approvePlan :
    Proposes "approve_plan" key (proposeApprovePlan isprintable key) where
  listed := by decide
  some_iff := fun wi ↦ by
    rw [proposeApprovePlan, Actionable, if_pos rfl]
    split <;> simp_all
  addressed := fun wi p hp ↦ by
    rw [proposeApprovePlan] at hp
    split at hp
    · next hholds =>
      obtain ⟨taskId, hid, hne⟩ := taskId_of_holdsTask hholds
      refine ⟨.pfactory, taskId, ?_, hid, hne, ?_⟩
      · rw [IsTarget, if_pos rfl]
        exact ⟨rfl, hholds⟩
      · rw [← Option.some.inj hp, hid]
        exact .one rfl rfl rfl rfl post_allowed ⟨"/approve-plan", .inl rfl⟩
    · cases hp

theorem proposes_approveReview :
    Proposes "approve_review" key (proposeApproveReview isprintable key note) := by
  refine proposes_review (by decide) (by decide) (by decide) fun svc taskId ↦ ?_
  by_cases hsvc : svc = .pfactory
  · simp only [if_pos hsvc]
    exact .one rfl rfl rfl rfl post_allowed ⟨"/approve", .inr rfl⟩
  · simp only [if_neg hsvc]
    refine ⟨rfl, rfl, rfl, fun s hs ↦ ?_⟩
    rcases List.mem_cons.mp hs with rfl | hs
    · exact ⟨post_allowed, "/worktree/create-pr", .inl rfl⟩
    · rw [List.mem_singleton.mp hs]
      exact ⟨post_allowed, "/worktree/merge", .inl rfl⟩

theorem proposes_rejectReview :
    Proposes "reject_review" key (proposeRejectReview isprintable key note) := by
  refine proposes_review (by decide) (by decide) (by decide) fun svc taskId ↦ ?_
  by_cases hsvc : svc = .pfactory
  · simp only [if_pos hsvc]
    exact .one rfl rfl rfl rfl post_allowed ⟨"/reject", .inr rfl⟩
  · simp only [if_neg hsvc]
    exact .one rfl rfl rfl rfl post_allowed ⟨"/apply-correction", .inl rfl⟩

theorem proposes_recover : Proposes "recover" key (proposeRecover isprintable key) := by
  refine proposes_review (by decide) (by decide) (by decide) fun svc taskId ↦ ?_
  by_cases hsvc : svc = .pfactory
  · simp only [if_pos hsvc]
    exact .one rfl rfl rfl rfl post_allowed ⟨"/process", .inr rfl⟩
  · simp only [if_neg hsvc]
    exact .one rfl rfl rfl rfl post_allowed ⟨"/recover", .inl rfl⟩

theorem proposes_deleteTask : Proposes "delete_task" key (proposeDeleteTask isprintable key) where
  listed := by decide
  some_iff := fun wi ↦ by
    rw [proposeDeleteTask, Actionable, if_neg (by decide), if_pos rfl, deleteTarget]
    rcases furthest_cases wi holdsTask with ⟨svc, hsome, hlast⟩ | ⟨hnone, hall⟩
    · rw [hsome]
      simp only
      split
      · next hsvc =>
        refine iff_of_false (by simp) fun ⟨other, hne, hholds⟩ ↦ ?_
        rw [hlast.2 other (by cases other <;> simp_all +decide)] at hholds
        cases hholds
      · next hsvc => exact iff_of_true rfl ⟨svc, hsvc, hlast.1⟩
    · rw [hnone]
      exact iff_of_false (by simp) fun ⟨svc, _, hsvc⟩ ↦ by simp [hall svc] at hsvc
  addressed := fun wi p hp ↦ by
    rw [proposeDeleteTask, deleteTarget] at hp
    rcases furthest_cases wi holdsTask with ⟨svc, hsome, hlast⟩ | ⟨hnone, -⟩
    · obtain ⟨taskId, hid, hne⟩ := taskId_of_holdsTask hlast.1
      rw [hsome, hid] at hp
      simp only at hp
      split at hp
      · cases hp
      · next hsvc =>
        refine ⟨svc, taskId, ?_, hid, hne, ?_⟩
        · rw [IsTarget, if_neg (by decide), if_pos rfl]
          exact ⟨hsvc, hlast⟩
        · rw [← Option.some.inj hp]
          exact .one rfl rfl rfl rfl delete_allowed ⟨"", .inl rfl⟩
    · rw [hnone] at hp
      cases hp

/-- Every known kind has a proposer for it. -/
theorem proposes_proposer {kind : String} {build : WorkItem → Option Proposal}
    (h : proposer isprintable kind key note = some build) : Proposes kind key build := by
  unfold proposer at h
  split at h <;> cases h
  · exact proposes_approvePlan isprintable key
  · exact proposes_approveReview isprintable key note
  · exact proposes_rejectReview isprintable key note
  · exact proposes_recover isprintable key
  · exact proposes_deleteTask isprintable key

/-- Why there is nothing to act on. -/
inductive Because (wi : WorkItem) : String → Prop
  | noPlan (h : holdsTask wi .pfactory = false) : Because wi "no pfactory plan task"
  | noTask (h : ∀ svc, holdsTask wi svc = false) : Because wi "no stage holds a task"
  | planOnly (h : LastWith (holdsTask wi) .pfactory) :
    Because wi "pfactory plan sessions cannot be removed; use reject"
  | ended (svcs : List Service) (hne : svcs ≠ [])
    (hall : ∀ svc, svc ∈ svcs ↔ holdsTask wi svc = true)
    (hended : ∀ svc ∈ svcs, isTerminal (wi.slice svc).status = true) :
    Because wi (", ".intercalate (svcs.map fun svc ↦
      svc.value ++ " is " ++ reprStatus isprintable (wi.slice svc).status) ++
        ", no stage is in flight")

/-- The reason that is given is so. -/
theorem because_nothingToActOn {kind : String} {wi : WorkItem} (h : ¬ Actionable kind wi) :
    ∃ reason, nothingToActOn isprintable kind wi =
      "nothing to " ++ kind ++ " for " ++ reprString isprintable wi.correlationKey ++
        (": " ++ reason) ∧ Because isprintable wi reason := by
  rw [Actionable] at h
  simp only [nothingToActOn]
  split
  · next hkind =>
    rw [if_pos hkind] at h
    exact ⟨_, rfl, .noPlan (by simpa using h)⟩
  · next hplan =>
    rw [if_neg hplan] at h
    split
    · next hkind =>
      rw [if_pos hkind] at h
      rw [deleteTarget]
      rcases furthest_cases wi holdsTask with ⟨svc, hsome, hlast⟩ | ⟨hnone, hall⟩
      · have hsvc : svc = .pfactory := by
          by_contra hne
          exact h ⟨svc, hne, hlast.1⟩
        subst hsvc
        rw [hsome]
        exact ⟨_, rfl, .planOnly hlast⟩
      · rw [hnone]
        exact ⟨_, rfl, .noTask hall⟩
    · next hdelete =>
      rw [if_neg hdelete, not_exists] at h
      have hmem : ∀ svc, svc ∈ [Service.pfactory, .aifactory, .tfactory].filter (holdsTask wi) ↔
          holdsTask wi svc = true := by
        intro svc
        rw [List.mem_filter]
        exact and_iff_right (by cases svc <;> simp)
      split
      · next hnil =>
        rw [List.map_eq_nil_iff] at hnil
        refine ⟨_, rfl, .noTask fun svc ↦ ?_⟩
        by_contra hholds
        have := (hmem svc).mpr (by simpa using hholds)
        rw [hnil] at this
        cases this
      · next hne =>
        refine ⟨_, ?_, .ended _ (fun hnil ↦ hne (by rw [hnil]; rfl)) hmem fun svc hsvc ↦ ?_⟩
        · rw [String.append_assoc, String.append_assoc]
        · have hflight := h svc
          rw [inFlight, (hmem svc).mp hsvc] at hflight
          simpa using hflight

/-- The kinds that are proposed; `actions.py:323–330`. -/
def proposable : List String :=
  ["approve_plan", "approve_review", "reject_review", "recover", "delete_task"]

theorem proposer_isSome {kind : String} (hkind : kind ∈ proposable) :
    (proposer isprintable kind key note).isSome = true := by
  simp only [proposable, List.mem_cons, List.not_mem_nil, or_false] at hkind
  rcases hkind with rfl | rfl | rfl | rfl | rfl <;> rfl

/-- Whatever a board holds: an action is proposed exactly where there is something to act on; it is
for the task of the stage that an action of its kind is for, and the execute endpoint accepts it as
it is, whatever the task is called. Where nothing is proposed, the reason that is given is so,
unless the item changed since. -/
theorem proposed_exactly (scope : Option String) (before after : WorkItemTable) (kind : String) :
    (∀ p, proposeAction isprintable scope before after kind key note = .ok p →
      ∃ row, before.getRow scope key = some row ∧ Addressed kind key row.item p ∧
        p.action.validated = some p.action) ∧
    (∀ row, kind ∈ proposable → before.getRow scope key = some row →
      ((∃ p, proposeAction isprintable scope before after kind key note = .ok p) ↔
        Actionable kind row.item)) ∧
    ∀ detail, proposeAction isprintable scope before after kind key note =
        .error (.http 409 detail false) →
      ∃ row, after.getRow scope key = some row ∧ (before.getRow scope key = some row →
        ∃ reason, detail = "nothing to " ++ kind ++ " for " ++
            reprString isprintable row.item.correlationKey ++ (": " ++ reason) ∧
          Because isprintable row.item reason) := by
  cases hbuild : proposer isprintable kind key note with
  | none =>
    have hunknown : proposeAction isprintable scope before after kind key note =
        .error (.http 400 ("unknown action kind: " ++ reprString isprintable kind) false) := by
      rw [proposeAction, hbuild]
    refine ⟨fun p hp ↦ ?_, fun row hkind _ ↦ ?_, fun detail hdetail ↦ ?_⟩
    · rw [hunknown] at hp
      cases hp
    · have hsome := proposer_isSome isprintable key note hkind
      rw [hbuild] at hsome
      cases hsome
    · rw [hunknown] at hdetail
      simp at hdetail
  | some build =>
    have hbuilds := proposes_proposer isprintable key note hbuild
    have haction : proposeAction isprintable scope before after kind key note =
        match (before.getRow scope key).bind (build ·.item) with
        | some p => .ok p
        | none =>
          match after.getRow scope key with
          | none => .error (.http 404 ("no work item for " ++ reprString isprintable key) false)
          | some row => .error (.http 409 (nothingToActOn isprintable kind row.item) false) := by
      rw [proposeAction, hbuild]
    rw [haction]
    cases hfound : (before.getRow scope key).bind (build ·.item) with
    | some p =>
      obtain ⟨row, hrow, hp⟩ := Option.bind_eq_some_iff.mp hfound
      have haddressed := hbuilds.addressed row.item p hp
      refine ⟨fun q hq ↦ ?_, fun row' _ hrow' ↦ ?_, fun detail hdetail ↦ (by cases hdetail)⟩
      · rw [← Except.ok.inj hq]
        obtain ⟨svc, taskId, -, -, -, hbuilt⟩ := haddressed.stage
        exact ⟨row, hrow, haddressed, hbuilt.validated hbuilds.listed⟩
      · rw [hrow] at hrow'
        cases hrow'
        refine iff_of_true ⟨p, rfl⟩ ((hbuilds.some_iff row.item).mp ?_)
        rw [hp]
        rfl
    | none =>
      have hnot : ∀ row, before.getRow scope key = some row → ¬ Actionable kind row.item := by
        intro row hrow hact
        have hsome := (hbuilds.some_iff row.item).mpr hact
        rw [hrow, Option.bind_some] at hfound
        rw [hfound] at hsome
        cases hsome
      cases hafter : after.getRow scope key with
      | none =>
        refine ⟨fun q hq ↦ (by cases hq), fun row _ hrow ↦ ?_, fun detail hdetail ↦ ?_⟩
        · exact iff_of_false (fun ⟨q, hq⟩ ↦ by cases hq) (hnot row hrow)
        · simp at hdetail
      | some now =>
        refine ⟨fun q hq ↦ (by cases hq), fun row _ hrow ↦ ?_, fun detail hdetail ↦ ?_⟩
        · exact iff_of_false (fun ⟨q, hq⟩ ↦ by cases hq) (hnot row hrow)
        · simp only [Except.error.injEq, Denial.http.injEq, true_and, and_true] at hdetail
          rw [← hdetail]
          exact ⟨now, rfl, fun hrow ↦ because_nothingToActOn isprintable (hnot now hrow)⟩

end CFactory.Actions
