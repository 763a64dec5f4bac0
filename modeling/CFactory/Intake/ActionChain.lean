import CFactory.Intake.Action

/-!
# What an action is reported as

`actions.py:377–496`. The verdict on a chain of steps over every sequence of answers: which steps
are sent, and when the chain is reported as done.
-/

namespace CFactory.Actions

open CFactory.Base CFactory.Model

/-- A request: the service and the step it is sent. -/
abbrev Sent := Service × ActionStep

/-- The steps of an action in order; `actions.py:450–452`. -/
def PreparedAction.steps (action : PreparedAction) : List ActionStep :=
  ⟨action.method, action.endpoint⟩ :: action.followUps

/-- The requests get the outcomes in turn; the state is what was sent. -/
def answering (outcomes : Nat → HttpOutcome) :
    Handler Sent (fun _ ↦ HttpOutcome) (List Sent) :=
  fun o sent ↦ (outcomes sent.length, sent ++ [o])

/-- Send one step. -/
def send (service : Service) (step : ActionStep) : Prog Sent (fun _ ↦ HttpOutcome) HttpOutcome :=
  Prog.perform (service, step)

/-- The result of an action and what was sent for it. -/
def executed (outcomes : Nat → HttpOutcome) (action : PreparedAction) :
    ActionResult × List Sent :=
  (executeAction send action).run (answering outcomes) []

/-- A response with a success status and a body that is no object with `success` false. -/
def Succeeded : HttpOutcome → Prop
  | .httpError _ => False
  | .response statusCode body => 200 ≤ statusCode ∧ statusCode < 300 ∧
      ¬∃ fields, body = .object fields ∧ fields.get? "success" = some (.bool false)

/-- What is sent is a beginning of the steps, each step only after the ones before it succeeded;
the result is ok just if all were sent and all succeeded; and one unsafe endpoint keeps all of
them back. -/
structure Reported (outcomes : Nat → HttpOutcome) (action : PreparedAction)
    (result : ActionResult) (sent : List Sent) : Prop where
  inOrder : sent.map Prod.snd <+: action.steps
  addressed : ∀ o ∈ sent, o.1.value = action.targetService
  earned : ∀ j, j + 1 < sent.length → Succeeded (outcomes j)
  done : result.ok = true ↔
    sent.length = action.steps.length ∧ ∀ j < sent.length, Succeeded (outcomes j)
  guarded : (∃ step ∈ action.steps, isSafeEndpoint step.endpoint = false) → sent = []

/-- An answer that is accepted succeeded. -/
theorem accepted_iff (o : HttpOutcome) : accepted o = true ↔ Succeeded o := by
  cases o with
  | httpError reference => exact ⟨fun h ↦ absurd h Bool.false_ne_true, False.elim⟩
  | response statusCode body =>
    have hrefusal : (refusalInBody body).isNone = true ↔
        ¬∃ fields, body = .object fields ∧ fields.get? "success" = some (.bool false) := by
      cases body with
      | other text => simp [refusalInBody, Body.get?]
      | object fields =>
        by_cases hsuccess : fields.get? "success" = some (.bool false)
        · simp [refusalInBody, Body.get?, hsuccess]
        · simp [refusalInBody, Body.get?, hsuccess]
    simp only [accepted, isSuccess, Succeeded, Bool.and_eq_true, decide_eq_true_eq, hrefusal,
      and_assoc]

/-! ## The loop over the steps -/

/-- What a loop over the steps sends and returns, where `i` requests were sent before it and `k`
in it. -/
structure StepsRun (outcomes : Nat → HttpOutcome) (i : Nat) (steps : List ActionStep)
    (results : List StepResult) (k : Nat) (value : List StepResult × Option String) : Prop where
  within : k ≤ steps.length
  earned : ∀ j, j + 1 < k → accepted (outcomes (i + j)) = true
  counted : value.2 = none → value.1.length = results.length + k
  passed : (value.2 = none ∧ value.1.all StepResult.ok = true) ↔
    results.all StepResult.ok = true ∧ k = steps.length ∧
      ∀ j < k, accepted (outcomes (i + j)) = true

section

variable {outcomes : Nat → HttpOutcome} {i : Nat} {step : ActionStep} {rest : List ActionStep}
  {results : List StepResult} {value : List StepResult × Option String}

/-- A loop without steps sends nothing. -/
private theorem stepsRun_nil : StepsRun outcomes i [] results 0 (results, none) where
  within := Nat.le_refl 0
  earned := by omega
  counted _ := rfl
  passed := by simp

/-- A loop whose first step does not succeed sends no other and does not pass. -/
private theorem stepsRun_stop (hfirst : accepted (outcomes i) = false)
    (hvalue : value.2 = none → value.1.length = results.length + 1 ∧
      value.1.all StepResult.ok = false) :
    StepsRun outcomes i (step :: rest) results 1 value where
  within := by simp
  earned := by omega
  counted h := (hvalue h).1
  passed := by
    constructor
    · rintro ⟨hnone, hall⟩
      rw [(hvalue hnone).2] at hall
      cases hall
    · rintro ⟨-, -, hall⟩
      have h := hall 0 Nat.one_pos
      rw [Nat.add_zero, hfirst] at h
      cases h

/-- A loop whose first step succeeds goes on with the others. -/
private theorem StepsRun.cons {k : Nat} {res : StepResult} (hfirst : accepted (outcomes i) = true)
    (hres : res.ok = true) (h : StepsRun outcomes (i + 1) rest (results ++ [res]) k value) :
    StepsRun outcomes i (step :: rest) results (k + 1) value := by
  have hshift : ∀ n, (∀ j < n + 1, accepted (outcomes (i + j)) = true) ↔
      ∀ j < n, accepted (outcomes (i + 1 + j)) = true := by
    intro n
    constructor
    · intro hall j hj
      rw [Nat.add_assoc, Nat.add_comm 1 j]
      exact hall (j + 1) (by omega)
    · intro hall j hj
      cases j with
      | zero => exact hfirst
      | succ j =>
        rw [Nat.add_comm j 1, ← Nat.add_assoc]
        exact hall j (by omega)
  exact
    { within := Nat.succ_le_succ h.within
      earned := fun j hj ↦
        (hshift (k - 1)).mpr (fun m hm ↦ h.earned m (by omega)) j (by omega)
      counted := by
        intro hnone
        rw [h.counted hnone, List.length_append, List.length_singleton]
        omega
      passed := by
        rw [h.passed, hshift k, List.all_append, List.all_cons, List.all_nil, hres,
          List.length_cons, Bool.and_true, Bool.and_true, Nat.add_right_cancel_iff] }

end

/-- The loop sends a beginning of the steps and stops at the first that did not succeed. -/
theorem run_runSteps (outcomes : Nat → HttpOutcome) (service : Service) (steps : List ActionStep)
    (results : List StepResult) (sent : List Sent) :
    ∃ k value, (runSteps send service steps results).run (answering outcomes) sent =
        (value, sent ++ (steps.take k).map (Prod.mk service)) ∧
      StepsRun outcomes sent.length steps results k value := by
  induction steps generalizing results sent with
  | nil => exact ⟨0, (results, none), by simp [runSteps], stepsRun_nil⟩
  | cons step rest ih =>
    cases ho : outcomes sent.length with
    | httpError reference =>
      refine ⟨1, (results, some reference), ?_, stepsRun_stop (by rw [ho]; rfl) ?_⟩
      · simp [runSteps, send, answering, ho]
      · intro hnone
        cases hnone
    | response statusCode body =>
      have haccepted : accepted (outcomes sent.length) = (stepResult step statusCode body).ok := by
        rw [ho]
        rfl
      cases hok : (stepResult step statusCode body).ok with
      | true =>
        obtain ⟨k, value, hrun, h⟩ :=
          ih (results ++ [stepResult step statusCode body]) (sent ++ [(service, step)])
        rw [List.length_append, List.length_singleton] at h
        refine ⟨k + 1, value, ?_, h.cons (haccepted.trans hok) hok⟩
        simp only [runSteps, send, Prog.perform_bind, Prog.run_op, answering, ho, hok, if_true]
        rw [hrun, List.append_assoc]
        rfl
      | false =>
        refine ⟨1, (results ++ [stepResult step statusCode body], none), ?_,
          stepsRun_stop (haccepted.trans hok) ?_⟩
        · simp [runSteps, send, answering, ho, hok]
        · intro
          simp [hok]

/-! ## The verdict -/

variable {outcomes : Nat → HttpOutcome} {action : PreparedAction} {service : Service}

/-- A target is resolved to the service that has its name. -/
theorem value_of_serviceOf {target : String} (h : serviceOf target = some service) :
    service.value = target := by
  rw [serviceOf] at h
  exact beq_iff_eq.mp (List.find?_some (p := fun s : Service ↦ s.value == target) h)

/-- An action that is refused before its first request is reported as such. -/
private theorem reported_unsent {result : ActionResult} (hok : result.ok = false) :
    Reported outcomes action result [] where
  inOrder := List.nil_prefix
  addressed := by simp
  earned := by simp
  done := by simp [hok, PreparedAction.steps]
  guarded _ := rfl

/-- The result over the steps that were sent. -/
def resultOf (value : List StepResult × Option String) : ActionResult :=
  match value.2, value.1.getLast? with
  | some reference, _ =>
    { statusCode := 0, ok := false, steps := value.1
      error := some ("the request failed (reference " ++ reference ++ ")") }
  | none, none => { statusCode := 0, ok := false }
  | none, some last => actionResult last value.1

/-- An action with safe endpoints on a known service is its loop. -/
private theorem executeAction_safe (hservice : serviceOf action.targetService = some service)
    (hsafe : ∀ step ∈ action.steps, isSafeEndpoint step.endpoint = true) :
    executeAction send action =
      (runSteps send service action.steps [] >>= fun value ↦ return resultOf value) := by
  have hany : (action.steps.any fun s ↦ !isSafeEndpoint s.endpoint) = false := by
    rw [List.any_eq_false]
    intro step hstep
    simp [hsafe step hstep]
  simp only [PreparedAction.steps] at hany
  simp only [executeAction, hservice, hany, Bool.false_eq_true, if_false, PreparedAction.steps]
  congr 1
  funext value
  obtain ⟨results, transportError⟩ := value
  cases transportError with
  | some reference => rfl
  | none =>
    rw [resultOf]
    cases results.getLast? <;> rfl

/-- A result is ok where no request failed on the way and some steps were sent, each ok. -/
private theorem ok_resultOf (value : List StepResult × Option String) :
    (resultOf value).ok = true ↔
      value.1 ≠ [] ∧ value.2 = none ∧ value.1.all StepResult.ok = true := by
  obtain ⟨results, transportError⟩ := value
  cases transportError with
  | some reference => simp [resultOf]
  | none =>
    cases results with
    | nil => simp [resultOf]
    | cons first rest => simp [resultOf, actionResult, List.getLast?_cons]

/-- The result of a loop that started with nothing is ok where all steps were sent and each
succeeded. -/
private theorem done_iff_of_run {k : Nat} {value : List StepResult × Option String}
    (h : StepsRun outcomes 0 action.steps [] k value) :
    (resultOf value).ok = true ↔
      k = action.steps.length ∧ ∀ j < k, Succeeded (outcomes j) := by
  have hpassed := h.passed
  simp only [List.all_nil, true_and, Nat.zero_add, accepted_iff] at hpassed
  rw [ok_resultOf, hpassed]
  refine ⟨And.right, fun hall ↦ ⟨?_, hall⟩⟩
  intro hempty
  have hcounted := h.counted (hpassed.mpr hall).1
  rw [hempty, hall.1, PreparedAction.steps] at hcounted
  simp at hcounted

/-- An action whose steps are sent is reported as they went. -/
private theorem reported_sent {k : Nat} {value : List StepResult × Option String}
    (hservice : serviceOf action.targetService = some service)
    (hsafe : ∀ step ∈ action.steps, isSafeEndpoint step.endpoint = true)
    (h : StepsRun outcomes 0 action.steps [] k value) :
    Reported outcomes action (resultOf value) ((action.steps.take k).map (Prod.mk service)) := by
  have hlength : ((action.steps.take k).map (Prod.mk service)).length = k := by
    rw [List.length_map, List.length_take_of_le h.within]
  exact
    { inOrder := by
        have hsteps : ((action.steps.take k).map (Prod.mk service)).map Prod.snd =
            action.steps.take k := by simp
        rw [hsteps]
        exact List.take_prefix k action.steps
      addressed := by
        intro o ho
        obtain ⟨step, -, rfl⟩ := List.mem_map.mp ho
        exact value_of_serviceOf hservice
      earned := by
        intro j hj
        rw [hlength] at hj
        have haccepted := h.earned j hj
        rwa [Nat.zero_add, accepted_iff] at haccepted
      done := by
        rw [hlength]
        exact done_iff_of_run h
      guarded := by
        rintro ⟨step, hstep, hunsafe⟩
        rw [hsafe step hstep] at hunsafe
        cases hunsafe }

end CFactory.Actions
