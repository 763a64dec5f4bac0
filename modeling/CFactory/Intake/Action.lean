import CFactory.Base.Prog
import CFactory.Model.Types

/-!
# Confirmed actions

`actions.py:34–126,377–496`. A prepared action is a primary write and its follow-ups
against one upstream service. Execution sends the steps in order, stops at the first one
that did not succeed, and never raises. Request payloads are left out: execution passes
them on without reading them.
-/

namespace CFactory.Actions

open CFactory.Base CFactory.Model

/-- A value of a JSON object as its readers see it. Numbers, arrays and objects keep their
truth value and their `str()` text. -/
inductive JsonValue where
  | null
  | bool (b : Bool)
  | str (s : String)
  | other (isTruthy : Bool) (text : String)
  deriving DecidableEq, Repr

/-- Python truth of a JSON value. -/
def JsonValue.truthy : JsonValue → Bool
  | .null => false
  | .bool b => b
  | .str s => s ≠ ""
  | .other t _ => t

/-- `str(value)`. -/
def JsonValue.text : JsonValue → String
  | .null => "None"
  | .bool true => "True"
  | .bool false => "False"
  | .str s => s
  | .other _ t => t

/-- A response body: a JSON object, or anything else as its text. -/
inductive Body where
  | object (fields : Dict String JsonValue)
  | other (text : String)
  deriving DecidableEq

/-- `body.get(key)` of an object body. -/
def Body.get? : Body → String → Option JsonValue
  | .object fields, key => fields.get? key
  | .other _, _ => none

/-- What one request comes to: a response, or a transport error that httpx raises. -/
inductive HttpOutcome where
  | response (statusCode : Nat) (body : Body)
  | httpError (reference : String)
  deriving DecidableEq

/-- `resp.is_success`. -/
def isSuccess (statusCode : Nat) : Bool := 200 ≤ statusCode && statusCode < 300

/-- `is_safe_endpoint`; `actions.py:34–46`. `urlsplit` drops tab, carriage return and line
feed before it looks for a host, and a path that starts with one slash has no scheme. -/
def isSafeEndpoint (endpoint : String) : Bool :=
  match endpoint.toList with
  | '/' :: rest =>
    match rest with
    | '/' :: _ => false
    | _ => (rest.filter fun c ↦ c ≠ '\t' ∧ c ≠ '\r' ∧ c ≠ '\n').head? ≠ some '/'
  | _ => false

/-- `ActionStep`; `actions.py:104–109`. -/
structure ActionStep where
  method : String
  endpoint : String
  deriving DecidableEq

/-- `PreparedAction`; `actions.py:112–126`. -/
structure PreparedAction where
  kind : String
  correlationKey : String
  targetService : String
  method : String
  endpoint : String
  followUps : List ActionStep := []
  rationale : String
  deriving DecidableEq

/-- One result of `_do`; `actions.py:400–418`. -/
structure StepResult where
  step : ActionStep
  statusCode : Nat
  ok : Bool
  body : Body
  error : Option String
  deriving DecidableEq

/-- The result of `execute_action`; `actions.py:421–496`. -/
structure ActionResult where
  statusCode : Nat
  ok : Bool
  body : Option Body := none
  steps : List StepResult := []
  error : Option String := none
  deriving DecidableEq

/-- The first non-empty string among an object's error keys. -/
def refusalText (body : Body) : List String → Option String
  | [] => none
  | key :: rest =>
    match body.get? key with
    | some (.str s) => if s ≠ "" then some s else refusalText body rest
    | _ => refusalText body rest

/-- `_refusal_in_body`; `actions.py:377–397`. -/
def refusalInBody (body : Body) : Option String :=
  if body.get? "success" = some (.bool false) then
    some ((refusalText body ["error", "detail", "message"]).getD "upstream reported success=false")
  else none

/-- `_do` on a response; `actions.py:400–418`. -/
def stepResult (step : ActionStep) (statusCode : Nat) (body : Body) : StepResult :=
  { step, statusCode, body
    ok := isSuccess statusCode && (refusalInBody body).isNone
    error := refusalInBody body }

/-- The service a target names, or none for the `KeyError` of `_base_url_for`. -/
def serviceOf (target : String) : Option Service :=
  [Service.pfactory, .aifactory, .tfactory].find? fun s ↦ s.value == target

section
variable {Op : Type} {Res : Op → Type}
  (request : Service → ActionStep → Prog Op Res HttpOutcome)

/-- The loop over the steps; the flag says whether a transport error cut it short. -/
def runSteps (service : Service) :
    List ActionStep → List StepResult → Prog Op Res (List StepResult × Option String)
  | [], results => return (results, none)
  | step :: rest, results => do
    match ← request service step with
    | .httpError reference => return (results, some reference)
    | .response statusCode body =>
      let res := stepResult step statusCode body
      if res.ok then runSteps service rest (results ++ [res])
      else return (results ++ [res], none)

/-- The result over the steps that were sent. -/
def actionResult (last : StepResult) (results : List StepResult) : ActionResult :=
  { statusCode := last.statusCode
    ok := results.all StepResult.ok
    body := some last.body
    steps := results
    error := (results.find? fun r ↦ !r.ok).bind StepResult.error }

/-- `execute_action`; `actions.py:421–496`. -/
def executeAction (action : PreparedAction) : Prog Op Res ActionResult :=
  match serviceOf action.targetService with
  | none =>
    return { statusCode := 0, ok := false
             error := some ("unknown target_service: '" ++ action.targetService ++ "'") }
  | some service =>
    let primary : ActionStep := ⟨action.method, action.endpoint⟩
    let steps := primary :: action.followUps
    if steps.any fun s ↦ !isSafeEndpoint s.endpoint then
      return { statusCode := 0, ok := false
               error := some "unsafe endpoint (must be root-relative)" }
    else do
      let (results, transportError) ← runSteps request service steps []
      match transportError, results.getLast? with
      | some reference, _ =>
        return { statusCode := 0, ok := false, steps := results
                 error := some ("the request failed (reference " ++ reference ++ ")") }
      | none, none => return { statusCode := 0, ok := false }
      | none, some last => return actionResult last results

end

/-- The result of a single-step action over the one answer it got. -/
def singleResult (step : ActionStep) : HttpOutcome → ActionResult
  | .httpError reference =>
    { statusCode := 0, ok := false
      error := some ("the request failed (reference " ++ reference ++ ")") }
  | .response statusCode body =>
    actionResult (stepResult step statusCode body) [stepResult step statusCode body]

/-- An answer counts as accepted when its result is ok. -/
def accepted : HttpOutcome → Bool
  | .httpError _ => false
  | .response statusCode body => isSuccess statusCode && (refusalInBody body).isNone

/-- A single-step result is ok exactly on an accepted answer. -/
@[simp] theorem ok_singleResult (step : ActionStep) (o : HttpOutcome) :
    (singleResult step o).ok = accepted o := by
  cases o with
  | httpError reference => rfl
  | response statusCode body => simp [singleResult, actionResult, stepResult, accepted]

/-- Every target that is a service's wire value is resolved to that service. -/
@[simp] theorem serviceOf_value (s : Service) : serviceOf s.value = some s := by
  cases s <;> decide

/-- An action without follow-ups on a safe endpoint is one request and its result. -/
theorem executeAction_single {Op : Type} {Res : Op → Type}
    (request : Service → ActionStep → Prog Op Res HttpOutcome) (action : PreparedAction)
    (service : Service) (ht : action.targetService = service.value)
    (hf : action.followUps = []) (hs : isSafeEndpoint action.endpoint = true) :
    executeAction request action =
      (request service ⟨action.method, action.endpoint⟩ >>= fun o ↦
        return singleResult ⟨action.method, action.endpoint⟩ o) := by
  simp only [executeAction, ht, serviceOf_value, hf, List.any_cons, hs, List.any_nil,
    Bool.not_true, Bool.or_self, Bool.false_eq_true, ↓reduceIte, runSteps, bind_assoc]
  congr 1
  funext o
  cases o with
  | httpError reference => rfl
  | response statusCode body =>
    cases hok : (stepResult ⟨action.method, action.endpoint⟩ statusCode body).ok <;>
      simp [hok, singleResult]

end CFactory.Actions
