import CFactory.Base.Dict
import Mathlib.Logic.Function.Basic
import Mathlib.Data.Fintype.Basic

/-!
# Domain model

`models.py:58–375`. Services, stages, completion events and the per-service slices of a
work item. Timestamps are UTC instants in microseconds; costs are exact rationals. The
free-form annotation blocks are kept as their entries, since only their emptiness is read.
-/

namespace CFactory.Model

open CFactory.Base

/-- An instant, in microseconds since the epoch (UTC). -/
abbrev Time := Int

/-- `round(x, digits)`: the nearest number with so many digits, of two the even one. -/
def roundTo (x : Rat) (digits : Nat) : Rat :=
  let low := (x * 10 ^ digits).floor
  let part := x * 10 ^ digits - low
  let nearest :=
    if part < 1 / 2 then low else if 1 / 2 < part then low + 1
    else if low % 2 = 0 then low else low + 1
  nearest / 10 ^ digits

/-- `Service`; `models.py:58–61`. -/
inductive Service where
  | pfactory
  | aifactory
  | tfactory
  deriving DecidableEq, Repr

/-- `Stage`; `models.py:64–67`. -/
inductive Stage where
  | plan
  | code
  | test
  deriving DecidableEq, Repr

instance : Fintype Service := ⟨{.pfactory, .aifactory, .tfactory}, fun s ↦ by cases s <;> decide⟩

instance : Fintype Stage := ⟨{.plan, .code, .test}, fun s ↦ by cases s <;> decide⟩

/-- The wire value of a service. -/
def Service.value : Service → String
  | .pfactory => "pfactory"
  | .aifactory => "aifactory"
  | .tfactory => "tfactory"

/-- The wire value of a stage. -/
def Stage.value : Stage → String
  | .plan => "plan"
  | .code => "code"
  | .test => "test"

/-- `STAGE_SERVICE`; `card_intake.py:87–91`. -/
def Stage.service : Stage → Service
  | .plan => .pfactory
  | .code => .aifactory
  | .test => .tfactory

/-- `STAGE_FOR_SERVICE`; `card_intake.py:94`. -/
def Service.stage : Service → Stage
  | .pfactory => .plan
  | .aifactory => .code
  | .tfactory => .test

/-- Each stage is owned by one service. -/
@[simp] theorem stage_service (s : Stage) : s.service.stage = s := by cases s <;> rfl

/-- Each service owns one stage. -/
@[simp] theorem service_stage (s : Service) : s.stage.service = s := by cases s <;> rfl

/-- A free-form JSON object: its entries, each value as its text. -/
abbrev Block := List (String × String)

/-- `_ANNOTATION_FIELDS`; `store.py:336–346`. -/
inductive AnnotationField where
  | access
  | verification
  | routing
  | injectionScan
  | dependencyReview
  | votes
  | review
  deriving DecidableEq, Repr

instance : Fintype AnnotationField :=
  ⟨{.access, .verification, .routing, .injectionScan, .dependencyReview, .votes, .review},
    fun f ↦ by cases f <;> decide⟩

/-- Optional annotation blocks by field. -/
abbrev Annotations := AnnotationField → Option Block

/-- `BudgetInfo`; `models.py:70–81`. -/
structure BudgetInfo where
  limitUsd : Rat
  spentUsd : Rat
  exceeded : Bool
  deriving DecidableEq

/-- One rollup bucket, `usage.py:15–35` and `store.py:156–175`. A producer's own breakdown
may leave any key out. -/
structure Bucket where
  inputTokens : Option Int
  outputTokens : Option Int
  totalTokens : Option Int
  costUsd : Option Rat
  workers : Option Int
  durationMs : Option Int
  billingMode : Option String
  deriving DecidableEq

/-- Rollup buckets by provider or model. -/
abbrev Rollup := Dict String Bucket

/-- `WorkerUsage`; `models.py:186–213`. -/
structure WorkerUsage where
  workerId : String
  subtaskId : Option String := none
  agentPhase : Option String := none
  provider : Option String := none
  model : Option String := none
  inputTokens : Int := 0
  outputTokens : Int := 0
  totalTokens : Int := 0
  costUsd : Rat := 0
  durationMs : Int := 0
  billingMode : Option String := none
  elapsedMs : Int := 0
  deriving DecidableEq

/-- `TokenUsage`; `models.py:126–166`. -/
structure TokenUsage where
  inputTokens : Int := 0
  outputTokens : Int := 0
  totalTokens : Int := 0
  costUsd : Rat := 0
  model : Option String := none
  workers : Option (List WorkerUsage) := none
  byProvider : Option Rollup := none
  byModel : Option Rollup := none
  budget : Option BudgetInfo := none
  deriving DecidableEq

/-- `ProgressPoint`; `models.py:169–183`. -/
structure ProgressPoint where
  ts : Int
  totalTokens : Int
  costUsd : Rat
  elapsedMs : Int
  deriving DecidableEq

/-- `CompletionEvent` after validation, so that its timestamp is present;
`models.py:216–314`. -/
structure CompletionEvent where
  id : Option String := none
  correlationKey : String
  service : Service
  taskId : String
  status : String
  phase : Option String := none
  updatedAt : Time := 0
  usage : Option TokenUsage := none
  worker : Option WorkerUsage := none
  annotations : Annotations := fun _ ↦ none
  deriving DecidableEq

/-- `ServiceState`, and the JSON column that stores it; `models.py:317–344`. An absent key
reads as its default everywhere except for `task_id`, where `setdefault` can tell: the
outer `none` is an absent key and `some none` a stored null. -/
structure ServiceState where
  taskIdKey : Option (Option String) := none
  status : Option String := none
  phase : Option String := none
  repo : Option String := none
  usage : Option TokenUsage := none
  workers : Dict String WorkerUsage := Dict.empty
  workerProgress : Dict String (List ProgressPoint) := Dict.empty
  byProvider : Rollup := Dict.empty
  byModel : Rollup := Dict.empty
  extra : Annotations := fun _ ↦ none
  deriving DecidableEq

namespace ServiceState

/-- The column default `{}`. -/
def column : ServiceState := {}

/-- `slice.get("task_id")`. -/
def taskId (s : ServiceState) : Option String := s.taskIdKey.join

/-- `ServiceState().model_dump()`: every key present with its default. -/
def blank : ServiceState := { taskIdKey := some none }

@[simp] theorem taskId_blank : blank.taskId = none := rfl

@[simp] theorem taskId_column : column.taskId = none := rfl

@[simp] theorem status_blank : blank.status = none := rfl

end ServiceState

/-- A Python truth test on an optional string: present and not empty. -/
def truthy (s : Option String) : Bool := s.getD "" ≠ ""

@[simp] theorem truthy_none : truthy none = false := rfl

/-- `WorkItem`; `models.py:363–375`. -/
structure WorkItem where
  correlationKey : String
  title : Option String := none
  slice : Service → ServiceState := fun _ ↦ .column
  timeline : List CompletionEvent := []
  createdAt : Time := 0
  updatedAt : Time := 0
  deriving DecidableEq

end CFactory.Model
