import CFactory.Store.Calls
import Mathlib.Data.List.MinMax

/-!
# The progress poll

`progress.py:40–193`, `adapters/base.py:24–50` and `adapters/__init__.py:38–50`. One poll takes
each service's listing in turn: it feeds the live progress, picks the tasks that may write
their rows, and hydrates, reconciles and prunes the store from them. The store is the
unscoped one of the poll loop.
-/

namespace CFactory.Progress

open CFactory.Base CFactory.Model CFactory.Status CFactory.Store

/-! ### Listings -/

/-- `AdapterItem`; `adapters/base.py:24–50`. -/
structure AdapterItem where
  correlationKey : String
  service : Service
  taskId : String
  status : Option String := none
  phase : Option String := none
  title : Option String := none
  repo : Option String := none
  createdAt : Option String := none
  review : Option Block := none
  deriving DecidableEq

/-- `AdapterItem.to_state`; `adapters/base.py:41–50`. -/
def AdapterItem.toState (item : AdapterItem) : ServiceState :=
  { ServiceState.blank with
    taskIdKey := some (some item.taskId)
    status := item.status
    phase := item.phase
    repo := item.repo
    extra := fun f ↦ if f = .review then item.review.filter fun b ↦ decide (b ≠ []) else none }

/-- An adapter with what its service answers: a listing of that service's tasks, or none for
an `AdapterError`. -/
structure Adapter where
  service : Service
  listing : Option (List AdapterItem)
  own : ∀ items ∈ listing, ∀ i ∈ items, i.service = service

/-- A parsed time: its reading, and its UTC offset if it carries one. -/
structure DateTime where
  reading : Time
  utcoffset : Option Time

/-- What a poll takes from outside: the parser of the standard library, the clock readings in
their order, and the age at which a dead row is removed. -/
structure PollEnv where
  fromIsoFormat : String → Option DateTime
  now : Nat → Time
  pruneAge : Time

variable (env : PollEnv)

/-- `_created`; `progress.py:95–101`. -/
def created (item : AdapterItem) : Option Time :=
  (env.fromIsoFormat (item.createdAt.getD "")).map fun t ↦ t.reading - t.utcoffset.getD 0

/-! ### Live progress -/

/-- `LiveProgress`; `progress.py:40–46`. -/
structure LiveProgress where
  correlationKey : String
  service : Service
  phase : Option String := none
  percent : Option Rat := none
  subtask : Option String := none
  updatedAt : Time
  deriving DecidableEq

/-- `LiveProgressHub`: the latest progress by correlation key. -/
abbrev LiveProgressHub := Dict String LiveProgress

/-- `progress_from_item`; `progress.py:49–57`. -/
def progressFromItem (item : AdapterItem) (now : Time) : LiveProgress :=
  { correlationKey := item.correlationKey
    service := item.service
    phase := if truthy item.phase then item.phase else item.status
    updatedAt := now }

/-! ### The tasks that write their rows -/

section
variable (items : List AdapterItem)

/-- The tasks that the upstream reports as dead; `progress.py:128`. -/
def stuckIds : List String :=
  (items.filter fun i ↦ isDeadStage i.status).map AdapterItem.taskId

/-- The tasks by correlation key; `progress.py:141–143`. -/
def groups : Dict String (List AdapterItem) := Dict.groupBy AdapterItem.correlationKey items

/-- The tasks of a group that have a creation time; `progress.py:147`. -/
def stamped (group : List AdapterItem) : List (Time × AdapterItem) :=
  group.filterMap fun i ↦ (created env i).map fun t ↦ (t, i)

/-- Every task of a group has a creation time. -/
def allStamped (group : List AdapterItem) : Bool :=
  (stamped env group).length == group.length

/-- `max(stamped, key=lambda p: p[0])[1]`. -/
def newestOf (times : List (Time × AdapterItem)) : Option AdapterItem :=
  (@List.argmax _ Time Int.instLinearOrder.toPreorder _ Prod.fst times).map Prod.snd

/-- The newest task of each fully stamped group; `progress.py:144–149`. -/
def owners : List AdapterItem :=
  (groups items).values.flatMap fun group ↦
    if allStamped env group then (newestOf (stamped env group)).toList else []

/-- The tasks of the other groups; `progress.py:150–151`. -/
def rest : List AdapterItem :=
  (groups items).values.flatMap fun group ↦ if allStamped env group then [] else group

/-- Keys of the other groups that have a live task; `progress.py:152`. -/
def aliveKeys : List String :=
  ((rest env items).filter fun i ↦ decide (i.taskId ∉ stuckIds items)).map
    AdapterItem.correlationKey

/-- The last dead task that is listed on a key of the other groups; `progress.py:153`. -/
def lastDead (key : String) : Option String :=
  (((rest env items).filter fun i ↦
    decide (i.taskId ∈ stuckIds items ∧ i.correlationKey = key)).getLast?).map AdapterItem.taskId

/-- The tasks that are hydrated; `progress.py:154–162`. -/
def live : List AdapterItem :=
  owners env items ++ (rest env items).filter fun i ↦
    decide (i.taskId ∉ stuckIds items ∨
      (i.correlationKey ∉ aliveKeys env items ∧
        lastDead env items i.correlationKey = some i.taskId))

/-- `_current_task`; `progress.py:104–107`. -/
def currentTask (t : WorkItemTable) (item : AdapterItem) : Option String :=
  (t.getRow none item.correlationKey).bind fun r ↦ (r.item.slice item.service).taskId

/-- The owners whose row shows one of the listed tasks of its key; `progress.py:166–170`. -/
def newestIds (t : WorkItemTable) : List String :=
  ((owners env items).filter fun o ↦
    match currentTask t o with
    | none => false
    | some id =>
      decide (id ∈ ((groups items).getD o.correlationKey []).map AdapterItem.taskId)).map
    AdapterItem.taskId

end

/-- The newest of some tasks is one of them. -/
theorem mem_of_newestOf {times : List (Time × AdapterItem)} {i : AdapterItem}
    (h : newestOf times = some i) : ∃ t, (t, i) ∈ times := by
  obtain ⟨m, hm, rfl⟩ := Option.map_eq_some_iff.mp h
  exact ⟨m.1, List.argmax_mem hm⟩

/-- Some task is the newest of a list that has any, and none there is newer. -/
theorem newestOf_spec {times : List (Time × AdapterItem)} {u : Time} {o : AdapterItem}
    (ho : (u, o) ∈ times) :
    ∃ t i, newestOf times = some i ∧ (t, i) ∈ times ∧ u ≤ t := by
  unfold newestOf
  cases hm : @List.argmax _ Time Int.instLinearOrder.toPreorder _ Prod.fst times with
  | none =>
    rw [List.argmax_eq_none] at hm
    rw [hm] at ho
    exact absurd ho (by simp)
  | some m => exact ⟨m.1, m.2, rfl, List.argmax_mem hm, List.le_of_mem_argmax ho hm⟩

/-! ### One poll -/

/-- The snapshot that `hydrate` makes of a task. -/
def AdapterItem.snapshot (item : AdapterItem) (newest : List String) : Snapshot :=
  { correlationKey := item.correlationKey
    service := item.service
    state := item.toState
    title := item.title
    newest := decide (item.taskId ∈ newest) }

/-- `hydrate`, from the `n`-th clock reading on; `adapters/__init__.py:38–50`. -/
def hydrate (newest : List String) : List AdapterItem → Nat → WorkItemTable → WorkItemTable
  | [], _, t => t
  | item :: items, n, t =>
    hydrate newest items (n + 1)
      (StoreCall.table t ⟨none, env.now n, .snapshot (item.snapshot newest)⟩)

/-- The canonical key of a task among those hydrated; `progress.py:177`. -/
def taskIdToKey (items : List AdapterItem) (id : String) : Option String :=
  ((items.filter fun i ↦ decide (i.taskId = id)).getLast?).map AdapterItem.correlationKey

/-- The store after one service's listing; `progress.py:166–178`. -/
def pass (service : Service) (items : List AdapterItem) (n : Nat) (t : WorkItemTable) :
    WorkItemTable :=
  let tasks := live env items
  let hydrated := hydrate env (newestIds env items t) tasks n t
  let reconciled := reconcileSnapshot hydrated none service (tasks.map AdapterItem.taskId)
    (env.now (n + tasks.length))
  pruneDuplicateStages reconciled none service (taskIdToKey tasks)
    (env.now (n + tasks.length + 1))

/-- A poll under way: the hub, what changed, the store, and the clock readings taken. -/
structure PollState where
  hub : LiveProgressHub
  changed : List LiveProgress
  table : WorkItemTable
  ticks : Nat

/-- Feed one task into the live progress; a dead one is kept out; `progress.py:129–134`. -/
def feed (stuck : List String) (s : PollState) (item : AdapterItem) : PollState :=
  if item.taskId ∈ stuck then s
  else
    let lp := progressFromItem item (env.now s.ticks)
    { s with
      hub := s.hub.set lp.correlationKey lp
      changed := s.changed ++ [lp]
      ticks := s.ticks + 1 }

/-- One adapter's turn; a service that is down is skipped; `progress.py:122–188`. -/
def pollAdapter (s : PollState) (a : Adapter) : PollState :=
  match a.listing with
  | none => s
  | some items =>
    let fed := items.foldl (feed env (stuckIds items)) s
    { fed with
      table := pass env a.service items fed.ticks fed.table
      ticks := fed.ticks + (live env items).length + 2 }

/-- `poll_progress_once`; `progress.py:110–193`. -/
def pollProgressOnce (hub : LiveProgressHub) (adapters : List Adapter) (t : WorkItemTable) :
    PollState :=
  let s := adapters.foldl (pollAdapter env) ⟨hub, [], t, 0⟩
  { s with table := pruneDead s.table none (env.now s.ticks) env.pruneAge }

/-- Feeding the live progress leaves the store alone. -/
@[simp] theorem table_feed (stuck : List String) (s : PollState) (items : List AdapterItem) :
    (items.foldl (feed env stuck) s).table = s.table := by
  induction items generalizing s with
  | nil => rfl
  | cons item items ih =>
    rw [List.foldl_cons, ih, feed]
    split <;> rfl

/-- A service that is down has no turn. -/
theorem pollAdapter_down (s : PollState) {a : Adapter} (h : a.listing = none) :
    pollAdapter env s a = s := by
  rw [pollAdapter, h]

/-- A turn passes the service's listing over the store. -/
theorem table_pollAdapter (s : PollState) {a : Adapter} {items : List AdapterItem}
    (h : a.listing = some items) :
    ∃ n, (pollAdapter env s a).table = pass env a.service items n s.table := by
  rw [pollAdapter, h]
  simp only [table_feed]
  exact ⟨_, rfl⟩

end CFactory.Progress
