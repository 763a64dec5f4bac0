import CFactory.Base.Grouping
import CFactory.Model.Types
import CFactory.Status.Substring
import Mathlib.Data.String.Basic

/-!
# Test lanes

`task_process.py:232–324`. The subtasks of a test run are grouped by their lanes, one node for each.
The nodes are put in the order of the lane spine and chained. A lane's status is rolled up from the
words in the statuses of its subtasks, and overridden where the run says that the lane did not run.
-/

namespace CFactory.Process

open CFactory.Base CFactory.Model CFactory.Status

/-- `_LANE_SPINE`; `task_process.py:31`. -/
def LANE_SPINE : List String := ["unit", "browser", "api", "integration", "mutation"]

/-- `str.lower` and `str.capitalize` over all of Unicode. What is not empty is not lowered to
nothing. -/
structure Casing where
  lower : String → String
  capitalize : String → String
  lower_ne_empty : ∀ s, s ≠ "" → lower s ≠ ""

/-- What is read of a subtask. A field is the text of its value; it is none where the key is absent
or the value is empty. -/
structure Subtask where
  lane : Option String := none
  status : Option String := none
  startedAt : Option String := none
  completedAt : Option String := none
  deriving DecidableEq

/-- The statuses of a lane. -/
inductive LaneStatus where
  | failed
  | stalled
  | active
  | completed
  deriving DecidableEq, Repr

/-- A lane's node. -/
structure LaneNode where
  id : String
  label : String
  kind : String
  status : Option LaneStatus
  startedAt : Option String
  completedAt : Option String
  deps : List String
  deriving DecidableEq

/-- `str(x or "").lower()`. -/
def statusText (status : Option String) : String := lowerText (status.getD "")

/-- The words that each status of a lane is searched for, worst first; `task_process.py:237–246`. -/
def LANE_FAIL_WORDS : List String := ["fail", "error"]

def LANE_STALL_WORDS : List String := ["stuck", "stall", "block"]

def LANE_ACTIVE_WORDS : List String := ["progress", "running"]

def LANE_DONE_WORDS : List String := ["complet", "passed"]

/-- `_lane_status`; `task_process.py:232–247`. -/
def laneStatus (statuses : List (Option String)) : Option LaneStatus :=
  let texts := statuses.map statusText
  if texts.any (holdsAny LANE_FAIL_WORDS) then some .failed
  else if texts.any (holdsAny LANE_STALL_WORDS) then some .stalled
  else if texts.any (holdsAny LANE_ACTIVE_WORDS) then some .active
  else if statuses ≠ [] ∧ texts.all (holdsAny LANE_DONE_WORDS) then some .completed
  else none

section
variable (casing : Casing)

/-- `_lane_node`; `task_process.py:250–285`. -/
def laneNode (lane : String) (members : List Subtask) (executed : Option String) : LaneNode :=
  let rolledUp := laneStatus (members.map Subtask.status)
  let doneCount := (members.filter fun m ↦ holds "complet" (statusText m.status)).length
  let ran := executed.all (· == "executed")
  let status :=
    if ran then rolledUp else if executed = some "error" then some .failed else none
  let counts :=
    if ran then s!" ({doneCount}/{members.length})" else s!" (0/{members.length} run)"
  let completes := members.filterMap Subtask.completedAt
  { id := lane
    label := casing.capitalize lane ++ counts
    kind := lane
    status
    startedAt := (members.filterMap Subtask.startedAt).min?
    completedAt := if status = some .completed then completes.max? else none
    deps := [] }

/-- The lane of a subtask. -/
def laneOf (s : Subtask) : String :=
  casing.lower (if truthy s.lane then s.lane.getD "" else "unit")

/-- The nodes of some lanes, each depending on the one before; `task_process.py:315–322`. -/
def chain (node : String → LaneNode) : Option String → List String → List LaneNode
  | _, [] => []
  | prev, lane :: rest =>
    { node lane with deps := if truthy prev then prev.toList else [] } ::
      chain node (some lane) rest

/-- The entry of a lane in `lane_progress`, unless it is empty; `task_process.py:318–319`. -/
def executedOf (laneProgress : Option (Dict String (Option String))) (lane : String) :
    Option String :=
  (((laneProgress.getD Dict.empty).get? lane).join).filter fun x ↦ decide (x ≠ "")

/-- The known lanes in the order of the spine, and the others as they were seen;
`task_process.py:310–312`. -/
def orderedLanes (lanes : List String) : List String :=
  LANE_SPINE.filter (· ∈ lanes) ++ lanes.filter (· ∉ LANE_SPINE)

/-- `_build_test_graph`; what is not an object is skipped; `task_process.py:288–324`. -/
def buildTestGraph (rawSubs : List (Option Subtask))
    (laneProgress : Option (Dict String (Option String))) : Option (List LaneNode) :=
  let lanes := Dict.groupBy (laneOf casing) (rawSubs.filterMap id)
  if lanes.entries = [] then none
  else some (chain
    (fun lane ↦ laneNode casing lane (lanes.getD lane []) (executedOf laneProgress lane)) none
    (orderedLanes lanes.keys))

end

/-! ## The graph -/

section
variable (casing : Casing) (subs : List Subtask)
  (laneProgress : Option (Dict String (Option String)))

/-- The subtasks of a lane. -/
def members (lane : String) : List Subtask := subs.filter fun s ↦ decide (laneOf casing s = lane)

/-- A faithful graph of some subtasks: one node for each of their lanes, with the known lanes first
in the order of the spine and the others as they were first seen, each node depending on the one
before; each subtask is of one node, and a node is made of its subtasks and of what is said of its
lane. -/
structure LaneGraph (nodes : List LaneNode) : Prop where
  lanes : ∀ lane, lane ∈ nodes.map LaneNode.id ↔ ∃ s ∈ subs, laneOf casing s = lane
  distinct : (nodes.map LaneNode.id).Nodup
  ordered : ∃ others, nodes.map LaneNode.id =
    LANE_SPINE.filter (· ∈ nodes.map LaneNode.id) ++ others ∧
      (∀ lane ∈ others, lane ∉ LANE_SPINE) ∧
        others.Pairwise fun a b ↦
          (subs.map (laneOf casing)).idxOf a < (subs.map (laneOf casing)).idxOf b
  chained : ∀ before n after, nodes = before ++ n :: after →
    n.deps = (before.getLast?.map LaneNode.id).toList
  parted : ∀ s ∈ subs, ∃! n, n ∈ nodes ∧ n.id = laneOf casing s
  made : ∀ n ∈ nodes, n =
    { laneNode casing n.id (members casing subs n.id) (executedOf laneProgress n.id) with
      deps := n.deps }

/-- The lane ran, or the run does not say whether it did. -/
def Ran (lane : String) : Prop :=
  executedOf laneProgress lane = none ∨ executedOf laneProgress lane = some "executed"

/-- Every subtask is done, and none is failed or dead. -/
def AllDone (ms : List Subtask) : Prop :=
  ∀ m ∈ ms, isDone m.status = true ∧ isFailed m.status = false ∧ isDeadStage m.status = false

/-- A node is completed exactly where its lane ran and all its subtasks are done. -/
def CompletedWhenDone (nodes : List LaneNode) : Prop :=
  ∀ n ∈ nodes, n.status = some .completed ↔
    Ran laneProgress n.id ∧ AllDone (members casing subs n.id)

/-- Every status has a word of completion, and none a word of failure, of a stall or of activity. -/
def AllSayCompleted (ms : List Subtask) : Prop :=
  ∀ m ∈ ms, holdsAny LANE_DONE_WORDS (statusText m.status) = true ∧
    holdsAny (LANE_FAIL_WORDS ++ LANE_STALL_WORDS ++ LANE_ACTIVE_WORDS) (statusText m.status) =
      false

/-- In each lane that ran, the words of the statuses say that they are completed exactly where the
tokens say that they are done. -/
def LaneWordsMeanTokens : Prop :=
  ∀ s ∈ subs, Ran laneProgress (laneOf casing s) →
    (AllSayCompleted (members casing subs (laneOf casing s)) ↔
      AllDone (members casing subs (laneOf casing s)))

end

section
variable {casing : Casing} {subs : List Subtask} {node : String → LaneNode}
  {laneProgress : Option (Dict String (Option String))}

/-! ### The chain -/

theorem ids_chain (hid : ∀ lane, (node lane).id = lane) (prev : Option String)
    (lanes : List String) : (chain node prev lanes).map LaneNode.id = lanes := by
  induction lanes generalizing prev with
  | nil => rfl
  | cons lane rest ih => rw [chain, List.map_cons, ih, hid]

/-- A node of a chain is that of its lane, but for what it depends on. -/
theorem mem_chain (hid : ∀ lane, (node lane).id = lane) {prev : Option String} {lanes : List String}
    {n : LaneNode} (h : n ∈ chain node prev lanes) : n = { node n.id with deps := n.deps } := by
  induction lanes generalizing prev with
  | nil => cases h
  | cons lane rest ih =>
    rw [chain] at h
    rcases List.mem_cons.mp h with heq | h
    · rw [heq]
      dsimp only
      rw [hid, hid]
    · exact ih h

/-- A node of a chain depends on the one before it, the first on what came before the chain. -/
theorem deps_chain (hid : ∀ lane, (node lane).id = lane) {lanes : List String}
    (hne : ∀ lane ∈ lanes, lane ≠ "") {prev : Option String} {before after : List LaneNode}
    {n : LaneNode} (h : chain node prev lanes = before ++ n :: after) :
    n.deps =
      ((before.getLast?.map LaneNode.id).or (prev.filter fun x ↦ decide (x ≠ ""))).toList := by
  induction lanes generalizing prev before with
  | nil =>
    rw [chain] at h
    exact absurd h.symm (by simp)
  | cons lane rest ih =>
    rw [chain] at h
    cases before with
    | nil =>
      obtain ⟨rfl, -⟩ := List.cons.inj h
      cases prev with
      | none => rfl
      | some x =>
        by_cases hx : x = ""
        · subst hx
          rfl
        · have htruthy : truthy (some x) = true := decide_eq_true hx
          rw [if_pos htruthy, Option.filter_some, if_pos (decide_eq_true hx)]
          rfl
    | cons b before =>
      obtain ⟨rfl, hrest⟩ := List.cons.inj h
      have hlane : lane ≠ "" := hne lane List.mem_cons_self
      rw [ih (fun l hl ↦ hne l (List.mem_cons_of_mem lane hl)) hrest, List.getLast?_cons]
      cases before.getLast? with
      | none => simp [hlane, hid]
      | some m => rfl

/-! ### The lanes -/

theorem laneOf_ne_empty (casing : Casing) (s : Subtask) : laneOf casing s ≠ "" := by
  apply casing.lower_ne_empty
  split
  · next htruthy => exact of_decide_eq_true htruthy
  · decide

theorem mem_orderedLanes {lanes : List String} {lane : String} :
    lane ∈ orderedLanes lanes ↔ lane ∈ lanes := by
  simp only [orderedLanes, List.mem_append, List.mem_filter, decide_eq_true_eq]
  constructor
  · exact fun h ↦ h.elim And.right And.left
  · intro h
    by_cases hspine : lane ∈ LANE_SPINE
    · exact .inl ⟨hspine, h⟩
    · exact .inr ⟨h, hspine⟩

theorem nodup_orderedLanes {lanes : List String} (h : lanes.Nodup) :
    (orderedLanes lanes).Nodup := by
  have hspine : LANE_SPINE.Nodup := by decide
  refine (hspine.filter _).append (h.filter _) fun lane hfirst hlast ↦ ?_
  exact of_decide_eq_true (List.mem_filter.mp hlast).2 (List.mem_filter.mp hfirst).1

/-- The nodes of the graph, none where there is no graph. -/
def graphNodes (casing : Casing) (subs : List Subtask)
    (laneProgress : Option (Dict String (Option String))) : List LaneNode :=
  chain (fun lane ↦ laneNode casing lane (members casing subs lane) (executedOf laneProgress lane))
    none (orderedLanes (Dict.groupBy (laneOf casing) subs).keys)

theorem buildTestGraph_eq (rawSubs : List (Option Subtask)) :
    (buildTestGraph casing rawSubs laneProgress).getD [] =
      graphNodes casing (rawSubs.filterMap id) laneProgress := by
  have hmembers : ∀ lane, (Dict.groupBy (laneOf casing) (rawSubs.filterMap id)).getD lane [] =
      members casing (rawSubs.filterMap id) lane :=
    fun lane ↦ Dict.getD_groupBy _ _ lane
  rw [buildTestGraph, graphNodes]
  simp only [hmembers]
  split
  · next hnone =>
    rw [Option.getD_none, Dict.keys, hnone]
    rfl
  · rw [Option.getD_some]

/-- The graph is a faithful one of its lanes. -/
theorem laneGraph_graphNodes (casing : Casing) (subs : List Subtask)
    (laneProgress : Option (Dict String (Option String))) :
    LaneGraph casing subs laneProgress (graphNodes casing subs laneProgress) := by
  have hkeys : ∀ lane, lane ∈ orderedLanes (Dict.groupBy (laneOf casing) subs).keys ↔
      ∃ s ∈ subs, laneOf casing s = lane := by
    intro lane
    rw [mem_orderedLanes, Dict.mem_keys_groupBy, List.mem_map]
  have hids : (graphNodes casing subs laneProgress).map LaneNode.id =
      orderedLanes (Dict.groupBy (laneOf casing) subs).keys := ids_chain (fun _ ↦ rfl) _ _
  have hdistinct : ((graphNodes casing subs laneProgress).map LaneNode.id).Nodup := by
    rw [hids]
    exact nodup_orderedLanes (Dict.nodup_keys _)
  refine
    { lanes := fun lane ↦ by rw [hids, hkeys]
      distinct := hdistinct
      ordered := ⟨(Dict.groupBy (laneOf casing) subs).keys.filter (· ∉ LANE_SPINE), ?_, ?_, ?_⟩
      chained := fun before n after heq ↦ ?_
      parted := fun s hs ↦ ?_
      made := fun n hn ↦ mem_chain (fun _ ↦ rfl) hn }
  · rw [hids]
    have hspine : LANE_SPINE.filter (· ∈ orderedLanes (Dict.groupBy (laneOf casing) subs).keys) =
        LANE_SPINE.filter (· ∈ (Dict.groupBy (laneOf casing) subs).keys) :=
      List.filter_congr fun lane _ ↦ decide_eq_decide.mpr mem_orderedLanes
    rw [hspine, orderedLanes]
  · exact fun lane hlane ↦ of_decide_eq_true (List.mem_filter.mp hlane).2
  · exact (Dict.keys_groupBy_pairwise (laneOf casing) subs).filter _
  · rw [deps_chain (fun _ ↦ rfl) (fun lane hlane ↦ ?_) heq]
    · simp
    · obtain ⟨s, -, rfl⟩ := (hkeys lane).mp hlane
      exact laneOf_ne_empty casing s
  · have hlane : laneOf casing s ∈ (graphNodes casing subs laneProgress).map LaneNode.id := by
      rw [hids, hkeys]
      exact ⟨s, hs, rfl⟩
    obtain ⟨n, hn, hid⟩ := List.mem_map.mp hlane
    refine ⟨n, ⟨hn, hid⟩, fun m hm ↦ ?_⟩
    exact List.inj_on_of_nodup_map hdistinct hm.1 hn (hm.2.trans hid.symm)

/-! ### Completion -/

/-- A lane is completed where no status has a word that is searched for first, and each has a word
of completion. -/
theorem laneStatus_eq_completed {ms : List Subtask} (hne : ms ≠ []) :
    laneStatus (ms.map Subtask.status) = some .completed ↔ AllSayCompleted ms := by
  have hall : ∀ p : String → Bool,
      ((ms.map Subtask.status).map statusText).all p = true ↔
        ∀ m ∈ ms, p (statusText m.status) = true := by
    intro p
    simp only [List.all_eq_true, List.forall_mem_map]
  have hany : ∀ words, ((ms.map Subtask.status).map statusText).any (holdsAny words) = true ↔
      ∃ m ∈ ms, holdsAny words (statusText m.status) = true := by
    intro words
    rw [List.any_map, List.any_map, List.any_eq_true]
    rfl
  simp only [laneStatus, AllSayCompleted, holdsAny_append, Bool.or_eq_false_iff]
  split
  · next hfail =>
    obtain ⟨m, hm, hword⟩ := (hany _).mp hfail
    exact iff_of_false (by simp) fun h ↦ Bool.false_ne_true ((h m hm).2.1.1.symm.trans hword)
  split
  · next hstall =>
    obtain ⟨m, hm, hword⟩ := (hany _).mp hstall
    exact iff_of_false (by simp) fun h ↦ Bool.false_ne_true ((h m hm).2.1.2.symm.trans hword)
  split
  · next hactive =>
    obtain ⟨m, hm, hword⟩ := (hany _).mp hactive
    exact iff_of_false (by simp) fun h ↦ Bool.false_ne_true ((h m hm).2.2.symm.trans hword)
  · next hfail hstall hactive =>
    have hnone : ∀ words, ¬((ms.map Subtask.status).map statusText).any (holdsAny words) = true →
        ∀ m ∈ ms, holdsAny words (statusText m.status) = false := by
      intro words hno m hm
      exact Bool.eq_false_iff.mpr fun hword ↦ hno ((hany words).mpr ⟨m, hm, hword⟩)
    split
    · next hdone =>
      refine iff_of_true rfl fun m hm ↦ ⟨(hall _).mp hdone.2 m hm, ⟨?_, ?_⟩, ?_⟩
      · exact hnone _ hfail m hm
      · exact hnone _ hstall m hm
      · exact hnone _ hactive m hm
    · next hdone =>
      refine iff_of_false (by simp) fun h ↦ hdone ⟨by simpa using hne, ?_⟩
      exact (hall _).mpr fun m hm ↦ (h m hm).1

/-- A lane's node is completed where the lane ran and its statuses say so. -/
theorem status_laneNode (casing : Casing) {lane : String} {ms : List Subtask} (hne : ms ≠ []) :
    (laneNode casing lane ms (executedOf laneProgress lane)).status = some .completed ↔
      Ran laneProgress lane ∧ AllSayCompleted ms := by
  rw [← laneStatus_eq_completed hne, laneNode, Ran]
  cases executedOf laneProgress lane with
  | none => simp
  | some x =>
    by_cases hx : x = "executed"
    · simp [hx]
    · simp only [Option.all_some, beq_iff_eq, hx, if_false, Option.some.injEq, reduceCtorEq,
        or_self, false_and, iff_false]
      split
      · exact fun h ↦ by cases h
      · exact fun h ↦ by cases h

end

/-- The test graph is always a faithful one of its lanes, and its nodes are completed exactly where
their subtasks are done, if and only if the words of the statuses stand for their tokens. -/
theorem test_graph_faithful_iff (casing : Casing) (rawSubs : List (Option Subtask))
    (laneProgress : Option (Dict String (Option String))) :
    (LaneGraph casing (rawSubs.filterMap id) laneProgress
        ((buildTestGraph casing rawSubs laneProgress).getD []) ∧
      CompletedWhenDone casing (rawSubs.filterMap id) laneProgress
        ((buildTestGraph casing rawSubs laneProgress).getD [])) ↔
      LaneWordsMeanTokens casing (rawSubs.filterMap id) laneProgress := by
  rw [buildTestGraph_eq]
  generalize rawSubs.filterMap id = subs
  have hgraph := laneGraph_graphNodes casing subs laneProgress
  have hstatus : ∀ n ∈ graphNodes casing subs laneProgress, n.status = some .completed ↔
      Ran laneProgress n.id ∧ AllSayCompleted (members casing subs n.id) := by
    intro n hn
    obtain ⟨s, hs, hlane⟩ := (hgraph.lanes n.id).mp (List.mem_map_of_mem hn)
    have hne : members casing subs n.id ≠ [] :=
      List.ne_nil_of_mem (List.mem_filter.mpr ⟨hs, decide_eq_true hlane⟩)
    have hmade := congrArg LaneNode.status (hgraph.made n hn)
    rw [hmade]
    exact status_laneNode casing hne
  constructor
  · rintro ⟨-, hcompleted⟩ s hs hran
    obtain ⟨n, ⟨hn, hid⟩, -⟩ := hgraph.parted s hs
    have hboth := (hstatus n hn).symm.trans (hcompleted n hn)
    rw [hid] at hboth
    exact ⟨fun h ↦ (hboth.mp ⟨hran, h⟩).2, fun h ↦ (hboth.mpr ⟨hran, h⟩).2⟩
  · intro hwords
    refine ⟨hgraph, fun n hn ↦ ?_⟩
    obtain ⟨s, hs, hlane⟩ := (hgraph.lanes n.id).mp (List.mem_map_of_mem hn)
    rw [hstatus n hn]
    refine and_congr_right fun hran ↦ ?_
    have hsame := hwords s hs
    rw [hlane] at hsame
    exact hsame hran

/-- Casing of ASCII text. -/
def asciiCasing : Casing where
  lower := lowerText
  capitalize s :=
    match s.toList with
    | [] => ""
    | c :: cs => String.ofList (c.toUpper :: cs.map lower)
  lower_ne_empty s hs h := by
    apply hs
    have hnil : s.toList.map lower = [] :=
      String.toList_ofList.symm.trans (congrArg String.toList h)
    exact String.toList_eq_nil_iff.mp (List.map_eq_nil_iff.mp hnil)

/-- A subtask that is incomplete completes its lane. -/
theorem incomplete_lane_completed :
    ¬(LaneGraph asciiCasing [{ lane := some "unit", status := some "incomplete" }] none
        ((buildTestGraph asciiCasing
          [some { lane := some "unit", status := some "incomplete" }] none).getD []) ∧
      CompletedWhenDone asciiCasing [{ lane := some "unit", status := some "incomplete" }] none
        ((buildTestGraph asciiCasing
          [some { lane := some "unit", status := some "incomplete" }] none).getD [])) := by
  rintro ⟨-, hcompleted⟩
  have hnodes : (buildTestGraph asciiCasing
      [some { lane := some "unit", status := some "incomplete" }] none).getD [] =
        [laneNode asciiCasing "unit"
          [{ lane := some "unit", status := some "incomplete" }] none] := by decide
  have hdone := hcompleted _ (by rw [hnodes]; exact List.mem_singleton_self _)
  have hall := (hdone.mp (by decide)).2 { lane := some "unit", status := some "incomplete" }
    (by decide)
  exact absurd hall.1 (by decide)

end CFactory.Process
