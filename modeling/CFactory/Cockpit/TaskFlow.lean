import CFactory.Base.Grouping
import CFactory.Cockpit.TaskState
import CFactory.Model.Types
import Mathlib.Data.Finset.Basic
import Mathlib.Data.Finset.Card
import Mathlib.Data.Rat.Defs

/-!
# The execution diagram

`apps/frontend-web/src/taskFlow.ts:1–165`. A node's status is told by patterns and its column by its
dependencies, found by a recursion that remembers the waves it has found and stops at a node that is
already on its path. The layout stacks the nodes of a wave in a column. Numbers are exact, and a
supplied wave is an integer.
-/

namespace CFactory.Cockpit.Flow

open CFactory.Base CFactory.Cockpit CFactory.Model

/-- `FlowNode`; `api.ts:1148–1164`. -/
structure FlowNode where
  id : String
  status : Option String := none
  startedAt : Option String := none
  completedAt : Option String := none
  deps : Option (List String) := none
  wave : Option Int := none
  deriving DecidableEq, Repr

/-- `ProcessGraph`; `api.ts:1166–1178`. -/
structure ProcessGraph where
  nodes : Option (List FlowNode)

/-! ## Statuses -/

/-- `FlowStatus`; `taskFlow.ts:13`. -/
inductive FlowStatus where
  | pending
  | active
  | done
  | failed
  | stalled
  deriving DecidableEq, Repr

/-- `STALLED`; `taskFlow.ts:15`. -/
def STALLED : Pattern Char :=
  .anyOf
    [.seq (literal "stalle") (.optional (literal "d")), literal "stuck", literal "wedged",
      literal "stale",
      .seq (literal "time") (.seq (.optional (literal "d"))
        (.seq (.optional (.oneOf bars)) (literal "out"))),
      literal "timeout"]

/-- `FAILED`; `taskFlow.ts:16`. -/
def FAILED : Pattern Char :=
  .anyOf (["fail", "reject", "error", "abort", "cancel", "block", "discard"].map literal)

/-- `DONE`; `taskFlow.ts:17–18`. -/
def DONE : Pattern Char :=
  .bounded bars (.anyOf (["done", "complete", "completed", "passed", "merged", "approved",
    "succeeded", "success", "shipped", "emitted", "closed", "accepted"].map literal))

/-- `ACTIVE`; `taskFlow.ts:19`. -/
def ACTIVE : Pattern Char :=
  .anyOf (joined "in" "progress" :: ["running", "executing", "working", "active", "coding",
    "planning", "generating", "building"].map literal)

/-- `flowStatus`; `taskFlow.ts:27–36`. -/
def flowStatus (node : FlowNode) : FlowStatus :=
  let s := cockpitText (node.status.getD "")
  if STALLED.test s then .stalled
  else if FAILED.test s then .failed
  else if DONE.test s then .done
  else if ACTIVE.test s then .active
  else if truthy node.startedAt && !truthy node.completedAt then .active
  else .pending

/-! ## Waves -/

/-- `new Map(nodes.map((n) => [n.id, f(n)]))`. -/
def mapById {α : Type} (f : FlowNode → α) (nodes : List FlowNode) : Dict String α :=
  nodes.foldl (fun d n ↦ d.set n.id (f n)) .empty

/-- The wave that a producer supplied; `taskFlow.ts:53`. -/
def suppliedWave (node : FlowNode) : Option Nat := node.wave.bind Int.toNat?

section
variable (byId : Dict String FlowNode)

/-- The dependencies on other known nodes; `taskFlow.ts:57`. -/
def knownDeps (id : String) (node : FlowNode) : List String :=
  (node.deps.getD []).filter fun d ↦ decide (d ≠ id) && (byId.get? d).isSome

/-- A known node that is put on the path leaves fewer off it. -/
theorem offPath_lt {id : String} {node : FlowNode} {stack : Finset String}
    (hnode : byId.get? id = some node) (hcut : ¬ (knownDeps byId id node = [] ∨ id ∈ stack)) :
    (byId.keys.toFinset \ insert id stack).card < (byId.keys.toFinset \ stack).card := by
  have hknown : id ∈ byId.keys.toFinset \ stack := by
    rw [Finset.mem_sdiff, List.mem_toFinset, Dict.mem_keys_iff]
    exact ⟨⟨node, hnode⟩, fun hstack ↦ hcut (.inr hstack)⟩
  rw [Finset.sdiff_insert]
  exact Finset.card_erase_lt_of_mem hknown

mutual

/-- `resolve`; `taskFlow.ts:48–68`. A call puts its node on the path of the calls it makes. -/
def resolve (id : String) (stack : Finset String) (wave : Dict String Nat) :
    Nat × Dict String Nat :=
  match wave.get? id with
  | some cached => (cached, wave)
  | none =>
    match _ : byId.get? id with
    | none => (0, wave)
    | some node =>
      match suppliedWave node with
      | some w => (w, wave.set id w)
      | none =>
        if _ : knownDeps byId id node = [] ∨ id ∈ stack then (0, wave.set id 0)
        else
          let r := resolveDeps (knownDeps byId id node) (insert id stack) 0 wave
          (r.1, r.2.set id r.1)
termination_by ((byId.keys.toFinset \ stack).card, 0)
decreasing_by exact Prod.Lex.left _ _ (offPath_lt byId ‹_› ‹_›)

/-- The loop over the dependencies; `taskFlow.ts:64`. -/
def resolveDeps (deps : List String) (stack : Finset String) (w : Nat) (wave : Dict String Nat) :
    Nat × Dict String Nat :=
  match deps with
  | [] => (w, wave)
  | d :: rest =>
    let r := resolve d stack wave
    resolveDeps rest stack (max w (r.1 + 1)) r.2
termination_by ((byId.keys.toFinset \ stack).card, deps.length + 1)

end

end

/-- `assignWaves`; `taskFlow.ts:44–72`. -/
def assignWaves (nodes : List FlowNode) : Dict String Nat :=
  nodes.foldl (fun wave n ↦ (resolve (mapById id nodes) n.id ∅ wave).2) .empty

/-! ## Layout -/

/-- `NODE_W`; `taskFlow.ts:76`. -/
def NODE_W : Nat := 158

/-- `NODE_H`; `taskFlow.ts:77`. -/
def NODE_H : Nat := 52

/-- `COL_GAP`; `taskFlow.ts:78`. -/
def COL_GAP : Nat := 64

/-- `ROW_GAP`; `taskFlow.ts:79`. -/
def ROW_GAP : Nat := 18

/-- `PAD`; `taskFlow.ts:80`. -/
def PAD : Nat := 14

/-- `PlacedNode`; `taskFlow.ts:82–88`. -/
structure PlacedNode where
  node : FlowNode
  status : FlowStatus
  x : Nat
  y : Rat
  wave : Nat

/-- `FlowEdge`; `taskFlow.ts:90–98`. -/
structure FlowEdge where
  fromId : String
  toId : String
  next : Bool
  status : FlowStatus

/-- `FlowLayout`; `taskFlow.ts:100–105`. -/
structure FlowLayout where
  placed : List PlacedNode
  edges : List FlowEdge
  width : Nat
  height : Nat

/-- The height of some stacked nodes; `taskFlow.ts:127,132`. -/
def stackHeight (count : Nat) : Nat := count * NODE_H + (count - 1) * ROW_GAP

/-- A node in its place in a column; `taskFlow.ts:134–142`. -/
def placeNode (statusById : Dict String FlowStatus) (w : Nat) (y0 : Rat) (i : Nat)
    (node : FlowNode) : PlacedNode :=
  { node
    status := statusById.getD node.id .pending
    x := PAD + w * (NODE_W + COL_GAP)
    y := y0 + i * (NODE_H + ROW_GAP)
    wave := w }

/-- The edge from a dependency to a node; `taskFlow.ts:150–155`. -/
def flowEdge (statusById : Dict String FlowStatus) (n : FlowNode) (dep : String) : FlowEdge :=
  let source := statusById.getD dep .pending
  let target := statusById.getD n.id .pending
  let next := decide (source = .done ∧ target ≠ .done ∧ target ≠ .failed)
  { fromId := dep
    toId := n.id
    next
    status :=
      if target = .failed ∨ target = .stalled then target else if next then .active else source }

/-- `layoutGraph`; `taskFlow.ts:112–165`. -/
def layoutGraph (graph : ProcessGraph) : FlowLayout :=
  let nodes := graph.nodes.getD []
  let waves := assignWaves nodes
  let statusById := mapById flowStatus nodes
  let cols := Dict.groupBy (fun n ↦ waves.getD n.id 0) nodes
  let maxWave := nodes.foldl (fun m n ↦ max m (waves.getD n.id 0)) 0
  let tallest := (cols.values.map List.length).foldl max 1
  let colH := stackHeight tallest
  { placed := (List.range (maxWave + 1)).flatMap fun w ↦
      let col := cols.getD w []
      let y0 := PAD + ((colH : Rat) - stackHeight col.length) / 2
      col.mapIdx (placeNode statusById w y0)
    edges := nodes.flatMap fun n ↦
      ((n.deps.getD []).filter fun dep ↦
        ((mapById id nodes).get? dep).isSome && decide (dep ≠ n.id)).map (flowEdge statusById n)
    width := PAD * 2 + (maxWave + 1) * NODE_W + maxWave * COL_GAP
    height := PAD * 2 + colH }

end CFactory.Cockpit.Flow
