import CFactory.Base.Extremes
import CFactory.Cockpit.Waves

/-!
# The layout of the execution diagram

`apps/frontend-web/src/taskFlow.ts:107–165`. The columns run up to the largest wave, so that none is
left out, and a node is in the one column that its wave names. An edge is drawn for each listed
dependency on another node of the diagram, however often it is listed.
-/

namespace CFactory.Cockpit.Flow

open CFactory.Base

/-- Every node is placed once, in the column of its wave, and each listed dependency has an edge. -/
structure LaidOut (nodes : List FlowNode) (waves : Dict String Nat) (layout : FlowLayout) :
    Prop where
  once : (layout.placed.map PlacedNode.node).Perm nodes
  column : ∀ p ∈ layout.placed, waves.get? p.node.id = some p.wave ∧
    p.x = PAD + p.wave * (NODE_W + COL_GAP)
  edges : layout.edges.map (fun e ↦ (e.fromId, e.toId)) =
    nodes.flatMap fun n ↦ (validDeps nodes n).map fun d ↦ (d, n.id)

/-- No wave is larger than the largest. -/
theorem wave_le (wave : FlowNode → Nat) {nodes : List FlowNode} {n : FlowNode} (hn : n ∈ nodes) :
    wave n ≤ nodes.foldl (fun m n ↦ max m (wave n)) 0 := by
  rw [← List.foldl_map (f := wave) (g := max), le_foldl_max]
  exact .inr ⟨wave n, List.mem_map_of_mem hn, Nat.le_refl _⟩

/-- Placing a column keeps its nodes in their order. -/
theorem map_node_placeNode (statusById : Dict String FlowStatus) (w : Nat) (y0 : Rat)
    (col : List FlowNode) : (col.mapIdx (placeNode statusById w y0)).map PlacedNode.node = col := by
  rw [List.mapIdx_eq_zipIdx_map, List.map_map]
  exact List.zipIdx_map_fst 0 col

/-- A placed node of a column. -/
theorem mem_mapIdx_placeNode {statusById : Dict String FlowStatus} {w : Nat} {y0 : Rat}
    {col : List FlowNode} {p : PlacedNode} (h : p ∈ col.mapIdx (placeNode statusById w y0)) :
    p.node ∈ col ∧ p.wave = w ∧ p.x = PAD + w * (NODE_W + COL_GAP) := by
  obtain ⟨i, hi, rfl⟩ := List.mem_mapIdx.mp h
  exact ⟨List.getElem_mem hi, rfl, rfl⟩

/-- The columns cover the nodes, and the edges are those of the dependencies. -/
theorem laidOut_layoutGraph (graph : ProcessGraph)
    (hids : ((graph.nodes.getD []).map FlowNode.id).Nodup) :
    LaidOut (graph.nodes.getD []) (assignWaves (graph.nodes.getD [])) (layoutGraph graph) := by
  rw [layoutGraph]
  generalize graph.nodes.getD [] = nodes at hids ⊢
  have hwave : ∀ n ∈ nodes, (assignWaves nodes).getD n.id 0 ≤
      nodes.foldl (fun m n ↦ max m ((assignWaves nodes).getD n.id 0)) 0 :=
    fun n hn ↦ wave_le (fun n ↦ (assignWaves nodes).getD n.id 0) hn
  refine { once := ?_, column := fun p hp ↦ ?_, edges := ?_ }
  · dsimp only
    simp only [List.map_flatMap, map_node_placeNode, Dict.getD_groupBy]
    refine (Dict.perm_groups _ _ _).trans ?_
    rw [List.filter_eq_self.mpr fun n hn ↦ decide_eq_true (Nat.lt_succ_of_le (hwave n hn))]
  · obtain ⟨w, -, hpw⟩ := List.mem_flatMap.mp hp
    obtain ⟨hcol, hw, hx⟩ := mem_mapIdx_placeNode hpw
    rw [Dict.getD_groupBy] at hcol
    obtain ⟨hn, hnode⟩ := List.mem_filter.mp hcol
    obtain ⟨v, hv⟩ := (layered_assignWaves hids).total p.node hn
    have hvw : v = w := by
      rw [← of_decide_eq_true hnode, Dict.getD, hv, Option.getD_some]
    rw [hw, hv, hvw]
    exact ⟨rfl, hx⟩
  · dsimp only
    rw [List.map_flatMap]
    refine List.flatMap_congr fun n _ ↦ ?_
    rw [List.map_map, validDeps]
    congr 1
    refine List.filter_congr fun d _ ↦ ?_
    rw [isSome_get?_mapById, ← Bool.decide_and, decide_eq_decide, and_comm]

/-- The diagram of any graph is laid out by its dependencies, and in the same waves in any order of
its nodes. -/
theorem diagram_laid_out (graph : ProcessGraph)
    (hids : ((graph.nodes.getD []).map FlowNode.id).Nodup) :
    Layered (graph.nodes.getD []) (assignWaves (graph.nodes.getD [])) ∧
      (∀ nodes', nodes'.Perm (graph.nodes.getD []) → ∀ n ∈ graph.nodes.getD [],
        ClearOfCycles (graph.nodes.getD []) n.id →
          (assignWaves nodes').get? n.id = (assignWaves (graph.nodes.getD [])).get? n.id) ∧
      LaidOut (graph.nodes.getD []) (assignWaves (graph.nodes.getD [])) (layoutGraph graph) :=
  ⟨layered_assignWaves hids, fun _ hperm _ hn hclear ↦ assignWaves_perm hids hperm hn hclear,
    laidOut_layoutGraph graph hids⟩

/-- A diagram with a cycle, a repeated dependency, an unknown one and a supplied wave. -/
def cyclicGraph : ProcessGraph where
  nodes := some
    [{ id := "x", deps := some ["y", "x"] },
      { id := "y", deps := some ["x"] },
      { id := "a" },
      { id := "b", deps := some ["a", "a", "z"] },
      { id := "c", deps := some ["y"], wave := some 4 }]

/-- It is laid out beside its cycle. -/
theorem cyclicGraph_laid_out :
    (assignWaves (cyclicGraph.nodes.getD [])).get? "a" = some 0 ∧
      (assignWaves (cyclicGraph.nodes.getD [])).get? "c" = some 4 ∧
      (layoutGraph cyclicGraph).edges.map (fun e ↦ (e.fromId, e.toId)) =
        [("y", "x"), ("x", "y"), ("a", "b"), ("a", "b"), ("y", "c")] := by
  obtain ⟨hlayered, -, hlaid⟩ := diagram_laid_out cyclicGraph (by decide)
  refine ⟨hlayered.first { id := "a" } (by decide) rfl rfl, ?_, hlaid.edges.trans (by decide)⟩
  exact hlayered.supplied { id := "c", deps := some ["y"], wave := some 4 } (by decide) 4 rfl

end CFactory.Cockpit.Flow
