import CFactory.Base.Levels
import CFactory.Cockpit.TaskFlow

/-!
# The waves of the execution diagram

`apps/frontend-web/src/taskFlow.ts:38–72`. The waves of the nodes that are clear of cycles are the
levels of the dependency graph. A wave that was cut short on a cycle is remembered, but only for a
node that is not clear, and no clear node depends on it.
-/

namespace CFactory.Cockpit.Flow

open CFactory.Base CFactory.Model

/-! ## What the waves should be -/

section
variable (nodes : List FlowNode)

/-- The dependencies of a node on other nodes of the diagram, as they are listed. -/
def validDeps (n : FlowNode) : List String :=
  (n.deps.getD []).filter fun d ↦ decide (d ≠ n.id ∧ d ∈ nodes.map FlowNode.id)

/-- A node whose wave was not supplied depends on another. -/
def DependsOn (a b : String) : Prop :=
  ∃ n ∈ nodes, n.id = a ∧ suppliedWave n = none ∧ b ∈ validDeps nodes n

/-- None of the node's transitive dependencies lies on a cycle; a path stops at a node whose wave
was supplied. -/
def ClearOfCycles (a : String) : Prop :=
  ∀ b, Relation.TransGen (DependsOn nodes) a b → ¬ Relation.TransGen (DependsOn nodes) b b

/-- Every node has a wave. It is the supplied one, or else 0 without a dependency; that of a node
that is clear of cycles is else 1 more than the largest of its dependencies. -/
structure Layered (waves : Dict String Nat) : Prop where
  total : ∀ n ∈ nodes, ∃ w, waves.get? n.id = some w
  supplied : ∀ n ∈ nodes, ∀ w, suppliedWave n = some w → waves.get? n.id = some w
  first : ∀ n ∈ nodes, suppliedWave n = none → validDeps nodes n = [] →
    waves.get? n.id = some 0
  later : ∀ n ∈ nodes, ClearOfCycles nodes n.id → suppliedWave n = none → validDeps nodes n ≠ [] →
    waves.get? n.id = ((validDeps nodes n).map fun d ↦ waves.getD d 0).max?.map (1 + ·)

end

section
variable {nodes : List FlowNode}

theorem mem_validDeps {n : FlowNode} {d : String} :
    d ∈ validDeps nodes n ↔ d ∈ n.deps.getD [] ∧ d ≠ n.id ∧ d ∈ nodes.map FlowNode.id := by
  rw [validDeps, List.mem_filter, decide_eq_true_iff]

/-! ## The map of the nodes -/

theorem get?_mapById {α : Type} (f : FlowNode → α) (nodes : List FlowNode) (k : String) :
    (mapById f nodes).get? k = ((nodes.filter fun n ↦ decide (n.id = k)).getLast?.map f) := by
  rw [mapById, Dict.get?_foldl (p := fun n ↦ decide (n.id = k)) (v := f) (fun d n ↦ ?_)]
  · exact Option.or_none
  · rw [Dict.get?_set]
    by_cases hk : k = n.id
    · rw [if_pos hk, if_pos (decide_eq_true hk.symm)]
    · rw [if_neg hk, if_neg (by simpa using Ne.symm hk)]

/-- A map of the nodes knows their ids. -/
theorem isSome_get?_mapById {α : Type} (f : FlowNode → α) (nodes : List FlowNode) (k : String) :
    ((mapById f nodes).get? k).isSome = decide (k ∈ nodes.map FlowNode.id) := by
  rw [get?_mapById, Option.isSome_map, Bool.eq_iff_iff, List.getLast?_isSome, decide_eq_true_iff,
    List.mem_map, ne_eq, List.filter_eq_nil_iff]
  simp

theorem mem_of_get?_mapById {k : String} {n : FlowNode} (h : (mapById id nodes).get? k = some n) :
    n ∈ nodes ∧ n.id = k := by
  rw [get?_mapById, Option.map_id] at h
  obtain ⟨hn, hk⟩ := List.mem_filter.mp (List.mem_of_getLast? h)
  exact ⟨hn, of_decide_eq_true hk⟩

/-- A map of nodes with distinct ids has each of them. -/
theorem get?_mapById_of_mem {α : Type} (f : FlowNode → α) (hids : (nodes.map FlowNode.id).Nodup)
    {n : FlowNode} (hn : n ∈ nodes) : (mapById f nodes).get? n.id = some (f n) := by
  have hmem : n ∈ nodes.filter fun m ↦ decide (m.id = n.id) :=
    List.mem_filter.mpr ⟨hn, decide_eq_true rfl⟩
  rw [get?_mapById, List.getLast?_eq_some_getLast (List.ne_nil_of_mem hmem), Option.map_some]
  obtain ⟨hlast, hid⟩ := List.mem_filter.mp (List.getLast_mem (List.ne_nil_of_mem hmem))
  rw [List.inj_on_of_nodup_map hids hlast hn (of_decide_eq_true hid)]

end

/-! ## The recursion -/

section
variable (byId : Dict String FlowNode)

/-- The wave that was supplied for an id. -/
def presetWave (id : String) : Option Nat := (byId.get? id).bind suppliedWave

/-- What an id depends on. -/
def nextIds (id : String) : List String := ((byId.get? id).map (knownDeps byId id)).getD []

variable {byId}

/-- What a call of `resolve` does. -/
theorem resolve_cases (byId : Dict String FlowNode) (id : String) (stack : Finset String)
    (wave : Dict String Nat) :
    (∃ w, wave.get? id = some w ∧ resolve byId id stack wave = (w, wave)) ∨
    (byId.get? id = none ∧ resolve byId id stack wave = (0, wave)) ∨
    (∃ w, presetWave byId id = some w ∧ resolve byId id stack wave = (w, wave.set id w)) ∨
    (presetWave byId id = none ∧ (nextIds byId id = [] ∨ id ∈ stack) ∧
      resolve byId id stack wave = (0, wave.set id 0)) ∨
    (∃ node, byId.get? id = some node ∧ presetWave byId id = none ∧
      ¬ (knownDeps byId id node = [] ∨ id ∈ stack) ∧ nextIds byId id = knownDeps byId id node ∧
      ∃ r, resolveDeps byId (nextIds byId id) (insert id stack) 0 wave = r ∧
        resolve byId id stack wave = (r.1, r.2.set id r.1)) := by
  rw [resolve]
  split
  · next w hcached => exact .inl ⟨w, hcached, rfl⟩
  split
  · next hnode => exact .inr (.inl ⟨hnode, rfl⟩)
  · next node hnode =>
    have hpreset : presetWave byId id = suppliedWave node := by
      rw [presetWave, hnode, Option.bind_some]
    have hnext : nextIds byId id = knownDeps byId id node := by
      rw [nextIds, hnode, Option.map_some, Option.getD_some]
    split
    · next w hw => exact .inr (.inr (.inl ⟨w, hpreset.trans hw, rfl⟩))
    · next hw =>
      split
      · next hcut => exact .inr (.inr (.inr (.inl ⟨hpreset.trans hw, hnext ▸ hcut, rfl⟩)))
      · next hcut =>
        exact .inr (.inr (.inr (.inr
          ⟨node, hnode, hpreset.trans hw, hcut, hnext, _, hnext ▸ rfl, rfl⟩)))

/-- A memo of waves that is right about the clear nodes. -/
def WavesKept (byId : Dict String FlowNode) (wave : Dict String Nat) : Prop :=
  LevelsKept (presetWave byId) (nextIds byId) wave.get?

/-- What calls of the recursion do to the memo: it stays right, and forgets no node. -/
structure Kept (byId : Dict String FlowNode) (wave wave' : Dict String Nat) : Prop where
  right : WavesKept byId wave → WavesKept byId wave'
  grows : ∀ k, (wave.get? k).isSome = true → (wave'.get? k).isSome = true

theorem Kept.refl (wave : Dict String Nat) : Kept byId wave wave := ⟨fun h ↦ h, fun _ h ↦ h⟩

theorem Kept.trans {a b c : Dict String Nat} (hab : Kept byId a b) (hbc : Kept byId b c) :
    Kept byId a c :=
  ⟨fun h ↦ hbc.right (hab.right h), fun k hk ↦ hbc.grows k (hab.grows k hk)⟩

/-- A wave is remembered; it need be right only for a clear node. -/
theorem Kept.set {wave wave' : Dict String Nat} {id : String} {w : Nat} (h : Kept byId wave wave')
    (hid : WavesKept byId wave → Clear (presetWave byId) (nextIds byId) id →
      Level (presetWave byId) (nextIds byId) id w) :
    Kept byId wave (wave'.set id w) := by
  have hget : (wave'.set id w).get? = fun x ↦ if x = id then some w else wave'.get? x :=
    funext fun x ↦ Dict.get?_set wave' id x w
  refine ⟨fun hwave ↦ ?_, fun k hk ↦ ?_⟩
  · rw [WavesKept, hget]
    exact (h.right hwave).set (hid hwave)
  · rw [hget]
    dsimp only
    split
    · rfl
    · exact h.grows k hk

/-- What a call gives for a node that its path leads to: the memo is kept and knows the node, and
what is returned for a clear node is its level. -/
structure Sound (byId : Dict String FlowNode) (id : String) (wave : Dict String Nat)
    (r : Nat × Dict String Nat) : Prop where
  kept : Kept byId wave r.2
  known : (byId.get? id).isSome = true → (r.2.get? id).isSome = true
  level : WavesKept byId wave → Clear (presetWave byId) (nextIds byId) id →
    Level (presetWave byId) (nextIds byId) id r.1

/-- The loop keeps the memo, and over clear nodes it gives what is above their levels. -/
theorem resolveDeps_sound {stack : Finset String}
    (hcall : ∀ id wave, LeadTo (presetWave byId) (nextIds byId) stack id →
      Sound byId id wave (resolve byId id stack wave)) (deps : List String) :
    ∀ w wave, (∀ d ∈ deps, LeadTo (presetWave byId) (nextIds byId) stack d) →
      Kept byId wave (resolveDeps byId deps stack w wave).2 ∧
      (WavesKept byId wave → (∀ d ∈ deps, Clear (presetWave byId) (nextIds byId) d) →
        (∀ d ∈ deps, ∃ n, Level (presetWave byId) (nextIds byId) d n) ∧
        ∀ level : String → Nat,
          (∀ d ∈ deps, Level (presetWave byId) (nextIds byId) d (level d)) →
          (resolveDeps byId deps stack w wave).1 = max w (above (deps.map level))) := by
  induction deps with
  | nil =>
    intro w wave _
    rw [resolveDeps]
    refine ⟨.refl wave, fun _ _ ↦ ⟨fun d hd ↦ absurd hd List.not_mem_nil, fun _ _ ↦ ?_⟩⟩
    exact (Nat.max_zero w).symm
  | cons d rest ih =>
    intro w wave hpath
    have hd := hcall d wave (hpath d List.mem_cons_self)
    obtain ⟨hkept, hlevels⟩ := ih (max w ((resolve byId d stack wave).1 + 1))
      (resolve byId d stack wave).2 fun x hx ↦ hpath x (List.mem_cons_of_mem d hx)
    rw [resolveDeps]
    refine ⟨hd.kept.trans hkept, fun hwave hclear ↦ ?_⟩
    have hfirst := hd.level hwave (hclear d List.mem_cons_self)
    obtain ⟨hrest, hmax⟩ := hlevels (hd.kept.right hwave)
      fun x hx ↦ hclear x (List.mem_cons_of_mem d hx)
    refine ⟨fun x hx ↦ ?_, fun level hlevel ↦ ?_⟩
    · rcases List.mem_cons.mp hx with rfl | hx
      · exact ⟨_, hfirst⟩
      · exact hrest x hx
    · rw [hmax level fun x hx ↦ hlevel x (List.mem_cons_of_mem d hx),
        level_unique hfirst (hlevel d List.mem_cons_self), List.map_cons, above, Nat.max_assoc]

private theorem isSome_get?_set {wave : Dict String Nat} {id : String} {w : Nat} :
    ((wave.set id w).get? id).isSome = true := by
  rw [Dict.get?_set, if_pos rfl, Option.isSome_some]

/-- Every call of the recursion is sound. The induction is on the nodes that are off the path. -/
theorem resolve_sound (byId : Dict String FlowNode) (stack : Finset String) (id : String)
    (wave : Dict String Nat) (hpath : LeadTo (presetWave byId) (nextIds byId) stack id) :
    Sound byId id wave (resolve byId id stack wave) := by
  induction hk : (byId.keys.toFinset \ stack).card using Nat.strong_induction_on
    generalizing stack id wave with
  | _ k ih =>
  rcases resolve_cases byId id stack wave with ⟨w, hcached, heq⟩ | ⟨hnode, heq⟩ |
    ⟨w, hpreset, heq⟩ | ⟨hpreset, hcut, heq⟩ | ⟨node, hnode, hpreset, hcut, hnext, r, hr, heq⟩
  · rw [heq]
    exact ⟨.refl wave, fun _ ↦ by rw [hcached, Option.isSome_some],
      fun hwave hclear ↦ hwave id w hclear hcached⟩
  · rw [heq]
    refine ⟨.refl wave, fun hknown ↦ ?_, fun _ _ ↦ ?_⟩
    · rw [hnode] at hknown
      cases hknown
    · exact level_zero (by rw [presetWave, hnode, Option.bind_none])
        (by rw [nextIds, hnode, Option.map_none, Option.getD_none])
  · rw [heq]
    have hlevel : Level (presetWave byId) (nextIds byId) id w := .preset hpreset
    exact ⟨(Kept.refl wave).set fun _ _ ↦ hlevel, fun _ ↦ isSome_get?_set, fun _ _ ↦ hlevel⟩
  · -- A node that is on the path to itself is not clear, so its wave may be cut short.
    rw [heq]
    have hlevel : Clear (presetWave byId) (nextIds byId) id →
        Level (presetWave byId) (nextIds byId) id 0 := by
      intro hclear
      rcases hcut with hnil | hstack
      · exact level_zero hpreset hnil
      · exact absurd hstack (hclear.not_mem hpath)
    exact ⟨(Kept.refl wave).set fun _ ↦ hlevel, fun _ ↦ isSome_get?_set, fun _ ↦ hlevel⟩
  · rw [heq]
    have hfollows : ∀ d ∈ nextIds byId id, Follows (presetWave byId) (nextIds byId) id d :=
      fun d hd ↦ ⟨hpreset, hd⟩
    obtain ⟨hkept, hlevels⟩ := resolveDeps_sound
      (fun d wave hd ↦ ih _ (hk ▸ offPath_lt byId hnode hcut) (insert id stack) d wave hd rfl)
      (nextIds byId id) 0 wave fun d hd ↦ by
        rw [Finset.coe_insert]
        exact hpath.insert (hfollows d hd)
    rw [hr] at hkept hlevels
    have hlevel : WavesKept byId wave → Clear (presetWave byId) (nextIds byId) id →
        Level (presetWave byId) (nextIds byId) id r.1 := by
      intro hwave hclear
      obtain ⟨hexists, hmax⟩ := hlevels hwave fun d hd ↦ hclear.of_follows (hfollows d hd)
      obtain ⟨level, hlevel⟩ : ∃ level : String → Nat, ∀ d ∈ nextIds byId id,
          Level (presetWave byId) (nextIds byId) d (level d) := by
        choose! level hlevel using hexists
        exact ⟨level, hlevel⟩
      rw [hmax level hlevel, Nat.zero_max]
      exact .next level hpreset hlevel
    exact ⟨hkept.set hlevel, fun _ ↦ isSome_get?_set, hlevel⟩

/-- From an empty memo the nodes are resolved in turn. -/
theorem assignWaves_kept (nodes : List FlowNode) :
    WavesKept (mapById id nodes) (assignWaves nodes) ∧
      ∀ n ∈ nodes, ((assignWaves nodes).get? n.id).isSome = true := by
  have hrun : ∀ ns : List FlowNode, (∀ n ∈ ns, n ∈ nodes) → ∀ wave,
      Kept (mapById id nodes) wave
        (ns.foldl (fun wave n ↦ (resolve (mapById id nodes) n.id ∅ wave).2) wave) ∧
      ∀ n ∈ ns, ((ns.foldl (fun wave n ↦ (resolve (mapById id nodes) n.id ∅ wave).2) wave).get?
        n.id).isSome = true := by
    intro ns
    induction ns with
    | nil => exact fun _ wave ↦ ⟨.refl wave, fun n hn ↦ absurd hn List.not_mem_nil⟩
    | cons n rest ih =>
      intro hns wave
      have hcall := resolve_sound (mapById id nodes) ∅ n.id wave
        (by rw [Finset.coe_empty]; exact leadTo_empty n.id)
      obtain ⟨hkept, hknown⟩ := ih (fun m hm ↦ hns m (List.mem_cons_of_mem n hm))
        (resolve (mapById id nodes) n.id ∅ wave).2
      rw [List.foldl_cons]
      refine ⟨hcall.kept.trans hkept, fun m hm ↦ ?_⟩
      rcases List.mem_cons.mp hm with rfl | hm
      · refine hkept.grows _ (hcall.known ?_)
        rw [isSome_get?_mapById, decide_eq_true_iff]
        exact List.mem_map_of_mem (hns m List.mem_cons_self)
      · exact hknown m hm
  obtain ⟨hkept, hknown⟩ := hrun nodes (fun _ hn ↦ hn) .empty
  exact ⟨hkept.right levelsKept_empty, hknown⟩

end

/-! ## The waves of a diagram -/

section
variable {nodes : List FlowNode} (hids : (nodes.map FlowNode.id).Nodup)
include hids

theorem presetWave_eq {n : FlowNode} (hn : n ∈ nodes) :
    presetWave (mapById id nodes) n.id = suppliedWave n := by
  rw [presetWave, get?_mapById_of_mem id hids hn, Option.bind_some]
  rfl

theorem nextIds_eq {n : FlowNode} (hn : n ∈ nodes) :
    nextIds (mapById id nodes) n.id = validDeps nodes n := by
  rw [nextIds, get?_mapById_of_mem id hids hn, Option.map_some, Option.getD_some, knownDeps,
    validDeps]
  simp only [isSome_get?_mapById, id, Bool.decide_and]

/-- The dependencies are what the recursion follows. -/
theorem follows_iff {a b : String} :
    Follows (presetWave (mapById id nodes)) (nextIds (mapById id nodes)) a b ↔
      DependsOn nodes a b := by
  constructor
  · rintro ⟨hpreset, hb⟩
    cases hnode : (mapById id nodes).get? a with
    | none =>
      rw [nextIds, hnode] at hb
      cases hb
    | some n =>
      obtain ⟨hn, rfl⟩ := mem_of_get?_mapById hnode
      rw [presetWave_eq hids hn] at hpreset
      rw [nextIds_eq hids hn] at hb
      exact ⟨n, hn, rfl, hpreset, hb⟩
  · rintro ⟨n, hn, rfl, hpreset, hb⟩
    exact ⟨(presetWave_eq hids hn).trans hpreset, (nextIds_eq hids hn).symm ▸ hb⟩

theorem clear_iff {a : String} :
    Clear (presetWave (mapById id nodes)) (nextIds (mapById id nodes)) a ↔
      ClearOfCycles nodes a := by
  have hsame : Follows (presetWave (mapById id nodes)) (nextIds (mapById id nodes)) =
      DependsOn nodes :=
    funext fun a ↦ funext fun b ↦ propext (follows_iff hids)
  rw [Clear, ClearOfCycles, hsame]

/-- A clear node has its level for its wave. -/
theorem wave_of_clear {n : FlowNode} (hn : n ∈ nodes) (hclear : ClearOfCycles nodes n.id) :
    ∃ w, (assignWaves nodes).get? n.id = some w ∧
      Level (presetWave (mapById id nodes)) (nextIds (mapById id nodes)) n.id w := by
  obtain ⟨hkept, hknown⟩ := assignWaves_kept nodes
  obtain ⟨w, hw⟩ := Option.isSome_iff_exists.mp (hknown n hn)
  exact ⟨w, hw, hkept n.id w ((clear_iff hids).mpr hclear) hw⟩

/-- A node that nothing is followed from is clear. -/
theorem clear_of_stop {n : FlowNode} (hn : n ∈ nodes)
    (hstop : suppliedWave n = none → validDeps nodes n = []) : ClearOfCycles nodes n.id := by
  intro b hb
  obtain ⟨c, ⟨m, hm, hid, hnone, hc⟩, -⟩ := Relation.TransGen.head'_iff.mp hb
  rw [List.inj_on_of_nodup_map hids hm hn hid] at hnone hc
  rw [hstop hnone] at hc
  cases hc

theorem layered_assignWaves : Layered nodes (assignWaves nodes) where
  total n hn := Option.isSome_iff_exists.mp ((assignWaves_kept nodes).2 n hn)
  supplied n hn w hw := by
    obtain ⟨w', hget, hlevel⟩ :=
      wave_of_clear hids hn (clear_of_stop hids hn fun hnone ↦ by cases hnone.symm.trans hw)
    rw [hget, level_unique hlevel (.preset ((presetWave_eq hids hn).trans hw))]
  first n hn hnone hdeps := by
    obtain ⟨w', hget, hlevel⟩ := wave_of_clear hids hn (clear_of_stop hids hn fun _ ↦ hdeps)
    rw [hget, level_unique hlevel (level_zero ((presetWave_eq hids hn).trans hnone)
      ((nextIds_eq hids hn).trans hdeps))]
  later n hn hclear hnone hdeps := by
    obtain ⟨w, hget, hlevel⟩ := wave_of_clear hids hn hclear
    obtain ⟨level, hlevels, rfl⟩ := hlevel.exists_next ((presetWave_eq hids hn).trans hnone)
    rw [nextIds_eq hids hn] at hlevels hget
    have hsame : ∀ d ∈ validDeps nodes n, (assignWaves nodes).getD d 0 = level d := by
      intro d hd
      obtain ⟨m, hm, rfl⟩ := List.mem_map.mp (mem_validDeps.mp hd).2.2
      have hclear' : ClearOfCycles nodes m.id :=
        fun b hb ↦ hclear b (.head ⟨n, hn, rfl, hnone, hd⟩ hb)
      obtain ⟨w, hw, hlevel⟩ := wave_of_clear hids hm hclear'
      rw [Dict.getD, hw, Option.getD_some, level_unique hlevel (hlevels m.id hd)]
    rw [hget, above_eq_max, List.map_congr_left hsame]
    cases hmax : ((validDeps nodes n).map level).max? with
    | none => exact absurd (List.map_eq_nil_iff.mp (List.max?_eq_none_iff.mp hmax)) hdeps
    | some m => rfl

/-- The waves of the clear nodes do not depend on the order of the nodes. -/
theorem assignWaves_perm {nodes' : List FlowNode} (hperm : nodes'.Perm nodes) {n : FlowNode}
    (hn : n ∈ nodes) (hclear : ClearOfCycles nodes n.id) :
    (assignWaves nodes').get? n.id = (assignWaves nodes).get? n.id := by
  have hids' : (nodes'.map FlowNode.id).Nodup := (hperm.map FlowNode.id).nodup_iff.mpr hids
  have hget : (mapById id nodes').get? = (mapById id nodes).get? := by
    funext k
    by_cases hk : k ∈ nodes.map FlowNode.id
    · obtain ⟨m, hm, rfl⟩ := List.mem_map.mp hk
      rw [get?_mapById_of_mem id hids hm, get?_mapById_of_mem id hids' (hperm.mem_iff.mpr hm)]
    · have hk' : k ∉ nodes'.map FlowNode.id := fun h ↦ hk ((hperm.map FlowNode.id).mem_iff.mp h)
      rw [← decide_eq_false_iff_not, ← isSome_get?_mapById id, Option.isSome_eq_false_iff,
        Option.isNone_iff_eq_none] at hk hk'
      rw [hk, hk']
  have hpreset : presetWave (mapById id nodes') = presetWave (mapById id nodes) := by
    funext k
    rw [presetWave, presetWave, hget]
  have hnext : nextIds (mapById id nodes') = nextIds (mapById id nodes) := by
    funext k
    rw [nextIds, nextIds, hget]
    unfold knownDeps
    rw [hget]
  have hclear' : ClearOfCycles nodes' n.id := by
    rw [← clear_iff hids', hpreset, hnext, clear_iff hids]
    exact hclear
  obtain ⟨w, hw, hlevel⟩ := wave_of_clear hids hn hclear
  obtain ⟨w', hw', hlevel'⟩ := wave_of_clear hids' (hperm.mem_iff.mpr hn) hclear'
  rw [hpreset, hnext] at hlevel'
  rw [hw, hw', level_unique hlevel hlevel']

end

end CFactory.Cockpit.Flow
