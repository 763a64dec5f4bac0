import Mathlib.Data.List.MinMax
import Mathlib.Data.Set.Insert
import Mathlib.Logic.Relation

/-!
# Levels of a graph

Each node of a graph has the level that is preset for it, or else the least one above the levels of
the nodes next to it. A node from which a cycle is reached may have none; one that is clear of
cycles has no other. What a search on the way along a path may remember is stated for the clear
nodes alone. Nothing here names an application.
-/

namespace CFactory.Base

universe u

/-- The least number above all of a list. -/
def above : List Nat → Nat
  | [] => 0
  | n :: ns => max (n + 1) (above ns)

theorem above_eq_max (ns : List Nat) : above ns = ns.max?.elim 0 (1 + ·) := by
  induction ns with
  | nil => rfl
  | cons n ns ih =>
    rw [above, ih, List.max?_cons]
    cases ns.max? with
    | none => simp [Nat.add_comm]
    | some m =>
      simp only [Option.elim_some]
      omega

section
variable {V : Type u} (preset : V → Option Nat) (next : V → List V)

/-- A level of a node. -/
inductive Level : V → Nat → Prop
  | preset {v : V} {n : Nat} (h : preset v = some n) : Level v n
  | next {v : V} (level : V → Nat) (hpreset : preset v = none)
    (h : ∀ w ∈ next v, Level w (level w)) : Level v (above ((next v).map level))

/-- A node is followed by those next to it, unless its level is preset. -/
def Follows (v w : V) : Prop := preset v = none ∧ w ∈ next v

/-- No node that is reached from this one lies on a cycle. -/
def Clear (v : V) : Prop :=
  ∀ w, Relation.TransGen (Follows preset next) v w → ¬ Relation.TransGen (Follows preset next) w w

/-- Each node of a path leads to the next. -/
def LeadTo (path : Set V) (v : V) : Prop :=
  ∀ u ∈ path, Relation.TransGen (Follows preset next) u v

/-- What is remembered of clear nodes is their level. -/
def LevelsKept (memo : V → Option Nat) : Prop :=
  ∀ v n, Clear preset next v → memo v = some n → Level preset next v n

end

section
variable {V : Type u} {preset : V → Option Nat} {next : V → List V}

/-- A node has one level. -/
theorem level_unique {v : V} {m n : Nat} (hm : Level preset next v m)
    (hn : Level preset next v n) : m = n := by
  induction hm generalizing n with
  | preset hpreset =>
    cases hn with
    | preset hpreset' => exact Option.some.inj (hpreset.symm.trans hpreset')
    | next level hnone h => cases hpreset.symm.trans hnone
  | next level hnone h ih =>
    cases hn with
    | preset hpreset => cases hpreset.symm.trans hnone
    | next level' hnone' h' =>
      rw [List.map_congr_left fun w hw ↦ ih w hw (h' w hw)]

/-- The level of a node that nothing is next to. -/
theorem level_zero {v : V} (hpreset : preset v = none) (hnext : next v = []) :
    Level preset next v 0 := by
  have h : Level preset next v (above ((next v).map fun _ ↦ 0)) :=
    .next (fun _ ↦ 0) hpreset fun w hw ↦ by
      rw [hnext] at hw
      cases hw
  rwa [hnext] at h

/-- What is next to a node that has a level has levels, and they give that of the node. -/
theorem Level.exists_next {v : V} {n : Nat} (h : Level preset next v n) (hnone : preset v = none) :
    ∃ level : V → Nat, (∀ w ∈ next v, Level preset next w (level w)) ∧
      n = above ((next v).map level) := by
  cases h with
  | preset hpreset => cases hpreset.symm.trans hnone
  | next level hnone h => exact ⟨level, h, rfl⟩

/-- What follows a clear node is clear. -/
theorem Clear.of_follows {v w : V} (h : Clear preset next v) (hvw : Follows preset next v w) :
    Clear preset next w :=
  fun x hx ↦ h x (.head hvw hx)

/-- No path that leads to a clear node comes from it. -/
theorem Clear.not_mem {path : Set V} {v : V} (h : Clear preset next v)
    (hpath : LeadTo preset next path v) : v ∉ path :=
  fun hv ↦ h v (hpath v hv) (hpath v hv)

theorem leadTo_empty (v : V) : LeadTo preset next ∅ v := fun _ hu ↦ absurd hu (Set.notMem_empty _)

/-- A path is continued by what follows its end. -/
theorem LeadTo.insert {path : Set V} {v w : V} (h : LeadTo preset next path v)
    (hvw : Follows preset next v w) : LeadTo preset next (insert v path) w := by
  intro u hu
  rcases hu with rfl | hu
  · exact .single hvw
  · exact .tail (h u hu) hvw

theorem levelsKept_empty : LevelsKept preset next fun _ ↦ none :=
  fun _ _ _ h ↦ by cases h

/-- One more node is remembered; it need have its level only where it is clear. -/
theorem LevelsKept.set [DecidableEq V] {memo : V → Option Nat} {v : V} {n : Nat}
    (h : LevelsKept preset next memo) (hv : Clear preset next v → Level preset next v n) :
    LevelsKept preset next fun x ↦ if x = v then some n else memo x := by
  intro x m hclear hx
  dsimp only at hx
  split at hx
  · next heq =>
    subst heq
    rw [← Option.some.inj hx]
    exact hv hclear
  · exact h x m hclear hx

end

end CFactory.Base
