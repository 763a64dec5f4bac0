import CFactory.Base.Dict
import Mathlib.Data.List.Basic
import Mathlib.Data.List.Perm.Basic
import Mathlib.Data.List.Range

/-!
# The keys of a grouping

Grouped under their keys, the items of a list give each key once, in the order in which the keys
were first seen. Read group by group, under numbers that run past all keys, each item is there once.
-/

namespace CFactory.Base.Dict

universe u v

variable {κ : Type u} {α β : Type v} [DecidableEq κ]

/-- The keys in insertion order. -/
def keys (d : Dict κ α) : List κ := d.entries.map Prod.fst

omit [DecidableEq κ] in
theorem nodup_keys (d : Dict κ α) : d.keys.Nodup := d.nodup

private theorem keys_setEntries (k : κ) (a : α) (es : List (κ × α)) :
    (setEntries k a es).map Prod.fst =
      if k ∈ es.map Prod.fst then es.map Prod.fst else es.map Prod.fst ++ [k] := by
  induction es with
  | nil => rfl
  | cons e rest ih =>
    rw [setEntries]
    by_cases hk : e.1 = k
    · subst hk
      simp
    · rw [if_neg hk, List.map_cons, ih, List.map_cons]
      by_cases hrest : k ∈ rest.map Prod.fst
      · rw [if_pos hrest, if_pos (List.mem_cons_of_mem _ hrest)]
      · rw [if_neg hrest, if_neg]
        · rfl
        · exact fun h ↦ (List.mem_cons.mp h).elim (fun heq ↦ hk heq.symm) hrest

/-- A key that is set keeps its place, or comes last. -/
theorem keys_set (d : Dict κ α) (k : κ) (a : α) :
    (d.set k a).keys = if k ∈ d.keys then d.keys else d.keys ++ [k] :=
  keys_setEntries k a d.entries

/-- A key is there where it has a value. -/
theorem mem_keys_iff {d : Dict κ α} {k : κ} : k ∈ d.keys ↔ ∃ a, d.get? k = some a := by
  simp only [keys, List.mem_map, get?_eq_some_iff, Prod.exists, exists_and_right, exists_eq_right]

section
variable (key : β → κ)

private theorem groupBy_concat (xs : List β) (x : β) :
    (groupBy key (xs ++ [x])).keys =
      if key x ∈ (groupBy key xs).keys then (groupBy key xs).keys
      else (groupBy key xs).keys ++ [key x] := by
  rw [← keys_set, groupBy, List.foldl_append]
  rfl

/-- The keys of a grouping are those of its items. -/
theorem mem_keys_groupBy {xs : List β} {k : κ} : k ∈ (groupBy key xs).keys ↔ k ∈ xs.map key := by
  induction xs using List.reverseRecOn generalizing k with
  | nil => simp [keys, groupBy, empty]
  | append_singleton xs x ih =>
    rw [groupBy_concat]
    split
    · next hx =>
      rw [List.map_append, List.mem_append, ih, List.map_singleton, List.mem_singleton]
      exact ⟨.inl, fun h ↦ h.elim id fun heq ↦ heq ▸ ih.mp hx⟩
    · rw [List.map_append, List.mem_append, List.mem_append, ih]
      rfl

/-- They are in the order in which they were first seen. -/
theorem keys_groupBy_pairwise (xs : List β) :
    (groupBy key xs).keys.Pairwise fun a b ↦ (xs.map key).idxOf a < (xs.map key).idxOf b := by
  induction xs using List.reverseRecOn with
  | nil => exact List.Pairwise.nil
  | append_singleton xs x ih =>
    have hkept : ∀ k ∈ (groupBy key xs).keys,
        ((xs ++ [x]).map key).idxOf k = (xs.map key).idxOf k := by
      intro k hk
      rw [List.map_append, List.idxOf_append_of_mem ((mem_keys_groupBy key).mp hk)]
    have hstays : (groupBy key xs).keys.Pairwise fun a b ↦
        ((xs ++ [x]).map key).idxOf a < ((xs ++ [x]).map key).idxOf b := by
      refine ih.imp_of_mem fun ha hb hlt ↦ ?_
      rwa [hkept _ ha, hkept _ hb]
    rw [groupBy_concat]
    split
    · exact hstays
    · next hnew =>
      refine List.pairwise_append.mpr ⟨hstays, List.pairwise_singleton _ _, fun a ha b hb ↦ ?_⟩
      rw [List.mem_singleton.mp hb, hkept a ha, List.map_append,
        List.idxOf_append_of_notMem fun h ↦ hnew ((mem_keys_groupBy key).mpr h)]
      have hlt := List.idxOf_lt_length_of_mem ((mem_keys_groupBy key).mp ha)
      omega

/-- The group of a key, empty if it has none. -/
theorem getD_groupBy (xs : List β) (k : κ) :
    (groupBy key xs).getD k [] = xs.filter fun x ↦ decide (key x = k) := by
  rw [getD, get?_groupBy]
  split
  · next hnil => rw [hnil, Option.getD_none]
  · rw [Option.getD_some]

end

/-- The groups of the first numbers have the items whose keys are below them. -/
theorem perm_groups (key : β → Nat) (xs : List β) (n : Nat) :
    ((List.range n).flatMap fun k ↦ xs.filter fun x ↦ decide (key x = k)).Perm
      (xs.filter fun x ↦ decide (key x < n)) := by
  induction n with
  | zero => simp
  | succ n ih =>
    have hbelow : (xs.filter fun x ↦ decide (key x < n + 1)).filter
        (fun x ↦ decide (key x < n)) = xs.filter fun x ↦ decide (key x < n) := by
      rw [List.filter_filter]
      refine List.filter_congr fun x _ ↦ ?_
      rw [← Bool.decide_and, decide_eq_decide]
      omega
    have hat : (xs.filter fun x ↦ decide (key x < n + 1)).filter
        (fun x ↦ !decide (key x < n)) = xs.filter fun x ↦ decide (key x = n) := by
      rw [List.filter_filter]
      refine List.filter_congr fun x _ ↦ ?_
      rw [← decide_not, ← Bool.decide_and, decide_eq_decide]
      omega
    have hsplit := List.filter_append_perm (fun x ↦ decide (key x < n))
      (xs.filter fun x ↦ decide (key x < n + 1))
    rw [hbelow, hat] at hsplit
    rw [List.range_succ, List.flatMap_append, List.flatMap_singleton]
    exact (ih.append_right _).trans hsplit

end CFactory.Base.Dict
