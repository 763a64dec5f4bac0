import CFactory.Base.Dict
import Mathlib.Algebra.BigOperators.Group.List.Basic

/-!
# Entries stored over one another

Entries are stored into a map one after the other. The last one under each key stays, and the
others are overwritten.
-/

namespace CFactory.Base

universe u v w

variable {κ : Type u} {α : Type v} [DecidableEq κ]

/-- The entries that no later one has the key of. -/
def kept : List (κ × α) → List (κ × α)
  | [] => []
  | e :: rest => if e.1 ∈ rest.map Prod.fst then kept rest else e :: kept rest

/-- The entries that a later one has the key of. -/
def overwritten : List (κ × α) → List (κ × α)
  | [] => []
  | e :: rest => if e.1 ∈ rest.map Prod.fst then e :: overwritten rest else overwritten rest

/-- Store entries one after the other. -/
def Dict.setAll (d : Dict κ α) (es : List (κ × α)) : Dict κ α :=
  es.foldl (fun d e ↦ d.set e.1 e.2) d

/-- Each entry is kept or overwritten. -/
theorem kept_append_overwritten (es : List (κ × α)) : (kept es ++ overwritten es).Perm es := by
  induction es with
  | nil => exact .nil
  | cons e rest ih =>
    rw [kept, overwritten]
    split
    · exact List.perm_middle.trans (ih.cons e)
    · exact ih.cons e

theorem mem_of_mem_kept {es : List (κ × α)} {e : κ × α} (h : e ∈ kept es) : e ∈ es :=
  (kept_append_overwritten es).mem_iff.mp (List.mem_append_left _ h)

theorem nodup_kept (es : List (κ × α)) : ((kept es).map Prod.fst).Nodup := by
  induction es with
  | nil => exact List.nodup_nil
  | cons e rest ih =>
    rw [kept]
    split
    · exact ih
    · next hlast =>
      refine List.nodup_cons.mpr ⟨fun hmem ↦ hlast ?_, ih⟩
      obtain ⟨x, hx, hkey⟩ := List.mem_map.mp hmem
      exact List.mem_map.mpr ⟨x, mem_of_mem_kept hx, hkey⟩

/-- The kept entry of a key is the last one that has it. -/
theorem mem_kept_iff (es : List (κ × α)) (k : κ) (a : α) :
    (k, a) ∈ kept es ↔
      ((es.filter fun e ↦ decide (e.1 = k)).getLast?.map Prod.snd) = some a := by
  induction es with
  | nil => simp [kept]
  | cons e rest ih =>
    obtain ⟨x, b⟩ := e
    by_cases hlater : x ∈ rest.map Prod.fst
    · rw [kept, if_pos hlater, ih]
      by_cases hx : x = k
      · subst hx
        have hsome : rest.filter (fun e ↦ decide (e.1 = x)) ≠ [] := by
          obtain ⟨y, hy, hkey⟩ := List.mem_map.mp hlater
          exact List.ne_nil_of_mem (List.mem_filter.mpr ⟨hy, decide_eq_true hkey⟩)
        rw [List.filter_cons_of_pos (by simp), List.getLast?_cons_of_ne_nil hsome]
      · rw [List.filter_cons_of_neg (by simpa using hx)]
    · rw [kept, if_neg hlater, List.mem_cons]
      by_cases hx : x = k
      · subst hx
        have hnone : rest.filter (fun e ↦ decide (e.1 = x)) = [] := by
          rw [List.filter_eq_nil_iff]
          intro y hy hkey
          exact hlater (List.mem_map.mpr ⟨y, hy, of_decide_eq_true hkey⟩)
        have hgone : (x, a) ∉ kept rest :=
          fun hmem ↦ hlater (List.mem_map.mpr ⟨_, mem_of_mem_kept hmem, rfl⟩)
        rw [List.filter_cons_of_pos (by simp), hnone]
        simp [hgone, eq_comm]
      · rw [List.filter_cons_of_neg (by simpa using hx), ← ih]
        simp [Ne.symm hx]

/-- What entries leave in an empty map are those that are kept. -/
theorem entries_setAll (es : List (κ × α)) :
    ((Dict.empty.setAll es).entries).Perm (kept es) := by
  have hnodup : ∀ xs : List (κ × α), (xs.map Prod.fst).Nodup → xs.Nodup :=
    fun xs h ↦ h.of_map
  refine (List.perm_ext_iff_of_nodup (hnodup _ (Dict.nodup _)) (hnodup _ (nodup_kept es))).mpr ?_
  rintro ⟨k, a⟩
  have hset : ∀ (d : Dict κ α) (e : κ × α), (d.set e.1 e.2).get? k =
      if decide (e.1 = k) then some e.2 else d.get? k := by
    intro d e
    rw [Dict.get?_set]
    by_cases hk : k = e.1
    · rw [if_pos hk, if_pos (decide_eq_true hk.symm)]
    · rw [if_neg hk, if_neg (by simpa using Ne.symm hk)]
  rw [← Dict.get?_eq_some_iff, mem_kept_iff, Dict.setAll, Dict.get?_foldl hset,
    Dict.get?, Dict.empty, List.lookup_nil, Option.or_none]

/-- Summed over the map and over what was overwritten, entries sum to their own total. -/
theorem sum_setAll {M : Type w} [AddCommMonoid M] (f : α → M) (es : List (κ × α)) :
    ((Dict.empty.setAll es).values.map f).sum + ((overwritten es).map fun e ↦ f e.2).sum =
      (es.map fun e ↦ f e.2).sum := by
  have hperm : ((Dict.empty.setAll es).entries ++ overwritten es).Perm es :=
    ((entries_setAll es).append_right _).trans (kept_append_overwritten es)
  rw [Dict.values, List.map_map, ← (hperm.map fun e ↦ f e.2).sum_eq, List.map_append,
    List.sum_append]
  rfl

end CFactory.Base
