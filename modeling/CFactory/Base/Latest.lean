import Mathlib.Data.List.Sort

/-!
# The last element in the order of a key

Where a list is sorted by a key, equal keys in the order they came in, the last element with a
property is the one a single pass from the end picks. Nothing is sorted for it, and appended
elements can only take its place.
-/

namespace CFactory.Base

universe u v w

variable {α : Type u} {β : Type v} {γ : Type w} [LinearOrder γ] {key : β → γ}

/-- The last element of the list, sorted by the key. -/
def latest (key : β → γ) : List β → Option β
  | [] => none
  | b :: rest =>
    match latest key rest with
    | none => some b
    | some m => if key b ≤ key m then some m else some b

theorem latest_cons_none {b : β} {rest : List β} (h : latest key rest = none) :
    latest key (b :: rest) = some b := by
  rw [latest, h]

theorem latest_cons_some {b m : β} {rest : List β} (h : latest key rest = some m) :
    latest key (b :: rest) = if key b ≤ key m then some m else some b := by
  rw [latest, h]

/-- There is a last element of a list that has one, and no key is above its. -/
theorem latest_spec (key : β → γ) (bs : List β) :
    (latest key bs = none ∧ bs = []) ∨
      ∃ m ∈ bs, latest key bs = some m ∧ ∀ b ∈ bs, key b ≤ key m := by
  induction bs with
  | nil => exact .inl ⟨rfl, rfl⟩
  | cons a rest ih =>
    right
    rcases ih with ⟨hnone, rfl⟩ | ⟨m, hm, hlast, hmax⟩
    · refine ⟨a, List.mem_cons_self, latest_cons_none hnone, ?_⟩
      intro b hb
      rw [List.mem_singleton.mp hb]
    · rw [latest_cons_some hlast]
      by_cases hle : key a ≤ key m
      · refine ⟨m, List.mem_cons_of_mem a hm, if_pos hle, ?_⟩
        intro b hb
        rcases List.mem_cons.mp hb with rfl | hb
        · exact hle
        · exact hmax b hb
      · refine ⟨a, List.mem_cons_self, if_neg hle, ?_⟩
        intro b hb
        rcases List.mem_cons.mp hb with rfl | hb
        · exact le_refl _
        · exact le_trans (hmax b hb) (le_of_lt (not_le.mp hle))

theorem latest_bound {bs : List β} {m : β} (h : latest key bs = some m) :
    m ∈ bs ∧ ∀ b ∈ bs, key b ≤ key m := by
  rcases latest_spec key bs with ⟨hnone, -⟩ | ⟨k, hk, hlast, hmax⟩
  · rw [hnone] at h
    cases h
  · rw [hlast] at h
    cases h
    exact ⟨hk, hmax⟩

/-- The last of two lists together is in the second, or it is the last of the first. -/
theorem latest_append {as bs : List β} {b : β} (h : latest key (as ++ bs) = some b) :
    b ∈ bs ∨ latest key as = some b := by
  induction as generalizing b with
  | nil => exact .inl (latest_bound h).1
  | cons a rest ih =>
    rcases latest_spec key (rest ++ bs) with ⟨hnone, hempty⟩ | ⟨m, -, hlast, hmax⟩
    · rw [List.cons_append, latest_cons_none hnone] at h
      obtain ⟨rfl, -⟩ := List.append_eq_nil_iff.mp hempty
      exact .inr h
    · rw [List.cons_append, latest_cons_some hlast] at h
      rcases ih hlast with hin | hfirst
      · by_cases hle : key a ≤ key m
        · rw [if_pos hle] at h
          cases h
          exact .inl hin
        · rw [if_neg hle] at h
          right
          -- `a` is above every key of the rest, so it is last there too
          rcases latest_spec key rest with ⟨hnone, -⟩ | ⟨k, hk, hlast', -⟩
          · rw [latest_cons_none hnone, h]
          · rw [latest_cons_some hlast', if_neg, h]
            exact fun hak ↦ hle (le_trans hak (hmax k (List.mem_append_left bs hk)))
      · right
        rw [latest_cons_some hfirst]
        exact h

/-- A map that keeps the key keeps the last element. -/
theorem latest_map (key : β → γ) (key' : α → γ) {f : α → β} (hf : ∀ a, key (f a) = key' a)
    (as : List α) :
    latest key (as.map f) = (latest key' as).map f := by
  induction as with
  | nil => rfl
  | cons a rest ih =>
    rw [List.map_cons]
    cases hrest : latest key' rest with
    | none =>
      rw [hrest] at ih
      rw [latest_cons_none ih, latest_cons_none hrest]
      rfl
    | some m =>
      rw [hrest] at ih
      rw [latest_cons_some ih, latest_cons_some hrest, hf, hf]
      split <;> rfl

/-- Inserted into a sorted list, an element is last where it is above all others. -/
private theorem getLast_orderedInsert (p : β → Bool) {a : β} (ha : p a = true) {bs : List β}
    (hs : bs.Pairwise fun x y ↦ key x ≤ key y) :
    ((bs.orderedInsert (fun x y ↦ key x ≤ key y) a).filter p).getLast? =
      match (bs.filter p).getLast? with
      | none => some a
      | some m => if key a ≤ key m then some m else some a := by
  induction bs with
  | nil => simp [ha]
  | cons b rest ih =>
    obtain ⟨hb, hrest⟩ := List.pairwise_cons.mp hs
    rw [List.orderedInsert_cons]
    by_cases hle : key a ≤ key b
    · rw [if_pos hle, List.filter_cons_of_pos ha, List.getLast?_cons]
      cases hlast : ((b :: rest).filter p).getLast? with
      | none => rfl
      | some m =>
        have hm : m ∈ b :: rest := List.mem_of_mem_filter (List.mem_of_getLast? hlast)
        have hbm : key b ≤ key m := by
          rcases List.mem_cons.mp hm with rfl | hm
          · exact le_refl _
          · exact hb m hm
        show _ = if key a ≤ key m then some m else some a
        rw [if_pos (le_trans hle hbm)]
        rfl
    · rw [if_neg hle]
      by_cases hpb : p b = true
      · rw [List.filter_cons_of_pos hpb, List.filter_cons_of_pos hpb, List.getLast?_cons,
          List.getLast?_cons, ih hrest]
        cases (rest.filter p).getLast? with
        | none => simp [hle]
        | some m =>
          simp only [Option.getD_some]
          split <;> rfl
      · rw [List.filter_cons_of_neg hpb, List.filter_cons_of_neg hpb, ih hrest]

/-- The last element with the property of the sorted list. -/
theorem getLast_filter_insertionSort (key : β → γ) (p : β → Bool) (bs : List β) :
    ((bs.insertionSort fun a b ↦ key a ≤ key b).filter p).getLast? =
      latest key (bs.filter p) := by
  induction bs with
  | nil => rfl
  | cons a rest ih =>
    have hsorted := List.pairwise_insertionSort (fun a b : β ↦ key a ≤ key b) rest
    rw [List.insertionSort_cons]
    by_cases ha : p a = true
    · rw [getLast_orderedInsert p ha hsorted, ih, List.filter_cons_of_pos ha]
      rfl
    · have hother : ((rest.insertionSort fun a b ↦ key a ≤ key b).orderedInsert
          (fun a b ↦ key a ≤ key b) a).filter p =
            (rest.insertionSort fun a b ↦ key a ≤ key b).filter p := by
        rw [List.orderedInsert_eq_take_drop, List.filter_append, List.filter_cons_of_neg ha,
          ← List.filter_append, List.takeWhile_append_dropWhile]
      rw [hother, ih, List.filter_cons_of_neg ha]

end CFactory.Base
