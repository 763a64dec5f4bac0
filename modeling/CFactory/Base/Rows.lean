import Mathlib.Data.List.Nodup

/-!
# Rows divided by an owner

A predicate tells an owner's rows of a table from those of others. A read that looks at the
owner's rows answers from them alone; a write does to them what it would do if there were no
others, and leaves the rows of others. Nothing here names an application.
-/

namespace CFactory.Base

universe u

variable {α : Type u} {p q : α → Bool} {l : List α}

/-- The rows of others. -/
def others (p : α → Bool) (l : List α) : List α := l.filter fun a ↦ !p a

/-! ## Reads -/

/-- Selecting rows that are the owner's. -/
theorem filter_own (h : ∀ a, q a = true → p a = true) (l : List α) :
    (l.filter p).filter q = l.filter q := by
  rw [List.filter_filter]
  apply List.filter_congr
  intro a _
  cases hq : q a with
  | false => rfl
  | true => rw [h a hq]; rfl

/-- Looking up a row that is the owner's. -/
theorem find?_own (h : ∀ a, q a = true → p a = true) (l : List α) :
    (l.filter p).find? q = l.find? q := by
  rw [← List.head?_filter, filter_own h, List.head?_filter]

/-- Asking for a row that is the owner's. -/
theorem any_own (h : ∀ a, q a = true → p a = true) (l : List α) :
    (l.filter p).any q = l.any q := by
  rw [List.any_filter]
  congr 1
  funext a
  cases hq : q a with
  | false => rw [Bool.and_false]
  | true => rw [h a hq]; rfl

/-- Asking for a row that only the owner can have. -/
theorem any_own_of_mem (h : ∀ a ∈ l, q a = true → p a = true) : (l.filter p).any q = l.any q := by
  rw [Bool.eq_iff_iff, List.any_eq_true, List.any_eq_true]
  constructor
  · rintro ⟨a, ha, hq⟩
    exact ⟨a, List.mem_of_mem_filter ha, hq⟩
  · rintro ⟨a, ha, hq⟩
    exact ⟨a, List.mem_filter.mpr ⟨ha, h a ha hq⟩, hq⟩

/-! ## Writes -/

/-- Rows appended for the owner. -/
theorem append_own {rows : List α} (h : ∀ a ∈ rows, p a = true) (l : List α) :
    (l ++ rows).filter p = l.filter p ++ rows := by
  rw [List.filter_append, List.filter_eq_self.mpr h]

theorem others_append {rows : List α} (h : ∀ a ∈ rows, p a = true) (l : List α) :
    others p (l ++ rows) = others p l := by
  have hnone : others p rows = [] := by
    apply List.filter_eq_nil_iff.mpr
    intro a ha
    rw [h a ha]
    exact Bool.false_ne_true
  rw [others, List.filter_append, ← others, ← others, hnone, List.append_nil]

/-- Rows changed in place, each with its owner. -/
theorem map_own {f : α → α} (h : ∀ a, p (f a) = p a) (l : List α) :
    (l.map f).filter p = (l.filter p).map f := by
  rw [List.filter_map]
  congr 1
  exact List.filter_congr fun a _ ↦ h a

/-- Only the owner's rows changed in place. -/
theorem others_map {f : α → α} (h : ∀ a ∈ l, p (f a) = p a)
    (hothers : ∀ a ∈ l, p a = false → f a = a) : others p (l.map f) = others p l := by
  have hsame : l.filter ((fun a ↦ !p a) ∘ f) = others p l :=
    List.filter_congr fun a ha ↦ congrArg (!·) (h a ha)
  rw [others, List.filter_map, hsame]
  conv_rhs => rw [← List.map_id (others p l)]
  apply List.map_congr_left
  intro a ha
  obtain ⟨hmem, hnot⟩ := List.mem_filter.mp ha
  exact hothers a hmem (by simpa using hnot)

/-- Rows deleted. -/
theorem delete_own (q : α → Bool) (l : List α) :
    (l.filter q).filter p = (l.filter p).filter q := by
  rw [List.filter_filter, List.filter_filter]
  exact List.filter_congr fun a _ ↦ Bool.and_comm _ _

/-- Only the owner's rows deleted. -/
theorem others_delete (h : ∀ a ∈ l, p a = false → q a = true) :
    others p (l.filter q) = others p l := by
  rw [others, List.filter_filter]
  apply List.filter_congr
  intro a ha
  cases hp : p a with
  | false => rw [h a ha hp]; rfl
  | true => rfl

/-! ## Rows found by key -/

/-- One row of the owner changed in place, which its key names. -/
theorem others_map_key {κ : Type} [DecidableEq κ] {key : α → κ} {row : α} {f : α → α}
    (hkeys : (l.map key).Nodup) (hrow : row ∈ l) (hown : p row = true)
    (hf : ∀ a, p (f a) = p a) :
    others p (l.map fun a ↦ if key a = key row then f a else a) = others p l := by
  apply others_map
  · intro a _
    split
    · exact hf a
    · rfl
  · intro a ha hnot
    apply if_neg
    intro hkey
    rw [List.inj_on_of_nodup_map hkeys ha hrow hkey, hown] at hnot
    cases hnot

/-- One row of the owner deleted, which its key names. -/
theorem others_delete_key {κ : Type} [DecidableEq κ] {key : α → κ} {row : α}
    (hkeys : (l.map key).Nodup) (hrow : row ∈ l) (hown : p row = true) :
    others p (l.filter fun a ↦ decide (key a ≠ key row)) = others p l := by
  apply others_delete
  intro a ha hnot
  apply decide_eq_true
  intro hkey
  rw [List.inj_on_of_nodup_map hkeys ha hrow hkey, hown] at hnot
  cases hnot

/-- Rows changed in place under their keys. -/
theorem map_key {κ : Type} {key : α → κ} {f : α → α} (h : ∀ a, key (f a) = key a) (l : List α) :
    (l.map f).map key = l.map key := by
  rw [List.map_map]
  exact List.map_congr_left fun a _ ↦ h a

end CFactory.Base
