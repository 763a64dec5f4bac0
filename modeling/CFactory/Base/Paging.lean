import Mathlib.Data.List.Basic

/-!
# Lists in pages

A list is served in pages of one size. The pages from the first on make up the list's beginning,
and the first page that is short ends it. Nothing here names an application.
-/

namespace CFactory.Base

universe u

variable {α : Type u} {size p : Nat} {xs : List α}

/-- A page of a list, counted from zero. -/
def page (size : Nat) (xs : List α) (p : Nat) : List α := (xs.drop (size * p)).take size

theorem length_page : (page size xs p).length = min size (xs.length - size * p) := by
  rw [page, List.length_take, List.length_drop]

/-- A page goes on where the pages before it end. -/
theorem take_append_page (size : Nat) (xs : List α) (p : Nat) :
    xs.take (size * p) ++ page size xs p = xs.take (size * (p + 1)) := by
  rw [page, Nat.mul_succ, List.take_add]

/-- A short page is the last. -/
theorem take_of_page_short (h : (page size xs p).length < size) :
    xs.take (size * (p + 1)) = xs := by
  rw [length_page] at h
  exact List.take_of_length_le (by rw [Nat.mul_succ]; omega)

/-- An empty page comes after the last. -/
theorem take_of_page_nil (hsize : 0 < size) (h : page size xs p = []) :
    xs.take (size * p) = xs := by
  have hlength := congrArg List.length h
  rw [length_page, List.length_nil] at hlength
  exact List.take_of_length_le (by omega)

/-- There are no more full pages than the list has room for. -/
theorem page_full_le (hsize : 0 < size) (h : ¬(page size xs p).length < size) :
    p + 1 ≤ xs.length / size := by
  rw [length_page] at h
  rw [Nat.le_div_iff_mul_le hsize, Nat.mul_comm, Nat.mul_succ]
  omega

end CFactory.Base
