import Mathlib.Data.List.Basic

/-!
# A cell under a guard

Inputs come to a cell one after the other, and a guard passes over some of them by what the cell
holds. What the cell holds in the end is told by the last input it took. Nothing here names an
application.
-/

namespace CFactory.Base

universe u v w

variable {σ : Type u} {α : Type v} (skip : σ → α → Bool) (write : σ → α → σ)

/-- One input: what the guard passes over leaves the cell alone. -/
def guarded (s : σ) (a : α) : σ := if skip s a then s else write s a

/-- The last input that a cell takes, each met by the cell as those before it left it. -/
def lastTaken : σ → List α → Option α
  | _, [] => none
  | s, a :: rest =>
    if skip s a then lastTaken s rest else some ((lastTaken (write s a) rest).getD a)

variable {skip write}

theorem foldl_of_lastTaken_none {s : σ} {as : List α} (h : lastTaken skip write s as = none) :
    as.foldl (guarded skip write) s = s := by
  induction as with
  | nil => rfl
  | cons a rest ih =>
    rw [lastTaken] at h
    split at h
    · next hskip =>
      rw [List.foldl_cons, guarded, if_pos hskip]
      exact ih h
    · cases h

/-- Where what is written tells its input, the cell ends up telling the last one it took. -/
theorem foldl_of_lastTaken_some {β : Type w} {tell : σ → β} {f : α → β}
    (hwrite : ∀ s a, tell (write s a) = f a) {s : σ} {as : List α} {a : α}
    (h : lastTaken skip write s as = some a) :
    a ∈ as ∧ tell (as.foldl (guarded skip write) s) = f a := by
  induction as generalizing s a with
  | nil => cases h
  | cons b rest ih =>
    rw [lastTaken] at h
    rw [List.foldl_cons, guarded]
    split at h
    · next hskip =>
      rw [if_pos hskip]
      obtain ⟨hmem, htell⟩ := ih h
      exact ⟨List.mem_cons_of_mem b hmem, htell⟩
    · next htaken =>
      rw [if_neg htaken]
      cases hrest : lastTaken skip write (write s b) rest with
      | none =>
        rw [hrest] at h
        cases h
        refine ⟨List.mem_cons_self, ?_⟩
        rw [foldl_of_lastTaken_none hrest]
        exact hwrite s b
      | some c =>
        rw [hrest] at h
        cases h
        obtain ⟨hmem, htell⟩ := ih hrest
        exact ⟨List.mem_cons_of_mem b hmem, htell⟩

end CFactory.Base
