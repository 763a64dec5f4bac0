import CFactory.Base.Latest

/-!
# Sweeps over sorted samples

Several tracks of samples, each sorted by a key and read with a cursor of its own, are swept at
rising times: at each time every cursor passes the samples up to it, and the value of the last one
passed is carried forward.
-/

namespace CFactory.Base

universe u v w

variable {α : Type u} {β : Type v} {τ : Type w} [LinearOrder τ]

/-- Pass the samples up to a time; what is left, and the value of the last one passed. -/
def passUpTo (key : α → τ) (value : α → β) (t : τ) : List α → β → List α × β
  | [], last => ([], last)
  | x :: rest, last =>
    if key x ≤ t then passUpTo key value t rest (value x) else (x :: rest, last)

/-- The values that the tracks carry at each of some times. -/
def sweep (key : α → τ) (value : α → β) : List τ → List (List α × β) → List (τ × List β)
  | [], _ => []
  | t :: rest, tracks =>
    let passed := tracks.map fun track ↦ passUpTo key value t track.1 track.2
    (t, passed.map Prod.snd) :: sweep key value rest passed

variable {key : α → τ} {value : α → β} {s t : τ}

/-- To pass the samples up to a time and then up to a later one is to pass them up to the later
one. -/
theorem passUpTo_passUpTo (h : s ≤ t) (xs : List α) (last : β) :
    passUpTo key value t (passUpTo key value s xs last).1 (passUpTo key value s xs last).2 =
      passUpTo key value t xs last := by
  induction xs generalizing last with
  | nil => rfl
  | cons x rest ih =>
    rw [passUpTo.eq_2 (t := s)]
    by_cases hx : key x ≤ s
    · rw [if_pos hx, ih, passUpTo, if_pos (le_trans hx h)]
    · rw [if_neg hx]

/-- Of a sorted track the last sample up to a time is carried, or what was carried before. -/
theorem passUpTo_snd {xs : List α} (hs : xs.Pairwise fun x y ↦ key x ≤ key y) (last : β) :
    (passUpTo key value t xs last).2 =
      ((xs.filter fun x ↦ decide (key x ≤ t)).getLast?.map value).getD last := by
  induction xs generalizing last with
  | nil => rfl
  | cons x rest ih =>
    obtain ⟨hx, hrest⟩ := List.pairwise_cons.mp hs
    rw [passUpTo]
    by_cases hle : key x ≤ t
    · have hfirst : (x :: rest).filter (fun y ↦ decide (key y ≤ t)) =
          x :: rest.filter fun y ↦ decide (key y ≤ t) :=
        List.filter_cons_of_pos (decide_eq_true hle)
      rw [if_pos hle, ih hrest, hfirst, List.getLast?_cons]
      cases (rest.filter fun y ↦ decide (key y ≤ t)).getLast? with
      | none => rfl
      | some m => rfl
    · have hlater : (x :: rest).filter (fun x ↦ decide (key x ≤ t)) = [] := by
        rw [List.filter_eq_nil_iff]
        intro y hy
        rw [decide_eq_true_iff]
        rcases List.mem_cons.mp hy with rfl | hy
        · exact hle
        · exact fun hyt ↦ hle (le_trans (hx y hy) hyt)
      rw [if_neg hle, hlater]
      rfl

/-- What is passed before the first time makes no difference to a sweep. -/
theorem sweep_passed {ts : List τ} (h : ∀ t ∈ ts, s ≤ t) (tracks : List (List α × β)) :
    sweep key value ts (tracks.map fun track ↦ passUpTo key value s track.1 track.2) =
      sweep key value ts tracks := by
  cases ts with
  | nil => rfl
  | cons t rest =>
    have hpass : (tracks.map fun track ↦ passUpTo key value s track.1 track.2).map
          (fun track ↦ passUpTo key value t track.1 track.2) =
        tracks.map fun track ↦ passUpTo key value t track.1 track.2 := by
      rw [List.map_map]
      apply List.map_congr_left
      intro track _
      exact passUpTo_passUpTo (h t List.mem_cons_self) track.1 track.2
    rw [sweep, sweep, hpass]

/-- At rising times each track carries what passing it from its start up to that time leaves. -/
theorem sweep_eq {ts : List τ} (h : ts.Pairwise (· ≤ ·)) (tracks : List (List α × β)) :
    sweep key value ts tracks =
      ts.map fun t ↦ (t, tracks.map fun track ↦ (passUpTo key value t track.1 track.2).2) := by
  induction ts with
  | nil => rfl
  | cons t rest ih =>
    obtain ⟨ht, hrest⟩ := List.pairwise_cons.mp h
    rw [sweep, sweep_passed ht, ih hrest, List.map_map, List.map_cons]
    rfl

/-- The value of the latest sample up to a time. -/
def valueAt (key : α → τ) (value : α → β) (zero : β) (xs : List α) (t : τ) : β :=
  ((latest key (xs.filter fun x ↦ decide (key x ≤ t))).map value).getD zero

/-- Swept at rising times, sorted tracks carry the values of their latest samples. -/
theorem sweep_sorted {ts : List τ} (h : ts.Pairwise (· ≤ ·)) (zero : β) (series : List (List α)) :
    sweep key value ts
        (series.map fun xs ↦ (xs.insertionSort fun x y ↦ key x ≤ key y, zero)) =
      ts.map fun t ↦ (t, series.map fun xs ↦ valueAt key value zero xs t) := by
  rw [sweep_eq h]
  apply List.map_congr_left
  intro t _
  rw [List.map_map]
  congr 1
  apply List.map_congr_left
  intro xs _
  have hsorted : (xs.insertionSort fun x y ↦ key x ≤ key y).Pairwise fun x y ↦ key x ≤ key y :=
    List.pairwise_insertionSort _ xs
  rw [Function.comp_apply, passUpTo_snd hsorted, getLast_filter_insertionSort]
  rfl

end CFactory.Base
