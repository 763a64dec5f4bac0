import Mathlib.Data.List.Forall2
import Mathlib.Logic.Function.Iterate
import Mathlib.Order.Lattice

/-!
# Reading a growing log by a high-water mark

A log is sorted by a key and grows at its end. A reader holds the key of the last entry it was
given and asks for at most so many entries above it. Whatever is appended between two requests,
it has been given the front of the log, every entry once and in order. Nothing here names an
application.
-/

namespace CFactory.Base

universe u v w

variable {α : Type u} {β : Type v} {γ : Type w} [LinearOrder γ]

/-- The entries above a mark. -/
def aboveMark (key : α → γ) (mark : γ) (log : List α) : List α := log.filter (mark < key ·)

/-- A mark, and what was read so far. -/
structure Reader (β : Type v) (γ : Type w) where
  mark : γ
  got : List β

/-- One request: at most `limit` entries above the mark, as they are shown now. -/
def Reader.page (key : α → γ) (view : α → β) (limit : Nat) (log : List α) (r : Reader β γ) :
    Reader β γ :=
  let entries := (aboveMark key r.mark log).take limit
  ⟨(entries.getLast?.map key).getD r.mark, r.got ++ entries.map view⟩

/-- What was read is the front of the log up to the mark, each entry as some view shows it. -/
def Reader.Reads (key : α → γ) (Shows : β → α → Prop) (log : List α) (r : Reader β γ) : Prop :=
  ∃ front, log = front ++ aboveMark key r.mark log ∧ List.Forall₂ Shows r.got front

/-- What was read is the whole log. -/
def Reader.CaughtUp (Shows : β → α → Prop) (log : List α) (r : Reader β γ) : Prop :=
  List.Forall₂ Shows r.got log

variable {key : α → γ} {Shows : β → α → Prop} {view : α → β}

/-- Above the last of some first entries are the others. -/
theorem aboveMark_last {xs ys : List α} {mark : γ}
    (hsorted : (xs ++ ys).Pairwise (fun a b ↦ key a < key b)) (hmark : ∀ y ∈ ys, mark < key y) :
    aboveMark key ((xs.getLast?.map key).getD mark) (xs ++ ys) = ys := by
  rcases List.eq_nil_or_concat xs with rfl | ⟨front, last, rfl⟩
  · rw [List.nil_append]
    exact List.filter_eq_self.mpr fun y hy ↦ decide_eq_true (hmark y hy)
  · rw [List.concat_eq_append] at hsorted ⊢
    obtain ⟨hxs, -, hcross⟩ := List.pairwise_append.mp hsorted
    obtain ⟨-, -, hfront⟩ := List.pairwise_append.mp hxs
    rw [aboveMark, List.filter_append, List.getLast?_concat, Option.map_some, Option.getD_some]
    have hbelow : ((front ++ [last]).filter fun a ↦ decide (key last < key a)) = [] := by
      rw [List.filter_eq_nil_iff]
      intro a ha
      rcases List.mem_append.mp ha with ha | ha
      · have := hfront a ha last (List.mem_singleton.mpr rfl)
        simpa using le_of_lt this
      · rw [List.mem_singleton.mp ha]
        simp
    have habove : (ys.filter fun a ↦ decide (key last < key a)) = ys := by
      rw [List.filter_eq_self]
      intro a ha
      simpa using hcross last (by simp) a ha
    rw [hbelow, habove, List.nil_append]

/-- The mark never falls. -/
theorem mark_le_page (limit : Nat) (log : List α) (r : Reader β γ) :
    r.mark ≤ (r.page key view limit log).mark := by
  rw [Reader.page]
  cases hlast : ((aboveMark key r.mark log).take limit).getLast? with
  | none => exact le_refl _
  | some a =>
    have hmem := List.mem_of_mem_take (List.mem_of_getLast? hlast)
    have hlt := (List.mem_filter.mp hmem).2
    exact le_of_lt (by simpa using hlt)

/-- A request goes on where the one before it stopped. -/
theorem aboveMark_page {log : List α} (hsorted : log.Pairwise fun a b ↦ key a < key b) (limit : Nat)
    (r : Reader β γ) :
    aboveMark key (r.page key view limit log).mark log = (aboveMark key r.mark log).drop limit := by
  have hle : r.mark ≤ (r.page key view limit log).mark := mark_le_page limit log r
  have htwice : aboveMark key (r.page key view limit log).mark log =
      aboveMark key (r.page key view limit log).mark (aboveMark key r.mark log) := by
    rw [aboveMark, aboveMark, aboveMark, List.filter_filter]
    apply List.filter_congr
    intro a _
    rw [Bool.eq_iff_iff]
    simp only [decide_eq_true_eq, Bool.and_eq_true]
    exact ⟨fun h ↦ ⟨h, lt_of_le_of_lt hle h⟩, fun h ↦ h.1⟩
  rw [htwice]
  have hrest : (aboveMark key r.mark log).Pairwise fun a b ↦ key a < key b := hsorted.filter _
  rw [← List.take_append_drop limit (aboveMark key r.mark log)] at hrest
  have hmark : ∀ y ∈ (aboveMark key r.mark log).drop limit, r.mark < key y := by
    intro y hy
    simpa using (List.mem_filter.mp (List.mem_of_mem_drop hy)).2
  have hlast := aboveMark_last hrest hmark
  rwa [List.take_append_drop] at hlast

/-- A request keeps what was read the front of the log. -/
theorem Reader.Reads.page {log : List α} {r : Reader β γ} (h : r.Reads key Shows log)
    (hsorted : log.Pairwise fun a b ↦ key a < key b) (hview : ∀ a, Shows (view a) a)
    (limit : Nat) : (r.page key view limit log).Reads key Shows log := by
  obtain ⟨front, hlog, hgot⟩ := h
  refine ⟨front ++ (aboveMark key r.mark log).take limit, ?_, ?_⟩
  · rw [aboveMark_page hsorted, List.append_assoc, List.take_append_drop]
    exact hlog
  · refine List.rel_append hgot ?_
    rw [List.forall₂_map_left_iff]
    exact List.forall₂_same.mpr fun a _ ↦ hview a

/-- An entry after all others changes nothing that was read. -/
theorem Reader.Reads.append {log : List α} {r : Reader β γ} (h : r.Reads key Shows log) {a : α}
    (hmark : r.mark < key a) : r.Reads key Shows (log ++ [a]) := by
  obtain ⟨front, hlog, hgot⟩ := h
  refine ⟨front, ?_, hgot⟩
  have hnew : aboveMark key r.mark [a] = [a] := by simp [aboveMark, hmark]
  rw [aboveMark, List.filter_append, ← List.append_assoc]
  exact congrArg₂ (· ++ ·) hlog hnew.symm

/-- A short page is the last one. -/
theorem Reader.Reads.caughtUp_of_short {log : List α} {r : Reader β γ}
    (h : r.Reads key Shows log) (hsorted : log.Pairwise fun a b ↦ key a < key b)
    (hview : ∀ a, Shows (view a) a) {limit : Nat}
    (hshort : (r.page key view limit log).got.length < r.got.length + limit) :
    (r.page key view limit log).CaughtUp Shows log := by
  obtain ⟨front, hlog, hgot⟩ := h.page hsorted hview limit
  rw [aboveMark_page hsorted] at hlog
  have hlen : (aboveMark key r.mark log).length ≤ limit := by
    have : (r.page key view limit log).got.length =
        r.got.length + min limit (aboveMark key r.mark log).length := by
      simp [Reader.page]
    omega
  rw [List.drop_eq_nil_of_le hlen, List.append_nil] at hlog
  rw [← hlog] at hgot
  exact hgot

/-- Enough requests read everything there is. -/
theorem Reader.Reads.caughtUp_of_pages {log : List α} {r : Reader β γ}
    (h : r.Reads key Shows log) (hsorted : log.Pairwise fun a b ↦ key a < key b)
    (hview : ∀ a, Shows (view a) a) {limit n : Nat}
    (henough : (aboveMark key r.mark log).length ≤ n * limit) :
    ((Reader.page key view limit log)^[n] r).CaughtUp Shows log := by
  induction n generalizing r with
  | zero =>
    obtain ⟨front, hlog, hgot⟩ := h
    have hnil : aboveMark key r.mark log = [] := List.eq_nil_of_length_eq_zero (by omega)
    rw [hnil, List.append_nil] at hlog
    rw [hlog]
    exact hgot
  | succ n ih =>
    rw [Function.iterate_succ_apply]
    refine ih (h.page hsorted hview limit) ?_
    rw [aboveMark_page hsorted, List.length_drop]
    rw [Nat.succ_mul] at henough
    omega

end CFactory.Base
