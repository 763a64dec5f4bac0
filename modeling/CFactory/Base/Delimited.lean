import Mathlib.Algebra.Ring.Nat
import Mathlib.Data.List.Basic
import Mathlib.Data.List.Count
import Mathlib.Data.List.DropRight
import Std.Data.String.ToInt

/-!
# Delimiter-joined texts

Which lists of parts a joined text determines: a join of parts free of the delimiter is
read back exactly, and a delimiter inside a part can be moved into its neighbour unseen.
Nothing here names an application.
-/

namespace CFactory.Base

universe u

variable {α : Type u}

/-- The parts, with one delimiter between any two of them. -/
def join (d : α) (parts : List (List α)) : List α := [d].intercalate parts

theorem join_cons_cons (d : α) (p q : List α) (rest : List (List α)) :
    join d (p :: q :: rest) = p ++ d :: join d (q :: rest) := by
  show [d].intercalate (p :: q :: rest) = _
  rw [List.intercalate_cons_cons]
  simp only [join, List.append_assoc, List.singleton_append]

/-- What a join holds besides the delimiter stands in one of its parts. -/
theorem mem_join {d x : α} {parts : List (List α)} (h : x ∈ join d parts) :
    x = d ∨ ∃ p ∈ parts, x ∈ p := by
  induction parts with
  | nil => exact absurd h List.not_mem_nil
  | cons p rest ih =>
    cases rest with
    | nil =>
      rw [join, List.intercalate_singleton] at h
      exact .inr ⟨p, List.mem_cons_self, h⟩
    | cons q rest =>
      rw [join_cons_cons, List.mem_append, List.mem_cons] at h
      rcases h with h | h | h
      · exact .inr ⟨p, List.mem_cons_self, h⟩
      · exact .inl h
      · cases ih h with
        | inl hd => exact .inl hd
        | inr hr =>
          obtain ⟨r, hr, hx⟩ := hr
          exact .inr ⟨r, List.mem_cons_of_mem _ hr, hx⟩

/-- A join holds each of its parts in one piece. -/
theorem infix_join (d : α) {p : List α} {parts : List (List α)} (h : p ∈ parts) :
    p <:+: join d parts := by
  induction parts with
  | nil => exact absurd h List.not_mem_nil
  | cons first rest ih =>
    cases rest with
    | nil =>
      have hjoin : join d [first] = first := List.intercalate_singleton
      rw [List.mem_singleton.mp h]
      exact ⟨[], [], by rw [List.nil_append, List.append_nil, hjoin]⟩
    | cons second rest =>
      rw [join_cons_cons]
      cases List.mem_cons.mp h with
      | inl hfirst =>
        rw [hfirst]
        exact (List.prefix_append first _).isInfix
      | inr hrest =>
        exact (ih hrest).trans ((List.suffix_cons d _).trans (List.suffix_append first _)).isInfix

/-- A join holds the delimiters of its parts and one between any two of them. -/
theorem count_join [DecidableEq α] (d : α) (p : List α) (rest : List (List α)) :
    (join d (p :: rest)).count d = ((p :: rest).map (List.count d)).sum + rest.length := by
  induction rest generalizing p with
  | nil => simp [join]
  | cons q rest ih =>
    rw [join_cons_cons, List.count_append, List.count_cons_self, ih q]
    simp only [List.map_cons, List.sum_cons, List.length_cons]
    omega

/-- Two joins of equally many parts are the same text only if both or neither of them have
a delimiter inside a part. -/
theorem plain_of_join_eq [DecidableEq α] {d : α} {ps qs : List (List α)}
    (hlen : ps.length = qs.length) (h : join d ps = join d qs) (hp : ∀ p ∈ ps, d ∉ p) :
    ∀ q ∈ qs, d ∉ q := by
  cases ps with
  | nil =>
    cases qs with
    | nil => exact hp
    | cons q rest => exact absurd hlen (by simp)
  | cons p ps =>
    cases qs with
    | nil => exact absurd hlen (by simp)
    | cons q qs =>
      have hcount : ((p :: ps).map (List.count d)).sum = ((q :: qs).map (List.count d)).sum := by
        have hc := congrArg (List.count d) h
        rw [count_join, count_join] at hc
        simp only [List.length_cons] at hlen
        omega
      have hzero : ((p :: ps).map (List.count d)).sum = 0 := by
        rw [List.sum_eq_zero_iff_forall_eq_nat]
        intro n hn
        obtain ⟨r, hr, rfl⟩ := List.mem_map.mp hn
        exact List.count_eq_zero.mpr (hp r hr)
      intro r hr
      rw [hcount, List.sum_eq_zero_iff_forall_eq_nat] at hzero
      exact List.count_eq_zero.mp (hzero _ (List.mem_map_of_mem hr))

/-- Parts free of the delimiter are determined by their join among all lists of as many
parts, whatever those parts hold. -/
theorem join_injective [DecidableEq α] {d : α} {ps qs : List (List α)}
    (hlen : ps.length = qs.length) (h : join d ps = join d qs) (hp : ∀ p ∈ ps, d ∉ p) :
    ps = qs := by
  have hq := plain_of_join_eq hlen h hp
  cases ps with
  | nil => exact (List.length_eq_zero_iff.mp hlen.symm).symm
  | cons p ps =>
    cases qs with
    | nil => exact absurd hlen (by simp)
    | cons q qs =>
      have hsplit := congrArg (List.splitOn d) h
      simp only [join] at hsplit
      rwa [List.splitOn_intercalate d hp (by simp), List.splitOn_intercalate d hq (by simp)]
        at hsplit

/-- A delimiter inside a part is as good as one between parts: the text after it can be
moved to the front of the next part. -/
theorem join_shift (d : α) (front : List (List α)) (a b c : List α) (back : List (List α)) :
    join d (front ++ (a ++ d :: b) :: c :: back) =
      join d (front ++ a :: (b ++ d :: c) :: back) := by
  induction front with
  | nil =>
    cases back with
    | nil => simp [join]
    | cons r back => simp [join_cons_cons]
  | cons p front ih =>
    cases front with
    | nil => rw [List.singleton_append, List.singleton_append, join_cons_cons, join_cons_cons]
             exact congrArg (fun t ↦ p ++ d :: t) ih
    | cons q front =>
      simp only [List.cons_append] at ih ⊢
      rw [join_cons_cons, join_cons_cons, ih]

/-- What stands before the first delimiter is determined by the whole text. -/
theorem split_first {d : α} {p q xs ys : List α} (hp : d ∉ p) (hq : d ∉ q)
    (h : p ++ d :: xs = q ++ d :: ys) : p = q ∧ xs = ys := by
  induction p generalizing q with
  | nil =>
    cases q with
    | nil => exact ⟨rfl, (List.cons.inj h).2⟩
    | cons b q => exact absurd (List.mem_cons.mpr (.inl (List.cons.inj h).1)) hq
  | cons a p ih =>
    cases q with
    | nil => exact absurd (List.mem_cons.mpr (.inl (List.cons.inj h).1.symm)) hp
    | cons b q =>
      obtain ⟨hab, hrest⟩ := List.cons.inj h
      obtain ⟨hpq, hxy⟩ := ih (fun hm ↦ hp (List.mem_cons_of_mem _ hm))
        (fun hm ↦ hq (List.mem_cons_of_mem _ hm)) hrest
      exact ⟨by rw [hab, hpq], hxy⟩

/-- What stands after the last delimiter is determined by the whole text. -/
theorem split_last {d : α} {p q xs ys : List α} (hp : d ∉ p) (hq : d ∉ q)
    (h : xs ++ d :: p = ys ++ d :: q) : xs = ys ∧ p = q := by
  have hrev := congrArg List.reverse h
  simp only [List.reverse_append, List.reverse_cons, List.append_assoc, List.singleton_append]
    at hrev
  obtain ⟨hpq, hxy⟩ := split_first (by rwa [List.mem_reverse]) (by rwa [List.mem_reverse]) hrev
  exact ⟨List.reverse_injective hxy, List.reverse_injective hpq⟩

/-- A text that holds the delimiter once is split in one way. -/
theorem split_only [DecidableEq α] {d : α} {p q xs ys : List α} (hp : d ∉ p) (hxs : d ∉ xs)
    (h : p ++ d :: xs = q ++ d :: ys) : p = q ∧ xs = ys := by
  have hcount := congrArg (List.count d) h
  rw [List.count_append, List.count_append, List.count_cons_self, List.count_cons_self,
    List.count_eq_zero_of_not_mem hp, List.count_eq_zero_of_not_mem hxs] at hcount
  have hq : d ∉ q := List.count_eq_zero.mp (by omega)
  exact split_first hp hq h

/-- A text that holds the delimiter has a last one. -/
theorem exists_last {d : α} {xs : List α} (h : d ∈ xs) :
    ∃ head tail, xs = head ++ d :: tail ∧ d ∉ tail := by
  obtain ⟨tail, head, hsplit, hfree⟩ := List.eq_append_cons_of_mem (List.mem_reverse.mpr h)
  refine ⟨head.reverse, tail.reverse, ?_, by rwa [List.mem_reverse]⟩
  have hrev := congrArg List.reverse hsplit
  rwa [List.reverse_reverse, List.reverse_append, List.reverse_cons, List.append_assoc,
    List.singleton_append] at hrev

/-- A scan from the end stops at the last delimiter. -/
theorem scan_last [DecidableEq α] {d : α} {head tail : List α} (h : d ∉ tail) :
    (head ++ d :: tail).reverse.dropWhile (· ≠ d) = d :: head.reverse ∧
      (head ++ d :: tail).reverse.takeWhile (· ≠ d) = tail.reverse := by
  have hall : ∀ x ∈ tail.reverse, decide (x ≠ d) = true := by
    intro x hx
    rw [decide_eq_true_eq]
    rintro rfl
    exact h (List.mem_reverse.mp hx)
  rw [List.reverse_append, List.reverse_cons, List.append_assoc, List.singleton_append]
  constructor
  · rw [List.dropWhile_append_of_pos hall, List.dropWhile_cons_of_neg (by simp)]
  · rw [List.takeWhile_append_of_pos hall, List.takeWhile_cons_of_neg (by simp), List.append_nil]

/-- Nothing is trimmed from a text without what is trimmed. -/
theorem trim_eq_self {p : α → Bool} {s : List α} (h : ∀ c ∈ s, p c = false) :
    (s.dropWhile p).rdropWhile p = s := by
  have hdrop : s.dropWhile p = s := by
    rw [List.dropWhile_eq_self_iff]
    intro hpos
    simp [h _ (List.getElem_mem hpos)]
  rw [hdrop, List.rdropWhile_eq_self_iff]
  intro hne
  simp [h _ (List.getLast_mem hne)]

/-- A text of two parts is the delimiter between them. -/
theorem splitOn_pair_iff [DecidableEq α] {d : α} {xs p q : List α} :
    xs.splitOn d = [p, q] ↔ xs = p ++ d :: q ∧ d ∉ p ∧ d ∉ q := by
  constructor
  · intro h
    by_cases hmem : d ∈ xs
    · obtain ⟨front, back, rfl, hfront⟩ := List.eq_append_cons_of_mem hmem
      rw [List.splitOn_append_cons_self_of_not_mem hfront] at h
      obtain ⟨rfl, hback⟩ := List.cons.inj h
      by_cases hagain : d ∈ back
      · obtain ⟨middle, rest, rfl, hmiddle⟩ := List.eq_append_cons_of_mem hagain
        rw [List.splitOn_append_cons_self_of_not_mem hmiddle] at hback
        exact absurd (List.cons.inj hback).2 (List.splitOn_ne_nil d rest)
      · rw [List.splitOn_eq_singleton hagain] at hback
        obtain ⟨rfl, -⟩ := List.cons.inj hback
        exact ⟨rfl, hfront, hagain⟩
    · rw [List.splitOn_eq_singleton hmem] at h
      cases h
  · rintro ⟨rfl, hp, hq⟩
    rw [List.splitOn_append_cons_self_of_not_mem hp, List.splitOn_eq_singleton hq]

/-! ## Rendered numbers -/

/-- The characters of a rendered natural number are digits. -/
theorem isDigit_of_mem_repr {n : Nat} {c : Char} (h : c ∈ (Nat.repr n).toList) :
    c.isDigit = true := by
  rw [Nat.toList_repr] at h
  exact Nat.isDigit_of_mem_toDigits (by decide) (by decide) h

/-- Those of a rendered integer are digits, and the sign of a negative one. -/
theorem mem_intRepr {n : Int} {c : Char} (h : c ∈ (Int.repr n).toList) :
    c.isDigit = true ∨ c = '-' ∧ n < 0 := by
  cases n with
  | ofNat k => exact .inl (isDigit_of_mem_repr (n := k) h)
  | negSucc k =>
    have hsplit : c ∈ "-".toList ++ (Nat.repr (k + 1)).toList := by
      rw [← String.toList_append]
      exact h
    cases List.mem_append.mp hsplit with
    | inl hsign => exact .inr ⟨List.mem_singleton.mp hsign, Int.negSucc_lt_zero k⟩
    | inr hdigits => exact .inl (isDigit_of_mem_repr hdigits)

end CFactory.Base
