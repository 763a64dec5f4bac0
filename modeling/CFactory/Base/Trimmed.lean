import CFactory.Base.Delimited

/-!
# Trimmed texts and lists in texts

A trimmed text neither begins nor ends with what is trimmed. A list is written as a text with a
delimiter, and read by splitting, trimming every part and dropping the empty ones: what is read is
trimmed, and what is trimmed and free of the delimiter is read back. Nothing here names an
application.
-/

namespace CFactory.Base

universe u

variable {α : Type u} {p : α → Bool}

/-- Both ends off. -/
def trim (p : α → Bool) (s : List α) : List α := (s.dropWhile p).rdropWhile p

/-- Nothing at either end is trimmed. -/
structure Trimmed (p : α → Bool) (s : List α) : Prop where
  head : ∀ c ∈ s.head?, p c = false
  last : ∀ c ∈ s.getLast?, p c = false

theorem trimmed_nil : Trimmed p ([] : List α) := ⟨by simp, by simp⟩

theorem head_dropWhile (p : α → Bool) (s : List α) : ∀ c ∈ (s.dropWhile p).head?, p c = false := by
  intro c hc
  rw [← Bool.not_eq_true]
  have hne : s.dropWhile p ≠ [] := by
    intro hnil
    rw [hnil] at hc
    cases hc
  have hhead := List.head_dropWhile_not p hne
  rw [List.head?_eq_some_head hne] at hc
  rw [← Option.some.inj hc]
  simpa using hhead

theorem last_rdropWhile (p : α → Bool) (s : List α) :
    ∀ c ∈ (s.rdropWhile p).getLast?, p c = false := by
  intro c hc
  rw [List.rdropWhile, List.getLast?_reverse] at hc
  exact head_dropWhile p s.reverse c hc

theorem head_of_front {s t : List α} (h : s <+: t) : ∀ c ∈ s.head?, c ∈ t.head? := by
  intro c hc
  obtain ⟨rest, rfl⟩ := h
  cases s with
  | nil => cases hc
  | cons a s => simpa using hc

/-- What was trimmed is trimmed. -/
theorem trimmed_trim (p : α → Bool) (s : List α) : Trimmed p (trim p s) where
  head := fun c hc ↦
    head_dropWhile p s c (head_of_front (List.rdropWhile_prefix p _) c hc)
  last := last_rdropWhile p _

/-- Nothing is trimmed from a trimmed text. -/
theorem Trimmed.trim_eq {s : List α} (h : Trimmed p s) : trim p s = s := by
  have hdrop : s.dropWhile p = s := by
    rw [List.dropWhile_eq_self_iff]
    intro hpos
    simp [h.head s[0] (by simp [List.head?_eq_getElem?, hpos])]
  rw [trim, hdrop, List.rdropWhile_eq_self_iff]
  intro hne
  simp [h.last _ (List.getLast_mem_getLast? hne)]

theorem trim_trim (s : List α) : trim p (trim p s) = trim p s := (trimmed_trim p s).trim_eq

/-- Trimming adds nothing. -/
theorem mem_of_mem_trim {s : List α} {c : α} (h : c ∈ trim p s) : c ∈ s :=
  (List.dropWhile_sublist p).subset ((List.rdropWhile_prefix p _).subset h)

/-- Two trimmed texts and something that is not trimmed between them make a trimmed text. -/
theorem Trimmed.append {s t : List α} (hs : Trimmed p s) (ht : Trimmed p t) {d : α}
    (hd : p d = false) : Trimmed p (s ++ d :: t) where
  head := fun c hc ↦ by
    cases s with
    | nil =>
      obtain rfl : d = c := by simpa using hc
      exact hd
    | cons a s => exact hs.head c (by simpa using hc)
  last := fun c hc ↦ by
    rw [List.getLast?_append, List.getLast?_cons] at hc
    cases hl : t.getLast? with
    | none =>
      rw [hl] at hc
      obtain rfl : d = c := by simpa using hc
      exact hd
    | some b =>
      rw [hl] at hc
      obtain rfl : b = c := by simpa using hc
      exact ht.last b hl

/-- Trimmed parts make a trimmed text. -/
theorem trimmed_join {d : α} {ws : List (List α)} (hd : p d = false) (h : ∀ w ∈ ws, Trimmed p w) :
    Trimmed p (join d ws) := by
  induction ws with
  | nil => exact trimmed_nil
  | cons w rest ih =>
    cases rest with
    | nil =>
      have hjoin : join d [w] = w := List.intercalate_singleton
      rw [hjoin]
      exact h w List.mem_cons_self
    | cons q rest =>
      rw [join_cons_cons]
      exact (h w List.mem_cons_self).append
        (ih fun v hv ↦ h v (List.mem_cons_of_mem w hv)) hd

variable [DecidableEq α]

/-- A text before the first delimiter, and after it. -/
def partition (d : α) (s : List α) : List α × List α :=
  (s.takeWhile (· ≠ d), (s.dropWhile (· ≠ d)).tail)

theorem partition_append {d : α} {s t : List α} (h : d ∉ s) :
    partition d (s ++ d :: t) = (s, t) := by
  have hall : ∀ c ∈ s, (decide (c ≠ d)) = true := by
    intro c hc
    simp only [decide_eq_true_eq]
    rintro rfl
    exact h hc
  rw [partition, List.takeWhile_append_of_pos hall, List.dropWhile_append_of_pos hall]
  simp

theorem not_mem_partition (d : α) (s : List α) : d ∉ (partition d s).1 := by
  intro h
  simpa using List.mem_takeWhile_imp h

theorem mem_of_mem_partition {d : α} {s : List α} {c : α}
    (h : c ∈ (partition d s).1 ∨ c ∈ (partition d s).2) : c ∈ s := by
  rcases h with h | h
  · exact (List.takeWhile_prefix _).subset h
  · exact (List.dropWhile_sublist _).subset (List.mem_of_mem_tail h)

/-- The parts of a text between delimiters, trimmed, without the empty ones. -/
def parts (p : α → Bool) (d : α) (s : List α) : List (List α) :=
  ((s.splitOn d).map (trim p)).filter (· ≠ [])

/-- A part that a list in a text can hold. -/
structure Part (p : α → Bool) (d : α) (s : List α) : Prop where
  trimmed : Trimmed p s
  nonempty : s ≠ []
  plain : d ∉ s

/-- The delimiter stands in no part. -/
theorem not_mem_splitOn {d : α} {s w : List α} (h : w ∈ s.splitOn d) : d ∉ w := by
  induction hlen : s.length using Nat.strongRecOn generalizing s with
  | ind n ih =>
    by_cases hd : d ∈ s
    · obtain ⟨front, back, rfl, hfront⟩ := List.eq_append_cons_of_mem hd
      rw [List.splitOn_append_cons_self_of_not_mem hfront] at h
      rcases List.mem_cons.mp h with rfl | hback
      · exact hfront
      · rw [List.length_append, List.length_cons] at hlen
        exact ih back.length (by omega) hback rfl
    · rw [List.splitOn_eq_singleton hd] at h
      rw [List.mem_singleton.mp h]
      exact hd

theorem mem_of_mem_splitOn {d : α} {s w : List α} (h : w ∈ s.splitOn d) : ∀ c ∈ w, c ∈ s := by
  intro c hc
  have hjoin : join d (s.splitOn d) = s := List.intercalate_splitOn d
  rw [← hjoin]
  exact (infix_join d h).subset hc

/-- What is read is trimmed, is not empty and holds no delimiter. -/
theorem part_of_mem_parts {d : α} {s w : List α} (h : w ∈ parts p d s) : Part p d w := by
  obtain ⟨hmap, hne⟩ := List.mem_filter.mp h
  obtain ⟨v, hv, rfl⟩ := List.mem_map.mp hmap
  exact ⟨trimmed_trim p v, of_decide_eq_true hne, fun hd ↦
    not_mem_splitOn hv (mem_of_mem_trim hd)⟩

theorem mem_of_mem_parts {d : α} {s w : List α} (h : w ∈ parts p d s) : ∀ c ∈ w, c ∈ s := by
  intro c hc
  obtain ⟨hmap, -⟩ := List.mem_filter.mp h
  obtain ⟨v, hv, rfl⟩ := List.mem_map.mp hmap
  exact mem_of_mem_splitOn hv c (mem_of_mem_trim hc)

/-- What can be a part is read back from the text that lists it. -/
theorem parts_join {d : α} {ws : List (List α)} (h : ∀ w ∈ ws, Part p d w) :
    parts p d (join d ws) = ws := by
  cases ws with
  | nil => simp [parts, join, trim]
  | cons w ws =>
    rw [parts, join, List.splitOn_intercalate d (fun l hl ↦ (h l hl).plain) (by simp)]
    have htrim : (w :: ws).map (trim p) = w :: ws := by
      calc (w :: ws).map (trim p) = (w :: ws).map id :=
            List.map_congr_left fun l hl ↦ (h l hl).trimmed.trim_eq
        _ = w :: ws := List.map_id _
    rw [htrim, List.filter_eq_self]
    intro l hl
    simpa using (h l hl).nonempty

end CFactory.Base
