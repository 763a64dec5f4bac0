import CFactory.Base.Dict

/-!
# Dictionaries made entry by entry

A comprehension computes a value for each of several items and sets it under the item's key. It
fails with the first value that fails; else every key has its own item's value. Nothing here names
an application.
-/

namespace CFactory.Base.Dict

universe u v w

variable {κ : Type u} {α β : Type v} {ε : Type w} [DecidableEq κ] {key : β → κ}
  {f : β → Except ε α}

/-- Set the value of each item under its key. -/
def comprehend (key : β → κ) (f : β → Except ε α) : List β → Dict κ α → Except ε (Dict κ α)
  | [], d => .ok d
  | b :: rest, d =>
    match f b with
    | .error e => .error e
    | .ok a => comprehend key f rest (d.set (key b) a)

/-- Where every value is computed, each key has that of its item. -/
theorem comprehend_ok (key : β → κ) (f : β → Except ε α) {bs : List β}
    (hkeys : (bs.map key).Nodup) (h : ∀ b ∈ bs, ∃ a, f b = .ok a) (d : Dict κ α) :
    ∃ d', comprehend key f bs d = .ok d' ∧
      (∀ b ∈ bs, ∀ a, f b = .ok a → d'.get? (key b) = some a) ∧
      ∀ k, k ∉ bs.map key → d'.get? k = d.get? k := by
  induction bs generalizing d with
  | nil => exact ⟨d, rfl, by simp, fun k _ ↦ rfl⟩
  | cons b rest ih =>
    rw [List.map_cons, List.nodup_cons] at hkeys
    obtain ⟨a, ha⟩ := h b List.mem_cons_self
    obtain ⟨d', hrun, hset, hother⟩ :=
      ih hkeys.2 (fun c hc ↦ h c (List.mem_cons_of_mem _ hc)) (d.set (key b) a)
    refine ⟨d', by rw [comprehend, ha]; exact hrun, ?_, ?_⟩
    · intro c hc v hv
      rcases List.mem_cons.mp hc with rfl | hc
      · rw [ha] at hv
        cases hv
        rw [hother _ hkeys.1, get?_set, if_pos rfl]
      · exact hset c hc v hv
    · intro k hk
      rw [List.map_cons, List.mem_cons, not_or] at hk
      rw [hother k hk.2, get?_set, if_neg hk.1]

/-- Where a value fails, so does the whole. -/
theorem comprehend_error {bs : List β} (h : ∃ b ∈ bs, ∃ e, f b = .error e) (d : Dict κ α) :
    ∃ e, comprehend key f bs d = .error e := by
  induction bs generalizing d with
  | nil =>
    obtain ⟨b, hb, -⟩ := h
    cases hb
  | cons b rest ih =>
    rw [comprehend]
    cases hb : f b with
    | error e => exact ⟨e, rfl⟩
    | ok a =>
      apply ih
      obtain ⟨c, hc, e, he⟩ := h
      rcases List.mem_cons.mp hc with rfl | hc
      · rw [hb] at he
        cases he
      · exact ⟨c, hc, e, he⟩

end CFactory.Base.Dict
