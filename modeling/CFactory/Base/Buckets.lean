import CFactory.Base.Dict
import Mathlib.Algebra.BigOperators.Group.List.Basic

/-!
# Buckets

Amounts are added into the buckets of a map, each under its key. Whatever the keys, the buckets hold
together what was added.
-/

namespace CFactory.Base.Dict

universe u v w x

variable {κ : Type u} {α : Type v} {M : Type w} [DecidableEq κ]

/-- What the values of a map hold together. -/
def total [AddCommMonoid M] (f : α → M) (d : Dict κ α) : M := (d.values.map f).sum

omit [DecidableEq κ] in
theorem total_entries [AddCommMonoid M] (f : α → M) (d : Dict κ α) :
    d.total f = (d.entries.map fun e ↦ f e.2).sum := by
  rw [total, values, List.map_map]
  rfl

/-- Maps with the same values hold the same together. -/
theorem total_same [AddCommMonoid M] {d e : Dict κ α} (h : d.Same e) (f : α → M) :
    d.total f = e.total f := by
  have hentries : d.entries.Perm e.entries := by
    refine (List.perm_ext_iff_of_nodup d.nodup.of_map e.nodup.of_map).mpr ?_
    rintro ⟨k, a⟩
    rw [← get?_eq_some_iff, ← get?_eq_some_iff, h k]
  rw [total_entries, total_entries, (hentries.map fun e ↦ f e.2).sum_eq]

private theorem sum_setEntries [AddCommMonoid M] (f : α → M) (k : κ) (a : α) (es : List (κ × α)) :
    ((setEntries k a es).map fun e ↦ f e.2).sum + ((es.lookup k).map f).getD 0 =
      (es.map fun e ↦ f e.2).sum + f a := by
  induction es with
  | nil => simp [setEntries]
  | cons e rest ih =>
    rw [setEntries, List.lookup_cons]
    by_cases hk : e.1 = k
    · rw [if_pos hk, beq_iff_eq.mpr hk.symm, List.map_cons, List.map_cons, List.sum_cons,
        List.sum_cons, Option.map_some, Option.getD_some]
      show f a + (rest.map fun e ↦ f e.2).sum + f e.2 = f e.2 + (rest.map fun e ↦ f e.2).sum + f a
      ac_rfl
    · rw [if_neg hk, beq_eq_false_iff_ne.mpr (Ne.symm hk), List.map_cons, List.map_cons,
        List.sum_cons, List.sum_cons, add_assoc, ih, add_assoc]

/-- A stored value comes in for the one that it replaces. -/
theorem total_set [AddCommMonoid M] (f : α → M) (d : Dict κ α) (k : κ) (a : α) :
    (d.set k a).total f + ((d.get? k).map f).getD 0 = d.total f + f a := by
  rw [total_entries, total_entries]
  exact sum_setEntries f k a d.entries

theorem mem_values_set {d : Dict κ α} {k : κ} {a b : α} (h : b ∈ (d.set k a).values) :
    b = a ∨ b ∈ d.values := by
  obtain ⟨x, hx⟩ := exists_key h
  rw [get?_set] at hx
  split at hx
  · exact .inl (Option.some.inj hx).symm
  · exact .inr (mem_values hx)

/-- Where adding to a bucket adds to what it holds, the buckets gain together what was added. -/
theorem total_foldl_set [AddCancelCommMonoid M] {β : Type x} (key : β → κ) {add : α → β → α}
    {zero : α} {f : α → M} {g : β → M} {P : α → Prop} (hzero : P zero ∧ f zero = 0)
    (hadd : ∀ a b, P a → P (add a b) ∧ f (add a b) = f a + g b) (bs : List β) {d : Dict κ α}
    (hd : ∀ a ∈ d.values, P a) :
    (∀ a ∈ (bs.foldl (fun d b ↦ d.set (key b) (add (d.getD (key b) zero) b)) d).values, P a) ∧
      (bs.foldl (fun d b ↦ d.set (key b) (add (d.getD (key b) zero) b)) d).total f =
        d.total f + (bs.map g).sum := by
  induction bs generalizing d with
  | nil => exact ⟨hd, (add_zero _).symm⟩
  | cons b rest ih =>
    have hbucket : P (d.getD (key b) zero) ∧
        f (d.getD (key b) zero) = ((d.get? (key b)).map f).getD 0 := by
      rw [getD]
      cases hget : d.get? (key b) with
      | none => exact hzero
      | some a => exact ⟨hd a (mem_values hget), rfl⟩
    obtain ⟨hnext, hgain⟩ := hadd _ b hbucket.1
    have hset := total_set f d (key b) (add (d.getD (key b) zero) b)
    rw [hgain, hbucket.2, add_left_comm, add_comm] at hset
    have hstep := ih (d := d.set (key b) (add (d.getD (key b) zero) b)) fun a ha ↦ by
      rcases mem_values_set ha with rfl | ha
      · exact hnext
      · exact hd a ha
    rw [List.foldl_cons, List.map_cons, List.sum_cons, ← add_assoc, ← add_left_cancel hset]
    exact hstep

end CFactory.Base.Dict
