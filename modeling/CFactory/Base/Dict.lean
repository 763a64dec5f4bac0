import Mathlib.Data.List.Induction
import Mathlib.Data.List.Nodup

/-!
# Insertion-ordered dictionaries

Finite maps that remember the order in which their keys first appeared, as the objects of
the modelled language and of its JSON columns do. Setting a present key keeps its place.
-/

namespace CFactory.Base

universe u v

/-- A finite map with distinct keys, in order of first insertion. -/
structure Dict (κ : Type u) (α : Type v) where
  entries : List (κ × α)
  nodup : (entries.map Prod.fst).Nodup
  deriving DecidableEq

namespace Dict

variable {κ : Type u} {α : Type v} [DecidableEq κ]

/-- The map without entries. -/
def empty : Dict κ α := ⟨[], List.nodup_nil⟩

/-- The value stored under a key. -/
def get? (d : Dict κ α) (k : κ) : Option α := d.entries.lookup k

/-- The stored values in insertion order. -/
def values (d : Dict κ α) : List α := d.entries.map Prod.snd

/-- Replace the value of a present key in place, or append a fresh entry. -/
def setEntries (k : κ) (a : α) : List (κ × α) → List (κ × α)
  | [] => [(k, a)]
  | e :: rest => if e.1 = k then (k, a) :: rest else e :: setEntries k a rest

private theorem mem_setEntries {k x : κ} {a : α} {es : List (κ × α)}
    (h : x ∈ (setEntries k a es).map Prod.fst) : x = k ∨ x ∈ es.map Prod.fst := by
  induction es with
  | nil => simpa [setEntries] using h
  | cons e rest ih =>
    simp only [setEntries] at h
    split at h
    · next he =>
      rcases List.mem_cons.mp h with hx | hx
      · exact Or.inl hx
      · exact Or.inr (List.mem_cons_of_mem _ hx)
    · rcases List.mem_cons.mp h with hx | hx
      · exact Or.inr (hx ▸ List.mem_cons_self)
      · exact (ih hx).imp id (List.mem_cons_of_mem _)

private theorem nodup_setEntries {k : κ} {a : α} {es : List (κ × α)}
    (h : (es.map Prod.fst).Nodup) : ((setEntries k a es).map Prod.fst).Nodup := by
  induction es with
  | nil => simp [setEntries]
  | cons e rest ih =>
    have hrest := List.nodup_cons.mp h
    simp only [setEntries]
    split
    · next he => subst he; exact h
    · next he =>
      refine List.nodup_cons.mpr ⟨?_, ih hrest.2⟩
      intro hm
      rcases mem_setEntries hm with hx | hx
      · exact he hx
      · exact hrest.1 hx

/-- Store a value under a key. -/
def set (d : Dict κ α) (k : κ) (a : α) : Dict κ α :=
  ⟨setEntries k a d.entries, nodup_setEntries d.nodup⟩

/-- The stored value, or a default for an absent key. -/
def getD (d : Dict κ α) (k : κ) (a : α) : α := (d.get? k).getD a

/-- Two maps hold the same values, in whatever order; equality of the modelled language. -/
def Same (d e : Dict κ α) : Prop := ∀ k, d.get? k = e.get? k

/-- A mapping is the same as itself. -/
theorem Same.refl (d : Dict κ α) : d.Same d := fun _ ↦ rfl

/-- `==` of the modelled language, on maps that are compared by a program. -/
def equal [DecidableEq α] (d e : Dict κ α) : Bool :=
  d.entries.length == e.entries.length && d.entries.all fun x ↦ decide (e.get? x.1 = some x.2)

private theorem lookup_of_mem {es : List (κ × α)} (h : (es.map Prod.fst).Nodup) {x : κ × α}
    (hx : x ∈ es) : es.lookup x.1 = some x.2 := by
  induction es with
  | nil => simp at hx
  | cons e rest ih =>
    have hnd := List.nodup_cons.mp h
    rcases List.mem_cons.mp hx with rfl | hx
    · exact List.lookup_cons_self
    · have hne : x.1 ≠ e.1 := fun he ↦ hnd.1 (he ▸ List.mem_map_of_mem hx)
      have hb : (x.1 == e.1) = false := by simpa using hne
      rw [List.lookup_cons, hb]
      exact ih hnd.2 hx

/-- A stored entry is the value under its key. -/
theorem get?_eq_some_iff (d : Dict κ α) (k : κ) (a : α) :
    d.get? k = some a ↔ (k, a) ∈ d.entries := by
  constructor
  · intro h
    unfold get? at h
    generalize d.entries = es at h ⊢
    induction es with
    | nil => simp at h
    | cons e rest ih =>
      rw [List.lookup_cons] at h
      split at h
      · next hk =>
        rw [beq_iff_eq.mp hk, ← Option.some.inj h]
        exact List.mem_cons_self
      · exact List.mem_cons_of_mem _ (ih h)
  · intro h
    exact lookup_of_mem d.nodup h

/-- A value under a key is one of the values. -/
theorem mem_values {d : Dict κ α} {k : κ} {a : α} (h : d.get? k = some a) : a ∈ d.values :=
  List.mem_map.mpr ⟨(k, a), (get?_eq_some_iff d k a).mp h, rfl⟩

/-- The values are those under some key. -/
theorem exists_key {d : Dict κ α} {a : α} (h : a ∈ d.values) : ∃ k, d.get? k = some a := by
  obtain ⟨⟨k, a⟩, hmem, rfl⟩ := List.mem_map.mp h
  exact ⟨k, (get?_eq_some_iff d k a).mpr hmem⟩

private theorem lookup_setEntries (k x : κ) (a : α) (es : List (κ × α)) :
    (setEntries k a es).lookup x = if x = k then some a else es.lookup x := by
  induction es with
  | nil =>
    by_cases hx : x = k
    · simp [setEntries, hx]
    · simp [setEntries, List.lookup_cons, beq_eq_false_iff_ne.mpr hx, hx]
  | cons e rest ih =>
    obtain ⟨y, b⟩ := e
    simp only [setEntries]
    by_cases hk : y = k
    · rw [if_pos hk, List.lookup_cons]
      by_cases hx : x = k
      · simp [hx]
      · simp [hx, beq_eq_false_iff_ne.mpr hx, List.lookup_cons, hk]
    · rw [if_neg hk, List.lookup_cons, List.lookup_cons, ih]
      by_cases hx : x = y
      · simp [hx, hk]
      · simp [beq_eq_false_iff_ne.mpr hx]

/-- Storing a value changes that key alone. -/
theorem get?_set (d : Dict κ α) (k x : κ) (a : α) :
    (d.set k a).get? x = if x = k then some a else d.get? x :=
  lookup_setEntries k x a d.entries

private theorem setEntries_of_not_mem {k : κ} {a : α} {es : List (κ × α)}
    (h : k ∉ es.map Prod.fst) : setEntries k a es = es ++ [(k, a)] := by
  induction es with
  | nil => rfl
  | cons e rest ih =>
    rw [List.map_cons, List.mem_cons, not_or] at h
    rw [setEntries, if_neg (Ne.symm h.1), ih h.2, List.cons_append]

private theorem entries_foldl_set {es : List (κ × α)} {d : Dict κ α}
    (h : ((d.entries ++ es).map Prod.fst).Nodup) :
    (es.foldl (fun e x ↦ e.set x.1 x.2) d).entries = d.entries ++ es := by
  induction es generalizing d with
  | nil => rw [List.append_nil, List.foldl_nil]
  | cons x rest ih =>
    have hnew : x.1 ∉ d.entries.map Prod.fst := by
      rw [List.map_append, List.nodup_append'] at h
      exact fun hmem ↦ h.2.2 hmem List.mem_cons_self
    have hset : (d.set x.1 x.2).entries = d.entries ++ [x] := setEntries_of_not_mem hnew
    rw [List.foldl_cons, ih (by rw [hset, List.append_assoc]; exact h), hset, List.append_assoc]
    rfl

/-- Storing the entries of a map one after the other gives the map. -/
theorem foldl_set_entries (d : Dict κ α) :
    d.entries.foldl (fun e x ↦ e.set x.1 x.2) empty = d := by
  have h : (d.entries.foldl (fun e x ↦ e.set x.1 x.2) (empty : Dict κ α)).entries = d.entries :=
    entries_foldl_set d.nodup
  revert h
  generalize d.entries.foldl (fun e x ↦ e.set x.1 x.2) (empty : Dict κ α) = e
  intro h
  cases d
  cases e
  congr

/-- What is stored after storing a value is that value or was stored before. -/
theorem mem_entries_set {d : Dict κ α} {k : κ} {a : α} {x : κ × α}
    (h : x ∈ (d.set k a).entries) : x = (k, a) ∨ x ∈ d.entries := by
  rw [← get?_eq_some_iff, get?_set] at h
  split at h
  · next hk =>
    left
    exact Prod.ext hk (Option.some.inj h).symm
  · exact .inr ((get?_eq_some_iff d x.1 x.2).mp h)

/-- A map equals itself. -/
theorem equal_self [DecidableEq α] (d : Dict κ α) : d.equal d = true := by
  have hall : ∀ x ∈ d.entries, d.get? x.1 = some x.2 := fun x hx ↦ lookup_of_mem d.nodup hx
  simpa [equal] using hall

/-! ### Grouping a list -/

section
variable {β : Type v} (key : β → κ)

/-- Collect the items of a list under their keys: a group keeps the order of its items, and
the groups that of their first items. -/
def groupBy (items : List β) : Dict κ (List β) :=
  items.foldl (fun groups i ↦ groups.set (key i) (groups.getD (key i) [] ++ [i])) empty

/-- The group of a key is what the list has under it. -/
theorem get?_groupBy (items : List β) (k : κ) :
    (groupBy key items).get? k =
      if items.filter (fun i ↦ key i = k) = [] then none
      else some (items.filter fun i ↦ key i = k) := by
  induction items using List.reverseRecOn with
  | nil => simp [groupBy, empty, get?]
  | append_singleton xs i ih =>
    have hstep : groupBy key (xs ++ [i]) =
        (groupBy key xs).set (key i) ((groupBy key xs).getD (key i) [] ++ [i]) := by
      rw [groupBy, List.foldl_append]
      rfl
    rw [hstep, get?_set, List.filter_append]
    by_cases hk : k = key i
    · subst hk
      rw [if_pos rfl, getD, ih]
      by_cases hnil : xs.filter (fun j ↦ key j = key i) = []
      · simp [hnil]
      · rw [if_neg hnil]
        simp
    · rw [if_neg hk, ih]
      simp [Ne.symm hk]

/-- A group is what the list has under its key. -/
theorem mem_groupBy {items : List β} {k : κ} {group : List β}
    (h : (k, group) ∈ (groupBy key items).entries) :
    group = items.filter fun i ↦ key i = k := by
  rw [← get?_eq_some_iff, get?_groupBy] at h
  split at h
  · exact absurd h (by simp)
  · exact (Option.some.inj h).symm

end

omit [DecidableEq κ] in
/-- Of what is made of all values, a test that only one key's can pass sees only that. -/
theorem filter_flatMap_values {β : Type v} (d : Dict κ α) (f : α → List β) (p : β → Bool) {k : κ}
    {a : α} (hmem : (k, a) ∈ d.entries)
    (hother : ∀ e ∈ d.entries, e.1 ≠ k → ∀ b ∈ f e.2, p b = false) :
    (d.values.flatMap f).filter p = (f a).filter p := by
  have hnd := d.nodup
  unfold values
  generalize d.entries = es at hmem hother hnd ⊢
  induction es with
  | nil => simp at hmem
  | cons e rest ih =>
    have hcons := List.nodup_cons.mp hnd
    rw [List.map_cons, List.flatMap_cons, List.filter_append]
    rcases List.mem_cons.mp hmem with rfl | hmem
    · have hrest : ((rest.map Prod.snd).flatMap f).filter p = [] := by
        rw [List.filter_eq_nil_iff]
        intro b hb
        obtain ⟨x, hx, hbx⟩ := List.mem_flatMap.mp hb
        obtain ⟨e', he', rfl⟩ := List.mem_map.mp hx
        have hkey : e'.1 ∈ rest.map Prod.fst := List.mem_map_of_mem he'
        have hne : e'.1 ≠ k := fun h ↦ hcons.1 (h ▸ hkey)
        rw [hother e' (List.mem_cons_of_mem _ he') hne b hbx]
        exact Bool.false_ne_true
      rw [hrest, List.append_nil]
    · have hne : e.1 ≠ k := fun h ↦ hcons.1 (h ▸ List.mem_map_of_mem hmem)
      have hfirst : (f e.2).filter p = [] := by
        rw [List.filter_eq_nil_iff]
        intro b hb
        rw [hother e List.mem_cons_self hne b hb]
        exact Bool.false_ne_true
      rw [hfirst, List.nil_append]
      exact ih hmem (fun e' he' ↦ hother e' (List.mem_cons_of_mem _ he')) hcons.2

/-- A fold that sets one key to what the entries that pass bring reads that key as the last of
them. -/
theorem get?_foldl {f : Dict κ α → β → Dict κ α} {k : κ} {p : β → Bool} {v : β → α}
    (hf : ∀ d b, (f d b).get? k = if p b then some (v b) else d.get? k) (bs : List β)
    (d : Dict κ α) : (bs.foldl f d).get? k = ((bs.filter p).getLast?.map v).or (d.get? k) := by
  induction bs generalizing d with
  | nil => rfl
  | cons b rest ih =>
    rw [List.foldl_cons, ih, hf]
    by_cases hb : p b = true
    · rw [if_pos hb, List.filter_cons_of_pos hb, List.getLast?_cons]
      cases (rest.filter p).getLast? with
      | none => rfl
      | some m => rfl
    · rw [if_neg hb, List.filter_cons_of_neg hb]

end Dict

end CFactory.Base
