import CFactory.Base.Prog
import CFactory.Store.Slice

/-!
# The work-item store

`store.py:178–227,367–400,467–732`. The rows of `work_items`, whose correlation keys are
unique across tenants, and the five writers. The two upserts are programs over single
statements, so that they can also be interleaved; the three housekeeping writers are one
transaction each. Every writer is given the clock reading it stamps.
-/

namespace CFactory.Store

open CFactory.Base CFactory.Model CFactory.Status

/-- `DEFAULT_TENANT`. -/
def DEFAULT_TENANT : String := "default"

/-- `WorkItemRow`; `store.py:367–401`. -/
structure WorkItemRow where
  tenantId : String
  item : WorkItem
  deriving DecidableEq

/-- The unique column. -/
abbrev WorkItemRow.key (r : WorkItemRow) : String := r.item.correlationKey

/-- A row is in a store's tenant scope (`none` is unscoped); `store.py:460–465`. -/
def inScope (scope : Option String) (r : WorkItemRow) : Bool := scope.all (· == r.tenantId)

/-- Columns that a statement assigns; an unassigned column keeps its value. -/
structure RowChanges where
  slice : Option (Service × ServiceState) := none
  title : Option String := none
  timeline : Option (List CompletionEvent) := none
  updatedAt : Time

/-- The work item after a statement assigned its columns. -/
def RowChanges.apply (ch : RowChanges) (item : WorkItem) : WorkItem :=
  { item with
    slice := match ch.slice with
      | none => item.slice
      | some (service, state) => Function.update item.slice service state
    title := ch.title.or item.title
    timeline := ch.timeline.getD item.timeline
    updatedAt := ch.updatedAt }

/-- What a transaction does to one row. -/
inductive RowAction where
  | keep
  | change (ch : RowChanges)
  | delete

/-- The row after an action, if it survives. -/
def RowAction.run : RowAction → WorkItemRow → Option WorkItemRow
  | .keep, r => some r
  | .change ch, r => some { r with item := ch.apply r.item }
  | .delete, _ => none

/-- The table, with the unique constraint on its correlation keys. -/
structure WorkItemTable where
  rows : List WorkItemRow
  unique : (rows.map WorkItemRow.key).Nodup

namespace WorkItemTable

/-- The table of a new database. -/
def empty : WorkItemTable := ⟨[], List.nodup_nil⟩

/-- A table is given by its rows. -/
@[ext] theorem ext {t u : WorkItemTable} (h : t.rows = u.rows) : t = u := by
  cases t
  cases u
  rw [mk.injEq]
  exact h

/-- The row under a key, whatever its tenant. -/
def row? (t : WorkItemTable) (key : String) : Option WorkItemRow :=
  t.rows.find? fun r ↦ r.key == key

/-- Rows surviving an action are renamed by none. -/
theorem key_of_run {a : RowAction} {r r' : WorkItemRow} (h : a.run r = some r') :
    r'.key = r.key := by
  cases a with
  | keep => rw [Option.some.inj h]
  | change ch => rw [← Option.some.inj h]; rfl
  | delete => exact absurd h (by simp [RowAction.run])

private theorem keys_sublist (rows : List WorkItemRow) (f : WorkItemRow → RowAction) :
    ((rows.filterMap fun r ↦ (f r).run r).map WorkItemRow.key).Sublist
      (rows.map WorkItemRow.key) := by
  induction rows with
  | nil => exact List.Sublist.refl _
  | cons r rest ih =>
    rw [List.filterMap_cons, List.map_cons]
    cases h : (f r).run r with
    | none => exact ih.cons _
    | some r' =>
      rw [List.map_cons, key_of_run h]
      exact ih.cons_cons _

/-- Act on every row. -/
def act (t : WorkItemTable) (f : WorkItemRow → RowAction) : WorkItemTable :=
  ⟨t.rows.filterMap fun r ↦ (f r).run r, t.unique.sublist (keys_sublist t.rows f)⟩

private theorem key_fresh {t : WorkItemTable} {key : String} (h : t.row? key = none) :
    key ∉ t.rows.map WorkItemRow.key := by
  intro hm
  obtain ⟨r, hr, rfl⟩ := List.mem_map.mp hm
  have := List.find?_eq_none.mp h r hr
  simp at this

/-- `INSERT`: false for the `IntegrityError` of a key that is taken. -/
def insert (t : WorkItemTable) (r : WorkItemRow) : Bool × WorkItemTable :=
  match h : t.row? r.key with
  | some _ => (false, t)
  | none => (true, ⟨t.rows ++ [r], by
      rw [List.map_append, List.map_singleton]
      exact t.unique.append (List.nodup_singleton _) (by
        intro k hk hk'
        rw [List.mem_singleton.mp hk'] at hk
        exact key_fresh h hk)⟩)

/-- `_get_row`: the row under a key, in the store's tenant scope; `store.py:729–732`. -/
def getRow (t : WorkItemTable) (scope : Option String) (key : String) : Option WorkItemRow :=
  t.rows.find? fun r ↦ inScope scope r && r.key == key

/-! ### Rows by key -/

private theorem find_unique {rows : List WorkItemRow} (h : (rows.map WorkItemRow.key).Nodup)
    (p : WorkItemRow → Bool) (key : String) :
    (rows.find? fun r ↦ p r && r.key == key) = (rows.find? fun r ↦ r.key == key).filter p := by
  induction rows with
  | nil => rfl
  | cons r rest ih =>
    have hnd := List.nodup_cons.mp h
    by_cases hk : r.key = key
    · have hnone : (rest.find? fun x ↦ p x && x.key == key) = none := by
        rw [List.find?_eq_none]
        intro x hx hxk
        simp only [Bool.and_eq_true, beq_iff_eq] at hxk
        exact hnd.1 (hk ▸ hxk.2 ▸ List.mem_map_of_mem hx)
      cases hp : p r <;> simp [hk, hp, hnone, Option.filter]
    · simp only [List.find?_cons, beq_eq_false_iff_ne.mpr hk, Bool.and_false]
      exact ih hnd.2

/-- The scoped row is the row under the key, if it is in scope. -/
theorem getRow_eq (t : WorkItemTable) (scope : Option String) (key : String) :
    t.getRow scope key = (t.row? key).filter (inScope scope) :=
  find_unique t.unique _ key

/-- The row under a key has that key. -/
theorem key_of_row {t : WorkItemTable} {key : String} {r : WorkItemRow}
    (h : t.row? key = some r) : r.key = key := by
  simpa using List.find?_some h

/-- A row of the table is the one under its key. -/
theorem row_of_mem {t : WorkItemTable} {r : WorkItemRow} (h : r ∈ t.rows) :
    t.row? r.key = some r := by
  cases hrow : t.row? r.key with
  | none =>
    have := List.find?_eq_none.mp hrow r h
    simp at this
  | some q =>
    have hmem : q ∈ t.rows := List.mem_of_find?_eq_some hrow
    rw [List.inj_on_of_nodup_map t.unique hmem h (key_of_row hrow)]

private theorem find_filterMap {rows : List WorkItemRow} (h : (rows.map WorkItemRow.key).Nodup)
    (f : WorkItemRow → RowAction) (key : String) :
    ((rows.filterMap fun r ↦ (f r).run r).find? fun r ↦ r.key == key) =
      (rows.find? fun r ↦ r.key == key).bind fun r ↦ (f r).run r := by
  induction rows with
  | nil => rfl
  | cons r rest ih =>
    have hnd := List.nodup_cons.mp h
    rw [List.filterMap_cons]
    by_cases hk : r.key = key
    · have hfind : ((r :: rest).find? fun r ↦ r.key == key) = some r := by
        rw [List.find?_cons, beq_iff_eq.mpr hk]
      rw [hfind, Option.bind_some]
      cases hr : (f r).run r with
      | none =>
        have hnone : (rest.find? fun r ↦ r.key == key) = none := by
          rw [List.find?_eq_none]
          intro x hx hxk
          exact hnd.1 (hk ▸ (beq_iff_eq.mp hxk) ▸ List.mem_map_of_mem hx)
        simp only
        rw [ih hnd.2, hnone, Option.bind_none]
      | some r' =>
        have hk' : r'.key = key := (key_of_run hr).trans hk
        simp only
        rw [List.find?_cons, beq_iff_eq.mpr hk']
    · have hfind : ((r :: rest).find? fun r ↦ r.key == key) =
          rest.find? fun r ↦ r.key == key := by
        rw [List.find?_cons, beq_eq_false_iff_ne.mpr hk]
      rw [hfind, ← ih hnd.2]
      cases hr : (f r).run r with
      | none => rfl
      | some r' =>
        have hk' : ¬ r'.key = key := fun he ↦ hk ((key_of_run hr).symm.trans he)
        simp only
        rw [List.find?_cons, beq_eq_false_iff_ne.mpr hk']

/-- Acting on every row acts on the row under a key. -/
theorem row_act (t : WorkItemTable) (f : WorkItemRow → RowAction) (key : String) :
    (t.act f).row? key = (t.row? key).bind fun r ↦ (f r).run r :=
  find_filterMap t.unique f key

/-- Acting on every row without effect leaves the table alone. -/
theorem act_kept {t : WorkItemTable} {f : WorkItemRow → RowAction}
    (h : ∀ r ∈ t.rows, (f r).run r = some r) : t.act f = t := by
  ext1
  show t.rows.filterMap (fun r ↦ (f r).run r) = t.rows
  rw [List.filterMap_congr h, List.filterMap_some]

/-- An insert fails exactly on a taken key, and adds the row otherwise. -/
theorem insert_eq (t : WorkItemTable) (r : WorkItemRow) :
    (t.insert r).1 = (t.row? r.key).isNone ∧
      ∀ key, (t.insert r).2.row? key =
        if key = r.key then (t.row? key).or (some r) else t.row? key := by
  unfold insert
  split
  · next x hx =>
    refine ⟨by simp [hx], ?_⟩
    intro key
    by_cases hk : key = r.key
    · rw [if_pos hk, hk, hx]
      rfl
    · rw [if_neg hk]
  · next hx =>
    refine ⟨by simp [hx], ?_⟩
    intro key
    simp only [row?, List.find?_append]
    by_cases hk : key = r.key
    · subst hk
      rw [if_pos rfl, List.find?_cons, beq_self_eq_true]
    · rw [if_neg hk, List.find?_cons, beq_eq_false_iff_ne.mpr (Ne.symm hk)]
      simp

/-- An insert under a taken key leaves the table alone. -/
theorem insert_of_taken {t : WorkItemTable} {r x : WorkItemRow} (h : t.row? r.key = some x) :
    t.insert r = (false, t) := by
  unfold insert
  split
  · rfl
  · next hnone => exact absurd (hnone.symm.trans h) (by simp)

end WorkItemTable

end CFactory.Store
