import CFactory.Model.Types

/-!
# How far a project was imported

`cards.py:515–549,2379–2516`. The row a tenant keeps of each project it imports from: the
cursor of the next pass, the time of the last read, and the poller that owns the cycle.
-/

namespace CFactory.Import

open CFactory.Model

/-- `ImportStateRow`; `cards.py:515–549`. -/
structure ImportStateRow where
  tenantId : String
  project : String
  lastSyncedAt : Option Time := none
  lastPolledAt : Option Time := none
  pollLeasedUntil : Option Time := none
  deriving DecidableEq, Repr

/-- The rows of `card_import_state`. -/
abbrev ImportStates := List ImportStateRow

/-- The row is that of a project of the tenant. -/
def keyed (tenant project : String) (r : ImportStateRow) : Bool :=
  r.tenantId == tenant && r.project == project

/-- The row of a project. -/
def stateOf (s : ImportStates) (tenant project : String) : Option ImportStateRow :=
  s.find? (keyed tenant project)

/-- `get_watermark`; `cards.py:2381–2392`. -/
def getWatermark (s : ImportStates) (tenant project : String) : Option Time :=
  (stateOf s tenant project).bind ImportStateRow.lastSyncedAt

/-- `_upsert_import_state`; `cards.py:2398–2422`. -/
def upsertImportState (s : ImportStates) (tenant project : String)
    (f : ImportStateRow → ImportStateRow) : ImportStates :=
  match stateOf s tenant project with
  | none => s ++ [f { tenantId := tenant, project := project }]
  | some _ => s.map fun r ↦ if keyed tenant project r then f r else r

/-- `set_watermark`; `cards.py:2394–2396`. -/
def setWatermark (s : ImportStates) (tenant project : String) (when : Time) : ImportStates :=
  upsertImportState s tenant project fun r ↦ { r with lastSyncedAt := some when }

/-- `mark_polled`; `cards.py:2445–2453`. -/
def markPolled (s : ImportStates) (tenant project : String) (when : Time) : ImportStates :=
  upsertImportState s tenant project fun r ↦ { r with lastPolledAt := some when }

/-- Another poller owns the cycle. -/
def leased (s : ImportStates) (tenant project : String) (now : Time) : Bool :=
  ((stateOf s tenant project).bind ImportStateRow.pollLeasedUntil).any (now < ·)

/-- `claim_import_lease`, read and write together; `cards.py:2455–2516`. -/
def claimImportLease (s : ImportStates) (tenant project : String) (ttl now : Time) :
    Bool × ImportStates :=
  if leased s tenant project now then (false, s)
  else
    (true,
      upsertImportState s tenant project fun r ↦ { r with pollLeasedUntil := some (now + ttl) })

/-! ## Reading after writing -/

/-- A write that stays within its key. -/
def KeepsProject (f : ImportStateRow → ImportStateRow) : Prop :=
  ∀ r, (f r).tenantId = r.tenantId ∧ (f r).project = r.project

private theorem keyed_iff {tenant project : String} {r : ImportStateRow} :
    keyed tenant project r = true ↔ r.tenantId = tenant ∧ r.project = project := by
  rw [keyed, Bool.and_eq_true, beq_iff_eq, beq_iff_eq]

/-- What is read under a key after a write under one. -/
theorem stateOf_upsert (s : ImportStates) (tenant project project' : String)
    {f : ImportStateRow → ImportStateRow} (hf : KeepsProject f) :
    stateOf (upsertImportState s tenant project f) tenant project' =
      if project' = project then
        some (f ((stateOf s tenant project).getD { tenantId := tenant, project := project }))
      else stateOf s tenant project' := by
  have hkeyed : ∀ r, keyed tenant project' (f r) = keyed tenant project' r := by
    intro r
    rw [keyed, keyed, (hf r).1, (hf r).2]
  rw [upsertImportState]
  cases hs : stateOf s tenant project with
  | none =>
    show stateOf (s ++ [f _]) tenant project' = _
    rw [stateOf, List.find?_append, List.find?_singleton, hkeyed]
    by_cases hproject : project' = project
    · subst hproject
      have hself : keyed tenant project' ⟨tenant, project', none, none, none⟩ = true :=
        keyed_iff.mpr ⟨rfl, rfl⟩
      rw [stateOf] at hs
      rw [hs, if_pos rfl, if_pos hself]
      rfl
    · have hother : ¬keyed tenant project' ⟨tenant, project, none, none, none⟩ = true := by
        rw [keyed_iff]
        exact fun h ↦ hproject h.2.symm
      rw [if_neg hproject, if_neg hother, Option.or_none]
      rfl
  | some row =>
    show stateOf (s.map _) tenant project' = _
    have hcomp : (keyed tenant project' ∘ fun r ↦ if keyed tenant project r then f r else r) =
        keyed tenant project' := by
      funext r
      show keyed tenant project' (if keyed tenant project r then f r else r) = _
      split
      · exact hkeyed r
      · rfl
    rw [stateOf, List.find?_map, hcomp]
    by_cases hproject : project' = project
    · subst hproject
      have hrow : keyed tenant project' row = true := List.find?_some hs
      rw [stateOf] at hs
      rw [hs, if_pos rfl, Option.map_some, if_pos hrow, Option.getD_some]
    · rw [if_neg hproject, stateOf]
      cases hs' : s.find? (keyed tenant project') with
      | none => rfl
      | some row' =>
        have hrow := keyed_iff.mp (List.find?_some hs')
        have hother : ¬keyed tenant project row' = true := by
          rw [keyed_iff]
          exact fun h ↦ hproject (hrow.2.symm.trans h.2)
        rw [Option.map_some, if_neg hother]

/-- A write under another key is not seen. -/
theorem stateOf_upsert_other (s : ImportStates) {tenant project project' : String}
    {f : ImportStateRow → ImportStateRow} (hf : KeepsProject f) (h : project' ≠ project) :
    stateOf (upsertImportState s tenant project f) tenant project' = stateOf s tenant project' := by
  rw [stateOf_upsert s tenant project project' hf, if_neg h]

end CFactory.Import
