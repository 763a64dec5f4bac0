import CFactory.Model.Types
import Mathlib.Data.List.MinMax

/-!
# Planning cards and their table

`cards.py:164–376,769–827,887–908`. A card row, its per-stage dispatch records, and the
reads and the update of the store that stage actions and the status write-back use.
-/

namespace CFactory.Cards

open CFactory.Model

/-- `CardStatus`: the board columns; `cards.py:98`. -/
inductive CardStatus where
  | backlog
  | ready
  | inProgress
  | blocked
  | done
  deriving DecidableEq, Repr

/-- `CardTier`; `cards.py:101`. -/
inductive CardTier where
  | low
  | medium
  | hard
  deriving DecidableEq, Repr

/-- States of a dispatch record; `card_intake.py:96–99`. -/
inductive RunStatus where
  | queued
  | dispatched
  | done
  | failed
  deriving DecidableEq, Repr

/-- One stage's dispatch record, `{service, status, dispatched_at, ref, detail}`;
`card_intake.py:450–455`. -/
structure StageRun where
  service : Option Service := none
  status : Option RunStatus := none
  dispatchedAt : Option Time := none
  ref : Option String := none
  detail : Option String := none
  deriving DecidableEq

/-- `cards.stage_runs`. Keys other than the three stage names are never written. -/
abbrev StageRuns := Stage → Option StageRun

/-- `Card`; `cards.py:330–376`. -/
structure Card where
  cardKey : String
  tenantId : String := "default"
  title : String
  description : Option String := none
  acceptanceCriteria : List String := []
  status : CardStatus := .backlog
  priority : Int := 0
  tier : Option CardTier := none
  assignee : Option String := none
  milestone : Option String := none
  correlationKey : Option String := none
  issueRef : Option String := none
  repositoryId : Option Nat := none
  issueState : Option String := none
  labels : List String := []
  githubSyncError : Option String := none
  stageRuns : StageRuns := fun _ ↦ none
  commentsSyncedAt : Option Time := none
  deletedAt : Option Time := none
  createdAt : Time := 0
  updatedAt : Time := 0
  deriving DecidableEq

/-- `CardRow`: a card under its primary key; `cards.py:164–258`. -/
structure CardRow where
  id : Nat
  card : Card
  deriving DecidableEq

/-- The card columns a stage action or the write-back assigns; `None` leaves a column
alone. None of them is part of a unique index, so such an update never conflicts. -/
structure StageChanges where
  stageRuns : Option StageRuns := none
  status : Option CardStatus := none
  correlationKey : Option String := none

/-- `setattr` for every assigned column, then `updated_at`; `cards.py:902–904`. -/
def StageChanges.apply (ch : StageChanges) (now : Time) (c : Card) : Card :=
  { c with
    stageRuns := ch.stageRuns.getD c.stageRuns
    status := ch.status.getD c.status
    correlationKey := ch.correlationKey.or c.correlationKey
    updatedAt := now }

/-- The rows of `cards`, in primary-key order. -/
abbrev CardTable := List CardRow

/-- `_select`: rows in the store's tenant scope (`none` is unscoped) that are not
tombstoned; `cards.py:769–782`. -/
def visible (scope : Option String) (r : CardRow) : Bool :=
  scope.all (· == r.card.tenantId) && r.card.deletedAt.isNone

/-- `_get_row`; `cards.py:784–785`. -/
def getRow (t : CardTable) (scope : Option String) (cardKey : String) : Option CardRow :=
  t.find? fun r ↦ visible scope r && r.card.cardKey == cardKey

/-- `get`; `cards.py:809–812`. -/
def get (t : CardTable) (scope : Option String) (cardKey : String) : Option Card :=
  (getRow t scope cardKey).map CardRow.card

/-- The row `get_by_correlation_key` reads: the oldest visible match; `cards.py:814–827`. -/
def joinedRow (t : CardTable) (scope : Option String) (key : String) : Option CardRow :=
  @List.argmin _ Time Int.instLinearOrder.toPreorder _ (fun r ↦ r.card.createdAt)
    (t.filter fun r ↦ visible scope r && r.card.correlationKey == some key)

/-- `get_by_correlation_key`; `cards.py:814–827`. -/
def getByCorrelationKey (t : CardTable) (scope : Option String) (key : String) : Option Card :=
  (joinedRow t scope key).map CardRow.card

/-- Replace the card of one row. -/
def modifyRow (t : CardTable) (id : Nat) (f : Card → Card) : CardTable :=
  t.map fun r ↦ if r.id = id then { r with card := f r.card } else r

/-- `update` with stage columns only; `cards.py:887–908`. -/
def update (t : CardTable) (scope : Option String) (cardKey : String) (ch : StageChanges)
    (now : Time) : Option Card × CardTable :=
  match getRow t scope cardKey with
  | none => (none, t)
  | some r => (some (ch.apply now r.card), modifyRow t r.id (ch.apply now))

/-- The card stored under a primary key. -/
def stored (t : CardTable) (id : Nat) : Option Card :=
  (t.find? fun r ↦ r.id == id).map CardRow.card

/-- Primary keys are distinct. -/
def Keyed (t : CardTable) : Prop := (t.map CardRow.id).Nodup

/-- The row that a card is joined by is a visible one with that correlation key. -/
theorem joinedRow_spec {t : CardTable} {scope : Option String} {key : String} {r : CardRow}
    (h : joinedRow t scope key = some r) :
    r ∈ t ∧ visible scope r = true ∧ r.card.correlationKey = some key := by
  have hmem := List.mem_filter.mp (List.argmin_mem (Option.mem_def.mpr h))
  rw [Bool.and_eq_true, beq_iff_eq] at hmem
  exact hmem

end CFactory.Cards
