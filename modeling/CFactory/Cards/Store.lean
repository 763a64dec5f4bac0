import CFactory.Cards.Card
import CFactory.Cards.IssueRef

/-!
# The card store

`cards.py:250–258,380–451,769–908`. The unique indexes of the table, key assignment, the
insert and the partial update, each of which the indexes can refuse. Column widths are those
of the default database, which enforces none.
-/

namespace CFactory.Cards

open CFactory.Base
open CFactory.Model

/-! ## Reads -/

/-- Rows in the store's tenant scope, tombstones included; `cards.py:769–782`. -/
def inScope (scope : Option String) (r : CardRow) : Bool := scope.all (· == r.card.tenantId)

/-- The row `get_by_issue_ref` reads; `cards.py:829–839`. -/
def rowByIssueRef (t : CardTable) (scope : Option String) (ref : String) : Option CardRow :=
  t.find? fun r ↦ inScope scope r && r.card.issueRef == some ref

/-- `get_by_issue_ref`; `cards.py:829–839`. -/
def getByIssueRef (t : CardTable) (scope : Option String) (ref : String) : Option Card :=
  (rowByIssueRef t scope ref).map CardRow.card

/-- The tenant a store's writes stamp; `cards.py:843,1034`. -/
def tenantOf (scope : Option String) : String := scope.getD "default"

/-! ## Keys -/

/-- The zeros of the decimal digit ranges of the character database, ten digits each. -/
def digitZeros : List Nat :=
  [0x30, 0x660, 0x6f0, 0x7c0, 0x966, 0x9e6, 0xa66, 0xae6, 0xb66, 0xbe6, 0xc66, 0xce6, 0xd66,
    0xde6, 0xe50, 0xed0, 0xf20, 0x1040, 0x1090, 0x17e0, 0x1810, 0x1946, 0x19d0, 0x1a80, 0x1a90,
    0x1b50, 0x1bb0, 0x1c40, 0x1c50, 0xa620, 0xa8d0, 0xa900, 0xa9d0, 0xa9f0, 0xaa50, 0xabf0,
    0xff10, 0x104a0, 0x10d30, 0x10d40, 0x11066, 0x110f0, 0x11136, 0x111d0, 0x112f0, 0x11450,
    0x114d0, 0x11650, 0x116c0, 0x116d0, 0x116da, 0x11730, 0x118e0, 0x11950, 0x11bf0, 0x11c50,
    0x11d50, 0x11da0, 0x11f50, 0x16130, 0x16a60, 0x16ac0, 0x16b50, 0x16d70, 0x1ccf0, 0x1d7ce,
    0x1d7d8, 0x1d7e2, 0x1d7ec, 0x1d7f6, 0x1e140, 0x1e2f0, 0x1e4f0, 0x1e5f1, 0x1e950, 0x1fbf0]

/-- The digits that are no decimal digits: superscripts, subscripts, circled and such. -/
def otherDigits : List (Nat × Nat) :=
  [(0xb2, 0xb3), (0xb9, 0xb9), (0x1369, 0x1371), (0x19da, 0x19da), (0x2070, 0x2070),
    (0x2074, 0x2079), (0x2080, 0x2089), (0x2460, 0x2468), (0x2474, 0x247c), (0x2488, 0x2490),
    (0x24ea, 0x24ea), (0x24f5, 0x24fd), (0x24ff, 0x24ff), (0x2776, 0x277e), (0x2780, 0x2788),
    (0x278a, 0x2792), (0x10a40, 0x10a43), (0x10e60, 0x10e68), (0x11052, 0x1105a),
    (0x1f100, 0x1f10a)]

/-- The value `int` gives a digit. -/
def decimalValue (c : Char) : Option Nat :=
  (digitZeros.find? fun z ↦ z ≤ c.toNat && c.toNat < z + 10).map fun z ↦ c.toNat - z

/-- `str.isdigit` for one character. -/
def isDigitChar (c : Char) : Bool :=
  (decimalValue c).isSome || otherDigits.any fun r ↦ r.1 ≤ c.toNat && c.toNat ≤ r.2

/-- `int` of a text of digits; `none` is the error on a digit that is not decimal. -/
def intOf (digits : List Char) : Option Nat :=
  digits.foldl (fun acc c ↦ acc.bind fun n ↦ (decimalValue c).map fun d ↦ 10 * n + d) (some 0)

/-- `_KEY_PREFIX`; `cards.py:122`. -/
def keyPrefix : String := "FCT-"

/-- The number an auto-assigned key carries: `none` where the key is of another form,
`some none` where its digits are no number; `cards.py:881–884`. -/
def keySuffix (key : String) : Option (Option Nat) :=
  if keyPrefix.toList.isPrefixOf key.toList then
    let suffix := key.toList.drop 4
    if suffix ≠ [] ∧ suffix.all isDigitChar then some (intOf suffix) else none
  else none

/-- `_next_card_key`: the highest suffix in scope plus one, or `none` where a key of the
scope is unreadable; `cards.py:868–885`. -/
def nextCardKey (t : CardTable) (scope : Option String) : Option String :=
  let highest := (t.filter (inScope scope)).foldl
    (fun (acc : Option Nat) r ↦ match keySuffix r.card.cardKey with
      | none => acc
      | some n => acc.bind fun h ↦ n.map fun k ↦ max h k) (some 0)
  highest.map fun h ↦ keyPrefix ++ Nat.repr (h + 1)

/-! ## Writes -/

/-- What a write raises; `cards.py:841–866,887–908`. -/
inductive CardError where
  /-- The body fails its validation. -/
  | invalid
  | duplicateCardKey
  | duplicateIssueRef
  /-- `int` on a key suffix. -/
  | unreadableKey
  deriving DecidableEq, Repr

/-- `CardCreate`; `cards.py:379–420`. -/
structure CardCreate where
  cardKey : Option String := none
  title : String
  description : Option String := none
  acceptanceCriteria : List String := []
  status : CardStatus := .backlog
  priority : Int := 0
  tier : Option CardTier := none
  assignee : Option String := none
  milestone : Option String := none
  correlationKey : Option String := none
  issueRef : Option String := none
  repositoryId : Option Nat := none
  deriving DecidableEq

/-- The length bounds of `CardCreate`; `cards.py:400–419`. -/
def CardCreate.valid (d : CardCreate) : Bool :=
  decide (1 ≤ d.title.length ∧ d.title.length ≤ 512) &&
    d.cardKey.all (·.length ≤ 128) && d.assignee.all (·.length ≤ 128) &&
    d.milestone.all (·.length ≤ 128) && d.correlationKey.all (·.length ≤ 128) &&
    d.issueRef.all (·.length ≤ 256)

/-- The card a create inserts; `cards.py:852–855`. -/
def CardCreate.card (d : CardCreate) (tenant key : String) (now : Time) : Card where
  cardKey := key
  tenantId := tenant
  title := d.title
  description := d.description
  acceptanceCriteria := d.acceptanceCriteria
  status := d.status
  priority := d.priority
  tier := d.tier
  assignee := d.assignee
  milestone := d.milestone
  correlationKey := d.correlationKey
  issueRef := d.issueRef
  repositoryId := d.repositoryId
  createdAt := now
  updatedAt := now

/-- A primary key above all others. -/
def freshId (t : CardTable) : Nat := (t.map CardRow.id).foldl max 0 + 1

/-- Another row of the tenant holds the issue; the unique index `(tenant_id, issue_ref)`,
where nulls are distinct; `cards.py:250–258`. -/
def holdsIssue (t : CardTable) (id : Nat) (tenant : String) : Option String → Bool
  | none => false
  | some ref => t.any fun q ↦ q.id ≠ id && q.card.tenantId == tenant && q.card.issueRef == some ref

/-- A row of the tenant holds the key; the unique index `(tenant_id, card_key)`;
`cards.py:250`. -/
def holdsKey (t : CardTable) (tenant key : String) : Bool :=
  t.any fun q ↦ q.card.tenantId == tenant && q.card.cardKey == key

/-- The key a create inserts under; `cards.py:850–851`. -/
def keyFor (t : CardTable) (scope : Option String) (d : CardCreate) : Option String :=
  match d.cardKey with
  | some key => if key = "" then nextCardKey t scope else some key
  | none => nextCardKey t scope

/-- `create`, on a validated body; `cards.py:841–866`. -/
def create (t : CardTable) (scope : Option String) (d : CardCreate) (now : Time) :
    Except CardError (Card × CardTable) :=
  if !d.valid then .error .invalid
  else
    match keyFor t scope d with
    | none => .error .unreadableKey
    | some key =>
      if holdsKey t (tenantOf scope) key ||
          holdsIssue t (freshId t) (tenantOf scope) d.issueRef then
        match d.issueRef with
        | some ref =>
          if ref ≠ "" ∧ (getByIssueRef t scope ref).isSome then .error .duplicateIssueRef
          else .error .duplicateCardKey
        | none => .error .duplicateCardKey
      else
        let card := d.card (tenantOf scope) key now
        .ok (card, t ++ [⟨freshId t, card⟩])

/-- The columns an update assigns; a column that is left alone is `none`, one that is cleared
`some none`. The columns are those a caller of `update` names; `cards.py:421–451`. -/
structure CardChanges where
  title : Option String := none
  description : Option (Option String) := none
  acceptanceCriteria : Option (List String) := none
  status : Option CardStatus := none
  priority : Option Int := none
  tier : Option (Option CardTier) := none
  assignee : Option (Option String) := none
  milestone : Option (Option String) := none
  correlationKey : Option (Option String) := none
  issueRef : Option (Option String) := none
  repositoryId : Option (Option Nat) := none
  issueState : Option (Option String) := none
  labels : Option (List String) := none
  githubSyncError : Option (Option String) := none
  deriving DecidableEq

/-- `setattr` for every assigned column, then `updated_at`; `cards.py:902–904`. -/
def CardChanges.apply (ch : CardChanges) (now : Time) (c : Card) : Card :=
  { c with
    title := ch.title.getD c.title
    description := ch.description.getD c.description
    acceptanceCriteria := ch.acceptanceCriteria.getD c.acceptanceCriteria
    status := ch.status.getD c.status
    priority := ch.priority.getD c.priority
    tier := ch.tier.getD c.tier
    assignee := ch.assignee.getD c.assignee
    milestone := ch.milestone.getD c.milestone
    correlationKey := ch.correlationKey.getD c.correlationKey
    issueRef := ch.issueRef.getD c.issueRef
    repositoryId := ch.repositoryId.getD c.repositoryId
    issueState := ch.issueState.getD c.issueState
    labels := ch.labels.getD c.labels
    githubSyncError := ch.githubSyncError.getD c.githubSyncError
    updatedAt := now }

/-- `update`; `cards.py:887–908`. -/
def updateCard (t : CardTable) (scope : Option String) (key : String) (ch : CardChanges)
    (now : Time) : Except CardError (Option Card × CardTable) :=
  match getRow t scope key with
  | none => .ok (none, t)
  | some r =>
    let card := ch.apply now r.card
    if holdsIssue t r.id card.tenantId card.issueRef then .error .duplicateIssueRef
    else .ok (some card, modifyRow t r.id (ch.apply now))

/-- A card off the board. -/
def tombstoned (now : Time) (c : Card) : Card := { c with deletedAt := some now, updatedAt := now }

/-- `delete`: the card is tombstoned, which counts as an update; `cards.py:910–926`. -/
def deleteCard (t : CardTable) (scope : Option String) (key : String) (now : Time) :
    Bool × CardTable :=
  match getRow t scope key with
  | none => (false, t)
  | some r => (true, modifyRow t r.id (tombstoned now))

/-! ## What an update does -/

/-- A change that keeps what a card is found by is seen by the next read. -/
theorem getRow_modifyRow {t : CardTable} {scope : Option String} {key : String} {id : Nat}
    {f : Card → Card} (hf : ∀ c, (f c).cardKey = c.cardKey ∧ (f c).tenantId = c.tenantId ∧
      (f c).deletedAt = c.deletedAt) :
    getRow (modifyRow t id f) scope key =
      (getRow t scope key).map fun r ↦ if r.id = id then { r with card := f r.card } else r := by
  rw [getRow, getRow, modifyRow, List.find?_map]
  congr 2
  funext r
  obtain ⟨hkey, htenant, hdeleted⟩ := hf r.card
  by_cases hr : r.id = id
  · simp [visible, hr, hkey, htenant, hdeleted]
  · simp [hr]

theorem CardChanges.apply_found (ch : CardChanges) (now : Time) (c : Card) :
    (ch.apply now c).cardKey = c.cardKey ∧ (ch.apply now c).tenantId = c.tenantId ∧
      (ch.apply now c).deletedAt = c.deletedAt :=
  ⟨rfl, rfl, rfl⟩

/-- The row a key finds carries that key, is in scope and is not deleted. -/
theorem getRow_spec {t : CardTable} {scope : Option String} {key : String} {r : CardRow}
    (h : getRow t scope key = some r) :
    r ∈ t ∧ visible scope r = true ∧ r.card.cardKey = key := by
  have hfound := List.find?_some h
  rw [Bool.and_eq_true, beq_iff_eq] at hfound
  exact ⟨List.mem_of_find?_eq_some h, hfound⟩

/-- An update that the indexes admit is what the next read finds. -/
theorem updateCard_ok {t : CardTable} {scope : Option String} {key : String} {ch : CardChanges}
    {now : Time} {r : CardRow} (hr : getRow t scope key = some r)
    (hfree : holdsIssue t r.id r.card.tenantId (ch.apply now r.card).issueRef = false) :
    ∃ t', updateCard t scope key ch now = .ok (some (ch.apply now r.card), t') ∧
      getRow t' scope key = some { r with card := ch.apply now r.card } := by
  refine ⟨modifyRow t r.id (ch.apply now), ?_, ?_⟩
  · rw [updateCard, hr]
    exact if_neg (by rw [Bool.not_eq_true]; exact hfree)
  · rw [getRow_modifyRow (ch.apply_found now), hr, Option.map_some, if_pos rfl]

/-- What an update can do: nothing where no row is found, refuse, or assign the columns. -/
theorem updateCard_cases (t : CardTable) (scope : Option String) (key : String)
    (ch : CardChanges) (now : Time) :
    (getRow t scope key = none ∧ updateCard t scope key ch now = .ok (none, t)) ∨
      ∃ r, getRow t scope key = some r ∧
        (updateCard t scope key ch now = .error .duplicateIssueRef ∨
          updateCard t scope key ch now =
            .ok (some (ch.apply now r.card), modifyRow t r.id (ch.apply now))) := by
  cases hr : getRow t scope key with
  | none => exact .inl ⟨rfl, by rw [updateCard, hr]⟩
  | some r =>
    refine .inr ⟨r, rfl, ?_⟩
    rw [updateCard, hr]
    show (if _ then _ else _) = _ ∨ (if _ then _ else _) = _
    split
    · exact .inl rfl
    · exact .inr rfl

end CFactory.Cards
