import CFactory.Cards.Index
import CFactory.Base.Dict
import CFactory.Base.Runs
import Mathlib.Data.List.Sort

/-!
# Comment threads

`issue_import.py:310–435`, `cards.py:261–327,930–951,970–1029`. The cards of a project whose
threads a pass refreshes, the two groups they are read in, and the store of a thread that was
read. What the provider answers, how long it takes and which writes raise are inputs.
-/

namespace CFactory.Import

open CFactory.Base
open CFactory.Model
open CFactory.Cards

/-- `IssueComment`, as far as it is stored; `protocol.py:94–117`. -/
structure IssueComment where
  id : String
  author : String := ""
  body : String := ""
  url : String := ""
  createdAt : Time := 0
  updatedAt : Time := 0
  deriving DecidableEq, Repr

/-- `CardCommentRow`; `cards.py:261–314`. -/
structure CommentRow where
  tenantId : String
  cardKey : String
  comment : IssueComment
  deriving DecidableEq, Repr

/-- The comments of one issue, as a provider returns them. -/
abbrev Thread := Int × List IssueComment

/-! ## Which threads are read -/

/-- The row is one of the project's; `nocase` is the database's reading of `LIKE`. -/
def ofProject (nocase : Bool) (project : List Char) (r : CardRow) : Bool :=
  r.card.issueRef.any fun ref ↦ likePrefix nocase (project ++ ['#']) ref.toList

/-- `cards_for_project`; `cards.py:930–951`. -/
def cardsForProject (nocase : Bool) (t : CardTable) (scope : Option String) (project : String) :
    List Card :=
  let name := strip project.toList
  if name = [] then []
  else
    ((t.filter fun r ↦ visible scope r && ofProject nocase name r).map CardRow.card).insertionSort
      fun a b ↦ a.createdAt ≤ b.createdAt

/-- `by_number`; `issue_import.py:355–359`. -/
def byNumber (cards : List Card) : Dict Int Card :=
  cards.foldl (fun d card ↦ match IssueRef.parse card.issueRef with
    | some ref => d.set ref.number card
    | none => d) .empty

/-- `_COMMENT_OVERLAP`, in microseconds; `issue_import.py:315`. -/
def commentOverlap : Time := 300000000

/-- The issues whose threads were read before; `issue_import.py:361`. -/
def warm (cards : Dict Int Card) : List Int :=
  (cards.entries.filter fun e ↦ e.2.commentsSyncedAt.isSome).map Prod.fst

/-- The issues whose threads were never read, as many as one pass takes;
`issue_import.py:362–365`. -/
def cold (cards : Dict Int Card) (backfillMax : Int) : List Int :=
  (((cards.entries.filter fun e ↦ e.2.commentsSyncedAt.isNone).map Prod.fst).insertionSort
    (· ≤ ·)).take (max 0 backfillMax).toNat

/-- The oldest marker of the group, less the overlap; `issue_import.py:367–379`. -/
def windowOf (cards : Dict Int Card) : Option Time :=
  match cards.values.filterMap Card.commentsSyncedAt with
  | [] => none
  | marker :: rest => some (rest.foldl min marker - commentOverlap)

/-- The issues of one read and the `since` it asks with. -/
structure Group where
  numbers : List Int
  window : Option Time
  deriving DecidableEq, Repr

/-- The reads of a pass, in order; `issue_import.py:383–385`. -/
def groupsOf (cards : Dict Int Card) (backfillMax : Int) : List Group :=
  [⟨(warm cards).insertionSort (· ≤ ·), windowOf cards⟩,
    ⟨cold cards backfillMax, none⟩].filter fun g ↦ g.numbers ≠ []

/-! ## The store of a thread -/

/-- A row of the thread with the comment's id is there; `cards.py:992–1002`. -/
def storedId (rows : List CommentRow) (tenant key id : String) : Bool :=
  rows.any fun q ↦ q.tenantId == tenant && q.cardKey == key && q.comment.id == id

/-- The row after the thread's comments were written over it; `cards.py:1012–1016`. -/
def refreshRow (tenant key : String) (comments : List IssueComment) (q : CommentRow) :
    CommentRow :=
  if q.tenantId = tenant ∧ q.cardKey = key then
    match comments.reverse.find? (·.id == q.comment.id) with
    | some comment => { q with comment := comment }
    | none => q
  else q

/-- The comment rows after a thread is stored; `none` where the unique index refuses a
comment id given twice; `cards.py:991–1016`. -/
def storeThread (rows : List CommentRow) (tenant key : String) (comments : List IssueComment) :
    Option (List CommentRow) :=
  let fresh := comments.filter fun c ↦ !storedId rows tenant key c.id
  if (fresh.map IssueComment.id).Nodup then
    some (rows.map (refreshRow tenant key comments) ++ fresh.map fun c ↦ ⟨tenant, key, c⟩)
  else none

/-- The card with its thread marked as read in full. -/
def marked (syncedAt : Time) (c : Card) : Card := { c with commentsSyncedAt := some syncedAt }

/-- The marker of the cards under a key; `cards.py:1021–1028`. -/
def markSynced (t : CardTable) (scope : Option String) (key : String) (syncedAt : Time) :
    CardTable :=
  t.map fun r ↦ if inScope scope r && r.card.cardKey == key then
    { r with card := marked syncedAt r.card } else r

/-- `store_comments`; `cards.py:970–1029`. -/
def storeComments (t : CardTable) (rows : List CommentRow) (scope : Option String) (key : String)
    (comments : List IssueComment) (syncedAt : Time) : Option (CardTable × List CommentRow) :=
  (storeThread rows (tenantOf scope) key comments).map fun rows' ↦
    (markSynced t scope key syncedAt, rows')

/-- What a refresh has done so far: the tables, how many comments it stored, and whether
nothing failed. -/
structure CommentSync where
  cards : CardTable
  rows : List CommentRow
  stored : Nat := 0
  ok : Bool := true

/-- One thread of an answer; `fault` is a write that raised. `issue_import.py:400–424`. -/
def storeOne (scope : Option String) (targets : Dict Int Card) (syncedAt : Time)
    (fault : Int → Bool) (s : CommentSync) (thread : Thread) : CommentSync :=
  match targets.get? thread.1 with
  | none => s
  | some target =>
    if fault thread.1 then { s with ok := false }
    else
      match storeComments s.cards s.rows scope target.cardKey thread.2 syncedAt with
      | none => { s with ok := false }
      | some (cards, rows) =>
        { s with cards := cards, rows := rows, stored := s.stored + thread.2.length }

/-- What a read of a group brings: its threads, or `none` where it raised, the time at which
it ended, and the writes that raise. -/
structure GroupAnswer where
  threads : Option (List Thread)
  syncedAt : Time
  fault : Int → Bool := fun _ ↦ false

/-- One group; `issue_import.py:383–424`. -/
def syncGroup (scope : Option String) (targets : Dict Int Card) (answer : Group → GroupAnswer)
    (s : CommentSync) (g : Group) : CommentSync :=
  match (answer g).threads with
  | none => { s with ok := false }
  | some threads =>
    threads.foldl (storeOne scope targets (answer g).syncedAt (answer g).fault) s

/-- What `_sync_comments` reports; `issue_import.py:425–435`. -/
structure CommentReport where
  ok : Bool
  cards : Nat
  comments : Nat
  backfilled : Nat
  refreshed : Nat
  pending : Nat
  deriving DecidableEq, Repr

/-- `_sync_comments`; `issue_import.py:318–435`. -/
def syncComments (nocase : Bool) (scope : Option String) (project : String) (backfillMax : Int)
    (answer : Group → GroupAnswer) (t : CardTable) (rows : List CommentRow) :
    CommentSync × CommentReport :=
  let targets := byNumber (cardsForProject nocase t scope project)
  let refreshed := (warm targets).length
  let backfilled := (cold targets backfillMax).length
  let s := (groupsOf targets backfillMax).foldl (syncGroup scope targets answer) ⟨t, rows, 0, true⟩
  (s, { ok := s.ok
        cards := refreshed + backfilled
        comments := s.stored
        backfilled := backfilled
        refreshed := refreshed
        pending := targets.entries.length - refreshed - backfilled })

/-! ## The cards of a refresh -/

private theorem mem_set {d : Dict Int Card} {k : Int} {a : Card} {e : Int × Card}
    (h : e ∈ (d.set k a).entries) : e = (k, a) ∨ e ∈ d.entries := by
  have hget := (Dict.get?_eq_some_iff (d.set k a) e.1 e.2).mpr h
  rw [Dict.get?_set] at hget
  by_cases hk : e.1 = k
  · rw [if_pos hk] at hget
    exact .inl (Prod.ext hk (Option.some.inj hget).symm)
  · rw [if_neg hk] at hget
    exact .inr ((Dict.get?_eq_some_iff d e.1 e.2).mp hget)

/-- The cards a refresh selects are among those it read. -/
theorem mem_byNumber {cards : List Card} {e : Int × Card}
    (h : e ∈ (byNumber cards).entries) : e.2 ∈ cards := by
  have hfold : ∀ (cards : List Card) (d : Dict Int Card),
      e ∈ (cards.foldl (fun d card ↦ match IssueRef.parse card.issueRef with
        | some ref => d.set ref.number card
        | none => d) d).entries → e ∈ d.entries ∨ e.2 ∈ cards := by
    intro cards
    induction cards with
    | nil => exact fun d hd ↦ .inl hd
    | cons c rest ih =>
      intro d hd
      rcases ih _ hd with hin | hin
      · cases hparse : IssueRef.parse c.issueRef with
        | none =>
          simp only [hparse] at hin
          exact .inl hin
        | some ref =>
          simp only [hparse] at hin
          rcases mem_set hin with rfl | hin
          · exact .inr List.mem_cons_self
          · exact .inl hin
      · exact .inr (List.mem_cons_of_mem _ hin)
  rcases hfold cards .empty h with hin | hin
  · cases hin
  · exact hin

/-- They are live cards of the scope. -/
theorem mem_cardsForProject {nocase : Bool} {t : CardTable} {scope : Option String}
    {project : String} {c : Card}
    (h : c ∈ cardsForProject nocase t scope project) :
    ∃ r ∈ t, visible scope r = true ∧ r.card = c := by
  rw [cardsForProject] at h
  split at h
  · cases h
  · rw [List.mem_insertionSort] at h
    obtain ⟨r, hr, rfl⟩ := List.mem_map.mp h
    obtain ⟨hmem, hsel⟩ := List.mem_filter.mp hr
    rw [Bool.and_eq_true] at hsel
    exact ⟨r, hmem, hsel.1, rfl⟩

/-! ## What a refresh does to the tables -/

/-- A comment that is refreshed stays where it is, under its id. -/
theorem refreshRow_spec (tenant key : String) (comments : List IssueComment)
    (q : CommentRow) :
    (refreshRow tenant key comments q).tenantId = q.tenantId ∧
      (refreshRow tenant key comments q).cardKey = q.cardKey ∧
        (refreshRow tenant key comments q).comment.id = q.comment.id := by
  rw [refreshRow]
  by_cases hq : q.tenantId = tenant ∧ q.cardKey = key
  · rw [if_pos hq]
    cases hfind : comments.reverse.find? (·.id == q.comment.id) with
    | none => exact ⟨rfl, rfl, rfl⟩
    | some c =>
      have hid : c.id = q.comment.id := by simpa using List.find?_some hfind
      exact ⟨rfl, rfl, hid⟩
  · rw [if_neg hq]
    exact ⟨rfl, rfl, rfl⟩

/-- A refresh of the threads, seen as what each thread of each answer does. -/
theorem syncComments_invariant {P : CommentSync → Prop} (nocase : Bool)
    (scope : Option String) (project : String) (backfillMax : Int) (answer : Group → GroupAnswer)
    (t : CardTable) (rows : List CommentRow) (hstart : P ⟨t, rows, 0, true⟩)
    (hfailed : ∀ s : CommentSync, P s → P { s with ok := false })
    (hstep : ∀ (g : Group) (s : CommentSync) (thread : Thread), P s →
      P (storeOne scope (byNumber (cardsForProject nocase t scope project)) (answer g).syncedAt
        (answer g).fault s thread)) :
    P (syncComments nocase scope project backfillMax answer t rows).1 := by
  rw [syncComments]
  apply foldl_invariant _ hstart
  intro s g hs
  rw [syncGroup]
  cases (answer g).threads with
  | none => exact hfailed s hs
  | some threads => exact foldl_invariant (fun s thread hs ↦ hstep g s thread hs) hs threads

/-- A row that carries the key of no card of the refresh is not marked. -/
theorem mem_storeOne {scope : Option String} {targets : Dict Int Card} {r : CardRow}
    (hother : ∀ c ∈ targets.values, inScope scope r = true → r.card.cardKey ≠ c.cardKey)
    (syncedAt : Time) (fault : Int → Bool) {s : CommentSync} (thread : Thread)
    (hs : r ∈ s.cards) : r ∈ (storeOne scope targets syncedAt fault s thread).cards := by
  rw [storeOne]
  cases htarget : targets.get? thread.1 with
  | none => exact hs
  | some target =>
    show r ∈ (if _ then _ else _ : CommentSync).cards
    split
    · exact hs
    · rw [storeComments]
      cases storeThread s.rows (tenantOf scope) target.cardKey thread.2 with
      | none => exact hs
      | some rows =>
        refine List.mem_map.mpr ⟨r, hs, if_neg ?_⟩
        intro hboth
        rw [Bool.and_eq_true, beq_iff_eq] at hboth
        exact hother target (Dict.mem_values htarget) hboth.1 hboth.2

theorem mem_syncComments {nocase : Bool} {scope : Option String} {project : String}
    {t : CardTable} {r : CardRow} (hr : r ∈ t)
    (hother : ∀ c ∈ (byNumber (cardsForProject nocase t scope project)).values,
      inScope scope r = true → r.card.cardKey ≠ c.cardKey)
    (backfillMax : Int) (answer : Group → GroupAnswer) (rows : List CommentRow) :
    r ∈ (syncComments nocase scope project backfillMax answer t rows).1.cards := by
  apply syncComments_invariant (P := fun s ↦ r ∈ s.cards) nocase scope project backfillMax answer t
    rows hr
  · exact fun s hs ↦ hs
  · exact fun g s thread hs ↦ mem_storeOne hother _ _ thread hs

end CFactory.Import
