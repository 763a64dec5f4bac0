import CFactory.Import.Comments
import CFactory.Import.Upsert
import CFactory.Base.Runs

/-!
# Comment refreshes step by step

`issue_import.py:318–435`, `cards.py:887–908,970–1029`. Refreshes of any projects, the upserts
of import passes and updates of cards interleave, while comments are posted on the host and
time passes. A refresh reads the cards, then one group after the other: it sends the request,
gets the answer, and stores one thread at a time.
-/

namespace CFactory.Import

open CFactory.Base
open CFactory.Model
open CFactory.Cards

/-- Where a refresh stands in its current group: the request is out, or its threads are being
stored. `seen` comments were on the host when the request went out, at `began`. -/
inductive ReadPhase where
  | idle
  | fetching (g : Group) (seen : Nat) (began : Time)
  | storing (g : Group) (threads : List Thread) (syncedAt : Time) (seen : Nat) (began : Time)
  deriving DecidableEq

/-- A refresh under way: the cards it read by issue number, and the groups still to be read. -/
structure Refresh where
  project : String
  targets : Dict Int Card
  groups : List Group
  phase : ReadPhase
  deriving DecidableEq

/-- The tables, the comments of the host in the order they were posted or edited, the time, the
refreshes under way, and for each card row how many comments were on the host when its last
successful read began. -/
structure ThreadState where
  cards : CardTable
  comments : List CommentRow
  posted : List (IssueRef × IssueComment)
  clock : Time
  refreshes : Dict Nat Refresh
  lastRead : Nat → Option Nat

/-- Cards whose threads were never read, on a host with any comments. -/
def ThreadState.start (t : CardTable) (posted : List (IssueRef × IssueComment)) (clock : Time) :
    ThreadState :=
  ⟨t, [], posted, clock, .empty, fun _ ↦ none⟩

/-- What may happen next. -/
inductive ThreadStep where
  | tick (elapsed : Nat)
  /-- A comment is posted or edited on the host. -/
  | post (issue : IssueRef) (comment : IssueComment)
  | update (key : String) (changes : CardChanges)
  /-- The upserts of an import pass. -/
  | upserts (project : String) (repositoryId : Option Nat) (returned : List Returned)
  /-- Refresh `p` reads the cards of its project. -/
  | list (p : Nat) (project : String) (backfillMax : Int)
  | fetch (p : Nat)
  /-- The request of refresh `p` ends; `none` is a failure. -/
  | answer (p : Nat) (threads : Option (List Thread))
  /-- Refresh `p` stores its next thread; `fault` is a write that raised. -/
  | store (p : Nat) (fault : Bool)

/-- The read a store completes, on the row under its key. -/
def recordRead (t : CardTable) (scope : Option String) (key : String) (seen : Nat)
    (lastRead : Nat → Option Nat) (id : Nat) : Option Nat :=
  if t.any fun r ↦ r.id == id && inScope scope r && r.card.cardKey == key then some seen
  else lastRead id

/-- The store of one thread; `issue_import.py:400–424`. -/
def storeNext (scope : Option String) (targets : Dict Int Card) (thread : Thread)
    (syncedAt : Time) (seen : Nat) (fault : Bool) (st : ThreadState) : ThreadState :=
  match targets.get? thread.1 with
  | none => st
  | some target =>
    if fault then st
    else
      match storeComments st.cards st.comments scope target.cardKey thread.2 syncedAt with
      | none => st
      | some (cards, comments) =>
        { st with
          cards := cards
          comments := comments
          lastRead := recordRead st.cards scope target.cardKey seen st.lastRead }

/-- Refresh `p` goes on. -/
def ThreadState.setRefresh (st : ThreadState) (p : Nat) (q : Refresh) : ThreadState :=
  { st with refreshes := st.refreshes.set p q }

/-- One step; `issue_import.py:318–435,438–571`, `cards.py:887–908`. -/
def threadStep (nocase : Bool) (scope : Option String) (st : ThreadState) :
    ThreadStep → ThreadState
  | .tick elapsed => { st with clock := st.clock + elapsed }
  | .post issue comment =>
    { st with posted := st.posted ++ [(issue, { comment with updatedAt := st.clock })] }
  | .update key changes =>
    match updateCard st.cards scope key changes st.clock with
    | .ok (_, cards) => { st with cards := cards }
    | .error _ => st
  | .upserts project repositoryId returned =>
    { st with cards := importAll scope project repositoryId st.clock st.cards returned }
  | .list p project backfillMax =>
    let targets := byNumber (cardsForProject nocase st.cards scope project)
    st.setRefresh p ⟨project, targets, groupsOf targets backfillMax, .idle⟩
  | .fetch p =>
    match st.refreshes.get? p with
    | some ⟨project, targets, g :: groups, .idle⟩ =>
      st.setRefresh p ⟨project, targets, groups, .fetching g st.posted.length st.clock⟩
    | _ => st
  | .answer p threads =>
    match st.refreshes.get? p with
    | some ⟨project, targets, groups, .fetching g seen began⟩ =>
      match threads with
      | none => st.setRefresh p ⟨project, targets, groups, .idle⟩
      | some threads =>
        st.setRefresh p ⟨project, targets, groups, .storing g threads st.clock seen began⟩
    | _ => st
  | .store p fault =>
    match st.refreshes.get? p with
    | some ⟨project, targets, groups, .storing g threads syncedAt seen began⟩ =>
      match threads with
      | [] => st.setRefresh p ⟨project, targets, groups, .idle⟩
      | thread :: rest =>
        (storeNext scope targets thread syncedAt seen fault st).setRefresh p
          ⟨project, targets, groups, .storing g rest syncedAt seen began⟩
    | _ => st

/-! ## What the threads are to be -/

/-- The issue a card is joined to. -/
def issueOf (r : CardRow) : Option IssueRef := IssueRef.parse r.card.issueRef

/-- The card's thread holds a comment. -/
def Stores (st : ThreadState) (r : CardRow) (id : String) : Prop :=
  storedId st.comments r.card.tenantId r.card.cardKey id = true

/-- Threads are whole: where the marker is set, the stored comments contain every comment of
the card's issue that was on the host when its last successful read began, and none that is
not of that issue. -/
def ThreadsWhole (scope : Option String) (st : ThreadState) : Prop :=
  ∀ r ∈ st.cards, inScope scope r = true → r.card.commentsSyncedAt.isSome = true →
    (∃ n, st.lastRead r.id = some n ∧
      ∀ e ∈ st.posted.take n, issueOf r = some e.1 → Stores st r e.2.id) ∧
    ∀ id, Stores st r id → ∃ e ∈ st.posted, issueOf r = some e.1 ∧ e.2.id = id

/-- A thread of an answer is what was asked for: of an issue of the group, with every comment
that was there when the request went out and was updated at or after the `since`, and with
comments of that issue only. -/
def Answers (st : ThreadState) (project : String) (g : Group) (seen : Nat) (thread : Thread) :
    Prop :=
  thread.1 ∈ g.numbers ∧
    (∀ e ∈ st.posted.take seen, e.1 = ⟨project, thread.1⟩ →
      (∀ w ∈ g.window, w ≤ e.2.updatedAt) → ∃ c ∈ thread.2, c.id = e.2.id) ∧
    ∀ c ∈ thread.2, ∃ e ∈ st.posted, e.1 = ⟨project, thread.1⟩ ∧ e.2.id = c.id

instance (st : ThreadState) (project : String) (g : Group) (seen : Nat) (thread : Thread) :
    Decidable (Answers st project g seen thread) :=
  inferInstanceAs (Decidable (_ ∧ _ ∧ _))

/-- What the provider promises of the answer to a request that is out. -/
def Provides (st : ThreadState) : ThreadStep → Prop
  | .answer p (some threads) =>
    match st.refreshes.get? p with
    | some ⟨project, _, _, .fetching g seen _⟩ =>
      ∀ thread ∈ threads, Answers st project g seen thread
    | _ => True
  | _ => True

instance (st : ThreadState) (x : ThreadStep) : Decidable (Provides st x) :=
  match x with
  | .answer p (some threads) =>
    show Decidable (match st.refreshes.get? p with
      | some ⟨project, _, _, .fetching g seen _⟩ =>
        ∀ thread ∈ threads, Answers st project g seen thread
      | _ => True) from
    match st.refreshes.get? p with
    | some ⟨_, _, _, .fetching _ _ _⟩ => inferInstanceAs (Decidable (∀ thread ∈ threads, _))
    | some ⟨_, _, _, .idle⟩ => isTrue True.intro
    | some ⟨_, _, _, .storing ..⟩ => isTrue True.intro
    | none => isTrue True.intro
  | .answer _ none => isTrue True.intro
  | .tick .. => isTrue True.intro
  | .post .. => isTrue True.intro
  | .update .. => isTrue True.intro
  | .upserts .. => isTrue True.intro
  | .list .. => isTrue True.intro
  | .fetch .. => isTrue True.intro
  | .store .. => isTrue True.intro

/-- The issues whose threads a refresh has still to store. -/
def Refresh.ahead (q : Refresh) : List Int :=
  (match q.phase with
    | .idle => []
    | .fetching g _ _ => g.numbers
    | .storing _ threads _ _ _ => threads.map Prod.fst) ++ q.groups.flatMap Group.numbers

/-- A refresh has still to store the thread of the card under a key. -/
def BeingRead (st : ThreadState) (key : String) : Prop :=
  ∃ q ∈ st.refreshes.values, ∃ e ∈ q.targets.entries, e.1 ∈ q.ahead ∧ e.2.cardKey = key

instance (st : ThreadState) (key : String) : Decidable (BeingRead st key) :=
  inferInstanceAs (Decidable (∃ q ∈ st.refreshes.values, _))

/-- The request that is out for refresh `p` went out no longer ago than the overlap. -/
def InTime (st : ThreadState) (p : Nat) : Prop :=
  match st.refreshes.get? p with
  | some ⟨_, _, _, .fetching _ _ began⟩ => st.clock ≤ began + commentOverlap
  | _ => True

instance (st : ThreadState) (p : Nat) : Decidable (InTime st p) :=
  show Decidable (match st.refreshes.get? p with
    | some ⟨_, _, _, .fetching _ _ began⟩ => st.clock ≤ began + commentOverlap
    | _ => True) from
  match st.refreshes.get? p with
  | some ⟨_, _, _, .fetching _ _ began⟩ => Int.decLe st.clock (began + commentOverlap)
  | some ⟨_, _, _, .idle⟩ => isTrue True.intro
  | some ⟨_, _, _, .storing ..⟩ => isTrue True.intro
  | none => isTrue True.intro

/-- The cards a refresh selects and is to read are cards of its project. -/
def OfProject (nocase : Bool) (scope : Option String) (t : CardTable) (project : String)
    (backfillMax : Int) : Prop :=
  ∀ e ∈ (byNumber (cardsForProject nocase t scope project)).entries,
    e.1 ∈ (groupsOf (byNumber (cardsForProject nocase t scope project))
      backfillMax).flatMap Group.numbers →
        IssueRef.parse e.2.issueRef = some ⟨project, e.1⟩

instance (nocase : Bool) (scope : Option String) (t : CardTable) (project : String)
    (backfillMax : Int) : Decidable (OfProject nocase scope t project backfillMax) :=
  inferInstanceAs (Decidable (∀ e ∈ Dict.entries _, _ → _))

/-- The steps that keep threads whole. A card is re-pointed only before its thread was read and
not while a refresh is about to store it; the cards a refresh selects for a read are cards of
its project; a read that succeeds ends within the overlap. -/
def KeepsThreads (nocase : Bool) (scope : Option String) (st : ThreadState) : ThreadStep → Prop
  | .update key changes =>
    ∀ r ∈ getRow st.cards scope key,
      IssueRef.parse (changes.issueRef.getD r.card.issueRef) = issueOf r ∨
        r.card.commentsSyncedAt = none ∧ ¬BeingRead st key
  | .list _ project backfillMax => OfProject nocase scope st.cards project backfillMax
  | .answer p (some _) => InTime st p
  | _ => True

instance (nocase : Bool) (scope : Option String) (st : ThreadState) (x : ThreadStep) :
    Decidable (KeepsThreads nocase scope st x) :=
  match x with
  | .update key _ => inferInstanceAs (Decidable (∀ r ∈ getRow st.cards scope key, _ ∨ _))
  | .list _ project backfillMax =>
    inferInstanceAs (Decidable (OfProject nocase scope st.cards project backfillMax))
  | .answer p (some _) => inferInstanceAs (Decidable (InTime st p))
  | .answer _ none => isTrue True.intro
  | .tick .. => isTrue True.intro
  | .post .. => isTrue True.intro
  | .upserts .. => isTrue True.intro
  | .fetch .. => isTrue True.intro
  | .store .. => isTrue True.intro

end CFactory.Import
