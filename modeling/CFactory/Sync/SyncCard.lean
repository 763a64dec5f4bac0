import CFactory.Import.Issue
import CFactory.Base.Runs
import Mathlib.Logic.Function.Basic

/-!
# Syncing a card with its issue

`github_sync.py:136–343`. A call reads the card, opens or fetches the issue on the host, and
stores the mirror. Calls on one card may overlap in any way; the table and the issues they
have asked the host to open are followed step by step.
-/

namespace CFactory.Sync

open CFactory.Base
open CFactory.Model
open CFactory.Cards
open CFactory.Import

/-- `_status_for`; `github_sync.py:205–225`. -/
def statusFor (issueState : String) (cardStatus : CardStatus) : Option CardStatus :=
  if issueState = "closed" then some .done
  else if cardStatus = .done then some .inProgress
  else none

/-- `_mirror`; `github_sync.py:228–262`. -/
def mirror (card : Card) (ref : IssueRef) (issue : IssueData) : CardChanges where
  githubSyncError := assign card.githubSyncError none
  issueRef := assign card.issueRef (some ref.text)
  title := if issue.title = "" then none else assign card.title issue.title
  description := assign card.description (orNone issue.body)
  labels := assign card.labels issue.labels
  issueState := if issue.state = "" then none else assign card.issueState (some issue.state)
  status := if issue.state = "" then none
    else (statusFor issue.state card.status).bind fun s ↦ assign card.status s

/-- What the host makes of a call. -/
inductive Answer where
  /-- No request was made: no project to open an issue in, or no provider could be built. -/
  | refused
  /-- The request was made and raised; `missing` is the host's 404. -/
  | raised (missing : Bool)
  | answered (issue : IssueData)
  deriving DecidableEq

/-- Where a call stands: it holds the card it read, the issue it is to mirror, or the
failure it is to record. -/
inductive Phase where
  | read (card : Card)
  | mirroring (card : Card) (ref : IssueRef) (issue : IssueData)
  | failed (card : Card) (missing : Bool)
  deriving DecidableEq

/-- The table, the calls in flight, and the issue reference each `create_issue` call went
out with, newest first. -/
structure SyncState where
  cards : CardTable
  pending : Nat → Option Phase
  creates : List (Option String)

/-- The steps of a call on one card of a store with sync configured. `project` is the
project the card's target resolves to. -/
inductive SyncStep where
  | readCard (call : Nat)
  | askHost (call : Nat) (project : Option String) (answer : Answer)
  | storeMirror (call : Nat) (now : Time) (errorId : String)
  deriving DecidableEq

/-- `_open_issue` or `_fetch_issue`, as the card it read has a reference or not;
`github_sync.py:149–194,290–296`. -/
def ask (card : Card) (project : Option String) (answer : Answer) : Phase :=
  match IssueRef.parse card.issueRef with
  | some ref =>
    match answer with
    | .refused => .failed card false
    | .raised missing => .failed card missing
    | .answered issue => .mirroring card ref issue
  | none =>
    match project, answer with
    | some p, .answered issue => .mirroring card ⟨p, issue.number⟩ issue
    | some _, .raised missing => .failed card missing
    | _, _ => .failed card false

/-- A call fails on the card it read, or holds the issue to mirror onto it. -/
theorem ask_cases (card : Card) (project : Option String) (answer : Answer) :
    (∃ missing, ask card project answer = .failed card missing) ∨
      ∃ ref issue, ask card project answer = .mirroring card ref issue := by
  unfold ask
  split
  · split
    · exact .inl ⟨_, rfl⟩
    · exact .inl ⟨_, rfl⟩
    · exact .inr ⟨_, _, rfl⟩
  · split
    · exact .inr ⟨_, _, rfl⟩
    · exact .inl ⟨_, rfl⟩
    · exact .inl ⟨_, rfl⟩

/-- Once mirrored, the card carries the reference. -/
theorem issueRef_mirror (card : Card) (ref : IssueRef) (issue : IssueData) (now : Time) :
    ((mirror card ref issue).apply now card).issueRef = some ref.text :=
  getD_assign card.issueRef (some ref.text)

/-- A mirrored card is ready where it was and the issue is not closed. -/
theorem ready_mirror_iff (card : Card) (ref : IssueRef) (issue : IssueData) (now : Time) :
    ((mirror card ref issue).apply now card).status = .ready ↔
      card.status = .ready ∧ issue.state ≠ "closed" := by
  rw [CardChanges.apply, mirror]
  dsimp only
  by_cases hblank : issue.state = ""
  · rw [if_pos hblank, Option.getD_none, hblank]
    simp
  rw [if_neg hblank, statusFor]
  by_cases hclosed : issue.state = "closed"
  · rw [if_pos hclosed, Option.bind_some, getD_assign]
    simp [hclosed]
  rw [if_neg hclosed]
  by_cases hdone : card.status = .done
  · rw [if_pos hdone, Option.bind_some, getD_assign]
    simp [hdone]
  · rw [if_neg hdone]
    simp [hclosed]

/-- Whether the host is asked to open an issue; `github_sync.py:149–182,290–294`. -/
def opensIssue (card : Card) (project : Option String) (answer : Answer) : Bool :=
  (IssueRef.parse card.issueRef).isNone && project.isSome && answer ≠ .refused

/-- The write that ends a call; `github_sync.py:297–343`. -/
def finish (t : CardTable) (scope : Option String) (phase : Phase) (now : Time)
    (errorId : String) : CardTable :=
  let written (key : String) (ch : CardChanges) : CardTable :=
    match updateCard t scope key ch now with
    | .ok (_, t') => t'
    | .error _ => t
  match phase with
  | .read _ => t
  | .failed card missing =>
    written card.cardKey
      { githubSyncError := some (some ("the provider call failed (reference " ++ errorId ++ ")"))
        issueState := if missing then some (some "missing") else none }
  | .mirroring card ref issue =>
    if mirror card ref issue = {} then t
    else
      match updateCard t scope card.cardKey (mirror card ref issue) now with
      | .ok (_, t') => t'
      | .error _ =>
        written card.cardKey
          { githubSyncError := some (some ("another card already tracks " ++ ref.text)) }

/-- `sync_card`, step by step; `github_sync.py:265–343`. -/
def syncStep (scope : Option String) (key : String) (st : SyncState) : SyncStep → SyncState
  | .readCard c =>
    match get st.cards scope key with
    | none => st
    | some card => { st with pending := Function.update st.pending c (some (.read card)) }
  | .askHost c project answer =>
    match st.pending c with
    | some (.read card) =>
      { st with
        pending := Function.update st.pending c (some (ask card project answer))
        creates := if opensIssue card project answer then card.issueRef :: st.creates
          else st.creates }
    | _ => st
  | .storeMirror c now errorId =>
    match st.pending c with
    | some (.read _) => st
    | some phase =>
      { st with
        cards := finish st.cards scope phase now errorId
        pending := Function.update st.pending c none }
    | none => st

/-- No call has started. -/
def SyncState.start (t : CardTable) : SyncState := ⟨t, fun _ ↦ none, []⟩

/-- At most one issue was asked for, and by a call whose card had no reference. -/
def AtMostOneIssue (st : SyncState) : Prop :=
  st.creates.length ≤ 1 ∧ ∀ ref ∈ st.creates, ref = none

/-- A call starts while none is in flight, on a card whose reference is absent or well
formed; and an issue that is asked for is answered with one whose reference is well formed
and held by no other card. -/
def Orderly (scope : Option String) (key : String) (st : SyncState) : SyncStep → Prop
  | .readCard _ => (∀ d, st.pending d = none) ∧
      ∀ card ∈ get st.cards scope key,
        card.issueRef = none ∨ (IssueRef.parse card.issueRef).isSome
  | .askHost c project answer => ∀ card, st.pending c = some (.read card) →
      opensIssue card project answer = true →
        ∃ p issue, project = some p ∧ answer = .answered issue ∧
          isProject p.toList = true ∧ 0 ≤ issue.number ∧
          ∀ r ∈ getRow st.cards scope key,
            holdsIssue st.cards r.id r.card.tenantId
              (some (IssueRef.text ⟨p, issue.number⟩)) = false
  | .storeMirror _ _ _ => True

end CFactory.Sync
