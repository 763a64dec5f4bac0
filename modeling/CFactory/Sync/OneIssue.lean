import CFactory.Sync.SyncCard

/-!
# One issue for one card

What orderly calls of `sync_card` keep: once an issue was asked for, its reference is on the
card, or in the hands of the one call that is about to store it. A reference that does not
parse, and a second call in flight, each break this.
-/

namespace CFactory.Sync

open CFactory.Base
open CFactory.Model
open CFactory.Cards
open CFactory.Import

/-- The card's reference is one that a call adopts. -/
def Adopted (card : Card) : Prop := (IssueRef.parse card.issueRef).isSome = true

/-- What a call in flight holds, when it is the only one and the row is `r`. -/
def Holding (t : CardTable) (r : CardRow) (creates : List (Option String)) : Phase → Prop
  | .read card => card = r.card ∧ (card.issueRef = none ∨ Adopted card) ∧
      (creates = [] ∨ Adopted card)
  | .mirroring card ref _ => card = r.card ∧ (IssueRef.parse (some ref.text)).isSome = true ∧
      (Adopted card ∨ holdsIssue t r.id r.card.tenantId (some ref.text) = false)
  | .failed card _ => card.cardKey = r.card.cardKey ∧ (creates = [] ∨ Adopted r.card)

/-- The calls in flight: none, or a single one. -/
def InFlight (scope : Option String) (key : String) (st : SyncState) : Prop :=
  ((∀ d, st.pending d = none) ∧
      (st.creates = [] ∨ ∀ r ∈ getRow st.cards scope key, Adopted r.card)) ∨
    ∃ c phase r, st.pending = Function.update (fun _ ↦ none) c (some phase) ∧
      getRow st.cards scope key = some r ∧ Holding st.cards r st.creates phase

/-- At most one issue was asked for, without a reference, and it is on its way to the card. -/
structure Once (scope : Option String) (key : String) (st : SyncState) : Prop where
  creates : st.creates = [] ∨ st.creates = [none]
  inFlight : InFlight scope key st

theorem Once.atMostOne {scope : Option String} {key : String} {st : SyncState}
    (h : Once scope key st) : AtMostOneIssue st := by
  cases h.creates with
  | inl he => rw [AtMostOneIssue, he]; exact ⟨by simp, by simp⟩
  | inr he => rw [AtMostOneIssue, he]; exact ⟨by simp, by simp⟩

/-- A parsed reference is read back from its rendering. -/
theorem parse_text_of_parse {text : Option String} {ref : IssueRef}
    (h : IssueRef.parse text = some ref) : IssueRef.parse (some ref.text) = some ref := by
  rw [IssueRef.parse] at h
  split at h
  · next project digits _ =>
    split at h
    · next hvalid =>
      rw [← Option.some.inj h]
      rw [Bool.and_eq_true, Bool.and_eq_true] at hvalid
      exact parse_text (by simpa using hvalid.1.1) (Int.natCast_nonneg _)
    · exact absurd h (by simp)
  · exact absurd h (by simp)

theorem update_single {α : Type} {f : Nat → Option α} {c : Nat} {v : Option α}
    (h : ∀ d, d ≠ c → f d = none) :
    Function.update f c v = Function.update (fun _ ↦ none) c v := by
  funext d
  by_cases hd : d = c
  · rw [hd, Function.update_self, Function.update_self]
  · rw [Function.update_of_ne hd, Function.update_of_ne hd, h d hd]

/-- Of calls in flight, the only one there is. -/
theorem InFlight.only {scope : Option String} {key : String} {st : SyncState} {c : Nat}
    {phase : Phase} (h : InFlight scope key st) (hc : st.pending c = some phase) :
    ∃ r, getRow st.cards scope key = some r ∧ Holding st.cards r st.creates phase ∧
      ∀ d, d ≠ c → st.pending d = none := by
  rcases h with ⟨hnone, -⟩ | ⟨d, other, r, hpending, hr, hholding⟩
  · rw [hnone c] at hc
    exact absurd hc (by simp)
  · by_cases hd : c = d
    · rw [hpending, hd, Function.update_self] at hc
      rw [← Option.some.inj hc]
      refine ⟨r, hr, hholding, fun e he ↦ ?_⟩
      rw [hpending, Function.update_of_ne (by rw [← hd]; exact he)]
    · rw [hpending, Function.update_of_ne hd] at hc
      exact absurd hc (by simp)

/-! ## The steps -/

private theorem once_readCard {scope : Option String} {key : String} {st : SyncState} {c : Nat}
    (h : Once scope key st) (horderly : Orderly scope key st (.readCard c)) :
    Once scope key (syncStep scope key st (.readCard c)) := by
  obtain ⟨hidle, hform⟩ := horderly
  cases hr : getRow st.cards scope key with
  | none =>
    have hget : Cards.get st.cards scope key = none := by rw [Cards.get, hr]; rfl
    simp only [syncStep, hget]
    exact h
  | some r =>
    have hget : Cards.get st.cards scope key = some r.card := by rw [Cards.get, hr]; rfl
    simp only [syncStep, hget]
    refine ⟨h.creates, .inr ⟨c, .read r.card, r, update_single fun d _ ↦ hidle d, hr, rfl,
      hform r.card hget, ?_⟩⟩
    rcases h.inFlight with ⟨-, hnone | hadopted⟩ | ⟨d, phase, -, hpending, -⟩
    · exact .inl hnone
    · exact .inr (hadopted r hr)
    · have hbusy := hidle d
      rw [hpending, Function.update_self] at hbusy
      exact absurd hbusy (by simp)

private theorem once_askHost {scope : Option String} {key : String} {st : SyncState} {c : Nat}
    {project : Option String} {answer : Answer} (h : Once scope key st)
    (horderly : Orderly scope key st (.askHost c project answer)) :
    Once scope key (syncStep scope key st (.askHost c project answer)) := by
  cases hc : st.pending c with
  | none => simp only [syncStep, hc]; exact h
  | some phase =>
    cases phase with
    | mirroring card ref issue => simp only [syncStep, hc]; exact h
    | failed card missing => simp only [syncStep, hc]; exact h
    | read card =>
      obtain ⟨r, hr, ⟨rfl, hform, hcreates⟩, hothers⟩ := h.inFlight.only hc
      simp only [syncStep, hc]
      cases hparse : IssueRef.parse r.card.issueRef with
      | some ref =>
        -- The call adopts the issue the card names.
        have hadopted : Adopted r.card := by rw [Adopted, hparse]; rfl
        have hopens : opensIssue r.card project answer = false := by simp [opensIssue, hparse]
        rw [hopens]
        refine ⟨h.creates, .inr ⟨c, _, r, update_single hothers, hr, ?_⟩⟩
        simp only [ask, hparse]
        cases answer with
        | refused => exact ⟨rfl, .inr hadopted⟩
        | raised missing => exact ⟨rfl, .inr hadopted⟩
        | answered issue =>
          exact ⟨rfl, by rw [parse_text_of_parse hparse]; rfl, .inl hadopted⟩
      | none =>
        have hnot : ¬ Adopted r.card := by rw [Adopted, hparse]; simp
        have hempty : st.creates = [] := hcreates.resolve_right hnot
        have hnull : r.card.issueRef = none := hform.resolve_right hnot
        cases hopens : opensIssue r.card project answer with
        | false =>
          refine ⟨.inl hempty, .inr ⟨c, _, r, update_single hothers, hr, ?_⟩⟩
          simp only [ask, hparse]
          cases project with
          | none => exact ⟨rfl, .inl hempty⟩
          | some p =>
            cases answer with
            | refused => exact ⟨rfl, .inl hempty⟩
            | raised missing => simp [opensIssue, hparse] at hopens
            | answered issue => simp [opensIssue, hparse] at hopens
        | true =>
          obtain ⟨p, issue, rfl, rfl, hproject, hnumber, hfree⟩ := horderly r.card hc hopens
          refine ⟨.inr (by simp [hempty, hnull]), .inr ⟨c, _, r, update_single hothers, hr, ?_⟩⟩
          simp only [ask, hparse]
          refine ⟨rfl, ?_, .inr (hfree r hr)⟩
          rw [parse_text (r := ⟨p, issue.number⟩) hproject hnumber]
          rfl

/-- A write that names no reference keeps the one on the card. -/
private theorem adopted_written {t : CardTable} {scope : Option String} {key : String}
    {ch : CardChanges} {now : Time} (href : ch.issueRef = none)
    (h : ∀ r ∈ getRow t scope key, Adopted r.card) {t' : CardTable} {res : Option Card}
    (hok : updateCard t scope key ch now = .ok (res, t')) :
    ∀ r ∈ getRow t' scope key, Adopted r.card := by
  rcases updateCard_cases t scope key ch now with ⟨-, hnone⟩ | ⟨r, hr, herror | hupdate⟩
  · rw [hnone] at hok
    rw [← (Prod.mk.inj (Except.ok.inj hok)).2]
    exact h
  · rw [herror] at hok
    exact absurd hok (by simp)
  · rw [hupdate] at hok
    rw [← (Prod.mk.inj (Except.ok.inj hok)).2, getRow_modifyRow (ch.apply_found now), hr]
    intro q hq
    rw [Option.map_some, if_pos rfl] at hq
    rw [← Option.some.inj hq, Adopted]
    show (IssueRef.parse (ch.issueRef.getD r.card.issueRef)).isSome = true
    rw [href]
    exact h r hr

/-- What a call stores leaves an adopted card, if it mirrors an issue or the card was adopted
before. -/
private theorem adopted_finish {t : CardTable} {scope : Option String} {key : String}
    {r : CardRow} {phase : Phase} {creates : List (Option String)} (now : Time)
    (errorId : String) (hr : getRow t scope key = some r) (h : Holding t r creates phase)
    (hphase : ∀ card, phase ≠ .read card) :
    creates = [] ∨ ∀ q ∈ getRow (finish t scope phase now errorId) scope key, Adopted q.card := by
  have hkey : r.card.cardKey = key := (getRow_spec hr).2.2
  cases phase with
  | read card => exact absurd rfl (hphase card)
  | failed card missing =>
    obtain ⟨hcard, hbefore⟩ := h
    refine hbefore.imp id fun hadopted ↦ ?_
    have hold : ∀ q ∈ getRow t scope key, Adopted q.card := by
      intro q hq
      rw [hr] at hq
      rw [← Option.some.inj hq]
      exact hadopted
    simp only [finish, hcard, hkey]
    split
    · next res t' hok => exact adopted_written rfl hold hok
    · exact hold
  | mirroring card ref issue =>
    obtain ⟨rfl, hparse, hfree⟩ := h
    right
    have hnew := issueRef_mirror r.card ref issue now
    have hold : Adopted r.card → ∀ q ∈ getRow t scope key, Adopted q.card := by
      intro hadopted q hq
      rw [hr] at hq
      rw [← Option.some.inj hq]
      exact hadopted
    simp only [finish, hkey]
    split
    · next hempty =>
      -- Nothing to write: the reference is on the card already.
      rw [hempty] at hnew
      intro q hq
      rw [hr] at hq
      rw [← Option.some.inj hq, Adopted]
      have hsame : r.card.issueRef = some ref.text := hnew
      rw [hsame]
      exact hparse
    · cases hheld : holdsIssue t r.id r.card.tenantId (some ref.text) with
      | false =>
        have hadmitted : holdsIssue t r.id r.card.tenantId
            ((mirror r.card ref issue).apply now r.card).issueRef = false := by
          rw [hnew]
          exact hheld
        obtain ⟨t', hok, hrow⟩ := updateCard_ok hr hadmitted
        rw [hok]
        intro q hq
        rw [hrow] at hq
        rw [← Option.some.inj hq, Adopted]
        show (IssueRef.parse ((mirror r.card ref issue).apply now r.card).issueRef).isSome = true
        rw [hnew]
        exact hparse
      | true =>
        have hadopted : Adopted r.card :=
          hfree.resolve_right (by rw [hheld]; simp)
        have herror : updateCard t scope key (mirror r.card ref issue) now =
            .error .duplicateIssueRef := by
          rw [updateCard, hr]
          exact if_pos (by rw [hnew]; exact hheld)
        rw [herror]
        simp only
        split
        · next res t' hok => exact adopted_written rfl (hold hadopted) hok
        · exact hold hadopted

private theorem once_storeMirror {scope : Option String} {key : String} {st : SyncState} {c : Nat}
    {now : Time} {errorId : String} (h : Once scope key st) :
    Once scope key (syncStep scope key st (.storeMirror c now errorId)) := by
  cases hc : st.pending c with
  | none => simp only [syncStep, hc]; exact h
  | some phase =>
    obtain ⟨r, hr, hholding, hothers⟩ := h.inFlight.only hc
    have hdone : (∀ card, phase ≠ .read card) → Once scope key
        { cards := finish st.cards scope phase now errorId
          pending := Function.update st.pending c none
          creates := st.creates } := by
      intro hphase
      refine ⟨h.creates, .inl ⟨fun d ↦ ?_, adopted_finish now errorId hr hholding hphase⟩⟩
      by_cases hd : d = c
      · rw [hd]; exact Function.update_self c none st.pending
      · show Function.update st.pending c none d = none
        rw [Function.update_of_ne hd, hothers d hd]
    cases phase with
    | read card => simp only [syncStep, hc]; exact h
    | mirroring card ref issue =>
      simp only [syncStep, hc]
      exact hdone fun card' ↦ by simp
    | failed card missing =>
      simp only [syncStep, hc]
      exact hdone fun card' ↦ by simp

/-- An orderly step keeps the invariant. -/
theorem once_syncStep {scope : Option String} {key : String} {st : SyncState} (x : SyncStep)
    (h : Once scope key st) (horderly : Orderly scope key st x) :
    Once scope key (syncStep scope key st x) := by
  cases x with
  | readCard c => exact once_readCard h horderly
  | askHost c project answer => exact once_askHost h horderly
  | storeMirror c now errorId => exact once_storeMirror h

/-- In every run of orderly calls at most one issue is opened, by a call whose card had no
reference. -/
theorem sync_opens_one_issue (t : CardTable) (scope : Option String) (key : String)
    (steps : List SyncStep)
    (h : EachStep (syncStep scope key) (Orderly scope key) (.start t) steps) :
    Throughout (syncStep scope key) AtMostOneIssue (.start t) steps := by
  have hstart : Once scope key (.start t) := ⟨.inl rfl, .inl ⟨fun _ ↦ rfl, .inl rfl⟩⟩
  have honce := throughout_of_step (fun st x ↦ once_syncStep x) hstart h
  exact honce.imp fun st hst ↦ hst.atMostOne

/-- A board with one card that carries the given reference. -/
def oneCard (ref : Option String) : CardTable :=
  [⟨1, { cardKey := "FCT-1", title := "Login", issueRef := ref }⟩]

/-- The issue a host opens for that card. -/
def openedIssue (number : Int) : IssueData := { number := number, title := "Login" }

/-- A planned card's first sync is orderly, so it opens one issue. -/
theorem sync_opens_one_issue_planned :
    Throughout (syncStep none "FCT-1") AtMostOneIssue (.start (oneCard none))
      [.readCard 0, .askHost 0 (some "acme/app") (.answered (openedIssue 7)),
        .storeMirror 0 5 "e1"] := by
  refine sync_opens_one_issue (oneCard none) none "FCT-1" _ ⟨⟨fun _ ↦ rfl, ?_⟩, ?_, True.intro,
    True.intro⟩
  · intro card hcard
    have hsame := Option.some.inj hcard
    exact .inl (by rw [← hsame])
  · intro card _ _
    refine ⟨"acme/app", openedIssue 7, rfl, rfl, by decide +kernel, by decide, fun r hr ↦ ?_⟩
    rw [← Option.some.inj hr]
    decide +kernel

/-- A card whose reference has a blank in it is taken for one without an issue: the call opens
a second issue and overwrites the reference. -/
theorem malformed_reference_opens_issue :
    ¬ ∀ (t : CardTable) (scope : Option String) (key : String) (steps : List SyncStep),
      Throughout (syncStep scope key) AtMostOneIssue (.start t) steps := by
  intro h
  have hrun := (h (oneCard (some "acme/app #7")) none "FCT-1"
    [.readCard 0, .askHost 0 (some "acme/app") (.answered (openedIssue 8))]).last
  have hopened : (List.foldl (syncStep none "FCT-1") (.start (oneCard (some "acme/app #7")))
      [.readCard 0, .askHost 0 (some "acme/app") (.answered (openedIssue 8))]).creates =
        [some "acme/app #7"] := by
    decide +kernel
  have hnull := hrun.2 (some "acme/app #7") (by rw [hopened]; exact List.mem_cons_self)
  exact absurd hnull (by simp)

end CFactory.Sync
