import CFactory.Intake.Blocked

/-!
# Sequence discipline

`card_intake.py:699–851`. Serial runs of `start_sequence` and `apply_status` on one card. The
records of such a run are completed stages, then one stage under way, then queued ones;
every call preserves this shape, and what a run sends is read off it.
-/

namespace CFactory.Intake

open CFactory.Base CFactory.Model CFactory.Cards CFactory.Actions CFactory.Status

/-- The place of a stage in the sequence. -/
def rank : Stage → Nat
  | .plan => 0
  | .code => 1
  | .test => 2

/-- Stages at one place are the same. -/
theorem rank_inj {s s' : Stage} (h : rank s = rank s') : s = s' := by
  cases s <;> cases s' <;> simp [rank] at h ⊢

/-! ### Calls -/

/-- One call of a serial run: a press of the run button, or an event's write-back. -/
inductive SequenceCall where
  | start (env : IntakeEnv)
  | apply (env : IntakeEnv) (item : WorkItem)

/-- The call reads the card as stored. -/
def SequenceCall.program (key : String) : SequenceCall → IntakeM Unit
  | .start env => do
    match ← getCard key with
    | none => return ()
    | some card =>
      let _ ← startSequence env card
      return ()
  | .apply env item => do
    let _ ← applyStatus env item
    return ()

/-- Whether a call is a write-back. -/
def SequenceCall.isApply : SequenceCall → Bool
  | .start _ => false
  | .apply _ _ => true

/-- A serial run of calls. -/
def serial (key : String) : List SequenceCall → IntakeM Unit
  | [] => return ()
  | call :: rest => do
    call.program key
    serial key rest

/-- The stages that a run requests upstream, in order. -/
def requests (tr : List (Desk × IntakeOp)) : List Stage :=
  tr.filterMap fun x ↦
    match x.2 with
    | .request service _ => some service.stage
    | _ => none

/-- Requests of a concatenation. -/
@[simp] theorem requests_append (xs ys : List (Desk × IntakeOp)) :
    requests (xs ++ ys) = requests xs ++ requests ys := List.filterMap_append

@[simp] theorem requests_nil : requests [] = [] := rfl

/-! ### The shape of the records -/

/-- Either nothing is recorded, or every stage is and a stage behind an unfinished one waits
in the queue. -/
def Ordered (f : Stage → Option RunStatus) : Prop :=
  (∀ s, f s = none) ∨
    ((∀ s, f s ≠ none) ∧
      ∀ s s', rank s < rank s' → f s = some .done ∨ f s' = some .queued)

/-- At most one stage is in flight. -/
def AtMostOneInFlight (card : Card) : Prop :=
  ∀ s s', stageStatus card s = some .dispatched → stageStatus card s' = some .dispatched → s = s'

/-- Ordered records have at most one stage in flight. -/
theorem atMostOne_of_ordered {card : Card} (h : Ordered (stageStatus card)) :
    AtMostOneInFlight card := by
  intro s s' hs hs'
  rcases h with h | ⟨-, h⟩
  · rw [h s] at hs
    exact absurd hs (by simp)
  · rcases Nat.lt_trichotomy (rank s) (rank s') with hlt | heq | hgt
    · rcases h s s' hlt with hd | hq
      · rw [hd] at hs
        exact absurd hs (by simp)
      · rw [hq] at hs'
        exact absurd hs' (by simp)
    · exact rank_inj heq
    · rcases h s' s hgt with hd | hq
      · rw [hd] at hs'
        exact absurd hs' (by simp)
      · rw [hq] at hs
        exact absurd hs (by simp)

/-- What settling does to one record. -/
theorem settledStatus_cases (f : Stage → Option RunStatus) (item : WorkItem) (s : Stage) :
    settledStatus f item s = f s ∨
      (f s = some .dispatched ∧
        (settledStatus f item s = some .done ∨ settledStatus f item s = some .failed)) := by
  unfold settledStatus
  by_cases hd : f s = some .dispatched
  · rw [if_pos hd]
    unfold outcome
    split
    · exact Or.inr ⟨hd, Or.inr rfl⟩
    · split
      · exact Or.inr ⟨hd, Or.inl rfl⟩
      · exact Or.inl hd.symm
  · rw [if_neg hd]
    exact Or.inl rfl

/-- Settling keeps the shape. -/
theorem ordered_settled {f : Stage → Option RunStatus} (h : Ordered f) (item : WorkItem) :
    Ordered (settledStatus f item) := by
  rcases h with h | ⟨hsome, h⟩
  · left
    intro s
    rcases settledStatus_cases f item s with he | ⟨hd, -⟩
    · exact he.trans (h s)
    · rw [h s] at hd
      exact absurd hd (by simp)
  · refine Or.inr ⟨?_, ?_⟩
    · intro s
      rcases settledStatus_cases f item s with he | ⟨-, he | he⟩
      · exact he ▸ hsome s
      · simp [he]
      · simp [he]
    · intro s s' hlt
      rcases h s s' hlt with hd | hq
      · left
        rcases settledStatus_cases f item s with he | ⟨he, -⟩
        · exact he.trans hd
        · exact absurd (hd.symm.trans he) (by simp)
      · right
        rcases settledStatus_cases f item s' with he | ⟨he, -⟩
        · exact he.trans hq
        · exact absurd (hq.symm.trans he) (by simp)

/-- Settling queues nothing. -/
theorem queued_settled {f : Stage → Option RunStatus} {item : WorkItem} {s : Stage}
    (h : settledStatus f item s = some .queued) : f s = some .queued := by
  rcases settledStatus_cases f item s with he | ⟨-, he | he⟩
  · exact he ▸ h
  · exact absurd (h.symm.trans he) (by simp)
  · exact absurd (h.symm.trans he) (by simp)

/-- Stages before the first queued one are not queued. -/
theorem not_queued_before {card : Card} {nxt s : Stage} (h : firstQueued card = some nxt)
    (hlt : rank s < rank nxt) : stageStatus card s ≠ some .queued := by
  obtain ⟨-, earlier, later, hsplit, hearlier⟩ := List.find?_eq_some_iff_append.mp h
  have hmem : s ∈ earlier := by
    cases earlier with
    | nil => cases nxt <;> cases s <;> simp [SEQUENCE, rank] at hsplit hlt
    | cons x xs =>
      cases xs with
      | nil => cases nxt <;> cases s <;> simp_all [SEQUENCE, rank]
      | cons y ys => cases nxt <;> cases s <;> simp_all [SEQUENCE, rank]
  simpa using hearlier s hmem

/-- With nothing in flight and nothing failed, every stage before the first queued one is
recorded done. -/
theorem done_before {card : Card} {nxt s : Stage} (ho : Ordered (stageStatus card))
    (hf : ¬ InFlight card) (hx : ¬ HasFailed card) (hq : firstQueued card = some nxt)
    (hlt : rank s < rank nxt) : stageStatus card s = some .done := by
  have hnxt := queued_of_firstQueued hq
  rcases ho with ho | ⟨hsome, -⟩
  · rw [ho nxt] at hnxt
    exact absurd hnxt (by simp)
  · cases hs : stageStatus card s with
    | none => exact absurd hs (hsome s)
    | some status =>
      cases status with
      | queued => exact absurd hs (not_queued_before hq hlt)
      | dispatched => exact absurd ⟨s, hs⟩ hf
      | done => rfl
      | failed => exact absurd ⟨s, hs⟩ hx

/-- Taking the first queued stage out of the queue keeps the shape. -/
theorem ordered_taken {card : Card} {nxt : Stage} (ho : Ordered (stageStatus card))
    (hf : ¬ InFlight card) (hx : ¬ HasFailed card) (hq : firstQueued card = some nxt)
    (status : RunStatus) : Ordered (Function.update (stageStatus card) nxt (some status)) := by
  have hnxt := queued_of_firstQueued hq
  have hall := fun s hlt ↦ done_before (s := s) ho hf hx hq hlt
  rcases ho with ho | ⟨hsome, ho⟩
  · rw [ho nxt] at hnxt
    exact absurd hnxt (by simp)
  · refine Or.inr ⟨?_, ?_⟩
    · intro s
      rw [Function.update_apply]
      split
      · simp
      · exact hsome s
    · intro s s' hlt
      rw [Function.update_apply, Function.update_apply]
      by_cases hs' : s' = nxt
      · subst hs'
        have hne : s ≠ s' := fun he ↦ by subst he; exact Nat.lt_irrefl _ hlt
        rw [if_neg hne]
        exact Or.inl (hall s hlt)
      · by_cases hs : s = nxt
        · subst hs
          rw [if_neg hs']
          rcases ho s s' hlt with hd | hq'
          · rw [hnxt] at hd
            exact absurd hd (by simp)
          · exact Or.inr hq'
        · rw [if_neg hs, if_neg hs']
          exact ho s s' hlt

/-! ### Disciplined parts of a run -/

/-- What the discipline asks of one operation and the card it meets. -/
structure Orderly (x : Desk × IntakeOp) : Prop where
  oneInFlight : AtMostOneInFlight x.1.card
  earlierDone : ∀ service step, x.2 = .request service step →
    ∀ s, rank s < rank service.stage → stageStatus x.1.card s = some .done
  doneLast : ∀ key ch, x.2 = .update key ch → ch.status = some .done →
    pendingStages x.1.card = []

/-- A part of a run that ends on a desk: its operations are orderly, it requests no stage
twice, and a stage it requested has left the queue. -/
structure Paced (tr : List (Desk × IntakeOp)) (d' : Desk) : Prop where
  orderly : ∀ x ∈ tr, Orderly x
  ordered : Ordered (stageStatus d'.card)
  nodup : (requests tr).Nodup
  dequeued : ∀ s ∈ requests tr, stageStatus d'.card s ≠ some .queued

/-- A paced part that moreover requests only what was queued and queues nothing. -/
structure Draining (d : Desk) (tr : List (Desk × IntakeOp)) (d' : Desk) : Prop
    extends Paced tr d' where
  fromQueue : ∀ s ∈ requests tr, stageStatus d.card s = some .queued
  queuesNone : ∀ s, stageStatus d'.card s = some .queued → stageStatus d.card s = some .queued

/-- A paced part followed by a draining one is paced. -/
theorem Paced.append {tr tr' : List (Desk × IntakeOp)} {d' d'' : Desk} (h : Paced tr d')
    (h' : Draining d' tr' d'') : Paced (tr ++ tr') d'' where
  orderly x hx := (List.mem_append.mp hx).elim (h.orderly x) (h'.orderly x)
  ordered := h'.ordered
  nodup := by
    rw [requests_append]
    refine List.Nodup.append h.nodup h'.nodup ?_
    intro s hs hs'
    exact h.dequeued s hs (h'.fromQueue s hs')
  dequeued s hs := by
    rw [requests_append] at hs
    rcases List.mem_append.mp hs with hs | hs
    · exact fun hq ↦ h.dequeued s hs (h'.queuesNone s hq)
    · exact h'.dequeued s hs

/-- Draining parts compose. -/
theorem Draining.append {tr tr' : List (Desk × IntakeOp)} {d d' d'' : Desk}
    (h : Draining d tr d') (h' : Draining d' tr' d'') : Draining d (tr ++ tr') d'' where
  toPaced := h.toPaced.append h'
  fromQueue s hs := by
    rw [requests_append] at hs
    rcases List.mem_append.mp hs with hs | hs
    · exact h.fromQueue s hs
    · exact h.queuesNone s (h'.fromQueue s hs)
  queuesNone s hs := h.queuesNone s (h'.queuesNone s hs)

/-- A part without operations. -/
theorem draining_nil {d : Desk} (ho : Ordered (stageStatus d.card)) : Draining d [] d where
  orderly _ hx := absurd hx (by simp)
  ordered := ho
  nodup := List.nodup_nil
  dequeued _ hs := absurd hs (by simp)
  fromQueue _ hs := absurd hs (by simp)
  queuesNone _ hs := hs

/-- One operation that is no request and, if it writes the done column, finds nothing
pending. -/
theorem draining_single {d d' : Desk} {o : IntakeOp} (ho : Ordered (stageStatus d.card))
    (ho' : Ordered (stageStatus d'.card)) (hreq : ∀ service step, o ≠ .request service step)
    (hdone : ∀ key ch, o = .update key ch → ch.status = some .done → pendingStages d.card = [])
    (hq : ∀ s, stageStatus d'.card s = some .queued → stageStatus d.card s = some .queued) :
    Draining d [(d, o)] d' := by
  have hnone : requests [(d, o)] = [] := by
    cases o with
    | request service step => exact absurd rfl (hreq service step)
    | _ => rfl
  refine ⟨⟨?_, ho', ?_, ?_⟩, ?_, hq⟩
  · intro x hx
    obtain rfl := List.mem_singleton.mp hx
    exact ⟨atMostOne_of_ordered ho, fun service step h ↦ absurd h (hreq service step), hdone⟩
  · rw [hnone]
    exact List.nodup_nil
  · rw [hnone]
    exact fun _ hs ↦ absurd hs (by simp)
  · rw [hnone]
    exact fun _ hs ↦ absurd hs (by simp)

/-- A read keeps the card. -/
theorem draining_read {d : Desk} {o : IntakeOp} (n : Nat) (ho : Ordered (stageStatus d.card))
    (hreq : ∀ service step, o ≠ .request service step) (hup : ∀ key ch, o ≠ .update key ch) :
    Draining d [(d, o)] ⟨d.card, n⟩ :=
  draining_single ho ho hreq (fun key ch h ↦ absurd h (hup key ch)) fun _ hs ↦ hs

/-- `_settle` drains. -/
theorem draining_settle (w : World) (item : WorkItem) {d : Desk}
    (ho : Ordered (stageStatus d.card)) :
    Draining d (Prog.trace (deskHandler w) (settle d.card item) d) (settledDesk w item d) := by
  have hord : Ordered (stageStatus (settledDesk w item d).card) := by
    rw [stageStatus_settledDesk]
    exact ordered_settled ho item
  rw [trace_settle]
  split
  · refine draining_single ho hord (by simp) ?_ ?_
    · intro key ch h hdone
      cases h
      exact absurd hdone (by simp)
    · intro s hs
      rw [stageStatus_settledDesk] at hs
      exact queued_settled hs
  · next h =>
    have hsame : settledDesk w item d = d := by rw [settledDesk, if_neg h]
    rw [hsame]
    exact draining_nil ho

/-- Dispatching the first queued stage drains. -/
theorem draining_dispatch (w : World) (env : IntakeEnv) {d : Desk} {nxt : Stage}
    (ho : Ordered (stageStatus d.card)) (hf : ¬ InFlight d.card) (hx : ¬ HasFailed d.card)
    (hq : firstQueued d.card = some nxt) :
    Draining d (Prog.trace (deskHandler w) (dispatchStage env d.card nxt) d)
      (dispatchedDesk w env nxt d) := by
  rw [trace_dispatchStage, dispatchedDesk]
  by_cases hsend : Sendable env d.card nxt
  · rw [if_pos hsend, if_pos hsend]
    have hreq : requests [(d, .request nxt.service ⟨"POST", Stage.endpoint nxt⟩),
        (⟨d.card, d.steps + 1⟩,
          .update d.card.cardKey (sendChanges env d.card nxt (w.reply d.steps)))] = [nxt] := by
      simp [requests]
    refine ⟨⟨?_, ?_, ?_, ?_⟩, ?_, ?_⟩
    · intro x hx'
      rcases List.mem_cons.mp hx' with rfl | hx'
      · refine ⟨atMostOne_of_ordered ho, ?_, fun _ _ h ↦ absurd h (by simp)⟩
        intro service step h s hlt
        cases h
        rw [stage_service] at hlt
        exact done_before ho hf hx hq hlt
      · obtain rfl := List.mem_singleton.mp hx'
        refine ⟨atMostOne_of_ordered ho, fun _ _ h ↦ absurd h (by simp), ?_⟩
        intro key ch h hdone
        cases h
        unfold sendChanges at hdone
        split at hdone <;> simp at hdone
    · rw [stageStatus_sendChanges]
      exact ordered_taken ho hf hx hq _
    · rw [hreq]
      exact List.nodup_singleton nxt
    · intro s hs
      rw [hreq, List.mem_singleton] at hs
      subst hs
      rw [stageStatus_sendChanges, Function.update_self]
      split <;> simp
    · intro s hs
      rw [hreq, List.mem_singleton] at hs
      subst hs
      exact queued_of_firstQueued hq
    · intro s hs
      rw [stageStatus_sendChanges, Function.update_apply] at hs
      split at hs
      · next he =>
        subst he
        exact queued_of_firstQueued hq
      · exact hs
  · rw [if_neg hsend, if_neg hsend]
    exact draining_nil ho

/-- `_advance` drains. -/
theorem draining_advance (w : World) (env : IntakeEnv) {d : Desk}
    (ho : Ordered (stageStatus d.card)) :
    Draining d (Prog.trace (deskHandler w) (advance env d.card) d) (advancedDesk w env d) := by
  rw [trace_advance, advancedDesk]
  by_cases hf : InFlight d.card
  · rw [if_pos hf, if_pos hf]
    exact draining_nil ho
  rw [if_neg hf, if_neg hf]
  by_cases hx : HasFailed d.card
  · have hs := stageStatus_apply { status := some .blocked } rfl (w.clock d.steps) d.card
    rw [if_pos hx, if_pos hx]
    refine draining_single ho ?_ (by simp) ?_ ?_
    · rw [hs]
      exact ho
    · intro key ch h hdone
      cases h
      exact absurd hdone (by simp)
    · intro s hq
      rw [hs] at hq
      exact hq
  rw [if_neg hx, if_neg hx]
  cases hq : firstQueued d.card with
  | none => exact draining_nil ho
  | some nxt =>
    have hsent := draining_dispatch w env ho hf hx hq
    refine hsent.append ?_
    unfold afterTry
    split
    · have hreport := draining_read (o := .report (dispatchedDesk w env nxt d).card.cardKey
        (Prog.run (deskHandler w) (dispatchStage env d.card nxt) d).1)
        ((dispatchedDesk w env nxt d).steps + 1) hsent.ordered (by simp) (by simp)
      exact hreport.append
        (draining_read (d := ⟨(dispatchedDesk w env nxt d).card, _⟩) _ hsent.ordered
          (by simp) (by simp))
    · exact draining_read _ hsent.ordered (by simp) (by simp)

/-- A verdict of done is given only when nothing is pending. -/
theorem pending_of_verdict_done {item : WorkItem} {card : Card}
    (h : verdict item card = some .done) : pendingStages card = [] := by
  unfold verdict cardStatusFor at h
  obtain ⟨x, -, hx⟩ := Option.map_eq_some_iff.mp h
  unfold columnFor at hx
  split at hx
  · exact absurd hx (by simp)
  · split at hx
    · split at hx
      · exact absurd hx (by simp)
      · next hr => simpa using (not_or.mp hr).1
    · exact absurd hx (by simp)

/-- The final column write drains. -/
theorem draining_column (w : World) (item : WorkItem) {d : Desk}
    (ho : Ordered (stageStatus d.card)) :
    Draining d (columnTrace (verdict item d.card) d) (columnDesk w (verdict item d.card) d) := by
  cases hv : verdict item d.card with
  | none => exact draining_nil ho
  | some status =>
    have hrec := stageStatus_columnDesk w (some status) d
    by_cases he : status = d.card.status
    · have hd : columnDesk w (some status) d = d := by rw [columnDesk, if_pos he]
      rw [hd, columnTrace, if_pos he]
      exact draining_nil ho
    · rw [columnTrace, if_neg he]
      refine draining_single ho ?_ (by simp) ?_ ?_
      · rw [hrec]
        exact ho
      · intro key ch h hdone
        cases h
        cases hdone
        exact pending_of_verdict_done hv
      · intro s hq
        rw [hrec] at hq
        exact hq

/-- The write-back drains. -/
theorem draining_writeBack (w : World) (env : IntakeEnv) (item : WorkItem) {d : Desk}
    (ho : Ordered (stageStatus d.card)) :
    Draining d (Prog.trace (deskHandler w) (writeBack env d.card item) d)
      (writtenDesk w env item d) := by
  have hset := draining_settle w item ho
  have hadv := draining_advance w env hset.ordered
  rw [trace_writeBack]
  exact hset.append (hadv.append (draining_column w item hadv.ordered))

/-! ### Starting a sequence -/

/-- The statuses once every stage still owed is queued. -/
def owedStatus (f : Stage → Option RunStatus) : Stage → Option RunStatus := fun s ↦
  if f s = some .done then some .done else some .queued

/-- A start either performs nothing, or finds nothing in flight, queues what is owed and
dispatches the first of it. -/
theorem startSequence_cases (env : IntakeEnv) (card : Card) :
    ((card.tier = none ∨ InFlight card ∨ owedStages card = []) ∧
      ∃ result, startSequence env card = Pure.pure result) ∨
      (card.tier ≠ none ∧ ¬ InFlight card) ∧
      ∃ first rest, owedStages card = first :: rest ∧
        startSequence env card = do
          let card ← writeRuns card (queuedFields (first :: rest)) {}
          let result ← dispatchStage env card first
          return { result with sequence := some (first :: rest) } := by
  unfold startSequence
  split
  · next ht => exact Or.inl ⟨Or.inl ht, _, rfl⟩
  · next ht =>
    cases hlive : SEQUENCE.find? fun s ↦ stageStatus card s = some .dispatched with
    | some live =>
      have hs : stageStatus card live = some .dispatched := by simpa using List.find?_some hlive
      exact Or.inl ⟨Or.inr (Or.inl ⟨live, hs⟩), _, rfl⟩
    | none =>
      cases howed : owedStages card with
      | nil => exact Or.inl ⟨Or.inr (Or.inr rfl), _, rfl⟩
      | cons first rest =>
        refine Or.inr ⟨⟨ht, ?_⟩, first, rest, rfl, rfl⟩
        rintro ⟨s, hs⟩
        have := List.find?_eq_none.mp hlive s (mem_SEQUENCE s)
        simp [hs] at this

/-- Queueing what is owed stores these statuses. -/
theorem mergeStatus_queuedFields (card : Card) :
    mergeStatus (stageStatus card) (queuedFields (owedStages card)) =
      owedStatus (stageStatus card) := by
  funext s
  by_cases hd : stageStatus card s = some .done
  · simp [mergeStatus, queuedFields, owedStages, owedStatus, hd]
  · simp [mergeStatus, queuedFields, owedStages, owedStatus, hd]

/-- Queueing what is owed keeps the shape. -/
theorem ordered_owed {f : Stage → Option RunStatus} (h : Ordered f) : Ordered (owedStatus f) := by
  refine Or.inr ⟨?_, ?_⟩
  · intro s
    unfold owedStatus
    split <;> simp
  · intro s s' hlt
    unfold owedStatus
    by_cases hd : f s = some .done
    · exact Or.inl (if_pos hd)
    · have hd' : f s' ≠ some .done := by
        rcases h with h | ⟨-, h⟩
        · rw [h s']
          simp
        · rcases h s s' hlt with he | hq
          · exact absurd he hd
          · rw [hq]
            simp
      exact Or.inr (if_neg hd')

/-- The first owed stage is the first queued one once what is owed is queued. -/
theorem firstQueued_owed {card card' : Card} {first : Stage} {rest : List Stage}
    (howed : owedStages card = first :: rest)
    (h : stageStatus card' = owedStatus (stageStatus card)) : firstQueued card' = some first := by
  have hp : (fun s ↦ decide (stageStatus card' s = some RunStatus.queued)) =
      fun s ↦ decide (stageStatus card s ≠ some RunStatus.done) := by
    funext s
    rw [h, owedStatus]
    by_cases hd : stageStatus card s = some .done <;> simp [hd]
  rw [firstQueued, hp, ← List.head?_filter]
  exact congrArg List.head? howed

/-- The desk after a start on the card as it stands. -/
theorem paced_startSequence (w : World) (env : IntakeEnv) {d : Desk}
    (ho : Ordered (stageStatus d.card)) :
    Paced (Prog.trace (deskHandler w) (startSequence env d.card) d)
        (Prog.run (deskHandler w) (startSequence env d.card) d).2 ∧
      (Prog.run (deskHandler w) (startSequence env d.card) d).2.card.cardKey =
        d.card.cardKey := by
  rcases startSequence_cases env d.card with ⟨-, result, hr⟩ | ⟨-, first, rest, howed, hr⟩
  · rw [hr]
    exact ⟨(draining_nil ho).toPaced, rfl⟩
  · rw [hr]
    let queued : Desk := ⟨StageChanges.apply
      { stageRuns := some (mergeRuns d.card.stageRuns (queuedFields (first :: rest))) }
      (w.clock d.steps) d.card, d.steps + 1⟩
    have hstatus : stageStatus queued.card = owedStatus (stageStatus d.card) := by
      rw [← mergeStatus_queuedFields, howed]
      exact stageStatus_merge d.card d.card _ {} _
    have hord : Ordered (stageStatus queued.card) := by
      rw [hstatus]
      exact ordered_owed ho
    have hin : ¬ InFlight queued.card := by
      rintro ⟨s, hs⟩
      rw [hstatus, owedStatus] at hs
      split at hs <;> simp at hs
    have hfail : ¬ HasFailed queued.card := by
      rintro ⟨s, hs⟩
      rw [hstatus, owedStatus] at hs
      split at hs <;> simp at hs
    have hwrite : Paced [(d, .update d.card.cardKey
        { stageRuns := some (mergeRuns d.card.stageRuns (queuedFields (first :: rest))) })]
        queued := by
      refine ⟨?_, hord, List.nodup_nil, fun _ h ↦ absurd h (by simp [requests])⟩
      intro x hx
      obtain rfl := List.mem_singleton.mp hx
      refine ⟨atMostOne_of_ordered ho, fun _ _ h ↦ absurd h (by simp), ?_⟩
      intro key ch h hdone
      cases h
      exact absurd hdone (by simp)
    have hrest := hwrite.append
      (draining_dispatch w env hord hin hfail (firstQueued_owed howed hstatus))
    simp only [writeRuns, Prog.perform_bind, Prog.op_bind, Prog.pure_bind, Prog.trace_op,
      Prog.run_op, deskHandler_update, Prog.trace_bind, Prog.run_bind, Prog.trace_pure,
      Prog.run_pure, List.append_nil, Option.getD_some]
    have hrun := run_dispatchStage w env first queued
    refine ⟨?_, ?_⟩
    · rw [hrun]
      exact hrest
    · rw [hrun]
      exact cardKey_dispatchedDesk w env first queued

/-! ### Serial runs -/

/-- The desk after a call. -/
def afterCall (w : World) (key : String) (call : SequenceCall) (d : Desk) : Desk :=
  (Prog.run (deskHandler w) (call.program key) d).2

/-- The operations of a call. -/
def callTrace (w : World) (key : String) (call : SequenceCall) (d : Desk) :
    List (Desk × IntakeOp) :=
  Prog.trace (deskHandler w) (call.program key) d

/-- A write-back drains whatever its work item. -/
theorem draining_apply (w : World) (env : IntakeEnv) (item : WorkItem) {d : Desk}
    (ho : Ordered (stageStatus d.card)) :
    Draining d (callTrace w d.card.cardKey (.apply env item) d)
        (afterCall w d.card.cardKey (.apply env item) d) ∧
      (afterCall w d.card.cardKey (.apply env item) d).card.cardKey = d.card.cardKey := by
  have hread := draining_read (o := .getByCorrelationKey item.correlationKey) (d.steps + 1) ho
    (by simp) (by simp)
  unfold callTrace afterCall
  by_cases hj : d.card.correlationKey = some item.correlationKey
  · have hwrite := draining_writeBack w env item (d := ⟨d.card, d.steps + 1⟩) ho
    have hrun := run_writeBack w env item ⟨d.card, d.steps + 1⟩
    have hkey := cardKey_writtenDesk w env item ⟨d.card, d.steps + 1⟩
    simp only [SequenceCall.program, applyStatus, Prog.perform_bind, Prog.op_bind, Prog.trace_op,
      Prog.run_op, deskHandler, hj, ↓reduceIte, Prog.trace_bind, Prog.run_bind, Prog.trace_pure,
      Prog.run_pure, List.append_nil, hrun]
    exact ⟨hread.append hwrite, hkey⟩
  · simp only [SequenceCall.program, applyStatus, Prog.perform_bind, Prog.op_bind, Prog.trace_op,
      Prog.run_op, deskHandler, hj, ↓reduceIte, Prog.pure_bind, Prog.trace_pure, Prog.run_pure]
    exact ⟨hread, trivial⟩

/-- Every call is paced. -/
theorem paced_call (w : World) (call : SequenceCall) {d : Desk}
    (ho : Ordered (stageStatus d.card)) :
    Paced (callTrace w d.card.cardKey call d) (afterCall w d.card.cardKey call d) ∧
      (afterCall w d.card.cardKey call d).card.cardKey = d.card.cardKey := by
  cases call with
  | apply env item =>
    obtain ⟨hd, hk⟩ := draining_apply w env item ho
    exact ⟨hd.toPaced, hk⟩
  | start env =>
    have hget := deskHandler_get w d
    have hread : Draining d [(d, .get d.card.cardKey)] ⟨d.card, d.steps + 1⟩ :=
      draining_read _ ho (by simp) (by simp)
    obtain ⟨hstart, hkey⟩ := paced_startSequence w env (d := ⟨d.card, d.steps + 1⟩) ho
    unfold callTrace afterCall
    simp only [SequenceCall.program, Prog.perform_bind, Prog.trace_op, Prog.run_op, hget,
      Prog.trace_bind, Prog.run_bind, Prog.trace_pure, Prog.run_pure, List.append_nil]
    refine ⟨⟨?_, hstart.ordered, ?_, ?_⟩, hkey⟩
    · intro x hx
      rcases List.mem_cons.mp hx with rfl | hx
      · exact hread.orderly _ (List.mem_singleton.mpr rfl)
      · exact hstart.orderly x hx
    · exact hstart.nodup
    · exact hstart.dequeued

/-- The operations of a serial run are those of its calls in order. -/
theorem trace_serial_cons (w : World) (key : String) (call : SequenceCall)
    (rest : List SequenceCall) (d : Desk) :
    Prog.trace (deskHandler w) (serial key (call :: rest)) d =
      callTrace w key call d ++
        Prog.trace (deskHandler w) (serial key rest) (afterCall w key call d) := by
  rw [serial, Prog.trace_bind]
  rfl

/-- A serial run goes on from the desk its first call left. -/
theorem run_serial_cons (w : World) (key : String) (call : SequenceCall)
    (rest : List SequenceCall) (d : Desk) :
    Prog.run (deskHandler w) (serial key (call :: rest)) d =
      Prog.run (deskHandler w) (serial key rest) (afterCall w key call d) := by
  rw [serial, Prog.run_bind]
  rfl

/-- Any serial run from ordered records is orderly and leaves ordered records. -/
theorem orderly_serial (w : World) (calls : List SequenceCall) {d : Desk} {key : String}
    (hkey : d.card.cardKey = key) (ho : Ordered (stageStatus d.card)) :
    (∀ x ∈ Prog.trace (deskHandler w) (serial key calls) d, Orderly x) ∧
      Ordered (stageStatus (Prog.run (deskHandler w) (serial key calls) d).2.card) ∧
      (Prog.run (deskHandler w) (serial key calls) d).2.card.cardKey = key := by
  induction calls generalizing d with
  | nil => exact ⟨fun _ hx ↦ absurd hx (by simp [serial]), ho, hkey⟩
  | cons call rest ih =>
    subst hkey
    obtain ⟨hcall, hk⟩ := paced_call w call ho
    obtain ⟨horderly, hend⟩ := ih hk hcall.ordered
    rw [trace_serial_cons, run_serial_cons]
    refine ⟨?_, hend⟩
    intro x hx
    exact (List.mem_append.mp hx).elim (hcall.orderly x) (horderly x)

/-- A run of write-backs drains. -/
theorem draining_serial (w : World) (calls : List SequenceCall) {d : Desk} {key : String}
    (hkey : d.card.cardKey = key) (ho : Ordered (stageStatus d.card))
    (happly : ∀ call ∈ calls, call.isApply = true) :
    Draining d (Prog.trace (deskHandler w) (serial key calls) d)
      (Prog.run (deskHandler w) (serial key calls) d).2 := by
  induction calls generalizing d with
  | nil => exact draining_nil ho
  | cons call rest ih =>
    subst hkey
    have hrest := List.forall_mem_cons.mp happly
    cases call with
    | start env => exact absurd hrest.1 (by simp [SequenceCall.isApply])
    | apply env item =>
      obtain ⟨hd, hk⟩ := draining_apply w env item ho
      rw [trace_serial_cons, run_serial_cons]
      exact hd.append (ih hk hd.ordered hrest.2)

end CFactory.Intake
