import CFactory.Base.Pool
import CFactory.Store.Timeline

/-!
# Two events at once

`store.py:467–524`. Two `upsert_from_event` transactions on one row. Each reads the row,
computes the columns from what it read, and writes them whole; there is no row lock, and the
retry covers the race to insert only. A statement is one step, and a write is visible from
its commit on.
-/

namespace CFactory.Store

open CFactory.Base CFactory.Model CFactory.Status

/-! ### One transaction -/

/-- A timeline after the delivery of an event that is no heartbeat. -/
def appendNew (timeline : List CompletionEvent) (event : CompletionEvent) :
    List CompletionEvent :=
  if alreadyRecorded timeline event then timeline else timeline ++ [event]

/-- The row under a key is a tenant's, with this timeline. -/
def RowHas (t : WorkItemTable) (key tenant : String) (timeline : List CompletionEvent) : Prop :=
  ∃ r, t.row? key = some r ∧ r.tenantId = tenant ∧ r.item.timeline = timeline

variable {t : WorkItemTable} {key tenant : String} {timeline : List CompletionEvent}

/-- The transaction that has read a row and is about to write it. -/
def writing (event : CompletionEvent) (now : Time) (r : WorkItemRow) :
    StoreM (Except StoreError (WorkItem × Bool)) :=
  .op (.update r.key (eventChanges r.item event now)) fun _ ↦
    pure (.ok (ingest r.item event now, true))

/-- The transaction that has read a row. -/
def afterRead (event : CompletionEvent) (now : Time) (r : WorkItemRow) :
    StoreM (Except StoreError (WorkItem × Bool)) :=
  if alreadyRecorded r.item.timeline event then pure (.ok (r.item, false))
  else writing event now r

/-- An event that is recognised stays recognised as the timeline grows. -/
theorem alreadyRecorded_append {event : CompletionEvent}
    (h : alreadyRecorded timeline event = true) (more : List CompletionEvent) :
    alreadyRecorded (timeline ++ more) event = true := by
  unfold alreadyRecorded at h ⊢
  simp only [List.any_append]
  split at h
  · exact absurd h Bool.false_ne_true
  · next hbeat =>
    rw [if_neg hbeat]
    split at h
    · next hid => rw [if_pos hid, h, Bool.true_or]
    · next hid =>
      rw [if_neg hid]
      split at h
      · next hworker => rw [if_pos hworker, h, Bool.true_or]
      · exact absurd h Bool.false_ne_true

/-- The first statement of an event's transaction reads its row. -/
theorem upsertFromEvent_reads (scope : Option String) (event : CompletionEvent) (now : Time) :
    ∃ next, upsertFromEvent scope event now = .op (.select scope event.correlationKey) next ∧
      ∀ r, next (some r) = afterRead event now r := by
  refine ⟨_, rfl, ?_⟩
  intro r
  simp only [Prog.bind, reviseByEvent, afterRead, writing]
  cases alreadyRecorded r.item.timeline event
  · rfl
  · rfl

/-- A write puts the computed timeline in place of whatever the row has by then. -/
theorem rowHas_writing {old : List CompletionEvent} (h : RowHas t key tenant old)
    {event : CompletionEvent} {r : WorkItemRow} (hr : r.key = key)
    (hbeat : isWorkerProgressEvent event = false) (now : Time) :
    RowHas (Prog.run storeHandler (writing event now r) t).2 key tenant
      (r.item.timeline ++ [event]) := by
  obtain ⟨x, hx, htenant, -⟩ := h
  refine ⟨{ x with item := (eventChanges r.item event now).apply x.item }, ?_, htenant, ?_⟩
  · simp only [writing, Prog.run_op, Prog.run_pure, storeHandler]
    rw [row_updateRow, if_pos hr.symm, hx, Option.map_some]
  · simp [eventChanges, RowChanges.apply, hbeat]

/-- A transaction that is run on after its read leaves the extended timeline. -/
theorem rowHas_afterRead {r : WorkItemRow} (hrow : t.row? key = some r)
    {event : CompletionEvent} (hbeat : isWorkerProgressEvent event = false) (now : Time) :
    RowHas (Prog.run storeHandler (afterRead event now r) t).2 key r.tenantId
      (appendNew r.item.timeline event) := by
  have hr : r.key = key := WorkItemTable.key_of_row hrow
  unfold afterRead appendNew
  cases hrec : alreadyRecorded r.item.timeline event with
  | true => exact ⟨r, hrow, rfl, rfl⟩
  | false => exact rowHas_writing ⟨r, hrow, rfl, rfl⟩ hr hbeat now

/-! ### Two transactions -/

/-- The delivery of an event through a store, at some clock reading. -/
structure Delivery where
  scope : Option String
  event : CompletionEvent
  now : Time

/-- Its transaction. -/
def Delivery.program (d : Delivery) : StoreM (Except StoreError (WorkItem × Bool)) :=
  upsertFromEvent d.scope d.event d.now

/-- An event of this key that is no heartbeat, through a store that covers the tenant. -/
structure Delivery.For (d : Delivery) (key tenant : String) : Prop where
  key : d.event.correlationKey = key
  scope : d.scope.all (· == tenant) = true
  beat : isWorkerProgressEvent d.event = false

/-- Two deliveries under way on one table. -/
abbrev Deliveries := Pool StoreOp StoreOp.Res (Except StoreError (WorkItem × Bool))
  (Except StoreError (WorkItem × Bool)) WorkItemTable

/-- Two deliveries that are about to begin. -/
def together (d e : Delivery) (t : WorkItemTable) : Deliveries := ⟨d.program, e.program, t⟩

/-- Each transaction has read before the other one writes. -/
def BothReadFirst (schedule : List Bool) : Prop :=
  ∃ side rest, schedule = side :: (!side) :: rest

/-- Which side is first does not matter. -/
theorem bothReadFirst_not (schedule : List Bool) :
    BothReadFirst (schedule.map not) ↔ BothReadFirst schedule := by
  have hmap : ∀ xs : List Bool, BothReadFirst xs → BothReadFirst (xs.map not) := by
    rintro xs ⟨side, rest, rfl⟩
    exact ⟨!side, rest.map not, rfl⟩
  constructor
  · intro h
    have := hmap _ h
    rwa [List.map_map, Bool.involutive_not.comp_self, List.map_id] at this
  · exact hmap schedule

variable {d e : Delivery} {r : WorkItemRow}

private theorem step_read (hd : d.For key r.tenantId) (hrow : t.row? key = some r)
    (q : StoreM (Except StoreError (WorkItem × Bool))) :
    Pool.step storeHandler (⟨d.program, q, t⟩ : Deliveries) true =
      ⟨afterRead d.event d.now r, q, t⟩ := by
  obtain ⟨next, hnext, hafter⟩ := upsertFromEvent_reads d.scope d.event d.now
  have hget : t.getRow d.scope d.event.correlationKey = some r := by
    rw [hd.key, t.getRow_eq, hrow, Option.filter_some]
    exact if_pos hd.scope
  rw [Delivery.program, hnext]
  simp only [Pool.step, storeHandler]
  rw [hget, hafter]

private theorem step_read_right (he : e.For key r.tenantId) (hrow : t.row? key = some r)
    (p : StoreM (Except StoreError (WorkItem × Bool))) :
    Pool.step storeHandler (⟨p, e.program, t⟩ : Deliveries) false =
      ⟨p, afterRead e.event e.now r, t⟩ := by
  have hswap := Pool.step_swap storeHandler (⟨e.program, p, t⟩ : Deliveries) false
  rw [Bool.not_false, step_read he hrow] at hswap
  exact hswap

/-- Where the right transaction reads after the left one has written, both events get in. -/
private theorem left_then_right (hd : d.For key r.tenantId) (he : e.For key r.tenantId)
    (hrow : t.row? key = some r) {rest : List Bool}
    (hfin : (Pool.run storeHandler (together d e t) (true :: true :: rest)).Finished) :
    RowHas (Pool.run storeHandler (together d e t) (true :: true :: rest)).shared key r.tenantId
      (appendNew (appendNew r.item.timeline d.event) e.event) := by
  rw [Pool.run_cons, together, step_read hd hrow, Pool.run_cons] at hfin ⊢
  have hleft : ∃ a, Pool.step storeHandler
      (⟨afterRead d.event d.now r, e.program, t⟩ : Deliveries) true =
        ⟨.pure a, e.program, (Prog.run storeHandler (afterRead d.event d.now r) t).2⟩ := by
    unfold afterRead
    cases alreadyRecorded r.item.timeline d.event
    · exact ⟨_, rfl⟩
    · exact ⟨_, rfl⟩
  obtain ⟨a, ha⟩ := hleft
  rw [ha] at hfin ⊢
  rw [Pool.run_right_alone storeHandler a e.program _ rest (hfin false)]
  obtain ⟨x, hx, htenant, htl⟩ := rowHas_afterRead hrow hd.beat d.now
  rw [← htenant, ← htl]
  have hnext := step_read (htenant ▸ he) hx (.pure a : StoreM (Except StoreError _))
  have hrun : Prog.run storeHandler e.program
      (Prog.run storeHandler (afterRead d.event d.now r) t).2 =
      Prog.run storeHandler (afterRead e.event e.now x)
        (Prog.run storeHandler (afterRead d.event d.now r) t).2 := by
    have := Pool.run_of_left storeHandler e.program
      (.pure a : StoreM (Except StoreError (WorkItem × Bool))) 
      (Prog.run storeHandler (afterRead d.event d.now r) t).2 1
    rw [this, List.replicate_one, Pool.run_cons, hnext]
    rfl
  rw [hrun]
  exact rowHas_afterRead hx he.beat e.now

/-- Where both have read before either writes, the last write decides; it has only its own
event, unless the other transaction has nothing to write. -/
private theorem left_and_right (hd : d.For key r.tenantId) (he : e.For key r.tenantId)
    (hrow : t.row? key = some r) {rest : List Bool}
    (hfin : (Pool.run storeHandler (together d e t) (true :: false :: rest)).Finished) :
    ∃ timeline, RowHas (Pool.run storeHandler (together d e t) (true :: false :: rest)).shared key
        r.tenantId timeline ∧
      if alreadyRecorded r.item.timeline d.event ∨ alreadyRecorded r.item.timeline e.event then
        timeline = appendNew (appendNew r.item.timeline d.event) e.event
      else timeline = r.item.timeline ++ [d.event] ∨ timeline = r.item.timeline ++ [e.event] := by
  have hr : r.key = key := WorkItemTable.key_of_row hrow
  have hkept : RowHas t key r.tenantId r.item.timeline := ⟨r, hrow, rfl, rfl⟩
  rw [Pool.run_cons, together, step_read hd hrow, Pool.run_cons, step_read_right he hrow] at hfin ⊢
  cases hrecd : alreadyRecorded r.item.timeline d.event with
  | true =>
    have hreturned : afterRead d.event d.now r = .pure (.ok (r.item, false)) := if_pos hrecd
    refine ⟨appendNew r.item.timeline e.event, ?_, ?_⟩
    · rw [hreturned] at hfin ⊢
      rw [Pool.run_right_alone storeHandler _ _ t rest (hfin false)]
      exact rowHas_afterRead hrow he.beat e.now
    · simp [appendNew, hrecd]
  | false =>
    have hwriting : afterRead d.event d.now r = writing d.event d.now r := if_neg (by simp [hrecd])
    rw [hwriting] at hfin ⊢
    cases hrece : alreadyRecorded r.item.timeline e.event with
    | true =>
      have hreturned : afterRead e.event e.now r = .pure (.ok (r.item, false)) := if_pos hrece
      refine ⟨r.item.timeline ++ [d.event], ?_, ?_⟩
      · rw [hreturned] at hfin ⊢
        rw [Pool.run_left_alone storeHandler _ _ t rest (hfin true)]
        exact rowHas_writing hkept hr hd.beat d.now
      · simp [appendNew, hrecd, alreadyRecorded_append hrece]
    | false =>
      have hwriting : afterRead e.event e.now r = writing e.event e.now r :=
        if_neg (by simp [hrece])
      rw [hwriting] at hfin ⊢
      cases rest with
      | nil => exact absurd (hfin true) (by simp [Pool.next?, Prog.next?, writing])
      | cons side rest =>
        cases side with
        | true =>
          refine ⟨r.item.timeline ++ [e.event], ?_, by simp⟩
          have hmid := rowHas_writing hkept hr hd.beat d.now
          have hlast := Pool.run_right_alone storeHandler _ (writing e.event e.now r) _ rest
            (hfin false)
          rw [Pool.run_cons]
          exact hlast ▸ rowHas_writing hmid hr he.beat e.now
        | false =>
          refine ⟨r.item.timeline ++ [d.event], ?_, by simp⟩
          have hmid := rowHas_writing hkept hr he.beat e.now
          have hlast := Pool.run_left_alone storeHandler (writing d.event d.now r) _ _ rest
            (hfin true)
          rw [Pool.run_cons]
          exact hlast ▸ rowHas_writing hmid hr hd.beat d.now

/-! ### Both ids in the timeline -/

/-- The row under the key has the id exactly once in its timeline. -/
def RecordedOnce (t : WorkItemTable) (key i : String) : Prop :=
  ∃ r, t.row? key = some r ∧ (recordedIds r.item.timeline).count i = 1

/-- An event of this id, which is not empty. -/
structure HasId (event : CompletionEvent) (i : String) : Prop where
  id : event.id = some i
  notEmpty : i ≠ ""
  beat : isWorkerProgressEvent event = false

variable {event : CompletionEvent} {i j : String}

/-- Recording an event adds its id. -/
theorem recordedIds_append (h : HasId event i) (timeline : List CompletionEvent) :
    recordedIds (timeline ++ [event]) = recordedIds timeline ++ [i] := by
  simp [recordedIds, h.id, Option.filter, h.notEmpty]

/-- An event with an id is recognised by that id. -/
theorem alreadyRecorded_iff_id (h : HasId event i) (timeline : List CompletionEvent) :
    alreadyRecorded timeline event = true ↔ i ∈ recordedIds timeline := by
  have ht : truthy event.id = true := by simp [truthy, h.id, h.notEmpty]
  constructor
  · intro hrec
    rw [alreadyRecorded, h.beat, if_neg Bool.false_ne_true, if_pos ht, List.any_eq_true] at hrec
    obtain ⟨x, hx, hid⟩ := hrec
    apply List.mem_filterMap.mpr
    refine ⟨x, hx, ?_⟩
    rw [beq_iff_eq.mp hid, h.id]
    simp [Option.filter, h.notEmpty]
  · intro hmem
    by_contra hrec
    exact fresh_of_not_recorded h.beat (Bool.eq_false_of_not_eq_true hrec) h.id ht hmem

/-- After the delivery of an event its id is there once, and other ids are as before. -/
theorem count_appendNew (h : HasId event i) {timeline : List CompletionEvent}
    (hids : (recordedIds timeline).Nodup) (j : String) :
    (recordedIds (appendNew timeline event)).count j =
      if j = i then 1 else (recordedIds timeline).count j := by
  unfold appendNew
  split
  · next hrec =>
    have hmem := (alreadyRecorded_iff_id h timeline).mp hrec
    split
    · next hj => rw [hj, List.count_eq_one_of_mem hids hmem]
    · rfl
  · next hrec =>
    have hmem : i ∉ recordedIds timeline :=
      fun hm ↦ hrec ((alreadyRecorded_iff_id h timeline).mpr hm)
    rw [recordedIds_append h, List.count_append]
    split
    · next hj => rw [hj, List.count_eq_zero_of_not_mem hmem, List.count_singleton_self]
    · next hj => simp [Ne.symm hj]

/-- The delivery of an event keeps the ids apart. -/
theorem nodup_appendNew (h : HasId event i) {timeline : List CompletionEvent}
    (hids : (recordedIds timeline).Nodup) : (recordedIds (appendNew timeline event)).Nodup := by
  rw [List.nodup_iff_count_le_one]
  intro j
  rw [count_appendNew h hids]
  split
  · exact Nat.le_refl 1
  · exact List.nodup_iff_count_le_one.mp hids j

private theorem recordedOnce_iff (h : RowHas t key tenant timeline) :
    RecordedOnce t key i ↔ (recordedIds timeline).count i = 1 := by
  obtain ⟨r, hrow, -, rfl⟩ := h
  constructor
  · rintro ⟨x, hx, hcount⟩
    rw [hrow] at hx
    rwa [Option.some.inj hx]
  · intro hcount
    exact ⟨r, hrow, hcount⟩

private theorem both_recorded_of_left (hd : d.For key r.tenantId) (he : e.For key r.tenantId)
    (hrow : t.row? key = some r) (hi : HasId d.event i) (hj : HasId e.event j) (hij : i ≠ j)
    (hids : (recordedIds r.item.timeline).Nodup) {rest : List Bool}
    (hfin : (Pool.run storeHandler (together d e t) (true :: rest)).Finished) :
    (RecordedOnce (Pool.run storeHandler (together d e t) (true :: rest)).shared key i ∧
        RecordedOnce (Pool.run storeHandler (together d e t) (true :: rest)).shared key j) ↔
      (¬ BothReadFirst (true :: rest) ∨ alreadyRecorded r.item.timeline d.event = true ∨
        alreadyRecorded r.item.timeline e.event = true) := by
  have hserial : ∀ {u : WorkItemTable}, RowHas u key r.tenantId
      (appendNew (appendNew r.item.timeline d.event) e.event) →
        RecordedOnce u key i ∧ RecordedOnce u key j := by
    intro u hu
    have hmid := nodup_appendNew hi hids
    rw [recordedOnce_iff hu, recordedOnce_iff hu, count_appendNew hj hmid, count_appendNew hj hmid,
      if_neg hij, if_pos rfl, count_appendNew hi hids, if_pos rfl]
    exact ⟨rfl, rfl⟩
  cases rest with
  | nil =>
    -- The right transaction has not even begun.
    have hright := hfin false
    obtain ⟨next, hnext, -⟩ := upsertFromEvent_reads e.scope e.event e.now
    rw [Pool.run_cons, together, step_read hd hrow] at hright
    simp [Pool.next?, Delivery.program, hnext, Prog.next?] at hright
  | cons side rest =>
    cases side with
    | true =>
      have hseq := hserial (left_then_right hd he hrow hfin)
      have hturn : ¬ BothReadFirst (true :: true :: rest) := by
        rintro ⟨side, more, h⟩
        cases side <;> simp at h
      exact ⟨fun _ ↦ Or.inl hturn, fun _ ↦ hseq⟩
    | false =>
      have hturn : BothReadFirst (true :: false :: rest) := ⟨true, rest, rfl⟩
      obtain ⟨timeline, hrowHas, htl⟩ := left_and_right hd he hrow hfin
      split at htl
      · next hrec =>
        have hseq := hserial (htl ▸ hrowHas)
        exact ⟨fun _ ↦ Or.inr hrec, fun _ ↦ hseq⟩
      · next hrec =>
        have hnew := not_or.mp hrec
        have hi0 : (recordedIds r.item.timeline).count i = 0 := by
          apply List.count_eq_zero_of_not_mem
          exact fun hm ↦ hnew.1 ((alreadyRecorded_iff_id hi _).mpr hm)
        have hj0 : (recordedIds r.item.timeline).count j = 0 := by
          apply List.count_eq_zero_of_not_mem
          exact fun hm ↦ hnew.2 ((alreadyRecorded_iff_id hj _).mpr hm)
        rw [recordedOnce_iff hrowHas, recordedOnce_iff hrowHas]
        constructor
        · rintro ⟨hci, hcj⟩
          rcases htl with rfl | rfl
          · rw [recordedIds_append hi, List.count_append, hj0] at hcj
            simp [hij] at hcj
          · rw [recordedIds_append hj, List.count_append, hi0] at hci
            simp [Ne.symm hij] at hci
        · rintro (h | h)
          · exact absurd hturn h
          · exact absurd h hrec

/-- Of two deliveries with different ids on one existing row, both ids end up in the timeline
exactly once if and only if one transaction has written before the other one reads, or one
of the two events is already recorded. -/
theorem both_recorded_iff (d e : Delivery) (t : WorkItemTable) (key : String) (r : WorkItemRow)
    (i j : String) (schedule : List Bool) (hrow : t.row? key = some r)
    (hd : d.For key r.tenantId) (he : e.For key r.tenantId) (hi : HasId d.event i)
    (hj : HasId e.event j) (hij : i ≠ j) (hids : (recordedIds r.item.timeline).Nodup)
    (hfin : (Pool.run storeHandler (together d e t) schedule).Finished) :
    (RecordedOnce (Pool.run storeHandler (together d e t) schedule).shared key i ∧
        RecordedOnce (Pool.run storeHandler (together d e t) schedule).shared key j) ↔
      (¬ BothReadFirst schedule ∨ alreadyRecorded r.item.timeline d.event = true ∨
        alreadyRecorded r.item.timeline e.event = true) := by
  cases schedule with
  | nil =>
    have hleft := hfin true
    obtain ⟨next, hnext, -⟩ := upsertFromEvent_reads d.scope d.event d.now
    simp [together, Pool.next?, Delivery.program, hnext, Prog.next?] at hleft
  | cons side rest =>
    cases side with
    | true => exact both_recorded_of_left hd he hrow hi hj hij hids hfin
    | false =>
      -- The same run with the two sides exchanged.
      have hswap := Pool.run_swap storeHandler (together e d t) (false :: rest)
      rw [List.map_cons, Bool.not_false] at hswap
      have hrun : Pool.run storeHandler (together d e t) (false :: rest) =
          (Pool.run storeHandler (together e d t) (true :: rest.map not)).swap := hswap
      have hfin' : (Pool.run storeHandler (together e d t) (true :: rest.map not)).Finished := by
        intro side
        have := hfin (!side)
        rwa [hrun, Pool.next_swap, Bool.not_not] at this
      have hmain := both_recorded_of_left he hd hrow hj hi (Ne.symm hij) hids hfin'
      have hturn := bothReadFirst_not (false :: rest)
      rw [List.map_cons, Bool.not_false] at hturn
      rw [hrun, and_comm, or_comm (a := alreadyRecorded r.item.timeline d.event = true), ← hturn]
      exact hmain

/-- A later transition of a task. -/
def codedDelivery : Delivery :=
  ⟨none, { idlessEvent with id := some "e-1", status := "coding_complete" }, 1⟩

/-- The transition after that. -/
def reviewedDelivery : Delivery :=
  ⟨none, { idlessEvent with id := some "e-2", status := "human_review" }, 2⟩

/-- The row that both deliveries find. -/
def startedRow : WorkItemRow := ⟨DEFAULT_TENANT, ingest (newItem "42" 0) idlessEvent 0⟩

private theorem started_row :
    (serve .empty [⟨none, 0, .event idlessEvent⟩]).row? "42" = some startedRow := by rfl

/-- One transaction after the other records both events. -/
theorem both_recorded_in_turn :
    RecordedOnce (Pool.run storeHandler (together codedDelivery reviewedDelivery
        (serve .empty [⟨none, 0, .event idlessEvent⟩])) [true, true, false, false]).shared
        "42" "e-1" ∧
      RecordedOnce (Pool.run storeHandler (together codedDelivery reviewedDelivery
        (serve .empty [⟨none, 0, .event idlessEvent⟩])) [true, true, false, false]).shared
        "42" "e-2" := by
  apply (both_recorded_iff codedDelivery reviewedDelivery _ "42" startedRow "e-1" "e-2"
    [true, true, false, false] started_row ⟨rfl, rfl, by decide⟩ ⟨rfl, rfl, by decide⟩
    ⟨rfl, by decide, by decide⟩ ⟨rfl, by decide, by decide⟩ (by decide) (by decide) ?_).mpr
  · left
    rintro ⟨side, rest, h⟩
    cases side <;> simp at h
  · intro side
    cases side <;> rfl

/-- With both reads first, the second write drops the event of the first one. -/
theorem first_write_lost :
    (Pool.run storeHandler (together codedDelivery reviewedDelivery
        (serve .empty [⟨none, 0, .event idlessEvent⟩])) [true, false, true, false]).Finished ∧
      ¬ RecordedOnce (Pool.run storeHandler (together codedDelivery reviewedDelivery
        (serve .empty [⟨none, 0, .event idlessEvent⟩])) [true, false, true, false]).shared
        "42" "e-1" := by
  constructor
  · intro side
    cases side <;> rfl
  · rintro ⟨row, hrow, hcount⟩
    have hafter : (Pool.run storeHandler (together codedDelivery reviewedDelivery
        (serve .empty [⟨none, 0, .event idlessEvent⟩])) [true, false, true, false]).shared.row?
          "42" = some { startedRow with
            item := (eventChanges startedRow.item reviewedDelivery.event 2).apply
              (ingest startedRow.item codedDelivery.event 1) } := by rfl
    obtain rfl := Option.some.inj (hafter.symm.trans hrow)
    revert hcount
    decide

end CFactory.Store
