import CFactory.Store.LastKnownGood

/-!
# Annotation blocks

`store.py:328–364,541–601`. Blocks that an event carries are stored in the `extra` map of its
slice, and an absent block is documented to leave the slice untouched. A heartbeat and a
worker sub-event build on the previous slice; an ordinary event and a poll write a slice of
their own, whose `extra` map starts empty.
-/

namespace CFactory.Store

open CFactory.Base CFactory.Model CFactory.Status

/-! ### One event or poll -/

/-- What an event leaves in the `extra` map. -/
theorem extra_applyEvent (prev : ServiceState) (event : CompletionEvent) (f : AnnotationField)
    (hf : carried event.annotations f = none) :
    (applyEvent prev event).extra f = if isScalar event then none else prev.extra f := by
  cases hscalar : isScalar event with
  | true =>
    rw [applyEvent_of_scalar hscalar, attachAccessVerification]
    simp [applyTerminalOrScalar, hf, ServiceState.blank]
  | false =>
    obtain ⟨⟨w, hw⟩, hkind⟩ := worker_of_not_scalar hscalar
    rcases hkind with hbeat | hworker
    · rw [applyEvent_of_progress hw hbeat]
      simp [applyWorkerProgress]
    · rw [applyEvent_of_worker hw hworker, attachAccessVerification]
      simp [applyWorker, hf]

/-- A poll leaves its own `extra` map. -/
theorem extra_snapshot (snap : Snapshot) (item : WorkItem) :
    (snap.slice item).extra = snap.state.extra := rfl

/-! ### One call -/

section
variable (key : String) (service : Service) (f : AnnotationField) (b : Block)

/-- The call does not carry the field to the slice, and does not clear the slice or delete
the row either: it is an event or a poll without the field, or housekeeping that leaves this
slice as it is. -/
def CarriesNoBlock (t : WorkItemTable) (call : StoreCall) : Prop :=
  match call.writer with
  | .event event => event.correlationKey = key → event.service = service →
      carried event.annotations f = none
  | .snapshot snap => snap.correlationKey = key → snap.service = service →
      snap.state.extra f = none
  | _ => ∀ r, t.row? key = some r → ∃ r', (call.table t).row? key = some r' ∧
      r'.item.slice service = r.item.slice service

/-- The call writes the slice without building on it: an ordinary event that is new, or a
poll that is not skipped, in the scope of the row. -/
def RebuildsSlice (t : WorkItemTable) (call : StoreCall) : Prop :=
  ∃ r, t.row? key = some r ∧ inScope call.scope r = true ∧
    match call.writer with
    | .event event => event.correlationKey = key ∧ event.service = service ∧
        isScalar event = true ∧ alreadyRecorded r.item.timeline event = false
    | .snapshot snap => snap.correlationKey = key ∧ snap.service = service ∧
        skips snap r.item = false
    | _ => False

/-- The row under the key holds the block. -/
def BlockKept (t : WorkItemTable) : Prop :=
  ∃ r, t.row? key = some r ∧ (r.item.slice service).extra f = some b

end

variable {key : String} {service : Service} {f : AnnotationField} {b : Block}

private theorem kept_iff_of_row {u : WorkItemTable} {r : WorkItemRow} {P : Prop}
    (hrow : u.row? key = some r) (hextra : (r.item.slice service).extra f = some b ↔ ¬ P) :
    BlockKept key service f b u ↔ ¬ P := by
  rw [← hextra]
  constructor
  · rintro ⟨x, hx, hbx⟩
    rw [hrow] at hx
    rw [Option.some.inj hx]
    exact hbx
  · intro h
    exact ⟨r, hrow, h⟩

private theorem rebuilds_iff {t : WorkItemTable} {r : WorkItemRow} (hrow : t.row? key = some r)
    (call : StoreCall) :
    RebuildsSlice key service t call ↔ inScope call.scope r = true ∧
      match call.writer with
      | .event event => event.correlationKey = key ∧ event.service = service ∧
          isScalar event = true ∧ alreadyRecorded r.item.timeline event = false
      | .snapshot snap => snap.correlationKey = key ∧ snap.service = service ∧
          skips snap r.item = false
      | _ => False := by
  constructor
  · rintro ⟨x, hx, hrest⟩
    obtain rfl := Option.some.inj (hrow.symm.trans hx)
    exact hrest
  · intro h
    exact ⟨r, hrow, h⟩

/-- A call without the field keeps the block exactly when it does not rebuild the slice. -/
theorem blockKept_table {t : WorkItemTable} {call : StoreCall}
    (hcall : CarriesNoBlock key service f t call) (hkept : BlockKept key service f b t) :
    BlockKept key service f b (call.table t) ↔ ¬ RebuildsSlice key service t call := by
  obtain ⟨r, hrow, hb⟩ := hkept
  rw [rebuilds_iff hrow]
  cases hw : call.writer with
  | event event =>
    simp only [CarriesNoBlock, hw] at hcall
    by_cases hit : event.correlationKey = key ∧ inScope call.scope r = true
    · obtain ⟨rfl, hs⟩ := hit
      apply kept_iff_of_row (row_event hw hrow hs)
      cases hrec : alreadyRecorded r.item.timeline event with
      | true =>
        have hnone : reviseByEvent event call.now r.item = none := if_pos hrec
        simp [hnone, hb, hrec]
      | false =>
        have hsome : reviseByEvent event call.now r.item =
            some (eventChanges r.item event call.now) := by
          rw [reviseByEvent, hrec]
          rfl
        rw [hsome]
        simp only [Option.elim_some, eventChanges, RowChanges.apply]
        by_cases hsvc : event.service = service
        · subst hsvc
          rw [Function.update_self, extra_applyEvent _ _ _ (hcall rfl rfl)]
          cases isScalar event <;> simp [hb, hs, hrec]
        · rw [Function.update_of_ne (Ne.symm hsvc)]
          simp [hb, hsvc]
    · have hstay : (call.table t).row? key = some r := by
        apply row_upsert_other hrow
        rw [hw]
        intro hk
        by_contra hs
        exact hit ⟨hk.symm, Bool.of_not_eq_false hs⟩
      apply kept_iff_of_row hstay
      have hmiss : ¬ (inScope call.scope r = true ∧ event.correlationKey = key) :=
        fun h ↦ hit h.symm
      simp only [hb, ← and_assoc, hmiss, false_and, not_false_eq_true]
  | snapshot snap =>
    simp only [CarriesNoBlock, hw] at hcall
    by_cases hit : snap.correlationKey = key ∧ inScope call.scope r = true
    · obtain ⟨rfl, hs⟩ := hit
      apply kept_iff_of_row (row_snapshot hw hrow hs)
      cases hskip : skips snap r.item with
      | true =>
        have hnone : reviseBySnapshot snap call.now r.item = none := if_pos hskip
        simp [hnone, hb, hskip]
      | false =>
        have hsome : reviseBySnapshot snap call.now r.item =
            some (snapshotChanges snap r.item call.now) := by
          rw [reviseBySnapshot, hskip]
          rfl
        rw [hsome]
        simp only [Option.elim_some, snapshotChanges, RowChanges.apply]
        by_cases hsvc : snap.service = service
        · subst hsvc
          rw [Function.update_self, extra_snapshot, hcall rfl rfl]
          simp [hs, hskip]
        · rw [Function.update_of_ne (Ne.symm hsvc)]
          simp [hb, hsvc]
    · have hstay : (call.table t).row? key = some r := by
        apply row_upsert_other hrow
        rw [hw]
        intro hk
        by_contra hs
        exact hit ⟨hk.symm, Bool.of_not_eq_false hs⟩
      apply kept_iff_of_row hstay
      have hmiss : ¬ (inScope call.scope r = true ∧ snap.correlationKey = key) :=
        fun h ↦ hit h.symm
      simp only [hb, ← and_assoc, hmiss, false_and, not_false_eq_true]
  | reconcile _ _ | pruneDead _ | pruneDuplicates _ _ =>
    simp only [CarriesNoBlock, hw] at hcall
    obtain ⟨r', hrow', hslice⟩ := hcall r hrow
    apply kept_iff_of_row hrow'
    simp [hslice, hb]

/-! ### Runs -/

/-- Along a run that does not carry the field, the block is kept throughout exactly when no
step rebuilds the slice. -/
theorem annotation_kept_iff (t : WorkItemTable) (key : String) (service : Service)
    (f : AnnotationField) (b : Block) (calls : List StoreCall)
    (hkept : BlockKept key service f b t)
    (hcalls : EachStep StoreCall.table (CarriesNoBlock key service f) t calls) :
    Throughout StoreCall.table (BlockKept key service f b) t calls ↔
      EachStep StoreCall.table (fun u call ↦ ¬ RebuildsSlice key service u call) t calls :=
  throughout_iff_eachStep (fun _ _ ↦ blockKept_table) hcalls hkept

/-- An event that carries a verification block. -/
def verifiedEvent : CompletionEvent :=
  { id := some "e-1", correlationKey := "42", service := .tfactory, taskId := "tf-1"
    status := "testing"
    annotations := Function.update (fun _ ↦ none) .verification (some [("verdict", "pass")]) }

/-- A heartbeat of the same task. -/
def heartbeatEvent : CompletionEvent :=
  { correlationKey := "42", service := .tfactory, taskId := "tf-1", status := "running"
    phase := some "worker_progress", worker := some { workerId := "w1" } }

/-- A later transition without the block. -/
def passedEvent : CompletionEvent :=
  { id := some "e-2", correlationKey := "42", service := .tfactory, taskId := "tf-1"
    status := "passed" }

private theorem verified_row :
    BlockKept "42" .tfactory .verification [("verdict", "pass")]
      (serve .empty [⟨none, 0, .event verifiedEvent⟩]) :=
  ⟨⟨DEFAULT_TENANT, ingest (newItem "42" 0) verifiedEvent 0⟩, by rfl, by rfl⟩

/-- A heartbeat keeps the block. -/
theorem heartbeat_keeps_block :
    Throughout StoreCall.table (BlockKept "42" .tfactory .verification [("verdict", "pass")])
      (serve .empty [⟨none, 0, .event verifiedEvent⟩]) [⟨none, 1, .event heartbeatEvent⟩] := by
  apply (annotation_kept_iff _ "42" .tfactory .verification _ _ verified_row ?_).mpr
  · refine ⟨?_, True.intro⟩
    rintro ⟨r, -, -, -, -, hscalar, -⟩
    exact absurd hscalar (by decide)
  · exact ⟨fun _ _ ↦ rfl, True.intro⟩

/-- The next transition of the task drops the block. -/
theorem transition_drops_block :
    ¬ Throughout StoreCall.table (BlockKept "42" .tfactory .verification [("verdict", "pass")])
      (serve .empty [⟨none, 0, .event verifiedEvent⟩]) [⟨none, 1, .event passedEvent⟩] := by
  intro h
  obtain ⟨row, hrow, hblock⟩ := h.2.start
  have hafter : (StoreCall.table (serve .empty [⟨none, 0, .event verifiedEvent⟩])
      ⟨none, 1, .event passedEvent⟩).row? "42" = some ⟨DEFAULT_TENANT,
        ingest (ingest (newItem "42" 0) verifiedEvent 0) passedEvent 1⟩ := by rfl
  obtain rfl := Option.some.inj (hafter.symm.trans hrow)
  revert hblock
  decide

end CFactory.Store
