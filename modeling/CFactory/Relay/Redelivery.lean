import CFactory.Intake.Semantics
import CFactory.Relay.Message
import CFactory.Store.Timeline

/-!
# Relayed messages

`upstream_ws.py:113–142`. A message is parsed, stored, written back onto its card and broadcast,
the last two unless the store recognises its event. The store knows an event by its id or its
worker, and the parser carries out neither, so every delivery counts as the first.
-/

namespace CFactory.Relay

open CFactory.Base CFactory.Model CFactory.Store CFactory.Intake

/-- What the relay works on: the work items, the cards, and the items it has broadcast. -/
structure RelayState where
  items : WorkItemTable
  cards : TableState
  broadcasts : List WorkItem

/-- The clock readings of one delivery, in the parser and in the store, and what is configured
when its write-back runs. -/
structure Moment where
  parsedAt : Time := 0
  storedAt : Time := 0
  env : IntakeEnv := {}

/-- What handling a message raises. -/
inductive RelayError where
  | validation (e : ValidationError)
  | store (e : StoreError)

/-- A message as it comes from a service. -/
structure Message (Raw : Type) where
  service : Service
  raw : Raw

variable {Raw : Type} (parser : Parser Raw) (w : World)

/-- `handle_message` once the message is parsed; `upstream_ws.py:120–142`. Every subscriber is
handed the store without a tenant scope, and a dispatch is recorded. -/
def handleEvent (event : CompletionEvent) (moment : Moment) (s : RelayState) :
    Except RelayError (Option CompletionEvent) × RelayState :=
  match deliver s.items none event moment.storedAt with
  | (.error e, items) => (.error (.store e), { s with items })
  | (.ok (item, applied), items) =>
    if applied then
      let env := { moment.env with onDispatch := true }
      let cards := (Prog.run (tableHandler w none) (applyStatus env item) s.cards).2
      (.ok (some event), ⟨items, cards, s.broadcasts ++ [item]⟩)
    else (.ok (some event), { s with items })

/-- `handle_message`; `upstream_ws.py:113–142`. -/
def handleMessage (m : Message Raw) (moment : Moment) (s : RelayState) :
    Except RelayError (Option CompletionEvent) × RelayState :=
  match parseUpstreamMessage parser m.service m.raw moment.parsedAt with
  | .error e => (.error (.validation e), s)
  | .ok none => (.ok none, s)
  | .ok (some event) => handleEvent w event moment s

/-- The state after a run of deliveries. -/
def relay (deliveries : List (Message Raw × Moment)) (s : RelayState) : RelayState :=
  deliveries.foldl (fun s d ↦ (handleMessage parser w d.1 d.2 s).2) s

/-- A delivery leaves no trace: every timeline and every card is as it was, and nothing is
broadcast. -/
def Silent (before after : RelayState) : Prop :=
  (∀ key, timelineAt after.items key = timelineAt before.items key) ∧
    after.cards.cards = before.cards.cards ∧ after.broadcasts = before.broadcasts

/-- A delivery is recorded as a new event and broadcast. -/
def Recorded (event : CompletionEvent) (before after : RelayState) : Prop :=
  timelineAt after.items event.correlationKey =
      timelineAt before.items event.correlationKey ++ [event] ∧
    ∃ item, after.broadcasts = before.broadcasts ++ [item]

/-- What is recorded leaves a trace. -/
theorem not_silent_of_recorded {event : CompletionEvent} {before after : RelayState}
    (h : Recorded event before after) : ¬ Silent before after := by
  intro hsilent
  have hlength := congrArg List.length (h.1.symm.trans (hsilent.1 event.correlationKey))
  rw [List.length_append, List.length_singleton] at hlength
  omega

/-- An event without id and worker is applied by every store without a tenant scope. -/
theorem deliver_anonymous {event : CompletionEvent} (hid : event.id = none)
    (hworker : event.worker = none) (t : WorkItemTable) (now : Time) :
    ∃ item, (deliver t none event now).1 = .ok (item, true) ∧
      timelineAt (deliver t none event now).2 event.correlationKey =
        timelineAt t event.correlationKey ++ [event] := by
  have hbeat : isWorkerProgressEvent event = false := by simp [isWorkerProgressEvent, hworker]
  have hunknown : recognisable event = false := by
    simp [recognisable, isWorkerEvent, hid, hworker]
  have happlied : ∃ item, (deliver t none event now).1 = .ok (item, true) := by
    rw [result_deliver]
    cases t.row? event.correlationKey with
    | none => exact ⟨_, rfl⟩
    | some r =>
      have hnew : reviseByEvent event now r.item = some (eventChanges r.item event now) := by
        rw [reviseByEvent, not_alreadyRecorded hunknown, if_neg Bool.false_ne_true]
      have hscope : inScope none r = true := rfl
      rw [upsertResult, if_pos hscope, hnew]
      exact ⟨_, rfl⟩
  obtain ⟨item, hitem⟩ := happlied
  refine ⟨item, hitem, ?_⟩
  let call : StoreCall := ⟨none, now, .event event⟩
  have hrow := row_table t call event.correlationKey
  have haccepted : call.accepted event.correlationKey t = [event] := by
    simp only [StoreCall.accepted, call, hbeat, and_self, ↓reduceIte, hitem]
  cases hafter : (call.table t).row? event.correlationKey with
  | none =>
    rw [hafter] at hrow
    simp [StoreCall.onRow, call] at hrow
  | some r =>
    have htimeline := timeline_table t call event.correlationKey hafter
    rw [haccepted] at htimeline
    show timelineAt (call.table t) event.correlationKey = _
    rw [← htimeline, timelineAt, hafter]
    rfl

/-- Every message that the parser accepts is recorded and broadcast, whatever came before. -/
theorem handleMessage_recorded {m : Message Raw} (h : parser.Accepts m.service m.raw)
    (moment : Moment) (s : RelayState) :
    ∃ event, (handleMessage parser w m moment s).1 = .ok (some event) ∧
      Recorded event s (handleMessage parser w m moment s).2 := by
  obtain ⟨event, hparse⟩ := h.parse moment.parsedAt
  obtain ⟨hid, hworker⟩ := anonymous_of_parse hparse
  obtain ⟨item, hresult, htimeline⟩ := deliver_anonymous hid hworker s.items moment.storedAt
  refine ⟨event, ?_⟩
  unfold handleMessage
  rw [hparse]
  dsimp only
  unfold handleEvent
  rw [← Prod.eta (deliver s.items none event moment.storedAt), hresult]
  exact ⟨rfl, htimeline, item, rfl⟩

/-- A message delivered for a second time is recorded and broadcast for a second time, on any
state of the stores and whatever is relayed in between; it never passes unnoticed. -/
theorem redelivery_recorded {m : Message Raw} (h : parser.Accepts m.service m.raw)
    (s : RelayState) (first second : Moment) (between : List (Message Raw × Moment)) :
    let before := relay parser w ((m, first) :: between) s
    let after := (handleMessage parser w m second before).2
    ¬ Silent before after ∧
      ∃ event, (handleMessage parser w m second before).1 = .ok (some event) ∧
        Recorded event before after := by
  intro before after
  obtain ⟨event, hresult, hrecorded⟩ := handleMessage_recorded parser w h second before
  exact ⟨not_silent_of_recorded hrecorded, event, hresult, hrecorded⟩

/-! ### A message of the code service -/

/-- A build's status message, with its correlation key, task, status and time. -/
def codingMessage : Message String :=
  { service := .aifactory
    raw := "\x7b\"correlation_key\": \"55\", \"task_id\": \"t1\", \"status\": \"coding\", " ++
      "\"updated_at\": \"2026-06-04T12:00:00+00:00\"\x7d" }

/-- The standard library on that message. -/
def codingParser : Parser String :=
  { loads := fun raw ↦
      if raw = codingMessage.raw then
        some (.object [("correlation_key", .string "55"), ("task_id", .string "t1"),
          ("status", .string "coding"), ("updated_at", .string "2026-06-04T12:00:00+00:00")])
      else none
    fromIsoFormat := fun text ↦
      if text = "2026-06-04T12:00:00+00:00" then some ⟨1780574400000000, some 0⟩ else none
    isprintable := fun _ ↦ true }

/-- The parser accepts the message. -/
theorem codingMessage_accepted : codingParser.Accepts codingMessage.service codingMessage.raw :=
  ⟨0, _, rfl⟩

/-- No upstream answers and no clock moves. -/
def stillWorld : World := { reply := fun _ ↦ .httpError "1", clock := fun _ ↦ 0 }

/-- No work items, no cards and nothing broadcast. -/
def idle : RelayState := ⟨.empty, ⟨[], 0⟩, []⟩

/-- The instance of the message, delivered twice in a row. -/
theorem redelivery_recorded_codingMessage :
    let before := relay codingParser stillWorld [(codingMessage, ⟨0, 0, {}⟩)] idle
    let after := (handleMessage codingParser stillWorld codingMessage ⟨1, 1, {}⟩ before).2
    ¬ Silent before after ∧
      ∃ event, (handleMessage codingParser stillWorld codingMessage ⟨1, 1, {}⟩ before).1 =
          .ok (some event) ∧ Recorded event before after :=
  redelivery_recorded codingParser stillWorld codingMessage_accepted idle ⟨0, 0, {}⟩ ⟨1, 1, {}⟩ []

/-- The message is recorded twice and broadcast twice, so its second delivery is not silent. -/
theorem codingMessage_not_silent :
    ¬ Silent (relay codingParser stillWorld [(codingMessage, ⟨0, 0, {}⟩)] idle)
      (handleMessage codingParser stillWorld codingMessage ⟨1, 1, {}⟩
        (relay codingParser stillWorld [(codingMessage, ⟨0, 0, {}⟩)] idle)).2 := by
  obtain ⟨event, -, hrecorded⟩ := handleMessage_recorded codingParser stillWorld
    codingMessage_accepted ⟨1, 1, {}⟩
    (relay codingParser stillWorld [(codingMessage, ⟨0, 0, {}⟩)] idle)
  exact not_silent_of_recorded hrecorded

end CFactory.Relay
