import CFactory.Base.Fanout
import CFactory.Progress.Poll
import CFactory.Store.Timeline

/-!
# The live feed

`ws.py:11–41`, `routes_ws.py:19–43`, `routes_events.py:34–110`, `upstream_ws.py:113–142`,
`progress.py:192–216`, `store.py:708–711` and `useDashboard.ts:149–244`. A cockpit is listed, is
sent the board as it was when it asked, and is sent what every event and every poll tells from
then on; what it shows is the fold of these frames. The store is read without a tenant scope. A
transaction of the store is one step, and so is one send of a broadcast.
-/

namespace CFactory.Relay

open CFactory.Base CFactory.Base.Fanout CFactory.Model CFactory.Store CFactory.Progress

/-- A frame of the feed; `api.ts:994–1001`. -/
inductive FeedMessage where
  | workitem (item : WorkItem)
  | snapshot (items : List WorkItem)
  | progress (item : LiveProgress)

/-- `list`, newest first; `store.py:708–711`. -/
def listItems (t : WorkItemTable) : List WorkItem :=
  (t.rows.map WorkItemRow.item).mergeSort fun a b ↦ decide (b.updatedAt ≤ a.updatedAt)

/-- What the cockpit keeps of the feed; `useDashboard.ts:54–61`. -/
structure Dashboard where
  items : List WorkItem
  progress : Dict String LiveProgress

/-- What the cockpit makes of a frame; `useDashboard.ts:195–210`. -/
def Dashboard.receive (d : Dashboard) : FeedMessage → Dashboard
  | .snapshot items => { d with items := items }
  | .progress p => { d with progress := d.progress.set p.correlationKey p }
  | .workitem item =>
    { d with items := item :: d.items.filter (·.correlationKey ≠ item.correlationKey) }

/-- The item of a list under a key. -/
def itemUnder (items : List WorkItem) (key : String) : Option WorkItem :=
  items.find? (·.correlationKey == key)

/-- The item of the board under a key. -/
def boardItem (t : WorkItemTable) (key : String) : Option WorkItem :=
  (t.row? key).map WorkItemRow.item

/-- Whether a frame has a word on the key. -/
def FeedMessage.mentions : FeedMessage → String → Bool
  | .workitem item, key => item.correlationKey == key
  | .snapshot _, _ => true
  | .progress _, _ => false

/-- The item that a frame has under the key. -/
def FeedMessage.itemUnder : FeedMessage → String → Option WorkItem
  | .workitem item, key => if item.correlationKey = key then some item else none
  | .snapshot items, key => Relay.itemUnder items key
  | .progress _, _ => none

theorem itemUnder_cons_filter (item : WorkItem) (items : List WorkItem) (key : String) :
    itemUnder (item :: items.filter (·.correlationKey ≠ item.correlationKey)) key =
      if item.correlationKey = key then some item else itemUnder items key := by
  by_cases hk : item.correlationKey = key
  · simp [itemUnder, hk]
  · rw [if_neg hk, itemUnder, List.find?_cons, beq_eq_false_iff_ne.mpr hk, List.find?_filter]
    refine congrArg (fun p ↦ items.find? p) (funext fun x ↦ ?_)
    by_cases hx : x.correlationKey = key
    · simp [hx, Ne.symm hk]
    · simp [hx]

/-- The board in any order has the rows' items under their keys. -/
theorem itemUnder_listItems (t : WorkItemTable) (key : String) :
    itemUnder (listItems t) key = boardItem t key := by
  have hmem : ∀ x, x ∈ listItems t ↔ ∃ r ∈ t.rows, r.item = x := by
    intro x
    rw [listItems, List.mem_mergeSort, List.mem_map]
  cases hrow : t.row? key with
  | none =>
    rw [boardItem, hrow, Option.map_none, itemUnder, List.find?_eq_none]
    intro x hx
    obtain ⟨r, hr, rfl⟩ := (hmem x).mp hx
    have := List.find?_eq_none.mp hrow r hr
    simpa using this
  | some r =>
    rw [boardItem, hrow, Option.map_some]
    have hkey : r.key = key := WorkItemTable.key_of_row hrow
    cases hfind : itemUnder (listItems t) key with
    | none =>
      have := List.find?_eq_none.mp hfind r.item
        ((hmem r.item).mpr ⟨r, List.mem_of_find?_eq_some hrow, rfl⟩)
      simp [hkey] at this
    | some x =>
      obtain ⟨q, hq, rfl⟩ := (hmem x).mp (List.mem_of_find?_eq_some hfind)
      have hqkey : q.key = key := by simpa using List.find?_some hfind
      have hqrow := WorkItemTable.row_of_mem hq
      rw [hqkey, hrow] at hqrow
      rw [Option.some.inj hqrow]

/-- The board, its frames and the cockpit that shows them. -/
def feed : Channel WorkItemTable String (Option WorkItem) FeedMessage Dashboard where
  look := boardItem
  mentions := FeedMessage.mentions
  gives := FeedMessage.itemUnder
  whole := fun t ↦ .snapshot (listItems t)
  shows := fun d ↦ itemUnder d.items
  apply := Dashboard.receive
  mentions_whole := fun _ _ ↦ rfl
  gives_whole := itemUnder_listItems
  shows_apply := fun d m key ↦ by
    cases m with
    | workitem item =>
      have h := itemUnder_cons_filter item d.items key
      by_cases hk : item.correlationKey = key
      · simpa [Dashboard.receive, FeedMessage.mentions, FeedMessage.itemUnder, hk] using h
      · simpa [Dashboard.receive, FeedMessage.mentions, FeedMessage.itemUnder, hk] using h
    | snapshot items => rfl
    | progress p => rfl

/-! ## Events, polls and sockets -/

/-- The frame of an event that the store applied. -/
def frameOf : Except StoreError (WorkItem × Bool) → Option FeedMessage
  | .ok (item, true) => some (.workitem item)
  | _ => none

/-- One event: the table, and the frame that is to be broadcast;
`routes_events.py:56–69`, `upstream_ws.py:120–141`. -/
def ingested (event : CompletionEvent) (now : Time) (t : WorkItemTable) :
    WorkItemTable × Option FeedMessage :=
  let (result, after) := deliver t none event now
  (after, frameOf result)

/-- An event leaves the item that its frame shows, and other keys as they were; without a frame
nothing changed. -/
theorem boardItem_ingested (event : CompletionEvent) (now : Time) (t : WorkItemTable) :
    (∃ item, (ingested event now t).2 = some (.workitem item) ∧
      item.correlationKey = event.correlationKey ∧
      ∀ key, boardItem (ingested event now t).1 key =
        if key = event.correlationKey then some item else boardItem t key) ∨
    ((ingested event now t).2 = none ∧
      ∀ key, boardItem (ingested event now t).1 key = boardItem t key) := by
  have hframe : (ingested event now t).2 = frameOf (deliver t none event now).1 := rfl
  have hafter : (ingested event now t).1 = (deliver t none event now).2 := rfl
  have hrows : ∀ key, (deliver t none event now).2.row? key =
      if key = event.correlationKey then
        some (upsertRow none (reviseByEvent event now)
          (ingest (newItem event.correlationKey now) event now) (t.row? key))
      else t.row? key := fun key ↦ row_table t ⟨none, now, .event event⟩ key
  rw [hframe, hafter, result_deliver]
  simp only [boardItem, hrows]
  cases hrow : t.row? event.correlationKey with
  | none =>
    refine .inl ⟨ingest (newItem event.correlationKey now) event now, rfl, rfl, fun key ↦ ?_⟩
    by_cases hk : key = event.correlationKey
    · simp [hk, hrow, upsertRow]
    · simp [hk]
  | some r =>
    have hkey : r.item.correlationKey = event.correlationKey := WorkItemTable.key_of_row hrow
    have hscope : inScope none r = true := rfl
    rw [upsertResult, if_pos hscope]
    cases hrevise : reviseByEvent event now r.item with
    | none =>
      refine .inr ⟨rfl, fun key ↦ ?_⟩
      by_cases hk : key = event.correlationKey
      · simp [hk, hrow, upsertRow, hscope, hrevise]
      · simp [hk]
    | some ch =>
      refine .inl ⟨ch.apply r.item, rfl, hkey, fun key ↦ ?_⟩
      by_cases hk : key = event.correlationKey
      · simp [hk, hrow, upsertRow, hscope, hrevise]
      · simp [hk]

/-- An event as the feed sees it. -/
def ingestEdit (event : CompletionEvent) (now : Time) : Edit feed where
  run := ingested event now
  tells := fun t key hne ↦ by
    rcases boardItem_ingested event now t with ⟨item, hframe, hitem, hboard⟩ | ⟨-, hboard⟩
    · refine ⟨.workitem item, hframe, ?_⟩
      by_cases hk : key = event.correlationKey
      · simp [feed, FeedMessage.mentions, hitem, hk]
      · exact absurd ((hboard key).trans (if_neg hk)) hne
    · exact absurd (hboard key) hne
  holds := fun t m key hframe hmentions ↦ by
    rcases boardItem_ingested event now t with ⟨item, hframe', hitem, hboard⟩ | ⟨hnone, -⟩
    · rw [hframe'] at hframe
      cases hframe
      have hk : item.correlationKey = key := by
        simpa [feed, FeedMessage.mentions] using hmentions
      show FeedMessage.itemUnder (.workitem item) key = boardItem (ingested event now t).1 key
      rw [hboard key, FeedMessage.itemUnder, if_pos hk, if_pos (hk.symm.trans hitem)]
    · rw [hnone] at hframe
      cases hframe

/-- Progress is told and changes nothing. -/
def progressEdit (p : LiveProgress) : Edit feed where
  run := fun t ↦ (t, some (.progress p))
  tells := fun _ _ hne ↦ absurd rfl hne
  holds := fun _ m _ hframe hmentions ↦ by
    cases hframe
    cases hmentions

/-- What an event handler, a poll or a refresh (`handler`) does, and what a cockpit's socket
does. -/
inductive FeedMove (ι τ : Type) where
  | ingest (handler : τ) (event : CompletionEvent) (now : Time)
  | write (call : StoreCall)
  | delete (scope : Option String) (key : String)
  | list (handler : τ)
  | progress (handler : τ) (p : LiveProgress)
  | broadcast (handler : τ)
  | sendJson (handler : τ) (socket : ι) (ok : Bool)
  | dropDead (handler : τ)
  | raise (handler : τ)
  | connect (socket : ι)
  | snapshot (socket : ι)
  | push (socket : ι) (ok : Bool)
  | disconnect (socket : ι)
  | fetch
  | load (socket : ι) (answer : Nat)

variable {ι τ : Type}

/-- The moves of the feed. An event is told by its handler; what a poll, a refresh or a removal
writes is told by whoever lists the board next, and so is what a handler fails to broadcast. -/
def FeedMove.toMove : FeedMove ι τ → Move ι τ feed
  | .ingest handler event now => .edit handler (ingestEdit event now)
  | .write call => .revise call.table
  | .delete scope key => .revise fun t ↦ (deleteItem t scope key).2
  | .list handler => .look handler
  | .progress handler p => .edit handler (progressEdit p)
  | .broadcast handler => .start handler
  | .sendJson handler socket ok => .serve handler socket ok
  | .dropDead handler => .settle handler
  | .raise handler => .drop handler
  | .connect socket => .enlist socket
  | .snapshot socket => .peek socket
  | .push socket ok => .greet socket ok
  | .disconnect socket => .leave socket
  | .fetch => .ask
  | .load socket answer => .arrive socket answer

/-- The feed: the board, the sockets and the handlers. -/
abbrev FeedState (ι τ : Type) := Hub ι τ WorkItemTable String FeedMessage

variable [DecidableEq ι] [DecidableEq τ]

/-- The feed after a run of moves, with nobody connected at first. -/
def feedRun (t : WorkItemTable) (moves : List (FeedMove ι τ)) : FeedState ι τ :=
  moves.foldl (fun st m ↦ st.move feed m.toMove) (Hub.empty t)

theorem sound_feedRun (t : WorkItemTable) (moves : List (FeedMove ι τ)) :
    Sound feed (feedRun t moves : FeedState ι τ) := by
  rw [feedRun, ← List.foldl_map]
  exact sound_run t (moves.map FeedMove.toMove)

/-- The items that the cockpit of a socket shows, whatever it showed before. -/
def shown (st : FeedState ι τ) (socket : ι) (before : Dashboard) : List WorkItem :=
  (screen feed before (st.inbox socket)).items

/-- The board is told: nobody is about to send the socket a frame on the key, and no change of it
waits for the next listing. -/
def BoardTold (st : FeedState ι τ) (socket : ι) (key : String) : Prop := Quiet feed st socket key

/-- In whatever order events, polls, removals, broadcasts and cockpits take their turns, and
whatever sends fail: a cockpit that was sent its snapshot and to which no send failed has, once the
board is told, received the present item under every key, and if its frames came in the order in
which they were read it shows the board. -/
theorem feed_shows_board (t : WorkItemTable) (moves : List (FeedMove ι τ)) (socket : ι)
    (hfed : (feedRun t moves : FeedState ι τ).seat socket = .fed)
    (hok : (feedRun t moves : FeedState ι τ).failed socket = false) (key : String)
    (htold : BoardTold (feedRun t moves : FeedState ι τ) socket key) :
    (∃ frame ∈ (feedRun t moves : FeedState ι τ).inbox socket,
      frame.message.mentions key = true ∧
        frame.message.itemUnder key =
          boardItem (feedRun t moves : FeedState ι τ).shared key) ∧
    (InOrder ((feedRun t moves : FeedState ι τ).inbox socket) → ∀ before,
      itemUnder (shown (feedRun t moves : FeedState ι τ) socket before) key =
        boardItem (feedRun t moves : FeedState ι τ).shared key) := by
  have h := sound_feedRun t moves
  refine ⟨?_, fun horder before ↦ h.shows hfed hok htold horder before⟩
  obtain ⟨frame, hmem, hcur⟩ := h.informed hfed hok htold
  exact ⟨frame, hmem, hcur.1, (h.honest frame (.inbox socket hmem)).2 key hcur⟩

/-- A cockpit that is connected before an event shows its item after the broadcast. -/
theorem feed_shows_board_of_event :
    let st : FeedState Unit Unit := feedRun .empty [.connect (), .snapshot (), .push () true,
      .ingest () idlessEvent 5, .broadcast (), .sendJson () () true, .dropDead ()]
    ∀ before, itemUnder (shown st () before) "42" =
      some (ingest (newItem "42" 5) idlessEvent 5) := by
  intro st before
  have hboard : boardItem st.shared "42" = some (ingest (newItem "42" 5) idlessEvent 5) := rfl
  have horder : (st.inbox ()).map Told.asof = [0, 1] := rfl
  have hshows := (feed_shows_board .empty [.connect (), .snapshot (), .push () true,
    .ingest () idlessEvent 5, .broadcast (), .sendJson () () true, .dropDead ()] () rfl rfl "42"
    ⟨rfl, fun j t h ↦ by cases h⟩).2
  rw [← hboard]
  refine hshows (List.pairwise_map.mp ?_) before
  rw [horder]
  decide

/-- An event that comes between the reading of a snapshot and its sending is undone on the screen:
all is told, and the cockpit shows what the board was before. -/
theorem snapshot_overtaken (t : WorkItemTable) {event : CompletionEvent} {now : Time}
    {item : WorkItem} (hevent : (deliver t none event now).1 = .ok (item, true)) (socket : ι)
    (handler : τ) :
    let st : FeedState ι τ := feedRun t [.connect socket, .snapshot socket,
      .ingest handler event now, .broadcast handler, .sendJson handler socket true,
      .dropDead handler, .push socket true]
    st.seat socket = .fed ∧ st.failed socket = false ∧ (∀ key, BoardTold st socket key) ∧
      ∀ before key, itemUnder (shown st socket before) key = boardItem t key := by
  have hframe : (ingested event now t).2 = some (.workitem item) := by
    have hof : (ingested event now t).2 = frameOf (deliver t none event now).1 := rfl
    rw [hof, hevent]
    rfl
  have hboard : ∀ (d : Dashboard) (key : String),
      itemUnder (feed.apply d (feed.whole t)).items key = boardItem t key :=
    fun _ key ↦ itemUnder_listItems t key
  -- The frame of the event is in the inbox, and the older snapshot after it.
  simp [feedRun, FeedMove.toMove, Hub.move, Hub.empty, Hub.sit, Hub.post, Hub.goto, Hub.change,
    Hub.reading, ingestEdit, hframe, BoardTold, Quiet, Task.owes, shown, screen, hboard]

end CFactory.Relay
