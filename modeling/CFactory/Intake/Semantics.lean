import CFactory.Intake.WriteBack

/-!
# Operations on a card table and on one card

The intake operations act on a table of cards through a store's tenant scope. A program
that only names one live card's key acts on that card alone: `Desk` is that view, and
`tableHandler_refines` shows that the table serves it.
-/

namespace CFactory.Intake

open CFactory.Base CFactory.Model CFactory.Cards CFactory.Actions

/-- What the environment answers: the outcome of a request and the clock reading of an
update, each by the number of operations performed before it. -/
structure World where
  reply : Nat → HttpOutcome
  clock : Nat → Time

/-- The card table and the number of operations performed so far. -/
structure TableState where
  cards : CardTable
  steps : Nat

/-- Answer one operation on a table, in a store's tenant scope. -/
def tableHandler (w : World) (scope : Option String) :
    Handler IntakeOp IntakeOp.Res TableState
  | .get key, s => (Cards.get s.cards scope key, ⟨s.cards, s.steps + 1⟩)
  | .getByCorrelationKey key, s =>
    (getByCorrelationKey s.cards scope key, ⟨s.cards, s.steps + 1⟩)
  | .update key ch, s =>
    let r := update s.cards scope key ch (w.clock s.steps)
    (r.1, ⟨r.2, s.steps + 1⟩)
  | .request _ _, s => (w.reply s.steps, ⟨s.cards, s.steps + 1⟩)
  | .report _ _, s => ((), ⟨s.cards, s.steps + 1⟩)

/-- One live card and the number of operations performed so far. -/
structure Desk where
  card : Card
  steps : Nat

/-- Answer one operation on the only card of a store. -/
def deskHandler (w : World) : Handler IntakeOp IntakeOp.Res Desk
  | .get key, d => (if key = d.card.cardKey then some d.card else none, ⟨d.card, d.steps + 1⟩)
  | .getByCorrelationKey key, d =>
    (if d.card.correlationKey = some key then some d.card else none, ⟨d.card, d.steps + 1⟩)
  | .update key ch, d =>
    if key = d.card.cardKey then
      (some (ch.apply (w.clock d.steps) d.card), ⟨ch.apply (w.clock d.steps) d.card, d.steps + 1⟩)
    else (none, ⟨d.card, d.steps + 1⟩)
  | .request _ _, d => (w.reply d.steps, ⟨d.card, d.steps + 1⟩)
  | .report _ _, d => ((), ⟨d.card, d.steps + 1⟩)

section
variable (w : World) (d : Desk)

@[simp] theorem deskHandler_get : deskHandler w (.get d.card.cardKey) d =
    (some d.card, ⟨d.card, d.steps + 1⟩) := by
  simp [deskHandler]

@[simp] theorem deskHandler_update (ch : StageChanges) :
    deskHandler w (.update d.card.cardKey ch) d =
      (some (ch.apply (w.clock d.steps) d.card),
        ⟨ch.apply (w.clock d.steps) d.card, d.steps + 1⟩) := by
  simp [deskHandler]

@[simp] theorem deskHandler_request (service : Service) (step : ActionStep) :
    deskHandler w (.request service step) d = (w.reply d.steps, ⟨d.card, d.steps + 1⟩) := rfl

@[simp] theorem deskHandler_report (key : String) (result : DispatchResult) :
    deskHandler w (.report key result) d = ((), ⟨d.card, d.steps + 1⟩) := rfl

end

/-- No operation renames the card. -/
theorem cardKey_desk (w : World) (o : IntakeOp) (d : Desk) :
    (deskHandler w o d).2.card.cardKey = d.card.cardKey := by
  cases o with
  | update key ch =>
    rw [deskHandler]
    split <;> rfl
  | _ => rfl

/-- No program renames the card. -/
theorem cardKey_run (w : World) {α : Type} (p : IntakeM α) (d : Desk) :
    (Prog.run (deskHandler w) p d).2.card.cardKey = d.card.cardKey := by
  induction p generalizing d with
  | pure a => rfl
  | op o next ih => exact (ih _ _).trans (cardKey_desk w o d)

/-! ### Columns a stage update leaves alone -/

section
variable (ch : StageChanges) (now : Time) (c : Card)

@[simp] theorem cardKey_apply : (ch.apply now c).cardKey = c.cardKey := rfl

@[simp] theorem tier_apply : (ch.apply now c).tier = c.tier := rfl

@[simp] theorem status_apply : (ch.apply now c).status = ch.status.getD c.status := rfl

@[simp] theorem stageRuns_apply :
    (ch.apply now c).stageRuns = ch.stageRuns.getD c.stageRuns := rfl

@[simp] theorem correlationKey_apply :
    (ch.apply now c).correlationKey = ch.correlationKey.or c.correlationKey := rfl

end

/-! ### Rows of a table -/

/-- Looking a row up and modifying one commute when the lookup does not read what changes. -/
theorem find_modify (t : CardTable) (id : Nat) (f : Card → Card) (p : CardRow → Bool)
    (hp : ∀ r : CardRow, p { r with card := f r.card } = p r) :
    (modifyRow t id f).find? p =
      (t.find? p).map fun r ↦ if r.id = id then { r with card := f r.card } else r := by
  rw [modifyRow, List.find?_map]
  congr 2
  funext r
  simp only [Function.comp]
  split
  · exact hp r
  · rfl

/-- A stage update keeps every row where key lookups find it. -/
theorem getRow_modify (t : CardTable) (scope : Option String) (key : String) (id : Nat)
    (ch : StageChanges) (now : Time) :
    getRow (modifyRow t id (ch.apply now)) scope key =
      (getRow t scope key).map fun r ↦
        if r.id = id then { r with card := ch.apply now r.card } else r :=
  find_modify t id _ _ fun _ ↦ rfl

/-- Rows under another primary key are untouched. -/
theorem stored_modify_of_ne (t : CardTable) {id j : Nat} (f : Card → Card) (hj : j ≠ id) :
    stored (modifyRow t id f) j = stored t j := by
  rw [stored, stored, find_modify t id f _ fun _ ↦ rfl, Option.map_map]
  cases hf : t.find? fun r ↦ r.id == j with
  | none => rfl
  | some r =>
    have hid : r.id = j := by simpa using List.find?_some hf
    simp [hid, hj]

/-- Under distinct primary keys a row of the table is what is stored under its key. -/
theorem stored_of_mem {t : CardTable} (ht : Keyed t) {r : CardRow} (hr : r ∈ t) :
    stored t r.id = some r.card := by
  induction t with
  | nil => simp at hr
  | cons x rest ih =>
    have hnd := List.nodup_cons.mp ht
    rcases List.mem_cons.mp hr with rfl | hr
    · simp [stored]
    · have hne : x.id ≠ r.id := fun he ↦ hnd.1 (he ▸ List.mem_map_of_mem hr)
      have := ih hnd.2 hr
      simpa [stored, List.find?_cons, hne] using this

/-- A stage update assigns no primary key. -/
theorem keyed_modify {t : CardTable} (ht : Keyed t) (id : Nat) (f : Card → Card) :
    Keyed (modifyRow t id f) := by
  have he : (modifyRow t id f).map CardRow.id = t.map CardRow.id := by
    rw [modifyRow, List.map_map]
    apply List.map_congr_left
    intro r _
    simp only [Function.comp]
    split <;> rfl
  rw [Keyed, he]
  exact ht

/-! ### The table serves the desk -/

/-- An operation that names only the given card key. -/
def OnKey (key : String) : IntakeOp → Prop
  | .get k => k = key
  | .getByCorrelationKey _ => False
  | .update k _ => k = key
  | .request _ _ => True
  | .report _ _ => True

/-- The table as it stood at `t₀`, except that the row `id`, which the scope resolves `key`
to, now holds the desk's card. -/
structure Serves (t₀ : CardTable) (scope : Option String) (key : String) (id : Nat)
    (s : TableState) (d : Desk) : Prop where
  row : getRow s.cards scope key = some ⟨id, d.card⟩
  steps : s.steps = d.steps
  keyed : Keyed s.cards
  frame : ∀ j, j ≠ id → stored s.cards j = stored t₀ j

/-- The card of a row that a scope resolves a key to has that key. -/
theorem cardKey_of_getRow {t : CardTable} {scope : Option String} {key : String} {r : CardRow}
    (h : getRow t scope key = some r) : r.card.cardKey = key := by
  have := List.find?_some h
  simp only [Bool.and_eq_true, beq_iff_eq] at this
  exact this.2

/-- Operations on one key are answered by the table as by the desk. -/
theorem tableHandler_refines (w : World) {t₀ : CardTable} {scope : Option String}
    {key : String} {id : Nat} (o : IntakeOp) (s : TableState) (d : Desk)
    (hR : Serves t₀ scope key id s d) (ho : OnKey key o) :
    (tableHandler w scope o s).1 = (deskHandler w o d).1 ∧
      Serves t₀ scope key id (tableHandler w scope o s).2 (deskHandler w o d).2 := by
  have hkey : d.card.cardKey = key := cardKey_of_getRow hR.row
  cases o with
  | get k =>
    have hk : k = key := ho
    subst hk
    refine ⟨?_, hR.row, by simp [tableHandler, deskHandler, hR.steps], hR.keyed, hR.frame⟩
    simp [tableHandler, deskHandler, Cards.get, hR.row, hkey]
  | getByCorrelationKey k => exact ho.elim
  | update k ch =>
    have hk : k = key := ho
    subst hk
    simp only [tableHandler, deskHandler, update, hR.row, hkey, ↓reduceIte, hR.steps, true_and]
    refine ⟨?_, rfl, keyed_modify hR.keyed _ _, ?_⟩
    · rw [getRow_modify, hR.row]
      simp
    · intro j hj
      rw [stored_modify_of_ne _ _ hj]
      exact hR.frame j hj
  | request service step =>
    exact ⟨by simp [tableHandler, deskHandler, hR.steps], hR.row,
      by simp [tableHandler, deskHandler, hR.steps], hR.keyed, hR.frame⟩
  | report k result =>
    exact ⟨rfl, hR.row, by simp [tableHandler, deskHandler, hR.steps], hR.keyed, hR.frame⟩

/-- A program that only names one key runs on a table as it runs on that key's card. -/
theorem run_table_eq_desk (w : World) {α : Type} {Q : α → Desk → Prop} {t : CardTable}
    {scope : Option String} {key : String} {r : CardRow} (ht : Keyed t)
    (hr : getRow t scope key = some r) (n : Nat) (p : IntakeM α)
    (hp : Prog.Safe (deskHandler w) (fun _ o ↦ OnKey key o) Q p ⟨r.card, n⟩) :
    (Prog.run (tableHandler w scope) p ⟨t, n⟩).1 = (Prog.run (deskHandler w) p ⟨r.card, n⟩).1 ∧
      Serves t scope key r.id (Prog.run (tableHandler w scope) p ⟨t, n⟩).2
        (Prog.run (deskHandler w) p ⟨r.card, n⟩).2 :=
  Prog.run_sim (Serves t scope key r.id) (tableHandler_refines w) p ⟨t, n⟩ ⟨r.card, n⟩
    ⟨hr, rfl, ht, fun _ _ ↦ rfl⟩ hp

end CFactory.Intake
