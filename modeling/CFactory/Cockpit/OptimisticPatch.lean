import CFactory.Base.Captured
import CFactory.Base.Dict
import CFactory.Cards.Card

/-!
# Optimistic edits of the board

`apps/frontend-web/src/cards.ts:323–355,432–442`. Every call of `optimisticPatch` captures the
list the board shows and writes it back with one card replaced, at once and when its PATCH is
answered. Any number of calls, one for each card, interleave at the points where they wait.
-/

namespace CFactory.Cockpit

open CFactory.Base CFactory.Cards

/-- `CardPatch`: an absent field is left alone; `api.ts:1642–1647`. -/
structure CardPatch where
  title : Option String := none
  acceptanceCriteria : Option (List String) := none
  status : Option CardStatus := none
  priority : Option Int := none
  tier : Option (Option CardTier) := none
  assignee : Option (Option String) := none
  milestone : Option (Option String) := none
  deriving DecidableEq

/-- `{ ...current, ...patch }`; `cards.ts:346`. -/
def CardPatch.spread (patch : CardPatch) (current : Card) : Card :=
  { current with
    title := patch.title.getD current.title
    acceptanceCriteria := patch.acceptanceCriteria.getD current.acceptanceCriteria
    status := patch.status.getD current.status
    priority := patch.priority.getD current.priority
    tier := patch.tier.getD current.tier
    assignee := patch.assignee.getD current.assignee
    milestone := patch.milestone.getD current.milestone }

/-- `replaceCard`; `cards.ts:324–326`. -/
def replaceCard (cards : List Card) (next : Card) : List Card :=
  cards.map fun c ↦ if c.cardKey == next.cardKey then next else c

/-- The edits of a session: what is sent for each card, and how the server answers. The copy it
saves is one of the card it was asked to change. -/
structure Edits where
  patch : String → CardPatch
  send : String → Except String Card
  saved_cardKey : ∀ key saved, send key = .ok saved → saved.cardKey = key

/-- Where a call of `optimisticPatch` stands. -/
inductive Call where
  | ready
  | sent (cards : List Card)
  | returned (result : Except String Card)

/-- `optimisticPatch`, from one wait to the next: the first piece runs on the list shown then,
the second when the PATCH is answered; `cards.ts:337–355`. -/
def optimisticPatch (edits : Edits) (cardKey : String) (_ : Unit) :
    Call → List Card → Call × List Card
  | .ready, cards =>
    match cards.find? fun c ↦ c.cardKey == cardKey with
    | none => (.returned (.error s!"unknown card {cardKey}"), cards)
    | some current => (.sent cards, replaceCard cards ((edits.patch cardKey).spread current))
  | .sent cards, _ =>
    match edits.send cardKey with
    | .ok saved => (.returned (.ok saved), replaceCard cards saved)
    | .error e => (.returned (.error e), cards)
  | .returned result, shown => (.returned result, shown)

/-- The calls and the list shown, after a schedule that names whose piece runs next. -/
def session (edits : Edits) (cards : List Card) (schedule : List String) :
    Callers String Call (List Card) :=
  Callers.run (optimisticPatch edits) ⟨fun _ ↦ .ready, cards⟩ (schedule.map fun key ↦ (key, ()))

/-- A PATCH is in flight. -/
def Call.inFlight : Call → Bool
  | .sent _ => true
  | _ => false

/-- Every call has returned. -/
def AllReturned (edits : Edits) (cards : List Card) (schedule : List String) : Prop :=
  ∀ key ∈ schedule, ((session edits cards schedule).pc key).inFlight = false

/-- The copy an answered call leaves: the server's, or the card's own where the PATCH failed. -/
def answered (edits : Edits) (c : Card) : Card :=
  match edits.send c.cardKey with
  | .ok saved => saved
  | .error _ => c

/-- The copy a card should have in the end. -/
def settled (edits : Edits) (schedule : List String) (c : Card) : Card :=
  if c.cardKey ∈ schedule then answered edits c else c

/-- The list shown holds of every card the copy it should have. -/
def Converged (edits : Edits) (cards : List Card) (schedule : List String) : Prop :=
  (session edits cards schedule).shared = cards.map (settled edits schedule)

/-! ### The list shown, by its lineage -/

/-- A card of this key is in the list. -/
def onBoard (cards : List Card) (key : String) : Bool := cards.any fun c ↦ c.cardKey == key

/-- The copy a call shows while its PATCH is in flight. -/
def draft (edits : Edits) (cards : List Card) (key : String) : Option Card :=
  (cards.find? fun c ↦ c.cardKey == key).map (edits.patch key).spread

/-- What a call writes over the list it captured: its draft, then the answer. -/
def written (edits : Edits) (cards : List Card) (call : String × Bool) (shown : List Card) :
    List Card :=
  if call.2 then
    match edits.send call.1 with
    | .ok saved => replaceCard shown saved
    | .error _ => shown
  else
    match draft edits cards call.1 with
    | some d => replaceCard shown d
    | none => shown

/-- The list a lineage stands for. -/
def listOf (edits : Edits) (cards : List Card) (l : Lineage String) : List Card :=
  l.foldr (written edits cards) cards

@[simp] theorem spread_cardKey (patch : CardPatch) (c : Card) :
    (patch.spread c).cardKey = c.cardKey := rfl

/-- A draft is of its card. -/
theorem draft_cardKey {edits : Edits} {cards : List Card} {key : String} {d : Card}
    (h : draft edits cards key = some d) : d.cardKey = key := by
  obtain ⟨c, hc, rfl⟩ := Option.map_eq_some_iff.mp h
  have hkey := List.find?_some hc
  rwa [beq_iff_eq] at hkey

/-- Replacing another card leaves the card that a key finds. -/
theorem find?_replaceCard {shown : List Card} {next : Card} {key : String}
    (h : next.cardKey ≠ key) :
    (replaceCard shown next).find? (fun c ↦ c.cardKey == key) =
      shown.find? fun c ↦ c.cardKey == key := by
  induction shown with
  | nil => rfl
  | cons c rest ih =>
    rw [replaceCard, List.map_cons, List.find?_cons, List.find?_cons]
    by_cases hc : c.cardKey = next.cardKey
    · have hnext : (next.cardKey == key) = false := beq_eq_false_iff_ne.mpr h
      have hckey : (c.cardKey == key) = false := by rw [hc, hnext]
      rw [if_pos (beq_iff_eq.mpr hc), hnext, hckey]
      exact ih
    · rw [if_neg fun hbeq ↦ hc (beq_iff_eq.mp hbeq)]
      rw [← ih]
      rfl

/-- Writing of one card leaves the card that another key finds. -/
private theorem find?_written {edits : Edits} {cards shown : List Card} {call : String × Bool}
    {key : String} (h : call.1 ≠ key) :
    (written edits cards call shown).find? (fun c ↦ c.cardKey == key) =
      shown.find? fun c ↦ c.cardKey == key := by
  rw [written]
  split
  · split
    · next saved hsend => exact find?_replaceCard ((edits.saved_cardKey _ _ hsend).trans_ne h)
    · rfl
  · split
    · next d hdraft => exact find?_replaceCard ((draft_cardKey hdraft).trans_ne h)
    · rfl

/-- A card that no call of the lineage edits is found as on the board. -/
theorem find?_listOf {edits : Edits} {cards : List Card} {l : Lineage String} {key : String}
    (h : key ∉ Captured.callers l) :
    (listOf edits cards l).find? (fun c ↦ c.cardKey == key) =
      cards.find? fun c ↦ c.cardKey == key := by
  induction l with
  | nil => rfl
  | cons call rest ih =>
    have hcall : call.1 ≠ key := fun heq ↦ h (heq ▸ List.mem_cons_self)
    rw [listOf, List.foldr_cons, find?_written hcall]
    exact ih fun hrest ↦ h (List.mem_cons_of_mem _ hrest)

/-- A call on the board, and the lineage it is described by. -/
inductive Described (edits : Edits) (cards : List Card) : Call → Phase (Lineage String) → Prop
  | ready : Described edits cards .ready .idle
  | sent (l : Lineage String) : Described edits cards (.sent (listOf edits cards l)) (.waiting l)
  | returned (result : Except String Card) : Described edits cards (.returned result) .finished

/-- One piece of a call moves its lineage along. -/
private theorem described_step {edits : Edits} {cards shown : List Card} {key : String}
    {call : Call} {c : Captured.Calls String} (hsound : Captured.Sound c)
    (hcall : Described edits cards call (c.pc key)) (hshown : shown = listOf edits cards c.shared) :
    Described edits cards (optimisticPatch edits key () call shown).1
        (Captured.next (onBoard cards) key () (c.pc key) c.shared).1 ∧
      (optimisticPatch edits key () call shown).2 =
        listOf edits cards (Captured.next (onBoard cards) key () (c.pc key) c.shared).2 := by
  subst hshown
  generalize hpc : c.pc key = phase at hcall
  cases hcall with
  | ready =>
    have hfresh : key ∉ Captured.callers c.shared := fun hmem ↦ hsound.shared.2 key hmem hpc
    rw [optimisticPatch, Captured.next, find?_listOf hfresh]
    cases hfind : cards.find? fun c ↦ c.cardKey == key with
    | none =>
      have hoff : onBoard cards key = false := by
        rw [onBoard, List.any_eq_false]
        exact List.find?_eq_none.mp hfind
      rw [hoff]
      exact ⟨.returned _, rfl⟩
    | some current =>
      have hkey := List.find?_some hfind
      have hon : onBoard cards key = true :=
        List.any_eq_true.mpr ⟨current, List.mem_of_find?_eq_some hfind, hkey⟩
      rw [if_pos hon]
      refine ⟨.sent c.shared, ?_⟩
      dsimp only [listOf]
      rw [List.foldr_cons, written, draft, hfind]
      rfl
  | sent l =>
    dsimp only [optimisticPatch, Captured.next, listOf]
    rw [List.foldr_cons, written, if_pos rfl]
    dsimp only
    cases edits.send key with
    | ok saved => exact ⟨.returned _, rfl⟩
    | error e => exact ⟨.returned _, rfl⟩
  | returned result => exact ⟨.returned _, rfl⟩

/-- The list shown is the one its lineage stands for. -/
theorem session_described (edits : Edits) (cards : List Card) (schedule : List String) :
    (∀ key, Described edits cards ((session edits cards schedule).pc key)
      ((Captured.after (onBoard cards) schedule).pc key)) ∧
      (session edits cards schedule).shared =
        listOf edits cards (Captured.lineage (onBoard cards) schedule) :=
  Callers.run_sim (I := Captured.Sound) (B := fun shown l ↦ shown = listOf edits cards l)
    (fun _ i _ h ↦ h.step i) (fun _ _ _ _ _ h hcall hshown ↦ described_step h hcall hshown)
    Captured.sound_start (fun _ ↦ .ready) rfl _

/-- The copy of a card that a lineage stands for. -/
def copyOf (edits : Edits) (cards : List Card) (l : Lineage String) (c : Card) : Card :=
  match l.lookup c.cardKey with
  | none => c
  | some true => answered edits c
  | some false => (draft edits cards c.cardKey).getD c

/-- An answered copy is of its card. -/
theorem answered_cardKey (edits : Edits) (c : Card) : (answered edits c).cardKey = c.cardKey := by
  rw [answered]
  split
  · next saved hsend => exact edits.saved_cardKey _ _ hsend
  · rfl

/-- A copy is of its card. -/
theorem copyOf_cardKey (edits : Edits) (cards : List Card) (l : Lineage String) (c : Card) :
    (copyOf edits cards l c).cardKey = c.cardKey := by
  rw [copyOf]
  split
  · rfl
  · exact answered_cardKey edits c
  · cases hdraft : draft edits cards c.cardKey with
    | none => rfl
    | some d => exact draft_cardKey hdraft

/-- A card that no call of the lineage edits keeps its copy. -/
theorem copyOf_of_notMem {edits : Edits} {cards : List Card} {l : Lineage String} {c : Card}
    (h : c.cardKey ∉ Captured.callers l) : copyOf edits cards l c = c := by
  have hlookup : l.lookup c.cardKey = none := by
    rw [List.lookup_eq_none_iff]
    intro e he
    have hne : c.cardKey ≠ e.1 := fun heq ↦ h (heq ▸ List.mem_map_of_mem he)
    simp [hne]
  rw [copyOf, hlookup]

/-- The newest call of a lineage decides the copy of its own card only. -/
private theorem copyOf_cons {edits : Edits} {cards : List Card} {key : String} {ended : Bool}
    {rest : Lineage String} (c : Card) :
    copyOf edits cards ((key, ended) :: rest) c =
      if c.cardKey = key then
        if ended then answered edits c else (draft edits cards c.cardKey).getD c
      else copyOf edits cards rest c := by
  by_cases hkey : c.cardKey = key
  · rw [copyOf, List.lookup_cons, if_pos hkey, beq_iff_eq.mpr hkey]
    cases ended <;> rfl
  · rw [copyOf, List.lookup_cons, if_neg hkey, beq_eq_false_iff_ne.mpr hkey]
    rfl

/-- A replacement in a list of copies. -/
private theorem replaceCard_map {edits : Edits} {cards : List Card} {l : Lineage String}
    {next : Card} : replaceCard (cards.map (copyOf edits cards l)) next =
      cards.map fun c ↦ if c.cardKey = next.cardKey then next else copyOf edits cards l c := by
  rw [replaceCard, List.map_map]
  apply List.map_congr_left
  intro c _
  rw [Function.comp_apply, copyOf_cardKey]
  simp only [beq_iff_eq]

/-- The list a lineage stands for holds of every card the copy it stands for. -/
theorem listOf_eq_map {edits : Edits} {cards : List Card} {l : Lineage String}
    (h : (Captured.callers l).Nodup) : listOf edits cards l = cards.map (copyOf edits cards l) := by
  induction l with
  | nil =>
    symm
    apply List.map_id''
    exact fun c ↦ rfl
  | cons call rest ih =>
    obtain ⟨key, ended⟩ := call
    obtain ⟨hfresh, hrest⟩ := List.nodup_cons.mp h
    have hkept : ∀ c : Card, c.cardKey = key → copyOf edits cards rest c = c := fun c hkey ↦
      copyOf_of_notMem fun hmem ↦ hfresh (hkey ▸ hmem)
    have hlist : listOf edits cards ((key, ended) :: rest) =
        written edits cards (key, ended) (cards.map (copyOf edits cards rest)) := by
      rw [← ih hrest]
      rfl
    rw [hlist, written]
    cases ended with
    | true =>
      rw [if_pos rfl]
      dsimp only
      cases hsend : edits.send key with
      | ok saved =>
        dsimp only
        rw [replaceCard_map, edits.saved_cardKey key saved hsend]
        apply List.map_congr_left
        intro c _
        rw [copyOf_cons, if_pos rfl]
        by_cases hkey : c.cardKey = key
        · rw [if_pos hkey, if_pos hkey, answered, hkey, hsend]
        · rw [if_neg hkey, if_neg hkey]
      | error e =>
        apply List.map_congr_left
        intro c _
        rw [copyOf_cons, if_pos rfl]
        by_cases hkey : c.cardKey = key
        · rw [if_pos hkey, hkept c hkey, answered, hkey, hsend]
        · rw [if_neg hkey]
    | false =>
      rw [if_neg Bool.false_ne_true]
      dsimp only
      cases hdraft : draft edits cards key with
      | some d =>
        dsimp only
        rw [replaceCard_map, draft_cardKey hdraft]
        apply List.map_congr_left
        intro c _
        rw [copyOf_cons, if_neg Bool.false_ne_true]
        by_cases hkey : c.cardKey = key
        · rw [if_pos hkey, if_pos hkey, hkey, hdraft, Option.getD_some]
        · rw [if_neg hkey, if_neg hkey]
      | none =>
        apply List.map_congr_left
        intro c _
        rw [copyOf_cons, if_neg Bool.false_ne_true]
        by_cases hkey : c.cardKey = key
        · rw [if_pos hkey, hkept c hkey, hkey, hdraft, Option.getD_none]
        · rw [if_neg hkey]

/-! ### When the board converges -/

/-- The copy of a card survives: the list shown descends from the answer of its call, or from
its draft where that is the copy it should have, or from no call of it where it should be as it
was. -/
def Survives (edits : Edits) (cards : List Card) (schedule : List String) (c : Card) : Prop :=
  (c.cardKey, true) ∈ Captured.lineage (onBoard cards) schedule ∨
    ((c.cardKey, false) ∈ Captured.lineage (onBoard cards) schedule ∧
      draft edits cards c.cardKey = some (settled edits schedule c)) ∨
    (c.cardKey ∉ Captured.callers (Captured.lineage (onBoard cards) schedule) ∧
      settled edits schedule c = c)

/-- A card of the list has a draft. -/
private theorem exists_draft (edits : Edits) {cards : List Card} {c : Card} (h : c ∈ cards) :
    ∃ d, draft edits cards c.cardKey = some d := by
  have hfound : (cards.find? fun x ↦ x.cardKey == c.cardKey).isSome = true :=
    List.find?_isSome.mpr ⟨c, h, beq_self_eq_true _⟩
  obtain ⟨x, hx⟩ := Option.isSome_iff_exists.mp hfound
  exact ⟨(edits.patch c.cardKey).spread x, by rw [draft, hx, Option.map_some]⟩

/-- The board converges exactly if the copy of every card survives. -/
theorem converged_iff (edits : Edits) (cards : List Card) (schedule : List String) :
    Converged edits cards schedule ↔ ∀ c ∈ cards, Survives edits cards schedule c := by
  have hnodup : (Captured.callers (Captured.lineage (onBoard cards) schedule)).Nodup :=
    Captured.nodup_lineage schedule
  rw [Converged, (session_described edits cards schedule).2, listOf_eq_map hnodup,
    List.map_inj_left]
  refine forall₂_congr fun c hc ↦ ?_
  unfold Survives
  generalize hl : Captured.lineage (onBoard cards) schedule = l at hnodup
  have hmem : ∀ ended, (c.cardKey, ended) ∈ l ↔ l.lookup c.cardKey = some ended := fun ended ↦
    (Dict.get?_eq_some_iff ⟨l, hnodup⟩ c.cardKey ended).symm
  cases hlookup : l.lookup c.cardKey with
  | none =>
    have hnot : c.cardKey ∉ Captured.callers l := by
      intro h
      obtain ⟨e, he, hkey⟩ := List.mem_map.mp h
      have hsome := (hmem e.2).mp (hkey ▸ he)
      rw [hlookup] at hsome
      cases hsome
    rw [hmem, hmem, hlookup, copyOf, hlookup]
    simp [hnot, eq_comm]
  | some ended =>
    have hcaller : c.cardKey ∈ Captured.callers l :=
      List.mem_map_of_mem ((hmem ended).mpr hlookup)
    rw [hmem, hmem, hlookup, copyOf, hlookup]
    cases ended with
    | true =>
      have hschedule : c.cardKey ∈ schedule := Captured.mem_schedule (hl ▸ hcaller)
      simp [settled, hschedule]
    | false =>
      obtain ⟨d, hd⟩ := exists_draft edits hc
      simp [hd, hcaller]

/-- Where every call begins while none is in flight and all have returned, the board
converges. -/
theorem converged_of_beginsAlone {edits : Edits} {cards : List Card} {schedule : List String}
    (halone : EachStep (Callers.step (Captured.next (onBoard cards))) Captured.BeginsAlone
      Captured.start (schedule.map fun key ↦ (key, ())))
    (hreturned : AllReturned edits cards schedule) : Converged edits cards schedule := by
  obtain ⟨hcalls, -⟩ := session_described edits cards schedule
  have hquiet : Captured.Quiet (Captured.after (onBoard cards) schedule) := by
    intro key l hl
    have hkey : key ∈ schedule :=
      Captured.pc_after_ne_idle_iff.mp fun hidle ↦ by
        rw [hl] at hidle
        cases hidle
    have hcall := hcalls key
    have hflight := hreturned key hkey
    rw [hl] at hcall
    generalize (session edits cards schedule).pc key = call at hcall hflight
    cases hcall
    cases hflight
  have hended := Captured.lineage_holdsEnded halone hquiet
  rw [converged_iff]
  intro c hc
  by_cases hkey : c.cardKey ∈ schedule
  · left
    have hboard : onBoard cards c.cardKey = true :=
      List.any_eq_true.mpr ⟨c, hc, beq_self_eq_true _⟩
    apply hended c.cardKey hboard
    cases hphase : (Captured.after (onBoard cards) schedule).pc c.cardKey with
    | idle => exact absurd hphase (Captured.pc_after_ne_idle_iff.mpr hkey)
    | waiting l => exact absurd hphase (hquiet _ l)
    | finished => rfl
  · right
    right
    exact ⟨fun h ↦ hkey (Captured.mem_schedule h), by rw [settled, if_neg hkey]⟩

/-- Two edits: the first is refused, the second saved. -/
def refusedAndSaved : Edits where
  patch key := if key = "FCT-1" then { status := some .done } else { priority := some 9 }
  send key :=
    if key = "FCT-1" then .error "HTTP 500"
    else .ok { cardKey := key, title := "Second", priority := 9, updatedAt := 1 }
  saved_cardKey := by
    intro key saved h
    split at h
    · cases h
    · cases h
      rfl

/-- A second edit that begins while the first is in flight brings back the move that the server
refused. -/
theorem refused_move_shown :
    AllReturned refusedAndSaved
        [{ cardKey := "FCT-1", title := "First" }, { cardKey := "FCT-2", title := "Second" }]
        ["FCT-1", "FCT-2", "FCT-1", "FCT-2"] ∧
      ¬Converged refusedAndSaved
        [{ cardKey := "FCT-1", title := "First" }, { cardKey := "FCT-2", title := "Second" }]
        ["FCT-1", "FCT-2", "FCT-1", "FCT-2"] := by
  constructor
  · unfold AllReturned
    decide
  · unfold Converged
    decide

end CFactory.Cockpit
