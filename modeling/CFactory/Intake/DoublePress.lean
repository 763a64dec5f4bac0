import CFactory.Intake.PressRun

/-!
# Two requests at once

`card_intake.py:523–744`. Two requests on one card, interleaved operation by operation. The
check that makes a second press a no-op reads the record that the first press writes only
after its answer, so it holds for presses that do not overlap.
-/

namespace CFactory.Intake

open CFactory.Base CFactory.Model CFactory.Cards CFactory.Actions CFactory.Status

/-! ### The sends of each side -/

/-- The stages one side of an interleaving has sent. -/
def sideSends (side : Bool) (tr : List (Bool × Desk × IntakeOp)) : List Stage :=
  requests ((tr.filter fun x ↦ x.1 == side).map fun x ↦ x.2)

/-- A side has sent a stage exactly if one of its operations is such a request. -/
theorem mem_sideSends {side : Bool} {tr : List (Bool × Desk × IntakeOp)} {s : Stage} :
    s ∈ sideSends side tr ↔ ∃ x ∈ tr, x.1 = side ∧ Sends s x.2 := by
  unfold sideSends requests
  rw [List.mem_filterMap]
  constructor
  · rintro ⟨y, hy, hs⟩
    obtain ⟨x, hx, rfl⟩ := List.mem_map.mp hy
    obtain ⟨hmem, hside⟩ := List.mem_filter.mp hx
    refine ⟨x, hmem, by simpa using hside, ?_⟩
    rcases x with ⟨b, d, o⟩
    cases o with
    | request service step => exact ⟨service, step, rfl, Option.some.inj hs⟩
    | _ => simp at hs
  · rintro ⟨x, hmem, hside, service, step, ho, rfl⟩
    refine ⟨x.2, List.mem_map_of_mem (List.mem_filter.mpr ⟨hmem, by simpa using hside⟩), ?_⟩
    rw [ho]

/-- An operation of a side adds to what the side has sent; the other side has sent what it
had. -/
theorem sideSends_snoc (side b : Bool) (tr : List (Bool × Desk × IntakeOp)) (d : Desk)
    (o : IntakeOp) (r : IntakeOp.Res o) :
    sideSends side (tr ++ [(b, d, o)]) =
      if b = side then sentSoFar (sideSends side tr) o r else sideSends side tr := by
  unfold sideSends
  rw [List.filter_append, List.map_append, requests_append]
  by_cases hb : b = side
  · subst hb
    rw [if_pos rfl]
    cases o <;> simp [requests, sentSoFar]
  · have hb' : (b == side) = false := by simpa using hb
    rw [if_neg hb]
    simp [hb']

/-- What a side has sent, read from the first operation on. -/
theorem sideSends_cons (side : Bool) (x : Bool × Desk × IntakeOp)
    (rest : List (Bool × Desk × IntakeOp)) :
    sideSends side (x :: rest) =
      (if x.1 = side then requests [x.2] else []) ++ sideSends side rest := by
  unfold sideSends
  by_cases hx : x.1 = side
  · have hx' : (x.1 == side) = true := by simpa using hx
    rw [if_pos hx, List.filter_cons, if_pos hx', List.map_cons, ← requests_append,
      List.singleton_append]
  · have hx' : ¬ (x.1 == side) = true := by simpa using hx
    rw [if_neg hx, List.filter_cons, if_neg hx', List.nil_append]

/-- A list of at most one element holds an element exactly if it is that one. -/
theorem mem_iff_of_length_le_one {l : List Stage} (h : l.length ≤ 1) (s : Stage) :
    s ∈ l ↔ l = [s] := by
  cases l with
  | nil => simp
  | cons t rest =>
    cases rest with
    | nil => simp [eq_comm]
    | cons u rest' =>
      simp only [List.length_cons] at h
      omega

/-- An operation that sends nothing leaves what the sides send. -/
private theorem sideSends_skip {x : Bool × Desk × IntakeOp} (hx : isSend x.2 = false)
    (side : Bool) (rest : List (Bool × Desk × IntakeOp)) :
    sideSends side (x :: rest) = sideSends side rest := by
  have hnone : requests [x.2] = [] := by
    unfold isSend at hx
    unfold requests
    rw [List.filterMap_cons, List.filterMap_nil]
    split at hx
    · exact absurd hx (by simp)
    · next ho => split <;> simp_all
  rw [sideSends_cons, hnone, ite_self, List.nil_append]

/-- Nor does it change which send is the first. -/
private theorem firstAccepted_skip (w : World) {x : Desk × IntakeOp} (hx : isSend x = false)
    (rest : List (Desk × IntakeOp)) : FirstAccepted w (x :: rest) ↔ FirstAccepted w rest := by
  unfold FirstAccepted
  rw [List.find?_cons_of_neg (by simp [hx])]

/-- Where one side sends nothing and the other one stage at most, what is sent is that stage. -/
private theorem sends_iff_of_length_le_one {b : Bool} {rest : List (Bool × Desk × IntakeOp)}
    (hown : sideSends b rest = []) (hother : (sideSends (!b) rest).length ≤ 1) (s : Stage) :
    (∃ y ∈ rest, Sends s y.2) ↔ sideSends (!b) rest = [s] := by
  rw [← mem_iff_of_length_le_one hother, mem_sideSends]
  constructor
  · rintro ⟨y, hy, hs⟩
    by_cases hside : y.1 = b
    · have hm : s ∈ sideSends b rest := mem_sideSends.mpr ⟨y, hy, hside, hs⟩
      rw [hown] at hm
      exact absurd hm (by simp)
    · exact ⟨y, hy, by simpa using Bool.eq_not_of_ne hside, hs⟩
  · rintro ⟨y, hy, -, hs⟩
    exact ⟨y, hy, hs⟩

/-- Where each side sends at most one stage, a second dispatch is exactly two sends of one
stage of which the first is accepted. -/
theorem once_iff (w : World) {tr : List (Bool × Desk × IntakeOp)}
    (hl : (sideSends true tr).length ≤ 1) (hr : (sideSends false tr).length ≤ 1) :
    ((tr.map fun x ↦ x.2).Pairwise fun x y ↦ ∀ s, Sends s x → Accepts w x → ¬ Sends s y) ↔
      ¬ ((∃ s, sideSends true tr = [s] ∧ sideSends false tr = [s]) ∧
        FirstAccepted w (tr.map fun x ↦ x.2)) := by
  induction tr with
  | nil => simp [sideSends]
  | cons x rest ih =>
    rw [List.map_cons, List.pairwise_cons]
    cases hx : isSend x.2 with
    | false =>
      rw [sideSends_skip hx] at hl hr
      rw [sideSends_skip hx, sideSends_skip hx, firstAccepted_skip w hx, ← ih hl hr]
      constructor
      · exact fun h ↦ h.2
      · intro h
        refine ⟨fun y _ s hs ↦ ?_, h⟩
        exact absurd (isSend_of_sends hs) (by simp [hx])
    | true =>
      obtain ⟨b, d, o⟩ := x
      cases o with
      | request service step =>
        have hfirst : FirstAccepted w ((d, .request service step) :: rest.map fun y ↦ y.2) ↔
            Accepts w (d, .request service step) := by
          unfold FirstAccepted
          rw [List.find?_cons_of_pos hx]
          simp
        have hcons : ∀ side, sideSends side ((b, d, .request service step) :: rest) =
            (if b = side then [service.stage] else []) ++ sideSends side rest :=
          fun side ↦ sideSends_cons side _ rest
        have hown : sideSends b rest = [] := by
          cases b with
          | true =>
            rw [hcons, if_pos rfl, List.length_append, List.length_singleton] at hl
            exact List.length_eq_zero_iff.mp (by omega)
          | false =>
            rw [hcons, if_pos rfl, List.length_append, List.length_singleton] at hr
            exact List.length_eq_zero_iff.mp (by omega)
        have hother : (sideSends (!b) rest).length ≤ 1 := by
          cases b with
          | true => simpa [hcons] using hr
          | false => simpa [hcons] using hl
        have hrest := (ih (by cases b <;> simp_all) (by cases b <;> simp_all)).mpr (by
          rintro ⟨⟨s, hs, hs'⟩, -⟩
          cases b <;> simp_all)
        have hpair : (∃ s, sideSends true ((b, d, .request service step) :: rest) = [s] ∧
            sideSends false ((b, d, .request service step) :: rest) = [s]) ↔
            sideSends (!b) rest = [service.stage] := by
          simp only [hcons]
          cases b with
          | true =>
            simp only [Bool.not_true] at *
            simp [hown, eq_comm]
          | false =>
            simp only [Bool.not_false] at *
            simp [hown, eq_comm]
        simp only
        rw [hfirst, hpair, ← sends_iff_of_length_le_one hown hother]
        constructor
        · rintro ⟨h, -⟩ ⟨⟨y, hy, hs⟩, ha⟩
          exact h y.2 (List.mem_map_of_mem hy) service.stage ⟨service, step, rfl, rfl⟩ ha hs
        · intro h
          refine ⟨?_, hrest⟩
          intro y hy s hs ha hs'
          obtain ⟨z, hz, rfl⟩ := List.mem_map.mp hy
          obtain ⟨service', step', ho, rfl⟩ := hs
          cases ho
          exact h ⟨⟨z, hz, hs'⟩, ha⟩
      | _ => simp [isSend] at hx

/-! ### Overlapping requests -/

/-- Two requests about to run on one card. -/
def pressPool (p q : Press) (d : Desk) : Pool IntakeOp IntakeOp.Res Unit Unit Desk :=
  ⟨p.program d.card.cardKey, q.program d.card.cardKey, d⟩

/-- The left request once it has read the card. -/
theorem run_pressPool_left (w : World) (p q : Press) (d : Desk) (rest : List Bool) :
    Pool.run (deskHandler w) (pressPool p q d) (true :: rest) =
      Pool.run (deskHandler w)
        ⟨p.body d.card, q.program d.card.cardKey, ⟨d.card, d.steps + 1⟩⟩ rest ∧
    Pool.trace (deskHandler w) (pressPool p q d) (true :: rest) =
      (true, d, .get d.card.cardKey) :: Pool.trace (deskHandler w)
        ⟨p.body d.card, q.program d.card.cardKey, ⟨d.card, d.steps + 1⟩⟩ rest := by
  have hstep : Pool.step (deskHandler w) (pressPool p q d) true =
      ⟨p.body d.card, q.program d.card.cardKey, ⟨d.card, d.steps + 1⟩⟩ := by
    have hget := deskHandler_get w d
    simp only [Pool.step, pressPool, Press.program, Prog.perform_bind, hget]
  rw [Pool.run_cons, hstep]
  refine ⟨rfl, ?_⟩
  rw [Pool.trace, hstep]
  rfl

section
variable {V W : Type} {viewL : V → (o : IntakeOp) → IntakeOp.Res o → V}
  {viewR : W → (o : IntakeOp) → IntakeOp.Res o → W}
  {ALeft : V → (o : IntakeOp) → IntakeOp.Res o → Prop}
  {ARight : W → (o : IntakeOp) → IntakeOp.Res o → Prop}
  {GLeft : V → IntakeOp → Prop} {GRight : W → IntakeOp → Prop} {ΦL : Unit → V → Prop}
  {ΦR : Unit → W → Prop}
  {I : List (Bool × Desk × IntakeOp) → Desk → V → W → Prop}

/-- The rule of parallel composition for overlapping requests: the second one reads a card
that is similar to what the first one read. -/
theorem overlap_rule (w : World) (p q : Press) (d : Desk)
    (hleft : ∀ tr e v v' o, I tr e v v' → GLeft v o →
      ALeft v o (deskHandler w o e).1 ∧
        I (tr ++ [(true, e, o)]) (deskHandler w o e).2 (viewL v o (deskHandler w o e).1) v')
    (hright : ∀ tr e v v' o, I tr e v v' → GRight v' o →
      ARight v' o (deskHandler w o e).1 ∧
        I (tr ++ [(false, e, o)]) (deskHandler w o e).2 v (viewR v' o (deskHandler w o e).1))
    {v : V} {v' : W} (hp : Prog.Obeys viewL ALeft GLeft ΦL v (p.body d.card))
    (hq : ∀ c', Similar d.card c' → Prog.Obeys viewR ARight GRight ΦR v' (q.body c'))
    (hI : I [(true, d, .get d.card.cardKey)] ⟨d.card, d.steps + 1⟩ v v')
    (hread : ∀ tr e u, I tr e u v' →
      I (tr ++ [(false, e, .get d.card.cardKey)]) ⟨e.card, e.steps + 1⟩ u v')
    (n : Nat) (rest : List Bool)
    (hbusy : (Pool.run (deskHandler w) (pressPool p q d)
      (List.replicate (n + 1) true)).next? true ≠ none) :
    let schedule := List.replicate (n + 1) true ++ false :: rest
    ∃ u u', Prog.Obeys viewL ALeft GLeft ΦL u
        (Pool.run (deskHandler w) (pressPool p q d) schedule).left ∧
      Prog.Obeys viewR ARight GRight ΦR u'
        (Pool.run (deskHandler w) (pressPool p q d) schedule).right ∧
      I (Pool.trace (deskHandler w) (pressPool p q d) schedule)
        (Pool.run (deskHandler w) (pressPool p q d) schedule).shared u u' := by
  intro schedule
  have hschedule : schedule = true :: (List.replicate n true ++ false :: rest) := by
    simp only [schedule, List.replicate_succ, List.cons_append]
  obtain ⟨hrun, htrace⟩ := run_pressPool_left w p q d (List.replicate n true ++ false :: rest)
  rw [List.replicate_succ, (run_pressPool_left w p q d _).1] at hbusy
  rw [hschedule, hrun, htrace, Pool.run_append, Pool.trace_append]
  -- the left request alone
  have hright' := Pool.right_of_left (deskHandler w) (p.body d.card) (q.program d.card.cardKey)
    ⟨d.card, d.steps + 1⟩ n
  obtain ⟨u, hobeys, hinv⟩ := Pool.obeys_left (deskHandler w)
    (fun tr e v o hi hg ↦ hleft tr e v v' o hi hg) n (p.body d.card)
    (q.program d.card.cardKey) ⟨d.card, d.steps + 1⟩ _ v hp hI
  have hguard := fun o ↦ Pool.guard_of_left (deskHandler w) (similar_alone w p d.card (d.steps + 1))
    (q.program d.card.cardKey) n (o := o)
  generalize Pool.run (deskHandler w)
    (⟨p.body d.card, q.program d.card.cardKey, ⟨d.card, d.steps + 1⟩⟩ :
      Pool IntakeOp IntakeOp.Res Unit Unit Desk) (List.replicate n true) = cfg at *
  obtain ⟨left, right, e⟩ := cfg
  obtain rfl : right = q.program d.card.cardKey := hright'
  have hsim : Similar d.card e.card := by
    obtain ⟨o, ho⟩ := Option.ne_none_iff_exists'.mp hbusy
    exact hguard o ho
  -- the right request reads
  have hstep : Pool.step (deskHandler w) ⟨left, q.program d.card.cardKey, e⟩ false =
      ⟨left, q.body e.card, ⟨e.card, e.steps + 1⟩⟩ := by
    have hget := deskHandler_get w e
    rw [hsim.cardKey] at hget
    simp only [Pool.step, Press.program, Prog.perform_bind, hget]
  have hreadTrace : Pool.trace (deskHandler w) ⟨left, q.program d.card.cardKey, e⟩ (false :: rest) =
      (false, e, .get d.card.cardKey) ::
        Pool.trace (deskHandler w) ⟨left, q.body e.card, ⟨e.card, e.steps + 1⟩⟩ rest := by
    rw [Pool.trace, hstep]
    rfl
  obtain ⟨u₂, u₂', hl, hr, hend⟩ := Pool.obeys_run (deskHandler w) hleft hright rest
    ⟨left, q.body e.card, ⟨e.card, e.steps + 1⟩⟩ _ u v' hobeys (hq e.card hsim)
    (hread _ e u hinv)
  rw [Pool.run_cons, hstep, hreadTrace]
  refine ⟨u₂, u₂', hl, hr, ?_⟩
  simpa using hend

end

/-- A stage that a request would send is not in flight. -/
theorem not_dispatched_of_target {p : Press} {c : Card} {s : Stage} (h : p.target c = some s) :
    stageStatus c s ≠ some .dispatched := by
  obtain ⟨env, kind⟩ := p
  cases kind with
  | dispatchStage t =>
    simp only [Press.target] at h
    split at h
    · next hs =>
      obtain rfl := Option.some.inj h
      exact not_dispatched_of_sendable hs
    · exact absurd h (by simp)
  | dispatchCard =>
    simp only [Press.target] at h
    split at h
    · exact absurd h (by simp)
    · next hs =>
      obtain rfl := Option.some.inj h
      exact fun hd ↦ hs (Or.inl hd)
  | startSequence =>
    simp only [Press.target] at h
    split at h
    · exact absurd h (by simp)
    · next hs => exact fun hd ↦ hs (Or.inr ⟨s, hd⟩)

/-- Only a request that found a join key would send the test stage, and a card request never
does. -/
theorem joined_of_target_test {p : Press} {c : Card} (h : p.target c = some .test) :
    truthy c.correlationKey = true := by
  obtain ⟨env, kind⟩ := p
  have hsend : Sendable env c .test → truthy c.correlationKey = true := fun hs ↦
    (((sendable_iff env c .test).mp hs).2.2.1 rfl).1
  cases kind with
  | dispatchStage t =>
    simp only [Press.target] at h
    split at h
    · next hs =>
      obtain rfl := Option.some.inj h
      exact hsend hs
    · exact absurd h (by simp)
  | dispatchCard =>
    simp only [Press.target] at h
    split at h
    · exact absurd h (by simp)
    · unfold defaultStage at h
      split at h <;> exact absurd h (by simp)
  | startSequence =>
    simp only [Press.target] at h
    split at h
    · exact absurd h (by simp)
    · exact hsend (by simpa using (Option.filter_eq_some_iff.mp h).2)

/-! ### Two starts without a join key -/

/-- An update is answered with a card that has no join key. -/
def NotJoined (_ : Unit) : (o : IntakeOp) → IntakeOp.Res o → Prop
  | .update _ _, r => ∃ card, r = some card ∧ truthy card.correlationKey = false
  | _, _ => True

/-- Only the given card is updated, and it is given no join key. -/
def QueueOp (key : String) (_ : Unit) : IntakeOp → Prop
  | .update k ch => k = key ∧ ch.correlationKey = none
  | _ => False

/-- A start that owes the test stage first sends nothing while there is no join key. -/
theorem obeys_start_unjoined {c c' : Card} (env : IntakeEnv) (hs : Similar c c')
    (hhead : (owedStages c).head? = some .test) :
    Prog.Obeys (fun (v : Unit) _ _ ↦ v) NotJoined (QueueOp c.cardKey) (fun _ _ ↦ True) ()
      ((⟨env, .startSequence⟩ : Press).body c') := by
  rcases body_startSequence env c' with ⟨-, hr⟩ | ⟨-, first, rest, howed, hr⟩
  · rw [hr]
    trivial
  · rw [hr]
    rw [← hs.owedStages, howed, List.head?_cons] at hhead
    obtain rfl := Option.some.inj hhead
    refine ⟨⟨hs.cardKey, rfl⟩, ?_⟩
    rintro r ⟨card, rfl, hj⟩
    have hno : ¬ Sendable env card .test := by
      intro h
      have := (((sendable_iff env card .test).mp h).2.2.1 rfl).1
      rw [hj] at this
      exact absurd this (by simp)
    simp only [Option.getD_some, trySending, if_neg hno]
    trivial

/-- Overlapping starts that both owe the test stage first send nothing while there is no join
key. -/
theorem overlap_starts_unjoined (w : World) (env env' : IntakeEnv) (d : Desk)
    (hhead : (owedStages d.card).head? = some .test)
    (hj : truthy d.card.correlationKey = false) (n : Nat) (rest : List Bool)
    (hbusy : (Pool.run (deskHandler w)
      (pressPool ⟨env, .startSequence⟩ ⟨env', .startSequence⟩ d)
      (List.replicate (n + 1) true)).next? true ≠ none) :
    sideSends true (Pool.trace (deskHandler w)
      (pressPool ⟨env, .startSequence⟩ ⟨env', .startSequence⟩ d)
      (List.replicate (n + 1) true ++ false :: rest)) = [] := by
  have hkeep : ∀ (side : Bool) (tr : List (Bool × Desk × IntakeOp)) (e : Desk) (o : IntakeOp),
      sideSends true tr = [] ∧ truthy e.card.correlationKey = false ∧
        e.card.cardKey = d.card.cardKey → QueueOp d.card.cardKey () o →
      NotJoined () o (deskHandler w o e).1 ∧
        sideSends true (tr ++ [(side, e, o)]) = [] ∧
        truthy (deskHandler w o e).2.card.correlationKey = false ∧
        (deskHandler w o e).2.card.cardKey = d.card.cardKey := by
    rintro side tr e o ⟨hnone, hj, hkey⟩ ho
    cases o with
    | update key ch =>
      obtain ⟨hk, hch⟩ := ho
      rw [hk, ← hkey, deskHandler_update]
      have hj' : truthy (ch.apply (w.clock e.steps) e.card).correlationKey = false := by
        rw [correlationKey_apply, hch]
        exact hj
      refine ⟨⟨_, rfl, hj'⟩, ?_, hj', rfl⟩
      rw [sideSends_snoc true side tr e (.update e.card.cardKey ch) none, hnone]
      split <;> rfl
    | _ => exact ho.elim
  obtain ⟨-, -, -, -, hend, -⟩ := overlap_rule w ⟨env, .startSequence⟩ ⟨env', .startSequence⟩ d
    (fun tr e _ _ o hi hg ↦ hkeep true tr e o hi hg)
    (fun tr e _ _ o hi hg ↦ hkeep false tr e o hi hg)
    (obeys_start_unjoined env (Similar.refl d.card) hhead)
    (fun c' hs ↦ obeys_start_unjoined env' hs hhead)
    ⟨by simp [sideSends, requests], hj, rfl⟩
    (fun tr e _ hi ↦ by
      refine ⟨?_, hi.2⟩
      rw [sideSends_snoc true false tr e (.get d.card.cardKey) none]
      exact hi.1)
    n rest hbusy
  exact hend

/-! ### When a double press is one dispatch -/

/-- The operations of an interleaving, whoever performed them. -/
def operations (tr : List (Bool × Desk × IntakeOp)) : List (Desk × IntakeOp) :=
  tr.map fun x ↦ x.2

/-- The stage one request sends when the other overlaps it. -/
theorem overlap_sends (w : World) (p q : Press) (d : Desk) (n : Nat) (rest : List Bool)
    (hbusy : (Pool.run (deskHandler w) (pressPool p q d)
      (List.replicate (n + 1) true)).next? true ≠ none)
    (hfin : (Pool.run (deskHandler w) (pressPool p q d)
      (List.replicate (n + 1) true ++ false :: rest)).Finished) :
    SentTarget p d.card (sideSends true (Pool.trace (deskHandler w) (pressPool p q d)
        (List.replicate (n + 1) true ++ false :: rest))) ∧
      SentTarget q d.card (sideSends false (Pool.trace (deskHandler w) (pressPool p q d)
        (List.replicate (n + 1) true ++ false :: rest))) := by
  have hstep : ∀ (side : Bool) (tr : List (Bool × Desk × IntakeOp)) (e : Desk)
      (v v' : List Stage) (o : IntakeOp),
      (v = sideSends side tr ∧ v' = sideSends (!side) tr) ∧ Kept d.card e.card →
      PressOp d.card v o →
      Answered d.card v o (deskHandler w o e).1 ∧
        (sentSoFar v o (deskHandler w o e).1 = sideSends side (tr ++ [(side, e, o)]) ∧
          v' = sideSends (!side) (tr ++ [(side, e, o)])) ∧
        Kept d.card (deskHandler w o e).2.card := by
    rintro side tr e v v' o ⟨⟨rfl, rfl⟩, hk⟩ ho
    obtain ⟨hans, hkept⟩ := answered_desk w d.card _ o e hk ho
    refine ⟨hans, ⟨?_, ?_⟩, hkept⟩
    · rw [sideSends_snoc side side tr e o (deskHandler w o e).1, if_pos rfl]
    · rw [sideSends_snoc (!side) side tr e o (deskHandler w o e).1, if_neg (by simp)]
  obtain ⟨u, u', hl, hr, ⟨hu, hu'⟩, -⟩ := overlap_rule w p q d
    (fun tr e v v' o hi hg ↦ hstep true tr e v v' o hi hg)
    (fun tr e v v' o hi hg ↦ by
      obtain ⟨hans, ⟨hv', hv⟩, hk⟩ := hstep false tr e v' v o ⟨hi.1.symm, hi.2⟩ hg
      exact ⟨hans, ⟨hv, hv'⟩, hk⟩)
    (obeys_body p (Similar.refl d.card)) (fun c' hs ↦ obeys_body q hs)
    ⟨⟨by simp [sideSends, requests], by simp [sideSends]⟩, (Similar.refl d.card).kept⟩
    (fun tr e v hi ↦ by
      obtain ⟨⟨hv, hv'⟩, hk⟩ := hi
      refine ⟨⟨?_, ?_⟩, hk⟩
      · rw [sideSends_snoc true false tr e (.get d.card.cardKey) none]
        exact hv
      · rw [Bool.not_true, sideSends_snoc false false tr e (.get d.card.cardKey) none]
        exact hv')
    n rest hbusy
  have hpromise := Pool.promise_of_finished hl (hfin true)
  have hpromise' := Pool.promise_of_finished hr (hfin false)
  rw [hu] at hpromise
  rw [hu'] at hpromise'
  exact ⟨hpromise, hpromise'⟩

/-- A request sends one stage at most. -/
theorem SentTarget.length_le {p : Press} {c : Card} {v : List Stage} (h : SentTarget p c v) :
    v.length ≤ 1 := by
  rcases h with rfl | ⟨-, -, -, -, -, rfl⟩
  · cases p.target c <;> simp
  · simp

/-- A request does not send a stage that was in flight when it read the card. -/
theorem SentTarget.not_dispatched {p : Press} {c : Card} {v : List Stage} {s : Stage}
    (h : SentTarget p c v) (hs : s ∈ v) : stageStatus c s ≠ some .dispatched := by
  rcases h with rfl | ⟨-, -, -, -, hflight, rfl⟩
  · exact not_dispatched_of_target (by simpa using hs)
  · exact fun hd ↦ hflight ⟨s, hd⟩

/-- Overlapping requests send one stage twice exactly if it is the target of both. -/
theorem overlap_same_iff (w : World) (p q : Press) (d : Desk) (n : Nat) (rest : List Bool)
    (hbusy : (Pool.run (deskHandler w) (pressPool p q d)
      (List.replicate (n + 1) true)).next? true ≠ none)
    (hfin : (Pool.run (deskHandler w) (pressPool p q d)
      (List.replicate (n + 1) true ++ false :: rest)).Finished) :
    let tr := Pool.trace (deskHandler w) (pressPool p q d)
      (List.replicate (n + 1) true ++ false :: rest)
    (∃ s, sideSends true tr = [s] ∧ sideSends false tr = [s]) ↔
      ∃ s, p.target d.card = some s ∧ q.target d.card = some s := by
  intro tr
  obtain ⟨hp, hq⟩ := overlap_sends w p q d n rest hbusy hfin
  have hstarts : ∀ env env' : IntakeEnv, p = ⟨env, .startSequence⟩ → q = ⟨env', .startSequence⟩ →
      (owedStages d.card).head? = some .test → truthy d.card.correlationKey = false →
      sideSends true tr = [] := by
    rintro env env' rfl rfl hhead hj
    exact overlap_starts_unjoined w env env' d hhead hj n rest hbusy
  constructor
  · rintro ⟨s, hs, hs'⟩
    change sideSends true tr = [s] at hs
    rw [show sideSends true (Pool.trace (deskHandler w) (pressPool p q d)
      (List.replicate (n + 1) true ++ false :: rest)) = [s] from hs] at hp
    rw [show sideSends false (Pool.trace (deskHandler w) (pressPool p q d)
      (List.replicate (n + 1) true ++ false :: rest)) = [s] from hs'] at hq
    have htoList : ∀ {t : Option Stage}, [s] = t.toList → t = some s := by
      intro t ht
      cases t with
      | none => exact absurd ht (by simp)
      | some x =>
        have := (List.cons.inj ht).1
        rw [this]
    rcases hp with hp | ⟨hkind, -, hj, hhead, -, hp⟩
    · rcases hq with hq | ⟨-, -, hj, -, -, hq⟩
      · exact ⟨s, htoList hp, htoList hq⟩
      · obtain rfl := (List.cons.inj hq).1
        exact absurd ((joined_of_target_test (htoList hp)).symm.trans hj) (by simp)
    · obtain rfl := (List.cons.inj hp).1
      rcases hq with hq | ⟨hkind', -, -, -, -, -⟩
      · exact absurd ((joined_of_target_test (htoList hq)).symm.trans hj) (by simp)
      · obtain ⟨env, kind⟩ := p
        obtain ⟨env', kind'⟩ := q
        have hkind : kind = .startSequence := hkind
        have hkind' : kind' = .startSequence := hkind'
        subst hkind hkind'
        rw [hstarts env env' rfl rfl hhead hj] at hs
        exact absurd hs (by simp)
  · rintro ⟨s, hs, hs'⟩
    refine ⟨s, ?_, ?_⟩
    · rcases hp with hp | ⟨-, hnone, -⟩
      · rw [hs] at hp
        exact hp
      · exact absurd (hs.symm.trans hnone) (by simp)
    · rcases hq with hq | ⟨-, hnone, -⟩
      · rw [hs'] at hq
        exact hq
      · exact absurd (hs'.symm.trans hnone) (by simp)

/-- The case where the left request reads the card first. -/
theorem oneDispatch_left_iff (w : World) (p q : Press) (d : Desk) (n : Nat) (rest : List Bool)
    (hfin : (Pool.run (deskHandler w) (pressPool p q d)
      (List.replicate (n + 1) true ++ false :: rest)).Finished) :
    let schedule := List.replicate (n + 1) true ++ false :: rest
    let ops := operations (Pool.trace (deskHandler w) (pressPool p q d) schedule)
    OneDispatch w d.card ops ↔
      ¬ (Pool.Overlaps (deskHandler w) (pressPool p q d) schedule ∧
        (∃ s, p.target d.card = some s ∧ q.target d.card = some s) ∧ FirstAccepted w ops) := by
  intro schedule ops
  rw [Pool.overlaps_left_iff]
  by_cases hbusy : (Pool.run (deskHandler w) (pressPool p q d)
      (List.replicate (n + 1) true)).next? true = none
  · -- the left request has returned before the right one reads
    refine ⟨fun _ h ↦ h.1 hbusy, fun _ ↦ ?_⟩
    have hops : ops = Prog.trace (deskHandler w) (p.program d.card.cardKey) d ++
        Prog.trace (deskHandler w) (q.program d.card.cardKey)
          (Prog.run (deskHandler w) (p.program d.card.cardKey) d).2 := by
      have hright := Pool.right_of_left (deskHandler w) (p.program d.card.cardKey)
        (q.program d.card.cardKey) d (n + 1)
      have htrace := Pool.trace_left (deskHandler w) (p.program d.card.cardKey)
        (q.program d.card.cardKey) d (n + 1)
      have hrun := Pool.run_of_left (deskHandler w) (p.program d.card.cardKey)
        (q.program d.card.cardKey) d (n + 1)
      have hdone := hfin false
      rw [Pool.run_append] at hdone
      simp only [ops, operations, schedule, Pool.trace_append, List.map_append]
      unfold pressPool at *
      generalize Pool.run (deskHandler w)
        (⟨p.program d.card.cardKey, q.program d.card.cardKey, d⟩ :
          Pool IntakeOp IntakeOp.Res Unit Unit Desk) (List.replicate (n + 1) true) = cfg at *
      obtain ⟨left, right, e⟩ := cfg
      cases left with
      | op o next => exact absurd hbusy (by simp [Pool.next?, Prog.next?])
      | pure a =>
        have hright : right = q.program d.card.cardKey := hright
        subst hright
        rw [htrace, hrun, Pool.trace_right_alone (deskHandler w) a _ e _ hdone]
        simp [Prog.trace, Prog.run]
    rw [hops]
    exact oneDispatch_serial w p q d
  · obtain ⟨hp, hq⟩ := overlap_sends w p q d n rest hbusy hfin
    have honce := once_iff w hp.length_le hq.length_le
    have hsame := overlap_same_iff w p q d n rest hbusy hfin
    simp only at hsame
    rw [hsame] at honce
    constructor
    · rintro ⟨h, -⟩ ⟨-, hsame, hfirst⟩
      exact honce.mp h ⟨hsame, hfirst⟩
    · intro h
      refine ⟨honce.mpr fun hc ↦ h ⟨hbusy, hc.1, hc.2⟩, ?_⟩
      intro s hd x hx hs
      obtain ⟨y, hy, rfl⟩ := List.mem_map.mp hx
      rcases hside : y.1 with _ | _
      · exact hq.not_dispatched (mem_sideSends.mpr ⟨y, hy, hside, hs⟩) hd
      · exact hp.not_dispatched (mem_sideSends.mpr ⟨y, hy, hside, hs⟩) hd

/-- A request that has not read its card has not returned. -/
theorem program_not_done (p : Press) (key : String) : (p.program key).next? ≠ none := by
  rw [Press.program, Prog.perform_bind]
  exact Option.some_ne_none _

/-- The case of a schedule that picks the left request first. -/
theorem oneDispatch_cons_iff (w : World) (p q : Press) (d : Desk) (rest : List Bool)
    (hfin : (Pool.run (deskHandler w) (pressPool p q d) (true :: rest)).Finished) :
    OneDispatch w d.card
        (operations (Pool.trace (deskHandler w) (pressPool p q d) (true :: rest))) ↔
      ¬ (Pool.Overlaps (deskHandler w) (pressPool p q d) (true :: rest) ∧
        (∃ s, p.target d.card = some s ∧ q.target d.card = some s) ∧
        FirstAccepted w
          (operations (Pool.trace (deskHandler w) (pressPool p q d) (true :: rest)))) := by
  obtain ⟨n, hn | ⟨rest', hn⟩⟩ := Pool.leading_left rest
  · have hright := Pool.right_of_left (deskHandler w) (p.program d.card.cardKey)
      (q.program d.card.cardKey) d (n + 1)
    have hdone := hfin false
    rw [hn, Pool.next?] at hdone
    rw [pressPool, hright] at hdone
    exact absurd hdone (program_not_done q d.card.cardKey)
  · rw [hn] at hfin ⊢
    exact oneDispatch_left_iff w p q d n rest' hfin

/-- Two requests on one card, under any schedule on which both return, are one dispatch
exactly unless all of these hold: the second request reads the card before the first has
returned, both decide on the same stage, and the first send is accepted. -/
theorem oneDispatch_iff (w : World) (p q : Press) (d : Desk) (schedule : List Bool)
    (hfin : (Pool.run (deskHandler w) (pressPool p q d) schedule).Finished) :
    OneDispatch w d.card
        (operations (Pool.trace (deskHandler w) (pressPool p q d) schedule)) ↔
      ¬ (Pool.Overlaps (deskHandler w) (pressPool p q d) schedule ∧
        (∃ s, p.target d.card = some s ∧ q.target d.card = some s) ∧
        FirstAccepted w
          (operations (Pool.trace (deskHandler w) (pressPool p q d) schedule))) := by
  cases schedule with
  | nil => exact absurd (hfin true) (program_not_done p d.card.cardKey)
  | cons side rest =>
    cases side with
    | true => exact oneDispatch_cons_iff w p q d rest hfin
    | false =>
      have hswap : pressPool p q d = (pressPool q p d).swap := rfl
      have hrun := Pool.run_swap (deskHandler w) (pressPool q p d) (false :: rest)
      have htrace := Pool.trace_swap (deskHandler w) (pressPool q p d) (false :: rest)
      have hoverlap := Pool.overlaps_swap (deskHandler w) (pressPool q p d) (false :: rest)
      rw [← hswap] at hrun htrace hoverlap
      have hfin' : (Pool.run (deskHandler w) (pressPool q p d)
          (true :: rest.map not)).Finished := by
        intro side
        have := hfin (!side)
        rw [hrun, Pool.next_swap, Bool.not_not] at this
        exact this
      have hops : operations (Pool.trace (deskHandler w) (pressPool p q d) (false :: rest)) =
          operations (Pool.trace (deskHandler w) (pressPool q p d) (true :: rest.map not)) := by
        rw [htrace, operations, operations, List.map_map]
        rfl
      have hsame : (∃ s, p.target d.card = some s ∧ q.target d.card = some s) ↔
          ∃ s, q.target d.card = some s ∧ p.target d.card = some s :=
        exists_congr fun _ ↦ And.comm
      rw [hops, hoverlap, hsame]
      exact oneDispatch_cons_iff w q p d (rest.map not) hfin'

/-! ### The plan button pressed twice -/

/-- A card with a tier and nothing recorded. -/
def readyCard : Card :=
  { cardKey := "C-1", title := "Add a health check", tier := some .medium, status := .ready }

/-- The request behind the plan button. -/
def planPress : Press := ⟨{}, .dispatchStage .plan⟩

/-- Two presses one after the other meet the condition, and are one dispatch. -/
theorem planPress_serial :
    (Pool.run (deskHandler acceptingWorld) (pressPool planPress planPress ⟨readyCard, 0⟩)
      [true, true, true, false]).Finished ∧
    (OneDispatch acceptingWorld readyCard (operations (Pool.trace (deskHandler acceptingWorld)
        (pressPool planPress planPress ⟨readyCard, 0⟩) [true, true, true, false])) ↔
      ¬ (Pool.Overlaps (deskHandler acceptingWorld)
          (pressPool planPress planPress ⟨readyCard, 0⟩) [true, true, true, false] ∧
        (∃ s, planPress.target readyCard = some s ∧ planPress.target readyCard = some s) ∧
        FirstAccepted acceptingWorld (operations (Pool.trace (deskHandler acceptingWorld)
          (pressPool planPress planPress ⟨readyCard, 0⟩) [true, true, true, false])))) := by
  have hfin : (Pool.run (deskHandler acceptingWorld)
      (pressPool planPress planPress ⟨readyCard, 0⟩) [true, true, true, false]).Finished := by
    intro side
    cases side <;> rfl
  exact ⟨hfin, oneDispatch_iff acceptingWorld planPress planPress ⟨readyCard, 0⟩
    [true, true, true, false] hfin⟩

/-- Both presses read the card before either is recorded, and the plan is sent twice, the
first time accepted. -/
theorem planPress_twice :
    (Pool.run (deskHandler acceptingWorld) (pressPool planPress planPress ⟨readyCard, 0⟩)
      [true, false, true, true, false, false]).Finished ∧
    ¬ OneDispatch acceptingWorld readyCard (operations (Pool.trace (deskHandler acceptingWorld)
      (pressPool planPress planPress ⟨readyCard, 0⟩) [true, false, true, true, false, false])) := by
  constructor
  · intro side
    cases side <;> rfl
  · intro h
    have hpair := List.pairwise_iff_getElem.mp h.once 2 4 (by decide) (by decide) (by decide)
    exact hpair .plan ⟨.pfactory, _, rfl, rfl⟩ rfl ⟨.pfactory, _, rfl, rfl⟩

end CFactory.Intake
