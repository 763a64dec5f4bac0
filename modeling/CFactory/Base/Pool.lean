import CFactory.Base.Prog

/-!
# Two programs on one state

Interleavings of two programs, operation by operation, under an arbitrary schedule. A rule
of parallel composition carries what each side obeys on its own over to the whole run, and
`Overlaps` says when the second side starts before the first has returned.
-/

namespace CFactory.Base

universe u

/-- Two programs under way on a shared state. -/
structure Pool (Op : Type) (Res : Op → Type) (α β : Type) (σ : Type u) where
  left : Prog Op Res α
  right : Prog Op Res β
  shared : σ

/-- The first operation of a program that has not returned. -/
def Prog.next? {Op : Type} {Res : Op → Type} {α : Type} : Prog Op Res α → Option Op
  | .pure _ => none
  | .op o _ => some o

namespace Pool

variable {Op : Type} {Res : Op → Type} {α β : Type} {σ : Type u} (h : Handler Op Res σ)

/-- Let one side (`true` is the left) perform its next operation; a finished side stays. -/
def step (c : Pool Op Res α β σ) : Bool → Pool Op Res α β σ
  | true =>
    match c.left with
    | .pure _ => c
    | .op o next => ⟨next (h o c.shared).1, c.right, (h o c.shared).2⟩
  | false =>
    match c.right with
    | .pure _ => c
    | .op o next => ⟨c.left, next (h o c.shared).1, (h o c.shared).2⟩

/-- Follow a schedule of sides. -/
def run (c : Pool Op Res α β σ) (schedule : List Bool) : Pool Op Res α β σ :=
  schedule.foldl (step h) c

/-- The operation a side performs next. -/
def next? (c : Pool Op Res α β σ) : Bool → Option Op
  | true => c.left.next?
  | false => c.right.next?

/-- The operations performed along a schedule, each with its side and the state it met. -/
def trace (c : Pool Op Res α β σ) : List Bool → List (Bool × σ × Op)
  | [] => []
  | side :: rest =>
    match c.next? side with
    | none => trace (step h c side) rest
    | some o => (side, c.shared, o) :: trace (step h c side) rest

/-- Both sides have returned. -/
def Finished (c : Pool Op Res α β σ) : Prop := ∀ side, c.next? side = none

/-- The second side starts before the first has returned. -/
def Overlaps (c : Pool Op Res α β σ) (schedule : List Bool) : Prop :=
  ∃ side n rest, schedule = List.replicate (n + 1) side ++ (!side) :: rest ∧
    (run h c (List.replicate (n + 1) side)).next? side ≠ none

@[simp] theorem run_nil (c : Pool Op Res α β σ) : run h c [] = c := rfl

@[simp] theorem run_cons (c : Pool Op Res α β σ) (side : Bool) (rest : List Bool) :
    run h c (side :: rest) = run h (step h c side) rest := rfl

/-- A concatenated schedule runs its parts in order. -/
theorem run_append (c : Pool Op Res α β σ) (xs ys : List Bool) :
    run h c (xs ++ ys) = run h (run h c xs) ys := List.foldl_append

/-- The operations of a concatenated schedule. -/
theorem trace_append (c : Pool Op Res α β σ) (xs ys : List Bool) :
    trace h c (xs ++ ys) = trace h c xs ++ trace h (run h c xs) ys := by
  induction xs generalizing c with
  | nil => rfl
  | cons side rest ih =>
    simp only [List.cons_append, trace, run_cons]
    split
    · exact ih _
    · rw [ih, List.cons_append]

/-- A schedule that picks the left side first, up to the first pick of the right one. -/
theorem leading_left (rest : List Bool) :
    ∃ n, true :: rest = List.replicate (n + 1) true ∨
      ∃ rest', true :: rest = List.replicate (n + 1) true ++ false :: rest' := by
  induction rest with
  | nil => exact ⟨0, Or.inl rfl⟩
  | cons side rest ih =>
    cases side with
    | false => exact ⟨0, Or.inr ⟨rest, rfl⟩⟩
    | true =>
      obtain ⟨n, hn | ⟨rest', hn⟩⟩ := ih
      · exact ⟨n + 1, Or.inl (by rw [hn]; rfl)⟩
      · exact ⟨n + 1, Or.inr ⟨rest', by rw [hn]; rfl⟩⟩

private theorem leading_unique {n m : Nat} {xs ys : List Bool}
    (h : List.replicate n true ++ false :: xs = List.replicate m true ++ false :: ys) :
    n = m := by
  induction n generalizing m with
  | zero =>
    cases m with
    | zero => rfl
    | succ m => simp [List.replicate_succ] at h
  | succ n ih =>
    cases m with
    | zero => simp [List.replicate_succ] at h
    | succ m =>
      simp only [List.replicate_succ, List.cons_append, List.cons.injEq, true_and] at h
      rw [ih h]

/-- With the left side picked first, the sides overlap if it has not returned when the right
one is first picked. -/
theorem overlaps_left_iff (c : Pool Op Res α β σ) (n : Nat) (rest : List Bool) :
    Overlaps h c (List.replicate (n + 1) true ++ false :: rest) ↔
      (run h c (List.replicate (n + 1) true)).next? true ≠ none := by
  constructor
  · rintro ⟨side, m, rest', hs, hb⟩
    cases side with
    | false =>
      rw [List.replicate_succ, List.replicate_succ, List.cons_append, List.cons_append] at hs
      exact absurd (List.cons.inj hs).1 (by simp)
    | true =>
      have hnm := leading_unique hs
      rwa [hnm]
  · intro hb
    exact ⟨true, n, rest, rfl, hb⟩

/-! ### Exchanging the sides -/

/-- The pool with its sides exchanged. -/
def swap (c : Pool Op Res α β σ) : Pool Op Res β α σ := ⟨c.right, c.left, c.shared⟩

@[simp] theorem next_swap (c : Pool Op Res α β σ) (side : Bool) :
    c.swap.next? side = c.next? (!side) := by
  cases side <;> rfl

/-- Exchanging the sides exchanges the picks of a step. -/
theorem step_swap (c : Pool Op Res α β σ) (side : Bool) :
    step h c.swap side = (step h c (!side)).swap := by
  rcases c with ⟨l, r, s⟩
  cases side with
  | true => cases r <;> rfl
  | false => cases l <;> rfl

/-- Exchanging the sides exchanges the picks of a schedule. -/
theorem run_swap (c : Pool Op Res α β σ) (schedule : List Bool) :
    run h c.swap schedule = (run h c (schedule.map not)).swap := by
  induction schedule generalizing c with
  | nil => rfl
  | cons side rest ih => rw [run_cons, step_swap, ih, List.map_cons, run_cons]

/-- Exchanging the sides relabels the operations. -/
theorem trace_swap (c : Pool Op Res α β σ) (schedule : List Bool) :
    trace h c.swap schedule =
      (trace h c (schedule.map not)).map fun x ↦ (!x.1, x.2) := by
  induction schedule generalizing c with
  | nil => rfl
  | cons side rest ih =>
    simp only [List.map_cons, trace, next_swap, step_swap, ih]
    cases c.next? (!side) with
    | none => rfl
    | some o =>
      rw [List.map_cons, Bool.not_not]
      rfl

/-- Overlapping does not depend on which side is which. -/
theorem overlaps_swap (c : Pool Op Res α β σ) (schedule : List Bool) :
    Overlaps h c.swap schedule ↔ Overlaps h c (schedule.map not) := by
  constructor
  · rintro ⟨side, n, rest, hs, hb⟩
    refine ⟨!side, n, rest.map not, ?_, ?_⟩
    · rw [hs, List.map_append, List.map_replicate, List.map_cons]
    · rw [run_swap, next_swap, List.map_replicate] at hb
      exact hb
  · rintro ⟨side, n, rest, hs, hb⟩
    refine ⟨!side, n, rest.map not, ?_, ?_⟩
    · have := congrArg (List.map not) hs
      simpa [Function.comp_def] using this
    · rw [run_swap, next_swap, List.map_replicate]
      simpa using hb

/-! ### One side alone -/

/-- While one side alone is picked, the other stays as it is. -/
theorem right_of_left (p : Prog Op Res α) (q : Prog Op Res β) (s : σ) (n : Nat) :
    (run h ⟨p, q, s⟩ (List.replicate n true)).right = q := by
  induction n generalizing p s with
  | zero => rfl
  | succ n ih =>
    rw [List.replicate_succ, run_cons]
    cases p with
    | pure a => exact ih (.pure a) s
    | op o next => exact ih (next (h o s).1) (h o s).2

/-- Once the left side has returned, the right one runs on as it would alone. -/
theorem trace_right_alone (a : α) (q : Prog Op Res β) (s : σ) (schedule : List Bool)
    (hq : (run h ⟨.pure a, q, s⟩ schedule : Pool Op Res α β σ).next? false = none) :
    ((trace h (⟨.pure a, q, s⟩ : Pool Op Res α β σ) schedule).map fun x ↦ x.2) =
      Prog.trace h q s := by
  induction schedule generalizing q s with
  | nil =>
    cases q with
    | pure b => rfl
    | op o next => simp [next?, Prog.next?] at hq
  | cons side rest ih =>
    cases side with
    | true => exact ih q s hq
    | false =>
      cases q with
      | pure b => exact ih (.pure b) s hq
      | op o next => exact congrArg ((s, o) :: ·) (ih _ _ hq)

/-- Once the left side has returned, the right one ends where it would alone. -/
theorem run_right_alone (a : α) (q : Prog Op Res β) (s : σ) (schedule : List Bool)
    (hq : (run h ⟨.pure a, q, s⟩ schedule : Pool Op Res α β σ).next? false = none) :
    (run h (⟨.pure a, q, s⟩ : Pool Op Res α β σ) schedule).shared = (Prog.run h q s).2 := by
  induction schedule generalizing q s with
  | nil =>
    cases q with
    | pure b => rfl
    | op o next => simp [next?, Prog.next?] at hq
  | cons side rest ih =>
    cases side with
    | true => exact ih q s hq
    | false =>
      cases q with
      | pure b => exact ih (.pure b) s hq
      | op o next => exact ih _ _ hq

/-- Once the right side has returned, the left one ends where it would alone. -/
theorem run_left_alone (p : Prog Op Res α) (b : β) (s : σ) (schedule : List Bool)
    (hp : (run h ⟨p, .pure b, s⟩ schedule : Pool Op Res α β σ).next? true = none) :
    (run h (⟨p, .pure b, s⟩ : Pool Op Res α β σ) schedule).shared = (Prog.run h p s).2 := by
  have hswap : run h (⟨p, .pure b, s⟩ : Pool Op Res α β σ) schedule =
      (run h (⟨.pure b, p, s⟩ : Pool Op Res β α σ) (schedule.map not)).swap := by
    rw [← run_swap]
    rfl
  rw [hswap, next_swap] at hp
  rw [hswap]
  exact run_right_alone h b p s _ hp

/-- The operations of one side alone are the first ones of its run. -/
theorem trace_left (p : Prog Op Res α) (q : Prog Op Res β) (s : σ) (n : Nat) :
    Prog.trace h p s = ((trace h ⟨p, q, s⟩ (List.replicate n true)).map fun x ↦ x.2) ++
      Prog.trace h (run h ⟨p, q, s⟩ (List.replicate n true)).left
        (run h ⟨p, q, s⟩ (List.replicate n true)).shared := by
  induction n generalizing p s with
  | zero => rfl
  | succ n ih =>
    rw [List.replicate_succ, run_cons]
    cases p with
    | pure a => exact ih _ _
    | op o next => exact congrArg ((s, o) :: ·) (ih _ _)

/-- A side that is run on alone ends where its run does. -/
theorem run_of_left (p : Prog Op Res α) (q : Prog Op Res β) (s : σ) (n : Nat) :
    Prog.run h p s = Prog.run h (run h ⟨p, q, s⟩ (List.replicate n true)).left
      (run h ⟨p, q, s⟩ (List.replicate n true)).shared := by
  induction n generalizing p s with
  | zero => rfl
  | succ n ih =>
    rw [List.replicate_succ, run_cons]
    cases p with
    | pure a => exact ih _ _
    | op o next => exact ih (next (h o s).1) (h o s).2

/-- Along a guarded run, a side that has not returned is about to perform a guarded
operation. -/
theorem guard_of_left {G : σ → Op → Prop} {Q : α → σ → Prop} {p : Prog Op Res α} {s : σ}
    (hp : Prog.Safe h G Q p s) (q : Prog Op Res β) (n : Nat) {o : Op}
    (ho : (run h ⟨p, q, s⟩ (List.replicate n true)).next? true = some o) :
    G (run h ⟨p, q, s⟩ (List.replicate n true)).shared o := by
  induction n generalizing p s with
  | zero =>
    cases p with
    | pure a => simp [next?, Prog.next?] at ho
    | op o' next =>
      obtain rfl : o' = o := by simpa [next?, Prog.next?] using ho
      exact hp.1
  | succ n ih =>
    rw [List.replicate_succ, run_cons] at ho ⊢
    cases p with
    | pure a => exact ih hp ho
    | op o' next => exact ih hp.2 ho

/-- An obeying side that is run on alone keeps an invariant that its operations keep. -/
theorem obeys_left {V : Type} {view : V → (o : Op) → Res o → V}
    {A : V → (o : Op) → Res o → Prop} {G : V → Op → Prop} {Φ : α → V → Prop}
    {I : List (Bool × σ × Op) → σ → V → Prop}
    (hleft : ∀ tr s v o, I tr s v → G v o →
      A v o (h o s).1 ∧ I (tr ++ [(true, s, o)]) (h o s).2 (view v o (h o s).1))
    (n : Nat) (p : Prog Op Res α) (q : Prog Op Res β) (s : σ) (tr : List (Bool × σ × Op)) (v : V)
    (hp : Prog.Obeys view A G Φ v p) (hI : I tr s v) :
    ∃ u, Prog.Obeys view A G Φ u (run h ⟨p, q, s⟩ (List.replicate n true)).left ∧
      I (tr ++ trace h ⟨p, q, s⟩ (List.replicate n true))
        (run h ⟨p, q, s⟩ (List.replicate n true)).shared u := by
  induction n generalizing p s tr v with
  | zero => exact ⟨v, hp, by simpa [trace] using hI⟩
  | succ n ih =>
    rw [List.replicate_succ, run_cons]
    cases p with
    | pure a => exact ih (.pure a) s tr v hp hI
    | op o next =>
      obtain ⟨hans, hinv⟩ := hleft tr s v o hI hp.1
      have := ih (next (h o s).1) (h o s).2 _ _ (hp.2 _ hans) hinv
      simpa [trace, Pool.next?, Prog.next?, step] using this

/-! ### The rule of parallel composition -/

section
variable {V W : Type} {viewL : V → (o : Op) → Res o → V} {viewR : W → (o : Op) → Res o → W}
  {ALeft : V → (o : Op) → Res o → Prop} {ARight : W → (o : Op) → Res o → Prop}
  {GLeft : V → Op → Prop} {GRight : W → Op → Prop} {ΦL : α → V → Prop} {ΦR : β → W → Prop}
  {I : List (Bool × σ × Op) → σ → V → W → Prop}

/-- Where every guarded operation of either side is answered admissibly and keeps an
invariant of history, state and views, every interleaving of two obeying programs keeps
the invariant, and both still obey. -/
theorem obeys_run
    (hleft : ∀ tr s v v' o, I tr s v v' → GLeft v o →
      ALeft v o (h o s).1 ∧ I (tr ++ [(true, s, o)]) (h o s).2 (viewL v o (h o s).1) v')
    (hright : ∀ tr s v v' o, I tr s v v' → GRight v' o →
      ARight v' o (h o s).1 ∧ I (tr ++ [(false, s, o)]) (h o s).2 v (viewR v' o (h o s).1))
    (schedule : List Bool) (c : Pool Op Res α β σ) (tr : List (Bool × σ × Op)) (v : V) (v' : W)
    (hl : Prog.Obeys viewL ALeft GLeft ΦL v c.left)
    (hr : Prog.Obeys viewR ARight GRight ΦR v' c.right) (hI : I tr c.shared v v') :
    ∃ u u', Prog.Obeys viewL ALeft GLeft ΦL u (run h c schedule).left ∧
      Prog.Obeys viewR ARight GRight ΦR u' (run h c schedule).right ∧
      I (tr ++ trace h c schedule) (run h c schedule).shared u u' := by
  induction schedule generalizing c tr v v' with
  | nil => exact ⟨v, v', hl, hr, by simpa [trace] using hI⟩
  | cons side rest ih =>
    rcases c with ⟨l, r, s⟩
    cases side with
    | true =>
      cases l with
      | pure a => exact ih ⟨.pure a, r, s⟩ tr v v' hl hr hI
      | op o next =>
        obtain ⟨hans, hinv⟩ := hleft tr s v v' o hI hl.1
        have := ih ⟨next (h o s).1, r, (h o s).2⟩ _ _ v' (hl.2 _ hans) hr hinv
        simpa [trace, Pool.next?, Prog.next?, step] using this
    | false =>
      cases r with
      | pure b => exact ih ⟨l, .pure b, s⟩ tr v v' hl hr hI
      | op o next =>
        obtain ⟨hans, hinv⟩ := hright tr s v v' o hI hr.1
        have := ih ⟨l, next (h o s).1, (h o s).2⟩ _ v _ hl (hr.2 _ hans) hinv
        simpa [trace, Pool.next?, Prog.next?, step] using this

end

/-- A side that returned meets what it promised. -/
theorem promise_of_finished {V : Type} {view : V → (o : Op) → Res o → V}
    {A : V → (o : Op) → Res o → Prop} {G : V → Op → Prop} {Φ : V → Prop} {p : Prog Op Res α}
    {v : V} (hp : Prog.Obeys view A G (fun _ ↦ Φ) v p) (hf : p.next? = none) : Φ v := by
  cases p with
  | pure a => exact hp
  | op o next => simp [Prog.next?] at hf

end Pool

end CFactory.Base
