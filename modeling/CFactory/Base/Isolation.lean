import CFactory.Base.Prog
import Mathlib.Order.Basic

/-!
# Calls on a divided state

A state is divided into an owner's part and the rest. A call is apart if it leaves the rest as
it was, and answers and writes as it would on the owner's part alone. What is composed of such
calls is apart, and a program over them cannot tell two states with the same part of the
owner's. Nothing here names an application.
-/

namespace CFactory.Base

universe u v

/-- A call that returns or raises; what it wrote before it raised stays. -/
def Call (ε : Type) (σ : Type u) (α : Type) := σ → Except ε α × σ

/-- What an owner sees of a state, and the rest of it. -/
structure Division (σ : Type u) (ρ : Type v) where
  own : σ → σ
  rest : σ → ρ

namespace Call

variable {ε : Type} {σ : Type u} {α β : Type}

instance : Monad (Call ε σ) where
  pure a := fun s ↦ (.ok a, s)
  bind x f := fun s ↦
    match x s with
    | (.ok a, s') => f a s'
    | (.error e, s') => (.error e, s')

/-- Raise. -/
def raise (e : ε) : Call ε σ α := fun s ↦ (.error e, s)

/-- Run the handler where the call raises. -/
def catching (x : Call ε σ α) (handle : ε → Call ε σ α) : Call ε σ α := fun s ↦
  match x s with
  | (.ok a, s') => (.ok a, s')
  | (.error e, s') => handle e s'

/-- Answer from the state and write nothing. -/
def reads (f : σ → Except ε α) : Call ε σ α := fun s ↦ (f s, s)

/-- Return and write, or raise and write nothing. -/
def transact (f : σ → Except ε (α × σ)) : Call ε σ α := fun s ↦
  match f s with
  | .ok (a, s') => (.ok a, s')
  | .error e => (.error e, s)

/-- Write and return. -/
def writes (f : σ → α × σ) : Call ε σ α := fun s ↦ (.ok (f s).1, (f s).2)

/-- A call of a smaller error type. -/
def mapError {ε' : Type} (g : ε → ε') (x : Call ε σ α) : Call ε' σ α := fun s ↦
  ((x s).1.mapError g, (x s).2)

/-- A sequence goes on from where its first half returned. -/
theorem bind_of_ok {x : Call ε σ α} {f : α → Call ε σ β} {s t : σ} {a : α}
    (h : x s = (.ok a, t)) : (x >>= f) s = f a t := by
  simp only [Bind.bind, h]

/-- A sequence raises what its first half raised. -/
theorem bind_of_error {x : Call ε σ α} {f : α → Call ε σ β} {s t : σ} {e : ε}
    (h : x s = (.error e, t)) : (x >>= f) s = (.error e, t) := by
  simp only [Bind.bind, h]

/-- A transaction that returns has written. -/
theorem transact_of_ok {f : σ → Except ε (α × σ)} {s t : σ} {a : α} (h : f s = .ok (a, t)) :
    transact f s = (.ok a, t) := by
  rw [transact, h]

/-- A transaction that raises is rolled back. -/
theorem transact_of_error {f : σ → Except ε (α × σ)} {s : σ} {e : ε} (h : f s = .error e) :
    transact f s = (.error e, s) := by
  rw [transact, h]

/-- A sequence that returned did so in both halves. -/
theorem bind_ok {x : Call ε σ α} {f : α → Call ε σ β} {s t : σ} {b : β}
    (h : (x >>= f) s = (.ok b, t)) : ∃ a s', x s = (.ok a, s') ∧ f a s' = (.ok b, t) := by
  have hunfold : (x >>= f) s = match x s with
      | (.ok a, s') => f a s'
      | (.error e, s') => (.error e, s') := rfl
  rw [hunfold] at h
  cases hx : x s with
  | mk result s' =>
    rw [hx] at h
    cases result with
    | error e => cases h
    | ok a => exact ⟨a, s', rfl, h⟩

/-- The call leaves what is seen of the state as it was. -/
def Preserves {ρ : Type v} (view : σ → ρ) (x : Call ε σ α) : Prop := ∀ s, view (x s).2 = view s

namespace Preserves

variable {ρ : Type v} {view : σ → ρ}

/-- Rule of return. -/
theorem pure (a : α) : Preserves view (Pure.pure a : Call ε σ α) := fun _ ↦ rfl

/-- Rule of raising. -/
theorem raise (e : ε) : Preserves view (Call.raise e : Call ε σ α) := fun _ ↦ rfl

/-- Rule of a read. -/
theorem reads (f : σ → Except ε α) : Preserves view (Call.reads f) := fun _ ↦ rfl

/-- Rule of a write. -/
theorem transact {f : σ → Except ε (α × σ)}
    (h : ∀ s a s', f s = .ok (a, s') → view s' = view s) : Preserves view (Call.transact f) := by
  intro s
  rw [Call.transact]
  cases hf : f s with
  | error e => rfl
  | ok done => exact h s done.1 done.2 hf

/-- What follows a call and preserves the view leaves what the call left. -/
theorem view_bind (view : σ → ρ) (x : Call ε σ α) {f : α → Call ε σ β}
    (hf : ∀ a, Preserves view (f a)) (s : σ) : view ((x >>= f) s).2 = view (x s).2 := by
  cases hrun : x s with
  | mk result t =>
    cases result with
    | error e => rw [bind_of_error hrun]
    | ok a => rw [bind_of_ok hrun, hf a t]

/-- Rule of sequencing. -/
theorem bind {x : Call ε σ α} {f : α → Call ε σ β} (hx : Preserves view x)
    (hf : ∀ a, Preserves view (f a)) : Preserves view (x >>= f) :=
  fun s ↦ (view_bind view x hf s).trans (hx s)

/-- Rule of a handler. -/
theorem catching {x : Call ε σ α} {handle : ε → Call ε σ α} (hx : Preserves view x)
    (hhandle : ∀ e, Preserves view (handle e)) : Preserves view (x.catching handle) := by
  intro s
  have hfirst := hx s
  rw [Call.catching]
  cases hrun : x s with
  | mk result t =>
    rw [hrun] at hfirst
    cases result with
    | error e => exact (hhandle e t).trans hfirst
    | ok a => exact hfirst

end Preserves

/-- The call leaves at most what is seen of the state. -/
def Reduces {ρ : Type v} [Preorder ρ] (view : σ → ρ) (x : Call ε σ α) : Prop :=
  ∀ s, view (x s).2 ≤ view s

namespace Reduces

variable {ρ : Type v} [Preorder ρ] {view : σ → ρ}

/-- Rule of return. -/
theorem pure (a : α) : Reduces view (Pure.pure a : Call ε σ α) := fun _ ↦ le_refl _

/-- Rule of raising. -/
theorem raise (e : ε) : Reduces view (Call.raise e : Call ε σ α) := fun _ ↦ le_refl _

/-- Rule of a read. -/
theorem reads (f : σ → Except ε α) : Reduces view (Call.reads f) := fun _ ↦ le_refl _

/-- Rule of a write. -/
theorem transact {f : σ → Except ε (α × σ)}
    (h : ∀ s a s', f s = .ok (a, s') → view s' ≤ view s) : Reduces view (Call.transact f) := by
  intro s
  rw [Call.transact]
  cases hf : f s with
  | error e => exact le_refl _
  | ok done => exact h s done.1 done.2 hf

/-- Rule of sequencing. -/
theorem bind {x : Call ε σ α} {f : α → Call ε σ β} (hx : Reduces view x)
    (hf : ∀ a, Reduces view (f a)) : Reduces view (x >>= f) := by
  intro s
  have hfirst := hx s
  cases hrun : x s with
  | mk result t =>
    rw [hrun] at hfirst
    cases result with
    | error e =>
      rw [bind_of_error hrun]
      exact hfirst
    | ok a =>
      rw [bind_of_ok hrun]
      exact (hf a t).trans hfirst

/-- Rule of a handler. -/
theorem catching {x : Call ε σ α} {handle : ε → Call ε σ α} (hx : Reduces view x)
    (hhandle : ∀ e, Reduces view (handle e)) : Reduces view (x.catching handle) := by
  intro s
  have hfirst := hx s
  rw [Call.catching]
  cases hrun : x s with
  | mk result t =>
    rw [hrun] at hfirst
    cases result with
    | error e => exact (hhandle e t).trans hfirst
    | ok a => exact hfirst

end Reduces

end Call

section

variable {ε : Type} {σ : Type u} {ρ : Type v} {α β : Type} {D : Division σ ρ} {I : σ → Prop}

/-- In this state the call keeps the invariant and the rest, and does what it would do on the
owner's part alone; where it returns, the value and the new state are as promised. -/
structure Apart (D : Division σ ρ) (I : σ → Prop) (Q : α → σ → Prop) (x : Call ε σ α) (s : σ) :
    Prop where
  invariant : I (x s).2
  rest : D.rest (x s).2 = D.rest s
  own : x (D.own s) = ((x s).1, D.own (x s).2)
  promise : ∀ a, (x s).1 = .ok a → Q a (x s).2

namespace Apart

variable {Q R : α → σ → Prop} {s : σ}

/-- Rule of consequence. -/
theorem mono {x : Call ε σ α} (h : Apart D I R x s) (hQ : ∀ a t, I t → R a t → Q a t) :
    Apart D I Q x s :=
  ⟨h.invariant, h.rest, h.own, fun a ha ↦ hQ a _ h.invariant (h.promise a ha)⟩

/-- Rule of return. -/
theorem pure {a : α} (hs : I s) (ha : Q a s) : Apart D I Q (Pure.pure a : Call ε σ α) s where
  invariant := hs
  rest := rfl
  own := rfl
  promise := by
    intro b hb
    cases hb
    exact ha

/-- Rule of raising. -/
theorem raise {e : ε} (hs : I s) : Apart D I Q (Call.raise e) s where
  invariant := hs
  rest := rfl
  own := rfl
  promise := fun _ h ↦ nomatch h

/-- Rule of sequencing. -/
theorem bind {S : β → σ → Prop} {x : Call ε σ β} {f : β → Call ε σ α} (hx : Apart D I S x s)
    (hf : ∀ b t, I t → S b t → Apart D I Q (f b) t) : Apart D I Q (x >>= f) s := by
  obtain ⟨hinvariant, hrest, hown, hpromise⟩ := hx
  cases hrun : x s with
  | mk result t =>
    rw [hrun] at hinvariant hrest hown hpromise
    cases result with
    | error e =>
      have hbind : (x >>= f) s = (.error e, t) := by
        show (match x s with | (.ok a, s') => f a s' | (.error e, s') => _) = _
        rw [hrun]
      have hbindOwn : (x >>= f) (D.own s) = (.error e, D.own t) := by
        show (match x (D.own s) with | (.ok a, s') => f a s' | (.error e, s') => _) = _
        rw [hown]
      refine ⟨?_, ?_, ?_, ?_⟩
      · rw [hbind]
        exact hinvariant
      · rw [hbind]
        exact hrest
      · rw [hbind, hbindOwn]
      · intro a ha
        rw [hbind] at ha
        cases ha
    | ok b =>
      have hnext := hf b t hinvariant (hpromise b rfl)
      have hbind : (x >>= f) s = f b t := by
        show (match x s with | (.ok a, s') => f a s' | (.error e, s') => _) = _
        rw [hrun]
      have hbindOwn : (x >>= f) (D.own s) = f b (D.own t) := by
        show (match x (D.own s) with | (.ok a, s') => f a s' | (.error e, s') => _) = _
        rw [hown]
      refine ⟨?_, ?_, ?_, ?_⟩
      · rw [hbind]
        exact hnext.invariant
      · rw [hbind]
        exact hnext.rest.trans hrest
      · rw [hbind, hbindOwn]
        exact hnext.own
      · intro a ha
        rw [hbind] at ha ⊢
        exact hnext.promise a ha

/-- Rule of handlers. -/
theorem catching {x : Call ε σ α} {handle : ε → Call ε σ α} (hx : Apart D I Q x s)
    (hhandle : ∀ e t, I t → Apart D I Q (handle e) t) : Apart D I Q (x.catching handle) s := by
  obtain ⟨hinvariant, hrest, hown, hpromise⟩ := hx
  cases hrun : x s with
  | mk result t =>
    rw [hrun] at hinvariant hrest hown hpromise
    cases result with
    | ok a =>
      have hcatch : x.catching handle s = (.ok a, t) := by rw [Call.catching, hrun]
      have hcatchOwn : x.catching handle (D.own s) = (.ok a, D.own t) := by
        rw [Call.catching, hown]
      refine ⟨?_, ?_, ?_, ?_⟩
      · rw [hcatch]
        exact hinvariant
      · rw [hcatch]
        exact hrest
      · rw [hcatch, hcatchOwn]
      · intro b hb
        rw [hcatch] at hb ⊢
        exact hpromise b hb
    | error e =>
      have hnext := hhandle e t hinvariant
      have hcatch : x.catching handle s = handle e t := by rw [Call.catching, hrun]
      have hcatchOwn : x.catching handle (D.own s) = handle e (D.own t) := by
        rw [Call.catching, hown]
      refine ⟨?_, ?_, ?_, ?_⟩
      · rw [hcatch]
        exact hnext.invariant
      · rw [hcatch]
        exact hnext.rest.trans hrest
      · rw [hcatch, hcatchOwn]
        exact hnext.own
      · intro b hb
        rw [hcatch] at hb ⊢
        exact hnext.promise b hb

/-- Rule of reads: the answer is that of the owner's part. -/
theorem reads {f : σ → Except ε α} (hs : I s) (hown : f (D.own s) = f s)
    (hQ : ∀ a, f s = .ok a → Q a s) : Apart D I Q (Call.reads f) s where
  invariant := hs
  rest := rfl
  own := by rw [Call.reads, hown]; rfl
  promise := hQ

/-- Rule of transactions. -/
theorem transact {f : σ → Except ε (α × σ)} (hs : I s)
    (hown : f (D.own s) = (f s).map fun done ↦ (done.1, D.own done.2))
    (hok : ∀ a t, f s = .ok (a, t) → I t ∧ D.rest t = D.rest s ∧ Q a t) :
    Apart D I Q (Call.transact f) s := by
  cases hrun : f s with
  | error e =>
    rw [hrun] at hown
    have hfails : Call.transact f s = (.error e, s) := Call.transact_of_error hrun
    refine ⟨?_, ?_, ?_, ?_⟩
    · rw [hfails]
      exact hs
    · rw [hfails]
    · rw [hfails, Call.transact, hown]
      rfl
    · intro a ha
      rw [hfails] at ha
      cases ha
  | ok done =>
    obtain ⟨a, t⟩ := done
    rw [hrun] at hown
    obtain ⟨hinvariant, hrest, hpromise⟩ := hok a t hrun
    have hdone : Call.transact f s = (.ok a, t) := Call.transact_of_ok hrun
    refine ⟨?_, ?_, ?_, ?_⟩
    · rw [hdone]
      exact hinvariant
    · rw [hdone]
      exact hrest
    · rw [hdone, Call.transact, hown]
      rfl
    · intro b hb
      rw [hdone] at hb ⊢
      cases hb
      exact hpromise

/-- Rule of writes. -/
theorem writes {f : σ → α × σ} (hown : f (D.own s) = ((f s).1, D.own (f s).2))
    (hinvariant : I (f s).2) (hrest : D.rest (f s).2 = D.rest s) (hQ : Q (f s).1 (f s).2) :
    Apart D I Q (Call.writes f : Call ε σ α) s where
  invariant := hinvariant
  rest := hrest
  own := by rw [Call.writes, hown]; rfl
  promise := by
    intro a ha
    cases ha
    exact hQ

/-- Another error type does not matter. -/
theorem mapError {ε' : Type} {g : ε → ε'} {x : Call ε σ α} (h : Apart D I Q x s) :
    Apart D I Q (x.mapError g) s where
  invariant := h.invariant
  rest := h.rest
  own := by rw [Call.mapError, h.own]; rfl
  promise := by
    intro a ha
    apply h.promise a
    rw [Call.mapError] at ha
    cases hx : (x s).1 with
    | error e => rw [hx] at ha; cases ha
    | ok b => rw [hx] at ha; cases ha; rfl

end Apart

/-! ## Programs over the calls -/

variable {Op : Type} {Res : Op → Type}

/-- A run of a program over calls that are apart keeps the invariant and the rest, and goes as
it would on the owner's part alone. -/
theorem run_own {perform : (o : Op) → Call ε σ (Res o)}
    (h : ∀ o s, I s → Apart D I (fun _ _ ↦ True) (perform o) s)
    (p : Prog Op (fun o ↦ Except ε (Res o)) α) {s : σ} (hs : I s) :
    I (p.run perform s).2 ∧ D.rest (p.run perform s).2 = D.rest s ∧
      p.run perform (D.own s) = ((p.run perform s).1, D.own (p.run perform s).2) := by
  induction p generalizing s with
  | pure a => exact ⟨hs, rfl, rfl⟩
  | op o next ih =>
    have hstep := h o s hs
    obtain ⟨hinvariant, hrest, hown⟩ := ih (perform o s).1 hstep.invariant
    refine ⟨hinvariant, hrest.trans hstep.rest, ?_⟩
    show Prog.run perform (next (perform o (D.own s)).1) (perform o (D.own s)).2 = _
    rw [hstep.own]
    exact hown

/-- A program over calls that are apart cannot tell two states with the same part of the
owner's, and leaves the same part in them. -/
theorem run_eq_of_own {perform : (o : Op) → Call ε σ (Res o)}
    (h : ∀ o s, I s → Apart D I (fun _ _ ↦ True) (perform o) s)
    (p : Prog Op (fun o ↦ Except ε (Res o)) α) {s t : σ} (hs : I s) (ht : I t)
    (hsame : D.own s = D.own t) :
    (p.run perform s).1 = (p.run perform t).1 ∧
      D.own (p.run perform s).2 = D.own (p.run perform t).2 := by
  have hboth := (run_own h p hs).2.2
  rw [hsame, (run_own h p ht).2.2] at hboth
  exact ⟨(congrArg Prod.fst hboth).symm, (congrArg Prod.snd hboth).symm⟩

end

end CFactory.Base
