import Mathlib.Data.List.Basic

/-!
# Resumption programs over an operation interface

A program performs operations one at a time and continues with each answer. It is run
alone through a handler, traced, checked step by step against a guard, or checked against
everything its environment may answer. Nothing here names an application.
-/

namespace CFactory.Base

universe u

/-- A finite program over operations `Op`, where `Res o` is the type of the answer to `o`. -/
inductive Prog (Op : Type) (Res : Op → Type) (α : Type) where
  | pure (value : α) : Prog Op Res α
  | op (o : Op) (next : Res o → Prog Op Res α) : Prog Op Res α

/-- How one operation is answered on a shared state. -/
abbrev Handler (Op : Type) (Res : Op → Type) (σ : Type u) := (o : Op) → σ → Res o × σ

namespace Prog

variable {Op : Type} {Res : Op → Type} {α β γ : Type} {σ : Type u}

/-- Sequence two programs. -/
def bind : Prog Op Res α → (α → Prog Op Res β) → Prog Op Res β
  | .pure a, f => f a
  | .op o next, f => .op o fun r ↦ (next r).bind f

instance : Monad (Prog Op Res) where
  pure := .pure
  bind := bind

/-- The program that performs one operation and returns its answer. -/
def perform (o : Op) : Prog Op Res (Res o) := .op o .pure

/-- Sequencing after a returned value continues with that value. -/
@[simp] theorem pure_bind (a : α) (f : α → Prog Op Res β) :
    (Pure.pure a : Prog Op Res α) >>= f = f a := rfl

/-- Sequencing after an operation keeps the operation first. -/
@[simp] theorem op_bind (o : Op) (next : Res o → Prog Op Res α) (f : α → Prog Op Res β) :
    (Prog.op o next) >>= f = .op o fun r ↦ next r >>= f := rfl

/-- A single operation hands its answer to the rest. -/
@[simp] theorem perform_bind (o : Op) (f : Res o → Prog Op Res β) :
    (perform o : Prog Op Res (Res o)) >>= f = .op o f := rfl

/-- Returning after a program changes nothing. -/
theorem bind_pure (p : Prog Op Res α) : (p >>= fun a ↦ Pure.pure a) = p := by
  induction p with
  | pure a => rfl
  | op o next ih =>
    rw [op_bind]
    congr 1
    funext r
    exact ih r

/-- Sequencing is associative. -/
theorem bind_assoc (p : Prog Op Res α) (f : α → Prog Op Res β) (g : β → Prog Op Res γ) :
    p >>= f >>= g = p >>= fun a ↦ f a >>= g := by
  induction p with
  | pure a => rfl
  | op o next ih =>
    simp only [op_bind]
    congr 1
    funext r
    exact ih r

/-- Sequencing is lawful, so the standard monad lemmas apply to programs. -/
instance : LawfulMonad (Prog Op Res) :=
  LawfulMonad.mk' _ (fun p ↦ bind_pure p) (fun _ _ ↦ rfl) bind_assoc

/-! ### Running alone -/

/-- Run to the end, answering every operation through the handler. -/
def run (h : Handler Op Res σ) : Prog Op Res α → σ → α × σ
  | .pure a, s => (a, s)
  | .op o next, s => run h (next (h o s).1) (h o s).2

/-- The operations performed, each with the state it was performed in. -/
def trace (h : Handler Op Res σ) : Prog Op Res α → σ → List (σ × Op)
  | .pure _, _ => []
  | .op o next, s => (s, o) :: trace h (next (h o s).1) (h o s).2

variable (h : Handler Op Res σ)

@[simp] theorem run_pure (a : α) (s : σ) : run h (Pure.pure a : Prog Op Res α) s = (a, s) := rfl

@[simp] theorem run_op (o : Op) (next : Res o → Prog Op Res α) (s : σ) :
    run h (.op o next) s = run h (next (h o s).1) (h o s).2 := rfl

/-- A sequenced run continues from the first program's value and state. -/
theorem run_bind (p : Prog Op Res α) (f : α → Prog Op Res β) (s : σ) :
    run h (p >>= f) s = run h (f (run h p s).1) (run h p s).2 := by
  induction p generalizing s with
  | pure a => rfl
  | op o next ih => exact ih (h o s).1 (h o s).2

@[simp] theorem trace_pure (a : α) (s : σ) : trace h (Pure.pure a : Prog Op Res α) s = [] := rfl

@[simp] theorem trace_op (o : Op) (next : Res o → Prog Op Res α) (s : σ) :
    trace h (.op o next) s = (s, o) :: trace h (next (h o s).1) (h o s).2 := rfl

/-- The operations of a sequenced run are those of its parts in order. -/
theorem trace_bind (p : Prog Op Res α) (f : α → Prog Op Res β) (s : σ) :
    trace h (p >>= f) s = trace h p s ++ trace h (f (run h p s).1) (run h p s).2 := by
  induction p generalizing s with
  | pure a => rfl
  | op o next ih => exact congrArg ((s, o) :: ·) (ih (h o s).1 (h o s).2)

/-! ### Guarded runs -/

/-- Every operation meets the guard in the state it is performed in, and the value and
state reached at the end meet the postcondition. -/
def Safe (G : σ → Op → Prop) (Q : α → σ → Prop) : Prog Op Res α → σ → Prop
  | .pure a, s => Q a s
  | .op o next, s => G s o ∧ Safe G Q (next (h o s).1) (h o s).2

variable {h} {G : σ → Op → Prop} {Q : α → σ → Prop}

@[simp] theorem safe_pure (a : α) (s : σ) : Safe h G Q (Pure.pure a) s ↔ Q a s := Iff.rfl

@[simp] theorem safe_op (o : Op) (next : Res o → Prog Op Res α) (s : σ) :
    Safe h G Q (.op o next) s ↔ G s o ∧ Safe h G Q (next (h o s).1) (h o s).2 := Iff.rfl

/-- Rule of sequencing: the first program establishes what the rest needs. -/
theorem safe_bind {R : β → σ → Prop} (p : Prog Op Res α) (f : α → Prog Op Res β) (s : σ) :
    Safe h G R (p >>= f) s ↔ Safe h G (fun a t ↦ Safe h G R (f a) t) p s := by
  induction p generalizing s with
  | pure a => exact Iff.rfl
  | op o next ih => exact and_congr_right fun _ ↦ ih (h o s).1 (h o s).2

/-- Rule of consequence: a weaker postcondition also holds. -/
theorem Safe.mono {R : α → σ → Prop} {p : Prog Op Res α} {s : σ}
    (hp : Safe h G Q p s) (hQ : ∀ a t, Q a t → R a t) : Safe h G R p s := by
  induction p generalizing s with
  | pure a => exact hQ a s hp
  | op o next ih => exact ⟨hp.1, ih _ hp.2⟩

/-- Rule of simulation: where the abstract handler answers every guarded operation as the
concrete one does and keeps the relation, whole guarded runs agree and stay related. -/
theorem run_sim {τ : Type u} {g : Handler Op Res τ} {G : τ → Op → Prop} {Q : α → τ → Prop}
    (R : σ → τ → Prop)
    (hstep : ∀ o s t, R s t → G t o → (h o s).1 = (g o t).1 ∧ R (h o s).2 (g o t).2)
    (p : Prog Op Res α) (s : σ) (t : τ) (hR : R s t) (hp : Safe g G Q p t) :
    (run h p s).1 = (run g p t).1 ∧ R (run h p s).2 (run g p t).2 := by
  induction p generalizing s t with
  | pure a => exact ⟨rfl, hR⟩
  | op o next ih =>
    obtain ⟨hans, hrel⟩ := hstep o s t hR hp.1
    simp only [run_op]
    rw [hans]
    exact ih _ _ _ hrel hp.2

/-- Rule of simulation for what is performed: related handlers perform the same operations. -/
theorem trace_sim {τ : Type u} {g : Handler Op Res τ} {G : τ → Op → Prop} {Q : α → τ → Prop}
    (R : σ → τ → Prop)
    (hstep : ∀ o s t, R s t → G t o → (h o s).1 = (g o t).1 ∧ R (h o s).2 (g o t).2)
    (p : Prog Op Res α) (s : σ) (t : τ) (hR : R s t) (hp : Safe g G Q p t) :
    (trace h p s).map Prod.snd = (trace g p t).map Prod.snd := by
  induction p generalizing s t with
  | pure a => rfl
  | op o next ih =>
    obtain ⟨hans, hrel⟩ := hstep o s t hR hp.1
    rw [trace_op, trace_op, List.map_cons, List.map_cons, hans]
    exact congrArg (o :: ·) (ih _ _ _ hrel hp.2)

/-! ### Programs among others -/

section
variable {V : Type} (view : V → (o : Op) → Res o → V) (A : V → (o : Op) → Res o → Prop)
  (G : V → Op → Prop)

/-- The program keeps a guard whatever admissible answers it gets: guard and admissibility
may depend on a local view, which collects what the program has performed and seen. -/
def Obeys (Φ : α → V → Prop) : V → Prog Op Res α → Prop
  | v, .pure a => Φ a v
  | v, .op o next => G v o ∧ ∀ r, A v o r → Obeys Φ (view v o r) (next r)

@[simp] theorem obeys_pure (Φ : α → V → Prop) (v : V) (a : α) :
    Obeys view A G Φ v (Pure.pure a : Prog Op Res α) ↔ Φ a v := Iff.rfl

@[simp] theorem obeys_op (Φ : α → V → Prop) (v : V) (o : Op) (next : Res o → Prog Op Res α) :
    Obeys view A G Φ v (.op o next) ↔
      G v o ∧ ∀ r, A v o r → Obeys view A G Φ (view v o r) (next r) := Iff.rfl

/-- Rule of sequencing among others. -/
theorem obeys_bind (Ψ : β → V → Prop) (v : V) (p : Prog Op Res α) (f : α → Prog Op Res β) :
    Obeys view A G Ψ v (p >>= f) ↔
      Obeys view A G (fun a u ↦ Obeys view A G Ψ u (f a)) v p := by
  induction p generalizing v with
  | pure a => exact Iff.rfl
  | op o next ih =>
    rw [op_bind, obeys_op, obeys_op]
    apply and_congr_right
    intro _
    apply forall_congr'
    intro r
    exact imp_congr_right fun _ ↦ ih r (view v o r)

/-- Rule of consequence among others. -/
theorem Obeys.mono {view : V → (o : Op) → Res o → V} {A : V → (o : Op) → Res o → Prop}
    {G : V → Op → Prop} {Φ Ψ : α → V → Prop} {p : Prog Op Res α} {v : V}
    (hp : Obeys view A G Φ v p) (h : ∀ a u, Φ a u → Ψ a u) : Obeys view A G Ψ v p := by
  induction p generalizing v with
  | pure a => exact h a v hp
  | op o next ih => exact ⟨hp.1, fun r hr ↦ ih r (hp.2 r hr)⟩

end

end Prog

end CFactory.Base
