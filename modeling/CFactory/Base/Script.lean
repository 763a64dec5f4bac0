import CFactory.Base.Isolation

/-!
# Programs of transactions

A program performs transactions one after the other, each of them atomic, and goes on by what
the last one returned or raised. Where the program raises or its process stops, what was
committed stays. Nothing here names an application.
-/

namespace CFactory.Base

universe u

/-- A program over transactions on a state. -/
inductive Script (ε : Type) (σ : Type u) (α : Type) : Type (max 1 u) where
  | done (result : Except ε α)
  | commit {β : Type} (transaction : Call ε σ β) (next : Except ε β → Script ε σ α)

namespace Script

variable {ε : Type} {σ : Type u} {α β : Type}

/-- Sequencing; what is raised ends the program. -/
def bind : Script ε σ α → (α → Script ε σ β) → Script ε σ β
  | .done (.ok a), f => f a
  | .done (.error e), _ => .done (.error e)
  | .commit t next, f => .commit t fun r ↦ (next r).bind f

instance : Monad (Script ε σ) where
  pure a := .done (.ok a)
  bind := bind

/-- Raise. -/
def raise (e : ε) : Script ε σ α := .done (.error e)

/-- A program of one transaction. -/
def atomic (t : Call ε σ α) : Script ε σ α := .commit t .done

/-- Perform the program to its end. -/
def run : Script ε σ α → Call ε σ α
  | .done r => fun s ↦ (r, s)
  | .commit t next => fun s ↦ run (next (t s).1) (t s).2

/-- The states before, between and after the transactions. -/
def visited : Script ε σ α → σ → List σ
  | .done _, s => [s]
  | .commit t next, s => s :: visited (next (t s).1) (t s).2

/-- The state after so many transactions, or at the end. -/
def stopped : Nat → Script ε σ α → σ → σ
  | 0, _, s => s
  | _ + 1, .done _, s => s
  | n + 1, .commit t next, s => stopped n (next (t s).1) (t s).2

@[simp] theorem pure_bind (a : α) (f : α → Script ε σ β) :
    (Pure.pure a : Script ε σ α) >>= f = f a := rfl

@[simp] theorem run_pure (a : α) (s : σ) : run (Pure.pure a : Script ε σ α) s = (.ok a, s) := rfl

@[simp] theorem run_raise (e : ε) (s : σ) : run (raise e : Script ε σ α) s = (.error e, s) := rfl

@[simp] theorem run_atomic (t : Call ε σ α) (s : σ) : run (atomic t) s = t s := rfl

/-- A sequenced program performs its parts one after the other. -/
theorem run_bind (p : Script ε σ α) (f : α → Script ε σ β) (s : σ) :
    run (p >>= f) s = (run p >>= fun a ↦ run (f a)) s := by
  induction p generalizing s with
  | done r => cases r <;> rfl
  | commit t next ih => exact ih (t s).1 (t s).2

/-- Where the first part returns, the second goes on from there. -/
theorem run_bind_ok {p : Script ε σ α} {f : α → Script ε σ β} {s t : σ} {a : α}
    (h : run p s = (.ok a, t)) : run (p >>= f) s = run (f a) t := by
  rw [run_bind]
  exact Call.bind_of_ok h

/-- Where the first part raises, so does the program. -/
theorem run_bind_error {p : Script ε σ α} {f : α → Script ε σ β} {s t : σ} {e : ε}
    (h : run p s = (.error e, t)) : run (p >>= f) s = (.error e, t) := by
  rw [run_bind]
  exact Call.bind_of_error h

/-- A program that returned did so in both its parts. -/
theorem run_bind_inv {p : Script ε σ α} {f : α → Script ε σ β} {s t : σ} {b : β}
    (h : run (p >>= f) s = (.ok b, t)) :
    ∃ a s', run p s = (.ok a, s') ∧ run (f a) s' = (.ok b, t) := by
  rw [run_bind] at h
  exact Call.bind_ok h

/-- Where a program ends, whether it returned or raised: where its first part ends, or where
its second does. -/
theorem run_bind_state {P : σ → Prop} {p : Script ε σ α} {f : α → Script ε σ β} {s : σ}
    (hp : P (run p s).2)
    (hf : ∀ a, (run p s).1 = .ok a → P (run (f a) (run p s).2).2) : P (run (p >>= f) s).2 := by
  cases hrun : run p s with
  | mk r t =>
    rw [hrun] at hp hf
    cases r with
    | ok a =>
      rw [run_bind_ok hrun]
      exact hf a rfl
    | error e =>
      rw [run_bind_error hrun]
      exact hp

/-- A program starts where it is performed. -/
theorem start_mem_visited (p : Script ε σ α) (s : σ) : s ∈ visited p s := by
  cases p with
  | done r => exact List.mem_singleton_self s
  | commit t next => exact List.mem_cons_self

/-- Where it ends is on its way. -/
theorem last_mem_visited (p : Script ε σ α) (s : σ) : (run p s).2 ∈ visited p s := by
  induction p generalizing s with
  | done r => exact List.mem_singleton_self s
  | commit t next ih => exact List.mem_cons_of_mem _ (ih _ _)

/-- Where it is stopped is on its way. -/
theorem stopped_mem_visited (n : Nat) (p : Script ε σ α) (s : σ) : stopped n p s ∈ visited p s := by
  induction p generalizing n s with
  | done r =>
    cases n with
    | zero => exact List.mem_singleton_self s
    | succ n => exact List.mem_singleton_self s
  | commit t next ih =>
    cases n with
    | zero => exact List.mem_cons_self
    | succ n => exact List.mem_cons_of_mem _ (ih _ n _)

/-- What its first part visits, a sequenced program visits. -/
theorem mem_visited_bind {p : Script ε σ α} {f : α → Script ε σ β} {s s' : σ}
    (h : s' ∈ visited p s) : s' ∈ visited (p >>= f) s := by
  induction p generalizing s with
  | done r =>
    rw [List.mem_singleton.mp h]
    exact start_mem_visited _ _
  | commit t next ih =>
    cases List.mem_cons.mp h with
    | inl hstart => exact hstart ▸ List.mem_cons_self
    | inr hrest => exact List.mem_cons_of_mem _ (ih _ hrest)

/-! ### Every state on the way -/

/-- The assertion holds in every state on the way, and the promise of what is returned. -/
def Keeps (I : σ → Prop) (Q : α → σ → Prop) : Script ε σ α → σ → Prop
  | .done r, s => I s ∧ ∀ a, r = .ok a → Q a s
  | .commit t next, s => I s ∧ Keeps I Q (next (t s).1) (t s).2

variable {I : σ → Prop} {Q : α → σ → Prop} {R : β → σ → Prop}

/-- What is kept holds in every state visited. -/
theorem Keeps.visited {p : Script ε σ α} {s : σ} (h : Keeps I Q p s) :
    ∀ s' ∈ p.visited s, I s' := by
  induction p generalizing s with
  | done r =>
    intro s' hs'
    cases List.mem_singleton.mp hs'
    exact h.1
  | commit t next ih =>
    intro s' hs'
    cases List.mem_cons.mp hs' with
    | inl hstart => exact hstart ▸ h.1
    | inr hrest => exact ih _ h.2 s' hrest

/-- What is kept holds at the end. -/
theorem Keeps.last {p : Script ε σ α} {s : σ} (h : Keeps I Q p s) : I (p.run s).2 := by
  induction p generalizing s with
  | done r => exact h.1
  | commit t next ih => exact ih _ h.2

/-- What is returned is as promised. -/
theorem Keeps.promise {p : Script ε σ α} {s : σ} (h : Keeps I Q p s) {a : α}
    (ha : (p.run s).1 = .ok a) : Q a (p.run s).2 := by
  induction p generalizing s with
  | done r => exact h.2 a ha
  | commit t next ih => exact ih _ h.2 ha

/-- Rule of return. -/
theorem Keeps.pure {a : α} {s : σ} (hs : I s) (ha : Q a s) :
    Keeps I Q (Pure.pure a : Script ε σ α) s := by
  refine ⟨hs, ?_⟩
  intro b hb
  cases hb
  exact ha

/-- Rule of raising. -/
theorem Keeps.raise {e : ε} {s : σ} (hs : I s) : Keeps I Q (Script.raise e : Script ε σ α) s := by
  refine ⟨hs, ?_⟩
  intro b hb
  cases hb

/-- Rule of one transaction. -/
theorem Keeps.atomic {t : Call ε σ α} {s : σ} (hs : I s) (ht : I (t s).2)
    (hQ : ∀ a, (t s).1 = .ok a → Q a (t s).2) : Keeps I Q (Script.atomic t) s :=
  ⟨hs, ht, hQ⟩

/-- Rule of sequencing. -/
theorem Keeps.bind {p : Script ε σ α} {f : α → Script ε σ β} {s : σ} (hp : Keeps I Q p s)
    (hf : ∀ a t, I t → Q a t → Keeps I R (f a) t) : Keeps I R (p >>= f) s := by
  induction p generalizing s with
  | done r =>
    cases r with
    | ok a => exact hf a s hp.1 (hp.2 a rfl)
    | error e => exact .raise hp.1
  | commit t next ih => exact ⟨hp.1, ih _ hp.2⟩

/-! ### Every state on the way, and the outcome -/

/-- The assertion holds in every state on the way, and the outcome, whether it is returned or
raised, is as described. -/
def Follows (I : σ → Prop) (R : Except ε α → σ → Prop) : Script ε σ α → σ → Prop
  | .done r, s => I s ∧ R r s
  | .commit t next, s => I s ∧ Follows I R (next (t s).1) (t s).2

namespace Follows

variable {R : Except ε α → σ → Prop} {S : Except ε β → σ → Prop}

/-- What is asserted holds in every state visited. -/
theorem visited {p : Script ε σ α} {s : σ} (h : Follows I R p s) : ∀ s' ∈ p.visited s, I s' := by
  induction p generalizing s with
  | done r =>
    intro s' hs'
    cases List.mem_singleton.mp hs'
    exact h.1
  | commit t next ih =>
    intro s' hs'
    cases List.mem_cons.mp hs' with
    | inl hstart => exact hstart ▸ h.1
    | inr hrest => exact ih _ h.2 s' hrest

/-- The outcome is as described. -/
theorem outcome {p : Script ε σ α} {s : σ} (h : Follows I R p s) : R (p.run s).1 (p.run s).2 := by
  induction p generalizing s with
  | done r => exact h.2
  | commit t next ih => exact ih _ h.2

/-- Rule of consequence. -/
theorem mono {I' : σ → Prop} {R' : Except ε α → σ → Prop} {p : Script ε σ α} {s : σ}
    (h : Follows I' R' p s) (hI : ∀ t, I' t → I t) (hR : ∀ r t, I' t → R' r t → R r t) :
    Follows I R p s := by
  induction p generalizing s with
  | done r => exact ⟨hI s h.1, hR r s h.1 h.2⟩
  | commit t next ih => exact ⟨hI s h.1, ih _ h.2⟩

/-- Rule of return. -/
theorem pure {a : α} {s : σ} (hs : I s) (ha : R (.ok a) s) :
    Follows I R (Pure.pure a : Script ε σ α) s := ⟨hs, ha⟩

/-- Rule of raising. -/
theorem raise {e : ε} {s : σ} (hs : I s) (he : R (.error e) s) :
    Follows I R (Script.raise e : Script ε σ α) s := ⟨hs, he⟩

/-- Rule of one transaction. -/
theorem atomic {t : Call ε σ α} {s s' : σ} {r : Except ε α} (hs : I s) (ht : t s = (r, s'))
    (hs' : I s') (hr : R r s') : Follows I R (Script.atomic t) s := by
  refine ⟨hs, ?_⟩
  rw [ht]
  exact ⟨hs', hr⟩

/-- Rule of sequencing. -/
theorem bind {p : Script ε σ α} {f : α → Script ε σ β} {s : σ} (hp : Follows I R p s)
    (hok : ∀ a t, I t → R (.ok a) t → Follows I S (f a) t)
    (herror : ∀ e t, I t → R (.error e) t → S (.error e) t) : Follows I S (p >>= f) s := by
  induction p generalizing s with
  | done r =>
    cases r with
    | ok a => exact hok a s hp.1 hp.2
    | error e => exact .raise hp.1 (herror e s hp.1 hp.2)
  | commit t next ih => exact ⟨hp.1, ih _ hp.2⟩

end Follows

end Script

end CFactory.Base
