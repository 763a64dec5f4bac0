import CFactory.Base.Runs
import Mathlib.Logic.Function.Basic

/-!
# Any number of callers on one state

Each caller is at a point of its own call; a step lets one of them perform its next statement
on the shared state, with an input from outside (a clock reading, a random value, an answer).
A run is any list of such steps. An assertion on every caller and a relation between any two
of them is kept by a step that keeps what involves the caller that moves, and the rest
against the change of the shared state. Nothing here names an application.
-/

namespace CFactory.Base

universe u v w x

/-- Where every caller stands, and the state they share. -/
structure Callers (ι : Type u) (κ : Type v) (σ : Type w) where
  pc : ι → κ
  shared : σ

namespace Callers

variable {ι : Type u} {κ : Type v} {σ : Type w} {ε : Type x} [DecidableEq ι]
variable (next : ι → ε → κ → σ → κ × σ)

/-- One caller performs its next statement. -/
def step (c : Callers ι κ σ) (e : ι × ε) : Callers ι κ σ where
  pc := Function.update c.pc e.1 (next e.1 e.2 (c.pc e.1) c.shared).1
  shared := (next e.1 e.2 (c.pc e.1) c.shared).2

/-- Any interleaving of the statements of the callers. -/
def run (c : Callers ι κ σ) (steps : List (ι × ε)) : Callers ι κ σ := steps.foldl (step next) c

/-- The caller that moves stands where its statement leads. -/
@[simp] theorem pc_step_self (c : Callers ι κ σ) (i : ι) (e : ε) :
    (step next c (i, e)).pc i = (next i e (c.pc i) c.shared).1 :=
  Function.update_self ..

/-- Every other caller stays where it is. -/
theorem pc_step_other (c : Callers ι κ σ) {i j : ι} (e : ε) (h : j ≠ i) :
    (step next c (i, e)).pc j = c.pc j :=
  Function.update_of_ne h ..

/-- The shared state after a statement. -/
@[simp] theorem shared_step (c : Callers ι κ σ) (i : ι) (e : ε) :
    (step next c (i, e)).shared = (next i e (c.pc i) c.shared).2 := rfl

@[simp] theorem run_nil (c : Callers ι κ σ) : run next c [] = c := rfl

@[simp] theorem run_cons (c : Callers ι κ σ) (e : ι × ε) (rest : List (ι × ε)) :
    run next c (e :: rest) = run next (step next c e) rest := rfl

/-- An assertion that holds of every caller, and a relation that holds between any two. -/
structure Holds (P : κ → σ → Prop) (R : κ → κ → σ → Prop) (c : Callers ι κ σ) : Prop where
  each : ∀ i, P (c.pc i) c.shared
  pairs : ∀ i j, i ≠ j → R (c.pc i) (c.pc j) c.shared

variable {next} {P : κ → σ → Prop} {R : κ → κ → σ → Prop}

/-- Rule of one step: the caller that moves reaches its assertion and stays related to each of
the others, and what holds of the others is stable against the change of the shared state. -/
theorem Holds.step {c : Callers ι κ σ} {i : ι} {e : ε}
    (hself : P (next i e (c.pc i) c.shared).1 (next i e (c.pc i) c.shared).2)
    (hother : ∀ j, j ≠ i → P (c.pc j) (next i e (c.pc i) c.shared).2)
    (hleft : ∀ j, j ≠ i →
      R (next i e (c.pc i) c.shared).1 (c.pc j) (next i e (c.pc i) c.shared).2)
    (hright : ∀ j, j ≠ i →
      R (c.pc j) (next i e (c.pc i) c.shared).1 (next i e (c.pc i) c.shared).2)
    (hpairs : ∀ j k, j ≠ i → k ≠ i → j ≠ k →
      R (c.pc j) (c.pc k) (next i e (c.pc i) c.shared).2) :
    Holds P R (Callers.step next c (i, e)) := by
  constructor
  · intro j
    by_cases hj : j = i
    · subst hj
      rw [pc_step_self, shared_step]
      exact hself
    · rw [pc_step_other next c e hj, shared_step]
      exact hother j hj
  · intro j k hjk
    by_cases hj : j = i
    · subst hj
      rw [pc_step_self, pc_step_other next c e (Ne.symm hjk), shared_step]
      exact hleft k (Ne.symm hjk)
    · by_cases hk : k = i
      · subst hk
        rw [pc_step_self, pc_step_other next c e hjk, shared_step]
        exact hright j hjk
      · rw [pc_step_other next c e hj, pc_step_other next c e hk, shared_step]
        exact hpairs j k hj hk hjk

/-- A caller that no step of a run moves stays where it is. -/
theorem pc_run_other (c : Callers ι κ σ) {i : ι} {steps : List (ι × ε)}
    (h : ∀ e ∈ steps, i ≠ e.1) : (run next c steps).pc i = c.pc i := by
  induction steps generalizing c with
  | nil => rfl
  | cons e rest ih =>
    rw [run_cons, ih _ fun x hx ↦ h x (List.mem_cons_of_mem _ hx)]
    exact pc_step_other next c e.2 (h e List.mem_cons_self)

/-- Two ways of performing the statements stay related through every interleaving, where the
next statement of related callers on related states leads to such ones again, under an
invariant of the second way. -/
theorem run_sim {κ' : Type v} {σ' : Type w} {next' : ι → ε → κ' → σ' → κ' × σ'}
    {A : κ → κ' → Prop} {B : σ → σ' → Prop} {I : Callers ι κ' σ' → Prop}
    (hinv : ∀ c i e, I c → I (step next' c (i, e)))
    (hstep : ∀ c' i e k s, I c' → A k (c'.pc i) → B s c'.shared →
      A (next i e k s).1 (next' i e (c'.pc i) c'.shared).1 ∧
        B (next i e k s).2 (next' i e (c'.pc i) c'.shared).2)
    {c : Callers ι κ σ} {c' : Callers ι κ' σ'} (hI : I c') (hpc : ∀ i, A (c.pc i) (c'.pc i))
    (hshared : B c.shared c'.shared) (steps : List (ι × ε)) :
    (∀ i, A ((run next c steps).pc i) ((run next' c' steps).pc i)) ∧
      B (run next c steps).shared (run next' c' steps).shared := by
  induction steps generalizing c c' with
  | nil => exact ⟨hpc, hshared⟩
  | cons e rest ih =>
    obtain ⟨i, e⟩ := e
    have hnext := hstep c' i e _ _ hI (hpc i) hshared
    apply ih (hinv c' i e hI)
    · intro j
      by_cases hj : j = i
      · subst hj
        rw [pc_step_self, pc_step_self]
        exact hnext.1
      · rw [pc_step_other next c e hj, pc_step_other next' c' e hj]
        exact hpc j
    · exact hnext.2

end Callers

end CFactory.Base
