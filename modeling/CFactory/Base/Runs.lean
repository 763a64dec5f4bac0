import Mathlib.Data.List.Basic

/-!
# Whole runs of a step function

A property of every state of a run, a condition on every step of a run, and the rules that
connect them. Nothing here names an application.
-/

namespace CFactory.Base

universe u v

variable {σ : Type u} {ι : Type v} (step : σ → ι → σ)

/-- The property holds in every state of the run, first and last included. -/
def Throughout (P : σ → Prop) (s : σ) : List ι → Prop
  | [] => P s
  | x :: rest => P s ∧ Throughout P (step s x) rest

/-- The condition holds of every step, in the state before that step. -/
def EachStep (C : σ → ι → Prop) (s : σ) : List ι → Prop
  | [] => True
  | x :: rest => C s x ∧ EachStep C (step s x) rest

/-- A decidable condition can be checked along a run. -/
instance decidableEachStep {C : σ → ι → Prop} [∀ s x, Decidable (C s x)] (s : σ) :
    (xs : List ι) → Decidable (EachStep step C s xs)
  | [] => isTrue True.intro
  | x :: rest =>
    have : Decidable (EachStep step C (step s x) rest) := decidableEachStep (step s x) rest
    inferInstanceAs (Decidable (C s x ∧ EachStep step C (step s x) rest))

variable {step} {P Q : σ → Prop} {C D : σ → ι → Prop}

/-- A property of a whole run holds at its start. -/
theorem Throughout.start {s : σ} {xs : List ι} (h : Throughout step P s xs) : P s := by
  cases xs with
  | nil => exact h
  | cons x rest => exact h.1

/-- A property of a whole run holds at its end. -/
theorem Throughout.last {s : σ} {xs : List ι} (h : Throughout step P s xs) :
    P (xs.foldl step s) := by
  induction xs generalizing s with
  | nil => exact h
  | cons x rest ih => exact ih h.2

/-- Rule of invariants: what each step keeps under its condition, the run keeps. -/
theorem throughout_of_step (hstep : ∀ s x, P s → C s x → P (step s x)) {s : σ} {xs : List ι}
    (hs : P s) (h : EachStep step C s xs) : Throughout step P s xs := by
  induction xs generalizing s with
  | nil => exact hs
  | cons x rest ih => exact ⟨hs, ih (hstep s x hs h.1) h.2⟩

/-- Where an admissible step keeps the property exactly under the condition, an admissible
run keeps it throughout exactly when all its steps meet the condition. -/
theorem throughout_iff_eachStep (hstep : ∀ s x, D s x → P s → (P (step s x) ↔ C s x)) {s : σ}
    {xs : List ι} (hD : EachStep step D s xs) (hs : P s) :
    Throughout step P s xs ↔ EachStep step C s xs := by
  induction xs generalizing s with
  | nil => exact ⟨fun _ ↦ True.intro, fun _ ↦ hs⟩
  | cons x rest ih =>
    have hx := hstep s x hD.1 hs
    constructor
    · intro h
      have hnext : P (step s x) := h.2.start
      exact ⟨hx.mp hnext, (ih hD.2 hnext).mp h.2⟩
    · intro h
      have hnext : P (step s x) := hx.mpr h.1
      exact ⟨hs, (ih hD.2 hnext).mpr h.2⟩

/-- Rule of steps: where an invariant and a condition give a step's promise and keep the
invariant, every step of a run that meets the condition keeps its promise. -/
theorem eachStep_of_invariant (hstep : ∀ s x, P s → C s x → D s x ∧ P (step s x)) {s : σ}
    {xs : List ι} (hs : P s) (h : EachStep step C s xs) : EachStep step D s xs := by
  induction xs generalizing s with
  | nil => exact True.intro
  | cons x rest ih =>
    obtain ⟨hd, hnext⟩ := hstep s x hs h.1
    exact ⟨hd, ih hnext h.2⟩

/-- Two conditions that agree wherever an invariant holds, which a step keeps that meets them,
hold of the same runs. -/
theorem eachStep_iff_of_invariant (hiff : ∀ s x, P s → (C s x ↔ D s x))
    (hstep : ∀ s x, P s → D s x → P (step s x)) {s : σ} (hs : P s) {xs : List ι} :
    EachStep step C s xs ↔ EachStep step D s xs := by
  induction xs generalizing s with
  | nil => exact Iff.rfl
  | cons x rest ih =>
    constructor
    · intro h
      have hx := (hiff s x hs).mp h.1
      exact ⟨hx, (ih (hstep s x hs hx)).mp h.2⟩
    · intro h
      exact ⟨(hiff s x hs).mpr h.1, (ih (hstep s x hs h.1)).mpr h.2⟩

/-- A condition that every step meets holds of every run. -/
theorem eachStep_of_all (h : ∀ s x, C s x) {s : σ} {xs : List ι} : EachStep step C s xs := by
  induction xs generalizing s with
  | nil => exact True.intro
  | cons x rest ih => exact ⟨h s x, ih⟩

/-- A condition that every step of the run meets in any state holds of the run. -/
theorem eachStep_of_mem {s : σ} {xs : List ι} (h : ∀ x ∈ xs, ∀ s, C s x) :
    EachStep step C s xs := by
  induction xs generalizing s with
  | nil => exact True.intro
  | cons x rest ih =>
    exact ⟨h x List.mem_cons_self s, ih fun y hy ↦ h y (List.mem_cons_of_mem _ hy)⟩

/-- Where any step keeps the property exactly under the condition, so does any run. -/
theorem throughout_iff_of_step (hstep : ∀ s x, P s → (P (step s x) ↔ C s x)) {s : σ}
    {xs : List ι} (hs : P s) : Throughout step P s xs ↔ EachStep step C s xs :=
  throughout_iff_eachStep (fun s x _ ↦ hstep s x)
    (eachStep_of_all (C := fun _ _ ↦ True) fun _ _ ↦ trivial) hs

/-- Two conditions hold of every step when each of them does. -/
theorem EachStep.and {s : σ} {xs : List ι} (hC : EachStep step C s xs)
    (hD : EachStep step D s xs) : EachStep step (fun t x ↦ C t x ∧ D t x) s xs := by
  induction xs generalizing s with
  | nil => exact True.intro
  | cons x rest ih => exact ⟨⟨hC.1, hD.1⟩, ih hC.2 hD.2⟩

/-- A property of a whole run weakens to what it implies. -/
theorem Throughout.imp (h : ∀ t, P t → Q t) {s : σ} {xs : List ι} (hP : Throughout step P s xs) :
    Throughout step Q s xs := by
  induction xs generalizing s with
  | nil => exact h s hP
  | cons x rest ih => exact ⟨h s hP.1, ih hP.2⟩

/-- Two properties hold throughout a run exactly when both of them do together. -/
theorem throughout_and_iff {s : σ} {xs : List ι} :
    Throughout step (fun t ↦ P t ∧ Q t) s xs ↔ Throughout step P s xs ∧ Throughout step Q s xs := by
  induction xs generalizing s with
  | nil => exact Iff.rfl
  | cons x rest ih =>
    simp only [Throughout, ih]
    constructor
    · exact fun h ↦ ⟨⟨h.1.1, h.2.1⟩, h.1.2, h.2.2⟩
    · exact fun h ↦ ⟨⟨h.1.1, h.2.1⟩, h.1.2, h.2.2⟩

/-- The last step of a longer run is one from where the shorter run ends. -/
theorem eachStep_append {s : σ} {xs ys : List ι} :
    EachStep step C s (xs ++ ys) ↔ EachStep step C s xs ∧ EachStep step C (xs.foldl step s) ys := by
  induction xs generalizing s with
  | nil => exact ⟨fun h ↦ ⟨True.intro, h⟩, fun h ↦ h.2⟩
  | cons x rest ih =>
    rw [List.cons_append, EachStep, EachStep, ih, List.foldl_cons, and_assoc]

/-- An invariant that every step keeps holds at the end. -/
theorem foldl_invariant (hstep : ∀ s x, P s → P (step s x)) {s : σ} (hs : P s) (xs : List ι) :
    P (xs.foldl step s) := by
  induction xs generalizing s with
  | nil => exact hs
  | cons x rest ih => exact ih (hstep s x hs)

end CFactory.Base
