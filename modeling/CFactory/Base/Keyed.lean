import Mathlib.Data.List.Basic

/-!
# Machines side by side

Inputs come one after another, each with the key of the machine it is for. A machine that no
other one's input touches makes the run of its own inputs. Nothing here names an application.
-/

namespace CFactory.Base

universe u v w

variable {S : Type u} {σ : Type u} {κ : Type v} {ι ω : Type w}

/-- Feed the inputs in order; an output has the key of its input. -/
def runKeyed (step : S → κ → ι → S × Option ω) : S → List (κ × ι) → S × List (κ × ω)
  | s, [] => (s, [])
  | s, (k, i) :: rest =>
    let (s', output) := step s k i
    let (s'', outputs) := runKeyed step s' rest
    (s'', (output.map (Prod.mk k)).toList ++ outputs)

/-- Feed one machine in order. -/
def runOwn (own : σ → ι → σ × Option ω) : σ → List ι → σ × List ω
  | s, [] => (s, [])
  | s, i :: rest =>
    let (s', output) := own s i
    let (s'', outputs) := runOwn own s' rest
    (s'', output.toList ++ outputs)

/-- What belongs to a key, in order. -/
def ofKey {α : Type w} [DecidableEq κ] (key : κ) (xs : List (κ × α)) : List α :=
  (xs.filter (·.1 = key)).map Prod.snd

/-- A step is one of the machine its input is for, and leaves every other machine as it was. -/
structure PerKey (step : S → κ → ι → S × Option ω) (read : S → κ → σ)
    (own : κ → σ → ι → σ × Option ω) : Prop where
  here : ∀ s k i, (read (step s k i).1 k, (step s k i).2) = own k (read s k) i
  elsewhere : ∀ s k i key, key ≠ k → read (step s k i).1 key = read s key

section

variable {α : Type w} [DecidableEq κ] {key k : κ} {a : α} {xs ys : List (κ × α)}

@[simp] theorem ofKey_nil : ofKey key ([] : List (κ × α)) = [] := rfl

@[simp] theorem ofKey_cons_self : ofKey key ((key, a) :: xs) = a :: ofKey key xs := by
  simp [ofKey]

theorem ofKey_cons_of_ne (h : key ≠ k) : ofKey key ((k, a) :: xs) = ofKey key xs := by
  simp [ofKey, Ne.symm h]

@[simp] theorem ofKey_append : ofKey key (xs ++ ys) = ofKey key xs ++ ofKey key ys := by
  simp [ofKey]

/-- Of things that are all the same, as many belong to a key as come with it. -/
theorem ofKey_map_const (key : κ) (a : α) (keys : List κ) :
    ofKey key (keys.map fun k ↦ (k, a)) = List.replicate (keys.count key) a := by
  induction keys with
  | nil => rfl
  | cons k rest ih =>
    by_cases hk : key = k
    · subst hk
      rw [List.map_cons, ofKey_cons_self, ih, List.count_cons_self, List.replicate_succ]
    · rw [List.map_cons, ofKey_cons_of_ne hk, ih, List.count_cons_of_ne (Ne.symm hk)]

/-- Where no key comes twice, at most one thing belongs to each. -/
theorem length_ofKey_le (h : (xs.map Prod.fst).Nodup) : (ofKey key xs).length ≤ 1 := by
  induction xs with
  | nil => exact Nat.zero_le 1
  | cons x rest ih =>
    obtain ⟨k, a⟩ := x
    rw [List.map_cons, List.nodup_cons] at h
    by_cases hk : key = k
    · have hrest : ofKey key rest = [] := by
        rw [ofKey, List.map_eq_nil_iff, List.filter_eq_nil_iff]
        intro y hy hkey
        have hfirst : y.1 = k := (of_decide_eq_true hkey).trans hk
        exact h.1 (List.mem_map.mpr ⟨y, hy, hfirst⟩)
      rw [hk, ofKey_cons_self, ← hk, hrest]
      exact Nat.le_refl 1
    · rw [ofKey_cons_of_ne hk]
      exact ih h.2

end

section

variable {step : S → κ → ι → S × Option ω} {own : σ → ι → σ × Option ω}

theorem runKeyed_cons (s : S) (k : κ) (i : ι) (rest : List (κ × ι)) :
    runKeyed step s ((k, i) :: rest) =
      ((runKeyed step (step s k i).1 rest).1,
        ((step s k i).2.map (Prod.mk k)).toList ++ (runKeyed step (step s k i).1 rest).2) := rfl

theorem runOwn_cons (s : σ) (i : ι) (rest : List ι) :
    runOwn own s (i :: rest) =
      ((runOwn own (own s i).1 rest).1,
        (own s i).2.toList ++ (runOwn own (own s i).1 rest).2) := rfl

/-- A run of inputs that follow on others starts where those ended. -/
theorem runOwn_append (own : σ → ι → σ × Option ω) (s : σ) (xs ys : List ι) :
    runOwn own s (xs ++ ys) =
      ((runOwn own (runOwn own s xs).1 ys).1,
        (runOwn own s xs).2 ++ (runOwn own (runOwn own s xs).1 ys).2) := by
  induction xs generalizing s with
  | nil => rfl
  | cons x rest ih =>
    rw [List.cons_append, runOwn_cons, runOwn_cons, ih]
    simp only [List.append_assoc]

end

variable [DecidableEq κ] {step : S → κ → ι → S × Option ω} {read : S → κ → σ}
  {own : κ → σ → ι → σ × Option ω}

/-- A run gives every machine the run of its own inputs. -/
theorem PerKey.run (h : PerKey step read own) (s : S) (xs : List (κ × ι)) (key : κ) :
    (read (runKeyed step s xs).1 key, ofKey key (runKeyed step s xs).2) =
      runOwn (own key) (read s key) (ofKey key xs) := by
  induction xs generalizing s with
  | nil => rfl
  | cons x rest ih =>
    obtain ⟨k, i⟩ := x
    have hrest := ih (step s k i).1
    rw [runKeyed_cons, ofKey_append]
    by_cases hk : key = k
    · subst hk
      have hhere := h.here s key i
      rw [ofKey_cons_self, runOwn_cons, ← hhere, ← hrest]
      cases (step s key i).2 <;> simp
    · rw [ofKey_cons_of_ne hk, ← h.elsewhere s k i key hk, ← hrest]
      cases (step s k i).2 with
      | none => rfl
      | some output => simp [ofKey_cons_of_ne hk]

end CFactory.Base
