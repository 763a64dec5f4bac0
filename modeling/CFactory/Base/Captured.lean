import CFactory.Base.Callers

/-!
# Callers that write back what they captured

A call captures the whole shared state, writes its draft over the capture, and once more writes
over the same capture when it ends. What the others wrote in between is lost, so a state is
described by its lineage: the calls it descends from, newest first, each with whether the state
holds what the call ended with or still its draft. Nothing here names an application.
-/

namespace CFactory.Base

universe u v

/-- The calls a state descends from, newest first; `true` marks a call that had ended. -/
abbrev Lineage (ι : Type u) := List (ι × Bool)

/-- Where a call stands. -/
inductive Phase (σ : Type v) where
  | idle
  | waiting (captured : σ)
  | finished
  deriving DecidableEq

namespace Captured

variable {ι : Type u} [DecidableEq ι] (joins : ι → Bool)

/-- The next statement of a call, on lineages. A call that does not join ends at once. -/
def next (i : ι) (_ : Unit) : Phase (Lineage ι) → Lineage ι → Phase (Lineage ι) × Lineage ι
  | .idle, l => if joins i then (.waiting l, (i, false) :: l) else (.finished, l)
  | .waiting captured, _ => (.finished, (i, true) :: captured)
  | .finished, l => (.finished, l)

/-- Where every call stands, and the lineage of the shared state. -/
abbrev Calls (ι : Type u) := Callers ι (Phase (Lineage ι)) (Lineage ι)

/-- Nobody has called. -/
def start : Calls ι := ⟨fun _ ↦ .idle, []⟩

/-- The callers after a schedule, which names who performs its next statement. -/
def after (schedule : List ι) : Calls ι :=
  Callers.run (next joins) start (schedule.map fun i ↦ (i, ()))

/-- The lineage of the state that a schedule leads to. -/
def lineage (schedule : List ι) : Lineage ι := (after joins schedule).shared

/-- The callers of a lineage. -/
def callers (l : Lineage ι) : List ι := l.map Prod.fst

/-! ### A call descends from what came before it -/

/-- The lineage names every call at most once, and none that has not begun. -/
def Grounded (c : Calls ι) (l : Lineage ι) : Prop :=
  (callers l).Nodup ∧ ∀ i ∈ callers l, c.pc i ≠ .idle

/-- Every lineage at hand is grounded, and no call is in the lineage it captured. -/
structure Sound (c : Calls ι) : Prop where
  shared : Grounded c c.shared
  captured : ∀ i l, c.pc i = .waiting l → Grounded c l ∧ i ∉ callers l

variable {joins}

omit [DecidableEq ι] in
/-- No step makes a call idle. -/
private theorem next_ne_idle (i : ι) (p : Phase (Lineage ι)) (l : Lineage ι) :
    (next joins i () p l).1 ≠ .idle := by
  cases p with
  | idle =>
    rw [next]
    split <;> simp
  | waiting captured => simp [next]
  | finished => simp [next]

private theorem pc_step_ne_idle (joins : ι → Bool) {c : Calls ι} {i j : ι}
    (h : c.pc j ≠ .idle) : (Callers.step (next joins) c (i, ())).pc j ≠ .idle := by
  by_cases hj : j = i
  · subst hj
    rw [Callers.pc_step_self]
    exact next_ne_idle _ _ _
  · rwa [Callers.pc_step_other _ c () hj]

private theorem Grounded.step {c : Calls ι} {l : Lineage ι}
    (h : Grounded c l) (i : ι) : Grounded (Callers.step (next joins) c (i, ())) l :=
  ⟨h.1, fun j hj ↦ pc_step_ne_idle joins (h.2 j hj)⟩

private theorem Grounded.cons {c : Calls ι} {l : Lineage ι}
    (h : Grounded c l) {i : ι} (hi : i ∉ callers l) (b : Bool) :
    Grounded (Callers.step (next joins) c (i, ())) ((i, b) :: l) := by
  refine ⟨List.nodup_cons.mpr ⟨hi, h.1⟩, ?_⟩
  intro j hj
  cases List.mem_cons.mp hj with
  | inl hself =>
    subst hself
    rw [Callers.pc_step_self]
    exact next_ne_idle _ _ _
  | inr hrest => exact pc_step_ne_idle joins (h.2 j hrest)

/-- Each step keeps the lineages sound. -/
theorem Sound.step {c : Calls ι} (h : Sound c) (i : ι) :
    Sound (Callers.step (next joins) c (i, ())) := by
  have hidle : c.pc i = .idle → i ∉ callers c.shared := fun hi hmem ↦ h.shared.2 i hmem hi
  constructor
  · rw [Callers.shared_step]
    cases hpc : c.pc i with
    | idle =>
      rw [next]
      split
      · exact h.shared.cons (hidle hpc) false
      · exact h.shared.step i
    | waiting captured =>
      obtain ⟨hgrounded, hi⟩ := h.captured i captured hpc
      exact hgrounded.cons hi true
    | finished => exact h.shared.step i
  · intro j l hj
    by_cases hji : j = i
    · subst hji
      rw [Callers.pc_step_self] at hj
      cases hpc : c.pc j with
      | idle =>
        rw [hpc, next] at hj
        split at hj
        · cases hj
          exact ⟨h.shared.step j, hidle hpc⟩
        · cases hj
      | waiting captured =>
        rw [hpc] at hj
        cases hj
      | finished =>
        rw [hpc] at hj
        cases hj
    · rw [Callers.pc_step_other _ c () hji] at hj
      obtain ⟨hgrounded, hnot⟩ := h.captured j l hj
      exact ⟨hgrounded.step i, hnot⟩

private theorem sound_run {c : Calls ι} (h : Sound c)
    (schedule : List ι) :
    Sound (Callers.run (next joins) c (schedule.map fun i ↦ (i, ()))) := by
  induction schedule generalizing c with
  | nil => exact h
  | cons i rest ih => exact ih (h.step i)

omit [DecidableEq ι] in
/-- Before any call the lineages are sound. -/
theorem sound_start : Sound (start : Calls ι) := by
  constructor
  · exact ⟨List.nodup_nil, by simp [start, callers]⟩
  · intro i l h
    cases h

/-- Every schedule leads to sound lineages. -/
theorem sound_after (schedule : List ι) : Sound (after joins schedule) :=
  sound_run sound_start schedule

/-- A lineage names every call at most once. -/
theorem nodup_lineage (schedule : List ι) : (callers (lineage joins schedule)).Nodup :=
  (sound_after schedule).shared.1

/-- A call has begun exactly if it is on the schedule. -/
theorem pc_after_ne_idle_iff {schedule : List ι} {i : ι} :
    (after joins schedule).pc i ≠ .idle ↔ i ∈ schedule := by
  constructor
  · intro h
    by_contra hmem
    apply h
    refine Callers.pc_run_other start fun e he ↦ ?_
    obtain ⟨j, hj, rfl⟩ := List.mem_map.mp he
    rintro rfl
    exact hmem hj
  · intro h
    obtain ⟨front, back, rfl⟩ := List.append_of_mem h
    have hkept : ∀ (c : Calls ι) (l : List ι), c.pc i ≠ .idle →
        (Callers.run (next joins) c (l.map fun i ↦ (i, ()))).pc i ≠ .idle := by
      intro c l
      induction l generalizing c with
      | nil => exact id
      | cons j rest ih => exact fun hc ↦ ih _ (pc_step_ne_idle joins hc)
    have hbegun : ((back.map fun i ↦ (i, ())).foldl (Callers.step (next joins))
        (Callers.step (next joins) (after joins front) (i, ()))).pc i ≠ .idle := by
      apply hkept
      rw [Callers.pc_step_self]
      exact next_ne_idle _ _ _
    rw [after, List.map_append, List.map_cons, Callers.run, List.foldl_append, List.foldl_cons]
    exact hbegun

/-- The calls of a lineage are on the schedule. -/
theorem mem_schedule {schedule : List ι} {i : ι} (h : i ∈ callers (lineage joins schedule)) :
    i ∈ schedule :=
  pc_after_ne_idle_iff.mp ((sound_after schedule).shared.2 i h)

/-! ### Calls one at a time -/

/-- Nobody is waiting. -/
def Quiet (c : Calls ι) : Prop :=
  ∀ i l, c.pc i ≠ .waiting l

/-- A call begins only while nobody waits. -/
def BeginsAlone (c : Calls ι) (e : ι × Unit) : Prop :=
  c.pc e.1 = .idle → Quiet c

/-- The lineage holds every call that joined and ended, as it ended. -/
def HoldsEnded (joins : ι → Bool) (c : Calls ι) (l : Lineage ι) : Prop :=
  ∀ i, joins i = true → c.pc i = .finished → (i, true) ∈ l

/-- Either nobody waits and the shared state holds the calls as they ended, or one call waits
and what it captured does. -/
def OneAtATime (joins : ι → Bool) (c : Calls ι) : Prop :=
  (Quiet c ∧ HoldsEnded joins c c.shared) ∨
    ∃ i l, c.pc i = .waiting l ∧ (∀ j m, c.pc j = .waiting m → j = i) ∧ HoldsEnded joins c l

private theorem OneAtATime.begin {c : Calls ι} (hquiet : Quiet c)
    (hholds : HoldsEnded joins c c.shared) {i : ι} (hi : c.pc i = .idle) :
    OneAtATime joins (Callers.step (next joins) c (i, ())) := by
  by_cases hjoins : joins i = true
  · have hnext : next joins i () (c.pc i) c.shared =
        (.waiting c.shared, (i, false) :: c.shared) := by
      rw [hi, next, if_pos hjoins]
    have hself : (Callers.step (next joins) c (i, ())).pc i = .waiting c.shared := by
      rw [Callers.pc_step_self, hnext]
    refine .inr ⟨i, c.shared, hself, ?_, ?_⟩
    · intro j m hj
      by_contra hne
      rw [Callers.pc_step_other _ c () hne] at hj
      exact hquiet j m hj
    · intro j hjoined hj
      by_cases hji : j = i
      · subst hji
        rw [hself] at hj
        cases hj
      · rw [Callers.pc_step_other _ c () hji] at hj
        exact hholds j hjoined hj
  · have hnext : next joins i () (c.pc i) c.shared = (.finished, c.shared) := by
      rw [hi, next, if_neg hjoins]
    refine .inl ⟨?_, ?_⟩
    · intro j m hj
      by_cases hji : j = i
      · subst hji
        rw [Callers.pc_step_self, hnext] at hj
        cases hj
      · rw [Callers.pc_step_other _ c () hji] at hj
        exact hquiet j m hj
    · intro j hjoined hj
      rw [Callers.shared_step, hnext]
      by_cases hji : j = i
      · subst hji
        exact absurd hjoined hjoins
      · rw [Callers.pc_step_other _ c () hji] at hj
        exact hholds j hjoined hj

private theorem OneAtATime.finish {c : Calls ι} {i : ι} {l : Lineage ι} (hi : c.pc i = .waiting l)
    (honly : ∀ j m, c.pc j = .waiting m → j = i) (hholds : HoldsEnded joins c l) :
    OneAtATime joins (Callers.step (next joins) c (i, ())) := by
  have hnext : next joins i () (c.pc i) c.shared = (.finished, (i, true) :: l) := by
    rw [hi, next]
  refine .inl ⟨?_, ?_⟩
  · intro j m hj
    by_cases hji : j = i
    · subst hji
      rw [Callers.pc_step_self, hnext] at hj
      cases hj
    · rw [Callers.pc_step_other _ c () hji] at hj
      exact hji (honly j m hj)
  · intro j hjoined hj
    rw [Callers.shared_step, hnext]
    by_cases hji : j = i
    · subst hji
      exact List.mem_cons_self
    · rw [Callers.pc_step_other _ c () hji] at hj
      exact List.mem_cons_of_mem _ (hholds j hjoined hj)

/-- A step of a call that has ended changes nothing. -/
private theorem step_finished {c : Calls ι} {i : ι} (hi : c.pc i = .finished) :
    Callers.step (next joins) c (i, ()) = c := by
  have hnext : next joins i () (c.pc i) c.shared = (c.pc i, c.shared) := by
    rw [hi, next]
  rw [Callers.step, hnext, Function.update_eq_self]

/-- A call that begins alone keeps the calls one at a time. -/
theorem OneAtATime.step {c : Calls ι} (h : OneAtATime joins c) {i : ι}
    (halone : BeginsAlone c (i, ())) :
    OneAtATime joins (Callers.step (next joins) c (i, ())) := by
  cases hi : c.pc i with
  | idle =>
    have hquiet : Quiet c := halone hi
    cases h with
    | inl h => exact .begin hquiet h.2 hi
    | inr h =>
      obtain ⟨j, l, hj, -⟩ := h
      exact absurd hj (hquiet j l)
  | waiting l =>
    cases h with
    | inl h => exact absurd hi (h.1 i l)
    | inr h =>
      obtain ⟨j, m, hj, honly, hholds⟩ := h
      have hij := honly i l hi
      subst hij
      rw [hi] at hj
      cases hj
      exact .finish hi honly hholds
  | finished =>
    rw [step_finished hi]
    exact h

/-- Where every call begins alone and all have ended, the lineage holds each as it ended. -/
theorem lineage_holdsEnded {schedule : List ι}
    (halone : EachStep (Callers.step (next joins)) BeginsAlone start
      (schedule.map fun i ↦ (i, ())))
    (hended : Quiet (after joins schedule)) :
    HoldsEnded joins (after joins schedule) (lineage joins schedule) := by
  have hstart : OneAtATime joins (start : Calls ι) := by
    refine .inl ⟨?_, ?_⟩
    · intro i l h
      cases h
    · intro i _ h
      cases h
  have hrun := (throughout_of_step
    (fun (c : Calls ι) (e : ι × Unit) h (hc : BeginsAlone c e) ↦ h.step hc) hstart halone).last
  cases hrun with
  | inl h => exact h.2
  | inr h =>
    obtain ⟨i, l, hi, -⟩ := h
    exact absurd hi (hended i l)

end Captured

end CFactory.Base
