import CFactory.Base.Runs
import Mathlib.Logic.Function.Basic

/-!
# Transactions under one lock

Any number of clients look at a shared state and write what they computed from it, each in a
transaction that holds one lock from before the look until it commits or is rolled back. The lock
comes with the opening of the transaction or with a statement of its own. Whatever the order of
the moves, the shared state is the one that the committed calls leave one after the other, and no
client is shut out. Nothing here names an application.
-/

namespace CFactory.Base.Critical

universe u v w x

/-- Where a client's transaction stands; what is written is not committed yet. -/
inductive Stage (κ : Type w) (ν : Type x) where
  | idle
  | opened (call : κ)
  | holding (call : κ)
  | seen (call : κ) (view : ν)
  | written (call : κ) (view : ν)

/-- One move of one client. -/
inductive Move (ι : Type u) (κ : Type w) where
  | start (who : ι) (call : κ)
  | lock (who : ι)
  | look (who : ι)
  | write (who : ι)
  | commit (who : ι)
  | abort (who : ι)

/-- What a transaction looks at and what it writes, whether opening it takes the lock, and which
calls raise instead of writing. -/
structure Discipline (σ : Type v) (κ : Type w) (ν : Type x) where
  early : Bool
  look : σ → ν
  fails : κ → Bool
  put : κ → ν → σ → σ

/-- The committed state, the lock, every client's transaction, and what was committed by whom,
oldest first. -/
structure Section (ι : Type u) (σ : Type v) (κ : Type w) (ν : Type x) where
  shared : σ
  holder : Option ι
  stage : ι → Stage κ ν
  done : List (ι × κ)

variable {ι : Type u} {σ : Type v} {κ : Type w} {ν : Type x}

/-- The call of an open transaction. -/
def Stage.call : Stage κ ν → Option κ
  | .idle => none
  | .opened c | .holding c | .seen c _ | .written c _ => some c

/-- Whether a transaction has the lock. -/
def Stage.locked (early : Bool) : Stage κ ν → Bool
  | .idle => false
  | .opened _ => early
  | .holding _ | .seen _ _ | .written _ _ => true

@[simp] theorem Stage.locked_idle (early : Bool) :
    (Stage.idle : Stage κ ν).locked early = false := rfl
@[simp] theorem Stage.locked_opened (early : Bool) (c : κ) :
    (Stage.opened c : Stage κ ν).locked early = early := rfl
@[simp] theorem Stage.locked_holding (early : Bool) (c : κ) :
    (Stage.holding c : Stage κ ν).locked early = true := rfl
@[simp] theorem Stage.locked_seen (early : Bool) (c : κ) (v : ν) :
    (Stage.seen c v).locked early = true := rfl
@[simp] theorem Stage.locked_written (early : Bool) (c : κ) (v : ν) :
    (Stage.written c v).locked early = true := rfl

/-- Nobody has opened a transaction. -/
def Section.start (s : σ) : Section ι σ κ ν := ⟨s, none, fun _ ↦ .idle, []⟩

/-- A call that nobody comes between. -/
def Discipline.serial (d : Discipline σ κ ν) (s : σ) (c : κ) : σ := d.put c (d.look s) s

/-- The lock is had by the transaction that is past it, what a transaction has seen is what there
is, and the shared state is that of the committed calls one after the other. -/
structure Sound (d : Discipline σ κ ν) (init : σ) (st : Section ι σ κ ν) : Prop where
  lock : ∀ i, st.holder = some i ↔ (st.stage i).locked d.early = true
  view : ∀ i c v, (st.stage i = .seen c v ∨ st.stage i = .written c v) → v = d.look st.shared
  serial : st.shared = (st.done.map Prod.snd).foldl d.serial init

theorem sound_start (d : Discipline σ κ ν) (init : σ) :
    Sound d init (Section.start init : Section ι σ κ ν) where
  lock := fun i ↦ by simp [Section.start]
  view := fun i c v h ↦ by simp [Section.start] at h
  serial := rfl

/-- At most one client has the lock. -/
theorem Sound.unique {d : Discipline σ κ ν} {init : σ} {st : Section ι σ κ ν} (h : Sound d init st)
    {i j : ι} (hi : (st.stage i).locked d.early = true)
    (hj : (st.stage j).locked d.early = true) : i = j := by
  have hhi := (h.lock i).mpr hi
  have hhj := (h.lock j).mpr hj
  rw [hhi] at hhj
  exact Option.some.inj hhj

/-! ## Moves -/

variable [DecidableEq ι] (d : Discipline σ κ ν)

/-- The client's transaction is at another stage. -/
def Section.goto (st : Section ι σ κ ν) (i : ι) (g : Stage κ ν) : Section ι σ κ ν :=
  { st with stage := Function.update st.stage i g }

/-- The client's transaction is at another stage and has the lock, if nobody has it. -/
def Section.take (st : Section ι σ κ ν) (i : ι) (g : Stage κ ν) : Section ι σ κ ν :=
  match st.holder with
  | none => { st.goto i g with holder := some i }
  | some _ => st

/-- The client has no transaction, and the lock is free if it had it. -/
def Section.leave (st : Section ι σ κ ν) (i : ι) : Section ι σ κ ν :=
  { st.goto i .idle with
    holder := if (st.stage i).locked d.early then none else st.holder }

/-- One move. A client that waits for the lock, or makes a move that is not its next one, changes
nothing. -/
def move (st : Section ι σ κ ν) : Move ι κ → Section ι σ κ ν
  | .start i c =>
    match st.stage i with
    | .idle => if d.early then st.take i (.opened c) else st.goto i (.opened c)
    | _ => st
  | .lock i =>
    match st.stage i with
    | .opened c => if d.early then st.goto i (.holding c) else st.take i (.holding c)
    | _ => st
  | .look i =>
    match st.stage i with
    | .holding c => st.goto i (.seen c (d.look st.shared))
    | _ => st
  | .write i =>
    match st.stage i with
    | .seen c v => if d.fails c then st.leave d i else st.goto i (.written c v)
    | _ => st
  | .commit i =>
    match st.stage i with
    | .written c v =>
      { st.leave d i with shared := d.put c v st.shared, done := st.done ++ [(i, c)] }
    | _ => st
  | .abort i => st.leave d i

variable {d}

/-- A transaction that keeps or lacks the lock as before goes to its next stage. -/
theorem Sound.goto {init : σ} {st : Section ι σ κ ν} (h : Sound d init st) {i : ι} {g : Stage κ ν}
    (hlocked : g.locked d.early = (st.stage i).locked d.early)
    (hview : ∀ c v, (g = .seen c v ∨ g = .written c v) → v = d.look st.shared) :
    Sound d init (st.goto i g) where
  lock := fun j ↦ by
    by_cases hj : j = i
    · subst hj
      simp only [Section.goto, Function.update_self]
      rw [hlocked]
      exact h.lock j
    · simp only [Section.goto, Function.update_of_ne hj]
      exact h.lock j
  view := fun j c v hst ↦ by
    by_cases hj : j = i
    · subst hj
      simp only [Section.goto, Function.update_self] at hst
      exact hview c v hst
    · simp only [Section.goto, Function.update_of_ne hj] at hst
      exact h.view j c v hst
  serial := h.serial

/-- A free lock is taken by one transaction. -/
theorem Sound.take {init : σ} {st : Section ι σ κ ν} (h : Sound d init st) {i : ι} {g : Stage κ ν}
    (hlocked : g.locked d.early = true)
    (hview : ∀ c v, (g = .seen c v ∨ g = .written c v) → v = d.look st.shared) :
    Sound d init (st.take i g) := by
  unfold Section.take
  split
  · next hfree =>
    have hnone : ∀ j, (st.stage j).locked d.early = false := by
      intro j
      rw [Bool.eq_false_iff]
      intro hj
      have hhj := (h.lock j).mpr hj
      rw [hfree] at hhj
      cases hhj
    refine ⟨fun j ↦ ?_, fun j c v hst ↦ ?_, h.serial⟩
    · by_cases hj : j = i
      · subst hj
        simp [Section.goto, hlocked]
      · simp only [Section.goto, Function.update_of_ne hj, hnone j]
        simp [Ne.symm hj]
    · by_cases hj : j = i
      · subst hj
        simp only [Section.goto, Function.update_self] at hst
        exact hview c v hst
      · simp only [Section.goto, Function.update_of_ne hj] at hst
        exact h.view j c v hst
  · exact h

/-- A transaction that ends frees the lock if it had it. -/
theorem Sound.leave {init : σ} {st : Section ι σ κ ν} (h : Sound d init st) (i : ι) :
    Sound d init (st.leave d i) where
  lock := fun j ↦ by
    by_cases hi : (st.stage i).locked d.early = true
    · by_cases hj : j = i
      · subst hj
        simp [Section.leave, Section.goto, hi]
      · have hfree : ¬ (st.stage j).locked d.early = true := fun hlock ↦ hj (h.unique hlock hi)
        simp [Section.leave, Section.goto, hi, hj, hfree]
    · by_cases hj : j = i
      · subst hj
        have hnot : ¬ st.holder = some j := fun hlock ↦ hi ((h.lock j).mp hlock)
        simp [Section.leave, Section.goto, hi, hnot]
      · simp only [Section.leave, Section.goto, if_neg hi, Function.update_of_ne hj]
        exact h.lock j
  view := fun j c v hst ↦ by
    by_cases hj : j = i
    · subst hj
      simp [Section.leave, Section.goto] at hst
    · simp only [Section.leave, Section.goto, Function.update_of_ne hj] at hst
      exact h.view j c v hst
  serial := h.serial

/-- What the holder of the lock commits is its call made on what there is. -/
theorem Sound.commit {init : σ} {st : Section ι σ κ ν} (h : Sound d init st) {i : ι} {c : κ} {v : ν}
    (hst : st.stage i = .written c v) :
    Sound d init { st.leave d i with
      shared := d.put c v st.shared, done := st.done ++ [(i, c)] } where
  lock := (h.leave i).lock
  view := fun j c' v' hj ↦ by
    -- Nobody else is past the lock, so nobody has seen the state before.
    have hlocked : ((st.leave d i).stage j).locked d.early = true := by
      rcases hj with hj | hj <;> simp only at hj <;> rw [hj] <;> rfl
    by_cases hij : j = i
    · subst hij
      simp [Section.leave, Section.goto] at hlocked
    · simp only [Section.leave, Section.goto, Function.update_of_ne hij] at hlocked
      have hi : (st.stage i).locked d.early = true := by rw [hst]; rfl
      exact absurd (h.unique hlocked hi) hij
  serial := by
    have hv : v = d.look st.shared := h.view i c v (.inr hst)
    simp only [List.map_append, List.map_cons, List.map_nil, List.foldl_append, List.foldl_cons,
      List.foldl_nil]
    rw [← h.serial, hv]
    rfl

/-- Every move keeps the section sound. -/
theorem sound_move {init : σ} {st : Section ι σ κ ν} (h : Sound d init st) (m : Move ι κ) :
    Sound d init (move d st m) := by
  cases m with
  | start i c =>
    simp only [move]
    split
    · next hst =>
      split
      · next hearly => exact h.take hearly (by simp)
      · next hlate => exact h.goto (by simpa [hst] using hlate) (by simp)
    · exact h
  | lock i =>
    simp only [move]
    split
    · next hst =>
      split
      · next hearly => exact h.goto (by simp [hst, Stage.locked, hearly]) (by simp)
      · exact h.take rfl (by simp)
    · exact h
  | look i =>
    simp only [move]
    split
    · next hst =>
      refine h.goto (by simp [hst]) fun c v hv ↦ ?_
      rcases hv with hv | hv <;> cases hv
      rfl
    · exact h
  | write i =>
    simp only [move]
    split
    · next c v hst =>
      split
      · exact h.leave i
      · refine h.goto (by simp [hst]) fun c' v' hv ↦ ?_
        rcases hv with hv | hv <;> cases hv
        exact h.view i c v (.inl hst)
    · exact h
  | commit i =>
    simp only [move]
    split
    · next hst => exact h.commit hst
    · exact h
  | abort i => exact h.leave i

/-- Every run of moves leaves the section sound. -/
theorem sound_run (init : σ) (ms : List (Move ι κ)) :
    Sound d init (ms.foldl (move d) (Section.start init)) :=
  foldl_invariant (P := Sound d init) (fun _ m h ↦ sound_move h m) (sound_start d init) ms

/-- A move leaves the shared state alone, or it commits what one client has written. -/
theorem shared_move (d : Discipline σ κ ν) (st : Section ι σ κ ν) (m : Move ι κ) :
    (move d st m).shared = st.shared ∨ ∃ c v, (move d st m).shared = d.put c v st.shared := by
  have htake : ∀ i g, (st.take i g).shared = st.shared := by
    intro i g
    unfold Section.take
    split <;> rfl
  cases m with
  | start i c =>
    simp only [move]
    repeat' split
    all_goals first | exact .inl rfl | exact .inl (htake _ _)
  | lock i =>
    simp only [move]
    repeat' split
    all_goals first | exact .inl rfl | exact .inl (htake _ _)
  | commit i =>
    simp only [move]
    split
    · next c v _ => exact .inr ⟨c, v, rfl⟩
    · exact .inl rfl
  | look i => simp only [move]; split <;> exact .inl rfl
  | write i =>
    simp only [move]
    repeat' split
    all_goals exact .inl rfl
  | abort i => exact .inl rfl

/-! ## Nobody is shut out -/

/-- The moves that bring an open transaction to its end. -/
def finish (i : ι) : List (Move ι κ) := [.lock i, .look i, .write i, .commit i]

/-- A client that holds the lock, or finds it free, ends its transaction and frees the lock. What
it commits is its call, unless that raises. -/
theorem finish_frees {init : σ} {st : Section ι σ κ ν} (h : Sound d init st) {i : ι} {c : κ}
    (hcall : (st.stage i).call = some c) (hlock : st.holder = none ∨ st.holder = some i) :
    (∃ last, ((finish i).foldl (move d) st).done = st.done ++ last ∧
        (d.fails c = false → last = [(i, c)])) ∧
      ((finish i).foldl (move d) st).holder = none ∧
      ∀ j, j ≠ i → ((finish i).foldl (move d) st).stage j = st.stage j := by
  cases hst : st.stage i with
  | idle => simp [hst, Stage.call] at hcall
  | opened c' =>
    obtain rfl : c' = c := by simpa [hst, Stage.call] using hcall
    cases hearly : d.early with
    | true =>
      cases hfails : d.fails c' <;>
        simp +contextual [finish, move, hst, hearly, hfails, Section.goto, Section.leave]
    | false =>
      have hfree : st.holder = none := by
        refine hlock.resolve_right fun hheld ↦ ?_
        have := (h.lock i).mp hheld
        simp [hst, hearly] at this
      cases hfails : d.fails c' <;>
        simp +contextual [finish, move, hst, hearly, hfails, hfree, Section.goto, Section.take,
          Section.leave]
  | holding c' =>
    obtain rfl : c' = c := by simpa [hst, Stage.call] using hcall
    cases hfails : d.fails c' <;>
      simp +contextual [finish, move, hst, hfails, Section.goto, Section.leave]
  | seen c' v =>
    obtain rfl : c' = c := by simpa [hst, Stage.call] using hcall
    cases hfails : d.fails c' <;>
      simp +contextual [finish, move, hst, hfails, Section.goto, Section.leave]
  | written c' v =>
    obtain rfl : c' = c := by simpa [hst, Stage.call] using hcall
    simp +contextual [finish, move, hst, Section.goto, Section.leave]

/-- Every open transaction that does not raise can still be committed: after the one that holds
the lock, if that is another. -/
theorem Sound.can_commit {init : σ} {st : Section ι σ κ ν} (h : Sound d init st) {i : ι} {c : κ}
    (hcall : (st.stage i).call = some c) (hfails : d.fails c = false) :
    ∃ (ms : List (Move ι κ)) (before : List (ι × κ)),
      (ms.foldl (move d) st).done = st.done ++ before ++ [(i, c)] := by
  by_cases hlock : st.holder = none ∨ st.holder = some i
  · obtain ⟨⟨last, hdone, hlast⟩, -⟩ := finish_frees h hcall hlock
    exact ⟨finish i, [], by rw [List.append_nil, hdone, hlast hfails]⟩
  · obtain ⟨hsome, hother⟩ := not_or.mp hlock
    obtain ⟨j, hj⟩ := Option.ne_none_iff_exists'.mp hsome
    have hij : i ≠ j := fun hij ↦ hother (hij ▸ hj)
    obtain ⟨b, hb⟩ : ∃ b, (st.stage j).call = some b := by
      have hlocked := (h.lock j).mp hj
      cases hst : st.stage j with
      | idle => simp [hst] at hlocked
      | opened b => exact ⟨b, rfl⟩
      | holding b => exact ⟨b, rfl⟩
      | seen b v => exact ⟨b, rfl⟩
      | written b v => exact ⟨b, rfl⟩
    obtain ⟨⟨before, hdone, -⟩, hfree, hrest⟩ := finish_frees h hb (.inr hj)
    have hnext : Sound d init ((finish j).foldl (move d) st) :=
      foldl_invariant (P := Sound d init) (fun _ m hs ↦ sound_move hs m) h _
    have hcall' : (((finish j).foldl (move d) st).stage i).call = some c := by
      rw [hrest i hij]
      exact hcall
    obtain ⟨⟨last, hdone', hlast⟩, -⟩ := finish_frees hnext hcall' (.inl hfree)
    refine ⟨finish j ++ finish i, before, ?_⟩
    rw [List.foldl_append, hdone', hlast hfails, hdone]

end CFactory.Base.Critical
