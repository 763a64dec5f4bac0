import CFactory.Base.Runs
import Mathlib.Data.List.Induction
import Mathlib.Logic.Function.Basic

/-!
# Telling clients of a shared state

Tasks change a shared state and tell every listed client what changed, one client after the other.
A client that joins is listed first, looks at the whole state then, and is sent what it saw last.
Whatever the order of the moves, no listed client is left without the present value of a key,
unless a send to it failed or the change is told to nobody. A screen that applies its messages in
the order in which they were read shows the state. Nothing here names an application.
-/

namespace CFactory.Base.Fanout

universe u v w x y

/-- A shared state, what a message says of it, and what a screen makes of a message. -/
structure Channel (σ : Type u) (κ : Type v) (ν : Type w) (μ : Type x) (δ : Type y) where
  look : σ → κ → ν
  mentions : μ → κ → Bool
  gives : μ → κ → ν
  whole : σ → μ
  shows : δ → κ → ν
  apply : δ → μ → δ
  mentions_whole : ∀ s k, mentions (whole s) k = true
  gives_whole : ∀ s k, gives (whole s) k = look s k
  shows_apply : ∀ d m k, shows (apply d m) k = if mentions m k then gives m k else shows d k

/-- A message, and when it was read. -/
structure Told (μ : Type x) where
  message : μ
  asof : Nat

/-- Where a task stands: it has a message to tell, or tells it to the clients that were listed. -/
inductive Task (ι : Type u) (μ : Type x) where
  | idle
  | holding (t : Told μ)
  | casting (t : Told μ) (rest dead : List ι)

/-- Where a client stands: it is listed, has looked, and has been sent what it saw. -/
inductive Seat (μ : Type x) where
  | away
  | listed
  | looked (t : Told μ)
  | fed
  | gone

variable {ι : Type u} {τ : Type u} {σ : Type u} {κ : Type v} {ν : Type w} {μ : Type x} {δ : Type y}

/-- A transaction with what it has to tell: every change is told, and what is told is so. -/
structure Edit (c : Channel σ κ ν μ δ) where
  run : σ → σ × Option μ
  tells : ∀ s k, c.look (run s).1 k ≠ c.look s k →
    ∃ m, (run s).2 = some m ∧ c.mentions m k = true
  holds : ∀ s m k, (run s).2 = some m → c.mentions m k = true → c.gives m k = c.look (run s).1 k

/-- One move of one task or client. -/
inductive Move (ι τ : Type u) (c : Channel σ κ ν μ δ) where
  | edit (task : τ) (e : Edit c)
  | revise (g : σ → σ)
  | look (task : τ)
  | start (task : τ)
  | serve (task : τ) (who : ι) (ok : Bool)
  | settle (task : τ)
  | drop (task : τ)
  | enlist (who : ι)
  | peek (who : ι)
  | greet (who : ι) (ok : Bool)
  | leave (who : ι)
  | ask
  | arrive (who : ι) (answer : Nat)

/-- The state, the listed clients, where everybody stands, what reached a client, oldest first, and
the answers that clients asked for. The last three fields are history: the number of changes, the
last change of a key, and the keys whose change nobody has read since to tell it. -/
structure Hub (ι τ σ : Type u) (κ : Type v) (μ : Type x) where
  shared : σ
  active : List ι
  task : τ → Task ι μ
  seat : ι → Seat μ
  failed : ι → Bool
  inbox : ι → List (Told μ)
  answers : List (Told μ)
  clock : Nat
  stamp : κ → Nat
  owed : κ → Bool

/-- Nobody is there. -/
def Hub.empty (s : σ) : Hub ι τ σ κ μ :=
  ⟨s, [], fun _ ↦ .idle, fun _ ↦ .away, fun _ ↦ false, fun _ ↦ [], [], 0, fun _ ↦ 0,
    fun _ ↦ false⟩

/-- A client that is to be told of every change. -/
def Seat.seated : Seat μ → Bool
  | .away | .gone => false
  | .listed | .looked _ | .fed => true

/-- The message of a task. -/
def Task.told : Task ι μ → Option (Told μ)
  | .idle => none
  | .holding t | .casting t _ _ => some t

/-- The task has a message that is still to be sent to the client. -/
def Task.owes [DecidableEq ι] (i : ι) : Task ι μ → Option (Told μ)
  | .idle => none
  | .holding t => some t
  | .casting t rest _ => if i ∈ rest then some t else none

/-! ## Moves -/

section Moves

variable [DecidableEq ι] [DecidableEq τ] [DecidableEq ν] (c : Channel σ κ ν μ δ)

/-- The shared state is another one. -/
def Hub.change (st : Hub ι τ σ κ μ) (s : σ) : Hub ι τ σ κ μ :=
  { st with
    shared := s
    clock := st.clock + 1
    stamp := fun k ↦ if c.look s k = c.look st.shared k then st.stamp k else st.clock + 1 }

/-- What there is now, to be told. -/
def Hub.reading (st : Hub ι τ σ κ μ) : Told μ := ⟨c.whole st.shared, st.clock⟩

/-- The task stands elsewhere. -/
def Hub.goto (st : Hub ι τ σ κ μ) (j : τ) (g : Task ι μ) : Hub ι τ σ κ μ :=
  { st with task := Function.update st.task j g }

/-- The client stands elsewhere. -/
def Hub.sit (st : Hub ι τ σ κ μ) (i : ι) (g : Seat μ) : Hub ι τ σ κ μ :=
  { st with seat := Function.update st.seat i g }

/-- A message reaches the client. -/
def Hub.post (st : Hub ι τ σ κ μ) (i : ι) (t : Told μ) : Hub ι τ σ κ μ :=
  { st with inbox := Function.update st.inbox i (st.inbox i ++ [t]) }

/-- The client is no longer listed. -/
def Hub.discard (st : Hub ι τ σ κ μ) (i : ι) : Hub ι τ σ κ μ :=
  { st with active := st.active.filter (· ≠ i) }

/-- One move; one that is not the next of its task or client changes nothing. -/
def Hub.move (st : Hub ι τ σ κ μ) : Move ι τ c → Hub ι τ σ κ μ
  | .edit j e =>
    match st.task j with
    | .idle =>
      let after := st.change c (e.run st.shared).1
      match (e.run st.shared).2 with
      | none => after
      | some m => after.goto j (.holding ⟨m, after.clock⟩)
    | _ => st
  | .revise g =>
    { st.change c (g st.shared) with
      owed := fun k ↦ st.owed k || decide (c.look (g st.shared) k ≠ c.look st.shared k) }
  | .look j =>
    match st.task j with
    | .idle => { st.goto j (.holding (st.reading c)) with owed := fun _ ↦ false }
    | _ => st
  | .start j =>
    match st.task j with
    | .holding t => st.goto j (.casting t st.active [])
    | _ => st
  | .serve j i ok =>
    match st.task j with
    | .casting t rest dead =>
      if i ∈ rest then
        if ok then (st.goto j (.casting t (rest.erase i) dead)).post i t
        else
          { st.goto j (.casting t (rest.erase i) (i :: dead)) with
            failed := Function.update st.failed i true }
      else st
    | _ => st
  | .settle j =>
    match st.task j with
    | .casting _ [] dead => dead.foldl Hub.discard (st.goto j .idle)
    | _ => st
  | .drop j =>
    match (st.task j).told with
    | some t => { st.goto j .idle with owed := fun k ↦ st.owed k || c.mentions t.message k }
    | none => st
  | .enlist i =>
    match st.seat i with
    | .away => { st.sit i .listed with active := st.active.insert i }
    | _ => st
  | .peek i =>
    match st.seat i with
    | .listed => st.sit i (.looked (st.reading c))
    | _ => st
  | .greet i ok =>
    match st.seat i with
    | .looked t => if ok then (st.sit i .fed).post i t else (st.sit i .gone).discard i
    | _ => st
  | .leave i =>
    if (st.seat i).seated then (st.sit i .gone).discard i else st
  | .ask => { st with answers := st.answers ++ [st.reading c] }
  | .arrive i n =>
    match st.answers[n]? with
    | some t => st.post i t
    | none => st

end Moves

/-! ## What is known of a key -/

section Knowledge

variable (c : Channel σ κ ν μ δ)

/-- The message was read after the last change of the key, and mentions it. -/
def Current (st : Hub ι τ σ κ μ) (t : Told μ) (k : κ) : Prop :=
  c.mentions t.message k = true ∧ st.stamp k ≤ t.asof

/-- A message that is current for a key says what there is. -/
def Honest (st : Hub ι τ σ κ μ) (t : Told μ) : Prop :=
  t.asof ≤ st.clock ∧ ∀ k, Current c st t k → c.gives t.message k = c.look st.shared k

/-- A message that somebody has. -/
inductive Abroad (st : Hub ι τ σ κ μ) (t : Told μ) : Prop where
  | task (j : τ) (h : (st.task j).told = some t)
  | seat (i : ι) (h : st.seat i = .looked t)
  | inbox (i : ι) (h : t ∈ st.inbox i)
  | answer (h : t ∈ st.answers)

/-- The client has the present value under the key, or it is on its way to it. -/
inductive Due [DecidableEq ι] (st : Hub ι τ σ κ μ) (i : ι) (k : κ) : Prop where
  | owed (h : st.owed k = true)
  | task (j : τ) (t : Told μ) (h : (st.task j).owes i = some t) (hcur : Current c st t k)
  | seat (t : Told μ) (h : st.seat i = .looked t) (hcur : Current c st t k)
  | inbox (t : Told μ) (h : t ∈ st.inbox i) (hcur : Current c st t k)

/-- A client that has looked. -/
def Seat.joined : Seat μ → Bool
  | .looked _ | .fed => true
  | _ => false

/-- What every run keeps. -/
structure Sound [DecidableEq ι] (st : Hub ι τ σ κ μ) : Prop where
  stamp : ∀ k, st.stamp k ≤ st.clock
  honest : ∀ t, Abroad st t → Honest c st t
  listed : ∀ i, (st.seat i).seated = true → st.failed i = false → i ∈ st.active
  dead : ∀ j t rest dead, st.task j = .casting t rest dead → ∀ i ∈ dead, st.failed i = true
  due : ∀ i k, (st.seat i).joined = true → st.failed i = false → Due c st i k

end Knowledge

variable {c : Channel σ κ ν μ δ} {st : Hub ι τ σ κ μ}

/-- Who has a message depends on these four alone. -/
theorem Abroad.of_same {st' : Hub ι τ σ κ μ} {t : Told μ} (h : Abroad st t)
    (htask : st.task = st'.task) (hseat : st.seat = st'.seat) (hinbox : st.inbox = st'.inbox)
    (hanswers : st.answers = st'.answers) : Abroad st' t := by
  cases h with
  | task j h => exact .task j (htask ▸ h)
  | seat i h => exact .seat i (hseat ▸ h)
  | inbox i h => exact .inbox i (hinbox ▸ h)
  | answer h => exact .answer (hanswers ▸ h)

theorem honest_reading : Honest c st (st.reading c) :=
  ⟨Nat.le_refl _, fun k _ ↦ c.gives_whole st.shared k⟩

theorem current_reading (hstamp : ∀ k, st.stamp k ≤ st.clock) (k : κ) :
    Current c st (st.reading c) k :=
  ⟨c.mentions_whole st.shared k, hstamp k⟩

/-- A client that joined is seated. -/
theorem Seat.seated_of_joined {g : Seat μ} (h : g.joined = true) : g.seated = true := by
  cases g <;> simp_all [Seat.joined, Seat.seated]

section Change

variable [DecidableEq ν]

theorem Current.change {t : Told μ} {k : κ} (h : Current c st t k) {s : σ}
    (hsame : c.look s k = c.look st.shared k) : Current c (st.change c s) t k := by
  refine ⟨h.1, ?_⟩
  simp only [Hub.change, if_pos hsame]
  exact h.2

/-- What a message says of a key stays true until the key changes. -/
theorem Honest.change {t : Told μ} (h : Honest c st t) (s : σ) : Honest c (st.change c s) t := by
  refine ⟨Nat.le_succ_of_le h.1, fun k ⟨hmentions, hstamp⟩ ↦ ?_⟩
  by_cases hsame : c.look s k = c.look st.shared k
  · simp only [Hub.change, if_pos hsame] at hstamp
    exact (h.2 k ⟨hmentions, hstamp⟩).trans hsame.symm
  · simp only [Hub.change, if_neg hsame] at hstamp
    have := h.1
    omega

/-- What a client knows of a key it knows until the key changes. -/
theorem Due.change [DecidableEq ι] {i : ι} {k : κ} (h : Due c st i k) {s : σ}
    (hsame : c.look s k = c.look st.shared k) : Due c (st.change c s) i k := by
  cases h with
  | owed h => exact .owed h
  | task j t h hcur => exact .task j t h (hcur.change hsame)
  | seat t h hcur => exact .seat t h (hcur.change hsame)
  | inbox t h hcur => exact .inbox t h (hcur.change hsame)

end Change

section Tasks

variable [DecidableEq τ]

theorem Abroad.of_goto {j : τ} {g : Task ι μ} {t : Told μ} (h : Abroad (st.goto j g) t) :
    Abroad st t ∨ g.told = some t := by
  cases h with
  | task j' h =>
    by_cases hj : j' = j
    · subst hj
      simp only [Hub.goto, Function.update_self] at h
      exact .inr h
    · simp only [Hub.goto, Function.update_of_ne hj] at h
      exact .inl (.task j' h)
  | seat i h => exact .inl (.seat i h)
  | inbox i h => exact .inl (.inbox i h)
  | answer h => exact .inl (.answer h)

end Tasks

section Clients

variable [DecidableEq ι]

theorem sound_empty (s : σ) : Sound c (Hub.empty s : Hub ι τ σ κ μ) where
  stamp := fun _ ↦ Nat.le_refl 0
  honest := fun t h ↦ by cases h <;> simp_all [Hub.empty, Task.told]
  listed := fun i h ↦ by simp [Hub.empty, Seat.seated] at h
  dead := fun j t rest dead h ↦ by simp [Hub.empty] at h
  due := fun i k h ↦ by simp [Hub.empty, Seat.joined] at h

theorem Abroad.of_sit {i : ι} {g : Seat μ} {t : Told μ} (h : Abroad (st.sit i g) t) :
    Abroad st t ∨ g = .looked t := by
  cases h with
  | task j h => exact .inl (.task j h)
  | seat i' h =>
    by_cases hi : i' = i
    · subst hi
      simp only [Hub.sit, Function.update_self] at h
      exact .inr h
    · simp only [Hub.sit, Function.update_of_ne hi] at h
      exact .inl (.seat i' h)
  | inbox i' h => exact .inl (.inbox i' h)
  | answer h => exact .inl (.answer h)

theorem Abroad.of_post {i : ι} {t' t : Told μ} (h : Abroad (st.post i t') t) :
    Abroad st t ∨ t = t' := by
  cases h with
  | task j h => exact .inl (.task j h)
  | seat i' h => exact .inl (.seat i' h)
  | inbox i' h =>
    by_cases hi : i' = i
    · subst hi
      simp only [Hub.post, Function.update_self, List.mem_append, List.mem_singleton] at h
      exact h.imp_left (.inbox i')
    · simp only [Hub.post, Function.update_of_ne hi] at h
      exact .inl (.inbox i' h)
  | answer h => exact .inl (.answer h)

/-- A client goes on, and what it saw is seen to. -/
theorem Due.sit {i : ι} {k : κ} (h : Due c st i k) {i' : ι} {g : Seat μ}
    (hown : ∀ t, i = i' → st.seat i = .looked t → Current c st t k → Due c (st.sit i' g) i k) :
    Due c (st.sit i' g) i k := by
  cases h with
  | owed h => exact .owed h
  | task j t h hcur => exact .task j t h hcur
  | seat t h hcur =>
    by_cases hi : i = i'
    · exact hown t hi h hcur
    · refine .seat t ?_ hcur
      simpa only [Hub.sit, Function.update_of_ne hi] using h
  | inbox t h hcur => exact .inbox t h hcur

theorem Due.post {i : ι} {k : κ} (h : Due c st i k) (i' : ι) (t' : Told μ) :
    Due c (st.post i' t') i k := by
  cases h with
  | owed h => exact .owed h
  | task j t h hcur => exact .task j t h hcur
  | seat t h hcur => exact .seat t h hcur
  | inbox t h hcur =>
    refine .inbox t ?_ hcur
    by_cases hi : i = i'
    · subst hi
      simp only [Hub.post, Function.update_self]
      exact List.mem_append_left _ h
    · simpa only [Hub.post, Function.update_of_ne hi] using h

/-- A message that reaches the client settles what is current in it. -/
theorem due_post {i : ι} {k : κ} {t : Told μ} (hcur : Current c st t k) :
    Due c (st.post i t) i k := by
  refine .inbox t ?_ hcur
  simp only [Hub.post, Function.update_self]
  exact List.mem_append_right _ List.mem_cons_self

theorem Sound.fresh (h : Sound c st) : Honest c st (st.reading c) ∧
    ∀ k, Current c st (st.reading c) k :=
  ⟨honest_reading, current_reading h.stamp⟩

theorem Sound.post (h : Sound c st) (i : ι) {t : Told μ} (ht : Honest c st t) :
    Sound c (st.post i t) where
  stamp := h.stamp
  honest := fun t' ht' ↦ ht'.of_post.elim (h.honest t') fun heq ↦ heq ▸ ht
  listed := h.listed
  dead := h.dead
  due := fun i' k hjoined hok ↦ (h.due i' k hjoined hok).post i t

/-- A client goes on; to be seated it is listed, and once it has looked it is told. -/
theorem Sound.sit (h : Sound c st) {i : ι} {g : Seat μ}
    (hhonest : ∀ t, g = .looked t → Honest c st t)
    (hlisted : g.seated = true → st.failed i = false → i ∈ st.active)
    (hdue : ∀ k, g.joined = true → st.failed i = false → Due c (st.sit i g) i k) :
    Sound c (st.sit i g) where
  stamp := h.stamp
  honest := fun t ht ↦ ht.of_sit.elim (h.honest t) (hhonest t)
  listed := fun i' hseated hok ↦ by
    by_cases hi : i' = i
    · subst hi
      simp only [Hub.sit, Function.update_self] at hseated
      exact hlisted hseated hok
    · simp only [Hub.sit, Function.update_of_ne hi] at hseated
      exact h.listed i' hseated hok
  dead := h.dead
  due := fun i' k hjoined hok ↦ by
    by_cases hi : i' = i
    · subst hi
      simp only [Hub.sit, Function.update_self] at hjoined
      exact hdue k hjoined hok
    · simp only [Hub.sit, Function.update_of_ne hi] at hjoined
      exact (h.due i' k hjoined hok).sit fun t heq ↦ absurd heq hi

/-- A client that is not to be told any more, or whom a send failed, is taken off the list. -/
theorem Sound.discard (h : Sound c st) {i : ι}
    (hi : (st.seat i).seated = false ∨ st.failed i = true) : Sound c (st.discard i) where
  stamp := h.stamp
  honest := fun t ht ↦ h.honest t (ht.of_same rfl rfl rfl rfl)
  listed := fun i' hseated hok ↦ by
    have hne : i' ≠ i := by
      rintro rfl
      rcases hi with hi | hi
      · exact absurd (hseated.symm.trans hi) (by simp)
      · exact absurd (hok.symm.trans hi) (by simp)
    exact List.mem_filter.mpr ⟨h.listed i' hseated hok, by simpa using hne⟩
  dead := h.dead
  due := fun i' k hjoined hok ↦ by
    cases h.due i' k hjoined hok with
    | owed h => exact .owed h
    | task j t h hcur => exact .task j t h hcur
    | seat t h hcur => exact .seat t h hcur
    | inbox t h hcur => exact .inbox t h hcur

/-- A client is listed before it looks. -/
theorem Sound.enlist (h : Sound c st) (i : ι) :
    Sound c { st.sit i .listed with active := st.active.insert i } := by
  have hinsert : ∀ i' ∈ st.active, i' ∈ st.active.insert i :=
    fun i' hi' ↦ List.mem_insert_of_mem hi'
  have hmore : Sound c { st with active := st.active.insert i } :=
    ⟨h.stamp, fun t ht ↦ h.honest t (ht.of_same rfl rfl rfl rfl),
      fun i' hseated hok ↦ hinsert i' (h.listed i' hseated hok), h.dead, fun i' k hjoined hok ↦ by
        cases h.due i' k hjoined hok with
        | owed h => exact .owed h
        | task j t h hcur => exact .task j t h hcur
        | seat t h hcur => exact .seat t h hcur
        | inbox t h hcur => exact .inbox t h hcur⟩
  exact hmore.sit (fun t heq ↦ by cases heq) (fun _ _ ↦ List.mem_insert_self)
    fun k hjoined ↦ by cases hjoined

/-- What a listed client looks at is what there is. -/
theorem Sound.peek (h : Sound c st) {i : ι} (hseat : st.seat i = .listed) :
    Sound c (st.sit i (.looked (st.reading c))) := by
  refine h.sit (fun t heq ↦ ?_) (fun _ hok ↦ h.listed i (by rw [hseat]; rfl) hok)
    fun k _ _ ↦ .seat (st.reading c) ?_ (h.fresh.2 k)
  · cases heq
    exact h.fresh.1
  · simp only [Hub.sit, Function.update_self]

/-- What a client saw reaches it. -/
theorem Sound.greet (h : Sound c st) {i : ι} {t : Told μ} (hseat : st.seat i = .looked t) :
    Sound c ((st.sit i .fed).post i t) := by
  have hmem : Honest c st t := h.honest t (.seat i hseat)
  refine ⟨h.stamp, fun t' ht ↦ ?_, fun i' hseated hok ↦ ?_, h.dead, fun i' k hjoined hok ↦ ?_⟩
  · rcases ht.of_post with ht | rfl
    · exact ht.of_sit.elim (h.honest t') fun heq ↦ by cases heq
    · exact hmem
  · by_cases hi : i' = i
    · subst hi
      exact h.listed i' (by rw [hseat]; rfl) hok
    · simp only [Hub.post, Hub.sit, Function.update_of_ne hi] at hseated
      exact h.listed i' hseated hok
  · by_cases hi : i' = i
    · subst hi
      cases h.due i' k (by rw [hseat]; rfl) hok with
      | owed h => exact .owed h
      | task j t' h hcur => exact .task j t' h hcur
      | inbox t' h hcur => exact (Due.inbox t' h hcur : Due c (st.sit i' .fed) i' k).post i' t
      | seat t' h hcur =>
        rw [hseat] at h
        cases h
        exact due_post hcur
    · simp only [Hub.post, Hub.sit, Function.update_of_ne hi] at hjoined
      exact ((h.due i' k hjoined hok).sit fun t' heq ↦ absurd heq hi).post i t

theorem Sound.leave (h : Sound c st) (i : ι) : Sound c ((st.sit i .gone).discard i) := by
  have hgone : Sound c (st.sit i .gone) :=
    h.sit (fun t heq ↦ by cases heq) (fun hseated ↦ by cases hseated)
      fun k hjoined ↦ by cases hjoined
  refine hgone.discard (.inl ?_)
  simp only [Hub.sit, Function.update_self]
  rfl

theorem Sound.ask (h : Sound c st) :
    Sound c { st with answers := st.answers ++ [st.reading c] } := by
  refine ⟨h.stamp, fun t ht ↦ ?_, h.listed, h.dead, fun i k hjoined hok ↦ ?_⟩
  · cases ht with
    | task j ht => exact h.honest t (.task j ht)
    | seat i ht => exact h.honest t (.seat i ht)
    | inbox i ht => exact h.honest t (.inbox i ht)
    | answer ht =>
      rcases List.mem_append.mp ht with ht | ht
      · exact h.honest t (.answer ht)
      · rw [List.mem_singleton.mp ht]
        exact h.fresh.1
  · cases h.due i k hjoined hok with
    | owed h => exact .owed h
    | task j t h hcur => exact .task j t h hcur
    | seat t h hcur => exact .seat t h hcur
    | inbox t h hcur => exact .inbox t h hcur

end Clients

/-! ### Steps of tasks -/

section Steps

variable [DecidableEq ι] [DecidableEq τ]

/-- A task goes on, and what it still owed the client is seen to. -/
theorem Due.goto {i : ι} {k : κ} (h : Due c st i k) {j : τ} {g : Task ι μ}
    (hown : ∀ t, (st.task j).owes i = some t → Current c st t k → Due c (st.goto j g) i k) :
    Due c (st.goto j g) i k := by
  cases h with
  | owed h => exact .owed h
  | task j' t h hcur =>
    by_cases hj : j' = j
    · subst hj
      exact hown t h hcur
    · refine .task j' t ?_ hcur
      simp only [Hub.goto, Function.update_of_ne hj]
      exact h
  | seat t h hcur => exact .seat t h hcur
  | inbox t h hcur => exact .inbox t h hcur

/-- A task goes on with a message that is honest, and sees to what it owed. -/
theorem Sound.goto (h : Sound c st) {j : τ} {g : Task ι μ}
    (hhonest : ∀ t, g.told = some t → Honest c st t)
    (hdead : ∀ t rest dead, g = .casting t rest dead → ∀ i ∈ dead, st.failed i = true)
    (hdue : ∀ i k t, (st.seat i).joined = true → st.failed i = false →
      (st.task j).owes i = some t → Current c st t k → Due c (st.goto j g) i k) :
    Sound c (st.goto j g) where
  stamp := h.stamp
  honest := fun t ht ↦ ht.of_goto.elim (h.honest t) (hhonest t)
  listed := h.listed
  dead := fun j' t rest dead hcast ↦ by
    by_cases hj : j' = j
    · subst hj
      simp only [Hub.goto, Function.update_self] at hcast
      exact hdead t rest dead hcast
    · simp only [Hub.goto, Function.update_of_ne hj] at hcast
      exact h.dead j' t rest dead hcast
  due := fun i k hjoined hok ↦ (h.due i k hjoined hok).goto fun t ↦ hdue i k t hjoined hok

/-- Whoever reads the whole state to tell it owes nothing any more. -/
theorem Sound.read (h : Sound c st) {j : τ} (hidle : st.task j = .idle) :
    Sound c { st.goto j (.holding (st.reading c)) with owed := fun _ ↦ false } := by
  have hgoto : Sound c (st.goto j (.holding (st.reading c))) := by
    refine h.goto (fun t ht ↦ ?_) (fun t rest dead hcast ↦ by cases hcast)
      (fun i k t _ _ howes ↦ by rw [hidle] at howes; cases howes)
    rw [← Option.some.inj ht]
    exact h.fresh.1
  refine ⟨hgoto.stamp, fun t ht ↦ hgoto.honest t (ht.of_same rfl rfl rfl rfl), hgoto.listed,
    hgoto.dead, fun i k _ _ ↦ .task j (st.reading c) ?_ (h.fresh.2 k)⟩
  simp only [Hub.goto, Function.update_self]
  rfl

/-- What is told is told to everybody who is seated. -/
theorem Sound.start (h : Sound c st) {j : τ} {t : Told μ} (hhold : st.task j = .holding t) :
    Sound c (st.goto j (.casting t st.active [])) := by
  have hmem : Honest c st t := h.honest t (.task j (by rw [hhold]; rfl))
  refine h.goto (fun t' ht ↦ ?_) (fun t' rest dead hcast i hi ↦ ?_)
    (fun i k t' hjoined hok howes hcur ↦ ?_)
  · rw [← Option.some.inj ht]
    exact hmem
  · cases hcast
    cases hi
  · rw [hhold] at howes
    cases howes
    have hlisted := h.listed i (Seat.seated_of_joined hjoined) hok
    refine .task j t ?_ hcur
    simp only [Hub.goto, Function.update_self, Task.owes, if_pos hlisted]

/-- The message of a broadcast reaches a client. -/
theorem Sound.serve (h : Sound c st) {j : τ} {t : Told μ} {rest dead : List ι}
    (hcast : st.task j = .casting t rest dead) (i : ι) :
    Sound c ((st.goto j (.casting t (rest.erase i) dead)).post i t) := by
  have hmem : Honest c st t := h.honest t (.task j (by rw [hcast]; rfl))
  have hstay : ∀ i', i' ≠ i → ∀ t', (st.task j).owes i' = some t' →
      (Task.casting t (rest.erase i) dead).owes i' = some t' := by
    intro i' hi t' howes
    rw [hcast, Task.owes] at howes
    rw [Task.owes]
    simpa only [List.mem_erase_of_ne hi] using howes
  refine ⟨h.stamp, fun t' ht ↦ ?_, h.listed, fun j' t' rest' dead' hcast' ↦ ?_,
    fun i' k hjoined hok ↦ ?_⟩
  · rcases ht.of_post with ht | rfl
    · rcases ht.of_goto with ht | ht
      · exact h.honest t' ht
      · rw [← Option.some.inj ht]
        exact hmem
    · exact hmem
  · by_cases hj : j' = j
    · subst hj
      simp only [Hub.post, Hub.goto, Function.update_self, Task.casting.injEq] at hcast'
      rw [← hcast'.2.2]
      exact h.dead j' t rest dead hcast
    · simp only [Hub.post, Hub.goto, Function.update_of_ne hj] at hcast'
      exact h.dead j' t' rest' dead' hcast'
  · cases h.due i' k hjoined hok with
    | owed h => exact .owed h
    | seat t' h hcur => exact .seat t' h hcur
    | inbox t' h hcur => exact (Due.inbox t' h hcur : Due c (st.goto j _) i' k).post i t
    | task j' t' howes hcur =>
      by_cases hj : j' = j
      · subst hj
        by_cases hi : i' = i
        · subst hi
          have heq : t' = t := by
            rw [hcast, Task.owes] at howes
            split at howes
            · exact (Option.some.inj howes).symm
            · cases howes
          exact due_post (heq ▸ hcur)
        · refine .task j' t' ?_ hcur
          simp only [Hub.post, Hub.goto, Function.update_self]
          exact hstay i' hi t' howes
      · refine .task j' t' ?_ hcur
        simp only [Hub.post, Hub.goto, Function.update_of_ne hj]
        exact howes

/-- A client that a send failed is promised nothing. -/
theorem Sound.fail (h : Sound c st) {j : τ} {t : Told μ} {rest dead : List ι}
    (hcast : st.task j = .casting t rest dead) (i : ι) :
    Sound c { st.goto j (.casting t (rest.erase i) (i :: dead)) with
      failed := Function.update st.failed i true } := by
  have hkept : ∀ i', Function.update st.failed i true i' = false →
      i' ≠ i ∧ st.failed i' = false := by
    intro i' hok
    by_cases hi : i' = i
    · rw [hi, Function.update_self] at hok
      cases hok
    · rw [Function.update_of_ne hi] at hok
      exact ⟨hi, hok⟩
  have hdead : ∀ i', st.failed i' = true → Function.update st.failed i true i' = true := by
    intro i' hfailed
    by_cases hi : i' = i
    · rw [hi, Function.update_self]
    · rw [Function.update_of_ne hi, hfailed]
  refine ⟨h.stamp, fun t' ht ↦ ?_, fun i' hseated hok ↦ h.listed i' hseated (hkept i' hok).2,
    fun j' t' rest' dead' hcast' i' hi' ↦ ?_, fun i' k hjoined hok ↦ ?_⟩
  · have ht : Abroad (st.goto j (.casting t (rest.erase i) (i :: dead))) t' :=
      ht.of_same rfl rfl rfl rfl
    rcases ht.of_goto with ht | ht
    · exact h.honest t' ht
    · rw [← Option.some.inj ht]
      exact h.honest t (.task j (by rw [hcast]; rfl))
  · by_cases hj : j' = j
    · subst hj
      simp only [Hub.goto, Function.update_self, Task.casting.injEq] at hcast'
      rw [← hcast'.2.2] at hi'
      rcases List.mem_cons.mp hi' with rfl | hi'
      · exact Function.update_self i' true st.failed
      · exact hdead i' (h.dead j' t rest dead hcast i' hi')
    · simp only [Hub.goto, Function.update_of_ne hj] at hcast'
      exact hdead i' (h.dead j' t' rest' dead' hcast' i' hi')
  · obtain ⟨hi, hok⟩ := hkept i' hok
    cases h.due i' k hjoined hok with
    | owed h => exact .owed h
    | seat t' h hcur => exact .seat t' h hcur
    | inbox t' h hcur => exact .inbox t' h hcur
    | task j' t' howes hcur =>
      refine .task j' t' ?_ hcur
      by_cases hj : j' = j
      · subst hj
        simp only [Hub.goto, Function.update_self]
        rw [hcast, Task.owes] at howes
        rw [Task.owes]
        simpa only [List.mem_erase_of_ne hi] using howes
      · simp only [Hub.goto, Function.update_of_ne hj]
        exact howes

/-- At the end of a broadcast the clients that a send failed are taken off the list. -/
theorem Sound.settle (h : Sound c st) {j : τ} {t : Told μ} {dead : List ι}
    (hcast : st.task j = .casting t [] dead) :
    Sound c (dead.foldl Hub.discard (st.goto j .idle)) := by
  have hidle : Sound c (st.goto j .idle) :=
    h.goto (fun t ht ↦ by cases ht) (fun t rest dead hcast ↦ by cases hcast)
      (fun i k t' _ _ howes ↦ by simp [hcast, Task.owes] at howes)
  have hfailed : ∀ i ∈ dead, (st.goto j .idle).failed i = true := h.dead j t [] dead hcast
  clear hcast
  generalize st.goto j .idle = s at hidle hfailed
  induction dead generalizing s with
  | nil => exact hidle
  | cons i rest ih =>
    exact ih (s.discard i) (hidle.discard (.inr (hfailed i List.mem_cons_self)))
      fun i' hi' ↦ hfailed i' (List.mem_cons_of_mem i hi')

/-- What is not told after all is owed. -/
theorem Sound.drop (h : Sound c st) {j : τ} {t : Told μ} (htold : (st.task j).told = some t) :
    Sound c { st.goto j .idle with owed := fun k ↦ st.owed k || c.mentions t.message k } := by
  refine ⟨h.stamp, fun t' ht ↦ ?_, h.listed, fun j' t' rest dead hcast ↦ ?_,
    fun i k hjoined hok ↦ ?_⟩
  · have ht : Abroad (st.goto j .idle) t' := ht.of_same rfl rfl rfl rfl
    exact ht.of_goto.elim (h.honest t') fun hnone ↦ by cases hnone
  · by_cases hj : j' = j
    · subst hj
      simp [Hub.goto] at hcast
    · simp only [Hub.goto, Function.update_of_ne hj] at hcast
      exact h.dead j' t' rest dead hcast
  · cases h.due i k hjoined hok with
    | owed h => exact .owed (by simp [h])
    | seat t' h hcur => exact .seat t' h hcur
    | inbox t' h hcur => exact .inbox t' h hcur
    | task j' t' howes hcur =>
      by_cases hj : j' = j
      · subst hj
        have heq : t' = t := by
          cases htask : st.task j' with
          | idle => simp [htask, Task.owes] at howes
          | holding s =>
            simp only [htask, Task.told, Task.owes, Option.some.injEq] at htold howes
            exact howes.symm.trans htold
          | casting s rest dead =>
            simp only [htask, Task.told, Task.owes, Option.some.injEq] at htold howes
            split at howes
            · exact (Option.some.inj howes).symm.trans htold
            · cases howes
        exact .owed (by simp [← heq, hcur.1])
      · refine .task j' t' ?_ hcur
        simp only [Hub.goto, Function.update_of_ne hj]
        exact howes

variable [DecidableEq ν]

/-- Every change of an edit is on its way to every client that joined. -/
theorem Sound.edit (h : Sound c st) {j : τ} (hidle : st.task j = .idle) (e : Edit c) :
    Sound c (st.move c (.edit j e : Move ι τ c)) := by
  have hold : ∀ i k, (st.seat i).joined = true → st.failed i = false →
      c.look (e.run st.shared).1 k = c.look st.shared k →
      Due c (st.change c (e.run st.shared).1) i k :=
    fun i k hjoined hok hsame ↦ (h.due i k hjoined hok).change hsame
  have hstamp : ∀ k, (st.change c (e.run st.shared).1).stamp k ≤ st.clock + 1 := by
    intro k
    simp only [Hub.change]
    split
    · exact Nat.le_succ_of_le (h.stamp k)
    · exact Nat.le_refl _
  have hhonest : ∀ t, Abroad (st.change c (e.run st.shared).1) t →
      Honest c (st.change c (e.run st.shared).1) t :=
    fun t ht ↦ (h.honest t (ht.of_same rfl rfl rfl rfl)).change _
  simp only [Hub.move, hidle]
  cases htell : (e.run st.shared).2 with
  | none =>
    refine ⟨hstamp, hhonest, h.listed, h.dead, fun i k hjoined hok ↦ hold i k hjoined hok ?_⟩
    by_contra hne
    obtain ⟨m, hm, -⟩ := e.tells st.shared k hne
    rw [htell] at hm
    cases hm
  | some m =>
    refine ⟨hstamp, fun t ht ↦ ?_, h.listed, fun j' t rest dead hcast ↦ ?_,
      fun i k hjoined hok ↦ ?_⟩
    · rcases ht.of_goto with ht | ht
      · exact hhonest t ht
      · rw [← Option.some.inj ht]
        exact ⟨Nat.le_refl _, fun k hk ↦ e.holds st.shared m k htell hk.1⟩
    · by_cases hj : j' = j
      · subst hj
        simp [Hub.goto] at hcast
      · simp only [Hub.goto, Function.update_of_ne hj] at hcast
        exact h.dead j' t rest dead hcast
    · by_cases hsame : c.look (e.run st.shared).1 k = c.look st.shared k
      · refine (hold i k hjoined hok hsame).goto fun t howes _ ↦ ?_
        rw [show (st.change c (e.run st.shared).1).task j = .idle from hidle] at howes
        cases howes
      · obtain ⟨m', hm', hmentions⟩ := e.tells st.shared k hsame
        rw [htell] at hm'
        cases hm'
        refine .task j ⟨m, st.clock + 1⟩ ?_ ⟨hmentions, hstamp k⟩
        simp only [Hub.goto, Function.update_self]
        rfl

/-- A change that nobody tells is owed. -/
theorem Sound.revise (h : Sound c st) (g : σ → σ) :
    Sound c (st.move c (.revise g : Move ι τ c)) where
  stamp := fun k ↦ by
    simp only [Hub.move, Hub.change]
    split
    · exact Nat.le_succ_of_le (h.stamp k)
    · exact Nat.le_refl _
  honest := fun t ht ↦ (h.honest t (ht.of_same rfl rfl rfl rfl)).change (g st.shared)
  listed := h.listed
  dead := h.dead
  due := fun i k hjoined hok ↦ by
    by_cases hsame : c.look (g st.shared) k = c.look st.shared k
    · cases (h.due i k hjoined hok).change hsame with
      | owed h => exact .owed (by simp only [Hub.move]; rw [show st.owed k = true from h]; rfl)
      | task j t h hcur => exact .task j t h hcur
      | seat t h hcur => exact .seat t h hcur
      | inbox t h hcur => exact .inbox t h hcur
    · exact .owed (by simp [Hub.move, hsame])

/-- Every move keeps the invariant. -/
theorem sound_move (h : Sound c st) (m : Move ι τ c) : Sound c (st.move c m) := by
  cases m with
  | edit j e =>
    cases hj : st.task j with
    | idle => exact h.edit hj e
    | holding t => simpa only [Hub.move, hj] using h
    | casting t rest dead => simpa only [Hub.move, hj] using h
  | revise g => exact h.revise g
  | look j =>
    cases hj : st.task j with
    | idle => simpa only [Hub.move, hj] using h.read hj
    | holding t => simpa only [Hub.move, hj] using h
    | casting t rest dead => simpa only [Hub.move, hj] using h
  | start j =>
    cases hj : st.task j with
    | idle => simpa only [Hub.move, hj] using h
    | holding t => simpa only [Hub.move, hj] using h.start hj
    | casting t rest dead => simpa only [Hub.move, hj] using h
  | serve j i ok =>
    cases hj : st.task j with
    | idle => simpa only [Hub.move, hj] using h
    | holding t => simpa only [Hub.move, hj] using h
    | casting t rest dead =>
      simp only [Hub.move, hj]
      split
      · cases ok with
        | true => exact h.serve hj i
        | false => exact h.fail hj i
      · exact h
  | settle j =>
    cases hj : st.task j with
    | idle => simpa only [Hub.move, hj] using h
    | holding t => simpa only [Hub.move, hj] using h
    | casting t rest dead =>
      cases rest with
      | nil => simpa only [Hub.move, hj] using h.settle hj
      | cons i rest => simpa only [Hub.move, hj] using h
  | drop j =>
    cases hj : (st.task j).told with
    | none => simpa only [Hub.move, hj] using h
    | some t => simpa only [Hub.move, hj] using h.drop hj
  | enlist i =>
    simp only [Hub.move]
    split
    · exact h.enlist i
    · exact h
  | peek i =>
    cases hi : st.seat i with
    | listed => simpa only [Hub.move, hi] using h.peek hi
    | _ => simpa only [Hub.move, hi] using h
  | greet i ok =>
    cases hi : st.seat i with
    | looked t =>
      cases ok with
      | true => simpa only [Hub.move, hi, if_true] using h.greet hi
      | false => simpa only [Hub.move, hi, Bool.false_eq_true, if_false] using h.leave i
    | _ => simpa only [Hub.move, hi] using h
  | leave i =>
    simp only [Hub.move]
    split
    · exact h.leave i
    · exact h
  | ask => exact h.ask
  | arrive i n =>
    cases hn : st.answers[n]? with
    | none => simpa only [Hub.move, hn] using h
    | some t =>
      simpa only [Hub.move, hn] using
        h.post i (h.honest t (.answer (List.mem_of_getElem? hn)))

/-- Every run keeps the invariant. -/
theorem sound_run (s : σ) (ms : List (Move ι τ c)) :
    Sound c (ms.foldl (Hub.move c) (Hub.empty s)) :=
  foldl_invariant (P := Sound c) (fun _ m h ↦ sound_move h m) (sound_empty s) ms

end Steps

/-! ## What a client knows and shows -/

/-- A screen after the messages. -/
def screen (c : Channel σ κ ν μ δ) (d : δ) (ts : List (Told μ)) : δ :=
  ts.foldl (fun d t ↦ c.apply d t.message) d

/-- The messages came in the order in which they were read. -/
def InOrder (ts : List (Told μ)) : Prop := ts.Pairwise fun s t ↦ s.asof ≤ t.asof

/-- With messages in order, one that is current shows. -/
theorem shows_screen {ts : List (Told μ)} (horder : InOrder ts)
    (hhonest : ∀ t ∈ ts, Honest c st t) {k : κ} (hcur : ∃ t ∈ ts, Current c st t k) (d : δ) :
    c.shows (screen c d ts) k = c.look st.shared k := by
  induction ts using List.reverseRecOn with
  | nil =>
    obtain ⟨t, ht, -⟩ := hcur
    cases ht
  | append_singleton ts last ih =>
    obtain ⟨horder', -, hle⟩ := List.pairwise_append.mp horder
    obtain ⟨t, ht, hmentions, hstamp⟩ := hcur
    rw [screen, List.foldl_append, List.foldl_cons, List.foldl_nil, c.shows_apply]
    cases hlast : c.mentions last.message k with
    | true =>
      -- The last message that mentions the key is no older than the current one.
      have hasof : t.asof ≤ last.asof := by
        rcases List.mem_append.mp ht with ht | ht
        · exact hle t ht last List.mem_cons_self
        · exact Nat.le_of_eq (congrArg Told.asof (List.mem_singleton.mp ht))
      rw [if_pos rfl]
      exact (hhonest last (by simp)).2 k ⟨hlast, Nat.le_trans hstamp hasof⟩
    | false =>
      rw [if_neg Bool.false_ne_true]
      refine ih horder' (fun s hs ↦ hhonest s (List.mem_append_left _ hs))
        ⟨t, ?_, hmentions, hstamp⟩
      rcases List.mem_append.mp ht with ht | ht
      · exact ht
      · rw [List.mem_singleton.mp ht, hlast] at hmentions
        cases hmentions

variable [DecidableEq ι]

/-- Nobody has a message for the client that mentions the key, and no change of it is untold. -/
def Quiet (c : Channel σ κ ν μ δ) (st : Hub ι τ σ κ μ) (i : ι) (k : κ) : Prop :=
  st.owed k = false ∧ ∀ j t, (st.task j).owes i = some t → c.mentions t.message k = false

/-- Once all is told, the present value of a key has reached every client. -/
theorem Sound.informed (h : Sound c st) {i : ι} {k : κ} (hseat : st.seat i = .fed)
    (hok : st.failed i = false) (hquiet : Quiet c st i k) :
    ∃ t ∈ st.inbox i, Current c st t k := by
  cases h.due i k (by rw [hseat]; rfl) hok with
  | owed howed => exact absurd (howed.symm.trans hquiet.1) (by simp)
  | task j t howes hcur => exact absurd (hcur.1.symm.trans (hquiet.2 j t howes)) (by simp)
  | seat t hlooked hcur =>
    rw [hseat] at hlooked
    cases hlooked
  | inbox t hmem hcur => exact ⟨t, hmem, hcur⟩

/-- A client whose messages came in order shows the state. -/
theorem Sound.shows (h : Sound c st) {i : ι} {k : κ} (hseat : st.seat i = .fed)
    (hok : st.failed i = false) (hquiet : Quiet c st i k) (horder : InOrder (st.inbox i)) (d : δ) :
    c.shows (screen c d (st.inbox i)) k = c.look st.shared k :=
  shows_screen horder (fun t ht ↦ h.honest t (.inbox i ht)) (h.informed hseat hok hquiet) d

end CFactory.Base.Fanout
