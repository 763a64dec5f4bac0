import CFactory.Base.Callers
import CFactory.Git.Config

/-!
# Consuming an install state

`cards.py:2064–2105`, `git_install.py:192–219,256–264`. Callbacks that present the same state,
statement by statement under READ COMMITTED: a select sees what has been committed, and a
delete of a row that another transaction has deleted waits for its commit and then matches
nothing.
-/

namespace CFactory.Git

open CFactory.Base CFactory.Model

/-! ## The pending installs -/

/-- `InstallStateRow`; `git_install.py:192–219`. -/
structure InstallStateRow where
  id : Nat
  stateHash : String
  tenantId : String
  connectionId : Nat
  provider : Provider
  redirectUri : String
  expiresAt : Option Time
  deriving DecidableEq, Repr

/-- The rows of `git_install_state`, whose unique index holds of every table. -/
structure InstallStates where
  rows : List InstallStateRow
  distinct : (rows.map InstallStateRow.stateHash).Nodup

/-- `select(InstallStateRow).where(state_hash == digest)`; `cards.py:2082–2084`. -/
def pending (t : InstallStates) (digest : String) : Option InstallStateRow :=
  t.rows.find? (·.stateHash == digest)

/-- The table without one row. -/
def InstallStates.delete (t : InstallStates) (id : Nat) : InstallStates where
  rows := t.rows.filter (·.id != id)
  distinct := t.distinct.sublist (List.filter_sublist.map _)

/-- The committed rows, and the ids whose delete another transaction has not committed yet. -/
structure InstallStore where
  table : InstallStates
  locked : List Nat

/-! ## The statements of one call -/

/-- Where a call of `consume_install_state` stands. -/
inductive Consume where
  | called
  | selected (row : InstallStateRow)
  /-- The delete has run and the commit has not; `matched` if the row was there. -/
  | deleted (row : InstallStateRow) (matched : Bool)
  /-- The call has returned at the clock reading `now`. -/
  | returned (row : Option InstallStateRow) (now : Time)
  deriving DecidableEq

/-- What is returned of a claimed row; `cards.py:2098–2105`. -/
def unexpired (row : InstallStateRow) (now : Time) : Option InstallStateRow :=
  match row.expiresAt with
  | none => none
  | some expires => if expires < now then none else some row

section

variable {ι : Type} (digest : String → String) (state : String)

/-- The next statement of `consume_install_state`; `cards.py:2064–2105`. -/
def consumeNext (_ : ι) (clock : Time) : Consume → InstallStore → Consume × InstallStore
  | .called, s =>
    if stripped (some state) = "" then (.returned none clock, s)
    else match pending s.table (digest state) with
      | none => (.returned none clock, s)
      | some row => (.selected row, s)
  | .selected row, s =>
    -- the row is locked until the other delete commits
    if row.id ∈ s.locked then (.selected row, s)
    else if s.table.rows.any (·.id == row.id) then
      (.deleted row true, { s with locked := row.id :: s.locked })
    else (.deleted row false, s)
  | .deleted row true, s =>
    (.returned (unexpired row clock) clock,
      { table := s.table.delete row.id, locked := s.locked.erase row.id })
  | .deleted row false, s => (.returned (unexpired row clock) clock, s)
  | .returned row now, s => (.returned row now, s)

/-- No call has performed a statement yet. -/
def Uncalled (c : Callers ι Consume InstallStore) : Prop := ∀ i, c.pc i = .called

/-- At most one call has returned a row. -/
def SingleUse (c : Callers ι Consume InstallStore) : Prop :=
  ∀ i j row row' now now', c.pc i = .returned (some row) now →
    c.pc j = .returned (some row') now' → i = j

/-- No call has returned a row whose expiry had passed. -/
def NeverExpired (c : Callers ι Consume InstallStore) : Prop :=
  ∀ i row now, c.pc i = .returned (some row) now → ∃ u, row.expiresAt = some u ∧ now ≤ u

/-- The call has found the row and its transaction is open. -/
def Consume.Open : Consume → Prop
  | .selected _ => True
  | .deleted _ _ => True
  | _ => False

/-- The statement is no select that finds the row while another call that found it has not
committed its delete. -/
def NoOverlap (c : Callers ι Consume InstallStore) (e : ι × Time) : Prop :=
  c.pc e.1 = .called → (pending c.shared.table (digest state)).isSome →
    ∀ j, j ≠ e.1 → ¬(c.pc j).Open

end

/-! ## One row -/

/-- A row that is found carries the digest. -/
theorem pending_hash {t : InstallStates} {digest : String} {row : InstallStateRow}
    (h : pending t digest = some row) : row ∈ t.rows ∧ row.stateHash = digest :=
  ⟨List.mem_of_find?_eq_some h, by simpa using List.find?_some h⟩

/-- The unique index leaves one row for each digest. -/
theorem pending_of_mem {t : InstallStates} {digest : String} {row : InstallStateRow}
    (hrow : row ∈ t.rows) (hhash : row.stateHash = digest) : pending t digest = some row := by
  cases hp : pending t digest with
  | none =>
    rw [pending, List.find?_eq_none] at hp
    exact absurd (beq_iff_eq.mpr hhash) (hp row hrow)
  | some row' =>
    obtain ⟨hrow', hhash'⟩ := pending_hash hp
    rw [List.inj_on_of_nodup_map t.distinct hrow' hrow (hhash'.trans hhash.symm)]

/-- Deleting a row that was found leaves nothing to find. -/
theorem pending_delete_self {t : InstallStates} {digest : String} {row : InstallStateRow}
    (h : pending t digest = some row) : pending (t.delete row.id) digest = none := by
  rw [pending, List.find?_eq_none]
  intro row' hrow' hhash
  rw [InstallStates.delete, List.mem_filter] at hrow'
  have hsame : pending t digest = some row' := pending_of_mem hrow'.1 (beq_iff_eq.mp hhash)
  rw [h] at hsame
  cases hsame
  simp at hrow'

/-- A delete never brings a row into sight. -/
theorem pending_delete (t : InstallStates) (digest : String) (id : Nat) :
    pending (t.delete id) digest = pending t digest ∨ pending (t.delete id) digest = none := by
  cases hp : pending (t.delete id) digest with
  | none => exact .inr rfl
  | some row =>
    obtain ⟨hrow, hhash⟩ := pending_hash hp
    have hmem : row ∈ t.rows := List.mem_of_mem_filter hrow
    exact .inl (pending_of_mem hmem hhash).symm

/-- What is returned has not expired. -/
theorem unexpired_some {row row' : InstallStateRow} {now : Time}
    (h : unexpired row now = some row') :
    row' = row ∧ ∃ u, row'.expiresAt = some u ∧ now ≤ u := by
  unfold unexpired at h
  split at h
  · cases h
  · next expires hexpires =>
    split at h
    · cases h
    · next hlive =>
      cases h
      exact ⟨rfl, expires, hexpires, le_of_not_gt hlive⟩

/-! ## Calls one after the other -/

section

variable {ι : Type} {digest : String → String} {state : String}

/-- The call holds the row, or has returned it. -/
def Taken : Consume → Prop
  | .selected _ => True
  | .deleted _ _ => True
  | .returned row _ => row.isSome
  | .called => False

/-- What a call knows of the row: a transaction that found it sees it there or gone, a delete
that matched nothing and a call that returned it know it gone. -/
def Seen (d : String) : Consume → InstallStore → Prop
  | .called, _ => True
  | .selected row, s => pending s.table d = some row ∨ pending s.table d = none
  | .deleted row true, s => pending s.table d = some row ∨ pending s.table d = none
  | .deleted _ false, s => pending s.table d = none
  | .returned row _, s => row.isSome → pending s.table d = none

/-- What a call knows stays true when the row stays or goes. -/
theorem Seen.stable {d : String} {k : Consume} {s s' : InstallStore} (h : Seen d k s)
    (hrow : pending s'.table d = pending s.table d ∨ pending s'.table d = none) :
    Seen d k s' := by
  cases hrow with
  | inl hsame =>
    cases k with
    | called => trivial
    | selected row => rwa [Seen, hsame]
    | deleted row matched => cases matched <;> rwa [Seen, hsame]
    | returned row now => rwa [Seen, hsame]
  | inr hgone =>
    cases k with
    | called => trivial
    | selected row => exact .inr hgone
    | deleted row matched =>
      cases matched with
      | true => exact .inr hgone
      | false => exact hgone
    | returned row now => exact fun _ ↦ hgone

/-- A statement leaves the row in place or takes it away. -/
theorem pending_consumeNext (i : ι) (clock : Time) (k : Consume) (s : InstallStore) :
    pending (consumeNext digest state i clock k s).2.table (digest state) =
        pending s.table (digest state) ∨
      pending (consumeNext digest state i clock k s).2.table (digest state) = none := by
  cases k with
  | called =>
    rw [consumeNext]
    split
    · exact .inl rfl
    · split <;> exact .inl rfl
  | selected row =>
    rw [consumeNext]
    split
    · exact .inl rfl
    · split <;> exact .inl rfl
  | deleted row matched =>
    cases matched with
    | true => exact pending_delete s.table (digest state) row.id
    | false => exact .inl rfl
  | returned row now => exact .inl rfl

/-- What a call returns of the row it holds, it returns with the row gone. -/
theorem seen_consumeNext (i : ι) (clock : Time) {k : Consume} {s : InstallStore}
    (h : Seen (digest state) k s) :
    Seen (digest state) (consumeNext digest state i clock k s).1
      (consumeNext digest state i clock k s).2 := by
  cases k with
  | called =>
    rw [consumeNext]
    split
    · exact nofun
    · split
      · exact nofun
      · next row hrow => exact .inl hrow
  | selected row =>
    rw [consumeNext]
    split
    · exact h
    · split
      · exact h
      · next habsent =>
        -- no row of the table has the id, so the row that was found is gone
        refine Or.resolve_left h fun hrow ↦ ?_
        have hmem := (pending_hash hrow).1
        exact habsent (List.any_eq_true.mpr ⟨row, hmem, beq_self_eq_true row.id⟩)
  | deleted row matched =>
    cases matched with
    | true =>
      show (unexpired row clock).isSome → pending (s.table.delete row.id) (digest state) = none
      intro _
      cases h with
      | inl hrow => exact pending_delete_self hrow
      | inr hgone =>
        cases pending_delete s.table (digest state) row.id with
        | inl hsame => exact hsame.trans hgone
        | inr hnone => exact hnone
    | false => exact fun _ ↦ h
  | returned row now => exact h

/-- A call that takes the row held it before, or finds it now. -/
theorem taken_consumeNext {i : ι} {clock : Time} {k : Consume} {s : InstallStore}
    (h : Taken (consumeNext digest state i clock k s).1) :
    Taken k ∨ k = .called ∧ (pending s.table (digest state)).isSome := by
  cases k with
  | called =>
    rw [consumeNext] at h
    split at h
    · exact absurd h (by simp [Taken])
    · split at h
      · exact absurd h (by simp [Taken])
      · next row hrow => exact .inr ⟨rfl, by rw [hrow]; rfl⟩
  | selected row => exact .inl trivial
  | deleted row matched => exact .inl trivial
  | returned row now => exact .inl h

variable [DecidableEq ι]

/-- A statement that overlaps with no open transaction keeps the row with one call. -/
theorem consume_holds_step {c : Callers ι Consume InstallStore}
    (h : c.Holds (Seen (digest state)) fun k k' _ ↦ ¬(Taken k ∧ Taken k')) (e : ι × Time)
    (hno : NoOverlap digest state c e) :
    (c.step (consumeNext digest state) e).Holds (Seen (digest state))
      fun k k' _ ↦ ¬(Taken k ∧ Taken k') := by
  obtain ⟨i, clock⟩ := e
  have hapart : ∀ j, j ≠ i →
      ¬(Taken (consumeNext digest state i clock (c.pc i) c.shared).1 ∧ Taken (c.pc j)) := by
    rintro j hj ⟨hi, hj'⟩
    cases taken_consumeNext hi with
    | inl hheld => exact h.pairs i j (Ne.symm hj) ⟨hheld, hj'⟩
    | inr hfound =>
      obtain ⟨hcalled, hrow⟩ := hfound
      have hclosed := hno hcalled hrow j hj
      have hseen := h.each j
      cases hk : c.pc j with
      | called => rw [hk] at hj'; exact hj'
      | selected row => rw [hk] at hclosed; exact hclosed trivial
      | deleted row matched => rw [hk] at hclosed; exact hclosed trivial
      | returned row now =>
        rw [hk] at hj' hseen
        have hgone : pending c.shared.table (digest state) = none := hseen hj'
        rw [hgone] at hrow
        cases hrow
  refine Callers.Holds.step (seen_consumeNext i clock (h.each i))
    (fun j _ ↦ (h.each j).stable (pending_consumeNext i clock (c.pc i) c.shared))
    hapart ?_ (fun j k _ _ hjk ↦ h.pairs j k hjk)
  intro j hj htaken
  exact hapart j hj ⟨htaken.2, htaken.1⟩

/-- What a call has returned stays unexpired at the clock reading it was returned at. -/
theorem neverExpired_step {c : Callers ι Consume InstallStore} (h : NeverExpired c)
    (e : ι × Time) : NeverExpired (c.step (consumeNext digest state) e) := by
  obtain ⟨i, clock⟩ := e
  intro j row now hj
  by_cases hji : j = i
  · subst hji
    rw [Callers.pc_step_self] at hj
    cases hk : c.pc j with
    | called =>
      rw [hk, consumeNext] at hj
      split at hj
      · cases hj
      · split at hj <;> cases hj
    | selected row' =>
      rw [hk, consumeNext] at hj
      split at hj
      · cases hj
      · split at hj <;> cases hj
    | deleted row' matched =>
      have hreturned : unexpired row' clock = some row ∧ clock = now := by
        rw [hk] at hj
        cases matched with
        | true => exact Consume.returned.inj hj
        | false => exact Consume.returned.inj hj
      obtain ⟨hrow, hnow⟩ := hreturned
      exact hnow ▸ (unexpired_some hrow).2
    | returned row' now' =>
      rw [hk] at hj
      exact h j row now (hk.trans hj)
  · rw [Callers.pc_step_other _ _ _ hji] at hj
    exact h j row now hj

/-- An install state is single-use in every run in which no call finds the row while another
call that found it has not committed its delete, and in no run is a row returned after its
expiry. -/
theorem single_use_of_no_overlap {ι : Type} [DecidableEq ι] (digest : String → String)
    (state : String) (c : Callers ι Consume InstallStore) (hstart : Uncalled c)
    (steps : List (ι × Time)) :
    (EachStep (Callers.step (consumeNext digest state)) (NoOverlap digest state) c steps →
      Throughout (Callers.step (consumeNext digest state)) SingleUse c steps) ∧
    Throughout (Callers.step (consumeNext digest state)) NeverExpired c steps := by
  constructor
  · intro hsteps
    have hholds : c.Holds (Seen (digest state)) fun k k' _ ↦ ¬(Taken k ∧ Taken k') := by
      constructor
      · intro i
        rw [hstart i]
        trivial
      · intro i j _ htaken
        rw [hstart i] at htaken
        exact htaken.1
    have hrun := throughout_of_step (C := NoOverlap digest state)
      (fun d e hd hno ↦ consume_holds_step hd e hno) hholds hsteps
    refine hrun.imp ?_
    intro d hd i j row row' now now' hi hj
    by_contra hij
    exact hd.pairs i j hij ⟨by rw [hi]; rfl, by rw [hj]; rfl⟩
  · refine throughout_of_step (C := fun _ _ ↦ True) (fun d e hd _ ↦ neverExpired_step hd e) ?_
      (eachStep_of_all fun _ _ ↦ trivial)
    intro i row now hi
    exact nomatch (hstart i).symm.trans hi

/-- A pending install of tenant `acme` with one row, presented by any number of callbacks. -/
def pendingInstall : Callers Nat Consume InstallStore where
  pc _ := .called
  shared :=
    { table :=
        { rows := [⟨1, "f00d", "acme", 7, .github, "https://factory/cb", some 600⟩]
          distinct := by simp }
      locked := [] }

/-- The first callback claims the row and the replayed one, which selects after the commit,
returns nothing. -/
theorem replay_finds_nothing :
    SingleUse (pendingInstall.run (consumeNext (fun _ ↦ "f00d") "state")
      [(0, 10), (0, 10), (0, 10), (1, 11)]) :=
  ((single_use_of_no_overlap (fun _ ↦ "f00d") "state" pendingInstall (fun _ ↦ rfl)
    [(0, 10), (0, 10), (0, 10), (1, 11)]).1 (by
      refine ⟨fun _ _ j _ ↦ id, nofun, nofun, ?_, trivial⟩
      exact fun _ hfound ↦ nomatch hfound)).last

/-- Two callbacks whose selects both come before either delete both return the row. -/
theorem both_callbacks_claim :
    ¬ ∀ steps : List (Nat × Time),
      SingleUse (pendingInstall.run (consumeNext (fun _ ↦ "f00d") "state") steps) := by
  intro hall
  have hboth := hall [(0, 10), (1, 11), (0, 12), (0, 13), (1, 14), (1, 15)] 0 1
    ⟨1, "f00d", "acme", 7, .github, "https://factory/cb", some 600⟩
    ⟨1, "f00d", "acme", 7, .github, "https://factory/cb", some 600⟩ 13 15 (by decide) (by decide)
  exact absurd hboth (by decide)

end

end CFactory.Git
