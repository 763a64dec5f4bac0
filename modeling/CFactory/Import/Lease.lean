import CFactory.Base.Callers
import CFactory.Import.Freshness

/-!
# Claiming a poll cycle

`cards.py:2394–2421,2455–2516`. Any number of pollers claim the cycle of one project while
others record its watermark or its last read, statement by statement: each reads its clock,
reads the row, and then inserts a row, updates the one it read if the lease is still the one
it read, or updates its own column. The unique index and the guarded update are atomic.
-/

namespace CFactory.Import

open CFactory.Base CFactory.Model

/-! ## The statements -/

/-- The column `_upsert_import_state` is called with; `cards.py:2396,2453`. -/
inductive StateWrite where
  | synced (when : Time)
  | polled (when : Time)
  deriving DecidableEq, Repr

/-- The row with the column assigned. -/
def StateWrite.apply : StateWrite → ImportStateRow → ImportStateRow
  | .synced when, r => { r with lastSyncedAt := some when }
  | .polled when, r => { r with lastPolledAt := some when }

/-- Where a call stands between its statements. -/
inductive Stand where
  /-- `claim_import_lease` before it reads the clock. -/
  | claim
  | clocked (now : Time)
  | selected (now : Time) (row : Option ImportStateRow)
  /-- The claim has returned; `row` is what its select found. -/
  | answered (now : Time) (row : Option ImportStateRow) (owns : Bool)
  /-- `_upsert_import_state` before its select, on the first attempt or the retry. -/
  | upsert (write : StateWrite) (retry : Bool)
  | writing (write : StateWrite) (retry : Bool) (row : Option ImportStateRow)
  | written
  | raised
  deriving DecidableEq, Repr

section

variable {ι : Type} (tenant project : String) (ttl : Time)

/-- The next statement of a call. `clock` is what the clock shows to the caller at that moment. -/
def next (_ : ι) (clock : Time) : Stand → ImportStates → Stand × ImportStates
  | .claim, s => (.clocked clock, s)
  | .clocked now, s => (.selected now (stateOf s tenant project), s)
  | .selected now none, s =>
    -- the flush inserts, or the unique index rejects it
    if (stateOf s tenant project).isNone then
      (.answered now none true,
        upsertImportState s tenant project fun r ↦ { r with pollLeasedUntil := some (now + ttl) })
    else (.answered now none false, s)
  | .selected now (some row), s =>
    if row.pollLeasedUntil.any (now < ·) then (.answered now (some row) false, s)
    else if (stateOf s tenant project).map ImportStateRow.pollLeasedUntil =
        some row.pollLeasedUntil then
      (.answered now (some row) true,
        upsertImportState s tenant project fun r ↦ { r with pollLeasedUntil := some (now + ttl) })
    else (.answered now (some row) false, s)
  | .upsert write retry, s => (.writing write retry (stateOf s tenant project), s)
  | .writing write retry none, s =>
    if (stateOf s tenant project).isNone then
      (.written, upsertImportState s tenant project write.apply)
    else if retry then (.raised, s) else (.upsert write true, s)
  | .writing write _ (some row), s =>
    -- the unit of work writes a column only if its value changed since the select
    if write.apply row = row then (.written, s)
    else if (stateOf s tenant project).isNone then (.raised, s)
    else (.written, upsertImportState s tenant project write.apply)
  | k, s => (k, s)

/-- A run of the statements of the callers. -/
abbrev leaseRun [DecidableEq ι] (c : Callers ι Stand ImportStates) (steps : List (ι × Time)) :
    Callers ι Stand ImportStates := c.run (next tenant project ttl) steps

/-- No caller is past its first statement: each claims, or records a watermark or a read. -/
def Starting (c : Callers ι Stand ImportStates) : Prop :=
  ∀ i, c.pc i = .claim ∨ ∃ write, c.pc i = .upsert write false

end

/-! ## One statement -/

section

variable {ι : Type} {tenant project : String} {ttl : Time}

/-- The lease of the project. -/
def leaseOf (s : ImportStates) (tenant project : String) : Option Time :=
  (stateOf s tenant project).bind ImportStateRow.pollLeasedUntil

/-- The column assignments of an upsert stay within their key. -/
theorem keepsProject_write (write : StateWrite) : KeepsProject write.apply := by
  cases write with
  | synced when => exact fun r ↦ ⟨rfl, rfl⟩
  | polled when => exact fun r ↦ ⟨rfl, rfl⟩

/-- The lease assignment stays within its key. -/
theorem keepsProject_lease (until' : Time) :
    KeepsProject fun r ↦ { r with pollLeasedUntil := some until' } :=
  fun _ ↦ ⟨rfl, rfl⟩

/-- Recording a watermark or a read leaves the lease column. -/
theorem leaseOf_write (s : ImportStates) (write : StateWrite) :
    leaseOf (upsertImportState s tenant project write.apply) tenant project =
      leaseOf s tenant project := by
  rw [leaseOf, stateOf_upsert _ _ _ _ (keepsProject_write write), if_pos rfl, leaseOf]
  cases hs : stateOf s tenant project with
  | none => cases write <;> rfl
  | some row => cases write <;> rfl

/-- Every write leaves a row behind. -/
theorem isSome_stateOf_upsert (s : ImportStates) {f : ImportStateRow → ImportStateRow}
    (hf : KeepsProject f) :
    (stateOf (upsertImportState s tenant project f) tenant project).isSome := by
  rw [stateOf_upsert _ _ _ _ hf, if_pos rfl]
  rfl

/-- A granted claim leaves its own lease. -/
theorem leaseOf_granted (s : ImportStates) (until' : Time) :
    leaseOf (upsertImportState s tenant project fun r ↦ { r with pollLeasedUntil := some until' })
      tenant project = some until' := by
  rw [leaseOf, stateOf_upsert _ _ _ _ (keepsProject_lease until'), if_pos rfl]
  rfl

/-- What a statement that grants nothing leaves: the lease, the row if there was one, and the
caller's answer if it had one. -/
structure Quiet (tenant project : String) (k k' : Stand) (s s' : ImportStates) : Prop where
  lease : leaseOf s' tenant project = leaseOf s tenant project
  row : (stateOf s tenant project).isSome → (stateOf s' tenant project).isSome
  answer : k' = k ∨ ∀ now row owns, k' = .answered now row owns →
    owns = false ∧ (row = none → (stateOf s tenant project).isSome)
  created : stateOf s tenant project = none → (stateOf s' tenant project).isSome →
    ∃ write retry, k = .writing write retry none

/-- What a statement that grants the cycle does: it inserts the first row, or it finds the row
still under the lease it read, which has run out at its clock reading. -/
structure Grant (tenant project : String) (ttl : Time) (k k' : Stand) (s s' : ImportStates)
    (now : Time) (row : Option ImportStateRow) : Prop where
  before : k = .selected now row
  after : k' = .answered now row true
  lease : leaseOf s' tenant project = some (now + ttl)
  present : (stateOf s' tenant project).isSome
  free : ∀ u, leaseOf s tenant project = some u → u ≤ now
  first : row = none ↔ stateOf s tenant project = none

/-- A statement that writes nothing and grants nothing. -/
private theorem quiet_same {k k' : Stand} {s : ImportStates}
    (h : k' = k ∨ ∀ now row owns, k' = .answered now row owns →
      owns = false ∧ (row = none → (stateOf s tenant project).isSome)) :
    Quiet tenant project k k' s s :=
  ⟨rfl, id, h, fun hnone hsome ↦ by rw [hnone] at hsome; cases hsome⟩

/-- An upsert's write is quiet, and creates the row only if its select found none. -/
private theorem quiet_write {write : StateWrite} {retry : Bool} {row : Option ImportStateRow}
    {s : ImportStates} (h : row = none ∨ (stateOf s tenant project).isSome) :
    Quiet tenant project (.writing write retry row) .written s
      (upsertImportState s tenant project write.apply) := by
  refine ⟨leaseOf_write s write, fun _ ↦ isSome_stateOf_upsert s (keepsProject_write write),
    .inr nofun, fun hnone _ ↦ ?_⟩
  cases h with
  | inl hrow => exact ⟨write, retry, by rw [hrow]⟩
  | inr hsome =>
    rw [hnone] at hsome
    cases hsome

/-- Every statement is quiet or grants the cycle. -/
theorem next_cases (i : ι) (clock : Time) (k : Stand) (s : ImportStates) :
    Quiet tenant project k (next tenant project ttl i clock k s).1 s
        (next tenant project ttl i clock k s).2 ∨
      ∃ now row, Grant tenant project ttl k (next tenant project ttl i clock k s).1 s
        (next tenant project ttl i clock k s).2 now row := by
  cases k with
  | claim => exact .inl (quiet_same (.inr nofun))
  | clocked now => exact .inl (quiet_same (.inr nofun))
  | selected now row =>
    cases row with
    | none =>
      rw [next]
      split
      · next hnone =>
        rw [Option.isNone_iff_eq_none] at hnone
        refine .inr ⟨now, none, rfl, rfl, leaseOf_granted s _, isSome_stateOf_upsert s
          (keepsProject_lease _), ?_, iff_of_true rfl hnone⟩
        intro u hu
        rw [leaseOf, hnone] at hu
        cases hu
      · next hsome =>
        refine .inl (quiet_same (.inr ?_))
        intro _ _ _ h
        cases h
        exact ⟨rfl, fun _ ↦ by simpa [Option.isSome_iff_ne_none] using hsome⟩
    | some row =>
      have hrefused : ∀ s, Quiet tenant project (.selected now (some row))
          (.answered now (some row) false) s s := by
        intro s
        refine quiet_same (.inr ?_)
        intro _ _ _ h
        cases h
        exact ⟨rfl, nofun⟩
      rw [next]
      split
      · exact .inl (hrefused s)
      · next hfree =>
        split
        · next hsame =>
          obtain ⟨r, hr, hlease⟩ := Option.map_eq_some_iff.mp hsame
          refine .inr ⟨now, some row, rfl, rfl, leaseOf_granted s _, isSome_stateOf_upsert s
            (keepsProject_lease _), ?_, iff_of_false nofun (by rw [hr]; nofun)⟩
          intro u hu
          rw [leaseOf, hr] at hu
          rw [← hlease, show r.pollLeasedUntil = some u from hu] at hfree
          simpa using hfree
        · exact .inl (hrefused s)
  | answered now row owns => exact .inl (quiet_same (.inl rfl))
  | upsert write retry => exact .inl (quiet_same (.inr nofun))
  | writing write retry row =>
    cases row with
    | none =>
      rw [next]
      split
      · exact .inl (quiet_write (.inl rfl))
      · split
        · exact .inl (quiet_same (.inr nofun))
        · exact .inl (quiet_same (.inr nofun))
    | some row =>
      rw [next]
      split
      · exact .inl (quiet_same (.inr nofun))
      · split
        · exact .inl (quiet_same (.inr nofun))
        · next hsome =>
          exact .inl (quiet_write (.inr (by simpa [Option.isSome_iff_ne_none] using hsome)))
  | written => exact .inl (quiet_same (.inl rfl))
  | raised => exact .inl (quiet_same (.inl rfl))

/-! ## Whole runs -/

/-- Of one caller: a claim that owns the cycle left a lease that no later claim shortened, and
a claim that found no row, or owns the cycle, leaves a row behind. -/
def OwnLease (tenant project : String) (ttl : Time) (k : Stand) (s : ImportStates) : Prop :=
  ∀ now row owns, k = .answered now row owns →
    (owns = true ∨ row = none → (stateOf s tenant project).isSome) ∧
      (owns = true → ∃ u, leaseOf s tenant project = some u ∧ now + ttl ≤ u)

/-- Of two callers that own the cycle: their clock readings are a whole lease apart, and not
both of them found no row. -/
def LeasesApart (ttl : Time) (k k' : Stand) (_ : ImportStates) : Prop :=
  ∀ now now' row row', k = .answered now row true → k' = .answered now' row' true →
    (now + ttl ≤ now' ∨ now' + ttl ≤ now) ∧ ¬(row = none ∧ row' = none)

/-- What holds of one caller survives a quiet statement of another. -/
theorem OwnLease.quiet {k₀ k k' : Stand} {s s' : ImportStates}
    (h : OwnLease tenant project ttl k₀ s) (hquiet : Quiet tenant project k k' s s') :
    OwnLease tenant project ttl k₀ s' := by
  intro now row owns hk
  obtain ⟨hrow, hlease⟩ := h now row owns hk
  exact ⟨fun howns ↦ hquiet.row (hrow howns), fun howns ↦ by rw [hquiet.lease]; exact hlease howns⟩

/-- What holds of one caller survives the grant of another, whose lease runs longer. -/
theorem OwnLease.grant {k₀ k k' : Stand} {s s' : ImportStates} {now : Time}
    {row : Option ImportStateRow} (httl : 0 < ttl) (h : OwnLease tenant project ttl k₀ s)
    (hgrant : Grant tenant project ttl k k' s s' now row) :
    OwnLease tenant project ttl k₀ s' := by
  intro now₀ row₀ owns hk
  refine ⟨fun _ ↦ hgrant.present, fun howns ↦ ⟨now + ttl, hgrant.lease, ?_⟩⟩
  obtain ⟨u, hu, hle⟩ := (h now₀ row₀ owns hk).2 howns
  have hfree : u ≤ now := hgrant.free u hu
  exact le_trans (le_trans hle hfree) (Int.le_add_of_nonneg_right (le_of_lt httl))

/-- A granted claim is a whole lease after every claim that owned the cycle before, and found a
row if one of them is there. -/
theorem grant_apart {k₀ k k' : Stand} {s s' : ImportStates} {now : Time}
    {row : Option ImportStateRow} (h : OwnLease tenant project ttl k₀ s)
    (hgrant : Grant tenant project ttl k k' s s' now row) {now₀ : Time}
    {row₀ : Option ImportStateRow} (hk : k₀ = .answered now₀ row₀ true) :
    now₀ + ttl ≤ now ∧ row ≠ none := by
  obtain ⟨hsome, hlease⟩ := h now₀ row₀ true hk
  obtain ⟨u, hu, hle⟩ := hlease rfl
  refine ⟨le_trans hle (hgrant.free u hu), fun hrow ↦ ?_⟩
  have hpresent := hsome (.inl rfl)
  rw [hgrant.first.mp hrow] at hpresent
  cases hpresent

/-- Before any statement there is nothing to hold. -/
theorem holds_start {c : Callers ι Stand ImportStates} (h : Starting c) :
    c.Holds (OwnLease tenant project ttl) (LeasesApart ttl) := by
  have hnone : ∀ i now row owns, c.pc i ≠ .answered now row owns := by
    intro i now row owns hk
    cases h i with
    | inl hclaim => exact nomatch hclaim.symm.trans hk
    | inr hupsert =>
      obtain ⟨write, hupsert⟩ := hupsert
      exact nomatch hupsert.symm.trans hk
  exact ⟨fun i now row owns hk ↦ absurd hk (hnone i now row owns),
    fun i j _ now now' row row' hk ↦ absurd hk (hnone i now row true)⟩

variable [DecidableEq ι]

/-- Every statement keeps the leases of all claims, and keeps the owning claims apart. -/
theorem holds_step (httl : 0 < ttl) {c : Callers ι Stand ImportStates}
    (h : c.Holds (OwnLease tenant project ttl) (LeasesApart ttl)) (e : ι × Time) :
    (c.step (next tenant project ttl) e).Holds (OwnLease tenant project ttl) (LeasesApart ttl) := by
  obtain ⟨i, clock⟩ := e
  cases next_cases i clock (c.pc i) c.shared with
  | inl hquiet =>
    -- a quiet statement makes no new owner
    have hnew : ∀ now row, (next tenant project ttl i clock (c.pc i) c.shared).1 =
        .answered now row true → c.pc i = .answered now row true := by
      intro now row hk
      cases hquiet.answer with
      | inl hsame => exact hsame ▸ hk
      | inr hfalse => exact nomatch (hfalse now row true hk).1
    refine Callers.Holds.step ?_ (fun j _ ↦ (h.each j).quiet hquiet) ?_ ?_
      (fun j k _ _ hjk ↦ h.pairs j k hjk)
    · intro now row owns hk
      cases hquiet.answer with
      | inl hsame => exact (h.each i).quiet hquiet now row owns (hsame ▸ hk)
      | inr hfalse =>
        obtain ⟨howns, hrow⟩ := hfalse now row owns hk
        subst howns
        exact ⟨fun hcase ↦ hquiet.row (hrow (hcase.resolve_left nofun)), nofun⟩
    · intro j hj now now' row row' hi hj'
      exact h.pairs i j (Ne.symm hj) now now' row row' (hnew now row hi) hj'
    · intro j hj now now' row row' hj' hi
      exact h.pairs j i hj now now' row row' hj' (hnew now' row' hi)
  | inr hgrant =>
    obtain ⟨now, row, hgrant⟩ := hgrant
    refine Callers.Holds.step ?_ (fun j _ ↦ (h.each j).grant httl hgrant) ?_ ?_
      (fun j k _ _ hjk ↦ h.pairs j k hjk)
    · intro now' row' owns hk
      rw [hgrant.after] at hk
      cases hk
      exact ⟨fun _ ↦ hgrant.present, fun _ ↦ ⟨now + ttl, hgrant.lease, le_refl _⟩⟩
    · intro j _ now₁ now₂ row₁ row₂ hi hj
      rw [hgrant.after] at hi
      cases hi
      obtain ⟨hle, hrow⟩ := grant_apart (h.each j) hgrant hj
      exact ⟨.inr hle, fun hnone ↦ hrow hnone.1⟩
    · intro j _ now₁ now₂ row₁ row₂ hj hi
      rw [hgrant.after] at hi
      cases hi
      obtain ⟨hle, hrow⟩ := grant_apart (h.each j) hgrant hj
      exact ⟨.inl hle, fun hnone ↦ hrow hnone.2⟩

/-- Throughout every run the owning claims are apart. -/
theorem holds_run (httl : 0 < ttl) {c : Callers ι Stand ImportStates} (h : Starting c)
    (steps : List (ι × Time)) :
    (leaseRun tenant project ttl c steps).Holds (OwnLease tenant project ttl) (LeasesApart ttl) :=
  foldl_invariant (P := Callers.Holds (OwnLease tenant project ttl) (LeasesApart ttl))
    (fun _ e hc ↦ holds_step httl hc e) (holds_start h) steps

/-! ## The first row -/

/-- The statement is an upsert that creates the row. -/
def UpsertCreates (tenant project : String) (c : Callers ι Stand ImportStates) (e : ι × Time) :
    Prop :=
  ∃ write retry, c.pc e.1 = .writing write retry none ∧ stateOf c.shared tenant project = none

/-- A row is there only if a claim that found none created it. -/
def ClaimCreated (tenant project : String) (c : Callers ι Stand ImportStates) : Prop :=
  (stateOf c.shared tenant project).isSome → ∃ i now, c.pc i = .answered now none true

/-- A statement that is no creating upsert leaves a row only if a claim created it. -/
theorem claimCreated_step {c : Callers ι Stand ImportStates} (h : ClaimCreated tenant project c)
    (e : ι × Time) (hno : ¬UpsertCreates tenant project c e) :
    ClaimCreated tenant project (c.step (next tenant project ttl) e) := by
  obtain ⟨i, clock⟩ := e
  intro hsome
  rw [Callers.shared_step] at hsome
  cases next_cases i clock (c.pc i) c.shared with
  | inl hquiet =>
    cases hs : stateOf c.shared tenant project with
    | none =>
      obtain ⟨write, retry, hk⟩ := hquiet.created hs hsome
      exact absurd ⟨write, retry, hk, hs⟩ hno
    | some row =>
      obtain ⟨j, now, hj⟩ := h (by rw [hs]; rfl)
      refine ⟨j, now, ?_⟩
      by_cases hji : j = i
      · -- an answer is final
        subst hji
        rw [Callers.pc_step_self, hj]
        rfl
      · rw [Callers.pc_step_other _ _ _ hji]
        exact hj
  | inr hgrant =>
    obtain ⟨now, row, hgrant⟩ := hgrant
    cases hs : stateOf c.shared tenant project with
    | none =>
      exact ⟨i, now, by rw [Callers.pc_step_self, hgrant.after, hgrant.first.mpr hs]⟩
    | some row =>
      obtain ⟨j, now, hj⟩ := h (by rw [hs]; rfl)
      have hji : j ≠ i := by
        intro hji
        have hanswered : c.pc i = .answered now none true := hji ▸ hj
        exact nomatch hanswered.symm.trans hgrant.before
      exact ⟨j, now, by rw [Callers.pc_step_other _ _ _ hji]; exact hj⟩

/-- Mutual exclusion of the poll lease. In every interleaving of claims of a project with a
positive lease, beside any recordings of its watermark or last read, two claims that returned
true read their clocks at least a lease apart; at most one of the claims whose select found no
row returned true; and where no recording created the row, exactly one of them did as soon as
one of them has returned. -/
theorem lease_exclusive {ι : Type} [DecidableEq ι] (tenant project : String) (ttl : Time)
    (httl : 0 < ttl) (c : Callers ι Stand ImportStates) (hstart : Starting c)
    (steps : List (ι × Time)) :
    (∀ i j now now' row row', i ≠ j →
      (leaseRun tenant project ttl c steps).pc i = .answered now row true →
      (leaseRun tenant project ttl c steps).pc j = .answered now' row' true →
        now + ttl ≤ now' ∨ now' + ttl ≤ now) ∧
    (∀ i j now now', (leaseRun tenant project ttl c steps).pc i = .answered now none true →
      (leaseRun tenant project ttl c steps).pc j = .answered now' none true → i = j) ∧
    (stateOf c.shared tenant project = none →
      EachStep (Callers.step (next tenant project ttl))
        (fun d e ↦ ¬UpsertCreates tenant project d e) c steps →
      (∃ i now owns, (leaseRun tenant project ttl c steps).pc i = .answered now none owns) →
        ∃! i, ∃ now, (leaseRun tenant project ttl c steps).pc i = .answered now none true) := by
  have hrun : (leaseRun tenant project ttl c steps).Holds _ _ := holds_run httl hstart steps
  have honce : ∀ i j now now',
      (leaseRun tenant project ttl c steps).pc i = .answered now none true →
      (leaseRun tenant project ttl c steps).pc j = .answered now' none true → i = j := by
    intro i j now now' hi hj
    by_contra hij
    exact (hrun.pairs i j hij now now' none none hi hj).2 ⟨rfl, rfl⟩
  refine ⟨?_, honce, ?_⟩
  · intro i j now now' row row' hij hi hj
    exact (hrun.pairs i j hij now now' row row' hi hj).1
  · intro hnone hsteps ⟨i, now, owns, hi⟩
    have hcreated : ClaimCreated tenant project (leaseRun tenant project ttl c steps) :=
      (throughout_of_step (fun d e hd hno ↦ claimCreated_step hd e hno)
        (by intro hsome; rw [hnone] at hsome; cases hsome) hsteps).last
    obtain ⟨j, now', hj⟩ := hcreated ((hrun.each i now none owns hi).1 (.inr rfl))
    exact ⟨j, ⟨now', hj⟩, fun k ⟨now'', hk⟩ ↦ honce k j now'' now' hk hj⟩

end

/-- Two pollers of one project beside a recording of its watermark. -/
def pollersAndWatermark : Callers Nat Stand ImportStates where
  pc i := if i = 2 then .upsert (.synced 5) false else .claim
  shared := []

/-- Before they run, none of the three is past its first statement. -/
theorem pollersAndWatermark_starting : Starting pollersAndWatermark := by
  intro i
  show (if i = 2 then Stand.upsert (.synced 5) false else Stand.claim) = _ ∨ _
  by_cases h : i = 2
  · exact .inr ⟨.synced 5, if_pos h⟩
  · exact .inl (if_neg h)

/-- Both pollers find no row at clock readings 10 and 11; the second inserts first and the
first is turned away. -/
theorem second_poller_first :
    (stateOf pollersAndWatermark.shared "acme" "acme/app" = none) ∧
      ∃! i, ∃ now, (leaseRun "acme" "acme/app" 60 pollersAndWatermark
        [(0, 10), (1, 11), (0, 0), (1, 0), (1, 0), (0, 0)]).pc i = .answered now none true :=
  ⟨rfl, (lease_exclusive "acme" "acme/app" 60 (by decide) pollersAndWatermark
    pollersAndWatermark_starting [(0, 10), (1, 11), (0, 0), (1, 0), (1, 0), (0, 0)]).2.2 rfl
    (by
      simp only [EachStep, not_exists, UpsertCreates]
      refine ⟨?_, ?_, ?_, ?_, ?_, ?_, trivial⟩
      all_goals
        intro _ _ h
        cases h.1)
    ⟨0, 10, false, by decide⟩⟩

/-- The first claims of a project may all be turned away: the watermark of an import is
recorded, and creates the row, between their selects and their inserts. -/
theorem no_first_owner :
    ¬ ∀ steps : List (Nat × Time),
      (∀ i < 2, ∃ now owns, (leaseRun "acme" "acme/app" 60 pollersAndWatermark steps).pc i =
        .answered now none owns) →
        ∃! i, ∃ now, (leaseRun "acme" "acme/app" 60 pollersAndWatermark steps).pc i =
          .answered now none true := by
  intro hall
  have hpc : ∀ i, (leaseRun "acme" "acme/app" 60 pollersAndWatermark
      [(0, 10), (1, 11), (0, 0), (1, 0), (2, 0), (2, 0), (0, 0), (1, 0)]).pc i =
        match i with
        | 0 => .answered 10 none false
        | 1 => .answered 11 none false
        | 2 => .written
        | _ => .claim := by
    intro i
    match i with
    | 0 => rfl
    | 1 => rfl
    | 2 => rfl
    | n + 3 => rfl
  obtain ⟨i, ⟨now, hi⟩, -⟩ := hall
    [(0, 10), (1, 11), (0, 0), (1, 0), (2, 0), (2, 0), (0, 0), (1, 0)] (by
      intro i hlt
      rw [hpc i]
      match i, hlt with
      | 0, _ => exact ⟨10, false, rfl⟩
      | 1, _ => exact ⟨11, false, rfl⟩)
  rw [hpc i] at hi
  match i with
  | 0 => cases hi
  | 1 => cases hi
  | 2 => cases hi
  | n + 3 => cases hi

/-! ## Calls that are not interleaved -/

section

variable {ι : Type} [DecidableEq ι] {tenant project : String} {ttl : Time}

/-- A claim whose statements run without a break is `claimImportLease`. -/
theorem claim_alone {c : Callers ι Stand ImportStates} {i : ι} (h : c.pc i = .claim)
    (now clock clock' : Time) :
    (leaseRun tenant project ttl c [(i, now), (i, clock), (i, clock')]).pc i =
        .answered now (stateOf c.shared tenant project)
          (claimImportLease c.shared tenant project ttl now).1 ∧
      (leaseRun tenant project ttl c [(i, now), (i, clock), (i, clock')]).shared =
        (claimImportLease c.shared tenant project ttl now).2 := by
  simp only [leaseRun, Callers.run_cons, Callers.run_nil, Callers.pc_step_self,
    Callers.shared_step, h, next]
  cases hs : stateOf c.shared tenant project with
  | none => simp [hs, claimImportLease, leased]
  | some row =>
    have hbind : (stateOf c.shared tenant project).bind ImportStateRow.pollLeasedUntil =
        row.pollLeasedUntil := by rw [hs]; rfl
    by_cases hleased : row.pollLeasedUntil.any (now < ·)
    · simp [hs, claimImportLease, leased, hleased]
    · simp [hs, claimImportLease, leased, hleased]

/-- An upsert whose statements run without a break leaves the row of `upsertImportState`. -/
theorem upsert_alone {c : Callers ι Stand ImportStates} {i : ι} {write : StateWrite}
    (h : c.pc i = .upsert write false) (clock clock' : Time) :
    (leaseRun tenant project ttl c [(i, clock), (i, clock')]).pc i = .written ∧
      stateOf (leaseRun tenant project ttl c [(i, clock), (i, clock')]).shared tenant project =
        stateOf (upsertImportState c.shared tenant project write.apply) tenant project := by
  simp only [leaseRun, Callers.run_cons, Callers.run_nil, Callers.pc_step_self,
    Callers.shared_step, h, next]
  cases hs : stateOf c.shared tenant project with
  | none => simp [hs]
  | some row =>
    by_cases hsame : write.apply row = row
    · simp [hs, hsame, stateOf_upsert _ _ _ _ (keepsProject_write write)]
    · simp [hs, hsame]

end

end CFactory.Import
