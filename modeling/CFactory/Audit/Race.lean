import CFactory.Audit.Deletion
import CFactory.Base.Runs

/-!
# Racing appends

`audit.py:159–207,338–376,463–493`. The append as it was before it became one critical
section: any number of appenders read the newest hash and later insert a row chained to it.
A late append is a fork only beside a row that is chained to the same parent; where there is
none it dangles, and the alarm takes it for a deletion.
-/

namespace CFactory.Audit

open CFactory.Base

/-- The two steps of an appender. -/
inductive RaceStep where
  | readTail (appender : Nat)
  | insertRow (appender : Nat) (call : RecordCall)
  deriving DecidableEq, Repr

/-- The table, and the tail each appender has read and not yet used. -/
structure Race where
  table : AuditTable
  pending : Nat → Option (Option String)

/-- Nobody has read or written. -/
def Race.start : Race := ⟨.empty, fun _ ↦ none⟩

/-- The append without its critical section; `audit.py:425–446`. An appender that has read
nothing inserts nothing. -/
def raceStep (s : AuditStore) (st : Race) : RaceStep → Race
  | .readTail a =>
    { st with pending := Function.update st.pending a (some (chainTail st.table.rows)) }
  | .insertRow a c =>
    match st.pending a with
    | none => st
    | some prevHash =>
      { table := insertEntry s c prevHash st.table
        pending := Function.update st.pending a none }

/-- The instant of an insertion is no row's instant yet. -/
def FreshInstant (st : Race) : RaceStep → Prop
  | .readTail _ => True
  | .insertRow _ c => ∀ r ∈ st.table.rows, r.values.ts ≠ c.now

instance (st : Race) (x : RaceStep) : Decidable (FreshInstant st x) :=
  match x with
  | .readTail _ => isTrue True.intro
  | .insertRow _ c => inferInstanceAs (Decidable (∀ r ∈ st.table.rows, r.values.ts ≠ c.now))

/-- An appender whose tail is out of date finds a row already chained to that tail. -/
def Covered (st : Race) : RaceStep → Prop
  | .readTail _ => True
  | .insertRow a _ => ∀ prevHash ∈ st.pending a,
      prevHash = chainTail st.table.rows ∨ ∃ r ∈ st.table.rows, r.prevHash = prevHash

/-- Every anomaly is a fork, and the alarm is quiet. -/
def OnlyForks (s : AuditStore) (st : Race) : Prop :=
  (∀ b ∈ check s st.table, b.kind = .forked) ∧ verify s st.table = []

theorem onlyForks_iff {s : AuditStore} {st : Race} :
    OnlyForks s st ↔ verify s st.table = [] :=
  ⟨fun h ↦ h.2, fun h ↦ ⟨verify_eq_nil_iff.mp h, h⟩⟩

/-! ## What the race keeps -/

/-- Rows are genuine, and the parent of every row, written or still to be written, exists. -/
structure Sane (s : AuditStore) (st : Race) : Prop where
  genuine : Genuine s st.table.rows
  parents : ∀ r ∈ st.table.rows, parentExists st.table.rows r.prevHash
  pending : ∀ a, ∀ prevHash ∈ st.pending a, parentExists st.table.rows prevHash

theorem parentExists_append {rows : List AuditEntry} {parent : Option String}
    (h : parentExists rows parent) (r : AuditEntry) : parentExists (rows ++ [r]) parent := by
  cases parent with
  | none => rfl
  | some hash =>
    simp only [parentExists, List.any_append, Bool.or_eq_true] at h ⊢
    exact .inl h

theorem parentExists_chainTail (rows : List AuditEntry) : parentExists rows (chainTail rows) := by
  rw [chainTail]
  cases hl : rows.getLast? with
  | none => rfl
  | some r =>
    show rows.any _ = true
    rw [List.any_eq_true]
    exact ⟨r, List.mem_of_getLast? hl, by simp⟩

/-- A row recorded at an instant of its own has a digest of its own. -/
theorem Genuine.append_fresh {s : AuditStore} {rows : List AuditEntry} (h : Genuine s rows)
    {r : AuditEntry} (hown : r.entryHash = recomputed s r)
    (hfresh : ∀ q ∈ rows, q.values.ts ≠ r.values.ts) : Genuine s (rows ++ [r]) := by
  constructor
  · intro q hq
    cases List.mem_append.mp hq with
    | inl hq => exact h.own q hq
    | inr hq => rw [List.mem_singleton.mp hq]; exact hown
  · rw [List.map_append, List.map_singleton, List.nodup_append']
    refine ⟨h.distinct, List.nodup_singleton _, ?_⟩
    intro hash hin hnew
    obtain ⟨q, hq, rfl⟩ := List.mem_map.mp hin
    have heq : q.entryHash = r.entryHash := List.mem_singleton.mp hnew
    rw [h.own q hq, hown] at heq
    exact hfresh q hq (ts_of_message_eq (s.hmac.injective _ _ _ heq))

private theorem mem_update_pending {st : Race} {a b : Nat} {v : Option (Option String)}
    {prevHash : Option String} (h : prevHash ∈ Function.update st.pending a v b) :
    prevHash ∈ v ∨ prevHash ∈ st.pending b := by
  by_cases hab : b = a
  · rw [hab, Function.update_self] at h
    exact .inl h
  · rw [Function.update_of_ne hab] at h
    exact .inr h

theorem sane_start (s : AuditStore) : Sane s .start where
  genuine := ⟨fun r hr ↦ absurd hr List.not_mem_nil, List.nodup_nil⟩
  parents := fun r hr ↦ absurd hr List.not_mem_nil
  pending := fun a prevHash h ↦ absurd h (by simp [Race.start])

/-- A step at a fresh instant keeps the rows genuine and their parents present. -/
theorem sane_raceStep {s : AuditStore} {st : Race} (h : Sane s st) (x : RaceStep)
    (hfresh : FreshInstant st x) : Sane s (raceStep s st x) := by
  cases x with
  | readTail a =>
    refine ⟨h.genuine, h.parents, fun b prevHash hb ↦ ?_⟩
    cases mem_update_pending hb with
    | inl hnew =>
      rw [← Option.some.inj hnew]
      exact parentExists_chainTail st.table.rows
    | inr hold => exact h.pending b prevHash hold
  | insertRow a c =>
    simp only [raceStep]
    cases hp : st.pending a with
    | none => exact h
    | some prevHash =>
      refine ⟨h.genuine.append_fresh rfl hfresh, fun r hr ↦ ?_, fun b prev hb ↦ ?_⟩
      · apply parentExists_append
        cases List.mem_append.mp hr with
        | inl hr => exact h.parents r hr
        | inr hr => rw [List.mem_singleton.mp hr]; exact h.pending a prevHash hp
      · apply parentExists_append
        cases mem_update_pending hb with
        | inl hnew => exact absurd hnew (by simp)
        | inr hold => exact h.pending b prev hold

/-! ## When a late append stays a fork -/

/-- One more genuine row leaves a quiet alarm quiet exactly when it is chained to the tail or
to a parent that a row before it has too. -/
theorem verify_append_iff {s : AuditStore} {t t' : AuditTable} {r : AuditEntry}
    (hrows : t'.rows = t.rows ++ [r]) (hgen : Genuine s t.rows) (hgen' : Genuine s t'.rows)
    (hparent : parentExists t.rows r.prevHash) (hquiet : verify s t = []) :
    verify s t' = [] ↔
      r.prevHash = chainTail t.rows ∨ ∃ q ∈ t.rows, q.prevHash = r.prevHash := by
  rw [hgen.verify_eq_nil_iff] at hquiet
  rw [hgen'.verify_eq_nil_iff, hrows]
  constructor
  · intro h
    cases h t.rows r [] rfl with
    | inl hlink => exact .inl hlink
    | inr hshared =>
      obtain ⟨q, hq, hne, hprev⟩ := hshared.1
      refine .inr ⟨q, ?_, hprev⟩
      cases List.mem_append.mp hq with
      | inl hq => exact hq
      | inr hq => exact absurd (congrArg AuditEntry.id (List.mem_singleton.mp hq)) hne
  · intro h front q back hsplit
    rcases List.eq_nil_or_concat back with rfl | ⟨mid, last, rfl⟩
    · obtain ⟨rfl, hq⟩ := List.append_inj' hsplit rfl
      rw [← (List.cons.inj hq).1]
      cases h with
      | inl hlink => exact .inl hlink
      | inr hshared =>
        obtain ⟨p, hp, hprev⟩ := hshared
        refine .inr ⟨⟨p, List.mem_append_left _ hp, ?_, hprev⟩, parentExists_append hparent r⟩
        have hord := t'.ordered
        rw [hrows, List.pairwise_append] at hord
        have hlt := hord.2.2 p hp r (List.mem_singleton.mpr rfl)
        omega
    · -- An older row keeps its place, its sibling and its parent.
      rw [List.concat_eq_append, ← List.cons_append, ← List.append_assoc] at hsplit
      obtain ⟨hfront, -⟩ := List.append_inj' hsplit rfl
      cases hquiet front q mid hfront with
      | inl hlink => exact .inl hlink
      | inr hshared =>
        obtain ⟨⟨p, hp, hne, hprev⟩, hexists⟩ := hshared
        exact .inr ⟨⟨p, List.mem_append_left _ hp, hne, hprev⟩, parentExists_append hexists r⟩

/-- A step from a quiet state is quiet exactly when it is covered. -/
theorem onlyForks_raceStep_iff {s : AuditStore} {st : Race} (h : Sane s st) (x : RaceStep)
    (hfresh : FreshInstant st x) (hquiet : OnlyForks s st) :
    OnlyForks s (raceStep s st x) ↔ Covered st x := by
  cases x with
  | readTail a => exact ⟨fun _ ↦ True.intro, fun _ ↦ hquiet⟩
  | insertRow a c =>
    have hsane := sane_raceStep h (.insertRow a c) hfresh
    rw [onlyForks_iff] at hquiet ⊢
    simp only [raceStep, Covered] at hsane ⊢
    cases hp : st.pending a with
    | none => exact ⟨fun _ _ hm ↦ absurd hm (by simp), fun _ ↦ hquiet⟩
    | some prevHash =>
      rw [hp] at hsane
      have happend := @verify_append_iff s st.table (insertEntry s c prevHash st.table) _ rfl
        h.genuine hsane.genuine (h.pending a prevHash hp) hquiet
      refine happend.trans ⟨fun hc prev hm ↦ ?_, fun hc ↦ hc prevHash rfl⟩
      rw [← Option.some.inj hm]
      exact hc

/-- Racing appends raise nothing but forks, at every point of the run, exactly when every
append whose tail is out of date finds a row already chained to that tail. -/
theorem race_onlyForks_iff (s : AuditStore) (schedule : List RaceStep)
    (hfresh : EachStep (raceStep s) FreshInstant .start schedule) :
    Throughout (raceStep s) (OnlyForks s) .start schedule ↔
      EachStep (raceStep s) Covered .start schedule := by
  have hstep : ∀ st x, FreshInstant st x → Sane s st ∧ OnlyForks s st →
      ((Sane s (raceStep s st x) ∧ OnlyForks s (raceStep s st x)) ↔ Covered st x) := by
    intro st x hx h
    have hsane := sane_raceStep h.1 x hx
    exact ⟨fun hnext ↦ (onlyForks_raceStep_iff h.1 x hx h.2).mp hnext.2,
      fun hc ↦ ⟨hsane, (onlyForks_raceStep_iff h.1 x hx h.2).mpr hc⟩⟩
  have hstart : OnlyForks s .start := onlyForks_iff.mpr rfl
  have hsane : Throughout (raceStep s) (Sane s) .start schedule :=
    throughout_of_step (fun st x h hx ↦ sane_raceStep h x hx) (sane_start s) hfresh
  rw [← throughout_iff_eachStep hstep hfresh ⟨sane_start s, hstart⟩, throughout_and_iff]
  exact ⟨fun h ↦ ⟨hsane, h⟩, fun h ↦ h.2⟩

/-- Two appends on time, at instants of their own. -/
theorem race_onlyForks_serial :
    Throughout (raceStep sampleStore) (OnlyForks sampleStore) .start
        [.readTail 0, .insertRow 0 (sampleCall "1" 0), .readTail 1,
          .insertRow 1 (sampleCall "3" 2)] ↔
      EachStep (raceStep sampleStore) Covered .start
        [.readTail 0, .insertRow 0 (sampleCall "1" 0), .readTail 1,
          .insertRow 1 (sampleCall "3" 2)] :=
  race_onlyForks_iff sampleStore _
    ⟨True.intro, by decide +kernel, True.intro, by decide +kernel, True.intro⟩

/-- Three overlapping appends: two read the empty table, a third reads the first row, and the
second row arrives before the third one, which then is chained to the first row alone. -/
def tripleRace : List RaceStep :=
  [.readTail 0, .readTail 1, .insertRow 1 (sampleCall "1" 0), .readTail 2,
    .insertRow 0 (sampleCall "2" 1), .insertRow 2 (sampleCall "3" 2)]

/-- The third append of the overlap is reported as tampering, though no row was touched. -/
theorem race_reported_as_tampering :
    ¬ ∀ (s : AuditStore) (schedule : List RaceStep),
      EachStep (raceStep s) FreshInstant .start schedule →
        Throughout (raceStep s) (OnlyForks s) .start schedule := by
  intro h
  have hrun := h sampleStore tripleRace ⟨True.intro, True.intro, by decide +kernel, True.intro,
    by decide +kernel, by decide +kernel, True.intro⟩
  have halarm :
      verify sampleStore (tripleRace.foldl (raceStep sampleStore) .start).table = [3] := by
    decide +kernel
  rw [hrun.last.2] at halarm
  exact absurd halarm (by decide)

end CFactory.Audit
