import CFactory.Audit.Redaction
import CFactory.Audit.Serial
import CFactory.Base.Critical
import CFactory.Base.Cursor

/-!
# Serialised appends, and reading behind them

`audit.py:152–197,412–461`, `routes_actions.py:103–143`. `record` as it is now: a transaction that
holds the chain from before it reads the tail. Whatever the order in which appenders and readers
move, and whatever keys are configured when they do, the table is a serial chain, and a reader that
pages by its high-water mark is given every row once, oldest first.
-/

namespace CFactory.Audit

open CFactory.Access
open CFactory.Base
open CFactory.Model

/-- The databases the audit store runs on; `audit.py:196,399`. -/
inductive Dialect where
  | sqlite
  | postgresql
  deriving DecidableEq, Repr

/-- A call of `record`, with the keys that are configured when it names its actor. -/
abbrev KeyedCall := KeyStore × RecordCall

/-- Naming the actor raises, and the transaction is rolled back; `audit.py:435`. -/
def KeyedCall.raises (s : AuditStore) (c : KeyedCall) : Bool :=
  match redact s c.1 c.2.actor with
  | .error _ => true
  | .ok _ => false

/-- `record` as a transaction. On SQLite `BEGIN IMMEDIATE` takes the lock, on PostgreSQL a
statement after `BEGIN` does; `_serialise_sqlite_appends`, `_lock_chain`, `AuditStore.record`;
`audit.py:152–197,412–447`. -/
def appends (dialect : Dialect) (s : AuditStore) :
    Critical.Discipline AuditTable KeyedCall (Option String) where
  early := dialect = .sqlite
  look := fun t ↦ chainTail t.rows
  fails := KeyedCall.raises s
  put := fun c prevHash t ↦ insertEntry (s.under c.1) c.2 prevHash t

/-- A serial sequence of calls, each under the keys of its moment. -/
def recordKeyed (s : AuditStore) (calls : List KeyedCall) : AuditTable :=
  calls.foldl (fun t c ↦ record (s.under c.1) t c.2) .empty

/-- The keys of the moment decide the actor and nothing else: the table is that of calls whose
actors are redacted beforehand. -/
theorem recordKeyed_eq (s : AuditStore) (calls : List KeyedCall) :
    recordKeyed s calls = recordAll { s with apiKeys := [] } (calls.map fun c ↦
      { c.2 with actor := redactActor (s.under c.1) c.2.actor }) := by
  rw [recordKeyed, recordAll, List.foldl_map]
  congr 1
  funext t c
  have hplain : redactActor { s with apiKeys := [] } (redactActor (s.under c.1) c.2.actor) =
      redactActor (s.under c.1) c.2.actor :=
    redactActor_of_plain (redactActor_no_key s c.1 c.2.actor).2 List.not_mem_nil
  have hvalues : c.2.values (s.under c.1) = RecordCall.values { s with apiKeys := [] }
      { c.2 with actor := redactActor (s.under c.1) c.2.actor } := by
    simp only [RecordCall.values, hplain]
  have hentry : ∀ prevHash, newEntry (s.under c.1) c.2 prevHash =
      newEntry { s with apiKeys := [] }
        { c.2 with actor := redactActor (s.under c.1) c.2.actor } prevHash := by
    intro prevHash
    funext id
    simp only [newEntry, hvalues]
    rfl
  simp only [record, insertEntry]
  congr 1
  exact hentry _

/-- Checking does not look at the keys. -/
theorem check_keys (s : AuditStore) (keys : List String) (t : AuditTable) :
    check { s with apiKeys := keys } t = check s t := by
  have hscan : ∀ (rows rest : List AuditEntry) (expected : Option String),
      scanFrom { s with apiKeys := keys } rows expected rest = scanFrom s rows expected rest := by
    intro rows rest
    induction rest with
    | nil => exact fun _ ↦ rfl
    | cons r rest ih => exact fun expected ↦ congrArg _ (ih (some r.entryHash))
  exact hscan t.rows t.rows none

variable {ι : Type}

/-- The appends under way. -/
abbrev Appends (ι : Type) := Critical.Section ι AuditTable KeyedCall (Option String)

/-- Nobody has called `record` yet. -/
def Appends.start : Appends ι := Critical.Section.start .empty

theorem Appends.serial {dialect : Dialect} {s : AuditStore} {st : Appends ι}
    (h : Critical.Sound (appends dialect s) .empty st) :
    st.shared = recordKeyed s (st.done.map Prod.snd) := h.serial

section Appenders

variable [DecidableEq ι]

/-- Whatever the order of the statements of any number of `record` calls, some of them rolled
back, and whatever keys are configured when each of them names its actor: the table is the one
that the committed calls leave one after the other, no row of it is anomalous, and a call that
waits and does not raise can still be committed. -/
theorem appends_serialised (dialect : Dialect) (s : AuditStore)
    (moves : List (Critical.Move ι KeyedCall)) :
    let st := moves.foldl (Critical.move (appends dialect s)) Appends.start
    st.shared = recordKeyed s (st.done.map Prod.snd) ∧ check s st.shared = [] ∧
      ∀ i c, (st.stage i).call = some c → c.raises s = false → ∃ more before,
        (List.foldl (Critical.move (appends dialect s)) st more).done =
          st.done ++ before ++ [(i, c)] := by
  intro st
  have hsound : Critical.Sound (appends dialect s) .empty st := Critical.sound_run _ moves
  refine ⟨Appends.serial hsound, ?_, fun i c hcall hraises ↦ hsound.can_commit hcall hraises⟩
  rw [Appends.serial hsound, recordKeyed_eq, ← check_keys s []]
  exact check_recordAll _ _

end Appenders

/-! ## Reading behind the appends -/

/-- A reader of `/api/audit` that asks for what is above its high-water mark. -/
abbrev Follower := Reader AuditEntry Int

/-- It starts at the bottom. -/
def Follower.start : Follower := ⟨0, []⟩

/-- One request, and the mark its answer leaves; one that raises leaves the mark where it was;
`routes_actions.py:103–143`. -/
def Follower.poll (s : AuditStore) (ks : KeyStore) (limit : Nat) (t : AuditTable)
    (f : Follower) : Follower :=
  match list s ks t limit (some f.mark) with
  | .error _ => f
  | .ok entries => ⟨(entries.getLast?.map AuditEntry.id).getD f.mark, f.got ++ entries⟩

/-- Some configured keys show the row so. -/
def ShownAs (s : AuditStore) (entry row : AuditEntry) : Prop :=
  ∃ ks, entry = row.shown s ks

theorem shownAs_shown (s : AuditStore) (ks : KeyStore) (r : AuditEntry) :
    ShownAs s (r.shown s ks) r := ⟨ks, rfl⟩

/-- An answered request reads a page on. -/
theorem poll_of_ok {s : AuditStore} {ks : KeyStore} {limit : Nat} {t : AuditTable} {f : Follower}
    {entries : List AuditEntry} (h : list s ks t limit (some f.mark) = .ok entries) :
    f.poll s ks limit t = f.page AuditEntry.id (AuditEntry.shown s ks) limit t.rows := by
  have hentries : entries = (page t limit (some f.mark)).map (AuditEntry.shown s ks) := by
    rw [list, toModels_eq] at h
    split at h
    · exact (Except.ok.inj h).symm
    · cases h
  rw [Follower.poll, h, hentries, Reader.page]
  simp only [List.getLast?_map, Option.map_map]
  rfl

/-- A request is answered, or it raises for a row that cannot be compared with the keys. -/
theorem poll_cases (s : AuditStore) (ks : KeyStore) (limit : Nat) (t : AuditTable)
    (f : Follower) :
    (f.poll s ks limit t = f ∧ ∃ r ∈ t.rows, ¬ Redactable ks r.values.actor) ∨
      f.poll s ks limit t = f.page AuditEntry.id (AuditEntry.shown s ks) limit t.rows := by
  cases hlist : list s ks t limit (some f.mark) with
  | error d =>
    obtain ⟨-, r, hr, hraise⟩ := list_error hlist
    exact .inl ⟨by rw [Follower.poll, hlist], r, hr, hraise⟩
  | ok entries => exact .inr (poll_of_ok hlist)

/-- A statement of an appender, or a request of a reader. -/
inductive TrailMove (ι φ : Type) where
  | append (m : Critical.Move ι KeyedCall)
  | poll (who : φ) (ks : KeyStore) (limit : Nat)

/-- The appends under way, and what every reader holds. -/
structure Trail (ι φ : Type) where
  appends : Appends ι
  follower : φ → Follower

variable {φ : Type}

/-- Nothing was recorded or read. -/
def Trail.start : Trail ι φ := ⟨Appends.start, fun _ ↦ Follower.start⟩

/-- Ids are above zero, no mark is above them, and every reader was given the front of the
table. -/
structure Followed (s : AuditStore) (tr : Trail ι φ) : Prop where
  positive : ∀ r ∈ tr.appends.shared.rows, 0 < r.id
  mark : ∀ f, (tr.follower f).mark = 0 ∨ ∃ r ∈ tr.appends.shared.rows, (tr.follower f).mark = r.id
  reads : ∀ f, (tr.follower f).Reads AuditEntry.id (ShownAs s) tr.appends.shared.rows

theorem followed_start (s : AuditStore) : Followed s (Trail.start : Trail ι φ) where
  positive := fun _ hr ↦ absurd hr List.not_mem_nil
  mark := fun _ ↦ .inl rfl
  reads := fun _ ↦ ⟨[], rfl, .nil⟩

/-- A row after all others keeps what the readers hold the front of the table. -/
theorem Followed.insert {s s' : AuditStore} {tr : Trail ι φ} (h : Followed s tr) {st : Appends ι}
    {c : RecordCall} {prevHash : Option String}
    (hst : st.shared = insertEntry s' c prevHash tr.appends.shared) :
    Followed s { tr with appends := st } := by
  have hrows : st.shared.rows = tr.appends.shared.rows ++
      [newEntry s' c prevHash (nextId tr.appends.shared.rows c.gap)] := by
    rw [hst]
    rfl
  have hpos : 0 < nextId tr.appends.shared.rows c.gap := by
    rw [nextId]
    cases hlast : tr.appends.shared.rows.getLast? with
    | none => simp only; omega
    | some r =>
      have := h.positive r (List.mem_of_getLast? hlast)
      simp only
      omega
  refine ⟨fun r hr ↦ ?_, fun f ↦ ?_, fun f ↦ ?_⟩
  · rw [hrows] at hr
    rcases List.mem_append.mp hr with hr | hr
    · exact h.positive r hr
    · rw [List.mem_singleton.mp hr]
      exact hpos
  · rcases h.mark f with hmark | ⟨r, hr, hmark⟩
    · exact .inl hmark
    · refine .inr ⟨r, ?_, hmark⟩
      rw [hrows]
      exact List.mem_append_left _ hr
  · show (tr.follower f).Reads AuditEntry.id (ShownAs s) st.shared.rows
    rw [hrows]
    refine (h.reads f).append ?_
    show (tr.follower f).mark < nextId tr.appends.shared.rows c.gap
    rcases h.mark f with hmark | ⟨r, hr, hmark⟩
    · rw [hmark]
      exact hpos
    · rw [hmark]
      exact lt_nextId hr c.gap

variable [DecidableEq ι] [DecidableEq φ]

/-- A reader reads what is committed. -/
def trailStep (dialect : Dialect) (s : AuditStore) (tr : Trail ι φ) : TrailMove ι φ → Trail ι φ
  | .append m => { tr with appends := Critical.move (appends dialect s) tr.appends m }
  | .poll f ks limit =>
    { tr with
      follower := Function.update tr.follower f
        ((tr.follower f).poll s ks limit tr.appends.shared) }

/-- Every statement and every request keeps what the readers hold the front of the table. -/
theorem followed_step {dialect : Dialect} {s : AuditStore} {tr : Trail ι φ} (h : Followed s tr)
    (m : TrailMove ι φ) : Followed s (trailStep dialect s tr m) := by
  cases m with
  | append m =>
    rcases Critical.shared_move (appends dialect s) tr.appends m with hsame | ⟨c, prevHash, hins⟩
    · refine ⟨?_, ?_, ?_⟩ <;> simp only [trailStep, hsame]
      · exact h.positive
      · exact h.mark
      · exact h.reads
    · exact h.insert hins
  | poll f ks limit =>
    refine ⟨h.positive, fun g ↦ ?_, fun g ↦ ?_⟩
    · by_cases hg : g = f
      · subst hg
        simp only [trailStep, Function.update_self]
        rcases poll_cases s ks limit tr.appends.shared (tr.follower g) with ⟨hsame, -⟩ | hpage
        · rw [hsame]
          exact h.mark g
        · rw [hpage, Reader.page]
          cases hlast : ((aboveMark AuditEntry.id (tr.follower g).mark
              tr.appends.shared.rows).take limit).getLast? with
          | none => exact h.mark g
          | some r =>
            have hmem := List.mem_of_mem_take (List.mem_of_getLast? hlast)
            exact .inr ⟨r, (List.mem_filter.mp hmem).1, rfl⟩
      · simp only [trailStep, Function.update_of_ne hg]
        exact h.mark g
    · by_cases hg : g = f
      · subst hg
        simp only [trailStep, Function.update_self]
        rcases poll_cases s ks limit tr.appends.shared (tr.follower g) with ⟨hsame, -⟩ | hpage
        · rw [hsame]
          exact h.reads g
        · rw [hpage]
          exact (h.reads g).page tr.appends.shared.ordered (shownAs_shown s ks) limit
      · simp only [trailStep, Function.update_of_ne hg]
        exact h.reads g

/-- Whatever is appended between their requests, by whatever appenders, in whatever order and under
whatever keys: every reader has been given the front of the table, each row once and in order. A
short page is the last one, and requests that do not raise read the table to its end. -/
theorem followers_miss_nothing (dialect : Dialect) (s : AuditStore) (moves : List (TrailMove ι φ))
    (f : φ) :
    let tr := moves.foldl (trailStep dialect s) Trail.start
    let rows := tr.appends.shared.rows
    (tr.follower f).Reads AuditEntry.id (ShownAs s) rows ∧
      ∀ ks limit,
        (∀ entries, list s ks tr.appends.shared limit (some (tr.follower f).mark) = .ok entries →
          entries.length < limit →
            ((tr.follower f).poll s ks limit tr.appends.shared).CaughtUp (ShownAs s) rows) ∧
        ((∀ r ∈ rows, Redactable ks r.values.actor) → ∀ n, rows.length ≤ n * limit →
          ((Follower.poll s ks limit tr.appends.shared)^[n] (tr.follower f)).CaughtUp
            (ShownAs s) rows) := by
  intro tr rows
  have hfollowed : Followed s tr := foldl_invariant (P := Followed s)
    (fun _ m h ↦ followed_step h m) (followed_start s) moves
  have hreads := hfollowed.reads f
  have hsorted := tr.appends.shared.ordered
  refine ⟨hreads, fun ks limit ↦ ⟨fun entries hlist hshort ↦ ?_, fun hall n hn ↦ ?_⟩⟩
  · have hgot : ((tr.follower f).poll s ks limit tr.appends.shared).got =
        (tr.follower f).got ++ entries := by rw [Follower.poll, hlist]
    rw [poll_of_ok hlist] at hgot ⊢
    refine hreads.caughtUp_of_short hsorted (shownAs_shown s ks) ?_
    rw [hgot, List.length_append]
    omega
  · have hpoll : Follower.poll s ks limit tr.appends.shared =
        Reader.page AuditEntry.id (AuditEntry.shown s ks) limit tr.appends.shared.rows := by
      funext g
      rcases poll_cases s ks limit tr.appends.shared g with ⟨-, r, hr, hbad⟩ | hpage
      · exact absurd (hall r hr) hbad
      · exact hpage
    rw [hpoll]
    refine hreads.caughtUp_of_pages hsorted (shownAs_shown s ks) ?_
    exact le_trans (List.length_filter_le _ _) hn

end CFactory.Audit
