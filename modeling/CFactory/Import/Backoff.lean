import CFactory.Base.Keyed
import CFactory.Import.Apart
import Mathlib.Data.List.Duplicate

/-!
# Backing off a project

`issue_import.py:121–128,574–714`. A poll cycle asks for each repository's project in turn, and a
project whose import failed is left out. The back-off is counted in cycles, while what counts it
down is asked once for each repository.
-/

namespace CFactory.Import

open CFactory.Base CFactory.Git

/-- `_MAX_BACKOFF_CYCLES`; `issue_import.py:124`. -/
def maxBackoffCycles : Nat := 8

/-- `_RATE_LIMIT_FAILURES`; `issue_import.py:128`. -/
def rateLimitFailures : Nat := 3

/-- What is read of an import's result; `issue_import.py:608–630`. -/
structure ImportResult where
  ok : Bool
  rateLimited : Bool := false
  deriving DecidableEq, Repr

/-- `PollBackoff`: the two dictionaries as they are read, with 0 for a key they do not hold;
`issue_import.py:574–618`. -/
structure PollBackoff where
  failures : String → Nat := fun _ ↦ 0
  skip : String → Nat := fun _ ↦ 0

/-- `due`; `issue_import.py:600–606`. -/
def PollBackoff.due (b : PollBackoff) (key : String) : Bool × PollBackoff :=
  if 0 < b.skip key then
    (false, { b with skip := Function.update b.skip key (b.skip key - 1) })
  else (true, b)

/-- `record`; `issue_import.py:608–618`. -/
def PollBackoff.record (b : PollBackoff) (key : String) (result : ImportResult) : PollBackoff :=
  if result.ok then
    { failures := Function.update b.failures key 0, skip := Function.update b.skip key 0 }
  else
    let failures :=
      if result.rateLimited then max (b.failures key + 1) rateLimitFailures
      else b.failures key + 1
    { failures := Function.update b.failures key failures
      skip := Function.update b.skip key (min (2 ^ (failures - 1)) maxBackoffCycles) }

/-- What a target meets in a cycle: the answer to its claim of the lease and the result of its
import, each where it is asked for. -/
structure Turn where
  granted : Bool
  result : ImportResult

/-- One poll cycle: the tenant's repositories, the project of the deployment, and what each target
meets. -/
structure Cycle where
  repositories : List GitRepositoryRow
  githubRepo : Option String := none
  turn : Nat → Turn

/-- The targets of a cycle; `issue_import.py:688–690`. -/
def Cycle.targets (c : Cycle) : List (Option Nat × String) :=
  if c.repositories = [] then [(none, stripped c.githubRepo)]
  else c.repositories.map fun repo ↦ (some repo.id, leaseKey repo)

/-- The key of each target and what it meets. -/
def Cycle.turns (c : Cycle) : List (String × Turn) :=
  c.targets.zipIdx.map fun x ↦ (x.1.2, c.turn x.2)

/-- The lease keeps the target from its import. -/
def Refused (key : String) (turn : Turn) : Prop := key ≠ "" ∧ turn.granted = false

instance (key : String) (turn : Turn) : Decidable (Refused key turn) :=
  inferInstanceAs (Decidable (_ ∧ _))

/-- One target of the loop, with the result of its import if it was called;
`issue_import.py:693–713`. -/
def visit (b : PollBackoff) (key : String) (turn : Turn) : PollBackoff × Option ImportResult :=
  match b.due key with
  | (false, b) => (b, none)
  | (true, b) =>
    if Refused key turn then (b, none) else (b.record key turn.result, some turn.result)

/-- `poll_once`: the back-off it leaves and the imports it called, each with its key;
`issue_import.py:644–714`. -/
def pollOnce (b : PollBackoff) (c : Cycle) : PollBackoff × List (String × ImportResult) :=
  runKeyed visit b c.turns

/-- The back-off before a cycle of a process; `issue_import.py:755–759`. -/
def backoffBefore (cycles : Nat → Cycle) : Nat → PollBackoff
  | 0 => {}
  | d + 1 => (pollOnce (backoffBefore cycles d) (cycles d)).1

/-- The results of the imports of a project in a cycle. -/
def resultsIn (cycles : Nat → Cycle) (key : String) (d : Nat) : List ImportResult :=
  ofKey key (pollOnce (backoffBefore cycles d) (cycles d)).2

/-- The results of the imports of a project before a cycle. -/
def resultsBefore (cycles : Nat → Cycle) (key : String) (d : Nat) : List ImportResult :=
  (List.range d).flatMap (resultsIn cycles key)

/-! ## What the back-off is to do -/

/-- The count after one more result: a success resets it, and a refusal for the rate counts as the
third failure at least. -/
def counted (n : Nat) (result : ImportResult) : Nat :=
  if result.ok then 0
  else if result.rateLimited then max (n + 1) rateLimitFailures
  else n + 1

/-- The failures that a project has accumulated. -/
def failureCount (results : List ImportResult) : Nat := results.foldl counted 0

/-- The cycles a project sits out at a count. -/
def window (n : Nat) : Nat := min (2 ^ (n - 1)) maxBackoffCycles

/-- An import of the project fails in the cycle, which makes its count `n`. -/
def FailsAt (cycles : Nat → Cycle) (key : String) (c n : Nat) : Prop :=
  ∃ before result after, resultsIn cycles key c = before ++ result :: after ∧
    result.ok = false ∧ n = failureCount (resultsBefore cycles key c ++ before ++ [result])

/-- A project whose import failed is not imported in the cycles it is to sit out; the count is the
one of its results, and a success resets it. -/
structure BackoffHolds (cycles : Nat → Cycle) : Prop where
  waits : ∀ key c n, FailsAt cycles key c n → ∀ d, c < d → d ≤ c + window n →
    resultsIn cycles key d = []
  counts : ∀ key d,
    (backoffBefore cycles d).failures key = failureCount (resultsBefore cycles key d)
  resets : ∀ key d result, (resultsBefore cycles key d).getLast? = some result →
    result.ok = true → (backoffBefore cycles d).failures key = 0

/-- In every cycle that a project is to sit out, its targets past the units of back-off it has
left are refused by the lease. -/
def Spared (cycles : Nat → Cycle) : Prop :=
  ∀ key c n, FailsAt cycles key c n → ∀ d, c < d → d ≤ c + window n →
    ∀ turn ∈ (ofKey key (cycles d).turns).drop ((backoffBefore cycles d).skip key),
      Refused key turn

/-- No two targets of the cycle read one project. -/
def OneTargetEach (c : Cycle) : Prop := (c.targets.map Prod.snd).Nodup

/-! ## One project's own back-off -/

/-- What the back-off holds of one project. -/
@[ext] structure Standing where
  failures : Nat
  skip : Nat

/-- The standing of a project. -/
def standing (b : PollBackoff) (key : String) : Standing := ⟨b.failures key, b.skip key⟩

/-- A target of the project, as its own standing has it. -/
def visitOwn (key : String) (s : Standing) (turn : Turn) : Standing × Option ImportResult :=
  if 0 < s.skip then ({ s with skip := s.skip - 1 }, none)
  else if Refused key turn then (s, none)
  else
    let failures := counted s.failures turn.result
    ({ failures, skip := if turn.result.ok then 0 else window failures }, some turn.result)

/-- A record is one of the project it is for. -/
private theorem standing_record (b : PollBackoff) (key k : String) (result : ImportResult) :
    standing (b.record k result) key =
      if key = k then
        ⟨counted (b.failures key) result,
          if result.ok then 0 else window (counted (b.failures key) result)⟩
      else standing b key := by
  by_cases hk : key = k
  · subst hk
    cases hok : result.ok with
    | true => simp [standing, PollBackoff.record, counted, hok]
    | false => simp [standing, PollBackoff.record, counted, window, hok]
  · cases hok : result.ok with
    | true => simp [standing, PollBackoff.record, hok, hk]
    | false => simp [standing, PollBackoff.record, hok, hk]

/-- Projects do not touch each other's back-off. -/
theorem perKey_visit : PerKey visit standing visitOwn where
  here b key turn := by
    by_cases hskip : 0 < b.skip key
    · simp [visit, visitOwn, PollBackoff.due, standing, hskip]
    · by_cases hrefused : Refused key turn
      · simp [visit, visitOwn, PollBackoff.due, standing, hskip, hrefused]
      · simp only [visit, visitOwn, PollBackoff.due, hskip, hrefused, if_false, standing_record,
          if_true]
        simp [standing, hskip]
  elsewhere b k turn key hne := by
    by_cases hskip : 0 < b.skip k
    · simp [visit, PollBackoff.due, standing, hskip, hne]
    · by_cases hrefused : Refused k turn
      · simp [visit, PollBackoff.due, hskip, hrefused]
      · simp [visit, PollBackoff.due, hskip, hrefused, standing_record, hne]

variable {key : String} {s : Standing} {turns : List Turn}

/-- A project is not imported in a cycle just if its targets past the units it has left are
refused. -/
theorem results_eq_nil_iff :
    (runOwn (visitOwn key) s turns).2 = [] ↔ ∀ turn ∈ turns.drop s.skip, Refused key turn := by
  induction turns generalizing s with
  | nil => simp [runOwn]
  | cons turn rest ih =>
    rw [runOwn_cons]
    by_cases hskip : 0 < s.skip
    · obtain ⟨n, hn⟩ : ∃ n, s.skip = n + 1 := ⟨s.skip - 1, by omega⟩
      simp [visitOwn, hn, ih]
    · have hzero : s.skip = 0 := by omega
      by_cases hrefused : Refused key turn
      · simp [visitOwn, hzero, hrefused, ih]
      · simp [visitOwn, hzero, hrefused]

/-- The count is carried on over the results. -/
theorem failures_runOwn :
    (runOwn (visitOwn key) s turns).1.failures =
      (runOwn (visitOwn key) s turns).2.foldl counted s.failures := by
  induction turns generalizing s with
  | nil => rfl
  | cons turn rest ih =>
    rw [runOwn_cons, ih, List.foldl_append]
    congr 1
    by_cases hskip : 0 < s.skip
    · simp [visitOwn, hskip]
    · by_cases hrefused : Refused key turn
      · simp [visitOwn, hskip, hrefused]
      · simp [visitOwn, hskip, hrefused]

/-- A cycle calls no more imports of a project than it has targets. -/
theorem length_results_le :
    (runOwn (visitOwn key) s turns).2.length ≤ turns.length := by
  induction turns generalizing s with
  | nil => exact Nat.le_refl 0
  | cons turn rest ih =>
    rw [runOwn_cons, List.length_append, List.length_cons, Nat.add_comm]
    exact Nat.add_le_add ih (Option.length_toList_le)

/-- With one target at most, a failed import leaves all of its window. -/
theorem skip_of_failed (hone : turns.length ≤ 1) {result : ImportResult}
    (hmem : result ∈ (runOwn (visitOwn key) s turns).2) (hok : result.ok = false) :
    (runOwn (visitOwn key) s turns).1.skip =
      window (runOwn (visitOwn key) s turns).1.failures := by
  obtain _ | ⟨turn, rest⟩ := turns
  · cases hmem
  · obtain rfl : rest = [] := List.length_eq_zero_iff.mp (by simpa using hone)
    rw [runOwn_cons] at hmem ⊢
    by_cases hskip : 0 < s.skip
    · simp [visitOwn, hskip, runOwn] at hmem
    · by_cases hrefused : Refused key turn
      · simp [visitOwn, hskip, hrefused, runOwn] at hmem
      · have hresult : result = turn.result := by
          simpa [visitOwn, hskip, hrefused, runOwn] using hmem
        simp [visitOwn, hskip, hrefused, runOwn, ← hresult, hok]

/-- With one target at most, a cycle takes one unit at most. -/
theorem skip_le (hone : turns.length ≤ 1) (hskip : 0 < s.skip) :
    s.skip ≤ (runOwn (visitOwn key) s turns).1.skip + 1 := by
  obtain _ | ⟨turn, rest⟩ := turns
  · exact Nat.le_succ _
  · obtain rfl : rest = [] := List.length_eq_zero_iff.mp (by simpa using hone)
    simp only [runOwn, visitOwn, hskip, if_true]
    omega

/-! ## Over the cycles of a process -/

variable {cycles : Nat → Cycle} {c d n : Nat}

/-- The standing of a project after a cycle is that of the run of its own targets. -/
theorem standing_succ (cycles : Nat → Cycle) (key : String) (d : Nat) :
    standing (backoffBefore cycles (d + 1)) key =
      (runOwn (visitOwn key) (standing (backoffBefore cycles d) key)
        (ofKey key (cycles d).turns)).1 :=
  congrArg Prod.fst (perKey_visit.run _ _ key)

/-- So are the results of its imports. -/
theorem resultsIn_eq (cycles : Nat → Cycle) (key : String) (d : Nat) :
    resultsIn cycles key d =
      (runOwn (visitOwn key) (standing (backoffBefore cycles d) key)
        (ofKey key (cycles d).turns)).2 :=
  congrArg Prod.snd (perKey_visit.run _ _ key)

theorem resultsBefore_succ :
    resultsBefore cycles key (d + 1) = resultsBefore cycles key d ++ resultsIn cycles key d := by
  simp [resultsBefore, List.range_succ]

theorem failureCount_append (xs ys : List ImportResult) :
    failureCount (xs ++ ys) = ys.foldl counted (failureCount xs) := List.foldl_append

/-- The count is the one of the results. -/
theorem failures_eq (cycles : Nat → Cycle) (key : String) (d : Nat) :
    (backoffBefore cycles d).failures key = failureCount (resultsBefore cycles key d) := by
  induction d with
  | zero => rfl
  | succ d ih =>
    rw [resultsBefore_succ, failureCount_append, ← ih, resultsIn_eq]
    calc (backoffBefore cycles (d + 1)).failures key
      _ = (standing (backoffBefore cycles (d + 1)) key).failures := rfl
      _ = _ := by rw [standing_succ, failures_runOwn, standing]

/-- What keeps a project from being imported in a cycle. -/
theorem resultsIn_eq_nil_iff :
    resultsIn cycles key d = [] ↔
      ∀ turn ∈ (ofKey key (cycles d).turns).drop ((backoffBefore cycles d).skip key),
        Refused key turn := by
  rw [resultsIn_eq]
  exact results_eq_nil_iff

/-- The projects of the targets in order, each with what its place meets. -/
theorem turns_eq (c : Cycle) :
    c.turns = (c.targets.map Prod.snd).zipIdx.map fun x ↦ (x.1, c.turn x.2) := by
  rw [Cycle.turns, List.zipIdx_map, List.map_map]
  rfl

/-- A project without a second target has one turn at most. -/
theorem length_turns_le (h : OneTargetEach (cycles d)) :
    (ofKey key (cycles d).turns).length ≤ 1 := by
  apply length_ofKey_le
  have hkeys : (cycles d).turns.map Prod.fst = (cycles d).targets.map Prod.snd := by
    rw [turns_eq, List.map_map]
    exact List.zipIdx_map_fst 0 _
  rw [hkeys]
  exact h

/-- Where no cycle has two targets of one project, the units it has left last as long as the
windows of its failures. -/
theorem owed_le_skip (hone : ∀ d, OneTargetEach (cycles d)) (hfails : FailsAt cycles key c n)
    (hd : c + 1 ≤ d) (hwindow : d ≤ c + window n) :
    c + window n + 1 ≤ d + (backoffBefore cycles d).skip key := by
  induction d, hd using Nat.le_induction with
  | base =>
    obtain ⟨before, result, after, hresults, hok, hn⟩ := hfails
    have hlength : (resultsIn cycles key c).length ≤ 1 := by
      rw [resultsIn_eq]
      exact length_results_le.trans (length_turns_le (hone c))
    have hafter : after = [] := by
      rw [hresults, List.length_append, List.length_cons] at hlength
      exact List.length_eq_zero_iff.mp (by omega)
    have hmem : result ∈ resultsIn cycles key c := by
      rw [hresults]
      exact List.mem_append_right before List.mem_cons_self
    rw [resultsIn_eq] at hmem
    have hskip := skip_of_failed (length_turns_le (hone c)) hmem hok
    rw [← standing_succ] at hskip
    have hcount : (backoffBefore cycles (c + 1)).failures key = n := by
      rw [failures_eq, resultsBefore_succ, hresults, hafter, hn, List.append_assoc]
    have hleft : (backoffBefore cycles (c + 1)).skip key = window n := by
      rw [← hcount]
      exact hskip
    omega
  | succ d hd ih =>
    have hleft := ih (by omega)
    have hskip : 0 < (standing (backoffBefore cycles d) key).skip := by
      show 0 < (backoffBefore cycles d).skip key
      omega
    have hturns : (ofKey key (cycles d).turns).length ≤ 1 := length_turns_le (hone d)
    have hle : (standing (backoffBefore cycles d) key).skip ≤
        (standing (backoffBefore cycles (d + 1)) key).skip + 1 := by
      rw [standing_succ]
      exact skip_le hturns hskip
    simp only [standing] at hle
    omega

/-- One target for each project is enough. -/
theorem spared_of_oneTargetEach (hone : ∀ d, OneTargetEach (cycles d)) : Spared cycles := by
  intro key c n hfails d hc hd turn hturn
  have howed := owed_le_skip hone hfails hc hd
  have hlength : (ofKey key (cycles d).turns).length ≤ 1 := length_turns_le (hone d)
  rw [List.drop_of_length_le (by omega)] at hturn
  cases hturn

/-- The back-off holds exactly where its units last. -/
theorem holds_iff_spared (cycles : Nat → Cycle) : BackoffHolds cycles ↔ Spared cycles := by
  constructor
  · intro h key c n hfails d hc hd
    exact resultsIn_eq_nil_iff.mp (h.waits key c n hfails d hc hd)
  · intro h
    exact
      { waits := fun key c n hfails d hc hd ↦ resultsIn_eq_nil_iff.mpr (h key c n hfails d hc hd)
        counts := fun key d ↦ failures_eq cycles key d
        resets := by
          intro key d result hlast hok
          obtain ⟨before, hbefore⟩ := List.getLast?_eq_some_iff.mp hlast
          rw [failures_eq, hbefore, failureCount_append, List.foldl_cons, List.foldl_nil, counted,
            if_pos hok] }

/-- So one target for each project is enough. -/
theorem holds_of_oneTargetEach (hone : ∀ d, OneTargetEach (cycles d)) : BackoffHolds cycles :=
  (holds_iff_spared cycles).mpr (spared_of_oneTargetEach hone)

/-! ## Two targets of one project -/

/-- A target whose import succeeds. -/
def succeeds : Turn := { granted := true, result := { ok := true } }

/-- A target whose import fails. -/
def fails : Turn := { granted := true, result := { ok := false } }

/-- The target in the place fails, and every other one succeeds. -/
def failsOnce (place i : Nat) : Turn := if i = place then fails else succeeds

/-- Away from the place every target succeeds. -/
private theorem map_failsOnce {place n : Nat} (keys : List String)
    (haway : ∀ i, n ≤ i → i < n + keys.length → i ≠ place) :
    (keys.zipIdx n).map (fun x ↦ (x.1, failsOnce place x.2)) =
      keys.map fun k ↦ (k, succeeds) := by
  have hsame : ∀ x ∈ keys.zipIdx n, (x.1, failsOnce place x.2) = (x.1, succeeds) := by
    intro x hx
    have hbound := List.mem_zipIdx hx
    rw [failsOnce, if_neg (haway x.2 hbound.1 hbound.2.1)]
  rw [List.map_congr_left hsame]
  calc (keys.zipIdx n).map (fun x ↦ (x.1, succeeds))
    _ = ((keys.zipIdx n).map Prod.fst).map fun k ↦ (k, succeeds) := by rw [List.map_map]; rfl
    _ = keys.map fun k ↦ (k, succeeds) := by rw [List.zipIdx_map_fst]

/-- The turns of a project that fails once, in the place of one of its targets. -/
private theorem ofKey_turns_failsOnce {c : Cycle} {front back : List String}
    (hkeys : c.targets.map Prod.snd = front ++ key :: back) :
    ofKey key { c with turn := failsOnce front.length }.turns =
      List.replicate (front.count key) succeeds ++
        fails :: List.replicate (back.count key) succeeds := by
  have hturns : ({ c with turn := failsOnce front.length } : Cycle).turns =
      front.map (fun k ↦ (k, succeeds)) ++ (key, fails) :: back.map fun k ↦ (k, succeeds) := by
    have htargets : ({ c with turn := failsOnce front.length } : Cycle).targets.map Prod.snd =
        front ++ key :: back := hkeys
    rw [turns_eq, htargets, List.zipIdx_append, List.zipIdx_cons, List.map_append, List.map_cons,
      map_failsOnce front (by omega), map_failsOnce back (by omega)]
    simp [failsOnce]
  rw [hturns, ofKey_append, ofKey_cons_self, ofKey_map_const, ofKey_map_const]

/-- Targets that all succeed are imported one and all, from a standing with nothing left. -/
private theorem runOwn_succeeds (key : String) (hskip : s.skip = 0) (m : Nat) :
    (runOwn (visitOwn key) s (List.replicate m succeeds)).1.skip = 0 ∧
      (runOwn (visitOwn key) s (List.replicate m succeeds)).2 =
        List.replicate m succeeds.result := by
  induction m generalizing s with
  | zero => exact ⟨hskip, rfl⟩
  | succ m ih =>
    have hgranted : ¬Refused key succeeds := fun h ↦ Bool.noConfusion h.2
    have hstep : visitOwn key s succeeds = (⟨0, 0⟩, some succeeds.result) := by
      rw [visitOwn, hskip, if_neg (Nat.lt_irrefl 0), if_neg hgranted]
      rfl
    have hrest := ih (s := ⟨0, 0⟩) rfl
    rw [List.replicate_succ, List.replicate_succ, runOwn_cons, hstep]
    exact ⟨hrest.1, congrArg (List.cons _) hrest.2⟩

/-- Successes alone make no count. -/
private theorem failureCount_succeeds (m : Nat) :
    failureCount (List.replicate m succeeds.result) = 0 := by
  induction m with
  | zero => rfl
  | succ m ih => exact ih

/-- A second target after the one that fails uses up the unit that is left. -/
private theorem runOwn_failsOnce (key : String) (a b : Nat) :
    (runOwn (visitOwn key) ⟨0, 0⟩
        (List.replicate a succeeds ++ fails :: List.replicate (b + 1) succeeds)).1.skip = 0 ∧
      (runOwn (visitOwn key) ⟨0, 0⟩
        (List.replicate a succeeds ++ fails :: List.replicate (b + 1) succeeds)).2 =
        List.replicate a succeeds.result ++ fails.result :: List.replicate b succeeds.result := by
  have hgranted : ¬Refused key fails := fun h ↦ Bool.noConfusion h.2
  obtain ⟨hskip, hfront⟩ := runOwn_succeeds key (s := ⟨0, 0⟩) rfl a
  have hfailures :
      (runOwn (visitOwn key) ⟨0, 0⟩ (List.replicate a succeeds)).1.failures = 0 := by
    rw [failures_runOwn, hfront]
    exact failureCount_succeeds a
  have hfails : visitOwn key (runOwn (visitOwn key) ⟨0, 0⟩ (List.replicate a succeeds)).1 fails =
      (⟨1, 1⟩, some fails.result) := by
    rw [visitOwn, hskip, if_neg (Nat.lt_irrefl 0), if_neg hgranted, hfailures]
    rfl
  have hused : visitOwn key ⟨1, 1⟩ succeeds = (⟨1, 0⟩, none) := rfl
  obtain ⟨hleft, hback⟩ := runOwn_succeeds key (s := ⟨1, 0⟩) rfl b
  rw [runOwn_append, runOwn_cons, hfails, List.replicate_succ, runOwn_cons, hused]
  constructor
  · exact hleft
  · rw [hfront]
    simp only [Option.toList_some, Option.toList_none, List.nil_append, List.singleton_append,
      hback]

/-- Where two targets read one project, a failure of the first is not sat out. -/
private theorem not_holds_failsOnce {c : Cycle} {front back : List String}
    (hkeys : c.targets.map Prod.snd = front ++ key :: back) (hback : key ∈ back) :
    ¬BackoffHolds fun _ ↦ { c with turn := failsOnce front.length } := by
  obtain ⟨b, hb⟩ : ∃ b, back.count key = b + 1 :=
    Nat.exists_eq_succ_of_ne_zero (List.count_pos_iff.mpr hback).ne'
  have hturns := ofKey_turns_failsOnce hkeys
  rw [hb] at hturns
  obtain ⟨hskip, hresults⟩ := runOwn_failsOnce key (front.count key) b
  rw [← hturns] at hskip hresults
  intro h
  have hfails : FailsAt (fun _ ↦ { c with turn := failsOnce front.length }) key 0 1 := by
    refine ⟨List.replicate (front.count key) succeeds.result, fails.result,
      List.replicate b succeeds.result, ?_, rfl, ?_⟩
    · rw [resultsIn_eq]
      exact hresults
    · rw [failureCount_append]
      show 1 = [fails.result].foldl counted
        (failureCount (List.replicate (front.count key) succeeds.result))
      rw [failureCount_succeeds]
      rfl
  have hnext := (holds_iff_spared _).mp h key 0 1 hfails 1 (by decide) (by decide)
  have hleft :
      (backoffBefore (fun _ ↦ { c with turn := failsOnce front.length }) 1).skip key = 0 := by
    have hstanding := standing_succ (fun _ ↦ { c with turn := failsOnce front.length }) key 0
    exact (congrArg Standing.skip hstanding).trans hskip
  rw [hleft, List.drop_zero, hturns] at hnext
  exact Bool.noConfusion (hnext fails (List.mem_append_right _ List.mem_cons_self)).2

/-- Over every lease answer and every result, the back-off holds exactly where no two targets read
one project. -/
theorem holds_always_iff (c : Cycle) :
    (∀ turns : Nat → Nat → Turn, BackoffHolds fun d ↦ { c with turn := turns d }) ↔
      OneTargetEach c := by
  constructor
  · intro h
    by_contra hdup
    obtain ⟨key, hkey⟩ := List.exists_duplicate_iff_not_nodup.mpr hdup
    obtain ⟨r₁, r₂, hsplit, hr₁, hr₂⟩ :=
      List.cons_sublist_iff.mp (List.duplicate_iff_sublist.mp hkey)
    obtain ⟨front, mid, rfl⟩ := List.append_of_mem hr₁
    rw [List.append_assoc, List.cons_append] at hsplit
    have hback : key ∈ mid ++ r₂ := List.mem_append_right mid (List.singleton_sublist.mp hr₂)
    exact not_holds_failsOnce hsplit hback (h _)
  · intro h turns
    exact holds_of_oneTargetEach fun _ ↦ h

/-- The back-off of a repository set holds at the poll, over every lease answer and every result,
exactly where no two of its targets read one project. Over repositories that change it does so where
none of the sets has two such targets, and in a single run exactly where its units last. -/
theorem backoffHolds_iff (c : Cycle) (cycles : Nat → Cycle) :
    ((∀ turns : Nat → Nat → Turn, BackoffHolds fun d ↦ { c with turn := turns d }) ↔
        OneTargetEach c) ∧
      ((∀ d, OneTargetEach (cycles d)) → BackoffHolds cycles) ∧
      (BackoffHolds cycles ↔ Spared cycles) :=
  ⟨holds_always_iff c, holds_of_oneTargetEach, holds_iff_spared cycles⟩

/-- Two repositories that read one project, which fails whenever it is imported. -/
def sharedIntake : Cycle where
  repositories :=
    [{ id := 1, tenantId := "default", connectionId := 1, project := "acme/app"
       intakeProject := some "acme/intake" },
      { id := 2, tenantId := "default", connectionId := 1, project := "acme/api"
        intakeProject := some "acme/intake" }]
  turn _ := { granted := true, result := { ok := false } }

/-- The second repository uses up the cycle that the first one's failure was to skip. -/
theorem backoff_used_up : ¬∀ cycles : Nat → Cycle, BackoffHolds cycles := by
  intro h
  have hfails : FailsAt (fun _ ↦ sharedIntake) "acme/intake" 0 1 :=
    ⟨[], { ok := false }, [], by decide +kernel, rfl, by decide +kernel⟩
  have hwaits := (h fun _ ↦ sharedIntake).waits "acme/intake" 0 1 hfails 1 (by decide) (by decide)
  exact absurd hwaits (by decide +kernel)

theorem backoffHolds_iff_single :
    BackoffHolds fun _ ↦ { sharedIntake with repositories := sharedIntake.repositories.take 1 } :=
  (backoffHolds_iff sharedIntake _).2.1 fun _ ↦ List.nodup_singleton "acme/intake"

end CFactory.Import
