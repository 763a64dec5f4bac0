import CFactory.Import.Board

/-!
# Repositories that import over each other

`git_connections.py:117–177`, `cards.py:250–258,515–549`, `issue_import.py:472–551,639–714`. A
repository is unique on its connection, while cards, cursors and leases go by the project path
alone. The imports of a tenant's repositories keep apart exactly where no two of them read the
same project and no card that names one is within reach of another's project.
-/

namespace CFactory.Import

open CFactory.Base
open CFactory.Model
open CFactory.Cards
open CFactory.Git

/-- `_lease_key` of a poll target; `issue_import.py:639–641,687–689`. -/
def leaseKey (r : GitRepositoryRow) : String := stripped (some (importProject r))

/-- No import of a tenant's repository changes a card that names another of them, or the cursor
of another; and no claim of one's poll cycle decides a claim of another's. -/
structure ImportsApart (nocase : Bool) (scope : Option String) (b : Board) : Prop where
  cards : ∀ r ∈ repositoriesOf b.git (tenantOf scope),
    ∀ other ∈ repositoriesOf b.git (tenantOf scope), r.id ≠ other.id →
      ∀ read report b', importRepository nocase scope b (some r.id) none read = .ok (report, b') →
        ∀ q ∈ b.cards, q.card.repositoryId = some other.id → q ∈ b'.cards
  watermarks : ∀ r ∈ repositoriesOf b.git (tenantOf scope),
    ∀ other ∈ repositoriesOf b.git (tenantOf scope), r.id ≠ other.id →
      ∀ read report b', importRepository nocase scope b (some r.id) none read = .ok (report, b') →
        getWatermark b'.states (tenantOf scope) (importProject other) =
          getWatermark b.states (tenantOf scope) (importProject other)
  leases : ∀ r ∈ repositoriesOf b.git (tenantOf scope),
    ∀ other ∈ repositoriesOf b.git (tenantOf scope), r.id ≠ other.id → ∀ ttl now ttl' now',
      (claimImportLease (claimImportLease b.states (tenantOf scope) (leaseKey r) ttl now).2
        (tenantOf scope) (leaseKey other) ttl' now').1 =
          (claimImportLease b.states (tenantOf scope) (leaseKey other) ttl' now').1

/-- The repositories read different projects, and a card that names one of them is neither
refreshed by the issues of another's project nor marked by its threads. -/
def Apart (nocase : Bool) (scope : Option String) (b : Board) : Prop :=
  ∀ r ∈ repositoriesOf b.git (tenantOf scope),
    ∀ other ∈ repositoriesOf b.git (tenantOf scope), r.id ≠ other.id →
      importProject r ≠ importProject other ∧
        ∀ q ∈ b.cards, q.card.repositoryId = some other.id →
          ¬Refreshes b.cards scope (importProject r) q ∧
            ¬Threads nocase b.cards scope (importProject r) q

variable {nocase : Bool} {scope : Option String} {b : Board} {r other : GitRepositoryRow}

/-- The lease of a repository goes by the project it imports from. -/
theorem leaseKey_eq (h : Addressed r) : leaseKey r = importProject r :=
  stripped_project (isProject_importProject h)

/-! ## What keeps the state of a project apart -/

theorem keepsProject_synced (when : Time) :
    KeepsProject fun r ↦ { r with lastSyncedAt := some when } :=
  fun _ ↦ ⟨rfl, rfl⟩

theorem keepsProject_polled (when : Time) :
    KeepsProject fun r ↦ { r with lastPolledAt := some when } :=
  fun _ ↦ ⟨rfl, rfl⟩

theorem keepsProject_leased (until' : Time) :
    KeepsProject fun r ↦ { r with pollLeasedUntil := some until' } :=
  fun _ ↦ ⟨rfl, rfl⟩

/-- A pass leaves the state of other projects alone. -/
theorem stateOf_statesAfter {s : ImportStates} {tenant project project' : String}
    (h : project' ≠ project) (watermark : Option Time) (polledAt : Time) :
    stateOf (statesAfter s tenant project watermark polledAt) tenant project' =
      stateOf s tenant project' := by
  cases watermark with
  | none => exact stateOf_upsert_other s (keepsProject_polled polledAt) h
  | some when =>
    exact (stateOf_upsert_other _ (keepsProject_polled polledAt) h).trans
      (stateOf_upsert_other s (keepsProject_synced when) h)

/-- The cursor a pass stores. -/
theorem getWatermark_statesAfter (s : ImportStates) (tenant project : String)
    (when polledAt : Time) :
    getWatermark (statesAfter s tenant project (some when) polledAt) tenant project =
      some when := by
  have hset : stateOf (setWatermark s tenant project when) tenant project = some
      { (stateOf s tenant project).getD { tenantId := tenant, project := project } with
        lastSyncedAt := some when } := by
    rw [setWatermark, stateOf_upsert _ _ _ _ (keepsProject_synced when), if_pos rfl]
  show (stateOf (markPolled (setWatermark s tenant project when) tenant project polledAt) tenant
    project).bind _ = _
  rw [markPolled, stateOf_upsert _ _ _ _ (keepsProject_polled polledAt), if_pos rfl, hset]
  rfl

/-- A claim succeeds where nobody owns the cycle. -/
theorem claim_granted (s : ImportStates) (tenant project : String) (ttl now : Time) :
    (claimImportLease s tenant project ttl now).1 = !leased s tenant project now := by
  rw [claimImportLease]
  cases leased s tenant project now with
  | true => rfl
  | false => rfl

/-- A claim does not own the cycle of another project. -/
theorem leased_claim_other {s : ImportStates} {tenant project project' : String}
    (h : project' ≠ project) (ttl now now' : Time) :
    leased (claimImportLease s tenant project ttl now).2 tenant project' now' =
      leased s tenant project' now' := by
  rw [claimImportLease]
  split
  · rfl
  · rw [leased, leased, stateOf_upsert_other s (keepsProject_leased (now + ttl)) h]

/-! ## What brings a card within reach -/

private theorem exists_other_time (o : Option Time) : ∃ w, some w ≠ o := by
  cases o with
  | none => exact ⟨0, by simp⟩
  | some w => exact ⟨w + 1, fun h ↦ Int.ne_of_lt (Int.lt_succ w) (Option.some.inj h).symm⟩

/-- An issue that its card does not have the title of is written to the row. -/
theorem exists_refresh {t : CardTable} (h : Indexed t) {project : String} {q : CardRow}
    (hq : Refreshes t scope project q) (own : Option Nat) (now : Time) :
    ∃ returned, q ∉ importAll scope project own now t returned := by
  obtain ⟨n, c, hc, hlive, hrow⟩ := hq
  let issue : IssueData := { number := n, title := c.title ++ q.card.title ++ "!" }
  have hlength : issue.title.length = c.title.length + q.card.title.length + 1 := by
    show (c.title ++ q.card.title ++ "!").length = _
    rw [String.length_append, String.length_append]
    rfl
  have htitle : (mapping issue).title = issue.title := by
    rw [mapping, if_neg]
    intro hempty
    rw [hempty] at hlength
    simp at hlength
  have hcard : c.title ≠ issue.title := by
    intro hsame
    rw [← hsame] at hlength
    omega
  have hold : q.card.title ≠ issue.title := by
    intro hsame
    rw [← hsame] at hlength
    omega
  have hassign : (changesFor c issue).title = some issue.title := by
    rw [changesFor]
    dsimp only
    rw [htitle, assign, if_neg hcard]
  have hchanges : changesFor c issue ≠ {} := by
    intro hnone
    rw [hnone] at hassign
    cases hassign
  have hpass : importAll scope project own now t [⟨issue, .none⟩] =
      modifyRow t q.id ((changesFor c issue).apply now) := by
    have hknown : getByIssueRef t scope (refOf project issue).text = some c := hc
    have hfault : Fault.none ≠ .early := by decide
    show (importOne scope own now t (refOf project issue) issue .none).2 = _
    rw [importOne_known hfault hknown, refreshCard_live h hlive hrow, if_neg hchanges]
  refine ⟨[⟨issue, .none⟩], ?_⟩
  rw [hpass]
  intro hmem
  obtain ⟨s, hs, hsame⟩ := mem_modifyRow.mp hmem
  by_cases hid : s.id = q.id
  · rw [if_pos hid] at hsame
    apply hold
    rw [congrArg (fun x : CardRow ↦ x.card.title) hsame]
    show (changesFor c issue).title.getD s.card.title = issue.title
    rw [hassign, Option.getD_some]
  · rw [if_neg hid] at hsame
    exact hid (by rw [hsame])

/-- A thread that was stored marks every row under the key of its card. -/
private theorem marked_storeOne {targets : Dict Int Card} {n : Int} {c : Card}
    (hc : targets.get? n = some c) (syncedAt : Time) (s : CommentSync) {q : CardRow}
    (hq : q ∈ (storeOne scope targets syncedAt (fun _ ↦ false) s (n, [])).cards)
    (hscope : inScope scope q = true) (hkey : q.card.cardKey = c.cardKey) :
    q.card.commentsSyncedAt = some syncedAt := by
  rw [storeOne] at hq
  dsimp only at hq
  rw [hc] at hq
  have hstored : storeComments s.cards s.rows scope c.cardKey [] syncedAt =
      some (markSynced s.cards scope c.cardKey syncedAt, (storeThread s.rows (tenantOf scope)
        c.cardKey []).getD []) := by
    rw [storeComments, storeThread]
    rfl
  dsimp only at hq
  rw [if_neg Bool.false_ne_true, hstored, markSynced] at hq
  obtain ⟨p, -, hsame⟩ := List.mem_map.mp hq
  by_cases hhit : (inScope scope p && p.card.cardKey == c.cardKey) = true
  · rw [if_pos hhit] at hsame
    rw [← hsame]
    rfl
  · rw [if_neg hhit] at hsame
    subst hsame
    rw [hscope, hkey] at hhit
    simp at hhit

/-- A card that is selected is in one of the reads of the pass. -/
private theorem groupsOf_ne_nil {targets : Dict Int Card} {n : Int} {c : Card}
    (hc : targets.get? n = some c) : groupsOf targets 1 ≠ [] := by
  have hentry := (Dict.get?_eq_some_iff targets n c).mp hc
  have hmember : ∃ g ∈ groupsOf targets 1, g.numbers ≠ [] := by
    cases hmarker : c.commentsSyncedAt with
    | some marker =>
      have hwarm : n ∈ (warm targets).insertionSort (· ≤ ·) := by
        rw [List.mem_insertionSort, warm]
        exact List.mem_map.mpr ⟨(n, c), List.mem_filter.mpr ⟨hentry, by simp [hmarker]⟩, rfl⟩
      have hne : (warm targets).insertionSort (· ≤ ·) ≠ [] := List.ne_nil_of_mem hwarm
      exact ⟨⟨_, windowOf targets⟩,
        List.mem_filter.mpr ⟨List.mem_cons_self, decide_eq_true hne⟩, hne⟩
    | none =>
      have hcold : n ∈ (((targets.entries.filter fun e ↦ e.2.commentsSyncedAt.isNone).map
          Prod.fst).insertionSort (· ≤ ·)) := by
        rw [List.mem_insertionSort]
        exact List.mem_map.mpr ⟨(n, c), List.mem_filter.mpr ⟨hentry, by simp [hmarker]⟩, rfl⟩
      have hne : cold targets 1 ≠ [] := by
        rw [cold]
        intro hnil
        rcases List.take_eq_nil_iff.mp hnil with hzero | hempty
        · exact absurd hzero (by decide)
        · rw [hempty] at hcold
          cases hcold
      exact ⟨⟨_, none⟩, List.mem_filter.mpr
        ⟨List.mem_cons_of_mem _ List.mem_cons_self, decide_eq_true hne⟩, hne⟩
  obtain ⟨g, hg, -⟩ := hmember
  exact List.ne_nil_of_mem hg

/-- A thread read at a time the row does not carry is written to the row. -/
theorem exists_thread {t : CardTable} {project : String} {q : CardRow}
    (hq : Threads nocase t scope project q) (rows : List CommentRow) :
    ∃ answer, q ∉ (syncComments nocase scope project 1 answer t rows).1.cards := by
  obtain ⟨hscope, c, hc, hkey⟩ := hq
  obtain ⟨n, hn⟩ := Dict.exists_key hc
  obtain ⟨syncedAt, hother⟩ := exists_other_time q.card.commentsSyncedAt
  let answer : Group → GroupAnswer := fun _ ↦ { threads := some [(n, [])], syncedAt := syncedAt }
  refine ⟨answer, ?_⟩
  intro hmem
  rw [syncComments] at hmem
  dsimp only at hmem
  -- whatever the reads before it did, the last one marks the row
  rcases List.eq_nil_or_concat (groupsOf (byNumber (cardsForProject nocase t scope project)) 1)
    with hnone | ⟨reads, g, hgroups⟩
  · exact groupsOf_ne_nil hn hnone
  · rw [hgroups, List.concat_eq_append, List.foldl_append, List.foldl_cons, List.foldl_nil] at hmem
    have hmarked := marked_storeOne hn syncedAt _ hmem hscope hkey
    exact hother hmarked.symm

/-! ## The exact condition -/

/-- An import that read its issues. -/
theorem importRepository_read (nocase : Bool) (h : Configured b.git)
    (hr : r ∈ repositoriesOf b.git (tenantOf scope)) (returned : List Returned)
    (comments : Option (Group → GroupAnswer)) :
    ∃ report b', importRepository nocase scope b (some r.id) none
        { answer := fun _ ↦ some returned, comments := comments, backfillMax := 1, now := 0
          polledAt := 0 } = .ok (report, b') ∧
      b'.cards = (importPass nocase scope (importProject r) (some r.id) 1 comments 0 b.cards
        b.comments returned).1 ∧
      ∃ since, b'.states = statesAfter b.states (tenantOf scope) (importProject r)
        (nextWatermark ((issuesOnly returned).map Returned.issue) since) 0 :=
  ⟨_, _, importRepository_eq h hr _, rfl, _, rfl⟩

/-- What an import leaves where the condition holds. -/
private theorem import_of_apart (h : Sound b) (hapart : Apart nocase scope b)
    (hr : r ∈ repositoriesOf b.git (tenantOf scope))
    (hother : other ∈ repositoriesOf b.git (tenantOf scope)) (hne : r.id ≠ other.id)
    {read : ImportRead} {report : Option PassReport} {b' : Board}
    (himport : importRepository nocase scope b (some r.id) none read = .ok (report, b')) :
    (∀ q ∈ b.cards, q.card.repositoryId = some other.id → q ∈ b'.cards) ∧
      getWatermark b'.states (tenantOf scope) (importProject other) =
        getWatermark b.states (tenantOf scope) (importProject other) := by
  obtain ⟨hproject, hreach⟩ := hapart r hr other hother hne
  rw [importRepository_eq h.configured hr read] at himport
  have hpass := Except.ok.inj himport
  split at hpass
  · dsimp only at hpass
    split at hpass
    · cases hpass
      exact ⟨fun q hq _ ↦ hq, rfl⟩
    · cases hpass
      constructor
      · intro q hq hnamed
        exact mem_importPass hne h.indexed (fun q hq hnamed ↦ (hreach q hq hnamed).1)
          (fun q hq hnamed ↦ (hreach q hq hnamed).2) _ _ _ _ _ hq hnamed
      · exact congrArg (·.bind ImportStateRow.lastSyncedAt)
          (stateOf_statesAfter hproject.symm _ read.polledAt)
  · cases hpass
    exact ⟨fun q hq _ ↦ hq, rfl⟩

/-- On a sound board the imports keep apart exactly where the condition holds. -/
theorem importsApart_iff (h : Sound b) : ImportsApart nocase scope b ↔ Apart nocase scope b := by
  constructor
  · intro hapart r hr other hother hne
    constructor
    · -- an issue whose time is not the cursor's moves it
      intro hproject
      obtain ⟨w, hw⟩ := exists_other_time
        (getWatermark b.states (tenantOf scope) (importProject other))
      let issue : IssueData := { number := 1, title := "", updatedAt := w + overlap }
      obtain ⟨report, b', himport, -, since, hstates⟩ :=
        importRepository_read nocase h.configured hr
        [⟨issue, .none⟩] none
      have hkept := hapart.watermarks r hr other hother hne _ _ _ himport
      have hnext : nextWatermark ((issuesOnly [⟨issue, .none⟩]).map Returned.issue) since =
          some w :=
        congrArg some (Int.add_sub_cancel w overlap)
      rw [hstates, hnext, ← hproject, getWatermark_statesAfter, hproject] at hkept
      exact hw hkept
    · intro q hq hnamed
      constructor
      · intro hrefresh
        obtain ⟨returned, hgone⟩ := exists_refresh h.indexed hrefresh (some r.id) 0
        obtain ⟨report, b', himport, hcards, -⟩ :=
          importRepository_read nocase h.configured hr returned none
        have hkept := hapart.cards r hr other hother hne _ _ _ himport q hq hnamed
        rw [hcards] at hkept
        exact hgone hkept
      · intro hthread
        obtain ⟨answer, hgone⟩ := exists_thread hthread b.comments
        obtain ⟨report, b', himport, hcards, -⟩ :=
          importRepository_read nocase h.configured hr [] (some answer)
        have hkept := hapart.cards r hr other hother hne _ _ _ himport q hq hnamed
        rw [hcards] at hkept
        exact hgone hkept
  · intro hapart
    refine ⟨?_, ?_, ?_⟩
    · intro r hr other hother hne read report b' himport
      exact (import_of_apart h hapart hr hother hne himport).1
    · intro r hr other hother hne read report b' himport
      exact (import_of_apart h hapart hr hother hne himport).2
    · intro r hr other hother hne ttl now ttl' now'
      have hproject := (hapart r hr other hother hne).1
      have hkey : leaseKey other ≠ leaseKey r := by
        rw [leaseKey_eq (h.configured.addressed r (mem_repositoriesOf.mp hr).1),
          leaseKey_eq (h.configured.addressed other (mem_repositoriesOf.mp hother).1)]
        exact hproject.symm
      rw [claim_granted, claim_granted, leased_claim_other hkey]

/-- In every board that calls of its stores reach, the imports of a tenant's repositories keep
apart exactly where they read different projects and no card that names one of them is within
reach of another's. -/
theorem repositories_apart_iff (nocase : Bool) (scope : Option String) (calls : List ScopedCall) :
    ImportsApart nocase scope (boardAfter nocase calls) ↔
      Apart nocase scope (boardAfter nocase calls) :=
  importsApart_iff (sound_boardAfter nocase calls)

/-- A read that brings one issue, last changed at this time. -/
def readOne (title : String) (updatedAt : Time) : ImportRead where
  answer := fun _ ↦ some [⟨{ number := 1, title := title, updatedAt := updatedAt }, .none⟩]
  now := updatedAt
  polledAt := updatedAt

/-- A tenant with a repository of one path on each of two hosts, the first imported. -/
def samePath : List ScopedCall :=
  [.createConnection 0 { provider := "github" }, .createConnection 0 { provider := "gitlab" },
    .createRepository 0 1 { project := "acme/app" },
    .createRepository 0 2 { project := "acme/app" },
    .importRepository (some 1) none (readOne "Login" 100000000)].map (some "acme", ·)

/-- The import of the second overwrites the card of the first and moves its cursor, and a claim
of the second keeps the first from being polled. -/
theorem same_path_collides :
    let b := boardAfter true samePath
    let after := boardCall true (some "acme") b
      (.importRepository (some 2) none (readOne "Billing" 200000000))
    ¬ImportsApart true (some "acme") b ∧
      (∃ q ∈ b.cards, q.card.repositoryId = some 1 ∧ q ∉ after.cards) ∧
      getWatermark after.states "acme" "acme/app" ≠ getWatermark b.states "acme" "acme/app" ∧
      (claimImportLease (claimImportLease b.states "acme" "acme/app" 150000000 0).2 "acme"
        "acme/app" 150000000 0).1 = false := by
  have hrepositories : repositoriesOf (boardAfter true samePath).git "acme" =
      [{ id := 1, tenantId := "acme", connectionId := 1, project := "acme/app"
         defaultForTenant := some "acme" },
        { id := 2, tenantId := "acme", connectionId := 2, project := "acme/app" }] := by
    decide +kernel
  refine ⟨?_, by decide +kernel, by decide +kernel, by decide +kernel⟩
  intro h
  have hapart := (importsApart_iff (sound_boardAfter true samePath)).mp h
  have hprojects := hapart _ (hrepositories ▸ List.mem_cons_self) _
    (hrepositories ▸ List.mem_cons_of_mem _ List.mem_cons_self) (by decide)
  exact hprojects.1 rfl

end CFactory.Import
