import CFactory.Providers.Comments
import CFactory.Providers.Issues

/-!
# What paging keeps

`git_providers.py:231–390,443–470`. No issue is lost over the pages of a list. A read of threads
loses no comment either, and raises where it cannot have them all; but it also raises on a single
comment that is not as the others are.
-/

namespace CFactory.Providers

open CFactory.Base CFactory.Model CFactory.Relay
open CFactory.Progress (DateTime)

variable {x : Library} {host : Host} {repo : String} {clock : Clock} {issueNumbers : List Int}
  {since : DateTime}

/-- A comment of a thread is one of its issue. -/
theorem issueNumber_of_mem {raw : List Json} {n : Int} {thread : List IssueComment}
    {c : IssueComment} (h : IsThread x raw n thread) (hc : c ∈ thread) : c.issueNumber = n := by
  obtain ⟨⟨read, hread, hperm⟩, -⟩ := h
  have hissue : ∀ c ∈ read, c.issueNumber = n := by
    refine (ReadsAs.all_iff hread _ (fun _ ↦ True) ?_).mpr fun _ _ ↦ True.intro
    exact fun _ _ ↦ iff_of_true rfl True.intro
  exact hissue c (hperm.mem_iff.mp hc)

/-- A read without issues is whole. -/
private theorem threadsWhole_nil : ThreadsWhole x host repo clock [] since where
  raises := by
    rw [fetchCommentsBulk_nil]
    apply iff_of_false
    · rintro ⟨e, he⟩
      cases he
    · exact fun h ↦ h.1 rfl
  asked _ _ n hn := absurd hn List.not_mem_nil
  others threads h n _ := by
    rw [fetchCommentsBulk_nil] at h
    cases h
    rfl
  apart threads h n m thread thread' c hn := by
    rw [fetchCommentsBulk_nil] at h
    cases h
    cases hn

/-- A read of a broken stream is whole: it raises. -/
private theorem threadsWhole_broken (hne : issueNumbers ≠ [])
    (hbroken : Broken (commentStream x host repo since) commentMaxPages)
    (herror : ∃ e, fetchCommentsBulk x host repo clock issueNumbers (some since) = .error e) :
    ThreadsWhole x host repo clock issueNumbers since := by
  obtain ⟨e, he⟩ := herror
  have hnone : ∀ threads,
      fetchCommentsBulk x host repo clock issueNumbers (some since) ≠ .ok threads := by
    intro threads hok
    rw [he] at hok
    cases hok
  exact
    { raises := iff_of_true ⟨e, he⟩ ⟨hne, hbroken⟩
      asked := fun threads hok ↦ absurd hok (hnone threads)
      others := fun threads hok ↦ absurd hok (hnone threads)
      apart := fun threads hok ↦ absurd hok (hnone threads) }

/-- A read of a whole stream that can be threaded is whole: it gives the threads. -/
private theorem threadsWhole_threadable {raw : List Json}
    (hraw : Whole (commentStream x host repo since) commentMaxPages raw)
    (hbroken : ¬Broken (commentStream x host repo since) commentMaxPages)
    {threads : Dict Int (List IssueComment)}
    (hrun : fetchCommentsBulk x host repo clock issueNumbers (some since) = .ok threads)
    (hasked : ∀ n ∈ issueNumbers, ∃ thread, threads.get? n = some thread ∧
      IsThread x raw n thread)
    (hothers : ∀ n, n ∉ issueNumbers → threads.get? n = none) :
    ThreadsWhole x host repo clock issueNumbers since where
  raises := by
    rw [hrun]
    apply iff_of_false
    · rintro ⟨e, he⟩
      cases he
    · exact fun h ↦ hbroken h.2
  asked out hout n hn := by
    rw [hrun] at hout
    cases hout
    obtain ⟨thread, hget, hthread⟩ := hasked n hn
    exact ⟨raw, thread, hraw, hget, hthread⟩
  others out hout n hn := by
    rw [hrun] at hout
    cases hout
    exact hothers n hn
  apart out hout n m thread thread' c hn hm hc hc' := by
    rw [hrun] at hout
    cases hout
    have hthread : ∀ k t, threads.get? k = some t → c ∈ t → c.issueNumber = k := by
      intro k t hget hmem
      by_cases hk : k ∈ issueNumbers
      · obtain ⟨other, hother, hthread⟩ := hasked k hk
        rw [hget] at hother
        cases hother
        exact issueNumber_of_mem hthread hmem
      · rw [hothers k hk] at hget
        cases hget
    exact (hthread n thread hn hc).symm.trans (hthread m thread' hm hc')

/-- A read of threads is whole exactly where the stream is orderly. -/
theorem threadsWhole_iff :
    ThreadsWhole x host repo clock issueNumbers since ↔ Orderly x host repo issueNumbers since := by
  by_cases hne : issueNumbers = []
  · subst hne
    exact iff_of_true threadsWhole_nil fun h ↦ absurd rfl h
  · rcases fetchCommentsBulk_cases clock hne with
      ⟨herror, hwhole, hbroken⟩ | ⟨raw, hrun, hwhole, hbroken⟩
    · exact iff_of_true (threadsWhole_broken hne hbroken herror)
        fun _ raw hraw ↦ absurd hraw (hwhole raw)
    · have horderly : Orderly x host repo issueNumbers since ↔
          Threadable x (issueNumbers.dedup.insertionSort (· ≤ ·)) raw := by
        simp only [Orderly, Threadable, hwhole, forall_eq, mem_wanted]
        exact ⟨fun h ↦ h hne, fun h _ ↦ h⟩
      rw [horderly]
      constructor
      · intro h
        by_contra hbad
        exact hbroken (h.raises.mp (hrun ▸ threadsOf_error hbad)).2
      · intro h
        obtain ⟨threads, hok, hasked, hothers⟩ := threadsOf_ok (clock none) h
        simp only [mem_wanted] at hasked hothers
        exact threadsWhole_threadable ((hwhole raw).mpr rfl) hbroken (hrun.trans hok) hasked
          hothers

/-- Paging loses nothing: a list of issues is read to its end or the limit, whatever it holds, and
a stream of comments becomes the threads that are asked for exactly where it is orderly. -/
theorem paging_whole_iff (x : Library) (host : Host) (repo : String) :
    (∀ (clock : Nat → Time × Time) (filters : Option IssueFilters),
      IssuesWhole x host repo clock filters) ∧
    ∀ (clock : Clock) (issueNumbers : List Int) (since : DateTime),
      ThreadsWhole x host repo clock issueNumbers since ↔
        Orderly x host repo issueNumbers since :=
  ⟨issuesWhole x host repo, fun _ _ _ ↦ threadsWhole_iff⟩

/-- The standard library, as it reads the two texts of the comments below and renders the start of
their window. -/
def isoLibrary : Library where
  isprintable _ := true
  fromIsoFormat text :=
    if text = "2026-01-01T00:00:00" then some ⟨1767225600000000, none⟩
    else if text = "2026-01-02T00:00:00+00:00" then some ⟨1767312000000000, some 0⟩
    else none
  isoUtc _ := "2026-01-01T00:00:00Z"

/-- A comment of issue 7, created at the time. -/
def commentAt (created : String) : Json :=
  .object [("id", .number "1"), ("created_at", .string created),
    ("issue_url", .string "https://api.github.com/repos/acme/app/issues/7")]

/-- A host whose only page has these comments. -/
def commentHost (comments : List Json) : Host := fun _ _ _ ↦ .json (.array comments)

/-- Of two comments one has no offset: the page is whole, and the read raises. -/
theorem paging_raises_on_mixed : ¬∀ (x : Library) (host : Host) (repo : String),
    (∀ (clock : Nat → Time × Time) (filters : Option IssueFilters),
      IssuesWhole x host repo clock filters) ∧
    ∀ (clock : Clock) (issueNumbers : List Int) (since : DateTime),
      ThreadsWhole x host repo clock issueNumbers since := by
  intro h
  have hwhole := (h isoLibrary
    (commentHost [commentAt "2026-01-01T00:00:00", commentAt "2026-01-02T00:00:00Z"]) "acme/app").2
      (fun _ _ ↦ (0, 0)) [7] ⟨1767225600000000, some 0⟩
  obtain ⟨-, k, -, hfull, hend⟩ := hwhole.raises.mp ⟨.type, rfl⟩
  cases k with
  | zero =>
    rcases hend with hcap | hlist
    · exact absurd hcap (by decide)
    · exact hlist _ rfl
  | succ k =>
    obtain ⟨batch, hbatch, hlength⟩ := hfull 0 (Nat.succ_pos k)
    cases hbatch
    exact absurd hlength (by decide)

/-- An issue and a pull request. -/
def issueAndPull : List Json :=
  [.object [("number", .number "7"), ("user", .object [("login", .string "ada")])],
    .object [("number", .number "8"), ("pull_request", .object [])]]

theorem paging_whole_iff_small :
    (∃ issues, fetchIssues isoLibrary
        (fun _ _ n ↦ .json (.array (page githubPageSize issueAndPull (n - 1)))) "acme/app"
        (fun _ ↦ (0, 0)) none 1 = some (.ok issues) ∧ issues.length = 1) ∧
      ThreadsWhole isoLibrary (commentHost [commentAt "2026-01-02T00:00:00Z"]) "acme/app"
        (fun _ _ ↦ (0, 0)) [7] ⟨1767225600000000, some 0⟩ := by
  constructor
  · obtain ⟨issues, hrun, hread⟩ := (paging_whole_iff isoLibrary
      (fun _ _ n ↦ .json (.array (page githubPageSize issueAndPull (n - 1)))) "acme/app").1
        (fun _ ↦ (0, 0)) none issueAndPull (fun _ ↦ rfl) (by
          intro item hitem
          rcases List.mem_cons.mp hitem with rfl | hitem
          · exact ⟨rfl, by decide +kernel, .inr rfl, .inl rfl, .inl rfl⟩
          · obtain rfl := List.mem_singleton.mp hitem
            exact ⟨rfl, by decide +kernel, .inl rfl, .inl rfl, .inl rfl⟩)
    exact ⟨issues, hrun 1 (by decide), hread.length_eq.symm.trans (by decide +kernel)⟩
  · refine ((paging_whole_iff _ _ _).2 _ _ _).mpr fun _ raw hraw ↦ ?_
    obtain ⟨batches, last, -, hfull, hlast, -, rfl⟩ := hraw
    cases batches with
    | cons batch batches =>
      obtain ⟨hbatch, hlength⟩ := hfull 0 batch rfl
      cases hbatch
      exact absurd hlength (by decide)
    | nil =>
      cases hlast
      constructor
      · intro item hitem url hurl _
        obtain rfl := List.mem_singleton.mp hitem
        cases hurl
        refine ⟨_, rfl, fun _ ↦ ?_⟩
        have hlast : lastPart "https://api.github.com/repos/acme/app/issues/7" = ['7'] := by
          decide +kernel
        rw [hlast]
        exact ⟨by decide, fun c hc ↦ List.mem_singleton.mp hc ▸ by decide +kernel⟩
      · rintro n - ⟨⟨a, ha, s, t, hs, ht, hnone⟩, -⟩
        obtain rfl := List.mem_singleton.mp (List.mem_filter.mp ha).1
        cases hs
        cases ht
        cases hnone

end CFactory.Providers
