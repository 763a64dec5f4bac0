import CFactory.Base.Paging
import CFactory.Providers.GitHub

/-!
# Issues over all pages

`git_providers.py:231–280,405–440`. The loop over the pages of a list of issues: it ends, and what
it returns is the beginning of what the list holds besides pull requests.
-/

namespace CFactory.Providers

open CFactory.Base CFactory.Model CFactory.Relay

/-- An issue or a pull request as the host documents it. -/
structure WellFormed (item : Json) : Prop where
  object : isObject item = true
  number : (int? (field item "number")).isSome = true
  user : field item "user" = .null ∨ isObject (field item "user") = true
  labels : field item "labels" = .null ∨ ∃ labels, field item "labels" = .array labels
  assignees : field item "assignees" = .null ∨ ∃ users, field item "assignees" = .array users

/-- The items that the filters let through. -/
def kept (filters : IssueFilters) (items : List Json) : List Json :=
  items.filter fun item ↦ filters.includePrs || !isPullRequest item

/-- The issue is the item, as it is read at some time. -/
def ReadAs (x : Library) (repo : String) (item : Json) (issue : IssueData) : Prop :=
  ∃ now, parseIssue x repo now item = .ok issue

/-- The answers are the pages of the list, one after another, and then empty ones. -/
def Served (answer : Nat → Answer) (items : List Json) : Prop :=
  ∀ p, answer (p + 1) = .json (.array (page githubPageSize items p))

/-- Over every list of well-formed items that the host serves, the loop ends, and it returns the
first of the items that are let through, up to the limit. -/
def IssuesWhole (x : Library) (host : Host) (repo : String) (clock : Nat → Time × Time)
    (filters : Option IssueFilters) : Prop :=
  ∀ items,
    Served (host ("/repos/" ++ repo ++ "/issues") (issueParams x (filters.getD {}))) items →
    (∀ item ∈ items, WellFormed item) →
    ∃ issues,
      (∀ fuel, items.length / githubPageSize < fuel →
        fetchIssues x host repo clock filters fuel = some (.ok issues)) ∧
      List.Forall₂ (ReadAs x repo)
        ((kept (filters.getD {}) items).take (filters.getD {}).limit.toNat) issues

variable {x : Library} {repo : String} {clock : Nat → Time × Time} {filters : IssueFilters}
  {answer : Nat → Answer} {items : List Json}

/-- A well-formed item is parsed. -/
theorem parseIssue_ok (x : Library) (repo : String) (now : Time × Time) {item : Json}
    (h : WellFormed item) :
    ∃ issue, parseIssue x repo now item = .ok issue := by
  obtain ⟨number, hnumber⟩ := Option.isSome_iff_exists.mp h.number
  obtain ⟨author, hauthor⟩ : ∃ author, loginOf x (field item "user") = .ok author := by
    rcases h.user with huser | huser
    · exact ⟨"", by rw [huser]; rfl⟩
    · by_cases htruthy : truthy (field item "user") = false
      · exact ⟨"", by rw [loginOf, if_pos htruthy]⟩
      · exact ⟨_, by rw [loginOf, if_neg htruthy, if_pos huser]⟩
  have hitems : ∀ value : Json, (value = .null ∨ ∃ entries, value = .array entries) →
      ∃ entries, itemsOr value = .ok entries := by
    rintro value (rfl | ⟨entries, rfl⟩)
    · exact ⟨[], rfl⟩
    · by_cases htruthy : truthy (.array entries) = false
      · exact ⟨[], by rw [itemsOr, if_pos htruthy]⟩
      · exact ⟨entries, by rw [itemsOr, if_neg htruthy]⟩
  obtain ⟨labels, hlabels⟩ := hitems _ h.labels
  obtain ⟨assignees, hassignees⟩ := hitems _ h.assignees
  simp only [parseIssue, h.object, if_true, hnumber, hauthor, hlabels, hassignees]
  exact ⟨_, rfl⟩

/-- A page of well-formed items is parsed behind the issues before it. -/
theorem parseBatch_ok (x : Library) (repo : String) (clock : Nat → Time × Time)
    (filters : IssueFilters) (batch : List Json) (issues : List IssueData)
    (h : ∀ item ∈ batch, WellFormed item) :
    ∃ more, parseBatch x repo clock filters issues batch = .ok (issues ++ more) ∧
      List.Forall₂ (ReadAs x repo) (kept filters batch) more := by
  induction batch generalizing issues with
  | nil => exact ⟨[], by rw [parseBatch, List.append_nil], .nil⟩
  | cons item rest ih =>
    have hrest : ∀ item ∈ rest, WellFormed item := fun i hi ↦ h i (List.mem_cons_of_mem _ hi)
    cases hskip : !filters.includePrs && isPullRequest item with
    | true =>
      obtain ⟨more, hparse, hread⟩ := ih issues hrest
      refine ⟨more, ?_, ?_⟩
      · rw [parseBatch, hskip, if_pos rfl, hparse]
      · have hdrop : (filters.includePrs || !isPullRequest item) = false := by
          rw [Bool.and_eq_true, Bool.not_eq_true'] at hskip
          rw [hskip.1, hskip.2]
          rfl
        have hcons : kept filters (item :: rest) = kept filters rest :=
          List.filter_cons_of_neg (by rw [hdrop]; exact Bool.false_ne_true)
        rw [hcons]
        exact hread
    | false =>
      obtain ⟨issue, hissue⟩ :=
        parseIssue_ok x repo (clock issues.length) (h item List.mem_cons_self)
      obtain ⟨more, hparse, hread⟩ := ih (issues ++ [issue]) hrest
      refine ⟨issue :: more, ?_, ?_⟩
      · rw [parseBatch, hskip, if_neg Bool.false_ne_true, hissue]
        show parseBatch x repo clock filters (issues ++ [issue]) rest = _
        rw [hparse, List.append_assoc, List.singleton_append]
      · have hkeep : (filters.includePrs || !isPullRequest item) = true := by
          cases hpr : filters.includePrs with
          | true => rfl
          | false =>
            rw [hpr] at hskip
            simpa using hskip
        have hcons : kept filters (item :: rest) = item :: kept filters rest :=
          List.filter_cons_of_pos hkeep
        rw [hcons]
        exact .cons ⟨_, hissue⟩ hread

/-! ## The loop over the pages -/

section

variable {fuel n : Nat} {issues more : List IssueData} {batch : List Json}

/-- The loop ends where the limit is reached. -/
private theorem issuePages_limit (h : ¬(issues.length : Int) < filters.limit) :
    issuePages x repo clock filters answer (fuel + 1) n issues = some (.ok issues) := by
  rw [issuePages, if_neg h]

/-- It ends at an empty page. -/
private theorem issuePages_nil (hanswer : answer n = .json (.array [])) :
    issuePages x repo clock filters answer (fuel + 1) n issues = some (.ok issues) := by
  rw [issuePages, hanswer]
  split <;> rfl

/-- It goes on behind a full page only. -/
private theorem issuePages_cons (h : (issues.length : Int) < filters.limit)
    (hanswer : answer n = .json (.array batch)) (hne : batch ≠ [])
    (hparse : parseBatch x repo clock filters issues batch = .ok more) :
    issuePages x repo clock filters answer (fuel + 1) n issues =
      if batch.length < githubPageSize then some (.ok more)
      else issuePages x repo clock filters answer fuel (n + 1) more := by
  cases batch with
  | nil => exact absurd rfl hne
  | cons item rest =>
    rw [issuePages, if_pos h, hanswer]
    simp only [hparse]

end

private theorem kept_append (items more : List Json) :
    kept filters (items ++ more) = kept filters items ++ kept filters more :=
  List.filter_append _ _

/-- The issues are the items of the first `p` pages that the filters let through. -/
private def ReadTo (x : Library) (repo : String) (filters : IssueFilters) (items : List Json)
    (p : Nat) (issues : List IssueData) : Prop :=
  List.Forall₂ (ReadAs x repo) (kept filters (items.take (githubPageSize * p))) issues

/-- The loop returns these issues, and up to the limit they are the items. -/
private def EndsWith (x : Library) (repo : String) (filters : IssueFilters) (items : List Json)
    (result : List IssueData) : Prop :=
  List.Forall₂ (ReadAs x repo) ((kept filters items).take filters.limit.toNat)
    (result.take filters.limit.toNat)

/-- Behind the last page, the issues are the items. -/
private theorem endsWith_of_last {p : Nat} {issues : List IssueData}
    (hread : ReadTo x repo filters items p issues)
    (hlast : items.take (githubPageSize * p) = items) :
    EndsWith x repo filters items issues := by
  rw [ReadTo, hlast] at hread
  exact List.forall₂_take _ hread

/-- Past the limit, the rest of the items makes no difference. -/
private theorem endsWith_of_limit {p : Nat} {issues : List IssueData}
    (hread : ReadTo x repo filters items p issues)
    (hlimit : ¬(issues.length : Int) < filters.limit) : EndsWith x repo filters items issues := by
  have hlength : filters.limit.toNat ≤ (kept filters (items.take (githubPageSize * p))).length := by
    rw [hread.length_eq]
    omega
  have hkept : kept filters items = kept filters (items.take (githubPageSize * p)) ++
      kept filters (items.drop (githubPageSize * p)) := by
    rw [← kept_append, List.take_append_drop]
  rw [EndsWith, hkept, List.take_append_of_le_length hlength]
  exact List.forall₂_take _ hread

/-- A round of the loop is its last one, or it reads a full page and goes on. -/
private theorem issuePages_step (clock : Nat → Time × Time) (hserved : Served answer items)
    (hformed : ∀ item ∈ items, WellFormed item) (p : Nat) (issues : List IssueData)
    (hread : ReadTo x repo filters items p issues) :
    (∃ result, EndsWith x repo filters items result ∧
      ∀ fuel, issuePages x repo clock filters answer (fuel + 1) (p + 1) issues =
        some (.ok result)) ∨
    ∃ more, ReadTo x repo filters items (p + 1) more ∧
      p + 1 ≤ items.length / githubPageSize ∧
      ∀ fuel, issuePages x repo clock filters answer (fuel + 1) (p + 1) issues =
        issuePages x repo clock filters answer fuel (p + 2) more := by
  have hsize : 0 < githubPageSize := by decide
  have hanswer := hserved p
  by_cases hlimit : (issues.length : Int) < filters.limit
  · by_cases hnil : page githubPageSize items p = []
    · rw [hnil] at hanswer
      exact .inl ⟨issues, endsWith_of_last hread (take_of_page_nil hsize hnil),
        fun fuel ↦ issuePages_nil hanswer⟩
    · have hbatch : ∀ item ∈ page githubPageSize items p, WellFormed item :=
        fun item hitem ↦ hformed item (List.mem_of_mem_drop (List.mem_of_mem_take hitem))
      obtain ⟨more, hparse, hmore⟩ :=
        parseBatch_ok x repo clock filters _ issues hbatch
      have hnext : ReadTo x repo filters items (p + 1) (issues ++ more) := by
        rw [ReadTo, ← take_append_page, kept_append]
        exact List.rel_append hread hmore
      by_cases hshort : (page githubPageSize items p).length < githubPageSize
      · refine .inl ⟨issues ++ more, endsWith_of_last hnext (take_of_page_short hshort), ?_⟩
        intro fuel
        rw [issuePages_cons hlimit hanswer hnil hparse, if_pos hshort]
      · refine .inr ⟨issues ++ more, hnext, page_full_le hsize hshort, ?_⟩
        intro fuel
        rw [issuePages_cons hlimit hanswer hnil hparse, if_neg hshort]
  · exact .inl ⟨issues, endsWith_of_limit hread hlimit, fun fuel ↦ issuePages_limit hlimit⟩

/-- From each page on, the loop ends after the pages that are left. -/
private theorem issuePages_ok (clock : Nat → Time × Time) (hserved : Served answer items)
    (hformed : ∀ item ∈ items, WellFormed item) (left p : Nat) (issues : List IssueData)
    (hread : ReadTo x repo filters items p issues)
    (hleft : items.length / githubPageSize = p + left) :
    ∃ result, EndsWith x repo filters items result ∧
      ∀ fuel, left < fuel →
        issuePages x repo clock filters answer fuel (p + 1) issues = some (.ok result) := by
  induction left generalizing p issues with
  | zero =>
    rcases issuePages_step clock hserved hformed p issues hread with
      ⟨result, hends, hrun⟩ | ⟨more, -, hp, -⟩
    · refine ⟨result, hends, fun fuel hfuel ↦ ?_⟩
      cases fuel with
      | zero => omega
      | succ k => exact hrun k
    · omega
  | succ left ih =>
    rcases issuePages_step clock hserved hformed p issues hread with
      ⟨result, hends, hrun⟩ | ⟨more, hmore, -, hrun⟩
    · refine ⟨result, hends, fun fuel hfuel ↦ ?_⟩
      cases fuel with
      | zero => omega
      | succ k => exact hrun k
    · obtain ⟨result, hends, hrest⟩ := ih (p + 1) more hmore (by omega)
      refine ⟨result, hends, fun fuel hfuel ↦ ?_⟩
      cases fuel with
      | zero => omega
      | succ k =>
        rw [hrun k]
        exact hrest k (by omega)

/-- Nothing is lost over the pages of a list of issues. -/
theorem issuesWhole (x : Library) (host : Host) (repo : String) (clock : Nat → Time × Time)
    (filters : Option IssueFilters) : IssuesWhole x host repo clock filters := by
  intro items hserved hformed
  have hstart : ReadTo x repo (filters.getD {}) items 0 [] := .nil
  obtain ⟨result, hends, hrun⟩ :=
    issuePages_ok clock hserved hformed _ 0 [] hstart (Nat.zero_add _).symm
  refine ⟨result.take (filters.getD {}).limit.toNat, fun fuel hfuel ↦ ?_, hends⟩
  simp only [fetchIssues]
  rw [hrun fuel hfuel]
  rfl

end CFactory.Providers
