import CFactory.Providers.GitHub

/-!
# Comments over all pages

`git_providers.py:298–390,443–470`, `protocol.py:120–148`. A read of the repository's comments
walks its pages, gives each comment to the issue that its URL names, and sorts every thread. It
raises rather than return a part, and on some comments it raises though the pages are whole.
-/

namespace CFactory.Providers

open CFactory.Base CFactory.Model CFactory.Cards CFactory.Intake CFactory.Relay
open CFactory.Progress (DateTime)

/-- The page is a full list. -/
def FullPage (pages : Nat → Answer) (k : Nat) (batch : List Json) : Prop :=
  pages k = .json (.array batch) ∧ githubPageSize ≤ batch.length

/-- The first `cap` pages hold the whole stream: a short list ends it, and full lists come before.
What else than objects stands in a list is no comment. -/
def Whole (pages : Nat → Answer) (cap : Nat) (raw : List Json) : Prop :=
  ∃ (batches : List (List Json)) (last : List Json), batches.length < cap ∧
    (∀ k batch, batches[k]? = some batch → FullPage pages k batch) ∧
    pages batches.length = .json (.array last) ∧ last.length < githubPageSize ∧
    raw = (batches.flatten ++ last).filter isObject

/-- Behind full pages the cap is reached, or a page fails or is no list. -/
def Broken (pages : Nat → Answer) (cap : Nat) : Prop :=
  ∃ k ≤ cap, (∀ i < k, ∃ batch, FullPage pages i batch) ∧
    (k = cap ∨ ∀ batch, pages k ≠ .json (.array batch))

/-- The pages of the repository's comments since a time. -/
def commentStream (x : Library) (host : Host) (repo : String) (since : DateTime) (k : Nat) :
    Answer :=
  host ("/repos/" ++ repo ++ "/issues/comments")
    (commentParams x (some since) [("sort", "updated"), ("direction", "asc")]) (k + 1)

/-- The issue that the URL of a comment names: the number that its last part spells. -/
def urlNumber (item : Json) : Option Int :=
  match item.get? "issue_url" with
  | some (.string url) =>
    if lastPart url ≠ [] ∧ (lastPart url).all isDigitChar = true then
      (intOf (lastPart url)).map Int.ofNat
    else none
  | _ => none

/-- The URL of a comment names the issue. -/
def names (n : Int) (item : Json) : Bool := urlNumber item = some n

/-- The thread of an issue: the comments of the stream that name it, each once, oldest first. -/
structure IsThread (x : Library) (raw : List Json) (n : Int) (thread : List IssueComment) :
    Prop where
  comments : ∃ read, List.Forall₂ (fun item c ↦ ∃ now, c = parseComment x now n item)
    (raw.filter (names n)) read ∧ thread.Perm read
  oldest : thread.Pairwise fun a b ↦ instant a.createdAt ≤ instant b.createdAt

/-- A read since a time raises just if it asks for an issue and the stream is broken; else it
gives every issue that is asked for its thread, no other issue any, and no comment to two. -/
structure ThreadsWhole (x : Library) (host : Host) (repo : String) (clock : Clock)
    (issueNumbers : List Int) (since : DateTime) : Prop where
  raises : (∃ e, fetchCommentsBulk x host repo clock issueNumbers (some since) = .error e) ↔
    issueNumbers ≠ [] ∧ Broken (commentStream x host repo since) commentMaxPages
  asked : ∀ threads,
    fetchCommentsBulk x host repo clock issueNumbers (some since) = .ok threads →
    ∀ n ∈ issueNumbers, ∃ raw thread,
      Whole (commentStream x host repo since) commentMaxPages raw ∧
      threads.get? n = some thread ∧ IsThread x raw n thread
  others : ∀ threads,
    fetchCommentsBulk x host repo clock issueNumbers (some since) = .ok threads →
    ∀ n, n ∉ issueNumbers → threads.get? n = none
  apart : ∀ threads,
    fetchCommentsBulk x host repo clock issueNumbers (some since) = .ok threads →
    ∀ n m thread thread' c, threads.get? n = some thread → threads.get? m = some thread' →
      c ∈ thread → c ∈ thread' → n = m

/-! ## What a read is to be spared -/

/-- The URL of a comment is a text or nothing, and a last part of digits is a number that `int`
reads. -/
def UrlReadable (item : Json) : Prop :=
  ∀ url, item.get? "issue_url" = some url → truthy url = true →
    ∃ s, url = .string s ∧ (lastPart s ≠ [] ∧ (lastPart s).all isDigitChar = true →
      (lastPart s).length ≤ maxStrDigits ∧ ∀ c ∈ lastPart s, decimalValue c ≠ none)

/-- The comment carries a creation time without an offset. -/
def Naive (x : Library) (item : Json) : Prop :=
  ∃ s t, field item "created_at" = .string s ∧ x.fromIsoFormat (replaceZ s) = some t ∧
    t.utcoffset = none

/-- Some of the comments carry a creation time without an offset, and some do not. -/
def Mixed (x : Library) (items : List Json) : Prop :=
  (∃ a ∈ items, Naive x a) ∧ ∃ b ∈ items, ¬Naive x b

/-- Where issues are asked for and the stream is whole, every URL in it is readable, and no thread
that is asked for mixes times with and without an offset. -/
def Orderly (x : Library) (host : Host) (repo : String) (issueNumbers : List Int)
    (since : DateTime) : Prop :=
  issueNumbers ≠ [] → ∀ raw, Whole (commentStream x host repo since) commentMaxPages raw →
    (∀ item ∈ raw, UrlReadable item) ∧ ∀ n ∈ issueNumbers, ¬Mixed x (raw.filter (names n))

/-! ## The pages -/

variable {pages : Nat → Answer} {cap : Nat} {raw : List Json}

/-- Without a page that may be read, no stream is whole. -/
theorem not_whole_zero : ¬Whole pages 0 raw := by
  rintro ⟨batches, last, hlength, -⟩
  exact Nat.not_lt_zero _ hlength

/-- A whole stream ends at its first page, or that page is full and the stream behind it is
whole. -/
theorem whole_succ_iff :
    Whole pages (cap + 1) raw ↔
      (∃ last, pages 0 = .json (.array last) ∧ last.length < githubPageSize ∧
        raw = last.filter isObject) ∨
      ∃ batch rest, FullPage pages 0 batch ∧ Whole (fun k ↦ pages (k + 1)) cap rest ∧
        raw = batch.filter isObject ++ rest := by
  constructor
  · rintro ⟨batches, last, hlength, hfull, hlast, hshort, hraw⟩
    cases batches with
    | nil => exact .inl ⟨last, hlast, hshort, hraw⟩
    | cons batch batches =>
      refine .inr ⟨batch, (batches.flatten ++ last).filter isObject, hfull 0 batch rfl,
        ⟨batches, last, Nat.lt_of_succ_lt_succ hlength, fun k b hb ↦ hfull (k + 1) b hb, hlast,
          hshort, rfl⟩, ?_⟩
      rw [hraw, List.flatten_cons, List.append_assoc, List.filter_append]
  · rintro (⟨last, hlast, hshort, hraw⟩ | ⟨batch, rest, hbatch, hrest, hraw⟩)
    · exact ⟨[], last, Nat.succ_pos cap, by simp, hlast, hshort, hraw⟩
    · obtain ⟨batches, last, hlength, hfull, hlast, hshort, rfl⟩ := hrest
      refine ⟨batch :: batches, last, Nat.succ_lt_succ hlength, ?_, hlast, hshort, ?_⟩
      · intro k b hb
        cases k with
        | zero =>
          cases hb
          exact hbatch
        | succ k => exact hfull k b hb
      · rw [hraw, List.flatten_cons, List.append_assoc, List.filter_append batch]

/-- Without a page that may be read, the cap is reached. -/
theorem broken_zero : Broken pages 0 := ⟨0, Nat.le_refl 0, by simp, .inl rfl⟩

/-- A broken stream is broken at its first page, or that page is full and the stream behind it is
broken. -/
theorem broken_succ_iff :
    Broken pages (cap + 1) ↔
      (∀ batch, pages 0 ≠ .json (.array batch)) ∨
      ∃ batch, FullPage pages 0 batch ∧ Broken (fun k ↦ pages (k + 1)) cap := by
  constructor
  · rintro ⟨k, hk, hfull, hend⟩
    cases k with
    | zero =>
      rcases hend with hcap | hbad
      · cases hcap
      · exact .inl hbad
    | succ k =>
      obtain ⟨batch, hbatch⟩ := hfull 0 (Nat.succ_pos k)
      exact .inr ⟨batch, hbatch, k, Nat.le_of_succ_le_succ hk,
        fun i hi ↦ hfull (i + 1) (Nat.succ_lt_succ hi), hend.imp Nat.succ.inj id⟩
  · rintro (hbad | ⟨batch, hbatch, k, hk, hfull, hend⟩)
    · exact ⟨0, Nat.zero_le _, by simp, .inr hbad⟩
    · refine ⟨k + 1, Nat.succ_le_succ hk, ?_, hend.imp (congrArg Nat.succ) id⟩
      intro i hi
      cases i with
      | zero => exact ⟨batch, hbatch⟩
      | succ i => exact hfull i (Nat.lt_of_succ_lt_succ hi)

/-- The list on a page is one. -/
private theorem batch_unique {batch batch' : List Json} {k : Nat}
    (h : pages k = .json (.array batch)) (h' : pages k = .json (.array batch')) :
    batch = batch' := by
  rw [h] at h'
  cases h'
  rfl

/-- A short first page is the whole stream. -/
theorem whole_of_short {batch : List Json} (hpage : pages 0 = .json (.array batch))
    (hshort : batch.length < githubPageSize) :
    Whole pages (cap + 1) raw ↔ raw = batch.filter isObject := by
  rw [whole_succ_iff]
  constructor
  · rintro (⟨last, hlast, -, hraw⟩ | ⟨full, rest, ⟨hbatch, hfull⟩, -⟩)
    · rw [hraw, batch_unique hlast hpage]
    · rw [batch_unique hbatch hpage] at hfull
      exact absurd hshort (Nat.not_lt_of_le hfull)
  · exact fun hraw ↦ .inl ⟨batch, hpage, hshort, hraw⟩

/-- A stream with a short first page is not broken. -/
theorem not_broken_of_short {batch : List Json} (hpage : pages 0 = .json (.array batch))
    (hshort : batch.length < githubPageSize) : ¬Broken pages (cap + 1) := by
  rw [broken_succ_iff]
  rintro (hbad | ⟨full, ⟨hbatch, hfull⟩, -⟩)
  · exact hbad batch hpage
  · rw [batch_unique hbatch hpage] at hfull
    exact absurd hshort (Nat.not_lt_of_le hfull)

/-- Behind a full first page the rest of the stream is whole. -/
theorem whole_of_full {batch : List Json} (hfirst : FullPage pages 0 batch) :
    Whole pages (cap + 1) raw ↔
      ∃ rest, Whole (fun k ↦ pages (k + 1)) cap rest ∧ raw = batch.filter isObject ++ rest := by
  rw [whole_succ_iff]
  constructor
  · rintro (⟨last, hlast, hshort, -⟩ | ⟨full, rest, ⟨hbatch, -⟩, hrest, hraw⟩)
    · rw [batch_unique hlast hfirst.1] at hshort
      exact absurd hshort (Nat.not_lt_of_le hfirst.2)
    · rw [batch_unique hbatch hfirst.1] at hraw
      exact ⟨rest, hrest, hraw⟩
  · rintro ⟨rest, hrest, hraw⟩
    exact .inr ⟨batch, rest, hfirst, hrest, hraw⟩

/-- A stream with a full first page is broken just if it is behind that. -/
theorem broken_of_full {batch : List Json} (hfirst : FullPage pages 0 batch) :
    Broken pages (cap + 1) ↔ Broken (fun k ↦ pages (k + 1)) cap := by
  rw [broken_succ_iff]
  constructor
  · rintro (hbad | ⟨-, -, hrest⟩)
    · exact absurd hfirst.1 (hbad batch)
    · exact hrest
  · exact fun hrest ↦ .inr ⟨batch, hfirst, hrest⟩

/-- Without a list for its first page, no stream is whole. -/
theorem not_whole_of_no_list (hbad : ∀ batch, pages 0 ≠ .json (.array batch)) :
    ¬Whole pages (cap + 1) raw := by
  rw [whole_succ_iff]
  rintro (⟨last, hlast, -⟩ | ⟨full, rest, ⟨hbatch, -⟩, -⟩)
  · exact hbad last hlast
  · exact hbad full hbatch

/-- The reader of the pages returns the one stream that is whole, behind what it has collected, or
the stream is broken and it raises. -/
theorem commentPages_cases (path : String) (answer : Nat → Answer) (left page : Nat)
    (collected : List Json) :
    (∃ raw, commentPages path answer left page collected = .ok (collected ++ raw) ∧
      (∀ raw', Whole (fun k ↦ answer (k + page)) left raw' ↔ raw' = raw) ∧
      ¬Broken (fun k ↦ answer (k + page)) left) ∨
    ((∃ e, commentPages path answer left page collected = .error e) ∧
      (∀ raw', ¬Whole (fun k ↦ answer (k + page)) left raw') ∧
      Broken (fun k ↦ answer (k + page)) left) := by
  induction left generalizing page collected with
  | zero => exact .inr ⟨⟨_, rfl⟩, fun _ ↦ not_whole_zero, broken_zero⟩
  | succ left ih =>
    have hshift : (fun k ↦ answer (k + 1 + page)) = fun k ↦ answer (k + (page + 1)) := by
      funext k
      rw [Nat.add_assoc, Nat.add_comm 1 page]
    have hfirst : answer (0 + page) = answer page := by rw [Nat.zero_add]
    by_cases hlist : ∃ batch, answer page = .json (.array batch)
    · obtain ⟨batch, hbatch⟩ := hlist
      have hpage := hfirst.trans hbatch
      by_cases hshort : batch.length < githubPageSize
      · refine .inl ⟨batch.filter isObject, ?_, fun _ ↦ whole_of_short hpage hshort,
          not_broken_of_short hpage hshort⟩
        rw [commentPages, hbatch]
        exact if_pos hshort
      · have hfull : FullPage (fun k ↦ answer (k + page)) 0 batch :=
          ⟨hpage, Nat.le_of_not_lt hshort⟩
        have hrun : commentPages path answer (left + 1) page collected =
            commentPages path answer left (page + 1) (collected ++ batch.filter isObject) := by
          rw [commentPages, hbatch]
          exact if_neg hshort
        simp only [whole_of_full hfull, broken_of_full hfull, hshift, hrun]
        rcases ih (page + 1) (collected ++ batch.filter isObject) with
          ⟨raw, hok, hwhole, hbroken⟩ | ⟨herror, hwhole, hbroken⟩
        · refine .inl ⟨batch.filter isObject ++ raw, ?_, ?_, hbroken⟩
          · rw [hok, List.append_assoc]
          · intro raw'
            simp only [hwhole, exists_eq_left]
        · refine .inr ⟨herror, ?_, hbroken⟩
          rintro raw' ⟨rest, hrest, -⟩
          exact hwhole rest hrest
    · have hbad : ∀ batch, answer (0 + page) ≠ .json (.array batch) :=
        fun batch hbatch ↦ hlist ⟨batch, hfirst.symm.trans hbatch⟩
      refine .inr ⟨?_, fun _ ↦ not_whole_of_no_list hbad, broken_succ_iff.mpr (.inl hbad)⟩
      rw [commentPages]
      split
      · exact ⟨_, rfl⟩
      · next batch hbatch => exact absurd ⟨batch, hbatch⟩ hlist
      · exact ⟨_, rfl⟩

/-! ## The threads -/

section

variable {x : Library} {item : Json}

/-- The number of a text of digits is read just if none of them is other than decimal and there
are not too many. -/
private theorem pyInt_cases (digits : List Char) :
    ((digits.length ≤ maxStrDigits ∧ ∀ c ∈ digits, decimalValue c ≠ none) ∧
      ∃ n, pyInt digits = .ok n ∧ intOf digits = some n) ∨
    (¬(digits.length ≤ maxStrDigits ∧ ∀ c ∈ digits, decimalValue c ≠ none) ∧
      ∃ e, pyInt digits = .error e) := by
  have hraises := pyInt_raises_iff digits
  by_cases hread : digits.length ≤ maxStrDigits ∧ ∀ c ∈ digits, decimalValue c ≠ none
  · refine .inl ⟨hread, ?_⟩
    cases hint : intOf digits with
    | none =>
      obtain ⟨c, hc, hvalue⟩ := (intOf_eq_none_iff digits).mp hint
      exact absurd hvalue (hread.2 c hc)
    | some n =>
      refine ⟨n, ?_, rfl⟩
      rw [pyInt, if_neg (Nat.not_lt_of_le hread.1), hint]
  · refine .inr ⟨hread, hraises.mpr ?_⟩
    by_contra hnone
    rw [not_or, Nat.not_lt] at hnone
    exact hread ⟨hnone.1, fun c hc hvalue ↦ hnone.2 ⟨c, hc, hvalue⟩⟩

/-- The issue of a URL that ends in digits is what `int` reads of them. -/
private theorem issueNumberFromUrl_digits {s : String} (htruthy : truthy (.string s) = true)
    (hdigits : lastPart s ≠ [] ∧ (lastPart s).all isDigitChar = true) :
    issueNumberFromUrl (.string s) =
      ((pyInt (lastPart s)).map fun (n : Nat) ↦ some (n : Int)).mapError fun _ ↦ .notAnInt := by
  rw [issueNumberFromUrl, orElse, if_pos htruthy]
  dsimp only
  rw [if_pos hdigits]
  cases pyInt (lastPart s) with
  | error e => rfl
  | ok n => rfl

/-- A URL that is a text is readable just if `int` reads the digits at its end. -/
private theorem urlReadable_text_iff {s : String}
    (hurl : item.get? "issue_url" = some (.string s)) (htruthy : truthy (.string s) = true) :
    UrlReadable item ↔ (lastPart s ≠ [] ∧ (lastPart s).all isDigitChar = true →
      (lastPart s).length ≤ maxStrDigits ∧ ∀ c ∈ lastPart s, decimalValue c ≠ none) := by
  constructor
  · intro h
    obtain ⟨t, ht, hdigits⟩ := h _ hurl htruthy
    cases ht
    exact hdigits
  · intro h other hother _
    rw [hurl] at hother
    cases hother
    exact ⟨s, rfl, h⟩

/-- The issue of a comment is read from a text just if that is readable. -/
private theorem issueNumberFromUrl_text {s : String}
    (hurl : item.get? "issue_url" = some (.string s)) (htruthy : truthy (.string s) = true) :
    (UrlReadable item ∧ issueNumberFromUrl (.string s) = .ok (urlNumber item)) ∨
      (¬UrlReadable item ∧ ∃ e, issueNumberFromUrl (.string s) = .error e) := by
  rw [urlReadable_text_iff hurl htruthy]
  by_cases hdigits : lastPart s ≠ [] ∧ (lastPart s).all isDigitChar = true
  · have hnumber : urlNumber item = (intOf (lastPart s)).map Int.ofNat := by
      rw [urlNumber, hurl]
      exact if_pos hdigits
    rw [issueNumberFromUrl_digits htruthy hdigits]
    rcases pyInt_cases (lastPart s) with ⟨hok, n, hint, hof⟩ | ⟨hbad, e, hint⟩
    · refine .inl ⟨fun _ ↦ hok, ?_⟩
      rw [hnumber, hof, hint]
      rfl
    · refine .inr ⟨fun h ↦ hbad (h hdigits), .notAnInt, ?_⟩
      rw [hint]
      rfl
  · have hnumber : urlNumber item = none := by
      rw [urlNumber, hurl]
      exact if_neg hdigits
    refine .inl ⟨fun h ↦ absurd h hdigits, ?_⟩
    rw [hnumber, issueNumberFromUrl, orElse, if_pos htruthy]
    exact if_neg hdigits

/-- A URL that is falsy names no issue. -/
private theorem issueNumberFromUrl_falsy {url : Json}
    (hurl : item.get? "issue_url" = some url) (hfalsy : ¬truthy url = true) :
    issueNumberFromUrl url = .ok (urlNumber item) := by
  have hnumber : urlNumber item = none := by
    rw [urlNumber, hurl]
    cases url with
    | string s =>
      obtain rfl : s = "" := by simpa [truthy] using hfalsy
      rfl
    | _ => rfl
  rw [hnumber, issueNumberFromUrl, orElse, if_neg hfalsy]
  rfl

/-- The issue of a comment is read from its URL just if that is readable. -/
theorem issueNumberFromUrl_cases (item : Json) :
    (UrlReadable item ∧
      issueNumberFromUrl ((item.get? "issue_url").getD (.string "")) = .ok (urlNumber item)) ∨
    (¬UrlReadable item ∧
      ∃ e, issueNumberFromUrl ((item.get? "issue_url").getD (.string "")) = .error e) := by
  cases hurl : item.get? "issue_url" with
  | none =>
    refine .inl ⟨?_, ?_⟩
    · intro url hsome
      rw [hurl] at hsome
      cases hsome
    · rw [urlNumber, hurl]
      rfl
  | some url =>
    rw [Option.getD_some]
    by_cases htruthy : truthy url = true
    · by_cases hstring : ∃ s, url = .string s
      · obtain ⟨s, rfl⟩ := hstring
        exact issueNumberFromUrl_text hurl htruthy
      · refine .inr ⟨?_, .attribute, ?_⟩
        · intro h
          obtain ⟨s, hs, -⟩ := h url hurl htruthy
          exact hstring ⟨s, hs⟩
        · rw [issueNumberFromUrl, orElse, if_pos htruthy]
          split
          · next s => exact absurd ⟨s, rfl⟩ hstring
          · rfl
    · refine .inl ⟨?_, issueNumberFromUrl_falsy hurl htruthy⟩
      intro other hother htrue
      rw [hurl] at hother
      cases hother
      exact absurd htrue htruthy

/-- A comment is read without an offset just if it carries a creation time without one. -/
theorem naive_iff (x : Library) (now : Time × Time) (n : Int) (item : Json) :
    (parseComment x now n item).createdAt.utcoffset = none ↔ Naive x item := by
  rw [parseComment, Naive]
  cases field item "created_at" with
  | string s =>
    cases hread : x.fromIsoFormat (replaceZ s) with
    | none => simp [parseDatetime, hread]
    | some t => simp [parseDatetime, hread]
  | _ => simp [parseDatetime]

/-- The comments are the items, read as comments of the issue. -/
def ReadsAs (x : Library) (n : Int) (items : List Json) (read : List IssueComment) : Prop :=
  List.Forall₂ (fun item c ↦ ∃ now, c = parseComment x now n item) items read

variable {n : Int} {items : List Json} {read : List IssueComment}

/-- What is true of each comment just if something else is of its item, is true of all comments
just if that is of all items. -/
theorem ReadsAs.all_iff (h : ReadsAs x n items read) (p : IssueComment → Prop) (q : Json → Prop)
    (hpq : ∀ now item, p (parseComment x now n item) ↔ q item) :
    (∀ c ∈ read, p c) ↔ ∀ item ∈ items, q item := by
  induction h with
  | nil => simp
  | cons hread _ ih =>
    obtain ⟨now, rfl⟩ := hread
    rw [List.forall_mem_cons, List.forall_mem_cons, ih, hpq]

/-- The times of a thread compare just if they are not mixed. -/
theorem ReadsAs.comparable_iff (h : ReadsAs x n items read) :
    comparable read = true ↔ ¬Mixed x items := by
  have hnaive := h.all_iff (fun c ↦ c.createdAt.utcoffset = none) (Naive x)
    fun now item ↦ naive_iff x now n item
  have haware := h.all_iff (fun c ↦ ¬c.createdAt.utcoffset = none) (fun item ↦ ¬Naive x item)
    fun now item ↦ not_congr (naive_iff x now n item)
  rw [comparable, Bool.or_eq_true, List.all_eq_true, List.all_eq_true]
  simp only [Option.isSome_iff_ne_none, Option.isNone_iff_eq_none, ne_eq, hnaive, haware]
  constructor
  · rintro (hall | hall) ⟨⟨a, ha, hnaive⟩, b, hb, haware⟩
    · exact hall a ha hnaive
    · exact haware (hall b hb)
  · intro hmixed
    by_cases hsome : ∃ a ∈ items, Naive x a
    · refine .inr fun item hitem ↦ ?_
      by_contra haware
      exact hmixed ⟨hsome, item, hitem, haware⟩
    · exact .inl fun item hitem hnaive ↦ hsome ⟨item, hitem, hnaive⟩

/-- A thread is sorted, or its times are mixed and sorting raises. -/
theorem ReadsAs.oldestFirst_cases (h : ReadsAs x n items read) :
    (¬Mixed x items ∧ ∃ thread, oldestFirst read = .ok thread ∧ thread.Perm read ∧
      thread.Pairwise fun a b ↦ instant a.createdAt ≤ instant b.createdAt) ∨
    (Mixed x items ∧ oldestFirst read = .error .type) := by
  by_cases hcomparable : comparable read = true
  · refine .inl ⟨h.comparable_iff.mp hcomparable, _, if_pos hcomparable,
      List.perm_insertionSort _ _, ?_⟩
    exact List.pairwise_insertionSort
      (fun a b : IssueComment ↦ instant a.createdAt ≤ instant b.createdAt) read
  · refine .inr ⟨?_, if_neg hcomparable⟩
    by_contra hmixed
    exact hcomparable (h.comparable_iff.mpr hmixed)

/-- The comments of a stream that name the issue, from the clock's `i`-th readings on. -/
def commentsOf (x : Library) (clock : Nat → Time × Time) (n : Int) :
    Nat → List Json → List IssueComment
  | _, [] => []
  | i, item :: rest =>
    if names n item then parseComment x (clock i) n item :: commentsOf x clock n (i + 1) rest
    else commentsOf x clock n (i + 1) rest

theorem readsAs_commentsOf (x : Library) (clock : Nat → Time × Time) (n : Int) (i : Nat)
    (raw : List Json) : ReadsAs x n (raw.filter (names n)) (commentsOf x clock n i raw) := by
  induction raw generalizing i with
  | nil => exact .nil
  | cons item rest ih =>
    by_cases hnames : names n item = true
    · rw [commentsOf, if_pos hnames, List.filter_cons_of_pos hnames]
      exact .cons ⟨_, rfl⟩ (ih (i + 1))
    · rw [commentsOf, if_neg hnames, List.filter_cons_of_neg hnames]
      exact ih (i + 1)

section

variable {clock : Nat → Time × Time} {i : Nat} {rest : List Json}
  {grouped : Dict Int (List IssueComment)}

/-- The issue that a comment names is asked for, or it is none that is. -/
private theorem asked_cases (item : Json) (grouped : Dict Int (List IssueComment)) :
    (∃ m comments, urlNumber item = some m ∧ grouped.get? m = some comments) ∨
      ∀ m, urlNumber item = some m → grouped.get? m = none := by
  cases hm : urlNumber item with
  | none => exact .inr (by simp)
  | some m =>
    cases hgroup : grouped.get? m with
    | none =>
      refine .inr fun n hn ↦ ?_
      cases hn
      exact hgroup
    | some comments => exact .inl ⟨m, comments, rfl, hgroup⟩

/-- A comment of another issue is left out. -/
private theorem groupComments_skip
    (hnumber : issueNumberFromUrl ((item.get? "issue_url").getD (.string "")) =
      .ok (urlNumber item))
    (hother : ∀ m, urlNumber item = some m → grouped.get? m = none) :
    groupComments x clock i (item :: rest) grouped =
      groupComments x clock (i + 1) rest grouped := by
  have hnone : ((urlNumber item).bind fun n ↦ (grouped.get? n).map (Prod.mk n)) = none := by
    cases hm : urlNumber item with
    | none => rfl
    | some m => rw [Option.bind_some, hother m hm, Option.map_none]
  rw [groupComments, hnumber]
  simp only [bind, Except.bind, hnone]

/-- A comment of an issue that is asked for joins its group. -/
private theorem groupComments_join {m : Int} {comments : List IssueComment}
    (hnumber : issueNumberFromUrl ((item.get? "issue_url").getD (.string "")) =
      .ok (urlNumber item))
    (hm : urlNumber item = some m) (hcomments : grouped.get? m = some comments) :
    groupComments x clock i (item :: rest) grouped =
      groupComments x clock (i + 1) rest
        (grouped.set m (comments ++ [parseComment x (clock i) m item])) := by
  have hsome : ((urlNumber item).bind fun n ↦ (grouped.get? n).map (Prod.mk n)) =
      some (m, comments) := by
    rw [hm, Option.bind_some, hcomments, Option.map_some]
  rw [groupComments, hnumber]
  simp only [bind, Except.bind, hsome]

end

/-- Each group is continued by the comments that name its issue. -/
theorem groupComments_ok (x : Library) (clock : Nat → Time × Time) (i : Nat) (raw : List Json)
    (grouped : Dict Int (List IssueComment)) (h : ∀ item ∈ raw, UrlReadable item) :
    ∃ out, groupComments x clock i raw grouped = .ok out ∧
      ∀ n, out.get? n = (grouped.get? n).map (· ++ commentsOf x clock n i raw) := by
  induction raw generalizing i grouped with
  | nil =>
    refine ⟨grouped, rfl, fun n ↦ ?_⟩
    simp [commentsOf]
  | cons item rest ih =>
    have hrest : ∀ item ∈ rest, UrlReadable item := fun j hj ↦ h j (List.mem_cons_of_mem _ hj)
    rcases issueNumberFromUrl_cases item with ⟨-, hnumber⟩ | ⟨hbad, -⟩
    · rcases asked_cases item grouped with ⟨m, comments, hm, hcomments⟩ | hother
      · obtain ⟨out, hrun, hout⟩ :=
          ih (i + 1) (grouped.set m (comments ++ [parseComment x (clock i) m item])) hrest
        refine ⟨out, by rw [groupComments_join hnumber hm hcomments, hrun], fun n ↦ ?_⟩
        rw [hout, Dict.get?_set]
        by_cases hn : n = m
        · subst hn
          have hnames : names n item = true := decide_eq_true hm
          rw [if_pos rfl, hcomments, commentsOf, if_pos hnames, Option.map_some, Option.map_some,
            List.append_assoc, List.singleton_append]
        · have hnames : ¬names n item = true := by
            intro hnames
            have hsame := of_decide_eq_true hnames
            rw [hm] at hsame
            exact hn (Option.some.inj hsame).symm
          rw [if_neg hn, commentsOf, if_neg hnames]
      · obtain ⟨out, hrun, hout⟩ := ih (i + 1) grouped hrest
        refine ⟨out, by rw [groupComments_skip hnumber hother, hrun], fun n ↦ ?_⟩
        rw [hout]
        by_cases hnames : names n item = true
        · rw [hother n (of_decide_eq_true hnames), Option.map_none, Option.map_none]
        · rw [commentsOf, if_neg hnames]
    · exact absurd (h item List.mem_cons_self) hbad

/-- Grouping raises at the first URL that is not readable. -/
theorem groupComments_error (x : Library) (clock : Nat → Time × Time) (i : Nat) (raw : List Json)
    (grouped : Dict Int (List IssueComment)) (h : ∃ item ∈ raw, ¬UrlReadable item) :
    ∃ e, groupComments x clock i raw grouped = .error e := by
  induction raw generalizing i grouped with
  | nil =>
    obtain ⟨item, hitem, -⟩ := h
    cases hitem
  | cons item rest ih =>
    rcases issueNumberFromUrl_cases item with ⟨hread, hnumber⟩ | ⟨-, e, herror⟩
    · have hrest : ∃ item ∈ rest, ¬UrlReadable item := by
        obtain ⟨other, hother, hbad⟩ := h
        rcases List.mem_cons.mp hother with rfl | hother
        · exact absurd hread hbad
        · exact ⟨other, hother, hbad⟩
      rcases asked_cases item grouped with ⟨m, comments, hm, hcomments⟩ | hother
      · rw [groupComments_join hnumber hm hcomments]
        exact ih _ _ hrest
      · rw [groupComments_skip hnumber hother]
        exact ih _ _ hrest
    · rw [groupComments, herror]
      exact ⟨e, rfl⟩

end

/-! ## The read of many threads -/

section

variable {x : Library} {clock : Nat → Time × Time} {wanted : List Int}

/-- The groups before the first comment: an empty one for each issue that is asked for. -/
def emptyGroups (wanted : List Int) : Dict Int (List IssueComment) :=
  wanted.foldl (fun grouped number ↦ grouped.set number []) Dict.empty

private theorem get?_emptyGroups (wanted : List Int) (n : Int) :
    (emptyGroups wanted).get? n = if n ∈ wanted then some [] else none := by
  induction wanted using List.reverseRecOn with
  | nil => rfl
  | append_singleton wanted m ih =>
    rw [emptyGroups, List.foldl_append, List.foldl_cons, List.foldl_nil, Dict.get?_set]
    by_cases hm : n = m
    · simp [hm]
    · simp only [hm, if_false, List.mem_append, List.mem_singleton, or_false]
      exact ih

/-- The threads of a stream; `git_providers.py:328–339`. -/
def threadsOf (x : Library) (clock : Nat → Time × Time) (wanted : List Int) (raw : List Json) :
    Except ProviderError (Dict Int (List IssueComment)) := do
  let grouped ← groupComments x clock 0 raw (emptyGroups wanted)
  Dict.comprehend Prod.fst (fun entry ↦ oldestFirst entry.2) grouped.entries Dict.empty

/-- The comments can be given to their issues, and every thread that is wanted be sorted. -/
def Threadable (x : Library) (wanted : List Int) (raw : List Json) : Prop :=
  (∀ item ∈ raw, UrlReadable item) ∧ ∀ n ∈ wanted, ¬Mixed x (raw.filter (names n))

/-- The groups are those of the issues that are asked for. -/
private theorem groups_spec (x : Library) (clock : Nat → Time × Time) (wanted : List Int)
    (hread : ∀ item ∈ raw, UrlReadable item) :
    ∃ grouped, groupComments x clock 0 raw (emptyGroups wanted) = .ok grouped ∧
      ∀ n comments, (n, comments) ∈ grouped.entries ↔
        n ∈ wanted ∧ comments = commentsOf x clock n 0 raw := by
  obtain ⟨grouped, hrun, hgroups⟩ := groupComments_ok x clock 0 raw (emptyGroups wanted) hread
  refine ⟨grouped, hrun, fun n comments ↦ ?_⟩
  rw [← Dict.get?_eq_some_iff, hgroups, get?_emptyGroups]
  by_cases hn : n ∈ wanted
  · simp [hn, eq_comm]
  · simp [hn]

/-- Every issue that is wanted gets its thread, and no other any. -/
theorem threadsOf_ok (clock : Nat → Time × Time) (h : Threadable x wanted raw) :
    ∃ threads, threadsOf x clock wanted raw = .ok threads ∧
      (∀ n ∈ wanted, ∃ thread, threads.get? n = some thread ∧ IsThread x raw n thread) ∧
      ∀ n, n ∉ wanted → threads.get? n = none := by
  obtain ⟨grouped, hgrouped, hentries⟩ := groups_spec x clock wanted h.1
  have hsorted : ∀ n ∈ wanted, ∃ thread, oldestFirst (commentsOf x clock n 0 raw) = .ok thread ∧
      IsThread x raw n thread := by
    intro n hn
    have hread := readsAs_commentsOf x clock n 0 raw
    rcases hread.oldestFirst_cases with ⟨-, thread, hok, hperm, holdest⟩ | ⟨hmixed, -⟩
    · exact ⟨thread, hok, ⟨_, hread, hperm⟩, holdest⟩
    · exact absurd hmixed (h.2 n hn)
  have hall : ∀ entry ∈ grouped.entries, ∃ thread, oldestFirst entry.2 = .ok thread := by
    rintro ⟨n, comments⟩ hentry
    obtain ⟨hn, rfl⟩ := (hentries n comments).mp hentry
    obtain ⟨thread, hok, -⟩ := hsorted n hn
    exact ⟨thread, hok⟩
  obtain ⟨threads, hrun, hset, hother⟩ :=
    Dict.comprehend_ok Prod.fst (fun entry ↦ oldestFirst entry.2) grouped.nodup hall Dict.empty
  refine ⟨threads, ?_, ?_, ?_⟩
  · rw [threadsOf, hgrouped]
    exact hrun
  · intro n hn
    obtain ⟨thread, hok, hthread⟩ := hsorted n hn
    exact ⟨thread, hset _ ((hentries n _).mpr ⟨hn, rfl⟩) thread hok, hthread⟩
  · intro n hn
    refine hother n ?_
    rintro hmem
    obtain ⟨⟨m, comments⟩, hentry, rfl⟩ := List.mem_map.mp hmem
    exact hn ((hentries m comments).mp hentry).1

/-- A URL that is not readable, or a mixed thread that is wanted, makes the read raise. -/
theorem threadsOf_error (h : ¬Threadable x wanted raw) :
    ∃ e, threadsOf x clock wanted raw = .error e := by
  rw [threadsOf]
  by_cases hread : ∀ item ∈ raw, UrlReadable item
  · obtain ⟨n, hn, hmixed⟩ : ∃ n ∈ wanted, Mixed x (raw.filter (names n)) := by
      by_contra hnone
      exact h ⟨hread, fun n hn hmixed ↦ hnone ⟨n, hn, hmixed⟩⟩
    obtain ⟨grouped, hgrouped, hentries⟩ := groups_spec x clock wanted hread
    rw [hgrouped]
    refine Dict.comprehend_error ⟨(n, commentsOf x clock n 0 raw), ?_, .type, ?_⟩ _
    · exact (hentries n _).mpr ⟨hn, rfl⟩
    · rcases (readsAs_commentsOf x clock n 0 raw).oldestFirst_cases with ⟨hsame, -⟩ | ⟨-, herror⟩
      · exact absurd hmixed hsame
      · exact herror
  · obtain ⟨e, herror⟩ := groupComments_error x clock 0 raw (emptyGroups wanted) (by
      by_contra hnone
      exact hread fun item hitem ↦ by_contra fun hbad ↦ hnone ⟨item, hitem, hbad⟩)
    rw [herror]
    exact ⟨e, rfl⟩

end

section

variable {x : Library} {host : Host} {repo : String} {clock : Clock} {issueNumbers : List Int}
  {since : DateTime}

/-- The numbers of the issues that are asked for, as a read goes over them. -/
theorem mem_wanted {n : Int} :
    n ∈ issueNumbers.dedup.insertionSort (· ≤ ·) ↔ n ∈ issueNumbers := by
  rw [List.mem_insertionSort, List.mem_dedup]

/-- Nothing is read for no issue. -/
theorem fetchCommentsBulk_nil :
    fetchCommentsBulk x host repo clock [] (some since) = .ok Dict.empty := rfl

/-- The threads of issues that are asked for are those of the pages. -/
theorem fetchCommentsBulk_since (hne : issueNumbers ≠ []) :
    fetchCommentsBulk x host repo clock issueNumbers (some since) =
      (commentPages ("/repos/" ++ repo ++ "/issues/comments")
        (host ("/repos/" ++ repo ++ "/issues/comments")
          (commentParams x (some since) [("sort", "updated"), ("direction", "asc")]))
        commentMaxPages 1 []).bind
      (threadsOf x (clock none) (issueNumbers.dedup.insertionSort (· ≤ ·))) := by
  have hwanted : issueNumbers.dedup.insertionSort (· ≤ ·) ≠ [] := by
    obtain ⟨n, hn⟩ := List.exists_mem_of_ne_nil _ hne
    exact List.ne_nil_of_mem (mem_wanted.mpr hn)
  simp only [fetchCommentsBulk, if_neg hwanted]
  rfl

/-- A read of issues raises on a broken stream; on a whole one it makes the threads. -/
theorem fetchCommentsBulk_cases (clock : Clock) (hne : issueNumbers ≠ []) :
    ((∃ e, fetchCommentsBulk x host repo clock issueNumbers (some since) = .error e) ∧
      (∀ raw, ¬Whole (commentStream x host repo since) commentMaxPages raw) ∧
      Broken (commentStream x host repo since) commentMaxPages) ∨
    ∃ raw, fetchCommentsBulk x host repo clock issueNumbers (some since) =
        threadsOf x (clock none) (issueNumbers.dedup.insertionSort (· ≤ ·)) raw ∧
      (∀ raw', Whole (commentStream x host repo since) commentMaxPages raw' ↔ raw' = raw) ∧
      ¬Broken (commentStream x host repo since) commentMaxPages := by
  rw [fetchCommentsBulk_since hne]
  rcases commentPages_cases ("/repos/" ++ repo ++ "/issues/comments")
    (host ("/repos/" ++ repo ++ "/issues/comments")
      (commentParams x (some since) [("sort", "updated"), ("direction", "asc")]))
    commentMaxPages 1 [] with ⟨raw, hok, hwhole, hbroken⟩ | ⟨⟨e, herror⟩, hwhole, hbroken⟩
  · refine .inr ⟨raw, ?_, hwhole, hbroken⟩
    rw [hok]
    rfl
  · refine .inl ⟨⟨e, ?_⟩, hwhole, hbroken⟩
    rw [herror]
    rfl

end

end CFactory.Providers
