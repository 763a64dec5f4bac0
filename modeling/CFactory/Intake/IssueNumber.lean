import CFactory.Cards.Index
import CFactory.Git.Access

/-!
# Three readers of an issue reference

`github_sync.py:83–115`, `cards.py:139–149`, `card_intake.py:338–353`. Sync reads a reference as a
whole. The target of a card is found by what stands before its last mark, and a build is sent
under the number that stands after it.
-/

namespace CFactory.Intake

open CFactory.Base CFactory.Model CFactory.Cards CFactory.Git CFactory.Status

/-- The exception `ValueError`. -/
inductive ValueError where
  | value
  deriving DecidableEq

/-- The digits that `int` reads at most. -/
def maxStrDigits : Nat := 4300

/-- `int` of a text of digits. It raises on a digit that is no decimal one, and on a text of more
digits than it reads. -/
def pyInt (digits : List Char) : Except ValueError Nat :=
  if maxStrDigits < digits.length then .error .value
  else
    match intOf digits with
    | none => .error .value
    | some n => .ok n

/-- `int` of a text of digits raises on a digit that is no decimal one, and on too many. -/
theorem pyInt_raises_iff (digits : List Char) :
    (∃ e, pyInt digits = .error e) ↔
      maxStrDigits < digits.length ∨ ∃ c ∈ digits, decimalValue c = none := by
  rw [pyInt, ← intOf_eq_none_iff]
  by_cases hlong : maxStrDigits < digits.length
  · rw [if_pos hlong]
    exact iff_of_true ⟨_, rfl⟩ (.inl hlong)
  · rw [if_neg hlong]
    cases hint : intOf digits with
    | none => exact iff_of_true ⟨_, rfl⟩ (.inr rfl)
    | some n => simp [hlong]

/-- `IssueRef.parse`, on a text of any length; `github_sync.py:109–115`. -/
def readIssueRef (text : Option String) : Except ValueError (Option IssueRef) :=
  match (strip (text.getD "").toList).splitOn '#' with
  | [project, digits] =>
    if isProject project && digits ≠ [] && digits.all Char.isDigit then
      (pyInt digits).map fun (n : Nat) ↦ some ⟨String.ofList project, n⟩
    else .ok none
  | _ => .ok none

/-- `_issue_number_payload`, without the key `number`; `card_intake.py:338–353`. -/
def issueNumberPayload (issueRef : Option String) : Except ValueError (Option Int) :=
  match issueRef with
  | none => .ok none
  | some ref =>
    match ref.toList.reverse.dropWhile (· ≠ '#') with
    | [] => .ok none
    | _ :: _ =>
      let tail := strip (ref.toList.reverse.takeWhile (· ≠ '#')).reverse
      if tail ≠ [] ∧ tail.all isDigitChar = true then
        (pyInt tail).map fun (n : Nat) ↦ some (n : Int)
      else .ok none

example : issueNumberPayload (some "acme/app#42") = .ok (some 42) := by decide +kernel

/-- The readers agree on a text: what sync reads is what the other two read, all of them read
nothing where sync reads nothing, and none of them raises. -/
structure ReadersAgree (s : String) : Prop where
  same : ∀ project number, readIssueRef (some s) = .ok (some ⟨project, number⟩) ↔
    issueProject (some s) = some project ∧ issueNumberPayload (some s) = .ok (some number)
  nothing : readIssueRef (some s) = .ok none →
    issueProject (some s) = none ∧ issueNumberPayload (some s) = .ok none
  returns : (∃ ref, readIssueRef (some s) = .ok ref) ∧
    ∃ number, issueNumberPayload (some s) = .ok number

/-- The text is a reference: a project path, the mark and decimal digits, white space around them
apart. -/
def SpelledRef (s : List Char) : Prop :=
  ∃ project digits, strip s = project ++ '#' :: digits ∧ isProject project = true ∧
    digits ≠ [] ∧ digits.all Char.isDigit = true ∧ digits.length ≤ maxStrDigits

/-- Only white space stands before the last mark of the text, and no digits after it. -/
def NamesNothing (s : List Char) : Prop :=
  ∃ head tail, s = head ++ '#' :: tail ∧ '#' ∉ tail ∧ strip head = [] ∧
    ¬ (strip tail ≠ [] ∧ (strip tail).all isDigitChar = true)

/-! ## What the readers see of a text with a mark -/

/-- A text without a mark has nothing before its last one. -/
private theorem scan_unmarked {s : String} (h : '#' ∉ s.toList) :
    s.toList.reverse.dropWhile (· ≠ '#') = [] := by
  rw [List.dropWhile_eq_nil_iff]
  intro c hc
  rw [decide_eq_true_eq]
  rintro rfl
  exact h (List.mem_reverse.mp hc)

/-- A text without a mark has no number. -/
theorem issueNumberPayload_unmarked {s : String} (h : '#' ∉ s.toList) :
    issueNumberPayload (some s) = .ok none := by
  simp only [issueNumberPayload, scan_unmarked h]

/-- Sync reads nothing from a text without a mark. -/
theorem readIssueRef_unmarked {s : String} (h : '#' ∉ s.toList) :
    readIssueRef (some s) = .ok none := by
  rw [readIssueRef, Option.getD_some]
  split
  · next project digits hsplit =>
    have htext := (splitOn_pair_iff.mp hsplit).1
    have hmem : '#' ∈ strip s.toList := by
      rw [htext]
      exact List.mem_append_right _ List.mem_cons_self
    exact absurd ((List.dropWhile_sublist _).subset
      ((List.rdropWhile_prefix _ _).subset hmem)) h
  · rfl

/-- What is dropped from the front ends at the latest before an element that is kept. -/
private theorem dropWhile_stop {α : Type} {p : α → Bool} {d : α} (hd : p d = false)
    (xs ys : List α) : (xs ++ d :: ys).dropWhile p = xs.dropWhile p ++ d :: ys := by
  induction xs with
  | nil => rw [List.nil_append, List.dropWhile_cons_of_neg (by simp [hd]), List.dropWhile_nil,
      List.nil_append]
  | cons x rest ih =>
    by_cases hx : p x = true
    · rw [List.cons_append, List.dropWhile_cons_of_pos hx, List.dropWhile_cons_of_pos hx, ih]
    · rw [List.cons_append, List.dropWhile_cons_of_neg hx, List.dropWhile_cons_of_neg hx,
        List.cons_append]

/-- White space is stripped before and after the mark on its own. -/
theorem strip_marked (head tail : List Char) :
    strip (head ++ '#' :: tail) = head.dropWhile isSpace ++ '#' :: tail.rdropWhile isSpace := by
  have hmark : isSpace '#' = false := by decide
  rw [strip, dropWhile_stop hmark, List.rdropWhile, List.reverse_append, List.reverse_cons,
    List.append_assoc, List.singleton_append, dropWhile_stop hmark, List.reverse_append,
    List.reverse_cons, List.reverse_reverse, List.append_assoc, List.singleton_append,
    ← List.rdropWhile]

/-- The project of a text with a mark. -/
theorem issueProject_marked {s : String} {head tail : List Char}
    (hs : s.toList = head ++ '#' :: tail) (htail : '#' ∉ tail) :
    issueProject (some s) =
      if strip head = [] then none else some (String.ofList (strip head)) := by
  have hscan : s.toList.reverse.dropWhile (· ≠ '#') = '#' :: head.reverse := by
    rw [hs]
    exact (scan_last htail).1
  have hempty : stripped (some (String.ofList head)) = "" ↔ strip head = [] := by
    rw [stripped, Option.getD_some, String.toList_ofList, ← String.toList_inj,
      String.toList_ofList]
    rfl
  rw [issueProject]
  simp only [hscan, List.reverse_reverse, strippedOrNone, hempty]
  rw [stripped, Option.getD_some, String.toList_ofList]

/-- The number of a text with a mark. -/
theorem issueNumberPayload_marked {s : String} {head tail : List Char}
    (hs : s.toList = head ++ '#' :: tail) (htail : '#' ∉ tail) :
    issueNumberPayload (some s) =
      if strip tail ≠ [] ∧ (strip tail).all isDigitChar = true then
        (pyInt (strip tail)).map fun (n : Nat) ↦ some (n : Int)
      else .ok none := by
  have hscan := @scan_last Char _ '#' head tail htail
  simp only [issueNumberPayload, hs, hscan.1, hscan.2, List.reverse_reverse]

/-- What sync reads from a text with a mark. -/
theorem readIssueRef_marked {s : String} {head tail : List Char}
    (hs : s.toList = head ++ '#' :: tail) (htail : '#' ∉ tail) :
    readIssueRef (some s) =
      if isProject (head.dropWhile isSpace) = true ∧ tail.rdropWhile isSpace ≠ [] ∧
          (tail.rdropWhile isSpace).all Char.isDigit = true then
        (pyInt (tail.rdropWhile isSpace)).map fun (n : Nat) ↦
          some ⟨String.ofList (head.dropWhile isSpace), n⟩
      else .ok none := by
  have hdigits : '#' ∉ tail.rdropWhile isSpace :=
    fun hmem ↦ htail ((List.rdropWhile_prefix isSpace tail).subset hmem)
  rw [readIssueRef, Option.getD_some, hs, strip_marked]
  by_cases hproject : '#' ∈ head.dropWhile isSpace
  · have hnone : isProject (head.dropWhile isSpace) = false := by
      rw [← Bool.not_eq_true]
      intro h
      rcases mem_project h hproject with hsegment | hslash
      · exact absurd hsegment (by decide)
      · exact absurd hslash (by decide)
    split
    · next project digits hsplit =>
      obtain ⟨htext, hfree, hfree'⟩ := splitOn_pair_iff.mp hsplit
      rw [(split_last hdigits hfree' htext).1] at hproject
      exact absurd hproject hfree
    · rw [hnone]
      simp
  · rw [splitOn_pair_iff.mpr ⟨rfl, hproject, hdigits⟩]
    simp only [Bool.and_eq_true, decide_eq_true_eq, and_assoc]

/-- Decimal digits are read unless there are too many of them. -/
theorem pyInt_digits {digits : List Char} (h : digits.all Char.isDigit = true) :
    (digits.length ≤ maxStrDigits ∧ ∃ n, pyInt digits = .ok n) ∨
      (¬ digits.length ≤ maxStrDigits ∧ pyInt digits = .error .value) := by
  have hint : intOf digits = some (Nat.ofDigitChars 10 digits 0) :=
    intOf_digits digits (fun c hc ↦ List.all_eq_true.mp h c hc) 0
  unfold pyInt
  by_cases hlong : maxStrDigits < digits.length
  · exact .inr ⟨by omega, if_pos hlong⟩
  · refine .inl ⟨by omega, Nat.ofDigitChars 10 digits 0, ?_⟩
    rw [if_neg hlong, hint]

/-- A project before the mark is what is left when the text before it is stripped. -/
private theorem strip_head {head : List Char} (h : isProject (head.dropWhile isSpace) = true) :
    strip head = head.dropWhile isSpace := by
  have hself := strip_project h
  rwa [strip, List.dropWhile_idempotent] at hself

/-- Digits after the mark are what is left when the text after it is stripped. -/
private theorem strip_tail {tail : List Char} (hne : tail.rdropWhile isSpace ≠ [])
    (h : (tail.rdropWhile isSpace).all Char.isDigit = true) :
    strip tail = tail.rdropWhile isSpace := by
  obtain ⟨rest, hrest⟩ := List.rdropWhile_prefix isSpace tail
  cases hfront : tail.rdropWhile isSpace with
  | nil => exact absurd hfront hne
  | cons c digits =>
    rw [hfront] at h hrest
    have hplain : plainChar c = true := by
      simp [plainChar, List.all_eq_true.mp h c List.mem_cons_self]
    have hkept : tail.dropWhile isSpace = tail := by
      rw [← hrest, List.cons_append, List.dropWhile_cons_of_neg
        (by simp [(plainChar_spec hplain).1])]
    rw [strip, hkept, hfront]

/-- A text with a mark is a reference by what stands on either side of its last mark. -/
private theorem spelledRef_marked {head tail : List Char} (htail : '#' ∉ tail) :
    SpelledRef (head ++ '#' :: tail) ↔
      (isProject (head.dropWhile isSpace) = true ∧ tail.rdropWhile isSpace ≠ [] ∧
        (tail.rdropWhile isSpace).all Char.isDigit = true) ∧
        (tail.rdropWhile isSpace).length ≤ maxStrDigits := by
  have hfree : '#' ∉ tail.rdropWhile isSpace :=
    fun hmem ↦ htail ((List.rdropWhile_prefix isSpace tail).subset hmem)
  rw [SpelledRef, strip_marked]
  constructor
  · rintro ⟨project, digits, htext, hproject, hne, hdigits, hshort⟩
    have hmark : '#' ∉ digits := fun hmem ↦
      absurd (List.all_eq_true.mp hdigits '#' hmem) (by decide)
    obtain ⟨rfl, rfl⟩ := split_last hfree hmark htext
    exact ⟨⟨hproject, hne, hdigits⟩, hshort⟩
  · rintro ⟨⟨hproject, hne, hdigits⟩, hshort⟩
    exact ⟨_, _, rfl, hproject, hne, hdigits, hshort⟩

/-- So does it name nothing. -/
private theorem namesNothing_marked {head tail : List Char} (htail : '#' ∉ tail) :
    NamesNothing (head ++ '#' :: tail) ↔
      strip head = [] ∧ ¬ (strip tail ≠ [] ∧ (strip tail).all isDigitChar = true) := by
  constructor
  · rintro ⟨head', tail', htext, htail', hnothing⟩
    obtain ⟨rfl, rfl⟩ := split_last htail htail' htext
    exact hnothing
  · exact fun h ↦ ⟨head, tail, rfl, htail, h⟩

/-- Readers that all read nothing agree. -/
private theorem agree_of_nothing {s : String} (hread : readIssueRef (some s) = .ok none)
    (hproject : issueProject (some s) = none)
    (hnumber : issueNumberPayload (some s) = .ok none) : ReadersAgree s := by
  refine ⟨fun project number ↦ ?_, fun _ ↦ ⟨hproject, hnumber⟩, ⟨none, hread⟩, none, hnumber⟩
  rw [hread, hproject]
  simp

/-- A text without a mark names nothing to any reader. -/
private theorem agree_of_unmarked {s : String} (h : '#' ∉ s.toList) : ReadersAgree s := by
  have hproject : issueProject (some s) = none := by simp only [issueProject, scan_unmarked h]
  exact agree_of_nothing (readIssueRef_unmarked h) hproject (issueNumberPayload_unmarked h)

/-- The readers agree exactly on a text without a mark, on a reference whose number is not too
long to be read, and on a text that names neither a project nor a number. -/
theorem readers_agree_iff (s : String) :
    ReadersAgree s ↔
      '#' ∉ s.toList ∨ SpelledRef s.toList ∨ NamesNothing s.toList := by
  by_cases hmark : '#' ∈ s.toList
  swap
  · exact iff_of_true (agree_of_unmarked hmark) (.inl hmark)
  obtain ⟨head, tail, hs, htail⟩ := exists_last hmark
  have hread := readIssueRef_marked hs htail
  have hproject := issueProject_marked hs htail
  have hnumber := issueNumberPayload_marked hs htail
  rw [or_iff_right (not_not.mpr hmark), hs, spelledRef_marked htail, namesNothing_marked htail]
  by_cases hvalid : isProject (head.dropWhile isSpace) = true ∧ tail.rdropWhile isSpace ≠ [] ∧
      (tail.rdropWhile isSpace).all Char.isDigit = true
  · obtain ⟨hpath, hne, hdigits⟩ := hvalid
    have hfilled : head.dropWhile isSpace ≠ [] := by
      intro hempty
      rw [hempty] at hpath
      exact absurd hpath (by decide)
    have hall : (tail.rdropWhile isSpace).all isDigitChar = true :=
      List.all_eq_true.mpr fun c hc ↦ (digit_spec (List.all_eq_true.mp hdigits c hc)).1
    rw [if_pos ⟨hpath, hne, hdigits⟩] at hread
    rw [strip_head hpath, if_neg hfilled] at hproject
    rw [strip_tail hne hdigits, if_pos ⟨hne, hall⟩] at hnumber
    rw [strip_head hpath]
    rcases pyInt_digits hdigits with ⟨hshort, n, hint⟩ | ⟨hlong, hint⟩
    · rw [hint] at hread hnumber
      refine iff_of_true ⟨fun project number ↦ ?_, fun hnone ↦ ?_, ⟨_, hread⟩, _, hnumber⟩
        (.inl ⟨⟨hpath, hne, hdigits⟩, hshort⟩)
      · rw [hread, hproject, hnumber]
        simp [Except.map]
      · rw [hread] at hnone
        cases hnone
    · rw [hint] at hread
      apply iff_of_false
      · intro h
        obtain ⟨ref, href⟩ := h.returns.1
        rw [hread] at href
        cases href
      · rintro (hspelled | hnothing)
        · exact hlong hspelled.2
        · exact hfilled hnothing.1
  · rw [if_neg hvalid] at hread
    rw [or_iff_right fun h ↦ hvalid h.1]
    constructor
    · intro h
      obtain ⟨hnoProject, hnoNumber⟩ := h.nothing hread
      constructor
      · by_contra hfilled
        rw [hproject, if_neg hfilled] at hnoProject
        cases hnoProject
      · intro hdigits
        rw [hnumber, if_pos hdigits] at hnoNumber
        cases hint : pyInt (strip tail) with
        | error e =>
          rw [hint] at hnoNumber
          cases hnoNumber
        | ok n =>
          rw [hint] at hnoNumber
          cases hnoNumber
    · rintro ⟨hempty, hdigits⟩
      rw [if_pos hempty] at hproject
      rw [if_neg hdigits] at hnumber
      exact agree_of_nothing hread hproject hnumber

/-- A short enough reference is read as sync's parser reads it. -/
theorem readIssueRef_of_short {text : Option String}
    (h : (text.getD "").toList.length ≤ maxStrDigits) :
    readIssueRef text = .ok (IssueRef.parse text) := by
  rw [readIssueRef, IssueRef.parse]
  cases hsplit : (strip (text.getD "").toList).splitOn '#' with
  | nil => rfl
  | cons project parts =>
    rcases parts with _ | ⟨digits, _ | ⟨other, rest⟩⟩
    · rfl
    · dsimp only
      by_cases hvalid : (isProject project && digits ≠ [] && digits.all Char.isDigit) = true
      · rw [if_pos hvalid, if_pos hvalid]
        rw [Bool.and_eq_true] at hvalid
        have hstrip : (strip (text.getD "").toList).length ≤ (text.getD "").toList.length :=
          (List.rdropWhile_prefix _ _).length_le.trans (List.dropWhile_sublist _).length_le
        have hshort : ¬ maxStrDigits < digits.length := by
          rw [(splitOn_pair_iff.mp hsplit).1, List.length_append, List.length_cons] at hstrip
          omega
        have hint : intOf digits = some (Nat.ofDigitChars 10 digits 0) :=
          intOf_digits digits (fun c hc ↦ List.all_eq_true.mp hvalid.2 c hc) 0
        rw [pyInt, if_neg hshort, hint]
        rfl
      · rw [if_neg hvalid, if_neg hvalid]
    · rfl

/-- A reference with a superscript digit raises in the reader of the build's number. -/
theorem superscript_number_raises :
    issueNumberPayload (some "acme/app#²") = .error .value ∧
      ¬ ReadersAgree "acme/app#²" := by
  have hraises : issueNumberPayload (some "acme/app#²") = .error .value := by decide +kernel
  refine ⟨hraises, fun h ↦ ?_⟩
  obtain ⟨number, hnumber⟩ := h.returns.2
  rw [hraises] at hnumber
  cases hnumber

end CFactory.Intake
