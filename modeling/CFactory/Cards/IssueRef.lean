import CFactory.Base.Calendar
import CFactory.Base.Delimited
import CFactory.Status.Taxonomy
import Mathlib.Data.List.DropRight
import Std.Data.String.ToInt

/-!
# Issue references

`github_sync.py:78–115`, `git_config.py:110–122`, `cards.py:139–149,928–950`. The text
`owner/repo#123` that joins a card to an issue: the project paths a reference may name, the
validated parse, the rendering, and the prefix match by which the cards of a project are
selected.
-/

namespace CFactory.Cards

open CFactory.Base
open CFactory.Status

/-- `str.strip`. -/
def strip (s : List Char) : List Char := (s.dropWhile isSpace).rdropWhile isSpace

/-- A character of a path segment; `_SEGMENT`, `git_config.py:120`. -/
def segmentChar (c : Char) : Bool := c.isAlphanum || c == '_' || c == '.' || c == '-'

/-- A path segment: segment characters, one of them alphanumeric; `git_config.py:120`. -/
def isSegment (s : List Char) : Bool := s.all segmentChar && s.any Char.isAlphanum

/-- `PROJECT_PATTERN`: at least two segments between slashes; `git_config.py:121`. -/
def isProject (p : List Char) : Bool :=
  decide (2 ≤ (p.splitOn '/').length) && (p.splitOn '/').all isSegment

/-- `IssueRef`; `github_sync.py:93–115`. -/
structure IssueRef where
  project : String
  number : Int
  deriving DecidableEq, Repr

/-- `IssueRef.__str__`; `github_sync.py:106–107`. -/
def IssueRef.text (r : IssueRef) : String := r.project ++ "#" ++ Int.repr r.number

/-- `IssueRef.parse`; `github_sync.py:109–115`. -/
def IssueRef.parse (text : Option String) : Option IssueRef :=
  match (strip (text.getD "").toList).splitOn '#' with
  | [project, digits] =>
    if isProject project && digits ≠ [] && digits.all Char.isDigit then
      some ⟨String.ofList project, Nat.ofDigitChars 10 digits 0⟩
    else none
  | _ => none

/-- One character of a `LIKE` pattern: `_` stands for any but the null character, where a text
ends, and some databases do not tell ASCII cases apart. -/
def likeChar (nocase : Bool) (pattern c : Char) : Bool :=
  (pattern == '_' && c.val != 0) || pattern == c || (nocase && pattern.toLower == c.toLower)

/-- `startswith` of a column, as the pattern followed by `%`. -/
def likePrefix (nocase : Bool) : List Char → List Char → Bool
  | [], _ => true
  | _ :: _, [] => false
  | p :: ps, c :: cs => likeChar nocase p c && likePrefix nocase ps cs

example : IssueRef.parse (some " acme/app#42\n") = some ⟨"acme/app", 42⟩ := by decide +kernel

example : IssueRef.parse (some "../app#42") = none := by decide +kernel

/-! ## Rendering and parsing -/

theorem text_toList (r : IssueRef) :
    r.text.toList = r.project.toList ++ '#' :: (Int.repr r.number).toList := by
  rw [IssueRef.text, String.toList_append, String.toList_append, List.append_assoc]
  rfl

/-- A rendered number holds no `#`. -/
theorem hash_not_mem_repr (n : Int) : '#' ∉ (Int.repr n).toList := by
  intro hmem
  cases mem_intRepr hmem with
  | inl hdigit => exact absurd hdigit (by decide)
  | inr hsign => exact absurd hsign.1 (by decide)

/-- References with the same text are the same reference. -/
theorem text_injective {r s : IssueRef} (h : r.text = s.text) : r = s := by
  have hchars := congrArg String.toList h
  rw [text_toList, text_toList] at hchars
  obtain ⟨hproject, hnumber⟩ :=
    split_last (hash_not_mem_repr r.number) (hash_not_mem_repr s.number) hchars
  cases r
  cases s
  simp only [IssueRef.mk.injEq]
  exact ⟨String.toList_injective hproject, Int.repr_injective (String.toList_injective hnumber)⟩

/-- A project path holds segment characters and slashes only. -/
theorem mem_project {p : List Char} (h : isProject p = true) {c : Char} (hc : c ∈ p) :
    segmentChar c = true ∨ c = '/' := by
  rw [isProject, Bool.and_eq_true, List.all_eq_true] at h
  have hjoin : join '/' (p.splitOn '/') = p := List.intercalate_splitOn '/'
  rw [← hjoin] at hc
  cases mem_join hc with
  | inl hslash => exact .inr hslash
  | inr hsegment =>
    obtain ⟨segment, hsegment, hin⟩ := hsegment
    have hall := h.2 segment hsegment
    rw [isSegment, Bool.and_eq_true, List.all_eq_true] at hall
    exact .inl (hall.1 c hin)

/-- Characters of references other than the mark before the number. -/
def plainChar (c : Char) : Bool := segmentChar c || c == '/' || c.isDigit

/-- Such a character is a printable one of the basic alphabet. -/
theorem plainChar_val {c : Char} (h : plainChar c = true) :
    33 ≤ c.val.toNat ∧ c.val.toNat ≤ 122 ∧ c.val.toNat ≠ 35 := by
  rw [plainChar, segmentChar] at h
  delta Char.isAlphanum Char.isAlpha Char.isUpper Char.isLower Char.isDigit at h
  simp only [Bool.or_eq_true, Bool.and_eq_true, decide_eq_true_eq, beq_iff_eq,
    UInt32.le_iff_toNat_le, ge_iff_le] at h
  have hA : 'A'.val.toNat = 65 := rfl
  have hZ : 'Z'.val.toNat = 90 := rfl
  have ha : 'a'.val.toNat = 97 := rfl
  have hz : 'z'.val.toNat = 122 := rfl
  have h0 : '0'.val.toNat = 48 := rfl
  have h9 : '9'.val.toNat = 57 := rfl
  rcases h with (((((((h | h) | h) | h) | h) | h) | h) | h)
  · omega
  · omega
  · omega
  · rw [h]; decide
  · rw [h]; decide
  · rw [h]; decide
  · rw [h]; decide
  · omega

/-- It is neither white space nor the mark. -/
theorem plainChar_spec {c : Char} (h : plainChar c = true) :
    isSpace c = false ∧ c ≠ '#' := by
  obtain ⟨hlow, hhigh, hhash⟩ := plainChar_val h
  constructor
  · cases hs : isSpace c with
    | false => rfl
    | true =>
      simp only [isSpace, Bool.or_eq_true, Bool.and_eq_true, decide_eq_true_eq, beq_iff_eq,
        UInt32.le_iff_toNat_le, ← UInt32.toNat_inj] at hs
      simp only [UInt32.reduceToNat] at hs
      omega
  · rintro rfl
    exact hhash rfl

/-- A project path is made of such characters. -/
theorem plainChar_of_mem {p : List Char} (h : isProject p = true) {c : Char} (hc : c ∈ p) :
    plainChar c = true := by
  cases mem_project h hc with
  | inl hsegment => simp [plainChar, hsegment]
  | inr hslash => simp [plainChar, hslash]

/-- A project path holds no white space. -/
theorem strip_project {p : List Char} (h : isProject p = true) : strip p = p := by
  apply trim_eq_self
  intro c hc
  exact (plainChar_spec (plainChar_of_mem h hc)).1

/-- A rendered reference to a project path and a natural number is read back. -/
theorem parse_text {r : IssueRef} (hproject : isProject r.project.toList = true)
    (hnumber : 0 ≤ r.number) : IssueRef.parse (some r.text) = some r := by
  obtain ⟨project, number⟩ := r
  obtain ⟨n, rfl⟩ := Int.eq_ofNat_of_zero_le hnumber
  have hdigits : (Int.repr n).toList = Nat.toDigits 10 n := Nat.toList_repr
  have hplain : ∀ c ∈ project.toList, plainChar c = true :=
    fun c hc ↦ plainChar_of_mem hproject hc
  have hdigit : ∀ c ∈ Nat.toDigits 10 n, c.isDigit = true :=
    fun c hc ↦ Nat.isDigit_of_mem_toDigits (by omega) (by omega) hc
  have htext : (IssueRef.text ⟨project, n⟩).toList =
      project.toList ++ '#' :: Nat.toDigits 10 n := by
    rw [text_toList, hdigits]
  have hstrip : strip (project.toList ++ '#' :: Nat.toDigits 10 n) =
      project.toList ++ '#' :: Nat.toDigits 10 n := by
    apply trim_eq_self
    intro c hc
    rcases List.mem_append.mp hc with hc | hc
    · exact (plainChar_spec (hplain c hc)).1
    · rcases List.mem_cons.mp hc with rfl | hc
      · decide
      · exact (plainChar_spec (by simp [plainChar, hdigit c hc])).1
  have hsplit : (project.toList ++ '#' :: Nat.toDigits 10 n).splitOn '#' =
      [project.toList, Nat.toDigits 10 n] :=
    splitOn_pair_iff.mpr ⟨rfl, fun hc ↦ (plainChar_spec (hplain _ hc)).2 rfl,
      fun hc ↦ (plainChar_spec (by simp [plainChar, hdigit _ hc])).2 rfl⟩
  rw [IssueRef.parse, Option.getD_some, htext, hstrip, hsplit]
  have hall : (Nat.toDigits 10 n).all Char.isDigit = true := List.all_eq_true.mpr hdigit
  have hne : decide (Nat.toDigits 10 n ≠ []) = true := decide_eq_true Nat.toDigits_ne_nil
  simp only [hproject, hall, hne, Bool.and_self, if_true, String.ofList_toList,
    Nat.ofDigitChars_ten_toDigits]

end CFactory.Cards
