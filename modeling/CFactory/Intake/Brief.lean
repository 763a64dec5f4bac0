import CFactory.Base.Delimited
import CFactory.Cards.IssueRef
import CFactory.Cards.Card

/-!
# The brief of a card

`card_intake.py:125–174`. The text that all three intake doors are sent: the title, where the
description opens with no heading, the description, and the criteria, where the description has
no section of its own for them.
-/

namespace CFactory.Intake

open CFactory.Base CFactory.Model CFactory.Cards CFactory.Status

/-- A letter of a pattern under `re.IGNORECASE`. The two dotted and dotless letters beyond the
basic alphabet match an i. -/
def sameLetter (letter c : Char) : Bool :=
  c.toLower == letter || (letter == 'i' && (c.val == 0x130 || c.val == 0x131))

/-- What is left of a text that starts with the word, in whatever case. -/
def afterWord : List Char → List Char → Option (List Char)
  | [], text => some text
  | _ :: _, [] => none
  | letter :: word, c :: text => if sameLetter letter c then afterWord word text else none

/-- The texts after the starts of all lines; `^` under `re.MULTILINE`. -/
def lineStarts (text : List Char) : List (List Char) :=
  text :: (text.tails.filter fun t ↦ t.head? == some '\n').map List.tail

section

variable (isWord : Char → Bool)

/-- `#{1,6}\s*acceptance\s+criteria\b` at the start of a text. Neither a further `#` nor white
space can start what follows a run of them, so each run is taken whole. `isWord` are the
characters that `\w` matches; `card_intake.py:167`. -/
def criteriaHeading (text : List Char) : Bool :=
  let hashes := (text.takeWhile (· == '#')).length
  if 1 ≤ hashes ∧ hashes ≤ 6 then
    match afterWord "acceptance".toList ((text.drop hashes).dropWhile isSpace) with
    | none => false
    | some rest =>
      match afterWord "criteria".toList (rest.dropWhile isSpace) with
      | none => false
      | some after => rest.head?.any isSpace && !after.head?.any isWord
  else false

/-- The description has a heading of its own for the criteria; `card_intake.py:167`. -/
def hasOwnCriteria (body : List Char) : Bool := (lineStarts body).any (criteriaHeading isWord)

/-- The stripped description; `card_intake.py:146`. -/
def briefBody (card : Card) : List Char := strip (card.description.getD "").toList

/-- The title, unless the description opens with a heading, and the description;
`card_intake.py:145–160`. -/
def briefOpening (card : Card) : List (List Char) :=
  (if (briefBody card).head? = some '#' then []
    else ("# " ++ card.title).toList :: (if briefBody card = [] then [] else [[]])) ++
    (if briefBody card = [] then [] else [briefBody card])

/-- The section of the criteria after the lines before it; `card_intake.py:168–172`. -/
def criteriaSection (before : List (List Char)) (criteria : List String) : List (List Char) :=
  (if before = [] then [] else [[]]) ++ ["## Acceptance Criteria".toList, []] ++
    criteria.map fun ac ↦ ("- " ++ ac).toList

/-- The lines of `_brief`; `card_intake.py:145–172`. -/
def briefLines (card : Card) : List (List Char) :=
  briefOpening card ++
    if card.acceptanceCriteria ≠ [] ∧ hasOwnCriteria isWord (briefBody card) = false then
      criteriaSection (briefOpening card) card.acceptanceCriteria
    else []

/-- `_brief`; `card_intake.py:125–174`. -/
def brief (card : Card) : String := String.ofList (join '\n' (briefLines isWord card))

end

/-- A text is part of another. -/
def Carries (whole part : String) : Prop := part.toList <:+: whole.toList

instance (whole part : String) : Decidable (Carries whole part) :=
  inferInstanceAs (Decidable (_ <:+: _))

/-- The brief holds each of its lines. -/
theorem line_brief (isWord : Char → Bool) {card : Card} {line : List Char}
    (h : line ∈ briefLines isWord card) : line <:+: (brief isWord card).toList := by
  rw [brief, String.toList_ofList]
  exact infix_join '\n' h

/-- A brief is never empty: it holds the title or a description with a heading. -/
theorem brief_ne_empty (isWord : Char → Bool) (card : Card) : brief isWord card ≠ "" := by
  intro hempty
  have hline : ∃ line ∈ briefLines isWord card, line ≠ [] := by
    by_cases hheading : (briefBody card).head? = some '#'
    · have hne : briefBody card ≠ [] := by
        intro hnil
        rw [hnil] at hheading
        cases hheading
      refine ⟨briefBody card, ?_, hne⟩
      simp [briefLines, briefOpening, hheading, hne]
    · refine ⟨("# " ++ card.title).toList, ?_, by simp⟩
      simp [briefLines, briefOpening, hheading]
  obtain ⟨line, hmem, hne⟩ := hline
  have hinfix := line_brief isWord hmem
  rw [hempty] at hinfix
  exact hne (List.eq_nil_of_infix_nil hinfix)

/-- A brief carries the stripped description. -/
theorem brief_description (isWord : Char → Bool) (card : Card) :
    Carries (brief isWord card) (String.ofList (briefBody card)) := by
  rw [Carries, String.toList_ofList]
  by_cases hempty : briefBody card = []
  · rw [hempty]
    exact List.nil_infix
  · apply line_brief
    simp [briefLines, briefOpening, hempty]

/-- A brief carries every criterion, unless the description has a heading of its own for them. -/
theorem brief_criteria (isWord : Char → Bool) {card : Card}
    (hown : hasOwnCriteria isWord (briefBody card) = false) {ac : String}
    (hac : ac ∈ card.acceptanceCriteria) : Carries (brief isWord card) ac := by
  have hne : card.acceptanceCriteria ≠ [] := List.ne_nil_of_mem hac
  have hline : ("- " ++ ac).toList ∈ briefLines isWord card := by
    rw [briefLines, if_pos ⟨hne, hown⟩, criteriaSection, List.mem_append, List.mem_append]
    exact .inr (.inr (List.mem_map_of_mem hac))
  have hsuffix : ac.toList <:+ ("- " ++ ac).toList := by
    rw [String.toList_append]
    exact List.suffix_append _ _
  exact hsuffix.isInfix.trans (line_brief isWord hline)

/-- Where it has one, the criteria are left to the description. -/
theorem brief_own (isWord : Char → Bool) {card : Card}
    (hown : hasOwnCriteria isWord (briefBody card) = true) :
    brief isWord card = brief isWord { card with acceptanceCriteria := [] } := by
  have hlines : briefLines isWord card =
      briefLines isWord { card with acceptanceCriteria := [] } := by
    rw [briefLines, briefLines, if_neg (by simp [hown]), if_neg (by simp)]
    rfl
  rw [brief, brief, hlines]

/-- A brief is not empty and carries the description. It carries every criterion, unless the
description has a heading of its own for them: then the description alone speaks for them. -/
theorem brief_carries_card (isWord : Char → Bool) (card : Card) :
    brief isWord card ≠ "" ∧ Carries (brief isWord card) (String.ofList (briefBody card)) ∧
      (hasOwnCriteria isWord (briefBody card) = false →
        ∀ ac ∈ card.acceptanceCriteria, Carries (brief isWord card) ac) ∧
      (hasOwnCriteria isWord (briefBody card) = true →
        brief isWord card = brief isWord { card with acceptanceCriteria := [] }) :=
  ⟨brief_ne_empty isWord card, brief_description isWord card,
    fun hown _ hac ↦ brief_criteria isWord hown hac, brief_own isWord⟩

/-- A card whose description has criteria of its own, and whose tracked ones were edited. -/
def editedCriteriaCard : Card :=
  { cardKey := "FCT-1", title := "Add a health check"
    description := some "Serve it.\n\n## Acceptance Criteria\n- [ ] answers 200"
    acceptanceCriteria := ["answers within a second"] }

/-- Its brief leaves the edited criterion out. -/
theorem edited_criterion_withheld :
    editedCriteriaCard.title ≠ "" ∧
      "answers within a second" ∈ editedCriteriaCard.acceptanceCriteria ∧
      ¬ Carries (brief (fun c ↦ c.isAlphanum || c == '_') editedCriteriaCard)
        "answers within a second" := by
  refine ⟨by decide, by decide, ?_⟩
  decide +kernel

end CFactory.Intake
